import ZxProto.ObjectRead
import ZxProto.Library.Z80

/-!
# The assembler decoder `_proto_object_read`

The Spectrum build decodes bodies with a routine of its own.  It takes its
arguments off the stack, writes the size field, and then follows the sizes that it
finds from `buffer_from` on, one pointer for each, until the cursor is not below
the end of the body.  The test stands behind the first pointer, and nothing is
checked.

* `protoObjectReadAsm` — the routine, instruction by instruction;
* `Walk` — what one turn of its loop does to the memory and the two cursors;
* `AtLabel` — the machine at `proto_object_read_property`, after any number of
  turns;
* `Safe`, `safe_iff_left` — it returns and stays inside `buffer_available`, exactly
  if the walk is left early enough;
* `Walk.leavesAfter_of_tiled` — on whole properties the walk is the C loop;
* `Placed`, `CReads`, `AsmReads`, `decoders_agree_iff` — it agrees with the C decoder
  on every body but the empty one.
-/

namespace ZxProto

open ByteMemory Z80

/-! ## The routine -/

/-- `_proto_object_read`. -/
def protoObjectReadAsm : List Instr :=
  [.pop .iy,           -- ret
    .pop .hl,          -- buffer_from
    .pop .de,          -- object_size
    .pop .bc,          -- buffer_available
    .pop .ix,          -- obj
    .push .iy,         -- ret
    .storeIx .e,       -- obj->object_size = object_size
    .inc .ix,
    .storeIx .d,
    .inc .ix,
    .push .hl,
    .addHl .de,
    .exDeHl,           -- end = it + object_size
    .pop .hl,
    -- 14, `proto_object_read_property`
    .storeIx .l,       -- *properties++ = it
    .inc .ix,
    .storeIx .h,
    .inc .ix,
    .loadHl .c,        -- value_size
    .inc .hl,
    .loadHl .b,
    .inc .hl,
    .inc .hl,          -- key
    .addHl .bc,        -- it += value_size
    .orA,
    .sbcHl .de,
    .addHl .de,
    .jrC 14,
    -- 28
    .storeIxImm 0,     -- *properties = NULL
    .inc .ix,
    .storeIxImm 0,
    .ldHl 0,           -- return 0
    .ret]

/-- The call: the routine is entered, and has written nothing. -/
def atEntry (s : State) : State :=
  { s with control := .running 0, stored := [], pushed := [] }

/-- The address to return to. -/
def returnAddress (s : State) : UInt16 := readWord s.mem s.sp

/-- The argument `buffer_from`. -/
def bufferFromArg (s : State) : UInt16 := readWord s.mem (s.sp + 2)

/-- The argument `object_size`. -/
def objectSizeArg (s : State) : UInt16 := readWord s.mem (s.sp + 4)

/-- The argument `buffer_available`. -/
def bufferAvailableArg (s : State) : UInt16 := readWord s.mem (s.sp + 6)

/-- The argument `obj`. -/
def objArg (s : State) : UInt16 := readWord s.mem (s.sp + 8)

/-! ## The walk -/

/-- What the loop changes: the memory, the cursor `it` in the body and the cursor
`properties` in the table. -/
structure Walk where
  mem : Memory
  it : UInt16
  properties : UInt16

/-- One turn of the loop.  The size is read after the pointer has been written. -/
def Walk.next (w : Walk) : Walk where
  mem := writeWord w.mem w.properties w.it
  it := w.it + 3 + readWord (writeWord w.mem w.properties w.it) w.it
  properties := w.properties + 2

/-- The NULL behind the pointers. -/
def Walk.finish (w : Walk) : Memory := writeWord w.mem w.properties 0

/-- The loop is left after `m` turns: the cursor was below the end after each turn
before the last. -/
structure Walk.LeavesAfter (stop : UInt16) (w : Walk) (m : Nat) : Prop where
  pos : 0 < m
  stays : ∀ k, 0 < k → k < m → (Walk.next^[k] w).it < stop
  leaves : ¬ (Walk.next^[m] w).it < stop

/-- The memory when the loop is entered: the return address has been put back over
the argument `obj`, the size field is written, and `push hl` has left the cursor
over the argument `buffer_available`. -/
def memAtLabel (s : State) : Memory :=
  pushWord
    (writeWord (pushWord s.mem (s.sp + 10) (returnAddress s)) (objArg s) (objectSizeArg s))
    (s.sp + 8) (bufferFromArg s)

/-- The walk that the arguments start. -/
def entryWalk (s : State) : Walk where
  mem := memAtLabel s
  it := bufferFromArg s
  properties := objArg s + 2

theorem iterate_next_properties (w : Walk) (k : Nat) :
    (Walk.next^[k] w).properties = w.properties + UInt16.ofNat (2 * k) := by
  induction k with
  | zero => exact (UInt16.add_zero _).symm
  | succ k ih =>
      rw [Function.iterate_succ_apply', Nat.mul_succ, UInt16.ofNat_add, ← UInt16.add_assoc, ← ih]
      rfl

/-- `end`. -/
def stopArg (s : State) : UInt16 := bufferFromArg s + objectSizeArg s

/-- Successive addresses, the first of them `a`. -/
def addressesFrom (a : UInt16) (n : Nat) : List UInt16 :=
  (List.range n).map fun i => a + UInt16.ofNat i

theorem addressesFrom_succ (a : UInt16) (n : Nat) :
    addressesFrom a (n + 1) = addressesFrom a n ++ [a + UInt16.ofNat n] := by
  unfold addressesFrom
  rw [List.range_succ, List.map_append, List.map_singleton]

/-- One word more. -/
theorem addressesFrom_add_two (a : UInt16) (n : Nat) :
    addressesFrom a (n + 2) =
      addressesFrom a n ++ [a + UInt16.ofNat n] ++ [a + UInt16.ofNat n + 1] := by
  have hnext : a + UInt16.ofNat (n + 1) = a + UInt16.ofNat n + 1 := by
    rw [UInt16.ofNat_add, UInt16.add_assoc]
    rfl
  rw [addressesFrom_succ, addressesFrom_succ, hnext]

/-- Successive addresses stay inside a block exactly if the block is as long. -/
theorem addressesFrom_within (a available : UInt16) (n : Nat) :
    (∀ x ∈ addressesFrom a n, (x - a).toNat < available.toNat) ↔ n ≤ available.toNat := by
  have hlt := available.toNat_lt
  have hoffset : ∀ i, i < 65536 → (a + UInt16.ofNat i - a).toNat = i := by
    intro i hi
    rw [UInt16.add_comm, UInt16.add_sub_cancel, UInt16.toNat_ofNat_of_lt' hi]
  constructor
  · intro hall
    by_contra hmore
    have hmem : a + UInt16.ofNat available.toNat ∈ addressesFrom a n := by
      apply List.mem_map_of_mem
      rw [List.mem_range]
      omega
    have hbound := hall _ hmem
    rw [hoffset _ hlt] at hbound
    exact absurd hbound (Nat.lt_irrefl _)
  · intro hle x hx
    obtain ⟨i, hi, rfl⟩ := List.mem_map.mp hx
    rw [List.mem_range] at hi
    rw [hoffset i (by omega)]
    omega

/-! ## The machine at the label -/

/-- The machine in front of the loop, or behind it, after `k` turns. -/
structure AtLabel (s : State) (k : Nat) (t : State) : Prop where
  mem : t.mem = (Walk.next^[k] (entryWalk s)).mem
  hl_eq : t.hl = (Walk.next^[k] (entryWalk s)).it
  ix_eq : t.ix = objArg s + UInt16.ofNat (2 + 2 * k)
  de_eq : t.de = stopArg s
  sp : t.sp = s.sp + 8
  stored : t.stored = addressesFrom (objArg s) (2 + 2 * k)
  pushed : t.pushed = [s.sp + 9, s.sp + 8, s.sp + 7, s.sp + 6]

/-- The return address and the arguments are taken off the stack. -/
theorem run_pops (s : State) :
    run protoObjectReadAsm 5 (atEntry s) =
      { s with
        bc := bufferAvailableArg s
        de := objectSizeArg s
        hl := bufferFromArg s
        ix := objArg s
        iy := returnAddress s
        sp := s.sp + 10
        control := .running 5
        stored := []
        pushed := [] } := by
  -- the stack pointer as the instructions move it
  have h4 : s.sp + 4 = s.sp + 2 + 2 := by grind
  have h6 : s.sp + 6 = s.sp + 2 + 2 + 2 := by grind
  have h8 : s.sp + 8 = s.sp + 2 + 2 + 2 + 2 := by grind
  have h10 : s.sp + 10 = s.sp + 2 + 2 + 2 + 2 + 2 := by grind
  unfold bufferAvailableArg objectSizeArg bufferFromArg objArg returnAddress
  rw [h4, h6, h8, h10]
  obtain ⟨bc, de, hl, ix, iy, sp, carry, mem, control, stored, pushed⟩ := s
  rfl

/-- The return address is put back. -/
theorem run_putBack {t : State} (h : t.control = .running 5) :
    run protoObjectReadAsm 1 t =
      { t with
        sp := t.sp - 2
        mem := pushWord t.mem t.sp t.iy
        control := .running 6
        pushed := t.pushed ++ [t.sp - 1, t.sp - 2] } := by
  obtain ⟨bc, de, hl, ix, iy, sp, carry, mem, control, stored, pushed⟩ := t
  cases h
  rfl

/-- The arguments are in the registers, and the return address lies over the last of
them. -/
theorem run_arguments (s : State) :
    run protoObjectReadAsm 6 (atEntry s) =
      { s with
        bc := bufferAvailableArg s
        de := objectSizeArg s
        hl := bufferFromArg s
        ix := objArg s
        iy := returnAddress s
        sp := s.sp + 8
        mem := pushWord s.mem (s.sp + 10) (returnAddress s)
        control := .running 6
        stored := []
        pushed := [s.sp + 9, s.sp + 8] } := by
  have h8 : s.sp + 10 - 2 = s.sp + 8 := by grind
  have h9 : s.sp + 10 - 1 = s.sp + 9 := by grind
  rw [show 6 = 5 + 1 from rfl, run_add, run_putBack (by rw [run_pops]), run_pops]
  simp only [h8, h9, List.nil_append]

/-- The size field is written, and the end of the body computed. -/
theorem run_objectSize {t : State} (h : t.control = .running 6) :
    run protoObjectReadAsm 8 t =
      { t with
        de := t.hl + t.de
        hl := readWord (pushWord (writeWord t.mem t.ix t.de) t.sp t.hl) (t.sp - 2)
        ix := t.ix + 1 + 1
        sp := t.sp - 2 + 2
        carry := decide (65536 ≤ t.hl.toNat + t.de.toNat)
        mem := pushWord (writeWord t.mem t.ix t.de) t.sp t.hl
        control := .running 14
        stored := t.stored ++ [t.ix] ++ [t.ix + 1]
        pushed := t.pushed ++ [t.sp - 1, t.sp - 2] } := by
  obtain ⟨bc, de, hl, ix, iy, sp, carry, mem, control, stored, pushed⟩ := t
  cases h
  rfl

/-- The body of the loop up to the test. -/
theorem run_property {t : State} (h : t.control = .running 14) :
    run protoObjectReadAsm 10 t =
      { t with
        bc := u16le (lo (u16le (readByte (writeWord t.mem t.ix t.hl) t.hl) (hi t.bc)))
          (readByte (writeWord t.mem t.ix t.hl) (t.hl + 1))
        hl := t.hl + 1 + 1 + 1 +
          u16le (lo (u16le (readByte (writeWord t.mem t.ix t.hl) t.hl) (hi t.bc)))
            (readByte (writeWord t.mem t.ix t.hl) (t.hl + 1))
        ix := t.ix + 1 + 1
        carry := (run protoObjectReadAsm 10 t).carry
        mem := writeWord t.mem t.ix t.hl
        control := .running 24
        stored := t.stored ++ [t.ix] ++ [t.ix + 1] } := by
  obtain ⟨bc, de, hl, ix, iy, sp, carry, mem, control, stored, pushed⟩ := t
  cases h
  rfl

/-- The test is taken in the carry flag. -/
theorem run_test {t : State} (h : t.control = .running 24) :
    run protoObjectReadAsm 4 t =
      { t with
        carry := decide (t.hl < t.de)
        control := .running (if t.hl < t.de then 14 else 28) } :=
  run_compare h rfl rfl rfl rfl

/-- The NULL is written, and the routine returns. -/
theorem run_epilogue {t : State} (h : t.control = .running 28) :
    run protoObjectReadAsm 5 t =
      { t with
        hl := 0
        ix := t.ix + 1
        sp := t.sp + 2
        mem := writeWord t.mem t.ix 0
        control := .returned (readWord (writeWord t.mem t.ix 0) t.sp)
        stored := t.stored ++ [t.ix] ++ [t.ix + 1] } := by
  obtain ⟨bc, de, hl, ix, iy, sp, carry, mem, control, stored, pushed⟩ := t
  cases h
  rfl

/-- The loop is entered with the walk that the arguments start. -/
theorem atLabel_entry (s : State) :
    AtLabel s 0 (run protoObjectReadAsm 14 (atEntry s)) ∧
      (run protoObjectReadAsm 14 (atEntry s)).control = .running 14 := by
  have hpop : s.sp + 8 - 2 + 2 = s.sp + 8 := UInt16.sub_add_cancel _ _
  have h7 : s.sp + 8 - 1 = s.sp + 7 := by grind
  have h6 : s.sp + 8 - 2 = s.sp + 6 := by grind
  have hone : objArg s + 1 + 1 = objArg s + 2 := UInt16.add_assoc _ _ _
  rw [show 14 = 6 + 8 from rfl, run_add, run_objectSize (by rw [run_arguments]), run_arguments]
  refine ⟨⟨rfl, ?_, hone, rfl, hpop, ?_, ?_⟩, rfl⟩
  · exact readWord_pushWord _ _ _
  · have hzero : objArg s + UInt16.ofNat 0 = objArg s := UInt16.add_zero _
    rw [Nat.mul_zero, Nat.add_comm, addressesFrom_add_two, hzero]
    rfl
  · show [s.sp + 9, s.sp + 8] ++ [s.sp + 8 - 1, s.sp + 8 - 2] = _
    rw [h7, h6]
    rfl

theorem AtLabel.properties_eq {s t : State} {k : Nat} (h : AtLabel s k t) :
    (Walk.next^[k] (entryWalk s)).properties = t.ix := by
  rw [iterate_next_properties, h.ix_eq, UInt16.ofNat_add, ← UInt16.add_assoc]
  rfl

/-- One turn of the loop. -/
theorem AtLabel.turn {s t : State} {k : Nat} (h : AtLabel s k t)
    (hcontrol : t.control = .running 14) :
    AtLabel s (k + 1) (run protoObjectReadAsm 14 t) ∧
      (run protoObjectReadAsm 14 t).control =
        .running (if (Walk.next^[k + 1] (entryWalk s)).it < stopArg s then 14 else 28) := by
  have hthree : t.hl + 1 + 1 + 1 = t.hl + 3 := by grind
  have hsize : ∀ mem : Memory, u16le (lo (u16le (readByte mem t.hl) (hi t.bc)))
      (readByte mem (t.hl + 1)) = readWord mem t.hl := by
    intro mem
    rw [lo_u16le]
    rfl
  have htwo : t.ix + 1 + 1 = t.ix + 2 := UInt16.add_assoc _ _ _
  have hnext : Walk.next^[k + 1] (entryWalk s) =
      ⟨writeWord t.mem t.ix t.hl, t.hl + 3 + readWord (writeWord t.mem t.ix t.hl) t.hl,
        t.ix + 2⟩ := by
    rw [Function.iterate_succ_apply', Walk.next, h.mem, h.hl_eq, h.properties_eq]
  rw [show 14 = 10 + 4 from rfl, run_add, run_test (by rw [run_property hcontrol]),
    run_property hcontrol, hnext]
  simp only [hthree, hsize, htwo, h.de_eq]
  refine ⟨⟨?_, ?_, ?_, rfl, h.sp, ?_, h.pushed⟩, trivial⟩
  · rw [hnext]
  · rw [hnext]
  · rw [Nat.mul_succ, ← Nat.add_assoc, UInt16.ofNat_add, ← UInt16.add_assoc, ← h.ix_eq]
    rfl
  · rw [Nat.mul_succ, ← Nat.add_assoc, addressesFrom_add_two, h.stored, h.ix_eq]

/-- The routine returns behind the loop. -/
theorem AtLabel.finish {s t : State} {k : Nat} (h : AtLabel s k t)
    (hcontrol : t.control = .running 28) :
    (run protoObjectReadAsm 5 t).control =
        .returned (readWord (Walk.next^[k] (entryWalk s)).finish (s.sp + 8)) ∧
      (run protoObjectReadAsm 5 t).mem = (Walk.next^[k] (entryWalk s)).finish ∧
      (run protoObjectReadAsm 5 t).hl = 0 ∧
      (run protoObjectReadAsm 5 t).stored = addressesFrom (objArg s) (4 + 2 * k) ∧
      (run protoObjectReadAsm 5 t).pushed = [s.sp + 9, s.sp + 8, s.sp + 7, s.sp + 6] := by
  have hfour : 4 + 2 * k = 2 + 2 * k + 2 := by omega
  rw [run_epilogue hcontrol, hfour, addressesFrom_add_two]
  simp only [Walk.finish, h.properties_eq, h.mem, h.sp, h.stored, h.ix_eq, h.pushed, and_self]

/-- As long as the cursor is below the end, the machine is in front of the loop. -/
theorem atLabel_of_stays {s : State} {m : Nat}
    (hstays : ∀ k, 0 < k → k < m → (Walk.next^[k] (entryWalk s)).it < stopArg s) :
    ∀ k < m, AtLabel s k (run protoObjectReadAsm (14 + 14 * k) (atEntry s)) ∧
      (run protoObjectReadAsm (14 + 14 * k) (atEntry s)).control = .running 14 := by
  intro k hk
  induction k with
  | zero => exact atLabel_entry s
  | succ k ih =>
      obtain ⟨hlabel, hcontrol⟩ := ih (by omega)
      obtain ⟨hlabel', hcontrol'⟩ := hlabel.turn hcontrol
      rw [if_pos (hstays (k + 1) (Nat.succ_pos k) hk)] at hcontrol'
      rw [Nat.mul_succ, ← Nat.add_assoc, run_add]
      exact ⟨hlabel', hcontrol'⟩

/-! ## Leaving the loop -/

/-- Where the loop is left at all, it is left for a first time. -/
theorem Walk.exists_leavesAfter {stop : UInt16} {w : Walk} {m : Nat} (hm : 0 < m)
    (hleaves : ¬ (Walk.next^[m] w).it < stop) : ∃ k, k ≤ m ∧ w.LeavesAfter stop k := by
  have hex : ∃ k, 0 < k ∧ ¬ (Walk.next^[k] w).it < stop := ⟨m, hm, hleaves⟩
  classical
  obtain ⟨hpos, hfirst⟩ := Nat.find_spec hex
  refine ⟨Nat.find hex, Nat.find_min' hex ⟨hm, hleaves⟩, hpos, fun k hk hlt => ?_, hfirst⟩
  by_contra hnot
  exact Nat.find_min hex hlt ⟨hk, hnot⟩

/-- What the routine has done when it returns, `m` turns after it was entered. -/
structure Returned (s : State) (m : Nat) (t : State) : Prop where
  control : t.control = .returned (readWord (Walk.next^[m] (entryWalk s)).finish (s.sp + 8))
  mem : t.mem = (Walk.next^[m] (entryWalk s)).finish
  hl : t.hl = 0
  stored : t.stored = addressesFrom (objArg s) (4 + 2 * m)
  pushed : t.pushed = [s.sp + 9, s.sp + 8, s.sp + 7, s.sp + 6]

/-- A loop that is left is returned from. -/
theorem returned_of_leavesAfter {s : State} {m : Nat}
    (h : (entryWalk s).LeavesAfter (stopArg s) m) :
    ∃ n, Returned s m (run protoObjectReadAsm n (atEntry s)) := by
  obtain ⟨k, rfl⟩ := Nat.exists_eq_add_of_lt h.pos
  rw [Nat.zero_add] at h ⊢
  obtain ⟨hlabel, hcontrol⟩ := atLabel_of_stays h.stays k (Nat.lt_succ_self k)
  obtain ⟨hlabel', hcontrol'⟩ := hlabel.turn hcontrol
  rw [if_neg h.leaves] at hcontrol'
  obtain ⟨hreturned, hmem, hhl, hstored, hpushed⟩ := hlabel'.finish hcontrol'
  rw [← run_add, ← run_add] at hreturned hmem hhl hstored hpushed
  exact ⟨_, hreturned, hmem, hhl, hstored, hpushed⟩

/-- A loop that is never left is not returned from. -/
theorem not_returned_of_stays {s : State}
    (hstays : ∀ k, 0 < k → (Walk.next^[k] (entryWalk s)).it < stopArg s) (n : Nat)
    (address : UInt16) :
    (run protoObjectReadAsm n (atEntry s)).control ≠ .returned address := by
  intro hreturned
  obtain ⟨-, hcontrol⟩ := atLabel_of_stays (m := n + 1) (fun k hk _ => hstays k hk) n
    (Nat.lt_succ_self n)
  -- the machine would have left the loop for good
  rw [returned_of_le protoObjectReadAsm (show n ≤ 14 + 14 * n by omega) hreturned, hreturned]
    at hcontrol
  cases hcontrol

/-- The routine ends in one way. -/
theorem Returned.of_control {s : State} {m n : Nat} {address : UInt16}
    (h : (entryWalk s).LeavesAfter (stopArg s) m)
    (hreturned : (run protoObjectReadAsm n (atEntry s)).control = .returned address) :
    Returned s m (run protoObjectReadAsm n (atEntry s)) := by
  obtain ⟨k, hk⟩ := returned_of_leavesAfter h
  rcases Nat.le_total n k with hle | hle
  · rwa [returned_of_le protoObjectReadAsm hle hreturned] at hk
  · rwa [returned_of_le protoObjectReadAsm hle hk.control]

/-- A call of the decoders. -/
def readCall (mem : Memory) (bufferFrom objectSize bufferAvailable obj : UInt16) : State where
  bc := 0
  de := 0
  hl := 0
  ix := 0
  iy := 0
  sp := 61440
  carry := false
  mem := storeAll mem
    [⟨61440, u16Bytes 25000⟩, ⟨61442, u16Bytes bufferFrom⟩, ⟨61444, u16Bytes objectSize⟩,
      ⟨61446, u16Bytes bufferAvailable⟩, ⟨61448, u16Bytes obj⟩]
  control := .running 0
  stored := []
  pushed := []

/-! ## Safety -/

/-- The routine returns, and all that it has written by then lies in the
`buffer_available` bytes at `obj` or in its own arguments. -/
def Safe (s : State) : Prop :=
  ∃ n address, (run protoObjectReadAsm n (atEntry s)).control = .returned address ∧
    (∀ a ∈ (run protoObjectReadAsm n (atEntry s)).stored,
      (a - objArg s).toNat < (bufferAvailableArg s).toNat) ∧
    ∀ a ∈ (run protoObjectReadAsm n (atEntry s)).pushed, (a - (s.sp + 2)).toNat < 8

/-- The two words that are pushed lie in the arguments. -/
theorem pushed_within (sp : UInt16) :
    ∀ a ∈ [sp + 9, sp + 8, sp + 7, sp + 6], (a - (sp + 2)).toNat < 8 := by
  have h9 : sp + 9 - (sp + 2) = 7 := by grind
  have h8 : sp + 8 - (sp + 2) = 6 := by grind
  have h7 : sp + 7 - (sp + 2) = 5 := by grind
  have h6 : sp + 6 - (sp + 2) = 4 := by grind
  simp only [List.forall_mem_cons, h9, h8, h7, h6]
  simp

theorem safe_of_leavesAfter {s : State} {m : Nat}
    (h : (entryWalk s).LeavesAfter (stopArg s) m)
    (hfits : 4 + 2 * m ≤ (bufferAvailableArg s).toNat) : Safe s := by
  obtain ⟨n, hn⟩ := returned_of_leavesAfter h
  refine ⟨n, _, hn.control, ?_, ?_⟩
  · rw [hn.stored]
    exact (addressesFrom_within _ _ _).mpr hfits
  · rw [hn.pushed]
    exact pushed_within s.sp

/-- A safe call leaves the loop, and its table fits. -/
theorem Safe.leavesAfter {s : State} (h : Safe s) :
    ∃ m, (entryWalk s).LeavesAfter (stopArg s) m ∧
      4 + 2 * m ≤ (bufferAvailableArg s).toNat := by
  obtain ⟨n, address, hreturned, hstored, -⟩ := h
  by_cases hstays : ∀ k, 0 < k → (Walk.next^[k] (entryWalk s)).it < stopArg s
  · exact absurd hreturned (not_returned_of_stays hstays n address)
  · simp only [not_forall] at hstays
    obtain ⟨m, hm, hleaves⟩ := hstays
    obtain ⟨k, -, hk⟩ := Walk.exists_leavesAfter hm hleaves
    rw [(Returned.of_control hk hreturned).stored] at hstored
    exact ⟨k, hk, (addressesFrom_within _ _ _).mp hstored⟩

/-- **The routine is safe exactly if the loop is left in time**: one of the cursors
that the table has room for is not below the end of the body. -/
theorem safe_iff_left (s : State) :
    Safe s ↔ ∃ m, 0 < m ∧ 4 + 2 * m ≤ (bufferAvailableArg s).toNat ∧
      ¬ (Walk.next^[m] (entryWalk s)).it < stopArg s := by
  constructor
  · intro hsafe
    obtain ⟨m, hm, hfits⟩ := hsafe.leavesAfter
    exact ⟨m, hm.pos, hfits, hm.leaves⟩
  · rintro ⟨m, hm, hfits, hleaves⟩
    obtain ⟨k, hle, hk⟩ := Walk.exists_leavesAfter hm hleaves
    exact safe_of_leavesAfter hk (by omega)

/-- A safe call changes nothing but the bytes at `obj` and its own arguments. -/
theorem Safe.frame {s : State} (h : Safe s) :
    ∃ n address, (run protoObjectReadAsm n (atEntry s)).control = .returned address ∧
      ∀ i, (∀ a : UInt16, (a - objArg s).toNat < (bufferAvailableArg s).toNat → i ≠ a.toNat) →
        (∀ a : UInt16, (a - (s.sp + 2)).toNat < 8 → i ≠ a.toNat) →
        (run protoObjectReadAsm n (atEntry s)).mem i = s.mem i := by
  obtain ⟨n, address, hreturned, hstored, hpushed⟩ := h
  refine ⟨n, address, hreturned, fun i hobj hstack => ?_⟩
  apply (written_run protoObjectReadAsm n (atEntry s)).kept
  · intro a ha
    exact hobj a (hstored a ha)
  · intro a ha
    exact hstack a (hpushed a ha)

/-- A call that is not safe writes behind the `buffer_available` bytes. -/
theorem exists_overrun_of_not_safe {s : State} (h : ¬ Safe s) :
    ∃ n, ∃ a ∈ (run protoObjectReadAsm n (atEntry s)).stored,
      (bufferAvailableArg s).toNat ≤ (a - objArg s).toNat := by
  by_contra hnone
  have hwithin : ∀ n, ∀ a ∈ (run protoObjectReadAsm n (atEntry s)).stored,
      (a - objArg s).toNat < (bufferAvailableArg s).toNat := by
    intro n a ha
    by_contra hover
    exact hnone ⟨n, a, ha, Nat.not_lt.mp hover⟩
  by_cases hstays : ∀ k, 0 < k → (Walk.next^[k] (entryWalk s)).it < stopArg s
  -- the table grows with every turn
  · have hall : ∀ k, 2 + 2 * k ≤ (bufferAvailableArg s).toNat := by
      intro k
      obtain ⟨hlabel, -⟩ := atLabel_of_stays (m := k + 1) (fun j hj _ => hstays j hj) k
        (Nat.lt_succ_self k)
      have hbound := hwithin (14 + 14 * k)
      rw [hlabel.stored] at hbound
      exact (addressesFrom_within _ _ _).mp hbound
    have hmore := hall (bufferAvailableArg s).toNat
    omega
  · simp only [not_forall] at hstays
    obtain ⟨m, hm, hleaves⟩ := hstays
    obtain ⟨k, -, hk⟩ := Walk.exists_leavesAfter hm hleaves
    obtain ⟨n, hn⟩ := returned_of_leavesAfter hk
    have hbound := hwithin n
    rw [hn.stored] at hbound
    exact h (safe_of_leavesAfter hk ((addressesFrom_within _ _ _).mp hbound))

/-- 63 empty properties at 32768, for the 128 bytes at 36864. -/
def crowdedCall : State := readCall (fun _ => 0) 32768 189 128 36864

/-- The table has room for 62 pointers, and the cursor is still below the end. -/
theorem not_safe_crowdedCall : ¬ Safe crowdedCall := by
  have hstays : ∀ k < 63, 0 < k →
      (Walk.next^[k] (entryWalk crowdedCall)).it < stopArg crowdedCall := by
    decide +kernel
  have havailable : (bufferAvailableArg crowdedCall).toNat = 128 := by decide
  intro hsafe
  obtain ⟨m, hm, hfits⟩ := hsafe.leavesAfter
  rw [havailable] at hfits
  exact hm.leaves (hstays m (by omega) hm.pos)

/-! ## Bodies of whole properties -/

/-- The bytes of a pointer table with `n` pointers. -/
def tableSize (n : Nat) : Nat := (n + 1) * Platform.spectrum.pointerSize

theorem tableSize_eq (n : Nat) : tableSize n = 2 * n + 2 := by
  show (n + 1) * 2 = _
  omega

/-- One turn on a whole property writes the pointer to it and steps over it. -/
theorem Walk.next_of_tiled {stop : UInt16} {p : Property} {props : List Property} {w : Walk}
    (hbody : slice w.mem w.it.toNat (stop.toNat - w.it.toNat) = bodyBytes (p :: props))
    (htable : w.properties.toNat + 4 ≤ 65536)
    (hapart : Apart w.it.toNat (stop.toNat - w.it.toNat) w.properties.toNat 2) :
    w.next.mem = store w.mem ⟨w.properties.toNat, u16Bytes w.it⟩ ∧
      w.next.it.toNat = w.it.toNat + p.size ∧ w.it.toNat + p.size ≤ stop.toNat ∧
      w.next.properties.toNat = w.properties.toNat + 2 ∧
      slice w.next.mem w.next.it.toNat (stop.toNat - w.next.it.toNat) = bodyBytes props := by
  have hstop := stop.toNat_lt
  have hmem : w.next.mem = store w.mem ⟨w.properties.toNat, u16Bytes w.it⟩ :=
    writeWord_eq_store w.mem w.it (by omega)
  have hkept : AgreeOn w.mem w.next.mem w.it.toNat (stop.toNat - w.it.toNat) := by
    rw [hmem]
    exact (agreeOff_store w.mem ⟨le_rfl, le_rfl⟩).agreeOn hapart.symm
  rw [← hkept.slice_eq] at hbody
  obtain ⟨hlt, -, hsize, hnext, hrest⟩ := tiled_cons hbody
  have hpos : sizeofProtoObjectProperty ≤ p.size := Nat.le_add_left _ _
  unfold sizeofProtoObjectProperty at hpos hsize
  -- the size is where the C decoder reads it
  have hread : readWord w.next.mem w.it = protoPropertyValueSize w.next.mem w.it.toNat := by
    have hadd : (w.it + 1).toNat = w.it.toNat + 1 :=
      toNat_add_of_lt (show w.it.toNat + 1 < 65536 by omega)
    rw [readWord, readByte, readByte, hadd, protoPropertyValueSize]
  have hit : w.next.it.toNat = w.it.toNat + p.size := by
    have hthree : (w.it + 3).toNat = w.it.toNat + 3 :=
      toNat_add_of_lt (show w.it.toNat + 3 < 65536 by omega)
    show (w.it + 3 + readWord w.next.mem w.it).toNat = _
    rw [hread, toNat_add_of_lt (by omega), hthree]
    omega
  refine ⟨hmem, hit, hnext, ?_, ?_⟩
  · exact toNat_add_of_lt (show w.properties.toNat + 2 < 65536 by omega)
  · rw [hit]
    exact hrest

/-- The loop goes on behind a turn that leaves the cursor below the end. -/
theorem Walk.LeavesAfter.succ {stop : UInt16} {w : Walk} {m : Nat} (hlt : w.next.it < stop)
    (h : w.next.LeavesAfter stop m) : w.LeavesAfter stop (m + 1) := by
  refine ⟨Nat.succ_pos m, fun k hk hm => ?_, h.leaves⟩
  obtain ⟨j, rfl⟩ := Nat.exists_eq_succ_of_ne_zero (Nat.pos_iff_ne_zero.mp hk)
  rw [Function.iterate_succ_apply]
  rcases Nat.eq_zero_or_pos j with rfl | hj
  · exact hlt
  · exact h.stays j hj (Nat.lt_of_succ_lt_succ hm)

/-- **The loop on whole properties.**  It is left behind the last of them, and has then
filled the table as the C loop does. -/
theorem Walk.leavesAfter_of_tiled {stop : UInt16} {p : Property} {props : List Property}
    {w : Walk} (hbody : slice w.mem w.it.toNat (stop.toNat - w.it.toNat) = bodyBytes (p :: props))
    (htable : w.properties.toNat + tableSize (props.length + 1) ≤ 65536)
    (hapart : Apart w.it.toNat (stop.toNat - w.it.toNat) w.properties.toNat
      (tableSize (props.length + 1))) :
    w.LeavesAfter stop (props.length + 1) ∧
      (Walk.next^[props.length + 1] w).finish =
        storeAll w.mem (tableStores Platform.spectrum w.properties.toNat
          (propertyAddresses w.it.toNat (p :: props))) := by
  rw [tableSize_eq] at htable hapart
  induction props generalizing p w with
  | nil =>
      rw [List.length_nil] at htable hapart ⊢
      obtain ⟨hmem, hit, hnext, hproperties, hrest⟩ :=
        Walk.next_of_tiled hbody htable (hapart.mono le_rfl le_rfl le_rfl (by omega))
      have hstop := tiled_nil (by omega) hrest
      constructor
      · refine ⟨Nat.one_pos, fun k hk hlt => by omega, ?_⟩
        show ¬ w.next.it < stop
        rw [UInt16.lt_iff_toNat_lt]
        omega
      · show writeWord w.next.mem w.next.properties 0 = _
        rw [writeWord_eq_store _ _ (by omega), hmem, hproperties]
        rfl
  | cons q props ih =>
      rw [List.length_cons] at htable hapart ⊢
      obtain ⟨hmem, hit, hnext, hproperties, hrest⟩ :=
        Walk.next_of_tiled hbody (by omega) (hapart.mono le_rfl le_rfl le_rfl (by omega))
      obtain ⟨hlt, -⟩ := tiled_cons hrest
      obtain ⟨hleaves, hfinish⟩ := ih hrest (by omega)
        (hapart.mono (by omega) (by omega) (by omega) (by omega))
      constructor
      · exact hleaves.succ (UInt16.lt_iff_toNat_lt.mpr hlt)
      · rw [Function.iterate_succ_apply, hfinish, hmem, hproperties, hit]
        rfl

/-! ## Agreement with the C decoder -/

/-- The body, the table and the stack of a call lie apart and do not wrap; the table
of the body's properties fits `buffer_available`. -/
structure Placed (props : List Property) (s : State) : Prop where
  body : slice s.mem (bufferFromArg s).toNat (objectSizeArg s).toNat = bodyBytes props
  fits : TableFits Platform.spectrum props.length (bufferAvailableArg s).toNat
  bodyInside : (bufferFromArg s).toNat + (objectSizeArg s).toNat < 65536
  tableInside : (objArg s).toNat + (sizeofProtoObject + tableSize props.length) ≤ 65536
  stackInside : s.sp.toNat + 10 ≤ 65536
  bodyTable : Apart (bufferFromArg s).toNat (objectSizeArg s).toNat (objArg s).toNat
    (sizeofProtoObject + tableSize props.length)
  bodyStack : Apart (bufferFromArg s).toNat (objectSizeArg s).toNat s.sp.toNat 10
  tableStack : Apart (objArg s).toNat (sizeofProtoObject + tableSize props.length) s.sp.toNat 10

/-- The object that shows the properties where the body is. -/
def shownObject (props : List Property) (s : State) : ProtoObject where
  objectSize := objectSizeArg s
  properties := propertyAddresses (bufferFromArg s).toNat props

/-- The memory holds an object at an address. -/
def HoldsObject (mem : Memory) (obj : Nat) (o : ProtoObject) : Prop :=
  slice mem obj (objectTable Platform.spectrum o).length = objectTable Platform.spectrum o

/-- `proto_object_read` returns 0 and leaves the object. -/
structure CReads (props : List Property) (s : State) (held : ProtoObject) : Prop where
  result : (protoObjectRead Platform.spectrum (objArg s).toNat held (bufferAvailableArg s)
    (objectSizeArg s) s.mem (bufferFromArg s).toNat).result = 0
  object : (protoObjectRead Platform.spectrum (objArg s).toNat held (bufferAvailableArg s)
    (objectSizeArg s) s.mem (bufferFromArg s).toNat).object = shownObject props s
  holds : HoldsObject
    (storeAll s.mem (protoObjectRead Platform.spectrum (objArg s).toNat held
      (bufferAvailableArg s) (objectSizeArg s) s.mem (bufferFromArg s).toNat).stores)
    (objArg s).toNat (shownObject props s)

/-- `_proto_object_read` returns 0, in `l`, to its caller and leaves the object. -/
def AsmReads (props : List Property) (s : State) : Prop :=
  ∃ n, (run protoObjectReadAsm n (atEntry s)).control = .returned (returnAddress s) ∧
    (run protoObjectReadAsm n (atEntry s)).get8 .l = 0 ∧
    HoldsObject (run protoObjectReadAsm n (atEntry s)).mem (objArg s).toNat (shownObject props s)

/-- The size field and the table together are the object. -/
theorem holdsObject_tableStores {mem : Memory} {obj : Nat} {o : ProtoObject}
    (hsize : slice mem obj sizeofProtoObject = u16Bytes o.objectSize) :
    HoldsObject (storeAll mem (tableStores Platform.spectrum (obj + sizeofProtoObject)
      o.properties)) obj o := by
  have hlater : ∀ s ∈ tableStores Platform.spectrum (obj + sizeofProtoObject) o.properties,
      s.Avoids obj sizeofProtoObject := fun s hs =>
    (tableStores_within _ _ _ s hs).avoids (Or.inr le_rfl)
  have htable := slice_tableStores Platform.spectrum mem (obj + sizeofProtoObject) o.properties
  unfold HoldsObject
  rw [length_objectTable, slice_add, slice_storeAll_of_avoids _ hlater, hsize, htable, objectTable,
    List.append_assoc]

section Agreement

variable {props : List Property} {s : State}

/-- The C decoder reads every such body, the empty one included. -/
theorem Placed.cReads (h : Placed props s) (held : ProtoObject) : CReads props s held := by
  have hread := protoObjectRead_of_tiled Platform.spectrum (objArg s).toNat held
    (bufferAvailableArg s) (objectSizeArg s) s.mem (bufferFromArg s).toNat h.body
  rw [if_pos h.fits.mod] at hread
  have hsize : slice (store s.mem ⟨(objArg s).toNat, u16Bytes (objectSizeArg s)⟩) (objArg s).toNat
      sizeofProtoObject = u16Bytes (shownObject props s).objectSize :=
    slice_store_self s.mem (objArg s).toNat (u16Bytes (objectSizeArg s))
  refine ⟨?_, ?_, ?_⟩
  · rw [hread]
  · rw [hread]
    rfl
  · rw [hread]
    exact holdsObject_tableStores hsize

/-- The memory when the loop is entered, as three blocks. -/
theorem Placed.memAtLabel_eq (h : Placed props s) :
    memAtLabel s = storeAll s.mem
      [⟨s.sp.toNat + 8, u16Bytes (returnAddress s)⟩,
        ⟨(objArg s).toNat, u16Bytes (objectSizeArg s)⟩,
        ⟨s.sp.toNat + 6, u16Bytes (bufferFromArg s)⟩] := by
  have hstack := h.stackInside
  have htable := h.tableInside
  have h8 : s.sp + 10 - 2 = s.sp + 8 := by grind
  have h6 : s.sp + 8 - 2 = s.sp + 6 := by grind
  have hret : (s.sp + 8).toNat = s.sp.toNat + 8 :=
    toNat_add_of_lt (show s.sp.toNat + 8 < 65536 by omega)
  have hcursor : (s.sp + 6).toNat = s.sp.toNat + 6 :=
    toNat_add_of_lt (show s.sp.toNat + 6 < 65536 by omega)
  unfold sizeofProtoObject at htable
  unfold memAtLabel
  rw [pushWord_eq_store _ _ (by rw [h6, hcursor]; omega), writeWord_eq_store _ _ (by omega),
    pushWord_eq_store _ _ (by rw [h8, hret]; omega), h8, h6, hret, hcursor]
  rfl

/-- What the loop finds in the memory: the return address, the size field, the body. -/
theorem Placed.slices (h : Placed props s) :
    slice (memAtLabel s) (s.sp.toNat + 8) 2 = u16Bytes (returnAddress s) ∧
      slice (memAtLabel s) (objArg s).toNat sizeofProtoObject = u16Bytes (objectSizeArg s) ∧
      slice (memAtLabel s) (bufferFromArg s).toNat (objectSizeArg s).toNat = bodyBytes props := by
  have htable := h.tableStack
  have hbodyTable := h.bodyTable
  have hbodyStack := h.bodyStack
  unfold Apart sizeofProtoObject at htable hbodyTable
  unfold Apart at hbodyStack
  rw [h.memAtLabel_eq]
  refine ⟨?_, ?_, ?_⟩
  · have hcursor : (⟨s.sp.toNat + 6, u16Bytes (bufferFromArg s)⟩ : Store).Avoids
        (s.sp.toNat + 8) 2 := Or.inr le_rfl
    have hsize : (⟨(objArg s).toNat, u16Bytes (objectSizeArg s)⟩ : Store).Avoids
        (s.sp.toNat + 8) 2 := by
      unfold Store.Avoids
      simp only [length_u16Bytes]
      omega
    simp only [storeAll_cons, storeAll_nil]
    rw [slice_store_of_avoids _ hcursor, slice_store_of_avoids _ hsize]
    exact slice_store_self s.mem _ (u16Bytes (returnAddress s))
  · have hcursor : (⟨s.sp.toNat + 6, u16Bytes (bufferFromArg s)⟩ : Store).Avoids
        (objArg s).toNat sizeofProtoObject := by
      unfold Store.Avoids sizeofProtoObject
      simp only [length_u16Bytes]
      omega
    simp only [storeAll_cons, storeAll_nil]
    rw [slice_store_of_avoids _ hcursor]
    exact slice_store_self _ _ (u16Bytes (objectSizeArg s))
  · rw [slice_storeAll_of_avoids, h.body]
    intro t ht
    simp only [List.mem_cons, List.not_mem_nil, or_false] at ht
    unfold Store.Avoids
    rcases ht with rfl | rfl | rfl <;> simp only [length_u16Bytes] <;> omega

/-- On such a body that is not empty, the walk takes one turn for each property, and
leaves the table that the C decoder writes. -/
theorem Placed.leavesAfter (h : Placed props s) (hne : props ≠ []) :
    (entryWalk s).LeavesAfter (stopArg s) props.length ∧
      (Walk.next^[props.length] (entryWalk s)).finish =
        storeAll (memAtLabel s) (tableStores Platform.spectrum
          ((objArg s).toNat + sizeofProtoObject) (shownObject props s).properties) := by
  obtain ⟨p, rest, rfl⟩ := List.exists_cons_of_ne_nil hne
  obtain ⟨-, -, hbody⟩ := h.slices
  have htableInside := h.tableInside
  rw [List.length_cons, tableSize_eq] at htableInside
  unfold sizeofProtoObject at htableInside
  have hstop : (stopArg s).toNat = (bufferFromArg s).toNat + (objectSizeArg s).toNat :=
    toNat_add_of_lt h.bodyInside
  have hproperties : (entryWalk s).properties.toNat = (objArg s).toNat + sizeofProtoObject :=
    toNat_add_of_lt (show (objArg s).toNat + 2 < 65536 by omega)
  have hspan : (stopArg s).toNat - (entryWalk s).it.toNat = (objectSizeArg s).toNat := by
    rw [hstop]
    exact Nat.add_sub_cancel_left _ _
  have hinside : (entryWalk s).properties.toNat + tableSize (rest.length + 1) ≤ 65536 := by
    rw [hproperties, tableSize_eq]
    unfold sizeofProtoObject
    omega
  have hapart : Apart (entryWalk s).it.toNat ((stopArg s).toNat - (entryWalk s).it.toNat)
      (entryWalk s).properties.toNat (tableSize (rest.length + 1)) := by
    rw [hspan, hproperties]
    exact h.bodyTable.mono le_rfl le_rfl (Nat.le_add_right _ _) (Nat.le_of_eq (Nat.add_assoc _ _ _))
  rw [← hspan] at hbody
  obtain ⟨hleaves, hfinish⟩ := Walk.leavesAfter_of_tiled hbody hinside hapart
  rw [hproperties] at hfinish
  exact ⟨hleaves, hfinish⟩

/-- The assembler decoder reads every such body that is not empty. -/
theorem Placed.asmReads (h : Placed props s) (hne : props ≠ []) : AsmReads props s := by
  obtain ⟨hret, hsize, -⟩ := h.slices
  obtain ⟨hleaves, hfinish⟩ := h.leavesAfter hne
  obtain ⟨n, hn⟩ := returned_of_leavesAfter hleaves
  have hstackInside := h.stackInside
  have hsp : (s.sp + 8).toNat = s.sp.toNat + 8 :=
    toNat_add_of_lt (show s.sp.toNat + 8 < 65536 by omega)
  -- the return address has been put back above the table
  have hreturn : readWord (Walk.next^[props.length] (entryWalk s)).finish (s.sp + 8) =
      returnAddress s := by
    apply readWord_of_slice (by omega)
    rw [hsp, hfinish, slice_storeAll_of_avoids _ _, hret]
    intro t ht
    apply (tableStores_within _ _ _ t ht).avoids
    rw [shownObject, length_propertyAddresses]
    exact h.tableStack.mono (Nat.le_add_right _ _) (Nat.le_of_eq (Nat.add_assoc _ _ _))
      (Nat.le_add_right _ _) (by omega)
  refine ⟨n, ?_, ?_, ?_⟩
  · rw [hn.control, hreturn]
  · rw [State.get8, hn.hl]
    rfl
  · rw [hn.mem, hfinish]
    exact holdsObject_tableStores hsize

/-- Such a call is safe: the table that fits is the one that is written. -/
theorem Placed.safe (h : Placed props s) (hne : props ≠ []) : Safe s := by
  have hfits : sizeofProtoObject + (props.length + 1) * 2 ≤ (bufferAvailableArg s).toNat := h.fits
  unfold sizeofProtoObject at hfits
  apply safe_of_leavesAfter (h.leavesAfter hne).1
  omega

/-- What is left behind the loop decides whether the object has been left. -/
theorem not_asmReads_of_leavesAfter {m : Nat}
    (h : (entryWalk s).LeavesAfter (stopArg s) m)
    (hnot : ¬ HoldsObject (Walk.next^[m] (entryWalk s)).finish (objArg s).toNat
      (shownObject props s)) : ¬ AsmReads props s := by
  rintro ⟨n, hcontrol, -, hholds⟩
  rw [(Returned.of_control h hcontrol).mem] at hholds
  exact hnot hholds

end Agreement

/-- An empty body at 32768, for an object at 36864. -/
def emptyBodyCall : State := readCall (fun _ => 0) 32768 0 128 36864

theorem placed_emptyBodyCall : Placed [] emptyBodyCall := by
  refine ⟨?_, ?_, ?_, ?_, ?_, ?_, ?_, ?_⟩ <;> decide

/-- The pointer to the bytes behind the body stands where the NULL belongs. -/
theorem not_asmReads_emptyBodyCall : ¬ AsmReads [] emptyBodyCall := by
  apply not_asmReads_of_leavesAfter (m := 1)
  · refine ⟨Nat.one_pos, fun k hk hlt => absurd hlt (Nat.not_lt.mpr hk), ?_⟩
    decide
  · unfold HoldsObject
    decide

/-- **When the decoders agree.**  Wherever the body is placed, both return 0 and leave
the same object, exactly if the body has a property. -/
theorem decoders_agree_iff (props : List Property) :
    (∀ s held, Placed props s → CReads props s held ∧ AsmReads props s) ↔ props ≠ [] := by
  constructor
  · rintro hagree rfl
    obtain ⟨-, hasm⟩ := hagree emptyBodyCall ⟨0, []⟩ placed_emptyBodyCall
    exact not_asmReads_emptyBodyCall hasm
  · intro hne s held h
    exact ⟨h.cReads held, h.asmReads hne⟩

/-- The empty body: the C decoder leaves a NULL, the routine a pointer in front of it. -/
theorem not_decoders_agree_empty_body :
    Placed [] emptyBodyCall ∧ CReads [] emptyBodyCall ⟨0, []⟩ ∧ ¬ AsmReads [] emptyBodyCall :=
  ⟨placed_emptyBodyCall, placed_emptyBodyCall.cReads ⟨0, []⟩, not_asmReads_emptyBodyCall⟩

end ZxProto
