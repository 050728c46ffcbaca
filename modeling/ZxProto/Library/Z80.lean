import ZxProto.Library.ByteMemory

/-!
# A part of the Z80

The registers, the carry flag and the memory of a Z80, and the instructions that move
words between them.  A program is a list of instructions and is not part of the
memory; a run ends when it returns to its caller.

* `State`, `Instr` — the machine;
* `step`, `run` — its meaning;
* `run_add`, `run_of_returned` — runs are cut and end;
* `Written`, `written_run` — what a run writes, and that the rest is as it was;
* `run_compare` — a subtraction and the addition that undoes it compare two words.
-/

namespace Z80

open ByteMemory

/-! ## Words in memory -/

theorem toNat_add_of_lt {a b : UInt16} (h : a.toNat + b.toNat < 65536) :
    (a + b).toNat = a.toNat + b.toNat := by
  rw [UInt16.toNat_add]
  exact Nat.mod_eq_of_lt h

/-- The low byte of a word. -/
def lo (w : UInt16) : UInt8 := UInt8.ofNat w.toNat

/-- The high byte of a word. -/
def hi (w : UInt16) : UInt8 := UInt8.ofNat (w.toNat / 256)

theorem lo_u16le (x y : UInt8) : lo (u16le x y) = x := by
  have hbytes := u16Bytes_u16le x y
  exact (List.cons.inj hbytes).1

/-- The byte at an address. -/
def readByte (mem : Memory) (a : UInt16) : UInt8 := mem a.toNat

/-- Write one byte. -/
def writeByte (mem : Memory) (a : UInt16) (b : UInt8) : Memory :=
  store mem ⟨a.toNat, [b]⟩

/-- The word at an address, low byte first; the address of the high byte wraps. -/
def readWord (mem : Memory) (a : UInt16) : UInt16 :=
  u16le (readByte mem a) (readByte mem (a + 1))

/-- Write one word. -/
def writeWord (mem : Memory) (a w : UInt16) : Memory :=
  writeByte (writeByte mem a (lo w)) (a + 1) (hi w)

/-- Write one word below an address, high byte first. -/
def pushWord (mem : Memory) (sp w : UInt16) : Memory :=
  writeByte (writeByte mem (sp - 1) (hi w)) (sp - 2) (lo w)

theorem writeByte_apply_of_ne (mem : Memory) {a : UInt16} (b : UInt8) {i : Nat}
    (hne : i ≠ a.toNat) : writeByte mem a b i = mem i := by
  unfold writeByte store
  simp only [List.length_singleton]
  rw [if_neg]
  omega

theorem writeWord_apply_of_ne (mem : Memory) {a : UInt16} (w : UInt16) {i : Nat}
    (hlo : i ≠ a.toNat) (hhi : i ≠ (a + 1).toNat) : writeWord mem a w i = mem i := by
  unfold writeWord
  rw [writeByte_apply_of_ne _ _ hhi, writeByte_apply_of_ne _ _ hlo]

theorem pushWord_apply_of_ne (mem : Memory) {sp : UInt16} (w : UInt16) {i : Nat}
    (hhi : i ≠ (sp - 1).toNat) (hlo : i ≠ (sp - 2).toNat) : pushWord mem sp w i = mem i := by
  unfold pushWord
  rw [writeByte_apply_of_ne _ _ hlo, writeByte_apply_of_ne _ _ hhi]

@[simp] theorem readByte_writeByte (mem : Memory) (a : UInt16) (b : UInt8) :
    readByte (writeByte mem a b) a = b := by
  simp [readByte, writeByte, store]

theorem readByte_writeByte_of_ne (mem : Memory) {a a' : UInt16} (b : UInt8) (hne : a' ≠ a) :
    readByte (writeByte mem a b) a' = readByte mem a' :=
  writeByte_apply_of_ne mem b fun heq => hne (UInt16.toNat_inj.mp heq)

/-- What was pushed is read back. -/
theorem readWord_pushWord (mem : Memory) (sp w : UInt16) :
    readWord (pushWord mem sp w) (sp - 2) = w := by
  have hnext : sp - 2 + 1 = sp - 1 := by grind
  have hne : sp - 1 ≠ sp - 2 := by grind
  unfold readWord pushWord
  rw [hnext, readByte_writeByte, readByte_writeByte_of_ne _ _ hne, readByte_writeByte]
  exact u16le_u16Bytes w

/-- Where the address does not wrap, a word is one block of two bytes. -/
theorem writeWord_eq_store (mem : Memory) {a : UInt16} (w : UInt16)
    (ha : a.toNat + 1 < 65536) : writeWord mem a w = store mem ⟨a.toNat, u16Bytes w⟩ := by
  have hnext : (a + 1).toNat = a.toNat + 1 := toNat_add_of_lt ha
  funext i
  by_cases hout : i < a.toNat ∨ a.toNat + 2 ≤ i
  · have hoff : AgreeOff mem (store mem ⟨a.toNat, u16Bytes w⟩) a.toNat 2 :=
      agreeOff_store mem ⟨le_rfl, le_rfl⟩
    rw [hoff i hout]
    apply writeWord_apply_of_ne
    · omega
    · rw [hnext]
      omega
  · have hcases : i = a.toNat ∨ i = a.toNat + 1 := by omega
    unfold writeWord writeByte
    rw [hnext]
    rcases hcases with rfl | rfl
    · simp [store, lo, u16Bytes]
    · simp [store, hi, u16Bytes]

theorem writeByte_comm (mem : Memory) {a a' : UInt16} (b b' : UInt8) (hne : a ≠ a') :
    writeByte (writeByte mem a b) a' b' = writeByte (writeByte mem a' b') a b := by
  funext i
  by_cases hi : i = a.toNat
  · subst hi
    rw [writeByte_apply_of_ne _ _ fun heq => hne (UInt16.toNat_inj.mp heq)]
    exact (readByte_writeByte mem a b).trans (readByte_writeByte _ a b).symm
  · rw [writeByte_apply_of_ne _ _ hi]
    unfold writeByte store
    simp only [List.length_singleton]
    split
    · rfl
    · rw [if_neg]
      omega

/-- Where the stack does not wrap, a push is one block of two bytes. -/
theorem pushWord_eq_store (mem : Memory) {sp : UInt16} (w : UInt16)
    (hsp : (sp - 2).toNat + 1 < 65536) :
    pushWord mem sp w = store mem ⟨(sp - 2).toNat, u16Bytes w⟩ := by
  have hne : sp - 1 ≠ sp - 2 := by grind
  have hnext : sp - 2 + 1 = sp - 1 := by grind
  rw [← writeWord_eq_store mem w hsp, writeWord, hnext, pushWord, writeByte_comm _ _ _ hne]

/-- A word that lies in two bytes is read from them. -/
theorem readWord_of_slice {mem : Memory} {a w : UInt16} (ha : a.toNat + 1 < 65536)
    (h : slice mem a.toNat 2 = u16Bytes w) : readWord mem a = w := by
  have hnext : (a + 1).toNat = a.toNat + 1 := toNat_add_of_lt ha
  rw [readWord, readByte, readByte, hnext]
  exact u16le_of_slice h

/-! ## The machine -/

/-- The 8-bit registers. -/
inductive Reg8
  | b | c | d | e | h | l
deriving DecidableEq

/-- The 16-bit registers. -/
inductive Reg16
  | bc | de | hl | ix | iy
deriving DecidableEq

/-- The instructions. -/
inductive Instr
  /-- `pop rr` -/
  | pop (r : Reg16)
  /-- `push rr` -/
  | push (r : Reg16)
  /-- `inc rr` -/
  | inc (r : Reg16)
  /-- `add hl, rr` -/
  | addHl (r : Reg16)
  /-- `sbc hl, rr` -/
  | sbcHl (r : Reg16)
  /-- `ex de, hl` -/
  | exDeHl
  /-- `ld hl, nn` -/
  | ldHl (n : UInt16)
  /-- `ld r, (hl)` -/
  | loadHl (r : Reg8)
  /-- `ld (ix), r` -/
  | storeIx (r : Reg8)
  /-- `ld (ix), n` -/
  | storeIxImm (n : UInt8)
  /-- `or a` -/
  | orA
  /-- `jr c, label` -/
  | jrC (label : Nat)
  /-- `ret` -/
  | ret
deriving DecidableEq

/-- The instruction that comes next, or the address that was returned to. -/
inductive Control
  | running (index : Nat)
  | returned (address : UInt16)
deriving DecidableEq

/-- The registers that the instructions use, the carry flag and the memory. -/
structure State where
  bc : UInt16
  de : UInt16
  hl : UInt16
  ix : UInt16
  iy : UInt16
  sp : UInt16
  carry : Bool
  mem : Memory
  control : Control
  /-- Ghost: the addresses that were written through `ix`, in order. -/
  stored : List UInt16
  /-- Ghost: the addresses that were written by `push`, in order. -/
  pushed : List UInt16

/-- A 16-bit register. -/
def State.get (s : State) : Reg16 → UInt16
  | .bc => s.bc
  | .de => s.de
  | .hl => s.hl
  | .ix => s.ix
  | .iy => s.iy

/-- Set a 16-bit register. -/
def State.set (s : State) : Reg16 → UInt16 → State
  | .bc, w => { s with bc := w }
  | .de, w => { s with de := w }
  | .hl, w => { s with hl := w }
  | .ix, w => { s with ix := w }
  | .iy, w => { s with iy := w }

/-- An 8-bit register. -/
def State.get8 (s : State) : Reg8 → UInt8
  | .b => hi s.bc
  | .c => lo s.bc
  | .d => hi s.de
  | .e => lo s.de
  | .h => hi s.hl
  | .l => lo s.hl

/-- Set an 8-bit register. -/
def State.set8 (s : State) : Reg8 → UInt8 → State
  | .b, b => { s with bc := u16le (lo s.bc) b }
  | .c, b => { s with bc := u16le b (hi s.bc) }
  | .d, b => { s with de := u16le (lo s.de) b }
  | .e, b => { s with de := u16le b (hi s.de) }
  | .h, b => { s with hl := u16le (lo s.hl) b }
  | .l, b => { s with hl := u16le b (hi s.hl) }

/-- Write a byte through `ix`. -/
def State.storeIx (s : State) (b : UInt8) : State :=
  { s with mem := writeByte s.mem s.ix b, stored := s.stored ++ [s.ix] }

/-- Go on with an instruction. -/
def State.goto (s : State) (index : Nat) : State :=
  { s with control := .running index }

/-- The instruction at an index. -/
def exec (index : Nat) (s : State) : Instr → State
  | .pop r => ({ s with sp := s.sp + 2 }.set r (readWord s.mem s.sp)).goto (index + 1)
  | .push r =>
      { s with
        sp := s.sp - 2
        mem := pushWord s.mem s.sp (s.get r)
        pushed := s.pushed ++ [s.sp - 1, s.sp - 2] }.goto (index + 1)
  | .inc r => (s.set r (s.get r + 1)).goto (index + 1)
  | .addHl r =>
      { s with
        hl := s.hl + s.get r
        carry := decide (65536 ≤ s.hl.toNat + (s.get r).toNat) }.goto (index + 1)
  | .sbcHl r =>
      { s with
        hl := s.hl - s.get r - (if s.carry then 1 else 0)
        carry := decide (s.hl.toNat < (s.get r).toNat + s.carry.toNat) }.goto (index + 1)
  | .exDeHl => { s with de := s.hl, hl := s.de }.goto (index + 1)
  | .ldHl n => { s with hl := n }.goto (index + 1)
  | .loadHl r => (s.set8 r (readByte s.mem s.hl)).goto (index + 1)
  | .storeIx r => (s.storeIx (s.get8 r)).goto (index + 1)
  | .storeIxImm n => (s.storeIx n).goto (index + 1)
  | .orA => { s with carry := false }.goto (index + 1)
  | .jrC label => s.goto (if s.carry then label else index + 1)
  | .ret => { s with sp := s.sp + 2, control := .returned (readWord s.mem s.sp) }

/-- One instruction; a program that has returned, or run past its end, stays. -/
def step (program : List Instr) (s : State) : State :=
  match s.control with
  | .returned _ => s
  | .running index =>
      match program[index]? with
      | none => s
      | some instr => exec index s instr

/-- Some instructions. -/
def run (program : List Instr) : Nat → State → State
  | 0, s => s
  | n + 1, s => run program n (step program s)

/-! ## Runs -/

variable (program : List Instr)

theorem run_add (n k : Nat) (s : State) :
    run program (n + k) s = run program k (run program n s) := by
  induction n generalizing s with
  | zero => rw [Nat.zero_add, run]
  | succ n ih => rw [Nat.succ_add, run, run, ih]

/-- A program that has returned stays where it is. -/
theorem run_of_returned {s : State} {address : UInt16} (h : s.control = .returned address)
    (n : Nat) : run program n s = s := by
  induction n with
  | zero => rfl
  | succ n ih =>
      have hstep : step program s = s := by
        unfold step
        rw [h]
      rw [run, hstep, ih]

/-- What has returned is not running at any later time. -/
theorem returned_of_le {s : State} {address : UInt16} {n k : Nat} (hle : n ≤ k)
    (h : (run program n s).control = .returned address) : run program k s = run program n s := by
  obtain ⟨d, rfl⟩ := Nat.exists_eq_add_of_le hle
  rw [run_add, run_of_returned program h]

/-! ## What is written -/

/-- The later state has kept the lists, and the memory but for the addresses that they
name. -/
structure Written (s t : State) : Prop where
  stored : s.stored <+: t.stored
  pushed : s.pushed <+: t.pushed
  kept : ∀ i, (∀ a ∈ t.stored, i ≠ a.toNat) → (∀ a ∈ t.pushed, i ≠ a.toNat) →
    t.mem i = s.mem i

theorem written_of_eq {s t : State} (hmem : t.mem = s.mem) (hstored : t.stored = s.stored)
    (hpushed : t.pushed = s.pushed) : Written s t := by
  refine ⟨?_, ?_, fun i _ _ => ?_⟩
  · rw [hstored]
  · rw [hpushed]
  · rw [hmem]

theorem Written.refl (s : State) : Written s s :=
  written_of_eq rfl rfl rfl

theorem Written.trans {s t u : State} (h : Written s t) (h' : Written t u) : Written s u := by
  refine ⟨h.stored.trans h'.stored, h.pushed.trans h'.pushed, fun i hstored hpushed => ?_⟩
  rw [h'.kept i hstored hpushed]
  apply h.kept
  · intro a ha
    exact hstored a (h'.stored.subset ha)
  · intro a ha
    exact hpushed a (h'.pushed.subset ha)

theorem written_set (s : State) (r : Reg16) (w : UInt16) : Written s (s.set r w) := by
  cases r <;> exact written_of_eq rfl rfl rfl

theorem written_set8 (s : State) (r : Reg8) (b : UInt8) : Written s (s.set8 r b) := by
  cases r <;> exact written_of_eq rfl rfl rfl

theorem written_storeIx (s : State) (b : UInt8) : Written s (s.storeIx b) := by
  refine ⟨List.prefix_append _ _, List.prefix_rfl, fun i hstored _ => ?_⟩
  apply writeByte_apply_of_ne
  apply hstored
  exact List.mem_append_right _ List.mem_cons_self

theorem Written.goto {s t : State} (h : Written s t) (index : Nat) : Written s (t.goto index) :=
  h.trans (written_of_eq rfl rfl rfl)

/-- Every instruction notes what it writes. -/
theorem written_exec (index : Nat) (s : State) (instr : Instr) :
    Written s (exec index s instr) := by
  cases instr with
  | pop r =>
      apply Written.goto
      have hsp : Written s { s with sp := s.sp + 2 } := written_of_eq rfl rfl rfl
      exact hsp.trans (written_set _ r _)
  | push r =>
      refine ⟨List.prefix_rfl, List.prefix_append _ _, fun i _ hpushed => ?_⟩
      have hnamed : ∀ a ∈ [s.sp - 1, s.sp - 2], i ≠ a.toNat :=
        fun a ha => hpushed a (List.mem_append_right _ ha)
      apply pushWord_apply_of_ne
      · exact hnamed _ List.mem_cons_self
      · exact hnamed _ (List.mem_cons_of_mem _ List.mem_cons_self)
  | inc r => exact (written_set s r _).goto _
  | addHl r => exact written_of_eq rfl rfl rfl
  | sbcHl r => exact written_of_eq rfl rfl rfl
  | exDeHl => exact written_of_eq rfl rfl rfl
  | ldHl n => exact written_of_eq rfl rfl rfl
  | loadHl r => exact (written_set8 s r _).goto _
  | storeIx r => exact (written_storeIx s _).goto _
  | storeIxImm n => exact (written_storeIx s _).goto _
  | orA => exact written_of_eq rfl rfl rfl
  | jrC label => exact written_of_eq rfl rfl rfl
  | ret => exact written_of_eq rfl rfl rfl

theorem written_step (s : State) : Written s (step program s) := by
  unfold step
  split
  · exact Written.refl s
  · split
    · exact Written.refl s
    · exact written_exec _ s _

/-- What the lists do not name is as it was. -/
theorem written_run (n : Nat) (s : State) : Written s (run program n s) := by
  induction n generalizing s with
  | zero => exact Written.refl s
  | succ n ih => exact (written_step program s).trans (ih (step program s))

/-! ## Comparing -/

/-- `or a`, `sbc hl, rr` and `add hl, rr` leave `hl` as it is. -/
theorem compare_value (x y : UInt16) : x - y - 0 + y = x := by
  rw [UInt16.sub_zero, UInt16.sub_add_cancel]

/-- The addition carries exactly if the subtraction has borrowed. -/
theorem compare_carry (x y : UInt16) : 65536 ≤ (x - y - 0).toNat + y.toNat ↔ x < y := by
  have hx := x.toNat_lt
  have hy := y.toNat_lt
  rw [UInt16.sub_zero, UInt16.lt_iff_toNat_lt, UInt16.toNat_sub]
  omega

/-- The carry trick: the jump is taken exactly if `hl` is below `de`, and the two are
as before. -/
theorem run_compare {program : List Instr} {index label : Nat} {s : State}
    (hcontrol : s.control = .running index) (hor : program[index]? = some .orA)
    (hsbc : program[index + 1]? = some (.sbcHl .de))
    (hadd : program[index + 1 + 1]? = some (.addHl .de))
    (hjr : program[index + 1 + 1 + 1]? = some (.jrC label)) :
    run program 4 s =
      { s with
        carry := decide (s.hl < s.de)
        control := .running (if s.hl < s.de then label else index + 1 + 1 + 1 + 1) } := by
  simp only [run, step, hcontrol, hor, hsbc, hadd, hjr, exec, State.goto, State.get,
    Bool.false_eq_true, if_false, compare_value, compare_carry, decide_eq_true_eq]

end Z80
