import ZxProto.Library.Z80

/-!
# The accumulator of the Z80

The instructions that go through the accumulator: loads of bytes, comparisons, and the
jumps on the zero flag.  A program consists of these and of the instructions of `Z80`.

* `Machine`, `Op` — the machine with its accumulator and zero flag;
* `step`, `run` — its meaning;
* `WordsAt` — successive words in memory, as a stack or a table of pointers shows them;
* `Reaches`, `Returns` — what a program comes to; `Returns.unique`, since it ends in
  one way;
* `reaches_scan` — a loop that looks for the first of some candidates.
-/

namespace Z80Accumulator

open ByteMemory Z80

/-! ## The machine -/

/-- The 8-bit registers, with the halves of `ix`. -/
inductive Operand
  | reg (r : Reg8)
  | ixh
  | ixl
deriving DecidableEq

/-- The instructions. -/
inductive Op
  /-- an instruction of `Z80` -/
  | plain (instr : Instr)
  /-- `ld a, (de)` -/
  | loadDe
  /-- `ld a, n` -/
  | ldA (n : UInt8)
  /-- `ld a, r` -/
  | toA (r : Operand)
  /-- `ld r, a` -/
  | ofA (r : Operand)
  /-- `ld r, r'` -/
  | move (r r' : Reg8)
  /-- `ld r, n` -/
  | ldImm (r : Reg8) (n : UInt8)
  /-- `or r` -/
  | or (r : Operand)
  /-- `cp (hl)` -/
  | cpHl
  /-- `cp (ix + d)` -/
  | cpIx (d : UInt16)
  /-- `jr z, label` -/
  | jrZ (label : Nat)
  /-- `jr nz, label` -/
  | jrNz (label : Nat)
  /-- `jr label` -/
  | jr (label : Nat)
deriving DecidableEq

/-- The machine of `Z80`, with the accumulator and the zero flag. -/
structure Machine extends State where
  a : UInt8
  zero : Bool

/-- The zero flag behind an instruction of `Z80`. -/
def Machine.zeroAfter (m : Machine) : Instr → Bool
  | .orA => m.a == 0
  | .sbcHl r => m.hl - m.get r - (if m.carry then 1 else 0) == 0
  | _ => m.zero

/-- An 8-bit register. -/
def Machine.operand (m : Machine) : Operand → UInt8
  | .reg r => m.get8 r
  | .ixh => hi m.ix
  | .ixl => lo m.ix

/-- Set an 8-bit register. -/
def Machine.setOperand (m : Machine) : Operand → UInt8 → Machine
  | .reg r, b => { m with toState := m.set8 r b }
  | .ixh, b => { m with ix := u16le (lo m.ix) b }
  | .ixl, b => { m with ix := u16le b (hi m.ix) }

/-- The flags of a comparison with the accumulator. -/
def Machine.compare (m : Machine) (b : UInt8) : Machine :=
  { m with zero := m.a == b, carry := decide (m.a < b) }

/-- Behind a comparison of a byte with a value that was put in the accumulator, and the
jump that is taken if they differ. -/
def Machine.compared (m : Machine) (value byte : UInt8) (equal label : Nat) : Machine :=
  { m with
    a := value
    zero := value == byte
    carry := decide (value < byte)
    control := .running (if value == byte then equal else label) }

/-- Go on with an instruction. -/
def Machine.goto (m : Machine) (index : Nat) : Machine :=
  { m with control := .running index }

/-- The instruction at an index. -/
def execOp (index : Nat) (m : Machine) : Op → Machine
  | .plain instr => { m with toState := exec index m.toState instr, zero := m.zeroAfter instr }
  | .loadDe => { m with a := readByte m.mem m.de }.goto (index + 1)
  | .ldA n => { m with a := n }.goto (index + 1)
  | .toA r => { m with a := m.operand r }.goto (index + 1)
  | .ofA r => (m.setOperand r m.a).goto (index + 1)
  | .move r r' => { m with toState := m.set8 r (m.get8 r') }.goto (index + 1)
  | .ldImm r n => { m with toState := m.set8 r n }.goto (index + 1)
  | .or r =>
      { m with
        a := m.a ||| m.operand r
        zero := m.a ||| m.operand r == 0
        carry := false }.goto (index + 1)
  | .cpHl => (m.compare (readByte m.mem m.hl)).goto (index + 1)
  | .cpIx d => (m.compare (readByte m.mem (m.ix + d))).goto (index + 1)
  | .jrZ label => m.goto (if m.zero then label else index + 1)
  | .jrNz label => m.goto (if m.zero then index + 1 else label)
  | .jr label => m.goto label

/-- One instruction; a program that has returned, or run past its end, stays. -/
def step (program : List Op) (m : Machine) : Machine :=
  match m.control with
  | .returned _ => m
  | .running index =>
      match program[index]? with
      | none => m
      | some op => execOp index m op

/-- Some instructions. -/
def run (program : List Op) (n : Nat) (m : Machine) : Machine :=
  (step program)^[n] m

/-! ## Words -/

theorem hi_u16le (x y : UInt8) : hi (u16le x y) = y := by
  have hbytes := u16Bytes_u16le x y
  exact (List.cons.inj (List.cons.inj hbytes).2).1

/-- A word is zero if the bits of both of its bytes are. -/
theorem hi_or_lo_eq_zero (w : UInt16) : hi w ||| lo w = 0 ↔ w = 0 := by
  rw [UInt8.or_eq_zero_iff]
  constructor
  · rintro ⟨hhi, hlo⟩
    have hw : u16le (lo w) (hi w) = w := u16le_u16Bytes w
    rw [← hw, hhi, hlo]
    rfl
  · rintro rfl
    exact ⟨rfl, rfl⟩

/-- Successive words in memory, the first of them at `a`. -/
structure WordsAt (mem : Memory) (a : UInt16) (words : List UInt16) : Prop where
  bytes : slice mem a.toNat (2 * words.length) = words.flatMap u16Bytes
  inside : a.toNat + 2 * words.length ≤ 65536

/-- The first word, and the others behind it. -/
theorem WordsAt.cons {mem : Memory} {a w : UInt16} {words : List UInt16}
    (h : WordsAt mem a (w :: words)) : readWord mem a = w ∧ WordsAt mem (a + 2) words := by
  have hinside := h.inside
  have hbytes := h.bytes
  rw [List.length_cons, Nat.mul_succ, Nat.add_comm] at hbytes
  rw [List.length_cons, Nat.mul_succ] at hinside
  rw [slice_add, List.flatMap_cons] at hbytes
  obtain ⟨hfirst, hrest⟩ := List.append_inj hbytes (length_slice mem _ _)
  refine ⟨readWord_of_slice (by omega) hfirst, ?_⟩
  cases words with
  | nil => exact ⟨rfl, (a + 2).toNat_lt.le⟩
  | cons v words =>
      rw [List.length_cons, Nat.mul_succ] at hinside
      have hnext : (a + 2).toNat = a.toNat + 2 :=
        toNat_add_of_lt (show a.toNat + 2 < 65536 by omega)
      refine ⟨?_, ?_⟩
      · rw [hnext, hrest]
      · rw [hnext, List.length_cons, Nat.mul_succ]
        omega

/-- A routine is entered with some words on the stack, the return address in front. -/
def Machine.call (m : Machine) (words : List UInt16) : Machine :=
  { m with
    mem := store m.mem ⟨m.sp.toNat, words.flatMap u16Bytes⟩
    control := .running 0 }

theorem length_flatMap_u16Bytes (words : List UInt16) :
    (words.flatMap u16Bytes).length = 2 * words.length := by
  simp [List.length_flatMap, Nat.mul_comm]

theorem wordsAt_call (m : Machine) (words : List UInt16)
    (hinside : m.sp.toNat + 2 * words.length ≤ 65536) :
    WordsAt (m.call words).mem m.sp words := by
  refine ⟨?_, hinside⟩
  rw [← length_flatMap_u16Bytes]
  exact slice_store_self m.mem _ _

/-- The words on the stack are all that differs. -/
theorem agreeOff_call (m : Machine) (words : List UInt16) :
    AgreeOff m.mem (m.call words).mem m.sp.toNat (2 * words.length) := by
  rw [← length_flatMap_u16Bytes]
  exact agreeOff_store m.mem ⟨le_rfl, le_rfl⟩

/-! ## Runs -/

section Runs

variable (program : List Op)

theorem run_add (n k : Nat) (m : Machine) :
    run program (n + k) m = run program k (run program n m) := by
  rw [run, Nat.add_comm, Function.iterate_add_apply, run, run]

/-- A program that has returned stays where it is. -/
theorem run_of_returned {m : Machine} {address : UInt16} (h : m.control = .returned address)
    (n : Nat) : run program n m = m := by
  have hstep : step program m = m := by
    unfold step
    rw [h]
  exact Function.iterate_fixed hstep n

/-- The program comes to a state with a property. -/
def Reaches (m : Machine) (goal : Machine → Prop) : Prop :=
  ∃ n, goal (run program n m)

/-- The program returns to an address, with a property. -/
def Returns (m : Machine) (address : UInt16) (goal : Machine → Prop) : Prop :=
  Reaches program m fun t => t.control = .returned address ∧ goal t

variable {program} {m : Machine} {goal goal' : Machine → Prop}

theorem reaches_now (h : goal m) : Reaches program m goal :=
  ⟨0, h⟩

/-- Some instructions, and on from there. -/
theorem Reaches.run {n : Nat} (h : Reaches program (run program n m) goal) :
    Reaches program m goal := by
  obtain ⟨k, hk⟩ := h
  exact ⟨n + k, by rwa [run_add]⟩

/-- One way after another. -/
theorem Reaches.trans (h : Reaches program m goal)
    (h' : ∀ t, goal t → Reaches program t goal') : Reaches program m goal' := by
  obtain ⟨n, hn⟩ := h
  exact (h' _ hn).run

theorem Returns.mono {address : UInt16} (h : Returns program m address goal)
    (himp : ∀ t, goal t → goal' t) : Returns program m address goal' := by
  obtain ⟨n, hreturned, hgoal⟩ := h
  exact ⟨n, hreturned, himp _ hgoal⟩

/-- A program ends in one way. -/
theorem Returns.unique {address address' : UInt16} (h : Returns program m address goal)
    (h' : Returns program m address' goal') : ∃ t, goal t ∧ goal' t := by
  obtain ⟨n, hn, hgoal⟩ := h
  obtain ⟨k, hk, hgoal'⟩ := h'
  refine ⟨run program n m, hgoal, ?_⟩
  -- the one that comes first stays until the other comes
  have hsame : run program n m = run program k m := by
    rcases Nat.le_total n k with hle | hle
    · obtain ⟨d, rfl⟩ := Nat.exists_eq_add_of_le hle
      rw [run_add, run_of_returned program hn]
    · obtain ⟨d, rfl⟩ := Nat.exists_eq_add_of_le hle
      rw [run_add, run_of_returned program hk]
  rwa [hsame]

/-- `ld de, hl`, as two instructions. -/
theorem run_ldDeHl {index : Nat} (h : m.control = .running index)
    (hd : program[index]? = some (.move .d .h)) (he : program[index + 1]? = some (.move .e .l)) :
    run program 2 m = { m with de := m.hl, control := .running (index + 1 + 1) } := by
  have hword : u16le (lo m.hl) (hi (u16le (lo m.de) (hi m.hl))) = m.hl := by
    rw [hi_u16le]
    exact u16le_u16Bytes m.hl
  simp only [run, Function.iterate_succ, Function.iterate_zero, Function.comp_apply, id_eq, step,
    h, hd, he, execOp, Machine.goto, State.set8, State.get8, hword]

/-- A register is put on the stack, and returned to; `hl` is what is returned. -/
theorem returns_pushRet {index : Nat} {r : Reg16} {address value : UInt16}
    (h : m.control = .running index) (hpush : program[index]? = some (.plain (.push r)))
    (hret : program[index + 1]? = some (.plain .ret)) (haddress : m.get r = address)
    (hvalue : m.hl = value) : Returns program m address fun t => t.hl = value := by
  have hread := readWord_pushWord m.mem m.sp (m.get r)
  refine ⟨2, ?_⟩
  simp only [run, Function.iterate_succ, Function.iterate_zero, Function.comp_apply, id_eq, step,
    h, hpush, hret, execOp, exec, State.goto]
  exact ⟨congrArg Control.returned (hread.trans haddress), hvalue⟩

/-- **A loop that searches**: if each turn decides by a test of its candidate, it comes
to the first that passes, or to the end of the list. -/
theorem reaches_scan {α : Type} {test : α → Bool} (atHead : List α → Machine → Prop)
    {found : α → Machine → Prop} {ended : Machine → Prop}
    (hend : ∀ t, atHead [] t → Reaches program t ended)
    (hturn : ∀ x xs t, atHead (x :: xs) t →
      Reaches program t fun u => if test x then found x u else atHead xs u)
    {xs : List α} (h : atHead xs m) :
    Reaches program m fun t =>
      (∃ x, xs.find? test = some x ∧ found x t) ∨ xs.find? test = none ∧ ended t := by
  induction xs generalizing m with
  | nil => exact (hend m h).trans fun t ht => reaches_now (Or.inr ⟨rfl, ht⟩)
  | cons x xs ih =>
      refine (hturn x xs m h).trans fun t ht => ?_
      cases htest : test x with
      | true =>
          rw [if_pos htest] at ht
          refine reaches_now (Or.inl ⟨x, ?_, ht⟩)
          rw [List.find?_cons, htest]
      | false =>
          rw [if_neg (Bool.eq_false_iff.mp htest)] at ht
          have hfind : (x :: xs).find? test = xs.find? test := by
            rw [List.find?_cons, htest]
          rw [hfind]
          exact ih ht

end Runs

end Z80Accumulator
