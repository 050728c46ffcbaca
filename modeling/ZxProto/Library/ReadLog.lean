import ZxProto.Library.ByteMemory

/-!
# Programs that read memory

A program that reads a memory byte by byte is a tree: it is done, or it reads one
address and goes on with the byte.  Its value depends on nothing but the bytes that it
has read, and what it reads can be looked at.

* `Reading` — such a program, as a monad; `load`, `loadU16`, `loadBlock` — the reads of
  a C program;
* `run`, `trace` — the value, and the addresses that are read, in order;
* `Inside` — everything that is read lies in a block;
* `scan` — the first of some candidates that passes a test, as a loop that stops there;
  `find?_eq_find?_iff_of_imp` compares two tests.
-/

namespace ReadLog

open ByteMemory

/-- A program that reads memory. -/
inductive Reading (α : Type) where
  | done (value : α)
  | read (addr : Nat) (next : UInt8 → Reading α)

namespace Reading

variable {α β : Type}

/-- Run one program, then another with its value. -/
def bind (x : Reading α) (f : α → Reading β) : Reading β :=
  match x with
  | done value => f value
  | read addr next => read addr fun byte => (next byte).bind f

instance : Monad Reading where
  pure := done
  bind := bind

/-- The value in a memory. -/
def run (mem : Memory) : Reading α → α
  | done value => value
  | read addr next => (next (mem addr)).run mem

/-- The addresses that are read, in order. -/
def trace (mem : Memory) : Reading α → List Nat
  | done _ => []
  | read addr next => addr :: (next (mem addr)).trace mem

/-- Everything that is read lies in the `n` bytes from `a` on. -/
def Inside (mem : Memory) (a n : Nat) (x : Reading α) : Prop :=
  ∀ i ∈ x.trace mem, a ≤ i ∧ i < a + n

variable (mem : Memory) {a n : Nat}

@[simp] theorem run_pure (value : α) : (pure value : Reading α).run mem = value := rfl

@[simp] theorem trace_pure (value : α) : (pure value : Reading α).trace mem = [] := rfl

@[simp] theorem run_bind (x : Reading α) (f : α → Reading β) :
    (x >>= f).run mem = (f (x.run mem)).run mem := by
  induction x with
  | done value => rfl
  | read addr next ih => exact ih (mem addr)

@[simp] theorem trace_bind (x : Reading α) (f : α → Reading β) :
    (x >>= f).trace mem = x.trace mem ++ (f (x.run mem)).trace mem := by
  induction x with
  | done value => rfl
  | read addr next ih => exact congrArg (addr :: ·) (ih (mem addr))

@[simp] theorem run_ite (c : Prop) [Decidable c] (x y : Reading α) :
    (if c then x else y).run mem = if c then x.run mem else y.run mem :=
  apply_ite (run mem) c x y

variable {mem}

@[simp] theorem inside_pure (value : α) : (pure value : Reading α).Inside mem a n :=
  fun _ hi => absurd hi List.not_mem_nil

theorem inside_bind_iff {x : Reading α} {f : α → Reading β} :
    (x >>= f).Inside mem a n ↔ x.Inside mem a n ∧ (f (x.run mem)).Inside mem a n := by
  unfold Inside
  rw [trace_bind]
  exact List.forall_mem_append

theorem Inside.bind {x : Reading α} {f : α → Reading β} (hx : x.Inside mem a n)
    (hf : (f (x.run mem)).Inside mem a n) : (x >>= f).Inside mem a n :=
  inside_bind_iff.mpr ⟨hx, hf⟩

/-- What is read in a block is read in a larger one. -/
theorem Inside.mono {x : Reading α} {a' n' : Nat} (hx : x.Inside mem a n) (ha : a' ≤ a)
    (hn : a + n ≤ a' + n') : x.Inside mem a' n' := by
  intro i hi
  obtain ⟨hlo, hhi⟩ := hx i hi
  exact ⟨by omega, by omega⟩

theorem inside_ite {c : Prop} [Decidable c] {x y : Reading α} (hx : c → x.Inside mem a n)
    (hy : ¬ c → y.Inside mem a n) : (if c then x else y).Inside mem a n := by
  split
  · next h => exact hx h
  · next h => exact hy h

end Reading

open Reading

/-! ## Loads -/

/-- Read a byte. -/
def load (addr : Nat) : Reading UInt8 :=
  .read addr .done

/-- Read a little-endian word. -/
def loadU16 (addr : Nat) : Reading UInt16 := do
  let lo ← load addr
  let hi ← load (addr + 1)
  pure (u16le lo hi)

/-- Read a block, from its first byte on. -/
def loadBlock (addr : Nat) : Nat → Reading (List UInt8)
  | 0 => pure []
  | size + 1 => do
      let byte ← load addr
      let rest ← loadBlock (addr + 1) size
      pure (byte :: rest)

section Loads

variable {mem : Memory} {a n : Nat}

@[simp] theorem run_load (mem : Memory) (addr : Nat) : (load addr).run mem = mem addr := rfl

@[simp] theorem run_loadU16 (mem : Memory) (addr : Nat) :
    (loadU16 addr).run mem = u16le (mem addr) (mem (addr + 1)) := rfl

@[simp] theorem run_loadBlock (mem : Memory) (addr size : Nat) :
    (loadBlock addr size).run mem = slice mem addr size := by
  induction size generalizing addr with
  | zero => rfl
  | succ size ih => simp [loadBlock, slice_succ, ih]

@[simp] theorem trace_loadU16 (mem : Memory) (addr : Nat) :
    (loadU16 addr).trace mem = [addr, addr + 1] := rfl

theorem inside_load_iff {addr : Nat} :
    (load addr).Inside mem a n ↔ a ≤ addr ∧ addr + 1 ≤ a + n :=
  List.forall_mem_singleton

theorem inside_loadU16_iff {addr : Nat} :
    (loadU16 addr).Inside mem a n ↔ a ≤ addr ∧ addr + 2 ≤ a + n := by
  unfold Inside
  rw [trace_loadU16, List.forall_mem_cons, List.forall_mem_singleton]
  omega

theorem inside_loadBlock {addr size : Nat} (hlo : a ≤ addr) (hhi : addr + size ≤ a + n) :
    (loadBlock addr size).Inside mem a n := by
  induction size generalizing addr with
  | zero => exact inside_pure []
  | succ size ih =>
      exact (inside_load_iff.mpr ⟨hlo, by omega⟩).bind
        ((ih (by omega) (by omega)).bind (inside_pure _))

end Loads

/-! ## Tests and loops -/

/-- `&&`, which does not run the second test if the first fails. -/
def andAlso (x y : Reading Bool) : Reading Bool := do
  if ← x then y else pure false

/-- The first candidate that passes the test. -/
def scan {α : Type} (test : α → Reading Bool) : List α → Reading (Option α)
  | [] => pure none
  | candidate :: rest => do
      if ← test candidate then pure (some candidate) else scan test rest

section Scans

variable {α : Type} {mem : Memory} {a n : Nat}

@[simp] theorem run_andAlso (mem : Memory) (x y : Reading Bool) :
    (andAlso x y).run mem = (x.run mem && y.run mem) := by
  cases hx : x.run mem <;> simp [andAlso, hx]

theorem inside_andAlso {x y : Reading Bool} (hx : x.Inside mem a n)
    (hy : x.run mem = true → y.Inside mem a n) : (andAlso x y).Inside mem a n :=
  hx.bind (inside_ite hy fun _ => inside_pure false)

@[simp] theorem run_scan (mem : Memory) (test : α → Reading Bool) (candidates : List α) :
    (scan test candidates).run mem =
      candidates.find? fun candidate => (test candidate).run mem := by
  induction candidates with
  | nil => rfl
  | cons candidate rest ih =>
      cases htest : (test candidate).run mem <;> simp [scan, htest, ih]

/-- A scan reads what its tests read. -/
theorem inside_scan {test : α → Reading Bool} {candidates : List α}
    (htest : ∀ candidate ∈ candidates, (test candidate).Inside mem a n) :
    (scan test candidates).Inside mem a n := by
  induction candidates with
  | nil => exact inside_pure none
  | cons candidate rest ih =>
      refine (htest candidate List.mem_cons_self).bind (inside_ite (fun _ => inside_pure _)
        fun _ => ih fun c hc => htest c (List.mem_cons_of_mem _ hc))

/-- Each read of a scan is one of its tests. -/
theorem exists_mem_trace_of_scan {test : α → Reading Bool} {candidates : List α} {i : Nat}
    (hi : i ∈ (scan test candidates).trace mem) :
    ∃ candidate ∈ candidates, i ∈ (test candidate).trace mem := by
  induction candidates with
  | nil => exact absurd hi List.not_mem_nil
  | cons candidate rest ih =>
      rw [scan, trace_bind] at hi
      rcases List.mem_append.mp hi with hfirst | hlater
      · exact ⟨candidate, List.mem_cons_self, hfirst⟩
      · cases htest : (test candidate).run mem with
        | true =>
            rw [htest] at hlater
            exact absurd hlater List.not_mem_nil
        | false =>
            rw [htest] at hlater
            obtain ⟨c, hc, htrace⟩ := ih hlater
            exact ⟨c, List.mem_cons_of_mem _ hc, htrace⟩

/-- What a weaker test finds is found by a stronger one that it passes. -/
theorem find?_eq_some_of_imp {weak strong : α → Bool}
    (himp : ∀ x, strong x = true → weak x = true) {candidates : List α} {x : α}
    (hfound : candidates.find? weak = some x) (hstrong : strong x = true) :
    candidates.find? strong = some x := by
  obtain ⟨-, before, after, hsplit, hbefore⟩ := List.find?_eq_some_iff_append.mp hfound
  refine List.find?_eq_some_iff_append.mpr ⟨hstrong, before, after, hsplit, fun y hy => ?_⟩
  have hfails := hbefore y hy
  rw [Bool.not_eq_true'] at hfails ⊢
  exact Bool.eq_false_iff.mpr fun hpasses => Bool.eq_false_iff.mp hfails (himp y hpasses)

/-- What passes only the weaker test comes behind what passes the stronger: of the first
element, and of the rest unless the first passes both. -/
theorem forall_behind_cons_iff {weak strong : α → Bool} {candidate : α} {rest : List α} :
    (∀ before x after, candidate :: rest = before ++ x :: after → weak x = true →
        strong x = false → ∃ y ∈ before, strong y = true) ↔
      (weak candidate = true → strong candidate = true) ∧
        (strong candidate = true ∨ ∀ before x after, rest = before ++ x :: after →
          weak x = true → strong x = false → ∃ y ∈ before, strong y = true) := by
  constructor
  · intro hall
    refine ⟨fun hweak => ?_, ?_⟩
    · by_contra hnot
      obtain ⟨y, hy, -⟩ := hall [] candidate rest rfl hweak (Bool.eq_false_iff.mpr hnot)
      exact absurd hy List.not_mem_nil
    · refine or_iff_not_imp_left.mpr fun hnot before x after hsplit hx hfails => ?_
      obtain ⟨y, hy, hpasses⟩ :=
        hall (candidate :: before) x after (by rw [hsplit]; rfl) hx hfails
      rcases List.mem_cons.mp hy with rfl | hy
      · exact absurd hpasses hnot
      · exact ⟨y, hy, hpasses⟩
  · rintro ⟨hfirst, hrest⟩ before x after hsplit hx hfails
    cases before with
    | nil =>
        obtain ⟨rfl, -⟩ := List.cons.inj hsplit
        exact absurd (hfirst hx) (Bool.eq_false_iff.mp hfails)
    | cons first before =>
        obtain ⟨rfl, htail⟩ := List.cons.inj hsplit
        rcases hrest with hpasses | hrest
        · exact ⟨candidate, List.mem_cons_self, hpasses⟩
        · obtain ⟨y, hy, hpasses⟩ := hrest before x after htail hx hfails
          exact ⟨y, List.mem_cons_of_mem _ hy, hpasses⟩

/-- A weaker test finds the same if what passes only the weaker one comes behind what
passes the stronger. -/
theorem find?_eq_find?_iff_of_imp {weak strong : α → Bool}
    (himp : ∀ x, strong x = true → weak x = true) (candidates : List α) :
    candidates.find? weak = candidates.find? strong ↔
      ∀ before x after, candidates = before ++ x :: after → weak x = true → strong x = false →
        ∃ y ∈ before, strong y = true := by
  induction candidates with
  | nil =>
      refine iff_of_true rfl fun before x after hsplit => ?_
      exact absurd hsplit.symm (by simp)
  | cons candidate rest ih =>
      rw [forall_behind_cons_iff, List.find?_cons, List.find?_cons]
      cases hstrong : strong candidate with
      | true =>
          -- both stop here
          rw [himp candidate hstrong]
          exact iff_of_true rfl ⟨fun _ => rfl, Or.inl rfl⟩
      | false =>
          cases hweak : weak candidate with
          | true =>
              refine iff_of_false (fun heq => ?_) fun hall => Bool.false_ne_true (hall.1 rfl)
              have hpasses := List.find?_some heq.symm
              exact Bool.false_ne_true (hstrong.symm.trans hpasses)
          | false =>
              exact ih.trans (by simp)

end Scans

end ReadLog
