import Mathlib.Data.Finset.Card
import Mathlib.Data.List.Count
import Mathlib.Tactic

/-!
# A heap of blocks

The blocks of a C heap, each with its contents, under addresses that are given out
once.  What is live is an explicit set, and what was released is a list, so that a
block that is released twice, or not at all, shows.

* `Heap` — the blocks, with the ledger: an address that was given out is live, or was
  released exactly once;
* `Evolves`, `Grows`, `Keeps` — what happens to a heap; `Adds` and `Drops` tell which blocks come
  and go, and `Adds.keeps_of_drops`, that a heap is as it was when the new ones are gone;
* `Program` — a program on a heap and some further state, as a monad; it faults where a
  C program does something undefined, and keeps the state that it had reached;
* `malloc`, `free`, `load`, `write`, `perform` — what programs do, each with the lemma
  that says when it does not fault;
* `Steady` — what a program leaves alone, faults included.
-/

namespace BlockHeap

/-- `NULL`. -/
def null : Nat := 0

/-- A heap.  `contents` says something about live blocks only. -/
structure Heap (β : Type) where
  live : Finset Nat
  contents : Nat → β
  /-- The address of the next block. -/
  next : Nat
  /-- The blocks that were released, in order. -/
  released : List Nat
  next_pos : null < next
  ledger : ∀ a, (if a ∈ live then 1 else 0) + released.count a =
    if null < a ∧ a < next then 1 else 0

namespace Heap

variable {β : Type}

/-- A heap without blocks. -/
def empty (block : β) : Heap β where
  live := ∅
  contents := fun _ => block
  next := 1
  released := []
  next_pos := Nat.one_pos
  ledger a := by
    rw [if_neg (Finset.notMem_empty a), List.count_nil, if_neg]
    unfold null
    omega

variable (h : Heap β) {a b : Nat}

/-- A block that is live was given out. -/
theorem bounds_of_mem (ha : a ∈ h.live) : null < a ∧ a < h.next := by
  have hledger := h.ledger a
  rw [if_pos ha] at hledger
  by_contra hout
  rw [if_neg hout] at hledger
  omega

theorem ne_null_of_mem (ha : a ∈ h.live) : a ≠ null :=
  (h.bounds_of_mem ha).1.ne'

theorem next_notMem_live : h.next ∉ h.live := fun hmem =>
  Nat.lt_irrefl _ (h.bounds_of_mem hmem).2

/-- A live block has not been released. -/
theorem count_released_of_mem (ha : a ∈ h.live) : h.released.count a = 0 := by
  have hledger := h.ledger a
  rw [if_pos ha, if_pos (h.bounds_of_mem ha)] at hledger
  omega

/-- A block that was given out and is not live has been released once. -/
theorem count_released_of_notMem (hgiven : null < a ∧ a < h.next) (ha : a ∉ h.live) :
    h.released.count a = 1 := by
  have hledger := h.ledger a
  rw [if_neg ha, if_pos hgiven] at hledger
  omega

/-- No address is given out that was before. -/
theorem next_notMem_released : h.next ∉ h.released := by
  have hledger := h.ledger h.next
  rw [if_neg h.next_notMem_live, if_neg fun hlt => Nat.lt_irrefl _ hlt.2] at hledger
  exact List.count_eq_zero.mp (by omega)

/-- The heap with a new block at `next`. -/
def allocate (block : β) : Heap β where
  live := insert h.next h.live
  contents := fun a => if a = h.next then block else h.contents a
  next := h.next + 1
  released := h.released
  next_pos := Nat.lt_succ_of_lt h.next_pos
  ledger a := by
    have hledger := h.ledger a
    have hpos := h.next_pos
    by_cases heq : a = h.next
    · subst heq
      rw [if_pos (Finset.mem_insert_self _ _), List.count_eq_zero.mpr h.next_notMem_released,
        if_pos ⟨hpos, Nat.lt_succ_self _⟩]
    · have hbounds : (null < a ∧ a < h.next + 1) ↔ (null < a ∧ a < h.next) := by omega
      simp only [Finset.mem_insert, heq, false_or, hbounds]
      exact hledger

/-- The heap without a block. -/
def release (a : Nat) (ha : a ∈ h.live) : Heap β where
  live := h.live.erase a
  contents := h.contents
  next := h.next
  released := h.released ++ [a]
  next_pos := h.next_pos
  ledger b := by
    have hledger := h.ledger b
    rw [List.count_append, ← hledger]
    by_cases heq : b = a
    · subst heq
      rw [if_neg (Finset.notMem_erase _ _), if_pos ha, List.count_singleton_self]
      omega
    · have hother : [a].count b = 0 :=
        List.count_eq_zero.mpr fun hmem => heq (List.mem_singleton.mp hmem)
      simp only [Finset.mem_erase, Ne, heq, not_false_eq_true, true_and, hother]
      rfl

/-- The heap with other contents of a block. -/
def write (a : Nat) (block : β) : Heap β :=
  { h with contents := fun b => if b = a then block else h.contents b }

@[simp] theorem contents_allocate_self (block : β) :
    (h.allocate block).contents h.next = block := if_pos rfl

theorem contents_allocate_of_mem (block : β) (ha : a ∈ h.live) :
    (h.allocate block).contents a = h.contents a :=
  if_neg fun heq : a = h.next => h.next_notMem_live (heq ▸ ha)

@[simp] theorem live_release (ha : a ∈ h.live) : (h.release a ha).live = h.live.erase a := rfl

@[simp] theorem contents_write_self (block : β) : (h.write a block).contents a = block :=
  if_pos rfl

theorem contents_write_of_ne (block : β) (hne : b ≠ a) :
    (h.write a block).contents b = h.contents b := if_neg hne

/-! ### What happens to a heap -/

/-- What is live was live before, or is new. -/
structure Evolves (h h' : Heap β) : Prop where
  next_le : h.next ≤ h'.next
  live : ∀ a ∈ h'.live, a ∈ h.live ∨ h.next ≤ a

/-- Nothing that was live has been released. -/
structure Grows (h h' : Heap β) : Prop extends h.Evolves h' where
  subset : h.live ⊆ h'.live

/-- The same blocks are live, with the same contents. -/
structure Keeps (h h' : Heap β) : Prop where
  live : h'.live = h.live
  contents : ∀ a ∈ h.live, h'.contents a = h.contents a
  next_le : h.next ≤ h'.next

/-- The block was given out, and is not live any more. -/
structure Gone (h : Heap β) (a : Nat) : Prop where
  given : null < a ∧ a < h.next
  notMem : a ∉ h.live

variable {h} {h' h'' : Heap β}

theorem Gone.count_released (hgone : h.Gone a) : h.released.count a = 1 :=
  h.count_released_of_notMem hgone.given hgone.notMem

theorem Evolves.refl (h : Heap β) : h.Evolves h := ⟨le_rfl, fun _ => Or.inl⟩

theorem Evolves.trans (hevolves : h.Evolves h') (hevolves' : h'.Evolves h'') :
    h.Evolves h'' := by
  refine ⟨hevolves.next_le.trans hevolves'.next_le, fun a ha => ?_⟩
  rcases hevolves'.live a ha with hold | hnew
  · exact hevolves.live a hold
  · exact Or.inr (hevolves.next_le.trans hnew)

/-- A block that is gone does not come back. -/
theorem Gone.evolves (hgone : h.Gone a) (hevolves : h.Evolves h') : h'.Gone a := by
  obtain ⟨hpos, hlt⟩ := hgone.given
  refine ⟨⟨hpos, hlt.trans_le hevolves.next_le⟩, fun hmem => ?_⟩
  rcases hevolves.live a hmem with hold | hnew
  · exact hgone.notMem hold
  · omega

theorem Grows.refl (h : Heap β) : h.Grows h := ⟨.refl h, Finset.Subset.refl _⟩

theorem Grows.trans (hgrows : h.Grows h') (hgrows' : h'.Grows h'') : h.Grows h'' :=
  ⟨hgrows.toEvolves.trans hgrows'.toEvolves, hgrows.subset.trans hgrows'.subset⟩

theorem grows_allocate (h : Heap β) (block : β) : h.Grows (h.allocate block) := by
  refine ⟨⟨Nat.le_succ _, fun a ha => ?_⟩, Finset.subset_insert _ _⟩
  rcases Finset.mem_insert.mp ha with rfl | hold
  · exact Or.inr le_rfl
  · exact Or.inl hold

theorem Keeps.grows (hkeeps : h.Keeps h') : h.Grows h' :=
  ⟨⟨hkeeps.next_le, fun _ ha => Or.inl (hkeeps.live ▸ ha)⟩, hkeeps.live.ge⟩

theorem Keeps.refl (h : Heap β) : h.Keeps h := ⟨rfl, fun _ _ => rfl, le_rfl⟩

/-- A block that is given out and released again. -/
theorem keeps_allocate_release (h : Heap β) (block : β)
    (hmem : h.next ∈ (h.allocate block).live) : h.Keeps ((h.allocate block).release h.next hmem) :=
  ⟨Finset.erase_insert h.next_notMem_live, fun _ ha => h.contents_allocate_of_mem block ha,
    Nat.le_succ _⟩

/-- Blocks are released, and nothing else happens to those that are live. -/
structure Drops (h : Heap β) (blocks : Finset Nat) (h' : Heap β) : Prop where
  live : h'.live = h.live \ blocks
  contents : ∀ a ∈ h'.live, h'.contents a = h.contents a
  next_le : h.next ≤ h'.next

/-- Blocks are new, and nothing happens to those that were live. -/
structure Adds (h : Heap β) (blocks : Finset Nat) (h' : Heap β) : Prop where
  live : h'.live = h.live ∪ blocks
  new : ∀ a ∈ blocks, h.next ≤ a
  contents : ∀ a ∈ h.live, h'.contents a = h.contents a
  next_le : h.next ≤ h'.next

variable {blocks : Finset Nat}

theorem Drops.evolves (hdrops : h.Drops blocks h') : h.Evolves h' :=
  ⟨hdrops.next_le, fun _ ha => Or.inl (Finset.mem_sdiff.mp (hdrops.live ▸ ha)).1⟩

/-- What was released is gone. -/
theorem Drops.gone (hdrops : h.Drops blocks h') (ha : a ∈ h.live) (hblock : a ∈ blocks) :
    h'.Gone a := by
  obtain ⟨hpos, hlt⟩ := h.bounds_of_mem ha
  refine ⟨⟨hpos, hlt.trans_le hdrops.next_le⟩, fun hmem => ?_⟩
  rw [hdrops.live] at hmem
  exact (Finset.mem_sdiff.mp hmem).2 hblock

theorem Drops.refl (h : Heap β) : h.Drops ∅ h :=
  ⟨Finset.sdiff_empty.symm, fun _ _ => rfl, le_rfl⟩

/-- New blocks are none of those that were live. -/
theorem disjoint_of_new (hnew : ∀ a ∈ blocks, h.next ≤ a) : Disjoint h.live blocks :=
  Finset.disjoint_left.mpr fun a ha hblock =>
    absurd (h.bounds_of_mem ha).2 (not_lt.mpr (hnew a hblock))

theorem Keeps.adds (hkeeps : h.Keeps h') : h.Adds ∅ h' :=
  ⟨hkeeps.live.trans (Finset.union_empty _).symm, fun _ ha => absurd ha (Finset.notMem_empty _),
    hkeeps.contents, hkeeps.next_le⟩

theorem adds_allocate (h : Heap β) (block : β) : h.Adds {h.next} (h.allocate block) := by
  refine ⟨?_, fun a ha => (Finset.mem_singleton.mp ha).ge,
    fun a ha => h.contents_allocate_of_mem block ha, Nat.le_succ _⟩
  show insert h.next h.live = _
  rw [Finset.insert_eq, Finset.union_comm]

theorem Adds.trans {more : Finset Nat} (hadds : h.Adds blocks h') (hadds' : h'.Adds more h'') :
    h.Adds (blocks ∪ more) h'' := by
  refine ⟨?_, fun a ha => ?_, fun a ha => ?_, hadds.next_le.trans hadds'.next_le⟩
  · rw [hadds'.live, hadds.live, Finset.union_assoc]
  · rcases Finset.mem_union.mp ha with hold | hnew
    · exact hadds.new a hold
    · exact hadds.next_le.trans (hadds'.new a hnew)
  · rw [hadds'.contents a (hadds.live ▸ Finset.mem_union_left _ ha), hadds.contents a ha]

theorem Adds.keeps (hadds : h.Adds blocks h') (hkeeps : h'.Keeps h'') : h.Adds blocks h'' := by
  have htrans := hadds.trans hkeeps.adds
  rwa [Finset.union_empty] at htrans

/-- What has been given out, and is none of the new blocks, has been released once. -/
theorem Adds.count_released (hadds : h.Adds blocks h') (hle : h.next ≤ a) (hlt : a < h'.next)
    (ha : a ∉ blocks) : h'.released.count a = 1 := by
  refine h'.count_released_of_notMem ⟨h.next_pos.trans_le hle, hlt⟩ fun hmem => ?_
  rw [hadds.live] at hmem
  rcases Finset.mem_union.mp hmem with hold | hnew
  · exact absurd (h.bounds_of_mem hold).2 (not_lt.mpr hle)
  · exact ha hnew

/-- When the new blocks are gone, the heap is as it was. -/
theorem Adds.keeps_of_drops (hadds : h.Adds blocks h') (hdrops : h'.Drops blocks h'') :
    h.Keeps h'' := by
  have hlive : h''.live = h.live := by
    rw [hdrops.live, hadds.live, Finset.union_sdiff_cancel_right (disjoint_of_new hadds.new)]
  refine ⟨hlive, fun a ha => ?_, hadds.next_le.trans hdrops.next_le⟩
  rw [hdrops.contents a (hlive ▸ ha), hadds.contents a ha]

theorem Keeps.trans (hkeeps : h.Keeps h') (hkeeps' : h'.Keeps h'') : h.Keeps h'' := by
  refine ⟨hkeeps'.live.trans hkeeps.live, fun a ha => ?_, hkeeps.next_le.trans hkeeps'.next_le⟩
  rw [hkeeps'.contents a (hkeeps.live ▸ ha), hkeeps.contents a ha]

end Heap

/-! ## Programs -/

/-- A program on a heap and some further state.  Without a result, it has stopped at
something undefined. -/
structure Program (β σ α : Type) where
  run : Heap β × σ → Option α × (Heap β × σ)

namespace Program

variable {β σ α γ : Type}

instance : Monad (Program β σ) where
  pure value := ⟨fun s => (some value, s)⟩
  bind m f := ⟨fun s =>
    match m.run s with
    | (some value, s') => (f value).run s'
    | (none, s') => (none, s')⟩

/-- Something undefined. -/
def fault : Program β σ α := ⟨fun s => (none, s)⟩

/-- `malloc` and `calloc`, which succeed. -/
def malloc (block : β) : Program β σ Nat :=
  ⟨fun s => (some s.1.next, (s.1.allocate block, s.2))⟩

/-- `free`.  Releasing a block that is not live is undefined, and releasing NULL is not. -/
def free (a : Nat) : Program β σ Unit :=
  ⟨fun s =>
    if a = null then (some (), s)
    else if ha : a ∈ s.1.live then (some (), (s.1.release a ha, s.2)) else (none, s)⟩

/-- Read a block. -/
def load (a : Nat) : Program β σ β :=
  ⟨fun s => if a ∈ s.1.live then (some (s.1.contents a), s) else (none, s)⟩

/-- Write a block. -/
def write (a : Nat) (block : β) : Program β σ Unit :=
  ⟨fun s => if a ∈ s.1.live then (some (), (s.1.write a block, s.2)) else (none, s)⟩

/-- An action on the further state. -/
def perform (f : σ → α × σ) : Program β σ α :=
  ⟨fun s => (some (f s.2).1, (s.1, (f s.2).2))⟩

/-- A loop over blocks gets one more turn than there are blocks: one that goes on has come
back to a block, and does not end. -/
def turns (loop : Nat → Program β σ α) : Program β σ α :=
  ⟨fun s => (loop (s.1.live.card + 1)).run s⟩

section Run

variable {m : Program β σ α} {f : α → Program β σ γ} {s s' : Heap β × σ} {value : α}
  {h : Heap β} {state : σ} {a : Nat}

@[simp] theorem run_pure (value : α) (s : Heap β × σ) :
    (pure value : Program β σ α).run s = (some value, s) := rfl

/-- What comes behind a program that has a result goes on with it. -/
theorem run_bind_of_some (hrun : m.run s = (some value, s')) :
    (m >>= f).run s = (f value).run s' := by
  simp only [bind, hrun]

/-- Nothing comes behind a fault. -/
theorem run_bind_of_none (hrun : m.run s = (none, s')) : (m >>= f).run s = (none, s') := by
  simp only [bind, hrun]

@[simp] theorem run_malloc (block : β) :
    (malloc block : Program β σ Nat).run (h, state) = (some h.next, (h.allocate block, state)) :=
  rfl

theorem run_free_of_mem (ha : a ∈ h.live) :
    (free a : Program β σ Unit).run (h, state) = (some (), (h.release a ha, state)) := by
  rw [free]
  show (if _ then _ else _) = _
  rw [if_neg (h.ne_null_of_mem ha), dif_pos ha]

theorem run_load_of_mem (ha : a ∈ h.live) :
    (load a : Program β σ β).run (h, state) = (some (h.contents a), (h, state)) :=
  if_pos ha

theorem run_write_of_mem (block : β) (ha : a ∈ h.live) :
    (write a block : Program β σ Unit).run (h, state) = (some (), (h.write a block, state)) :=
  if_pos ha

end Run

/-! ## What a program leaves alone -/

/-- With or without a fault, the program does not change what `view` shows. -/
def Steady {τ : Type} (view : σ → τ) (m : Program β σ α) : Prop :=
  ∀ s, view (m.run s).2.2 = view s.2

section Steady

variable {τ : Type} {view : σ → τ} {m : Program β σ α} {f : α → Program β σ γ}

theorem steady_pure (value : α) : (pure value : Program β σ α).Steady view := fun _ => rfl

theorem steady_fault : (fault : Program β σ α).Steady view := fun _ => rfl

theorem Steady.bind (hm : m.Steady view) (hf : ∀ value, (f value).Steady view) :
    (m >>= f).Steady view := by
  intro s
  have hfirst := hm s
  rcases hrun : m.run s with ⟨result, s'⟩
  rw [hrun] at hfirst
  cases result with
  | none => rw [run_bind_of_none hrun, hfirst]
  | some value => rw [run_bind_of_some hrun, hf value s', hfirst]

theorem steady_ite {c : Prop} [Decidable c] {m' : Program β σ α} (hm : m.Steady view)
    (hm' : m'.Steady view) : (if c then m else m').Steady view := by
  split
  · exact hm
  · exact hm'

theorem steady_malloc (block : β) : (malloc block : Program β σ Nat).Steady view := fun _ => rfl

theorem steady_free (a : Nat) : (free a : Program β σ Unit).Steady view := by
  intro s
  rw [free]
  dsimp only
  split
  · rfl
  · split <;> rfl

theorem steady_load (a : Nat) : (load a : Program β σ β).Steady view := by
  intro s
  rw [load]
  dsimp only
  split <;> rfl

theorem steady_write (a : Nat) (block : β) : (write a block : Program β σ Unit).Steady view := by
  intro s
  rw [write]
  dsimp only
  split <;> rfl

theorem steady_perform {act : σ → α × σ} (hact : ∀ state, view (act state).2 = view state) :
    (perform act : Program β σ α).Steady view := fun s => hact s.2

theorem steady_turns {loop : Nat → Program β σ α} (hloop : ∀ fuel, (loop fuel).Steady view) :
    (turns loop).Steady view := fun s => hloop _ s

end Steady

end Program

end BlockHeap
