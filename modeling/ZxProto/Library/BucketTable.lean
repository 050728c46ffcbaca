import Mathlib

/-!
# Chained hash tables

A table of `2 ^ k` chains.  An item goes to the head of the chain whose index is the low `k`
bits of its hash.  When the number of chains is doubled, the chains are walked one after the
other, and every item goes to the head of its new chain.

All chains of a table are parts of one list, the order of the items:

* `table` — the chains that a list makes; `insert_table` inserts at the head of the list,
  `redistribute_table` reverses the list;
* `find?_table` — a search in one chain is a search in the list;
* `sum_length_table` — no item is lost, and none is there twice;
* `Change`, `arrange` — the list behind a run; `filter_arrange_of_none` — which items come
  first, among some, is decided by how often the table was doubled.
-/

namespace BucketTable

variable {α : Type*} (hash : α → Nat)

/-- The index of the chain of an item, in a table of `2 ^ k` chains. -/
def index (k : Nat) (x : α) : Nat :=
  hash x % 2 ^ k

theorem index_lt (k : Nat) (x : α) : index hash k x < 2 ^ k :=
  Nat.mod_lt _ (Nat.two_pow_pos k)

theorem index_succ_mod (k : Nat) (x : α) : index hash (k + 1) x % 2 ^ k = index hash k x :=
  Nat.mod_mod_of_dvd (hash x) (pow_dvd_pow 2 k.le_succ)

/-- The chain with the index. -/
def chain (k i : Nat) (items : List α) : List α :=
  items.filter fun x => index hash k x == i

/-- The `2 ^ k` chains. -/
def table (k : Nat) (items : List α) : List (List α) :=
  (List.range (2 ^ k)).map fun i => chain hash k i items

@[simp] theorem length_table (k : Nat) (items : List α) : (table hash k items).length = 2 ^ k := by
  simp [table]

theorem getElem?_table {k i : Nat} (hi : i < 2 ^ k) (items : List α) :
    (table hash k items)[i]? = some (chain hash k i items) := by
  simp [table, hi]

/-- A table without items. -/
theorem table_nil (k : Nat) : table hash k [] = List.replicate (2 ^ k) [] := by
  refine (List.map_eq_replicate_iff.mpr fun i _ => ?_).trans (by rw [List.length_range])
  rfl

/-- Chains are a table if each of them is. -/
theorem eq_table {k : Nat} {items : List α} {chains : List (List α)}
    (hlength : chains.length = 2 ^ k)
    (hchain : ∀ i < 2 ^ k, chains[i]? = some (chain hash k i items)) :
    chains = table hash k items := by
  refine List.ext_getElem? fun i => ?_
  by_cases hi : i < 2 ^ k
  · rw [hchain i hi, getElem?_table hash hi]
  · rw [List.getElem?_eq_none (by omega), List.getElem?_eq_none (by rw [length_table]; omega)]

/-! ## Insertion -/

/-- Insertion at the head of a chain. -/
def insert (k : Nat) (chains : List (List α)) (x : α) : List (List α) :=
  chains.modify (index hash k x) (x :: ·)

theorem insert_table (k : Nat) (items : List α) (x : α) :
    insert hash k (table hash k items) x = table hash k (x :: items) := by
  refine eq_table hash (by simp [insert]) fun i hi => ?_
  rw [insert, List.getElem?_modify, getElem?_table hash hi, chain, chain, List.filter_cons]
  by_cases h : index hash k x = i <;> simp [h]

theorem foldl_insert_table (k : Nat) (items walk : List α) :
    walk.foldl (insert hash k) (table hash k items) = table hash k (walk.reverse ++ items) := by
  induction walk generalizing items with
  | nil => rfl
  | cons x walk ih =>
      rw [List.foldl_cons, insert_table, ih, List.reverse_cons, List.append_assoc]
      rfl

/-! ## Doubling -/

/-- Every item of the chains, to the head of its new chain. -/
def redistribute (k : Nat) (chains : List (List α)) : List (List α) :=
  chains.foldl (fun new old => old.foldl (insert hash k) new) (List.replicate (2 ^ k) [])

/-- Of the items of all chains, those that go to one new chain come from one old chain. -/
theorem chain_flatten_table (k i : Nat) (items : List α) :
    chain hash (k + 1) i (table hash k items).flatten = chain hash (k + 1) i items := by
  have hother : ∀ j, j ≠ i % 2 ^ k →
      chain hash (k + 1) i (chain hash k j items) = [] := by
    intro j hj
    refine List.filter_eq_nil_iff.mpr fun x hx hindex => hj ?_
    have hj' : index hash k x = j := by simpa using (List.mem_filter.mp hx).2
    rw [← hj', ← index_succ_mod, show index hash (k + 1) x = i by simpa using hindex]
  have hone : chain hash (k + 1) i (chain hash k (i % 2 ^ k) items) =
      chain hash (k + 1) i items := by
    rw [chain, chain, chain, List.filter_filter]
    refine List.filter_congr fun x _ => ?_
    by_cases h : index hash (k + 1) x = i
    · have hmod : index hash k x = i % 2 ^ k := by rw [← h, index_succ_mod]
      simp [h, hmod]
    · simp [h]
  -- among the first `n` chains, only the one with the old index contributes
  have hprefix : ∀ n, chain hash (k + 1) i
      ((List.range n).map fun j => chain hash k j items).flatten =
        if i % 2 ^ k < n then chain hash (k + 1) i items else [] := by
    intro n
    induction n with
    | zero => rfl
    | succ n ih =>
        have hsplit : chain hash (k + 1) i
            ((List.range (n + 1)).map fun j => chain hash k j items).flatten =
              chain hash (k + 1) i ((List.range n).map fun j => chain hash k j items).flatten ++
                chain hash (k + 1) i (chain hash k n items) := by
          simp [List.range_succ, chain]
        rw [hsplit, ih]
        rcases lt_trichotomy (i % 2 ^ k) n with hlt | heq | hgt
        · rw [if_pos hlt, if_pos (by omega), hother n (by omega), List.append_nil]
        · rw [if_neg (by omega), if_pos (by omega), ← heq, hone, List.nil_append]
        · rw [if_neg (by omega), if_neg (by omega), hother n (by omega), List.append_nil]
  rw [table, hprefix, if_pos (Nat.mod_lt _ (Nat.two_pow_pos k))]

/-- Doubling reverses the order of the items. -/
theorem redistribute_table (k : Nat) (items : List α) :
    redistribute hash (k + 1) (table hash k items) = table hash (k + 1) items.reverse := by
  rw [redistribute, ← List.foldl_flatten, ← table_nil, foldl_insert_table, List.append_nil]
  refine eq_table hash (length_table hash _ _) fun i hi => ?_
  rw [getElem?_table hash hi, chain, List.filter_reverse, ← chain, chain_flatten_table, chain,
    chain, List.filter_reverse]

/-! ## Search -/

/-- A search for items with one hash needs no other chain. -/
theorem find?_chain {p : α → Bool} {h : Nat} (hp : ∀ x, p x = true → hash x = h) (k : Nat)
    (items : List α) : (chain hash k (h % 2 ^ k) items).find? p = items.find? p := by
  rw [chain, List.find?_filter]
  congr 1
  funext x
  by_cases hx : p x = true
  · simp [hx, index, hp x hx]
  · simp [hx]

theorem find?_table {p : α → Bool} {h : Nat} (hp : ∀ x, p x = true → hash x = h) (k : Nat)
    (items : List α) :
    ((table hash k items)[h % 2 ^ k]?).bind (List.find? p) = items.find? p := by
  rw [getElem?_table hash (Nat.mod_lt _ (Nat.two_pow_pos k)), Option.bind_some,
    find?_chain hash hp]

/-! ## Counting -/

theorem sum_map_modify_succ {l : List Nat} {i : Nat} (hi : i < l.length) :
    (l.modify i (· + 1)).sum = l.sum + 1 := by
  induction l generalizing i with
  | nil => exact absurd hi (Nat.not_lt_zero i)
  | cons n l ih =>
      cases i with
      | zero =>
          simp only [List.modify_zero_cons, List.sum_cons]
          omega
      | succ i =>
          simp only [List.modify_succ_cons, List.sum_cons, ih (Nat.lt_of_succ_lt_succ hi)]
          omega

/-- The lengths of the chains add up to the number of the items. -/
theorem sum_length_table (k : Nat) (items : List α) :
    ((table hash k items).map List.length).sum = items.length := by
  induction items with
  | nil => simp [table_nil]
  | cons x items ih =>
      have hmap : ((table hash k (x :: items)).map List.length) =
          ((table hash k items).map List.length).modify (index hash k x) (· + 1) := by
        refine List.ext_getElem? fun i => ?_
        rw [← insert_table, insert, List.getElem?_map, List.getElem?_modify,
          List.getElem?_modify, List.getElem?_map]
        by_cases hi : index hash k x = i <;> simp [hi, Function.comp_def]
      rw [hmap, sum_map_modify_succ (by simpa using index_lt hash k x), ih, List.length_cons]

/-! ## Runs -/

/-- What changes the order of the items. -/
inductive Change (α : Type*)
  | insert (x : α)
  | double

/-- The order behind a run. -/
def arrange (items : List α) : List (Change α) → List α
  | [] => items
  | .insert x :: changes => arrange (x :: items) changes
  | .double :: changes => arrange items.reverse changes

/-- How often the table is doubled. -/
def doublings : List (Change α) → Nat
  | [] => 0
  | .insert _ :: changes => doublings changes
  | .double :: changes => doublings changes + 1

/-- The items that are inserted. -/
def inserted : List (Change α) → List α
  | [] => []
  | .insert x :: changes => x :: inserted changes
  | .double :: changes => inserted changes

theorem arrange_append (items : List α) (changes changes' : List (Change α)) :
    arrange items (changes ++ changes') = arrange (arrange items changes) changes' := by
  induction changes generalizing items with
  | nil => rfl
  | cons change changes ih =>
      cases change with
      | insert x => exact ih (x :: items)
      | double => exact ih items.reverse

theorem doublings_append (changes changes' : List (Change α)) :
    doublings (changes ++ changes') = doublings changes + doublings changes' := by
  induction changes with
  | nil => exact (Nat.zero_add _).symm
  | cons change changes ih =>
      cases change with
      | insert x => exact ih
      | double =>
          rw [List.cons_append, doublings, doublings, ih]
          omega

theorem inserted_append (changes changes' : List (Change α)) :
    inserted (changes ++ changes') = inserted changes ++ inserted changes' := by
  induction changes with
  | nil => rfl
  | cons change changes ih =>
      cases change with
      | insert x => exact congrArg (x :: ·) ih
      | double => exact ih

theorem perm_arrange (items : List α) (changes : List (Change α)) :
    (arrange items changes).Perm ((inserted changes).reverse ++ items) := by
  induction changes generalizing items with
  | nil => exact .refl _
  | cons change changes ih =>
      cases change with
      | insert x =>
          refine (ih (x :: items)).trans ?_
          rw [inserted, List.reverse_cons, List.append_assoc]
          rfl
      | double => exact (ih items.reverse).trans (items.reverse_perm.append_left _)

/-- While no further item of a kind is inserted, the order of that kind turns around with every
doubling. -/
theorem filter_arrange_of_none {p : α → Bool} (items : List α) {changes : List (Change α)}
    (hnone : ∀ x ∈ inserted changes, p x = false) :
    (arrange items changes).filter p =
      if Even (doublings changes) then items.filter p else (items.filter p).reverse := by
  induction changes generalizing items with
  | nil => rw [arrange, doublings, if_pos Even.zero]
  | cons change changes ih =>
      cases change with
      | insert x =>
          have hx : p x = false := hnone x List.mem_cons_self
          rw [arrange, doublings, ih (x :: items) fun y hy => hnone y (List.mem_cons_of_mem x hy),
            List.filter_cons_of_neg (by simp [hx])]
      | double =>
          rw [arrange, doublings, ih items.reverse hnone, List.filter_reverse, List.reverse_reverse]
          by_cases heven : Even (doublings changes)
          · rw [if_pos heven, if_neg (Nat.even_add_one.not.mpr (not_not.mpr heven))]
          · rw [if_neg heven, if_pos (Nat.even_add_one.mpr heven)]

end BucketTable
