import Mathlib.Data.List.GetD
import ZxProto.Uthash

/-!
# Runs of the handlers' table

* `backs` — the back pointers of a list;
* `Sound` — the table has `2 ^ log2_num_buckets` buckets, which hold one order of its items;
* `Chained.hashExpandBuckets`, `Holds.hashAddStr`, `Holds.registerAll` — what an expansion, a
  registration and a run of registrations preserve; an expansion reverses the order;
* `Holds.hashFind_eq` — what is found is the first in the order;
* `hashFindStr_registerAll` — with distinct names, the handler with the name;
* `hashFindStr_of_twice` — with two handlers under one name, which of them;
* `hashFsck_registerAll` — the check finds nothing.
-/

namespace ZxProto.Uthash

open BucketTable

section Sound

variable {α : Type}

/-- The hash value of an element, as a number. -/
def UTHashHandle.hash (hh : UTHashHandle α) : Nat :=
  hh.hashv.toNat

/-! ## Back pointers -/

/-- What the back pointers of a list are, when the first points at `prev`. -/
def backs : (prev : Option α) → List (UTHashHandle α) → List (Option α)
  | _, [] => []
  | prev, hh :: list => prev :: backs (some hh.element) list

theorem pushHhPrev_backs (thh : UTHashHandle α) (list : List (UTHashHandle α)) :
    pushHhPrev thh (backs none list) = backs none (thh :: list) := by
  cases list <;> rfl

theorem backs_append (prev : Option α) (list : List (UTHashHandle α)) (add : UTHashHandle α) :
    backs prev (list ++ [add]) =
      backs prev list ++ [(list.getLast?.map UTHashHandle.element).or prev] := by
  induction list generalizing prev with
  | nil => rfl
  | cons hh list ih =>
      have hlast : (((hh :: list).getLast?.map UTHashHandle.element).or prev) =
          (list.getLast?.map UTHashHandle.element).or (some hh.element) := by
        rw [List.getLast?_cons]
        cases list.getLast? <;> rfl
      rw [List.cons_append, backs, ih, hlast]
      rfl

theorem hashCheckPrev_backs [DecidableEq α] (prev : Option α) (list : List (UTHashHandle α)) :
    hashCheckPrev prev list (backs prev list) = true := by
  induction list generalizing prev with
  | nil => rfl
  | cons hh list ih => simp [backs, hashCheckPrev, ih]

/-! ## Tables -/

/-- The chain of a bucket is counted, and linked backwards. -/
structure UTHashBucket.Kept (bucket : UTHashBucket α) : Prop where
  count : bucket.count = UInt32.ofNat bucket.hhHead.length
  hhPrevs : bucket.hhPrevs = backs none bucket.hhHead

/-- The chains of the buckets hold the items, in one order of them. -/
structure Chained (tbl : UTHashTable α) (order : List (UTHashHandle α)) : Prop where
  log2_lt : tbl.log2NumBuckets.toNat < 32
  numBuckets : tbl.numBuckets.toNat = 2 ^ tbl.log2NumBuckets.toNat
  chains : tbl.buckets.map UTHashBucket.hhHead =
    table UTHashHandle.hash tbl.log2NumBuckets.toNat order
  kept : ∀ bucket ∈ tbl.buckets, bucket.Kept

/-- The items are counted, and linked backwards, and the order is one of the items. -/
structure Sound (tbl : UTHashTable α) (order : List (UTHashHandle α)) : Prop
    extends Chained tbl order where
  perm : order.Perm tbl.items
  numItems : tbl.numItems = UInt32.ofNat tbl.items.length
  prevs : tbl.prevs = backs none tbl.items

/-! ## Indices -/

/-- The mask of a power of two takes the low bits. -/
theorem hashToBkt_eq {numBkts : UInt32} {k : Nat} (h : numBkts.toNat = 2 ^ k) (hashv : UInt32) :
    hashToBkt hashv numBkts = hashv.toNat % 2 ^ k := by
  have hpos : (1 : UInt32) ≤ numBkts := by
    rw [UInt32.le_iff_toNat_le, h]
    exact Nat.one_le_two_pow
  have hmask : (numBkts - 1).toNat = 2 ^ k - 1 := by
    rw [UInt32.toNat_sub_of_le _ _ hpos, h]
    rfl
  rw [hashToBkt, UInt32.toNat_and, hmask, Nat.and_two_pow_sub_one_eq_mod]

theorem hashToBkt_eq_index {numBkts : UInt32} {k : Nat} (h : numBkts.toNat = 2 ^ k)
    (hh : UTHashHandle α) : hashToBkt hh.hashv numBkts = index UTHashHandle.hash k hh :=
  hashToBkt_eq h hh.hashv

theorem toNat_mul_two {numBuckets : UInt32} {k : Nat} (h : numBuckets.toNat = 2 ^ k)
    (hk : k + 1 < 32) : (numBuckets * 2).toNat = 2 ^ (k + 1) := by
  have hlt : 2 ^ (k + 1) < 2 ^ 32 := Nat.pow_lt_pow_right (by decide) hk
  rw [UInt32.toNat_mul, h, show (2 : UInt32).toNat = 2 from rfl, ← pow_succ,
    Nat.mod_eq_of_lt hlt]

/-! ## Buckets -/

variable {buckets : List (UTHashBucket α)} {k : Nat} {items : List (UTHashHandle α)}

/-- A bucket with one more element, at its head. -/
def UTHashBucket.Pushed (bucket bucket' : UTHashBucket α) (hh : UTHashHandle α) : Prop :=
  bucket'.hhHead = hh :: bucket.hhHead ∧ bucket'.count = bucket.count + 1 ∧
    bucket'.hhPrevs = pushHhPrev hh bucket.hhPrevs

theorem UTHashBucket.Pushed.kept {bucket bucket' : UTHashBucket α} {hh : UTHashHandle α}
    (hpushed : bucket.Pushed bucket' hh) (hkept : bucket.Kept) : bucket'.Kept := by
  obtain ⟨hchain, hcount, hprevs⟩ := hpushed
  constructor
  · rw [hchain, hcount, List.length_cons, UInt32.ofNat_add, hkept.count]
    rfl
  · rw [hchain, hprevs, hkept.hhPrevs, pushHhPrev_backs]

theorem map_hhHead_set {bucket' : UTHashBucket α} {hh : UTHashHandle α}
    (hlength : buckets.length = 2 ^ k)
    (hpushed : (buckets.getD (index UTHashHandle.hash k hh) .zeroed).Pushed bucket' hh) :
    (buckets.set (index UTHashHandle.hash k hh) bucket').map UTHashBucket.hhHead =
      BucketTable.insert UTHashHandle.hash k (buckets.map UTHashBucket.hhHead) hh := by
  have hlt : index UTHashHandle.hash k hh < buckets.length := by
    rw [hlength]
    exact index_lt _ k hh
  refine List.ext_getElem? fun i => ?_
  rw [BucketTable.insert, List.getElem?_map, List.getElem?_modify, List.getElem?_map]
  by_cases hi : index UTHashHandle.hash k hh = i
  · subst hi
    rw [List.getD_eq_getElem _ _ hlt] at hpushed
    simp [hlt, hpushed.1]
  · simp [hi]

/-- All buckets are as they should be, after one more element is in one of them. -/
theorem kept_set {bucket' : UTHashBucket α} {hh : UTHashHandle α} {i : Nat}
    (hkept : ∀ bucket ∈ buckets, bucket.Kept)
    (hpushed : (buckets.getD i .zeroed).Pushed bucket' hh) :
    ∀ bucket ∈ buckets.set i bucket', bucket.Kept := by
  intro bucket hmem
  rcases List.mem_or_eq_of_mem_set hmem with hold | rfl
  · exact hkept bucket hold
  · refine hpushed.kept ?_
    by_cases hi : i < buckets.length
    · rw [List.getD_eq_getElem _ _ hi]
      exact hkept _ (List.getElem_mem hi)
    · rw [List.getD_eq_default _ _ (by omega)]
      exact ⟨rfl, rfl⟩

/-! ## Expansion -/

/-- What the loops of an expansion keep of the new buckets. -/
structure Expanding (k : Nat) (order : List (UTHashHandle α)) (buckets : List (UTHashBucket α)) :
    Prop where
  chains : buckets.map UTHashBucket.hhHead = table UTHashHandle.hash k order
  kept : ∀ bucket ∈ buckets, bucket.Kept

theorem Expanding.length (h : Expanding k items buckets) : buckets.length = 2 ^ k := by
  rw [← List.length_map (f := UTHashBucket.hhHead), h.chains, length_table]

theorem expanding_nil (k : Nat) :
    Expanding k [] (List.replicate (2 ^ k) (.zeroed : UTHashBucket α)) := by
  refine ⟨?_, fun bucket hmem => ?_⟩
  · rw [List.map_replicate, table_nil]
    rfl
  · rw [List.eq_of_mem_replicate hmem]
    exact ⟨rfl, rfl⟩

/-- The body of the inner loop inserts at the head of a chain. -/
theorem Expanding.hashExpandItem (idealChainMaxlen : UInt32) {numBuckets : UInt32}
    {state : List (UTHashBucket α) × UInt32} (hnum : (numBuckets * 2).toNat = 2 ^ k)
    (h : Expanding k items state.1) (thh : UTHashHandle α) :
    Expanding k (thh :: items) (hashExpandItem idealChainMaxlen numBuckets state thh).1 := by
  rw [Uthash.hashExpandItem]
  dsimp only
  rw [hashToBkt_eq_index hnum]
  refine ⟨?_, kept_set h.kept ⟨rfl, rfl, rfl⟩⟩
  rw [map_hhHead_set h.length ⟨rfl, rfl, rfl⟩, h.chains, insert_table]

theorem Expanding.foldl (idealChainMaxlen : UInt32) {numBuckets : UInt32}
    (hnum : (numBuckets * 2).toNat = 2 ^ k) (walk : List (UTHashHandle α))
    {state : List (UTHashBucket α) × UInt32} (h : Expanding k items state.1) :
    Expanding k (walk.reverse ++ items)
      (walk.foldl (Uthash.hashExpandItem idealChainMaxlen numBuckets) state).1 := by
  induction walk generalizing items state with
  | nil => exact h
  | cons thh walk ih =>
      rw [List.foldl_cons, List.reverse_cons, List.append_assoc]
      exact ih (h.hashExpandItem idealChainMaxlen hnum thh)

variable {tbl tbl' : UTHashTable α} {order : List (UTHashHandle α)} {malloc : Nat → Bool}

/-- The loops walk along all chains. -/
theorem foldl_buckets {β : Type} (f : β → UTHashHandle α → β) (state : β) :
    buckets.foldl (fun state bucket => bucket.hhHead.foldl f state) state =
      (buckets.map UTHashBucket.hhHead).flatten.foldl f state := by
  rw [List.foldl_flatten, List.foldl_map]

theorem Chained.length (h : Chained tbl order) :
    tbl.buckets.length = 2 ^ tbl.log2NumBuckets.toNat := by
  rw [← List.length_map (f := UTHashBucket.hhHead), h.chains, length_table]

/-- A block for `2 ^ 32` buckets is refused, so that their number stays in its type. -/
theorem Chained.log2_succ_lt (h : Chained tbl order)
    (hmalloc : malloc (sizeofUTHashBucket * 2 ^ 32) = false)
    (hblock : malloc (sizeofUTHashBucket * tbl.numBuckets.toNat * 2) = true) :
    tbl.log2NumBuckets.toNat + 1 < 32 := by
  by_contra hge
  have hlog2 : tbl.log2NumBuckets.toNat = 31 := by
    have := h.log2_lt
    omega
  rw [h.numBuckets, hlog2] at hblock
  exact Bool.false_ne_true (hmalloc.symm.trans hblock)

/-- An expansion reverses the order. -/
theorem Chained.hashExpandBuckets (h : Chained tbl order)
    (hmalloc : malloc (sizeofUTHashBucket * 2 ^ 32) = false)
    (hrun : hashExpandBuckets malloc tbl = some tbl') :
    Chained tbl' order.reverse ∧
      tbl'.log2NumBuckets.toNat = tbl.log2NumBuckets.toNat + 1 ∧
      tbl'.items = tbl.items ∧ tbl'.prevs = tbl.prevs ∧ tbl'.numItems = tbl.numItems := by
  rw [Uthash.hashExpandBuckets] at hrun
  split at hrun
  case isFalse => cases hrun
  case isTrue hblock =>
    have hlog2 := h.log2_succ_lt hmalloc hblock
    have hnum := toNat_mul_two h.numBuckets hlog2
    have hsucc : (tbl.log2NumBuckets + 1).toNat = tbl.log2NumBuckets.toNat + 1 := by
      rw [UInt32.toNat_add, show (1 : UInt32).toNat = 1 from rfl, Nat.mod_eq_of_lt (by omega)]
    have hnil : Expanding (tbl.log2NumBuckets.toNat + 1) [] (List.replicate
        (2 ^ (tbl.log2NumBuckets.toNat + 1)) UTHashBucket.zeroed, (0 : UInt32)).1 :=
      expanding_nil (α := α) _
    have hnew := fun idealChainMaxlen : UInt32 => hnil.foldl idealChainMaxlen hnum
      (table UTHashHandle.hash tbl.log2NumBuckets.toNat order).flatten
    dsimp only at hrun
    rw [Option.some.injEq] at hrun
    subst hrun
    refine ⟨⟨?_, ?_, ?_, ?_⟩, hsucc, rfl, rfl, rfl⟩
    · dsimp only
      omega
    · dsimp only
      rw [hnum, hsucc]
    all_goals
      dsimp only
      rw [foldl_buckets, h.chains, h.numBuckets, ← pow_succ]
    · rw [hsucc, (hnew _).chains, ← foldl_insert_table, table_nil, List.foldl_flatten]
      exact redistribute_table _ _ _
    · exact (hnew _).kept

/-! ## Registration -/

/-- An element is inserted at the head of its chain; then there may be an expansion. -/
theorem Chained.hashAddToTable {add : UTHashHandle α} (h : Chained tbl order)
    (hmalloc : malloc (sizeofUTHashBucket * 2 ^ 32) = false)
    (hrun : hashAddToTable malloc tbl add = some tbl') :
    ∃ rest, inserted rest = [] ∧ Chained tbl' (arrange order (.insert add :: rest)) ∧
      tbl'.log2NumBuckets.toNat = tbl.log2NumBuckets.toNat + doublings rest ∧
      tbl'.items = tbl.items ∧ tbl'.prevs = tbl.prevs ∧ tbl'.numItems = tbl.numItems + 1 := by
  rw [Uthash.hashAddToTable, hashAddToBkt] at hrun
  dsimp only at hrun
  rw [hashToBkt_eq_index h.numBuckets] at hrun
  -- the table before the expansion
  have hadded (bucket : UTHashBucket α)
      (hpushed : (tbl.buckets.getD (index UTHashHandle.hash tbl.log2NumBuckets.toNat add)
        .zeroed).Pushed bucket add) :
      Chained { tbl with
        numItems := tbl.numItems + 1
        buckets := tbl.buckets.set (index UTHashHandle.hash tbl.log2NumBuckets.toNat add) bucket }
          (add :: order) := by
    refine ⟨h.log2_lt, h.numBuckets, ?_, kept_set h.kept hpushed⟩
    dsimp only
    rw [map_hhHead_set h.length hpushed, h.chains, insert_table]
  split at hrun
  case isTrue =>
    obtain ⟨hchained, hlog2, hitems, hprevs, hnum⟩ :=
      (hadded _ ⟨rfl, rfl, rfl⟩).hashExpandBuckets hmalloc hrun
    exact ⟨[.double], rfl, hchained, hlog2, hitems, hprevs, hnum⟩
  case isFalse =>
    cases hrun
    exact ⟨[], rfl, hadded _ ⟨rfl, rfl, rfl⟩, rfl, rfl, rfl, rfl⟩

/-- `HASH_MAKE_TABLE`: a table without items. -/
theorem chained_hashMakeTable {add : UTHashHandle α}
    (hrun : hashMakeTable malloc add = some tbl) :
    Chained tbl [] ∧ tbl.log2NumBuckets = hashInitialNumBucketsLog2 ∧ tbl.items = [add] ∧
      tbl.prevs = [none] ∧ tbl.numItems = 0 := by
  rw [hashMakeTable] at hrun
  split at hrun
  case isFalse => cases hrun
  case isTrue =>
    cases hrun
    have hnil : Expanding 5 [] (List.replicate (2 ^ 5) (.zeroed : UTHashBucket α)) :=
      expanding_nil 5
    exact ⟨⟨show 5 < 32 by decide, rfl, hnil.chains, hnil.kept⟩, rfl, rfl, rfl, rfl⟩

/-- The table behind `head` is sound, with the order that the run has made. -/
def Holds (head : Option (UTHashTable α)) (changes : List (Change (UTHashHandle α))) : Prop :=
  match head with
  | none => changes = []
  | some tbl => Sound tbl (arrange [] changes) ∧
      tbl.log2NumBuckets.toNat = hashInitialNumBucketsLog2.toNat + doublings changes

variable {head head' : Option (UTHashTable α)} {changes : List (Change (UTHashHandle α))}

theorem ofNat_length_append (items : List (UTHashHandle α)) (add : UTHashHandle α) :
    UInt32.ofNat items.length + 1 = UInt32.ofNat (items ++ [add]).length := by
  rw [List.length_append, List.length_singleton, UInt32.ofNat_add]
  rfl

/-- One registration. -/
theorem Holds.hashAddStr (h : Holds head changes)
    (hmalloc : malloc (sizeofUTHashBucket * 2 ^ 32) = false) {key : List UInt8} {element : α}
    (hrun : hashAddStr malloc head key element = some tbl') :
    ∃ rest, inserted rest = [] ∧
      Holds (some tbl') (changes ++ .insert (hashHandle key element) :: rest) := by
  rw [Uthash.hashAddStr] at hrun
  cases head with
  | none =>
      cases h
      obtain ⟨tbl, hmake, hadd⟩ := Option.bind_eq_some_iff.mp hrun
      obtain ⟨hchained, hlog2, hitems, hprevs, hnum⟩ := chained_hashMakeTable hmake
      obtain ⟨rest, hrest, hchained', hlog2', hitems', hprevs', hnum'⟩ :=
        hchained.hashAddToTable hmalloc hadd
      refine ⟨rest, hrest, ⟨hchained', ?_, ?_, ?_⟩, hlog2'.trans (by rw [hlog2]; rfl)⟩
      · rw [hitems', hitems]
        refine (perm_arrange [] _).trans ?_
        rw [List.nil_append, inserted, hrest]
        exact .refl _
      · rw [hnum', hnum, hitems', hitems]
        rfl
      · rw [hprevs', hprevs, hitems', hitems]
        rfl
  | some tbl =>
      obtain ⟨⟨hchained, hperm, hnum, hprevs⟩, hlog2⟩ := h
      -- `tail` has moved; the chains do not depend on it
      have happended : Chained (hashAppendList tbl (hashHandle key element))
          (arrange [] changes) :=
        ⟨hchained.log2_lt, hchained.numBuckets, hchained.chains, hchained.kept⟩
      obtain ⟨rest, hrest, hchained', hlog2', hitems', hprevs', hnum'⟩ :=
        happended.hashAddToTable hmalloc hrun
      refine ⟨rest, hrest, ⟨?_, ?_, ?_, ?_⟩, ?_⟩
      · rw [arrange_append]
        exact hchained'
      · rw [hitems', arrange_append]
        refine (perm_arrange _ _).trans ?_
        rw [inserted, hrest]
        exact (hperm.cons _).trans (List.perm_append_singleton _ _).symm
      · rw [hnum', hitems', hashAppendList]
        dsimp only
        rw [hnum, ofNat_length_append]
      · rw [hprevs', hitems', hashAppendList]
        dsimp only
        rw [hprevs, backs_append, Option.or_none]
      · rw [hlog2', doublings_append, doublings, hashAppendList]
        dsimp only
        omega

variable {name : α → CString}

/-- The handle of a registered handler. -/
def handleOf (name : α → CString) (handler : α) : UTHashHandle α :=
  hashHandle (name handler).bytes handler

/-- A run of registrations. -/
theorem Holds.registerAll (h : Holds head changes)
    (hmalloc : malloc (sizeofUTHashBucket * 2 ^ 32) = false) {handlers : List α}
    (hrun : registerAll malloc name head handlers = some head') :
    ∃ rest, inserted rest = handlers.map (handleOf name) ∧ Holds head' (changes ++ rest) := by
  induction handlers generalizing head changes with
  | nil =>
      cases hrun
      exact ⟨[], rfl, by rwa [List.append_nil]⟩
  | cons handler handlers ih =>
      obtain ⟨tbl, hadd, hrest⟩ := Option.bind_eq_some_iff.mp hrun
      obtain ⟨first, hfirst, hholds⟩ := h.hashAddStr hmalloc hadd
      obtain ⟨rest, hinserted, hholds'⟩ := ih hholds hrest
      refine ⟨.insert (handleOf name handler) :: first ++ rest, ?_, ?_⟩
      · rw [inserted_append, inserted, hfirst, hinserted]
        rfl
      · rwa [List.append_assoc] at hholds'

end Sound

section Search

variable {α : Type} {malloc : Nat → Bool} {name : α → CString}
  {head : Option (UTHashTable α)} {changes : List (Change (UTHashHandle α))}

/-! ## Search -/

/-- What the loop over a chain looks for. -/
def matchesKey (key : List UInt8) (out : UTHashHandle α) : Bool :=
  out.hashv == hashJen key (UInt32.ofNat key.length) && out.keylen == UInt32.ofNat key.length &&
    hashKeycmp out.key key (UInt32.ofNat key.length)

/-- What is found is the first in the order. -/
theorem Holds.hashFind_eq (h : Holds head changes) (key : List UInt8) :
    hashFind head key (UInt32.ofNat key.length) = (arrange [] changes).find? (matchesKey key) := by
  cases head with
  | none =>
      cases h
      rfl
  | some tbl =>
      obtain ⟨hsound, -⟩ := h
      have hmatches : ∀ out : UTHashHandle α, matchesKey key out = true →
          out.hash = (hashJen key (UInt32.ofNat key.length)).toNat := by
        intro out hout
        simp only [matchesKey, Bool.and_eq_true, beq_iff_eq] at hout
        rw [UTHashHandle.hash, hout.1.1]
      rw [← find?_table UTHashHandle.hash hmatches tbl.log2NumBuckets.toNat, ← hsound.chains,
        hashFind, hashToBkt_eq hsound.numBuckets, hashFindInBkt, List.getElem?_map, List.getD]
      cases tbl.buckets[(hashJen key (UInt32.ofNat key.length)).toNat %
        2 ^ tbl.log2NumBuckets.toNat]? <;> rfl

/-- A string whose length is an `unsigned`. -/
def Short (text : CString) : Prop :=
  text.bytes.length < 2 ^ 32

/-- The three comparisons of the loop decide if the names are equal. -/
theorem matchesKey_handleOf {handler : α} {key : CString} (hname : Short (name handler))
    (hkey : Short key) : matchesKey key.bytes (handleOf name handler) = (name handler == key) := by
  have hlength : ∀ {text : CString}, Short text →
      (UInt32.ofNat text.bytes.length).toNat = text.bytes.length := fun hshort => by
    rw [UInt32.toNat_ofNat', Nat.mod_eq_of_lt hshort]
  by_cases heq : name handler = key
  · subst heq
    simp [matchesKey, handleOf, hashHandle, hashKeycmp]
  · rw [beq_eq_false_iff_ne.mpr heq, Bool.eq_false_iff]
    intro hmatches
    simp only [matchesKey, handleOf, hashHandle, hashKeycmp, Bool.and_eq_true, beq_iff_eq]
      at hmatches
    obtain ⟨⟨-, hkeylen⟩, hbytes⟩ := hmatches
    have hlengths := congrArg UInt32.toNat hkeylen
    rw [hlength hname, hlength hkey] at hlengths
    rw [hlength hkey, List.take_of_length_le (by omega), List.take_of_length_le le_rfl] at hbytes
    exact heq (CString.eq_of_bytes_eq hbytes)

/-- The items behind a run, without their handles. -/
theorem perm_arrange_handlers {handlers : List α}
    (hinserted : inserted changes = handlers.map (handleOf name)) :
    ((arrange [] changes).map UTHashHandle.element).Perm handlers := by
  have hperm := (perm_arrange [] changes).map UTHashHandle.element
  rw [hinserted, List.append_nil, List.map_reverse, List.map_map] at hperm
  have hid : handlers.map (UTHashHandle.element ∘ handleOf name) = handlers :=
    List.map_id'' (fun _ => rfl) handlers
  rw [hid] at hperm
  exact hperm.trans handlers.reverse_perm

theorem eq_handleOf_of_mem {handlers : List α} {hh : UTHashHandle α}
    (hinserted : inserted changes = handlers.map (handleOf name))
    (hmem : hh ∈ arrange [] changes) : ∃ handler ∈ handlers, handleOf name handler = hh := by
  have hmem' := (perm_arrange [] changes).mem_iff.mp hmem
  rw [hinserted, List.append_nil, List.mem_reverse, List.mem_map] at hmem'
  exact hmem'

/-- `HASH_FIND_STR` gives the first in the order that has the name. -/
theorem Holds.hashFindStr_eq (h : Holds head changes) {handlers : List α}
    (hinserted : inserted changes = handlers.map (handleOf name))
    (hshort : ∀ handler ∈ handlers, Short (name handler)) {key : CString} (hkey : Short key) :
    hashFindStr head key.bytes =
      ((arrange [] changes).map UTHashHandle.element).find? fun handler => name handler == key := by
  rw [hashFindStr, h.hashFind_eq, List.find?_map]
  congr 1
  refine List.find?_congr fun hh hmem => ?_
  obtain ⟨handler, hhandler, rfl⟩ := eq_handleOf_of_mem hinserted hmem
  exact matchesKey_handleOf (hshort handler hhandler) hkey

/-- Where names differ, the order does not matter to a search. -/
theorem find?_eq_of_perm {handlers handlers' : List α} (hperm : handlers.Perm handlers')
    (hdistinct : (handlers.map name).Nodup) (key : CString) :
    (handlers.find? fun handler => name handler == key) =
      handlers'.find? fun handler => name handler == key := by
  cases hfound : handlers'.find? fun handler => name handler == key with
  | none =>
      rw [List.find?_eq_none] at hfound ⊢
      exact fun handler hmem => hfound handler (hperm.mem_iff.mp hmem)
  | some handler =>
      have hmem : handler ∈ handlers := hperm.mem_iff.mpr (List.mem_of_find?_eq_some hfound)
      have hname := List.find?_some hfound
      obtain ⟨other, hother⟩ := Option.isSome_iff_exists.mp
        (List.find?_isSome (p := fun handler => name handler == key).mpr ⟨handler, hmem, hname⟩)
      have hnamed := List.find?_some hother
      have hsame : name other = name handler :=
        (beq_iff_eq.mp hnamed).trans (beq_iff_eq.mp hname).symm
      rw [hother,
        List.inj_on_of_nodup_map hdistinct (List.mem_of_find?_eq_some hother) hmem hsame]

variable {handlers : List α}

/-- Under distinct names the order does not matter. -/
theorem hashFindStr_of_run (hmalloc : malloc (sizeofUTHashBucket * 2 ^ 32) = false)
    (hdistinct : (handlers.map name).Nodup)
    (hshort : ∀ handler ∈ handlers, Short (name handler))
    (hrun : registerAll malloc name none handlers = some head) {key : CString}
    (hkey : Short key) :
    hashFindStr head key.bytes = handlers.find? fun handler => name handler == key := by
  have hnone : Holds (none : Option (UTHashTable α)) [] := rfl
  obtain ⟨changes, hinserted, hholds⟩ := hnone.registerAll hmalloc hrun
  rw [hholds.hashFindStr_eq hinserted hshort hkey]
  exact (find?_eq_of_perm (perm_arrange_handlers hinserted).symm hdistinct key).symm

/-- **Lookup.**  After any registrations under distinct names, `HASH_FIND_STR` finds a handler
exactly if it was registered under the name, and nothing for another name. -/
theorem hashFindStr_registerAll (hmalloc : malloc (sizeofUTHashBucket * 2 ^ 32) = false)
    (hdistinct : (handlers.map name).Nodup)
    (hshort : ∀ handler ∈ handlers, Short (name handler))
    (hrun : registerAll malloc name none handlers = some head) {key : CString}
    (hkey : Short key) (handler : α) :
    hashFindStr head key.bytes = some handler ↔ handler ∈ handlers ∧ name handler = key := by
  rw [hashFindStr_of_run hmalloc hdistinct hshort hrun hkey]
  constructor
  · intro hfind
    have hname := List.find?_some hfind
    exact ⟨List.mem_of_find?_eq_some hfind, beq_iff_eq.mp hname⟩
  · rintro ⟨hmem, rfl⟩
    have hsome : (handlers.find? fun other => name other == name handler).isSome = true :=
      List.find?_isSome.mpr ⟨handler, hmem, BEq.rfl⟩
    obtain ⟨found, hfind⟩ := Option.isSome_iff_exists.mp hsome
    have hname := List.find?_some hfind
    rw [hfind, List.inj_on_of_nodup_map hdistinct (List.mem_of_find?_eq_some hfind) hmem
      (beq_iff_eq.mp hname)]

/-- A name of one byte. -/
def nameOfByte (byte : UInt8) : CString where
  bytes := [byte].filter fun byte => byte ≠ 0
  noNul := by simp

/-- A heap that has no block for `2 ^ 32` buckets. -/
def boundedMalloc (size : Nat) : Bool :=
  size < sizeofUTHashBucket * 2 ^ 32

theorem short_nameOfByte (byte : UInt8) : Short (nameOfByte byte) := by
  have hle : (nameOfByte byte).bytes.length ≤ [byte].length := by
    rw [nameOfByte]
    exact List.length_filter_le _ _
  exact hle.trans_lt (show 1 < 2 ^ 32 by decide)

/-- Of the names `A`, `i` and `w`, the last is found. -/
theorem hashFindStr_three :
    ∃ head, registerAll boundedMalloc id none ([0x41, 0x69, 0x77].map nameOfByte) = some head ∧
      hashFindStr head (nameOfByte 0x77).bytes = some (nameOfByte 0x77) := by
  obtain ⟨head, hrun⟩ := Option.isSome_iff_exists.mp
    (show (registerAll boundedMalloc id none ([0x41, 0x69, 0x77].map nameOfByte)).isSome = true by
      decide +kernel)
  have hshort : ∀ handler ∈ [0x41, 0x69, 0x77].map nameOfByte, Short (id handler) :=
    List.forall_mem_map.mpr fun byte _ => short_nameOfByte byte
  have hfound := hashFindStr_registerAll (by decide) (by decide) hshort hrun
    (short_nameOfByte 0x77) (nameOfByte 0x77)
  exact ⟨head, hrun, hfound.mpr ⟨by decide, rfl⟩⟩

theorem registerAll_append (handlers handlers' : List α) :
    registerAll malloc name head (handlers ++ handlers') =
      (registerAll malloc name head handlers).bind fun head' =>
        registerAll malloc name head' handlers' := by
  induction handlers generalizing head with
  | nil => rfl
  | cons handler handlers ih =>
      simp only [List.cons_append, registerAll]
      cases hashAddStr malloc head (name handler).bytes handler with
      | none => rfl
      | some tbl => exact ih

/-- The changes before a registration, and those since. -/
theorem exists_changes_since (hmalloc : malloc (sizeofUTHashBucket * 2 ^ 32) = false)
    {before after : List α} {later : α} {tbl₀ tbl : UTHashTable α}
    (hbefore : registerAll malloc name none before = some (some tbl₀))
    (hrun : registerAll malloc name (some tbl₀) (later :: after) = some (some tbl)) :
    ∃ changes₀ since, inserted changes₀ = before.map (handleOf name) ∧
      inserted since = after.map (handleOf name) ∧
      Holds (some tbl) (changes₀ ++ .insert (handleOf name later) :: since) ∧
      tbl.log2NumBuckets.toNat - tbl₀.log2NumBuckets.toNat = doublings since := by
  have hnone : Holds (none : Option (UTHashTable α)) [] := rfl
  obtain ⟨changes₀, hinserted₀, hholds₀⟩ := hnone.registerAll hmalloc hbefore
  obtain ⟨tbl₁, hadd, hrest⟩ := Option.bind_eq_some_iff.mp hrun
  obtain ⟨first, hfirst, hholds₁⟩ := hholds₀.hashAddStr hmalloc hadd
  obtain ⟨rest, hinserted, hholds⟩ := hholds₁.registerAll hmalloc hrest
  rw [List.nil_append] at hholds₀ hholds
  rw [List.append_assoc] at hholds
  refine ⟨changes₀, first ++ rest, hinserted₀, ?_, hholds, ?_⟩
  · rw [inserted_append, hfirst, hinserted, List.nil_append]
  · have hlog2 := hholds.2
    rw [doublings_append, List.cons_append, doublings] at hlog2
    have hlog2₀ := hholds₀.2
    omega

/-- **Two handlers under one name.**  The later registration is found if and only if the table has
been expanded an even number of times since, its own expansion included; else the earlier. -/
theorem hashFindStr_of_twice (hmalloc : malloc (sizeofUTHashBucket * 2 ^ 32) = false)
    {before after : List α} {earlier later : α} {tbl₀ tbl : UTHashTable α}
    (hbefore : registerAll malloc name none before = some (some tbl₀))
    (hrun : registerAll malloc name (some tbl₀) (later :: after) = some (some tbl))
    (hshort : ∀ handler ∈ before ++ later :: after, Short (name handler))
    (hearlier : before.filter (fun handler => name handler == name later) = [earlier])
    (hafter : ∀ handler ∈ after, name handler ≠ name later) :
    hashFindStr (some tbl) (name later).bytes =
      some (if Even (tbl.log2NumBuckets.toNat - tbl₀.log2NumBuckets.toNat) then later
        else earlier) := by
  obtain ⟨changes₀, since, hinserted₀, hsince, hholds, hlog2⟩ :=
    exists_changes_since hmalloc hbefore hrun
  have hall : inserted (changes₀ ++ .insert (handleOf name later) :: since) =
      (before ++ later :: after).map (handleOf name) := by
    rw [inserted_append, inserted, hsince, hinserted₀, List.map_append, List.map_cons]
  have hlater : Short (name later) :=
    hshort later (List.mem_append_right _ List.mem_cons_self)
  let named : UTHashHandle α → Bool := fun hh => name hh.element == name later
  have hnamed : named (handleOf name later) = true := beq_self_eq_true (name later)
  -- of the name, there was one handler in the table
  have hbeforeOrder : ((arrange [] changes₀).filter named).map UTHashHandle.element =
      [earlier] := by
    have hperm := (perm_arrange_handlers hinserted₀).filter fun handler =>
      name handler == name later
    rw [hearlier, List.filter_map] at hperm
    exact List.perm_singleton.mp hperm
  have horder : (arrange [] (changes₀ ++ .insert (handleOf name later) :: since)).filter named =
      if Even (doublings since) then
        handleOf name later :: (arrange [] changes₀).filter named
      else (handleOf name later :: (arrange [] changes₀).filter named).reverse := by
    have hother : ∀ hh ∈ inserted since, named hh = false := by
      intro hh hmem
      rw [hsince, List.mem_map] at hmem
      obtain ⟨handler, hhandler, rfl⟩ := hmem
      exact beq_eq_false_iff_ne.mpr (hafter handler hhandler)
    rw [arrange_append, arrange, filter_arrange_of_none _ hother, List.filter_cons_of_pos hnamed]
  have hfound : hashFindStr (some tbl) (name later).bytes = (((arrange [] (changes₀ ++
      .insert (handleOf name later) :: since)).filter named).map UTHashHandle.element).head? := by
    rw [hholds.hashFindStr_eq hall hshort hlater, ← List.head?_filter, List.filter_map]
    rfl
  rw [hfound, horder, hlog2]
  split
  · rfl
  · rw [List.map_reverse, List.map_cons, hbeforeOrder]
    rfl

/-- Nine names of one bucket, and `A` twice among them: the tenth registration expands the table,
and the first handler for `A` is found, not the second. -/
theorem hashFindStr_of_ten :
    ∃ tbl, registerAll boundedMalloc Prod.snd none
        ((false, nameOfByte 0x41) :: (true, nameOfByte 0x41) ::
          [0x69, 0x77, 0x78, 0x28, 0x2c, 0x2d, 0x0c, 0xcd].map fun byte =>
            (false, nameOfByte byte)) = some (some tbl) ∧
      hashFindStr (some tbl) (nameOfByte 0x41).bytes = some (false, nameOfByte 0x41) := by
  let before := [(false, nameOfByte 0x41)]
  let after := [0x69, 0x77, 0x78, 0x28, 0x2c, 0x2d, 0x0c, 0xcd].map fun byte =>
    (false, nameOfByte byte)
  let later := (true, nameOfByte 0x41)
  have hlog2 : ((registerAll boundedMalloc Prod.snd none before).bind id).map
      UTHashTable.log2NumBuckets = some 5 := by decide +kernel
  have hlog2' : ((registerAll boundedMalloc Prod.snd none (before ++ later :: after)).bind id).map
      UTHashTable.log2NumBuckets = some 6 := by decide +kernel
  obtain ⟨tbl₀, hbefore, htbl₀⟩ := Option.map_eq_some_iff.mp hlog2
  obtain ⟨tbl, hrun, htbl⟩ := Option.map_eq_some_iff.mp hlog2'
  rw [Option.bind_id_eq_join, Option.join_eq_some_iff] at hbefore hrun
  have hrest : registerAll boundedMalloc Prod.snd (some tbl₀) (later :: after) =
      some (some tbl) := by
    rw [registerAll_append, hbefore] at hrun
    exact hrun
  have hshort : ∀ handler ∈ before ++ later :: after, Short handler.2 := by
    intro handler hmem
    have hname : ∃ byte, handler.2 = nameOfByte byte := by
      simp only [before, later, after, List.mem_append, List.mem_cons, List.not_mem_nil, or_false,
        List.map_cons, List.map_nil] at hmem
      rcases hmem with rfl | rfl | rfl | rfl | rfl | rfl | rfl | rfl | rfl | rfl <;>
        exact ⟨_, rfl⟩
    obtain ⟨byte, hbyte⟩ := hname
    rw [hbyte]
    exact short_nameOfByte byte
  have hearlier : before.filter (fun handler => handler.2 == later.2) =
      [(false, nameOfByte 0x41)] := by decide
  have hafter : ∀ handler ∈ after, handler.2 ≠ later.2 := by decide
  have hfound := hashFindStr_of_twice (by decide) hbefore hrest hshort hearlier hafter
  rw [htbl, htbl₀] at hfound
  exact ⟨tbl, hrun, hfound⟩

/-! ## The check -/

theorem hashCount_eq (list : List (UTHashHandle α)) :
    hashCount list = UInt32.ofNat list.length := by
  have hfoldl : ∀ n : Nat, list.foldl (fun count _ => count + 1) (UInt32.ofNat n) =
      UInt32.ofNat (n + list.length) := by
    induction list with
    | nil => exact fun n => rfl
    | cons hh list ih =>
        intro n
        have hsucc : UInt32.ofNat n + 1 = UInt32.ofNat (n + 1) := by
          rw [UInt32.ofNat_add]
          rfl
        rw [List.foldl_cons, hsucc, ih, List.length_cons, Nat.add_assoc, Nat.add_comm 1]
  have hzero := hfoldl 0
  rwa [Nat.zero_add] at hzero

theorem foldl_hashCount (buckets : List (UTHashBucket α)) :
    buckets.foldl (fun count bucket => count + hashCount bucket.hhHead) 0 =
      UInt32.ofNat ((buckets.map UTHashBucket.hhHead).map List.length).sum := by
  have hfoldl : ∀ n : Nat,
      buckets.foldl (fun count bucket => count + hashCount bucket.hhHead) (UInt32.ofNat n) =
        UInt32.ofNat (n + ((buckets.map UTHashBucket.hhHead).map List.length).sum) := by
    induction buckets with
    | nil => exact fun n => rfl
    | cons bucket buckets ih =>
        intro n
        rw [List.foldl_cons, hashCount_eq, ← UInt32.ofNat_add, ih, List.map_cons, List.map_cons,
          List.sum_cons, Nat.add_assoc]
  have hzero := hfoldl 0
  rwa [Nat.zero_add] at hzero

/-- **The check.**  It finds nothing, whatever has been registered under whatever names. -/
theorem hashFsck_registerAll [DecidableEq α]
    (hmalloc : malloc (sizeofUTHashBucket * 2 ^ 32) = false)
    (hrun : registerAll malloc name none handlers = some head) : hashFsck head = true := by
  have hnone : Holds (none : Option (UTHashTable α)) [] := rfl
  obtain ⟨changes, -, hholds⟩ := hnone.registerAll hmalloc hrun
  cases head with
  | none => rfl
  | some tbl =>
      obtain ⟨hsound, -⟩ := hholds
      have hbuckets : tbl.buckets.all (fun bucket =>
          hashCheckPrev none bucket.hhHead bucket.hhPrevs &&
            bucket.count == hashCount bucket.hhHead) = true := by
        refine List.all_eq_true.mpr fun bucket hmem => ?_
        obtain ⟨hcount, hprevs⟩ := hsound.kept bucket hmem
        rw [hprevs, hashCheckPrev_backs, hcount, hashCount_eq, Bool.true_and]
        exact beq_self_eq_true _
      rw [hashFsck, hbuckets, foldl_hashCount, hsound.chains, sum_length_table,
        hsound.perm.length_eq, hashCount_eq, hsound.numItems, hsound.prevs, hashCheckPrev_backs]
      simp

/-- The table of three names. -/
theorem hashFsck_three :
    ∃ head, registerAll boundedMalloc id none ([0x41, 0x69, 0x77].map nameOfByte) = some head ∧
      hashFsck head = true := by
  obtain ⟨head, hrun⟩ := Option.isSome_iff_exists.mp
    (show (registerAll boundedMalloc id none ([0x41, 0x69, 0x77].map nameOfByte)).isSome = true by
      decide +kernel)
  exact ⟨head, hrun, hashFsck_registerAll (by decide) hrun⟩

end Search

end ZxProto.Uthash
