import ZxProto.Library.BucketTable
import ZxProto.RequestComplete

/-!
# The table of the handlers

The handlers are kept in a table of `uthash.h`.  Here are its macros, as
`server_handlers_handle_request` and `client_request_complete` use them.  A chain, and the list in
the order of the application, are lists here, with the back pointers of their elements beside
them.  An element stands for its address.

* `hashJen` — the hash function;
* `UTHashHandle`, `UTHashBucket`, `UTHashTable` — the structs;
* `hashMakeTable`, `hashExpandBuckets`, `hashAddToBkt`, `hashAddStr` — insertion;
* `hashFindInBkt`, `hashFindStr` — search;
* `hashFsck` — the check of a table, under `HASH_DEBUG`;
* `registerAll` — the registrations of a program, one after the other.

A result `none` is the end of the program, by `exit(-1)`: `malloc` has returned NULL.
-/

namespace ZxProto.Uthash

section Uthash

variable {α : Type}

/-! ## The hash function -/

/-- `HASH_JEN_MIX`. -/
def hashJenMix (a b c : UInt32) : UInt32 × UInt32 × UInt32 :=
  let a := (a - b - c) ^^^ (c >>> 13)
  let b := (b - c - a) ^^^ (a <<< 8)
  let c := (c - a - b) ^^^ (b >>> 13)
  let a := (a - b - c) ^^^ (c >>> 12)
  let b := (b - c - a) ^^^ (a <<< 16)
  let c := (c - a - b) ^^^ (b >>> 5)
  let a := (a - b - c) ^^^ (c >>> 3)
  let b := (b - c - a) ^^^ (a <<< 10)
  let c := (c - a - b) ^^^ (b >>> 15)
  (a, b, c)

/-- Four bytes of the key. -/
def hashJenWord (b₀ b₁ b₂ b₃ : UInt8) : UInt32 :=
  b₀.toUInt32 + (b₁.toUInt32 <<< 8) + (b₂.toUInt32 <<< 16) + (b₃.toUInt32 <<< 24)

/-- `while (_hj_k >= 12U)`; what is left of the key, and the three words. -/
def hashJenLoop : List UInt8 → UInt32 → UInt32 → UInt32 → List UInt8 × UInt32 × UInt32 × UInt32
  | k₀ :: k₁ :: k₂ :: k₃ :: k₄ :: k₅ :: k₆ :: k₇ :: k₈ :: k₉ :: k₁₀ :: k₁₁ :: key, i, j, hashv =>
      let mixed := hashJenMix (i + hashJenWord k₀ k₁ k₂ k₃) (j + hashJenWord k₄ k₅ k₆ k₇)
        (hashv + hashJenWord k₈ k₉ k₁₀ k₁₁)
      hashJenLoop key mixed.1 mixed.2.1 mixed.2.2
  | key, i, j, hashv => (key, i, j, hashv)

/-- A case of the `switch`: the byte, if the key is that long, shifted. -/
def hashJenCase (key : List UInt8) (n : Nat) (shift : UInt32) : UInt32 :=
  match key[n]? with
  | none => 0
  | some byte => byte.toUInt32 <<< shift

/-- `HASH_JEN`. -/
def hashJen (key : List UInt8) (keylen : UInt32) : UInt32 :=
  let (rest, i, j, hashv) :=
    hashJenLoop (key.take keylen.toNat) 0x9e3779b9 0x9e3779b9 0xfeedbeef
  let hashv := hashv + keylen
  let hashv := hashv + hashJenCase rest 10 24 + hashJenCase rest 9 16 + hashJenCase rest 8 8
  let j := j + hashJenCase rest 7 24 + hashJenCase rest 6 16 + hashJenCase rest 5 8 +
    hashJenCase rest 4 0
  let i := i + hashJenCase rest 3 24 + hashJenCase rest 2 16 + hashJenCase rest 1 8 +
    hashJenCase rest 0 0
  (hashJenMix i j hashv).2.2

/-! ## The structs -/

/-- `UT_hash_handle`, and the element that it is a part of. -/
structure UTHashHandle (α : Type) where
  element : α
  /-- The string that `key` points to. -/
  key : List UInt8
  keylen : UInt32
  hashv : UInt32

/-- `UT_hash_bucket`. -/
structure UTHashBucket (α : Type) where
  /-- The chain that begins at `hh_head`. -/
  hhHead : List (UTHashHandle α)
  /-- The `hh_prev` of each of them. -/
  hhPrevs : List (Option α)
  count : UInt32
  expandMult : UInt32

/-- A bucket after `uthash_bzero`. -/
def UTHashBucket.zeroed : UTHashBucket α where
  hhHead := []
  hhPrevs := []
  count := 0
  expandMult := 0

/-- `UT_hash_table`. -/
structure UTHashTable (α : Type) where
  buckets : List (UTHashBucket α)
  numBuckets : UInt32
  log2NumBuckets : UInt32
  numItems : UInt32
  /-- The elements in the order of the application, up to `tail`. -/
  items : List (UTHashHandle α)
  /-- The `prev` of each of them. -/
  prevs : List (Option α)
  idealChainMaxlen : UInt32
  nonidealItems : UInt32
  ineffExpands : UInt32
  noexpand : Bool

/-- `HASH_INITIAL_NUM_BUCKETS`. -/
def hashInitialNumBuckets : UInt32 := 32

/-- `HASH_INITIAL_NUM_BUCKETS_LOG2`. -/
def hashInitialNumBucketsLog2 : UInt32 := 5

/-- `HASH_BKT_CAPACITY_THRESH`. -/
def hashBktCapacityThresh : UInt32 := 10

/-- `sizeof(struct UT_hash_bucket)`, with pointers of 8 bytes. -/
def sizeofUTHashBucket : Nat := 16

/-- `sizeof(UT_hash_table)`. -/
def sizeofUTHashTable : Nat := 64

/-! ## Insertion -/

/-- `HASH_TO_BKT`. -/
def hashToBkt (hashv numBkts : UInt32) : Nat :=
  (hashv &&& (numBkts - 1)).toNat

/-- `HASH_MAKE_TABLE`; `malloc size` tells if there is a block of the size. -/
def hashMakeTable (malloc : Nat → Bool) (head : UTHashHandle α) : Option (UTHashTable α) :=
  if malloc sizeofUTHashTable &&
      malloc (hashInitialNumBuckets.toNat * sizeofUTHashBucket) then
    some
      { buckets := List.replicate hashInitialNumBuckets.toNat .zeroed
        numBuckets := hashInitialNumBuckets
        log2NumBuckets := hashInitialNumBucketsLog2
        numItems := 0
        items := [head]
        prevs := [none]
        idealChainMaxlen := 0
        nonidealItems := 0
        ineffExpands := 0
        noexpand := false }
  else none

/-- The `hh_prev` of a chain when an element goes to its head: NULL, and the old head, if there is
one, points back. -/
def pushHhPrev (thh : UTHashHandle α) (hhPrevs : List (Option α)) : List (Option α) :=
  none :: hhPrevs.modifyHead fun _ => some thh.element

/-- The body of the inner loop of `HASH_EXPAND_BUCKETS`: an element goes to the head of its new
bucket. -/
def hashExpandItem (idealChainMaxlen numBuckets : UInt32)
    (state : List (UTHashBucket α) × UInt32) (thh : UTHashHandle α) :
    List (UTHashBucket α) × UInt32 :=
  let bkt := hashToBkt thh.hashv (numBuckets * 2)
  let newbkt := state.1.getD bkt .zeroed
  let count := newbkt.count + 1
  let expandMult :=
    if idealChainMaxlen < count ∧ newbkt.expandMult * idealChainMaxlen < count then
      newbkt.expandMult + 1
    else newbkt.expandMult
  (state.1.set bkt ⟨thh :: newbkt.hhHead, pushHhPrev thh newbkt.hhPrevs, count, expandMult⟩,
    if idealChainMaxlen < count then state.2 + 1 else state.2)

/-- `HASH_EXPAND_BUCKETS`. -/
def hashExpandBuckets (malloc : Nat → Bool) (tbl : UTHashTable α) : Option (UTHashTable α) :=
  if malloc (sizeofUTHashBucket * tbl.numBuckets.toNat * 2) then
    let idealChainMaxlen := (tbl.numItems >>> (tbl.log2NumBuckets + 1)) +
      (if tbl.numItems &&& (tbl.numBuckets * 2 - 1) ≠ 0 then 1 else 0)
    let (newBuckets, nonidealItems) := tbl.buckets.foldl
      (fun state bucket =>
        bucket.hhHead.foldl (hashExpandItem idealChainMaxlen tbl.numBuckets) state)
      (List.replicate (tbl.numBuckets.toNat * 2) .zeroed, 0)
    let ineffExpands := if tbl.numItems >>> 1 < nonidealItems then tbl.ineffExpands + 1 else 0
    some
      { buckets := newBuckets
        numBuckets := tbl.numBuckets * 2
        log2NumBuckets := tbl.log2NumBuckets + 1
        numItems := tbl.numItems
        items := tbl.items
        prevs := tbl.prevs
        idealChainMaxlen := idealChainMaxlen
        nonidealItems := nonidealItems
        ineffExpands := ineffExpands
        noexpand := if 1 < ineffExpands then true else tbl.noexpand }
  else none

/-- `HASH_ADD_TO_BKT`. -/
def hashAddToBkt (malloc : Nat → Bool) (tbl : UTHashTable α) (bkt : Nat)
    (addhh : UTHashHandle α) : Option (UTHashTable α) :=
  let bucket := tbl.buckets.getD bkt .zeroed
  let bucket := { bucket with
    count := bucket.count + 1
    hhHead := addhh :: bucket.hhHead
    hhPrevs := pushHhPrev addhh bucket.hhPrevs }
  let tbl := { tbl with buckets := tbl.buckets.set bkt bucket }
  if (bucket.expandMult + 1) * hashBktCapacityThresh ≤ bucket.count ∧ tbl.noexpand = false then
    hashExpandBuckets malloc tbl
  else some tbl

/-- `HASH_ADD_TO_TABLE`. -/
def hashAddToTable (malloc : Nat → Bool) (tbl : UTHashTable α) (add : UTHashHandle α) :
    Option (UTHashTable α) :=
  hashAddToBkt malloc { tbl with numItems := tbl.numItems + 1 }
    (hashToBkt add.hashv tbl.numBuckets) add

/-- `HASH_APPEND_LIST`; the last of the items is `tail`. -/
def hashAppendList (tbl : UTHashTable α) (add : UTHashHandle α) : UTHashTable α :=
  { tbl with
    items := tbl.items ++ [add]
    prevs := tbl.prevs ++ [tbl.items.getLast?.map UTHashHandle.element] }

/-- `HASH_ADD_KEYPTR_BYHASHVALUE`; without a table, `head` is NULL. -/
def hashAddKeyptrByhashvalue (malloc : Nat → Bool) (head : Option (UTHashTable α))
    (add : UTHashHandle α) : Option (UTHashTable α) :=
  match head with
  | none => do
      let tbl ← hashMakeTable malloc add
      hashAddToTable malloc tbl add
  | some tbl => hashAddToTable malloc (hashAppendList tbl add) add

/-- The handle of an element under a string. -/
def hashHandle (key : List UInt8) (element : α) : UTHashHandle α where
  element := element
  key := key
  keylen := UInt32.ofNat key.length
  hashv := hashJen key (UInt32.ofNat key.length)

/-- `HASH_ADD_STR`. -/
def hashAddStr (malloc : Nat → Bool) (head : Option (UTHashTable α)) (strfield : List UInt8)
    (add : α) : Option (UTHashTable α) :=
  hashAddKeyptrByhashvalue malloc head (hashHandle strfield add)

/-! ## Search -/

/-- `HASH_KEYCMP(a, b, n) == 0`. -/
def hashKeycmp (a b : List UInt8) (n : UInt32) : Bool :=
  a.take n.toNat == b.take n.toNat

/-- `HASH_FIND_IN_BKT`. -/
def hashFindInBkt (bucket : UTHashBucket α) (key : List UInt8) (keylen hashv : UInt32) :
    Option (UTHashHandle α) :=
  bucket.hhHead.find? fun out =>
    out.hashv == hashv && out.keylen == keylen && hashKeycmp out.key key keylen

/-- `HASH_FIND`. -/
def hashFind (head : Option (UTHashTable α)) (key : List UInt8) (keylen : UInt32) :
    Option (UTHashHandle α) :=
  match head with
  | none => none
  | some tbl =>
      let hashv := hashJen key keylen
      hashFindInBkt (tbl.buckets.getD (hashToBkt hashv tbl.numBuckets) .zeroed) key keylen hashv

/-- `HASH_FIND_STR`. -/
def hashFindStr (head : Option (UTHashTable α)) (findstr : List UInt8) : Option α :=
  (hashFind head findstr (UInt32.ofNat findstr.length)).map UTHashHandle.element

/-! ## The check -/

/-- A loop that counts the elements of a list. -/
def hashCount (list : List (UTHashHandle α)) : UInt32 :=
  list.foldl (fun count _ => count + 1) 0

/-- A loop that compares the back pointers of a list with the elements in front; `prev` is what
`_prev` is when it begins. -/
def hashCheckPrev [DecidableEq α] : (prev : Option α) → List (UTHashHandle α) →
    List (Option α) → Bool
  | _, [], _ => true
  | _, _ :: _, [] => false
  | prev, thh :: list, back :: backs =>
      back == prev && hashCheckPrev (some thh.element) list backs

/-- `HASH_FSCK`: the back pointers and the count of each bucket, the count of all buckets, and the
back pointers and the count of the items in the order of the application. -/
def hashFsck [DecidableEq α] (head : Option (UTHashTable α)) : Bool :=
  match head with
  | none => true
  | some tbl =>
      tbl.buckets.all (fun bucket => hashCheckPrev none bucket.hhHead bucket.hhPrevs &&
          bucket.count == hashCount bucket.hhHead) &&
        tbl.buckets.foldl (fun count bucket => count + hashCount bucket.hhHead) 0 ==
          tbl.numItems &&
        hashCheckPrev none tbl.items tbl.prevs && hashCount tbl.items == tbl.numItems

/-! ## Registrations -/

/-- `server_handlers_handle_request`, for each of the handlers. -/
def registerAll (malloc : Nat → Bool) (name : α → CString) :
    Option (UTHashTable α) → List α → Option (Option (UTHashTable α))
  | head, [] => some head
  | head, handler :: handlers => do
      let tbl ← hashAddStr malloc head (name handler).bytes handler
      registerAll malloc name (some tbl) handlers

end Uthash

end ZxProto.Uthash
