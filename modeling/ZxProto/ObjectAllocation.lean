import ZxProto.ObjectHeap
import ZxProto.ObjectRead

/-!
# What a constructor writes

Both constructors write the size field, then the pointers and the properties in
turns, then the NULL.  `proto_object_allocate` asks `malloc` for a block whose size
it computes from an 8-bit count and a 16-bit sum.

* `nonEmpty`, `encodedSize` — the properties that count, and the bytes they take;
* `layOutStores` — the writes, in program order; `layOutStores_perm` splits them into
  the size field, the table and the data;
* `layOutStores_within` — where they land if count and sum are exact;
* `requestedSize` — what `malloc` is asked for;
* `StaysInside`, `staysInside_iff` — when everything is written inside the block.
-/

namespace ZxProto

open ByteMemory

section Allocation

variable (pl : Platform)

/-! ## The writes -/

/-- The non-empty properties of a chain, as the first pass finds them. -/
def nonEmpty (chain : List ProtoStackObjectProperty) : List ProtoStackObjectProperty :=
  chain.filter fun p => p.valueSize ≠ 0

/-- The bytes that the non-empty properties of a chain take on the wire. -/
def encodedSize (chain : List ProtoStackObjectProperty) : Nat :=
  ((nonEmpty chain).map fun p => p.valueSize.toNat + sizeofProtoObjectProperty).sum

/-- The writes of a constructor that lays an object out at `obj`. -/
def layOutStores (obj : Nat) (lastProperty : List ProtoStackObjectProperty) : List Store :=
  let counted := countChain lastProperty 0 0
  ⟨obj, u16Bytes counted.1⟩ ::
    (writeChain pl lastProperty (obj + dataOffset pl counted.2.toNat) (obj + sizeofProtoObject)).2

/-- Those of the writes that write property data, from the raw-data cursor on. -/
def dataStores : List ProtoStackObjectProperty → (rawData : Nat) → List Store
  | [], _ => []
  | property :: prev, rawData =>
      if property.valueSize ≠ 0 then
        protoPropertyWrite rawData property.key property.value property.valueSize ++
          dataStores prev (rawData + (property.valueSize.toNat + sizeofProtoObjectProperty))
      else
        dataStores prev rawData

/-- The argument of `malloc`, a `size_t`, which is as wide as a pointer. -/
def requestedSize (lastProperty : List ProtoStackObjectProperty) : Nat :=
  allocationSize pl lastProperty % 256 ^ pl.pointerSize

theorem nonEmpty_cons_of_empty {property : ProtoStackObjectProperty}
    (hempty : property.valueSize = 0) (prev : List ProtoStackObjectProperty) :
    nonEmpty (property :: prev) = nonEmpty prev := by
  simp [nonEmpty, hempty]

theorem nonEmpty_cons_of_ne {property : ProtoStackObjectProperty}
    (hne : property.valueSize ≠ 0) (prev : List ProtoStackObjectProperty) :
    nonEmpty (property :: prev) = property :: nonEmpty prev := by
  simp [nonEmpty, hne]

theorem encodedSize_cons_of_empty {property : ProtoStackObjectProperty}
    (hempty : property.valueSize = 0) (prev : List ProtoStackObjectProperty) :
    encodedSize (property :: prev) = encodedSize prev := by
  rw [encodedSize, nonEmpty_cons_of_empty hempty, encodedSize]

theorem encodedSize_cons_of_ne {property : ProtoStackObjectProperty}
    (hne : property.valueSize ≠ 0) (prev : List ProtoStackObjectProperty) :
    encodedSize (property :: prev) =
      property.valueSize.toNat + sizeofProtoObjectProperty + encodedSize prev := by
  rw [encodedSize, nonEmpty_cons_of_ne hne, List.map_cons, List.sum_cons, encodedSize]

theorem length_chainProperties (chain : List ProtoStackObjectProperty) :
    (chainProperties chain).length = (nonEmpty chain).length :=
  List.length_map _

theorem length_bodyBytes_chainProperties (chain : List ProtoStackObjectProperty) :
    (bodyBytes (chainProperties chain)).length = encodedSize chain := by
  induction chain with
  | nil => rfl
  | cons property prev ih =>
      by_cases hempty : property.valueSize = 0
      · rw [chainProperties_cons_of_empty hempty, encodedSize_cons_of_empty hempty, ih]
      · rw [chainProperties_cons_of_ne hempty, encodedSize_cons_of_ne hempty, bodyBytes_cons,
          List.length_append, Property.length_bytes, property.size_toProperty, ih]

/-- The first pass sums and counts in 16 and 8 bits. -/
theorem toNat_countChain (chain : List ProtoStackObjectProperty) :
    (countChain chain 0 0).1.toNat = encodedSize chain % 65536 ∧
      (countChain chain 0 0).2.toNat = (nonEmpty chain).length % 256 := by
  rw [countChain_eq, UInt16.zero_add, UInt8.zero_add, UInt16.toNat_ofNat', UInt8.toNat_ofNat',
    length_bodyBytes_chainProperties, length_chainProperties]
  exact ⟨rfl, rfl⟩

/-- The constructors make these writes. -/
theorem layOut_mem (mem : Memory) (obj : Nat) (chain : List ProtoStackObjectProperty)
    (hcount : (chainProperties chain).length ≤ 255) :
    (layOut pl mem obj chain hcount).mem = storeAll mem (layOutStores pl obj chain) := rfl

/-- The second pass writes the table and the data, and nothing else. -/
theorem writeChain_perm (chain : List ProtoStackObjectProperty) (rawData resProp : Nat) :
    (writeChain pl chain rawData resProp).2.Perm
      (tableStores pl resProp (writeChain pl chain rawData resProp).1 ++
        dataStores chain rawData) := by
  induction chain generalizing rawData resProp with
  | nil => exact List.Perm.refl _
  | cons property prev ih =>
      by_cases hempty : property.valueSize = 0
      · rw [writeChain, if_neg (not_not.mpr hempty), dataStores, if_neg (not_not.mpr hempty)]
        exact ih rawData resProp
      · rw [writeChain, if_pos hempty, dataStores, if_pos hempty]
        simp only [tableStores, List.cons_append]
        apply List.Perm.cons
        -- the data of this property moves behind the rest of the table
        refine (List.Perm.append_left _ (ih _ _)).trans ?_
        rw [← List.append_assoc, ← List.append_assoc]
        exact List.perm_append_comm.append_right _

/-! ## Where the writes land -/

/-- Each write of a property lies inside the property. -/
theorem protoPropertyWrite_within (target : Nat) (p : ProtoStackObjectProperty) :
    ∀ s ∈ protoPropertyWrite target p.key p.value p.valueSize,
      s.Within target (p.valueSize.toNat + sizeofProtoObjectProperty) := by
  have hvalue : (p.value.take p.valueSize.toNat).length = p.valueSize.toNat := p.length_value
  intro s hs
  unfold Store.Within sizeofProtoObjectProperty
  simp only [protoPropertyWrite, sizeofProtoObjectProperty, List.mem_cons, List.not_mem_nil,
    or_false] at hs
  rcases hs with rfl | rfl | rfl <;>
    simp only [length_u16Bytes, List.length_singleton, hvalue] <;> omega

/-- The data is written from the cursor on, up to the end of the last property. -/
theorem dataStores_within (chain : List ProtoStackObjectProperty) (rawData : Nat) :
    ∀ s ∈ dataStores chain rawData, s.Within rawData (encodedSize chain) := by
  induction chain generalizing rawData with
  | nil => exact fun s hs => absurd hs List.not_mem_nil
  | cons property prev ih =>
      by_cases hempty : property.valueSize = 0
      · rw [dataStores, if_neg (not_not.mpr hempty), encodedSize_cons_of_empty hempty]
        exact ih rawData
      · rw [dataStores, if_pos hempty, encodedSize_cons_of_ne hempty]
        intro s hs
        rcases List.mem_append.mp hs with hs | hs
        · obtain ⟨hlo, hhi⟩ := protoPropertyWrite_within rawData property s hs
          exact ⟨hlo, by omega⟩
        · obtain ⟨hlo, hhi⟩ := ih _ s hs
          exact ⟨by omega, by omega⟩

/-- As many bytes are written as the properties take. -/
theorem sum_dataStores (chain : List ProtoStackObjectProperty) (rawData : Nat) :
    ((dataStores chain rawData).map fun s => s.bytes.length).sum = encodedSize chain := by
  induction chain generalizing rawData with
  | nil => rfl
  | cons property prev ih =>
      by_cases hempty : property.valueSize = 0
      · rw [dataStores, if_neg (not_not.mpr hempty), encodedSize_cons_of_empty hempty, ih]
      · have hvalue : (property.value.take property.valueSize.toNat).length =
            property.valueSize.toNat := property.length_value
        rw [dataStores, if_pos hempty, encodedSize_cons_of_ne hempty, List.map_append,
          List.sum_append, ih]
        simp only [protoPropertyWrite, List.map_cons, List.map_nil, List.sum_cons, List.sum_nil,
          length_u16Bytes, List.length_singleton, hvalue, sizeofProtoObjectProperty]
        omega

/-- The first property is written at the cursor. -/
theorem exists_dataStore_front {chain : List ProtoStackObjectProperty}
    (hne : 0 < (nonEmpty chain).length) (rawData : Nat) :
    ∃ s ∈ dataStores chain rawData, s.addr = rawData ∧ 0 < s.bytes.length := by
  induction chain with
  | nil => exact absurd hne (Nat.lt_irrefl 0)
  | cons property prev ih =>
      by_cases hempty : property.valueSize = 0
      · rw [nonEmpty_cons_of_empty hempty] at hne
        rw [dataStores, if_neg (not_not.mpr hempty)]
        exact ih hne
      · rw [dataStores, if_pos hempty]
        exact ⟨⟨rawData, u16Bytes property.valueSize⟩, List.mem_cons_self, rfl, Nat.two_pos⟩

/-- The last property is written up to the end. -/
theorem exists_dataStore_back {chain : List ProtoStackObjectProperty}
    (hne : 0 < (nonEmpty chain).length) (rawData : Nat) :
    ∃ s ∈ dataStores chain rawData,
      s.addr + s.bytes.length = rawData + encodedSize chain := by
  induction chain generalizing rawData with
  | nil => exact absurd hne (Nat.lt_irrefl 0)
  | cons property prev ih =>
      by_cases hempty : property.valueSize = 0
      · rw [nonEmpty_cons_of_empty hempty] at hne
        rw [dataStores, if_neg (not_not.mpr hempty), encodedSize_cons_of_empty hempty]
        exact ih hne rawData
      · rw [dataStores, if_pos hempty, encodedSize_cons_of_ne hempty]
        rcases Nat.eq_zero_or_pos (nonEmpty prev).length with hlast | hmore
        · have hvalue : (property.value.take property.valueSize.toNat).length =
              property.valueSize.toNat := property.length_value
          have hzero : encodedSize prev = 0 := by
            rw [encodedSize, List.length_eq_zero_iff.mp hlast]
            rfl
          refine ⟨⟨rawData + sizeofProtoObjectProperty,
            property.value.take property.valueSize.toNat⟩, ?_, ?_⟩
          · exact List.mem_append_left _ (by simp [protoPropertyWrite])
          · simp only [hvalue, hzero]
            omega
        · obtain ⟨s, hs, hend⟩ := ih hmore
            (rawData + (property.valueSize.toNat + sizeofProtoObjectProperty))
          exact ⟨s, List.mem_append_right _ hs, by omega⟩

variable {pl}

variable (pl) in
/-- The entries of a table cover it. -/
theorem exists_tableStore_covering {a i : Nat} (pointers : List Nat) (hlo : a ≤ i)
    (hhi : i < a + (pointers.length + 1) * pl.pointerSize) :
    ∃ s ∈ tableStores pl a pointers, s.addr ≤ i ∧ i < s.addr + s.bytes.length := by
  induction pointers generalizing a with
  | nil =>
      refine ⟨_, List.mem_singleton_self _, hlo, ?_⟩
      simpa using hhi
  | cons pointer pointers ih =>
      rw [List.length_cons, Nat.succ_mul] at hhi
      rcases Nat.lt_or_ge i (a + pl.pointerSize) with hfirst | hlater
      · exact ⟨_, List.mem_cons_self, hlo, by simpa using hfirst⟩
      · obtain ⟨s, hs, hcovers⟩ := ih hlater (by omega)
        exact ⟨s, List.mem_cons_of_mem _ hs, hcovers⟩

/-- Without a wrap, everything is written inside the block. -/
theorem layOutStores_within (obj : Nat) {chain : List ProtoStackObjectProperty}
    (hcount : (nonEmpty chain).length ≤ 255) :
    ∀ s ∈ layOutStores pl obj chain,
      s.Within obj (dataOffset pl (nonEmpty chain).length + encodedSize chain) := by
  have hnumber : (countChain chain 0 0).2.toNat = (nonEmpty chain).length := by
    rw [(toNat_countChain chain).2, Nat.mod_eq_of_lt (by omega)]
  have htable := table_le_dataOffset pl obj (nonEmpty chain).length
  rw [← length_chainProperties] at htable
  unfold sizeofProtoObject at htable
  intro s hs
  rw [layOutStores, hnumber, ← length_chainProperties] at hs
  rw [← length_bodyBytes_chainProperties, ← length_chainProperties]
  rcases List.mem_cons.mp hs with rfl | hs
  · refine ⟨le_rfl, ?_⟩
    show obj + 2 ≤ _
    omega
  · obtain ⟨hlo, hhi⟩ := writeChain_within pl chain htable s hs
    exact ⟨by omega, by omega⟩

/-! ## The block from `malloc` -/

variable (pl)

/-- Where the constructor writes the table, and the data. -/
def allocatedTableStores (rawMalloc : Nat) (chain : List ProtoStackObjectProperty) : List Store :=
  tableStores pl (rawMalloc + sizeofProtoObject)
    (writeChain pl chain (rawMalloc + dataOffset pl (countChain chain 0 0).2.toNat)
      (rawMalloc + sizeofProtoObject)).1

def allocatedDataStores (rawMalloc : Nat) (chain : List ProtoStackObjectProperty) : List Store :=
  dataStores chain (rawMalloc + dataOffset pl (countChain chain 0 0).2.toNat)

/-- Everything that `proto_object_allocate` writes lies in the block at `rawMalloc`
that it asked for, table and data apart, and `object_size` is the number of property
bytes that were written. -/
structure StaysInside (rawMalloc : Nat) (chain : List ProtoStackObjectProperty) : Prop where
  inside : ∀ s ∈ layOutStores pl rawMalloc chain,
    s.Within rawMalloc (requestedSize pl chain)
  apart : ∀ t ∈ allocatedTableStores pl rawMalloc chain,
    ∀ d ∈ allocatedDataStores pl rawMalloc chain,
      Apart t.addr t.bytes.length d.addr d.bytes.length
  objectSize : (countChain chain 0 0).1.toNat =
    ((allocatedDataStores pl rawMalloc chain).map fun s => s.bytes.length).sum

/-- The writes are the size field, the table and the data. -/
theorem layOutStores_perm (rawMalloc : Nat) (chain : List ProtoStackObjectProperty) :
    (layOutStores pl rawMalloc chain).Perm
      (⟨rawMalloc, u16Bytes (countChain chain 0 0).1⟩ ::
        (allocatedTableStores pl rawMalloc chain ++ allocatedDataStores pl rawMalloc chain)) :=
  (writeChain_perm pl chain _ _).cons _

variable {pl} {rawMalloc : Nat} {chain : List ProtoStackObjectProperty}

theorem length_allocatedTable :
    (writeChain pl chain (rawMalloc + dataOffset pl (countChain chain 0 0).2.toNat)
      (rawMalloc + sizeofProtoObject)).1.length = (nonEmpty chain).length := by
  rw [length_writeChain_fst, length_chainProperties]

/-- From 256 properties on, the data begins inside the table. -/
theorem StaysInside.count_le (h : StaysInside pl rawMalloc chain) :
    (nonEmpty chain).length ≤ 255 := by
  by_contra hmany
  have hne : 0 < (nonEmpty chain).length := by omega
  obtain ⟨d, hd, haddr, hpos⟩ := exists_dataStore_front hne
    (rawMalloc + dataOffset pl (countChain chain 0 0).2.toNat)
  have hwrapped := (toNat_countChain chain).2
  -- 256 entries are more than the seven reserved bytes
  have hrows : ((nonEmpty chain).length % 256 + 1) * pl.pointerSize + 256 * pl.pointerSize ≤
      ((nonEmpty chain).length + 1) * pl.pointerSize := by
    rw [← Nat.add_mul]
    exact Nat.mul_le_mul_right _ (by omega)
  have hpointer := pl.pointerSize_pos
  obtain ⟨t, ht, hlo, hhi⟩ := exists_tableStore_covering pl
    (a := rawMalloc + sizeofProtoObject)
    (i := rawMalloc + dataOffset pl (countChain chain 0 0).2.toNat)
    (writeChain pl chain (rawMalloc + dataOffset pl (countChain chain 0 0).2.toNat)
      (rawMalloc + sizeofProtoObject)).1
    (by unfold dataOffset; omega)
    (by
      rw [length_allocatedTable, hwrapped]
      unfold dataOffset sizeofProtoObjectRequestHeader
      omega)
  have hapart := h.apart t ht d hd
  unfold Apart at hapart
  omega

theorem StaysInside.encodedSize_lt (h : StaysInside pl rawMalloc chain) :
    encodedSize chain < 65536 := by
  have hsize := h.objectSize
  rw [allocatedDataStores, sum_dataStores, (toNat_countChain chain).1] at hsize
  omega

/-- What is asked for, if count and sum are exact. -/
theorem allocationSize_of_le (hcount : (nonEmpty chain).length ≤ 255)
    (hsize : encodedSize chain < 65536) :
    allocationSize pl chain = dataOffset pl (nonEmpty chain).length + encodedSize chain := by
  simp only [allocationSize, dataOffset, toNat_countChain, Nat.mod_eq_of_lt hsize,
    Nat.mod_eq_of_lt (show (nonEmpty chain).length < 256 by omega)]
  omega

/-- An empty object fits any address space. -/
theorem dataOffset_zero_lt : dataOffset pl 0 < 256 ^ pl.pointerSize := by
  obtain ⟨k, hk⟩ := Nat.exists_eq_add_of_le' pl.pointerSize_pos
  have hpow : k < 256 ^ k := Nat.lt_pow_self (by omega)
  rw [dataOffset, hk, Nat.pow_succ, sizeofProtoObject, sizeofProtoObjectRequestHeader]
  omega

/-- The last write is inside only if `malloc` was asked for everything. -/
theorem StaysInside.blockSize_lt (h : StaysInside pl rawMalloc chain) :
    dataOffset pl (nonEmpty chain).length + encodedSize chain < 256 ^ pl.pointerSize := by
  have hcount := h.count_le
  have hnumber : (countChain chain 0 0).2.toNat = (nonEmpty chain).length := by
    rw [(toNat_countChain chain).2, Nat.mod_eq_of_lt (by omega)]
  have hrequested : requestedSize pl chain =
      (dataOffset pl (nonEmpty chain).length + encodedSize chain) % 256 ^ pl.pointerSize := by
    rw [requestedSize, allocationSize_of_le hcount h.encodedSize_lt]
  have hmod : (dataOffset pl (nonEmpty chain).length + encodedSize chain) % 256 ^ pl.pointerSize <
      256 ^ pl.pointerSize := Nat.mod_lt _ (Nat.pow_pos (by omega))
  rcases Nat.eq_zero_or_pos (nonEmpty chain).length with hnone | hsome
  · have hzero : encodedSize chain = 0 := by
      rw [encodedSize, List.length_eq_zero_iff.mp hnone]
      rfl
    rw [hnone, hzero]
    exact dataOffset_zero_lt
  · obtain ⟨d, hd, hend⟩ := exists_dataStore_back hsome
      (rawMalloc + dataOffset pl (countChain chain 0 0).2.toNat)
    have hwritten : d ∈ layOutStores pl rawMalloc chain :=
      (layOutStores_perm pl rawMalloc chain).mem_iff.mpr
        (List.mem_cons_of_mem _ (List.mem_append_right _ hd))
    obtain ⟨-, hhi⟩ := h.inside d hwritten
    rw [hend, hrequested, hnumber] at hhi
    omega

/-- **When the constructor stays inside its block.**  If and only if the 8-bit count,
the 16-bit sum and the `size_t` that is passed to `malloc` are exact. -/
theorem staysInside_iff :
    StaysInside pl rawMalloc chain ↔
      (nonEmpty chain).length ≤ 255 ∧ encodedSize chain ≤ 65535 ∧
        sizeofProtoObject + ((nonEmpty chain).length + 1) * pl.pointerSize +
          sizeofProtoObjectRequestHeader + encodedSize chain < 256 ^ pl.pointerSize := by
  have hoffset : sizeofProtoObject + ((nonEmpty chain).length + 1) * pl.pointerSize +
      sizeofProtoObjectRequestHeader = dataOffset pl (nonEmpty chain).length := rfl
  rw [hoffset]
  constructor
  · intro h
    exact ⟨h.count_le, Nat.le_of_lt_succ h.encodedSize_lt, h.blockSize_lt⟩
  · rintro ⟨hcount, hsize, hfits⟩
    have hsum : (countChain chain 0 0).1.toNat = encodedSize chain := by
      rw [(toNat_countChain chain).1, Nat.mod_eq_of_lt (by omega)]
    have hnumber : (countChain chain 0 0).2.toNat = (nonEmpty chain).length := by
      rw [(toNat_countChain chain).2, Nat.mod_eq_of_lt (by omega)]
    refine ⟨?_, ?_, ?_⟩
    · rw [requestedSize, allocationSize_of_le hcount (by omega), Nat.mod_eq_of_lt hfits]
      exact layOutStores_within rawMalloc hcount
    · intro t ht d hd
      obtain ⟨-, htable⟩ := tableStores_within pl _ _ t ht
      obtain ⟨hdata, -⟩ := dataStores_within chain _ d hd
      rw [length_allocatedTable] at htable
      rw [hnumber, dataOffset] at hdata
      exact Or.inl (by omega)
    · rw [allocatedDataStores, sum_dataStores, hsum]

/-- 256 properties of one byte each: the count wraps to 0, the block is requested for
an empty table, and the data is laid out inside the table of 257 pointers. -/
theorem not_staysInside_256 :
    ¬ StaysInside .pc 4096
      (List.replicate 256 ⟨ProtoObjectPropertyKey.payload.code, [7], 1, Nat.le_refl 1⟩) := by
  intro h
  have hcount := h.count_le
  rw [nonEmpty, List.filter_replicate_of_pos (by decide), List.length_replicate] at hcount
  omega

end Allocation

end ZxProto
