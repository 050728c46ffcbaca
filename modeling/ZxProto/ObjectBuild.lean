import ZxProto.Objects

/-!
# Building objects

`proto_object_assign` (`proto_objects.c`) and `proto_object_allocate`
(`proto_heap.c`) lay a chain of stack properties out as one block of memory:
the size field, the pointer table, `sizeof(ProtoObjectRequestHeader)` reserved
bytes, the property data.  Both run the chain twice; empty properties are
skipped by both passes.

* `countChain` and `writeChain` — the two passes;
* `OwnedObject` — an object together with the memory that it owns; its table
  has at most 255 entries, so that the 8-bit index of `proto_object_data`
  reaches the NULL;
* `Represents` — the memory holds a given list of properties in the layout that
  the senders rely on;
* `OwnedObject.LaidOut` — the layout itself, with the values of the pointers;
* `represents_protoObjectAssign`, `represents_protoObjectAllocate` — the
  constructors establish it for every chain whose encoded size fits 16 bits.
-/

namespace ZxProto

open ByteMemory

/-! ## Chains -/

/-- `ProtoStackObjectProperty`: `value` is what the pointer shows, of which the
property takes `valueSize` bytes. -/
structure ProtoStackObjectProperty where
  key : UInt8
  value : List UInt8
  valueSize : UInt16
  valueSize_le : valueSize.toNat ≤ value.length

/-- The wire property that a stack property stands for. -/
def ProtoStackObjectProperty.toProperty (p : ProtoStackObjectProperty) : Property :=
  Property.ofPrefix p.key p.valueSize p.value

/-- The non-empty properties of a chain, in the order from `last_property`
along `prev`. -/
def chainProperties (chain : List ProtoStackObjectProperty) : List Property :=
  (chain.filter fun p => p.valueSize ≠ 0).map ProtoStackObjectProperty.toProperty

theorem ProtoStackObjectProperty.length_value (p : ProtoStackObjectProperty) :
    p.toProperty.value.length = p.valueSize.toNat :=
  List.length_take_of_le p.valueSize_le

/-- First pass: the 16-bit sum of the encoded sizes and the 8-bit number of the
non-empty properties. -/
def countChain : List ProtoStackObjectProperty → UInt16 → UInt8 → UInt16 × UInt8
  | [], objectSize, numberOfProperties => (objectSize, numberOfProperties)
  | property :: prev, objectSize, numberOfProperties =>
      if property.valueSize ≠ 0 then
        countChain prev
          (objectSize + (property.valueSize + UInt16.ofNat sizeofProtoObjectProperty))
          (numberOfProperties + 1)
      else
        countChain prev objectSize numberOfProperties

/-- `proto_property_write`. -/
def protoPropertyWrite (target : Nat) (key : UInt8) (value : List UInt8) (valueSize : UInt16) :
    List Store :=
  [⟨target, u16Bytes valueSize⟩, ⟨target + 2, [key]⟩,
    ⟨target + sizeofProtoObjectProperty, value.take valueSize.toNat⟩]

/-- Second pass: the pointers put into the table, and all writes in program
order, from the raw-data cursor `rawData` and the table cursor `resProp`. -/
def writeChain (pl : Platform) :
    List ProtoStackObjectProperty → (rawData resProp : Nat) → List Nat × List Store
  | [], _, resProp => ([], [⟨resProp, littleEndian pl.pointerSize 0⟩])
  | property :: prev, rawData, resProp =>
      if property.valueSize ≠ 0 then
        let rest := writeChain pl prev
          (rawData + (property.valueSize.toNat + sizeofProtoObjectProperty))
          (resProp + pl.pointerSize)
        (rawData :: rest.1,
          ⟨resProp, littleEndian pl.pointerSize rawData⟩ ::
            (protoPropertyWrite rawData property.key property.value property.valueSize ++ rest.2))
      else
        writeChain pl prev rawData resProp

/-- Offset of the property data in a block whose table counts
`numberOfProperties` entries. -/
def dataOffset (pl : Platform) (numberOfProperties : Nat) : Nat :=
  sizeofProtoObject + (numberOfProperties + 1) * pl.pointerSize + sizeofProtoObjectRequestHeader

/-! ## Owned objects -/

/-- An object at `addr`, in the memory `mem` that it owns. -/
structure OwnedObject where
  addr : Nat
  mem : Memory
  object : ProtoObject
  properties_le : object.properties.length ≤ 255

theorem length_writeChain_fst (pl : Platform) (chain : List ProtoStackObjectProperty)
    (rawData resProp : Nat) :
    (writeChain pl chain rawData resProp).1.length = (chainProperties chain).length := by
  induction chain generalizing rawData resProp with
  | nil => rfl
  | cons property prev ih =>
      by_cases hempty : property.valueSize = 0
      · simpa [writeChain, chainProperties, hempty] using ih rawData resProp
      · simpa [writeChain, chainProperties, hempty] using
          ih (rawData + (property.valueSize.toNat + sizeofProtoObjectProperty))
            (resProp + pl.pointerSize)

/-- The block that both constructors lay out at `obj`. -/
def layOut (pl : Platform) (mem : Memory) (obj : Nat) (chain : List ProtoStackObjectProperty)
    (hcount : (chainProperties chain).length ≤ 255) : OwnedObject :=
  let counted := countChain chain 0 0
  let written := writeChain pl chain (obj + dataOffset pl counted.2.toNat)
    (obj + sizeofProtoObject)
  { addr := obj
    mem := storeAll mem (⟨obj, u16Bytes counted.1⟩ :: written.2)
    object := ⟨counted.1, written.1⟩
    properties_le := by
      simp only [written, length_writeChain_fst]
      exact hcount }

/-- `proto_object_assign`: lay the object out in the caller's buffer.  The
source never reads `buffer_available`. -/
def protoObjectAssign (pl : Platform) (mem : Memory) (obj : Nat) (_bufferAvailable : UInt16)
    (lastProperty : List ProtoStackObjectProperty)
    (hcount : (chainProperties lastProperty).length ≤ 255) : OwnedObject :=
  layOut pl mem obj lastProperty hcount

/-- What `proto_object_allocate` asks `malloc` for. -/
def allocationSize (pl : Platform) (lastProperty : List ProtoStackObjectProperty) : Nat :=
  let counted := countChain lastProperty 0 0
  sizeofProtoObject + (counted.2.toNat + 1) * pl.pointerSize + counted.1.toNat +
    sizeofProtoObjectRequestHeader

/-- `proto_object_allocate`: lay the object out in the block at `rawMalloc`. -/
def protoObjectAllocate (pl : Platform) (mem : Memory) (rawMalloc : Nat)
    (lastProperty : List ProtoStackObjectProperty)
    (hcount : (chainProperties lastProperty).length ≤ 255) : OwnedObject :=
  layOut pl mem rawMalloc lastProperty hcount

/-- `proto_object_data`: behind the table, whose entries the loop counts up to
the NULL. -/
def protoObjectData (pl : Platform) (o : OwnedObject) : Nat :=
  o.addr + sizeofProtoObject + (o.object.properties.length + 1) * pl.pointerSize

/-- The object shows `props`, and its property data lies in the layout that the
senders rely on. -/
structure Represents (pl : Platform) (o : OwnedObject) (props : List Property) : Prop where
  size_lt : (bodyBytes props).length < 65536
  objectSize : o.object.objectSize.toNat = (bodyBytes props).length
  data : slice o.mem (protoObjectData pl o + sizeofProtoObjectRequestHeader)
    (bodyBytes props).length = bodyBytes props
  contents : o.object.contents o.mem = props

/-! ## What the constructors establish -/

theorem chainProperties_cons_of_empty {property : ProtoStackObjectProperty}
    (hempty : property.valueSize = 0) (prev : List ProtoStackObjectProperty) :
    chainProperties (property :: prev) = chainProperties prev := by
  simp [chainProperties, hempty]

theorem chainProperties_cons_of_ne {property : ProtoStackObjectProperty}
    (hne : property.valueSize ≠ 0) (prev : List ProtoStackObjectProperty) :
    chainProperties (property :: prev) = property.toProperty :: chainProperties prev := by
  simp [chainProperties, hne]

theorem ProtoStackObjectProperty.size_toProperty (p : ProtoStackObjectProperty) :
    p.toProperty.size = p.valueSize.toNat + sizeofProtoObjectProperty := by
  rw [Property.size, p.length_value]

/-- The first pass sums the encoded sizes modulo 2^16 and counts modulo 2^8. -/
theorem countChain_eq (chain : List ProtoStackObjectProperty) (size : UInt16) (n : UInt8) :
    countChain chain size n =
      (size + UInt16.ofNat (bodyBytes (chainProperties chain)).length,
        n + UInt8.ofNat (chainProperties chain).length) := by
  induction chain generalizing size n with
  | nil => simp [countChain, chainProperties]
  | cons property prev ih =>
      by_cases hempty : property.valueSize = 0
      · rw [countChain, if_neg (by simpa using hempty), ih, chainProperties_cons_of_empty hempty]
      · have hsize : (bodyBytes (property.toProperty :: chainProperties prev)).length =
            property.valueSize.toNat + sizeofProtoObjectProperty +
              (bodyBytes (chainProperties prev)).length := by
          rw [bodyBytes_cons, List.length_append, Property.length_bytes, property.size_toProperty]
        have hnumber : (property.toProperty :: chainProperties prev).length =
            1 + (chainProperties prev).length := by
          rw [List.length_cons, Nat.add_comm]
        rw [countChain, if_pos hempty, ih, chainProperties_cons_of_ne hempty, hsize, hnumber,
          UInt16.ofNat_add, UInt16.ofNat_add, UInt16.ofNat_toNat, UInt8.ofNat_add,
          UInt16.add_assoc, UInt8.add_assoc]
        rfl

/-- Every write of the second pass avoids a block that lies behind the table and
in front of the raw data. -/
theorem writeChain_avoids (pl : Platform) (chain : List ProtoStackObjectProperty)
    {rawData resProp a n : Nat}
    (htable : resProp + ((chainProperties chain).length + 1) * pl.pointerSize ≤ a)
    (hdata : a + n ≤ rawData) :
    ∀ s ∈ (writeChain pl chain rawData resProp).2, s.Avoids a n := by
  induction chain generalizing rawData resProp with
  | nil =>
      intro s hs
      simp only [writeChain, List.mem_singleton] at hs
      subst hs
      right
      simpa [chainProperties] using htable
  | cons property prev ih =>
      by_cases hempty : property.valueSize = 0
      · rw [chainProperties_cons_of_empty hempty] at htable
        rw [writeChain, if_neg (by simpa using hempty)]
        exact ih htable hdata
      · rw [chainProperties_cons_of_ne hempty, List.length_cons, Nat.succ_mul] at htable
        have hpointer : pl.pointerSize ≤
            ((chainProperties prev).length + 1) * pl.pointerSize :=
          Nat.le_mul_of_pos_left _ (Nat.succ_pos _)
        rw [writeChain, if_pos hempty]
        intro s hs
        rcases List.mem_cons.mp hs with rfl | hs
        · right
          simp only [length_littleEndian]
          omega
        -- the three writes of this property, then those behind it
        · rcases List.mem_append.mp hs with hs | hs
          · left
            simp only [protoPropertyWrite, List.mem_cons, List.not_mem_nil, or_false] at hs
            rcases hs with rfl | rfl | rfl <;> simp only <;> omega
          · exact ih (by omega) (by omega) s hs

/-- The second pass writes from the table on, up to the end of the data. -/
theorem writeChain_within (pl : Platform) (chain : List ProtoStackObjectProperty)
    {rawData resProp : Nat}
    (htable : resProp + ((chainProperties chain).length + 1) * pl.pointerSize ≤ rawData) :
    ∀ s ∈ (writeChain pl chain rawData resProp).2, s.Within resProp
      (rawData + (bodyBytes (chainProperties chain)).length - resProp) := by
  induction chain generalizing rawData resProp with
  | nil =>
      intro s hs
      simp only [writeChain, List.mem_singleton] at hs
      simp only [chainProperties, List.filter_nil, List.map_nil, List.length_nil, Nat.zero_add,
        Nat.one_mul, bodyBytes_nil] at htable ⊢
      subst hs
      refine ⟨le_rfl, ?_⟩
      show resProp + (littleEndian _ _).length ≤ _
      rw [length_littleEndian]
      omega
  | cons property prev ih =>
      by_cases hempty : property.valueSize = 0
      · rw [chainProperties_cons_of_empty hempty] at htable ⊢
        rw [writeChain, if_neg (by simpa using hempty)]
        exact ih htable
      · rw [chainProperties_cons_of_ne hempty, List.length_cons, Nat.succ_mul] at htable
        rw [chainProperties_cons_of_ne hempty, bodyBytes_cons, List.length_append,
          Property.length_bytes, property.size_toProperty, writeChain, if_pos hempty]
        have hpointer : pl.pointerSize ≤
            ((chainProperties prev).length + 1) * pl.pointerSize :=
          Nat.le_mul_of_pos_left _ (Nat.succ_pos _)
        have hvalue : (property.value.take property.valueSize.toNat).length =
            property.valueSize.toNat := property.length_value
        unfold sizeofProtoObjectProperty
        intro s hs
        rcases List.mem_cons.mp hs with rfl | hs
        · refine ⟨le_rfl, ?_⟩
          show resProp + (littleEndian _ _).length ≤ _
          rw [length_littleEndian]
          omega
        · rcases List.mem_append.mp hs with hs | hs
          · unfold Store.Within
            simp only [protoPropertyWrite, sizeofProtoObjectProperty, List.mem_cons,
              List.not_mem_nil, or_false] at hs
            rcases hs with rfl | rfl | rfl <;>
              simp only [length_u16Bytes, List.length_singleton, hvalue] <;> omega
          · obtain ⟨hlo, hhi⟩ := ih (by omega) s hs
            exact ⟨by omega, by omega⟩

/-- The second pass leaves the pointers that it returns, and the NULL. -/
theorem slice_writeChain_table (pl : Platform) (chain : List ProtoStackObjectProperty)
    (mem : Memory) {rawData resProp : Nat}
    (htable : resProp + ((chainProperties chain).length + 1) * pl.pointerSize ≤ rawData) :
    slice (storeAll mem (writeChain pl chain rawData resProp).2) resProp
        (((chainProperties chain).length + 1) * pl.pointerSize) =
      (writeChain pl chain rawData resProp).1.flatMap (littleEndian pl.pointerSize) ++
        littleEndian pl.pointerSize 0 := by
  induction chain generalizing mem rawData resProp with
  | nil =>
      have hself := slice_store_self mem resProp (littleEndian pl.pointerSize 0)
      rw [length_littleEndian] at hself
      simpa [writeChain, chainProperties] using hself
  | cons property prev ih =>
      by_cases hempty : property.valueSize = 0
      · rw [chainProperties_cons_of_empty hempty] at htable ⊢
        rw [writeChain, if_neg (by simpa using hempty)]
        exact ih mem htable
      · rw [chainProperties_cons_of_ne hempty, List.length_cons, Nat.succ_mul] at htable
        have hpointer : pl.pointerSize ≤
            ((chainProperties prev).length + 1) * pl.pointerSize :=
          Nat.le_mul_of_pos_left _ (Nat.succ_pos _)
        have hself := slice_store_self mem resProp (littleEndian pl.pointerSize rawData)
        rw [length_littleEndian] at hself
        -- everything else is written behind the first entry
        have hproperty : ∀ s ∈ protoPropertyWrite rawData property.key property.value
            property.valueSize, s.Avoids resProp pl.pointerSize := by
          intro s hs
          left
          simp only [protoPropertyWrite, List.mem_cons, List.not_mem_nil, or_false] at hs
          rcases hs with rfl | rfl | rfl <;> simp only <;> omega
        have hnext : resProp + pl.pointerSize +
            ((chainProperties prev).length + 1) * pl.pointerSize ≤
            rawData + (property.valueSize.toNat + sizeofProtoObjectProperty) := by omega
        have hlater : ∀ s ∈ (writeChain pl prev
            (rawData + (property.valueSize.toNat + sizeofProtoObjectProperty))
            (resProp + pl.pointerSize)).2, s.Avoids resProp pl.pointerSize := fun s hs =>
          (writeChain_within pl prev hnext s hs).avoids (Or.inr le_rfl)
        have hlength : (property.toProperty :: chainProperties prev).length * pl.pointerSize +
            pl.pointerSize =
              pl.pointerSize + ((chainProperties prev).length + 1) * pl.pointerSize := by
          rw [List.length_cons, Nat.add_comm]
        rw [chainProperties_cons_of_ne hempty, Nat.succ_mul, hlength, writeChain, if_pos hempty,
          slice_add]
        simp only [storeAll_cons, storeAll_append]
        rw [slice_storeAll_of_avoids _ hlater, slice_storeAll_of_avoids _ hproperty, hself,
          ih _ hnext, List.flatMap_cons, List.append_assoc]

/-- `proto_property_write` leaves the encoded property at its target. -/
theorem slice_protoPropertyWrite (mem : Memory) (target : Nat) (p : ProtoStackObjectProperty) :
    slice (storeAll mem (protoPropertyWrite target p.key p.value p.valueSize)) target
      p.toProperty.size = p.toProperty.bytes := by
  have hlen : (p.value.take p.valueSize.toNat).length = p.valueSize.toNat := p.length_value
  have hsplit : p.toProperty.size = 2 + (1 + p.valueSize.toNat) := by
    rw [p.size_toProperty, sizeofProtoObjectProperty]
    omega
  have hsize : slice (storeAll mem (protoPropertyWrite target p.key p.value p.valueSize))
      target 2 = u16Bytes p.valueSize := by
    simp only [protoPropertyWrite, storeAll_cons, storeAll_nil]
    rw [slice_store_of_avoids _ (by left; simp [sizeofProtoObjectProperty]),
      slice_store_of_avoids _ (by left; simp)]
    exact slice_store_self mem target (u16Bytes p.valueSize)
  have hkey : slice (storeAll mem (protoPropertyWrite target p.key p.value p.valueSize))
      (target + 2) 1 = [p.key] := by
    simp only [protoPropertyWrite, storeAll_cons, storeAll_nil]
    rw [slice_store_of_avoids _ (by left; simp [sizeofProtoObjectProperty])]
    exact slice_store_self _ (target + 2) [p.key]
  have hvalue : slice (storeAll mem (protoPropertyWrite target p.key p.value p.valueSize))
      (target + 2 + 1) p.valueSize.toNat = p.value.take p.valueSize.toNat := by
    have := slice_store_self
      (storeAll mem [⟨target, u16Bytes p.valueSize⟩, ⟨target + 2, [p.key]⟩])
      (target + sizeofProtoObjectProperty) (p.value.take p.valueSize.toNat)
    rwa [hlen] at this
  rw [hsplit, slice_add, slice_add, hsize, hkey, hvalue, Property.bytes, p.length_value,
    UInt16.ofNat_toNat]
  rfl

/-- The second pass leaves the encoded chain at the raw-data cursor, and the
pointers to its properties in the table. -/
theorem writeChain_spec (pl : Platform) (chain : List ProtoStackObjectProperty) (mem : Memory)
    {rawData resProp : Nat}
    (htable : resProp + ((chainProperties chain).length + 1) * pl.pointerSize ≤ rawData) :
    (writeChain pl chain rawData resProp).1 =
        propertyAddresses rawData (chainProperties chain) ∧
      slice (storeAll mem (writeChain pl chain rawData resProp).2) rawData
        (bodyBytes (chainProperties chain)).length = bodyBytes (chainProperties chain) := by
  induction chain generalizing mem rawData resProp with
  | nil => simp [writeChain, chainProperties, propertyAddresses]
  | cons property prev ih =>
      by_cases hempty : property.valueSize = 0
      · rw [chainProperties_cons_of_empty hempty] at htable ⊢
        rw [writeChain, if_neg (by simpa using hempty)]
        exact ih mem htable
      · rw [chainProperties_cons_of_ne hempty, List.length_cons, Nat.succ_mul] at htable
        have hnext : resProp + pl.pointerSize +
            ((chainProperties prev).length + 1) * pl.pointerSize ≤
            rawData + property.toProperty.size := by omega
        have hstores : (writeChain pl (property :: prev) rawData resProp).2 =
            ⟨resProp, littleEndian pl.pointerSize rawData⟩ ::
              (protoPropertyWrite rawData property.key property.value property.valueSize ++
                (writeChain pl prev (rawData + property.toProperty.size)
                  (resProp + pl.pointerSize)).2) := by
          rw [writeChain, if_pos hempty, property.size_toProperty]
        have hpointers : (writeChain pl (property :: prev) rawData resProp).1 =
            rawData :: (writeChain pl prev (rawData + property.toProperty.size)
              (resProp + pl.pointerSize)).1 := by
          rw [writeChain, if_pos hempty, property.size_toProperty]
        obtain ⟨haddresses, hrest⟩ := ih
          (storeAll (store mem ⟨resProp, littleEndian pl.pointerSize rawData⟩)
            (protoPropertyWrite rawData property.key property.value property.valueSize)) hnext
        rw [chainProperties_cons_of_ne hempty]
        constructor
        · rw [hpointers, haddresses, propertyAddresses]
        -- the writes of the later properties lie behind this one
        · rw [hstores, storeAll_cons, storeAll_append, bodyBytes_cons, List.length_append,
            Property.length_bytes, slice_add, hrest, slice_storeAll_of_avoids,
            slice_protoPropertyWrite]
          exact writeChain_avoids pl prev (by omega) le_rfl

/-- The layout of a constructor's block: sizes, pointers and data agree. -/
structure OwnedObject.LaidOut (pl : Platform) (o : OwnedObject) (props : List Property) :
    Prop where
  size_lt : (bodyBytes props).length < 65536
  objectSize : o.object.objectSize = UInt16.ofNat (bodyBytes props).length
  properties : o.object.properties = propertyAddresses (o.addr + dataOffset pl props.length) props
  data : slice o.mem (o.addr + dataOffset pl props.length) (bodyBytes props).length =
    bodyBytes props

theorem OwnedObject.LaidOut.protoObjectData_add {pl : Platform} {o : OwnedObject}
    {props : List Property} (h : o.LaidOut pl props) :
    protoObjectData pl o + sizeofProtoObjectRequestHeader =
      o.addr + dataOffset pl props.length := by
  rw [protoObjectData, h.properties, length_propertyAddresses, dataOffset]
  omega

/-- Such a block shows its properties to the senders and to the accessors. -/
theorem OwnedObject.LaidOut.represents {pl : Platform} {o : OwnedObject}
    {props : List Property} (h : o.LaidOut pl props) : Represents pl o props := by
  refine ⟨h.size_lt, ?_, ?_, ?_⟩
  · rw [h.objectSize, UInt16.toNat_ofNat_of_lt' h.size_lt]
  · rw [h.protoObjectData_add]
    exact h.data
  · rw [ProtoObject.contents, h.properties]
    apply map_readProperty_propertyAddresses _
      (o.addr + dataOffset pl props.length + (bodyBytes props).length)
    rw [Nat.add_sub_cancel_left]
    exact h.data

/-- The 8-bit count is exact for a table that the sender can count. -/
theorem toNat_countChain_snd {chain : List ProtoStackObjectProperty}
    (hcount : (chainProperties chain).length ≤ 255) :
    (countChain chain 0 0).2.toNat = (chainProperties chain).length := by
  rw [countChain_eq, UInt8.zero_add, UInt8.toNat_ofNat', Nat.mod_eq_of_lt (by omega)]

/-- The data lies behind the table. -/
theorem table_le_dataOffset (pl : Platform) (obj n : Nat) :
    obj + sizeofProtoObject + (n + 1) * pl.pointerSize ≤ obj + dataOffset pl n := by
  unfold dataOffset
  omega

theorem laidOut_layOut (pl : Platform) (mem : Memory) (obj : Nat)
    (chain : List ProtoStackObjectProperty) (hcount : (chainProperties chain).length ≤ 255)
    (hsize : (bodyBytes (chainProperties chain)).length < 65536) :
    (layOut pl mem obj chain hcount).LaidOut pl (chainProperties chain) := by
  have hnumber := toNat_countChain_snd hcount
  have htable := table_le_dataOffset pl obj (chainProperties chain).length
  obtain ⟨hpointers, hslice⟩ := writeChain_spec pl chain
    (store mem ⟨obj, u16Bytes (countChain chain 0 0).1⟩) htable
  refine ⟨hsize, ?_, ?_, ?_⟩
  · simp only [layOut]
    rw [countChain_eq, UInt16.zero_add]
  · simp only [layOut, hnumber]
    exact hpointers
  · simp only [layOut, hnumber, storeAll_cons]
    exact hslice

/-- A constructor writes its block only. -/
theorem agreeOff_layOut (pl : Platform) (mem : Memory) (obj : Nat)
    (chain : List ProtoStackObjectProperty) (hcount : (chainProperties chain).length ≤ 255) :
    AgreeOff mem (layOut pl mem obj chain hcount).mem obj
      (dataOffset pl (chainProperties chain).length +
        (bodyBytes (chainProperties chain)).length) := by
  have htable := table_le_dataOffset pl obj (chainProperties chain).length
  simp only [layOut, toNat_countChain_snd hcount]
  apply agreeOff_storeAll
  intro s hs
  unfold sizeofProtoObject at htable hs
  rcases List.mem_cons.mp hs with rfl | hs
  · refine ⟨le_rfl, ?_⟩
    show obj + 2 ≤ _
    omega
  · obtain ⟨hlo, hhi⟩ := writeChain_within pl chain htable s hs
    exact ⟨by omega, by omega⟩

/-- A constructor leaves the size field, the pointers and the NULL. -/
theorem slice_layOut_table (pl : Platform) (mem : Memory) (obj : Nat)
    (chain : List ProtoStackObjectProperty) (hcount : (chainProperties chain).length ≤ 255) :
    slice (layOut pl mem obj chain hcount).mem obj
        (sizeofProtoObject + ((chainProperties chain).length + 1) * pl.pointerSize) =
      objectTable pl (layOut pl mem obj chain hcount).object := by
  have htable := table_le_dataOffset pl obj (chainProperties chain).length
  have hlater : ∀ s ∈ (writeChain pl chain (obj + dataOffset pl (chainProperties chain).length)
      (obj + sizeofProtoObject)).2, s.Avoids obj sizeofProtoObject := fun s hs =>
    (writeChain_within pl chain htable s hs).avoids (Or.inr le_rfl)
  have hsize : slice (store mem ⟨obj, u16Bytes (countChain chain 0 0).1⟩) obj sizeofProtoObject =
      u16Bytes (countChain chain 0 0).1 :=
    slice_store_self mem obj (u16Bytes (countChain chain 0 0).1)
  simp only [layOut, toNat_countChain_snd hcount, storeAll_cons]
  rw [slice_add, slice_storeAll_of_avoids _ hlater, hsize, slice_writeChain_table pl chain _ htable,
    objectTable, List.append_assoc]

/-- **The constructors build sendable objects**: for every chain whose encoded
size fits 16 bits. -/
theorem represents_layOut (pl : Platform) (mem : Memory) (obj : Nat)
    (chain : List ProtoStackObjectProperty) (hcount : (chainProperties chain).length ≤ 255)
    (hsize : (bodyBytes (chainProperties chain)).length < 65536) :
    Represents pl (layOut pl mem obj chain hcount) (chainProperties chain) :=
  (laidOut_layOut pl mem obj chain hcount hsize).represents

theorem represents_protoObjectAssign (pl : Platform) (mem : Memory) (obj : Nat)
    (bufferAvailable : UInt16) (chain : List ProtoStackObjectProperty)
    (hcount : (chainProperties chain).length ≤ 255)
    (hsize : (bodyBytes (chainProperties chain)).length < 65536) :
    Represents pl (protoObjectAssign pl mem obj bufferAvailable chain hcount)
      (chainProperties chain) :=
  represents_layOut pl mem obj chain hcount hsize

theorem represents_protoObjectAllocate (pl : Platform) (mem : Memory) (rawMalloc : Nat)
    (chain : List ProtoStackObjectProperty) (hcount : (chainProperties chain).length ≤ 255)
    (hsize : (bodyBytes (chainProperties chain)).length < 65536) :
    Represents pl (protoObjectAllocate pl mem rawMalloc chain hcount) (chainProperties chain) :=
  represents_layOut pl mem rawMalloc chain hcount hsize

end ZxProto
