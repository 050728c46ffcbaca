import ZxProto.ObjectRoundTrip

/-!
# Faithful copies

`proto_object_copy` trusts its source: it takes `object_size` for the sum of what the
pointers show.  Every way to make an object establishes that.

* `copyStores` — the writes of the function, in program order;
* `Counted` — few properties, and a size field that is their size;
* `Obtained`, `Obtained.counted` — the objects of a program, and that they are counted;
* `FreshBlock` — what `malloc` promises;
* `CopiesFaithfully`, `protoObjectCopy_faithful` — the copy shows the same, lies in its
  block, and is sent from there.
-/

namespace ZxProto

open ByteMemory

section Copies

variable (pl : Platform)

/-! ## The writes -/

/-- The writes of the loop. -/
def copyPropertiesStores : List Nat → (it cp : Nat) → Memory → List Store
  | [], _, cp, _ => [⟨cp, littleEndian pl.pointerSize 0⟩]
  | property :: p, it, cp, mem =>
      let size := (protoPropertyValueSize mem property).toNat + sizeofProtoObjectProperty
      let copied := store mem ⟨it, slice mem property size⟩
      ⟨it, slice mem property size⟩ :: ⟨cp, littleEndian pl.pointerSize it⟩ ::
        copyPropertiesStores p (it + size) (cp + pl.pointerSize)
          (store copied ⟨cp, littleEndian pl.pointerSize it⟩)

/-- The writes of `proto_object_copy`. -/
def copyStores (mem : Memory) (obj : ProtoObject) (rawMalloc : Nat) : List Store :=
  let numberOfProperties := UInt8.ofNat obj.properties.length
  let sized : Store := ⟨rawMalloc, u16Bytes obj.objectSize⟩
  sized :: copyPropertiesStores pl obj.properties
    (rawMalloc + dataOffset pl numberOfProperties.toNat) (rawMalloc + sizeofProtoObject)
    (store mem sized)

/-- What `proto_object_copy` asks `malloc` for, a `size_t`. -/
def requestedCopySize (obj : ProtoObject) : Nat :=
  let numberOfProperties := UInt8.ofNat obj.properties.length
  (sizeofProtoObject + (numberOfProperties.toNat + 1) * pl.pointerSize + obj.objectSize.toNat +
    sizeofProtoObjectRequestHeader) % 256 ^ pl.pointerSize

theorem storeAll_copyPropertiesStores (properties : List Nat) (it cp : Nat) (mem : Memory) :
    storeAll mem (copyPropertiesStores pl properties it cp mem) =
      (copyProperties pl properties it cp mem).2 := by
  induction properties generalizing it cp mem with
  | nil => rfl
  | cons property p ih =>
      simp only [copyPropertiesStores, copyProperties, storeAll_cons]
      exact ih _ _ _

/-- The function makes these writes. -/
theorem protoObjectCopy_mem (mem : Memory) (obj : ProtoObject) (rawMalloc : Nat)
    (hcount : obj.properties.length ≤ 255) :
    (protoObjectCopy pl mem obj rawMalloc hcount).mem =
      storeAll mem (copyStores pl mem obj rawMalloc) :=
  (storeAll_copyPropertiesStores pl _ _ _ _).symm

theorem copyPropertiesStores_cons (property : Nat) (p : List Nat) (it cp : Nat) (mem : Memory) :
    copyPropertiesStores pl (property :: p) it cp mem =
      ⟨it, (readProperty mem property).bytes⟩ :: ⟨cp, littleEndian pl.pointerSize it⟩ ::
        copyPropertiesStores pl p (it + (readProperty mem property).size) (cp + pl.pointerSize)
          (copyProperty pl property it cp mem) := by
  rw [copyPropertiesStores, copyProperty, bytes_readProperty, size_readProperty,
    Nat.add_comm sizeofProtoObjectProperty]

/-- The loop writes the table and the data. -/
theorem copyPropertiesStores_within (mem : Memory) (properties : List Nat) {it cp : Nat}
    (htable : cp + (properties.length + 1) * pl.pointerSize ≤ it)
    (hsource : ∀ property ∈ properties, Apart property (readProperty mem property).size cp
      (it + (bodyBytes (properties.map (readProperty mem))).length - cp)) :
    ∀ s ∈ copyPropertiesStores pl properties it cp mem,
      s.Within cp (it + (bodyBytes (properties.map (readProperty mem))).length - cp) := by
  induction properties generalizing it cp mem with
  | nil =>
      intro s hs
      rw [List.length_nil, Nat.zero_add, Nat.one_mul] at htable
      rw [copyPropertiesStores, List.mem_singleton] at hs
      subst hs
      unfold Store.Within
      simp only [length_littleEndian, List.map_nil, bodyBytes_nil, List.length_nil]
      omega
  | cons property rest ih =>
      rw [List.length_cons] at htable
      obtain ⟨hrest, htable', hsource'⟩ := copyProperty_rest pl htable hsource
      rw [← hrest] at hsource'
      have hlater := ih _ htable' hsource'
      rw [Nat.succ_mul] at htable
      rw [hrest] at hlater
      rw [List.map_cons, bodyBytes_cons, List.length_append, Property.length_bytes,
        copyPropertiesStores_cons]
      intro s hs
      rcases List.mem_cons.mp hs with rfl | hs
      · simp only [Store.Within, Property.length_bytes]
        omega
      rcases List.mem_cons.mp hs with rfl | hs
      · simp only [Store.Within, length_littleEndian]
        omega
      · obtain ⟨hlo, hhi⟩ := hlater s hs
        exact ⟨by omega, by omega⟩

/-! ## Objects -/

/-- At most 255 properties, and a size field that is the size of what the pointers
show. -/
structure Counted (mem : Memory) (obj : ProtoObject) : Prop where
  count_le : obj.properties.length ≤ 255
  size_lt : (bodyBytes (obj.contents mem)).length < 65536
  objectSize : obj.objectSize = UInt16.ofNat (bodyBytes (obj.contents mem)).length

/-- A block of the size that a copy needs: not NULL, in the address space, and not in
use for what the source shows. -/
structure FreshBlock (mem : Memory) (obj : ProtoObject) (rawMalloc : Nat) : Prop where
  nonNull : 0 < rawMalloc
  inside : rawMalloc + blockSize pl obj ≤ 256 ^ pl.pointerSize
  apart : ∀ property ∈ obj.properties,
    Apart property (readProperty mem property).size rawMalloc (blockSize pl obj)

/-- The objects that a program obtains, each in the memory that shows it: read from a
body, built from a chain, or copied.  What they do not show may change. -/
inductive Obtained : Memory → ProtoObject → Prop
  | read {mem : Memory} (obj : Nat) (held : ProtoObject) (bufferAvailable objectSize : UInt16)
      (bufferFrom : Nat)
      (haccepted :
        (protoObjectRead pl obj held bufferAvailable objectSize mem bufferFrom).result = 0)
      (hcount : (protoObjectRead pl obj held bufferAvailable objectSize mem
        bufferFrom).object.properties.length ≤ 255)
      (hapart : Apart obj bufferAvailable.toNat bufferFrom objectSize.toNat) :
      Obtained
        (storeAll mem
          (protoObjectRead pl obj held bufferAvailable objectSize mem bufferFrom).stores)
        (protoObjectRead pl obj held bufferAvailable objectSize mem bufferFrom).object
  | assign (mem : Memory) (obj : Nat) (bufferAvailable : UInt16)
      (lastProperty : List ProtoStackObjectProperty)
      (hcount : (chainProperties lastProperty).length ≤ 255)
      (hsize : encodedSize lastProperty ≤ 65535) :
      Obtained (protoObjectAssign pl mem obj bufferAvailable lastProperty hcount).mem
        (protoObjectAssign pl mem obj bufferAvailable lastProperty hcount).object
  | allocate (mem : Memory) (rawMalloc : Nat) (lastProperty : List ProtoStackObjectProperty)
      (hcount : (chainProperties lastProperty).length ≤ 255)
      (hsize : encodedSize lastProperty ≤ 65535) :
      Obtained (protoObjectAllocate pl mem rawMalloc lastProperty hcount).mem
        (protoObjectAllocate pl mem rawMalloc lastProperty hcount).object
  | copy {mem : Memory} {obj : ProtoObject} (h : Obtained mem obj) (rawMalloc : Nat)
      (hcount : obj.properties.length ≤ 255) (hfresh : FreshBlock pl mem obj rawMalloc) :
      Obtained (protoObjectCopy pl mem obj rawMalloc hcount).mem
        (protoObjectCopy pl mem obj rawMalloc hcount).object
  | kept {mem : Memory} {obj : ProtoObject} (h : Obtained mem obj) (mem' : Memory)
      (hkept : ∀ property ∈ obj.properties,
        AgreeOn mem mem' property (readProperty mem property).size) : Obtained mem' obj

variable {pl} {mem : Memory} {obj : ProtoObject}

/-- Pointers show the same in memories that agree on what they show. -/
theorem contents_congr {mem' : Memory} (hkept : ∀ property ∈ obj.properties,
    AgreeOn mem mem' property (readProperty mem property).size) :
    obj.contents mem' = obj.contents mem :=
  List.map_congr_left fun property hproperty => readProperty_congr (hkept property hproperty)

/-- A laid out object is counted. -/
theorem OwnedObject.LaidOut.counted {o : OwnedObject} {props : List Property}
    (h : o.LaidOut pl props) : Counted o.mem o.object := by
  have hcontents := h.represents.contents
  refine ⟨o.properties_le, ?_, ?_⟩
  · rw [hcontents]
    exact h.size_lt
  · rw [hcontents]
    exact h.objectSize

theorem counted_layOut (mem : Memory) (obj : Nat) {chain : List ProtoStackObjectProperty}
    (hcount : (chainProperties chain).length ≤ 255) (hsize : encodedSize chain ≤ 65535) :
    Counted (layOut pl mem obj chain hcount).mem (layOut pl mem obj chain hcount).object := by
  have hlt : (bodyBytes (chainProperties chain)).length < 65536 := by
    rw [length_bodyBytes_chainProperties]
    omega
  exact (laidOut_layOut pl mem obj chain hcount hlt).counted

/-- The copy of a counted object is laid out. -/
theorem Counted.laidOut_copy (h : Counted mem obj) {rawMalloc : Nat}
    (hcount : obj.properties.length ≤ 255) (hfresh : FreshBlock pl mem obj rawMalloc) :
    (protoObjectCopy pl mem obj rawMalloc hcount).LaidOut pl (obj.contents mem) :=
  (laidOut_protoObjectCopy pl rfl h.size_lt h.objectSize hcount hfresh.apart).1

/-- **The size field can be trusted**, however the object was obtained. -/
theorem Obtained.counted (h : Obtained pl mem obj) : Counted mem obj := by
  induction h with
  | @read mem obj held bufferAvailable objectSize bufferFrom haccepted hcount hapart =>
      have hbody := bodyBytes_contents_of_read haccepted hcount hapart
      obtain ⟨props, hparse, -⟩ := (protoObjectRead_result_eq_zero_iff pl obj held bufferAvailable
        objectSize mem bufferFrom).mp haccepted
      obtain ⟨hobject, -⟩ := protoObjectRead_contents pl obj held bufferAvailable objectSize mem
        bufferFrom hparse haccepted
      have hsize : (protoObjectRead pl obj held bufferAvailable objectSize mem
          bufferFrom).object.objectSize = objectSize := by rw [hobject]
      refine ⟨hcount, ?_, ?_⟩
      · rw [hbody, length_slice]
        exact objectSize.toNat_lt
      · rw [hbody, length_slice, hsize, UInt16.ofNat_toNat]
  | assign mem obj bufferAvailable chain hcount hsize => exact counted_layOut mem obj hcount hsize
  | allocate mem rawMalloc chain hcount hsize => exact counted_layOut mem rawMalloc hcount hsize
  | @copy mem obj _ rawMalloc hcount hfresh ih => exact (ih.laidOut_copy hcount hfresh).counted
  | @kept mem obj _ mem' hkept ih =>
      have hsame := contents_congr hkept
      refine ⟨ih.count_le, ?_, ?_⟩
      · rw [hsame]
        exact ih.size_lt
      · rw [hsame]
        exact ih.objectSize

/-! ## The copy -/

variable (pl)

/-- The copy of `obj` at `rawMalloc`.  It has the size and the properties of its source,
with size field, pointers and NULL at the front of the block; everything was written
into the block, and everything it points to lies there.  So it shows the same, and
`proto_object_data_update_size` gives the same size and body, in all memories that agree
on the block. -/
structure CopiesFaithfully (mem : Memory) (obj : ProtoObject) (rawMalloc : Nat)
    (copy : OwnedObject) : Prop where
  addr : copy.addr = rawMalloc
  writes : copy.mem = storeAll mem (copyStores pl mem obj rawMalloc)
  inside : ∀ s ∈ copyStores pl mem obj rawMalloc, s.Within rawMalloc (requestedCopySize pl obj)
  table : slice copy.mem rawMalloc
    (sizeofProtoObject + (obj.properties.length + 1) * pl.pointerSize) =
      objectTable pl copy.object
  objectSize : copy.object.objectSize = obj.objectSize
  contents : copy.object.contents copy.mem = obj.contents mem
  pointers : ∀ property ∈ copy.object.properties, rawMalloc ≤ property ∧
    property + (readProperty copy.mem property).size ≤ rawMalloc + requestedCopySize pl obj
  shows : ∀ mem', AgreeOn copy.mem mem' rawMalloc (requestedCopySize pl obj) →
    copy.object.contents mem' = obj.contents mem
  sends : ∀ mem', AgreeOn copy.mem mem' rawMalloc (requestedCopySize pl obj) →
    ∃ after, objectBytesIn pl mem' rawMalloc =
      some (u16Bytes obj.objectSize ++ bodyBytes (obj.contents mem), after)

variable {pl}

theorem Counted.requestedCopySize_eq (h : Counted mem obj) {rawMalloc : Nat}
    (hfresh : FreshBlock pl mem obj rawMalloc) :
    requestedCopySize pl obj = blockSize pl obj := by
  have hcount := h.count_le
  have hnumber : (UInt8.ofNat obj.properties.length).toNat = obj.properties.length := by
    rw [UInt8.toNat_ofNat', Nat.mod_eq_of_lt (by omega)]
  have hinside := hfresh.inside
  have hpositive := hfresh.nonNull
  have hsum : sizeofProtoObject + (obj.properties.length + 1) * pl.pointerSize +
      obj.objectSize.toNat + sizeofProtoObjectRequestHeader = blockSize pl obj := by
    rw [blockSize, dataOffset]
    omega
  simp only [requestedCopySize, hnumber, hsum]
  exact Nat.mod_eq_of_lt (by omega)

/-- The bytes of the block, by what it shows. -/
theorem Counted.blockSize_eq (h : Counted mem obj) :
    blockSize pl obj = dataOffset pl obj.properties.length +
      (bodyBytes (obj.contents mem)).length := by
  have hobjectSize : obj.objectSize.toNat = (bodyBytes (obj.contents mem)).length := by
    rw [h.objectSize, UInt16.toNat_ofNat_of_lt' h.size_lt]
  rw [blockSize, hobjectSize]

/-- The size field goes first, then the loop runs in the rest of the block. -/
theorem Counted.copyStores_within (h : Counted mem obj) {rawMalloc : Nat}
    (hfresh : FreshBlock pl mem obj rawMalloc) :
    ∀ s ∈ copyStores pl mem obj rawMalloc, s.Within rawMalloc (blockSize pl obj) := by
  have hcount := h.count_le
  have hnumber : (UInt8.ofNat obj.properties.length).toNat = obj.properties.length := by
    rw [UInt8.toNat_ofNat', Nat.mod_eq_of_lt (by omega)]
  have hblock : blockSize pl obj = _ := h.blockSize_eq
  have htable := table_le_dataOffset pl rawMalloc obj.properties.length
  have hfield : AgreeOff mem (store mem ⟨rawMalloc, u16Bytes obj.objectSize⟩) rawMalloc
      sizeofProtoObject := agreeOff_store mem ⟨le_rfl, le_rfl⟩
  -- the source is not in the block, so it still shows the same
  have hkept : ∀ property ∈ obj.properties,
      readProperty (store mem ⟨rawMalloc, u16Bytes obj.objectSize⟩) property =
        readProperty mem property := fun property hproperty =>
    readProperty_congr (hfield.agreeOn
      ((hfresh.apart property hproperty).symm.mono le_rfl (by omega) le_rfl le_rfl))
  have hshown : obj.properties.map
      (readProperty (store mem ⟨rawMalloc, u16Bytes obj.objectSize⟩)) = obj.contents mem :=
    List.map_congr_left hkept
  have hloop := copyPropertiesStores_within pl
    (store mem ⟨rawMalloc, u16Bytes obj.objectSize⟩) obj.properties htable
    (by
      intro property hproperty
      rw [hshown, hkept property hproperty]
      exact (hfresh.apart property hproperty).mono le_rfl le_rfl (by omega) (by omega))
  rw [hshown] at hloop
  unfold sizeofProtoObject at hloop htable
  intro s hs
  simp only [copyStores, hnumber, sizeofProtoObject] at hs
  rcases List.mem_cons.mp hs with rfl | hs
  · refine ⟨le_rfl, ?_⟩
    show rawMalloc + 2 ≤ _
    omega
  · obtain ⟨hlo, hhi⟩ := hloop s hs
    exact ⟨by omega, by omega⟩

/-- The pointers of a copy point into its block. -/
theorem Counted.pointers_copy (h : Counted mem obj) {rawMalloc : Nat}
    (hcount : obj.properties.length ≤ 255) (hfresh : FreshBlock pl mem obj rawMalloc) :
    ∀ property ∈ (protoObjectCopy pl mem obj rawMalloc hcount).object.properties,
      rawMalloc ≤ property ∧
        property + (readProperty (protoObjectCopy pl mem obj rawMalloc hcount).mem property).size ≤
          rawMalloc + blockSize pl obj := by
  have hlaid := h.laidOut_copy hcount hfresh
  have hnumber : (obj.contents mem).length = obj.properties.length := List.length_map _
  have haddr : (protoObjectCopy pl mem obj rawMalloc hcount).addr = rawMalloc := rfl
  have hdata := hlaid.data
  have hpointers := hlaid.properties
  rw [hnumber, haddr] at hdata hpointers
  have htiled : slice (protoObjectCopy pl mem obj rawMalloc hcount).mem
      (rawMalloc + dataOffset pl obj.properties.length)
      (rawMalloc + dataOffset pl obj.properties.length + (bodyBytes (obj.contents mem)).length -
        (rawMalloc + dataOffset pl obj.properties.length)) = bodyBytes (obj.contents mem) := by
    rwa [Nat.add_sub_cancel_left]
  intro property hproperty
  rw [hpointers] at hproperty
  obtain ⟨hlo, hhi⟩ := end_le_of_mem_propertyAddresses htiled hproperty
  rw [h.blockSize_eq]
  exact ⟨by omega, by omega⟩

/-- The copy stands as a block. -/
theorem Counted.stands_copy (h : Counted mem obj) {rawMalloc : Nat}
    (hcount : obj.properties.length ≤ 255) (hfresh : FreshBlock pl mem obj rawMalloc) :
    Block.Stands pl (protoObjectCopy pl mem obj rawMalloc hcount).mem
      ⟨rawMalloc, obj.contents mem⟩ := by
  apply stands_protoObjectCopy rfl h.size_lt h.objectSize hcount _ hfresh.apart
  rw [← blockSize_eq_size rfl h.size_lt h.objectSize]
  exact hfresh.inside

/-- **Copies are faithful**, whatever the source was obtained from: the same size and
properties, written into the block and nowhere else, shown and sent from the block
alone. -/
theorem protoObjectCopy_faithful (h : Obtained pl mem obj) {rawMalloc : Nat}
    (hcount : obj.properties.length ≤ 255) (hfresh : FreshBlock pl mem obj rawMalloc) :
    CopiesFaithfully pl mem obj rawMalloc (protoObjectCopy pl mem obj rawMalloc hcount) := by
  have hcounted := h.counted
  have hpointers := hcounted.pointers_copy hcount hfresh
  have hcontents := (hcounted.laidOut_copy hcount hfresh).represents.contents
  have hrequested := hcounted.requestedCopySize_eq hfresh
  refine ⟨rfl, protoObjectCopy_mem pl mem obj rawMalloc hcount, ?_,
    slice_protoObjectCopy_table pl mem obj rawMalloc hcount, rfl, hcontents, ?_, ?_, ?_⟩
  · rw [hrequested]
    exact hcounted.copyStores_within hfresh
  · rw [hrequested]
    exact hpointers
  · intro mem' hkept
    rw [hrequested] at hkept
    rw [← hcontents]
    apply contents_congr
    intro property hproperty
    obtain ⟨hlo, hhi⟩ := hpointers property hproperty
    exact hkept.mono hlo hhi
  · intro mem' hkept
    rw [hrequested, blockSize_eq_size rfl hcounted.size_lt hcounted.objectSize rawMalloc] at hkept
    obtain ⟨after, hbytes, -⟩ :=
      ((hcounted.stands_copy hcount hfresh).congr_block hkept).objectBytesIn_eq
    refine ⟨after, ?_⟩
    rw [hcounted.objectSize]
    exact hbytes

/-- An object on the heap is copied. -/
theorem protoObjectCopy_faithful_of_one :
    let source := protoObjectAllocate .pc (fun _ => 0) 4096 exampleChain (by decide)
    CopiesFaithfully .pc source.mem source.object 8192
      (protoObjectCopy .pc source.mem source.object 8192 source.properties_le) := by
  intro source
  apply protoObjectCopy_faithful
  · exact Obtained.allocate _ _ _ _ (by decide)
  · exact ⟨by decide, by decide, by decide⟩

end Copies

end ZxProto
