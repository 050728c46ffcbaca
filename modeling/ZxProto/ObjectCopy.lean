import ZxProto.ObjectBuild

/-!
# Copying objects

`proto_object_copy` (`proto_heap.c`) allocates one block, copies the properties
that the pointers of an object show one behind the other into it, and fills a new
pointer table.  The source may lie anywhere, in particular in the receive buffer;
the copy has the layout of a built object.

* `protoObjectCopy` — the function, over one memory that is read and written;
* `blockSize` — what an object with its reserved bytes and its data takes;
* `copyProperties_spec` — the loop;
* `laidOut_protoObjectCopy` — the copy shows the properties of the source, and
  nothing outside its block changes;
* `OwnedObject.LaidOut.congr` — a laid out object depends on its block only.
-/

namespace ZxProto

open ByteMemory

/-! ## The function -/

/-- The loop of `proto_object_copy`: the pointers put into the new table, and the
memory. -/
def copyProperties (pl : Platform) : List Nat → (it cp : Nat) → Memory → List Nat × Memory
  | [], _, cp, mem => ([], store mem ⟨cp, littleEndian pl.pointerSize 0⟩)
  | property :: p, it, cp, mem =>
      let size := (protoPropertyValueSize mem property).toNat + sizeofProtoObjectProperty
      let copied := store mem ⟨it, slice mem property size⟩
      let rest := copyProperties pl p (it + size) (cp + pl.pointerSize)
        (store copied ⟨cp, littleEndian pl.pointerSize it⟩)
      (it :: rest.1, rest.2)

theorem length_copyProperties (pl : Platform) (properties : List Nat) (it cp : Nat)
    (mem : Memory) :
    (copyProperties pl properties it cp mem).1.length = properties.length := by
  induction properties generalizing it cp mem with
  | nil => rfl
  | cons property p ih => simp [copyProperties, ih]

/-- `proto_object_copy`, into the block at `rawMalloc`. -/
def protoObjectCopy (pl : Platform) (mem : Memory) (obj : ProtoObject) (rawMalloc : Nat)
    (hcount : obj.properties.length ≤ 255) : OwnedObject :=
  -- counted in a `uint8_t`
  let numberOfProperties := UInt8.ofNat obj.properties.length
  let copied := copyProperties pl obj.properties
    (rawMalloc + dataOffset pl numberOfProperties.toNat) (rawMalloc + sizeofProtoObject)
    (store mem ⟨rawMalloc, u16Bytes obj.objectSize⟩)
  { addr := rawMalloc
    mem := copied.2
    object := ⟨obj.objectSize, copied.1⟩
    properties_le := by
      simp only [copied, length_copyProperties]
      exact hcount }

/-- The bytes that an object takes with its table, the reserved bytes and its
data: what `proto_object_copy` asks `malloc` for. -/
def blockSize (pl : Platform) (obj : ProtoObject) : Nat :=
  dataOffset pl obj.properties.length + obj.objectSize.toNat

/-! ## The loop -/

/-- A pointer shows the same property in memories that agree on its bytes. -/
theorem readProperty_congr {mem mem' : Memory} {property : Nat}
    (h : AgreeOn mem mem' property (readProperty mem property).size) :
    readProperty mem' property = readProperty mem property := by
  apply readProperty_of_slice
  rw [h.slice_eq, bytes_readProperty, size_readProperty]

section Copy

variable (pl : Platform)

/-- One turn of the loop: the bytes of the property, and the pointer to them. -/
def copyProperty (property it cp : Nat) (mem : Memory) : Memory :=
  store (store mem ⟨it, (readProperty mem property).bytes⟩)
    ⟨cp, littleEndian pl.pointerSize it⟩

theorem copyProperties_cons (property : Nat) (p : List Nat) (it cp : Nat) (mem : Memory) :
    copyProperties pl (property :: p) it cp mem =
      (it :: (copyProperties pl p (it + (readProperty mem property).size) (cp + pl.pointerSize)
          (copyProperty pl property it cp mem)).1,
        (copyProperties pl p (it + (readProperty mem property).size) (cp + pl.pointerSize)
          (copyProperty pl property it cp mem)).2) := by
  rw [copyProperties, copyProperty, bytes_readProperty, size_readProperty,
    Nat.add_comm sizeofProtoObjectProperty]

/-- A turn changes the entry of the table and the bytes of the property. -/
theorem copyProperty_apply {property it cp i : Nat} {mem : Memory}
    (htable : i < cp ∨ cp + pl.pointerSize ≤ i)
    (hdata : i < it ∨ it + (readProperty mem property).size ≤ i) :
    copyProperty pl property it cp mem i = mem i := by
  have hpointer := agreeOff_store (store mem ⟨it, (readProperty mem property).bytes⟩)
    (s := ⟨cp, littleEndian pl.pointerSize it⟩) (a := cp) (n := pl.pointerSize)
    ⟨le_rfl, by simp⟩ i htable
  have hbytes := agreeOff_store mem (s := ⟨it, (readProperty mem property).bytes⟩) (a := it)
    (n := (readProperty mem property).size) ⟨le_rfl, by simp⟩ i hdata
  rw [copyProperty, hpointer, hbytes]

theorem slice_copyProperty {property it cp : Nat} {mem : Memory} (hcp : cp + pl.pointerSize ≤ it) :
    slice (copyProperty pl property it cp mem) it (readProperty mem property).size =
      (readProperty mem property).bytes := by
  have hself := slice_store_self mem it (readProperty mem property).bytes
  rw [Property.length_bytes] at hself
  rw [copyProperty, slice_store_of_avoids _ (by right; simpa using hcp), hself]

/-- After a turn, what is copied later still shows the same, and lies as it should for
the turns that follow. -/
theorem copyProperty_rest {property : Nat} {rest : List Nat} {it cp : Nat} {mem : Memory}
    (htable : cp + (rest.length + 1 + 1) * pl.pointerSize ≤ it)
    (hsource : ∀ q ∈ property :: rest, Apart q (readProperty mem q).size cp
      (it + (bodyBytes ((property :: rest).map (readProperty mem))).length - cp)) :
    rest.map (readProperty (copyProperty pl property it cp mem)) =
        rest.map (readProperty mem) ∧
      cp + pl.pointerSize + (rest.length + 1) * pl.pointerSize ≤
        it + (readProperty mem property).size ∧
      ∀ q ∈ rest, Apart q (readProperty (copyProperty pl property it cp mem) q).size
        (cp + pl.pointerSize) (it + (readProperty mem property).size +
          (bodyBytes (rest.map (readProperty mem))).length - (cp + pl.pointerSize)) := by
  have hone : pl.pointerSize ≤ (rest.length + 1) * pl.pointerSize :=
    Nat.le_mul_of_pos_left _ (Nat.succ_pos _)
  rw [Nat.succ_mul] at htable
  rw [List.map_cons, bodyBytes_cons, List.length_append, Property.length_bytes] at hsource
  have hkept : ∀ q ∈ rest, readProperty (copyProperty pl property it cp mem) q =
      readProperty mem q := by
    intro q hq
    apply readProperty_congr
    intro i hlo hhi
    have hapart := hsource q (List.mem_cons_of_mem _ hq)
    unfold Apart at hapart
    exact copyProperty_apply pl (by omega) (by omega)
  refine ⟨List.map_congr_left hkept, by omega, fun q hq => ?_⟩
  rw [hkept q hq]
  exact (hsource q (List.mem_cons_of_mem _ hq)).mono le_rfl le_rfl (by omega) (by omega)

/-- **The loop.**  From a source that lies apart from the block, it leaves the
properties one behind the other at `it` and the pointers to them in the table, and
writes nowhere else. -/
theorem copyProperties_spec (properties : List Nat) {it cp : Nat} {mem : Memory}
    {props : List Property} (hcontents : properties.map (readProperty mem) = props)
    (htable : cp + (props.length + 1) * pl.pointerSize ≤ it)
    (hsource : ∀ property ∈ properties, Apart property (readProperty mem property).size cp
      (it + (bodyBytes props).length - cp)) :
    (copyProperties pl properties it cp mem).1 = propertyAddresses it props ∧
      slice (copyProperties pl properties it cp mem).2 it (bodyBytes props).length =
        bodyBytes props ∧
      ∀ i, (i < cp ∨ cp + (props.length + 1) * pl.pointerSize ≤ i) →
        (i < it ∨ it + (bodyBytes props).length ≤ i) →
        (copyProperties pl properties it cp mem).2 i = mem i := by
  subst hcontents
  rw [List.length_map] at htable ⊢
  induction properties generalizing it cp mem with
  | nil =>
      refine ⟨rfl, rfl, fun i houtside _ => ?_⟩
      rw [List.length_nil, Nat.zero_add, Nat.one_mul] at houtside
      exact agreeOff_store mem ⟨le_rfl, by simp⟩ i houtside
  | cons property rest ih =>
      rw [List.length_cons] at htable
      obtain ⟨hrest, htable', hsource'⟩ := copyProperty_rest pl htable hsource
      rw [← hrest] at hsource'
      obtain ⟨hpointers, hdata, houtside⟩ := ih htable' hsource'
      rw [hrest] at hpointers hdata houtside
      have hlength : (bodyBytes ((property :: rest).map (readProperty mem))).length =
          (readProperty mem property).size +
            (bodyBytes (rest.map (readProperty mem))).length := by
        rw [List.map_cons, bodyBytes_cons, List.length_append, Property.length_bytes]
      have hone : pl.pointerSize ≤ (rest.length + 1) * pl.pointerSize :=
        Nat.le_mul_of_pos_left _ (Nat.succ_pos _)
      rw [Nat.succ_mul] at htable
      rw [copyProperties_cons, hlength, List.length_cons, Nat.succ_mul]
      refine ⟨?_, ?_, ?_⟩
      · rw [hpointers, List.map_cons, propertyAddresses]
      · -- the first property is in front of everything that is written later
        have hfirst : AgreeOn (copyProperty pl property it cp mem)
            (copyProperties pl rest (it + (readProperty mem property).size) (cp + pl.pointerSize)
              (copyProperty pl property it cp mem)).2 it (readProperty mem property).size :=
          fun i hlo hhi => houtside i (by omega) (by omega)
        rw [slice_add, hdata, hfirst.slice_eq, slice_copyProperty pl (by omega), List.map_cons,
          bodyBytes_cons]
      · intro i htableOff hdataOff
        rw [houtside i (by omega) (by omega)]
        exact copyProperty_apply pl (by omega) (by omega)

/-- Whatever the pointers show, the loop writes the table and behind `it`. -/
theorem copyProperties_apply (properties : List Nat) {it cp i : Nat} {mem : Memory}
    (htable : i < cp ∨ cp + (properties.length + 1) * pl.pointerSize ≤ i) (hdata : i < it) :
    (copyProperties pl properties it cp mem).2 i = mem i := by
  induction properties generalizing it cp mem with
  | nil =>
      rw [List.length_nil, Nat.zero_add, Nat.one_mul] at htable
      exact agreeOff_store mem ⟨le_rfl, by simp⟩ i htable
  | cons property p ih =>
      rw [List.length_cons, Nat.succ_mul] at htable
      rw [copyProperties_cons, ih (by omega) (by omega)]
      exact copyProperty_apply pl (by omega) (Or.inl hdata)

/-- The loop leaves the pointers that it returns, and the NULL. -/
theorem slice_copyProperties_table (properties : List Nat) {it cp : Nat} {mem : Memory}
    (htable : cp + (properties.length + 1) * pl.pointerSize ≤ it) :
    slice (copyProperties pl properties it cp mem).2 cp
        ((properties.length + 1) * pl.pointerSize) =
      (copyProperties pl properties it cp mem).1.flatMap (littleEndian pl.pointerSize) ++
        littleEndian pl.pointerSize 0 := by
  induction properties generalizing it cp mem with
  | nil =>
      have hself := slice_store_self mem cp (littleEndian pl.pointerSize 0)
      rw [length_littleEndian] at hself
      simpa [copyProperties] using hself
  | cons property p ih =>
      rw [List.length_cons, Nat.succ_mul] at htable
      have hself := slice_store_self (store mem ⟨it, (readProperty mem property).bytes⟩) cp
        (littleEndian pl.pointerSize it)
      rw [length_littleEndian] at hself
      -- the first entry lies in front of everything that is written later
      have hfirst : AgreeOn (copyProperty pl property it cp mem)
          (copyProperties pl p (it + (readProperty mem property).size) (cp + pl.pointerSize)
            (copyProperty pl property it cp mem)).2 cp pl.pointerSize := by
        intro i hlo hhi
        exact copyProperties_apply pl p (Or.inl hhi) (by omega)
      have hentry : slice (copyProperty pl property it cp mem) cp pl.pointerSize =
          littleEndian pl.pointerSize it := hself
      have hlength : (p.length + 1) * pl.pointerSize + pl.pointerSize =
          pl.pointerSize + (p.length + 1) * pl.pointerSize := Nat.add_comm _ _
      rw [copyProperties_cons, List.length_cons, Nat.succ_mul, hlength, slice_add,
        hfirst.slice_eq, hentry, ih (by omega), List.flatMap_cons, List.append_assoc]

/-- **The copy.**  It is laid out like a built object, with the properties that
the source shows, and nothing outside its block changes. -/
theorem laidOut_protoObjectCopy {mem : Memory} {obj : ProtoObject} {props : List Property}
    (hcontents : obj.contents mem = props) (hsize : (bodyBytes props).length < 65536)
    (hobjectSize : obj.objectSize = UInt16.ofNat (bodyBytes props).length) {rawMalloc : Nat}
    (hcount : obj.properties.length ≤ 255)
    (hsource : ∀ property ∈ obj.properties,
      Apart property (readProperty mem property).size rawMalloc (blockSize pl obj)) :
    (protoObjectCopy pl mem obj rawMalloc hcount).LaidOut pl props ∧
      AgreeOff mem (protoObjectCopy pl mem obj rawMalloc hcount).mem rawMalloc
        (blockSize pl obj) := by
  have hnumber : obj.properties.length = props.length := by
    rw [← hcontents, ProtoObject.contents, List.length_map]
  have hcounted : (UInt8.ofNat obj.properties.length).toNat = props.length := by
    rw [UInt8.toNat_ofNat', hnumber]
    omega
  have hblock : blockSize pl obj = dataOffset pl props.length + (bodyBytes props).length := by
    rw [blockSize, hnumber, hobjectSize, UInt16.toNat_ofNat_of_lt' hsize]
  have hoffset : dataOffset pl props.length =
      sizeofProtoObject + (props.length + 1) * pl.pointerSize + 7 := rfl
  rw [hblock] at hsource ⊢
  -- the size field is written before anything is read
  have hfield : AgreeOff mem (store mem ⟨rawMalloc, u16Bytes obj.objectSize⟩) rawMalloc
      sizeofProtoObject := agreeOff_store mem ⟨le_rfl, le_rfl⟩
  have hkept : ∀ property ∈ obj.properties,
      readProperty (store mem ⟨rawMalloc, u16Bytes obj.objectSize⟩) property =
        readProperty mem property := by
    intro property hproperty
    apply readProperty_congr
    apply hfield.agreeOn
    exact ((hsource property hproperty).symm).mono le_rfl (by omega) le_rfl le_rfl
  have hshown : obj.properties.map
      (readProperty (store mem ⟨rawMalloc, u16Bytes obj.objectSize⟩)) = props := by
    rw [← hcontents]
    exact List.map_congr_left hkept
  have htable : rawMalloc + sizeofProtoObject + (props.length + 1) * pl.pointerSize ≤
      rawMalloc + dataOffset pl props.length := by omega
  have hsource' : ∀ property ∈ obj.properties, Apart property
      (readProperty (store mem ⟨rawMalloc, u16Bytes obj.objectSize⟩) property).size
      (rawMalloc + sizeofProtoObject)
      (rawMalloc + dataOffset pl props.length + (bodyBytes props).length -
        (rawMalloc + sizeofProtoObject)) := by
    intro property hproperty
    rw [hkept property hproperty]
    exact (hsource property hproperty).mono le_rfl le_rfl (by omega) (by omega)
  obtain ⟨hpointers, hdata, houtside⟩ :=
    copyProperties_spec pl obj.properties hshown htable hsource'
  constructor
  · refine ⟨hsize, hobjectSize, ?_, ?_⟩
    · simp only [protoObjectCopy, hcounted]
      exact hpointers
    · simp only [protoObjectCopy, hcounted]
      exact hdata
  · intro i hi
    simp only [protoObjectCopy, hcounted]
    rw [houtside i (by omega) (by omega)]
    exact hfield i (by omega)

/-- The copy has the size field, the pointers and the NULL. -/
theorem slice_protoObjectCopy_table (mem : Memory) (obj : ProtoObject) (rawMalloc : Nat)
    (hcount : obj.properties.length ≤ 255) :
    slice (protoObjectCopy pl mem obj rawMalloc hcount).mem rawMalloc
        (sizeofProtoObject + (obj.properties.length + 1) * pl.pointerSize) =
      objectTable pl (protoObjectCopy pl mem obj rawMalloc hcount).object := by
  have hcounted : (UInt8.ofNat obj.properties.length).toNat = obj.properties.length := by
    rw [UInt8.toNat_ofNat', Nat.mod_eq_of_lt (by omega)]
  have htable := table_le_dataOffset pl rawMalloc obj.properties.length
  have hfield : AgreeOn (store mem ⟨rawMalloc, u16Bytes obj.objectSize⟩)
      (copyProperties pl obj.properties (rawMalloc + dataOffset pl obj.properties.length)
        (rawMalloc + sizeofProtoObject) (store mem ⟨rawMalloc, u16Bytes obj.objectSize⟩)).2
      rawMalloc sizeofProtoObject := by
    intro i hlo hhi
    exact copyProperties_apply pl obj.properties (Or.inl hhi) (by omega)
  have hsize : slice (store mem ⟨rawMalloc, u16Bytes obj.objectSize⟩) rawMalloc sizeofProtoObject =
      u16Bytes obj.objectSize := slice_store_self mem rawMalloc (u16Bytes obj.objectSize)
  simp only [protoObjectCopy, hcounted]
  rw [slice_add, hfield.slice_eq, hsize, slice_copyProperties_table pl _ htable, objectTable,
    List.append_assoc]

end Copy

/-- A laid out object depends on nothing but the data in its block. -/
theorem OwnedObject.LaidOut.congr {pl : Platform} {o : OwnedObject} {props : List Property}
    (h : o.LaidOut pl props) {mem : Memory}
    (hagree : AgreeOn o.mem mem (o.addr + dataOffset pl props.length) (bodyBytes props).length) :
    ({ o with mem := mem } : OwnedObject).LaidOut pl props :=
  ⟨h.size_lt, h.objectSize, h.properties, hagree.slice_eq.trans h.data⟩

/-- The data lies at the end of the block. -/
theorem OwnedObject.LaidOut.blockSize_eq {pl : Platform} {o : OwnedObject}
    {props : List Property} (h : o.LaidOut pl props) :
    blockSize pl o.object = dataOffset pl props.length + (bodyBytes props).length := by
  rw [blockSize, h.properties, length_propertyAddresses, h.objectSize,
    UInt16.toNat_ofNat_of_lt' h.size_lt]

end ZxProto
