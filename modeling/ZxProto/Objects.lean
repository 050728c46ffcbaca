import ZxProto.Library.ByteMemory

/-!
# Objects and their properties

The data types of `proto_objects.h`.  A property on the wire is a 16-bit
little-endian `value_size`, a key byte and the value; an object body is a
concatenation of properties.  In memory an object is a size and a table of
pointers to such properties, which lie either in the receive buffer (an object
that was read) or right behind the table (an object that was built).

* `Property`, `bodyBytes`, `parseProperties` — the wire format of a body, with
  the round trip in both directions;
* `ProtoObject` — the size and the pointer table, without its final NULL;
* `ProtoObject.contents` — what the pointers show in a given memory;
* `findProperty` — the accessor that the request layer is built on.
-/

namespace ZxProto

open ByteMemory

/-- What the C sources leave to the preprocessor, the compiler and the stack:
`sizeof` of a pointer, `COMBINE_OBJECTS_UPON_SENDING`, `NONBLOCKING_RECV`, and
where the two local buffers of `process` lie, with what the stack holds there. -/
structure Platform where
  pointerSize : Nat
  pointerSize_pos : 0 < pointerSize
  pointerSize_le : pointerSize ≤ 8
  combineObjectsUponSending : Bool
  nonblockingRecv : Bool
  objectBuffer : Nat
  responseObjectBuffer : Nat
  stack : Memory

/-- A PC: 8-byte pointers, one `send` per frame. -/
def Platform.pc : Platform where
  pointerSize := 8
  pointerSize_pos := by decide
  pointerSize_le := by decide
  combineObjectsUponSending := true
  nonblockingRecv := true
  objectBuffer := 4096
  responseObjectBuffer := 8192
  stack := fun _ => 0

/-- The platform of the Spectrum: 2-byte pointers, one `send` per object, and a `recv`
that waits. -/
def Platform.spectrum : Platform where
  pointerSize := 2
  pointerSize_pos := by decide
  pointerSize_le := by decide
  combineObjectsUponSending := false
  nonblockingRecv := false
  objectBuffer := 4096
  responseObjectBuffer := 8192
  stack := fun _ => 0

/-- The `proto_object_read` that is linked: the function of `proto_objects.c`, or, with
`__SPECTRUM`, the routine of `proto_object_read.asm`. -/
inductive Decoder
  | c
  | asm
deriving DecidableEq, Repr

/-- A build: a platform, and the decoder that is linked. -/
structure Build extends Platform where
  decoder : Decoder
  /-- The routine stores two bytes for a pointer. -/
  pointerSize_of_asm : decoder = .asm → pointerSize = 2

/-- Every build but that of the Spectrum has the C decoder. -/
abbrev Platform.build (pl : Platform) : Build where
  toPlatform := pl
  decoder := .c
  pointerSize_of_asm h := Decoder.noConfusion h

instance : Coe Platform Build := ⟨Platform.build⟩

instance : Coe Build Platform := ⟨Build.toPlatform⟩

abbrev Build.pc : Build := Platform.pc.build

/-- The Spectrum build, with its own decoder. -/
def Build.spectrum : Build where
  toPlatform := Platform.spectrum
  decoder := .asm
  pointerSize_of_asm _ := rfl

/-- `OBJ_PROPERTY_…`, the reserved property keys. -/
inductive ProtoObjectPropertyKey
  | payload
  | error
  | id
  | title
  | comment
  | keyvalue
deriving DecidableEq, Repr

/-- The key byte on the wire. -/
def ProtoObjectPropertyKey.code : ProtoObjectPropertyKey → UInt8
  | .payload => 0x00
  | .error => 0x01
  | .id => 0x02
  | .title => 0x03
  | .comment => 0x04
  | .keyvalue => 0x05

def sizeofProtoObject : Nat := 2

def sizeofProtoObjectProperty : Nat := 3

def sizeofProtoObjectRequestHeader : Nat := 7

/-! ## The wire format of a body -/

/-- A key and a value whose size fits the 16-bit `value_size`. -/
@[ext]
structure Property where
  key : UInt8
  value : List UInt8
  value_lt : value.length < 65536
deriving DecidableEq

/-- The bytes a property takes on the wire. -/
def Property.size (p : Property) : Nat :=
  p.value.length + sizeofProtoObjectProperty

/-- A property on the wire: size, key, value. -/
def Property.bytes (p : Property) : List UInt8 :=
  u16Bytes (UInt16.ofNat p.value.length) ++ p.key :: p.value

/-- An object body on the wire. -/
def bodyBytes (props : List Property) : List UInt8 :=
  props.flatMap Property.bytes

@[simp] theorem Property.length_bytes (p : Property) : p.bytes.length = p.size := by
  simp [Property.bytes, Property.size, sizeofProtoObjectProperty]
  omega

@[simp] theorem bodyBytes_nil : bodyBytes [] = [] := rfl

@[simp] theorem bodyBytes_cons (p : Property) (props : List Property) :
    bodyBytes (p :: props) = p.bytes ++ bodyBytes props := rfl

/-- The property with a given key and the first `valueSize` of some bytes. -/
def Property.ofPrefix (key : UInt8) (valueSize : UInt16) (rest : List UInt8) : Property where
  key := key
  value := rest.take valueSize.toNat
  value_lt := lt_of_le_of_lt (List.length_take_le _ _) valueSize.toNat_lt

/-- Read a body as a concatenation of whole properties. -/
def parseProperties : List UInt8 → Option (List Property)
  | [] => some []
  | lo :: hi :: key :: rest =>
      if (u16le lo hi).toNat ≤ rest.length then
        (parseProperties (rest.drop (u16le lo hi).toNat)).map
          (Property.ofPrefix key (u16le lo hi) rest :: ·)
      else
        none
  | [_] => none
  | [_, _] => none
termination_by body => body.length
decreasing_by simp; omega

/-- Parsing peels one encoded property off the front. -/
theorem parseProperties_bytes_append (p : Property) (rest : List UInt8) :
    parseProperties (p.bytes ++ rest) = (parseProperties rest).map (p :: ·) := by
  simp only [Property.bytes, u16Bytes_ofNat p.value_lt, List.cons_append, List.nil_append]
  rw [parseProperties]
  simp [Property.ofPrefix, toNat_u16le_ofNat p.value_lt]

/-- Parsing an encoded body gives the properties back. -/
theorem parseProperties_bodyBytes (props : List Property) :
    parseProperties (bodyBytes props) = some props := by
  induction props with
  | nil => simp [parseProperties]
  | cons p props ih => rw [bodyBytes_cons, parseProperties_bytes_append, ih, Option.map_some]

/-- A body that parses is the encoding of what it parses to. -/
theorem bodyBytes_of_parseProperties {body : List UInt8} {props : List Property}
    (h : parseProperties body = some props) : bodyBytes props = body := by
  induction body using parseProperties.induct generalizing props with
  | case1 =>
      rw [parseProperties] at h
      cases h
      rfl
  | case2 lo hi key rest hle ih =>
      rw [parseProperties, if_pos hle] at h
      obtain ⟨props', hprops', rfl⟩ := Option.map_eq_some_iff.mp h
      -- the size that was read is the length of the value
      have hlen : (rest.take (u16le lo hi).toNat).length = (u16le lo hi).toNat :=
        List.length_take_of_le hle
      rw [bodyBytes_cons, ih hprops']
      simp only [Property.bytes, Property.ofPrefix]
      rw [hlen, UInt16.ofNat_toNat, u16Bytes_u16le]
      simp
  | case3 lo hi key rest hlt =>
      rw [parseProperties, if_neg hlt] at h
      cases h
  | case4 => simp [parseProperties] at h
  | case5 => simp [parseProperties] at h

theorem parseProperties_eq_some_iff {body : List UInt8} {props : List Property} :
    parseProperties body = some props ↔ body = bodyBytes props := by
  constructor
  · intro h
    exact (bodyBytes_of_parseProperties h).symm
  · rintro rfl
    exact parseProperties_bodyBytes props

theorem bodyBytes_injective : Function.Injective bodyBytes := by
  intro props props' h
  have hparse := congrArg parseProperties h
  rw [parseProperties_bodyBytes, parseProperties_bodyBytes] at hparse
  exact Option.some.inj hparse

/-! ## Objects in memory -/

/-- `ProtoObject`: the size field, and the property pointers in front of the
NULL that ends the table. -/
@[ext]
structure ProtoObject where
  objectSize : UInt16
  properties : List Nat
deriving DecidableEq, Repr

/-- The bytes of an object: the size field, the pointers and the NULL. -/
def objectTable (pl : Platform) (o : ProtoObject) : List UInt8 :=
  u16Bytes o.objectSize ++ o.properties.flatMap (littleEndian pl.pointerSize) ++
    littleEndian pl.pointerSize 0

theorem length_objectTable (pl : Platform) (o : ProtoObject) :
    (objectTable pl o).length =
      sizeofProtoObject + (o.properties.length + 1) * pl.pointerSize := by
  have hpointers : (o.properties.flatMap (littleEndian pl.pointerSize)).length =
      o.properties.length * pl.pointerSize := by
    simp [List.length_flatMap]
  rw [objectTable, List.length_append, List.length_append, hpointers, length_littleEndian,
    length_u16Bytes, Nat.succ_mul, Nat.add_assoc]
  rfl

/-- `proto_property_value_size`. -/
def protoPropertyValueSize (mem : Memory) (property : Nat) : UInt16 :=
  u16le (mem property) (mem (property + 1))

def protoPropertyKey (mem : Memory) (property : Nat) : UInt8 :=
  mem (property + 2)

/-- The bytes of `property->value`. -/
def protoPropertyValue (mem : Memory) (property : Nat) : List UInt8 :=
  slice mem (property + sizeofProtoObjectProperty) (protoPropertyValueSize mem property).toNat

/-- The property that a pointer shows. -/
def readProperty (mem : Memory) (property : Nat) : Property where
  key := protoPropertyKey mem property
  value := protoPropertyValue mem property
  value_lt := by
    rw [protoPropertyValue, length_slice]
    exact (protoPropertyValueSize mem property).toNat_lt

@[simp] theorem size_readProperty (mem : Memory) (property : Nat) :
    (readProperty mem property).size =
      sizeofProtoObjectProperty + (protoPropertyValueSize mem property).toNat := by
  simp [readProperty, Property.size, protoPropertyValue, Nat.add_comm]

/-- The bytes at a pointer are the encoding of the property it shows. -/
theorem bytes_readProperty (mem : Memory) (property : Nat) :
    (readProperty mem property).bytes =
      slice mem property
        (sizeofProtoObjectProperty + (protoPropertyValueSize mem property).toNat) := by
  have hhead : slice mem property sizeofProtoObjectProperty =
      [mem property, mem (property + 1), mem (property + 2)] := rfl
  rw [slice_add, hhead]
  simp only [Property.bytes, readProperty, protoPropertyValue, length_slice,
    UInt16.ofNat_toNat]
  rw [protoPropertyValueSize, u16Bytes_u16le]
  rfl

/-- A pointer whose property lies at the front of a block shows that property. -/
theorem readProperty_of_slice {mem : Memory} {a : Nat} {p : Property}
    (h : slice mem a p.size = p.bytes) : readProperty mem a = p := by
  have hsize : (protoPropertyValueSize mem a).toNat = p.value.length := by
    have hcut : slice mem a 2 = u16Bytes (UInt16.ofNat p.value.length) := by
      have := congrArg (List.take 2) h
      rwa [take_slice mem a (by simp [Property.size, sizeofProtoObjectProperty]),
        Property.bytes, List.take_left' (length_u16Bytes _)] at this
    have hbytes : [mem a, mem (a + 1)] = u16Bytes (UInt16.ofNat p.value.length) := hcut
    rw [u16Bytes_ofNat p.value_lt] at hbytes
    obtain ⟨hlo, hhi⟩ : mem a = _ ∧ mem (a + 1) = _ := by simpa using hbytes
    rw [protoPropertyValueSize, hlo, hhi, toNat_u16le_ofNat p.value_lt]
  -- both parses are of the same bytes, so they give the same property
  have hparse : parseProperties (readProperty mem a).bytes = some [p] := by
    rw [bytes_readProperty, hsize, Nat.add_comm, ← Property.size, h]
    simpa [parseProperties] using parseProperties_bytes_append p []
  have hself : parseProperties (readProperty mem a).bytes = some [readProperty mem a] := by
    simpa [parseProperties] using parseProperties_bytes_append (readProperty mem a) []
  rw [hself] at hparse
  simpa using hparse

/-! ## Tiled blocks -/

/-- Where successive properties start, the first of them at `a`. -/
def propertyAddresses (a : Nat) : List Property → List Nat
  | [] => []
  | p :: props => a :: propertyAddresses (a + p.size) props

@[simp] theorem length_propertyAddresses (a : Nat) (props : List Property) :
    (propertyAddresses a props).length = props.length := by
  induction props generalizing a with
  | nil => rfl
  | cons p props ih => simp [propertyAddresses, ih]

/-- A block read that starts with a whole property splits after it. -/
theorem slice_property (mem : Memory) (it stop : Nat)
    (h : it + (sizeofProtoObjectProperty + (protoPropertyValueSize mem it).toNat) ≤ stop) :
    slice mem it (stop - it) = (readProperty mem it).bytes ++
      slice mem (it + (sizeofProtoObjectProperty + (protoPropertyValueSize mem it).toNat))
        (stop - (it + (sizeofProtoObjectProperty + (protoPropertyValueSize mem it).toNat))) := by
  rw [bytes_readProperty, ← slice_add]
  congr 1
  omega

/-- What a tiled block shows at its front: the first property, and a tiled rest. -/
theorem tiled_cons {mem : Memory} {it stop : Nat} {p : Property} {props : List Property}
    (h : slice mem it (stop - it) = bodyBytes (p :: props)) :
    it < stop ∧ readProperty mem it = p ∧
      sizeofProtoObjectProperty + (protoPropertyValueSize mem it).toNat = p.size ∧
      it + p.size ≤ stop ∧
      slice mem (it + p.size) (stop - (it + p.size)) = bodyBytes props := by
  have hlen := congrArg List.length h
  simp only [length_slice, bodyBytes_cons, List.length_append, Property.length_bytes] at hlen
  have hpos : 0 < p.size := by simp [Property.size, sizeofProtoObjectProperty]
  -- the first property is found again in front, and read from there
  have hfront : slice mem it p.size = p.bytes := by
    have := congrArg (List.take p.size) h
    rwa [take_slice mem it (by omega), bodyBytes_cons,
      List.take_left' (Property.length_bytes p)] at this
  have hread : readProperty mem it = p := readProperty_of_slice hfront
  have hsize : sizeofProtoObjectProperty + (protoPropertyValueSize mem it).toNat = p.size := by
    rw [← size_readProperty, hread]
  refine ⟨by omega, hread, hsize, by omega, ?_⟩
  have hsplit := slice_property mem it stop (by omega)
  rw [hsize, hread, h, bodyBytes_cons] at hsplit
  exact (List.append_cancel_left hsplit).symm

theorem tiled_nil {mem : Memory} {it stop : Nat} (hle : it ≤ stop)
    (h : slice mem it (stop - it) = bodyBytes []) : it = stop := by
  have hlen := congrArg List.length h
  simp at hlen
  omega

/-- Pointers to the successive properties of a tiled block show these properties. -/
theorem map_readProperty_propertyAddresses (mem : Memory) {it : Nat} (stop : Nat)
    {props : List Property} (h : slice mem it (stop - it) = bodyBytes props) :
    (propertyAddresses it props).map (readProperty mem) = props := by
  induction props generalizing it with
  | nil => rfl
  | cons p props ih =>
      obtain ⟨-, hread, -, -, hrest⟩ := tiled_cons h
      rw [propertyAddresses, List.map_cons, hread, ih hrest]

/-- Pointers to the properties of a tiled block point to whole properties in it. -/
theorem end_le_of_mem_propertyAddresses {it stop p : Nat} {props : List Property}
    (htiled : slice mem it (stop - it) = bodyBytes props) (hp : p ∈ propertyAddresses it props) :
    it ≤ p ∧ p + (readProperty mem p).size ≤ stop := by
  induction props generalizing it with
  | nil => exact absurd hp List.not_mem_nil
  | cons property props ih =>
      obtain ⟨-, hread, -, hnext, hrest⟩ := tiled_cons htiled
      rcases List.mem_cons.mp hp with rfl | hp
      · rw [hread]
        exact ⟨le_rfl, hnext⟩
      · obtain ⟨hlo, hhi⟩ := ih hrest hp
        exact ⟨by omega, hhi⟩

/-! ## Accessors -/

/-- The list of (key, value) pairs an object shows in a memory. -/
def ProtoObject.contents (mem : Memory) (o : ProtoObject) : List Property :=
  o.properties.map (readProperty mem)

/-- `find_property`: the first property with the key, or NULL. -/
def findProperty (mem : Memory) (o : ProtoObject) (key : UInt8) : Option Nat :=
  o.properties.find? fun property => protoPropertyKey mem property == key

/-- `find_property` sees an object only through its contents. -/
theorem findProperty_map_readProperty (mem : Memory) (o : ProtoObject) (key : UInt8) :
    (findProperty mem o key).map (readProperty mem) =
      (o.contents mem).find? fun p => p.key == key := by
  rw [findProperty, ProtoObject.contents, List.find?_map]
  rfl

end ZxProto
