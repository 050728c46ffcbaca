import ZxProto.Encoders
import ZxProto.ObjectAllocation

/-!
# From a chain to the wire and back

Two constructors turn a chain of stack properties into an object, and
`proto_object_read` turns a body into a list of properties.

* `BuildsObject` — what a constructor has made: the size, the properties in chain
  order, the body behind `proto_object_data`, and nothing outside the block;
* `buildsObject_layOut` — both constructors do it, at any place;
* `protoObjectRead_of_body` — the decoder gives the properties back;
* `bodyBytes_contents_of_read` — and what it lists is the body;
* `RoundTrips`, `object_round_trip` — all of this together.
-/

namespace ZxProto

open ByteMemory

section ObjectRoundTrip

variable (pl : Platform)

/-- The bytes of the block that a constructor fills. -/
def constructedSize (chain : List ProtoStackObjectProperty) : Nat :=
  sizeofProtoObject + ((nonEmpty chain).length + 1) * pl.pointerSize +
    sizeofProtoObjectRequestHeader + encodedSize chain

/-- In the memory `mem`, the object `o` was built at `obj` from a chain.  It has the
size and the properties of the chain, in memory as in the returned pointers; its body
starts 5 + 2 bytes behind `proto_object_data`; everything was written in the block. -/
structure BuildsObject (mem : Memory) (obj : Nat) (chain : List ProtoStackObjectProperty)
    (o : OwnedObject) : Prop where
  addr : o.addr = obj
  writes : o.mem = storeAll mem (layOutStores pl obj chain)
  inside : ∀ s ∈ layOutStores pl obj chain, s.Within obj (constructedSize pl chain)
  objectSize : o.object.objectSize.toNat = encodedSize chain
  sizeField : (objectSizeField o.mem obj).toNat = encodedSize chain
  table : slice o.mem obj (sizeofProtoObject + ((nonEmpty chain).length + 1) * pl.pointerSize) =
    objectTable pl o.object
  contents : o.object.contents o.mem =
    (nonEmpty chain).map ProtoStackObjectProperty.toProperty
  body : ∃ d, protoObjectDataIn pl o.mem obj = some d ∧
    slice o.mem (d + 5 + 2) (encodedSize chain) =
      bodyBytes ((nonEmpty chain).map ProtoStackObjectProperty.toProperty)

variable {pl}

/-! ## Building -/

theorem size_block_chainProperties (obj : Nat) (chain : List ProtoStackObjectProperty) :
    Block.size pl ⟨obj, chainProperties chain⟩ = constructedSize pl chain := by
  rw [Block.size, dataOffset, length_chainProperties, length_bodyBytes_chainProperties]
  rfl

/-- Laying a chain out builds its object. -/
theorem buildsObject_layOut (mem : Memory) {obj : Nat} {chain : List ProtoStackObjectProperty}
    (hcount : (chainProperties chain).length ≤ 255) (hsize : encodedSize chain ≤ 65535)
    (hspace : obj + constructedSize pl chain ≤ 256 ^ pl.pointerSize) :
    BuildsObject pl mem obj chain (layOut pl mem obj chain hcount) := by
  have hbody : (bodyBytes (chainProperties chain)).length < 65536 := by
    rw [length_bodyBytes_chainProperties]
    omega
  have hnonEmpty : (nonEmpty chain).length ≤ 255 := length_chainProperties chain ▸ hcount
  have hrepresents := represents_layOut pl mem obj chain hcount hbody
  have hstands : Block.Stands pl (layOut pl mem obj chain hcount).mem
      ⟨obj, chainProperties chain⟩ := by
    apply stands_layOut mem hcount hbody
    rwa [size_block_chainProperties]
  have hobject : (layOut pl mem obj chain hcount).object.objectSize.toNat = encodedSize chain := by
    rw [hrepresents.objectSize, length_bodyBytes_chainProperties]
  refine ⟨rfl, rfl, layOutStores_within obj hnonEmpty, hobject, ?_, ?_, hrepresents.contents, ?_⟩
  · rw [hstands.toNat_objectSizeField, length_bodyBytes_chainProperties]
  · rw [← length_chainProperties]
    exact slice_layOut_table pl mem obj chain hcount
  · refine ⟨_, hstands.protoObjectDataIn_eq, ?_⟩
    rw [← length_bodyBytes_chainProperties]
    exact hstands.data

/-! ## Reading -/

section Reading

variable {obj : Nat} {held : ProtoObject} {bufferAvailable objectSize : UInt16} {mem : Memory}
  {bufferFrom : Nat} {props : List Property}

/-- A body whose table fits is read, and afterwards its properties are listed; the
table lies elsewhere. -/
theorem protoObjectRead_of_body (hbody : slice mem bufferFrom objectSize.toNat = bodyBytes props)
    (hfits : TableFits pl props.length bufferAvailable.toNat)
    (hapart : Apart obj bufferAvailable.toNat bufferFrom objectSize.toNat) :
    let read := protoObjectRead pl obj held bufferAvailable objectSize mem bufferFrom
    read.result = 0 ∧ read.object.contents (storeAll mem read.stores) = props := by
  intro read
  have hread : read = _ :=
    protoObjectRead_of_tiled pl obj held bufferAvailable objectSize mem bufferFrom hbody
  have hbounded := (decodesExactly_of_fits pl obj held bufferAvailable objectSize mem bufferFrom
    hbody hfits).bounded
  have hkept : AgreeOn mem (storeAll mem read.stores) bufferFrom objectSize.toNat :=
    (agreeOff_storeAll mem hbounded).agreeOn hapart
  rw [if_pos hfits.mod] at hread
  constructor
  · rw [hread]
  · have hobject : read.object.properties = propertyAddresses bufferFrom props := by rw [hread]
    rw [ProtoObject.contents, hobject]
    apply map_readProperty_propertyAddresses _ (bufferFrom + objectSize.toNat)
    rw [Nat.add_sub_cancel_left, hkept.slice_eq, hbody]

/-- What is listed for an accepted body of at most 255 properties is the body. -/
theorem bodyBytes_contents_of_read
    (haccepted :
      (protoObjectRead pl obj held bufferAvailable objectSize mem bufferFrom).result = 0)
    (hcount : (protoObjectRead pl obj held bufferAvailable objectSize mem
      bufferFrom).object.properties.length ≤ 255)
    (hapart : Apart obj bufferAvailable.toNat bufferFrom objectSize.toNat) :
    let read := protoObjectRead pl obj held bufferAvailable objectSize mem bufferFrom
    bodyBytes (read.object.contents (storeAll mem read.stores)) =
      slice mem bufferFrom objectSize.toNat := by
  obtain ⟨props, hparse, hfits⟩ := (protoObjectRead_result_eq_zero_iff pl obj held bufferAvailable
    objectSize mem bufferFrom).mp haccepted
  obtain ⟨hobject, -⟩ := protoObjectRead_contents pl obj held bufferAvailable objectSize mem
    bufferFrom hparse haccepted
  have hbody := parseProperties_eq_some_iff.mp hparse
  -- so few properties are counted exactly
  rw [hobject, length_propertyAddresses] at hcount
  rw [Nat.mod_eq_of_lt (by omega)] at hfits
  intro read
  rw [(protoObjectRead_of_body hbody hfits hapart).2, hbody]

end Reading

/-! ## The round trip -/

variable (pl)

/-- A chain survives the way through either constructor, wherever the block lies in
the address space, and its properties survive the way through the wire, wherever the
body lies. -/
structure RoundTrips (chain : List ProtoStackObjectProperty)
    (hcount : (chainProperties chain).length ≤ 255) : Prop where
  assigned : ∀ (mem : Memory) (obj : Nat) (bufferAvailable : UInt16),
    obj + constructedSize pl chain ≤ 256 ^ pl.pointerSize →
      BuildsObject pl mem obj chain (protoObjectAssign pl mem obj bufferAvailable chain hcount)
  allocated : ∀ (mem : Memory) (rawMalloc : Nat),
    rawMalloc + constructedSize pl chain ≤ 256 ^ pl.pointerSize →
      BuildsObject pl mem rawMalloc chain (protoObjectAllocate pl mem rawMalloc chain hcount)
  readBack : ∀ (mem : Memory) (obj : Nat) (held : ProtoObject) (bufferAvailable : UInt16)
    (bufferFrom : Nat),
    slice mem bufferFrom (encodedSize chain) = bodyBytes (chainProperties chain) →
    TableFits pl (chainProperties chain).length bufferAvailable.toNat →
    Apart obj bufferAvailable.toNat bufferFrom (encodedSize chain) →
      let read := protoObjectRead pl obj held bufferAvailable (UInt16.ofNat (encodedSize chain))
        mem bufferFrom
      read.result = 0 ∧ read.object.contents (storeAll mem read.stores) = chainProperties chain

/-- **Round trip.**  Every chain of at most 255 non-empty properties that take at most
65535 bytes survives; conversely, the properties that are listed for an accepted body,
if they are at most 255, are that body. -/
theorem object_round_trip :
    (∀ (chain : List ProtoStackObjectProperty) (hcount : (chainProperties chain).length ≤ 255),
      encodedSize chain ≤ 65535 → RoundTrips pl chain hcount) ∧
    ∀ (mem : Memory) (obj : Nat) (held : ProtoObject) (bufferAvailable objectSize : UInt16)
      (bufferFrom : Nat),
      let read := protoObjectRead pl obj held bufferAvailable objectSize mem bufferFrom
      read.result = 0 → read.object.properties.length ≤ 255 →
      Apart obj bufferAvailable.toNat bufferFrom objectSize.toNat →
        bodyBytes (read.object.contents (storeAll mem read.stores)) =
          slice mem bufferFrom objectSize.toNat := by
  refine ⟨fun chain hcount hsize => ⟨?_, ?_, ?_⟩, ?_⟩
  · intro mem obj bufferAvailable hspace
    exact buildsObject_layOut mem hcount hsize hspace
  · intro mem rawMalloc hspace
    exact buildsObject_layOut mem hcount hsize hspace
  · intro mem obj held bufferAvailable bufferFrom hbody hfits hapart
    have hexact : (UInt16.ofNat (encodedSize chain)).toNat = encodedSize chain :=
      UInt16.toNat_ofNat_of_lt' (show encodedSize chain < 65536 by omega)
    rw [← hexact] at hbody hapart
    exact protoObjectRead_of_body hbody hfits hapart
  · intro mem obj held bufferAvailable objectSize bufferFrom read haccepted hcount hapart
    exact bodyBytes_contents_of_read haccepted hcount hapart

/-- A property of one byte behind an empty one: allocated, and read back from its four
bytes. -/
theorem object_round_trip_of_two :
    BuildsObject .pc (fun _ => 0) 4096
        [⟨ProtoObjectPropertyKey.title.code, [], 0, Nat.le_refl 0⟩,
          ⟨ProtoObjectPropertyKey.payload.code, [7], 1, Nat.le_refl 1⟩]
        (protoObjectAllocate .pc (fun _ => 0) 4096
          [⟨ProtoObjectPropertyKey.title.code, [], 0, Nat.le_refl 0⟩,
            ⟨ProtoObjectPropertyKey.payload.code, [7], 1, Nat.le_refl 1⟩] (by decide)) ∧
      (protoObjectRead .pc 4096 ⟨0, []⟩ 18 4 (fun i => [1, 0, 0, 7].getD i 0) 0).result = 0 := by
  have hround := (object_round_trip .pc).1
    [⟨ProtoObjectPropertyKey.title.code, [], 0, Nat.le_refl 0⟩,
      ⟨ProtoObjectPropertyKey.payload.code, [7], 1, Nat.le_refl 1⟩] (by decide) (by decide)
  refine ⟨hround.allocated (fun _ => 0) 4096 (by decide), ?_⟩
  exact (hround.readBack (fun i => [1, 0, 0, 7].getD i 0) 4096 ⟨0, []⟩ 18 0 (by decide) (by decide)
    (by decide)).1

end ObjectRoundTrip

end ZxProto
