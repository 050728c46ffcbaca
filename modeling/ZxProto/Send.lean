import ZxProto.ObjectBuild

/-!
# Frames and their encoders

The sending half of `proto.c`.  A frame is a flags byte, the 16-bit length of
its body, the 16-bit request id, and the objects, each preceded by its 16-bit
size.

* `WireFrame` — a frame with at least one object and a body whose length fits
  the header field, with its bytes;
* `protoSend`, `protoSendOne`, `protoSerialize` — the encoders, over objects in
  memory and over any socket `send`;
* `protoSend_of_success` and `protoSendOne_of_success` — when the socket takes
  everything, an encoder returns 0 and the buffers handed to `send` are
  `sendBuffers` and `sendOneBytes`;
* `flatten_sendBuffers`, `sendOneBytes_eq`, `protoSerialize_eq` — for objects
  that the constructors built, all of them produce `WireFrame.bytes`.
-/

namespace ZxProto

open ByteMemory

/-- `PROTO_FLAG_ERROR`. -/
def protoFlagError : UInt8 := 0x01

/-- `PROTO_FLAG_RESPONSE`. -/
def protoFlagResponse : UInt8 := 0x02

/-! ## Frames on the wire -/

/-- An object on the wire: size, then body. -/
def objectWire (props : List Property) : List UInt8 :=
  u16Bytes (UInt16.ofNat (bodyBytes props).length) ++ bodyBytes props

@[simp] theorem length_objectWire (props : List Property) :
    (objectWire props).length = (bodyBytes props).length + 2 := by
  simp [objectWire, Nat.add_comm]

/-- The length of a frame body. -/
def frameSize (objects : List (List Property)) : Nat :=
  (objects.map fun props => (bodyBytes props).length + 2).sum

@[simp] theorem frameSize_nil : frameSize [] = 0 := rfl

@[simp] theorem frameSize_cons (props : List Property) (objects : List (List Property)) :
    frameSize (props :: objects) = (bodyBytes props).length + 2 + frameSize objects := rfl

/-- Up to 255 objects are what a `uint8_t` amount says. -/
theorem take_amount {α : Type} {objects : List α} (hle : objects.length ≤ 255) :
    objects.take (UInt8.ofNat objects.length).toNat = objects := by
  apply List.take_of_length_le
  rw [UInt8.toNat_ofNat']
  omega

/-- The five header bytes. -/
def headerBytes (flags : UInt8) (requestSize requestId : UInt16) : List UInt8 :=
  flags :: (u16Bytes requestSize ++ u16Bytes requestId)

/-- A frame that carries at least one object and whose body length fits the
16-bit header field. -/
structure WireFrame where
  flags : UInt8
  requestId : UInt16
  objects : List (List Property)
  objects_ne : objects ≠ []
  size_lt : frameSize objects < 65536

/-- A frame on the wire. -/
def WireFrame.bytes (f : WireFrame) : List UInt8 :=
  headerBytes f.flags (UInt16.ofNat (frameSize f.objects)) f.requestId ++
    f.objects.flatMap objectWire

/-! ## The encoders -/

/-- `proto_object_data_update_size`: the address it returns and the memory with
the object size put in front of the data. -/
def protoObjectDataUpdateSize (pl : Platform) (o : OwnedObject) : Nat × Memory :=
  let d := protoObjectData pl o + sizeofProtoObjectRequestHeader - 2
  (d, store o.mem ⟨d, u16Bytes o.object.objectSize⟩)

/-- The `object_size + 2` bytes copied from `proto_object_data_update_size`. -/
def objectBytes (pl : Platform) (o : OwnedObject) : List UInt8 :=
  let updated := protoObjectDataUpdateSize pl o
  slice updated.2 updated.1 (o.object.objectSize.toNat + 2)

/-- The body that an object is sent with: `object_size` bytes of its data. -/
def sentBody (pl : Platform) (o : OwnedObject) : List UInt8 :=
  slice o.mem (protoObjectData pl o + sizeofProtoObjectRequestHeader) o.object.objectSize.toNat

@[simp] theorem length_sentBody (pl : Platform) (o : OwnedObject) :
    (sentBody pl o).length = o.object.objectSize.toNat := by
  simp [sentBody]

/-- `req_size`, summed in 16 bits. -/
def requestSize (objects : List OwnedObject) : UInt16 :=
  objects.foldl (fun reqSize o => reqSize + (o.object.objectSize + 2)) 0

/-- `proto_serialize`: the bytes written at `data`. -/
def protoSerialize (pl : Platform) (objects : List OwnedObject) (amount : UInt8)
    (requestId : UInt16) (flags : UInt8) : List UInt8 :=
  let objects := objects.take amount.toNat
  headerBytes flags (requestSize objects) requestId ++ objects.flatMap (objectBytes pl)

section Sending

variable {σ : Type} (pl : Platform) (send : List UInt8 → σ → Int × σ)

/-- The loop of `proto_send` that sends one buffer per object. -/
def sendObjects : List OwnedObject → σ → Int × σ
  | [], s => (0, s)
  | o :: objects, s =>
      let sent := send (objectBytes pl o) s
      if sent.1 < 0 then (3, sent.2) else sendObjects objects sent.2

/-- `proto_send`, with and without `COMBINE_OBJECTS_UPON_SENDING`. -/
def protoSend (objects : List OwnedObject) (amount : UInt8) (requestId : UInt16) (flags : UInt8)
    (s : σ) : Int × σ :=
  let objects := objects.take amount.toNat
  let header := headerBytes flags (requestSize objects) requestId
  if pl.combineObjectsUponSending then
    let sent := send (header ++ objects.flatMap (objectBytes pl)) s
    if sent.1 < 0 then (1, sent.2) else (0, sent.2)
  else
    let sent := send header s
    if sent.1 < 0 then (1, sent.2) else sendObjects pl send objects sent.2

/-- The buffer of `proto_send_one`: the request header is filled in place, in
the reserved bytes in front of the data. -/
def sendOneBytes (o : OwnedObject) (requestId : UInt16) (flags : UInt8) : List UInt8 :=
  let d := protoObjectData pl o
  -- in the order of the assignments in the source
  let mem := storeAll o.mem
    [⟨d, [flags]⟩, ⟨d + 5, u16Bytes o.object.objectSize⟩,
      ⟨d + 1, u16Bytes (o.object.objectSize + 2)⟩, ⟨d + 3, u16Bytes requestId⟩]
  slice mem d (o.object.objectSize.toNat + sizeofProtoObjectRequestHeader)

/-- `proto_send_one`. -/
def protoSendOne (o : OwnedObject) (requestId : UInt16) (flags : UInt8) (s : σ) : Int × σ :=
  let sent := send (sendOneBytes pl o requestId flags) s
  if sent.1 < 0 then (3, sent.2) else (0, sent.2)

/-! ## What a socket that takes everything is handed -/

/-- The buffers that `proto_send` hands to `send`, in order. -/
def sendBuffers (objects : List OwnedObject) (amount : UInt8) (requestId : UInt16)
    (flags : UInt8) : List (List UInt8) :=
  let objects := objects.take amount.toNat
  let header := headerBytes flags (requestSize objects) requestId
  if pl.combineObjectsUponSending then
    [header ++ objects.flatMap (objectBytes pl)]
  else
    header :: objects.map (objectBytes pl)

/-- Hand buffers to `send` one after another. -/
def sendAll (buffers : List (List UInt8)) (s : σ) : σ :=
  buffers.foldl (fun s buffer => (send buffer s).2) s

variable {send}

theorem sendObjects_of_success (hsend : ∀ bytes s, 0 ≤ (send bytes s).1)
    (objects : List OwnedObject) (s : σ) :
    sendObjects pl send objects s = (0, sendAll send (objects.map (objectBytes pl)) s) := by
  induction objects generalizing s with
  | nil => rfl
  | cons o objects ih =>
      rw [sendObjects, if_neg (Int.not_lt.mpr (hsend _ s)), ih]
      rfl

theorem protoSend_of_success (hsend : ∀ bytes s, 0 ≤ (send bytes s).1)
    (objects : List OwnedObject) (amount : UInt8) (requestId : UInt16) (flags : UInt8) (s : σ) :
    protoSend pl send objects amount requestId flags s =
      (0, sendAll send (sendBuffers pl objects amount requestId flags) s) := by
  cases hcombine : pl.combineObjectsUponSending with
  | true =>
      simp only [protoSend, sendBuffers, hcombine, if_true]
      rw [if_neg (Int.not_lt.mpr (hsend _ s))]
      rfl
  | false =>
      simp only [protoSend, sendBuffers, hcombine, Bool.false_eq_true, if_false]
      rw [if_neg (Int.not_lt.mpr (hsend _ s)), sendObjects_of_success pl hsend]
      rfl

theorem protoSendOne_of_success (hsend : ∀ bytes s, 0 ≤ (send bytes s).1)
    (o : OwnedObject) (requestId : UInt16) (flags : UInt8) (s : σ) :
    protoSendOne pl send o requestId flags s =
      (0, (send (sendOneBytes pl o requestId flags) s).2) := by
  rw [protoSendOne, if_neg (Int.not_lt.mpr (hsend _ s))]

end Sending

/-! ## All encoders produce the frame -/

section Encoders

variable {pl : Platform}

/-- Objects in memory that show the objects of a frame. -/
abbrev RepresentsAll (pl : Platform) : List OwnedObject → List (List Property) → Prop :=
  List.Forall₂ (Represents pl)

/-- An object is sent as its size and its body. -/
theorem objectBytes_eq_sentBody (o : OwnedObject) :
    objectBytes pl o = u16Bytes o.object.objectSize ++ sentBody pl o := by
  have hd : protoObjectData pl o + sizeofProtoObjectRequestHeader - 2 + 2 =
      protoObjectData pl o + sizeofProtoObjectRequestHeader := by
    simp only [sizeofProtoObjectRequestHeader]
    omega
  simp only [objectBytes, protoObjectDataUpdateSize, sentBody]
  generalize hfront : protoObjectData pl o + sizeofProtoObjectRequestHeader - 2 = d at hd
  have hpre : slice (store o.mem ⟨d, u16Bytes o.object.objectSize⟩) d 2 =
      u16Bytes o.object.objectSize :=
    slice_store_self o.mem d (u16Bytes o.object.objectSize)
  rw [Nat.add_comm _ 2, slice_add, hpre, slice_store_of_avoids _ (by right; simp), hd]

theorem Represents.sentBody_eq {o : OwnedObject} {props : List Property}
    (h : Represents pl o props) : sentBody pl o = bodyBytes props := by
  rw [sentBody, h.objectSize, h.data]

theorem Represents.objectSize_eq {o : OwnedObject} {props : List Property}
    (h : Represents pl o props) : o.object.objectSize = UInt16.ofNat (bodyBytes props).length := by
  rw [← h.objectSize, UInt16.ofNat_toNat]

theorem objectBytes_eq {o : OwnedObject} {props : List Property} (h : Represents pl o props) :
    objectBytes pl o = objectWire props := by
  rw [objectBytes_eq_sentBody, h.sentBody_eq, h.objectSize_eq, objectWire]

theorem flatMap_objectBytes {objects : List OwnedObject} {wire : List (List Property)}
    (h : RepresentsAll pl objects wire) :
    objects.flatMap (objectBytes pl) = wire.flatMap objectWire := by
  induction h with
  | nil => rfl
  | cons hhead _ ih => rw [List.flatMap_cons, List.flatMap_cons, objectBytes_eq hhead, ih]

/-- The 16-bit sum of the sizes, prefixes included. -/
theorem requestSize_eq_sum (objects : List OwnedObject) :
    requestSize objects =
      UInt16.ofNat (objects.map fun o => o.object.objectSize.toNat + 2).sum := by
  -- the induction needs the sum from any start
  have hgeneral : ∀ start : UInt16,
      objects.foldl (fun reqSize o => reqSize + (o.object.objectSize + 2)) start =
        start + UInt16.ofNat (objects.map fun o => o.object.objectSize.toNat + 2).sum := by
    induction objects with
    | nil => intro start; simp
    | cons o objects ih =>
        intro start
        rw [List.foldl_cons, ih, List.map_cons, List.sum_cons, UInt16.ofNat_add, UInt16.ofNat_add,
          UInt16.ofNat_toNat, UInt16.add_assoc]
        rfl
  rw [requestSize, hgeneral, UInt16.zero_add]

theorem requestSize_eq {objects : List OwnedObject} {wire : List (List Property)}
    (h : RepresentsAll pl objects wire) :
    requestSize objects = UInt16.ofNat (frameSize wire) := by
  rw [requestSize_eq_sum, frameSize]
  congr 2
  induction h with
  | nil => rfl
  | cons hhead _ ih => rw [List.map_cons, List.map_cons, hhead.objectSize, ih]

/-- `proto_send` sends a header and then the objects, however many buffers it
takes. -/
theorem flatten_sendBuffers_eq (objects : List OwnedObject) (amount : UInt8) (requestId : UInt16)
    (flags : UInt8) :
    (sendBuffers pl objects amount requestId flags).flatten =
      headerBytes flags (requestSize (objects.take amount.toNat)) requestId ++
        (objects.take amount.toNat).flatMap (objectBytes pl) := by
  cases hcombine : pl.combineObjectsUponSending with
  | true => simp [sendBuffers, hcombine]
  | false =>
      simp only [sendBuffers, hcombine, Bool.false_eq_true, if_false, List.flatten_cons,
        List.flatMap_def]

/-- `proto_send` puts the frame on the wire. -/
theorem flatten_sendBuffers {objects : List OwnedObject} (f : WireFrame)
    (h : RepresentsAll pl objects f.objects) (amount : UInt8)
    (hamount : amount.toNat = objects.length) :
    (sendBuffers pl objects amount f.requestId f.flags).flatten = f.bytes := by
  have htake : objects.take amount.toNat = objects := List.take_of_length_le (by omega)
  rw [flatten_sendBuffers_eq, htake, requestSize_eq h, flatMap_objectBytes h, WireFrame.bytes]

theorem protoSerialize_eq {objects : List OwnedObject} (f : WireFrame)
    (h : RepresentsAll pl objects f.objects) (amount : UInt8)
    (hamount : amount.toNat = objects.length) :
    protoSerialize pl objects amount f.requestId f.flags = f.bytes := by
  have htake : objects.take amount.toNat = objects := List.take_of_length_le (by omega)
  simp only [protoSerialize, htake]
  rw [requestSize_eq h, flatMap_objectBytes h, WireFrame.bytes]

/-- `proto_send_one` sends a header whose length is the size of the object and
its prefix, and then the object. -/
theorem sendOneBytes_eq_sentBody (o : OwnedObject) (requestId : UInt16) (flags : UInt8) :
    sendOneBytes pl o requestId flags =
      headerBytes flags (o.object.objectSize + 2) requestId ++
        (u16Bytes o.object.objectSize ++ sentBody pl o) := by
  have hcut : o.object.objectSize.toNat + sizeofProtoObjectRequestHeader =
      1 + (2 + (2 + (2 + o.object.objectSize.toNat))) := by
    rw [sizeofProtoObjectRequestHeader]
    omega
  simp only [sendOneBytes, sentBody, sizeofProtoObjectRequestHeader]
  generalize protoObjectData pl o = d
  have hflags : slice (store o.mem ⟨d, [flags]⟩) d 1 = [flags] :=
    slice_store_self o.mem d [flags]
  have hfield : ∀ (mem : Memory) (a : Nat) (w : UInt16),
      slice (store mem ⟨a, u16Bytes w⟩) a 2 = u16Bytes w :=
    fun mem a w => slice_store_self mem a (u16Bytes w)
  simp only [storeAll_cons, storeAll_nil]
  rw [sizeofProtoObjectRequestHeader] at hcut
  rw [hcut, slice_add, slice_add, slice_add, slice_add]
  -- flags, request_size, request_id, object_size, then the data behind the header
  rw [slice_store_of_avoids _ (a := d) (by left; simp),
    slice_store_of_avoids _ (a := d) (by left; simp),
    slice_store_of_avoids _ (a := d) (by left; simp), hflags,
    slice_store_of_avoids _ (a := d + 1) (by left; simp), hfield _ (d + 1),
    hfield _ (d + 3),
    slice_store_of_avoids _ (a := d + 5) (by right; simp),
    slice_store_of_avoids _ (a := d + 5) (by right; simp), hfield _ (d + 5),
    slice_store_of_avoids _ (a := d + 7) (by right; simp),
    slice_store_of_avoids _ (a := d + 7) (by right; simp),
    slice_store_of_avoids _ (a := d + 7) (by right; simp),
    slice_store_of_avoids _ (a := d + 7) (by right; simp)]
  simp [headerBytes]

/-- `proto_send_one` puts the frame of its one object on the wire. -/
theorem sendOneBytes_eq {o : OwnedObject} {props : List Property} (h : Represents pl o props)
    (f : WireFrame) (hobjects : f.objects = [props]) :
    sendOneBytes pl o f.requestId f.flags = f.bytes := by
  rw [sendOneBytes_eq_sentBody, h.sentBody_eq, h.objectSize_eq]
  simp [WireFrame.bytes, hobjects, objectWire]

end Encoders

end ZxProto
