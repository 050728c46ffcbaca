import ZxProto.ObjectHeap
import ZxProto.Send

/-!
# The encoders in memory

`Send` gives each object a memory of its own.  Here the four encoders run as the
source has them, one after another in one memory: they find the data of an object
through its pointers, read its size, and write into its reserved bytes.

* `objectSizeField`, `countPointers`, `protoObjectDataIn` — what they read;
* `protoSerializeIn`, `protoSendIn`, `protoSendOneIn` — the encoders, with the memory
  that they leave;
* `Encoder`, `encode` — the four of them, on a socket that keeps what it is handed;
* `Heap.encode_eq` — on a heap of built objects each hands out the same frame, and
  writes reserved bytes only;
* `encoders_agree` — the same along every sequence of encodings.
-/

namespace ZxProto

open ByteMemory

section Encoders

variable (pl : Platform)

/-! ## Reading an object -/

/-- `obj->object_size`. -/
def objectSizeField (mem : Memory) (obj : Nat) : UInt16 :=
  u16le (mem obj) (mem (obj + 1))

/-- `o->properties[i]` is NULL. -/
def pointerIsNull (mem : Memory) (obj i : Nat) : Bool :=
  slice mem (obj + sizeofProtoObject + i * pl.pointerSize) pl.pointerSize ==
    littleEndian pl.pointerSize 0

/-- The loop of `proto_object_data`.  The `uint8_t` comes back to its start after 256
rounds; if there was no NULL by then, the loop does not end. -/
def countPointers (mem : Memory) (obj : Nat) : Nat → UInt8 → Option UInt8
  | 0, _ => none
  | rounds + 1, numberOfProperties =>
      if pointerIsNull pl mem obj numberOfProperties.toNat then
        some numberOfProperties
      else
        countPointers mem obj rounds (numberOfProperties + 1)

/-- `proto_object_data`. -/
def protoObjectDataIn (mem : Memory) (obj : Nat) : Option Nat :=
  (countPointers pl mem obj 256 0).map fun numberOfProperties =>
    obj + sizeofProtoObject + (numberOfProperties.toNat + 1) * pl.pointerSize

/-- `proto_object_data_update_size`. -/
def protoObjectDataUpdateSizeIn (mem : Memory) (obj : Nat) : Option (Nat × Memory) :=
  (protoObjectDataIn pl mem obj).map fun data =>
    let d := data + sizeofProtoObjectRequestHeader - 2
    (d, store mem ⟨d, u16Bytes (objectSizeField mem obj)⟩)

/-! ## The encoders -/

/-- `object_size + 2` bytes from `proto_object_data_update_size` on. -/
def objectBytesIn (mem : Memory) (obj : Nat) : Option (List UInt8 × Memory) :=
  (protoObjectDataUpdateSizeIn pl mem obj).map fun updated =>
    (slice updated.2 updated.1 ((objectSizeField updated.2 obj).toNat + 2), updated.2)

/-- The loop that copies the objects behind the header. -/
def copyObjects : List Nat → Memory → Option (List UInt8 × Memory)
  | [], mem => some ([], mem)
  | obj :: objects, mem =>
      (objectBytesIn pl mem obj).bind fun copied =>
        (copyObjects objects copied.2).map fun rest => (copied.1 ++ rest.1, rest.2)

/-- `req_size`. -/
def reqSize (mem : Memory) (objects : List Nat) : UInt16 :=
  objects.foldl (fun reqSize obj => reqSize + (objectSizeField mem obj + 2)) 0

/-- `proto_serialize`: the bytes written at `data`. -/
def protoSerializeIn (mem : Memory) (objects : List Nat) (amount : UInt8) (requestId : UInt16)
    (flags : UInt8) : Option (List UInt8 × Memory) :=
  let objects := objects.take amount.toNat
  (copyObjects pl objects mem).map fun copied =>
    (headerBytes flags (reqSize mem objects) requestId ++ copied.1, copied.2)

variable {σ : Type} (send : List UInt8 → σ → Int × σ)

/-- The loop of `proto_send` that sends one buffer per object. -/
def sendObjectsIn : List Nat → Memory → σ → Option (Int × Memory × σ)
  | [], mem, s => some (0, mem, s)
  | obj :: objects, mem, s =>
      (objectBytesIn pl mem obj).bind fun copied =>
        let sent := send copied.1 s
        if sent.1 < 0 then some (3, copied.2, sent.2)
        else sendObjectsIn objects copied.2 sent.2

/-- `proto_send`, with and without `COMBINE_OBJECTS_UPON_SENDING`. -/
def protoSendIn (combine : Bool) (mem : Memory) (objects : List Nat) (amount : UInt8)
    (requestId : UInt16) (flags : UInt8) (s : σ) : Option (Int × Memory × σ) :=
  let objects := objects.take amount.toNat
  let header := headerBytes flags (reqSize mem objects) requestId
  if combine then
    (copyObjects pl objects mem).map fun copied =>
      let sent := send (header ++ copied.1) s
      (if sent.1 < 0 then 1 else 0, copied.2, sent.2)
  else
    let sent := send header s
    if sent.1 < 0 then some (1, mem, sent.2) else sendObjectsIn pl send objects mem sent.2

/-- `proto_send_one`. -/
def protoSendOneIn (mem : Memory) (obj : Nat) (requestId : UInt16) (flags : UInt8) (s : σ) :
    Option (Int × Memory × σ) :=
  (protoObjectDataIn pl mem obj).map fun d =>
    -- in the order of the assignments in the source, which read the size again
    let mem := store mem ⟨d, [flags]⟩
    let mem := store mem ⟨d + 5, u16Bytes (objectSizeField mem obj)⟩
    let mem := store mem ⟨d + 1, u16Bytes (objectSizeField mem obj + 2)⟩
    let mem := store mem ⟨d + 3, u16Bytes requestId⟩
    let sent := send (slice mem d ((objectSizeField mem obj).toNat +
      sizeofProtoObjectRequestHeader)) s
    (if sent.1 < 0 then 3 else 0, mem, sent.2)

/-- The encoders. -/
inductive Encoder
  | combined
  | separate
  | serialize
  | one
deriving DecidableEq

/-- `proto_send_one` takes one object, the others any list. -/
def Encoder.Takes : Encoder → Nat → Prop
  | .one, n => n = 1
  | _, _ => True

/-- A socket that takes everything and keeps the buffers. -/
def keepBuffers (bytes : List UInt8) (buffers : List (List UInt8)) : Int × List (List UInt8) :=
  (bytes.length, buffers ++ [bytes])

theorem keepBuffers_nonneg (bytes : List UInt8) (buffers : List (List UInt8)) :
    ¬ (keepBuffers bytes buffers).1 < 0 :=
  Int.not_lt.mpr (Int.natCast_nonneg bytes.length)

/-- The buffers that an encoder hands out, and the memory that it leaves. -/
def encode (encoder : Encoder) (mem : Memory) (objects : List Nat) (requestId : UInt16)
    (flags : UInt8) : Option (List (List UInt8) × Memory) :=
  let amount := UInt8.ofNat objects.length
  match encoder with
  | .combined =>
      (protoSendIn pl keepBuffers true mem objects amount requestId flags []).map
        fun done => (done.2.2, done.2.1)
  | .separate =>
      (protoSendIn pl keepBuffers false mem objects amount requestId flags []).map
        fun done => (done.2.2, done.2.1)
  | .serialize =>
      (protoSerializeIn pl mem objects amount requestId flags).map
        fun done => ([done.1], done.2)
  | .one =>
      match objects with
      | [obj] =>
          (protoSendOneIn pl keepBuffers mem obj requestId flags []).map
            fun done => (done.2.2, done.2.1)
      | _ => none

end Encoders

/-- The header with the 16-bit sum of the sizes, and the objects. -/
def encodedFrame (flags : UInt8) (requestId : UInt16) (objects : List (List Property)) :
    List UInt8 :=
  headerBytes flags (UInt16.ofNat (frameSize objects)) requestId ++ objects.flatMap objectWire

/-- Where the sum fits 16 bits, this is a frame. -/
theorem WireFrame.bytes_eq_encodedFrame (f : WireFrame) :
    f.bytes = encodedFrame f.flags f.requestId f.objects := rfl

/-- The encoders of `Send`, where each object has a memory of its own, hand out the
same. -/
theorem flatten_sendBuffers_eq_encodedFrame {pl : Platform} {objects : List OwnedObject}
    {wire : List (List Property)} (h : RepresentsAll pl objects wire)
    (hle : objects.length ≤ 255) (requestId : UInt16) (flags : UInt8) :
    (sendBuffers pl objects (UInt8.ofNat objects.length) requestId flags).flatten =
      encodedFrame flags requestId wire := by
  rw [flatten_sendBuffers_eq, take_amount hle, requestSize_eq h, flatMap_objectBytes h,
    encodedFrame]

/-! ## What the encoders find -/

section Heap

variable {pl : Platform} {mem : Memory} {b : Block}

/-- The size field, and the pointers behind it. -/
theorem Block.Stands.table_split (h : b.Stands pl mem) :
    slice mem b.addr sizeofProtoObject = u16Bytes (b.object pl).objectSize ∧
      slice mem (b.addr + sizeofProtoObject) ((b.properties.length + 1) * pl.pointerSize) =
        (b.object pl).properties.flatMap (littleEndian pl.pointerSize) ++
          littleEndian pl.pointerSize 0 := by
  have htable := h.table
  rw [Block.tableSize, slice_add, objectTable, List.append_assoc] at htable
  exact List.append_inj htable (length_slice mem b.addr sizeofProtoObject)

theorem Block.Stands.objectSizeField_eq (h : b.Stands pl mem) :
    objectSizeField mem b.addr = UInt16.ofNat (bodyBytes b.properties).length :=
  u16le_of_slice h.table_split.1

theorem Block.Stands.toNat_objectSizeField (h : b.Stands pl mem) :
    (objectSizeField mem b.addr).toNat = (bodyBytes b.properties).length := by
  rw [h.objectSizeField_eq, UInt16.toNat_ofNat_of_lt' h.size_lt]

/-- Pointers to the properties of a block point into it. -/
theorem mem_propertyAddresses {a p : Nat} {props : List Property}
    (hp : p ∈ propertyAddresses a props) : a ≤ p ∧ p < a + (bodyBytes props).length := by
  induction props generalizing a with
  | nil => exact absurd hp List.not_mem_nil
  | cons property props ih =>
      have hpos : 0 < property.size := Nat.succ_pos _
      rw [bodyBytes_cons, List.length_append, Property.length_bytes]
      rcases List.mem_cons.mp hp with rfl | hp
      · omega
      · obtain ⟨hlo, hhi⟩ := ih hp
        omega

/-- The loop counts the pointers in front of the NULL. -/
theorem countPointers_of_table {obj : Nat} {pointers : List Nat}
    (hvalid : ∀ p ∈ pointers, 0 < p ∧ p < 256 ^ pl.pointerSize) {rounds : Nat} {n : UInt8}
    (hn : n.toNat + pointers.length ≤ 255) (hrounds : pointers.length < rounds)
    (htable : slice mem (obj + sizeofProtoObject + n.toNat * pl.pointerSize)
      ((pointers.length + 1) * pl.pointerSize) =
        pointers.flatMap (littleEndian pl.pointerSize) ++ littleEndian pl.pointerSize 0) :
    ∃ m, countPointers pl mem obj rounds n = some m ∧
      m.toNat = n.toNat + pointers.length := by
  obtain ⟨rounds, rfl⟩ : ∃ k, rounds = k + 1 := ⟨rounds - 1, by omega⟩
  induction pointers generalizing rounds n with
  | nil =>
      rw [List.length_nil, Nat.zero_add, Nat.one_mul] at htable
      have hnull : pointerIsNull pl mem obj n.toNat = true := beq_iff_eq.mpr htable
      rw [countPointers, if_pos hnull]
      exact ⟨n, rfl, rfl⟩
  | cons p pointers ih =>
      rw [List.length_cons] at hn hrounds htable
      have hnext : (n + 1).toNat = n.toNat + 1 := by
        rw [UInt8.toNat_add]
        exact Nat.mod_eq_of_lt (show n.toNat + 1 < 256 by omega)
      have hlength : (pointers.length + 1) * pl.pointerSize + pl.pointerSize =
          pl.pointerSize + (pointers.length + 1) * pl.pointerSize := Nat.add_comm _ _
      have haddr : obj + sizeofProtoObject + n.toNat * pl.pointerSize + pl.pointerSize =
          obj + sizeofProtoObject + (n + 1).toNat * pl.pointerSize := by
        rw [hnext, Nat.succ_mul, Nat.add_assoc]
      rw [Nat.succ_mul, hlength, slice_add, haddr, List.flatMap_cons, List.append_assoc] at htable
      obtain ⟨hfirst, hrest⟩ := List.append_inj htable (by simp)
      -- a pointer to a property is not NULL
      have hnull : ¬ pointerIsNull pl mem obj n.toNat = true := by
        obtain ⟨hpos, hlt⟩ := hvalid p List.mem_cons_self
        unfold pointerIsNull
        rw [hfirst, beq_iff_eq]
        exact littleEndian_ne_zero hpos hlt
      obtain ⟨k, rfl⟩ : ∃ k, rounds = k + 1 := ⟨rounds - 1, by omega⟩
      obtain ⟨m, hm, hcount⟩ := ih (fun q hq => hvalid q (List.mem_cons_of_mem p hq))
        (by omega) hrest k (by omega)
      rw [countPointers, if_neg hnull]
      refine ⟨m, hm, ?_⟩
      rw [hcount, hnext, List.length_cons]
      omega

/-- `proto_object_data` finds the reserved bytes. -/
theorem Block.Stands.protoObjectDataIn_eq (h : b.Stands pl mem) :
    protoObjectDataIn pl mem b.addr = some (b.addr + b.tableSize pl) := by
  have hnumber : (b.object pl).properties.length = b.properties.length :=
    length_propertyAddresses _ _
  have hvalid : ∀ p ∈ (b.object pl).properties, 0 < p ∧ p < 256 ^ pl.pointerSize := by
    intro p hp
    have hinside := h.inside
    have hoffset := b.dataOffset_eq pl
    obtain ⟨hlo, hhi⟩ := mem_propertyAddresses hp
    unfold Block.size at hinside
    unfold sizeofProtoObjectRequestHeader at hoffset
    omega
  obtain ⟨-, htable⟩ := h.table_split
  rw [← hnumber] at htable
  have hcount := h.count_le
  have hzero : b.addr + sizeofProtoObject + (0 : UInt8).toNat * pl.pointerSize =
      b.addr + sizeofProtoObject := by
    rw [UInt8.toNat_zero, Nat.zero_mul, Nat.add_zero]
  rw [← hzero] at htable
  obtain ⟨m, hm, hnum⟩ := countPointers_of_table hvalid (n := 0)
    (show 0 + (b.object pl).properties.length ≤ 255 by omega)
    (show (b.object pl).properties.length < 256 by omega) htable
  unfold protoObjectDataIn
  rw [hm, Option.map_some, hnum, hnumber]
  show some (b.addr + sizeofProtoObject + (0 + b.properties.length + 1) * pl.pointerSize) = _
  rw [Nat.zero_add, Block.tableSize, Nat.add_assoc]

/-! ## One object -/

/-- A write behind the size field does not change it. -/
theorem objectSizeField_store {obj d : Nat} (mem : Memory) (bytes : List UInt8)
    (hbehind : obj + sizeofProtoObject ≤ d) :
    objectSizeField (store mem ⟨d, bytes⟩) obj = objectSizeField mem obj := by
  have havoids : (⟨d, bytes⟩ : Store).Avoids obj sizeofProtoObject := Or.inl hbehind
  unfold objectSizeField
  unfold sizeofProtoObject at havoids
  rw [store_apply_of_avoids mem havoids le_rfl (by omega),
    store_apply_of_avoids mem havoids (by omega) (by omega)]

/-- An object is copied as its size and its body, by way of two reserved bytes. -/
theorem Block.Stands.objectBytesIn_eq (h : b.Stands pl mem) :
    ∃ after, objectBytesIn pl mem b.addr = some (objectWire b.properties, after) ∧
      AgreeOff mem after (b.addr + b.tableSize pl) sizeofProtoObjectRequestHeader := by
  have htable : sizeofProtoObject ≤ b.tableSize pl := Nat.le_add_right _ _
  unfold objectBytesIn protoObjectDataUpdateSizeIn
  rw [h.protoObjectDataIn_eq, Option.map_some, Option.map_some]
  simp only
  -- the two bytes in front of the data
  generalize hd : b.addr + b.tableSize pl + sizeofProtoObjectRequestHeader - 2 = d
  have hoffset := b.dataOffset_eq pl
  unfold sizeofProtoObjectRequestHeader at hd hoffset
  have hbehind : d + 2 = b.addr + dataOffset pl b.properties.length := by omega
  have hoff : AgreeOff mem (store mem ⟨d, u16Bytes (objectSizeField mem b.addr)⟩)
      (b.addr + b.tableSize pl) sizeofProtoObjectRequestHeader := by
    apply agreeOff_store
    unfold Store.Within sizeofProtoObjectRequestHeader
    simp only [length_u16Bytes]
    omega
  have hsize : slice (store mem ⟨d, u16Bytes (objectSizeField mem b.addr)⟩) d 2 =
      u16Bytes (objectSizeField mem b.addr) :=
    slice_store_self mem d (u16Bytes (objectSizeField mem b.addr))
  refine ⟨_, ?_, hoff⟩
  rw [objectSizeField_store mem _ (show b.addr + sizeofProtoObject ≤ d by omega),
    h.toNat_objectSizeField, Nat.add_comm (bodyBytes b.properties).length 2, slice_add, hsize,
    hbehind, (h.congr_reserved hoff).data, h.objectSizeField_eq, objectWire]

/-- `proto_send_one` sends the frame of its object, and fills the reserved bytes. -/
theorem Block.Stands.protoSendOneIn_eq (h : b.Stands pl mem) (requestId : UInt16) (flags : UInt8)
    (buffers : List (List UInt8)) :
    ∃ after, protoSendOneIn pl keepBuffers mem b.addr requestId flags buffers =
        some (0, after, buffers ++ [encodedFrame flags requestId [b.properties]]) ∧
      AgreeOff mem after (b.addr + b.tableSize pl) sizeofProtoObjectRequestHeader := by
  have htable : sizeofProtoObject ≤ b.tableSize pl := Nat.le_add_right _ _
  have hnumber : (b.object pl).properties.length = b.properties.length :=
    length_propertyAddresses _ _
  have hcount : (b.object pl).properties.length ≤ 255 := hnumber ▸ h.count_le
  have hsize : objectSizeField mem b.addr = (b.object pl).objectSize := h.objectSizeField_eq
  have hdata : b.addr + sizeofProtoObject +
      ((b.object pl).properties.length + 1) * pl.pointerSize = b.addr + b.tableSize pl := by
    rw [hnumber, Nat.add_assoc]
    rfl
  -- with a memory of its own, the object is sent as this frame
  have hrepresents := (h.laidOut hcount).represents
  have hbytes : sendOneBytes pl ⟨b.addr, mem, b.object pl, hcount⟩ requestId flags =
      encodedFrame flags requestId [b.properties] := by
    rw [sendOneBytes_eq_sentBody, hrepresents.sentBody_eq, hrepresents.objectSize_eq]
    simp [encodedFrame, objectWire, UInt16.ofNat_add]
  unfold sendOneBytes protoObjectData at hbytes
  simp only [hdata] at hbytes
  unfold protoSendOneIn
  rw [h.protoObjectDataIn_eq, Option.map_some]
  generalize hd : b.addr + b.tableSize pl = d at *
  simp (disch := omega) only [objectSizeField_store, hsize]
  refine ⟨storeAll mem
    [⟨d, [flags]⟩, ⟨d + 5, u16Bytes (b.object pl).objectSize⟩,
      ⟨d + 1, u16Bytes ((b.object pl).objectSize + 2)⟩, ⟨d + 3, u16Bytes requestId⟩], ?_, ?_⟩
  · rw [if_neg (keepBuffers_nonneg _ _), ← hbytes]
    rfl
  · apply agreeOff_storeAll
    intro s hs
    unfold Store.Within sizeofProtoObjectRequestHeader
    simp only [List.mem_cons, List.not_mem_nil, or_false] at hs
    rcases hs with rfl | rfl | rfl | rfl <;>
      simp only [length_u16Bytes, List.length_singleton] <;> omega

/-! ## Lists of objects -/

variable {blocks sent : List Block}

/-- The 16-bit sum of the sizes, from any start. -/
theorem foldl_objectSizeField (hstands : ∀ b ∈ sent, b.Stands pl mem) (start : UInt16) :
    (sent.map Block.addr).foldl (fun s obj => s + (objectSizeField mem obj + 2)) start =
      start + UInt16.ofNat (frameSize (sent.map Block.properties)) := by
  induction sent generalizing start with
  | nil => exact (UInt16.add_zero start).symm
  | cons b sent ih =>
      have hb := hstands b List.mem_cons_self
      rw [List.map_cons, List.map_cons, List.foldl_cons, frameSize_cons,
        ih fun b' hb' => hstands b' (List.mem_cons_of_mem b hb'), hb.objectSizeField_eq,
        UInt16.ofNat_add, UInt16.ofNat_add, UInt16.add_assoc]
      rfl

theorem reqSize_eq (hstands : ∀ b ∈ sent, b.Stands pl mem) :
    reqSize mem (sent.map Block.addr) =
      UInt16.ofNat (frameSize (sent.map Block.properties)) := by
  rw [reqSize, foldl_objectSizeField hstands, UInt16.zero_add]

/-- After an object has been encoded, the heap is the same. -/
theorem Heap.encoded_one (hheap : Heap pl mem blocks) (hb : b ∈ blocks) {after : Memory}
    (hoff : AgreeOff mem after (b.addr + b.tableSize pl) sizeofProtoObjectRequestHeader) :
    Heap pl after blocks ∧ ∀ {sent : List Block}, b ∈ sent → OnlyReserved pl sent mem after :=
  ⟨hheap.congr (onlyReserved_of_agreeOff hb hoff), fun hsent => onlyReserved_of_agreeOff hsent hoff⟩

/-- The loop that copies the objects. -/
theorem Heap.copyObjects_eq (hheap : Heap pl mem blocks) (hsent : ∀ b ∈ sent, b ∈ blocks) :
    ∃ after, copyObjects pl (sent.map Block.addr) mem =
        some ((sent.map Block.properties).flatMap objectWire, after) ∧
      OnlyReserved pl sent mem after := by
  induction sent generalizing mem with
  | nil => exact ⟨mem, rfl, OnlyReserved.refl [] mem⟩
  | cons b sent ih =>
      have hb := hsent b List.mem_cons_self
      obtain ⟨next, hcopied, hoff⟩ := (hheap.stands b hb).objectBytesIn_eq
      obtain ⟨hheap', honly⟩ := hheap.encoded_one hb hoff
      obtain ⟨after, hrest, honly'⟩ := ih hheap' fun b' hb' => hsent b' (List.mem_cons_of_mem b hb')
      refine ⟨after, ?_, ?_⟩
      · rw [List.map_cons, copyObjects, hcopied, Option.bind_some, hrest]
        rfl
      · exact (honly List.mem_cons_self).trans
          (honly'.mono fun b' hb' => List.mem_cons_of_mem b hb')

/-- The loop that sends the objects. -/
theorem Heap.sendObjectsIn_eq (hheap : Heap pl mem blocks) (hsent : ∀ b ∈ sent, b ∈ blocks)
    (buffers : List (List UInt8)) :
    ∃ after, sendObjectsIn pl keepBuffers (sent.map Block.addr) mem buffers =
        some (0, after, buffers ++ (sent.map Block.properties).map objectWire) ∧
      OnlyReserved pl sent mem after := by
  induction sent generalizing mem buffers with
  | nil =>
      refine ⟨mem, ?_, OnlyReserved.refl [] mem⟩
      rw [List.map_nil, List.map_nil, List.map_nil, List.append_nil]
      rfl
  | cons b sent ih =>
      have hb := hsent b List.mem_cons_self
      obtain ⟨next, hcopied, hoff⟩ := (hheap.stands b hb).objectBytesIn_eq
      obtain ⟨hheap', honly⟩ := hheap.encoded_one hb hoff
      obtain ⟨after, hrest, honly'⟩ := ih hheap'
        (fun b' hb' => hsent b' (List.mem_cons_of_mem b hb'))
        (buffers ++ [objectWire b.properties])
      refine ⟨after, ?_, ?_⟩
      · rw [List.map_cons, sendObjectsIn, hcopied, Option.bind_some]
        show (if (keepBuffers _ _).1 < 0 then _ else sendObjectsIn _ _ _ _ (keepBuffers _ _).2) = _
        rw [if_neg (keepBuffers_nonneg _ _)]
        exact hrest.trans (by rw [List.append_assoc]; rfl)
      · exact (honly List.mem_cons_self).trans
          (honly'.mono fun b' hb' => List.mem_cons_of_mem b hb')

/-! ## The four encoders -/

/-- The buffers with a frame: one, or the header and each object. -/
def Encoder.buffers (encoder : Encoder) (flags : UInt8) (requestId : UInt16)
    (objects : List (List Property)) : List (List UInt8) :=
  match encoder with
  | .separate =>
      headerBytes flags (UInt16.ofNat (frameSize objects)) requestId :: objects.map objectWire
  | _ => [encodedFrame flags requestId objects]

/-- However an encoder cuts it, it is the same frame. -/
theorem Encoder.flatten_buffers (encoder : Encoder) (flags : UInt8) (requestId : UInt16)
    (objects : List (List Property)) :
    (encoder.buffers flags requestId objects).flatten = encodedFrame flags requestId objects := by
  cases encoder with
  | combined => exact List.append_nil _
  | separate =>
      unfold Encoder.buffers encodedFrame
      rw [List.flatten_cons, List.flatMap_def]
  | serialize => exact List.append_nil _
  | one => exact List.append_nil _

/-- **One encoding.**  On a heap, each encoder hands out its buffers of the same frame,
and writes nothing but reserved bytes of the objects. -/
theorem Heap.encode_eq (hheap : Heap pl mem blocks) (hsent : ∀ b ∈ sent, b ∈ blocks)
    (hle : sent.length ≤ 255) (encoder : Encoder) (htakes : encoder.Takes sent.length)
    (requestId : UInt16) (flags : UInt8) :
    ∃ after, encode pl encoder mem (sent.map Block.addr) requestId flags =
        some (encoder.buffers flags requestId (sent.map Block.properties), after) ∧
      OnlyReserved pl sent mem after := by
  -- the number of objects fits the `uint8_t`
  have htake : (sent.map Block.addr).take (UInt8.ofNat (sent.map Block.addr).length).toNat =
      sent.map Block.addr := take_amount (by rwa [List.length_map])
  have hsize := reqSize_eq fun b hb => hheap.stands b (hsent b hb)
  cases encoder with
  | combined =>
      obtain ⟨after, hcopied, honly⟩ := hheap.copyObjects_eq hsent
      refine ⟨after, ?_, honly⟩
      simp only [encode, protoSendIn, htake, hsize, if_true]
      rw [hcopied]
      rfl
  | separate =>
      obtain ⟨after, hcopied, honly⟩ := hheap.sendObjectsIn_eq hsent
        [headerBytes flags (UInt16.ofNat (frameSize (sent.map Block.properties))) requestId]
      refine ⟨after, ?_, honly⟩
      simp only [encode, protoSendIn, htake, hsize, Bool.false_eq_true, if_false]
      rw [if_neg (keepBuffers_nonneg _ _)]
      exact congrArg (Option.map _) hcopied
  | serialize =>
      obtain ⟨after, hcopied, honly⟩ := hheap.copyObjects_eq hsent
      refine ⟨after, ?_, honly⟩
      simp only [encode, protoSerializeIn, htake, hsize]
      rw [hcopied]
      rfl
  | one =>
      obtain ⟨b, rfl⟩ := List.length_eq_one_iff.mp htakes
      have hb := hsent b List.mem_cons_self
      obtain ⟨after, hone, hoff⟩ :=
        (hheap.stands b hb).protoSendOneIn_eq requestId flags []
      refine ⟨after, ?_, onlyReserved_of_agreeOff List.mem_cons_self hoff⟩
      exact congrArg (Option.map _) hone

variable (pl blocks)

/-- The memory after any number of encodings, each of some of the objects. -/
inductive Encoded (mem : Memory) : Memory → Prop
  | refl : Encoded mem mem
  | encode {mem' after : Memory} (h : Encoded mem mem') (encoder : Encoder) {sent : List Block}
      (hsent : ∀ b ∈ sent, b ∈ blocks) (hle : sent.length ≤ 255)
      (htakes : encoder.Takes sent.length) (requestId : UInt16) (flags : UInt8)
      {buffers : List (List UInt8)}
      (hencode : encode pl encoder mem' (sent.map Block.addr) requestId flags =
        some (buffers, after)) : Encoded mem after

variable {pl blocks}

/-- **Any number of encodings** write nothing but reserved bytes of the objects. -/
theorem Encoded.onlyReserved {mem' : Memory} (h : Encoded pl blocks mem mem')
    (hheap : Heap pl mem blocks) : OnlyReserved pl blocks mem mem' := by
  induction h with
  | refl => exact OnlyReserved.refl blocks mem
  | @encode mem' after _ encoder sent hsent hle htakes requestId flags buffers hencode ih =>
      obtain ⟨after', hencode', honly⟩ :=
        (hheap.congr ih).encode_eq hsent hle encoder htakes requestId flags
      rw [hencode] at hencode'
      cases hencode'
      exact ih.trans (honly.mono hsent)

/-- **All encoders agree.**  For objects that the constructors built, however often
some of them have been encoded before: every list of at most 255 of them is encoded
as the same frame by all encoders that take it, and nothing has changed but reserved
bytes, so that the size fields, the pointers and the properties are what they were. -/
theorem encoders_agree (hbuilt : Built pl mem blocks) {mem' : Memory}
    (hencoded : Encoded pl blocks mem mem') (hsent : ∀ b ∈ sent, b ∈ blocks)
    (hle : sent.length ≤ 255) (requestId : UInt16) (flags : UInt8) :
    (∀ encoder : Encoder, encoder.Takes sent.length →
      ∃ buffers after, encode pl encoder mem' (sent.map Block.addr) requestId flags =
          some (buffers, after) ∧
        (encoder ≠ .separate →
          buffers = [encodedFrame flags requestId (sent.map Block.properties)]) ∧
        buffers.flatten = encodedFrame flags requestId (sent.map Block.properties) ∧
        OnlyReserved pl sent mem' after) ∧
      OnlyReserved pl blocks mem mem' ∧
      ∀ b ∈ blocks, AgreeOn mem mem' b.addr (b.tableSize pl) ∧
        AgreeOn mem mem' (b.addr + dataOffset pl b.properties.length)
          (bodyBytes b.properties).length := by
  have hheap := hbuilt.heap
  have honly := hencoded.onlyReserved hheap
  refine ⟨fun encoder htakes => ?_, honly, fun b hb => honly.agreeOn hheap hb⟩
  obtain ⟨after, hencode, hafter⟩ :=
    (hheap.congr honly).encode_eq hsent hle encoder htakes requestId flags
  refine ⟨_, after, hencode, fun hne => ?_, encoder.flatten_buffers _ _ _, hafter⟩
  cases encoder with
  | combined => rfl
  | separate => exact absurd rfl hne
  | serialize => rfl
  | one => rfl

end Heap

/-- A chain with one property of one byte. -/
def exampleChain : List ProtoStackObjectProperty :=
  [⟨ProtoObjectPropertyKey.payload.code, [7], 1, Nat.le_refl 1⟩]

/-- An object on the stack and another on the heap. -/
def exampleHeap : Memory :=
  (protoObjectAllocate .pc
    (protoObjectAssign .pc (fun _ => 0) 4096 64 exampleChain (by decide)).mem 8192 exampleChain
    (by decide)).mem

theorem built_exampleHeap : Built .pc exampleHeap
    [⟨8192, chainProperties exampleChain⟩, ⟨4096, chainProperties exampleChain⟩] := by
  apply Built.allocate
  · apply Built.assign
    · exact Built.start _
    · decide
    · decide
    · exact fun b hb => absurd hb List.not_mem_nil
  · decide
  · decide
  · intro b hb
    rw [List.mem_singleton.mp hb]
    decide

/-- Two objects, one of them twice: both ways of sending and `proto_serialize`. -/
theorem encoders_agree_repeated :
    (encode .pc .separate exampleHeap [4096, 8192, 4096] 7 2).map (fun done => done.1.flatten) =
        some (encodedFrame 2 7 (List.replicate 3 (chainProperties exampleChain))) ∧
      (encode .pc .serialize exampleHeap [4096, 8192, 4096] 7 2).map (fun done => done.1) =
        some [encodedFrame 2 7 (List.replicate 3 (chainProperties exampleChain))] := by
  let first : Block := ⟨4096, chainProperties exampleChain⟩
  let second : Block := ⟨8192, chainProperties exampleChain⟩
  have hsent : ∀ b ∈ [first, second, first], b ∈ [second, first] := by
    intro b hb
    simp only [List.mem_cons, List.not_mem_nil, or_false] at hb ⊢
    rcases hb with rfl | rfl | rfl
    · exact Or.inr rfl
    · exact Or.inl rfl
    · exact Or.inr rfl
  obtain ⟨hagree, -⟩ := encoders_agree built_exampleHeap .refl hsent (by decide) 7 2
  obtain ⟨_, _, hseparate, -, hflat, -⟩ := hagree .separate trivial
  obtain ⟨_, _, hserialize, hone, -⟩ := hagree .serialize trivial
  constructor
  · exact (congrArg (Option.map _) hseparate).trans (congrArg some hflat)
  · exact (congrArg (Option.map _) hserialize).trans (congrArg some (hone (by decide)))

end ZxProto
