import ZxProto.Encoders
import ZxProto.ObjectAllocation

/-!
# The size of a serialized frame

`proto_serialize` writes a frame at `data` and returns the pointer behind it.  How much
that is, the caller asks `proto_serialize_get_size` first, which sums in 16 bits from 5
on, header included.

* `protoSerializeGetSize`, `protoSerializeAt` — the functions;
* `Heap.protoSerializeAt_eq` — what is written, and the pointer that is returned;
* `SizeExact`, `sizeExact_iff` — when the answer is right.
-/

namespace ZxProto

open ByteMemory

section Serialize

variable (pl : Platform)

/-! ## The functions -/

/-- `proto_serialize_get_size`: a 16-bit sum, returned as a `uint32_t`. -/
def protoSerializeGetSize (mem : Memory) (objects : List Nat) (amount : UInt8) : UInt32 :=
  ((objects.take amount.toNat).foldl
    (fun reqSize obj => reqSize + (objectSizeField mem obj + 2)) (5 : UInt16)).toUInt32

/-- The loop of `proto_serialize`: `data` behind the last object, the copies, and the
memory. -/
def serializeObjects : List Nat → (data : Nat) → Memory → Option (Nat × List Store × Memory)
  | [], data, mem => some (data, [], mem)
  | obj :: objects, data, mem =>
      (protoObjectDataUpdateSizeIn pl mem obj).bind fun updated =>
        let copied : Store :=
          ⟨data, slice updated.2 updated.1 ((objectSizeField updated.2 obj).toNat + 2)⟩
        let mem := store updated.2 copied
        (serializeObjects objects (data + ((objectSizeField mem obj).toNat + 2)) mem).map
          fun rest => (rest.1, copied :: rest.2.1, rest.2.2)

/-- The header in front of the objects. -/
def headerStores (data : Nat) (flags : UInt8) (reqSize requestId : UInt16) : List Store :=
  [⟨data, [flags]⟩, ⟨data + 1, u16Bytes reqSize⟩, ⟨data + 3, u16Bytes requestId⟩]

/-- `proto_serialize`: the pointer that it returns, what it writes from `data` on, and
the memory. -/
def protoSerializeAt (mem : Memory) (data : Nat) (objects : List Nat) (amount : UInt8)
    (requestId : UInt16) (flags : UInt8) : Option (Nat × List Store × Memory) :=
  let objects := objects.take amount.toNat
  let header := headerStores data flags (reqSize mem objects) requestId
  (serializeObjects pl objects (data + 5) (storeAll mem header)).map
    fun rest => (rest.1, header ++ rest.2.1, rest.2.2)

/-- What is written by stores. -/
def writtenBytes (stores : List Store) : List UInt8 :=
  stores.flatMap Store.bytes

/-- The predicted size is what is written, and how far the pointer moves. -/
def SizeExact (mem : Memory) (data : Nat) (objects : List Nat) (requestId : UInt16)
    (flags : UInt8) : Prop :=
  ∃ behind stores after,
    protoSerializeAt pl mem data objects (UInt8.ofNat objects.length) requestId flags =
      some (behind, stores, after) ∧
    behind = data + (writtenBytes stores).length ∧
    (protoSerializeGetSize mem objects (UInt8.ofNat objects.length)).toNat =
      (writtenBytes stores).length

/-! ## What is written -/

variable {pl} {mem : Memory} {blocks sent : List Block}

theorem writtenBytes_append (front rest : List Store) :
    writtenBytes (front ++ rest) = writtenBytes front ++ writtenBytes rest :=
  List.flatMap_append

/-- What is written outside the blocks does not change the heap. -/
theorem Heap.congr_blocks (hheap : Heap pl mem blocks) {mem' : Memory}
    (hkept : ∀ b ∈ blocks, AgreeOn mem mem' b.addr (b.size pl)) : Heap pl mem' blocks :=
  ⟨fun b hb => (hheap.stands b hb).congr_block (hkept b hb), hheap.apart⟩

/-- One object: two reserved bytes, then the copy, which leaves the size field alone. -/
theorem Heap.serialize_one (hheap : Heap pl mem blocks) {b : Block} (hb : b ∈ blocks) (data : Nat)
    (hapart : ∀ b' ∈ blocks, Apart data (objectWire b.properties).length b'.addr (b'.size pl)) :
    ∃ d updated, protoObjectDataUpdateSizeIn pl mem b.addr = some (d, updated) ∧
      slice updated d ((objectSizeField updated b.addr).toNat + 2) = objectWire b.properties ∧
      Heap pl (store updated ⟨data, objectWire b.properties⟩) blocks := by
  obtain ⟨after, hbytes, hoff⟩ := (hheap.stands b hb).objectBytesIn_eq
  unfold objectBytesIn at hbytes
  obtain ⟨⟨d, updated⟩, hupdated, hpair⟩ := Option.map_eq_some_iff.mp hbytes
  obtain ⟨hslice, hafter⟩ := Prod.mk.inj hpair
  simp only at hslice hafter
  subst hafter
  refine ⟨d, updated, hupdated, hslice, ?_⟩
  apply (hheap.encoded_one hb hoff).1.congr_blocks
  intro b' hb'
  exact (agreeOff_store updated (s := ⟨data, objectWire b.properties⟩) ⟨le_rfl, le_rfl⟩).agreeOn
    (hapart b' hb')

/-- The loop copies the objects one behind the other. -/
theorem Heap.serializeObjects_eq (hheap : Heap pl mem blocks) (hsent : ∀ b ∈ sent, b ∈ blocks)
    (data : Nat) (hapart : ∀ b ∈ blocks,
      Apart data (frameSize (sent.map Block.properties)) b.addr (b.size pl)) :
    ∃ stores after, serializeObjects pl (sent.map Block.addr) data mem =
        some (data + frameSize (sent.map Block.properties), stores, after) ∧
      writtenBytes stores = (sent.map Block.properties).flatMap objectWire := by
  induction sent generalizing mem data with
  | nil => exact ⟨[], mem, rfl, rfl⟩
  | cons b sent ih =>
      have hb := hsent b List.mem_cons_self
      rw [List.map_cons, frameSize_cons] at hapart
      have hlength := length_objectWire b.properties
      obtain ⟨d, updated, hupdated, hslice, hheap'⟩ := hheap.serialize_one hb data
        fun b' hb' => (hapart b' hb').mono le_rfl (by omega) le_rfl le_rfl
      have hsize : (objectSizeField (store updated ⟨data, objectWire b.properties⟩) b.addr).toNat =
          (bodyBytes b.properties).length := (hheap'.stands b hb).toNat_objectSizeField
      obtain ⟨stores, after, hrest, hwritten⟩ := ih hheap'
        (fun b' hb' => hsent b' (List.mem_cons_of_mem b hb'))
        (data + ((bodyBytes b.properties).length + 2))
        fun b' hb' => (hapart b' hb').mono (by omega) (by omega) le_rfl le_rfl
      refine ⟨⟨data, objectWire b.properties⟩ :: stores, after, ?_, ?_⟩
      · rw [List.map_cons, serializeObjects, hupdated, Option.bind_some]
        simp only [hslice, hsize]
        rw [hrest, Option.map_some, List.map_cons, frameSize_cons, Nat.add_assoc]
      · rw [List.map_cons, List.flatMap_cons, ← hwritten]
        rfl

/-- **What is written.**  The frame, and the pointer ends up behind it. -/
theorem Heap.protoSerializeAt_eq (hheap : Heap pl mem blocks) (hsent : ∀ b ∈ sent, b ∈ blocks)
    (hle : sent.length ≤ 255) {data : Nat} (hapart : ∀ b ∈ blocks,
      Apart data (5 + frameSize (sent.map Block.properties)) b.addr (b.size pl))
    (requestId : UInt16) (flags : UInt8) :
    ∃ stores after, protoSerializeAt pl mem data (sent.map Block.addr)
        (UInt8.ofNat (sent.map Block.addr).length) requestId flags =
          some (data + (5 + frameSize (sent.map Block.properties)), stores, after) ∧
      writtenBytes stores = encodedFrame flags requestId (sent.map Block.properties) := by
  have htake : (sent.map Block.addr).take (UInt8.ofNat (sent.map Block.addr).length).toNat =
      sent.map Block.addr := take_amount (by rwa [List.length_map])
  have hsize := reqSize_eq fun b hb => hheap.stands b (hsent b hb)
  -- the header is written in front of the objects, and outside the blocks
  have hheader : AgreeOff mem (storeAll mem (headerStores data flags
      (reqSize mem (sent.map Block.addr)) requestId)) data 5 := by
    apply agreeOff_storeAll
    intro s hs
    simp only [headerStores, List.mem_cons, List.not_mem_nil, or_false] at hs
    rcases hs with rfl | rfl | rfl <;> unfold Store.Within <;>
      simp only [length_u16Bytes, List.length_singleton] <;> omega
  obtain ⟨stores, after, hobjects, hwritten⟩ := (hheap.congr_blocks fun b hb =>
      hheader.agreeOn ((hapart b hb).mono le_rfl (by omega) le_rfl le_rfl)).serializeObjects_eq
    hsent (data + 5) fun b hb => (hapart b hb).mono (by omega) (by omega) le_rfl le_rfl
  refine ⟨headerStores data flags (reqSize mem (sent.map Block.addr)) requestId ++ stores, after,
    ?_, ?_⟩
  · simp only [protoSerializeAt, htake]
    rw [hobjects, Option.map_some, Nat.add_assoc]
  · have hfront : writtenBytes (headerStores data flags (reqSize mem (sent.map Block.addr))
        requestId) = headerBytes flags (reqSize mem (sent.map Block.addr)) requestId := rfl
    rw [writtenBytes_append, hfront, hwritten, hsize, encodedFrame]

theorem length_encodedFrame (flags : UInt8) (requestId : UInt16) (objects : List (List Property)) :
    (encodedFrame flags requestId objects).length = 5 + frameSize objects := by
  have hheader : ∀ size : UInt16, (headerBytes flags size requestId).length = 5 := fun _ => rfl
  have hobjects : (objects.flatMap objectWire).length = frameSize objects := by
    rw [List.length_flatMap, frameSize]
    exact congrArg (fun f => (objects.map f).sum) (funext length_objectWire)
  rw [encodedFrame, List.length_append, hheader, hobjects]

/-- What is predicted: the size modulo 2^16. -/
theorem Heap.toNat_protoSerializeGetSize (hheap : Heap pl mem blocks)
    (hsent : ∀ b ∈ sent, b ∈ blocks) (hle : sent.length ≤ 255) :
    (protoSerializeGetSize mem (sent.map Block.addr)
        (UInt8.ofNat (sent.map Block.addr).length)).toNat =
      (5 + frameSize (sent.map Block.properties)) % 65536 := by
  have htake : (sent.map Block.addr).take (UInt8.ofNat (sent.map Block.addr).length).toNat =
      sent.map Block.addr := take_amount (by rwa [List.length_map])
  have hsum := foldl_objectSizeField (fun b hb => hheap.stands b (hsent b hb)) 5
  have hstart : (5 : UInt16) + UInt16.ofNat (frameSize (sent.map Block.properties)) =
      UInt16.ofNat (5 + frameSize (sent.map Block.properties)) := (UInt16.ofNat_add 5 _).symm
  rw [protoSerializeGetSize, htake, hsum, hstart, UInt16.toNat_toUInt32, UInt16.toNat_ofNat']

/-- The prediction is right if the whole frame is less than 2^16 bytes. -/
theorem Heap.sizeExact_iff_mod (hheap : Heap pl mem blocks) (hsent : ∀ b ∈ sent, b ∈ blocks)
    (hle : sent.length ≤ 255) {data : Nat} (hapart : ∀ b ∈ blocks,
      Apart data (5 + frameSize (sent.map Block.properties)) b.addr (b.size pl))
    (requestId : UInt16) (flags : UInt8) :
    SizeExact pl mem data (sent.map Block.addr) requestId flags ↔
      (5 + frameSize (sent.map Block.properties)) % 65536 =
        5 + frameSize (sent.map Block.properties) := by
  obtain ⟨stores, after, hserialize, hwritten⟩ :=
    hheap.protoSerializeAt_eq hsent hle hapart requestId flags
  have hlength : (writtenBytes stores).length = 5 + frameSize (sent.map Block.properties) := by
    rw [hwritten, length_encodedFrame]
  have hpredicted := hheap.toNat_protoSerializeGetSize hsent hle
  constructor
  · rintro ⟨behind, stores', after', hserialize', -, hsize⟩
    rw [hserialize] at hserialize'
    cases hserialize'
    rw [hlength, hpredicted] at hsize
    exact hsize
  · intro hmod
    refine ⟨_, stores, after, hserialize, ?_, ?_⟩
    · rw [hlength]
    · rw [hpredicted, hlength, hmod]

/-- **When the prediction is exact.**  For at most 255 objects whose frame body fits the
header field, and a target that is not part of them: if the header fits 16 bits with the
body. -/
theorem sizeExact_iff (hheap : Heap pl mem blocks) (hsent : ∀ b ∈ sent, b ∈ blocks)
    (hle : sent.length ≤ 255) (hbody : frameSize (sent.map Block.properties) ≤ 65535)
    {data : Nat} (hapart : ∀ b ∈ blocks,
      Apart data (5 + frameSize (sent.map Block.properties)) b.addr (b.size pl))
    (requestId : UInt16) (flags : UInt8) :
    SizeExact pl mem data (sent.map Block.addr) requestId flags ↔
      frameSize (sent.map Block.properties) ≤ 65530 := by
  rw [hheap.sizeExact_iff_mod hsent hle hapart]
  omega

/-- Two objects, in front of a free target. -/
theorem sizeExact_of_two : SizeExact .pc exampleHeap 16384 [4096, 8192] 7 0 := by
  let first : Block := ⟨4096, chainProperties exampleChain⟩
  let second : Block := ⟨8192, chainProperties exampleChain⟩
  have hsent : ∀ b ∈ [first, second], b ∈ [second, first] := by
    intro b hb
    simp only [List.mem_cons, List.not_mem_nil, or_false] at hb ⊢
    exact hb.symm
  have hapart : ∀ b ∈ [second, first], Apart 16384
      (5 + frameSize ([first, second].map Block.properties)) b.addr (b.size .pc) := by
    intro b hb
    simp only [List.mem_cons, List.not_mem_nil, or_false] at hb
    rcases hb with rfl | rfl <;> decide
  exact (sizeExact_iff built_exampleHeap.heap hsent (by decide) (by decide) hapart 7 0).mpr
    (by decide)

/-- A chain with one property of 65526 bytes. -/
def largeChain : List ProtoStackObjectProperty :=
  [⟨ProtoObjectPropertyKey.payload.code, List.replicate 65526 7, 65526,
    Nat.le_of_eq (List.length_replicate (n := 65526)).symm⟩]

theorem length_chainProperties_largeChain : (chainProperties largeChain).length ≤ 255 := by
  rw [length_chainProperties]
  exact (List.length_filter_le _ largeChain).trans (show 1 ≤ 255 by decide)

theorem encodedSize_largeChain : encodedSize largeChain = 65529 := by
  rw [largeChain, encodedSize_cons_of_ne (by decide)]
  rfl

/-- An object of 65529 bytes makes a frame of exactly 2^16 bytes. -/
theorem not_sizeExact_of_encodedSize {chain : List ProtoStackObjectProperty}
    (hcount : (chainProperties chain).length ≤ 255) (hsize : encodedSize chain = 65529) :
    ¬ SizeExact .pc (protoObjectAllocate .pc (fun _ => 0) 8192 chain hcount).mem 131072 [8192]
      7 0 := by
  let block : Block := ⟨8192, chainProperties chain⟩
  have hbody : (bodyBytes (chainProperties chain)).length = 65529 :=
    (length_bodyBytes_chainProperties chain).trans hsize
  have hframe : frameSize ([block].map Block.properties) = 65531 := by
    rw [List.map_cons, List.map_nil, frameSize_cons, hbody, frameSize_nil]
  have hblock : block.size .pc ≤ 131072 - 8192 := by
    have htable : ((chainProperties chain).length + 1) * 8 ≤ 256 * 8 :=
      Nat.mul_le_mul_right 8 (by omega)
    rw [Block.size, hbody, dataOffset, sizeofProtoObject, sizeofProtoObjectRequestHeader]
    change 2 + ((chainProperties chain).length + 1) * 8 + 7 + 65529 ≤ _
    omega
  have hbuilt : Built .pc (protoObjectAllocate .pc (fun _ => 0) 8192 chain hcount).mem
      [block] := by
    apply Built.allocate (Built.start _)
    · omega
    · have hspace : 131072 ≤ 256 ^ Platform.pc.pointerSize := by decide
      change 8192 + block.size .pc ≤ _
      omega
    · exact fun b hb => absurd hb List.not_mem_nil
  have hapart : ∀ b ∈ [block],
      Apart 131072 (5 + frameSize ([block].map Block.properties)) b.addr (b.size .pc) := by
    intro b hb
    rw [List.mem_singleton.mp hb]
    right
    change 8192 + block.size .pc ≤ _
    omega
  intro hexact
  have hmod := (hbuilt.heap.sizeExact_iff_mod (fun b hb => hb) (show 1 ≤ 255 by decide) hapart
    7 0).mp hexact
  omega

/-- One property of 65526 bytes makes a frame body of 65531 bytes, which the header field
holds; but the predicted size is 0. -/
theorem not_sizeExact_largeChain :
    frameSize [chainProperties largeChain] ≤ 65535 ∧
      ¬ SizeExact .pc (protoObjectAllocate .pc (fun _ => 0) 8192 largeChain
        length_chainProperties_largeChain).mem 131072 [8192] 7 0 := by
  constructor
  · rw [frameSize_cons, length_bodyBytes_chainProperties, encodedSize_largeChain, frameSize_nil]
    decide
  · exact not_sizeExact_of_encodedSize length_chainProperties_largeChain encodedSize_largeChain

end Serialize

end ZxProto
