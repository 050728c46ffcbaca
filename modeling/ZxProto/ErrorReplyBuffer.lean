import ZxProto.ErrorReply
import ZxProto.ObjectAllocation

/-!
# The buffer of the error reply

`process` builds the reply to a text in a local buffer of 256 bytes, and
`proto_send_one` fills the header in, in front of the data.  The text is as long as
a handler likes; its length is cut to 16 bits, and the constructor does not look at
the size of the buffer.

* `errorObjectStores`, `sendOneStores` — the writes to the buffer;
* `errorReplyBytes`, `finishRequest_of_text` — what is handed to `send`;
* `CarriesText` — an object with a text, or with as much of it as was sent;
* `ErrorReplyFits`, `errorReplyFits_iff` — when the reply fits its buffer.
-/

namespace ZxProto

open ByteMemory

/-- The size in `declare_object_on_stack(response_object, 256, &error)`. -/
def responseObjectBufferSize : Nat := 256

section Buffer

variable (pl : Platform)

/-! ## The writes -/

/-- The writes of `declare_object_on_stack(response_object, 256, &error)`. -/
def errorObjectStores (text : CString) : List Store :=
  layOutStores pl pl.responseObjectBuffer
    [declareStrProperty ProtoObjectPropertyKey.error.code text]

/-- The writes of `proto_send_one`. -/
def sendOneStores (o : OwnedObject) (requestId : UInt16) (flags : UInt8) : List Store :=
  let d := protoObjectData pl o
  [⟨d, [flags]⟩, ⟨d + 5, u16Bytes o.object.objectSize⟩,
    ⟨d + 1, u16Bytes (o.object.objectSize + 2)⟩, ⟨d + 3, u16Bytes requestId⟩]

/-- The buffer that `proto_send_one` hands to `send` for an error reply. -/
def errorReplyBytes (requestId : UInt16) (text : CString) : List UInt8 :=
  sendOneBytes pl (errorObject pl text) requestId (protoFlagError ||| protoFlagResponse)

/-- The object is what these writes make of the stack. -/
theorem errorObject_mem (text : CString) :
    (errorObject pl text).mem = storeAll pl.stack (errorObjectStores pl text) :=
  layOut_mem pl pl.stack pl.responseObjectBuffer _ ((length_chainProperties_le _).trans (by simp))

/-- What is sent is read after both groups of writes. -/
theorem errorReplyBytes_eq_slice (requestId : UInt16) (text : CString) :
    errorReplyBytes pl requestId text =
      slice
        (storeAll pl.stack (errorObjectStores pl text ++
          sendOneStores pl (errorObject pl text) requestId (protoFlagError ||| protoFlagResponse)))
        (protoObjectData pl (errorObject pl text))
        ((errorObject pl text).object.objectSize.toNat + sizeofProtoObjectRequestHeader) := by
  rw [storeAll_append, ← errorObject_mem]
  rfl

/-- A request completes with a text: `process` sends the reply, and goes on if the socket
took it. -/
theorem finishRequest_of_text {σ : Type} (h : Host σ) (proto : ProtoProcess) (app : σ)
    {text : CString} (hreturns : (h.completeRequest proto app).1 = some text) :
    finishRequest pl h proto app =
      (decide (0 ≤ (h.send (errorReplyBytes pl proto.requestId text)
          (h.completeRequest proto app).2).1),
        (h.send (errorReplyBytes pl proto.requestId text) (h.completeRequest proto app).2).2) := by
  simp only [finishRequest, hreturns]
  rw [protoSendOne, ← errorReplyBytes]
  by_cases hfailed : (h.send (errorReplyBytes pl proto.requestId text)
      (h.completeRequest proto app).2).1 < 0
  · rw [if_pos hfailed, decide_eq_false (Int.not_le.mpr hfailed)]
    rfl
  · rw [if_neg hfailed, decide_eq_true (Int.not_lt.mp hfailed)]
    rfl

/-! ## The reply -/

/-- The object holds a text that is not empty, or a truncation of it; a property without
a value is left out. -/
def CarriesText (text : List UInt8) (properties : List Property) : Prop :=
  if text = [] then
    properties = []
  else
    ∃ error : Property, properties = [error] ∧ error.key = ProtoObjectPropertyKey.error.code ∧
      error.value ≠ [] ∧ error.value <+: text

/-- The reply to a text is built inside the buffer, and what is sent is a frame with the
text. -/
structure ErrorReplyFits (requestId : UInt16) (text : CString) : Prop where
  built : ∀ s ∈ errorObjectStores pl text,
    s.Within pl.responseObjectBuffer responseObjectBufferSize
  header : ∀ s ∈ sendOneStores pl (errorObject pl text) requestId
      (protoFlagError ||| protoFlagResponse),
    s.Within pl.responseObjectBuffer responseObjectBufferSize
  frame : ∃ f : WireFrame, f.flags = protoFlagError ||| protoFlagResponse ∧
    f.requestId = requestId ∧
    (∃ properties, f.objects = [properties] ∧ CarriesText text.bytes properties) ∧
    errorReplyBytes pl requestId text = f.bytes

variable {pl} {requestId : UInt16} {text : CString}

/-- The size of the property is cut to 16 bits. -/
theorem toNat_valueSize_error (text : CString) :
    (declareStrProperty ProtoObjectPropertyKey.error.code text).valueSize.toNat =
      text.bytes.length % 65536 :=
  UInt16.toNat_ofNat'

theorem valueSize_error_eq_zero_iff (text : CString) :
    (declareStrProperty ProtoObjectPropertyKey.error.code text).valueSize = 0 ↔
      text.bytes.length % 65536 = 0 := by
  rw [← toNat_valueSize_error, ← UInt16.toNat_inj]
  rfl

/-- The chain of a text: no property that counts, or one. -/
theorem nonEmpty_error (text : CString) :
    (text.bytes.length % 65536 = 0 →
      nonEmpty [declareStrProperty ProtoObjectPropertyKey.error.code text] = [] ∧
      encodedSize [declareStrProperty ProtoObjectPropertyKey.error.code text] = 0) ∧
    (text.bytes.length % 65536 ≠ 0 →
      nonEmpty [declareStrProperty ProtoObjectPropertyKey.error.code text] =
        [declareStrProperty ProtoObjectPropertyKey.error.code text] ∧
      encodedSize [declareStrProperty ProtoObjectPropertyKey.error.code text] =
        text.bytes.length % 65536 + sizeofProtoObjectProperty) := by
  have hempty := valueSize_error_eq_zero_iff text
  constructor
  · intro hzero
    exact ⟨nonEmpty_cons_of_empty (hempty.mpr hzero) [],
      encodedSize_cons_of_empty (hempty.mpr hzero) []⟩
  · intro hsome
    refine ⟨nonEmpty_cons_of_ne (fun h => hsome (hempty.mp h)) [], ?_⟩
    rw [encodedSize_cons_of_ne fun h => hsome (hempty.mp h), toNat_valueSize_error]
    rfl

theorem length_nonEmpty_error_le (text : CString) :
    (nonEmpty [declareStrProperty ProtoObjectPropertyKey.error.code text]).length ≤ 1 :=
  List.length_filter_le _ _

variable (pl) in
/-- The header lies behind the table. -/
theorem protoObjectData_errorObject (text : CString) :
    protoObjectData pl (errorObject pl text) + sizeofProtoObjectRequestHeader =
      pl.responseObjectBuffer +
        dataOffset pl (nonEmpty [declareStrProperty ProtoObjectPropertyKey.error.code text]).length
        := by
  have hlength : (errorObject pl text).object.properties.length =
      (nonEmpty [declareStrProperty ProtoObjectPropertyKey.error.code text]).length := by
    rw [← length_chainProperties]
    exact length_writeChain_fst pl _ _ _
  rw [protoObjectData, hlength, dataOffset, ← Nat.add_assoc, ← Nat.add_assoc]
  rfl

/-- The object shows the text, up to the size of the property. -/
theorem carriesText_errorProperties (hkept : text.bytes = [] ∨ text.bytes.length % 65536 ≠ 0) :
    CarriesText text.bytes (errorProperties text) := by
  unfold CarriesText
  by_cases hnil : text.bytes = []
  · rw [if_pos hnil]
    exact errorProperties_of_nil hnil
  · have hsome : text.bytes.length % 65536 ≠ 0 := hkept.resolve_left hnil
    rw [if_neg hnil]
    refine ⟨(declareStrProperty ProtoObjectPropertyKey.error.code text).toProperty, ?_, rfl, ?_,
      List.take_prefix _ _⟩
    · rw [errorProperties,
        chainProperties_cons_of_ne fun h => hsome ((valueSize_error_eq_zero_iff text).mp h)]
      rfl
    · show text.bytes.take _ ≠ []
      rw [toNat_valueSize_error, Ne, List.take_eq_nil_iff]
      exact not_or.mpr ⟨hsome, hnil⟩

variable (pl) in
/-- The last write of the reply to a text that is counted. -/
theorem exists_errorObjectStore_back (hsome : text.bytes.length % 65536 ≠ 0) :
    ∃ s ∈ errorObjectStores pl text,
      s.addr + s.bytes.length = pl.responseObjectBuffer +
        (sizeofProtoObject + 2 * pl.pointerSize + sizeofProtoObjectRequestHeader +
          sizeofProtoObjectProperty + text.bytes.length % 65536) := by
  obtain ⟨hchain, hencoded⟩ := (nonEmpty_error text).2 hsome
  have hone :
      0 < (nonEmpty [declareStrProperty ProtoObjectPropertyKey.error.code text]).length := by
    rw [hchain]
    exact Nat.one_pos
  obtain ⟨last, hlast, hend⟩ := exists_dataStore_back hone
    (pl.responseObjectBuffer + dataOffset pl (countChain
      [declareStrProperty ProtoObjectPropertyKey.error.code text] 0 0).2.toNat)
  have hwritten : last ∈ errorObjectStores pl text :=
    (layOutStores_perm pl pl.responseObjectBuffer _).mem_iff.mpr
      (List.mem_cons_of_mem _ (List.mem_append_right _ hlast))
  refine ⟨last, hwritten, ?_⟩
  rw [hend, (toNat_countChain _).2, hchain, hencoded]
  simp only [List.length_singleton, dataOffset]
  omega

/-- The last write is inside only if the buffer takes the whole object. -/
theorem ErrorReplyFits.size_le (h : ErrorReplyFits pl requestId text)
    (hsome : text.bytes.length % 65536 ≠ 0) :
    sizeofProtoObject + 2 * pl.pointerSize + sizeofProtoObjectRequestHeader +
      sizeofProtoObjectProperty + text.bytes.length % 65536 ≤ responseObjectBufferSize := by
  obtain ⟨last, hlast, hend⟩ := exists_errorObjectStore_back pl hsome
  obtain ⟨-, hhi⟩ := h.built last hlast
  omega

/-- The frame has no room for a text that is not counted. -/
theorem ErrorReplyFits.kept (h : ErrorReplyFits pl requestId text) :
    text.bytes = [] ∨ text.bytes.length % 65536 ≠ 0 := by
  by_contra hlost
  obtain ⟨hne, hzero⟩ := not_or.mp hlost
  rw [not_not] at hzero
  obtain ⟨f, -, -, ⟨properties, hobjects, hcarries⟩, hsent⟩ := h.frame
  rw [CarriesText, if_neg hne] at hcarries
  obtain ⟨error, rfl, -, hvalue, -⟩ := hcarries
  -- the object on the stack is empty, that of the frame is not
  have hsize : (errorObject pl text).object.objectSize.toNat = 0 := by
    show (countChain [declareStrProperty ProtoObjectPropertyKey.error.code text] 0 0).1.toNat = 0
    rw [(toNat_countChain _).1, ((nonEmpty_error text).1 hzero).2]
  have hlength := congrArg List.length hsent
  rw [errorReplyBytes, sendOneBytes_eq_sentBody, WireFrame.bytes, hobjects] at hlength
  simp only [headerBytes, List.length_append, List.length_cons, length_u16Bytes, length_sentBody,
    hsize, List.flatMap_cons, List.flatMap_nil, List.append_nil, length_objectWire, bodyBytes_cons,
    Property.length_bytes, Property.size] at hlength
  have hpos : 0 < error.value.length := List.length_pos_of_ne_nil hvalue
  omega

/-- A buffer that takes the pointers, the header and the property takes the data, whether the
text is counted or not. -/
theorem dataEnd_errorObject_le
    (hfits : sizeofProtoObject + 2 * pl.pointerSize + sizeofProtoObjectRequestHeader +
      sizeofProtoObjectProperty + text.bytes.length % 65536 ≤ responseObjectBufferSize) :
    dataOffset pl (nonEmpty [declareStrProperty ProtoObjectPropertyKey.error.code text]).length +
      encodedSize [declareStrProperty ProtoObjectPropertyKey.error.code text] ≤
        responseObjectBufferSize := by
  by_cases hzero : text.bytes.length % 65536 = 0
  · obtain ⟨hchain, hencoded⟩ := (nonEmpty_error text).1 hzero
    have hpointer := pl.pointerSize_pos
    rw [hchain, hencoded, dataOffset, List.length_nil]
    omega
  · obtain ⟨hchain, hencoded⟩ := (nonEmpty_error text).2 hzero
    rw [hchain, hencoded, dataOffset, List.length_singleton]
    omega

/-- The header is written between the table and the data. -/
theorem sendOneStores_errorObject_within (requestId : UInt16) (flags : UInt8)
    (hend : dataOffset pl
      (nonEmpty [declareStrProperty ProtoObjectPropertyKey.error.code text]).length ≤
        responseObjectBufferSize) :
    ∀ s ∈ sendOneStores pl (errorObject pl text) requestId flags,
      s.Within pl.responseObjectBuffer responseObjectBufferSize := by
  have hdata := protoObjectData_errorObject pl text
  have hrows : pl.responseObjectBuffer ≤ protoObjectData pl (errorObject pl text) := by
    rw [protoObjectData, Nat.add_assoc]
    exact Nat.le_add_right _ _
  intro s hs
  unfold Store.Within
  unfold sizeofProtoObjectRequestHeader at hdata
  simp only [sendOneStores, List.mem_cons, List.not_mem_nil, or_false] at hs
  rcases hs with rfl | rfl | rfl | rfl <;>
    simp only [length_u16Bytes, List.length_singleton] <;> omega

/-- Everything is written inside a buffer that takes the whole object. -/
theorem ErrorReplyFits.of_size_le (hkept : text.bytes = [] ∨ text.bytes.length % 65536 ≠ 0)
    (hfits : sizeofProtoObject + 2 * pl.pointerSize + sizeofProtoObjectRequestHeader +
      sizeofProtoObjectProperty + text.bytes.length % 65536 ≤ responseObjectBufferSize) :
    ErrorReplyFits pl requestId text := by
  have hcount := length_nonEmpty_error_le text
  have hend := dataEnd_errorObject_le hfits
  have hsmall : encodedSize [declareStrProperty ProtoObjectPropertyKey.error.code text] < 65533 :=
    lt_of_le_of_lt ((Nat.le_add_left _ _).trans hend) (by decide)
  have hbody : (bodyBytes (errorProperties text)).length =
      encodedSize [declareStrProperty ProtoObjectPropertyKey.error.code text] :=
    length_bodyBytes_chainProperties _
  refine ⟨fun s hs => ?_, ?_, ?_⟩
  · obtain ⟨hlo, hhi⟩ := layOutStores_within pl.responseObjectBuffer (by omega) s hs
    exact ⟨hlo, hhi.trans (by omega)⟩
  · exact sendOneStores_errorObject_within requestId _ ((Nat.le_add_right _ _).trans hend)
  · have hrepresents : Represents pl (errorObject pl text) (errorProperties text) :=
      represents_protoObjectAssign pl _ _ _ _ _ (by rw [← errorProperties, hbody]; omega)
    let f : WireFrame :=
      { flags := protoFlagError ||| protoFlagResponse
        requestId := requestId
        objects := [errorProperties text]
        objects_ne := List.cons_ne_nil _ _
        size_lt := by
          rw [frameSize_cons, frameSize_nil, hbody]
          omega }
    exact ⟨f, rfl, rfl, ⟨_, rfl, carriesText_errorProperties hkept⟩,
      sendOneBytes_eq hrepresents f rfl⟩

/-- **When the error reply fits.**  `process` answers a text by handing one buffer to
`send`.  The reply is built inside its 256 bytes, and is a frame with the text or a
truncation of it, if and only if the 16-bit size of the text leaves room for the two
pointers, the header and the property in front of it, and is not 0 for a text that is
not empty. -/
theorem errorReplyFits_iff {σ : Type} (h : Host σ) (proto : ProtoProcess) (app : σ)
    (hreturns : (h.completeRequest proto app).1 = some text) :
    let sent := h.send (errorReplyBytes pl proto.requestId text) (h.completeRequest proto app).2
    finishRequest pl h proto app = (decide (0 ≤ sent.1), sent.2) ∧
      (ErrorReplyFits pl proto.requestId text ↔
        (text.bytes = [] ∨ text.bytes.length % 65536 ≠ 0) ∧
          sizeofProtoObject + 2 * pl.pointerSize + sizeofProtoObjectRequestHeader +
            sizeofProtoObjectProperty + text.bytes.length % 65536 ≤ responseObjectBufferSize) := by
  refine ⟨finishRequest_of_text pl h proto app hreturns, ?_, ?_⟩
  · intro hreply
    refine ⟨hreply.kept, ?_⟩
    by_cases hzero : text.bytes.length % 65536 = 0
    · have hpointer := pl.pointerSize_le
      rw [hzero, sizeofProtoObject, sizeofProtoObjectRequestHeader, sizeofProtoObjectProperty,
        responseObjectBufferSize]
      omega
    · exact hreply.size_le hzero
  · rintro ⟨hkept, hfits⟩
    exact .of_size_le hkept hfits

end Buffer

/-- The reply to `"Empty request"` fits. -/
theorem errorReplyFits_emptyRequest :
    let sent := (reqHost (handlerApplication [handlerOfA ⟨some emptyRequest, []⟩] 4096
      (.quiet .pc (HandlerPointer Empty) _))).send (errorReplyBytes .pc 1 emptyRequest)
      ((reqHost (handlerApplication [handlerOfA ⟨some emptyRequest, []⟩] 4096
        (.quiet .pc (HandlerPointer Empty) _))).completeRequest exampleCompleting
          (exampleRequested ⟨some emptyRequest, []⟩)).2
    finishRequest .pc (reqHost (handlerApplication [handlerOfA ⟨some emptyRequest, []⟩] 4096
      (.quiet .pc (HandlerPointer Empty) _))) exampleCompleting
        (exampleRequested ⟨some emptyRequest, []⟩) = (decide (0 ≤ sent.1), sent.2) ∧
      ErrorReplyFits .pc 1 emptyRequest := by
  have hreturns : ((reqHost (handlerApplication [handlerOfA ⟨some emptyRequest, []⟩] 4096
      (.quiet .pc (HandlerPointer Empty) _))).completeRequest exampleCompleting
        (exampleRequested ⟨some emptyRequest, []⟩)).1 = some emptyRequest := by
    decide +kernel
  intro sent
  exact (errorReplyFits_iff _ exampleCompleting _ hreturns).imp_right fun hfits =>
    hfits.mpr (by decide)

/-- A text of 256 bytes. -/
def text256 : CString where
  bytes := List.replicate 256 97
  noNul := fun hmem => absurd (List.eq_of_mem_replicate hmem) (by decide)

/-- A handler returns a text of 256 bytes: the request completes with it, and the last
write of the reply ends 28 bytes behind the buffer. -/
theorem not_errorReplyFits_text256 :
    ((reqHost (handlerApplication [handlerOfA ⟨some text256, []⟩] 4096
      (.quiet .pc (HandlerPointer Empty) _))).completeRequest exampleCompleting
        (exampleRequested ⟨some text256, []⟩)).1 = some text256 ∧
    ¬ ErrorReplyFits .pc exampleCompleting.requestId text256 ∧
    ∃ s ∈ errorObjectStores .pc text256,
      s.addr + s.bytes.length =
        Platform.pc.responseObjectBuffer + responseObjectBufferSize + 28 := by
  have hlength : text256.bytes.length = 256 := List.length_replicate
  have hsome : text256.bytes.length % 65536 ≠ 0 := by
    rw [hlength]
    decide
  refine ⟨rfl, ?_, ?_⟩
  · intro hfits
    have hsize := hfits.size_le hsome
    rw [hlength] at hsize
    exact absurd hsize (by decide)
  · obtain ⟨last, hlast, hend⟩ := exists_errorObjectStore_back .pc hsome
    refine ⟨last, hlast, ?_⟩
    rw [hend, hlength]
    rfl

end ZxProto
