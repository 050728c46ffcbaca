import ZxProto.Channel

/-!
# Answers that the client understands

Which answers of a server the client can follow, the frames that they are sent
in, and the calls of the client's callbacks that they should cause.

* `Answer.Ok`, `Answer.contents` — such answers, and what the client sees of
  them;
* `Answer.Ok.wellFormed`, `bounceFrame_wellFormed` — the receiver understands
  their frames;
* `expectedCalls` — the calls that an answer should cause;
* `errorStrText_stored` — what `error_str` shows of an error text.
-/

namespace ZxProto

open ByteMemory

/-! ## Answers that are understood -/

section Answers

variable {pl : Platform}

/-- A text of 1 to 63 bytes, or 1 to 255 objects with at most 14 properties each
whose encoding fits a frame. -/
def Answer.Ok : Answer pl → Prop
  | .nothing => True
  | .text message => 1 ≤ message.bytes.length ∧ message.bytes.length ≤ 63
  | .objects list => list ≠ [] ∧ list.length ≤ 255 ∧
      frameSize (list.map SendableObject.properties) < 65536 ∧
      ∀ object ∈ list, object.properties.length ≤ 14

/-- The objects of the frame with an answer. -/
def Answer.contents : Answer pl → List (List Property)
  | .nothing => []
  | .text message =>
      [chainProperties [declareStrProperty ProtoObjectPropertyKey.error.code message]]
  | .objects list => list.map SendableObject.properties

/-- The object of an error reply holds the text. -/
theorem chainProperties_error {text : CString} (hne : 1 ≤ text.bytes.length)
    (hlt : text.bytes.length < 65536) :
    ∃ error : Property, error.key = ProtoObjectPropertyKey.error.code ∧
      error.value = text.bytes ∧
      chainProperties [declareStrProperty ProtoObjectPropertyKey.error.code text] = [error] := by
  have hsize : (UInt16.ofNat text.bytes.length).toNat = text.bytes.length :=
    UInt16.toNat_ofNat_of_lt' hlt
  have hvalue : (declareStrProperty ProtoObjectPropertyKey.error.code text).valueSize ≠ 0 := by
    intro hzero
    have hlength : (UInt16.ofNat text.bytes.length).toNat = 0 := congrArg UInt16.toNat hzero
    omega
  refine ⟨(declareStrProperty ProtoObjectPropertyKey.error.code text).toProperty, rfl, ?_, ?_⟩
  · show text.bytes.take (UInt16.ofNat text.bytes.length).toNat = text.bytes
    rw [hsize, List.take_length]
  · rw [chainProperties_cons_of_ne hvalue]
    rfl

theorem sentBody_errorObject {text : CString} (hne : 1 ≤ text.bytes.length)
    (hle : text.bytes.length ≤ 63) :
    sentBody pl (errorObject pl text) =
      bodyBytes (chainProperties
        [declareStrProperty ProtoObjectPropertyKey.error.code text]) := by
  obtain ⟨error, -, hvalue, hchain⟩ := chainProperties_error hne (by omega)
  refine (represents_protoObjectAssign pl _ _ _ _ _ ?_).sentBody_eq
  rw [hchain, bodyBytes_cons, bodyBytes_nil, List.append_nil, Property.length_bytes, Property.size,
    hvalue, sizeofProtoObjectProperty]
  omega

/-- The frame with an answer that is understood. -/
theorem Answer.Ok.bodies_eq {answer : Answer pl} (hok : answer.Ok) {requestId : UInt16}
    {during : Nat} {f : SentFrame pl} (hframe : answer.frame? requestId during = some f) :
    f.bodies = answer.contents.map bodyBytes := by
  cases answer with
  | nothing => cases hframe
  | text text =>
      cases hframe
      show [sentBody pl (errorObject pl text)] = _
      rw [sentBody_errorObject hok.1 hok.2]
      rfl
  | objects objects =>
      cases hframe
      show (sentObjects objects).map _ = (objects.map _).map bodyBytes
      rw [sentObjects_of_le hok.2.1, List.map_map]
      exact List.map_congr_left fun object _ => object.represents.sentBody_eq

theorem wellFormed_of_text {f : SentFrame pl} {text : CString} (hne : 1 ≤ text.bytes.length)
    (hle : text.bytes.length ≤ 63) (hbodies : f.bodies = [sentBody pl (errorObject pl text)]) :
    f.WellFormed := by
  obtain ⟨error, -, hvalue, hchain⟩ := chainProperties_error hne (by omega)
  refine ⟨[chainProperties [declareStrProperty ProtoObjectPropertyKey.error.code text]],
    List.cons_ne_nil _ _, ?_, ?_, ?_⟩
  · rw [frameSize_cons, hchain, bodyBytes_cons, bodyBytes_nil, List.append_nil,
      Property.length_bytes, Property.size, hvalue, sizeofProtoObjectProperty, frameSize_nil]
    omega
  · rw [hbodies, sentBody_errorObject hne hle]
    rfl
  · intro props hprops
    rw [List.mem_singleton.mp hprops, hchain, List.length_singleton]
    omega

theorem Answer.Ok.wellFormed {answer : Answer pl} (hok : answer.Ok) {requestId : UInt16}
    {during : Nat} {f : SentFrame pl} (hframe : answer.frame? requestId during = some f) :
    f.WellFormed := by
  have hbodies := hok.bodies_eq hframe
  cases answer with
  | nothing => cases hframe
  | text text =>
      cases hframe
      exact wellFormed_of_text hok.1 hok.2 rfl
  | objects objects =>
      obtain ⟨hne, -, hsize, hcount⟩ := hok
      refine ⟨objects.map SendableObject.properties, by simpa using hne, hsize, hbodies, ?_⟩
      intro props hprops
      obtain ⟨object, hobject, rfl⟩ := List.mem_map.mp hprops
      exact hcount object hobject

/-- An error text is sent in a frame with the error flag. -/
theorem isError_of_text {text : CString} {requestId : UInt16} {during : Nat} {f : SentFrame pl}
    (hframe : (Answer.text text).frame? requestId during = some f) : IsError f.flags := by
  cases hframe
  show IsError (protoFlagError ||| protoFlagResponse)
  decide

theorem not_isError_of_objects {objects : List (SendableObject pl)} {requestId : UInt16}
    {during : Nat} {f : SentFrame pl}
    (hframe : (Answer.objects objects).frame? requestId during = some f) : ¬ IsError f.flags := by
  cases hframe
  show ¬ IsError protoFlagResponse
  decide

/-- The error reply to a stale response is understood. -/
theorem bounceFrame_wellFormed (requestId : UInt16) (during : Nat) :
    (bounceFrame pl requestId during).WellFormed :=
  wellFormed_of_text (by decide) (by decide) rfl

end Answers

/-! ## The calls that an answer should cause -/

/-- The callback is one of those that a request installs. -/
def ReqCallback.ofRequest : ReqCallback → Bool
  | .incomingRequest _ _ => false
  | .incomingObject _ _ _ => false
  | .incomingComplete _ _ => false
  | .object _ _ => true
  | .response => true
  | .error _ => true

/-- The calls of callbacks that the request with a number installed. -/
def Endpoint.callsOf {pl : Platform} {κ τ : Type} (e : Endpoint pl κ τ) (number : Nat) :
    List (Invocation κ) :=
  e.log.filter fun call => call.callback.ofRequest && call.request == number

/-- What is called, and with what. -/
def Invocation.made {κ : Type} (call : Invocation κ) : Option κ × ReqCallback :=
  (call.pointer, call.callback)

section Expected

variable {plC plS : Platform} {κ : Type}

/-- The calls of `object_callback` for some objects. -/
def objectCalls (r : Request plC κ) (objects : List (List Property)) :
    List (Option κ × ReqCallback) :=
  match r.objectCallback with
  | none => []
  | some k => objects.mapIdx fun index contents => (some k, .object (UInt8.ofNat index) contents)

/-- The calls for an answer: the objects with their indices and then `cb`, or
`err` with the text. -/
def expectedCalls (r : Request plC κ) : Answer plS → List (Option κ × ReqCallback)
  | .nothing => []
  | .text message =>
      match r.err with
      | none => []
      | some k => [(some k, .error message.bytes)]
  | .objects list => objectCalls r (list.map SendableObject.properties) ++ [(r.cb, .response)]

theorem objectCalls_of_none {r : Request plC κ} (hnone : r.objectCallback = none)
    (objects : List (List Property)) : objectCalls r objects = [] := by
  rw [objectCalls, hnone]

theorem objectCalls_of_some {r : Request plC κ} {k : κ} (hk : r.objectCallback = some k)
    (objects : List (List Property)) :
    objectCalls r objects =
      objects.mapIdx fun index contents => (some k, .object (UInt8.ofNat index) contents) := by
  rw [objectCalls, hk]

/-- One more object is one more call. -/
theorem objectCalls_take_succ {r : Request plC κ} {k : κ} (hk : r.objectCallback = some k)
    {objects : List (List Property)} {i : Nat} {contents : List Property}
    (hget : objects[i]? = some contents) :
    objectCalls r (objects.take (i + 1)) =
      objectCalls r (objects.take i) ++ [(some k, .object (UInt8.ofNat i) contents)] := by
  have hlt : i < objects.length := (List.getElem?_eq_some_iff.mp hget).1
  rw [objectCalls_of_some hk, objectCalls_of_some hk, List.take_add_one, hget, Option.toList_some,
    List.mapIdx_append, List.length_take_of_le hlt.le]
  simp

end Expected

/-- The calls for the first objects come first. -/
theorem prefix_objectCalls_take {plC : Platform} {κ : Type} (r : Request plC κ)
    (objects : List (List Property)) (k : Nat) :
    objectCalls r (objects.take k) <+: objectCalls r objects := by
  cases hcallback : r.objectCallback with
  | none =>
      rw [objectCalls_of_none hcallback]
      exact List.nil_prefix
  | some pointer =>
      rw [objectCalls_of_some hcallback, objectCalls_of_some hcallback]
      conv => rhs; rw [← List.take_append_drop k objects, List.mapIdx_append]
      exact List.prefix_append _ _

/-- The text that `error_str` shows behind the copy of a text that fits. -/
theorem errorStrText_stored (tail : Memory) {text : CString} (hle : text.bytes.length ≤ 63) :
    errorStrText (storeAll tail [⟨0, text.bytes⟩, ⟨text.bytes.length, [0]⟩]) = text.bytes := by
  -- the text, its zero, and what was there before
  have hcut : 65536 = text.bytes.length + (1 + (65535 - text.bytes.length)) := by omega
  have htext : slice (storeAll tail [⟨0, text.bytes⟩, ⟨text.bytes.length, [0]⟩]) 0
      text.bytes.length = text.bytes := by
    rw [storeAll_cons, storeAll_cons, storeAll_nil,
      slice_store_of_avoids _ (by left; simp), slice_store_self]
  have hzero : slice (storeAll tail [⟨0, text.bytes⟩, ⟨text.bytes.length, [0]⟩])
      (0 + text.bytes.length) 1 = [0] := by
    rw [storeAll_cons, storeAll_cons, storeAll_nil, Nat.zero_add]
    exact slice_store_self _ text.bytes.length [0]
  have hnonzero : ∀ byte ∈ text.bytes, decide (byte ≠ 0) = true := by
    intro byte hbyte
    refine decide_eq_true fun hzero => text.noNul ?_
    rwa [← hzero]
  rw [errorStrText, hcut, slice_add, slice_add, htext, hzero,
    List.takeWhile_append_of_pos hnonzero]
  simp

end ZxProto
