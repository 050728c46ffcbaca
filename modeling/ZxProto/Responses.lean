import ZxProto.ErrorReply

/-!
# From appended responses to the wire

A handler appends objects with `server_request_add_response` and returns NULL.
`client_request_complete` counts the list in an `int`, copies it into an array and
hands both to `proto_send`, which takes the number as a `uint8_t` and sums the sizes
in a `uint16_t`.

* `serverRequestAddResponse` — `LL_APPEND`;
* `Transmits` — one frame with all objects, and a header that says its length;
* `wire_answer_objects` — the bytes that `proto_send` hands to the socket;
* `appended_transmitted_iff` — when they are that frame.
-/

namespace ZxProto

open ByteMemory

section Responses

variable {pl : Platform}

/-- `server_request_add_response`: `LL_APPEND`. -/
def serverRequestAddResponse (response : List (SendableObject pl)) (object : SendableObject pl) :
    List (SendableObject pl) :=
  response ++ [object]

/-- The list that a handler leaves, which starts with NULL. -/
theorem foldl_serverRequestAddResponse (appended response : List (SendableObject pl)) :
    appended.foldl serverRequestAddResponse response = response ++ appended := by
  induction appended generalizing response with
  | nil => exact (List.append_nil _).symm
  | cons object appended ih =>
      rw [List.foldl_cons, ih]
      unfold serverRequestAddResponse
      rw [List.append_assoc, List.singleton_append]

/-! ## The frame -/

/-- The body of a frame with the objects. -/
def responseBody (objects : List (SendableObject pl)) : List UInt8 :=
  objects.flatMap fun object => objectWire object.properties

theorem length_responseBody (objects : List (SendableObject pl)) :
    (responseBody objects).length = frameSize (objects.map SendableObject.properties) := by
  induction objects with
  | nil => rfl
  | cons object objects ih =>
      unfold responseBody at ih ⊢
      rw [List.flatMap_cons, List.length_append, length_objectWire, ih, List.map_cons,
        frameSize_cons]

/-- The bytes are one frame, flagged as a response to the request, with exactly the
objects in their order, and a header that says how long its body is. -/
def Transmits (requestId : UInt16) (objects : List (SendableObject pl)) (bytes : List UInt8) :
    Prop :=
  ∃ requestLength : UInt16,
    bytes = headerBytes protoFlagResponse requestLength requestId ++ responseBody objects ∧
      requestLength.toNat = (responseBody objects).length

/-- What `proto_send` takes out of the array, in memory and on the wire. -/
theorem representsAll_objects (objects : List (SendableObject pl)) :
    RepresentsAll pl (objects.map SendableObject.object)
      (objects.map SendableObject.properties) := by
  induction objects with
  | nil => exact .nil
  | cons object objects ih => exact .cons object.represents ih

/-- The bytes that the objects of an answer put on the wire: those that are sent, and
the sum of their sizes modulo 2^16. -/
theorem wire_answer_objects {κ τ : Type} {a : Application pl κ τ} (ha : a.Reliable)
    (requestId : UInt16) (objects : List (SendableObject pl)) (e : Endpoint pl κ τ) :
    (e.answer a requestId (.objects objects)).2.wire = e.wire ++
      (headerBytes protoFlagResponse
        (UInt16.ofNat (frameSize ((sentObjects objects).map SendableObject.properties)))
          requestId ++ responseBody (sentObjects objects)) := by
  have hrepresents := representsAll_objects (sentObjects objects)
  have htake : (objects.map SendableObject.object).take (UInt8.ofNat objects.length).toNat =
      (sentObjects objects).map SendableObject.object := by
    unfold sentObjects
    rw [List.map_take]
  have hbody : ((sentObjects objects).map SendableObject.object).flatMap (objectBytes pl) =
      responseBody (sentObjects objects) := by
    rw [flatMap_objectBytes hrepresents, List.flatMap_map]
    rfl
  simp only [Endpoint.answer]
  rw [protoSend_of_success pl ha.send_nonneg, (sendAll_eq_of_reliable ha _ _).1,
    flatten_sendBuffers_eq, htake, requestSize_eq hrepresents, hbody]
  rfl

/-- A part of the objects takes fewer bytes than all of them. -/
theorem length_responseBody_take_lt {objects : List (SendableObject pl)} {n : Nat}
    (hlt : n < objects.length) :
    (responseBody (objects.take n)).length < (responseBody objects).length := by
  have hsplit : responseBody objects =
      responseBody (objects.take n) ++ responseBody (objects.drop n) := by
    unfold responseBody
    rw [← List.flatMap_append, List.take_append_drop]
  obtain ⟨object, rest, hrest⟩ : ∃ object rest, objects.drop n = object :: rest :=
    List.exists_cons_of_ne_nil (by simpa using hlt)
  rw [hsplit, List.length_append, hrest]
  unfold responseBody
  rw [List.flatMap_cons, List.length_append, length_objectWire]
  omega

/-- **When an answer is transmitted**: its objects fit the two counters. -/
theorem transmits_iff (requestId : UInt16) (objects : List (SendableObject pl)) :
    Transmits requestId objects (headerBytes protoFlagResponse
        (UInt16.ofNat (frameSize ((sentObjects objects).map SendableObject.properties)))
          requestId ++ responseBody (sentObjects objects)) ↔
      objects.length ≤ 255 ∧ frameSize (objects.map SendableObject.properties) < 65536 := by
  constructor
  · rintro ⟨requestLength, hbytes, hlength⟩
    have hle : objects.length ≤ 255 := by
      by_contra hmore
      -- fewer objects are sent than were appended
      have hmod : (UInt8.ofNat objects.length).toNat < objects.length := by
        rw [UInt8.toNat_ofNat']
        omega
      have hshort := length_responseBody_take_lt hmod
      have hsame := congrArg List.length hbytes
      simp only [List.length_append, headerBytes, List.length_cons, length_u16Bytes] at hsame
      rw [sentObjects] at hsame
      omega
    refine ⟨hle, ?_⟩
    rw [← length_responseBody, ← hlength]
    exact requestLength.toNat_lt
  · rintro ⟨hle, hlt⟩
    rw [sentObjects_of_le hle]
    refine ⟨_, rfl, ?_⟩
    rw [UInt16.toNat_ofNat_of_lt' hlt, length_responseBody]

/-! ## The server -/

variable {κ ω : Type} (handlers : List (RequestHandler pl (HandlerPointer κ) ω))
  (address : Nat) (other : Application pl (HandlerPointer κ) (ServerClientHandlers ω))

/-- A request completes, and its handler leaves some objects: they are the answer. -/
theorem wire_react_of_appended (hother : other.Reliable)
    {e : Endpoint pl (HandlerPointer κ) (ServerClientHandlers ω)} (he : Served address e)
    {flags : UInt8} (hrequest : ¬ IsResponse flags) (requestId : UInt16)
    {handler : RequestHandler pl (HandlerPointer κ) ω}
    (hdispatch : dispatch handlers e.app = .ok handler) {appended : List (SendableObject pl)}
    (hne : appended ≠ [])
    (hreturns : ((handler.cb e.app).run (handlerApplication handlers address other)
      (e.completing flags requestId)).1 = ⟨none, appended.foldl serverRequestAddResponse []⟩) :
    let a := handlerApplication handlers address other
    let called := (handler.cb e.app).run a (e.completing flags requestId)
    (e.react a (.completeRequest flags requestId)).wire = called.2.wire ++
      (headerBytes protoFlagResponse
        (UInt16.ofNat (frameSize ((sentObjects appended).map SendableObject.properties)))
          requestId ++ responseBody (sentObjects appended)) := by
  intro a called
  have hreliable : a.Reliable := hother
  have hanswer : called.1.answer = .objects appended := by
    rw [hreturns, foldl_serverRequestAddResponse, List.nil_append]
    exact if_pos (Nat.ne_of_gt (List.length_pos_of_ne_nil hne))
  have hreceived : protoReqRecv a flags requestId e =
      called.2.answer a requestId (.objects appended) := by
    rw [← hanswer]
    exact protoReqRecv_of_dispatch handlers address other hrequest requestId he hdispatch
  rw [← wire_answer_objects hreliable, Endpoint.react, Endpoint.complete, hreceived]
  rfl

/-- **Every appended response is transmitted** exactly if there are at most 255 of
them and the body of the frame is shorter than 2^16 bytes.  The handler may have
issued requests; `sent` is what the socket is handed behind them. -/
theorem appended_transmitted_iff (hother : other.Reliable)
    {e : Endpoint pl (HandlerPointer κ) (ServerClientHandlers ω)} (he : Served address e)
    {flags : UInt8} (hrequest : ¬ IsResponse flags) (requestId : UInt16)
    {handler : RequestHandler pl (HandlerPointer κ) ω}
    (hdispatch : dispatch handlers e.app = .ok handler) {appended : List (SendableObject pl)}
    (hne : appended ≠ [])
    (hreturns : ((handler.cb e.app).run (handlerApplication handlers address other)
      (e.completing flags requestId)).1 = ⟨none, appended.foldl serverRequestAddResponse []⟩) :
    let a := handlerApplication handlers address other
    let called := (handler.cb e.app).run a (e.completing flags requestId)
    (∃ sent, (e.react a (.completeRequest flags requestId)).wire = called.2.wire ++ sent ∧
        Transmits requestId appended sent) ↔
      appended.length ≤ 255 ∧ frameSize (appended.map SendableObject.properties) < 65536 := by
  intro a called
  have hwire := wire_react_of_appended handlers address other hother he hrequest requestId
    hdispatch hne hreturns
  rw [← transmits_iff requestId appended]
  constructor
  · rintro ⟨sent, hsent, htransmits⟩
    rwa [List.append_cancel_left (hsent.symm.trans hwire)] at htransmits
  · intro htransmits
    exact ⟨_, hwire, htransmits⟩

end Responses

/-- An object with one property of one byte. -/
def exampleResponse : SendableObject .pc :=
  .allocate .pc (fun _ => 0) 16384
    [⟨ProtoObjectPropertyKey.payload.code, [7], 1, by decide⟩] (by decide) (by decide)

/-- One response: it is transmitted. -/
theorem appended_transmitted_one :
    let result : HandlerResult .pc := ⟨none, [exampleResponse].foldl serverRequestAddResponse []⟩
    let e := exampleRequested result
    ∃ sent, (e.react (handlerApplication [handlerOfA result] 4096
        (.quiet .pc (HandlerPointer Empty) _)) (.completeRequest 0 1)).wire = sent ∧
      Transmits 1 [exampleResponse] sent := by
  intro result e
  have hserved : Served 4096 e := served_run _ 4096 _ _ fun s hs => absurd hs List.not_mem_nil
  have hrequest : ¬ IsResponse 0 := by decide
  have hdispatch : dispatch [handlerOfA result] e.app = .ok (handlerOfA result) := rfl
  exact (appended_transmitted_iff [handlerOfA result] 4096
    (.quiet .pc (HandlerPointer Empty) (ServerClientHandlers Unit)) (fun _ => rfl) hserved hrequest
    1 hdispatch (List.cons_ne_nil exampleResponse []) rfl).mpr (by decide)

/-- 256 responses: the number is 0 in 8 bits, and the frame is empty. -/
theorem not_transmitted_256 :
    let appended := List.replicate 256 exampleResponse
    let result : HandlerResult .pc := ⟨none, appended.foldl serverRequestAddResponse []⟩
    let e := exampleRequested result
    let wire := (e.react (handlerApplication [handlerOfA result] 4096
        (.quiet .pc (HandlerPointer Empty) _)) (.completeRequest 0 1)).wire
    wire = [0x02, 0x00, 0x00, 0x01, 0x00] ∧ ¬ Transmits 1 appended wire := by
  intro appended result e wire
  have hwire : wire = [0x02, 0x00, 0x00, 0x01, 0x00] := by decide +kernel
  refine ⟨hwire, ?_⟩
  rintro ⟨requestLength, hbytes, -⟩
  have hlength := congrArg List.length hbytes
  have hcount : appended.length = 256 := List.length_replicate
  have hpos : 0 < (responseBody appended).length :=
    length_responseBody_take_lt (n := 0) (Nat.lt_of_lt_of_eq (Nat.succ_pos 255) hcount.symm)
  rw [hwire, List.length_append] at hlength
  simp only [headerBytes, List.length_cons, List.length_append, length_u16Bytes,
    List.length_nil] at hlength
  omega

end ZxProto
