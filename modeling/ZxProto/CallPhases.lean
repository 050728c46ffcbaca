import ZxProto.LocalCall

/-!
# The phases of a call

Where the frames of a call are between a client that waits for every answer and a server whose
handlers only compute, and what the next callback does at each side.

* `react_header_of_response`, … — the callbacks of a caller; `Attached.react_header`, … — those of
  a server;
* `AtRest`, `Calling`, `Returning` — the frames and the positions in each phase;
* `Returning.react` — the client receives the answer; `Calling.react` — the server receives the
  request;
* `AtRest.run_request` — a request is issued.
-/

namespace ZxProto

open ByteMemory

/-! ## The client's callbacks -/

section Client

variable {pl : Platform} {κ τ : Type} (caller : Caller κ τ) {c : Endpoint pl κ τ}
  {flags : UInt8} {requestId : UInt16}

theorem react_header_of_response (hresponse : IsResponse flags) (size : UInt16) :
    c.react (caller.application pl) (.startRequest flags size requestId) = c.beginFrame := by
  rw [Endpoint.react, protoReqNewRequest, if_pos hresponse]

/-- The object of an error reply. -/
theorem react_object_of_error (hresponse : IsResponse flags) (herror : IsError flags)
    (hid : c.processor.currentRequestId = requestId) (hfirst : c.processor.objectNum = 0)
    {contents : List Property} {error : Property} (hfind : errorProperty contents = some error) :
    c.react (caller.application pl) (.next flags requestId contents) =
      c.storeError error.value := by
  rw [Endpoint.react]
  unfold protoReqObjectCallback
  rw [if_pos hresponse, if_neg (not_not.mpr hid), if_pos herror, if_pos hfirst, hfind]

/-- An object of a response that nobody looks at. -/
theorem react_object_of_none (hresponse : IsResponse flags) (herror : ¬ IsError flags)
    (hid : c.processor.currentRequestId = requestId)
    (hnone : c.processor.requestObjectCallback = none) (contents : List Property) :
    c.react (caller.application pl) (.next flags requestId contents) = c := by
  rw [Endpoint.react]
  unfold protoReqObjectCallback
  rw [if_pos hresponse, if_neg (not_not.mpr hid), if_neg herror, hnone]

theorem react_object_of_some (hresponse : IsResponse flags) (herror : ¬ IsError flags)
    (hid : c.processor.currentRequestId = requestId) {k : κ}
    (hk : c.processor.requestObjectCallback = some k) (contents : List Property) :
    c.react (caller.application pl) (.next flags requestId contents) =
      { c.countObject.invoke (some k) (.object c.processor.objectNum contents) with
        app := caller.requestObject k c.processor.objectNum contents c.app } := by
  rw [Endpoint.react]
  unfold protoReqObjectCallback
  rw [if_pos hresponse, if_neg (not_not.mpr hid), if_neg herror, hk]
  rfl

theorem react_completion_of_error (hresponse : IsResponse flags)
    (hid : c.processor.currentRequestId = requestId) (hraised : c.processor.notifyError ≠ 0)
    {k : κ} (hk : c.processor.errorCallback = some k) :
    c.react (caller.application pl) (.completeRequest flags requestId) =
      { c.invoke (some k) (.error (errorStrText c.processor.tail)) with
        app := caller.error k (errorStrText c.processor.tail) c.app
        processor := { c.processor with notifyError := 0 } } := by
  rw [Endpoint.react, Endpoint.complete, protoReqRecv, if_pos hresponse,
    if_neg (not_not.mpr hid), if_pos hraised, hk]
  rfl

theorem react_completion_of_response (hresponse : IsResponse flags)
    (hid : c.processor.currentRequestId = requestId) (hquiet : c.processor.notifyError = 0)
    {k : κ} (hk : c.processor.responseCallback = some k) :
    c.react (caller.application pl) (.completeRequest flags requestId) =
      { c.invoke (some k) .response with app := caller.response k c.app } := by
  rw [Endpoint.react, Endpoint.complete, protoReqRecv, if_pos hresponse,
    if_neg (not_not.mpr hid), if_neg (not_not.mpr hquiet), hk]
  rfl

end Client

/-! ## The server's callbacks -/

section Server

variable {pl : Platform} {κ ω : Type} {services : List (Service pl ω)} {address : Nat}
  {other : Application pl (HandlerPointer κ) (ServerClientHandlers ω)}
  {e : Endpoint pl (HandlerPointer κ) (ServerClientHandlers ω)}

variable (services address other) in
/-- The application of the server. -/
def serviceApplication : Application pl (HandlerPointer κ) (ServerClientHandlers ω) :=
  handlerApplication (services.map RequestHandler.ofService) address other

/-- The struct is as the handlers were attached to it. -/
def Attached (address : Nat) (e : Endpoint pl (HandlerPointer κ) (ServerClientHandlers ω)) : Prop :=
  e.processor = serverProcessorAttachHandlers pl (.zeroed _) address

theorem Attached.user (h : Attached address e) :
    e.processor.user pl = littleEndian pl.pointerSize address := by
  have hself := slice_store_self (fun _ => 0) errorStrSize (littleEndian pl.pointerSize address)
  rw [length_littleEndian] at hself
  rw [h]
  exact hself

section Handlers

variable {handlers : List (RequestHandler pl (HandlerPointer κ) ω)}

/-- A request begins. -/
theorem Attached.react_header_of_handlers (h : Attached address e) {flags : UInt8}
    (hrequest : ¬ IsResponse flags) (size requestId : UInt16) :
    e.react (handlerApplication handlers address other) (.startRequest flags size requestId) =
      { e.beginFrame.invoke (some .clientRequestNew) (.incomingRequest flags requestId) with
        app := clientRequestNew e.app } := by
  have hpointer : e.beginFrame.processor.incomingRequest = some .clientRequestNew := by
    show e.processor.incomingRequest = _
    rw [h]
    rfl
  have huser : e.beginFrame.processor.user pl = littleEndian pl.pointerSize address := h.user
  rw [Endpoint.react, protoReqNewRequest, if_neg hrequest, hpointer]
  show (Script.run _ (.done () (if _ then _ else _)) _).2 = _
  rw [if_pos huser]
  rfl

/-- An object of a request arrives. -/
theorem Attached.react_object_of_handlers (h : Attached address e) {flags : UInt8}
    (hrequest : ¬ IsResponse flags) (requestId : UInt16) (contents : List Property) :
    e.react (handlerApplication handlers address other) (.next flags requestId contents) =
      { e.invoke (some .clientRequestNewObject) (.incomingObject flags requestId contents) with
        app := clientRequestNewObject contents e.app } := by
  have hpointer : e.processor.incomingObject = some .clientRequestNewObject := by
    rw [h]
    rfl
  rw [Endpoint.react]
  unfold protoReqObjectCallback
  rw [if_neg hrequest, hpointer]
  show (Script.run _ (.done () (if _ then _ else _)) _).2 = _
  rw [if_pos h.user]
  rfl

/-- A request completes: what `client_request_complete` answers is sent. -/
theorem Attached.protoReqRecv_of_done (h : Attached address e) {flags : UInt8}
    (hrequest : ¬ IsResponse flags) (requestId : UInt16) {answer : Answer pl}
    {app : ServerClientHandlers ω}
    (hdone : clientRequestComplete handlers e.app = .done answer app) :
    protoReqRecv (handlerApplication handlers address other) flags requestId e =
      Endpoint.answer (handlerApplication handlers address other) requestId
        { e.completing flags requestId with app := app } answer := by
  have hpointer : e.processor.incomingComplete = some .clientRequestComplete := by
    rw [h]
    rfl
  have hscript : (handlerApplication handlers address other).incomingComplete
      .clientRequestComplete flags requestId (e.processor.user pl) e.app = .done answer app := by
    show (if _ then _ else _) = _
    rw [if_pos h.user, hdone]
  rw [protoReqRecv, if_neg hrequest, hpointer]
  show Endpoint.answer _ _ _ _ = _
  rw [hscript]
  rfl

end Handlers

theorem Attached.react_header (h : Attached address e) {flags : UInt8}
    (hrequest : ¬ IsResponse flags) (size requestId : UInt16) :
    e.react (serviceApplication services address other) (.startRequest flags size requestId) =
      { e.beginFrame.invoke (some .clientRequestNew) (.incomingRequest flags requestId) with
        app := clientRequestNew e.app } :=
  h.react_header_of_handlers hrequest size requestId

theorem Attached.react_object (h : Attached address e) {flags : UInt8}
    (hrequest : ¬ IsResponse flags) (requestId : UInt16) (contents : List Property) :
    e.react (serviceApplication services address other) (.next flags requestId contents) =
      { e.invoke (some .clientRequestNewObject) (.incomingObject flags requestId contents) with
        app := clientRequestNewObject contents e.app } :=
  h.react_object_of_handlers hrequest requestId contents

/-- An answer that is sent changes neither the struct nor the application. -/
theorem complete_of_answer {τ : Type} {a : Application pl κ τ} {e e₁ : Endpoint pl κ τ}
    {flags : UInt8} {requestId : UInt16} {answer : Answer pl}
    (hreceived : protoReqRecv a flags requestId e = e₁.answer a requestId answer) :
    (e.complete a flags requestId).processor = e₁.processor ∧
      (e.complete a flags requestId).app = e₁.app := by
  rw [Endpoint.complete, hreceived]
  cases answer with
  | nothing => exact ⟨rfl, rfl⟩
  | text text =>
      obtain ⟨sends, wire, heq⟩ := e₁.reply_sent (a := a) flags requestId text
      show (e₁.reply a flags requestId text).processor = _ ∧
        (e₁.reply a flags requestId text).app = _
      rw [heq]
      exact ⟨rfl, rfl⟩
  | objects objects =>
      obtain ⟨sends, wire, heq⟩ := e₁.answer_sent (a := a) requestId objects
      show (e₁.answer a requestId (.objects objects)).2.processor = _ ∧
        (e₁.answer a requestId (.objects objects)).2.app = _
      rw [heq]
      exact ⟨rfl, rfl⟩

variable (services other) in
/-- A request with one object completes: the handler's answer is sent. -/
theorem Attached.react_completion (h : Attached address e) {flags : UInt8}
    (hrequest : ¬ IsResponse flags) (requestId : UInt16) {object : List Property}
    (hobjects : e.app.objects = [object]) :
    let served := serveRequest services object e.app.clientUser
    let e' := e.react (serviceApplication services address other) (.completeRequest flags requestId)
    Attached address e' ∧ e'.app.clientUser = served.2 ∧
      e'.frames = e.frames ++ (served.1.frame? requestId e.started).toList := by
  intro served e'
  have hpointer : e.processor.incomingComplete = some .clientRequestComplete := by
    rw [h]
    rfl
  have hscript : (serviceApplication services address other).incomingComplete
      .clientRequestComplete flags requestId (e.processor.user pl) e.app =
        .done served.1 { e.app with clientUser := served.2 } := by
    show (if _ then _ else _) = _
    rw [if_pos h.user, clientRequestComplete_ofService services e.app hobjects]
  have hframes := complete_frames (a := serviceApplication services address other) hrequest
    requestId hpointer
  rw [hscript] at hframes
  have hreceived : protoReqRecv (serviceApplication services address other) flags requestId e =
      Endpoint.answer (serviceApplication services address other) requestId
        { e.completing flags requestId with app := { e.app with clientUser := served.2 } }
        served.1 :=
    h.protoReqRecv_of_done hrequest requestId
      (clientRequestComplete_ofService services e.app hobjects)
  obtain ⟨hprocessor, happ⟩ := complete_of_answer hreceived
  exact ⟨hprocessor.trans h, congrArg ServerClientHandlers.clientUser happ, hframes⟩

end Server

/-! ## Where a call is -/

section Phases

variable {plC plS : Platform} {κ τ κS ω : Type}

/-- The callbacks of a request are installed. -/
structure Prepared (c : Endpoint plC κ τ) (r : Request plC κ) : Prop where
  objectCallback : c.processor.requestObjectCallback = r.objectCallback
  response : c.processor.responseCallback = r.cb
  error : c.processor.errorCallback = r.err
  ok : r.Ok

/-- Everything that was sent was received. -/
structure AtRest (c : Endpoint plC κ τ) (e : Endpoint plS κS (ServerClientHandlers ω))
    (p q : Position) : Prop where
  client : p = ⟨e.frames.length, none⟩
  server : q = ⟨c.frames.length, none⟩

/-- The frame of the request is sent, and the server has not completed it. -/
structure Calling (c : Endpoint plC κ τ) (e : Endpoint plS κS (ServerClientHandlers ω))
    (p q : Position) (r : Request plC κ) : Prop where
  prepared : Prepared c r
  objectNum : c.processor.objectNum = 0
  notifyError : c.processor.notifyError = 0
  client : p = ⟨e.frames.length, none⟩
  request : ∃ g, c.frames[q.completed]? = some g ∧ q.completed + 1 = c.frames.length ∧
    g.flags = 0 ∧ g.requestId = c.processor.currentRequestId ∧
    g.bodies = [bodyBytes r.object.properties]
  server : q.objects = none ∨ q.objects = some 0 ∧ e.app.objects = [] ∨
    q.objects = some 1 ∧ e.app.objects = [r.object.properties]

/-- What the client holds of an answer of which it has received `k` objects, and the calls that
are left. -/
def ReceivedSoFar (c : Endpoint plC κ τ) (r : Request plC κ) (k : Nat)
    (calls : List (Option κ × ReqCallback)) : Answer plS → Prop
  | .nothing => False
  | .text message =>
      calls = expectedCalls r (.text message : Answer plS) ∧ c.processor.objectNum = 0 ∧
        (k = 0 ∧ c.processor.notifyError = 0 ∨
          k = 1 ∧ c.processor.notifyError ≠ 0 ∧ errorStrText c.processor.tail = message.bytes)
  | .objects list =>
      k ≤ list.length ∧ c.processor.notifyError = 0 ∧
        (r.objectCallback ≠ none → c.processor.objectNum = UInt8.ofNat k) ∧
        objectCalls r ((list.map SendableObject.properties).take k) ++ calls =
          expectedCalls r (.objects list)

/-- The frame of the answer is sent, and the client has not completed it. -/
structure Returning (c : Endpoint plC κ τ) (e : Endpoint plS κS (ServerClientHandlers ω))
    (p q : Position) (calls : List (Option κ × ReqCallback)) : Prop where
  server : q = ⟨c.frames.length, none⟩
  answer : ∃ r f during, ∃ answer : Answer plS, Prepared c r ∧ answer.Ok ∧
    answer.frame? c.processor.currentRequestId during = some f ∧
    e.frames[p.completed]? = some f ∧ p.completed + 1 = e.frames.length ∧
    ReceivedSoFar c r (p.objects.getD 0) calls answer

/-- The frames and the positions in a phase.  If the handler answered with nothing, no call is
left, and none comes. -/
inductive InPhase (c : Endpoint plC κ τ) (e : Endpoint plS κS (ServerClientHandlers ω))
    (p q : Position) : CallPhase plC κ → Prop
  | idle (h : AtRest c e p q) : InPhase c e p q .idle
  | calling {r : Request plC κ} (h : Calling c e p q r) : InPhase c e p q (.calling r)
  | returning {calls : List (Option κ × ReqCallback)} (h : Returning c e p q calls) :
      InPhase c e p q (.returning calls)
  | unanswered (h : AtRest c e p q) : InPhase c e p q (.returning [])

/-- Behind the last frame, nothing is due. -/
theorem not_due_of_end {pl : Platform} {frames : List (SentFrame pl)} {callback : Callback}
    {p' : Position} : ¬ Due frames ⟨frames.length, none⟩ callback p' := by
  have hnone : frames[frames.length]? = none := List.getElem?_eq_none le_rfl
  rintro (⟨hf, -⟩ | ⟨hf, -⟩ | ⟨hf, -⟩) <;> exact absurd (hnone.symm.trans hf) (by simp)

/-! ## The client receives -/

section Receive

variable {caller : Caller κ τ} {c c' : Endpoint plC κ τ}
  {e : Endpoint plS κS (ServerClientHandlers ω)} {p p' q : Position} {r : Request plC κ}
  {calls : List (Option κ × ReqCallback)}

/-- What the next callback does at the client: nothing that the application sees, or the first
call that is left. -/
structure Calls (caller : Caller κ τ) (c c' : Endpoint plC κ τ)
    (e : Endpoint plS κS (ServerClientHandlers ω)) (p' q : Position)
    (calls : List (Option κ × ReqCallback)) : Prop where
  frames : c'.frames = c.frames
  made : (c'.app = c.app ∧ Returning c' e p' q calls) ∨
    ∃ call rest, calls = call :: rest ∧ c'.app = caller.call call c.app ∧
      (rest ≠ [] → ∃ k index contents, call = (some k, .object index contents)) ∧
      InPhase c' e p' q (if rest.isEmpty then .idle else .returning rest)

/-- The frame of a text has one object, which holds it. -/
theorem bodies_of_text {text : CString} (hok : (Answer.text text : Answer plS).Ok)
    {requestId : UInt16} {during : Nat} {f : SentFrame plS}
    (hframe : (Answer.text text : Answer plS).frame? requestId during = some f) :
    ∃ error : Property, error.key = ProtoObjectPropertyKey.error.code ∧
      error.value = text.bytes ∧ f.bodies = [bodyBytes [error]] := by
  obtain ⟨error, hkey, hvalue, hchain⟩ :=
    chainProperties_error hok.1 (hok.2.trans_lt (show 63 < 65536 by decide))
  have hbodies := hok.bodies_eq hframe
  rw [Answer.contents, hchain] at hbodies
  exact ⟨error, hkey, hvalue, hbodies⟩

variable (caller) in
/-- The object of a text arrives. -/
theorem ReceivedSoFar.react_text {text : CString} (hok : (Answer.text text : Answer plS).Ok)
    {f : SentFrame plS} {during k : Nat}
    (hframe : (Answer.text text : Answer plS).frame? c.processor.currentRequestId during = some f)
    (hreceived : ReceivedSoFar c r k calls (Answer.text text : Answer plS)) {body : List UInt8}
    (hbody : f.bodies[k]? = some body) :
    ∃ value, c.react (caller.application plC) (.next f.flags f.requestId (bodyContents body)) =
        c.storeError value ∧
      ReceivedSoFar (c.storeError value) r (k + 1) calls (Answer.text text : Answer plS) := by
  obtain ⟨error, hkey, hvalue, hbodies⟩ := bodies_of_text hok hframe
  obtain ⟨-, hresponse, hid, -⟩ := Answer.frame?_eq_some hframe
  obtain ⟨hcalls, hnum, -⟩ := hreceived
  rw [hbodies] at hbody
  have hk : k = 0 := by
    by_contra hne
    rw [List.getElem?_eq_none (by rw [List.length_singleton]; omega)] at hbody
    cases hbody
  subst hk
  obtain rfl : bodyBytes [error] = body := Option.some.inj hbody
  have hfind : errorProperty (bodyContents (bodyBytes [error])) = some error := by
    rw [bodyContents_bodyBytes, errorProperty, List.find?_cons_of_pos (by rw [hkey]; exact BEq.rfl)]
  refine ⟨error.value, react_object_of_error caller hresponse (isError_of_text hframe) hid.symm
    hnum hfind, hcalls, hnum, Or.inr ⟨rfl, show (1 : UInt8) ≠ 0 by decide, ?_⟩⟩
  rw [hvalue]
  exact errorStrText_stored c.processor.tail hok.2

theorem Prepared.storeError (h : Prepared c r) (value : List UInt8) :
    Prepared (c.storeError value) r :=
  ⟨h.objectCallback, h.response, h.error, h.ok⟩

/-- The next object of a response arrives. -/
theorem Returning.object_of_objects {objects : List (SendableObject plS)} {f : SentFrame plS}
    {during k : Nat} (hserver : q = ⟨c.frames.length, none⟩) (hprepared : Prepared c r)
    (hok : (Answer.objects objects).Ok)
    (hframe : (Answer.objects objects).frame? c.processor.currentRequestId during = some f)
    (hf : e.frames[p.completed]? = some f) (hlast : p.completed + 1 = e.frames.length)
    (hreceived : ReceivedSoFar c r k calls (Answer.objects objects)) {body : List UInt8}
    (hbody : f.bodies[k]? = some body) :
    Calls caller c
      (c.react (caller.application plC) (.next f.flags f.requestId (bodyContents body)))
      e ⟨p.completed, some (k + 1)⟩ q calls := by
  obtain ⟨-, hresponse, hid, -⟩ := Answer.frame?_eq_some hframe
  obtain ⟨-, hquiet, hnum, hcalls⟩ := hreceived
  have hnoError := not_isError_of_objects hframe
  -- the body is that of the object
  have hget : (objects.map SendableObject.properties)[k]? = some (bodyContents body) := by
    have hbodies := hok.bodies_eq hframe
    rw [Answer.contents] at hbodies
    rw [hbodies, List.getElem?_map] at hbody
    obtain ⟨props, hprops, rfl⟩ := Option.map_eq_some_iff.mp hbody
    rw [bodyContents_bodyBytes]
    exact hprops
  have hlt : k < objects.length := by
    simpa using (List.getElem?_eq_some_iff.mp hget).1
  cases hcallback : r.objectCallback with
  | none =>
      have hreact := react_object_of_none caller hresponse hnoError hid.symm
        (hprepared.objectCallback.trans hcallback) (bodyContents body)
      rw [hreact]
      refine ⟨rfl, Or.inl ⟨rfl, hserver, r, f, during, _, hprepared, hok, hframe, hf, hlast, hlt,
        hquiet, fun hne => absurd hcallback hne, ?_⟩⟩
      rw [objectCalls_of_none hcallback] at hcalls ⊢
      exact hcalls
  | some pointer =>
      have hne : r.objectCallback ≠ none := by
        rw [hcallback]
        exact Option.some_ne_none pointer
      have hreact := react_object_of_some caller hresponse hnoError hid.symm
        (hprepared.objectCallback.trans hcallback) (bodyContents body)
      have htake := objectCalls_take_succ hcallback hget
      obtain ⟨more, hmore⟩ := prefix_objectCalls_take r (objects.map SendableObject.properties)
        (k + 1)
      have hexpected : objectCalls r ((objects.map SendableObject.properties).take (k + 1)) ++
          (more ++ [(r.cb, .response)]) = expectedCalls r (.objects objects) := by
        rw [← List.append_assoc, hmore]
        rfl
      rw [← hexpected, htake, List.append_assoc] at hcalls
      have hsplit := List.append_cancel_left hcalls
      rw [hreact]
      refine ⟨rfl, Or.inr ⟨_, _, hsplit, ?_, fun _ => ⟨_, _, _, rfl⟩, ?_⟩⟩
      · rw [hnum hne]
        rfl
      · rw [if_neg (by simp)]
        refine .returning ⟨hserver, r, f, during, _, ?_, hok, hframe, hf, hlast, hlt, hquiet,
          fun _ => ?_, hexpected⟩
        · exact ⟨hprepared.objectCallback, hprepared.response, hprepared.error, hprepared.ok⟩
        · show c.processor.objectNum + 1 = _
          rw [hnum hne, Option.getD_some, UInt8.ofNat_add]
          rfl

/-- The completion of an error reply. -/
theorem Returning.completion_of_text {text : CString} {f : SentFrame plS} {during k : Nat}
    (hserver : q = ⟨c.frames.length, none⟩) (hprepared : Prepared c r)
    (hok : (Answer.text text : Answer plS).Ok)
    (hframe : (Answer.text text : Answer plS).frame? c.processor.currentRequestId during = some f)
    (hlast : p.completed + 1 = e.frames.length)
    (hreceived : ReceivedSoFar c r k calls (Answer.text text : Answer plS))
    (hend : f.bodies[k]? = none) :
    Calls caller c (c.react (caller.application plC) (.completeRequest f.flags f.requestId))
      e ⟨p.completed + 1, none⟩ q calls := by
  obtain ⟨error, -, -, hbodies⟩ := bodies_of_text hok hframe
  obtain ⟨-, hresponse, hid, -⟩ := Answer.frame?_eq_some hframe
  obtain ⟨hcalls, -, ⟨rfl, -⟩ | ⟨-, hraised, htext⟩⟩ := hreceived
  · rw [hbodies] at hend
    cases hend
  · obtain ⟨pointer, hpointer⟩ := Option.ne_none_iff_exists'.mp hprepared.ok.err
    rw [react_completion_of_error caller hresponse hid.symm hraised
      (hprepared.error.trans hpointer)]
    refine ⟨rfl, Or.inr ⟨(some pointer, .error text.bytes), [], ?_, ?_, fun hne => absurd rfl hne,
      .idle ⟨?_, hserver⟩⟩⟩
    · rw [hcalls, expectedCalls, hpointer]
    · rw [htext]
      rfl
    · rw [hlast]

/-- The completion of a response. -/
theorem Returning.completion_of_objects {objects : List (SendableObject plS)} {f : SentFrame plS}
    {during k : Nat} (hserver : q = ⟨c.frames.length, none⟩) (hprepared : Prepared c r)
    (hok : (Answer.objects objects).Ok)
    (hframe : (Answer.objects objects).frame? c.processor.currentRequestId during = some f)
    (hlast : p.completed + 1 = e.frames.length)
    (hreceived : ReceivedSoFar c r k calls (Answer.objects objects)) (hend : f.bodies[k]? = none) :
    Calls caller c (c.react (caller.application plC) (.completeRequest f.flags f.requestId))
      e ⟨p.completed + 1, none⟩ q calls := by
  obtain ⟨-, hresponse, hid, -⟩ := Answer.frame?_eq_some hframe
  obtain ⟨-, hquiet, -, hcalls⟩ := hreceived
  have hall : objects.length ≤ k := by
    have hlength := List.getElem?_eq_none_iff.mp hend
    rw [hok.bodies_eq hframe, Answer.contents] at hlength
    simpa using hlength
  rw [List.take_of_length_le (by simpa using hall), expectedCalls] at hcalls
  obtain ⟨pointer, hpointer⟩ := Option.ne_none_iff_exists'.mp hprepared.ok.cb
  rw [react_completion_of_response caller hresponse hid.symm hquiet
    (hprepared.response.trans hpointer)]
  refine ⟨rfl, Or.inr ⟨(some pointer, .response), [], ?_, rfl, fun hne => absurd rfl hne,
    .idle ⟨?_, hserver⟩⟩⟩
  · rw [← hpointer]
    exact List.append_cancel_left hcalls
  · rw [hlast]

variable (caller) in
/-- **The client.**  The next callback does nothing that the application sees, or makes the first
call that is left. -/
theorem Returning.react (h : Returning c e p q calls) {callback : Callback}
    (hdue : Due e.frames p callback p') :
    Calls caller c (c.react (caller.application plC) callback) e p' q calls := by
  obtain ⟨hserver, r, f, during, answer, hprepared, hok, hframe, hf, hlast, hreceived⟩ := h
  cases hdue with
  | @header f' hf' hp =>
      obtain rfl : f' = f := Option.some.inj (hf'.symm.trans hf)
      rw [react_header_of_response caller (Answer.frame?_eq_some hframe).2.1]
      rw [hp] at hreceived
      refine ⟨rfl, Or.inl ⟨rfl, hserver, r, f', during, answer, ?_, hok, hframe, hf, hlast, ?_⟩⟩
      · exact ⟨hprepared.objectCallback, hprepared.response, hprepared.error, hprepared.ok⟩
      · cases answer with
        | nothing => exact hreceived
        | text text => exact hreceived
        | objects objects => exact hreceived
  | @object f' k body hf' hp hbody =>
      obtain rfl : f' = f := Option.some.inj (hf'.symm.trans hf)
      rw [hp, Option.getD_some] at hreceived
      cases answer with
      | nothing => exact hreceived.elim
      | text text =>
          obtain ⟨value, hreact, hnext⟩ := hreceived.react_text caller hok hframe hbody
          rw [hreact]
          exact ⟨rfl, Or.inl ⟨rfl, hserver, r, f', during, _, hprepared.storeError value, hok,
            hframe, hf, hlast, hnext⟩⟩
      | objects objects =>
          exact object_of_objects hserver hprepared hok hframe hf hlast hreceived hbody
  | @completion f' k hf' hp hend =>
      obtain rfl : f' = f := Option.some.inj (hf'.symm.trans hf)
      rw [hp, Option.getD_some] at hreceived
      cases answer with
      | nothing => exact hreceived.elim
      | text text => exact completion_of_text hserver hprepared hok hframe hlast hreceived hend
      | objects objects =>
          exact completion_of_objects hserver hprepared hok hframe hlast hreceived hend

end Receive

/-! ## The server receives -/

section Serve

variable {c : Endpoint plC κ τ} {services : List (Service plS ω)} {address : Nat}
  {other : Application plS (HandlerPointer κS) (ServerClientHandlers ω)}
  {e e' : Endpoint plS (HandlerPointer κS) (ServerClientHandlers ω)} {p q q' : Position}
  {r : Request plC κ}

/-- What the next callback does at the server: it collects, or it serves the request. -/
inductive Serves (services : List (Service plS ω)) (c : Endpoint plC κ τ)
    (e e' : Endpoint plS (HandlerPointer κS) (ServerClientHandlers ω)) (p q' : Position)
    (r : Request plC κ) : Prop
  | collects (hcalling : Calling c e' p q' r) (huser : e'.app.clientUser = e.app.clientUser)
      (hframes : e'.frames = e.frames)
  | serves (huser : e'.app.clientUser =
        (serveRequest services r.object.properties e.app.clientUser).2)
      (hphase : InPhase c e' p q' (.returning
        (expectedCalls r (serveRequest services r.object.properties e.app.clientUser).1)))
      (hframes : ∃ during, e'.frames = e.frames ++
        ((serveRequest services r.object.properties e.app.clientUser).1.frame?
          c.processor.currentRequestId during).toList)

/-- An answer that has just been sent. -/
theorem Prepared.returning (h : Prepared c r) (hnum : c.processor.objectNum = 0)
    (hquiet : c.processor.notifyError = 0) {answer : Answer plS} (hok : answer.Ok)
    {during : Nat} (hframes : e'.frames = e.frames ++
      (answer.frame? c.processor.currentRequestId during).toList)
    (hp : p = ⟨e.frames.length, none⟩) (hq : q' = ⟨c.frames.length, none⟩) :
    InPhase c e' p q' (.returning (expectedCalls r answer)) := by
  cases hframe : answer.frame? c.processor.currentRequestId during with
  | none =>
      rw [hframe, Option.toList_none, List.append_nil] at hframes
      obtain rfl := (Answer.frame?_eq_none_iff _ _ _).mp hframe
      refine .unanswered ⟨?_, hq⟩
      rw [hp, hframes]
  | some f =>
      rw [hframe, Option.toList_some] at hframes
      refine .returning ⟨hq, r, f, during, answer, h, hok, hframe, ?_, ?_, ?_⟩
      · rw [hframes, hp]
        exact List.getElem?_concat_length
      · rw [hframes, hp, List.length_append]
        rfl
      · rw [hp]
        cases answer with
        | nothing => cases hframe
        | text text => exact ⟨rfl, hnum, Or.inl ⟨rfl, hquiet⟩⟩
        | objects objects =>
            refine ⟨Nat.zero_le _, hquiet, fun _ => hnum, ?_⟩
            rw [Option.getD_none, List.take_zero]
            cases hcallback : r.objectCallback with
            | none =>
                rw [objectCalls_of_none hcallback]
                rfl
            | some k =>
                rw [objectCalls_of_some hcallback]
                rfl

variable (other) in
/-- **The server.**  The next callback collects the request, or serves it. -/
theorem Calling.react (h : Calling c e p q r) (hattached : Attached address e)
    (hok : ServicesOk services) {callback : Callback} (hdue : Due c.frames q callback q') :
    Attached address (e.react (serviceApplication services address other) callback) ∧
      Serves services c e (e.react (serviceApplication services address other) callback)
        p q' r := by
  obtain ⟨hprepared, hnum, hquiet, hclient, ⟨g, hg, hlast, hflags, hid, hbodies⟩, hserver⟩ := h
  have hrequest : ¬ IsResponse g.flags := by
    rw [hflags]
    decide
  cases hdue with
  | @header g' hg' hq =>
      obtain rfl : g' = g := Option.some.inj (hg'.symm.trans hg)
      rw [hattached.react_header hrequest]
      exact ⟨hattached, .collects ⟨hprepared, hnum, hquiet, hclient,
        ⟨g', hg, hlast, hflags, hid, hbodies⟩, Or.inr (Or.inl ⟨rfl, rfl⟩)⟩ rfl rfl⟩
  | @object g' k body hg' hq hbody =>
      obtain rfl : g' = g := Option.some.inj (hg'.symm.trans hg)
      rw [hattached.react_object hrequest]
      rcases hserver with hnone | ⟨hzero, hobjects⟩ | ⟨hone, -⟩
      · exact absurd (hnone.symm.trans hq) (by simp)
      · obtain rfl : k = 0 := Option.some.inj (hq.symm.trans hzero)
        rw [hbodies] at hbody
        obtain rfl : bodyBytes r.object.properties = body := Option.some.inj hbody
        have hroom : ¬ e.app.objects.length ≥ maxReceivingObjects := by
          rw [hobjects]
          decide
        rw [clientRequestNewObject, dif_neg hroom]
        refine ⟨hattached, .collects ⟨hprepared, hnum, hquiet, hclient,
          ⟨g', hg, hlast, hflags, hid, hbodies⟩, Or.inr (Or.inr ⟨rfl, ?_⟩)⟩ rfl rfl⟩
        show e.app.objects ++ [bodyContents (bodyBytes r.object.properties)] = _
        rw [hobjects, bodyContents_bodyBytes]
        rfl
      · obtain rfl : k = 1 := Option.some.inj (hq.symm.trans hone)
        rw [hbodies] at hbody
        cases hbody
  | @completion g' k hg' hq hend =>
      obtain rfl : g' = g := Option.some.inj (hg'.symm.trans hg)
      rcases hserver with hnone | ⟨hzero, -⟩ | ⟨hone, hobjects⟩
      · exact absurd (hnone.symm.trans hq) (by simp)
      · obtain rfl : k = 0 := Option.some.inj (hq.symm.trans hzero)
        rw [hbodies] at hend
        cases hend
      · obtain ⟨hattached', huser, hframes⟩ := hattached.react_completion services other
          hrequest g'.requestId hobjects
        have hsent := congrArg (fun id => e.frames ++ ((serveRequest services r.object.properties
          e.app.clientUser).1.frame? id e.started).toList) hid
        have hnew := hframes.trans hsent
        exact ⟨hattached', .serves huser (hprepared.returning hnum hquiet
          (hok.serveRequest_ok _ _) hnew hclient (by rw [hlast])) ⟨_, hnew⟩⟩

end Serve

/-- The phase does not depend on the client's application. -/
theorem InPhase.app {c : Endpoint plC κ τ} {e : Endpoint plS κS (ServerClientHandlers ω)}
    {p q : Position} {phase : CallPhase plC κ} (h : InPhase c e p q phase) (app : τ) :
    InPhase { c with app := app } e p q phase := by
  cases h with
  | idle h => exact .idle ⟨h.client, h.server⟩
  | unanswered h => exact .unanswered ⟨h.client, h.server⟩
  | calling h =>
      exact .calling ⟨⟨h.prepared.objectCallback, h.prepared.response, h.prepared.error,
        h.prepared.ok⟩, h.objectNum, h.notifyError, h.client, h.request, h.server⟩
  | returning h =>
      obtain ⟨hserver, r, f, during, answer, hprepared, hok, hframe, hf, hlast, hreceived⟩ := h
      refine .returning ⟨hserver, r, f, during, answer, ⟨hprepared.objectCallback,
        hprepared.response, hprepared.error, hprepared.ok⟩, hok, hframe, hf, hlast, ?_⟩
      cases answer with
      | nothing => exact hreceived
      | text text => exact hreceived
      | objects objects => exact hreceived

/-- A request is issued when everything is at rest. -/
theorem AtRest.run_request (caller : Caller κ τ) {c : Endpoint plC κ τ}
    {e : Endpoint plS κS (ServerClientHandlers ω)} {p q : Position} (h : AtRest c e p q)
    {r : Request plC κ} (hr : r.Ok) {next : UInt8 → Script plC κ τ Unit} {app : τ}
    (hnext : next 0 = .done () app) :
    let c' := ((Script.request r next).run (caller.application plC) c).2
    c'.app = app ∧ InPhase c' e p q (.calling r) ∧
      ∃ g : SentFrame plC, c'.frames = c.frames ++ [g] ∧
        g.bodies = [bodyBytes r.object.properties] := by
  intro c'
  obtain ⟨sends, wire, hsent⟩ := protoReqSendRequest_sent (caller.application plC) r c
  have hstatus : (protoReqSendRequest (caller.application plC) r c).1 = 0 := by
    rw [protoReqSendRequest, protoSendOne_of_success plC (caller.reliable plC).send_nonneg]
    rfl
  have hc' : c' = { c.install r with sends := sends, wire := wire, app := app } := by
    show ((next _).run (caller.application plC) _).2 = _
    rw [hstatus, hnext, hsent]
    rfl
  have hbody : sentBody plC r.object.object = bodyBytes r.object.properties :=
    r.object.represents.sentBody_eq
  obtain ⟨g, hframes, hflags, hid, hbodies⟩ : ∃ g : SentFrame plC, c'.frames = c.frames ++ [g] ∧
      g.flags = 0 ∧ g.requestId = c'.processor.currentRequestId ∧
      g.bodies = [bodyBytes r.object.properties] := by
    refine ⟨⟨.request (c.requests.length + 1), 0, c.processor.currentRequestId + 1,
      [bodyBytes r.object.properties], c.started⟩, ?_, rfl, ?_, rfl⟩
    · rw [hc', ← hbody]
      rfl
    · rw [hc']
      rfl
  refine ⟨by rw [hc'], .calling ⟨?_, by rw [hc']; rfl, by rw [hc']; rfl, h.client,
    ⟨g, ?_, ?_, hflags, hid, hbodies⟩, ?_⟩, ⟨g, hframes, hbodies⟩⟩
  · rw [hc']
    exact ⟨rfl, rfl, rfl, hr⟩
  · rw [hframes, h.server]
    exact List.getElem?_concat_length
  · rw [hframes, h.server, List.length_append]
    rfl
  · rw [h.server]
    exact Or.inl rfl

end Phases

end ZxProto
