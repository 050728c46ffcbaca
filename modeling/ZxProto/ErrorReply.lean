import ZxProto.Correlation
import ZxProto.Discipline

/-!
# From a handler's text to the error callback

A handler returns a text; `process` wraps it in an object and sends it; the
client receives the frame in pieces, and tells its application.  The text is on
its way as a property, and a property without a value does not survive the
constructor.

* `errorFrame` — the frame with a text, and `finishRequest_errorFrame`, that the
  server sends it;
* `Endpoint.Unanswered` — the latest request at the client, before its response;
* `Endpoint.Reports` — the request was told of the error, and nothing else;
* `errorReply_reported_iff` — the two sides together.
-/

namespace ZxProto

open ByteMemory

/-! ## The frame -/

/-- The properties of the object with a text. -/
def errorProperties (text : CString) : List Property :=
  chainProperties [declareStrProperty ProtoObjectPropertyKey.error.code text]

/-- A text without bytes makes an object without properties. -/
theorem errorProperties_of_nil {text : CString} (hnil : text.bytes = []) :
    errorProperties text = [] := by
  have hzero : (declareStrProperty ProtoObjectPropertyKey.error.code text).valueSize = 0 := by
    show UInt16.ofNat text.bytes.length = 0
    rw [hnil]
    rfl
  unfold errorProperties
  rw [chainProperties_cons_of_empty hzero]
  rfl

/-- What the client finds in the object. -/
theorem errorProperty_errorProperties {text : CString} (hlt : text.bytes.length < 65536) :
    (errorProperty (errorProperties text)).map Property.value =
      if text.bytes ≠ [] then some text.bytes else none := by
  by_cases hnil : text.bytes = []
  · rw [if_neg (not_not.mpr hnil), errorProperties_of_nil hnil]
    rfl
  · have hpos : 1 ≤ text.bytes.length := List.length_pos_of_ne_nil hnil
    obtain ⟨error, hkey, hvalue, hchain⟩ := chainProperties_error hpos hlt
    unfold errorProperties errorProperty
    rw [if_pos hnil, hchain]
    simp [hkey, hvalue]

theorem length_bodyBytes_errorProperties (text : CString) (hlt : text.bytes.length < 65536) :
    (bodyBytes (errorProperties text)).length ≤ text.bytes.length + 3 := by
  by_cases hnil : text.bytes = []
  · rw [errorProperties_of_nil hnil]
    exact Nat.zero_le _
  · obtain ⟨error, -, hvalue, hchain⟩ :=
      chainProperties_error (List.length_pos_of_ne_nil hnil) hlt
    unfold errorProperties
    rw [hchain, bodyBytes_cons, bodyBytes_nil, List.append_nil, Property.length_bytes,
      Property.size, hvalue]
    exact le_rfl

/-- The frame with a text that fits it. -/
def errorFrame (requestId : UInt16) (text : CString) (hle : text.bytes.length ≤ 63) :
    WireFrame where
  flags := protoFlagError ||| protoFlagResponse
  requestId := requestId
  objects := [errorProperties text]
  objects_ne := List.cons_ne_nil _ _
  size_lt := by
    have hlength := length_bodyBytes_errorProperties text (by omega)
    rw [frameSize_cons, frameSize_nil]
    omega

/-- The error reply of `process` is this frame. -/
theorem sendOneBytes_errorObject (pl : Platform) (requestId : UInt16) {text : CString}
    (hle : text.bytes.length ≤ 63) :
    sendOneBytes pl (errorObject pl text) requestId (protoFlagError ||| protoFlagResponse) =
      (errorFrame requestId text hle).bytes := by
  have hlength := length_bodyBytes_errorProperties text (by omega)
  have hrepresents : Represents pl (errorObject pl text) (errorProperties text) :=
    represents_protoObjectAssign pl _ _ _ _ _ (lt_of_le_of_lt hlength (by omega))
  exact sendOneBytes_eq hrepresents (errorFrame requestId text hle) rfl

/-! ## The server -/

section Server

variable {pl : Platform} {κ ω : Type} (handlers : List (RequestHandler pl (HandlerPointer κ) ω))
  (address : Nat) (other : Application pl (HandlerPointer κ) (ServerClientHandlers ω))

/-- A request completes, and its handler returns a text: the frame with the text
is sent behind what the handler has sent. -/
theorem finishRequest_errorFrame (hother : other.Reliable)
    {e : Endpoint pl (HandlerPointer κ) (ServerClientHandlers ω)} (he : Served address e)
    {proto : ProtoProcess} (hrequest : ¬ IsResponse proto.recvFlags)
    {handler : RequestHandler pl (HandlerPointer κ) ω}
    (hdispatch : dispatch handlers e.app = .ok handler) {text : CString}
    {responses : List (SendableObject pl)}
    (hreturns : ((handler.cb e.app).run (handlerApplication handlers address other)
      (e.completing proto.recvFlags proto.requestId)).1 = ⟨some text, responses⟩)
    (hle : text.bytes.length ≤ 63) :
    let a := handlerApplication handlers address other
    let called := (handler.cb e.app).run a (e.completing proto.recvFlags proto.requestId)
    let done := finishRequest pl (reqHost a) proto e
    done.1 = true ∧
      done.2.wire = called.2.wire ++ (errorFrame proto.requestId text hle).bytes := by
  intro a called done
  have hreliable : a.Reliable := hother
  have hreceived : protoReqRecv a proto.recvFlags proto.requestId e = (some text, called.2) := by
    rw [protoReqRecv_of_dispatch handlers address other hrequest proto.requestId he hdispatch,
      hreturns]
    rfl
  have hcompleted : (reqHost a).completeRequest proto e =
      (some text, called.2.noteReply proto.recvFlags proto.requestId text) := by
    simp only [reqHost, hreceived]
  have hsent := protoSendOne_of_success pl hreliable.send_nonneg (errorObject pl text)
    proto.requestId (protoFlagError ||| protoFlagResponse)
    (called.2.noteReply proto.recvFlags proto.requestId text)
  rw [hreliable.send_eq, sendOneBytes_errorObject pl proto.requestId hle] at hsent
  show (finishRequest pl (reqHost a) proto e).1 = true ∧
    (finishRequest pl (reqHost a) proto e).2.wire = _
  simp only [finishRequest, hcompleted]
  rw [show (reqHost a).send = Endpoint.send a from rfl, hsent]
  exact ⟨rfl, rfl⟩

end Server

/-! ## The client -/

section Client

variable {pl : Platform} {κ τ : Type} {a : Application pl κ τ}

/-- A callback for a response with the id of the latest request. -/
def Endpoint.Matches (e : Endpoint pl κ τ) : Callback → Prop
  | .startRequest _ _ _ => False
  | .next flags requestId _ => IsResponse flags ∧ e.processor.currentRequestId = requestId
  | .completeRequest flags requestId =>
      IsResponse flags ∧ e.processor.currentRequestId = requestId

/-- Since the request with the number was issued, no response with its id came. -/
def Endpoint.Awaits (number : Nat) (e : Endpoint pl κ τ) (callback : Callback) : Prop :=
  e.requests.length = number → ¬ e.Matches callback

/-- If the request with the number is the latest, then it has seen nothing yet. -/
structure Endpoint.Unanswered (number : Nat) (e : Endpoint pl κ τ) : Prop where
  log_le : ∀ call ∈ e.log, call.request ≤ e.requests.length
  untold : e.requests.length = number → e.callsOf number = [] ∧ e.processor.objectNum = 0 ∧
    e.processor.notifyError = 0

variable {e e' : Endpoint pl κ τ} {number : Nat}

theorem Endpoint.Unanswered.follows (h : e.Unanswered number) (hfollows : Follows a e e') :
    e'.Unanswered number := by
  have hlog := hfollows.untouched.log
  rcases hfollows.counters with ⟨hrequests, hprocessor⟩ | ⟨hlt, hnum, hnotify⟩
  · refine ⟨?_, ?_⟩
    · rw [hlog, hrequests]
      exact h.log_le
    · rw [hrequests, callsOf_congr hlog, hprocessor]
      exact h.untold
  · refine ⟨?_, ?_⟩
    · rw [hlog]
      exact fun call hcall => (h.log_le call hcall).trans hlt.le
    · rintro rfl
      rw [callsOf_congr hlog]
      exact ⟨callsOf_eq_nil_of_lt h.log_le hlt, hnum, hnotify⟩

theorem Endpoint.Unanswered.settles {e₀ : Endpoint pl κ τ} {callback : Callback}
    (h : e.Unanswered number) (hsettles : Settles a e₀ callback e e') :
    e'.Unanswered number := by
  have hclosed := hsettles.closed
  obtain ⟨hnum, hnotify⟩ := hsettles.counters
  refine ⟨?_, ?_⟩
  · rw [hclosed.log, hclosed.requests]
    exact h.log_le
  · rw [hclosed.requests, callsOf_congr hclosed.log, hnum]
    intro hlatest
    obtain ⟨hcalls, hzero, hquiet⟩ := h.untold hlatest
    refine ⟨hcalls, hzero, ?_⟩
    rcases hnotify with hsame | hcleared
    · rw [hsame, hquiet]
    · exact hcleared

/-- A callback that is no response to the latest request brings nothing for it. -/
theorem brings_of_not_matches {callback : Callback} (hnot : ¬ e.Matches callback) :
    e.brings callback = none ∧
      (e.direct callback).processor.notifyError = e.processor.notifyError := by
  cases callback with
  | startRequest flags size requestId =>
      refine ⟨rfl, ?_⟩
      rw [Endpoint.direct]
      split
      · rfl
      · split <;> rfl
  | next flags requestId contents =>
      refine ⟨if_neg fun hmatch => hnot ⟨hmatch.1, hmatch.2.1⟩, ?_⟩
      by_cases hresponse : IsResponse flags
      · rw [direct_next_of_other hresponse fun hid => hnot ⟨hresponse, hid⟩]
      · rw [Endpoint.direct, if_neg hresponse]
        split <;> rfl
  | completeRequest flags requestId =>
      refine ⟨if_neg hnot, ?_⟩
      by_cases hresponse : IsResponse flags
      · rw [direct_complete_of_other hresponse fun hid => hnot ⟨hresponse, hid⟩]
      · rw [Endpoint.direct, if_neg hresponse]
        rfl

theorem Endpoint.Unanswered.direct (h : e.Unanswered number) {callback : Callback}
    (hawaits : e.Awaits number callback) : (e.direct callback).Unanswered number := by
  refine ⟨direct_log_le h.log_le callback, ?_⟩
  rw [(direct_steady callback e).requests]
  intro hlatest
  obtain ⟨hnone, hnotify⟩ := brings_of_not_matches (hawaits hlatest)
  obtain ⟨hcalls, hnum⟩ := direct_of_brings_none hnone number
  rw [hcalls, hnum, hnotify]
  exact h.untold hlatest

theorem Endpoint.Unanswered.run {acts : List (Act pl κ τ)} (h : e.Unanswered number)
    (hawaits : Along a (Endpoint.Awaits number) acts e) : (e.run a acts).Unanswered number := by
  induction acts generalizing e with
  | nil => exact h
  | cons act acts ih =>
      cases act with
      | script f => exact ih (h.follows (Script.run_follows a _ e)) hawaits
      | callback callback =>
          obtain ⟨hnow, hrest⟩ := hawaits
          obtain ⟨e₁, hfollows, hsettles⟩ := react_eq a callback e
          exact ih (((h.direct hnow).follows hfollows).settles hsettles) hrest

/-- The callback ends a request. -/
def ReqCallback.completes : ReqCallback → Bool
  | .incomingRequest _ _ => false
  | .incomingObject _ _ _ => false
  | .incomingComplete _ _ => false
  | .object _ _ => false
  | .response => true
  | .error _ => true

/-- The calls of `response_callback` and of `error_callback` for a request, with
what they are given. -/
def Endpoint.completions (e : Endpoint pl κ τ) (number : Nat) : List (Option κ × ReqCallback) :=
  ((e.callsOf number).filter fun call => call.callback.completes).map Invocation.made

/-- The object of the frame is copied into the struct, if it holds a text. -/
theorem react_next_errorProperties {text : CString} (hlt : text.bytes.length < 65536)
    {flags : UInt8} (hresponse : IsResponse flags) (herror : IsError flags)
    (hnum : e.processor.objectNum = 0) :
    e.react a (.next flags e.processor.currentRequestId (errorProperties text)) =
      if text.bytes ≠ [] then e.storeError text.bytes else e := by
  have hfind := errorProperty_errorProperties hlt
  rw [Endpoint.react]
  unfold protoReqObjectCallback
  rw [if_pos hresponse, if_neg (not_not.mpr rfl), if_pos herror, if_pos hnum]
  by_cases hnil : text.bytes ≠ []
  · rw [if_pos hnil] at hfind ⊢
    obtain ⟨error, herror, hvalue⟩ := Option.map_eq_some_iff.mp hfind
    rw [herror, ← hvalue]
  · rw [if_neg hnil] at hfind ⊢
    rw [Option.map_eq_none_iff.mp hfind]

theorem completions_invoke (hcalls : e.callsOf e.requests.length = []) (pointer : Option κ)
    {made : ReqCallback} (hcompletes : made.completes = true) :
    (e.invoke pointer made).completions e.requests.length = [(pointer, made)] := by
  have hmade : made.ofRequest = true := by
    cases made <;> first | rfl | cases hcompletes
  unfold Endpoint.completions
  rw [callsOf_invoke e pointer hmade, hcalls, List.nil_append, List.filter_singleton, hcompletes]
  rfl

/-- The header of the frame is only counted, and the object is copied; application code runs
at the end of the frame. -/
theorem log_run_errorFrame {incomingRequest incomingObject incomingComplete : Option κ}
    (he : Installed incomingRequest incomingObject incomingComplete e)
    (hnum : e.processor.objectNum = 0) {text : CString} (hle : text.bytes.length ≤ 63) :
    (e.run a ((errorFrame (UInt16.ofNat e.requests.length) text hle).callbacks.map
      .callback)).log =
        ((if text.bytes ≠ [] then e.beginFrame.storeError text.bytes else e.beginFrame).direct
          (.completeRequest (protoFlagError ||| protoFlagResponse)
            e.processor.currentRequestId)).log := by
  have hresponse := isResponse_error_response
  have herror : IsError (protoFlagError ||| protoFlagResponse) := by decide
  obtain ⟨size, hcallbacks⟩ : ∃ size,
      (errorFrame (UInt16.ofNat e.requests.length) text hle).callbacks =
        [.startRequest (protoFlagError ||| protoFlagResponse) size e.processor.currentRequestId,
          .next (protoFlagError ||| protoFlagResponse) e.processor.currentRequestId
            (errorProperties text),
          .completeRequest (protoFlagError ||| protoFlagResponse)
            e.processor.currentRequestId] := by
    rw [he.currentRequestId]
    exact ⟨_, rfl⟩
  have hheader : e.react a (.startRequest (protoFlagError ||| protoFlagResponse) size
      e.processor.currentRequestId) = e.beginFrame := by
    rw [Endpoint.react]
    unfold protoReqNewRequest
    rw [if_pos hresponse]
  have hobject : e.beginFrame.react a (.next (protoFlagError ||| protoFlagResponse)
      e.processor.currentRequestId (errorProperties text)) =
        if text.bytes ≠ [] then e.beginFrame.storeError text.bytes else e.beginFrame :=
    react_next_errorProperties (by omega) hresponse herror hnum
  rw [hcallbacks, ← hobject, ← hheader, ← react_log (a := a)]
  rfl

/-- **At the client.**  The frame with a text completes the latest request: with
the text if there is one, and as a success if it is empty. -/
theorem completions_errorFrame {incomingRequest incomingObject incomingComplete : Option κ}
    (he : Installed incomingRequest incomingObject incomingComplete e)
    (hunanswered : e.Unanswered e.requests.length) {r : Request pl κ}
    (hlast : e.requests.getLast? = some r) {k : κ} (hk : r.err = some k) {text : CString}
    (hle : text.bytes.length ≤ 63) :
    (e.run a ((errorFrame (UInt16.ofNat e.requests.length) text hle).callbacks.map
      .callback)).completions e.requests.length =
        [if text.bytes ≠ [] then (some k, .error text.bytes) else (r.cb, .response)] := by
  obtain ⟨hcalls, hnum, hnotify⟩ := hunanswered.untold rfl
  have hresponse := isResponse_error_response
  have hlog := log_run_errorFrame (a := a) he hnum hle
  unfold Endpoint.completions
  by_cases hnil : text.bytes ≠ []
  · let e₂ := e.beginFrame.storeError text.bytes
    have herrorCallback : e.processor.errorCallback = some k := by
      rw [he.errorCallback, hlast, Option.bind_some, hk]
    have htext : errorStrText e₂.processor.tail = text.bytes :=
      errorStrText_stored e.processor.tail hle
    have hcomplete := direct_complete_of_raised (e := e₂) hresponse rfl
      (show (1 : UInt8) ≠ 0 by decide) herrorCallback
    rw [if_pos hnil] at hlog ⊢
    have hlast := hlog.trans (congrArg Endpoint.log hcomplete)
    rw [htext] at hlast
    rw [callsOf_congr hlast]
    exact completions_invoke (e := e₂) hcalls (some k) rfl
  · let e₂ := e.beginFrame
    have hresponseCallback : e.processor.responseCallback = r.cb := by
      rw [he.responseCallback, hlast, Option.bind_some]
    have hcomplete := direct_complete_of_quiet (e := e₂) hresponse rfl hnotify
    rw [if_neg hnil] at hlog ⊢
    rw [callsOf_congr (hlog.trans (congrArg Endpoint.log hcomplete)), ← hresponseCallback]
    exact completions_invoke (e := e₂) hcalls _ rfl

end Client

/-! ## Both sides -/

section Both

variable {plS plC : Platform} {κS ω κC τC : Type}

/-- **Error fidelity.**  A request completes at a server with its handlers
attached, and its handler returns a text of at most 63 bytes.  `process` sends a
reply.  A client whose latest request has the id, and has seen no response yet,
receives the reply in any cut, alone or behind bytes of earlier frames: the
request is completed by its error callback, once and with the text, if and only
if the text is not empty. -/
theorem errorReply_reported_iff
    (handlers : List (RequestHandler plS (HandlerPointer κS) ω)) (address : Nat)
    (other : Application plS (HandlerPointer κS) (ServerClientHandlers ω))
    (hother : other.Reliable) {e : Endpoint plS (HandlerPointer κS) (ServerClientHandlers ω)}
    (he : Served address e) {proto : ProtoProcess} (hrequest : ¬ IsResponse proto.recvFlags)
    {handler : RequestHandler plS (HandlerPointer κS) ω}
    (hdispatch : dispatch handlers e.app = .ok handler) {text : CString}
    {responses : List (SendableObject plS)}
    (hreturns : ((handler.cb e.app).run (handlerApplication handlers address other)
      (e.completing proto.recvFlags proto.requestId)).1 = ⟨some text, responses⟩)
    (hle : text.bytes.length ≤ 63) (aC : Application plC κC τC)
    (incomingRequest incomingObject incomingComplete : Option κC) (user : Nat) (app : τC)
    (acts : List (Act plC κC τC)) :
    let a := handlerApplication handlers address other
    let called := (handler.cb e.app).run a (e.completing proto.recvFlags proto.requestId)
    let done := finishRequest plS (reqHost a) proto e
    let start := Endpoint.start plC incomingRequest incomingObject incomingComplete user app
    ∃ reply, done.1 = true ∧ done.2.wire = called.2.wire ++ reply ∧
      ∀ (c : Conn (Endpoint plC κC τC)) (earlier : List UInt8) (cbs : List Callback)
        (rs : List RecvResult) (r : Request plC κC) (k : κC),
        c.app = start.run aC acts → c.ReadyBehind plC earlier cbs →
        (earlier = [] ∨ (reqHost aC).RepliesSent) →
        let waiting := c.app.run aC (cbs.map .callback)
        waiting.requests.getLast? = some r → r.err = some k →
        proto.requestId = UInt16.ofNat waiting.requests.length →
        Along aC (Endpoint.Awaits waiting.requests.length) (acts ++ cbs.map .callback) start →
        Cut plC (reqHost aC) c (earlier ++ reply) rs →
        ((recvAll plC (reqHost aC) c rs).2.app.completions waiting.requests.length =
            [(some k, .error text.bytes)] ↔ text.bytes ≠ []) := by
  intro a called done start
  obtain ⟨hsent, hwire⟩ :=
    finishRequest_errorFrame handlers address other hother he hrequest hdispatch hreturns hle
  refine ⟨(errorFrame proto.requestId text hle).bytes, hsent, hwire, ?_⟩
  intro c earlier cbs rs r k happ hready hreplies waiting hlast hk hid hawaits hcut
  -- the client runs through the callbacks of the earlier frames and of the reply
  have hprops : ∀ props ∈ (errorFrame proto.requestId text hle).objects, Decodable plC props := by
    intro props hprops
    rw [List.mem_singleton.mp hprops]
    exact decodable_of_c rfl ((length_chainProperties_le _).trans (by simp))
  have hcallbacks := hcut.callbacks_frame_behind hready (c.placed_of_c rfl) hreplies hprops
  obtain ⟨made, hmade, hrun⟩ := recvAll_run plC aC c rs
  have hall : made = cbs ++ (errorFrame proto.requestId text hle).callbacks :=
    List.append_cancel_left (hmade.symm.trans hcallbacks)
  rw [hall, List.map_append, Endpoint.run_append] at hrun
  -- what holds of the client when the reply begins
  have hwaiting : waiting = start.run aC (acts ++ cbs.map .callback) := by
    rw [Endpoint.run_append, ← happ]
  have hinstalled : Installed incomingRequest incomingObject incomingComplete waiting :=
    hwaiting ▸ (installed_start user app).run _
  have hempty : start.Unanswered waiting.requests.length := by
    refine ⟨fun call hcall => absurd hcall List.not_mem_nil, fun hzero => ?_⟩
    exact ⟨rfl, rfl, rfl⟩
  have hunanswered : waiting.Unanswered waiting.requests.length := by
    have hend := hempty.run hawaits
    rwa [← hwaiting] at hend
  have hcompletions := completions_errorFrame (a := aC) hinstalled hunanswered hlast hk hle
  rw [hrun, hid, hcompletions]
  constructor
  · intro hreported hnil
    rw [if_neg (not_not.mpr hnil)] at hreported
    have hkind := congrArg (List.map Prod.snd) hreported
    cases hkind
  · intro hne
    rw [if_pos hne]

end Both

/-- A server that has received a request with the ID `a`, up to its completion. -/
def exampleRequested (result : HandlerResult .pc) :
    Endpoint .pc (HandlerPointer Empty) (ServerClientHandlers Unit) :=
  (Endpoint.server .pc 4096 (serverHandlersInit ())).run
    (handlerApplication [handlerOfA result] 4096 (.quiet .pc (HandlerPointer Empty) _))
    [.callback (.startRequest 0 8 1),
      .callback (.next 0 1 (chainProperties
        [declareStrProperty ProtoObjectPropertyKey.id.code (handlerOfA result).name]))]

/-- The struct of `process` when a request with the id 1 completes. -/
def exampleCompleting : ProtoProcess :=
  { protoInit 0 0 with requestId := 1 }

/-- A client that has issued its first request. -/
def exampleClient : Conn (Endpoint .pc Nat Unit) :=
  Conn.init 64 32 (fun _ => 0) ⟨0, []⟩
    ((Endpoint.start .pc none none none 0 ()).run (.quiet .pc Nat Unit)
      [.script fun _ => .request exampleRequest fun _ => .done () ()]) 0

/-- A text, received in two pieces. -/
theorem errorReply_reported_text :
    let reply := (finishRequest .pc (reqHost (handlerApplication
      [handlerOfA ⟨some emptyRequest, []⟩] 4096 (.quiet .pc (HandlerPointer Empty) _)))
      exampleCompleting (exampleRequested ⟨some emptyRequest, []⟩)).2.wire
    (recvAll .pc (reqHost (.quiet .pc Nat Unit)) exampleClient
      [.received (reply.take 4), .received (reply.drop 4)]).2.app.completions 1 =
        [(some 3, .error emptyRequest.bytes)] := by
  intro reply
  have hserved : Served 4096 (exampleRequested ⟨some emptyRequest, []⟩) :=
    served_run _ 4096 _ _ fun s hs => absurd hs List.not_mem_nil
  have hready : exampleClient.ReadyBehind .pc [] [] :=
    (Conn.fresh_init _ _ _ _ _ _).atBoundary.readyBehind .pc
  have hrequest : ¬ IsResponse exampleCompleting.recvFlags := by decide
  have hdispatch : dispatch [handlerOfA ⟨some emptyRequest, []⟩]
      (exampleRequested ⟨some emptyRequest, []⟩).app =
        .ok (handlerOfA ⟨some emptyRequest, []⟩) := rfl
  have hreturns : (((handlerOfA ⟨some emptyRequest, []⟩).cb
      (exampleRequested ⟨some emptyRequest, []⟩).app).run (handlerApplication
        [handlerOfA ⟨some emptyRequest, []⟩] 4096 (.quiet .pc (HandlerPointer Empty) _))
      ((exampleRequested ⟨some emptyRequest, []⟩).completing exampleCompleting.recvFlags
        exampleCompleting.requestId)).1 = ⟨some emptyRequest, []⟩ := rfl
  obtain ⟨reply', -, hwire, hclient⟩ :=
    errorReply_reported_iff [handlerOfA ⟨some emptyRequest, []⟩] 4096
      (.quiet .pc (HandlerPointer Empty) (ServerClientHandlers Unit)) (fun _ => rfl) hserved
      hrequest hdispatch hreturns (by decide) (.quiet .pc Nat Unit) none none none
      0 () [.script fun _ => .request exampleRequest fun _ => .done () ()]
  have hreply : reply = reply' := hwire
  refine (hclient exampleClient [] [] _ exampleRequest 3 rfl hready (Or.inl rfl) rfl rfl rfl
    trivial ⟨?_, ?_, by decide +kernel⟩).mpr (by decide)
  · rw [← hreply]
    decide +kernel
  · intro r hr
    have hcases : r = .received (reply.take 4) ∨ r = .received (reply.drop 4) := by simpa using hr
    rcases hcases with rfl | rfl
    · exact Or.inl (by decide +kernel)
    · exact Or.inl (by decide +kernel)

/-- A handler returns the empty text: the request is completed as a success. -/
theorem not_reported_empty_text :
    let empty : CString := ⟨[], List.not_mem_nil⟩
    let reply := (finishRequest .pc (reqHost (handlerApplication
      [handlerOfA ⟨some empty, []⟩] 4096 (.quiet .pc (HandlerPointer Empty) _)))
      exampleCompleting (exampleRequested ⟨some empty, []⟩)).2.wire
    let completions := (recvAll .pc (reqHost (.quiet .pc Nat Unit)) exampleClient
      [.received reply]).2.app.completions 1
    ¬ completions = [(some 3, .error empty.bytes)] ∧ completions = [(some 2, .response)] := by
  decide +kernel

end ZxProto
