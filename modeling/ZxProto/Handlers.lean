import ZxProto.Output

/-!
# Request handlers

`proto_req_handlers.c`: the server side of the request layer.  The objects of a
request are collected, the first of them names a handler, and what the handler
returns becomes the response.

* `ServerClientHandlers`, `RequestHandler` — the structs;
* `dispatch`, `clientRequestComplete` — a complete request, up to its answer;
* `handlerApplication` — the three library callbacks inside an application;
* `Served` — an endpoint with the handlers attached, whose `user` still points
  at them;
* `responses_of_request` — the responses to a request frame.
-/

namespace ZxProto

open ByteMemory

/-! ## The structs -/

/-- `MAX_RECEIVING_OBJECTS`. -/
def maxReceivingObjects : Nat := 32

/-- `struct server_client_handlers_t`, with the contents of the copies that
`objects` points at; `objects_num` is the length of the list.  The table of
handlers does not change and is a parameter. -/
structure ServerClientHandlers (ω : Type) where
  objects : List (List Property)
  objects_le : objects.length ≤ maxReceivingObjects
  clientUser : ω

/-- `server_handlers_init`. -/
def serverHandlersInit {ω : Type} (clientUser : ω) : ServerClientHandlers ω where
  objects := []
  objects_le := Nat.zero_le _
  clientUser := clientUser

/-- What a handler leaves behind: the text that it returns, or NULL, and the
objects that it appended with `server_request_add_response`. -/
structure HandlerResult (pl : Platform) where
  error : Option CString
  responses : List (SendableObject pl)

/-- `struct request_handler_t`. -/
structure RequestHandler (pl : Platform) (κ ω : Type) where
  name : CString
  cb : ServerClientHandlers ω →
    Script pl κ (ServerClientHandlers ω) (HandlerResult pl)

/-- The addresses of the library's callbacks, and of all other code. -/
inductive HandlerPointer (κ : Type)
  | clientRequestNew
  | clientRequestNewObject
  | clientRequestComplete
  | other (pointer : κ)
deriving DecidableEq

/-- `"Empty request"`. -/
def emptyRequest : CString where
  bytes := ['E', 'm', 'p', 't', 'y', ' ', 'r', 'e', 'q', 'u', 'e', 's', 't'].map
    fun c => UInt8.ofNat c.toNat
  noNul := by decide

/-- `"Unknown req id"`. -/
def unknownReqId : CString where
  bytes := ['U', 'n', 'k', 'n', 'o', 'w', 'n', ' ', 'r', 'e', 'q', ' ', 'i', 'd'].map
    fun c => UInt8.ofNat c.toNat
  noNul := by decide

/-- `"Unknown request"`. -/
def unknownRequest : CString where
  bytes := ['U', 'n', 'k', 'n', 'o', 'w', 'n', ' ', 'r', 'e', 'q', 'u', 'e', 's', 't'].map
    fun c => UInt8.ofNat c.toNat
  noNul := by decide

/-- The string that `copy_str_property` shows: it ends at the first zero. -/
def copyStrProperty (property : Property) : List UInt8 :=
  property.value.takeWhile fun byte => byte ≠ 0

/-- What a handler's result makes of `client_request_complete`. -/
def HandlerResult.answer {pl : Platform} (result : HandlerResult pl) : Answer pl :=
  match result.error with
  | some text => .text text
  | none => if result.responses.length ≠ 0 then .objects result.responses else .nothing

/-- Apply a function to the result of application code. -/
def Script.map {pl : Platform} {κ τ α β : Type} (f : α → β) :
    Script pl κ τ α → Script pl κ τ β
  | .done result app => .done (f result) app
  | .request r next => .request r fun status => (next status).map f

section Handlers

variable {pl : Platform} {κ ω : Type}

/-- `HASH_FIND_STR`, on names that differ. -/
def findHandler (handlers : List (RequestHandler pl κ ω)) (requestId : List UInt8) :
    Option (RequestHandler pl κ ω) :=
  handlers.find? fun handler => handler.name.bytes == requestId

/-- `client_request_complete`, up to the call of a handler: the handler, or the
text that is returned instead. -/
def dispatch (handlers : List (RequestHandler pl κ ω)) (h : ServerClientHandlers ω) :
    Except CString (RequestHandler pl κ ω) :=
  match h.objects with
  | [] => .error emptyRequest
  | firstObject :: _ =>
      match firstObject.find? fun p => p.key == ProtoObjectPropertyKey.id.code with
      | none => .error unknownReqId
      -- the ID ends at its first zero byte, as `HASH_FIND_STR` sees it
      | some id =>
          match findHandler handlers (copyStrProperty id) with
          | none => .error unknownRequest
          | some handler => .ok handler

/-! ## The library's callbacks -/

/-- `client_request_new`. -/
def clientRequestNew (h : ServerClientHandlers ω) : ServerClientHandlers ω where
  objects := []
  objects_le := Nat.zero_le _
  clientUser := h.clientUser

/-- `client_request_new_object`. -/
def clientRequestNewObject (object : List Property) (h : ServerClientHandlers ω) :
    ServerClientHandlers ω :=
  -- further objects are dropped
  if hfull : h.objects.length ≥ maxReceivingObjects then
    h
  else
    { objects := h.objects ++ [object]
      objects_le := by
        rw [List.length_append, List.length_singleton]
        omega
      clientUser := h.clientUser }

/-- `client_request_complete`. -/
def clientRequestComplete (handlers : List (RequestHandler pl κ ω))
    (h : ServerClientHandlers ω) : Script pl κ (ServerClientHandlers ω) (Answer pl) :=
  match dispatch handlers h with
  | .error text => .done (.text text) h
  | .ok handler => (handler.cb h).map HandlerResult.answer

/-- The library's callbacks, for the struct at `address`, inside an application.
They act on the struct that `user` points at; there is none at other addresses. -/
def handlerApplication (handlers : List (RequestHandler pl (HandlerPointer κ) ω)) (address : Nat)
    (other : Application pl (HandlerPointer κ) (ServerClientHandlers ω)) :
    Application pl (HandlerPointer κ) (ServerClientHandlers ω) :=
  { other with
    incomingRequest := fun k flags requestId user h =>
      match k with
      | .clientRequestNew =>
          .done () (if user = littleEndian pl.pointerSize address then clientRequestNew h else h)
      | k => other.incomingRequest k flags requestId user h
    incomingObject := fun k flags requestId contents user h =>
      match k with
      | .clientRequestNewObject =>
          .done () (if user = littleEndian pl.pointerSize address then
            clientRequestNewObject contents h else h)
      | k => other.incomingObject k flags requestId contents user h
    incomingComplete := fun k flags requestId user h =>
      match k with
      | .clientRequestComplete =>
          if user = littleEndian pl.pointerSize address then
            clientRequestComplete handlers h
          else
            .done .nothing h
      | k => other.incomingComplete k flags requestId user h }

/-- `server_processor_attach_handlers`. -/
def serverProcessorAttachHandlers (pl : Platform) {κ : Type}
    (processor : ProtoReqProcessor (HandlerPointer κ)) (address : Nat) :
    ProtoReqProcessor (HandlerPointer κ) :=
  protoReqInitProcessor pl processor (some .clientRequestNew) (some .clientRequestNewObject)
    (some .clientRequestComplete) address

/-! ## The answer to a request -/

theorem Script.map_run {τ α β : Type} (a : Application pl κ τ) (f : α → β)
    (s : Script pl κ τ α) (e : Endpoint pl κ τ) :
    (s.map f).run a e = (f (s.run a e).1, (s.run a e).2) := by
  induction s generalizing e with
  | done result app => rfl
  | request r next ih => exact ih _ _

/-- A handler returned NULL and appended nothing. -/
theorem HandlerResult.answer_eq_nothing_iff (result : HandlerResult pl) :
    result.answer = .nothing ↔ result = ⟨none, []⟩ := by
  obtain ⟨error, responses⟩ := result
  cases error with
  | some text => simp [HandlerResult.answer]
  | none =>
      cases responses with
      | nil => simp [HandlerResult.answer]
      | cons object objects => simp [HandlerResult.answer]

/-- A handler is called at `e` and returns NULL without any response. -/
def RepliesNothing (handlers : List (RequestHandler pl κ ω))
    (a : Application pl κ (ServerClientHandlers ω)) (h : ServerClientHandlers ω)
    (e : Endpoint pl κ (ServerClientHandlers ω)) : Prop :=
  ∃ handler, dispatch handlers h = .ok handler ∧ ((handler.cb h).run a e).1 = ⟨none, []⟩

theorem clientRequestComplete_eq_nothing_iff (handlers : List (RequestHandler pl κ ω))
    (a : Application pl κ (ServerClientHandlers ω)) (h : ServerClientHandlers ω)
    (e : Endpoint pl κ (ServerClientHandlers ω)) :
    ((clientRequestComplete handlers h).run a e).1 = .nothing ↔
      RepliesNothing handlers a h e := by
  rw [clientRequestComplete, RepliesNothing]
  cases dispatch handlers h with
  | error text => simp [Script.run]
  | ok handler => simp [Script.map_run, HandlerResult.answer_eq_nothing_iff]

/-! ## A server along runs -/

/-- The library's callbacks are attached, and `user` points at their struct. -/
structure Served (address : Nat) {τ : Type} (e : Endpoint pl (HandlerPointer κ) τ) : Prop where
  installed : Installed (some .clientRequestNew) (some .clientRequestNewObject)
    (some .clientRequestComplete) e
  user : e.processor.user pl = littleEndian pl.pointerSize address

/-- A server that has done nothing. -/
def Endpoint.server (pl : Platform) {κ τ : Type} (address : Nat) (app : τ) :
    Endpoint pl (HandlerPointer κ) τ :=
  .init (serverProcessorAttachHandlers pl (.zeroed _) address) app

/-- The handlers stay attached, as long as no error text overran `error_str`. -/
theorem served_run {τ : Type} (a : Application pl (HandlerPointer κ) τ) (address : Nat) (app : τ)
    (acts : List (Act pl (HandlerPointer κ) τ))
    (hconfined : ((Endpoint.server pl address app).run a acts).Confined) :
    Served address ((Endpoint.server pl address app).run a acts) := by
  refine ⟨(installed_start address app).run acts, ?_⟩
  have hwritten : (Endpoint.server pl address app : Endpoint pl (HandlerPointer κ) τ).Written
      (store (fun _ => 0) ⟨errorStrSize, littleEndian pl.pointerSize address⟩) := rfl
  rw [hconfined.user_eq (hwritten.run acts)]
  have hself := slice_store_self (fun _ => 0) errorStrSize (littleEndian pl.pointerSize address)
  rwa [length_littleEndian] at hself

/-- What can happen while a frame is received: the server's own code runs, or an
object arrives. -/
def Act.WithinFrame {τ : Type} (flags : UInt8) (requestId : UInt16) :
    Act pl κ τ → Prop
  | .script _ => True
  | .callback cb => ∃ contents, cb = .next flags requestId contents

/-- The responses among some frames. -/
def responses (frames : List (SentFrame pl)) : List (SentFrame pl) :=
  frames.filter fun f => IsResponse f.flags

theorem responses_of_requests {frames : List (SentFrame pl)}
    (hrequests : ∀ f ∈ frames, f.IsRequest) : responses frames = [] := by
  refine List.filter_eq_nil_iff.mpr fun f hf => ?_
  rw [decide_eq_true_eq]
  exact (hrequests f hf).not_isResponse

theorem responses_answer (answer : Answer pl) (requestId : UInt16) (during : Nat) :
    responses (answer.frame? requestId during).toList =
      (answer.frame? requestId during).toList := by
  refine List.filter_eq_self.mpr fun f hf => ?_
  rw [decide_eq_true_eq]
  exact (Answer.frame?_eq_some (Option.mem_toList.mp hf)).2.1

variable (handlers : List (RequestHandler pl (HandlerPointer κ) ω)) (address : Nat)
  (other : Application pl (HandlerPointer κ) (ServerClientHandlers ω))

/-- The endpoint that a handler finds when a request completes. -/
def Endpoint.completing {τ : Type} (flags : UInt8) (requestId : UInt16)
    (e : Endpoint pl (HandlerPointer κ) τ) : Endpoint pl (HandlerPointer κ) τ :=
  e.invoke (some .clientRequestComplete) (.incomingComplete flags requestId)

/-- A request completes that names a handler: the handler is called, and what it leaves
behind is the answer. -/
theorem protoReqRecv_of_dispatch {flags : UInt8} (hrequest : ¬ IsResponse flags)
    (requestId : UInt16) {e : Endpoint pl (HandlerPointer κ) (ServerClientHandlers ω)}
    (he : Served address e) {handler : RequestHandler pl (HandlerPointer κ) ω}
    (hdispatch : dispatch handlers e.app = .ok handler) :
    let a := handlerApplication handlers address other
    let called := (handler.cb e.app).run a (e.completing flags requestId)
    protoReqRecv a flags requestId e = called.2.answer a requestId called.1.answer := by
  intro a called
  have hscript : a.incomingComplete .clientRequestComplete flags requestId
      (e.processor.user pl) e.app = (handler.cb e.app).map HandlerResult.answer := by
    show (if _ then _ else _) = _
    rw [if_pos he.user, clientRequestComplete, hdispatch]
  rw [protoReqRecv, if_neg hrequest, he.installed.incomingComplete]
  show Endpoint.answer a _ _ _ = _
  rw [hscript, ← Endpoint.completing, Script.map_run]

/-- A request that completes gets one response, unless its handler returns NULL
without any. -/
theorem responses_complete {flags : UInt8} (hrequest : ¬ IsResponse flags) (requestId : UInt16)
    {e : Endpoint pl (HandlerPointer κ) (ServerClientHandlers ω)} (he : Served address e) :
    ∃ sent, (e.react (handlerApplication handlers address other)
        (.completeRequest flags requestId)).frames = e.frames ++ sent ∧
      (RepliesNothing handlers (handlerApplication handlers address other) e.app
        (e.completing flags requestId) → responses sent = []) ∧
      (¬ RepliesNothing handlers (handlerApplication handlers address other) e.app
        (e.completing flags requestId) → ∃ f, f.requestId = requestId ∧ responses sent = [f]) := by
  have hframes := complete_frames (a := handlerApplication handlers address other) hrequest
    requestId he.installed.incomingComplete
  have hscript : (handlerApplication handlers address other).incomingComplete
      .clientRequestComplete flags requestId (e.processor.user pl) e.app =
        clientRequestComplete handlers e.app := by
    show (if _ then _ else _) = _
    rw [if_pos he.user]
  rw [hscript, ← Endpoint.completing] at hframes
  have hnothing := clientRequestComplete_eq_nothing_iff handlers
    (handlerApplication handlers address other) e.app (e.completing flags requestId)
  obtain ⟨requests, hissued, hrequests⟩ := (Script.run_follows
    (handlerApplication handlers address other) (clientRequestComplete handlers e.app)
    (e.completing flags requestId)).frames_eq
  generalize hcalled : (clientRequestComplete handlers e.app).run
    (handlerApplication handlers address other) (e.completing flags requestId) = called
    at hnothing hissued
  simp only [hcalled] at hframes
  refine ⟨requests ++ (called.1.frame? requestId called.2.started).toList, ?_, ?_, ?_⟩
  · rw [hframes, hissued, List.append_assoc]
    rfl
  · intro hsilent
    rw [responses, List.filter_append, ← responses, ← responses, responses_of_requests hrequests,
      hnothing.mpr hsilent]
    rfl
  · intro hanswered
    rw [responses, List.filter_append, ← responses, ← responses, responses_of_requests hrequests,
      responses_answer]
    cases hframe : called.1.frame? requestId called.2.started with
    | none =>
        exact absurd (hnothing.mp ((Answer.frame?_eq_none_iff _ _ _).mp hframe)) hanswered
    | some f => exact ⟨f, (Answer.frame?_eq_some hframe).2.2.1, rfl⟩

/-- **One response per request.**  In every run of a server with its handlers
attached, on a socket that takes everything, as long as no error text overran
`error_str`: while a request frame is received and completed, exactly one
response is sent, with the id of the request, unless its handler returns NULL
without having appended a response; then none is. -/
theorem responses_of_request (hother : other.Reliable) (h : ServerClientHandlers ω)
    (before : List (Act pl (HandlerPointer κ) (ServerClientHandlers ω))) {flags : UInt8}
    (hrequest : ¬ IsResponse flags) (size requestId : UInt16)
    {objects : List (Act pl (HandlerPointer κ) (ServerClientHandlers ω))}
    (hobjects : ∀ act ∈ objects, act.WithinFrame flags requestId)
    (hconfined : ((Endpoint.server pl address h).run (handlerApplication handlers address other)
      (before ++ .callback (.startRequest flags size requestId) :: objects)).Confined) :
    let a := handlerApplication handlers address other
    let e := (Endpoint.server pl address h).run a before
    let c := e.run a (.callback (.startRequest flags size requestId) :: objects)
    let e' := c.react a (.completeRequest flags requestId)
    ∃ sent, e'.frames = e.frames ++ sent ∧ e'.wire = e.wire ++ sent.flatMap SentFrame.bytes ∧
      (RepliesNothing handlers a c.app (c.completing flags requestId) → responses sent = []) ∧
      (¬ RepliesNothing handlers a c.app (c.completing flags requestId) →
        ∃ f, f.requestId = requestId ∧ responses sent = [f]) := by
  intro a e c e'
  have hreliable : a.Reliable := hother
  have hserved : Served address c := by
    have hserver := served_run a address h _ hconfined
    rwa [Endpoint.run_append] at hserver
  -- nothing but requests is sent before the frame completes
  have hopen : ∀ act ∈ .callback (.startRequest flags size requestId) :: objects,
      ∀ flags' requestId', act ≠ .callback (.completeRequest flags' requestId') := by
    intro act hact flags' requestId' heq
    subst heq
    rcases List.mem_cons.mp hact with hstart | hmem
    · cases hstart
    · obtain ⟨contents, hnext⟩ := hobjects _ hmem
      cases hnext
  obtain ⟨requests, hframes, hrequests⟩ := run_frames_of_open (a := a) e hopen
  obtain ⟨sent, hsent, hsilent, hanswered⟩ :=
    responses_complete handlers address other hrequest requestId hserved
  have hnew : e'.frames = e.frames ++ (requests ++ sent) := by
    rw [← List.append_assoc, ← hframes]
    exact hsent
  have hresponses : responses (requests ++ sent) = responses sent := by
    rw [responses, List.filter_append, ← responses, responses_of_requests hrequests]
    rfl
  have hempty : (Endpoint.server pl address h :
      Endpoint pl (HandlerPointer κ) (ServerClientHandlers ω)).WireShows := rfl
  have hshows : e.WireShows := hempty.run hreliable before
  have hshows' : e'.WireShows := (hshows.run hreliable _).react hreliable _
  refine ⟨requests ++ sent, hnew, ?_, ?_, ?_⟩
  · rw [hshows', hnew, List.flatMap_append, ← hshows]
  · rw [hresponses]
    exact hsilent
  · rw [hresponses]
    exact hanswered

/-- A handler for the requests with the ID `a`, and what it returns. -/
def handlerOfA (result : HandlerResult .pc) :
    RequestHandler .pc (HandlerPointer Empty) Unit where
  name := ⟨[97], by decide⟩
  cb h := .done result h

/-- A handler that returns a text: the request gets one response. -/
theorem responses_of_request_text :
    let a := handlerApplication [handlerOfA ⟨some emptyRequest, []⟩] 4096
      (Application.quiet .pc (HandlerPointer Empty) (ServerClientHandlers Unit))
    let c := (Endpoint.server .pc 4096 (serverHandlersInit ())).run a
      [.callback (.startRequest 0 6 1),
        .callback (.next 0 1 [⟨ProtoObjectPropertyKey.id.code, [97], by decide⟩])]
    ∃ f, f.requestId = 1 ∧ responses (c.react a (.completeRequest 0 1)).frames = [f] := by
  intro a c
  have hrequest : ¬ IsResponse 0 := by decide
  let objects : List (Act .pc (HandlerPointer Empty) (ServerClientHandlers Unit)) :=
    [.callback (.next 0 1 [⟨ProtoObjectPropertyKey.id.code, [97], by decide⟩])]
  have hobjects : ∀ act ∈ objects, act.WithinFrame 0 1 := by
    intro act hact
    rw [List.mem_singleton.mp hact]
    exact ⟨_, rfl⟩
  obtain ⟨sent, hframes, -, -, hanswered⟩ :=
    responses_of_request [handlerOfA ⟨some emptyRequest, []⟩] 4096
      (Application.quiet .pc (HandlerPointer Empty) (ServerClientHandlers Unit)) (fun _ => rfl)
      (serverHandlersInit ()) [] hrequest 6 1 hobjects (fun s hs => absurd hs List.not_mem_nil)
  have hframes' : (c.react a (.completeRequest 0 1)).frames = sent := hframes
  rw [hframes']
  refine hanswered ?_
  rintro ⟨handler, hdispatch, hresult⟩
  cases hdispatch
  cases hresult

/-- A handler that returns NULL and appends nothing: the request completes, the
handler is called, and nothing is sent. -/
theorem no_response_of_silent_handler :
    let endpoint := (recvProcess .pc
      (reqHost (handlerApplication [handlerOfA ⟨none, []⟩] 4096
        (Application.quiet .pc (HandlerPointer Empty) (ServerClientHandlers Unit))))
      (Conn.init 64 16 (fun _ => 0) ⟨0, []⟩
        (Endpoint.server .pc 4096 (serverHandlersInit ())) 0)
      (.received [0, 6, 0, 1, 0, 4, 0, 1, 0, ProtoObjectPropertyKey.id.code, 97])).2.app
    endpoint.log.map Invocation.callback =
        [.incomingRequest 0 1,
          .incomingObject 0 1 [⟨ProtoObjectPropertyKey.id.code, [97], by decide⟩],
          .incomingComplete 0 1] ∧
      endpoint.frames.length = 0 ∧ endpoint.wire = [] := by
  decide +kernel

end Handlers

end ZxProto
