import ZxProto.Callbacks

/-!
# The request layer

`proto_req.c`: requests with an id, responses that are matched against the id of
the latest request, and the six callbacks of `proto_req_processor_t`.  The
functions of this module run inside the callbacks of `process`, and the
application's functions run inside them, and may issue requests from there.

* `ProtoReqProcessor` — the struct; the memory from `error_str` on is kept as
  bytes, because the error path writes there by address;
* `Script`, `Application` — what application code may do at a callback: issue
  requests, one after another, and end with a new state;
* `Endpoint` — one side of a connection, with ghost records of what it did;
* `protoReqSendRequest`, `protoReqNewRequest`, `protoReqObjectCallback`,
  `protoReqRecv` — the functions of the source;
* `reqHost` — the host that `process` runs them on;
* `Endpoint.react`, and `reqHost_actsBy` — what the host does, one callback at a
  time.
-/

namespace ZxProto

open ByteMemory

/-! ## The processor struct -/

/-- `sizeof(error_str)`. -/
def errorStrSize : Nat := 64

/-- `struct proto_req_processor_t`.  A function pointer is a code address, or NULL. -/
structure ProtoReqProcessor (κ : Type) where
  currentRequestId : UInt16
  objectNum : UInt8
  notifyError : UInt8
  requestObjectCallback : Option κ
  responseCallback : Option κ
  errorCallback : Option κ
  incomingRequest : Option κ
  incomingObject : Option κ
  incomingComplete : Option κ
  /-- The memory from `error_str` on: the array, then `user`, then what follows
  the struct. -/
  tail : Memory

/-- The bytes of the field `user`, right behind `error_str`. -/
def ProtoReqProcessor.user {κ : Type} (pl : Platform) (p : ProtoReqProcessor κ) : List UInt8 :=
  slice p.tail errorStrSize pl.pointerSize

/-- A zeroed struct. -/
def ProtoReqProcessor.zeroed (κ : Type) : ProtoReqProcessor κ where
  currentRequestId := 0
  objectNum := 0
  notifyError := 0
  requestObjectCallback := none
  responseCallback := none
  errorCallback := none
  incomingRequest := none
  incomingObject := none
  incomingComplete := none
  tail := fun _ => 0

/-- `proto_req_init_processor`. -/
def protoReqInitProcessor {κ : Type} (pl : Platform) (p : ProtoReqProcessor κ)
    (incomingRequest incomingObject incomingComplete : Option κ) (user : Nat) :
    ProtoReqProcessor κ :=
  { p with
    incomingRequest := incomingRequest
    incomingObject := incomingObject
    incomingComplete := incomingComplete
    tail := store p.tail ⟨errorStrSize, littleEndian pl.pointerSize user⟩ }

/-- The text that `error_str` shows. -/
def errorStrText (tail : Memory) : List UInt8 :=
  (slice tail 0 65536).takeWhile fun byte => byte ≠ 0

/-! ## Application code -/

/-- An object in memory that can be sent, with what it shows: a frame of its own
has a length that fits the header. -/
structure SendableObject (pl : Platform) where
  object : OwnedObject
  properties : List Property
  represents : Represents pl object properties
  size_le : (bodyBytes properties).length ≤ 65533

/-- An object on the heap, as `proto_object_allocate` builds it. -/
def SendableObject.allocate (pl : Platform) (mem : Memory) (rawMalloc : Nat)
    (chain : List ProtoStackObjectProperty) (hcount : (chainProperties chain).length ≤ 255)
    (hsize : (bodyBytes (chainProperties chain)).length ≤ 65533) : SendableObject pl where
  object := protoObjectAllocate pl mem rawMalloc chain hcount
  properties := chainProperties chain
  represents := represents_protoObjectAllocate pl mem rawMalloc chain hcount (by omega)
  size_le := hsize

/-- The arguments of `proto_req_send_request`. -/
structure Request (pl : Platform) (κ : Type) where
  object : SendableObject pl
  objectCallback : Option κ
  cb : Option κ
  err : Option κ

/-- What application code does when it is called: it may issue requests, and
look at what each call returns; it ends with a result and a new state. -/
inductive Script (pl : Platform) (κ τ α : Type)
  | done (result : α) (app : τ)
  | request (r : Request pl κ) (next : UInt8 → Script pl κ τ α)

/-- How an `incoming_complete` callback answers: not at all, with an error text
that it returns, or with objects that it hands to `proto_send`, flagged as a
response to the request, before it returns NULL. -/
inductive Answer (pl : Platform)
  | nothing
  | text (text : CString)
  | objects (objects : List (SendableObject pl))

/-- The application's code at each address, for each type of callback, and its
socket: which of the calls of `send` take the whole buffer; the others fail. -/
structure Application (pl : Platform) (κ τ : Type) where
  incomingRequest : κ → UInt8 → UInt16 → List UInt8 → τ → Script pl κ τ Unit
  incomingObject : κ → UInt8 → UInt16 → List Property → List UInt8 → τ → Script pl κ τ Unit
  incomingComplete : κ → UInt8 → UInt16 → List UInt8 → τ → Script pl κ τ (Answer pl)
  requestObject : κ → UInt8 → List Property → τ → Script pl κ τ Unit
  response : κ → UInt8 → UInt16 → τ → Script pl κ τ Unit
  error : κ → List UInt8 → τ → Script pl κ τ Unit
  accepts : Nat → Bool

/-- An application that only listens, on a socket that takes everything. -/
def Application.quiet (pl : Platform) (κ τ : Type) : Application pl κ τ where
  incomingRequest _ _ _ _ app := .done () app
  incomingObject _ _ _ _ _ app := .done () app
  incomingComplete _ _ _ _ app := .done .nothing app
  requestObject _ _ _ app := .done () app
  response _ _ _ app := .done () app
  error _ _ app := .done () app
  accepts _ := true

/-! ## Endpoints -/

/-- A call through one of the six function pointers, with what it is given. -/
inductive ReqCallback
  | incomingRequest (flags : UInt8) (requestId : UInt16)
  | incomingObject (flags : UInt8) (requestId : UInt16) (contents : List Property)
  | incomingComplete (flags : UInt8) (requestId : UInt16)
  | object (index : UInt8) (contents : List Property)
  | response
  | error (text : List UInt8)
deriving DecidableEq

/-- An entry of the ghost log: the pointer called, the number of requests issued
and of frames started by then. -/
structure Invocation (κ : Type) where
  pointer : Option κ
  callback : ReqCallback
  request : Nat
  frame : Nat
deriving DecidableEq

/-- Why a frame was sent: as a request, as the answer to a request, or as the
error reply to a response. -/
inductive Origin (pl : Platform)
  | request (number : Nat)
  | answer (answer : Answer pl)
  | bounce

/-- An entry of the ghost record of frames: a frame as it was handed to `send`,
and the number of frames that its sender had started to receive by then. -/
structure SentFrame (pl : Platform) where
  origin : Origin pl
  flags : UInt8
  requestId : UInt16
  bodies : List (List UInt8)
  during : Nat

/-- The length in the header of the frame. -/
def SentFrame.size {pl : Platform} (f : SentFrame pl) : UInt16 :=
  UInt16.ofNat (f.bodies.map fun body => body.length + 2).sum

/-- A body on the wire: size, then bytes. -/
def bodyWire (body : List UInt8) : List UInt8 :=
  u16Bytes (UInt16.ofNat body.length) ++ body

/-- The frame on the wire. -/
def SentFrame.bytes {pl : Platform} (f : SentFrame pl) : List UInt8 :=
  headerBytes f.flags f.size f.requestId ++ f.bodies.flatMap bodyWire

/-- One side of a connection. -/
structure Endpoint (pl : Platform) (κ τ : Type) where
  processor : ProtoReqProcessor κ
  app : τ
  /-- The number of calls of `send`. -/
  sends : Nat
  /-- The bytes that the socket took. -/
  wire : List UInt8
  /-- Ghost: the requests issued. -/
  requests : List (Request pl κ)
  /-- Ghost: the number of frames whose header was received. -/
  started : Nat
  /-- Ghost: the calls through function pointers. -/
  log : List (Invocation κ)
  /-- Ghost: the frames that were sent. -/
  frames : List (SentFrame pl)
  /-- Ghost: the writes through `error_str`, by their offset. -/
  writes : List Store

/-- An endpoint that has done nothing. -/
def Endpoint.init {pl : Platform} {κ τ : Type} (processor : ProtoReqProcessor κ) (app : τ) :
    Endpoint pl κ τ where
  processor := processor
  app := app
  sends := 0
  wire := []
  requests := []
  started := 0
  log := []
  frames := []
  writes := []

section Req

variable {pl : Platform} {κ τ α : Type} (a : Application pl κ τ)

/-- `send` on the endpoint's socket. -/
def Endpoint.send (bytes : List UInt8) (e : Endpoint pl κ τ) : Int × Endpoint pl κ τ :=
  if a.accepts e.sends then
    (bytes.length, { e with sends := e.sends + 1, wire := e.wire ++ bytes })
  else
    (-1, { e with sends := e.sends + 1 })

/-- Ghost: a call through a function pointer. -/
def Endpoint.invoke (e : Endpoint pl κ τ) (pointer : Option κ) (callback : ReqCallback) :
    Endpoint pl κ τ :=
  { e with log := e.log ++ [⟨pointer, callback, e.requests.length, e.started⟩] }

/-- Ghost: a header was received. -/
def Endpoint.beginFrame (e : Endpoint pl κ τ) : Endpoint pl κ τ :=
  { e with started := e.started + 1 }

/-- Ghost: a frame is handed to `send`. -/
def Endpoint.note (e : Endpoint pl κ τ) (origin : Origin pl) (flags : UInt8)
    (requestId : UInt16) (bodies : List (List UInt8)) : Endpoint pl κ τ :=
  { e with frames := e.frames ++ [⟨origin, flags, requestId, bodies, e.started⟩] }

/-- `proto_req_send_request`: the struct, before the request is sent. -/
def ProtoReqProcessor.install (p : ProtoReqProcessor κ) (r : Request pl κ) :
    ProtoReqProcessor κ :=
  { p with
    objectNum := 0
    notifyError := 0
    responseCallback := r.cb
    requestObjectCallback := r.objectCallback
    errorCallback := r.err
    -- wraps behind 65535
    currentRequestId := p.currentRequestId + 1 }

/-- The endpoint when a request is about to be sent. -/
def Endpoint.install (e : Endpoint pl κ τ) (r : Request pl κ) : Endpoint pl κ τ :=
  { e with processor := e.processor.install r, requests := e.requests ++ [r] }.note
    (.request (e.requests.length + 1)) 0 (e.processor.currentRequestId + 1)
    [sentBody pl r.object.object]

/-- `proto_req_send_request`. -/
def protoReqSendRequest (r : Request pl κ) (e : Endpoint pl κ τ) : UInt8 × Endpoint pl κ τ :=
  let installed := e.install r
  let sent := protoSendOne pl (Endpoint.send a) r.object.object
    installed.processor.currentRequestId 0 installed
  (UInt8.ofNat sent.1.toNat, sent.2)

/-- Run application code on an endpoint. -/
def Script.run : Script pl κ τ α → Endpoint pl κ τ → α × Endpoint pl κ τ
  | .done result app, e => (result, { e with app := app })
  | .request r next, e =>
      let sent := protoReqSendRequest a r e
      (next sent.1).run sent.2

/-! ## The callbacks that `process` gets -/

/-- `PROTO_FLAG_RESPONSE` is set. -/
abbrev IsResponse (flags : UInt8) : Prop := flags &&& protoFlagResponse ≠ 0

/-- `PROTO_FLAG_ERROR` is set. -/
abbrev IsError (flags : UInt8) : Prop := flags &&& protoFlagError ≠ 0

theorem isResponse_response : IsResponse protoFlagResponse := by decide

theorem isResponse_error_response : IsResponse (protoFlagError ||| protoFlagResponse) := by decide

/-- `proto_req_new_request`. -/
def protoReqNewRequest (recvFlags : UInt8) (requestId : UInt16) (e : Endpoint pl κ τ) :
    Endpoint pl κ τ :=
  if IsResponse recvFlags then
    e
  else
    match e.processor.incomingRequest with
    | some k =>
        ((a.incomingRequest k recvFlags requestId (e.processor.user pl) e.app).run a
          (e.invoke (some k) (.incomingRequest recvFlags requestId))).2
    | none => e

/-- The error path: copy the value into `error_str` and terminate it. -/
def Endpoint.storeError (e : Endpoint pl κ τ) (value : List UInt8) : Endpoint pl κ τ :=
  { e with
    processor := { e.processor with
      tail := storeAll e.processor.tail [⟨0, value⟩, ⟨value.length, [0]⟩]
      notifyError := 1 }
    writes := e.writes ++ [⟨0, value⟩, ⟨value.length, [0]⟩] }

/-- `object_num++`. -/
def Endpoint.countObject (e : Endpoint pl κ τ) : Endpoint pl κ τ :=
  { e with processor := { e.processor with objectNum := e.processor.objectNum + 1 } }

/-- `proto_req_object_callback`; `error` is what `find_property` shows for
`OBJ_PROPERTY_ERROR`. -/
def protoReqObjectCallback (recvFlags : UInt8) (requestId : UInt16) (error : Option Property)
    (contents : List Property) (e : Endpoint pl κ τ) : Endpoint pl κ τ :=
  if IsResponse recvFlags then
    if e.processor.currentRequestId ≠ requestId then
      e
    else if IsError recvFlags then
      if e.processor.objectNum = 0 then
        -- `value_size` is not compared with the size of `error_str`
        match error with
        | some error => e.storeError error.value
        | none => e
      else
        e
    else
      match e.processor.requestObjectCallback with
      | some k =>
          ((a.requestObject k e.processor.objectNum contents e.app).run a
            (e.countObject.invoke (some k) (.object e.processor.objectNum contents))).2
      | none => e
  else
    match e.processor.incomingObject with
    | some k =>
        ((a.incomingObject k recvFlags requestId contents (e.processor.user pl) e.app).run a
          (e.invoke (some k) (.incomingObject recvFlags requestId contents))).2
    | none => e

/-- `"Unknown request id"`. -/
def unknownRequestId : CString where
  bytes := ['U', 'n', 'k', 'n', 'o', 'w', 'n', ' ', 'r', 'e', 'q', 'u', 'e', 's', 't', ' ', 'i',
    'd'].map fun c => UInt8.ofNat c.toNat
  noNul := by decide

/-- The objects that `proto_send` sends out of an array: their number is cut to
8 bits. -/
def sentObjects (objects : List (SendableObject pl)) : List (SendableObject pl) :=
  objects.take (UInt8.ofNat objects.length).toNat

/-- All objects are sent if their number fits 8 bits. -/
theorem sentObjects_of_le {objects : List (SendableObject pl)} (hle : objects.length ≤ 255) :
    sentObjects objects = objects :=
  take_amount hle

/-- What an `incoming_complete` callback does with its answer: the text that it
returns, and the endpoint after its `proto_send`. -/
def Endpoint.answer (requestId : UInt16) (e : Endpoint pl κ τ) :
    Answer pl → Option CString × Endpoint pl κ τ
  | .nothing => (none, e)
  | .text text => (some text, e)
  | .objects objects =>
      (none,
        (protoSend pl (Endpoint.send a) (objects.map SendableObject.object)
          (UInt8.ofNat objects.length) requestId protoFlagResponse
          (e.note (.answer (.objects objects)) protoFlagResponse requestId
            ((sentObjects objects).map fun object => sentBody pl object.object))).2)

/-- `proto_req_recv`.  A call through NULL is recorded, and then nothing happens. -/
def protoReqRecv (recvFlags : UInt8) (requestId : UInt16) (e : Endpoint pl κ τ) :
    Option CString × Endpoint pl κ τ :=
  if IsResponse recvFlags then
    -- a response, too, is answered if its id is not known
    if e.processor.currentRequestId ≠ requestId then
      (some unknownRequestId, e)
    else if e.processor.notifyError ≠ 0 then
      let called :=
        match e.processor.errorCallback with
        | some k =>
            ((a.error k (errorStrText e.processor.tail) e.app).run a
              (e.invoke (some k) (.error (errorStrText e.processor.tail)))).2
        | none => e
      -- cleared behind the call, which may have issued a request
      (none, { called with processor := { called.processor with notifyError := 0 } })
    else
      match e.processor.responseCallback with
      | some k =>
          (none, ((a.response k recvFlags requestId e.app).run a
            (e.invoke (some k) .response)).2)
      -- the pointer is called without a test for NULL
      | none => (none, e.invoke none .response)
  else
    match e.processor.incomingComplete with
    | some k =>
        let called := (a.incomingComplete k recvFlags requestId (e.processor.user pl) e.app).run a
          (e.invoke (some k) (.incomingComplete recvFlags requestId))
        called.2.answer a requestId called.1
    | none => (none, e.invoke none (.incomingComplete recvFlags requestId))

/-- Ghost: `process` is about to send the text that it got as an error reply. -/
def Endpoint.noteReply (e : Endpoint pl κ τ) (recvFlags : UInt8) (requestId : UInt16)
    (text : CString) : Endpoint pl κ τ :=
  e.note (if IsResponse recvFlags then .bounce else .answer (.text text))
    (protoFlagError ||| protoFlagResponse) requestId [sentBody pl (errorObject pl text)]

/-- The host that `process` runs on: the three functions above, and the socket. -/
def reqHost : Host (Endpoint pl κ τ) where
  startRequest proto e := protoReqNewRequest a proto.recvFlags proto.requestId e.beginFrame
  nextObject proto mem object e :=
    protoReqObjectCallback a proto.recvFlags proto.requestId
      ((findProperty mem object ProtoObjectPropertyKey.error.code).map (readProperty mem))
      (object.contents mem) e
  completeRequest proto e :=
    let received := protoReqRecv a proto.recvFlags proto.requestId e
    match received.1 with
    | none => (none, received.2)
    | some text =>
        (some text, received.2.noteReply proto.recvFlags proto.requestId text)
  send := Endpoint.send a

/-- The first property with the key `OBJ_PROPERTY_ERROR`. -/
def errorProperty (contents : List Property) : Option Property :=
  contents.find? fun p => p.key == ProtoObjectPropertyKey.error.code

/-- The error reply of `process`. -/
def Endpoint.reply (recvFlags : UInt8) (requestId : UInt16) (text : CString)
    (e : Endpoint pl κ τ) : Endpoint pl κ τ :=
  (protoSendOne pl (Endpoint.send a) (errorObject pl text) requestId
    (protoFlagError ||| protoFlagResponse) (e.noteReply recvFlags requestId text)).2

/-- `process_complete_request`, and the error reply if there is a text. -/
def Endpoint.complete (recvFlags : UInt8) (requestId : UInt16) (e : Endpoint pl κ τ) :
    Endpoint pl κ τ :=
  let received := protoReqRecv a recvFlags requestId e
  match received.1 with
  | none => received.2
  | some text => received.2.reply a recvFlags requestId text

/-- What an endpoint does at a callback. -/
def Endpoint.react : Callback → Endpoint pl κ τ → Endpoint pl κ τ
  | .startRequest flags _ requestId, e => protoReqNewRequest a flags requestId e.beginFrame
  | .next flags requestId contents, e =>
      protoReqObjectCallback a flags requestId (errorProperty contents) contents e
  | .completeRequest flags requestId, e => e.complete a flags requestId

/-- `process` on the request layer is the layer's reaction to the callbacks, whichever
decoder is linked. -/
theorem reqHost_actsBy (b : Build) (a : Application b.toPlatform κ τ) :
    (reqHost a).ActsBy b (Endpoint.react a) := by
  refine ⟨fun _ _ => rfl, fun proto mem object e => ?_, fun proto e => ?_⟩
  · simp only [reqHost, Endpoint.react, findProperty_map_readProperty]
    rfl
  · simp only [finishRequest, reqHost, Endpoint.react, Endpoint.complete]
    cases (protoReqRecv a proto.recvFlags proto.requestId e).1 with
    | none => rfl
    | some text => rfl

/-! ## What runs of one endpoint are made of -/

/-- What can happen next at an endpoint: application code runs outside of the
callbacks, or `process` makes a callback. -/
inductive Act (pl : Platform) (κ τ : Type)
  | script (f : τ → Script pl κ τ Unit)
  | callback (callback : Callback)

/-- One act. -/
def Endpoint.step : Act pl κ τ → Endpoint pl κ τ → Endpoint pl κ τ
  | .script f, e => ((f e.app).run a e).2
  | .callback callback, e => e.react a callback

/-- A run. -/
def Endpoint.run (acts : List (Act pl κ τ)) (e : Endpoint pl κ τ) : Endpoint pl κ τ :=
  acts.foldl (fun e act => e.step a act) e

/-- `guard` holds before each callback of a run. -/
def Along (guard : Endpoint pl κ τ → Callback → Prop) :
    List (Act pl κ τ) → Endpoint pl κ τ → Prop
  | [], _ => True
  | .script f :: acts, e => Along guard acts (e.step a (.script f))
  | .callback callback :: acts, e =>
      guard e callback ∧ Along guard acts (e.step a (.callback callback))

theorem Endpoint.run_cons (act : Act pl κ τ) (acts : List (Act pl κ τ)) (e : Endpoint pl κ τ) :
    e.run a (act :: acts) = (e.step a act).run a acts := rfl

theorem Endpoint.run_append (acts acts' : List (Act pl κ τ)) (e : Endpoint pl κ τ) :
    e.run a (acts ++ acts') = (e.run a acts).run a acts' :=
  List.foldl_append

theorem along_append {guard : Endpoint pl κ τ → Callback → Prop} (acts acts' : List (Act pl κ τ))
    (e : Endpoint pl κ τ) :
    Along a guard (acts ++ acts') e ↔
      Along a guard acts e ∧ Along a guard acts' (e.run a acts) := by
  induction acts generalizing e with
  | nil => exact (and_iff_right trivial).symm
  | cons act acts ih =>
      rw [List.cons_append, Endpoint.run_cons]
      cases act with
      | script f => rw [Along, Along, ih]
      | callback callback => rw [Along, Along, ih, and_assoc]

end Req

section Runs

variable {κ τ : Type} (b : Build) (a : Application b.toPlatform κ τ)

/-- A call of `recv_process` is a run of the endpoint: one act for each callback
that it made. -/
theorem recvProcess_run (c : Conn (Endpoint b.toPlatform κ τ)) (r : RecvResult) :
    ∃ cbs, (recvProcess b (reqHost a) c r).2.callbacks = c.callbacks ++ cbs ∧
      (recvProcess b (reqHost a) c r).2.app = c.app.run a (cbs.map .callback) := by
  obtain ⟨cbs, hcallbacks, hfold⟩ := recvProcess_acts (reqHost_actsBy b a) c r
  refine ⟨cbs, hcallbacks, ?_⟩
  rw [hfold, actAll, Endpoint.run, List.foldl_map]
  rfl

theorem recvAll_run (c : Conn (Endpoint b.toPlatform κ τ)) (rs : List RecvResult) :
    ∃ cbs, (recvAll b (reqHost a) c rs).2.callbacks = c.callbacks ++ cbs ∧
      (recvAll b (reqHost a) c rs).2.app = c.app.run a (cbs.map .callback) := by
  obtain ⟨cbs, hcallbacks, hfold⟩ := recvAll_acts (reqHost_actsBy b a) c rs
  refine ⟨cbs, hcallbacks, ?_⟩
  rw [hfold, actAll, Endpoint.run, List.foldl_map]
  rfl

end Runs

end ZxProto
