import ZxProto.Correlation
import ZxProto.Library.Simulation

/-!
# Calls without a network

What a client that waits for every answer and a server whose handlers only compute do together,
as one program: a request is a call of the handler, and the callbacks are called one after the
other with what it returned.

* `Caller` — client code that knows whether it waits, and whose callbacks issue no requests;
  `Caller.Calm`, the code that it may run outside of the callbacks;
* `Service`, `serveRequest` — handlers that only compute, and what a server makes of a request
  with one object;
* `LocalCall`, `LocalCall.step` — the client, what is behind `client_user`, and the call under
  way.
-/

namespace ZxProto

/-! ## The client -/

/-- Client code whose callbacks issue no requests. -/
structure Caller (κ τ : Type) where
  requestObject : κ → UInt8 → List Property → τ → τ
  response : κ → τ → τ
  error : κ → List UInt8 → τ → τ
  waiting : τ → Prop
  waiting_requestObject : ∀ {k index contents app}, waiting app →
    waiting (requestObject k index contents app)

/-- The arguments of a request that a caller may issue: both completions have a callback, and the
peer understands the object. -/
structure Request.Ok {pl : Platform} {κ : Type} (r : Request pl κ) : Prop where
  cb : r.cb ≠ none
  err : r.err ≠ none
  count : r.object.properties.length ≤ 14

section Caller

variable {κ τ : Type} (caller : Caller κ τ)

/-- The caller as an application; it serves no requests. -/
def Caller.application (pl : Platform) : Application pl κ τ :=
  { Application.quiet pl κ τ with
    requestObject := fun k index contents app =>
      .done () (caller.requestObject k index contents app)
    response := fun k _ _ app => .done () (caller.response k app)
    error := fun k text app => .done () (caller.error k text app) }

theorem Caller.reliable (pl : Platform) : (caller.application pl).Reliable := fun _ => rfl

/-- What the caller may do outside of its callbacks: not stop waiting, or issue a request if it
does not wait, and wait then. -/
inductive Caller.Calm {pl : Platform} (app : τ) : Script pl κ τ Unit → Prop
  | stay {app' : τ} (hwaiting : caller.waiting app → caller.waiting app') :
      Calm app (.done () app')
  | call {app' : τ} {r : Request pl κ} {next : UInt8 → Script pl κ τ Unit} (hr : r.Ok)
      (hidle : ¬ caller.waiting app) (hnext : next 0 = .done () app')
      (hwaiting : caller.waiting app') : Calm app (.request r next)

/-- A call of a callback that a request installed. -/
def Caller.call : Option κ × ReqCallback → τ → τ
  | (some k, .object index contents), app => caller.requestObject k index contents app
  | (some k, .response), app => caller.response k app
  | (some k, .error text), app => caller.error k text app
  | _, app => app

end Caller

/-! ## The server -/

/-- A name, and what the handler makes of the objects of a request and of what is behind
`client_user`. -/
abbrev Service (pl : Platform) (ω : Type) :=
  CString × (List (List Property) → ω → HandlerResult pl × ω)

section Service

variable {pl : Platform} {κ ω : Type}

/-- The handler. -/
def RequestHandler.ofService (service : Service pl ω) : RequestHandler pl κ ω where
  name := service.1
  cb h :=
    let served := service.2 h.objects h.clientUser
    .done served.1 { h with clientUser := served.2 }

/-- What a server makes of a request with one object. -/
def serveRequest (services : List (Service pl ω)) (object : List Property) (user : ω) :
    Answer pl × ω :=
  match object.find? fun p => p.key == ProtoObjectPropertyKey.id.code with
  | none => (.text unknownReqId, user)
  | some id =>
      match services.find? fun service => service.1.bytes == copyStrProperty id with
      | none => (.text unknownRequest, user)
      | some service =>
          let served := service.2 [object] user
          (served.1.answer, served.2)

theorem findHandler_ofService (services : List (Service pl ω)) (requestId : List UInt8) :
    findHandler (services.map (RequestHandler.ofService (κ := κ))) requestId =
      (services.find? fun service => service.1.bytes == requestId).map .ofService := by
  rw [findHandler, List.find?_map]
  rfl

/-- `client_request_complete` on such handlers. -/
theorem clientRequestComplete_ofService (services : List (Service pl ω))
    (h : ServerClientHandlers ω) {object : List Property} (hobjects : h.objects = [object]) :
    clientRequestComplete (services.map (RequestHandler.ofService (κ := κ))) h =
      .done (serveRequest services object h.clientUser).1
        { h with clientUser := (serveRequest services object h.clientUser).2 } := by
  obtain ⟨objects, hle, user⟩ := h
  obtain rfl : objects = [object] := hobjects
  rw [clientRequestComplete, dispatch, serveRequest]
  dsimp only
  cases object.find? fun p => p.key == ProtoObjectPropertyKey.id.code with
  | none => rfl
  | some id =>
      dsimp only
      rw [findHandler_ofService]
      cases services.find? fun service => service.1.bytes == copyStrProperty id with
      | none => rfl
      | some service => rfl

/-- What the handlers return is understood. -/
def ServicesOk (services : List (Service pl ω)) : Prop :=
  ∀ service ∈ services, ∀ objects user, (service.2 objects user).1.answer.Ok

theorem ServicesOk.serveRequest_ok {services : List (Service pl ω)} (hok : ServicesOk services)
    (object : List Property) (user : ω) : (serveRequest services object user).1.Ok := by
  rw [serveRequest]
  split
  · exact ⟨by decide, by decide⟩
  · split
    · exact ⟨by decide, by decide⟩
    · next service hservice => exact hok service (List.mem_of_find?_eq_some hservice) _ _

end Service

/-! ## The two together -/

/-- How far the latest call has come. -/
inductive CallPhase (pl : Platform) (κ : Type)
  | idle
  | calling (r : Request pl κ)
  | returning (calls : List (Option κ × ReqCallback))

/-- The client, and what is behind `client_user`. -/
structure LocalCall (pl : Platform) (κ τ ω : Type) where
  app : τ
  user : ω
  phase : CallPhase pl κ

/-- What can happen next: code of the client, the call of the handler, or the call of a
callback. -/
inductive LocalStep (pl : Platform) (κ τ : Type)
  | script (f : τ → Script pl κ τ Unit)
  | serve
  | callback

/-- The code that a step runs at the client. -/
def LocalStep.script? {pl : Platform} {κ τ : Type} :
    LocalStep pl κ τ → List (τ → Script pl κ τ Unit)
  | .script f => [f]
  | .serve => []
  | .callback => []

section LocalCall

variable {plC plS : Platform} {κ τ ω : Type} (caller : Caller κ τ)
  (services : List (Service plS ω))

/-- The client's code has returned; `send` took the request. -/
def LocalCall.script : Script plC κ τ Unit → LocalCall plC κ τ ω → LocalCall plC κ τ ω
  | .done _ app, l => { l with app := app }
  | .request r next, l =>
      match next 0 with
      | .done _ app => { l with app := app, phase := .calling r }
      | .request _ _ => l

/-- The handler is called. -/
def LocalCall.serve (r : Request plC κ) (l : LocalCall plC κ τ ω) : LocalCall plC κ τ ω :=
  let served := serveRequest services r.object.properties l.user
  { l with user := served.2, phase := .returning (expectedCalls r served.1) }

/-- A callback is called; behind the last one, nothing is left of the call. -/
def LocalCall.callback (call : Option κ × ReqCallback) (calls : List (Option κ × ReqCallback))
    (l : LocalCall plC κ τ ω) : LocalCall plC κ τ ω :=
  { l with
    app := caller.call call l.app
    phase := if calls.isEmpty then .idle else .returning calls }

/-- One step. -/
def LocalCall.step : LocalStep plC κ τ → LocalCall plC κ τ ω → LocalCall plC κ τ ω
  | .script f, l => l.script (f l.app)
  | .serve, l =>
      match l.phase with
      | .calling r => l.serve services r
      | _ => l
  | .callback, l =>
      match l.phase with
      | .returning (call :: calls) => l.callback caller call calls
      | _ => l

end LocalCall

end ZxProto
