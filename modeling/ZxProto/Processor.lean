import ZxProto.Endpoint

/-!
# The processor struct along runs

One endpoint, an arbitrary application and an arbitrary peer: whatever the order
of requests and callbacks, which function pointers are called, and where the
error path writes.

* `Installed` — which callbacks the struct holds, and the id of the latest
  request, in terms of the requests issued;
* `react_log`, `react_writes` — a callback adds to these records only what its
  direct part adds;
* `noNullCall_iff` — no NULL pointer is called, exactly as long as two kinds of
  frames stay away;
* `errorText_iff` — the error path stays inside `error_str`, exactly as long as
  the error texts that it accepts have at most 63 bytes.
-/

namespace ZxProto

open ByteMemory

section Processor

variable {pl : Platform} {κ τ : Type} {a : Application pl κ τ}

/-! ## What the last part of a callback leaves alone -/

theorem Endpoint.reply_sent (flags : UInt8) (requestId : UInt16) (text : CString)
    (e : Endpoint pl κ τ) :
    (e.noteReply flags requestId text).Sent (e.reply a flags requestId text) :=
  protoSendOne_sent a _ _ _ _

theorem Endpoint.answer_sent (requestId : UInt16) (objects : List (SendableObject pl))
    (e : Endpoint pl κ τ) :
    (e.note (.answer (.objects objects)) protoFlagResponse requestId
      ((sentObjects objects).map fun object => sentBody pl object.object)).Sent
        (e.answer a requestId (.objects objects)).2 :=
  protoSend_sent a _ _ _ _ _

/-- The two endpoints agree in the requests, the application and the struct, but
for what the response path of the layer writes to it. -/
structure Endpoint.Steady (e e' : Endpoint pl κ τ) : Prop where
  requests : e'.requests = e.requests
  app : e'.app = e.app
  processor : ∃ objectNum notifyError tail, e'.processor =
    { e.processor with objectNum := objectNum, notifyError := notifyError, tail := tail }

theorem Directs.steady {e e' : Endpoint pl κ τ} {callback : Callback}
    (h : Directs e callback e') : e.Steady e' := by
  cases h <;> exact ⟨rfl, rfl, _, _, _, rfl⟩

theorem direct_steady (callback : Callback) (e : Endpoint pl κ τ) :
    e.Steady (e.direct callback) :=
  (direct_spec callback e).steady

/-- Replies and answers leave the records of calls and writes alone as well. -/
structure Endpoint.Closed (e e' : Endpoint pl κ τ) : Prop extends e.Steady e' where
  log : e'.log = e.log
  started : e'.started = e.started
  writes : e'.writes = e.writes
  tail : e'.processor.tail = e.processor.tail

theorem Settles.closed {e e₁ e' : Endpoint pl κ τ} {callback : Callback}
    (h : Settles a e callback e₁ e') : e₁.Closed e' := by
  cases h with
  | nothing => exact ⟨⟨rfl, rfl, _, _, _, rfl⟩, rfl, rfl, rfl, rfl⟩
  | reported => exact ⟨⟨rfl, rfl, _, _, _, rfl⟩, rfl, rfl, rfl, rfl⟩
  | @bounced flags requestId =>
      obtain ⟨sends, wire, heq⟩ := e.reply_sent (a := a) flags requestId unknownRequestId
      rw [heq]
      exact ⟨⟨rfl, rfl, _, _, _, rfl⟩, rfl, rfl, rfl, rfl⟩
  | @replied flags requestId _ text =>
      obtain ⟨sends, wire, heq⟩ := e₁.reply_sent (a := a) flags requestId text
      rw [heq]
      exact ⟨⟨rfl, rfl, _, _, _, rfl⟩, rfl, rfl, rfl, rfl⟩
  | @responded flags requestId _ objects =>
      obtain ⟨sends, wire, heq⟩ := e₁.answer_sent (a := a) requestId objects
      rw [heq]
      exact ⟨⟨rfl, rfl, _, _, _, rfl⟩, rfl, rfl, rfl, rfl⟩

/-- Only the direct part of a callback calls function pointers. -/
theorem react_log (callback : Callback) (e : Endpoint pl κ τ) :
    (e.react a callback).log = (e.direct callback).log := by
  obtain ⟨e₁, hfollows, hsettles⟩ := react_eq a callback e
  rw [hsettles.closed.log, hfollows.untouched.log]

/-- Only the direct part of a callback writes to `error_str`. -/
theorem react_writes (callback : Callback) (e : Endpoint pl κ τ) :
    (e.react a callback).writes = (e.direct callback).writes := by
  obtain ⟨e₁, hfollows, hsettles⟩ := react_eq a callback e
  rw [hsettles.closed.writes, hfollows.untouched.writes]

/-! ## What the struct holds -/

/-- The struct holds the callbacks of the latest request, whose number is its id,
and the incoming callbacks that it was initialised with. -/
structure Installed (incomingRequest incomingObject incomingComplete : Option κ)
    (e : Endpoint pl κ τ) : Prop where
  currentRequestId : e.processor.currentRequestId = UInt16.ofNat e.requests.length
  objectCallback : e.processor.requestObjectCallback =
    e.requests.getLast?.bind Request.objectCallback
  responseCallback : e.processor.responseCallback = e.requests.getLast?.bind Request.cb
  errorCallback : e.processor.errorCallback = e.requests.getLast?.bind Request.err
  incomingRequest : e.processor.incomingRequest = incomingRequest
  incomingObject : e.processor.incomingObject = incomingObject
  incomingComplete : e.processor.incomingComplete = incomingComplete

variable {incomingRequest incomingObject incomingComplete : Option κ}

/-- An endpoint whose struct was zeroed and then initialised. -/
def Endpoint.start (pl : Platform) (incomingRequest incomingObject incomingComplete : Option κ)
    (user : Nat) (app : τ) : Endpoint pl κ τ :=
  .init (protoReqInitProcessor pl (.zeroed κ) incomingRequest incomingObject incomingComplete user)
    app

theorem installed_start (user : Nat) (app : τ) :
    Installed incomingRequest incomingObject incomingComplete
      (Endpoint.start pl incomingRequest incomingObject incomingComplete user app) :=
  ⟨rfl, rfl, rfl, rfl, rfl, rfl, rfl⟩

theorem Installed.install {e : Endpoint pl κ τ}
    (he : Installed incomingRequest incomingObject incomingComplete e) (r : Request pl κ) :
    Installed incomingRequest incomingObject incomingComplete (e.install r) := by
  refine ⟨?_, ?_, ?_, ?_, he.incomingRequest, he.incomingObject, he.incomingComplete⟩
  · show e.processor.currentRequestId + 1 = UInt16.ofNat (e.requests ++ [r]).length
    rw [he.currentRequestId, List.length_append, UInt16.ofNat_add]
    rfl
  · show r.objectCallback = (e.requests ++ [r]).getLast?.bind Request.objectCallback
    simp
  · show r.cb = (e.requests ++ [r]).getLast?.bind Request.cb
    simp
  · show r.err = (e.requests ++ [r]).getLast?.bind Request.err
    simp

/-- Only the struct and the requests matter. -/
theorem Installed.congr {e e' : Endpoint pl κ τ}
    (he : Installed incomingRequest incomingObject incomingComplete e)
    (hprocessor : e'.processor = e.processor) (hrequests : e'.requests = e.requests) :
    Installed incomingRequest incomingObject incomingComplete e' := by
  constructor
  all_goals rw [hprocessor]
  all_goals try rw [hrequests]
  · exact he.currentRequestId
  · exact he.objectCallback
  · exact he.responseCallback
  · exact he.errorCallback
  · exact he.incomingRequest
  · exact he.incomingObject
  · exact he.incomingComplete

theorem Installed.follows {e e' : Endpoint pl κ τ} (hfollows : Follows a e e')
    (he : Installed incomingRequest incomingObject incomingComplete e) :
    Installed incomingRequest incomingObject incomingComplete e' := by
  refine hfollows.keeps ?_ ?_ (fun r e he => he.install r) he
  · exact fun _ _ h => h.congr rfl rfl
  · rintro _ _ ⟨_, _, rfl⟩ h
    exact h.congr rfl rfl

theorem Installed.steady {e e' : Endpoint pl κ τ} (hsteady : e.Steady e')
    (he : Installed incomingRequest incomingObject incomingComplete e) :
    Installed incomingRequest incomingObject incomingComplete e' := by
  obtain ⟨hrequests, -, objectNum, notifyError, tail, hprocessor⟩ := hsteady
  -- what the response path writes to the struct is not looked at
  have hwritten : Installed incomingRequest incomingObject incomingComplete
      { e with processor :=
        { e.processor with objectNum := objectNum, notifyError := notifyError, tail := tail } } :=
    ⟨he.currentRequestId, he.objectCallback, he.responseCallback, he.errorCallback,
      he.incomingRequest, he.incomingObject, he.incomingComplete⟩
  exact hwritten.congr hprocessor hrequests

theorem Installed.react {e : Endpoint pl κ τ}
    (he : Installed incomingRequest incomingObject incomingComplete e) (callback : Callback) :
    Installed incomingRequest incomingObject incomingComplete (e.react a callback) := by
  obtain ⟨e₁, hfollows, hsettles⟩ := react_eq a callback e
  exact ((he.steady (direct_steady callback e)).follows hfollows).steady
    hsettles.closed.toSteady

theorem Installed.step {e : Endpoint pl κ τ}
    (he : Installed incomingRequest incomingObject incomingComplete e) (act : Act pl κ τ) :
    Installed incomingRequest incomingObject incomingComplete (e.step a act) := by
  cases act with
  | script f => exact he.follows (Script.run_follows a _ e)
  | callback callback => exact he.react callback

theorem Installed.run {e : Endpoint pl κ τ}
    (he : Installed incomingRequest incomingObject incomingComplete e)
    (acts : List (Act pl κ τ)) :
    Installed incomingRequest incomingObject incomingComplete (e.run a acts) := by
  induction acts generalizing e with
  | nil => exact he
  | cons act acts ih => exact ih (he.step act)

/-- Requests are issued one behind the other. -/
theorem prefix_requests_follows {e e' : Endpoint pl κ τ} (hfollows : Follows a e e') :
    e.requests <+: e'.requests := by
  refine hfollows.keeps (P := fun e' => e.requests <+: e'.requests) ?_ ?_ ?_ List.prefix_rfl
  · exact fun _ _ h => h
  · rintro _ _ ⟨_, _, rfl⟩ h
    exact h
  · exact fun r e' h => h.trans (List.prefix_append e'.requests [r])

theorem prefix_requests_react (callback : Callback) (e : Endpoint pl κ τ) :
    e.requests <+: (e.react a callback).requests := by
  obtain ⟨e₁, hfollows, hsettles⟩ := react_eq a callback e
  rw [hsettles.closed.requests, ← (direct_steady callback e).requests]
  exact prefix_requests_follows hfollows

theorem prefix_requests_step (act : Act pl κ τ) (e : Endpoint pl κ τ) :
    e.requests <+: (e.step a act).requests := by
  cases act with
  | script f => exact prefix_requests_follows (Script.run_follows a _ e)
  | callback callback => exact prefix_requests_react callback e

theorem prefix_requests_run (acts : List (Act pl κ τ)) (e : Endpoint pl κ τ) :
    e.requests <+: (e.run a acts).requests := by
  induction acts generalizing e with
  | nil => exact List.prefix_rfl
  | cons act acts ih => exact (prefix_requests_step act e).trans (ih _)

/-! ## Absent callbacks -/

/-- No call went through NULL. -/
def Endpoint.NoNullCall (e : Endpoint pl κ τ) : Prop :=
  ∀ call ∈ e.log, call.pointer ≠ none

instance (e : Endpoint pl κ τ) : Decidable e.NoNullCall :=
  have (call : Invocation κ) : Decidable (call.pointer ≠ none) :=
    decidable_of_iff (call.pointer.isSome = true) Option.isSome_iff_ne_none
  inferInstanceAs (Decidable (∀ call ∈ e.log, call.pointer ≠ none))

theorem noNullCall_invoke (e : Endpoint pl κ τ) (pointer : Option κ) (callback : ReqCallback) :
    (e.invoke pointer callback).NoNullCall ↔ e.NoNullCall ∧ pointer ≠ none := by
  constructor
  · intro h
    exact ⟨fun call hcall => h call (List.mem_append_left _ hcall),
      h ⟨pointer, callback, _, _⟩ (List.mem_append_right _ (List.mem_singleton.mpr rfl))⟩
  · rintro ⟨h, hpointer⟩ call hcall
    rcases List.mem_append.mp hcall with hcall | hcall
    · exact h call hcall
    · rw [List.mem_singleton.mp hcall]
      exact hpointer

/-- Four of the six pointers are tested before they are called; a completion
calls the other two as they are. -/
theorem Directs.noNullCall {e e' : Endpoint pl κ τ} {callback : Callback}
    (h : Directs e callback e') : e'.NoNullCall ↔ e.NoNullCall ∧ e.Callable callback := by
  cases h with
  | header => exact (and_iff_left trivial).symm
  | dropped => exact (and_iff_left trivial).symm
  | stored => exact (and_iff_left trivial).symm
  | silent hcallable => exact (and_iff_left hcallable).symm
  | request =>
      rw [noNullCall_invoke]
      exact and_congr_right fun _ => ⟨fun _ => trivial, fun _ => Option.some_ne_none _⟩
  | object =>
      rw [noNullCall_invoke]
      exact and_congr_right fun _ => ⟨fun _ => trivial, fun _ => Option.some_ne_none _⟩
  | incomingObject =>
      rw [noNullCall_invoke]
      exact and_congr_right fun _ => ⟨fun _ => trivial, fun _ => Option.some_ne_none _⟩
  | completion hcallable =>
      rw [noNullCall_invoke]
      exact and_congr_right fun _ => hcallable.symm

theorem noNullCall_react (callback : Callback) (e : Endpoint pl κ τ) :
    (e.react a callback).NoNullCall ↔ e.NoNullCall ∧ e.Callable callback := by
  rw [Endpoint.NoNullCall, react_log]
  exact (direct_spec callback e).noNullCall

/-- The completions that the code is prepared for: a request completes only if
`incoming_complete` was given, and before the first request no response with the
id 0 completes, unless an error is pending. -/
def Expected (incomingComplete : Option κ) (e : Endpoint pl κ τ) : Callback → Prop
  | .startRequest _ _ _ => True
  | .next _ _ _ => True
  | .completeRequest flags requestId =>
      if IsResponse flags then
        e.requests = [] → requestId = 0 → e.processor.notifyError ≠ 0
      else
        incomingComplete ≠ none

theorem callable_iff_expected {e : Endpoint pl κ τ}
    (he : Installed incomingRequest incomingObject incomingComplete e)
    (hcb : ∀ r ∈ e.requests, r.cb ≠ none) (callback : Callback) :
    e.Callable callback ↔ Expected incomingComplete e callback := by
  cases callback with
  | startRequest flags size requestId => exact Iff.rfl
  | next flags requestId contents => exact Iff.rfl
  | completeRequest flags requestId =>
      rw [Endpoint.Callable, Expected]
      by_cases hresponse : IsResponse flags
      · rw [if_pos hresponse, if_pos hresponse, he.currentRequestId, he.responseCallback]
        -- before the first request the id is 0 and the pointer NULL
        rcases List.eq_nil_or_concat e.requests with hnone | ⟨rs, r, hlast⟩
        · rw [hnone]
          simp [eq_comm (a := (0 : UInt16))]
        · rw [hlast] at hcb ⊢
          have hr : r.cb ≠ none := hcb r (by simp)
          simp [hr]
      · rw [if_neg hresponse, if_neg hresponse, he.incomingComplete]

theorem along_callable_iff {e : Endpoint pl κ τ} (acts : List (Act pl κ τ))
    (he : Installed incomingRequest incomingObject incomingComplete e)
    (hcb : ∀ r ∈ (e.run a acts).requests, r.cb ≠ none) :
    Along a Endpoint.Callable acts e ↔ Along a (Expected incomingComplete) acts e := by
  induction acts generalizing e with
  | nil => exact Iff.rfl
  | cons act acts ih =>
      have hrest := ih (he.step act) hcb
      cases act with
      | script f => exact hrest
      | callback callback =>
          have hnow := callable_iff_expected he (fun r hr => hcb r
            ((prefix_requests_run (.callback callback :: acts) e).subset hr)) callback
          exact and_congr hnow hrest

/-- **Absent callbacks.**  From a zeroed and initialised struct, in every run of
requests with a `cb` and of callbacks from any peer, no NULL pointer is called
if and only if the completions are those that the code is prepared for. -/
theorem noNullCall_iff (a : Application pl κ τ)
    (incomingRequest incomingObject incomingComplete : Option κ) (user : Nat) (app : τ)
    (acts : List (Act pl κ τ))
    (hcb : ∀ r ∈ ((Endpoint.start pl incomingRequest incomingObject incomingComplete user app).run
      a acts).requests, r.cb ≠ none) :
    ((Endpoint.start pl incomingRequest incomingObject incomingComplete user app).run
        a acts).NoNullCall ↔
      Along a (Expected incomingComplete) acts
        (Endpoint.start pl incomingRequest incomingObject incomingComplete user app) := by
  have hkept : ∀ e e' : Endpoint pl κ τ, Follows a e e' → (e'.NoNullCall ↔ e.NoNullCall) := by
    intro e e' hfollows
    rw [Endpoint.NoNullCall, hfollows.untouched.log]
    rfl
  have hempty : (Endpoint.start pl incomingRequest incomingObject incomingComplete user
      app).NoNullCall := fun call hcall => absurd hcall List.not_mem_nil
  rw [run_iff_along a hkept fun e callback => noNullCall_react callback e,
    and_iff_right hempty]
  exact along_callable_iff acts (installed_start user app) hcb

/-- Without incoming callbacks, a request with a `cb` only, and its response. -/
theorem noNullCall_one_response :
    let r : Request .pc Nat := ⟨.allocate .pc (fun _ => 0) 512 [] (by decide) (by decide),
      none, some 7, none⟩
    ((Endpoint.start .pc none none none 4096 ()).run (Application.quiet .pc Nat Unit)
      [.script fun _ => .request r fun _ => .done () (),
        .callback (.startRequest protoFlagResponse 2 1), .callback (.next protoFlagResponse 1 []),
        .callback (.completeRequest protoFlagResponse 1)]).NoNullCall := by
  intro r
  refine (noNullCall_iff (Application.quiet .pc Nat Unit) none none none 4096 () _ ?_).mpr ?_
  · intro r' hr'
    rw [show r' = r from List.mem_singleton.mp hr']
    exact Option.some_ne_none _
  · exact ⟨trivial, trivial, fun hnone => absurd hnone (List.cons_ne_nil _ _), trivial⟩

/-- All incoming callbacks are given, no request was issued, and a response with
the id 0 arrives: `response_callback` is called as NULL. -/
theorem not_noNullCall_response_to_nothing :
    ¬ (recvProcess .pc (reqHost (Application.quiet .pc Nat Unit))
      (Conn.init 64 16 (fun _ => 0) ⟨0, []⟩
        (Endpoint.start .pc (some 1) (some 2) (some 3) 4096 ()) 0)
      (.received [2, 2, 0, 0, 0, 0, 0])).2.app.NoNullCall := by
  decide +kernel

/-! ## The error text -/

/-- The direct part writes the text that is accepted, or leaves the memory from
`error_str` on alone. -/
theorem Directs.writes {e e' : Endpoint pl κ τ} {callback : Callback} (h : Directs e callback e') :
    match e.acceptedError callback with
    | some text => e' = e.storeError text
    | none => e'.writes = e.writes ∧ e'.processor.tail = e.processor.tail := by
  cases h with
  | header => exact ⟨rfl, rfl⟩
  | request => exact ⟨rfl, rfl⟩
  | dropped hnone =>
      rw [hnone]
      exact ⟨rfl, rfl⟩
  | stored haccepted =>
      rw [haccepted]
  | object hnone =>
      rw [hnone]
      exact ⟨rfl, rfl⟩
  | incomingObject hnone =>
      rw [hnone]
      exact ⟨rfl, rfl⟩
  | silent => exact ⟨rfl, rfl⟩
  | completion => exact ⟨rfl, rfl⟩

/-- Every write through `error_str` lands in the array. -/
def Endpoint.Confined (e : Endpoint pl κ τ) : Prop :=
  ∀ s ∈ e.writes, s.Within 0 errorStrSize

instance (e : Endpoint pl κ τ) : Decidable e.Confined :=
  inferInstanceAs (Decidable (∀ s ∈ e.writes, s.Within 0 errorStrSize))

/-- The error text that a callback brings leaves room for the terminating zero. -/
def Endpoint.ShortError (e : Endpoint pl κ τ) (callback : Callback) : Prop :=
  ∀ text ∈ e.acceptedError callback, text.length < errorStrSize

theorem confined_storeError (e : Endpoint pl κ τ) (text : List UInt8) :
    (e.storeError text).Confined ↔ e.Confined ∧ text.length < errorStrSize := by
  constructor
  · intro h
    refine ⟨fun s hs => h s (List.mem_append_left _ hs), ?_⟩
    -- the terminating zero is the last byte written
    have hzero := h ⟨text.length, [0]⟩ (List.mem_append_right _ (by simp))
    simp only [Store.Within, List.length_singleton] at hzero
    omega
  · rintro ⟨h, hshort⟩ s hs
    rcases List.mem_append.mp hs with hs | hs
    · exact h s hs
    · simp only [List.mem_cons, List.not_mem_nil, or_false] at hs
      rcases hs with rfl | rfl <;> simp only [Store.Within, List.length_singleton] <;> omega

theorem confined_react (callback : Callback) (e : Endpoint pl κ τ) :
    (e.react a callback).Confined ↔ e.Confined ∧ e.ShortError callback := by
  rw [Endpoint.Confined, react_writes, ← Endpoint.Confined, Endpoint.ShortError]
  have hwrites := (direct_spec callback e).writes
  cases haccepted : e.acceptedError callback with
  | none =>
      rw [haccepted] at hwrites
      rw [Endpoint.Confined, hwrites.1]
      exact (and_iff_left fun text htext => nomatch htext).symm
  | some text =>
      rw [haccepted] at hwrites
      rw [hwrites, confined_storeError]
      simp

/-- The memory from `error_str` on is what it was, with the writes done to it. -/
def Endpoint.Written (tail : Memory) (e : Endpoint pl κ τ) : Prop :=
  e.processor.tail = storeAll tail e.writes

theorem Endpoint.Written.follows {tail : Memory} {e e' : Endpoint pl κ τ}
    (hfollows : Follows a e e') (he : e.Written tail) : e'.Written tail := by
  rw [Endpoint.Written, hfollows.untouched.tail, hfollows.untouched.writes]
  exact he

theorem Endpoint.Written.react {tail : Memory} {e : Endpoint pl κ τ} (he : e.Written tail)
    (callback : Callback) : (e.react a callback).Written tail := by
  obtain ⟨e₁, hfollows, hsettles⟩ := react_eq a callback e
  have hdirect : (e.direct callback).Written tail := by
    have hwrites := (direct_spec callback e).writes
    cases haccepted : e.acceptedError callback with
    | none =>
        rw [haccepted] at hwrites
        rw [Endpoint.Written, hwrites.2, hwrites.1]
        exact he
    | some text =>
        rw [haccepted] at hwrites
        rw [hwrites]
        show storeAll e.processor.tail _ = storeAll tail (e.writes ++ _)
        rw [storeAll_append, ← show e.processor.tail = storeAll tail e.writes from he]
  rw [Endpoint.Written, hsettles.closed.tail, hsettles.closed.writes]
  exact hdirect.follows hfollows

theorem Endpoint.Written.run {tail : Memory} {e : Endpoint pl κ τ} (he : e.Written tail)
    (acts : List (Act pl κ τ)) : (e.run a acts).Written tail := by
  induction acts generalizing e with
  | nil => exact he
  | cons act acts ih =>
      refine ih ?_
      cases act with
      | script f => exact he.follows (Script.run_follows a _ e)
      | callback callback => exact he.react callback

/-- Writes into the array do not reach `user`. -/
theorem Endpoint.Confined.user_eq {tail : Memory} {e : Endpoint pl κ τ} (he : e.Written tail)
    (hconfined : e.Confined) :
    e.processor.user pl = slice tail errorStrSize pl.pointerSize := by
  rw [ProtoReqProcessor.user, he]
  exact slice_storeAll_of_avoids tail fun s hs => Or.inr ((hconfined s hs).2.trans (by simp))

/-- The writes stay inside `error_str` exactly as long as the accepted texts fit. -/
theorem confined_run_iff (acts : List (Act pl κ τ)) (e : Endpoint pl κ τ) :
    (e.run a acts).Confined ↔ e.Confined ∧ Along a Endpoint.ShortError acts e := by
  refine run_iff_along a (fun e e' hfollows => ?_) (fun e callback => confined_react callback e)
    acts e
  rw [Endpoint.Confined, hfollows.untouched.writes]
  rfl

/-- **The error text.**  In every run of requests and of callbacks from any peer,
whatever the struct held before, the writes of the error path stay inside
`error_str`, and `user` keeps its value, if and only if every error text that the
layer accepts has at most 63 bytes. -/
theorem errorText_iff (a : Application pl κ τ) (processor : ProtoReqProcessor κ) (app : τ)
    (acts : List (Act pl κ τ)) :
    (((Endpoint.init processor app).run a acts).Confined ∧
        ((Endpoint.init processor app).run a acts).processor.user pl = processor.user pl) ↔
      Along a Endpoint.ShortError acts (Endpoint.init processor app) := by
  have hempty : (Endpoint.init processor app : Endpoint pl κ τ).Confined :=
    fun s hs => absurd hs List.not_mem_nil
  have hwritten : (Endpoint.init processor app : Endpoint pl κ τ).Written processor.tail := rfl
  have hiff := confined_run_iff (a := a) acts (Endpoint.init processor app)
  rw [and_iff_right hempty] at hiff
  rw [← hiff]
  exact and_iff_left_of_imp fun hconfined => hconfined.user_eq (hwritten.run acts)

/-- An error reply with a text of 64 bytes, before any request: the terminating
zero is written to the first byte of `user`. -/
theorem not_confined_long_error :
    let endpoint := (recvProcess .pc (reqHost (Application.quiet .pc Nat Unit))
      (Conn.init 64 128 (fun _ => 0) ⟨0, []⟩
        (Endpoint.start .pc (some 1) (some 2) (some 3) 4097 ()) 0)
      (.received ([3, 69, 0, 0, 0, 67, 0, 64, 0, ProtoObjectPropertyKey.error.code] ++
        List.replicate 64 65))).2.app
    ¬ (endpoint.Confined ∧ endpoint.processor.user .pc = littleEndian 8 4097) ∧
      endpoint.processor.user .pc = littleEndian 8 4096 := by
  decide +kernel

end Processor

end ZxProto
