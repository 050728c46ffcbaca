import ZxProto.Req

/-!
# What a callback does to an endpoint

Every result about the request layer needs to know what one callback can do, so
it is said once, here.  A callback acts in three parts: the layer's own updates
and the call through a function pointer; the application code that is called,
which may issue requests; and what is left to do when that code has returned,
up to the reply that `process` sends.

* `Follows` — what application code can do;
* `Endpoint.direct` — the first part, a function of the endpoint; `Directs` and
  `direct_spec` — its cases;
* `Settles` — the third part;
* `react_eq` — the three parts together;
* `run_iff_along` — from a condition for one callback to one for a run.
-/

namespace ZxProto

open ByteMemory

section Endpoint

variable {pl : Platform} {κ τ α : Type} (a : Application pl κ τ)

/-! ## Sending -/

/-- Handing bytes to `send` changes nothing but the socket. -/
def Endpoint.Sent (e e' : Endpoint pl κ τ) : Prop :=
  ∃ sends wire, e' = { e with sends := sends, wire := wire }

theorem Endpoint.Sent.trans {e e₁ e' : Endpoint pl κ τ} (h : e.Sent e₁) (h' : e₁.Sent e') :
    e.Sent e' := by
  obtain ⟨sends, wire, rfl⟩ := h
  obtain ⟨sends', wire', rfl⟩ := h'
  exact ⟨sends', wire', rfl⟩

theorem Endpoint.send_sent (bytes : List UInt8) (e : Endpoint pl κ τ) :
    e.Sent (e.send a bytes).2 := by
  rw [Endpoint.send]
  split
  · exact ⟨_, _, rfl⟩
  · exact ⟨_, _, rfl⟩

theorem protoSendOne_sent (o : OwnedObject) (requestId : UInt16) (flags : UInt8)
    (e : Endpoint pl κ τ) :
    e.Sent (protoSendOne pl (Endpoint.send a) o requestId flags e).2 := by
  rw [protoSendOne]
  split <;> exact e.send_sent a _

theorem sendObjects_sent (objects : List OwnedObject) (e : Endpoint pl κ τ) :
    e.Sent (sendObjects pl (Endpoint.send a) objects e).2 := by
  induction objects generalizing e with
  | nil => exact ⟨_, _, rfl⟩
  | cons o objects ih =>
      rw [sendObjects]
      split
      · exact e.send_sent a _
      · exact (e.send_sent a _).trans (ih _)

theorem protoSend_sent (objects : List OwnedObject) (amount : UInt8) (requestId : UInt16)
    (flags : UInt8) (e : Endpoint pl κ τ) :
    e.Sent (protoSend pl (Endpoint.send a) objects amount requestId flags e).2 := by
  rw [protoSend]
  simp only
  split
  · split <;> exact e.send_sent a _
  · split
    · exact e.send_sent a _
    · exact (e.send_sent a _).trans (sendObjects_sent a _ _)

/-- A request is the installation of its callbacks, and a send. -/
theorem protoReqSendRequest_sent (r : Request pl κ) (e : Endpoint pl κ τ) :
    (e.install r).Sent (protoReqSendRequest a r e).2 :=
  protoSendOne_sent a _ _ _ _

/-! ## Application code -/

/-- What application code can do: change its state, and issue requests. -/
inductive Follows : Endpoint pl κ τ → Endpoint pl κ τ → Prop
  | refl (e : Endpoint pl κ τ) : Follows e e
  | app {e e' : Endpoint pl κ τ} (app : τ) (h : Follows e e') : Follows e { e' with app := app }
  | request {e e' : Endpoint pl κ τ} (r : Request pl κ) (h : Follows e e') :
      Follows e (protoReqSendRequest a r e').2

theorem Follows.trans {e e₁ e' : Endpoint pl κ τ} (h : Follows a e e₁) (h' : Follows a e₁ e') :
    Follows a e e' := by
  induction h' with
  | refl => exact h
  | app app _ ih => exact ih.app app
  | request r _ ih => exact ih.request r

theorem Script.run_follows (s : Script pl κ τ α) (e : Endpoint pl κ τ) :
    Follows a e (s.run a e).2 := by
  induction s generalizing e with
  | done result app => exact (Follows.refl e).app app
  | request r next ih => exact ((Follows.refl e).request r).trans a (ih _ _)

variable {a}

/-- What is kept by changes of the application's state, by sends and by the
installation of a request is kept by application code. -/
theorem Follows.keeps {P : Endpoint pl κ τ → Prop} {e e' : Endpoint pl κ τ}
    (hfollows : Follows a e e')
    (happ : ∀ (e : Endpoint pl κ τ) app, P e → P { e with app := app })
    (hsent : ∀ e e' : Endpoint pl κ τ, e.Sent e' → P e → P e')
    (hinstall : ∀ r e, P e → P (e.install r)) (he : P e) : P e' := by
  induction hfollows with
  | refl => exact he
  | app app _ ih => exact happ _ app ih
  | request r _ ih => exact hsent _ _ (protoReqSendRequest_sent a r _) (hinstall r _ ih)

/-- What application code leaves alone: the ghost records of calls, of frames
received and of writes, and the parts of the struct that a request does not set. -/
structure Endpoint.Untouched (e e' : Endpoint pl κ τ) : Prop where
  log : e'.log = e.log
  started : e'.started = e.started
  writes : e'.writes = e.writes
  tail : e'.processor.tail = e.processor.tail
  incomingRequest : e'.processor.incomingRequest = e.processor.incomingRequest
  incomingObject : e'.processor.incomingObject = e.processor.incomingObject
  incomingComplete : e'.processor.incomingComplete = e.processor.incomingComplete

theorem Follows.untouched {e e' : Endpoint pl κ τ} (h : Follows a e e') : e.Untouched e' := by
  refine h.keeps (P := fun e' => e.Untouched e') ?_ ?_ ?_ ⟨rfl, rfl, rfl, rfl, rfl, rfl, rfl⟩
  · exact fun _ _ h => ⟨h.log, h.started, h.writes, h.tail, h.incomingRequest, h.incomingObject,
      h.incomingComplete⟩
  · rintro _ _ ⟨_, _, rfl⟩ h
    exact ⟨h.log, h.started, h.writes, h.tail, h.incomingRequest, h.incomingObject,
      h.incomingComplete⟩
  · exact fun _ _ h => ⟨h.log, h.started, h.writes, h.tail, h.incomingRequest, h.incomingObject,
      h.incomingComplete⟩

/-! ## The three parts of a callback -/

/-- The layer's own updates at a callback, and the call through a function
pointer, without what the code called does. -/
def Endpoint.direct : Callback → Endpoint pl κ τ → Endpoint pl κ τ
  | .startRequest flags _ requestId, e =>
      if IsResponse flags then
        e.beginFrame
      else
        match e.processor.incomingRequest with
        | some k => e.beginFrame.invoke (some k) (.incomingRequest flags requestId)
        | none => e.beginFrame
  | .next flags requestId contents, e =>
      if IsResponse flags then
        if e.processor.currentRequestId ≠ requestId then
          e
        else if IsError flags then
          if e.processor.objectNum = 0 then
            match errorProperty contents with
            | some error => e.storeError error.value
            | none => e
          else
            e
        else
          match e.processor.requestObjectCallback with
          | some k =>
              e.countObject.invoke (some k) (.object e.processor.objectNum contents)
          | none => e
      else
        match e.processor.incomingObject with
        | some k => e.invoke (some k) (.incomingObject flags requestId contents)
        | none => e
  | .completeRequest flags requestId, e =>
      if IsResponse flags then
        if e.processor.currentRequestId ≠ requestId then
          e
        else if e.processor.notifyError ≠ 0 then
          match e.processor.errorCallback with
          | some k => e.invoke (some k) (.error (errorStrText e.processor.tail))
          | none => e
        else
          e.invoke e.processor.responseCallback .response
      else
        e.invoke e.processor.incomingComplete (.incomingComplete flags requestId)

section Responses

variable {e : Endpoint pl κ τ} {flags : UInt8} {requestId : UInt16}

/-- An object of a response with another id is dropped. -/
theorem direct_next_of_other {contents : List Property} (hresponse : IsResponse flags)
    (hid : e.processor.currentRequestId ≠ requestId) :
    e.direct (.next flags requestId contents) = e := by
  rw [Endpoint.direct, if_pos hresponse, if_pos hid]

theorem direct_complete_of_other (hresponse : IsResponse flags)
    (hid : e.processor.currentRequestId ≠ requestId) :
    e.direct (.completeRequest flags requestId) = e := by
  rw [Endpoint.direct, if_pos hresponse, if_pos hid]

theorem direct_complete_of_raised {k : κ} (hresponse : IsResponse flags)
    (hid : e.processor.currentRequestId = requestId) (hraised : e.processor.notifyError ≠ 0)
    (hk : e.processor.errorCallback = some k) :
    e.direct (.completeRequest flags requestId) =
      e.invoke (some k) (.error (errorStrText e.processor.tail)) := by
  rw [Endpoint.direct, if_pos hresponse, if_neg (not_not.mpr hid), if_pos hraised, hk]

theorem direct_complete_of_quiet (hresponse : IsResponse flags)
    (hid : e.processor.currentRequestId = requestId) (hquiet : e.processor.notifyError = 0) :
    e.direct (.completeRequest flags requestId) =
      e.invoke e.processor.responseCallback .response := by
  rw [Endpoint.direct, if_pos hresponse, if_neg (not_not.mpr hid), if_neg (not_not.mpr hquiet)]

end Responses

/-- The pointer that a completion is about to call without a test is not NULL. -/
def Endpoint.Callable (e : Endpoint pl κ τ) : Callback → Prop
  | .startRequest _ _ _ => True
  | .next _ _ _ => True
  | .completeRequest flags requestId =>
      if IsResponse flags then
        e.processor.currentRequestId = requestId → e.processor.notifyError = 0 →
          e.processor.responseCallback ≠ none
      else
        e.processor.incomingComplete ≠ none

/-- The bytes that a callback makes the layer copy into `error_str`. -/
def Endpoint.acceptedError (e : Endpoint pl κ τ) : Callback → Option (List UInt8)
  | .startRequest _ _ _ => none
  | .next flags requestId contents =>
      if IsResponse flags ∧ e.processor.currentRequestId = requestId ∧ IsError flags ∧
          e.processor.objectNum = 0 then
        (errorProperty contents).map Property.value
      else
        none
  | .completeRequest _ _ => none

/-- The cases of the direct part: it counts a header, it does nothing, it copies
an error text, it passes an object on, or a completion makes its call. -/
inductive Directs (e : Endpoint pl κ τ) : Callback → Endpoint pl κ τ → Prop
  | header {flags : UInt8} {size requestId : UInt16} :
      Directs e (.startRequest flags size requestId) e.beginFrame
  | request {flags : UInt8} {size requestId : UInt16} {k : κ} :
      Directs e (.startRequest flags size requestId)
        (e.beginFrame.invoke (some k) (.incomingRequest flags requestId))
  | dropped {flags : UInt8} {requestId : UInt16} {contents : List Property}
      (hnone : e.acceptedError (.next flags requestId contents) = none) :
      Directs e (.next flags requestId contents) e
  | stored {flags : UInt8} {requestId : UInt16} {contents : List Property} {text : List UInt8}
      (haccepted : e.acceptedError (.next flags requestId contents) = some text) :
      Directs e (.next flags requestId contents) (e.storeError text)
  | object {flags : UInt8} {requestId : UInt16} {contents : List Property} {k : κ}
      (hnone : e.acceptedError (.next flags requestId contents) = none) :
      Directs e (.next flags requestId contents)
        (e.countObject.invoke (some k) (.object e.processor.objectNum contents))
  | incomingObject {flags : UInt8} {requestId : UInt16} {contents : List Property} {k : κ}
      (hnone : e.acceptedError (.next flags requestId contents) = none) :
      Directs e (.next flags requestId contents)
        (e.invoke (some k) (.incomingObject flags requestId contents))
  | silent {flags : UInt8} {requestId : UInt16}
      (hcallable : e.Callable (.completeRequest flags requestId)) :
      Directs e (.completeRequest flags requestId) e
  | completion {flags : UInt8} {requestId : UInt16} {pointer : Option κ} {made : ReqCallback}
      (hcallable : e.Callable (.completeRequest flags requestId) ↔ pointer ≠ none) :
      Directs e (.completeRequest flags requestId) (e.invoke pointer made)

theorem directs_startRequest (flags : UInt8) (size requestId : UInt16) (e : Endpoint pl κ τ) :
    Directs e (.startRequest flags size requestId)
      (e.direct (.startRequest flags size requestId)) := by
  rw [Endpoint.direct]
  split
  · exact .header
  · split
    · exact .request
    · exact .header

theorem directs_next (flags : UInt8) (requestId : UInt16) (contents : List Property)
    (e : Endpoint pl κ τ) :
    Directs e (.next flags requestId contents) (e.direct (.next flags requestId contents)) := by
  have hnone : ¬ (IsResponse flags ∧ e.processor.currentRequestId = requestId ∧ IsError flags ∧
      e.processor.objectNum = 0) → e.acceptedError (.next flags requestId contents) = none :=
    fun hguard => if_neg hguard
  rw [Endpoint.direct]
  by_cases hresponse : IsResponse flags
  · rw [if_pos hresponse]
    by_cases hid : e.processor.currentRequestId ≠ requestId
    · rw [if_pos hid]
      exact .dropped (hnone fun hguard => hid hguard.2.1)
    · rw [if_neg hid]
      by_cases herror : IsError flags
      · rw [if_pos herror]
        by_cases hnum : e.processor.objectNum = 0
        · have haccepted : e.acceptedError (.next flags requestId contents) =
              (errorProperty contents).map Property.value :=
            if_pos ⟨hresponse, not_not.mp hid, herror, hnum⟩
          rw [if_pos hnum]
          cases hfind : errorProperty contents with
          | none => exact .dropped (by rw [haccepted, hfind]; rfl)
          | some error => exact .stored (by rw [haccepted, hfind]; rfl)
        · rw [if_neg hnum]
          exact .dropped (hnone fun hguard => hnum hguard.2.2.2)
      · rw [if_neg herror]
        have hquiet := hnone fun hguard => herror hguard.2.2.1
        cases e.processor.requestObjectCallback with
        | none => exact .dropped hquiet
        | some k => exact .object hquiet
  · rw [if_neg hresponse]
    have hquiet := hnone fun hguard => hresponse hguard.1
    cases e.processor.incomingObject with
    | none => exact .dropped hquiet
    | some k => exact .incomingObject hquiet

theorem directs_completeRequest (flags : UInt8) (requestId : UInt16) (e : Endpoint pl κ τ) :
    Directs e (.completeRequest flags requestId)
      (e.direct (.completeRequest flags requestId)) := by
  rw [Endpoint.direct]
  by_cases hresponse : IsResponse flags
  · have hcallable : e.Callable (.completeRequest flags requestId) ↔
        (e.processor.currentRequestId = requestId → e.processor.notifyError = 0 →
          e.processor.responseCallback ≠ none) := by
      rw [Endpoint.Callable, if_pos hresponse]
    rw [if_pos hresponse]
    by_cases hid : e.processor.currentRequestId ≠ requestId
    · rw [if_pos hid]
      exact .silent (hcallable.mpr fun heq => absurd heq hid)
    · rw [if_neg hid]
      by_cases herror : e.processor.notifyError ≠ 0
      -- the error callback is tested before it is called
      · have hsafe := hcallable.mpr fun _ hzero => absurd hzero herror
        rw [if_pos herror]
        cases e.processor.errorCallback with
        | none => exact .silent hsafe
        | some k => exact .completion ⟨fun _ => Option.some_ne_none k, fun _ => hsafe⟩
      -- the response callback is not
      · rw [if_neg herror]
        refine .completion (hcallable.trans ?_)
        exact ⟨fun h => h (not_not.mp hid) (not_not.mp herror), fun h _ _ => h⟩
  · have hcallable : e.Callable (.completeRequest flags requestId) ↔
        e.processor.incomingComplete ≠ none := by
      rw [Endpoint.Callable, if_neg hresponse]
    rw [if_neg hresponse]
    exact .completion hcallable

/-- **What the direct part does.** -/
theorem direct_spec (callback : Callback) (e : Endpoint pl κ τ) :
    Directs e callback (e.direct callback) := by
  cases callback with
  | startRequest flags size requestId => exact directs_startRequest flags size requestId e
  | next flags requestId contents => exact directs_next flags requestId contents e
  | completeRequest flags requestId => exact directs_completeRequest flags requestId e

/-- A response completes whose id is not that of the latest request. -/
def Endpoint.Stale (e : Endpoint pl κ τ) : Callback → Prop
  | .startRequest _ _ _ => False
  | .next _ _ _ => False
  | .completeRequest flags requestId =>
      IsResponse flags ∧ e.processor.currentRequestId ≠ requestId

instance (e : Endpoint pl κ τ) (callback : Callback) : Decidable (e.Stale callback) := by
  cases callback with
  | startRequest flags size requestId => exact .isFalse id
  | next flags requestId contents => exact .isFalse id
  | completeRequest flags requestId => exact inferInstanceAs (Decidable (_ ∧ _))

/-- The answers that the `incoming_complete` callback at `k` may give. -/
def Application.Answers (a : Application pl κ τ) (k : κ) (answer : Answer pl) : Prop :=
  ∃ flags requestId user app e,
    ((a.incomingComplete k flags requestId user app).run a e).1 = answer

variable (a)

/-- What is left to do when the application code has returned, at `e₁`: mostly
nothing; the error flag is cleared; a stale response, or a request whose
callback returned a text, gets an error reply; or the callback sends objects. -/
inductive Settles (e : Endpoint pl κ τ) :
    Callback → Endpoint pl κ τ → Endpoint pl κ τ → Prop
  | nothing {callback : Callback} {e₁ : Endpoint pl κ τ} (hfresh : ¬ e.Stale callback) :
      Settles e callback e₁ e₁
  | reported {flags : UInt8} {requestId : UInt16} {e₁ : Endpoint pl κ τ}
      (hresponse : IsResponse flags) (hid : e.processor.currentRequestId = requestId) :
      Settles e (.completeRequest flags requestId) e₁
        { e₁ with processor := { e₁.processor with notifyError := 0 } }
  | bounced {flags : UInt8} {requestId : UInt16} (hresponse : IsResponse flags)
      (hid : e.processor.currentRequestId ≠ requestId) :
      Settles e (.completeRequest flags requestId) e (e.reply a flags requestId unknownRequestId)
  | replied {flags : UInt8} {requestId : UInt16} {e₁ : Endpoint pl κ τ} {text : CString} {k : κ}
      (hrequest : ¬ IsResponse flags) (hk : e.processor.incomingComplete = some k)
      (hanswer : a.Answers k (.text text)) :
      Settles e (.completeRequest flags requestId) e₁ (e₁.reply a flags requestId text)
  | responded {flags : UInt8} {requestId : UInt16} {e₁ : Endpoint pl κ τ}
      {objects : List (SendableObject pl)} {k : κ} (hrequest : ¬ IsResponse flags)
      (hk : e.processor.incomingComplete = some k) (hanswer : a.Answers k (.objects objects)) :
      Settles e (.completeRequest flags requestId) e₁
        (e₁.answer a requestId (.objects objects)).2

theorem protoReqNewRequest_follows (flags : UInt8) (size requestId : UInt16)
    (e : Endpoint pl κ τ) :
    Follows a (e.direct (.startRequest flags size requestId))
      (protoReqNewRequest a flags requestId e.beginFrame) := by
  rw [protoReqNewRequest, Endpoint.direct]
  by_cases hresponse : IsResponse flags
  · rw [if_pos hresponse, if_pos hresponse]
    exact .refl _
  · rw [if_neg hresponse, if_neg hresponse]
    show Follows a _ (match e.processor.incomingRequest with | some k => _ | none => _)
    cases e.processor.incomingRequest with
    | none => exact .refl _
    | some k => exact Script.run_follows a _ _

theorem protoReqObjectCallback_follows (flags : UInt8) (requestId : UInt16)
    (contents : List Property) (e : Endpoint pl κ τ) :
    Follows a (e.direct (.next flags requestId contents))
      (protoReqObjectCallback a flags requestId (errorProperty contents) contents e) := by
  unfold protoReqObjectCallback
  rw [Endpoint.direct]
  by_cases hresponse : IsResponse flags
  · rw [if_pos hresponse, if_pos hresponse]
    split
    · exact .refl _
    · split
      · exact .refl _
      · cases e.processor.requestObjectCallback with
        | none => exact .refl _
        | some k => exact Script.run_follows a _ _
  · rw [if_neg hresponse, if_neg hresponse]
    cases e.processor.incomingObject with
    | none => exact .refl _
    | some k => exact Script.run_follows a _ _

/-- A response completes. -/
theorem complete_of_response {flags : UInt8} (hresponse : IsResponse flags) (requestId : UInt16)
    (e : Endpoint pl κ τ) :
    ∃ e₁, Follows a (e.direct (.completeRequest flags requestId)) e₁ ∧
      Settles a e (.completeRequest flags requestId) e₁ (e.complete a flags requestId) := by
  rw [Endpoint.complete, protoReqRecv, Endpoint.direct, if_pos hresponse, if_pos hresponse]
  by_cases hid : e.processor.currentRequestId ≠ requestId
  · rw [if_pos hid, if_pos hid]
    exact ⟨e, .refl e, .bounced hresponse hid⟩
  · have heq : e.processor.currentRequestId = requestId := not_not.mp hid
    rw [if_neg hid, if_neg hid]
    by_cases herror : e.processor.notifyError ≠ 0
    · rw [if_pos herror, if_pos herror]
      cases e.processor.errorCallback with
      | none => exact ⟨e, .refl e, .reported hresponse heq⟩
      | some k => exact ⟨_, Script.run_follows a _ _, .reported hresponse heq⟩
    · rw [if_neg herror, if_neg herror]
      cases e.processor.responseCallback with
      | none => exact ⟨_, .refl _, .nothing fun hstale => hstale.2 heq⟩
      | some k => exact ⟨_, Script.run_follows a _ _, .nothing fun hstale => hstale.2 heq⟩

/-- A request completes. -/
theorem complete_of_request {flags : UInt8} (hrequest : ¬ IsResponse flags) (requestId : UInt16)
    (e : Endpoint pl κ τ) :
    ∃ e₁, Follows a (e.direct (.completeRequest flags requestId)) e₁ ∧
      Settles a e (.completeRequest flags requestId) e₁ (e.complete a flags requestId) := by
  rw [Endpoint.complete, protoReqRecv, Endpoint.direct, if_neg hrequest, if_neg hrequest]
  cases hk : e.processor.incomingComplete with
  | none => exact ⟨_, .refl _, .nothing fun hstale => hrequest hstale.1⟩
  | some k =>
      simp only
      generalize hscript : a.incomingComplete k flags requestId (e.processor.user pl) e.app = s
      have hanswers : a.Answers k (s.run a (e.invoke (some k)
          (.incomingComplete flags requestId))).1 := ⟨flags, requestId, _, _, _, by rw [hscript]⟩
      -- the callback has returned; what it answered decides what is left
      refine ⟨_, Script.run_follows a s _, ?_⟩
      cases hanswer : (s.run a (e.invoke (some k) (.incomingComplete flags requestId))).1 with
      | nothing => exact .nothing fun hstale => hrequest hstale.1
      | text text => exact .replied hrequest hk (hanswer ▸ hanswers)
      | objects objects => exact .responded hrequest hk (hanswer ▸ hanswers)

/-- **What a callback does.**  The direct part, then application code, then what
is left to do. -/
theorem react_eq (callback : Callback) (e : Endpoint pl κ τ) :
    ∃ e₁, Follows a (e.direct callback) e₁ ∧ Settles a e callback e₁ (e.react a callback) := by
  cases callback with
  | startRequest flags size requestId =>
      exact ⟨_, protoReqNewRequest_follows a flags size requestId e, .nothing id⟩
  | next flags requestId contents =>
      exact ⟨_, protoReqObjectCallback_follows a flags requestId contents e, .nothing id⟩
  | completeRequest flags requestId =>
      by_cases hresponse : IsResponse flags
      · exact complete_of_response a hresponse requestId e
      · exact complete_of_request a hresponse requestId e

/-! ## From one callback to a run -/

/-- A property that application code neither establishes nor destroys, and that
a callback keeps exactly under `guard`, holds behind a run exactly if `guard`
holds along it. -/
theorem run_iff_along {P : Endpoint pl κ τ → Prop} {guard : Endpoint pl κ τ → Callback → Prop}
    (hfollows : ∀ e e', Follows a e e' → (P e' ↔ P e))
    (hreact : ∀ e callback, P (e.react a callback) ↔ P e ∧ guard e callback)
    (acts : List (Act pl κ τ)) (e : Endpoint pl κ τ) :
    P (e.run a acts) ↔ P e ∧ Along a guard acts e := by
  induction acts generalizing e with
  | nil => exact (and_iff_left trivial).symm
  | cons act acts ih =>
      rw [Endpoint.run_cons, ih]
      cases act with
      | script f => rw [Endpoint.step, hfollows _ _ (Script.run_follows a _ e)]; rfl
      | callback callback => rw [Endpoint.step, hreact, and_assoc]; rfl

end Endpoint

end ZxProto
