import ZxProto.ClientReceive

/-!
# The order of a request's callbacks

What the application sees of the response to a request: object 0, object 1, and
so on, then one completion, and nothing behind it.  The processor keeps no record
of a request being over, and counts objects in 8 bits, so this depends on what
the peer sends.

* `Progress`, `Orderly` — the order, as an automaton over the calls;
* `Endpoint.brings` — what a callback of `process` brings for the latest request;
* `Disciplined` — the peer answers no request twice, and with at most 256 objects;
* `Endpoint.InStep` — the automaton in step with the endpoint;
* `orderly_iff_disciplined` — the calls are in order exactly for such peers.
-/

namespace ZxProto

open ByteMemory

/-! ## The order -/

/-- How far the response to a request has come. -/
structure Progress where
  objects : Nat
  completed : Bool
deriving DecidableEq

/-- Nothing has come yet. -/
def Progress.start : Progress where
  objects := 0
  completed := false

/-- One more callback: an object carries the number of those before it, and
nothing follows a completion. -/
def Progress.deliver (p : Progress) : ReqCallback → Option Progress
  | .object index _ =>
      if p.completed = false ∧ index.toNat = p.objects then
        some { p with objects := p.objects + 1 }
      else
        none
  | .response => if p.completed = false then some { p with completed := true } else none
  | .error _ => if p.completed = false then some { p with completed := true } else none
  | .incomingRequest _ _ => none
  | .incomingObject _ _ _ => none
  | .incomingComplete _ _ => none

/-- The progress behind some calls, if they are in order. -/
def progress {κ : Type} (calls : List (Invocation κ)) : Option Progress :=
  calls.foldlM (fun p call => p.deliver call.callback) Progress.start

/-- The calls are a prefix of: object 0, object 1, …, one completion. -/
def Orderly {κ : Type} (calls : List (Invocation κ)) : Prop :=
  (progress calls).isSome

instance {κ : Type} (calls : List (Invocation κ)) : Decidable (Orderly calls) :=
  inferInstanceAs (Decidable (_ = true))

theorem progress_append {κ : Type} (calls : List (Invocation κ)) (call : Invocation κ) :
    progress (calls ++ [call]) = (progress calls).bind fun p => p.deliver call.callback := by
  unfold progress
  rw [List.foldlM_append]
  cases List.foldlM (fun p call => Progress.deliver p call.callback) Progress.start calls with
  | none => rfl
  | some p =>
      show (p.deliver call.callback).bind some = p.deliver call.callback
      exact Option.bind_fun_some _

theorem orderly_nil {κ : Type} : Orderly ([] : List (Invocation κ)) := rfl

/-- What comes behind does not put the calls before it in order. -/
theorem Orderly.of_isPrefix {κ : Type} {calls calls' : List (Invocation κ)}
    (h : Orderly calls') (hpre : calls <+: calls') : Orderly calls := by
  obtain ⟨rest, rfl⟩ := hpre
  unfold Orderly progress at h ⊢
  rw [List.foldlM_append] at h
  cases hprogress : List.foldlM (fun p call => Progress.deliver p call.callback)
      Progress.start calls with
  | none =>
      rw [hprogress] at h
      cases h
  | some p => rfl

/-! ## What the peer brings -/

/-- A part of the response to a request. -/
inductive Part
  | object
  | completion
deriving DecidableEq

/-- One part more. -/
def Progress.count (p : Progress) : Part → Progress
  | .object => { p with objects := p.objects + 1 }
  | .completion => { p with completed := true }

/-- A part more, if there is one. -/
def Progress.pass (p : Progress) : Option Part → Progress
  | none => p
  | some part => p.count part

/-- The part may come next: the response is not over, and the number of the
object fits the 8-bit counter. -/
def Progress.Admits (p : Progress) : Part → Prop
  | .object => p.completed = false ∧ p.objects < 256
  | .completion => p.completed = false

instance (p : Progress) (part : Part) : Decidable (p.Admits part) := by
  cases part with
  | object => exact inferInstanceAs (Decidable (_ ∧ _))
  | completion => exact inferInstanceAs (Decidable (_ = _))

section Discipline

variable {pl : Platform} {κ τ : Type} (a : Application pl κ τ)

/-- What a callback of `process` brings for the latest request.  An object of a
frame with the error flag is not passed on. -/
def Endpoint.brings (e : Endpoint pl κ τ) : Callback → Option Part
  | .startRequest _ _ _ => none
  | .next flags requestId _ =>
      if IsResponse flags ∧ e.processor.currentRequestId = requestId ∧ ¬ IsError flags then
        some .object
      else
        none
  | .completeRequest flags requestId =>
      if IsResponse flags ∧ e.processor.currentRequestId = requestId then
        some .completion
      else
        none

/-- What has come for the latest request behind an act, counted from the request
on. -/
def Progress.after (p : Progress) (act : Act pl κ τ) (e : Endpoint pl κ τ) : Progress :=
  if (e.step a act).requests.length ≠ e.requests.length then
    .start
  else
    match act with
    | .script _ => p
    | .callback callback => p.pass (e.brings callback)

/-- Whatever the act brings for a request is admitted. -/
def Permitted (p : Progress) (act : Act pl κ τ) (e : Endpoint pl κ τ) : Prop :=
  match act with
  | .script _ => True
  | .callback callback =>
      ∀ part ∈ e.brings callback, e.requests ≠ [] → p.Admits part

instance (p : Progress) (act : Act pl κ τ) (e : Endpoint pl κ τ) : Decidable (Permitted p act e) :=
  match act with
  | .script _ => .isTrue trivial
  | .callback callback =>
      inferInstanceAs (Decidable (∀ part ∈ e.brings callback, e.requests ≠ [] → p.Admits part))

/-- Along the run, no response goes on behind its completion, and none has more
than 256 objects. -/
def Disciplined : List (Act pl κ τ) → Endpoint pl κ τ → Progress → Prop
  | [], _, _ => True
  | act :: acts, e, p => Permitted p act e ∧ Disciplined acts (e.step a act) (p.after a act e)

instance decidableDisciplined (acts : List (Act pl κ τ)) (e : Endpoint pl κ τ) (p : Progress) :
    Decidable (Disciplined a acts e p) :=
  match acts with
  | [] => .isTrue trivial
  | act :: acts =>
      have := decidableDisciplined acts (e.step a act) (p.after a act e)
      inferInstanceAs (Decidable (_ ∧ _))

/-- All the calls made for a request are in order. -/
def Endpoint.AllOrderly (e : Endpoint pl κ τ) : Prop :=
  ∀ number, 1 ≤ number → Orderly (e.callsOf number)

/-- All three callbacks of the request are given. -/
structure Request.Armed (r : Request pl κ) : Prop where
  objectCallback : r.objectCallback ≠ none
  cb : r.cb ≠ none
  err : r.err ≠ none

/-! ## The automaton in step with the endpoint -/

/-- The calls are in order, and `p` tells how far those of the latest request
have come; the 8-bit counter agrees with it. -/
structure Endpoint.InStep (incomingRequest incomingObject incomingComplete : Option κ)
    (e : Endpoint pl κ τ) (p : Progress) : Prop where
  installed : Installed incomingRequest incomingObject incomingComplete e
  log_le : ∀ call ∈ e.log, call.request ≤ e.requests.length
  earlier : ∀ number, 1 ≤ number → number < e.requests.length → Orderly (e.callsOf number)
  current : e.requests ≠ [] → progress (e.callsOf e.requests.length) = some p ∧
    e.processor.objectNum = UInt8.ofNat p.objects ∧ p.objects ≤ 256

variable {a} {incomingRequest incomingObject incomingComplete : Option κ}
  {e e' : Endpoint pl κ τ} {p : Progress}

/-- Nothing is called for a request that was not issued. -/
theorem callsOf_eq_nil_of_lt (hlog : ∀ call ∈ e.log, call.request ≤ e.requests.length)
    {number : Nat} (hlt : e.requests.length < number) : e.callsOf number = [] := by
  refine List.filter_eq_nil_iff.mpr fun call hcall => ?_
  have hle := hlog call hcall
  simp only [Bool.and_eq_true, beq_iff_eq, not_and]
  intro _
  omega

theorem Endpoint.InStep.allOrderly
    (h : e.InStep incomingRequest incomingObject incomingComplete p) : e.AllOrderly := by
  intro number hpos
  rcases Nat.lt_trichotomy number e.requests.length with hlt | rfl | hgt
  · exact h.earlier number hpos hlt
  · have hne : e.requests ≠ [] := List.ne_nil_of_length_pos hpos
    unfold Orderly
    rw [(h.current hne).1]
    rfl
  · rw [callsOf_eq_nil_of_lt h.log_le hgt]
    exact orderly_nil

/-- Application code leaves the counters alone, or issues a request that resets
them. -/
theorem Follows.counters (hfollows : Follows a e e') :
    (e'.requests = e.requests ∧ e'.processor = e.processor) ∨
      (e.requests.length < e'.requests.length ∧ e'.processor.objectNum = 0 ∧
        e'.processor.notifyError = 0) := by
  refine hfollows.keeps (P := fun e' => (e'.requests = e.requests ∧ e'.processor = e.processor) ∨
    (e.requests.length < e'.requests.length ∧ e'.processor.objectNum = 0 ∧
      e'.processor.notifyError = 0)) ?_ ?_ ?_ (Or.inl ⟨rfl, rfl⟩)
  · exact fun _ _ h => h
  · rintro _ _ ⟨_, _, rfl⟩ h
    exact h
  · intro r e' h
    right
    have hlength : (e'.install r).requests.length = e'.requests.length + 1 := by
      show (e'.requests ++ [r]).length = _
      rw [List.length_append, List.length_singleton]
    rcases h with ⟨hrequests, -⟩ | ⟨hlt, -, -⟩
    · refine ⟨?_, rfl, rfl⟩
      rw [hlength, hrequests]
      omega
    · refine ⟨?_, rfl, rfl⟩
      omega

/-- What is left to do behind application code does not count objects, and at
most clears the error flag. -/
theorem Settles.counters {e₁ : Endpoint pl κ τ} {callback : Callback}
    (hsettles : Settles a e callback e₁ e') :
    e'.processor.objectNum = e₁.processor.objectNum ∧
      (e'.processor.notifyError = e₁.processor.notifyError ∨ e'.processor.notifyError = 0) := by
  cases hsettles with
  | nothing => exact ⟨rfl, Or.inl rfl⟩
  | reported => exact ⟨rfl, Or.inr rfl⟩
  | @bounced flags requestId =>
      obtain ⟨sends, wire, heq⟩ := e.reply_sent (a := a) flags requestId unknownRequestId
      rw [heq]
      exact ⟨rfl, Or.inl rfl⟩
  | @replied flags requestId _ text =>
      obtain ⟨sends, wire, heq⟩ := e₁.reply_sent (a := a) flags requestId text
      rw [heq]
      exact ⟨rfl, Or.inl rfl⟩
  | @responded flags requestId _ objects =>
      obtain ⟨sends, wire, heq⟩ := e₁.answer_sent (a := a) requestId objects
      rw [heq]
      exact ⟨rfl, Or.inl rfl⟩

theorem callsOf_congr (hlog : e'.log = e.log) (number : Nat) :
    e'.callsOf number = e.callsOf number := by
  rw [Endpoint.callsOf, hlog]
  rfl

/-- Application code runs: the automaton starts again if it issues a request. -/
theorem Endpoint.InStep.follows
    (h : e.InStep incomingRequest incomingObject incomingComplete p)
    (hfollows : Follows a e e') :
    e'.InStep incomingRequest incomingObject incomingComplete
      (if e'.requests.length ≠ e.requests.length then .start else p) := by
  have hlog := hfollows.untouched.log
  have hcalls := callsOf_congr hlog
  have hinstalled := h.installed.follows hfollows
  rcases hfollows.counters with ⟨hrequests, hprocessor⟩ | ⟨hlt, hnum, -⟩
  · rw [hrequests, if_neg (not_not.mpr rfl)]
    refine ⟨hinstalled, ?_, ?_, ?_⟩
    · rw [hlog, hrequests]
      exact h.log_le
    · intro number hpos hlt
      rw [hcalls]
      exact h.earlier number hpos (hrequests ▸ hlt)
    · rw [hrequests, hcalls, hprocessor]
      exact h.current
  · rw [if_pos hlt.ne']
    refine ⟨hinstalled, ?_, ?_, ?_⟩
    · rw [hlog]
      exact fun call hcall => (h.log_le call hcall).trans hlt.le
    · intro number hpos _
      rw [hcalls]
      exact h.allOrderly number hpos
    · intro _
      rw [hcalls, callsOf_eq_nil_of_lt h.log_le hlt]
      exact ⟨rfl, hnum, Nat.zero_le _⟩

theorem Endpoint.InStep.settles {e₀ : Endpoint pl κ τ} {callback : Callback}
    (h : e.InStep incomingRequest incomingObject incomingComplete p)
    (hsettles : Settles a e₀ callback e e') :
    e'.InStep incomingRequest incomingObject incomingComplete p := by
  have hclosed := hsettles.closed
  have hcalls := callsOf_congr hclosed.log
  refine ⟨h.installed.steady hclosed.toSteady, ?_, ?_, ?_⟩
  · rw [hclosed.log, hclosed.requests]
    exact h.log_le
  · intro number hpos hlt
    rw [hcalls]
    exact h.earlier number hpos (hclosed.requests ▸ hlt)
  · rw [hclosed.requests, hcalls, hsettles.counters.1]
    exact h.current

/-! ## One callback -/

theorem callsOf_invoke_other (e : Endpoint pl κ τ) (pointer : Option κ) {made : ReqCallback}
    (hmade : made.ofRequest = false) (number : Nat) :
    (e.invoke pointer made).callsOf number = e.callsOf number := by
  rw [Endpoint.callsOf, Endpoint.invoke, List.filter_append, ← Endpoint.callsOf]
  simp [hmade]

/-- A callback adds to the calls of the latest request only. -/
theorem direct_callsOf_of_ne (callback : Callback) {number : Nat}
    (hne : number ≠ e.requests.length) :
    (e.direct callback).callsOf number = e.callsOf number := by
  obtain ⟨new, hlog, hnew⟩ := direct_log callback e
  have hnone : new.filter (fun call => call.callback.ofRequest && call.request == number) = [] := by
    refine List.filter_eq_nil_iff.mpr fun call hcall => ?_
    rw [hnew call hcall]
    simp only [Bool.and_eq_true, beq_iff_eq, not_and]
    exact fun _ heq => hne heq.symm
  rw [Endpoint.callsOf, hlog, List.filter_append, ← Endpoint.callsOf, hnone, List.append_nil]

theorem direct_log_le (hlog : ∀ call ∈ e.log, call.request ≤ e.requests.length)
    (callback : Callback) :
    ∀ call ∈ (e.direct callback).log, call.request ≤ (e.direct callback).requests.length := by
  obtain ⟨new, hnew, hstamp⟩ := direct_log callback e
  rw [hnew, (direct_steady callback e).requests]
  intro call hcall
  rcases List.mem_append.mp hcall with hcall | hcall
  · exact hlog call hcall
  · exact (hstamp call hcall).le

/-- A callback that brings nothing calls none of the request's callbacks. -/
theorem direct_of_brings_none {callback : Callback} (hnone : e.brings callback = none)
    (number : Nat) :
    (e.direct callback).callsOf number = e.callsOf number ∧
      (e.direct callback).processor.objectNum = e.processor.objectNum := by
  cases callback with
  | startRequest flags size requestId =>
      rw [Endpoint.direct]
      split
      · exact ⟨rfl, rfl⟩
      · split
        · exact ⟨callsOf_invoke_other e.beginFrame _ rfl number, rfl⟩
        · exact ⟨rfl, rfl⟩
  | next flags requestId contents =>
      rw [Endpoint.brings] at hnone
      by_cases hresponse : IsResponse flags
      · by_cases hid : e.processor.currentRequestId ≠ requestId
        · rw [direct_next_of_other hresponse hid]
          exact ⟨rfl, rfl⟩
        · rw [Endpoint.direct, if_pos hresponse, if_neg hid]
          -- an object that matches is passed on, but for the error flag
          have herror : IsError flags := by
            refine not_not.mp fun herror => ?_
            rw [if_pos ⟨hresponse, not_not.mp hid, herror⟩] at hnone
            cases hnone
          rw [if_pos herror]
          split
          · split <;> exact ⟨rfl, rfl⟩
          · exact ⟨rfl, rfl⟩
      · rw [Endpoint.direct, if_neg hresponse]
        split
        · exact ⟨callsOf_invoke_other e _ rfl number, rfl⟩
        · exact ⟨rfl, rfl⟩
  | completeRequest flags requestId =>
      rw [Endpoint.brings] at hnone
      by_cases hresponse : IsResponse flags
      · have hid : e.processor.currentRequestId ≠ requestId := by
          intro hid
          rw [if_pos ⟨hresponse, hid⟩] at hnone
          cases hnone
        rw [direct_complete_of_other hresponse hid]
        exact ⟨rfl, rfl⟩
      · rw [Endpoint.direct, if_neg hresponse]
        exact ⟨callsOf_invoke_other e _ rfl number, rfl⟩

/-- The call that shows a part: an object with the value of the counter, or a
completion. -/
def Part.ShownBy (objectNum : UInt8) : Part → ReqCallback → Prop
  | .object, made => ∃ contents, made = .object objectNum contents
  | .completion, made => made = .response ∨ ∃ text, made = .error text

/-- A callback that brings a part for a request makes the call that shows it. -/
theorem direct_of_brings_some {r : Request pl κ}
    (he : Installed incomingRequest incomingObject incomingComplete e)
    (hlast : e.requests.getLast? = some r) (hr : r.Armed) {callback : Callback} {part : Part}
    (hpart : e.brings callback = some part) :
    ∃ pointer made, part.ShownBy e.processor.objectNum made ∧
      (e.direct callback).callsOf e.requests.length =
        e.callsOf e.requests.length ++ [⟨pointer, made, e.requests.length, e.started⟩] ∧
      (e.direct callback).processor.objectNum =
        e.processor.objectNum + (if part = .object then 1 else 0) := by
  have hobjects : e.processor.requestObjectCallback = r.objectCallback := by
    rw [he.objectCallback, hlast, Option.bind_some]
  have herrors : e.processor.errorCallback = r.err := by
    rw [he.errorCallback, hlast, Option.bind_some]
  cases callback with
  | startRequest flags size requestId => cases hpart
  | next flags requestId contents =>
      rw [Endpoint.brings] at hpart
      split at hpart
      · next hmatch =>
          cases hpart
          obtain ⟨hresponse, hid, herror⟩ := hmatch
          obtain ⟨k, hk⟩ := Option.ne_none_iff_exists'.mp hr.objectCallback
          rw [Endpoint.direct, if_pos hresponse, if_neg (not_not.mpr hid), if_neg herror, hobjects,
            hk]
          exact ⟨some k, _, ⟨contents, rfl⟩, callsOf_invoke e.countObject (some k) rfl, rfl⟩
      · cases hpart
  | completeRequest flags requestId =>
      rw [Endpoint.brings] at hpart
      split at hpart
      · next hmatch =>
          cases hpart
          obtain ⟨hresponse, hid⟩ := hmatch
          have hsame : e.processor.objectNum = e.processor.objectNum + 0 := (UInt8.add_zero _).symm
          rw [Endpoint.direct, if_pos hresponse, if_neg (not_not.mpr hid)]
          split
          · obtain ⟨k, hk⟩ := Option.ne_none_iff_exists'.mp hr.err
            rw [herrors, hk]
            exact ⟨some k, _, Or.inr ⟨_, rfl⟩, callsOf_invoke e (some k) rfl, hsame⟩
          · exact ⟨_, _, Or.inl rfl, callsOf_invoke e _ rfl, hsame⟩
      · cases hpart

/-- The automaton takes the call that shows a part exactly if the part is
admitted: behind 256 objects the 8-bit counter starts again at 0. -/
theorem Progress.deliver_of_shown {objectNum : UInt8} {part : Part} {made : ReqCallback}
    (hnum : objectNum = UInt8.ofNat p.objects) (hle : p.objects ≤ 256)
    (hshown : part.ShownBy objectNum made) :
    p.deliver made = if p.Admits part then some (p.count part) else none := by
  cases part with
  | object =>
      obtain ⟨contents, rfl⟩ := hshown
      have hindex : objectNum.toNat = p.objects ↔ p.objects < 256 := by
        rw [hnum, UInt8.toNat_ofNat']
        omega
      exact if_congr (and_congr_right' hindex) rfl rfl
  | completion =>
      rcases hshown with rfl | ⟨text, rfl⟩
      · rfl
      · rfl

/-- The automaton behind the direct part of a callback. -/
theorem Endpoint.InStep.direct
    (h : e.InStep incomingRequest incomingObject incomingComplete p)
    (harmed : ∀ r ∈ e.requests, r.Armed) {callback : Callback}
    (hpermitted : ∀ part ∈ e.brings callback, e.requests ≠ [] → p.Admits part) :
    (e.direct callback).InStep incomingRequest incomingObject incomingComplete
      (p.pass (e.brings callback)) := by
  have hrequests := (direct_steady callback e).requests
  refine ⟨h.installed.steady (direct_steady callback e), direct_log_le h.log_le callback, ?_, ?_⟩
  · intro number hpos hlt
    rw [hrequests] at hlt
    rw [direct_callsOf_of_ne callback hlt.ne]
    exact h.earlier number hpos hlt
  · rw [hrequests]
    intro hne
    obtain ⟨hprogress, hnum, hle⟩ := h.current hne
    cases hpart : e.brings callback with
    | none =>
        obtain ⟨hcalls, hcount⟩ := direct_of_brings_none hpart e.requests.length
        rw [hcalls, hcount]
        exact ⟨hprogress, hnum, hle⟩
    | some part =>
        have hlast := List.getLast?_eq_some_getLast hne
        obtain ⟨pointer, made, hshown, hcalls, hcount⟩ := direct_of_brings_some h.installed hlast
          (harmed _ (List.getLast_mem hne)) hpart
        have hadmits : p.Admits part := hpermitted part hpart hne
        have hdeliver := Progress.deliver_of_shown hnum hle hshown
        rw [if_pos hadmits] at hdeliver
        rw [hcalls, progress_append, hprogress, Option.bind_some, hdeliver, hcount, hnum]
        refine ⟨rfl, ?_⟩
        cases part with
        | object => exact ⟨(UInt8.ofNat_add _ _).symm, hadmits.2⟩
        | completion => exact ⟨UInt8.add_zero _, hle⟩

/-- A part that is not admitted puts the calls out of order. -/
theorem Endpoint.InStep.not_allOrderly_direct
    (h : e.InStep incomingRequest incomingObject incomingComplete p)
    (harmed : ∀ r ∈ e.requests, r.Armed) {callback : Callback} {part : Part}
    (hpart : e.brings callback = some part) (hne : e.requests ≠ [])
    (hadmits : ¬ p.Admits part) : ¬ (e.direct callback).AllOrderly := by
  intro horderly
  obtain ⟨hprogress, hnum, hle⟩ := h.current hne
  have hlast := List.getLast?_eq_some_getLast hne
  obtain ⟨pointer, made, hshown, hcalls, -⟩ := direct_of_brings_some h.installed hlast
    (harmed _ (List.getLast_mem hne)) hpart
  have hdeliver := Progress.deliver_of_shown hnum hle hshown
  rw [if_neg hadmits] at hdeliver
  have hcurrent := horderly e.requests.length (List.length_pos_of_ne_nil hne)
  rw [Orderly, hcalls, progress_append, hprogress, Option.bind_some, hdeliver] at hcurrent
  cases hcurrent

/-! ## Runs -/

theorem allOrderly_congr (hlog : e'.log = e.log) : e'.AllOrderly ↔ e.AllOrderly := by
  refine forall₂_congr fun number _ => ?_
  rw [callsOf_congr hlog]

theorem prefix_log_step (act : Act pl κ τ) (e : Endpoint pl κ τ) :
    e.log <+: (e.step a act).log := by
  cases act with
  | script f => exact (Script.run_follows a _ e).untouched.log ▸ List.prefix_rfl
  | callback callback =>
      obtain ⟨new, hlog, -⟩ := direct_log callback e
      rw [Endpoint.step, react_log, hlog]
      exact List.prefix_append _ _

theorem prefix_log_run (acts : List (Act pl κ τ)) (e : Endpoint pl κ τ) :
    e.log <+: (e.run a acts).log := by
  induction acts generalizing e with
  | nil => exact List.prefix_rfl
  | cons act acts ih => exact (prefix_log_step act e).trans (ih _)

/-- What is out of order stays so. -/
theorem allOrderly_of_run {acts : List (Act pl κ τ)} (h : (e.run a acts).AllOrderly) :
    e.AllOrderly :=
  fun number hpos => (h number hpos).of_isPrefix ((prefix_log_run acts e).filter _)

/-- **One act.**  The automaton stays in step if what the act brings is admitted. -/
theorem Endpoint.InStep.step
    (h : e.InStep incomingRequest incomingObject incomingComplete p)
    (harmed : ∀ r ∈ e.requests, r.Armed) {act : Act pl κ τ} (hpermitted : Permitted p act e) :
    (e.step a act).InStep incomingRequest incomingObject incomingComplete (p.after a act e) := by
  cases act with
  | script f => exact h.follows (Script.run_follows a _ e)
  | callback callback =>
      obtain ⟨e₁, hfollows, hsettles⟩ := react_eq a callback e
      have hdirect := ((h.direct harmed hpermitted).follows hfollows).settles hsettles
      rwa [← hsettles.closed.requests, (direct_steady callback e).requests] at hdirect

/-- Otherwise the calls are out of order behind it. -/
theorem Endpoint.InStep.not_allOrderly_step
    (h : e.InStep incomingRequest incomingObject incomingComplete p)
    (harmed : ∀ r ∈ e.requests, r.Armed) {act : Act pl κ τ} (hnot : ¬ Permitted p act e) :
    ¬ (e.step a act).AllOrderly := by
  cases act with
  | script f => exact absurd trivial hnot
  | callback callback =>
      unfold Permitted at hnot
      push Not at hnot
      obtain ⟨part, hpart, hne, hadmits⟩ := hnot
      rw [Endpoint.step, allOrderly_congr (react_log callback e)]
      exact h.not_allOrderly_direct harmed hpart hne hadmits

theorem Endpoint.InStep.run_iff
    (h : e.InStep incomingRequest incomingObject incomingComplete p) {acts : List (Act pl κ τ)}
    (harmed : ∀ r ∈ (e.run a acts).requests, r.Armed) :
    (e.run a acts).AllOrderly ↔ Disciplined a acts e p := by
  induction acts generalizing e p with
  | nil => exact iff_of_true h.allOrderly trivial
  | cons act acts ih =>
      have hnow : ∀ r ∈ e.requests, r.Armed := fun r hr =>
        harmed r ((prefix_requests_run (act :: acts) e).subset hr)
      by_cases hpermitted : Permitted p act e
      · rw [Endpoint.run_cons, ih (h.step hnow hpermitted) harmed]
        exact (and_iff_right hpermitted).symm
      · refine iff_of_false (fun horderly => ?_) fun hdisciplined => hpermitted hdisciplined.1
        exact h.not_allOrderly_step hnow hpermitted (allOrderly_of_run horderly)

/-- **The order of the callbacks.**  From a zeroed and initialised struct, in every
run of requests with all callbacks and of callbacks from any peer, the calls made
for each request are object 0, object 1, …, then one completion and nothing more,
if and only if the peer sends nothing for a request behind the completion of its
response, and at most 256 objects for it. -/
theorem orderly_iff_disciplined (a : Application pl κ τ)
    (incomingRequest incomingObject incomingComplete : Option κ) (user : Nat) (app : τ)
    (acts : List (Act pl κ τ))
    (harmed : ∀ r ∈ ((Endpoint.start pl incomingRequest incomingObject incomingComplete user
      app).run a acts).requests, r.Armed) :
    ((Endpoint.start pl incomingRequest incomingObject incomingComplete user app).run
        a acts).AllOrderly ↔
      Disciplined a acts
        (Endpoint.start pl incomingRequest incomingObject incomingComplete user app) .start := by
  have hstart : (Endpoint.start pl incomingRequest incomingObject incomingComplete user
      app).InStep incomingRequest incomingObject incomingComplete .start :=
    ⟨installed_start user app, fun call hcall => absurd hcall List.not_mem_nil,
      fun _ _ hlt => absurd hlt (Nat.not_lt_zero _), fun hne => absurd rfl hne⟩
  exact hstart.run_iff harmed

/-- A request with all three callbacks. -/
def exampleRequest : Request .pc Nat where
  object := .allocate .pc (fun _ => 0) 512 [] (Nat.zero_le 255) (Nat.zero_le 65533)
  objectCallback := some 1
  cb := some 2
  err := some 3

/-- Two objects and a completion, and then nothing for the request. -/
theorem orderly_one_response :
    ((Endpoint.start .pc none none none 4096 ()).run (Application.quiet .pc Nat Unit)
      [.script fun _ => .request exampleRequest fun _ => .done () (),
        .callback (.startRequest protoFlagResponse 4 1), .callback (.next protoFlagResponse 1 []),
        .callback (.next protoFlagResponse 1 []),
        .callback (.completeRequest protoFlagResponse 1)]).AllOrderly := by
  refine (orderly_iff_disciplined (Application.quiet .pc Nat Unit) none none none 4096 () _
    ?_).mpr ?_
  · intro r hr
    rw [show r = exampleRequest from List.mem_singleton.mp hr]
    exact ⟨Option.some_ne_none _, Option.some_ne_none _, Option.some_ne_none _⟩
  · decide +kernel

/-- The response to a request arrives twice: the request is completed twice. -/
theorem not_orderly_response_twice :
    let client := (Endpoint.start .pc none none none 4096 ()).run (Application.quiet .pc Nat Unit)
      [.script fun _ => .request exampleRequest fun _ => .done () ()]
    let response : WireFrame :=
      ⟨protoFlagResponse, 1, [[]], List.cons_ne_nil _ _, by decide⟩
    let received := (recvAll .pc (reqHost (Application.quiet .pc Nat Unit))
      (Conn.init 64 16 (fun _ => 0) ⟨0, []⟩ client 0)
      [.received response.bytes, .received response.bytes]).2.app
    ¬ received.AllOrderly ∧
      (received.callsOf 1).map Invocation.made =
        [(some 1, .object 0 []), (some 2, .response), (some 1, .object 1 []),
          (some 2, .response)] := by
  intro client response received
  refine ⟨fun horderly => ?_, by decide +kernel⟩
  have htwice : ¬ Orderly (received.callsOf 1) := by decide +kernel
  exact htwice (horderly 1 le_rfl)

end Discipline

end ZxProto
