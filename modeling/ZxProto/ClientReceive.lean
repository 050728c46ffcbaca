import ZxProto.ClientSide

/-!
# The client receives

The client keeps its invariant at every callback.  A frame whose id is not that
of the latest request leaves the phase alone; the frame with its id takes it
from waiting through its objects to the end.

* `ClientSide.advance` — what is left to check when the client comes to a new
  position;
* `ClientSide.header`, `ClientSide.object`, `ClientSide.completion` — the three
  kinds of callbacks;
* `ClientSide.react` — a callback, with the application code that it runs.
-/

namespace ZxProto

section Receive

variable {plC plS : Platform} {κC τC : Type} {c c' : Endpoint plC κC τC}
  {frames : List (SentFrame plS)} {p : Position}
  {incomingRequest incomingObject incomingComplete : Option κC}

/-! ## A callback at the client -/

theorem Due.within {pl : Platform} {frames : List (SentFrame pl)} {p p' : Position}
    {callback : Callback} (hdue : Due frames p callback p') : p'.Within frames := by
  cases hdue with
  | header hf _ => exact ⟨_, hf, Nat.zero_le _⟩
  | object hf _ hbody => exact ⟨_, hf, (List.getElem?_eq_some_iff.mp hbody).1⟩
  | completion hf _ _ => exact (List.getElem?_eq_some_iff.mp hf).1

/-- Only a header starts a frame. -/
theorem direct_started {pl : Platform} {κ τ : Type} (callback : Callback) (e : Endpoint pl κ τ) :
    (e.direct callback).started =
      match callback with
      | .startRequest _ _ _ => e.started + 1
      | .next _ _ _ => e.started
      | .completeRequest _ _ => e.started := by
  have hspec := direct_spec callback e
  generalize e.direct callback = e' at hspec
  cases hspec <;> rfl

/-- The number of frames started follows the position. -/
theorem Due.started {pl pl' : Platform} {κ τ : Type} {frames : List (SentFrame pl)}
    {p p' : Position} {callback : Callback} (hdue : Due frames p callback p')
    {e : Endpoint pl' κ τ} (he : e.started = p.started) :
    (e.direct callback).started = p'.started := by
  rw [direct_started]
  cases hdue with
  | header _ hp =>
      rw [he, Position.started, hp]
      rfl
  | object _ hp _ =>
      rw [he, Position.started, hp]
      rfl
  | completion _ hp _ =>
      rw [he, Position.started, hp]
      rfl

/-- The direct part of a callback makes at most one call, with the number of the
latest request. -/
theorem direct_log {pl : Platform} {κ τ : Type} (callback : Callback) (e : Endpoint pl κ τ) :
    ∃ new, (e.direct callback).log = e.log ++ new ∧
      ∀ call ∈ new, call.request = e.requests.length := by
  have hspec := direct_spec callback e
  generalize e.direct callback = e' at hspec
  have hquiet : ∃ new : List (Invocation κ), e.log = e.log ++ new ∧
      ∀ call ∈ new, call.request = e.requests.length :=
    ⟨[], (List.append_nil _).symm, fun call hcall => absurd hcall List.not_mem_nil⟩
  have hcalled : ∀ (pointer : Option κ) (made : ReqCallback) (frame : Nat),
      ∃ new, e.log ++ [⟨pointer, made, e.requests.length, frame⟩] = e.log ++ new ∧
        ∀ call ∈ new, call.request = e.requests.length :=
    fun pointer made frame => ⟨_, rfl, fun call hcall => by rw [List.mem_singleton.mp hcall]⟩
  cases hspec with
  | header => exact hquiet
  | dropped => exact hquiet
  | stored => exact hquiet
  | silent => exact hquiet
  | request => exact hcalled _ _ _
  | object => exact hcalled _ _ _
  | incomingObject => exact hcalled _ _ _
  | completion => exact hcalled _ _ _

/-- The client comes to a new position: what is left to check is the phase. -/
theorem ClientSide.advance
    (h : ClientSide incomingRequest incomingObject incomingComplete c frames p) {p' : Position}
    (hsteady : c.Steady c') (hframes : c'.frames = c.frames)
    (hlog : ∃ new, c'.log = c.log ++ new ∧ ∀ call ∈ new, call.request = c.requests.length)
    (hstarted : c'.started = p'.started) (hwithin : p'.Within frames)
    (hcurrent : Waiting c' frames p' ∨ Receiving c' frames p' ∨ Finished c' frames p') :
    ClientSide incomingRequest incomingObject incomingComplete c' frames p' := by
  obtain ⟨new, hnew, hnumbers⟩ := hlog
  have hown : c.frames <+: c'.frames := by rw [hframes]
  refine ⟨h.installed.steady hsteady, hwithin, hstarted, ?_, h.unique, ?_, ?_, hcurrent⟩
  · exact fun f hf => (h.fromServer f hf).mono hown (by rw [hsteady.requests])
  · rw [hnew, hsteady.requests]
    intro call hcall
    rcases List.mem_append.mp hcall with hcall | hcall
    · exact h.log call hcall
    · exact (hnumbers call hcall).le
  · rw [hsteady.requests]
    intro number hpos hlt
    refine (h.past number hpos hlt).mono hown List.prefix_rfl (by rw [hsteady.requests]) ?_
    rw [Endpoint.callsOf, hnew, List.filter_append, Endpoint.callsOf]
    refine List.append_right_eq_self.mpr (List.filter_eq_nil_iff.mpr fun call hcall => ?_)
    -- a new call is counted for the latest request only
    have hne : (call.request == number) = false := by
      rw [beq_eq_false_iff_ne, hnumbers call hcall]
      omega
    simp [hne]

/-- A frame with the id of the latest request is the answer to it. -/
theorem ClientSide.latest
    (h : ClientSide incomingRequest incomingObject incomingComplete c frames p)
    (hle : c.requests.length ≤ 65535) {f : SentFrame plS} (hf : f ∈ frames)
    (hid : f.requestId = c.processor.currentRequestId) :
    1 ≤ c.requests.length ∧ ∃ answer, AnswersRequest c c.requests.length f answer ∧ answer.Ok ∧
      answer.frame? f.requestId f.during = some f := by
  rw [h.installed.currentRequestId] at hid
  rcases h.fromServer f hf with ⟨number, answer, hanswers, hok, hframe, hpos, hnumber, heq⟩ |
    ⟨number, during, rfl, hpos, hlt⟩
  · obtain rfl := u16OfNat_inj (by omega) hle (heq.symm.trans hid)
    exact ⟨hpos, answer, hanswers, hok, hframe⟩
  · have := u16OfNat_inj (by omega) hle hid
    omega

/-- There is only one such frame. -/
theorem ClientSide.latest_unique
    (h : ClientSide incomingRequest incomingObject incomingComplete c frames p)
    (hle : c.requests.length ≤ 65535) {i j : Nat} {f g : SentFrame plS}
    (hf : frames[i]? = some f) (hg : frames[j]? = some g)
    (hfid : f.requestId = c.processor.currentRequestId)
    (hgid : g.requestId = c.processor.currentRequestId) : i = j := by
  obtain ⟨-, answer, hanswers, -, -⟩ := h.latest hle (List.mem_of_getElem? hf) hfid
  obtain ⟨-, answer', hanswers', -, -⟩ := h.latest hle (List.mem_of_getElem? hg) hgid
  refine h.unique i j f g hf hg ?_ ?_ (hfid.trans hgid.symm)
  · rw [hanswers.origin]
    rfl
  · rw [hanswers'.origin]
    rfl

/-- A frame with another id does not touch the latest request. -/
theorem current_of_other {f : SentFrame plS} (hf : frames[p.completed]? = some f)
    (hother : f.requestId ≠ c.processor.currentRequestId) {p' : Position}
    (hle : p.completed ≤ p'.completed)
    (hahead : ∀ i, p.completed < i → p'.completed < i ∨ p'.completed = i ∧ p'.objects = none)
    (hcurrent : Waiting c frames p ∨ Receiving c frames p ∨ Finished c frames p) :
    Waiting c frames p' ∨ Receiving c frames p' ∨ Finished c frames p' := by
  rcases hcurrent with hw | hr | hfin
  · refine Or.inl ⟨hw.calls, hw.objectNum, hw.notifyError, fun i g hg hid => ?_⟩
    rcases hw.ahead i g hg hid with hlt | ⟨rfl, -⟩
    · exact hahead i hlt
    · rw [hf] at hg
      cases hg
      exact absurd hid hother
  · obtain ⟨k, r, g, answer, -, -, hg, -, hid, -⟩ := hr
    rw [hf] at hg
    cases hg
    exact absurd hid hother
  · obtain ⟨i, r, g, answer, hlt, hrest⟩ := hfin
    exact Or.inr (Or.inr ⟨i, r, g, answer, hlt.trans_le hle, hrest⟩)

/-- The answer to the latest request that is being received is at the position,
once its header was. -/
theorem ClientSide.receiving
    (h : ClientSide incomingRequest incomingObject incomingComplete c frames p)
    (hle : c.requests.length ≤ 65535) {f : SentFrame plS} {k : Nat}
    (hf : frames[p.completed]? = some f) (hp : p.objects = some k)
    (hid : f.requestId = c.processor.currentRequestId) :
    ∃ r answer, c.requests.getLast? = some r ∧ AnswersRequest c c.requests.length f answer ∧
      answer.Ok ∧ answer.frame? f.requestId f.during = some f ∧
      (∀ call ∈ c.callsOf c.requests.length, call.frame = p.completed + 1) ∧
      Received c r k answer := by
  rcases h.current with hw | hr | hfin
  -- its header was received, so the client does not wait any more
  · rcases hw.ahead p.completed f hf hid with hlt | ⟨-, hnone⟩
    · exact absurd hlt (Nat.lt_irrefl _)
    · rw [hp] at hnone
      cases hnone
  · obtain ⟨k', r, g, answer, hk, hr, hg, hanswers, -, hstamp, hreceived⟩ := hr
    rw [hf] at hg
    rw [hp] at hk
    cases hg
    cases hk
    obtain ⟨-, answer', hanswers', hok, hframe⟩ := h.latest hle (List.mem_of_getElem? hf) hid
    have heq := hanswers.origin.symm.trans hanswers'.origin
    cases heq
    exact ⟨r, answer, hr, hanswers, hok, hframe, hstamp, hreceived⟩
  -- it was received before, and there is only one
  · obtain ⟨i, r, g, answer, hlt, -, hg, -, hgid, -⟩ := hfin
    have := h.latest_unique hle hg hf hgid hid
    omega

theorem callsOf_invoke (c : Endpoint plC κC τC) (pointer : Option κC) {made : ReqCallback}
    (hmade : made.ofRequest = true) :
    (c.invoke pointer made).callsOf c.requests.length =
      c.callsOf c.requests.length ++ [⟨pointer, made, c.requests.length, c.started⟩] := by
  rw [Endpoint.callsOf, Endpoint.invoke, List.filter_append, ← Endpoint.callsOf]
  congr 1
  simp [hmade]

/-- A header of the server arrives. -/
theorem ClientSide.header
    (h : ClientSide incomingRequest incomingObject incomingComplete c frames p)
    (hle : c.requests.length ≤ 65535) {f : SentFrame plS} (hf : frames[p.completed]? = some f)
    (hp : p.objects = none) :
    Waiting c frames ⟨p.completed, some 0⟩ ∨ Receiving c frames ⟨p.completed, some 0⟩ ∨
      Finished c frames ⟨p.completed, some 0⟩ := by
  by_cases hid : f.requestId = c.processor.currentRequestId
  · rcases h.current with hw | hr | hfin
    · obtain ⟨hpos, answer, hanswers, hok, hframe⟩ := h.latest hle (List.mem_of_getElem? hf) hid
      obtain ⟨r, hr⟩ : ∃ r, c.requests.getLast? = some r :=
        Option.isSome_iff_exists.mp (List.getLast?_isSome.mpr (List.length_pos_iff.mp hpos))
      refine Or.inr (Or.inl ⟨0, r, f, answer, rfl, hr, hf, hanswers, hid, ?_, ?_⟩)
      · rw [hw.calls]
        exact fun call hcall => absurd hcall List.not_mem_nil
      · cases answer with
        | nothing => cases hframe
        | text text =>
            exact ⟨by rw [hw.calls]; rfl, hw.objectNum, Or.inl ⟨rfl, hw.notifyError⟩⟩
        | objects objects =>
            refine ⟨?_, Nat.zero_le _, hw.notifyError, fun _ => hw.objectNum⟩
            rw [hw.calls, objectCalls]
            cases r.objectCallback <;> rfl
    · obtain ⟨k, -, -, -, hk, -⟩ := hr
      rw [hp] at hk
      cases hk
    · exact Or.inr (Or.inr hfin)
  · exact current_of_other hf hid le_rfl (fun i hlt => Or.inl hlt) h.current

/-- One more call is made during the same frame as those before it. -/
theorem frame_of_callsOf_invoke {m : Nat}
    (hstamp : ∀ call ∈ c.callsOf c.requests.length, call.frame = m) (hstarted : c.started = m)
    (pointer : Option κC) {made : ReqCallback} (hmade : made.ofRequest = true) :
    ∀ call ∈ (c.invoke pointer made).callsOf c.requests.length, call.frame = m := by
  rw [callsOf_invoke c pointer hmade]
  intro call hcall
  rcases List.mem_append.mp hcall with hcall | hcall
  · exact hstamp call hcall
  · rw [List.mem_singleton.mp hcall]
    exact hstarted

/-- The only object of an error reply is copied into the struct. -/
theorem direct_next_of_text {f : SentFrame plS} {r : Request plC κC} {text : CString} {k : Nat}
    {body : List UInt8} (hok : (Answer.text text : Answer plS).Ok)
    (hframe : (Answer.text text).frame? f.requestId f.during = some f)
    (hid : f.requestId = c.processor.currentRequestId)
    (hreceived : Received c r k (.text text : Answer plS)) (hbody : f.bodies[k]? = some body) :
    k = 0 ∧ c.direct (.next f.flags f.requestId (bodyContents body)) = c.storeError text.bytes := by
  obtain ⟨error, hkey, hvalue, hchain⟩ := chainProperties_error hok.1 (by have := hok.2; omega)
  obtain ⟨rfl, rfl⟩ : k = 0 ∧ body = bodyBytes [error] := by
    rw [hok.bodies_eq hframe, Answer.contents, hchain] at hbody
    cases k with
    | zero => exact ⟨rfl, (Option.some.inj hbody).symm⟩
    | succ k => cases hbody
  have hfind : errorProperty (bodyContents (bodyBytes [error])) = some error := by
    rw [bodyContents_bodyBytes]
    simp [errorProperty, hkey]
  refine ⟨rfl, ?_⟩
  rw [Endpoint.direct, if_pos (Answer.frame?_eq_some hframe).2.1, if_neg (not_not.mpr hid.symm),
    if_pos (isError_of_text hframe), if_pos hreceived.2.1, hfind, ← hvalue]

/-- An object of an answer is counted and passed on, if there is a callback. -/
theorem direct_next_of_objects {f : SentFrame plS} {r : Request plC κC}
    {objects : List (SendableObject plS)} {k : Nat} {body : List UInt8}
    (hcallback : c.processor.requestObjectCallback = r.objectCallback)
    (hok : (Answer.objects objects).Ok)
    (hframe : (Answer.objects objects).frame? f.requestId f.during = some f)
    (hid : f.requestId = c.processor.currentRequestId)
    (hreceived : Received c r k (.objects objects)) (hbody : f.bodies[k]? = some body) :
    ∃ contents, (objects.map SendableObject.properties)[k]? = some contents ∧
      c.direct (.next f.flags f.requestId (bodyContents body)) =
        match r.objectCallback with
        | some pointer => c.countObject.invoke (some pointer) (.object (UInt8.ofNat k) contents)
        | none => c := by
  obtain ⟨-, -, -, hnum⟩ := hreceived
  obtain ⟨contents, hcontents, rfl⟩ : ∃ contents,
      (objects.map SendableObject.properties)[k]? = some contents ∧ bodyBytes contents = body := by
    rw [hok.bodies_eq hframe, Answer.contents, List.getElem?_map] at hbody
    exact Option.map_eq_some_iff.mp hbody
  refine ⟨contents, hcontents, ?_⟩
  rw [Endpoint.direct, if_pos (Answer.frame?_eq_some hframe).2.1, if_neg (not_not.mpr hid.symm),
    if_neg (not_isError_of_objects hframe), hcallback]
  cases hpointer : r.objectCallback with
  | none => rfl
  | some pointer =>
      have hcount := hnum (by rw [hpointer]; exact Option.some_ne_none _)
      rw [hcount, bodyContents_bodyBytes]

/-- One more object of the answer was passed on. -/
theorem Received.next_object {r : Request plC κC} {objects : List (SendableObject plS)} {k : Nat}
    {contents : List Property} (hreceived : Received c r k (.objects objects))
    (hcontents : (objects.map SendableObject.properties)[k]? = some contents) {pointer : κC}
    (hpointer : r.objectCallback = some pointer) :
    Received (c.countObject.invoke (some pointer) (.object (UInt8.ofNat k) contents)) r (k + 1)
      (.objects objects) := by
  obtain ⟨hmade, -, hnotify, hnum⟩ := hreceived
  have hlt : k < objects.length := by
    simpa using (List.getElem?_eq_some_iff.mp hcontents).1
  have hcount := hnum (by rw [hpointer]; exact Option.some_ne_none _)
  refine ⟨?_, hlt, hnotify, fun _ => ?_⟩
  · show (((c.countObject.invoke (some pointer) (.object (UInt8.ofNat k) contents)).callsOf
      c.countObject.requests.length).map Invocation.made) = _
    rw [callsOf_invoke c.countObject (some pointer) rfl, List.map_append,
      objectCalls_take_succ hpointer hcontents, ← hmade]
    rfl
  · show c.processor.objectNum + 1 = UInt8.ofNat (k + 1)
    rw [hcount, UInt8.ofNat_add]
    rfl

/-- An object of a response arrives. -/
theorem ClientSide.object
    (h : ClientSide incomingRequest incomingObject incomingComplete c frames p)
    (hle : c.requests.length ≤ 65535) {f : SentFrame plS} {k : Nat} {body : List UInt8}
    (hf : frames[p.completed]? = some f) (hp : p.objects = some k)
    (hbody : f.bodies[k]? = some body) (hresponse : IsResponse f.flags) :
    let c' := c.direct (.next f.flags f.requestId (bodyContents body))
    Waiting c' frames ⟨p.completed, some (k + 1)⟩ ∨
      Receiving c' frames ⟨p.completed, some (k + 1)⟩ ∨
      Finished c' frames ⟨p.completed, some (k + 1)⟩ := by
  intro c'
  by_cases hid : f.requestId = c.processor.currentRequestId
  · obtain ⟨r, answer, hr, hanswers, hok, hframe, hstamp, hreceived⟩ := h.receiving hle hf hp hid
    refine Or.inr (Or.inl ⟨k + 1, r, f, answer, rfl, ?_⟩)
    cases answer with
    | nothing => cases hframe
    | text text =>
        obtain ⟨rfl, hdirect⟩ := direct_next_of_text hok hframe hid hreceived hbody
        have hdirect' : c' = c.storeError text.bytes := hdirect
        obtain ⟨hmade, hnum, -⟩ := hreceived
        rw [hdirect']
        refine ⟨hr, hf, ⟨hanswers.origin, hanswers.request⟩, hid, hstamp, hmade, hnum,
          Or.inr ⟨rfl, ?_, errorStrText_stored _ hok.2⟩⟩
        show (1 : UInt8) ≠ 0
        decide
    | objects objects =>
        have hcallback : c.processor.requestObjectCallback = r.objectCallback := by
          rw [h.installed.objectCallback, hr]
          rfl
        obtain ⟨contents, hcontents, hdirect⟩ :=
          direct_next_of_objects hcallback hok hframe hid hreceived hbody
        cases hpointer : r.objectCallback with
        | none =>
            have hdirect' : c' = c := by
              rw [hpointer] at hdirect
              exact hdirect
            obtain ⟨hmade, -, hnotify, -⟩ := hreceived
            rw [hdirect']
            refine ⟨hr, hf, hanswers, hid, hstamp, ?_, ?_, hnotify, fun hne => absurd hpointer hne⟩
            · rw [hmade, objectCalls_of_none hpointer, objectCalls_of_none hpointer]
            · simpa using (List.getElem?_eq_some_iff.mp hcontents).1
        | some pointer =>
            have hdirect' : c' = c.countObject.invoke (some pointer)
                (.object (UInt8.ofNat k) contents) := by
              rw [hpointer] at hdirect
              exact hdirect
            have hstarted : c.countObject.started = p.completed + 1 := by
              show c.started = _
              rw [h.started, Position.started, hp]
              rfl
            rw [hdirect']
            exact ⟨hr, hf, ⟨hanswers.origin, hanswers.request⟩, hid,
              frame_of_callsOf_invoke (c := c.countObject) hstamp hstarted (some pointer) rfl,
              hreceived.next_object hcontents hpointer⟩
  · have hdirect : c' = c := direct_next_of_other hresponse (Ne.symm hid)
    rw [hdirect]
    exact current_of_other hf hid le_rfl (fun i hlt => Or.inl hlt) h.current

/-- The last call for an answer is made. -/
theorem Finished.of_invoke {r : Request plC κC} {f : SentFrame plS} {answer : Answer plS}
    (hr : c.requests.getLast? = some r) (hf : frames[p.completed]? = some f)
    (hanswers : AnswersRequest c c.requests.length f answer)
    (hid : f.requestId = c.processor.currentRequestId)
    (hstamp : ∀ call ∈ c.callsOf c.requests.length, call.frame = p.completed + 1)
    (hstarted : c.started = p.completed + 1) {pointer : Option κC} {made : ReqCallback}
    (hmade : made.ofRequest = true)
    (hcalls : (c.callsOf c.requests.length).map Invocation.made ++ [(pointer, made)] =
      expectedCalls r answer) :
    Finished (c.invoke pointer made) frames ⟨p.completed + 1, none⟩ := by
  refine ⟨p.completed, r, f, answer, Nat.lt_succ_self _, hr, hf,
    ⟨hanswers.origin, hanswers.request⟩, hid,
    frame_of_callsOf_invoke hstamp hstarted pointer hmade, ?_⟩
  show ((c.invoke pointer made).callsOf c.requests.length).map Invocation.made = _
  rw [callsOf_invoke c pointer hmade, List.map_append, ← hcalls]
  rfl

/-- The completion of an error reply calls the error callback with its text, if
there is one. -/
theorem direct_complete_of_text {f : SentFrame plS} {r : Request plC κC} {text : CString} {k : Nat}
    (hcallback : c.processor.errorCallback = r.err) (hok : (Answer.text text : Answer plS).Ok)
    (hframe : (Answer.text text).frame? f.requestId f.during = some f)
    (hid : f.requestId = c.processor.currentRequestId)
    (hreceived : Received c r k (.text text : Answer plS)) (hend : f.bodies[k]? = none) :
    c.direct (.completeRequest f.flags f.requestId) =
      match r.err with
      | some pointer => c.invoke (some pointer) (.error text.bytes)
      | none => c := by
  -- the only object was received
  obtain ⟨hnotify, htext⟩ : c.processor.notifyError ≠ 0 ∧
      errorStrText c.processor.tail = text.bytes := by
    rcases hreceived.2.2 with ⟨rfl, -⟩ | ⟨-, hnotify, htext⟩
    · rw [hok.bodies_eq hframe] at hend
      cases hend
    · exact ⟨hnotify, htext⟩
  have hresponse := (Answer.frame?_eq_some hframe).2.1
  cases herr : r.err <;>
    simp [Endpoint.direct, hresponse, hid, hnotify, hcallback, herr, htext]

/-- A response completes. -/
theorem ClientSide.completion
    (h : ClientSide incomingRequest incomingObject incomingComplete c frames p)
    (hle : c.requests.length ≤ 65535) {f : SentFrame plS} {k : Nat}
    (hf : frames[p.completed]? = some f) (hp : p.objects = some k)
    (hend : f.bodies[k]? = none) (hresponse : IsResponse f.flags) :
    let c' := c.direct (.completeRequest f.flags f.requestId)
    Waiting c' frames ⟨p.completed + 1, none⟩ ∨ Receiving c' frames ⟨p.completed + 1, none⟩ ∨
      Finished c' frames ⟨p.completed + 1, none⟩ := by
  intro c'
  by_cases hid : f.requestId = c.processor.currentRequestId
  · obtain ⟨r, answer, hr, hanswers, hok, hframe, hstamp, hreceived⟩ := h.receiving hle hf hp hid
    have hstarted : c.started = p.completed + 1 := by
      rw [h.started, Position.started, hp]
      rfl
    refine Or.inr (Or.inr ?_)
    cases answer with
    | nothing => cases hframe
    | text text =>
        have hcallback : c.processor.errorCallback = r.err := by
          rw [h.installed.errorCallback, hr]
          rfl
        have hdirect : c' = _ := direct_complete_of_text hcallback hok hframe hid hreceived hend
        rw [hdirect]
        cases herr : r.err with
        | none =>
            refine ⟨p.completed, r, f, .text text, Nat.lt_succ_self _, hr, hf, hanswers, hid,
              hstamp, ?_⟩
            rw [hreceived.1, expectedCalls, herr]
        | some k =>
            refine Finished.of_invoke hr hf hanswers hid hstamp hstarted rfl ?_
            rw [hreceived.1, expectedCalls, herr]
            rfl
    | objects objects =>
        obtain ⟨hmade, -, hnotify, -⟩ := hreceived
        have hall : objects.length ≤ k := by
          rw [hok.bodies_eq hframe] at hend
          simpa [Answer.contents] using List.getElem?_eq_none_iff.mp hend
        have hcallback : c.processor.responseCallback = r.cb := by
          rw [h.installed.responseCallback, hr]
          rfl
        have hdirect : c' = c.invoke r.cb .response := by
          rw [← hcallback]
          exact direct_complete_of_quiet hresponse hid.symm hnotify
        rw [hdirect]
        refine Finished.of_invoke hr hf hanswers hid hstamp hstarted rfl ?_
        rw [hmade, expectedCalls, List.take_of_length_le (by simpa using hall)]
  · have hdirect : c' = c := direct_complete_of_other hresponse (Ne.symm hid)
    rw [hdirect]
    refine current_of_other hf hid (Nat.le_succ _) (fun i hlt => ?_) h.current
    rcases Nat.lt_or_eq_of_le (Nat.succ_le_of_lt hlt) with hlt | heq
    · exact Or.inl hlt
    · exact Or.inr ⟨heq, rfl⟩

/-- The direct part of a callback at the client. -/
theorem ClientSide.direct
    (h : ClientSide incomingRequest incomingObject incomingComplete c frames p)
    (hle : c.requests.length ≤ 65535) {callback : Callback} {p' : Position}
    (hdue : Due frames p callback p') :
    ClientSide incomingRequest incomingObject incomingComplete (c.direct callback) frames p' := by
  refine h.advance (direct_steady callback c) (direct_output callback c).2 (direct_log callback c)
    (hdue.started h.started) hdue.within ?_
  have hresponse : ∀ {f : SentFrame plS}, frames[p.completed]? = some f → IsResponse f.flags :=
    fun hf => (h.fromServer _ (List.mem_of_getElem? hf)).exists_number.1
  cases hdue with
  | header hf hp =>
      rw [Endpoint.direct, if_pos (hresponse hf)]
      have hview : SameView c c.beginFrame := ⟨rfl, rfl, rfl, List.prefix_rfl⟩
      exact hview.current List.prefix_rfl (Due.header hf hp).within (h.header hle hf hp)
  | object hf hp hbody => exact h.object hle hf hp hbody (hresponse hf)
  | completion hf hp hend => exact h.completion hle hf hp hend (hresponse hf)

/-- What is left to do when a response was processed does not disturb the client. -/
theorem ClientSide.settles {a : Application plC κC τC} {callback : Callback}
    {e e₁ e' : Endpoint plC κC τC} (hsettles : Settles a e callback e₁ e')
    (hresponse : ∀ flags requestId, callback = .completeRequest flags requestId → IsResponse flags)
    (hdone : ∀ flags requestId, callback = .completeRequest flags requestId → p.objects = none)
    (h : ClientSide incomingRequest incomingObject incomingComplete e₁ frames p) :
    ClientSide incomingRequest incomingObject incomingComplete e' frames p := by
  cases hsettles with
  | nothing hfresh => exact h
  | reported _ hid =>
      refine h.advance ⟨rfl, rfl, _, _, _, rfl⟩ rfl
        ⟨[], (List.append_nil _).symm, fun call hcall => absurd hcall List.not_mem_nil⟩ h.started
        h.within ?_
      rcases h.current with hw | hr | hfin
      · exact Or.inl ⟨hw.calls, hw.objectNum, rfl, hw.ahead⟩
      -- behind a completion nothing is being received
      · obtain ⟨k, -, -, -, hk, -⟩ := hr
        rw [hdone _ _ rfl] at hk
        cases hk
      · obtain ⟨i, r, f, answer, hlt, hr, hf, hanswers, hrest⟩ := hfin
        exact Or.inr (Or.inr ⟨i, r, f, answer, hlt, hr, hf, ⟨hanswers.origin, hanswers.request⟩,
          hrest⟩)
  | bounced _ hid =>
      obtain ⟨sends, wire, heq⟩ := e.reply_sent (a := a) _ _ unknownRequestId
      rw [heq]
      exact h.view ⟨rfl, rfl, rfl, List.prefix_append _ _⟩ rfl
  | replied hrequest => exact absurd (hresponse _ _ rfl) hrequest
  | responded hrequest => exact absurd (hresponse _ _ rfl) hrequest

/-- **A callback at the client.** -/
theorem ClientSide.react (a : Application plC κC τC)
    (h : ClientSide incomingRequest incomingObject incomingComplete c frames p)
    {callback : Callback} {p' : Position} (hdue : Due frames p callback p')
    (hle : (c.react a callback).requests.length ≤ 65535) :
    ClientSide incomingRequest incomingObject incomingComplete (c.react a callback) frames p' := by
  obtain ⟨c₁, hfollows, hsettles⟩ := react_eq a callback c
  have hissued : c₁.requests.length ≤ 65535 := by
    rwa [hsettles.closed.requests] at hle
  have hle' : c.requests.length ≤ 65535 :=
    (prefix_requests_react callback c).length_le.trans hle
  refine ClientSide.settles hsettles ?_ ?_
    (ClientSide.follows hfollows (h.direct hle' hdue) hissued)
  · rintro flags requestId rfl
    cases hdue with
    | completion hf _ _ => exact (h.fromServer _ (List.mem_of_getElem? hf)).exists_number.1
  · rintro flags requestId rfl
    cases hdue with
    | completion _ _ _ => rfl

end Receive

end ZxProto
