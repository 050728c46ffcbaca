import ZxProto.Answers

/-!
# The client of a request

A client issues requests at any time, and its struct holds the callbacks of the
latest request only, while stale responses and the error replies to them are
still in flight.  This module states what holds of the client at every moment,
over the frames that a server without requests of its own has sent.

* `AnswersRequest`, `Correlated` — the answer to a request, and the calls of the
  callbacks of a request;
* `Waiting`, `Receiving`, `Finished` — the three phases of the latest request;
* `FromServer` — what the server may send;
* `ClientSide` — the invariant;
* `ClientSide.grown`, `ClientSide.install`, `ClientSide.follows` — it is kept
  when frames are added and when requests are issued.
-/

namespace ZxProto

/-! ## The answer to a request -/

section Correlation

variable {plC plS : Platform} {κC τC : Type}

/-- The frame of the server is the answer to the request with a number: it was
sent while the server received the client's frame with that request, and has its
id. -/
structure AnswersRequest (c : Endpoint plC κC τC) (number : Nat) (f : SentFrame plS)
    (answer : Answer plS) : Prop where
  origin : f.origin = .answer answer
  request : ∃ g, 1 ≤ f.during ∧ c.frames[f.during - 1]? = some g ∧
    g.origin = .request number ∧ f.requestId = g.requestId

/-- The callbacks of a request are called only while one frame is processed, the
answer to it, and the calls are the first ones of those that it should cause. -/
def Correlated (c : Endpoint plC κC τC) (frames : List (SentFrame plS)) (number : Nat) : Prop :=
  ∃ r, c.requests[number - 1]? = some r ∧
    (c.callsOf number = [] ∨
      ∃ i f answer, frames[i]? = some f ∧ AnswersRequest c number f answer ∧
        (∀ call ∈ c.callsOf number, call.frame = i + 1) ∧
        (c.callsOf number).map Invocation.made <+: expectedCalls r answer)

/-- What the client holds of an answer of which it has seen `k` objects. -/
def Received (c : Endpoint plC κC τC) (r : Request plC κC) (k : Nat) :
    Answer plS → Prop
  | .nothing => False
  | .text message =>
      (c.callsOf c.requests.length).map Invocation.made = [] ∧ c.processor.objectNum = 0 ∧
        (k = 0 ∧ c.processor.notifyError = 0 ∨
          k = 1 ∧ c.processor.notifyError ≠ 0 ∧
            errorStrText c.processor.tail = message.bytes)
  | .objects list =>
      (c.callsOf c.requests.length).map Invocation.made =
          objectCalls r ((list.map SendableObject.properties).take k) ∧
        k ≤ list.length ∧ c.processor.notifyError = 0 ∧
        (r.objectCallback ≠ none → c.processor.objectNum = UInt8.ofNat k)

/-- The latest request waits for its answer, whose header was not received. -/
structure Waiting (c : Endpoint plC κC τC) (frames : List (SentFrame plS)) (p : Position) :
    Prop where
  calls : c.callsOf c.requests.length = []
  objectNum : c.processor.objectNum = 0
  notifyError : c.processor.notifyError = 0
  ahead : ∀ i f, frames[i]? = some f → f.requestId = c.processor.currentRequestId →
    p.completed < i ∨ p.completed = i ∧ p.objects = none

/-- The answer to the latest request is being received. -/
def Receiving (c : Endpoint plC κC τC) (frames : List (SentFrame plS)) (p : Position) : Prop :=
  ∃ k r f answer, p.objects = some k ∧ c.requests.getLast? = some r ∧
    frames[p.completed]? = some f ∧ AnswersRequest c c.requests.length f answer ∧
    f.requestId = c.processor.currentRequestId ∧
    (∀ call ∈ c.callsOf c.requests.length, call.frame = p.completed + 1) ∧
    Received c r k answer

/-- The answer to the latest request was received. -/
def Finished (c : Endpoint plC κC τC) (frames : List (SentFrame plS)) (p : Position) : Prop :=
  ∃ i r f answer, i < p.completed ∧ c.requests.getLast? = some r ∧
    frames[i]? = some f ∧ AnswersRequest c c.requests.length f answer ∧
    f.requestId = c.processor.currentRequestId ∧
    (∀ call ∈ c.callsOf c.requests.length, call.frame = i + 1) ∧
    (c.callsOf c.requests.length).map Invocation.made = expectedCalls r answer

/-- A frame that a server without requests of its own sends to the client: an
answer, or an error reply to an error reply, whose request is not the latest
one. -/
def FromServer (c : Endpoint plC κC τC) (f : SentFrame plS) : Prop :=
  (∃ number answer, AnswersRequest c number f answer ∧ answer.Ok ∧
      answer.frame? f.requestId f.during = some f ∧
      1 ≤ number ∧ number ≤ c.requests.length ∧ f.requestId = UInt16.ofNat number) ∨
    ∃ number during, f = bounceFrame plS (UInt16.ofNat number) during ∧
      1 ≤ number ∧ number < c.requests.length

/-- The number of frames that were started at a position. -/
def Position.started (p : Position) : Nat :=
  p.completed + if p.objects.isSome then 1 else 0

/-- The client's part of the invariant, over the frames of the server and the
client's position in them. -/
structure ClientSide (incomingRequest incomingObject incomingComplete : Option κC)
    (c : Endpoint plC κC τC) (frames : List (SentFrame plS)) (p : Position) : Prop where
  installed : Installed incomingRequest incomingObject incomingComplete c
  within : p.Within frames
  started : c.started = p.started
  fromServer : ∀ f ∈ frames, FromServer c f
  unique : ∀ (i j : Nat) (f g : SentFrame plS), frames[i]? = some f → frames[j]? = some g →
    f.origin.isAnswer = true → g.origin.isAnswer = true → f.requestId = g.requestId → i = j
  log : ∀ call ∈ c.log, call.request ≤ c.requests.length
  past : ∀ number, 1 ≤ number → number < c.requests.length → Correlated c frames number
  current : Waiting c frames p ∨ Receiving c frames p ∨ Finished c frames p

/-! ## What is kept when more frames are sent -/

theorem getElem?_of_prefix {α : Type} {l l' : List α} (hpre : l <+: l') {i : Nat} {x : α}
    (hx : l[i]? = some x) : l'[i]? = some x := by
  obtain ⟨new, rfl⟩ := hpre
  rw [List.getElem?_append_left (List.getElem?_eq_some_iff.mp hx).1]
  exact hx

variable {c c' : Endpoint plC κC τC} {frames frames' : List (SentFrame plS)} {p : Position}

theorem AnswersRequest.mono {number : Nat} {f : SentFrame plS} {answer : Answer plS}
    (h : AnswersRequest c number f answer) (hown : c.frames <+: c'.frames) :
    AnswersRequest c' number f answer := by
  obtain ⟨g, hduring, hg, horigin, hid⟩ := h.request
  exact ⟨h.origin, g, hduring, getElem?_of_prefix hown hg, horigin, hid⟩

theorem FromServer.mono {f : SentFrame plS} (h : FromServer c f) (hown : c.frames <+: c'.frames)
    (hrequests : c.requests.length ≤ c'.requests.length) : FromServer c' f := by
  rcases h with ⟨number, answer, hanswers, hok, hframe, hpos, hle, hid⟩ |
    ⟨number, during, hf, hpos, hlt⟩
  · exact Or.inl ⟨number, answer, hanswers.mono hown, hok, hframe, hpos, hle.trans hrequests, hid⟩
  · exact Or.inr ⟨number, during, hf, hpos, hlt.trans_le hrequests⟩

theorem Correlated.mono {number : Nat} (h : Correlated c frames number)
    (hown : c.frames <+: c'.frames) (hframes : frames <+: frames')
    (hrequests : c.requests <+: c'.requests) (hcalls : c'.callsOf number = c.callsOf number) :
    Correlated c' frames' number := by
  obtain ⟨r, hr, hcases⟩ := h
  refine ⟨r, getElem?_of_prefix hrequests hr, ?_⟩
  rw [hcalls]
  rcases hcases with hnone | ⟨i, f, answer, hf, hanswers, hstamp, hmade⟩
  · exact Or.inl hnone
  · exact Or.inr ⟨i, f, answer, getElem?_of_prefix hframes hf, hanswers.mono hown, hstamp, hmade⟩

/-- A frame that is new lies ahead of every position within the old ones. -/
theorem Position.Within.ahead (hp : p.Within frames) {i : Nat} (hi : frames.length ≤ i) :
    p.completed < i ∨ p.completed = i ∧ p.objects = none := by
  rw [Position.Within] at hp
  cases hobjects : p.objects with
  | none =>
      rw [hobjects] at hp
      rcases Nat.lt_or_eq_of_le (Nat.le_trans hp hi) with hlt | heq
      · exact Or.inl hlt
      · exact Or.inr ⟨heq, rfl⟩
  | some k =>
      rw [hobjects] at hp
      obtain ⟨f, hf, -⟩ := hp
      exact Or.inl (Nat.lt_of_lt_of_le (List.getElem?_eq_some_iff.mp hf).1 hi)

/-- The two endpoints agree in what the invariant looks at, but for frames added. -/
structure SameView (c c' : Endpoint plC κC τC) : Prop where
  processor : c'.processor = c.processor
  requests : c'.requests = c.requests
  log : c'.log = c.log
  frames : c.frames <+: c'.frames

theorem SameView.callsOf (h : SameView c c') (number : Nat) :
    c'.callsOf number = c.callsOf number := by
  rw [Endpoint.callsOf, h.log, Endpoint.callsOf]

theorem SameView.received (h : SameView c c') {r : Request plC κC} {k : Nat}
    {answer : Answer plS} (hreceived : Received c r k answer) : Received c' r k answer := by
  cases answer with
  | nothing => exact hreceived
  | text text =>
      rw [Received, h.callsOf, h.requests, h.processor]
      exact hreceived
  | objects objects =>
      rw [Received, h.callsOf, h.requests, h.processor]
      exact hreceived

/-- The phase of the latest request is kept when either side adds frames. -/
theorem SameView.current (h : SameView c c') (hframes : frames <+: frames')
    (hwithin : p.Within frames)
    (hcurrent : Waiting c frames p ∨ Receiving c frames p ∨ Finished c frames p) :
    Waiting c' frames' p ∨ Receiving c' frames' p ∨ Finished c' frames' p := by
  rcases hcurrent with hw | hr | hf
  · refine Or.inl ⟨?_, ?_, ?_, ?_⟩
    · rw [h.callsOf, h.requests]
      exact hw.calls
    · rw [h.processor]
      exact hw.objectNum
    · rw [h.processor]
      exact hw.notifyError
    · rw [h.processor]
      intro i f hi hid
      -- a frame sent only now is ahead of the client
      by_cases hnew : frames.length ≤ i
      · exact hwithin.ahead hnew
      · refine hw.ahead i f ?_ hid
        obtain ⟨new, rfl⟩ := hframes
        rwa [List.getElem?_append_left (Nat.not_le.mp hnew)] at hi
  · obtain ⟨k, r, f, answer, hk, hlast, hi, hanswers, hid, hstamp, hreceived⟩ := hr
    refine Or.inr (Or.inl ⟨k, r, f, answer, hk, ?_, getElem?_of_prefix hframes hi, ?_, ?_, ?_,
      h.received hreceived⟩)
    · rw [h.requests]
      exact hlast
    · rw [h.requests]
      exact hanswers.mono h.frames
    · rw [h.processor]
      exact hid
    · rw [h.callsOf, h.requests]
      exact hstamp
  · obtain ⟨i, r, f, answer, hlt, hlast, hi, hanswers, hid, hstamp, hmade⟩ := hf
    refine Or.inr (Or.inr ⟨i, r, f, answer, hlt, ?_, getElem?_of_prefix hframes hi, ?_, ?_, ?_, ?_⟩)
    · rw [h.requests]
      exact hlast
    · rw [h.requests]
      exact hanswers.mono h.frames
    · rw [h.processor]
      exact hid
    · rw [h.callsOf, h.requests]
      exact hstamp
    · rw [h.callsOf, h.requests]
      exact hmade

variable {incomingRequest incomingObject incomingComplete : Option κC}

/-- The invariant is kept when either side adds frames, and they are the server's
to send. -/
theorem ClientSide.grown (h : ClientSide incomingRequest incomingObject incomingComplete c frames p)
    (hview : SameView c c') (hstarted : c'.started = c.started) (hframes : frames <+: frames')
    (hfrom : ∀ f ∈ frames', FromServer c' f)
    (hunique : ∀ (i j : Nat) (f g : SentFrame plS), frames'[i]? = some f → frames'[j]? = some g →
      f.origin.isAnswer = true → g.origin.isAnswer = true → f.requestId = g.requestId → i = j) :
    ClientSide incomingRequest incomingObject incomingComplete c' frames' p where
  installed := h.installed.congr hview.processor hview.requests
  within := (h.within.mono hframes).1
  started := hstarted.trans h.started
  fromServer := hfrom
  unique := hunique
  log := by
    rw [hview.log, hview.requests]
    exact h.log
  past := by
    rw [hview.requests]
    intro number hpos hlt
    exact (h.past number hpos hlt).mono hview.frames hframes
      (by rw [hview.requests]) (hview.callsOf number)
  current := hview.current hframes h.within h.current

/-- The client's own frames, its application and its socket do not matter. -/
theorem ClientSide.view (h : ClientSide incomingRequest incomingObject incomingComplete c frames p)
    (hview : SameView c c') (hstarted : c'.started = c.started) :
    ClientSide incomingRequest incomingObject incomingComplete c' frames p :=
  h.grown hview hstarted List.prefix_rfl
    (fun f hf => (h.fromServer f hf).mono hview.frames (by rw [hview.requests])) h.unique

/-! ## A new request -/

theorem Received.made_prefix {r : Request plC κC} {k : Nat} {answer : Answer plS}
    (h : Received c r k answer) :
    (c.callsOf c.requests.length).map Invocation.made <+: expectedCalls r answer := by
  cases answer with
  | nothing => exact absurd h id
  | text text =>
      rw [h.1]
      exact List.nil_prefix
  | objects objects =>
      rw [h.1]
      exact (prefix_objectCalls_take r _ k).trans (List.prefix_append _ _)

/-- Whatever phase the latest request is in, its calls so far are correlated. -/
theorem ClientSide.correlated
    (h : ClientSide incomingRequest incomingObject incomingComplete c frames p)
    (hpos : 1 ≤ c.requests.length) : Correlated c frames c.requests.length := by
  have hlast : ∀ r, c.requests.getLast? = some r →
      c.requests[c.requests.length - 1]? = some r := by
    intro r hr
    rwa [List.getLast?_eq_getElem?] at hr
  rcases h.current with hw | hr | hf
  · obtain ⟨r, hr⟩ : ∃ r, c.requests.getLast? = some r :=
      Option.isSome_iff_exists.mp (List.getLast?_isSome.mpr (List.length_pos_iff.mp hpos))
    exact ⟨r, hlast r hr, Or.inl hw.calls⟩
  · obtain ⟨k, r, f, answer, -, hr, hi, hanswers, -, hstamp, hreceived⟩ := hr
    exact ⟨r, hlast r hr, Or.inr ⟨_, f, answer, hi, hanswers, hstamp, hreceived.made_prefix⟩⟩
  · obtain ⟨i, r, f, answer, -, hr, hi, hanswers, -, hstamp, hmade⟩ := hf
    exact ⟨r, hlast r hr, Or.inr ⟨i, f, answer, hi, hanswers, hstamp,
      by rw [hmade]⟩⟩

theorem u16OfNat_inj {m n : Nat} (hm : m ≤ 65535) (hn : n ≤ 65535)
    (heq : UInt16.ofNat m = UInt16.ofNat n) : m = n := by
  have h := congrArg UInt16.toNat heq
  rw [UInt16.toNat_ofNat', UInt16.toNat_ofNat'] at h
  omega

/-- The number that a frame of the server refers to. -/
theorem FromServer.exists_number {f : SentFrame plS} (h : FromServer c f) :
    IsResponse f.flags ∧ ∃ number, 1 ≤ number ∧ number ≤ c.requests.length ∧
      f.requestId = UInt16.ofNat number := by
  rcases h with ⟨number, answer, -, -, hframe, hpos, hle, hid⟩ | ⟨number, during, rfl, hpos, hlt⟩
  · exact ⟨(Answer.frame?_eq_some hframe).2.1, number, hpos, hle, hid⟩
  · exact ⟨isResponse_error_response, number, hpos, hlt.le, rfl⟩

/-- A request is issued, at whatever moment: it waits for its answer, and the
calls of the one before it are final. -/
theorem ClientSide.install
    (h : ClientSide incomingRequest incomingObject incomingComplete c frames p)
    (r : Request plC κC) (hle : (c.install r).requests.length ≤ 65535) :
    ClientSide incomingRequest incomingObject incomingComplete (c.install r) frames p := by
  have hlength : (c.install r).requests.length = c.requests.length + 1 :=
    List.length_append
  have hown : c.frames <+: (c.install r).frames := List.prefix_append _ _
  have hrequests : c.requests <+: (c.install r).requests := List.prefix_append _ _
  rw [hlength] at hle
  refine ⟨h.installed.install r, h.within, h.started, ?_, h.unique, ?_, ?_,
    Or.inl ⟨?_, rfl, rfl, ?_⟩⟩
  · exact fun f hf => (h.fromServer f hf).mono hown hrequests.length_le
  · intro call hcall
    exact (h.log call hcall).trans hrequests.length_le
  · intro number hpos hlt
    rw [hlength] at hlt
    refine Correlated.mono ?_ hown List.prefix_rfl hrequests rfl
    -- the request before the new one was the latest until now
    rcases Nat.lt_or_eq_of_le (Nat.lt_succ_iff.mp hlt) with hold | rfl
    · exact h.past number hpos hold
    · exact h.correlated hpos
  · -- no call carries the number of the new request
    refine List.filter_eq_nil_iff.mpr fun call hcall => ?_
    have hold := h.log call hcall
    rw [hlength]
    have hne : (call.request == c.requests.length + 1) = false := by
      rw [beq_eq_false_iff_ne]
      omega
    simp [hne]
  · -- and no frame of the server has its id
    intro i f hf hid
    obtain ⟨-, number, hpos, hnumber, hnumberId⟩ :=
      (h.fromServer f (List.mem_of_getElem? hf)).exists_number
    have hnew : (c.install r).processor.currentRequestId =
        UInt16.ofNat (c.requests.length + 1) := by
      rw [(h.installed.install r).currentRequestId, hlength]
    rw [hnew, hnumberId] at hid
    have := u16OfNat_inj (by omega) hle hid
    omega

/-- What application code does to the client, requests included. -/
theorem ClientSide.follows {τ' : Type} {a : Application plC κC τ'}
    {c c' : Endpoint plC κC τ'} (hfollows : Follows a c c')
    (h : ClientSide incomingRequest incomingObject incomingComplete c frames p)
    (hle : c'.requests.length ≤ 65535) :
    ClientSide incomingRequest incomingObject incomingComplete c' frames p := by
  refine hfollows.keeps (P := fun c' => c'.requests.length ≤ 65535 →
    ClientSide incomingRequest incomingObject incomingComplete c' frames p) ?_ ?_ ?_
    (fun _ => h) hle
  · exact fun c app h hle => (h hle).view ⟨rfl, rfl, rfl, List.prefix_rfl⟩ rfl
  · rintro _ _ ⟨_, _, rfl⟩ h hle
    exact (h hle).view ⟨rfl, rfl, rfl, List.prefix_rfl⟩ rfl
  · intro r c h hle
    refine (h ?_).install r hle
    have hlength : (c.install r).requests.length = c.requests.length + 1 :=
      List.length_append
    omega

end Correlation

end ZxProto
