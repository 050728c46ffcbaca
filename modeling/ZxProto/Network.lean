import ZxProto.Output

/-!
# Two endpoints

Two endpoints, each of which receives the frames that the other one sends, in
order.  A step is application code that runs at one side, or the next callback
there; so requests are issued at any time, also between two objects of a
response.  The frames are taken as wholes here, and completed behind their last
object, or behind the header if there is none.  `process` differs from this where a
frame has no objects, since it reads one out of the bytes that follow, and where the
receiver does not understand the frame.  The bytes are added in `Channel.lean`, where
their runs are runs of this network as long as all frames are understood.

* `Position`, `due` — how far a side has come in the frames of the other, and
  the callback that is next;
* `Net` — the two endpoints with their positions; `Net.step`, `Net.run`;
* `Tallied`, `Net.Answered` — each frame is a request issued, the answer to a
  request received, or the error reply to a stale response;
* `Net.Answered.length_le` — without replies to responses, there are at most two frames
  for each request.
-/

namespace ZxProto

open ByteMemory

/-! ## Sides and positions -/

/-- The two ends of a connection. -/
inductive Side
  | left
  | right
deriving DecidableEq

/-- The other end. -/
def Side.other : Side → Side
  | .left => .right
  | .right => .left

@[simp] theorem Side.other_other (s : Side) : s.other.other = s := by
  cases s <;> rfl

theorem Side.other_ne (s : Side) : s.other ≠ s := by
  cases s <;> decide

/-- The frames that were completed, and the objects seen in the next one, if its
header was received. -/
structure Position where
  completed : Nat
  objects : Option Nat
deriving DecidableEq

/-- What an object of a frame shows. -/
def bodyContents (body : List UInt8) : List Property :=
  (parseProperties body).getD []

/-- The next callback over some frames, and the position behind it. -/
def due {pl : Platform} (frames : List (SentFrame pl)) (p : Position) :
    Option (Callback × Position) :=
  match frames[p.completed]? with
  | none => none
  | some f =>
      match p.objects with
      | none => some (.startRequest f.flags f.size f.requestId, ⟨p.completed, some 0⟩)
      | some k =>
          match f.bodies[k]? with
          | some body =>
              some (.next f.flags f.requestId (bodyContents body), ⟨p.completed, some (k + 1)⟩)
          -- all objects were seen: the frame is complete
          | none => some (.completeRequest f.flags f.requestId, ⟨p.completed + 1, none⟩)

/-- The three cases of `due`. -/
inductive Due {pl : Platform} (frames : List (SentFrame pl)) (p : Position) :
    Callback → Position → Prop
  | header {f : SentFrame pl} (hf : frames[p.completed]? = some f) (hp : p.objects = none) :
      Due frames p (.startRequest f.flags f.size f.requestId) ⟨p.completed, some 0⟩
  | object {f : SentFrame pl} {k : Nat} {body : List UInt8}
      (hf : frames[p.completed]? = some f) (hp : p.objects = some k)
      (hbody : f.bodies[k]? = some body) :
      Due frames p (.next f.flags f.requestId (bodyContents body)) ⟨p.completed, some (k + 1)⟩
  | completion {f : SentFrame pl} {k : Nat} (hf : frames[p.completed]? = some f)
      (hp : p.objects = some k) (hend : f.bodies[k]? = none) :
      Due frames p (.completeRequest f.flags f.requestId) ⟨p.completed + 1, none⟩

theorem due_spec {pl : Platform} {frames : List (SentFrame pl)} {p p' : Position}
    {callback : Callback} (hdue : due frames p = some (callback, p')) :
    Due frames p callback p' := by
  rw [due] at hdue
  cases hf : frames[p.completed]? with
  | none =>
      rw [hf] at hdue
      cases hdue
  | some f =>
      simp only [hf] at hdue
      cases hp : p.objects with
      | none =>
          simp only [hp] at hdue
          cases hdue
          exact .header hf hp
      | some k =>
          simp only [hp] at hdue
          cases hbody : f.bodies[k]? with
          | some body =>
              simp only [hbody] at hdue
              cases hdue
              exact .object hf hp hbody
          | none =>
              simp only [hbody] at hdue
              cases hdue
              exact .completion hf hp hbody

/-! ## The network -/

/-- The two endpoints, and their positions in the frames of the other side. -/
structure Net (pl : Side → Build) (κ τ : Side → Type) where
  endpoint : ∀ s, Endpoint (pl s) (κ s) (τ s)
  position : Side → Position

/-- What can happen next. -/
inductive NetAct (pl : Side → Build) (κ τ : Side → Type)
  | script (s : Side) (f : τ s → Script (pl s) (κ s) (τ s) Unit)
  | deliver (s : Side)

section Network

variable {pl : Side → Build} {κ τ : Side → Type} (a : ∀ s, Application (pl s) (κ s) (τ s))

/-- Two endpoints that have received nothing. -/
def Net.init (endpoint : ∀ s, Endpoint (pl s) (κ s) (τ s)) : Net pl κ τ where
  endpoint := endpoint
  position := fun _ => ⟨0, none⟩

/-- The callback that is next at a side, and the position behind it. -/
def Net.due (n : Net pl κ τ) (s : Side) : Option (Callback × Position) :=
  ZxProto.due (n.endpoint s.other).frames (n.position s)

/-- One endpoint acts. -/
def Net.act (n : Net pl κ τ) (s : Side) (act : Act (pl s) (κ s) (τ s)) : Net pl κ τ :=
  { n with endpoint := Function.update n.endpoint s ((n.endpoint s).step (a s) act) }

/-- One step. -/
def Net.step : NetAct pl κ τ → Net pl κ τ → Net pl κ τ
  | .script s f, n => n.act a s (.script f)
  | .deliver s, n =>
      match n.due s with
      | none => n
      | some (callback, p) =>
          { n.act a s (.callback callback) with position := Function.update n.position s p }

/-- A run. -/
def Net.run (acts : List (NetAct pl κ τ)) (n : Net pl κ τ) : Net pl κ τ :=
  acts.foldl (fun n act => n.step a act) n

theorem Net.run_cons (act : NetAct pl κ τ) (acts : List (NetAct pl κ τ)) (n : Net pl κ τ) :
    n.run a (act :: acts) = (n.step a act).run a acts := rfl

theorem Net.run_append (acts acts' : List (NetAct pl κ τ)) (n : Net pl κ τ) :
    n.run a (acts ++ acts') = (n.run a acts).run a acts' :=
  List.foldl_append

/-- What every endpoint keeps, with the position that it comes to, is kept by
every step. -/
theorem Net.step_induction {P : Net pl κ τ → Prop} {n : Net pl κ τ}
    (script : ∀ s f, P (n.act a s (.script f)))
    (deliver : ∀ s callback p, Due (n.endpoint s.other).frames (n.position s) callback p →
      P { n.act a s (.callback callback) with position := Function.update n.position s p })
    (stay : P n) (act : NetAct pl κ τ) : P (n.step a act) := by
  cases act with
  | script s f => exact script s f
  | deliver s =>
      rw [Net.step]
      cases hdue : n.due s with
      | none => exact stay
      | some next =>
          -- the callback is handled against the frames sent so far
          obtain ⟨callback, p⟩ := next
          exact deliver s callback p (due_spec hdue)

/-- An endpoint acts: the one at the side, with the same act. -/
theorem Net.act_endpoint (n : Net pl κ τ) (s : Side) (act : Act (pl s) (κ s) (τ s)) :
    (n.act a s act).endpoint s = (n.endpoint s).step (a s) act :=
  Function.update_self _ _ _

theorem Net.act_endpoint_of_ne (n : Net pl κ τ) {s s' : Side} (hne : s' ≠ s)
    (act : Act (pl s) (κ s) (τ s)) : (n.act a s act).endpoint s' = n.endpoint s' :=
  Function.update_of_ne hne _ _

/-! ## No reply to a reply -/

/-- No error reply to a response was sent. -/
def Endpoint.NoBounce {pl : Platform} {κ τ : Type} (e : Endpoint pl κ τ) : Prop :=
  ∀ f ∈ e.frames, f.origin ≠ .bounce

theorem noBounce_follows {pl : Platform} {κ τ : Type} {a : Application pl κ τ}
    {e e' : Endpoint pl κ τ} (hfollows : Follows a e e') : e'.NoBounce ↔ e.NoBounce := by
  obtain ⟨requests, hframes, hrequests⟩ := hfollows.frames_eq
  rw [Endpoint.NoBounce, hframes]
  refine ⟨fun h f hf => h f (List.mem_append_left _ hf), fun h f hf => ?_⟩
  rcases List.mem_append.mp hf with hf | hf
  · exact h f hf
  · obtain ⟨-, number, horigin⟩ := hrequests f hf
    rw [horigin]
    exact fun heq => nomatch heq

theorem noBounce_react {pl : Platform} {κ τ : Type} {a : Application pl κ τ}
    (callback : Callback) (e : Endpoint pl κ τ) :
    (e.react a callback).NoBounce ↔ e.NoBounce ∧ ¬ e.Stale callback := by
  obtain ⟨requests, replies, hframes, hrequests, hreplies⟩ := react_frames (a := a) callback e
  have hissued : ∀ f ∈ requests, f.origin ≠ .bounce := by
    intro f hf
    obtain ⟨-, number, horigin⟩ := hrequests f hf
    rw [horigin]
    exact fun heq => nomatch heq
  have hsplit : (e.react a callback).NoBounce ↔
      e.NoBounce ∧ ∀ f ∈ replies, f.origin ≠ .bounce := by
    rw [Endpoint.NoBounce, hframes]
    constructor
    · intro h
      exact ⟨fun f hf => h f (List.mem_append_left _ hf),
        fun f hf => h f (List.mem_append_right _ (List.mem_append_right _ hf))⟩
    · rintro ⟨h, hnew⟩ f hf
      rcases List.mem_append.mp hf with hf | hf
      · exact h f hf
      · rcases List.mem_append.mp hf with hf | hf
        · exact hissued f hf
        · exact hnew f hf
  rw [hsplit]
  refine and_congr_right fun _ => ?_
  cases hreplies with
  | quiet hfresh => exact ⟨fun _ => hfresh, fun _ f hf => absurd hf List.not_mem_nil⟩
  | bounce hresponse hid =>
      exact ⟨fun h => absurd rfl (h _ (List.mem_singleton.mpr rfl)),
        fun h => absurd ⟨hresponse, hid⟩ h⟩
  | answer hrequest _ _ hframe =>
      refine ⟨fun _ hstale => hrequest hstale.1, fun _ f hf => ?_⟩
      rw [List.mem_singleton.mp hf, (Answer.frame?_eq_some hframe).1]
      exact fun heq => nomatch heq

/-- A run sends no such reply exactly if no stale response completes in it. -/
theorem noBounce_run_iff {pl : Platform} {κ τ : Type} {a : Application pl κ τ}
    (acts : List (Act pl κ τ)) (e : Endpoint pl κ τ) :
    (e.run a acts).NoBounce ↔
      e.NoBounce ∧ Along a (fun e callback => ¬ e.Stale callback) acts e :=
  run_iff_along a (fun _ _ hfollows => noBounce_follows hfollows)
    (fun e callback => noBounce_react callback e) acts e

/-- No error reply to a response was sent at either side. -/
def Net.NoBounce (n : Net pl κ τ) : Prop :=
  ∀ s, (n.endpoint s).NoBounce

end Network

/-! ## Counting frames -/

/-- The frame was sent by `proto_req_send_request`. -/
def Origin.isRequest {pl : Platform} : Origin pl → Bool
  | .request _ => true
  | .answer _ => false
  | .bounce => false

/-- The frame answers a request. -/
def Origin.isAnswer {pl : Platform} : Origin pl → Bool
  | .request _ => false
  | .answer _ => true
  | .bounce => false

/-- The requests among some frames. -/
def requestCount {pl : Platform} (frames : List (SentFrame pl)) : Nat :=
  frames.countP fun f => f.origin.isRequest

/-- The answers among some frames. -/
def answerCount {pl : Platform} (frames : List (SentFrame pl)) : Nat :=
  frames.countP fun f => f.origin.isAnswer

section Counting

variable {pl : Platform} {κ τ : Type} {a : Application pl κ τ}

theorem requestCount_append (frames frames' : List (SentFrame pl)) :
    requestCount (frames ++ frames') = requestCount frames + requestCount frames' :=
  List.countP_append

theorem answerCount_append (frames frames' : List (SentFrame pl)) :
    answerCount (frames ++ frames') = answerCount frames + answerCount frames' :=
  List.countP_append

theorem answerCount_of_requests {frames : List (SentFrame pl)}
    (hrequests : ∀ f ∈ frames, f.IsRequest) : answerCount frames = 0 := by
  refine List.countP_eq_zero.mpr fun f hf => ?_
  obtain ⟨-, number, horigin⟩ := hrequests f hf
  rw [horigin]
  exact Bool.false_ne_true

/-- Every frame is a request, an answer or an error reply to a response. -/
theorem length_eq_counts {frames : List (SentFrame pl)}
    (hbounce : ∀ f ∈ frames, f.origin ≠ .bounce) :
    frames.length = requestCount frames + answerCount frames := by
  induction frames with
  | nil => rfl
  | cons f frames ih =>
      have hrest := ih fun g hg => hbounce g (List.mem_cons_of_mem f hg)
      rw [requestCount, answerCount, List.countP_cons, List.countP_cons, ← requestCount,
        ← answerCount, List.length_cons, hrest]
      cases horigin : f.origin with
      | request number => simp [Origin.isRequest, Origin.isAnswer]; omega
      | answer answer => simp [Origin.isRequest, Origin.isAnswer]; omega
      | bounce => exact absurd horigin (hbounce f List.mem_cons_self)

/-- Each request issued is one frame, and the other frames are responses. -/
structure Endpoint.Tallied (e : Endpoint pl κ τ) : Prop where
  requests : requestCount e.frames = e.requests.length
  responses : ∀ f ∈ e.frames, f.origin.isRequest = true ∨ IsResponse f.flags

theorem Endpoint.Tallied.follows {e e' : Endpoint pl κ τ} (hfollows : Follows a e e')
    (he : e.Tallied) : e'.Tallied := by
  refine hfollows.keeps ?_ ?_ ?_ he
  · exact fun _ _ h => ⟨h.requests, h.responses⟩
  · rintro _ _ ⟨_, _, rfl⟩ h
    exact ⟨h.requests, h.responses⟩
  · intro r e he
    constructor
    · show requestCount (e.frames ++ [_]) = (e.requests ++ [r]).length
      rw [requestCount_append, he.requests, List.length_append]
      rfl
    · intro f hf
      rcases List.mem_append.mp hf with hf | hf
      · exact he.responses f hf
      · rw [List.mem_singleton.mp hf]
        exact Or.inl rfl

/-- A reply is not a request; it is a response. -/
theorem replies_spec {e : Endpoint pl κ τ} {callback : Callback} {during : Nat}
    {replies : List (SentFrame pl)} (hreplies : Replies a e callback during replies) :
    requestCount replies = 0 ∧ ∀ f ∈ replies, IsResponse f.flags := by
  cases hreplies with
  | quiet _ => exact ⟨rfl, fun f hf => absurd hf List.not_mem_nil⟩
  | bounce _ _ =>
      refine ⟨rfl, fun f hf => ?_⟩
      rw [List.mem_singleton.mp hf]
      exact isResponse_error_response
  | answer _ _ _ hframe =>
      obtain ⟨horigin, hresponse, -, -⟩ := Answer.frame?_eq_some hframe
      constructor
      · rw [requestCount, List.countP_singleton, horigin]
        rfl
      · intro f hf
        rw [List.mem_singleton.mp hf]
        exact hresponse

theorem Endpoint.Tallied.react {e : Endpoint pl κ τ} (he : e.Tallied) (callback : Callback) :
    (e.react a callback).Tallied := by
  obtain ⟨e₁, hfollows, hsettles⟩ := react_eq a callback e
  have hdirect : (e.direct callback).Tallied := by
    constructor
    · rw [(direct_output callback e).2, (direct_steady callback e).requests]
      exact he.requests
    · rw [(direct_output callback e).2]
      exact he.responses
  have he₁ : e₁.Tallied := hdirect.follows hfollows
  obtain ⟨replies, hframes, hreplies⟩ := settles_frames hsettles
  obtain ⟨hnone, hresponses⟩ := replies_spec hreplies
  constructor
  · rw [hframes, requestCount_append, hnone, hsettles.closed.requests, he₁.requests]
    rfl
  · rw [hframes]
    intro f hf
    rcases List.mem_append.mp hf with hf | hf
    · exact he₁.responses f hf
    · exact Or.inr (hresponses f hf)

theorem Endpoint.Tallied.step {e : Endpoint pl κ τ} (he : e.Tallied) (act : Act pl κ τ) :
    (e.step a act).Tallied := by
  cases act with
  | script f => exact he.follows (Script.run_follows a _ e)
  | callback callback => exact he.react callback

/-- Only the completion of a request adds an answer, and at most one. -/
theorem answerCount_react (callback : Callback) (e : Endpoint pl κ τ) :
    answerCount (e.react a callback).frames = answerCount e.frames ∨
      answerCount (e.react a callback).frames = answerCount e.frames + 1 ∧
        ∃ flags requestId, callback = .completeRequest flags requestId ∧ ¬ IsResponse flags := by
  obtain ⟨requests, replies, hframes, hrequests, hreplies⟩ := react_frames (a := a) callback e
  rw [hframes, answerCount_append, answerCount_append, answerCount_of_requests hrequests,
    Nat.zero_add]
  cases hreplies with
  | quiet _ => exact Or.inl rfl
  | bounce _ _ => exact Or.inl rfl
  | answer hrequest _ _ hframe =>
      refine Or.inr ⟨?_, _, _, rfl, hrequest⟩
      rw [answerCount, answerCount, List.countP_singleton, (Answer.frame?_eq_some hframe).1]
      rfl

theorem answerCount_script {α : Type} (s : Script pl κ τ α) (e : Endpoint pl κ τ) :
    answerCount (s.run a e).2.frames = answerCount e.frames := by
  obtain ⟨requests, hframes, hrequests⟩ := (Script.run_follows a s e).frames_eq
  rw [hframes, answerCount_append, answerCount_of_requests hrequests]
  rfl

/-- Frames are only added. -/
theorem prefix_frames_step (act : Act pl κ τ) (e : Endpoint pl κ τ) :
    e.frames <+: (e.step a act).frames := by
  cases act with
  | script f =>
      obtain ⟨requests, hframes, -⟩ := (Script.run_follows a (f e.app) e).frames_eq
      rw [Endpoint.step, hframes]
      exact List.prefix_append _ _
  | callback callback =>
      obtain ⟨requests, replies, hframes, -, -⟩ := react_frames (a := a) callback e
      rw [Endpoint.step, hframes]
      exact List.prefix_append _ _

theorem prefix_frames_run (acts : List (Act pl κ τ)) (e : Endpoint pl κ τ) :
    e.frames <+: (e.run a acts).frames := by
  induction acts generalizing e with
  | nil => exact List.prefix_rfl
  | cons act acts ih => exact (prefix_frames_step act e).trans (ih _)

end Counting

section Network

variable {pl : Side → Build} {κ τ : Side → Type} {a : ∀ s, Application (pl s) (κ s) (τ s)}

/-- Each side has answered at most the requests that it completed, and its frames
are tallied. -/
structure Net.Answered (n : Net pl κ τ) : Prop where
  tallied : ∀ s, (n.endpoint s).Tallied
  answers : ∀ s, answerCount (n.endpoint s).frames ≤
    requestCount ((n.endpoint s.other).frames.take (n.position s).completed)

/-- One endpoint acts and comes to a position: what is left to check is its own
number of answers. -/
theorem Net.Answered.act {n : Net pl κ τ} (hn : n.Answered) (s : Side)
    (act : Act (pl s) (κ s) (τ s)) (p : Position)
    (hanswers : answerCount ((n.endpoint s).step (a s) act).frames ≤
      requestCount ((n.endpoint s.other).frames.take p.completed)) :
    Net.Answered { n.act a s act with position := Function.update n.position s p } := by
  constructor
  · intro s'
    by_cases heq : s' = s
    · subst heq
      simpa [Net.act] using (hn.tallied s').step act
    · simpa [Net.act, heq] using hn.tallied s'
  · intro s'
    by_cases heq : s' = s
    · subst heq
      simpa [Net.act, s'.other_ne] using hanswers
    · have hother : s'.other = s := by
        cases s' <;> cases s <;> first | rfl | exact absurd rfl heq
      subst hother
      have hold := hn.answers s'
      have hgrown : requestCount ((n.endpoint s'.other).frames.take (n.position s').completed) ≤
          requestCount (((n.endpoint s'.other).step (a s'.other) act).frames.take
            (n.position s').completed) :=
        ((prefix_frames_step act (n.endpoint s'.other)).take _).sublist.countP_le
      simpa [Net.act, heq] using hold.trans hgrown

theorem Net.Answered.step {n : Net pl κ τ} (hn : n.Answered) (act : NetAct pl κ τ) :
    (n.step a act).Answered := by
  refine Net.step_induction a (fun s f => ?_) (fun s callback p hdue => ?_) hn act
  · have hkept := hn.act (a := a) s (.script f) (n.position s)
      (by rw [Endpoint.step, answerCount_script]; exact hn.answers s)
    rwa [Function.update_eq_self] at hkept
  · refine hn.act s (.callback callback) p ?_
    rw [Endpoint.step]
    have hold := hn.answers s
    rcases answerCount_react (a := a s) callback (n.endpoint s) with
      hsame | ⟨hone, flags, requestId, hcallback, hrequest⟩
    · rw [hsame]
      cases hdue with
      | header _ _ => exact hold
      | object _ _ _ => exact hold
      | completion _ _ _ =>
          refine hold.trans ?_
          rw [List.take_add_one, requestCount_append]
          exact Nat.le_add_right _ _
    · -- a request was completed: it is one more request among the completed frames
      rw [hone]
      cases hdue with
      | header _ _ => cases hcallback
      | object _ _ _ => cases hcallback
      | @completion f _ hf _ _ =>
          cases hcallback
          -- what is not a response was sent by `proto_req_send_request`
          have hkind : f.origin.isRequest = true :=
            ((hn.tallied s.other).responses f (List.mem_of_getElem? hf)).resolve_right hrequest
          have hmore : requestCount [f] = 1 := by
            rw [requestCount, List.countP_singleton, if_pos hkind]
          rw [List.take_add_one, hf, requestCount_append, Option.toList_some, hmore]
          exact Nat.succ_le_succ hold

theorem Net.Answered.run {n : Net pl κ τ} (hn : n.Answered) (acts : List (NetAct pl κ τ)) :
    (n.run a acts).Answered := by
  induction acts generalizing n with
  | nil => exact hn
  | cons act acts ih => exact ih (hn.step act)

/-- Without error replies to responses, a side has sent its requests and at most
one answer for each request of the other side. -/
theorem Net.Answered.length_le {n : Net pl κ τ} (hn : n.Answered) (hbounce : n.NoBounce)
    (s : Side) :
    (n.endpoint s).frames.length ≤
      (n.endpoint s).requests.length + (n.endpoint s.other).requests.length := by
  have htake : requestCount ((n.endpoint s.other).frames.take (n.position s).completed) ≤
      requestCount (n.endpoint s.other).frames :=
    (List.take_sublist _ _).countP_le
  have hanswers := hn.answers s
  rw [length_eq_counts (hbounce s), (hn.tallied s).requests]
  rw [(hn.tallied s.other).requests] at htake
  omega

end Network

end ZxProto
