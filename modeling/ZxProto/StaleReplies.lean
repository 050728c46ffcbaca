import ZxProto.Correlation

/-!
# Replies that never end

A response that completes when its id is not that of the receiver's latest request gets an error
reply, and that reply is a response with the same id.  As long as neither side comes to this id,
nothing takes such responses off the connection: they go back and forth for ever.

* `responseCount`, `answersTo`, `bounceCount`, `completionCount` — frames and callbacks with an id;
* `Endpoint.Numbered` — the latest id counts the requests;
* `step_newFrames`, `run_newFrames` — a response that completes is replied to;
* `ByteNet.circulating` — the responses with an id that were sent and did not complete yet;
* `ByteNet.Outdated` — the id is that of no latest request; `ByteNet.counts_run`;
* `ByteNet.Rounds` — parts of a run that take all that was on its way;
* `staleResponses_conserved`, `staleResponses_endless` — the results.
-/

namespace ZxProto

open ByteMemory

/-! ## Counting -/

/-- The frame is an error reply to a stale response. -/
def Origin.isBounce {pl : Platform} : Origin pl → Bool
  | .request _ => false
  | .answer _ => false
  | .bounce => true

theorem Origin.isBounce_iff {pl : Platform} {origin : Origin pl} :
    origin.isBounce = true ↔ origin = .bounce := by
  cases origin <;> simp [Origin.isBounce]

/-- The callback completes a response with an id. -/
def Callback.completes (id : UInt16) : Callback → Bool
  | .startRequest _ _ _ => false
  | .next _ _ _ => false
  | .completeRequest flags requestId => decide (IsResponse flags) && requestId == id

/-- The callback that an act makes. -/
def Act.callback? {pl : Platform} {κ τ : Type} : Act pl κ τ → Option Callback
  | .script _ => none
  | .callback cb => some cb

/-- The responses with an id that some callbacks complete. -/
def completionCount (id : UInt16) (cbs : List Callback) : Nat :=
  cbs.countP (Callback.completes id)

section Counting

variable {pl : Platform} (id : UInt16) (frames : List (SentFrame pl))

/-- The responses with an id among some frames. -/
def responseCount : Nat :=
  frames.countP fun f => decide (IsResponse f.flags) && f.requestId == id

/-- The answers to requests with an id. -/
def answersTo : Nat :=
  frames.countP fun f => f.origin.isAnswer && f.requestId == id

/-- The error replies to responses with an id. -/
def bounceCount : Nat :=
  frames.countP fun f => f.origin.isBounce && f.requestId == id

end Counting

section Counting

variable {pl : Platform} {id : UInt16}

theorem responseCount_append (frames frames' : List (SentFrame pl)) :
    responseCount id (frames ++ frames') = responseCount id frames + responseCount id frames' :=
  List.countP_append

theorem answersTo_append (frames frames' : List (SentFrame pl)) :
    answersTo id (frames ++ frames') = answersTo id frames + answersTo id frames' :=
  List.countP_append

theorem bounceCount_append (frames frames' : List (SentFrame pl)) :
    bounceCount id (frames ++ frames') = bounceCount id frames + bounceCount id frames' :=
  List.countP_append

theorem completionCount_append (cbs cbs' : List Callback) :
    completionCount id (cbs ++ cbs') = completionCount id cbs + completionCount id cbs' :=
  List.countP_append

variable (id) in
/-- Requests are none of these. -/
theorem counts_requests {frames : List (SentFrame pl)} (hrequests : ∀ f ∈ frames, f.IsRequest) :
    responseCount id frames = 0 ∧ answersTo id frames = 0 ∧ bounceCount id frames = 0 := by
  refine ⟨List.countP_eq_zero.mpr fun f hf => ?_, List.countP_eq_zero.mpr fun f hf => ?_,
    List.countP_eq_zero.mpr fun f hf => ?_⟩
  · rw [decide_eq_false (hrequests f hf).not_isResponse]
    exact Bool.false_ne_true
  · obtain ⟨-, number, horigin⟩ := hrequests f hf
    rw [horigin]
    exact Bool.false_ne_true
  · obtain ⟨-, number, horigin⟩ := hrequests f hf
    rw [horigin]
    exact Bool.false_ne_true

/-- The callbacks of a frame complete one response if it is one. -/
theorem completionCount_callbacks (f : SentFrame pl) :
    completionCount id f.callbacks = responseCount id [f] := by
  have hbodies : (f.bodies.map fun body => Callback.next f.flags f.requestId
      (bodyContents body)).countP (Callback.completes id) = 0 := by
    refine List.countP_eq_zero.mpr fun callback hcallback => ?_
    obtain ⟨body, -, rfl⟩ := List.mem_map.mp hcallback
    exact Bool.false_ne_true
  rw [completionCount, SentFrame.callbacks, List.countP_cons_of_neg Bool.false_ne_true,
    List.countP_append, hbodies, Nat.zero_add, List.countP_singleton, responseCount,
    List.countP_singleton]
  rfl

theorem completionCount_frames (frames : List (SentFrame pl)) :
    completionCount id (frames.flatMap SentFrame.callbacks) = responseCount id frames := by
  induction frames with
  | nil => rfl
  | cons f frames ih =>
      rw [List.flatMap_cons, completionCount_append, completionCount_callbacks, ih,
        ← responseCount_append]
      rfl

end Counting

/-! ## One endpoint -/

section Endpoint

variable {pl : Platform} {κ τ : Type} {a : Application pl κ τ} {id : UInt16}

/-- While the id is not the latest, the replies are answers, and an error reply for each response
that completes. -/
theorem replies_counts {e : Endpoint pl κ τ} {callback : Callback} {during : Nat}
    {replies : List (SentFrame pl)} (hreplies : Replies a e callback during replies)
    (hother : e.processor.currentRequestId ≠ id) :
    responseCount id replies = answersTo id replies + bounceCount id replies ∧
      bounceCount id replies = completionCount id [callback] := by
  cases hreplies with
  | quiet hfresh =>
      refine ⟨rfl, (List.countP_eq_zero.mpr fun callback' hcallback => ?_).symm⟩
      rw [List.mem_singleton.mp hcallback]
      cases callback with
      | startRequest flags size requestId => exact Bool.false_ne_true
      | next flags requestId contents => exact Bool.false_ne_true
      | completeRequest flags requestId =>
          -- a response with the id would be stale
          intro hcompletes
          obtain ⟨hresponse, heq⟩ := Bool.and_eq_true_iff.mp hcompletes
          refine hfresh ⟨of_decide_eq_true hresponse, ?_⟩
          rwa [eq_of_beq heq]
  | @bounce flags requestId during hresponse hid =>
      have hreply : IsResponse (bounceFrame pl requestId during).flags := isResponse_error_response
      simp only [responseCount, answersTo, bounceCount, completionCount, List.countP_singleton,
        Callback.completes, decide_eq_true hresponse, decide_eq_true hreply]
      simp [bounceFrame, Origin.isAnswer, Origin.isBounce]
  | @answer flags requestId during answer f k hrequest hk hanswer hframe =>
      obtain ⟨horigin, hresponse, hid, -⟩ := Answer.frame?_eq_some hframe
      simp only [responseCount, answersTo, bounceCount, completionCount, List.countP_singleton,
        Callback.completes, decide_eq_true hresponse, decide_eq_false hrequest, horigin]
      simp [Origin.isAnswer, Origin.isBounce]

/-- The latest id counts the requests. -/
def Endpoint.Numbered (e : Endpoint pl κ τ) : Prop :=
  e.processor.currentRequestId = UInt16.ofNat e.requests.length

theorem Endpoint.Numbered.follows {e e' : Endpoint pl κ τ} (hfollows : Follows a e e')
    (he : e.Numbered) : e'.Numbered := by
  refine hfollows.keeps (fun _ _ h => h) ?_ ?_ he
  · rintro _ _ ⟨_, _, rfl⟩ h
    exact h
  · intro r e he
    show e.processor.currentRequestId + 1 = UInt16.ofNat (e.requests ++ [r]).length
    rw [he, List.length_append, UInt16.ofNat_add]
    rfl

theorem Endpoint.Numbered.steady {e e' : Endpoint pl κ τ} (hsteady : e.Steady e')
    (he : e.Numbered) : e'.Numbered := by
  obtain ⟨hrequests, -, objectNum, notifyError, tail, hprocessor⟩ := hsteady
  rw [Endpoint.Numbered, hprocessor, hrequests]
  exact he

theorem Endpoint.Numbered.step {e : Endpoint pl κ τ} (he : e.Numbered) (act : Act pl κ τ) :
    (e.step a act).Numbered := by
  cases act with
  | script f => exact he.follows (Script.run_follows a _ e)
  | callback callback =>
      obtain ⟨e₁, hfollows, hsettles⟩ := react_eq a callback e
      exact ((he.steady (direct_steady callback e)).follows hfollows).steady
        hsettles.closed.toSteady

theorem Endpoint.Numbered.run {e : Endpoint pl κ τ} (he : e.Numbered) (acts : List (Act pl κ τ)) :
    (e.run a acts).Numbered := by
  induction acts generalizing e with
  | nil => exact he
  | cons act acts ih => exact ih (he.step act)

/-- What one act adds to the frames. -/
theorem step_newFrames (act : Act pl κ τ) {e : Endpoint pl κ τ}
    (hother : e.processor.currentRequestId ≠ id) :
    ∃ new, (e.step a act).frames = e.frames ++ new ∧
      responseCount id new = answersTo id new + bounceCount id new ∧
      bounceCount id new = completionCount id act.callback?.toList := by
  cases act with
  | script f =>
      obtain ⟨requests, hframes, hrequests⟩ :=
        (Script.run_follows a (f e.app) e).frames_eq
      obtain ⟨hresponses, hanswers, hbounces⟩ := counts_requests id hrequests
      exact ⟨requests, hframes, by omega, hbounces⟩
  | callback callback =>
      obtain ⟨requests, replies, hframes, hrequests, hreplies⟩ := react_frames (a := a) callback e
      obtain ⟨hresponses, hanswers, hbounces⟩ := counts_requests id hrequests
      obtain ⟨hresponses', hbounces'⟩ := replies_counts hreplies hother
      refine ⟨requests ++ replies, hframes, ?_, ?_⟩
      · rw [responseCount_append, answersTo_append, bounceCount_append]
        omega
      · rw [bounceCount_append, hbounces, Nat.zero_add, hbounces']
        rfl

/-- What a run adds to the frames, if no request in it has the id. -/
theorem run_newFrames (acts : List (Act pl κ τ)) {e : Endpoint pl κ τ} (he : e.Numbered)
    (hother : ∀ m, e.requests.length ≤ m → m ≤ (e.run a acts).requests.length →
      UInt16.ofNat m ≠ id) :
    ∃ new, (e.run a acts).frames = e.frames ++ new ∧
      responseCount id new = answersTo id new + bounceCount id new ∧
      bounceCount id new = completionCount id (acts.filterMap Act.callback?) := by
  induction acts generalizing e with
  | nil => exact ⟨[], (List.append_nil _).symm, rfl, rfl⟩
  | cons act acts ih =>
      have hgrown := (prefix_requests_step (a := a) act e).length_le
      have hleft := (prefix_requests_run (a := a) acts (e.step a act)).length_le
      have hlatest : e.processor.currentRequestId ≠ id := by
        rw [he]
        exact hother _ le_rfl (hgrown.trans hleft)
      obtain ⟨new, hframes, hresponses, hbounces⟩ := step_newFrames (a := a) act hlatest
      obtain ⟨new', hframes', hresponses', hbounces'⟩ := ih (he.step act)
        fun m hm hm' => hother m (hgrown.trans hm) hm'
      refine ⟨new ++ new', ?_, ?_, ?_⟩
      · rw [Endpoint.run_cons, hframes', hframes, List.append_assoc]
      · rw [responseCount_append, answersTo_append, bounceCount_append]
        omega
      · have hsplit : (act :: acts).filterMap Act.callback? =
            act.callback?.toList ++ acts.filterMap Act.callback? := by
          rw [List.filterMap_cons]
          cases act.callback? <;> rfl
        rw [hsplit, completionCount_append, ← hbounces, ← hbounces', bounceCount_append]

end Endpoint

/-! ## Two connections -/

/-- A connection that took all bytes of some frames has made their callbacks. -/
theorem Conn.Tracks.callbacks_taken {σ : Type} {pl : Platform} {receiver : Build} {c : Conn σ}
    {frames first : List (SentFrame pl)} (hframes : ∀ f ∈ frames, f.UnderstoodBy receiver)
    (hfirst : first <+: frames) {n : Nat}
    (hc : c.Tracks receiver ((frames.flatMap SentFrame.bytes).take n))
    (hn : (first.flatMap SentFrame.bytes).length ≤ n) :
    first.flatMap SentFrame.callbacks <+: c.callbacks := by
  obtain ⟨ws, hbytes, hcallbacks, -⟩ :=
    exists_wireFrames fun f hf => hframes f (hfirst.subset hf)
  -- what was taken begins with the first frames
  have hbegins : first.flatMap SentFrame.bytes <+: (frames.flatMap SentFrame.bytes).take n := by
    obtain ⟨rest, rfl⟩ := hfirst
    refine List.prefix_take_iff.mpr ⟨?_, hn⟩
    rw [List.flatMap_append]
    exact List.prefix_append _ _
  obtain ⟨rest, hrest⟩ := hbegins
  have hevents := prefix_streamEvents (first.flatMap SentFrame.bytes) rest
  rw [hrest, ← hbytes, streamEvents_frames] at hevents
  obtain ⟨held, hrenders⟩ := hc.renders
  rw [Conn.callbacks, hrenders.callbacks (accepted_of_understood hframes n), ← hcallbacks,
    ← map_callback_framesEvents 0 ws]
  exact hevents.map _

section Connections

variable {pl : Side → Build} {κ τ : Side → Type} {a : ∀ s, Application (pl s) (κ s) (τ s)}
  {id : UInt16}

/-- The responses with an id on their way to a side: those sent less those completed. -/
def ByteNet.awaited (b : ByteNet pl κ τ) (id : UInt16) (s : Side) : Nat :=
  responseCount id (b.conn s.other).app.frames - completionCount id (b.conn s).callbacks

/-- The responses with an id on their way. -/
def ByteNet.circulating (b : ByteNet pl κ τ) (id : UInt16) : Nat :=
  b.awaited id .left + b.awaited id .right

/-- The answers that were sent to requests with an id. -/
def ByteNet.answers (b : ByteNet pl κ τ) (id : UInt16) : Nat :=
  answersTo id (b.conn .left).app.frames + answersTo id (b.conn .right).app.frames

/-- The error replies that were sent to responses with an id. -/
def ByteNet.bounces (b : ByteNet pl κ τ) (id : UInt16) : Nat :=
  bounceCount id (b.conn .left).app.frames + bounceCount id (b.conn .right).app.frames

/-- Each side runs, and makes the callbacks of its run. -/
theorem ByteNet.exists_moves_step (act : ByteAct pl κ τ) (b : ByteNet pl κ τ) (s : Side) :
    ∃ moves, ((b.step a act).conn s).app = (b.conn s).app.run (a s) moves ∧
      ((b.step a act).conn s).callbacks =
        (b.conn s).callbacks ++ moves.filterMap Act.callback? := by
  have hupdate : ∀ (s' : Side) (c : Conn (Endpoint (pl s') (κ s') (τ s'))),
      (∃ moves, c.app = (b.conn s').app.run (a s') moves ∧
        c.callbacks = (b.conn s').callbacks ++ moves.filterMap Act.callback?) →
        ∃ moves, (Function.update b.conn s' c s).app = (b.conn s).app.run (a s) moves ∧
          (Function.update b.conn s' c s).callbacks =
            (b.conn s).callbacks ++ moves.filterMap Act.callback? := by
    intro s' c hmoves
    by_cases heq : s = s'
    · subst heq
      simpa using hmoves
    · exact ⟨[], by simp [heq, Endpoint.run], by simp [heq]⟩
  have hstay : ∃ moves, (b.conn s).app = (b.conn s).app.run (a s) moves ∧
      (b.conn s).callbacks = (b.conn s).callbacks ++ moves.filterMap Act.callback? :=
    ⟨[], rfl, (List.append_nil _).symm⟩
  cases act with
  | script s' f => exact hupdate s' _ ⟨[.script f], rfl, (List.append_nil _).symm⟩
  | deliver s' count =>
      rw [ByteNet.step]
      split
      · refine hupdate s' _ ?_
        obtain ⟨cbs, hcallbacks, hrun⟩ := recvProcess_run (pl s') (a s') (b.conn s')
          (.received (b.inFlight s' count))
        refine ⟨cbs.map .callback, hrun, ?_⟩
        rw [hcallbacks, List.filterMap_map]
        exact congrArg _ (List.filterMap_some).symm
      · exact hstay

theorem ByteNet.exists_moves (acts : List (ByteAct pl κ τ)) (b : ByteNet pl κ τ) (s : Side) :
    ∃ moves, ((b.run a acts).conn s).app = (b.conn s).app.run (a s) moves ∧
      ((b.run a acts).conn s).callbacks =
        (b.conn s).callbacks ++ moves.filterMap Act.callback? := by
  induction acts generalizing b with
  | nil => exact ⟨[], rfl, (List.append_nil _).symm⟩
  | cons act acts ih =>
      obtain ⟨first, hfirst, hcallbacks⟩ := b.exists_moves_step (a := a) act s
      obtain ⟨rest, hrest, hcallbacks'⟩ := ih (b.step a act)
      refine ⟨first ++ rest, ?_, ?_⟩
      · rw [Endpoint.run_append, ← hfirst]
        exact hrest
      · rw [List.filterMap_append, ← List.append_assoc, ← hcallbacks]
        exact hcallbacks'

theorem ByteNet.prefix_requests (acts : List (ByteAct pl κ τ)) (b : ByteNet pl κ τ) (s : Side) :
    (b.conn s).app.requests <+: ((b.run a acts).conn s).app.requests := by
  obtain ⟨moves, hmoves⟩ := b.exists_run (a := a) acts s
  rw [hmoves]
  exact prefix_requests_run _ _

/-- No more responses were completed than were sent. -/
theorem SimulatesAt.completions_le {b : ByteNet pl κ τ} {n : Net pl κ τ} {s : Side}
    (hs : SimulatesAt b n s) (hwire : (b.conn s.other).app.WireShows)
    (hwell : ∀ f ∈ (b.conn s.other).app.frames, f.UnderstoodBy (pl s)) :
    completionCount id (b.conn s).callbacks ≤ responseCount id (b.conn s.other).app.frames := by
  have htracks := hs.tracks
  rw [hwire] at htracks
  rw [← completionCount_frames]
  exact (htracks.callbacks_prefix hwell).sublist.countP_le

/-- The responses whose bytes were taken are completed. -/
theorem SimulatesAt.le_completions {b : ByteNet pl κ τ} {n : Net pl κ τ} {s : Side}
    (hs : SimulatesAt b n s) (hwire : (b.conn s.other).app.WireShows)
    (hwell : ∀ f ∈ (b.conn s.other).app.frames, f.UnderstoodBy (pl s))
    {first : List (SentFrame (pl s.other))} (hfirst : first <+: (b.conn s.other).app.frames)
    (htaken : (first.flatMap SentFrame.bytes).length ≤ b.taken s) :
    responseCount id first ≤ completionCount id (b.conn s).callbacks := by
  have htracks := hs.tracks
  rw [hwire] at htracks
  rw [← completionCount_frames]
  exact (htracks.callbacks_taken hwell hfirst htaken).sublist.countP_le

/-- No request that is the latest one of its side from `b` to `b'` has the id. -/
def ByteNet.Outdated (b b' : ByteNet pl κ τ) (id : UInt16) : Prop :=
  ∀ s m, (b.conn s).app.requests.length ≤ m → m ≤ (b'.conn s).app.requests.length →
    UInt16.ofNat m ≠ id

/-- Then it is outdated up to a state in between, and from there. -/
theorem ByteNet.Outdated.split {b : ByteNet pl κ τ} {acts acts' : List (ByteAct pl κ τ)}
    (h : b.Outdated ((b.run a acts).run a acts') id) :
    b.Outdated (b.run a acts) id ∧ (b.run a acts).Outdated ((b.run a acts).run a acts') id := by
  have hgrown := fun s => (b.prefix_requests (a := a) acts s).length_le
  have hgrown' := fun s => ((b.run a acts).prefix_requests (a := a) acts' s).length_le
  exact ⟨fun s m hm hm' => h s m hm (hm'.trans (hgrown' s)),
    fun s m hm hm' => h s m ((hgrown s).trans hm) hm'⟩

/-- No side completed more responses than were sent to it. -/
def ByteNet.Balanced (b : ByteNet pl κ τ) (id : UInt16) : Prop :=
  ∀ s, completionCount id (b.conn s).callbacks ≤ responseCount id (b.conn s.other).app.frames

theorem Simulates.balanced {b : ByteNet pl κ τ} {n : Net pl κ τ} (hsim : Simulates b n)
    (hwell : b.Understood) : b.Balanced id :=
  fun s => (hsim s).completions_le (hsim s.other).wire (hwell s)

/-- What a run adds at a side whose latest id is another one throughout. -/
theorem ByteNet.counts_run (acts : List (ByteAct pl κ τ)) {b : ByteNet pl κ τ} (s : Side)
    (hnumbered : (b.conn s).app.Numbered) (houtdated : b.Outdated (b.run a acts) id) :
    ∃ answers bounces,
      responseCount id ((b.run a acts).conn s).app.frames =
        responseCount id (b.conn s).app.frames + answers + bounces ∧
      answersTo id ((b.run a acts).conn s).app.frames =
        answersTo id (b.conn s).app.frames + answers ∧
      bounceCount id ((b.run a acts).conn s).app.frames =
        bounceCount id (b.conn s).app.frames + bounces ∧
      completionCount id ((b.run a acts).conn s).callbacks =
        completionCount id (b.conn s).callbacks + bounces := by
  have hother := houtdated s
  obtain ⟨moves, happ, hcallbacks⟩ := b.exists_moves (a := a) acts s
  rw [happ] at hother ⊢
  obtain ⟨new, hframes, hresponses, hbounces⟩ := run_newFrames moves hnumbered hother
  refine ⟨answersTo id new, bounceCount id new, ?_, ?_, ?_, ?_⟩
  · rw [hframes, responseCount_append, hresponses, Nat.add_assoc]
  · rw [hframes, answersTo_append]
  · rw [hframes, bounceCount_append]
  · rw [hcallbacks, completionCount_append, hbounces]

/-- What is added to the responses on their way are answers. -/
theorem ByteNet.circulating_run (acts : List (ByteAct pl κ τ)) {b : ByteNet pl κ τ}
    (hnumbered : ∀ s, (b.conn s).app.Numbered) (houtdated : b.Outdated (b.run a acts) id)
    (hbalanced : b.Balanced id) (hbalanced' : (b.run a acts).Balanced id) :
    (b.run a acts).circulating id + b.answers id = b.circulating id + (b.run a acts).answers id ∧
      b.answers id ≤ (b.run a acts).answers id := by
  obtain ⟨answers, bounces, hresponses, hanswers, -, hcompletions⟩ :=
    b.counts_run acts .left (hnumbered .left) houtdated
  obtain ⟨answers', bounces', hresponses', hanswers', -, hcompletions'⟩ :=
    b.counts_run acts .right (hnumbered .right) houtdated
  have hleft := hbalanced .left
  have hright := hbalanced .right
  have hleft' := hbalanced' .left
  have hright' := hbalanced' .right
  simp only [ByteNet.circulating, ByteNet.awaited, ByteNet.answers, Side.other] at *
  omega

/-- When the responses on their way are completed, each was replied to. -/
theorem ByteNet.bounces_run (acts : List (ByteAct pl κ τ)) {b : ByteNet pl κ τ}
    (hnumbered : ∀ s, (b.conn s).app.Numbered) (houtdated : b.Outdated (b.run a acts) id)
    (hbalanced : b.Balanced id)
    (hcompleted : ∀ s, responseCount id (b.conn s.other).app.frames ≤
      completionCount id ((b.run a acts).conn s).callbacks) :
    b.bounces id + b.circulating id ≤ (b.run a acts).bounces id := by
  obtain ⟨-, bounces, -, -, hbounces, hcompletions⟩ :=
    b.counts_run acts .left (hnumbered .left) houtdated
  obtain ⟨-, bounces', -, -, hbounces', hcompletions'⟩ :=
    b.counts_run acts .right (hnumbered .right) houtdated
  have hleft := hbalanced .left
  have hright := hbalanced .right
  have hleft' := hcompleted .left
  have hright' := hcompleted .right
  simp only [ByteNet.circulating, ByteNet.awaited, ByteNet.bounces, Side.other] at *
  omega

/-- A run in two parts, and the networks of frames that its parts come to. -/
theorem ByteNet.Fresh.exists_simulates_both {b : ByteNet pl κ τ} (hfresh : b.Fresh)
    (ha : ∀ s, (a s).Reliable) (acts acts' : List (ByteAct pl κ τ))
    (hwell : ((b.run a acts).run a acts').Understood) :
    (b.run a acts).Understood ∧ (∃ n, Simulates (b.run a acts) n) ∧
      ∃ n, Simulates ((b.run a acts).run a acts') n := by
  have hwell₁ : (b.run a acts).Understood := fun s f hf =>
    hwell s f (((b.run a acts).prefix_frames acts' s.other).subset hf)
  have hrun : b.run a (acts ++ acts') = (b.run a acts).run a acts' := List.foldl_append
  rw [← hrun] at hwell ⊢
  obtain ⟨moves₁, hsim₁⟩ := hfresh.exists_simulates ha acts hwell₁
  obtain ⟨moves₂, hsim₂⟩ := hfresh.exists_simulates ha (acts ++ acts') hwell
  exact ⟨hwell₁, ⟨_, hsim₁⟩, _, hsim₂⟩

theorem ByteNet.numbered_run {b : ByteNet pl κ τ} (hnumbered : ∀ s, (b.conn s).app.Numbered)
    (acts : List (ByteAct pl κ τ)) (s : Side) : ((b.run a acts).conn s).app.Numbered := by
  obtain ⟨moves, happ⟩ := b.exists_run (a := a) acts s
  rw [happ]
  exact (hnumbered s).run moves

/-- **Stale responses do not disappear.**  Two connections over reliable sockets start with nothing
received and are run in any way, in which all frames are understood.  As long as no request that is
the latest one of its side has some id, the responses with this id that are on their way are those
that were before, and the answers sent since to requests with the id. -/
theorem staleResponses_conserved (ha : ∀ s, (a s).Reliable) {b : ByteNet pl κ τ}
    (hfresh : b.Fresh) (hnumbered : ∀ s, (b.conn s).app.Numbered)
    (acts acts' : List (ByteAct pl κ τ)) :
    let b₁ := b.run a acts
    let b₂ := b₁.run a acts'
    b₂.Understood → b₁.Outdated b₂ id →
      b₂.circulating id + b₁.answers id = b₁.circulating id + b₂.answers id := by
  intro b₁ b₂ hwell houtdated
  obtain ⟨hwell₁, ⟨n₁, hsim₁⟩, n₂, hsim₂⟩ := hfresh.exists_simulates_both ha acts acts' hwell
  exact (b₁.circulating_run acts' (ByteNet.numbered_run hnumbered acts) houtdated
    (hsim₁.balanced hwell₁) (hsim₂.balanced hwell)).1

/-- Each part of a run takes all bytes that were on their way when it began. -/
def ByteNet.Rounds (a : ∀ s, Application (pl s) (κ s) (τ s)) :
    List (List (ByteAct pl κ τ)) → ByteNet pl κ τ → Prop
  | [], _ => True
  | acts :: rounds, b =>
      (∀ s, (b.conn s.other).app.wire.length ≤ (b.run a acts).taken s) ∧
        ByteNet.Rounds a rounds (b.run a acts)

/-- One round replies to all responses that were on their way. -/
theorem ByteNet.Fresh.bounces_round (ha : ∀ s, (a s).Reliable) {b : ByteNet pl κ τ}
    (hfresh : b.Fresh) (hnumbered : ∀ s, (b.conn s).app.Numbered)
    (acts acts' : List (ByteAct pl κ τ)) (hwell : ((b.run a acts).run a acts').Understood)
    (houtdated : (b.run a acts).Outdated ((b.run a acts).run a acts') id)
    (hround : ∀ s, ((b.run a acts).conn s.other).app.wire.length ≤
      ((b.run a acts).run a acts').taken s) :
    (b.run a acts).bounces id + (b.run a acts).circulating id ≤
        ((b.run a acts).run a acts').bounces id ∧
      (b.run a acts).circulating id ≤ ((b.run a acts).run a acts').circulating id := by
  obtain ⟨hwell₁, ⟨n₁, hsim₁⟩, n₂, hsim₂⟩ := hfresh.exists_simulates_both ha acts acts' hwell
  have hnumbered₁ := ByteNet.numbered_run (a := a) hnumbered acts
  have hbalanced : (b.run a acts).Balanced id := hsim₁.balanced hwell₁
  constructor
  · refine ByteNet.bounces_run acts' hnumbered₁ houtdated hbalanced fun s => ?_
    -- the responses that were on their way are completed
    refine (hsim₂ s).le_completions (hsim₂ s.other).wire (hwell s)
      (ByteNet.prefix_frames acts' _ s.other) ?_
    have htaken := hround s
    rwa [(hsim₁ s.other).wire] at htaken
  · have hkept := ByteNet.circulating_run acts' hnumbered₁ houtdated hbalanced
      (hsim₂.balanced hwell)
    omega

/-- And so do many rounds. -/
theorem ByteNet.Fresh.bounces_rounds (ha : ∀ s, (a s).Reliable) {b : ByteNet pl κ τ}
    (hfresh : b.Fresh) (hnumbered : ∀ s, (b.conn s).app.Numbered)
    (rounds : List (List (ByteAct pl κ τ))) (acts : List (ByteAct pl κ τ))
    (hwell : ((b.run a acts).run a rounds.flatten).Understood)
    (houtdated : (b.run a acts).Outdated ((b.run a acts).run a rounds.flatten) id)
    (hrounds : (b.run a acts).Rounds a rounds) :
    (b.run a acts).bounces id + rounds.length * (b.run a acts).circulating id ≤
      ((b.run a acts).run a rounds.flatten).bounces id := by
  induction rounds generalizing acts with
  | nil =>
      show _ + 0 * _ ≤ (b.run a acts).bounces id
      omega
  | cons acts' rounds ih =>
      obtain ⟨hround, hrounds⟩ := hrounds
      have hjoin : b.run a (acts ++ acts') = (b.run a acts).run a acts' := List.foldl_append
      have hsplit : (b.run a acts).run a (acts' :: rounds).flatten =
          ((b.run a acts).run a acts').run a rounds.flatten := List.foldl_append
      rw [hsplit] at hwell houtdated ⊢
      obtain ⟨houtdated, houtdated'⟩ := houtdated.split
      have hwell' : ((b.run a acts).run a acts').Understood := fun s f hf =>
        hwell s f ((ByteNet.prefix_frames rounds.flatten _ s.other).subset hf)
      obtain ⟨hbounces, hcirculating⟩ :=
        hfresh.bounces_round ha hnumbered acts acts' hwell' houtdated hround
      -- the other rounds begin with as many responses, or more
      have hrest := ih (acts ++ acts')
      rw [hjoin] at hrest
      have hbounces' := hrest hwell houtdated' hrounds
      have hmore := Nat.mul_le_mul_left rounds.length hcirculating
      rw [List.length_cons, Nat.add_one_mul]
      omega

/-- With such a response on its way, bytes are on their way. -/
theorem ByteNet.Fresh.inFlight_of_circulating (ha : ∀ s, (a s).Reliable) {b : ByteNet pl κ τ}
    (hfresh : b.Fresh) (hnumbered : ∀ s, (b.conn s).app.Numbered)
    (acts acts' : List (ByteAct pl κ τ)) (hwell : ((b.run a acts).run a acts').Understood)
    (houtdated : (b.run a acts).Outdated ((b.run a acts).run a acts') id)
    (hstale : 0 < (b.run a acts).circulating id) :
    ∃ s, ((b.run a acts).run a acts').taken s <
      (((b.run a acts).run a acts').conn s.other).app.wire.length := by
  obtain ⟨hwell₁, ⟨n₁, hsim₁⟩, n₂, hsim₂⟩ := hfresh.exists_simulates_both ha acts acts' hwell
  have hkept := ByteNet.circulating_run acts' (ByteNet.numbered_run hnumbered acts) houtdated
    (hsim₁.balanced hwell₁) (hsim₂.balanced hwell)
  generalize (b.run a acts).run a acts' = b₂ at hwell hsim₂ hkept ⊢
  by_contra hquiet
  -- all bytes were taken, and so every response is completed
  have hdone : ∀ s, b₂.awaited id s = 0 := by
    intro s
    have htaken : ¬ b₂.taken s < (b₂.conn s.other).app.wire.length := fun hlt => hquiet ⟨s, hlt⟩
    rw [(hsim₂ s.other).wire] at htaken
    exact Nat.sub_eq_zero_of_le ((hsim₂ s).le_completions (hsim₂ s.other).wire (hwell s)
      List.prefix_rfl (Nat.not_lt.mp htaken))
  have hzero : b₂.circulating id = 0 := by
    rw [ByteNet.circulating, hdone, hdone]
  omega

/-- **Replies that never end.**  If such a response is on its way, then bytes are on their way ever
after; and in every round, at whose end all bytes were taken that were on their way at its
beginning, an error reply was sent for each of them. -/
theorem staleResponses_endless (ha : ∀ s, (a s).Reliable) {b : ByteNet pl κ τ}
    (hfresh : b.Fresh) (hnumbered : ∀ s, (b.conn s).app.Numbered)
    (acts : List (ByteAct pl κ τ)) (rounds : List (List (ByteAct pl κ τ))) :
    let b₁ := b.run a acts
    let b₂ := b₁.run a rounds.flatten
    b₂.Understood → b₁.Outdated b₂ id → 0 < b₁.circulating id →
      (∃ s, b₂.taken s < (b₂.conn s.other).app.wire.length) ∧
        (b₁.Rounds a rounds →
          b₁.bounces id + rounds.length * b₁.circulating id ≤ b₂.bounces id) := by
  intro b₁ b₂ hwell houtdated hstale
  exact ⟨hfresh.inFlight_of_circulating ha hnumbered acts rounds.flatten hwell houtdated hstale,
    hfresh.bounces_rounds ha hnumbered rounds acts hwell houtdated⟩

end Connections

/-- The client and the server of two requests. -/
def exampleSides : ∀ s : Side, Application Build.pc.toPlatform
    (onSides Nat (HandlerPointer Empty) s) (onSides Unit (ServerClientHandlers Unit) s) :=
  @bothSides (fun _ => .pc) _ _ _ _ (.quiet .pc Nat Unit) exampleServer

theorem reliable_exampleSides (s : Side) : (exampleSides s).Reliable := by
  cases s <;> exact fun _ => rfl

theorem numbered_exampleNet (s : Side) : (exampleNet.conn s).app.Numbered := by
  cases s <;> rfl

/-- Both answers are on their way. -/
def answeredBoth : List (ByteAct (fun _ => .pc) (onSides Nat (HandlerPointer Empty))
    (onSides Unit (ServerClientHandlers Unit))) :=
  [.script .left exampleRequests, .deliver .right 30, .deliver .right 30]

/-- Each side takes what is on its way. -/
def bothTake : List (ByteAct (fun _ => .pc) (onSides Nat (HandlerPointer Empty))
    (onSides Unit (ServerClientHandlers Unit))) :=
  [.deliver .left 60, .deliver .right 60]

theorem understood_bothTake :
    ((exampleNet.run exampleSides answeredBoth).run exampleSides
      (bothTake ++ bothTake)).Understood := by
  intro s
  cases s <;> decide +kernel

/-- The id of the first request is outdated. -/
theorem outdated_bothTake :
    (exampleNet.run exampleSides answeredBoth).Outdated
      ((exampleNet.run exampleSides answeredBoth).run exampleSides (bothTake ++ bothTake)) 1 := by
  intro s m hm hm'
  have hlength : ((exampleNet.run exampleSides answeredBoth).conn s).app.requests.length =
      (((exampleNet.run exampleSides answeredBoth).run exampleSides (bothTake ++ bothTake)).conn
        s).app.requests.length ∧
      UInt16.ofNat ((exampleNet.run exampleSides answeredBoth).conn s).app.requests.length ≠ 1 := by
    cases s <;> decide +kernel
  obtain rfl : m = ((exampleNet.run exampleSides answeredBoth).conn s).app.requests.length :=
    le_antisymm (hm'.trans hlength.1.ge) hm
  exact hlength.2

theorem staleResponses_conserved_of_two :
    let b₁ := exampleNet.run exampleSides answeredBoth
    let b₂ := b₁.run exampleSides (bothTake ++ bothTake)
    b₂.circulating 1 + b₁.answers 1 = b₁.circulating 1 + b₂.answers 1 ∧ b₂.circulating 1 = 1 :=
  ⟨staleResponses_conserved reliable_exampleSides fresh_exampleNet numbered_exampleNet answeredBoth
    (bothTake ++ bothTake) understood_bothTake outdated_bothTake, by decide +kernel⟩

theorem staleResponses_endless_of_two :
    let b₁ := exampleNet.run exampleSides answeredBoth
    let b₂ := b₁.run exampleSides [bothTake, bothTake].flatten
    (∃ s, b₂.taken s < (b₂.conn s.other).app.wire.length) ∧
      b₁.bounces 1 + 2 * 1 ≤ b₂.bounces 1 := by
  have hcirculating : (exampleNet.run exampleSides answeredBoth).circulating 1 = 1 := by
    decide +kernel
  have hrounds : (exampleNet.run exampleSides answeredBoth).Rounds exampleSides
      [bothTake, bothTake] := by
    refine ⟨fun s => ?_, fun s => ?_, trivial⟩
    · cases s <;> decide +kernel
    · cases s <;> decide +kernel
  obtain ⟨hflight, hbounces⟩ := staleResponses_endless (a := exampleSides) reliable_exampleSides
    fresh_exampleNet
    numbered_exampleNet answeredBoth [bothTake, bothTake] understood_bothTake outdated_bothTake
    (by rw [hcirculating]; exact Nat.one_pos)
  have hcount := hbounces hrounds
  rw [hcirculating] at hcount
  exact ⟨hflight, hcount⟩

end ZxProto
