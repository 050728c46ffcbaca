import ZxProto.Channel

/-!
# No reply to a reply

A response that completes is answered with a frame, the error reply "Unknown request id",
if its id is not that of the receiver's latest request.

* `ByteNet.heard` — the callbacks that an act makes at a side;
* `ByteAlong` — what holds before each of them, along a run;
* `noReplyToReply_iff` — no response is answered with a frame, and there are at most two
  frames for each request, exactly if no stale response completes.
-/

namespace ZxProto

instance decidableAlong {pl : Platform} {κ τ : Type} {a : Application pl κ τ}
    {guard : Endpoint pl κ τ → Callback → Prop} [∀ e callback, Decidable (guard e callback)]
    (acts : List (Act pl κ τ)) (e : Endpoint pl κ τ) : Decidable (Along a guard acts e) :=
  match acts with
  | [] => .isTrue trivial
  | .script f :: acts => decidableAlong acts (e.step a (.script f))
  | .callback callback :: acts =>
      have : Decidable (Along a guard acts (e.step a (.callback callback))) :=
        decidableAlong acts _
      inferInstanceAs (Decidable (_ ∧ _))

theorem Side.forall_iff {P : Side → Prop} : (∀ s, P s) ↔ P .left ∧ P .right :=
  ⟨fun h => ⟨h .left, h .right⟩, fun h s => Side.casesOn s h.1 h.2⟩

instance decidableForallSide {P : Side → Prop} [∀ s, Decidable (P s)] : Decidable (∀ s, P s) :=
  decidable_of_iff _ Side.forall_iff.symm

section Connections

variable {pl : Side → Build} {κ τ : Side → Type} (a : ∀ s, Application (pl s) (κ s) (τ s))

/-- The callbacks that an act makes at a side. -/
def ByteNet.heard (act : ByteAct pl κ τ) (b : ByteNet pl κ τ) (s : Side) : List Callback :=
  ((b.step a act).conn s).callbacks.drop (b.conn s).callbacks.length

/-- `guard` holds before each callback of a run. -/
def ByteAlong (guard : ∀ s, Endpoint (pl s) (κ s) (τ s) → Callback → Prop) :
    List (ByteAct pl κ τ) → ByteNet pl κ τ → Prop
  | [], _ => True
  | act :: acts, b =>
      (∀ s, Along (a s) (guard s) ((b.heard a act s).map .callback) (b.conn s).app) ∧
        ByteAlong guard acts (b.step a act)

instance decidableByteAlong {guard : ∀ s, Endpoint (pl s) (κ s) (τ s) → Callback → Prop}
    [∀ s e callback, Decidable (guard s e callback)] (acts : List (ByteAct pl κ τ))
    (b : ByteNet pl κ τ) : Decidable (ByteAlong a guard acts b) :=
  match acts with
  | [] => .isTrue trivial
  | act :: acts =>
      have : Decidable (ByteAlong a guard acts (b.step a act)) := decidableByteAlong acts _
      inferInstanceAs (Decidable (_ ∧ _))

variable {a}

/-- At each side, an act makes callbacks, or runs code of the application. -/
theorem ByteNet.step_side (act : ByteAct pl κ τ) (b : ByteNet pl κ τ) (s : Side) :
    ((b.step a act).conn s).app = (b.conn s).app.run (a s) ((b.heard a act s).map .callback) ∨
      b.heard a act s = [] ∧ ∃ f, ((b.step a act).conn s).app =
        (b.conn s).app.run (a s) [.script f] := by
  have hupdate : ∀ (s' : Side) (c : Conn (Endpoint (pl s') (κ s') (τ s'))) (taken : Side → Nat),
      b.step a act = ⟨Function.update b.conn s' c, taken⟩ → s ≠ s' →
        ((b.step a act).conn s).app =
          (b.conn s).app.run (a s) ((b.heard a act s).map .callback) := by
    intro s' c taken hstep hne
    have hsame : (b.step a act).conn s = b.conn s := by
      rw [hstep]
      exact Function.update_of_ne hne _ _
    rw [ByteNet.heard, hsame, List.drop_length]
    rfl
  cases act with
  | script s' f =>
      by_cases heq : s = s'
      · subst heq
        have hself : (b.step a (.script s f)).conn s = (b.conn s).script (a s) f :=
          Function.update_self _ _ _
        refine Or.inr ⟨?_, f, ?_⟩
        · rw [ByteNet.heard, hself]
          exact List.drop_length
        · rw [hself]
          rfl
      · exact Or.inl (hupdate s' _ _ rfl heq)
  | deliver s' count =>
      by_cases hgiven : (b.inFlight s' count).length ≤ (b.conn s').afford.toNat ∧
          b.inFlight s' count ≠ []
      · have hstep : b.step a (.deliver s' count) =
            ⟨Function.update b.conn s'
              (recvProcess (pl s') (reqHost (a s')) (b.conn s')
                (.received (b.inFlight s' count))).2,
              Function.update b.taken s' (b.taken s' + (b.inFlight s' count).length)⟩ :=
          if_pos hgiven
        by_cases heq : s = s'
        · subst heq
          obtain ⟨cbs, hcallbacks, hrun⟩ := recvProcess_run (pl s) (a s) (b.conn s)
            (.received (b.inFlight s count))
          refine Or.inl ?_
          rw [ByteNet.heard, hstep]
          dsimp only
          rw [Function.update_self, hcallbacks, List.drop_left]
          exact hrun
        · exact Or.inl (hupdate s' _ _ hstep heq)
      · have hstep : b.step a (.deliver s' count) = b := if_neg hgiven
        rw [ByteNet.heard, hstep, List.drop_length]
        exact Or.inl rfl

/-- No error reply to a response was sent at either side. -/
def ByteNet.NoBounce (b : ByteNet pl κ τ) : Prop :=
  ∀ s, (b.conn s).app.NoBounce

theorem ByteNet.noBounce_step_iff (act : ByteAct pl κ τ) (b : ByteNet pl κ τ) :
    (b.step a act).NoBounce ↔ b.NoBounce ∧
      ∀ s, Along (a s) (fun e callback => ¬ e.Stale callback)
        ((b.heard a act s).map .callback) (b.conn s).app := by
  rw [ByteNet.NoBounce, ByteNet.NoBounce, ← forall_and]
  refine forall_congr' fun s => ?_
  rcases b.step_side (a := a) act s with hcallbacks | ⟨hnone, f, hscript⟩
  · rw [hcallbacks, noBounce_run_iff]
  · rw [hscript, noBounce_run_iff, hnone]
    rfl

theorem ByteNet.noBounce_run_iff (acts : List (ByteAct pl κ τ)) (b : ByteNet pl κ τ) :
    (b.run a acts).NoBounce ↔
      b.NoBounce ∧ ByteAlong a (fun _ e callback => ¬ e.Stale callback) acts b := by
  induction acts generalizing b with
  | nil => exact (and_iff_left trivial).symm
  | cons act acts ih =>
      show ((b.step a act).run a acts).NoBounce ↔ _
      rw [ih, ByteNet.noBounce_step_iff, ByteAlong, and_assoc]

/-- Where all frames are understood, there are at most two frames for each request. -/
theorem ByteNet.Fresh.length_frames_le {b : ByteNet pl κ τ} (hfresh : b.Fresh)
    (ha : ∀ s, (a s).Reliable) (hrequests : ∀ s, (b.conn s).app.requests = [])
    {acts : List (ByteAct pl κ τ)} (hwell : (b.run a acts).Understood)
    (hnone : (b.run a acts).NoBounce) :
    ((b.run a acts).conn .left).app.frames.length +
        ((b.run a acts).conn .right).app.frames.length ≤
      2 * (((b.run a acts).conn .left).app.requests.length +
        ((b.run a acts).conn .right).app.requests.length) := by
  obtain ⟨acts', hsim⟩ := hfresh.exists_simulates ha acts hwell
  have hanswered : ((Net.init fun s => (b.conn s).app).run a acts').Answered := by
    refine Net.Answered.run ⟨fun s => ⟨?_, ?_⟩, fun s => ?_⟩ acts'
    · show requestCount (b.conn s).app.frames = (b.conn s).app.requests.length
      rw [hfresh.frames, hrequests]
      rfl
    · show ∀ f ∈ (b.conn s).app.frames, _
      rw [hfresh.frames]
      exact fun f hf => absurd hf List.not_mem_nil
    · show answerCount (b.conn s).app.frames ≤ _
      rw [hfresh.frames]
      exact Nat.zero_le _
  have hbounce : ((Net.init fun s => (b.conn s).app).run a acts').NoBounce := by
    intro s
    rw [(hsim s).endpoint]
    exact hnone s
  have hleft := hanswered.length_le hbounce .left
  have hright := hanswered.length_le hbounce .right
  rw [(hsim .left).endpoint, Side.other, (hsim .right).endpoint] at hleft
  rw [(hsim .right).endpoint, Side.other, (hsim .left).endpoint] at hright
  omega

/-- **No reply to a reply.**  Two endpoints that start with nothing sent are connected over
reliable sockets, and the bytes come in any pieces.  In every run in which all frames are
understood, whatever the applications do, no frame is sent because of a response, and there
are at most two frames for each request, if and only if every response that completes has the
id of the receiver's latest request. -/
theorem noReplyToReply_iff (ha : ∀ s, (a s).Reliable) {b : ByteNet pl κ τ} (hfresh : b.Fresh)
    (hrequests : ∀ s, (b.conn s).app.requests = []) (acts : List (ByteAct pl κ τ))
    (hwell : (b.run a acts).Understood) :
    let b' := b.run a acts
    (b'.NoBounce ∧
        (b'.conn .left).app.frames.length + (b'.conn .right).app.frames.length ≤
          2 * ((b'.conn .left).app.requests.length + (b'.conn .right).app.requests.length)) ↔
      ByteAlong a (fun _ e callback => ¬ e.Stale callback) acts b := by
  intro b'
  have hempty : b.NoBounce := by
    intro s f hf
    rw [hfresh.frames] at hf
    exact absurd hf List.not_mem_nil
  have hiff := ByteNet.noBounce_run_iff (a := a) acts b
  rw [and_iff_right hempty] at hiff
  rw [← hiff]
  exact and_iff_left_of_imp (hfresh.length_frames_le ha hrequests hwell)

end Connections

/-! ## Two requests -/

/-- A side that answers every request with a text. -/
def textSides : ∀ s : Side,
    Application Build.pc.toPlatform ((fun _ => Nat) s) ((fun _ => Unit) s) :=
  fun _ =>
    { Application.quiet .pc Nat Unit with
      incomingComplete := fun _ _ _ _ app => .done (.text unknownRequestId) app }

/-- Two of them, with nothing received. -/
def textNet : ByteNet (fun _ => .pc) (fun _ => Nat) (fun _ => Unit) where
  conn _ := .init 1024 128 (fun _ => 0) ⟨0, []⟩
    (.init { ProtoReqProcessor.zeroed Nat with incomingComplete := some 0 } ()) 0
  taken _ := 0

theorem fresh_textNet : textNet.Fresh :=
  ⟨fun _ => Conn.fresh_init _ _ _ _ _ _, fun _ => Conn.placed_of_c rfl _, fun _ => rfl,
    fun _ => rfl, fun _ => rfl⟩

/-- A request with an object without properties. -/
def plainRequest : Request .pc Nat where
  object := .allocate .pc (fun _ => 0) 512 [] (by decide) (by decide)
  objectCallback := none
  cb := some 7
  err := none

/-- The request is answered before the next one is issued. -/
def answeredInTurn : List (ByteAct (fun _ => .pc) (fun _ => Nat) (fun _ => Unit)) :=
  [.script .left fun _ => .request plainRequest fun _ => .done () (), .deliver .right 3,
    .deliver .right 60, .deliver .left 60,
    .script .left fun _ => .request plainRequest fun _ => .done () ()]

theorem noReplyToReply_iff_of_answered :
    let b' := textNet.run textSides answeredInTurn
    (b'.NoBounce ∧
        (b'.conn .left).app.frames.length + (b'.conn .right).app.frames.length ≤
          2 * ((b'.conn .left).app.requests.length + (b'.conn .right).app.requests.length)) ∧
      (b'.conn .left).app.frames.length = 2 ∧ (b'.conn .right).app.frames.length = 1 := by
  have hwell : (textNet.run textSides answeredInTurn).Understood := by
    intro s
    cases s <;> decide +kernel
  intro b'
  exact ⟨(noReplyToReply_iff (a := textSides) (fun _ _ => rfl) fresh_textNet (fun _ => rfl)
    answeredInTurn hwell).mpr (by decide +kernel), by decide +kernel, by decide +kernel⟩

/-- Two requests are issued before the first is answered: the first answer is
stale, and the layer replies to it. -/
theorem not_noReplyToReply_two_requests :
    let twice : Unit → Script .pc Nat Unit Unit := fun _ =>
      .request plainRequest fun _ => .request plainRequest fun _ => .done () ()
    let b' := textNet.run textSides
      [.script .left twice, .deliver .right 60, .deliver .left 60]
    ¬ (b'.NoBounce ∧
      (b'.conn .left).app.frames.length + (b'.conn .right).app.frames.length ≤
        2 * ((b'.conn .left).app.requests.length + (b'.conn .right).app.requests.length)) := by
  intro twice b' h
  exact absurd h.2 (by decide +kernel)

end ZxProto
