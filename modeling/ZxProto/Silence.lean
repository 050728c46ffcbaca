import ZxProto.StaleReplies

/-!
# A silent connection

Between a client and a server with its handlers attached, the first error reply to a response has an
id that does not come again.  So once there was one, the connection is not silent any more; and
where all bytes were taken, there was none.

* `ByteNet.exists_first` — the first act behind which a property holds;
* `ByteNet.circulating_of_bounce` — the first error reply is on its way when it is sent;
* `Net.Correlates.bounced`, `ByteNet.outdated_of_lt` — its id is outdated from there;
* `noBounce_of_quiet` — the result.
-/

namespace ZxProto

open ByteMemory

/-! ## The first error reply -/

section Connections

variable {pl : Side → Build} {κ τ : Side → Type} {a : ∀ s, Application (pl s) (κ s) (τ s)}
  {id : UInt16}

/-- Some act is the first one behind which a property holds. -/
theorem ByteNet.exists_first (P : ByteNet pl κ τ → Prop) (acts : List (ByteAct pl κ τ))
    {b : ByteNet pl κ τ} (hnot : ¬ P b) (hholds : P (b.run a acts)) :
    ∃ first act rest, acts = first ++ act :: rest ∧ ¬ P (b.run a first) ∧
      P ((b.run a first).step a act) := by
  induction acts generalizing b with
  | nil => exact absurd hholds hnot
  | cons act acts ih =>
      by_cases hstep : P (b.step a act)
      · exact ⟨[], act, acts, rfl, hnot, hstep⟩
      · obtain ⟨first, act', rest, rfl, hbefore, hbehind⟩ := ih hstep hholds
        exact ⟨act :: first, act', rest, rfl, hbefore, hbehind⟩

theorem ByteNet.bounces_pos_iff {b : ByteNet pl κ τ} :
    0 < b.bounces id ↔
      ∃ s, ∃ f ∈ (b.conn s).app.frames, f.origin = .bounce ∧ f.requestId = id := by
  have hside : ∀ s, 0 < bounceCount id (b.conn s).app.frames ↔
      ∃ f ∈ (b.conn s).app.frames, f.origin = .bounce ∧ f.requestId = id := by
    intro s
    simp only [bounceCount, List.countP_pos_iff, Bool.and_eq_true_iff, Origin.isBounce_iff,
      beq_iff_eq]
  rw [ByteNet.bounces, Nat.add_pos_iff_pos_or_pos, hside, hside]
  constructor
  · rintro (h | h)
    · exact ⟨.left, h⟩
    · exact ⟨.right, h⟩
  · rintro ⟨s, h⟩
    cases s with
    | left => exact Or.inl h
    | right => exact Or.inr h

/-- Only one side acts. -/
theorem ByteNet.exists_acting (act : ByteAct pl κ τ) (b : ByteNet pl κ τ) :
    ∃ s : Side, (b.step a act).conn s.other = b.conn s.other := by
  cases act with
  | script s f => exact ⟨s, Function.update_of_ne s.other_ne _ _⟩
  | deliver s count =>
      refine ⟨s, ?_⟩
      rw [ByteNet.step]
      split
      · exact Function.update_of_ne s.other_ne _ _
      · rfl

/-- The first error reply to a response with the id is on its way. -/
theorem ByteNet.circulating_of_bounce (act : ByteAct pl κ τ) {b : ByteNet pl κ τ}
    (hbalanced : b.Balanced id) (hnone : b.bounces id = 0)
    (hbounce : 0 < (b.step a act).bounces id)
    (hresponses : ∀ s, ∀ f ∈ ((b.step a act).conn s).app.frames, f.origin = .bounce →
      IsResponse f.flags) : 0 < (b.step a act).circulating id := by
  have hgrown : ∀ s, ∃ new,
      responseCount id ((b.step a act).conn s).app.frames =
        responseCount id (b.conn s).app.frames + new ∧
      bounceCount id ((b.step a act).conn s).app.frames ≤
        bounceCount id (b.conn s).app.frames + new := by
    intro s
    obtain ⟨new, hnew⟩ := b.prefix_frames (a := a) [act] s
    have hframes : ((b.step a act).conn s).app.frames = (b.conn s).app.frames ++ new := hnew.symm
    refine ⟨responseCount id new, ?_, ?_⟩
    · rw [hframes, responseCount_append]
    · rw [hframes, bounceCount_append]
      refine Nat.add_le_add_left (List.countP_mono_left fun f hf hbounced => ?_) _
      obtain ⟨horigin, hid⟩ := Bool.and_eq_true_iff.mp hbounced
      have hmem : f ∈ ((b.step a act).conn s).app.frames := by
        rw [hframes]
        exact List.mem_append_right _ hf
      exact Bool.and_eq_true_iff.mpr
        ⟨decide_eq_true (hresponses s f hmem (Origin.isBounce_iff.mp horigin)), hid⟩
  obtain ⟨s, hsame⟩ := b.exists_acting (a := a) act
  obtain ⟨new, hresponse, hbounces⟩ := hgrown .left
  obtain ⟨new', hresponse', hbounces'⟩ := hgrown .right
  have hleft := hbalanced .left
  have hright := hbalanced .right
  -- the other side has not completed anything since
  cases s with
  | left =>
      simp only [ByteNet.circulating, ByteNet.awaited, ByteNet.bounces, Side.other] at *
      rw [hsame] at hbounce ⊢
      omega
  | right =>
      simp only [ByteNet.circulating, ByteNet.awaited, ByteNet.bounces, Side.other] at *
      rw [hsame] at hbounce ⊢
      omega

variable {incomingRequest incomingObject incomingComplete : Option (κ .left)}
  {serverRequest serverObject serverComplete : Option (κ .right)}

/-- An error reply to a response has the id of a request that is not the latest. -/
theorem Net.Correlates.bounced {n : Net pl κ τ}
    (h : n.Correlates incomingRequest incomingObject incomingComplete serverRequest serverObject
      serverComplete) (s : Side) {f : SentFrame (pl s)} (hf : f ∈ (n.endpoint s).frames)
    (horigin : f.origin = .bounce) :
    IsResponse f.flags ∧ ∃ number, 1 ≤ number ∧ number < (n.endpoint .left).requests.length ∧
      f.requestId = UInt16.ofNat number := by
  cases s with
  | left =>
      rcases h.own.made f hf with ⟨number, r, -, hrequest, -⟩ | ⟨number, during, rfl, hpos, hlt⟩
      · rw [horigin] at hrequest
        cases hrequest
      · exact ⟨isResponse_error_response, number, hpos, hlt, rfl⟩
  | right =>
      rcases h.client.fromServer f hf with
        ⟨number, answer, -, -, hframe, -⟩ | ⟨number, during, rfl, hpos, hlt⟩
      · rw [(Answer.frame?_eq_some hframe).1] at horigin
        cases horigin
      · exact ⟨isResponse_error_response, number, hpos, hlt, rfl⟩

/-- A client that issues fewer requests than there are ids does not come to an earlier one again,
and neither does a server that issues none. -/
theorem ByteNet.outdated_of_lt (acts : List (ByteAct pl κ τ)) {b : ByteNet pl κ τ} {number : Nat}
    (hpos : 1 ≤ number) (hlt : number < (b.conn .left).app.requests.length)
    (hle : ((b.run a acts).conn .left).app.requests.length ≤ 65535)
    (hidle : ((b.run a acts).conn .right).app.requests = []) :
    b.Outdated (b.run a acts) (UInt16.ofNat number) := by
  intro s m hm hm' heq
  have hgrown := (b.prefix_requests (a := a) acts .left).length_le
  cases s with
  | left =>
      have := u16OfNat_inj (hm'.trans hle) (by omega) heq
      omega
  | right =>
      rw [hidle] at hm'
      have := u16OfNat_inj (hm'.trans (Nat.zero_le _)) (by omega) heq
      rw [List.length_nil] at hm'
      omega

/-- Both ids count the requests. -/
theorem Net.Correlates.numbered {n : Net pl κ τ}
    (h : n.Correlates incomingRequest incomingObject incomingComplete serverRequest serverObject
      serverComplete) (s : Side) : (n.endpoint s).Numbered := by
  cases s with
  | left => exact h.client.installed.currentRequestId
  | right => exact h.server.installed.currentRequestId

section Silence

variable (ha : ∀ s, (a s).Reliable)
  (hok : ∀ k answer, serverComplete = some k → (a .right).Answers k answer → answer.Ok)
  {b : ByteNet pl κ τ} (hfresh : b.Fresh)
  (hinit : (Net.init fun s => (b.conn s).app).Correlates incomingRequest incomingObject
    incomingComplete serverRequest serverObject serverComplete)
  {acts : List (ByteAct pl κ τ)}
  (hle : ((b.run a acts).conn .left).app.requests.length ≤ 65535)
  (hidle : ((b.run a acts).conn .right).app.requests = [])
  (hcount : ∀ r ∈ ((b.run a acts).conn .left).app.requests, r.object.properties.length ≤ 14)
  (hfilled : (b.run a acts).Filled)
include ha hok hfresh hinit hle hidle hcount hfilled

/-- Both sides understand what was sent. -/
theorem ByteNet.Fresh.understood : (b.run a acts).Understood := by
  obtain ⟨n, hendpoint, hn⟩ :=
    exists_net_correlates ha hok hfresh hinit acts hle hidle hcount hfilled
  intro s f hf
  refine ⟨hn.wellFormed ?_ s.other f ?_, fun hasm => hfilled s hasm f hf⟩
  · rwa [hendpoint]
  · rwa [hendpoint]

/-- If an error reply to a response was sent, a response with its id was on its way in some state,
and the id was outdated from there. -/
theorem ByteNet.Fresh.exists_circulating {s : Side} {f : SentFrame (pl s)}
    (hf : f ∈ ((b.run a acts).conn s).app.frames) (horigin : f.origin = .bounce) :
    ∃ first rest, acts = first ++ rest ∧ 0 < (b.run a first).circulating f.requestId ∧
      (b.run a first).Outdated ((b.run a first).run a rest) f.requestId := by
  have hwell := ByteNet.Fresh.understood ha hok hfresh hinit hle hidle hcount hfilled
  have hnone : ¬ 0 < b.bounces f.requestId := by
    rw [ByteNet.bounces_pos_iff]
    rintro ⟨s', g, hg, -⟩
    rw [hfresh.frames s'] at hg
    exact List.not_mem_nil hg
  -- the first error reply with this id
  obtain ⟨first, act, rest, rfl, hbefore, hbehind⟩ :=
    ByteNet.exists_first (fun b => 0 < b.bounces f.requestId) acts hnone
      (ByteNet.bounces_pos_iff.mpr ⟨s, f, hf, horigin, rfl⟩)
  have hstep : b.run a (first ++ [act]) = (b.run a first).step a act := List.foldl_append
  have hrun : b.run a (first ++ act :: rest) = ((b.run a first).step a act).run a rest :=
    List.foldl_append
  rw [hrun] at hle hidle hcount hfilled hwell
  have hgrown := ((b.run a first).step a act).prefix_requests (a := a) rest
  have hcorrelates := exists_net_correlates ha hok hfresh hinit (first ++ [act])
  rw [hstep] at hcorrelates
  obtain ⟨n, hendpoint, hn⟩ := hcorrelates ((hgrown .left).length_le.trans hle)
    (List.prefix_nil.mp (hidle ▸ hgrown .right))
    (fun r hr => hcount r ((hgrown .left).subset hr)) hfilled.of_run
  have hbounced := hn.bounced
  simp only [hendpoint] at hbounced
  have hbalanced : (b.run a first).Balanced f.requestId := by
    obtain ⟨hwell₁, ⟨n₁, hsim₁⟩, -⟩ := hfresh.exists_simulates_both ha first (act :: rest) hwell
    exact hsim₁.balanced hwell₁
  refine ⟨first ++ [act], rest, (List.append_assoc first [act] rest).symm, ?_, ?_⟩
  · rw [hstep]
    exact ByteNet.circulating_of_bounce act hbalanced (Nat.eq_zero_of_not_pos hbefore) hbehind
      fun s' g hg hbounce => (hbounced s' hg hbounce).1
  · obtain ⟨s', g, hg, hbounce, hid⟩ := ByteNet.bounces_pos_iff.mp hbehind
    obtain ⟨-, number, hpos, hlt, hnumber⟩ := hbounced s' hg hbounce
    rw [hstep, ← hid, hnumber]
    exact ByteNet.outdated_of_lt rest hpos hlt hle hidle

/-- So bytes are on their way ever after. -/
theorem ByteNet.Fresh.noBounce_of_taken
    (hall : ∀ s, (b.run a acts).taken s = ((b.run a acts).conn s.other).app.wire.length)
    (s : Side) : ((b.run a acts).conn s).app.NoBounce := by
  intro f hf horigin
  have hwell := ByteNet.Fresh.understood ha hok hfresh hinit hle hidle hcount hfilled
  obtain ⟨first, rest, rfl, hcirculating, houtdated⟩ :=
    ByteNet.Fresh.exists_circulating ha hok hfresh hinit hle hidle hcount hfilled hf horigin
  have hrun : b.run a (first ++ rest) = (b.run a first).run a rest := List.foldl_append
  rw [hrun] at hwell hall
  obtain ⟨s', hflight⟩ := hfresh.inFlight_of_circulating ha hinit.numbered first rest hwell
    houtdated hcirculating
  exact hflight.ne (hall s')

end Silence

end Connections

/-! ## The client and the server -/

/-- **Silence means that no reply was replied to.**  A client with any application and a server with
its handlers attached are connected over reliable sockets, and the bytes come in any pieces.  The
client issues at most 65535 requests, at any moment, with objects of at most 14 properties each; the
server issues none, and its handlers give answers that are understood; no object without properties
is sent to the routine of the Spectrum.  If all bytes that were sent are taken in some state, no
error reply to a response was sent before: where one was, the connection is never silent again. -/
theorem noBounce_of_quiet {pl : Side → Build} {κC τC κS ω : Type}
    (client : Application (pl .left) κC τC) (hclient : client.Reliable)
    (handlers : List (RequestHandler (pl .right) (HandlerPointer κS) ω)) (address : Nat)
    (other : Application (pl .right) (HandlerPointer κS) (ServerClientHandlers ω))
    (hother : other.Reliable)
    (hhandlers : HandlersOk handlers (handlerApplication handlers address other))
    {b : ByteNet pl (onSides κC (HandlerPointer κS)) (onSides τC (ServerClientHandlers ω))}
    (hfresh : b.Fresh) {incomingRequest incomingObject incomingComplete : Option κC} {user : Nat}
    {app : τC}
    (hleft : (b.conn .left).app =
      Endpoint.start (pl .left) incomingRequest incomingObject incomingComplete user app)
    {h : ServerClientHandlers ω}
    (hright : (b.conn .right).app = Endpoint.server (pl .right) address h)
    (acts : List (ByteAct pl (onSides κC (HandlerPointer κS))
      (onSides τC (ServerClientHandlers ω)))) :
    let b' := b.run (bothSides client (handlerApplication handlers address other)) acts
    (b'.conn .left).app.requests.length ≤ 65535 → (b'.conn .right).app.requests = [] →
      (∀ r ∈ (b'.conn .left).app.requests, r.object.properties.length ≤ 14) →
        b'.Filled → (∀ s, b'.taken s = (b'.conn s.other).app.wire.length) →
          ∀ s, (b'.conn s).app.NoBounce := by
  intro b' hle hidle hcount hfilled hall
  have hserver : (handlerApplication handlers address other).Reliable := hother
  exact ByteNet.Fresh.noBounce_of_taken (bothSides_reliable hclient hserver)
    (fun k answer hk hanswer => by
      cases hk
      exact hhandlers.answers_ok hanswer)
    hfresh (Net.correlates_init hleft hright) hle hidle hcount hfilled hall

/-- The ID `a`. -/
def waitingChain : List ProtoStackObjectProperty :=
  [declareStrProperty ProtoObjectPropertyKey.id.code (handlerOfA ⟨none, []⟩).name]

theorem length_waitingChain_le : (chainProperties waitingChain).length ≤ 255 := by
  decide

theorem length_bodyBytes_waitingChain_le :
    (bodyBytes (chainProperties waitingChain)).length ≤ 65533 := by
  decide

/-- One request with this ID. -/
def waitingRequest : Unit → Script .pc Nat Unit Unit := fun _ =>
  .request ⟨.allocate .pc (fun _ => 0) 512 waitingChain length_waitingChain_le
    length_bodyBytes_waitingChain_le, some 1, some 2, some 3⟩ fun _ => .done () ()

/-- The answer is taken before the second request. -/
def waitingActs : List (ByteAct (fun _ => .pc) (onSides Nat (HandlerPointer Empty))
    (onSides Unit (ServerClientHandlers Unit))) :=
  [.script .left waitingRequest, .deliver .right 30, .deliver .left 9, .deliver .left 60,
    .script .left waitingRequest, .deliver .right 30, .deliver .left 60]

theorem noBounce_of_quiet_of_waiting :
    let b' := exampleNet.run exampleSides waitingActs
    (b'.conn .left).app.NoBounce ∧ (b'.conn .right).app.NoBounce ∧
      (b'.conn .left).app.requests.length = 2 := by
  have hok : HandlersOk [handlerOfA ⟨some emptyRequest, []⟩] exampleServer := by
    intro handler hmem h e
    rw [List.mem_singleton.mp hmem]
    exact ⟨by decide, by decide⟩
  intro b'
  have hlength : (b'.conn .left).app.requests.length = 2 := by decide +kernel
  have hidle : (b'.conn .right).app.requests = [] := List.isEmpty_iff.mp (by decide +kernel)
  have hcount : ∀ r ∈ (b'.conn .left).app.requests, r.object.properties.length ≤ 14 := by
    decide +kernel
  have hquiet : ∀ s, b'.taken s = (b'.conn s.other).app.wire.length := by
    intro s
    cases s <;> decide +kernel
  have hnone := @noBounce_of_quiet (fun _ => .pc) Nat Unit Empty Unit (.quiet _ Nat Unit)
    (fun _ => rfl) [handlerOfA ⟨some emptyRequest, []⟩] 4096 (.quiet _ _ _) (fun _ => rfl) hok
    exampleNet fresh_exampleNet none none none 0 () rfl (serverHandlersInit ()) rfl waitingActs
    (hlength.trans_le (by decide)) hidle hcount (ByteNet.filled_of_c (fun _ => rfl) _) hquiet
  exact ⟨hnone .left, hnone .right, hlength⟩

end ZxProto
