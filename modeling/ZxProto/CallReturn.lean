import ZxProto.BufferInvariant
import ZxProto.RemoteCall

/-!
# Every call returns

Between a client that waits for every answer and a server whose handlers only compute, nothing is
stuck: wherever a run has come to, the call under way ends when the bytes in flight are delivered.
The buffers only have to be as large as every object.

* `exists_body_of_announced`, `SimulatesAt.room` — such a buffer has room for another byte;
* `SimulatesAt.due_eq_none` — when all bytes were taken, no callback is due;
* `exists_drained` — the bytes in flight to a side are taken one by one;
* `remoteCalls_quiet`, `remoteCalls_return` — the results.
-/

namespace ZxProto

open ByteMemory

/-! ## The sizes of objects -/

section Sizes

variable {pl : Platform} {frames : List (SentFrame pl)}

/-- The objects of encoded frames are all that the frames announce. -/
theorem mem_announcedSizes_frames {ws : List WireFrame} {n : Nat}
    (hn : n ∈ announcedSizes (ws.flatMap WireFrame.bytes)) :
    ∃ w ∈ ws, ∃ props ∈ w.objects, (bodyBytes props).length = n := by
  obtain ⟨s, offset, hs, hsteps⟩ := steps_frames StreamState.atHeader_init ws []
  rw [List.append_nil] at hsteps
  have hrun := hsteps.run_eq_of_waiting (step_header_eq_none hs (by simp))
  have hstate : s.state ≠ .recvObject := by
    rw [hs.state]
    decide
  rw [announcedSizes] at hn
  simp only [hrun, if_neg hstate, List.append_nil, List.mem_filterMap] at hn
  obtain ⟨event, hevent, hsize⟩ := hn
  cases event with
  | object offset' flags requestId body =>
      obtain ⟨w, hw, props, hprops, rfl⟩ := mem_framesEvents hevent
      exact ⟨w, hw, props, hprops, Option.some.inj hsize⟩
  | startRequest offset' flags size requestId => cases hsize
  | completeRequest offset' flags requestId => cases hsize

/-- So are those of frames that are understood. -/
theorem exists_body_of_announced {receiver : Build}
    (hframes : ∀ f ∈ frames, f.UnderstoodBy receiver) {n : Nat}
    (hn : n ∈ announcedSizes (frames.flatMap SentFrame.bytes)) :
    ∃ f ∈ frames, ∃ body ∈ f.bodies, body.length = n := by
  obtain ⟨ws, hbytes, hcallbacks, -⟩ := exists_wireFrames hframes
  rw [← hbytes] at hn
  obtain ⟨w, hw, props, hprops, rfl⟩ := mem_announcedSizes_frames hn
  -- the object is one that a callback is made for
  have hnext : Callback.next w.flags w.requestId props ∈ ws.flatMap WireFrame.callbacks := by
    refine List.mem_flatMap.mpr ⟨w, hw, List.mem_cons_of_mem _ (List.mem_append_left _ ?_)⟩
    exact List.mem_map_of_mem hprops
  rw [hcallbacks] at hnext
  obtain ⟨f, hf, hmem⟩ := List.mem_flatMap.mp hnext
  obtain ⟨⟨objects, -, -, hbodies, -⟩, -⟩ := hframes f hf
  simp only [SentFrame.callbacks, List.mem_cons, reduceCtorEq, false_or, List.mem_append,
    List.mem_map, List.not_mem_nil, or_false] at hmem
  obtain ⟨body, hbody, heq⟩ := hmem
  have hcontents : bodyContents body = props := by
    injection heq
  rw [hbodies] at hbody
  obtain ⟨props', -, rfl⟩ := List.mem_map.mp hbody
  rw [bodyContents_bodyBytes] at hcontents
  subst hcontents
  exact ⟨f, hf, _, by rw [hbodies]; exact hbody, rfl⟩

/-- A text is one object, which is short and has a property. -/
theorem Answer.Ok.body_text {text : CString} (hok : (Answer.text text : Answer pl).Ok) :
    ∀ props ∈ (Answer.text text : Answer pl).contents,
      (bodyBytes props).length ≤ 66 ∧ bodyBytes props ≠ [] := by
  obtain ⟨error, -, hvalue, hchain⟩ :=
    chainProperties_error hok.1 (hok.2.trans_lt (show 63 < 65536 by decide))
  have hle := hok.2
  intro props hprops
  rw [Answer.contents, hchain] at hprops
  have hlength : (bodyBytes props).length = text.bytes.length + 3 := by
    rw [List.mem_singleton.mp hprops, bodyBytes_cons, bodyBytes_nil, List.append_nil,
      Property.length_bytes, Property.size, hvalue, sizeofProtoObjectProperty]
  refine ⟨by omega, fun hnil => ?_⟩
  rw [hnil, List.length_nil] at hlength
  omega

/-- The objects of the answers are texts, or those that the handlers return. -/
theorem ServicesOk.sends {ω : Type} {services : List (Service pl ω)} (hok : ServicesOk services)
    {P : List UInt8 → Prop} (htexts : ∀ body, body.length ≤ 66 → body ≠ [] → P body)
    (hresponses : ∀ service ∈ services, ∀ objects user,
      ∀ response ∈ (service.2 objects user).1.responses, P (bodyBytes response.properties)) :
    ServicesSend services P := by
  intro object user
  have hanswer := hok.serveRequest_ok object user
  have htext : ∀ text, (Answer.text text : Answer pl).Ok →
      ∀ props ∈ (Answer.text text : Answer pl).contents, P (bodyBytes props) :=
    fun text htext props hprops =>
      htexts _ (htext.body_text props hprops).1 (htext.body_text props hprops).2
  rw [serveRequest] at hanswer ⊢
  split at hanswer
  · exact htext _ hanswer
  · split at hanswer
    · exact htext _ hanswer
    · next service hservice =>
        have hmem := List.mem_of_find?_eq_some hservice
        have hservice := hresponses service hmem [object] user
        dsimp only at hanswer ⊢
        generalize (service.2 [object] user).1 = result at hanswer hservice
        obtain ⟨error, responses⟩ := result
        cases error with
        | some text => exact htext text hanswer
        | none =>
            cases responses with
            | nil => exact fun props hprops => absurd hprops List.not_mem_nil
            | cons response responses =>
                intro props hprops
                obtain ⟨response', hresponse', rfl⟩ := List.mem_map.mp hprops
                exact hservice response' hresponse'

end Sizes

/-! ## The bytes in flight -/

section Flight

variable {pl : Side → Build} {κ τ : Side → Type} {b : ByteNet pl κ τ} {n : Net pl κ τ}
  {s : Side} {a : ∀ s, Application (pl s) (κ s) (τ s)}

/-- The buffers are large enough for every object. -/
def ByteNet.Roomy (b : ByteNet pl κ τ) (limit : Nat) : Prop :=
  ∀ s, 5 ≤ (b.conn s).proto.processBufferSize.toNat ∧
    limit ≤ (b.conn s).proto.processBufferSize.toNat

/-- A buffer that is as large as every object has room for another byte. -/
theorem SimulatesAt.room (hs : SimulatesAt b n s) (hwire : (b.conn s.other).app.WireShows)
    (hwell : ∀ f ∈ (b.conn s.other).app.frames, f.UnderstoodBy (pl s)) {limit : Nat}
    (hlimit : ∀ f ∈ (b.conn s.other).app.frames, ∀ body ∈ f.bodies, body.length ≤ limit)
    (hroomy : b.Roomy limit) : 0 < (b.conn s).afford.toNat := by
  obtain ⟨hfive, hlarge⟩ := hroomy s
  have hrun := hs.tracks.run
  have hwait := frameMachine.step_run_eq_none StreamState.init
    ((b.conn s.other).app.wire.take (b.taken s))
  rw [hrun] at hwait
  change frameStep (b.conn s).stream (b.conn s).unread = none at hwait
  have hunread : (b.conn s).unread.length = (b.conn s).proto.totalReceived.toNat :=
    length_slice _ _ _
  have hafford : (b.conn s).afford.toNat =
      (b.conn s).proto.processBufferSize.toNat - (b.conn s).proto.totalReceived.toNat :=
    UInt16.toNat_sub_of_le _ _ hs.tracks.fits
  rw [hafford, ← hunread]
  rcases length_lt_of_waiting hwait with hshort | ⟨hstate, hshort⟩
  · omega
  · -- the object that the parser waits for is one that was sent
    have hmem : (b.conn s).stream.recvObjectSize.toNat ∈
        announcedSizes ((b.conn s.other).app.wire.take (b.taken s)) := by
      simp only [announcedSizes, hrun, if_pos hstate]
      exact List.mem_append_right _ (List.mem_singleton_self _)
    have hall := mem_announcedSizes_append hmem ((b.conn s.other).app.wire.drop (b.taken s))
    rw [List.take_append_drop, hwire] at hall
    obtain ⟨f, hf, body, hbody, hsize⟩ := exists_body_of_announced hwell hall
    have hle := hlimit f hf body hbody
    omega

/-- A byte is taken. -/
theorem ByteNet.step_deliver_one (hroom : 0 < (b.conn s).afford.toNat)
    (hflight : b.taken s < (b.conn s.other).app.wire.length) :
    (b.step a (.deliver s 1)).taken s = b.taken s + 1 ∧
      (b.step a (.deliver s 1)).conn s.other = b.conn s.other := by
  have hlength : (b.inFlight s 1).length = 1 := by
    rw [ByteNet.inFlight, List.length_take, List.length_drop]
    omega
  have hne : b.inFlight s 1 ≠ [] := fun hnil => by
    rw [hnil] at hlength
    cases hlength
  have hstep : b.step a (.deliver s 1) =
      { conn := Function.update b.conn s
          (recvProcess (pl s) (reqHost (a s)) (b.conn s) (.received (b.inFlight s 1))).2
        taken := Function.update b.taken s (b.taken s + (b.inFlight s 1).length) } :=
    if_pos ⟨by omega, hne⟩
  rw [hstep, hlength]
  exact ⟨Function.update_self _ _ _, Function.update_of_ne s.other_ne _ _⟩

/-- The buffers stay where they are. -/
theorem ByteNet.step_bufferSize (act : ByteAct pl κ τ) (b : ByteNet pl κ τ) (s : Side) :
    ((b.step a act).conn s).proto.processBufferSize = (b.conn s).proto.processBufferSize := by
  have hupdate : ∀ (s' : Side) (c : Conn (Endpoint (pl s') (κ s') (τ s'))),
      c.proto.processBufferSize = (b.conn s').proto.processBufferSize →
        (Function.update b.conn s' c s).proto.processBufferSize =
          (b.conn s).proto.processBufferSize := by
    intro s' c hsize
    by_cases heq : s = s'
    · subst heq
      simpa using hsize
    · simp [heq]
  cases act with
  | script s' f => exact hupdate s' _ rfl
  | deliver s' count =>
      rw [ByteNet.step]
      split
      · exact hupdate s' _ (recvProcess_buffer _ _ _ _).2
      · rfl

theorem ByteNet.Roomy.step {limit : Nat} (h : b.Roomy limit) (act : ByteAct pl κ τ) :
    (b.step a act).Roomy limit := by
  intro s
  rw [ByteNet.step_bufferSize]
  exact h s

theorem ByteNet.Roomy.run {limit : Nat} (h : b.Roomy limit) (acts : List (ByteAct pl κ τ)) :
    (b.run a acts).Roomy limit := by
  induction acts generalizing b with
  | nil => exact h
  | cons act acts ih => exact ih (h.step act)

/-! ## What is due -/

/-- Somewhere in the frames, a callback is due. -/
theorem due_ne_none {pl : Platform} {frames : List (SentFrame pl)} {p : Position}
    {f : SentFrame pl} (hf : frames[p.completed]? = some f) : due frames p ≠ none := by
  rw [due, hf]
  dsimp only
  cases p.objects with
  | none => exact Option.some_ne_none _
  | some k =>
      dsimp only
      split <;> exact Option.some_ne_none _

/-- When all callbacks were made, none is due. -/
theorem due_eq_none_of_consumed {pl : Platform} {frames : List (SentFrame pl)} {p : Position}
    (hwithin : p.Within frames) (hall : consumed frames p = frames.flatMap SentFrame.callbacks) :
    due frames p = none := by
  have hlength : ∀ f : SentFrame pl, f.callbacks.length = f.bodies.length + 2 := fun f => by
    simp [SentFrame.callbacks]
  cases hf : frames[p.completed]? with
  | none => rw [due, hf]
  | some f =>
      -- the frame has a callback behind the position
      rw [flatMap_callbacks_split hf] at hall
      cases hobjects : p.objects with
      | none =>
          rw [consumed_of_none hobjects] at hall
          have hcount := congrArg List.length hall
          rw [List.length_append, List.length_append, hlength] at hcount
          omega
      | some k =>
          rw [Position.Within, hobjects] at hwithin
          obtain ⟨f', hf', hk⟩ := hwithin
          obtain rfl : f' = f := Option.some.inj (hf'.symm.trans hf)
          rw [consumed_of_some hobjects hf] at hall
          have hcount := congrArg List.length hall
          rw [List.length_append, List.length_append, List.length_append, List.length_take,
            hlength] at hcount
          omega

/-- When all bytes were taken, no callback is due. -/
theorem SimulatesAt.due_eq_none (hs : SimulatesAt b n s) (hother : SimulatesAt b n s.other)
    (hwell : ∀ f ∈ (b.conn s.other).app.frames, f.UnderstoodBy (pl s))
    (hall : b.taken s = (b.conn s.other).app.wire.length) : n.due s = none := by
  have htracks := hs.tracks
  obtain ⟨ws, hbytes, hcallbacks, hprops⟩ := exists_wireFrames hwell
  rw [hall, List.take_length, hother.wire, ← hbytes] at htracks
  have hmade := htracks.callbacks_frames hprops
  rw [hcallbacks, hs.callbacks] at hmade
  rw [Net.due, hother.endpoint]
  exact due_eq_none_of_consumed hs.within hmade

end Flight

/-! ## Calls return -/

section Return

variable {pl : Side → Build} {κC τC κS ω : Type} {caller : Caller κC τC}
  {services : List (Service (pl .right) ω)} {address : Nat} {P : List UInt8 → Prop} {limit : Nat}
  {other : Application (pl .right) (HandlerPointer κS) (ServerClientHandlers ω)}
  {b : CallByteNet pl κC τC κS ω} {l : LocalCall (pl .left) κC τC ω}

/-- A call is not under way at the server. -/
def CallPhase.Served {pl : Platform} {κ : Type} : CallPhase pl κ → Prop
  | .calling _ => False
  | _ => True

/-- No call is under way; a handler may have answered nothing. -/
def CallPhase.Returned {pl : Platform} {κ : Type} : CallPhase pl κ → Prop
  | .idle => True
  | .returning [] => True
  | _ => False

/-- When the server has taken all bytes, it has served the call. -/
theorem ByteEnacts.served (hseen : ∀ s, (pl s).decoder = .asm → ¬ P [])
    (h : ByteEnacts caller address P b l)
    (hall : b.taken .right = (b.conn .left).app.wire.length) : l.phase.Served := by
  obtain ⟨n, hsim, henacts⟩ := h
  have hdue := (hsim .right).due_eq_none (hsim .left)
    (fun f hf => (henacts.understood .left f
      (by rwa [(hsim .left).endpoint])).understoodBy (hseen .right)) hall
  have hphase := henacts.phase
  generalize l.phase = phase at hphase
  cases hphase with
  | calling hcalling =>
      obtain ⟨g, hg, -⟩ := hcalling.request
      exact due_ne_none hg hdue
  | idle => trivial
  | returning => trivial
  | unanswered => trivial

/-- When the client has taken all bytes too, the call has returned. -/
theorem ByteEnacts.returned (hseen : ∀ s, (pl s).decoder = .asm → ¬ P [])
    (h : ByteEnacts caller address P b l) (hserved : l.phase.Served)
    (hall : b.taken .left = (b.conn .right).app.wire.length) : l.phase.Returned := by
  obtain ⟨n, hsim, henacts⟩ := h
  have hdue := (hsim .left).due_eq_none (hsim .right)
    (fun f hf => (henacts.understood .right f
      (by rwa [(hsim .right).endpoint])).understoodBy (hseen .left)) hall
  have hphase := henacts.phase
  generalize l.phase = phase at hphase hserved
  cases hphase with
  | calling => exact hserved.elim
  | idle => trivial
  | returning hreturning =>
      obtain ⟨r, f, during, answer, -, -, -, hf, -⟩ := hreturning.answer
      exact absurd hdue (due_ne_none hf)
  | unanswered => trivial

variable (other) in
/-- The bytes in flight to a side are taken one by one. -/
theorem exists_drained (hok : ServicesOk services) (hsends : ServicesSend services P)
    (hseen : ∀ s, (pl s).decoder = .asm → ¬ P []) (hlimit : ∀ body, P body → body.length ≤ limit)
    (hother : other.Reliable) (h : ByteEnacts caller address P b l) (hroomy : b.Roomy limit)
    (s : Side) :
    ∃ number,
      let b' := b.run (callSides caller services address other)
        (List.replicate number (.deliver s 1))
      b'.taken s = (b'.conn s.other).app.wire.length := by
  generalize hflight : (b.conn s.other).app.wire.length - b.taken s = flight
  induction flight generalizing b l with
  | zero =>
      obtain ⟨n, hsim, -⟩ := h
      have hle := (hsim s).taken
      refine ⟨0, ?_⟩
      show b.taken s = (b.conn s.other).app.wire.length
      omega
  | succ flight ih =>
      obtain ⟨n, hsim, henacts⟩ := h
      have hframes : ∀ f ∈ (b.conn s.other).app.frames, f.Sends P :=
        fun f hf => henacts.understood s.other f (by rwa [(hsim s.other).endpoint])
      have hroom := (hsim s).room (hsim s.other).wire
        (fun f hf => (hframes f hf).understoodBy (hseen s))
        (fun f hf body hbody => hlimit body ((hframes f hf).bodies body hbody)) hroomy
      obtain ⟨htaken, hconn⟩ := b.step_deliver_one
        (a := callSides caller services address other) hroom (by omega)
      obtain ⟨steps, hnext, -⟩ := carriesOut_bytes caller services address other hok hsends hseen
        hother (.deliver s 1) ⟨trivial, trivial⟩ b l ⟨n, hsim, henacts⟩
      obtain ⟨number, hdone⟩ := ih hnext (hroomy.step _) (by rw [htaken, hconn]; omega)
      exact ⟨number + 1, hdone⟩

variable (caller services) in
/-- Without code of the client, no call begins. -/
theorem served_of_quiet {steps : List (LocalStep (pl .left) κC τC)}
    (hquiet : steps.flatMap LocalStep.script? = []) (hserved : l.phase.Served) :
    (Simulation.run (LocalCall.step caller services) steps l).phase.Served := by
  have hstep : ∀ step : LocalStep (pl .left) κC τC, step.script? = [] →
      ∀ l : LocalCall (pl .left) κC τC ω, l.phase.Served →
        (l.step caller services step).phase.Served := by
    intro step hscript l hserved
    cases step with
    | script f => cases hscript
    | serve =>
        rw [LocalCall.step]
        split
        · trivial
        · exact hserved
    | callback =>
        rw [LocalCall.step]
        split
        · next call calls _ =>
            show (if calls.isEmpty then _ else _ : CallPhase (pl .left) κC).Served
            split <;> trivial
        · exact hserved
  exact Simulation.Invariant.run hstep (List.flatMap_eq_nil_iff.mp hquiet) hserved

variable (other) in
/-- From wherever a run has come to, the call under way returns. -/
theorem exists_returned (hok : ServicesOk services) (hsends : ServicesSend services P)
    (hseen : ∀ s, (pl s).decoder = .asm → ¬ P []) (hlimit : ∀ body, P body → body.length ≤ limit)
    (hother : other.Reliable) (h : ByteEnacts caller address P b l) (hroomy : b.Roomy limit) :
    ∃ requests replies steps, steps.flatMap LocalStep.script? = [] ∧
      let l' := Simulation.run (LocalCall.step caller services) steps l
      ByteEnacts caller address P
        (b.run (callSides caller services address other)
          (List.replicate requests (.deliver .right 1) ++
            List.replicate replies (.deliver .left 1))) l' ∧ l'.phase.Returned := by
  have hcarries := carriesOut_bytes caller services address other hok hsends hseen hother
  have hallowed : ∀ (s : Side) (number : Nat),
      ∀ act ∈ List.replicate number (.deliver s 1 : CallAct pl κC τC κS ω),
        act.Calm caller ∧ act.Sends P := by
    intro s number act hact
    rw [List.eq_of_mem_replicate hact]
    exact ⟨trivial, trivial⟩
  have hscripts : ∀ (s : Side) (number : Nat),
      (List.replicate number (.deliver s 1 : CallAct pl κC τC κS ω)).flatMap ByteAct.script? = [] :=
    fun s number => List.flatMap_eq_nil_iff.mpr fun act hact => by
      rw [List.eq_of_mem_replicate hact]
      rfl
  -- the server takes what is in flight, then the client
  obtain ⟨requests, hrequests⟩ := exists_drained other hok hsends hseen hlimit hother h hroomy
    .right
  obtain ⟨steps, hserver, hquiet⟩ := hcarries.run (hallowed .right requests) h
  obtain ⟨replies, hreplies⟩ := exists_drained other hok hsends hseen hlimit hother hserver
    (hroomy.run _) .left
  obtain ⟨steps', hclient, hquiet'⟩ := hcarries.run (hallowed .left replies) hserver
  rw [hscripts] at hquiet hquiet'
  have hserved := served_of_quiet caller services hquiet' (hserver.served hseen hrequests)
  refine ⟨requests, replies, steps ++ steps', ?_, ?_, ?_⟩
  · rw [List.flatMap_append, hquiet, hquiet']
    rfl
  · rw [Simulation.run_append, ByteNet.run, List.foldl_append]
    exact hclient
  · rw [Simulation.run_append]
    exact hclient.returned hseen hserved hreplies

/-- **No call is lost.**  Under the conditions of `remoteCalls_local`: whenever neither side has
bytes left to take, in whatever order and pieces they came and however large the buffers are, no
call is under way any more, unless its handler answered nothing. -/
theorem remoteCalls_quiet (hok : ServicesOk services) (hsends : ServicesSend services P)
    (hseen : ∀ s, (pl s).decoder = .asm → ¬ P []) (hother : other.Reliable)
    (hfresh : b.Fresh) {incomingRequest incomingObject incomingComplete : Option κC} {user : Nat}
    {app : τC}
    (hleft : (b.conn .left).app =
      Endpoint.start (pl .left) incomingRequest incomingObject incomingComplete user app)
    {h : ServerClientHandlers ω}
    (hright : (b.conn .right).app = Endpoint.server (pl .right) address h)
    (acts : List (CallAct pl κC τC κS ω)) (hacts : ∀ act ∈ acts, act.Calm caller ∧ act.Sends P) :
    let b' := b.run (callSides caller services address other) acts
    (∀ s, b'.taken s = (b'.conn s.other).app.wire.length) →
      ∃ steps, steps.flatMap LocalStep.script? = acts.flatMap ByteAct.script? ∧
        let l := Simulation.run (LocalCall.step caller services) steps ⟨app, h.clientUser, .idle⟩
        (b'.conn .left).app.app = l.app ∧ (b'.conn .right).app.app.clientUser = l.user ∧
          l.phase.Returned := by
  intro b' hall
  obtain ⟨steps, henacts, hscripts⟩ :=
    exists_local hok hsends hseen hother hfresh hleft hright hacts
  exact ⟨steps, hscripts, henacts.app, henacts.user,
    henacts.returned hseen (henacts.served hseen (hall .right)) (hall .left)⟩

/-- **Every call returns.**  Under the conditions of `remoteCalls_local`, with buffers of at least 5
bytes that are as large as every object: wherever a run has come to, once the server has taken the
bytes in flight, and then the client, no call is under way any more, unless its handler answered
nothing; until then, the client's code is that of the run. -/
theorem remoteCalls_return (hok : ServicesOk services) (hsends : ServicesSend services P)
    (hseen : ∀ s, (pl s).decoder = .asm → ¬ P []) (hlimit : ∀ body, P body → body.length ≤ limit)
    (hother : other.Reliable) (hfresh : b.Fresh) (hroomy : b.Roomy limit)
    {incomingRequest incomingObject incomingComplete : Option κC} {user : Nat} {app : τC}
    (hleft : (b.conn .left).app =
      Endpoint.start (pl .left) incomingRequest incomingObject incomingComplete user app)
    {h : ServerClientHandlers ω}
    (hright : (b.conn .right).app = Endpoint.server (pl .right) address h)
    (acts : List (CallAct pl κC τC κS ω)) (hacts : ∀ act ∈ acts, act.Calm caller ∧ act.Sends P) :
    ∃ requests replies steps, steps.flatMap LocalStep.script? = acts.flatMap ByteAct.script? ∧
      let b' := (b.run (callSides caller services address other) acts).run
        (callSides caller services address other) (List.replicate requests (.deliver .right 1) ++
          List.replicate replies (.deliver .left 1))
      let l := Simulation.run (LocalCall.step caller services) steps ⟨app, h.clientUser, .idle⟩
      (b'.conn .left).app.app = l.app ∧ (b'.conn .right).app.app.clientUser = l.user ∧
        l.phase.Returned := by
  obtain ⟨steps, henacts, hscripts⟩ :=
    exists_local hok hsends hseen hother hfresh hleft hright hacts
  obtain ⟨requests, replies, steps', hquiet, hreached, hreturned⟩ :=
    exists_returned other hok hsends hseen hlimit hother henacts (hroomy.run _)
  refine ⟨requests, replies, steps ++ steps', ?_, ?_⟩
  · rw [List.flatMap_append, hquiet, hscripts, List.append_nil]
  · rw [Simulation.run_append]
    exact ⟨hreached.app, hreached.user, hreturned⟩

end Return

/-- The request is sent and taken, and so is the answer. -/
def answeredActs : List (CallAct (fun _ => .pc) Nat Bool Empty Nat) :=
  [.script .left ask, .deliver .right 7, .deliver .right 255, .deliver .left 255]

theorem remoteCalls_quiet_of_answered :
    let b' := askingNet.run (callSides asker countingServices 8192 (.quiet _ _ _)) answeredActs
    ∃ steps, steps.flatMap LocalStep.script? = [ask] ∧
      let l := Simulation.run (LocalCall.step asker countingServices) steps ⟨false, 0, .idle⟩
      (b'.conn .left).app.app = l.app ∧ (b'.conn .right).app.app.clientUser = l.user ∧
        l.phase.Returned := by
  have hcalm : ∀ act ∈ answeredActs, act.Calm asker := by
    simp only [answeredActs, List.forall_mem_cons, List.not_mem_nil, false_imp_iff, implies_true]
    exact ⟨calm_ask, trivial, trivial, trivial, trivial⟩
  refine remoteCalls_quiet (P := fun _ => True) servicesOk_countingServices
    (fun _ _ _ _ => trivial) (fun _ hasm => by cases hasm) (fun _ => rfl) fresh_askingNet rfl rfl
    answeredActs (fun act hact => ⟨hcalm act hact, act.sends_anything⟩) fun s => ?_
  cases s <;> decide +kernel

/-- The request is sent, and some of it has arrived. -/
def pendingActs : List (CallAct (fun _ => .pc) Nat Bool Empty Nat) :=
  [.script .left ask, .deliver .right 7]

theorem remoteCalls_return_of_pending :
    ∃ requests replies steps, steps.flatMap LocalStep.script? = [ask] ∧
      let sides := callSides asker countingServices 8192 (.quiet _ _ _)
      let b' := (askingNet.run sides pendingActs).run sides
        (List.replicate requests (.deliver .right 1) ++ List.replicate replies (.deliver .left 1))
      let l := Simulation.run (LocalCall.step asker countingServices) steps ⟨false, 0, .idle⟩
      (b'.conn .left).app.app = l.app ∧ (b'.conn .right).app.app.clientUser = l.user ∧
        l.phase.Returned := by
  have hroomy : askingNet.Roomy 66 := by
    intro s
    cases s <;> decide
  have hsends : ServicesSend countingServices fun body => body.length ≤ 66 := by
    refine servicesOk_countingServices.sends (fun _ hle _ => hle) ?_
    intro service hmem objects user response hresponse
    rw [List.mem_singleton.mp hmem] at hresponse
    exact absurd hresponse List.not_mem_nil
  have hacts : ∀ act ∈ pendingActs, act.Calm asker ∧ act.Sends fun body => body.length ≤ 66 := by
    simp only [pendingActs, List.forall_mem_cons, List.not_mem_nil, false_imp_iff, implies_true]
    refine ⟨⟨calm_ask, fun app => ?_⟩, ⟨trivial, trivial⟩, trivial⟩
    cases app with
    | false => exact show (bodyBytes _).length ≤ 66 by decide
    | true => trivial
  exact remoteCalls_return servicesOk_countingServices hsends (fun _ hasm => by cases hasm)
    (fun _ hle => hle) (fun _ => rfl) fresh_askingNet hroomy rfl rfl pendingActs hacts

end ZxProto
