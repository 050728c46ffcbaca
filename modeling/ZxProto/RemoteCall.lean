import ZxProto.CallPhases

/-!
# Calls over a network

A client that waits for every answer, and a server whose handlers only compute, connected by
reliable sockets: their runs are runs of `LocalCall`, where there are no frames, no ids and no
flags, whatever the pieces are in which the bytes arrive.

* `Enacts` — the local program has come to where the network of frames is;
* `carriesOut_local`, `carriesOut_bytes` — acts of the network, and of the connections, are steps
  of the local program;
* `remoteCalls_local` — the result for runs.
-/

namespace ZxProto

/-! ## The network of frames -/

section Network

variable {pl : Side → Build} {κC τC κS ω : Type} {caller : Caller κC τC}
  {services : List (Service (pl .right) ω)} {address : Nat} {P : List UInt8 → Prop}
  {other : Application (pl .right) (HandlerPointer κS) (ServerClientHandlers ω)}

/-- The frame is well-formed, and its objects have the property. -/
structure SentFrame.Sends (P : List UInt8 → Prop) {pl : Platform} (f : SentFrame pl) : Prop where
  wellFormed : f.WellFormed
  bodies : ∀ body ∈ f.bodies, P body

/-- The receiver sees it as it was meant. -/
theorem SentFrame.Sends.understoodBy {pl : Platform} {f : SentFrame pl} (hf : f.Sends P)
    {receiver : Build} (hseen : receiver.decoder = .asm → ¬ P []) : f.UnderstoodBy receiver :=
  ⟨hf.wellFormed, fun hasm hempty => hseen hasm (hf.bodies [] hempty)⟩

/-- The network of frames, with a caller on the left and a server on the right. -/
abbrev CallNet (pl : Side → Build) (κC τC κS ω : Type) :=
  Net pl (onSides κC (HandlerPointer κS)) (onSides τC (ServerClientHandlers ω))

/-- The local program has come to where the network is; all objects sent have the property. -/
structure Enacts (caller : Caller κC τC) (address : Nat) (P : List UInt8 → Prop)
    (n : CallNet pl κC τC κS ω) (l : LocalCall (pl .left) κC τC ω) : Prop where
  app : (n.endpoint .left).app = l.app
  user : (n.endpoint .right).app.clientUser = l.user
  waiting : l.phase = .idle ∨ caller.waiting l.app
  attached : Attached address (n.endpoint .right)
  understood : ∀ s, ∀ f ∈ (n.endpoint s).frames, f.Sends P
  phase : InPhase (n.endpoint .left) (n.endpoint .right) (n.position .left) (n.position .right)
    l.phase

variable (caller services address other) in
/-- The applications of the two sides. -/
abbrev callSides : ∀ s, Application (pl s) (onSides κC (HandlerPointer κS) s)
    (onSides τC (ServerClientHandlers ω) s) :=
  bothSides (caller.application (pl .left)) (serviceApplication services address other)

/-- The client comes to a new state and a new position. -/
theorem Enacts.left {n : CallNet pl κC τC κS ω} {l l' : LocalCall (pl .left) κC τC ω}
    (h : Enacts caller address P n l) {c : Endpoint (pl .left) κC τC} {p : Position}
    (happ : c.app = l'.app) (huser : l'.user = l.user)
    (hwaiting : l'.phase = .idle ∨ caller.waiting l'.app)
    (hunderstood : ∀ f ∈ c.frames, f.Sends P)
    (hphase : InPhase c (n.endpoint .right) p (n.position .right) l'.phase) :
    Enacts caller address P (⟨Function.update n.endpoint .left c,
      Function.update n.position .left p⟩ : CallNet pl κC τC κS ω) l' := by
  constructor
  · simpa using happ
  · simpa [huser] using h.user
  · exact hwaiting
  · simpa using h.attached
  · intro s
    cases s with
    | left => simpa using hunderstood
    | right => simpa using h.understood .right
  · simpa using hphase

/-- The server does. -/
theorem Enacts.right {n : CallNet pl κC τC κS ω} {l l' : LocalCall (pl .left) κC τC ω}
    (h : Enacts caller address P n l)
    {e : Endpoint (pl .right) (HandlerPointer κS) (ServerClientHandlers ω)} {q : Position}
    (happ : l'.app = l.app) (huser : e.app.clientUser = l'.user)
    (hwaiting : l'.phase = .idle ∨ caller.waiting l'.app) (hattached : Attached address e)
    (hunderstood : ∀ f ∈ e.frames, f.Sends P)
    (hphase : InPhase (n.endpoint .left) e (n.position .left) q l'.phase) :
    Enacts caller address P (⟨Function.update n.endpoint .right e,
      Function.update n.position .right q⟩ : CallNet pl κC τC κS ω) l' := by
  constructor
  · simpa [happ] using h.app
  · simpa using huser
  · exact hwaiting
  · simpa using hattached
  · intro s
    cases s with
    | left => simpa using h.understood .left
    | right => simpa using hunderstood
  · simpa using hphase

/-- The code that an act runs at the client. -/
def NetAct.script? :
    NetAct pl (onSides κC (HandlerPointer κS)) (onSides τC (ServerClientHandlers ω)) →
      List (τC → Script (pl .left) κC τC Unit)
  | .script .left f => [f]
  | .script .right _ => []
  | .deliver _ => []

/-- The client keeps to the rules of the caller, and the server runs no code of its own. -/
def NetAct.Calm (caller : Caller κC τC) :
    NetAct pl (onSides κC (HandlerPointer κS)) (onSides τC (ServerClientHandlers ω)) → Prop
  | .script .left f => ∀ app, caller.Calm app (f app)
  | .script .right _ => False
  | .deliver _ => True

/-- The objects that code requests have the property. -/
def Script.Sends (P : List UInt8 → Prop) {pl : Platform} {κ τ : Type} :
    Script pl κ τ Unit → Prop
  | .done _ _ => True
  | .request r _ => P (bodyBytes r.object.properties)

/-- The objects of all answers do. -/
def ServicesSend {pl : Platform} (services : List (Service pl ω)) (P : List UInt8 → Prop) : Prop :=
  ∀ object user, ∀ props ∈ (serveRequest services object user).1.contents, P (bodyBytes props)

/-- The client's code runs. -/
theorem Enacts.script {n : CallNet pl κC τC κS ω} {l : LocalCall (pl .left) κC τC ω}
    (h : Enacts caller address P n l) {f : τC → Script (pl .left) κC τC Unit}
    (hcalm : caller.Calm l.app (f l.app)) (hsends : (f l.app).Sends P) :
    Enacts caller address P (n.step (callSides caller services address other) (.script .left f))
      (l.step caller services (.script f)) := by
  have hstep : (n.endpoint .left).step (caller.application (pl .left)) (.script f) =
      ((f l.app).run (caller.application (pl .left)) (n.endpoint .left)).2 := by
    rw [Endpoint.step, h.app]
  have hnet : n.step (callSides caller services address other) (.script .left f) =
      ⟨Function.update n.endpoint .left
        ((f l.app).run (caller.application (pl .left)) (n.endpoint .left)).2,
        Function.update n.position .left (n.position .left)⟩ := by
    rw [Function.update_eq_self, ← hstep]
    rfl
  have hlocal : l.step caller services (.script f) = l.script (f l.app) := rfl
  rw [hnet, hlocal]
  generalize f l.app = script at hcalm hsends
  cases hcalm with
  | @stay app hwaiting =>
      exact h.left rfl rfl (h.waiting.imp_right hwaiting) (h.understood .left) (h.phase.app app)
  | @call app r next hr hidle hnext hwaiting =>
      have hphase := h.phase
      rw [h.waiting.resolve_right hidle] at hphase
      obtain ⟨hrest⟩ := hphase
      obtain ⟨happ, hcalling, g, hframes, hbodies⟩ := hrest.run_request caller hr hnext
      have hscript : l.script (.request r next) = { l with app := app, phase := .calling r } := by
        rw [LocalCall.script, hnext]
      have hunderstood : g.WellFormed := by
        refine ⟨[r.object.properties], List.cons_ne_nil _ _, ?_, hbodies, ?_⟩
        · have hsize := r.object.size_le
          rw [frameSize_cons, frameSize_nil]
          omega
        · intro props hprops
          rw [List.mem_singleton.mp hprops]
          exact hr.count
      rw [hscript]
      refine h.left happ rfl (Or.inr hwaiting) (fun f hf => ?_) hcalling
      rw [hframes] at hf
      rcases List.mem_append.mp hf with hold | hnew
      · exact h.understood .left f hold
      · rw [List.mem_singleton.mp hnew]
        refine ⟨hunderstood, fun body hbody => ?_⟩
        rw [hbodies] at hbody
        rw [List.mem_singleton.mp hbody]
        exact hsends

/-- The next callback at the client. -/
theorem Enacts.deliver_left {n : CallNet pl κC τC κS ω} {l : LocalCall (pl .left) κC τC ω}
    (h : Enacts caller address P n l) {callback : Callback} {p : Position}
    (hdue : Due (n.endpoint .right).frames (n.position .left) callback p) :
    ∃ steps : List (LocalStep (pl .left) κC τC),
      Enacts caller address P
        (⟨Function.update n.endpoint .left
          ((n.endpoint .left).react (caller.application (pl .left)) callback),
          Function.update n.position .left p⟩ : CallNet pl κC τC κS ω)
        (Simulation.run (LocalCall.step caller services) steps l) ∧
      steps.flatMap LocalStep.script? = [] := by
  have hphase := h.phase
  generalize hl : l.phase = phase at hphase
  cases hphase with
  | idle hrest => exact absurd (hrest.client ▸ hdue) not_due_of_end
  | unanswered hrest => exact absurd (hrest.client ▸ hdue) not_due_of_end
  | calling hcalling => exact absurd (hcalling.client ▸ hdue) not_due_of_end
  | @returning calls hreturning =>
      obtain ⟨hframes, hmade⟩ := hreturning.react caller hdue
      have hunderstood : ∀ f ∈ ((n.endpoint .left).react (caller.application (pl .left))
          callback).frames, f.Sends P := fun f hf => h.understood .left f (hframes ▸ hf)
      rcases hmade with ⟨happ, hnext⟩ | ⟨call, rest, rfl, happ, hobject, hnext⟩
      · exact ⟨[], h.left (happ.trans h.app) rfl h.waiting hunderstood
          (by rw [Simulation.run_nil, hl]; exact .returning hnext), rfl⟩
      · have hstep : l.step caller services .callback = l.callback caller call rest := by
          rw [LocalCall.step, hl]
        refine ⟨[.callback], ?_, rfl⟩
        rw [Simulation.run_cons, Simulation.run_nil, hstep]
        refine h.left ?_ rfl ?_ hunderstood hnext
        · rw [happ, h.app]
          rfl
        · by_cases hrest : rest = []
          · rw [hrest]
            exact Or.inl rfl
          · -- the client waits until the last call
            obtain ⟨k, index, contents, rfl⟩ := hobject hrest
            have hwaiting := h.waiting.resolve_left (by rw [hl]; exact fun heq => nomatch heq)
            exact Or.inr (caller.waiting_requestObject hwaiting)

/-- The next callback at the server. -/
theorem Enacts.deliver_right {n : CallNet pl κC τC κS ω} {l : LocalCall (pl .left) κC τC ω}
    (h : Enacts caller address P n l) (hok : ServicesOk services) (hsends : ServicesSend services P)
    {callback : Callback} {q : Position}
    (hdue : Due (n.endpoint .left).frames (n.position .right) callback q) :
    ∃ steps : List (LocalStep (pl .left) κC τC),
      Enacts caller address P
        (⟨Function.update n.endpoint .right
          ((n.endpoint .right).react (serviceApplication services address other) callback),
          Function.update n.position .right q⟩ : CallNet pl κC τC κS ω)
        (Simulation.run (LocalCall.step caller services) steps l) ∧
      steps.flatMap LocalStep.script? = [] := by
  have hphase := h.phase
  generalize hl : l.phase = phase at hphase
  cases hphase with
  | idle hrest => exact absurd (hrest.server ▸ hdue) not_due_of_end
  | unanswered hrest => exact absurd (hrest.server ▸ hdue) not_due_of_end
  | returning hreturning => exact absurd (hreturning.server ▸ hdue) not_due_of_end
  | @calling r hcalling =>
      have hwaiting := h.waiting.resolve_left (by rw [hl]; exact fun heq => nomatch heq)
      obtain ⟨hattached, hserves⟩ := hcalling.react other h.attached hok hdue
      cases hserves with
      | collects hcalling' huser hframes =>
          exact ⟨[], h.right rfl (huser.trans h.user) (Or.inr hwaiting) hattached
            (fun f hf => h.understood .right f (hframes ▸ hf))
            (by rw [Simulation.run_nil, hl]; exact .calling hcalling'), rfl⟩
      | serves huser hnext hframes =>
          obtain ⟨during, hframes⟩ := hframes
          have hstep : l.step caller services .serve = l.serve services r := by
            rw [LocalCall.step, hl]
          refine ⟨[.serve], ?_, rfl⟩
          rw [Simulation.run_cons, Simulation.run_nil, hstep]
          rw [h.user] at huser hnext hframes
          refine h.right rfl huser (Or.inr hwaiting) hattached (fun f hf => ?_) hnext
          rw [hframes] at hf
          rcases List.mem_append.mp hf with hold | hnew
          · exact h.understood .right f hold
          · have hframe := Option.mem_toList.mp hnew
            refine ⟨(hok.serveRequest_ok _ _).wellFormed hframe, fun body hbody => ?_⟩
            rw [(hok.serveRequest_ok _ _).bodies_eq hframe] at hbody
            obtain ⟨props, hprops, rfl⟩ := List.mem_map.mp hbody
            exact hsends _ _ props hprops

/-- The objects that an act requests have the property. -/
def NetAct.Sends (P : List UInt8 → Prop) :
    NetAct pl (onSides κC (HandlerPointer κS)) (onSides τC (ServerClientHandlers ω)) → Prop
  | .script .left f => ∀ app : τC, (f app : Script (pl .left) κC τC Unit).Sends P
  | .script .right _ => True
  | .deliver _ => True

variable (caller services address other) in
/-- **The frames make no difference.**  Each act of the network of frames is at most one step of the
local program. -/
theorem carriesOut_local (hok : ServicesOk services) (hsends : ServicesSend services P) :
    Simulation.CarriesOut
      (fun (act : NetAct pl (onSides κC (HandlerPointer κS))
        (onSides τC (ServerClientHandlers ω))) n =>
          n.step (callSides caller services address other) act)
      (LocalCall.step caller services) NetAct.script? LocalStep.script? (Enacts caller address P)
      (fun act => act.Calm caller ∧ act.Sends P) := by
  rintro act ⟨hcalm, hact⟩ n l h
  cases act with
  | script s f =>
      cases s with
      | left => exact ⟨[.script f], h.script (hcalm l.app) (hact l.app), rfl⟩
      | right => exact hcalm.elim
  | deliver s =>
      dsimp only
      rw [Net.step]
      cases hdue : n.due s with
      | none => exact ⟨[], h, rfl⟩
      | some next =>
          obtain ⟨callback, p⟩ := next
          cases s with
          | left => exact h.deliver_left (due_spec hdue)
          | right => exact h.deliver_right hok hsends (due_spec hdue)

/-! ## The bytes between them -/

/-- The two connections, with a caller on the left and a server on the right. -/
abbrev CallByteNet (pl : Side → Build) (κC τC κS ω : Type) :=
  ByteNet pl (onSides κC (HandlerPointer κS)) (onSides τC (ServerClientHandlers ω))

/-- What happens at the two connections. -/
abbrev CallAct (pl : Side → Build) (κC τC κS ω : Type) :=
  ByteAct pl (onSides κC (HandlerPointer κS)) (onSides τC (ServerClientHandlers ω))

/-- The code that an act runs at the client. -/
def ByteAct.script? : CallAct pl κC τC κS ω → List (τC → Script (pl .left) κC τC Unit)
  | .script .left f => [f]
  | .script .right _ => []
  | .deliver _ _ => []

/-- The client keeps to the rules of the caller, and the server runs no code of its own. -/
def ByteAct.Calm (caller : Caller κC τC) : CallAct pl κC τC κS ω → Prop
  | .script .left f => ∀ app, caller.Calm app (f app)
  | .script .right _ => False
  | .deliver _ _ => True

/-- The objects that an act requests have the property. -/
def ByteAct.Sends (P : List UInt8 → Prop) : CallAct pl κC τC κS ω → Prop
  | .script .left f => ∀ app : τC, (f app : Script (pl .left) κC τC Unit).Sends P
  | .script .right _ => True
  | .deliver _ _ => True

/-- A relation between the two connections and the local program. -/
def ByteEnacts (caller : Caller κC τC) (address : Nat) (P : List UInt8 → Prop)
    (b : CallByteNet pl κC τC κS ω) (l : LocalCall (pl .left) κC τC ω) : Prop :=
  ∃ n, Simulates b n ∧ Enacts caller address P n l

variable (caller services address other) in
/-- Each act of the two connections is some steps of the local program. -/
theorem carriesOut_bytes (hok : ServicesOk services) (hsends : ServicesSend services P)
    (hseen : ∀ s, (pl s).decoder = .asm → ¬ P []) (hother : other.Reliable) :
    Simulation.CarriesOut
      (fun (act : CallAct pl κC τC κS ω) b =>
        b.step (callSides caller services address other) act)
      (LocalCall.step caller services) ByteAct.script? LocalStep.script?
      (ByteEnacts caller address P) (fun act => act.Calm caller ∧ act.Sends P) := by
  have hreliable : ∀ s, (callSides caller services address other s).Reliable :=
    bothSides_reliable (caller.reliable _) hother
  rintro act ⟨hcalm, hact⟩ b l ⟨n, hsim, henacts⟩
  cases act with
  | script s f =>
      cases s with
      | left => exact ⟨[.script f], ⟨_, hsim.script hreliable .left f,
          henacts.script (hcalm l.app) (hact l.app)⟩, rfl⟩
      | right => exact hcalm.elim
  | deliver s count =>
      obtain ⟨number, hsim'⟩ := hsim.deliveries hreliable s
        (fun f hf => (henacts.understood s.other f
          (by rwa [(hsim s.other).endpoint])).understoodBy (hseen s))
        count
      have hcalm : ∀ act ∈ List.replicate number (.deliver s : NetAct pl
          (onSides κC (HandlerPointer κS)) (onSides τC (ServerClientHandlers ω))),
          act.Calm caller ∧ act.Sends P := fun act hact => by
          rw [List.eq_of_mem_replicate hact]
          exact ⟨trivial, trivial⟩
      obtain ⟨steps, henacts', hscripts⟩ :=
        (carriesOut_local caller services address other hok hsends).run hcalm henacts
      refine ⟨steps, ⟨_, hsim', henacts'⟩, hscripts.trans ?_⟩
      exact List.flatMap_eq_nil_iff.mpr fun act hact => by
        rw [List.eq_of_mem_replicate hact]
        rfl

/-- A client and a server as they are initialised. -/
theorem enacts_init {b : CallByteNet pl κC τC κS ω}
    {incomingRequest incomingObject incomingComplete : Option κC} {user : Nat} {app : τC}
    (hleft : (b.conn .left).app =
      Endpoint.start (pl .left) incomingRequest incomingObject incomingComplete user app)
    {h : ServerClientHandlers ω}
    (hright : (b.conn .right).app = Endpoint.server (pl .right) address h) :
    Enacts caller address P (Net.init fun s => (b.conn s).app) ⟨app, h.clientUser, .idle⟩ := by
  have hframes : (b.conn .left).app.frames = [] := by
    rw [hleft]
    rfl
  have hframes' : (b.conn .right).app.frames = [] := by
    rw [hright]
    rfl
  constructor
  · show (b.conn .left).app.app = app
    rw [hleft]
    rfl
  · show (b.conn .right).app.app.clientUser = h.clientUser
    rw [hright]
    rfl
  · exact Or.inl rfl
  · show (b.conn .right).app.processor = _
    rw [hright]
    rfl
  · intro s f hf
    cases s with
    | left =>
        change f ∈ (b.conn .left).app.frames at hf
        rw [hframes] at hf
        exact absurd hf List.not_mem_nil
    | right =>
        change f ∈ (b.conn .right).app.frames at hf
        rw [hframes'] at hf
        exact absurd hf List.not_mem_nil
  · refine .idle ⟨?_, ?_⟩
    · show (⟨0, none⟩ : Position) = ⟨(b.conn .right).app.frames.length, none⟩
      rw [hframes']
      rfl
    · show (⟨0, none⟩ : Position) = ⟨(b.conn .left).app.frames.length, none⟩
      rw [hframes]
      rfl

/-- The run of the local program behind a run of the two connections. -/
theorem exists_local (hok : ServicesOk services) (hsends : ServicesSend services P)
    (hseen : ∀ s, (pl s).decoder = .asm → ¬ P []) (hother : other.Reliable)
    {b : CallByteNet pl κC τC κS ω} (hfresh : b.Fresh)
    {incomingRequest incomingObject incomingComplete : Option κC} {user : Nat} {app : τC}
    (hleft : (b.conn .left).app =
      Endpoint.start (pl .left) incomingRequest incomingObject incomingComplete user app)
    {h : ServerClientHandlers ω}
    (hright : (b.conn .right).app = Endpoint.server (pl .right) address h)
    {acts : List (CallAct pl κC τC κS ω)} (hacts : ∀ act ∈ acts, act.Calm caller ∧ act.Sends P) :
    ∃ steps, ByteEnacts caller address P (b.run (callSides caller services address other) acts)
        (Simulation.run (LocalCall.step caller services) steps ⟨app, h.clientUser, .idle⟩) ∧
      steps.flatMap LocalStep.script? = acts.flatMap ByteAct.script? :=
  (carriesOut_bytes caller services address other hok hsends hseen hother).run hacts
    ⟨_, hfresh.simulates, enacts_init hleft hright⟩

theorem ByteEnacts.app {b : CallByteNet pl κC τC κS ω} {l : LocalCall (pl .left) κC τC ω}
    (h : ByteEnacts caller address P b l) : (b.conn .left).app.app = l.app := by
  obtain ⟨n, hsim, henacts⟩ := h
  rw [← (hsim .left).endpoint]
  exact henacts.app

theorem ByteEnacts.user {b : CallByteNet pl κC τC κS ω} {l : LocalCall (pl .left) κC τC ω}
    (h : ByteEnacts caller address P b l) : (b.conn .right).app.app.clientUser = l.user := by
  obtain ⟨n, hsim, henacts⟩ := h
  rw [← (hsim .right).endpoint]
  exact henacts.user

theorem ByteAct.sends_anything (act : CallAct pl κC τC κS ω) : act.Sends fun _ => True := by
  cases act with
  | script s f =>
      cases s with
      | left =>
          intro app
          cases f app <;> trivial
      | right => trivial
  | deliver s count => trivial

/-- **A remote call is a local call.**  A client that waits for every answer before it issues the
next request, and a server whose handlers only compute, are connected over reliable sockets, and
the bytes come in any pieces.  The requests have at most 14 properties, both callbacks and no code
that issues another; the answers are texts of 1 to 63 bytes, or some objects of at most 14
properties whose length fits the header; no object without properties is sent to the routine of
the Spectrum.  Whatever happens, the client's state and the server's are those of a run of the
local program, in which the client's code is the same, in the same order. -/
theorem remoteCalls_local (hok : ServicesOk services) (hsends : ServicesSend services P)
    (hseen : ∀ s, (pl s).decoder = .asm → ¬ P []) (hother : other.Reliable)
    {b : CallByteNet pl κC τC κS ω} (hfresh : b.Fresh)
    {incomingRequest incomingObject incomingComplete : Option κC} {user : Nat} {app : τC}
    (hleft : (b.conn .left).app =
      Endpoint.start (pl .left) incomingRequest incomingObject incomingComplete user app)
    {h : ServerClientHandlers ω}
    (hright : (b.conn .right).app = Endpoint.server (pl .right) address h)
    (acts : List (CallAct pl κC τC κS ω)) (hacts : ∀ act ∈ acts, act.Calm caller ∧ act.Sends P) :
    let b' := b.run (callSides caller services address other) acts
    ∃ steps, steps.flatMap LocalStep.script? = acts.flatMap ByteAct.script? ∧
      let l := Simulation.run (LocalCall.step caller services) steps ⟨app, h.clientUser, .idle⟩
      (b'.conn .left).app.app = l.app ∧ (b'.conn .right).app.app.clientUser = l.user := by
  intro b'
  obtain ⟨steps, henacts, hscripts⟩ :=
    exists_local hok hsends hseen hother hfresh hleft hright hacts
  exact ⟨steps, hscripts, henacts.app, henacts.user⟩

end Network

/-! ## One call -/

/-- A client whose state is whether it waits. -/
def asker : Caller Nat Bool where
  requestObject _ _ _ app := app
  response _ _ := false
  error _ _ _ := false
  waiting app := app = true
  waiting_requestObject := id

/-- It asks, unless it waits. -/
def ask (app : Bool) : Script .pc Nat Bool Unit :=
  if app then
    .done () app
  else
    .request ⟨SendableObject.allocate .pc (fun _ => 0) 768
      [declareStrProperty 0x71 emptyRequest,
        declareStrProperty ProtoObjectPropertyKey.id.code (handlerOfA ⟨none, []⟩).name]
      (by decide) (by decide), some 1, some 2, some 3⟩ fun _ => .done () true

/-- A server that counts what it is asked. -/
def countingServices : List (Service .pc Nat) :=
  [((handlerOfA ⟨none, []⟩).name, fun _ count => (⟨some emptyRequest, []⟩, count + 1))]

/-- The two, with nothing received. -/
def askingNet : CallByteNet (fun _ => .pc) Nat Bool Empty Nat where
  conn
    | .left => .init 2048 96 (fun _ => 0) ⟨0, []⟩ (.start .pc none none none 0 false) 0
    | .right => .init 2048 96 (fun _ => 0) ⟨0, []⟩ (.server .pc 8192 (serverHandlersInit 0)) 0
  taken _ := 0

theorem fresh_askingNet : askingNet.Fresh := by
  constructor
  · intro s
    cases s <;> exact Conn.fresh_init _ _ _ _ _ _
  · exact fun s => Conn.placed_of_c rfl _
  · intro s
    cases s <;> rfl
  · intro s
    cases s <;> rfl
  · exact fun _ => rfl

theorem servicesOk_countingServices : ServicesOk countingServices := by
  intro service hmem objects user
  rw [List.mem_singleton.mp hmem]
  exact ⟨by decide, by decide⟩

/-- It asks twice, but waits the second time; the answer comes in two pieces. -/
def askingActs : List (CallAct (fun _ => .pc) Nat Bool Empty Nat) :=
  [.script .left ask, .deliver .right 7, .script .left ask, .deliver .right 30, .deliver .left 9,
    .deliver .left 60]

theorem calm_ask (app : Bool) : asker.Calm app (ask app) := by
  cases app with
  | false =>
      exact .call ⟨Option.some_ne_none 2, Option.some_ne_none 3, by decide⟩ Bool.false_ne_true rfl
        rfl
  | true => exact .stay id

theorem remoteCalls_local_one :
    let b' := askingNet.run (callSides asker countingServices 8192 (.quiet _ _ _)) askingActs
    (∃ steps, steps.flatMap LocalStep.script? = [ask, ask] ∧
      let l := Simulation.run (LocalCall.step asker countingServices) steps ⟨false, 0, .idle⟩
      (b'.conn .left).app.app = l.app ∧ (b'.conn .right).app.app.clientUser = l.user) ∧
    (b'.conn .left).app.app = false ∧ (b'.conn .right).app.app.clientUser = 1 := by
  have hcalm : ∀ act ∈ askingActs, act.Calm asker := by
    simp only [askingActs, List.forall_mem_cons, List.not_mem_nil, false_imp_iff, implies_true]
    exact ⟨calm_ask, trivial, calm_ask, trivial, trivial, trivial, trivial⟩
  have hseen : ∀ s : Side, Build.pc.decoder = .asm → ¬ True := fun _ hasm => by cases hasm
  exact ⟨remoteCalls_local (P := fun _ => True) servicesOk_countingServices
    (fun _ _ _ _ => trivial) hseen (fun _ => rfl) fresh_askingNet rfl rfl askingActs
    fun act hact => ⟨hcalm act hact, act.sends_anything⟩, by decide +kernel, by decide +kernel⟩

end ZxProto
