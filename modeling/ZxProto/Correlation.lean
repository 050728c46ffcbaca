import ZxProto.Handlers
import ZxProto.ServerSide

/-!
# Responses find their request

A client and a server with its handlers attached: every callback that a request
installed is called only while the answer to that request is received, with what
the answer holds.

* `Net.Issued` — the bounds on the requests issued;
* `Net.Correlates` — the invariant of the two endpoints; `Net.Correlates.run`;
* `responses_correlated` — the result for the two connections, over any
  segmentation.
-/

namespace ZxProto

open ByteMemory

section Network

variable {pl : Side → Build} {κ τ : Side → Type} {a : ∀ s, Application (pl s) (κ s) (τ s)}

/-- The left side has issued at most 65535 requests, and the right side none. -/
structure Net.Issued (n : Net pl κ τ) : Prop where
  left : (n.endpoint .left).requests.length ≤ 65535
  right : (n.endpoint .right).requests = []

/-- The two endpoints, with the client on the left: each is prepared for what the
other one sent. -/
structure Net.Correlates (incomingRequest incomingObject incomingComplete : Option (κ .left))
    (serverRequest serverObject serverComplete : Option (κ .right)) (n : Net pl κ τ) : Prop where
  client : ClientSide incomingRequest incomingObject incomingComplete (n.endpoint .left)
    (n.endpoint .right).frames (n.position .left)
  own : OwnFrames (n.endpoint .left)
  server : ServerSide serverRequest serverObject serverComplete (n.endpoint .right)
    (n.endpoint .left).frames (n.position .right)

theorem Net.prefix_requests_step (act : NetAct pl κ τ) (n : Net pl κ τ) (s : Side) :
    (n.endpoint s).requests <+: ((n.step a act).endpoint s).requests := by
  have hact : ∀ (s' : Side) (act : Act (pl s') (κ s') (τ s')),
      (n.endpoint s).requests <+: ((n.act a s' act).endpoint s).requests := by
    intro s' act
    by_cases heq : s = s'
    · subst heq
      rw [Net.act_endpoint]
      exact ZxProto.prefix_requests_step act _
    · rw [Net.act_endpoint_of_ne a n heq]
  exact Net.step_induction a
    (P := fun n' => (n.endpoint s).requests <+: (n'.endpoint s).requests)
    (fun s' f => hact s' _) (fun s' callback p _ => hact s' _) List.prefix_rfl act

/-- The bounds hold at the end only if they do before. -/
theorem Net.Issued.of_step {act : NetAct pl κ τ} {n : Net pl κ τ} (h : (n.step a act).Issued) :
    n.Issued :=
  ⟨(n.prefix_requests_step act .left).length_le.trans h.left,
    List.prefix_nil.mp (h.right ▸ n.prefix_requests_step act .right)⟩

theorem Net.Issued.of_run {acts : List (NetAct pl κ τ)} {n : Net pl κ τ}
    (h : (n.run a acts).Issued) : n.Issued := by
  induction acts generalizing n with
  | nil => exact h
  | cons act acts ih => exact (ih h).of_step

variable {incomingRequest incomingObject incomingComplete : Option (κ .left)}
  {serverRequest serverObject serverComplete : Option (κ .right)}

/-- The client acts. -/
theorem Net.Correlates.left {n : Net pl κ τ}
    (h : n.Correlates incomingRequest incomingObject incomingComplete serverRequest serverObject
      serverComplete) {c : Endpoint (pl .left) (κ .left) (τ .left)} {p : Position}
    (hclient : ClientSide incomingRequest incomingObject incomingComplete c
      (n.endpoint .right).frames p)
    (hown : OwnFrames c) (hgrown : (n.endpoint .left).frames <+: c.frames) :
    Net.Correlates incomingRequest incomingObject incomingComplete serverRequest serverObject
      serverComplete (⟨Function.update n.endpoint .left c, Function.update n.position .left p⟩ :
        Net pl κ τ) := by
  constructor
  · simpa using hclient
  · simpa using hown
  · simpa using h.server.grown hgrown

/-- The server acts. -/
theorem Net.Correlates.right {n : Net pl κ τ}
    (h : n.Correlates incomingRequest incomingObject incomingComplete serverRequest serverObject
      serverComplete) (hissued : (n.endpoint .left).requests.length ≤ 65535)
    {e : Endpoint (pl .right) (κ .right) (τ .right)} {q : Position}
    {new : List (SentFrame (pl .right))}
    (hframes : e.frames = (n.endpoint .right).frames ++ new)
    (hnew : ∀ f ∈ new, FromServer (n.endpoint .left) f)
    (hserver : ServerSide serverRequest serverObject serverComplete e
      (n.endpoint .left).frames q) :
    Net.Correlates incomingRequest incomingObject incomingComplete serverRequest serverObject
      serverComplete (⟨Function.update n.endpoint .right e, Function.update n.position .right q⟩ :
        Net pl κ τ) := by
  -- what was sent before is still the server's, and what is new is too
  have hfrom : ∀ f ∈ e.frames, FromServer (n.endpoint .left) f := by
    rw [hframes]
    intro f hf
    rcases List.mem_append.mp hf with hf | hf
    · exact h.client.fromServer f hf
    · exact hnew f hf
  have hview : SameView (n.endpoint .left) (n.endpoint .left) := ⟨rfl, rfl, rfl, List.prefix_rfl⟩
  have hgrown : (n.endpoint .right).frames <+: e.frames := by
    rw [hframes]
    exact List.prefix_append _ _
  have hclient := h.client.grown hview rfl hgrown hfrom
    fun i j f g hf hg hfanswer hganswer hid =>
      hserver.unique h.own hfrom hissued hf hg hfanswer hganswer hid
  constructor
  · simpa using hclient
  · simpa using h.own
  · simpa using hserver

theorem Net.Correlates.step
    (hok : ∀ k answer, serverComplete = some k → (a .right).Answers k answer → answer.Ok)
    {n : Net pl κ τ}
    (h : n.Correlates incomingRequest incomingObject incomingComplete serverRequest serverObject
      serverComplete) (act : NetAct pl κ τ) (hissued : (n.step a act).Issued) :
    (n.step a act).Correlates incomingRequest incomingObject incomingComplete serverRequest
      serverObject serverComplete := by
  have hbefore := hissued.of_step
  revert hissued
  refine Net.step_induction a (P := fun n' => n'.Issued → n'.Correlates incomingRequest
    incomingObject incomingComplete serverRequest serverObject serverComplete)
    ?_ ?_ (fun _ => h) act
  · intro s f hissued
    cases s with
    | left =>
        have hfollows := Script.run_follows (a .left) (f (n.endpoint .left).app) (n.endpoint .left)
        have hle := hissued.left
        rw [Net.act_endpoint] at hle
        have hnext := h.left (ClientSide.follows hfollows h.client hle)
          (h.own.follows hfollows h.client.installed)
          (prefix_frames_step (a := a .left) (.script f) (n.endpoint .left))
        rwa [Function.update_eq_self] at hnext
    | right =>
        have hidle := hissued.right
        rw [Net.act_endpoint] at hidle
        obtain ⟨hframes, hserver⟩ := h.server.follows
          (Script.run_follows (a .right) (f (n.endpoint .right).app) (n.endpoint .right)) hidle
        have hnext := h.right hbefore.left (hframes.trans (List.append_nil _).symm)
          (fun f hf => absurd hf List.not_mem_nil) hserver
        rwa [Function.update_eq_self] at hnext
  · intro s callback p hdue hissued
    cases s with
    | left =>
        have hle := hissued.left
        rw [Net.act_endpoint] at hle
        exact h.left (h.client.react (a .left) hdue hle) (h.own.react (a .left) h.client hdue)
          (prefix_frames_step (a := a .left) (.callback callback) (n.endpoint .left))
    | right =>
        have hidle := hissued.right
        rw [Net.act_endpoint] at hidle
        obtain ⟨new, hframes, hnew, hserver⟩ := h.server.react hok h.own hdue hidle
        exact h.right hbefore.left hframes hnew hserver

/-- **The invariant holds along runs.** -/
theorem Net.Correlates.run
    (hok : ∀ k answer, serverComplete = some k → (a .right).Answers k answer → answer.Ok)
    (acts : List (NetAct pl κ τ)) {n : Net pl κ τ}
    (h : n.Correlates incomingRequest incomingObject incomingComplete serverRequest serverObject
      serverComplete) (hissued : (n.run a acts).Issued) :
    (n.run a acts).Correlates incomingRequest incomingObject incomingComplete serverRequest
      serverObject serverComplete := by
  induction acts generalizing n with
  | nil => exact h
  | cons act acts ih =>
      have hrest : ((n.step a act).run a acts).Issued := hissued
      exact ih (h.step hok act hrest.of_run) hrest

/-- Two endpoints as they are initialised. -/
theorem Net.correlates_init {endpoint : ∀ s, Endpoint (pl s) (κ s) (τ s)} {user user' : Nat}
    {app : τ .left} {app' : τ .right}
    (hleft : endpoint .left = Endpoint.start (pl .left) incomingRequest incomingObject
      incomingComplete user app)
    (hright : endpoint .right = Endpoint.start (pl .right) serverRequest serverObject
      serverComplete user' app') :
    (Net.init endpoint).Correlates incomingRequest incomingObject incomingComplete serverRequest
      serverObject serverComplete := by
  have hframes : (endpoint .left).frames = [] := by
    rw [hleft]
    rfl
  have hframes' : (endpoint .right).frames = [] := by
    rw [hright]
    rfl
  have hrequests : (endpoint .left).requests = [] := by
    rw [hleft]
    rfl
  constructor
  · show ClientSide _ _ _ (endpoint .left) (endpoint .right).frames ⟨0, none⟩
    rw [hframes', hleft]
    refine ⟨installed_start user app, Nat.zero_le _, rfl, ?_, ?_, ?_, ?_,
      Or.inl ⟨rfl, rfl, rfl, ?_⟩⟩
    · exact fun f hf => absurd hf List.not_mem_nil
    · exact fun i j f g hf => absurd hf (by simp)
    · exact fun call hcall => absurd hcall List.not_mem_nil
    · exact fun number _ hlt => absurd hlt (Nat.not_lt_zero number)
    · exact fun i f hf => absurd hf (by simp)
  · exact ownFrames_of_nil hframes
  · show ServerSide _ _ _ (endpoint .right) (endpoint .left).frames ⟨0, none⟩
    rw [hframes, hright]
    refine ⟨installed_start user' app', rfl, ⟨rfl, ?_⟩, Nat.zero_le _, rfl, ?_, List.Pairwise.nil⟩
    · exact fun f hf => absurd hf List.not_mem_nil
    · exact fun f hf => absurd hf List.not_mem_nil

/-- No two frames answer the request with a number. -/
def AnsweredOnce {plC plS : Platform} {κC τC : Type} (c : Endpoint plC κC τC)
    (frames : List (SentFrame plS)) (number : Nat) : Prop :=
  ∀ (i j : Nat) (f g : SentFrame plS) (answer answer' : Answer plS),
    frames[i]? = some f → frames[j]? = some g →
      AnswersRequest c number f answer → AnswersRequest c number g answer' → i = j

/-- What the invariant says of each request. -/
theorem Net.Correlates.correlated {n : Net pl κ τ}
    (h : n.Correlates incomingRequest incomingObject incomingComplete serverRequest serverObject
      serverComplete) {number : Nat} (hpos : 1 ≤ number)
    (hle : number ≤ (n.endpoint .left).requests.length) :
    Correlated (n.endpoint .left) (n.endpoint .right).frames number ∧
      AnsweredOnce (n.endpoint .left) (n.endpoint .right).frames number := by
  constructor
  · rcases Nat.lt_or_eq_of_le hle with hlt | rfl
    · exact h.client.past number hpos hlt
    · exact h.client.correlated hpos
  · exact fun i j f g answer answer' hf hg hfanswers hganswers =>
      h.server.answer_unique h.own hf hg hfanswers hganswers

/-- The receivers understand the frames. -/
theorem Net.Correlates.wellFormed {n : Net pl κ τ}
    (h : n.Correlates incomingRequest incomingObject incomingComplete serverRequest serverObject
      serverComplete)
    (hcount : ∀ r ∈ (n.endpoint .left).requests, r.object.properties.length ≤ 14) (s : Side) :
    ∀ f ∈ (n.endpoint s).frames, f.WellFormed := by
  cases s with
  | left => exact fun g hg => (h.own.made g hg).wellFormed hcount
  | right => exact fun f hf => (h.client.fromServer f hf).wellFormed

/-- **Correlation over bytes.**  The invariant holds at the end of a run of the
two connections. -/
theorem exists_net_correlates (ha : ∀ s, (a s).Reliable)
    (hok : ∀ k answer, serverComplete = some k → (a .right).Answers k answer → answer.Ok)
    {b : ByteNet pl κ τ} (hfresh : b.Fresh)
    (hinit : (Net.init fun s => (b.conn s).app).Correlates incomingRequest incomingObject
      incomingComplete serverRequest serverObject serverComplete)
    (acts : List (ByteAct pl κ τ))
    (hle : ((b.run a acts).conn .left).app.requests.length ≤ 65535)
    (hidle : ((b.run a acts).conn .right).app.requests = [])
    (hcount : ∀ r ∈ ((b.run a acts).conn .left).app.requests, r.object.properties.length ≤ 14)
    (hfilled : (b.run a acts).Filled) :
    ∃ n : Net pl κ τ, (∀ s, n.endpoint s = ((b.run a acts).conn s).app) ∧
      n.Correlates incomingRequest incomingObject incomingComplete serverRequest serverObject
        serverComplete := by
  -- the bounds hold at the end, and so in every state before
  have hearlier : ∀ first, first <+: acts → ∀ s,
      ((b.run a first).conn s).app.requests <+: ((b.run a acts).conn s).app.requests ∧
        ((b.run a first).conn s).app.frames <+: ((b.run a acts).conn s).app.frames := by
    rintro first ⟨rest, rfl⟩ s
    obtain ⟨moves, hmoves⟩ := (b.run a first).exists_run (a := a) rest s
    have hrun : b.run a (first ++ rest) = (b.run a first).run a rest := List.foldl_append
    rw [hrun, hmoves]
    exact ⟨prefix_requests_run moves _, prefix_frames_run moves _⟩
  have hreached : ∀ first acts', first <+: acts →
      Simulates (b.run a first) ((Net.init fun s => (b.conn s).app).run a acts') →
        ((Net.init fun s => (b.conn s).app).run a acts').Correlates incomingRequest incomingObject
          incomingComplete serverRequest serverObject serverComplete := by
    intro first acts' hpre hsim
    refine hinit.run hok acts' ⟨?_, ?_⟩
    · rw [(hsim .left).endpoint]
      exact (hearlier first hpre .left).1.length_le.trans hle
    · rw [(hsim .right).endpoint]
      exact List.prefix_nil.mp (hidle ▸ (hearlier first hpre .right).1)
  obtain ⟨acts', hsim⟩ := hfresh.simulates.run ha acts fun first acts' hpre hsim s f hf => by
    refine ⟨?_, fun hasm => hfilled s hasm f ((hearlier first hpre s.other).2.subset hf)⟩
    rw [← (hsim s.other).endpoint] at hf
    refine (hreached first acts' hpre hsim).wellFormed ?_ s.other f hf
    rw [(hsim .left).endpoint]
    exact fun r hr => hcount r ((hearlier first hpre .left).1.subset hr)
  exact ⟨_, fun s => (hsim s).endpoint, hreached acts acts' List.prefix_rfl hsim⟩

end Network

/-! ## The answers of a server with handlers -/

section Handlers

variable {pl : Platform} {κ ω : Type} {handlers : List (RequestHandler pl (HandlerPointer κ) ω)}
  {address : Nat} {other : Application pl (HandlerPointer κ) (ServerClientHandlers ω)}

/-- A handler that is called is in the table; otherwise the text is one of the
library's. -/
theorem dispatch_spec (handlers : List (RequestHandler pl (HandlerPointer κ) ω))
    (h : ServerClientHandlers ω) :
    match dispatch handlers h with
    | .error text => (Answer.text text : Answer pl).Ok
    | .ok handler => handler ∈ handlers := by
  rw [dispatch]
  cases h.objects with
  | nil => exact ⟨by decide, by decide⟩
  | cons firstObject rest =>
      simp only
      cases firstObject.find? fun p => p.key == ProtoObjectPropertyKey.id.code with
      | none => exact ⟨by decide, by decide⟩
      | some id =>
          simp only
          cases hfind : findHandler handlers (copyStrProperty id) with
          | none => exact ⟨by decide, by decide⟩
          | some handler => exact List.mem_of_find?_eq_some hfind

/-- What the handlers return is understood. -/
def HandlersOk (handlers : List (RequestHandler pl (HandlerPointer κ) ω))
    (a : Application pl (HandlerPointer κ) (ServerClientHandlers ω)) : Prop :=
  ∀ handler ∈ handlers, ∀ h e, ((handler.cb h).run a e).1.answer.Ok

/-- So is every answer of the server. -/
theorem HandlersOk.answers_ok
    (hok : HandlersOk handlers (handlerApplication handlers address other)) {answer : Answer pl}
    (hanswer : (handlerApplication handlers address other).Answers .clientRequestComplete answer) :
    answer.Ok := by
  obtain ⟨flags, requestId, user, h, e, rfl⟩ := hanswer
  have hscript : (handlerApplication handlers address other).incomingComplete
      .clientRequestComplete flags requestId user h =
        if user = littleEndian pl.pointerSize address then clientRequestComplete handlers h
        else .done .nothing h := rfl
  rw [hscript]
  split
  · have hspec := dispatch_spec handlers h
    rw [clientRequestComplete]
    cases hdispatch : dispatch handlers h with
    | error text =>
        rw [hdispatch] at hspec
        exact hspec
    | ok handler =>
        rw [hdispatch] at hspec
        simp only [Script.map_run]
        exact hok handler hspec h e
  · trivial

end Handlers

/-! ## The client and the server -/

/-- One type for each side. -/
abbrev onSides (left right : Type) : Side → Type
  | .left => left
  | .right => right

/-- The applications of the two sides. -/
def bothSides {pl : Side → Build} {κC τC κS τS : Type} (client : Application (pl .left) κC τC)
    (server : Application (pl .right) κS τS) :
    ∀ s, Application (pl s) (onSides κC κS s) (onSides τC τS s)
  | .left => client
  | .right => server

theorem bothSides_reliable {pl : Side → Build} {κC τC κS τS : Type}
    {client : Application (pl .left) κC τC} {server : Application (pl .right) κS τS}
    (hclient : client.Reliable) (hserver : server.Reliable) (s : Side) :
    (bothSides client server s).Reliable := by
  cases s with
  | left => exact hclient
  | right => exact hserver

/-- **Every response finds its request.**  A client with any application and a
server with its handlers attached are connected over reliable sockets, and the
bytes come in any pieces.  The client issues at most 65535 requests, at any
moment, with objects of at most 14 properties each; the server issues none, and
its handlers give answers that are understood; no object without properties is sent
to the routine of the Spectrum.  Then the callbacks of each request are called only
while the one frame is received that answers it, and the calls are the first ones of
those that this answer should cause. -/
theorem responses_correlated {pl : Side → Build} {κC τC κS ω : Type}
    (client : Application (pl .left) κC τC) (hclient : client.Reliable)
    (handlers : List (RequestHandler (pl .right) (HandlerPointer κS) ω)) (address : Nat)
    (other : Application (pl .right) (HandlerPointer κS) (ServerClientHandlers ω))
    (hother : other.Reliable)
    (hhandlers : HandlersOk handlers (handlerApplication handlers address other))
    {b : ByteNet pl (onSides κC (HandlerPointer κS)) (onSides τC (ServerClientHandlers ω))}
    (hfresh : b.Fresh) {incomingRequest incomingObject incomingComplete : Option κC} {user : Nat}
    {app : τC}
    (hleft : (b.conn .left).app =
      Endpoint.start (pl .left) incomingRequest incomingObject incomingComplete user app)
    {h : ServerClientHandlers ω}
    (hright : (b.conn .right).app = Endpoint.server (pl .right) address h)
    (acts : List
      (ByteAct pl (onSides κC (HandlerPointer κS)) (onSides τC (ServerClientHandlers ω))))
    (hle : ((b.run (bothSides client (handlerApplication handlers address other)) acts).conn
      .left).app.requests.length ≤ 65535)
    (hidle : ((b.run (bothSides client (handlerApplication handlers address other)) acts).conn
      .right).app.requests = [])
    (hcount : ∀ r ∈
      ((b.run (bothSides client (handlerApplication handlers address other)) acts).conn
        .left).app.requests, r.object.properties.length ≤ 14)
    (hfilled : (b.run (bothSides client (handlerApplication handlers address other)) acts).Filled) :
    let b' := b.run (bothSides client (handlerApplication handlers address other)) acts
    ∀ number, 1 ≤ number → number ≤ (b'.conn .left).app.requests.length →
      Correlated (b'.conn .left).app (b'.conn .right).app.frames number ∧
        AnsweredOnce (b'.conn .left).app (b'.conn .right).app.frames number := by
  intro b' number hpos hnumber
  have hserver : (handlerApplication handlers address other).Reliable := hother
  obtain ⟨n, hendpoint, hcorrelates⟩ := exists_net_correlates
    (bothSides_reliable hclient hserver) (fun k answer hk hanswer => by
      cases hk
      exact hhandlers.answers_ok hanswer)
    hfresh (Net.correlates_init hleft hright) acts hle hidle hcount hfilled
  have hboth := hcorrelates.correlated hpos (by rw [hendpoint]; exact hnumber)
  rw [hendpoint, hendpoint] at hboth
  exact hboth

/-- A client and a server on the same platform, with nothing received. -/
def exampleNet : ByteNet (fun _ => .pc) (onSides Nat (HandlerPointer Empty))
    (onSides Unit (ServerClientHandlers Unit)) where
  conn
    | .left => .init 1024 64 (fun _ => 0) ⟨0, []⟩ (.start .pc none none none 0 ()) 0
    | .right => .init 1024 64 (fun _ => 0) ⟨0, []⟩ (.server .pc 4096 (serverHandlersInit ())) 0
  taken _ := 0

theorem fresh_exampleNet : exampleNet.Fresh := by
  constructor
  · intro s
    cases s <;> exact Conn.fresh_init _ _ _ _ _ _
  · exact fun s => Conn.placed_of_c rfl _
  · intro s
    cases s <;> rfl
  · intro s
    cases s <;> rfl
  · exact fun _ => rfl

/-- Two requests with the ID `a`, one right behind the other. -/
def exampleRequests : Unit → Script .pc Nat Unit Unit := fun _ =>
  let object := SendableObject.allocate .pc (fun _ => 0) 512
    [declareStrProperty ProtoObjectPropertyKey.id.code (handlerOfA ⟨none, []⟩).name]
    (by decide) (by decide)
  .request ⟨object, some 1, some 2, some 3⟩ fun _ =>
    .request ⟨object, some 4, some 5, some 6⟩ fun _ => .done () ()

/-- The client sends both before the server receives the first, and receives both
answers at once. -/
def exampleActs : List (ByteAct (fun _ => .pc) (onSides Nat (HandlerPointer Empty))
    (onSides Unit (ServerClientHandlers Unit))) :=
  [.script .left exampleRequests, .deliver .right 30, .deliver .right 30, .deliver .left 60]

/-- A server whose only handler returns a text. -/
def exampleServer : Application .pc (HandlerPointer Empty) (ServerClientHandlers Unit) :=
  handlerApplication [handlerOfA ⟨some emptyRequest, []⟩] 4096 (.quiet _ _ _)

/-- Both requests are answered.  The first answer is stale when it comes; the
second one reaches the callback of the second request. -/
theorem responses_correlated_two_requests :
    let b' := exampleNet.run (bothSides (.quiet _ Nat Unit) exampleServer) exampleActs
    (Correlated (b'.conn .left).app (b'.conn .right).app.frames 2 ∧
      AnsweredOnce (b'.conn .left).app (b'.conn .right).app.frames 2) ∧
      ((b'.conn .left).app.callsOf 1).map Invocation.made = [] ∧
      ((b'.conn .left).app.callsOf 2).map Invocation.made =
        [(some 6, .error emptyRequest.bytes)] := by
  have hok : HandlersOk [handlerOfA ⟨some emptyRequest, []⟩] exampleServer := by
    intro handler hmem h e
    rw [List.mem_singleton.mp hmem]
    exact ⟨by decide, by decide⟩
  have hleft : (exampleNet.conn .left).app = Endpoint.start .pc none none none 0 () := rfl
  have hright : (exampleNet.conn .right).app = Endpoint.server .pc 4096 (serverHandlersInit ()) :=
    rfl
  intro b'
  have hle : (b'.conn .left).app.requests.length ≤ 65535 := by decide +kernel
  have hidle : (b'.conn .right).app.requests = [] := List.isEmpty_iff.mp (by decide +kernel)
  have hcount : ∀ r ∈ (b'.conn .left).app.requests, r.object.properties.length ≤ 14 := by
    decide +kernel
  have hnumber : 2 ≤ (b'.conn .left).app.requests.length := by decide +kernel
  refine ⟨?_, ?_, ?_⟩
  · exact @responses_correlated (fun _ => .pc) Nat Unit Empty Unit (.quiet _ Nat Unit)
      (fun _ => rfl) [handlerOfA ⟨some emptyRequest, []⟩] 4096 (.quiet _ _ _) (fun _ => rfl) hok
      exampleNet fresh_exampleNet none none none 0 () hleft (serverHandlersInit ()) hright
      exampleActs hle hidle hcount (ByteNet.filled_of_c (fun _ => rfl) _) 2 (by decide) hnumber
  · decide +kernel
  · decide +kernel

end ZxProto
