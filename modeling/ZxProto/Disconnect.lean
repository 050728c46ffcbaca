import ZxProto.Callbacks

/-!
# The client's connection

`proto_connect`, `proto_disconnect` and `proto_client_process` of the Spectrum build.
They share two globals, `client_socket` and `client_disconnected`, with each other
and with every callback that `proto_client_process` makes.

* `ClientGlobals` — the globals, with a ghost record of what happened to connections;
* `protoConnect`, `protoDisconnect`, `protoNotifyDisconnected` — on the globals;
* `Uses` — what a callback may do to the globals;
* `Client`, `protoClientProcess` — the loop over `poll_fd` and `recv_process`, with a
  ghost record of the connections and of what was received on each;
* `Lawful` — the disconnected callback is invoked as documented;
* `lawful_iff_notifiedConnected` — which runs are lawful.
-/

namespace ZxProto

/-! ## The globals -/

/-- What happens to connections. -/
inductive ClientEvent (κ : Type)
  /-- `proto_connect` has returned a descriptor. -/
  | connected (disconnected : Option κ)
  /-- `proto_connect` has failed. -/
  | failed
  /-- `proto_disconnect` has closed the connection, if there was one. -/
  | closed
  /-- `proto_notify_disconnected` is called, with these values of the globals. -/
  | notifying (socket : Int) (disconnected : Option κ)
  /-- The disconnected callback is invoked. -/
  | notified (disconnected : κ)
deriving DecidableEq

/-- The globals of `proto.c`, and those of the application. -/
structure ClientGlobals (κ τ : Type) where
  clientSocket : Int
  clientDisconnected : Option κ
  app : τ
  /-- Ghost: what has happened so far. -/
  events : List (ClientEvent κ)

/-- The globals at the start of the program. -/
def ClientGlobals.init (κ : Type) {τ : Type} (app : τ) : ClientGlobals κ τ where
  clientSocket := 0
  clientDisconnected := none
  app := app
  events := []

/-- What the network stack answers to `proto_connect`. -/
structure ConnectResults where
  /-- `gethostbyname` has found the host. -/
  found : Bool
  /-- What `socket` returns. -/
  sock : Int
  /-- What `connect` returns. -/
  connected : Int

section Globals

variable {κ τ : Type}

/-- Ghost: something happens to a connection. -/
def ClientGlobals.note (event : ClientEvent κ) (g : ClientGlobals κ τ) : ClientGlobals κ τ :=
  { g with events := g.events ++ [event] }

/-- `proto_close_client_socket`. -/
def protoCloseClientSocket (g : ClientGlobals κ τ) : ClientGlobals κ τ :=
  if g.clientSocket ≠ 0 then { g with clientSocket := 0 } else g

/-- `proto_disconnect`. -/
def protoDisconnect (g : ClientGlobals κ τ) : ClientGlobals κ τ :=
  (protoCloseClientSocket g).note .closed

/-- `proto_connect`.  A descriptor is greater than 0, which stands for no
connection. -/
def protoConnect (r : ConnectResults) (disconnected : Option κ) (g : ClientGlobals κ τ) :
    Int × ClientGlobals κ τ :=
  let g := { protoDisconnect g with clientDisconnected := disconnected }
  if r.found = false then
    (-1, g.note .failed)
  else if r.sock < 0 then
    (-2, g.note .failed)
  else if r.connected < 0 then
    -- the only failure that takes the callback back
    (-3, { g with clientDisconnected := none }.note .failed)
  else
    (r.sock, { g with clientSocket := r.sock }.note
      (if 0 < r.sock then .connected disconnected else .failed))

/-- `proto_notify_disconnected`, up to the callback. -/
def raiseDisconnected (g : ClientGlobals κ τ) : ClientGlobals κ τ :=
  let closed := protoCloseClientSocket (g.note (.notifying g.clientSocket g.clientDisconnected))
  match closed.clientDisconnected with
  | some k => closed.note (.notified k)
  | none => closed

/-- `proto_notify_disconnected`; `run` is the code behind the function pointers. -/
def protoNotifyDisconnected (run : κ → ClientGlobals κ τ → ClientGlobals κ τ)
    (g : ClientGlobals κ τ) : ClientGlobals κ τ :=
  match g.clientDisconnected with
  | some k => run k (raiseDisconnected g)
  | none => raiseDisconnected g

/-- What a callback may do to the globals: run code of the application and call the
library, which may notify in turn. -/
inductive Uses (g : ClientGlobals κ τ) : ClientGlobals κ τ → Prop
  | refl : Uses g g
  | app {g' : ClientGlobals κ τ} (app : τ) (h : Uses g g') : Uses g { g' with app := app }
  | connect {g' : ClientGlobals κ τ} (r : ConnectResults) (disconnected : Option κ)
      (h : Uses g g') : Uses g (protoConnect r disconnected g').2
  | disconnect {g' : ClientGlobals κ τ} (h : Uses g g') : Uses g (protoDisconnect g')
  | raise {g' : ClientGlobals κ τ} (h : Uses g g') : Uses g (raiseDisconnected g')

theorem Uses.trans {g₁ g₂ g₃ : ClientGlobals κ τ} (h : Uses g₁ g₂) (h' : Uses g₂ g₃) :
    Uses g₁ g₃ := by
  induction h' with
  | refl => exact h
  | app app _ ih => exact ih.app app
  | connect r disconnected _ ih => exact ih.connect r disconnected
  | disconnect _ ih => exact ih.disconnect
  | raise _ ih => exact ih.raise

end Globals

/-! ## The client -/

/-- An application: the callbacks of `proto_client_process`, and the code behind the
disconnected callbacks. -/
structure ClientApplication (κ τ : Type) where
  host : Host (ClientGlobals κ τ)
  disconnected : κ → ClientGlobals κ τ → ClientGlobals κ τ

/-- All that the callbacks do to the globals, they do through the library. -/
structure ClientApplication.UsesLibrary {κ τ : Type} (a : ClientApplication κ τ) : Prop where
  host : a.host.Moves Uses
  disconnected : ∀ k g, Uses g (a.disconnected k g)

/-- What `poll_fd` answers. -/
structure PollEvents where
  pollin : Bool
  pollhup : Bool
  pollnval : Bool

/-- What `recv` gives when it is offered room for `n` bytes. -/
def RecvResult.limit (n : Nat) : RecvResult → RecvResult
  | .received bytes => .received (bytes.take n)
  | .failed errno => .failed errno

/-- Ghost: a connection, from the `proto_connect` that opened it on. -/
structure Session (κ τ : Type) where
  /-- The parser and the globals when `proto_connect` returned. -/
  opened : Conn (ClientGlobals κ τ)
  /-- What `recv` has delivered on the connection. -/
  received : List UInt8
  /-- The calls of `process` when the last `recv_process` on it returned. -/
  made : List Call

/-- The client: `process_proto`, the buffers and the globals, with a ghost record of
its connections, the latest first, and of what `recv` has delivered without one. -/
structure Client (κ τ : Type) where
  conn : Conn (ClientGlobals κ τ)
  sessions : List (Session κ τ)
  stray : List UInt8

section Client

variable {κ τ : Type} (pl : Build) (a : ClientApplication κ τ)

/-- How many connections were opened so far. -/
def ClientGlobals.opened (g : ClientGlobals κ τ) : Nat :=
  g.events.countP fun event =>
    match event with
    | .connected _ => true
    | _ => false

/-- Ghost: a session begins if a connection was opened since `c`. -/
def Client.opening (c : Client κ τ) (conn : Conn (ClientGlobals κ τ)) : Client κ τ where
  conn := conn
  sessions :=
    if conn.app.opened = c.conn.app.opened then c.sessions else ⟨conn, [], conn.calls⟩ :: c.sessions
  stray := c.stray

/-- Ghost: bytes were received on the latest connection. -/
def noteReceived (bytes : List UInt8) (made : List Call) :
    List (Session κ τ) → List (Session κ τ)
  | [] => []
  | session :: rest =>
      { session with received := session.received ++ bytes, made := made } :: rest

/-- One `recv_process` of the client.  A descriptor of 0 is no connection, though
`poll_fd` and `recv` may take it for one. -/
def clientRecv (c : Client κ τ) (r : RecvResult) : Int × Client κ τ :=
  let r := r.limit c.conn.afford.toNat
  let called := recvProcess pl a.host c.conn r
  (called.1,
    { conn := called.2
      sessions :=
        if c.conn.app.clientSocket ≠ 0 then noteReceived r.bytes called.2.calls c.sessions
        else c.sessions
      stray := if c.conn.app.clientSocket ≠ 0 then c.stray else c.stray ++ r.bytes })

/-- `proto_notify_disconnected`, on the whole client. -/
def clientNotify (c : Client κ τ) : Client κ τ :=
  c.opening { c.conn with app := protoNotifyDisconnected a.disconnected c.conn.app }

/-- `proto_client_process`, given what `poll_fd` answers and what `recv` would give.
Behind the last answer there are no events.  The client is followed up to a decoder that
writes outside of its buffer or does not return. -/
def protoClientProcess (c : Client κ τ) : List (PollEvents × RecvResult) → Client κ τ
  | [] => c
  | (polled, r) :: rest =>
      if polled.pollin then
        let called := clientRecv pl a c r
        if called.2.conn.overrun then called.2
        else if called.1 < 0 then clientNotify a called.2
        else protoClientProcess called.2 rest
      else if polled.pollhup || polled.pollnval then
        clientNotify a c
      else
        c

/-- A call of the client. -/
inductive ClientCall (κ : Type)
  | connect (r : ConnectResults) (disconnected : Option κ)
  | disconnect
  | process (polls : List (PollEvents × RecvResult))

/-- One call. -/
def clientStep (c : Client κ τ) : ClientCall κ → Client κ τ
  | .connect r disconnected =>
      c.opening { c.conn with app := (protoConnect r disconnected c.conn.app).2 }
  | .disconnect => { c with conn := { c.conn with app := protoDisconnect c.conn.app } }
  | .process polls => protoClientProcess pl a c polls

/-- A run, up to a call that does not return. -/
def clientRun (calls : List (ClientCall κ)) (c : Client κ τ) : Client κ τ :=
  calls.foldl (fun c call => if c.conn.overrun then c else clientStep pl a c call) c

/-- The client at the start of the program, behind `proto_init`. -/
structure Client.Fresh (c : Client κ τ) : Prop where
  conn : c.conn.Fresh
  globals : ∃ app, c.conn.app = ClientGlobals.init κ app
  sessions : c.sessions = []
  stray : c.stray = []

end Client

/-! ## What the documentation says -/

section Law

variable {κ τ : Type} [DecidableEq κ]

/-- The callback that may still be invoked, if any, behind an event; nothing where
the event invokes another one. -/
def ClientEvent.deliver (due : Option κ) : ClientEvent κ → Option (Option κ)
  | .connected disconnected => some disconnected
  | .failed => some none
  | .closed => some none
  | .notifying _ _ => some due
  | .notified k => if due = some k then some none else none

/-- The callback that may still be invoked, as long as all went well. -/
def callbackDue (events : List (ClientEvent κ)) : Option (Option κ) :=
  events.foldlM (fun due event => event.deliver due) none

/-- The disconnected callback is invoked at most once for each connection, as it was
registered for it, not behind `proto_disconnect`, and not behind a `proto_connect`
that failed. -/
def Lawful (events : List (ClientEvent κ)) : Prop :=
  (callbackDue events).isSome

instance (events : List (ClientEvent κ)) : Decidable (Lawful events) :=
  inferInstanceAs (Decidable (_ = true))

omit [DecidableEq κ] in
/-- Whenever `proto_notify_disconnected` was called, there was a connection or no
callback. -/
def NotifiedConnected (events : List (ClientEvent κ)) : Prop :=
  ∀ socket disconnected, .notifying socket disconnected ∈ events →
    socket ≠ 0 ∨ disconnected = none

theorem callbackDue_append (events : List (ClientEvent κ)) (event : ClientEvent κ) :
    callbackDue (events ++ [event]) = (callbackDue events).bind fun due => event.deliver due := by
  unfold callbackDue
  rw [List.foldlM_append]
  cases events.foldlM (fun due event => event.deliver due) none with
  | none => rfl
  | some d =>
      show ((event.deliver d).bind fun due => some due) = event.deliver d
      cases event.deliver d <;> rfl

omit [DecidableEq κ] in
theorem notifiedConnected_append (events : List (ClientEvent κ)) (event : ClientEvent κ) :
    NotifiedConnected (events ++ [event]) ↔
      NotifiedConnected events ∧ NotifiedConnected [event] := by
  unfold NotifiedConnected
  simp only [List.mem_append]
  constructor
  · intro h
    exact ⟨fun s k hmem => h s k (Or.inl hmem), fun s k hmem => h s k (Or.inr hmem)⟩
  · rintro ⟨h, h'⟩ s k (hmem | hmem)
    · exact h s k hmem
    · exact h' s k hmem

/-! ## The invariant -/

omit [DecidableEq κ] in
/-- The callback of the connection, if there is one. -/
def ClientGlobals.standing (g : ClientGlobals κ τ) : Option κ :=
  if g.clientSocket ≠ 0 then g.clientDisconnected else none

/-- The callback that may be invoked is that of the connection, as long as every
notification found a connection; behind one that did not, the law is broken. -/
def ClientGlobals.Consistent (g : ClientGlobals κ τ) : Prop :=
  (callbackDue g.events = some g.standing ∧ NotifiedConnected g.events) ∨
    (callbackDue g.events = none ∧ ¬ NotifiedConnected g.events)

theorem ClientGlobals.Consistent.lawful_iff {g : ClientGlobals κ τ} (hg : g.Consistent) :
    Lawful g.events ↔ NotifiedConnected g.events := by
  unfold Lawful
  rcases hg with ⟨hdue, hall⟩ | ⟨hdue, hnot⟩
  · rw [hdue]
    exact iff_of_true rfl hall
  · rw [hdue]
    exact iff_of_false (by simp) hnot

/-- What is broken stays broken. -/
theorem ClientGlobals.Consistent.note_broken {g g' : ClientGlobals κ τ} {event : ClientEvent κ}
    (hdue : callbackDue g.events = none) (hnot : ¬ NotifiedConnected g.events)
    (hevents : g'.events = g.events ++ [event]) :
    callbackDue g'.events = none ∧ ¬ NotifiedConnected g'.events := by
  rw [hevents, callbackDue_append, hdue, notifiedConnected_append]
  exact ⟨rfl, fun h => hnot h.1⟩

/-- An event after which `standing` is what the law says. -/
theorem ClientGlobals.Consistent.note {g g' : ClientGlobals κ τ} (hg : g.Consistent)
    (event : ClientEvent κ) (hevents : g'.events = g.events ++ [event])
    (hdeliver : event.deliver g.standing = some g'.standing)
    (hother : NotifiedConnected [event]) : g'.Consistent := by
  rcases hg with ⟨hdue, hall⟩ | ⟨hdue, hnot⟩
  · refine Or.inl ⟨?_, ?_⟩
    · rw [hevents, callbackDue_append, hdue]
      exact hdeliver
    · rw [hevents, notifiedConnected_append]
      exact ⟨hall, hother⟩
  · exact Or.inr (note_broken hdue hnot hevents)

omit [DecidableEq κ] in
theorem notifiedConnected_singleton {event : ClientEvent κ}
    (hother : ∀ socket disconnected, event ≠ .notifying socket disconnected) :
    NotifiedConnected [event] := by
  intro socket disconnected hmem
  exact absurd (List.mem_singleton.mp hmem).symm (hother socket disconnected)

section Closing

omit [DecidableEq κ]

@[simp] theorem events_protoCloseClientSocket (g : ClientGlobals κ τ) :
    (protoCloseClientSocket g).events = g.events := by
  unfold protoCloseClientSocket
  split <;> rfl

@[simp] theorem clientDisconnected_protoCloseClientSocket (g : ClientGlobals κ τ) :
    (protoCloseClientSocket g).clientDisconnected = g.clientDisconnected := by
  unfold protoCloseClientSocket
  split <;> rfl

@[simp] theorem clientSocket_protoCloseClientSocket (g : ClientGlobals κ τ) :
    (protoCloseClientSocket g).clientSocket = 0 := by
  unfold protoCloseClientSocket
  split
  · rfl
  · next hzero => exact not_not.mp hzero

theorem standing_of_zero {g : ClientGlobals κ τ} (hzero : g.clientSocket = 0) :
    g.standing = none :=
  if_neg (not_not.mpr hzero)

@[simp] theorem clientSocket_protoDisconnect (g : ClientGlobals κ τ) :
    (protoDisconnect g).clientSocket = 0 :=
  clientSocket_protoCloseClientSocket g

theorem clientSocket_raiseDisconnected (g : ClientGlobals κ τ) :
    (raiseDisconnected g).clientSocket = 0 := by
  unfold raiseDisconnected
  simp only
  split <;> exact clientSocket_protoCloseClientSocket _

/-- The events of a notification. -/
theorem events_raiseDisconnected (g : ClientGlobals κ τ) :
    (raiseDisconnected g).events =
      g.events ++ [.notifying g.clientSocket g.clientDisconnected] ++
        (g.clientDisconnected.map ClientEvent.notified).toList := by
  unfold raiseDisconnected
  simp only [clientDisconnected_protoCloseClientSocket]
  have hcallback : (g.note (.notifying g.clientSocket g.clientDisconnected)).clientDisconnected =
      g.clientDisconnected := rfl
  rw [hcallback]
  cases g.clientDisconnected with
  | none => simp [ClientGlobals.note]
  | some k => simp [ClientGlobals.note]

end Closing

/-! ## One step -/

theorem ClientGlobals.Consistent.protoDisconnect {g : ClientGlobals κ τ} (hg : g.Consistent) :
    (protoDisconnect g).Consistent := by
  apply hg.note .closed
  · show (protoCloseClientSocket g).events ++ [.closed] = _
    rw [events_protoCloseClientSocket]
  · rw [standing_of_zero (clientSocket_protoDisconnect g)]
    rfl
  · exact notifiedConnected_singleton fun _ _ heq => by cases heq

theorem ClientGlobals.Consistent.protoConnect {g : ClientGlobals κ τ} (hg : g.Consistent)
    (r : ConnectResults) (disconnected : Option κ) :
    (protoConnect r disconnected g).2.Consistent := by
  have hclosed := hg.protoDisconnect
  have hzero := clientSocket_protoDisconnect g
  -- a failure leaves no connection, whatever it leaves in `client_disconnected`
  have hfailed : ∀ kept : Option κ, ({ ZxProto.protoDisconnect g with
      clientDisconnected := kept }.note .failed).Consistent := by
    intro kept
    apply hclosed.note .failed rfl
    · rw [standing_of_zero hzero]
      exact congrArg some (standing_of_zero (by exact hzero)).symm
    · exact notifiedConnected_singleton fun _ _ heq => by cases heq
  unfold ZxProto.protoConnect
  simp only
  split
  · exact hfailed disconnected
  · split
    · exact hfailed disconnected
    · split
      · exact hfailed none
      · next hnonneg _ =>
          by_cases hpos : 0 < r.sock
          · rw [if_pos hpos]
            apply hclosed.note (.connected disconnected) rfl
            · have hne : r.sock ≠ 0 := Int.ne_of_gt hpos
              show some disconnected = some (if r.sock ≠ 0 then disconnected else none)
              rw [if_pos hne]
            · exact notifiedConnected_singleton fun _ _ heq => by cases heq
          -- 0 stands for no connection
          · rw [if_neg hpos]
            apply hclosed.note .failed rfl
            · have hsock : r.sock = 0 := by omega
              rw [standing_of_zero hzero]
              exact congrArg some (standing_of_zero (by exact hsock)).symm
            · exact notifiedConnected_singleton fun _ _ heq => by cases heq

/-- A notification without a connection breaks the law, and every other one keeps it. -/
theorem ClientGlobals.Consistent.raiseDisconnected {g : ClientGlobals κ τ}
    (hg : g.Consistent) : (raiseDisconnected g).Consistent := by
  have hevents := events_raiseDisconnected g
  have hstanding := standing_of_zero (clientSocket_raiseDisconnected g)
  let g₁ := g.note (.notifying g.clientSocket g.clientDisconnected)
  cases hk : g.clientDisconnected with
  | none =>
      rw [hk] at hevents
      apply hg.note _ (hevents.trans (List.append_nil _))
      · have hnone : g.standing = none := by
          unfold ClientGlobals.standing
          rw [hk, ite_self]
        rw [hstanding, hnone]
        rfl
      · intro socket disconnected hmem
        cases List.mem_singleton.mp hmem
        exact Or.inr rfl
  | some k =>
      rw [hk] at hevents
      by_cases hsocket : g.clientSocket ≠ 0
      · have hnotifying : g₁.Consistent := by
          apply hg.note (.notifying g.clientSocket g.clientDisconnected) rfl
          · rfl
          · intro socket disconnected hmem
            cases List.mem_singleton.mp hmem
            exact Or.inl hsocket
        have hdue : g₁.standing = some k := (if_pos hsocket).trans hk
        apply hnotifying.note (.notified k)
        · rw [hevents]
          simp [g₁, ClientGlobals.note, hk]
        · rw [hstanding, hdue]
          exact if_pos rfl
        · exact notifiedConnected_singleton fun _ _ heq => by cases heq
      · -- there is no connection, and the callback is invoked all the same
        have hnot : ¬ NotifiedConnected (g.events ++ [.notifying g.clientSocket (some k)]) := by
          intro hall
          rcases hall _ _ (List.mem_append_right _ List.mem_cons_self) with hne | hnone
          · exact hsocket hne
          · cases hnone
        have hbroken : callbackDue (ZxProto.raiseDisconnected g).events = none := by
          rw [hevents, Option.map_some, Option.toList_some, callbackDue_append, callbackDue_append]
          rcases hg with ⟨hdue, -⟩ | ⟨hdue, -⟩
          · rw [hdue, standing_of_zero (not_not.mp hsocket)]
            rfl
          · rw [hdue]
            rfl
        refine Or.inr ⟨hbroken, ?_⟩
        rw [hevents, Option.map_some, Option.toList_some, notifiedConnected_append]
        exact fun hall => hnot hall.1

theorem ClientGlobals.Consistent.uses {g g' : ClientGlobals κ τ} (hg : g.Consistent)
    (huses : Uses g g') : g'.Consistent := by
  induction huses with
  | refl => exact hg
  | app app _ ih => exact ih
  | connect r disconnected _ ih => exact ih.protoConnect r disconnected
  | disconnect _ ih => exact ih.protoDisconnect
  | raise _ ih => exact ih.raiseDisconnected

/-! ## Runs -/

variable (pl : Build) {a : ClientApplication κ τ}

omit [DecidableEq κ] in
theorem uses_clientNotify (ha : a.UsesLibrary) (c : Client κ τ) :
    Uses c.conn.app (clientNotify a c).conn.app := by
  have hraised : Uses c.conn.app (raiseDisconnected c.conn.app) := Uses.refl.raise
  show Uses c.conn.app (protoNotifyDisconnected a.disconnected c.conn.app)
  unfold protoNotifyDisconnected
  split
  · exact hraised.trans (ha.disconnected _ _)
  · exact hraised

omit [DecidableEq κ] in
theorem uses_clientRecv (ha : a.UsesLibrary) (c : Client κ τ) (r : RecvResult) :
    Uses c.conn.app (clientRecv pl a c r).2.conn.app :=
  recvProcess_moves ha.host (fun _ => .refl) Uses.trans c.conn _

omit [DecidableEq κ] in
theorem uses_protoClientProcess (ha : a.UsesLibrary) (polls : List (PollEvents × RecvResult))
    (c : Client κ τ) : Uses c.conn.app (protoClientProcess pl a c polls).conn.app := by
  induction polls generalizing c with
  | nil => exact .refl
  | cons answer rest ih =>
      obtain ⟨polled, r⟩ := answer
      have hrecv := uses_clientRecv pl ha c r
      rw [protoClientProcess]
      split
      · simp only
        split
        · exact hrecv
        · split
          · exact hrecv.trans (uses_clientNotify ha _)
          · exact hrecv.trans (ih _)
      · split
        · exact uses_clientNotify ha c
        · exact .refl

omit [DecidableEq κ] in
theorem uses_clientStep (ha : a.UsesLibrary) (call : ClientCall κ) (c : Client κ τ) :
    Uses c.conn.app (clientStep pl a c call).conn.app := by
  cases call with
  | connect r disconnected => exact Uses.refl.connect r disconnected
  | disconnect => exact Uses.refl.disconnect
  | process polls => exact uses_protoClientProcess pl ha polls c

theorem ClientGlobals.Consistent.run (ha : a.UsesLibrary) (calls : List (ClientCall κ))
    {c : Client κ τ} (hc : c.conn.app.Consistent) :
    (clientRun pl a calls c).conn.app.Consistent := by
  induction calls generalizing c with
  | nil => exact hc
  | cons call calls ih =>
      rw [clientRun, List.foldl_cons]
      split
      · exact ih hc
      · exact ih (hc.uses (uses_clientStep pl ha call c))

/-- **Disconnect notification.**  In every run of the client from the start of the
program, with any results of the network stack, and with callbacks that connect and
disconnect as they like: the disconnected callback is invoked at most once for each
successful `proto_connect`, as registered with it, not behind `proto_disconnect` and
not behind a `proto_connect` that failed, if and only if `proto_notify_disconnected`
is never called without a connection while a callback is set. -/
theorem lawful_iff_notifiedConnected (ha : a.UsesLibrary) (calls : List (ClientCall κ))
    {c : Client κ τ} (hc : c.Fresh) :
    let events := (clientRun pl a calls c).conn.app.events
    Lawful events ↔ NotifiedConnected events := by
  obtain ⟨app, happ⟩ := hc.globals
  have hstart : c.conn.app.Consistent := by
    rw [happ]
    exact Or.inl ⟨rfl, fun _ _ hmem => absurd hmem List.not_mem_nil⟩
  exact (hstart.run pl ha calls).lawful_iff

end Law

/-- An application that does nothing. -/
def ClientApplication.quiet : ClientApplication Unit Unit where
  host :=
    { startRequest := fun _ g => g
      nextObject := fun _ _ _ g => g
      completeRequest := fun _ g => (none, g)
      send := fun bytes g => (bytes.length, g) }
  disconnected _ g := g

theorem ClientApplication.quiet_usesLibrary : ClientApplication.quiet.UsesLibrary :=
  ⟨⟨fun _ _ => .refl, fun _ _ _ _ => .refl, fun _ _ => .refl, fun _ _ => .refl⟩,
    fun _ _ => .refl⟩

/-- Its client, with a buffer of 32 bytes. -/
def quietClient : Client Unit Unit where
  conn := Conn.init 64 32 (fun _ => 0) ⟨0, []⟩ (ClientGlobals.init Unit ()) 0
  sessions := []
  stray := []

theorem quietClient_fresh : quietClient.Fresh :=
  ⟨Conn.fresh_init _ _ _ _ _ _, ⟨(), rfl⟩, rfl, rfl⟩

/-- A connection that the other side closes. -/
theorem lawful_one_hangup :
    let calls : List (ClientCall Unit) := [.connect ⟨true, 1, 0⟩ (some ()),
      .process [(⟨true, false, false⟩, .received [0, 6]), (⟨false, true, false⟩, .failed 0)]]
    let events := (clientRun .spectrum .quiet calls quietClient).conn.app.events
    events = [.closed, .connected (some ()), .notifying 1 (some ()), .notified ()] ∧
      Lawful events := by
  intro calls events
  have hevents : events =
      [.closed, .connected (some ()), .notifying 1 (some ()), .notified ()] := by decide +kernel
  refine ⟨hevents, ?_⟩
  apply (lawful_iff_notifiedConnected .spectrum ClientApplication.quiet_usesLibrary calls
    quietClient_fresh).mpr
  show NotifiedConnected events
  rw [hevents]
  intro socket disconnected hmem
  simp only [List.mem_cons, reduceCtorEq, ClientEvent.notifying.injEq, List.not_mem_nil, or_false,
    false_or] at hmem
  rw [hmem.1]
  exact Or.inl (by decide)

/-- The main loop polls on when the connection is gone, and `poll_fd` reports an
invalid descriptor: the callback is invoked a second time. -/
theorem not_lawful_second_poll :
    let calls : List (ClientCall Unit) := [.connect ⟨true, 1, 0⟩ (some ()),
      .process [(⟨false, true, false⟩, .failed 0)], .process [(⟨false, false, true⟩, .failed 0)]]
    let events := (clientRun .spectrum .quiet calls quietClient).conn.app.events
    ¬ Lawful events ∧
      events.filter (fun event => event = .notified ()) = [.notified (), .notified ()] := by
  decide +kernel

end ZxProto
