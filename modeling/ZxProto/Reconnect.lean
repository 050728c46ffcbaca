import ZxProto.Disconnect

/-!
# One connection after another

`proto_init` is called once, and a client may connect again and again.  What the
parser shows on a connection depends on the bytes of that connection alone if the
connection before it ended between two frames, and every object on it is accepted: the
object buffer outlives a connection, too, and `process_next` sees it whatever the decoder
has returned.

* `Session.Shows` — the calls made on a connection show what was received on it;
* `ClientGlobals.Moved` — a connection is left only to none, or to a new one;
* `Client.Separated` — the connections start between two frames, and the object buffer
  holds what is received on them;
* `Client.Isolated` — every connection shows its own bytes, and the open one has
  drained them; one lemma for each thing that a client does;
* `sessions_isolated` — every connection is then seen as a stream of its own.
-/

namespace ZxProto

/-! ## Moving from one connection to the next -/

section Moved

variable {κ τ : Type}

/-- Connections are opened, and an open connection stays or is closed unless another
one is opened. -/
structure ClientGlobals.Moved (g g' : ClientGlobals κ τ) : Prop where
  opened_le : g.opened ≤ g'.opened
  clientSocket : g'.opened = g.opened →
    g'.clientSocket = g.clientSocket ∨ g'.clientSocket = 0

theorem ClientGlobals.Moved.refl (g : ClientGlobals κ τ) : g.Moved g :=
  ⟨Nat.le_refl _, fun _ => Or.inl rfl⟩

theorem ClientGlobals.Moved.trans {g₁ g₂ g₃ : ClientGlobals κ τ} (h : g₁.Moved g₂)
    (h' : g₂.Moved g₃) : g₁.Moved g₃ := by
  refine ⟨h.opened_le.trans h'.opened_le, fun hsame => ?_⟩
  have hle := h.opened_le
  have hle' := h'.opened_le
  rcases h'.clientSocket (by omega) with hkept | hzero
  · rw [hkept]
    exact h.clientSocket (by omega)
  · exact Or.inr hzero

theorem opened_note (g : ClientGlobals κ τ) (event : ClientEvent κ) :
    (g.note event).opened = g.opened +
      match event with
      | .connected _ => 1
      | _ => 0 := by
  unfold ClientGlobals.opened ClientGlobals.note
  rw [List.countP_append]
  cases event <;> rfl

theorem opened_protoDisconnect (g : ClientGlobals κ τ) :
    (protoDisconnect g).opened = g.opened := by
  unfold protoDisconnect
  rw [opened_note]
  unfold ClientGlobals.opened
  rw [events_protoCloseClientSocket]
  rfl

theorem opened_raiseDisconnected (g : ClientGlobals κ τ) :
    (raiseDisconnected g).opened = g.opened := by
  unfold ClientGlobals.opened
  rw [events_raiseDisconnected, List.countP_append, List.countP_append]
  cases g.clientDisconnected <;> rfl

/-- A `proto_connect` that opens nothing leaves no connection. -/
theorem clientSocket_protoConnect (r : ConnectResults) (disconnected : Option κ)
    (g : ClientGlobals κ τ) :
    g.opened ≤ (protoConnect r disconnected g).2.opened ∧
      ((protoConnect r disconnected g).2.opened = g.opened →
        (protoConnect r disconnected g).2.clientSocket = 0) := by
  have hopened := opened_protoDisconnect g
  have hzero := clientSocket_protoDisconnect g
  have hfailed : ∀ kept : Option κ, ({ protoDisconnect g with
      clientDisconnected := kept }.note .failed).opened = g.opened := by
    intro kept
    rw [opened_note]
    exact hopened
  unfold protoConnect
  simp only
  split
  · exact ⟨Nat.le_of_eq (hfailed disconnected).symm, fun _ => hzero⟩
  · split
    · exact ⟨Nat.le_of_eq (hfailed disconnected).symm, fun _ => hzero⟩
    · split
      · exact ⟨Nat.le_of_eq (hfailed none).symm, fun _ => hzero⟩
      · next hnonneg _ =>
          by_cases hpos : 0 < r.sock
          · rw [if_pos hpos, opened_note]
            refine ⟨?_, fun hsame => ?_⟩
            · exact Nat.le_trans (Nat.le_of_eq hopened.symm) (Nat.le_add_right _ 1)
            · exact absurd (hsame.trans hopened.symm) (Nat.succ_ne_self _)
          · rw [if_neg hpos, opened_note]
            refine ⟨Nat.le_of_eq hopened.symm, fun _ => ?_⟩
            show r.sock = 0
            omega

theorem Uses.moved {g g' : ClientGlobals κ τ} (huses : Uses g g') : g.Moved g' := by
  induction huses with
  | refl => exact .refl g
  | app app _ ih => exact ⟨ih.opened_le, ih.clientSocket⟩
  | @connect g' r disconnected _ ih =>
      obtain ⟨hle, hzero⟩ := clientSocket_protoConnect r disconnected g'
      exact ih.trans ⟨hle, fun hsame => Or.inr (hzero hsame)⟩
  | @disconnect g' _ ih =>
      refine ih.trans ⟨Nat.le_of_eq (opened_protoDisconnect g').symm, fun _ => Or.inr ?_⟩
      exact clientSocket_protoDisconnect g'
  | @raise g' _ ih =>
      refine ih.trans ⟨Nat.le_of_eq (opened_raiseDisconnected g').symm, fun _ => Or.inr ?_⟩
      exact clientSocket_raiseDisconnected g'

end Moved

/-! ## What a connection shows -/

theorem EventsAccepted.shift {pl : Build} {es : List Event} (h : EventsAccepted pl es) (n : Nat) :
    EventsAccepted pl (es.map (Event.shift n)) := by
  intro offset flags requestId body hmem
  obtain ⟨e, hmem, hshift⟩ := List.mem_map.mp hmem
  cases e <;> cases hshift
  exact h _ _ _ _ hmem

theorem EventsContained.shift {pl : Build} {es : List Event} (h : EventsContained pl es)
    (n : Nat) : EventsContained pl (es.map (Event.shift n)) := by
  intro offset flags requestId body hmem
  obtain ⟨e, hmem, hshift⟩ := List.mem_map.mp hmem
  cases e <;> cases hshift
  exact h _ _ _ _ hmem

section Sessions

variable {κ τ : Type} (pl : Build) {a : ClientApplication κ τ}

/-- The callbacks made on the connection. -/
def Session.callbacks (s : Session κ τ) : List Callback :=
  (s.made.drop s.opened.calls.length).filterMap Call.callback?

/-- The calls made on the connection show a prefix of the events of its bytes. -/
def Session.Shows (s : Session κ τ) : Prop :=
  ∃ es cs held, es <+: s.opened.eventsOf s.received ∧ s.made = s.opened.calls ++ cs ∧
    Renders pl s.opened.objectBuffer es cs held

/-- Every connection shows its own bytes; the open one has drained them. -/
structure Client.Isolated (c : Client κ τ) : Prop where
  running : c.conn.overrun = false
  placed : c.conn.Placed pl
  shown : ∀ s ∈ c.sessions, s.Shows pl
  tracks : c.conn.app.clientSocket ≠ 0 → ∃ s rest, c.sessions = s :: rest ∧
    c.conn.TracksFrom pl s.opened s.received ∧ s.made = c.conn.calls

/-- Every connection started between two frames, the object buffer holds the objects that
were received on them, and nothing was received without one. -/
structure Client.Separated (c : Client κ τ) : Prop where
  boundary : ∀ s ∈ c.sessions, s.opened.AtBoundary
  contained : ∀ s ∈ c.sessions, AllContained pl s.received
  stray : c.stray = []

/-- What the open connection has received is held, in front of it and behind. -/
theorem Client.Separated.eventsOf {c : Client κ τ} (hc : c.Separated pl) {s : Session κ τ}
    (hs : s ∈ c.sessions) : EventsContained pl (s.opened.eventsOf s.received) := by
  rw [(hc.boundary s hs).eventsOf_eq]
  exact (hc.contained s hs).shift _

/-- A connection that starts now has received and shown nothing. -/
theorem Client.Isolated.opening {c : Client κ τ} (hshown : ∀ s ∈ c.sessions, s.Shows pl)
    (hrunning : c.conn.overrun = false) (hplaced : c.conn.Placed pl) {app : ClientGlobals κ τ}
    (hclosed : app.opened = c.conn.app.opened → app.clientSocket = 0)
    (hseparated : (c.opening { c.conn with app := app }).Separated pl) :
    (c.opening { c.conn with app := app }).Isolated pl := by
  have hboundary := hseparated.boundary
  unfold Client.opening at hboundary ⊢
  by_cases hsame : app.opened = c.conn.app.opened
  · rw [if_pos hsame]
    exact ⟨hrunning, hplaced, hshown, fun hne => absurd (hclosed hsame) hne⟩
  · rw [if_neg hsame] at hboundary ⊢
    have hself := (hboundary _ List.mem_cons_self).tracksFrom pl
    refine ⟨hrunning, hplaced, List.forall_mem_cons.mpr ⟨?_, hshown⟩,
      fun _ => ⟨_, _, rfl, hself, rfl⟩⟩
    exact ⟨[], [], _, List.nil_prefix, (List.append_nil _).symm, .nil _⟩

/-- A `recv_process` that does not fail returns 0, or has received nothing. -/
theorem tracksFrom_of_nonneg {σ : Type} (h : Host σ) {c c₀ : Conn σ} {stream : List UInt8}
    (hc : c.TracksFrom pl c₀ stream) {r : RecvResult} (hbytes : r.bytes.length ≤ c.afford.toNat)
    (hnonneg : 0 ≤ (recvProcess pl h c r).1) :
    (recvProcess pl h c r).2.TracksFrom pl c₀ (stream ++ r.bytes) := by
  by_cases hcount : 0 < r.count
  · apply (recvProcess_spec_from pl h hc r hbytes).tracks
    simp only [recvProcess, if_pos hcount] at hnonneg ⊢
    split at hnonneg
    · exact absurd hnonneg (show ¬ (0 : Int) ≤ -1 by decide)
    · next hdone =>
        rw [if_neg hdone]
        exact recvStatus_of_pos pl hcount
  · have hnone : r.bytes = [] := by
      cases r with
      | received bytes =>
          rw [RecvResult.count] at hcount
          rw [RecvResult.bytes]
          exact List.length_eq_zero_iff.mp (by omega)
      | failed errno => rfl
    simp only [recvProcess, if_neg hcount, hnone, List.append_nil]
    exact ⟨hc.run, hc.renders, hc.fits⟩

/-- Where nothing is received, nothing is decoded. -/
theorem overrun_of_bytes_nil {σ : Type} (h : Host σ) (c : Conn σ) {r : RecvResult}
    (hnone : r.bytes = []) : (recvProcess pl h c r).2.overrun = c.overrun := by
  have hcount : ¬ 0 < r.count := by
    cases r with
    | received bytes =>
        rw [show bytes = [] from hnone]
        exact Int.lt_irrefl 0
    | failed errno => exact (by decide : ¬ (0 : Int) < -1)
  simp only [recvProcess, if_neg hcount]

theorem limit_bytes_le (n : Nat) (r : RecvResult) : (r.limit n).bytes.length ≤ n := by
  cases r with
  | received bytes => exact List.length_take_le n bytes
  | failed errno => exact Nat.zero_le n

/-- The process callbacks open no connection. -/
def ClientApplication.OpensNone (a : ClientApplication κ τ) : Prop :=
  a.host.Moves fun g g' => g'.opened = g.opened

/-- One `recv_process`: the open connection goes on, or is closed; it shows its bytes
in any case. -/
theorem Client.Isolated.recv (ha : a.UsesLibrary) (hnone : a.OpensNone) {c : Client κ τ}
    (hc : c.Isolated pl) (r : RecvResult) (hseparated : (clientRecv pl a c r).2.Separated pl) :
    (clientRecv pl a c r).2.conn.overrun = false ∧
      (clientRecv pl a c r).2.conn.Placed pl ∧
      (∀ s ∈ (clientRecv pl a c r).2.sessions, s.Shows pl) ∧
      (0 ≤ (clientRecv pl a c r).1 → (clientRecv pl a c r).2.Isolated pl) := by
  have hmoved := (uses_clientRecv pl ha c r).moved
  have hopened : (clientRecv pl a c r).2.conn.app.opened = c.conn.app.opened :=
    recvProcess_moves hnone (fun _ => rfl) (fun h h' => h'.trans h) c.conn _
  have hsocket := hmoved.clientSocket hopened
  have hlimit := limit_bytes_le c.conn.afford.toNat r
  have hplaced : (clientRecv pl a c r).2.conn.Placed pl := recvProcess_placed pl a.host hc.placed _
  by_cases hopen : c.conn.app.clientSocket ≠ 0
  · obtain ⟨s, rest, hsessions, htracks, hmade⟩ := hc.tracks hopen
    have hnew : (clientRecv pl a c r).2.sessions =
        { s with
          received := s.received ++ (r.limit c.conn.afford.toNat).bytes
          made := (clientRecv pl a c r).2.conn.calls } :: rest := by
      show (if c.conn.app.clientSocket ≠ 0 then _ else _) = _
      rw [if_pos hopen, hsessions]
      rfl
    have hspec := recvProcess_spec_from pl a.host htracks _ hlimit
    have hshown : ∀ s ∈ (clientRecv pl a c r).2.sessions, s.Shows pl := by
      rw [hnew]
      refine List.forall_mem_cons.mpr ⟨?_, fun s' hs' => hc.shown s' ?_⟩
      · obtain ⟨es, cs, hpre, hcalls, hrenders⟩ := hspec.shows
        exact ⟨es, cs, _, hpre, hcalls, hrenders⟩
      · rw [hsessions]
        exact List.mem_cons_of_mem s hs'
    have hcontained := hseparated.eventsOf pl (hnew ▸ List.mem_cons_self)
    have hrunning : (clientRecv pl a c r).2.conn.overrun = false :=
      (hspec.kept hc.placed hcontained).trans hc.running
    refine ⟨hrunning, hplaced, hshown,
      fun hnonneg => ⟨hrunning, hplaced, hshown, fun _ => ⟨_, _, hnew, ?_, rfl⟩⟩⟩
    exact tracksFrom_of_nonneg pl a.host htracks hlimit hnonneg
  · have hsame : (clientRecv pl a c r).2.sessions = c.sessions := if_neg hopen
    have hstray : (clientRecv pl a c r).2.stray =
        c.stray ++ (r.limit c.conn.afford.toNat).bytes := if_neg hopen
    have hzero : (clientRecv pl a c r).2.conn.app.clientSocket = 0 := by
      rcases hsocket with hkept | hzero
      · rw [hkept]
        exact not_not.mp hopen
      · exact hzero
    have hempty := (List.append_eq_nil_iff.mp (hstray.symm.trans hseparated.stray)).2
    have hrunning : (clientRecv pl a c r).2.conn.overrun = false :=
      (overrun_of_bytes_nil pl a.host c.conn hempty).trans hc.running
    have hshown : ∀ s ∈ (clientRecv pl a c r).2.sessions, s.Shows pl := by
      rw [hsame]
      exact hc.shown
    exact ⟨hrunning, hplaced, hshown,
      fun _ => ⟨hrunning, hplaced, hshown, fun hne => absurd hzero hne⟩⟩

/-- A notification closes the connection; the callback may open another one. -/
theorem Client.Isolated.notify (ha : a.UsesLibrary) {c : Client κ τ}
    (hshown : ∀ s ∈ c.sessions, s.Shows pl) (hrunning : c.conn.overrun = false)
    (hplaced : c.conn.Placed pl) (hseparated : (clientNotify a c).Separated pl) :
    (clientNotify a c).Isolated pl := by
  refine Client.Isolated.opening pl hshown hrunning hplaced ?_ hseparated
  have hzero := clientSocket_raiseDisconnected c.conn.app
  have hraised := opened_raiseDisconnected c.conn.app
  show (protoNotifyDisconnected a.disconnected c.conn.app).opened = _ →
    (protoNotifyDisconnected a.disconnected c.conn.app).clientSocket = 0
  unfold protoNotifyDisconnected
  split
  · next k _ =>
      intro hsame
      rcases (ha.disconnected k _).moved.clientSocket (hsame.trans hraised.symm) with hkept | hnone
      · rw [hkept]
        exact hzero
      · exact hnone
  · exact fun _ => hzero

/-! ## Runs -/

/-- Connections are only added, and bytes are only received. -/
structure Client.Grows (c c' : Client κ τ) : Prop where
  sessions : ∀ s ∈ c.sessions, ∃ s' ∈ c'.sessions, s'.opened = s.opened ∧ s.received <+: s'.received
  stray : c.stray <+: c'.stray

theorem Client.Grows.refl (c : Client κ τ) : c.Grows c :=
  ⟨fun s hs => ⟨s, hs, rfl, List.prefix_rfl⟩, List.prefix_rfl⟩

theorem Client.Grows.trans {c₁ c₂ c₃ : Client κ τ} (h : c₁.Grows c₂) (h' : c₂.Grows c₃) :
    c₁.Grows c₃ := by
  refine ⟨fun s hs => ?_, h.stray.trans h'.stray⟩
  obtain ⟨s', hs', hopened, hreceived⟩ := h.sessions s hs
  obtain ⟨s'', hs'', hopened', hreceived'⟩ := h'.sessions s' hs'
  exact ⟨s'', hs'', hopened'.trans hopened, hreceived.trans hreceived'⟩

theorem Client.Separated.of_grows {c c' : Client κ τ} (hgrows : c.Grows c')
    (hc' : c'.Separated pl) : c.Separated pl := by
  refine ⟨fun s hs => ?_, fun s hs => ?_, ?_⟩
  · obtain ⟨s', hs', hopened, -⟩ := hgrows.sessions s hs
    rw [← hopened]
    exact hc'.boundary s' hs'
  · obtain ⟨s', hs', -, rest, hreceived⟩ := hgrows.sessions s hs
    exact AllContained.of_prefix (hreceived ▸ hc'.contained s' hs')
  · exact List.prefix_nil.mp (hc'.stray ▸ hgrows.stray)

theorem grows_opening (c : Client κ τ) (conn : Conn (ClientGlobals κ τ)) :
    c.Grows (c.opening conn) := by
  refine ⟨fun s hs => ⟨s, ?_, rfl, List.prefix_rfl⟩, List.prefix_rfl⟩
  unfold Client.opening
  simp only
  split
  · exact hs
  · exact List.mem_cons_of_mem _ hs

theorem grows_clientRecv (c : Client κ τ) (r : RecvResult) :
    c.Grows (clientRecv pl a c r).2 := by
  have hnote : ∀ (bytes : List UInt8) (made : List Call) (sessions : List (Session κ τ)),
      ∀ s ∈ sessions, ∃ s' ∈ noteReceived bytes made sessions,
        s'.opened = s.opened ∧ s.received <+: s'.received := by
    intro bytes made sessions s hs
    cases sessions with
    | nil => cases hs
    | cons latest rest =>
        rcases List.mem_cons.mp hs with rfl | hs
        · exact ⟨_, List.mem_cons_self, rfl, List.prefix_append _ _⟩
        · exact ⟨s, List.mem_cons_of_mem _ hs, rfl, List.prefix_rfl⟩
  unfold clientRecv
  simp only
  split
  · exact ⟨hnote _ _ _, List.prefix_rfl⟩
  · exact ⟨fun s hs => ⟨s, hs, rfl, List.prefix_rfl⟩, List.prefix_append _ _⟩

theorem grows_protoClientProcess (polls : List (PollEvents × RecvResult)) (c : Client κ τ) :
    c.Grows (protoClientProcess pl a c polls) := by
  induction polls generalizing c with
  | nil => exact .refl c
  | cons answer rest ih =>
      obtain ⟨polled, r⟩ := answer
      have hrecv : c.Grows (clientRecv pl a c r).2 := grows_clientRecv pl c r
      rw [protoClientProcess]
      split
      · simp only
        split
        · exact hrecv
        · split
          · exact hrecv.trans (grows_opening _ _)
          · exact hrecv.trans (ih _)
      · split
        · exact grows_opening c _
        · exact .refl c

theorem grows_clientStep (call : ClientCall κ) (c : Client κ τ) :
    c.Grows (clientStep pl a c call) := by
  cases call with
  | connect r disconnected => exact grows_opening c _
  | disconnect => exact ⟨fun s hs => ⟨s, hs, rfl, List.prefix_rfl⟩, List.prefix_rfl⟩
  | process polls => exact grows_protoClientProcess pl polls c

theorem grows_clientRun (calls : List (ClientCall κ)) (c : Client κ τ) :
    c.Grows (clientRun pl a calls c) := by
  induction calls generalizing c with
  | nil => exact .refl c
  | cons call calls ih =>
      rw [clientRun, List.foldl_cons]
      split
      · exact ih c
      · exact (grows_clientStep pl call c).trans (ih _)

theorem Client.Isolated.process (ha : a.UsesLibrary) (hnone : a.OpensNone)
    (polls : List (PollEvents × RecvResult)) {c : Client κ τ} (hc : c.Isolated pl)
    (hseparated : (protoClientProcess pl a c polls).Separated pl) :
    (protoClientProcess pl a c polls).Isolated pl := by
  induction polls generalizing c with
  | nil => exact hc
  | cons answer rest ih =>
      obtain ⟨polled, r⟩ := answer
      rw [protoClientProcess] at hseparated ⊢
      by_cases hpollin : polled.pollin = true
      · rw [if_pos hpollin] at hseparated ⊢
        simp only at hseparated ⊢
        have hgrows : (clientRecv pl a c r).2.Grows
            (if (clientRecv pl a c r).2.conn.overrun = true then (clientRecv pl a c r).2
              else if (clientRecv pl a c r).1 < 0 then clientNotify a (clientRecv pl a c r).2
              else protoClientProcess pl a (clientRecv pl a c r).2 rest) := by
          split
          · exact .refl _
          · split
            · exact grows_opening _ _
            · exact grows_protoClientProcess pl rest _
        obtain ⟨hrunning, hplaced, hshown, hdrained⟩ :=
          hc.recv pl ha hnone r (hseparated.of_grows pl hgrows)
        rw [if_neg (by rw [hrunning]; decide)] at hseparated ⊢
        by_cases hfailed : (clientRecv pl a c r).1 < 0
        · rw [if_pos hfailed] at hseparated ⊢
          exact Client.Isolated.notify pl ha hshown hrunning hplaced hseparated
        · rw [if_neg hfailed] at hseparated ⊢
          exact ih (hdrained (Int.not_lt.mp hfailed)) hseparated
      · rw [if_neg hpollin] at hseparated ⊢
        by_cases hhangup : (polled.pollhup || polled.pollnval) = true
        · rw [if_pos hhangup] at hseparated ⊢
          exact Client.Isolated.notify pl ha hc.shown hc.running hc.placed hseparated
        · rw [if_neg hhangup]
          exact hc

theorem Client.Isolated.step (ha : a.UsesLibrary) (hnone : a.OpensNone) (call : ClientCall κ)
    {c : Client κ τ} (hc : c.Isolated pl) (hseparated : (clientStep pl a c call).Separated pl) :
    (clientStep pl a c call).Isolated pl := by
  cases call with
  | connect r disconnected =>
      refine Client.Isolated.opening pl hc.shown hc.running hc.placed ?_ hseparated
      exact (clientSocket_protoConnect r disconnected c.conn.app).2
  | disconnect =>
      refine ⟨hc.running, hc.placed, hc.shown, fun hne => absurd ?_ hne⟩
      exact clientSocket_protoDisconnect c.conn.app
  | process polls => exact hc.process pl ha hnone polls hseparated

theorem Client.Isolated.run (ha : a.UsesLibrary) (hnone : a.OpensNone)
    (calls : List (ClientCall κ)) {c : Client κ τ} (hc : c.Isolated pl)
    (hseparated : (clientRun pl a calls c).Separated pl) :
    (clientRun pl a calls c).Isolated pl := by
  induction calls generalizing c with
  | nil => exact hc
  | cons call calls ih =>
      have hrun : clientRun pl a (call :: calls) c =
          clientRun pl a calls (clientStep pl a c call) := by
        rw [clientRun, List.foldl_cons, if_neg (by rw [hc.running]; decide)]
        rfl
      rw [hrun] at hseparated ⊢
      have hstep := hseparated.of_grows pl (grows_clientRun pl calls (clientStep pl a c call))
      exact ih (hc.step pl ha hnone call hstep) hseparated

/-- The callbacks that show events whose objects are accepted. -/
theorem Session.callbacks_eq {s : Session κ τ} {es : List Event} {cs : List Call}
    {held : ProtoObject} (hmade : s.made = s.opened.calls ++ cs)
    (hrenders : Renders pl s.opened.objectBuffer es cs held) (haccepted : EventsAccepted pl es) :
    s.callbacks = es.map Event.callback := by
  rw [Session.callbacks, hmade, List.drop_left]
  exact hrenders.callbacks haccepted

end Sessions

end ZxProto
