import ZxProto.CallPhases
import ZxProto.ServerMemory

/-!
# The server on its heap

The server of the request layer keeps objects and responses as values.  Its callbacks on the heap,
where objects are copied and released and responses are a linked list, do the same: along every
stream of requests they hand the same bytes to the socket.

* `Socket`, `protoSend_view`, `protoSendOne_view` — what the two models send on;
* `serveCallbacks` — the callbacks of `process` on the heap, with its error replies;
* `Mirrors` — the heap mirrors the endpoint; `Mirrors.react`, one callback, and
  `Mirrors.serveCallbacks`, a run;
* `serveOnHeap_refines` — the result for a connection.
-/

namespace ZxProto

open ByteMemory BlockHeap BlockHeap.Program

/-! ## The socket -/

/-- A socket: the number of calls of `send`, and the bytes that it took. -/
structure Socket where
  sends : Nat
  wire : List UInt8

/-- `send`. -/
def Socket.send (accepts : Nat → Bool) (bytes : List UInt8) (s : Socket) : Int × Socket :=
  if accepts s.sends then
    (bytes.length, ⟨s.sends + 1, s.wire ++ bytes⟩)
  else
    (-1, ⟨s.sends + 1, s.wire⟩)

/-- The socket of an endpoint. -/
def Endpoint.socket {pl : Platform} {κ τ : Type} (e : Endpoint pl κ τ) : Socket where
  sends := e.sends
  wire := e.wire

section View

variable {σ ρ : Type} (pl : Platform) {send : List UInt8 → σ → Int × σ}
  {send' : List UInt8 → ρ → Int × ρ} {view : σ → ρ}
  (hview : ∀ bytes s, send' bytes (view s) = ((send bytes s).1, view (send bytes s).2))

include hview

/-- What is sent depends on the state only as far as `send` does. -/
theorem sendObjects_view (objects : List OwnedObject) (s : σ) :
    sendObjects pl send' objects (view s) =
      ((sendObjects pl send objects s).1, view (sendObjects pl send objects s).2) := by
  induction objects generalizing s with
  | nil => rfl
  | cons object objects ih =>
      simp only [sendObjects, hview]
      split
      · rfl
      · exact ih _

theorem protoSend_view (objects : List OwnedObject) (amount : UInt8) (requestId : UInt16)
    (flags : UInt8) (s : σ) :
    protoSend pl send' objects amount requestId flags (view s) =
      ((protoSend pl send objects amount requestId flags s).1,
        view (protoSend pl send objects amount requestId flags s).2) := by
  simp only [protoSend, hview, sendObjects_view pl hview]
  split <;> split <;> rfl

theorem protoSendOne_view (o : OwnedObject) (requestId : UInt16) (flags : UInt8) (s : σ) :
    protoSendOne pl send' o requestId flags (view s) =
      ((protoSendOne pl send o requestId flags s).1,
        view (protoSendOne pl send o requestId flags s).2) := by
  simp only [protoSendOne, hview]
  split <;> rfl

end View

theorem Endpoint.send_view {pl : Platform} {κ τ : Type} (a : Application pl κ τ)
    (bytes : List UInt8) (e : Endpoint pl κ τ) :
    Socket.send a.accepts bytes e.socket =
      ((Endpoint.send a bytes e).1, (Endpoint.send a bytes e).2.socket) := by
  unfold Socket.send Endpoint.send Endpoint.socket
  dsimp only
  split <;> rfl

/-! ## The callbacks on the heap -/

section Server

variable {pl : Platform} {ω σ : Type}

/-- A callback of a request. -/
def Callback.OfRequest : Callback → Prop
  | .startRequest flags _ _ => ¬ IsResponse flags
  | .next flags _ _ => ¬ IsResponse flags
  | .completeRequest flags _ => ¬ IsResponse flags

instance (callback : Callback) : Decidable callback.OfRequest :=
  match callback with
  | .startRequest flags _ _ => inferInstanceAs (Decidable (¬ IsResponse flags))
  | .next flags _ _ => inferInstanceAs (Decidable (¬ IsResponse flags))
  | .completeRequest flags _ => inferInstanceAs (Decidable (¬ IsResponse flags))

/-- The object of a callback can be copied. -/
def Callback.Copies : Callback → Prop
  | .next _ _ contents => Copyable contents
  | _ => True

/-- Objects that the decoder accepts can be copied. -/
theorem Renders.copies {b : Build} {held held' : ProtoObject} {es : List Event} {cs : List Call}
    (hrenders : Renders b held es cs held') (haccepted : EventsAccepted b es) :
    ∀ callback ∈ cs.filterMap Call.callback?, callback.Copies := by
  induction hrenders with
  | nil => exact fun callback hmem => absurd hmem List.not_mem_nil
  | startRequest offset flags size requestId _ ih =>
      exact List.forall_mem_cons.mpr ⟨trivial, ih (haccepted.mono (List.subset_cons_self _ _))⟩
  | @object _ _ _ _ offset flags requestId objectSize mem bufferFrom read hread _ ih =>
      refine List.forall_mem_cons.mpr ⟨?_, ih (haccepted.mono (List.subset_cons_self _ _))⟩
      have hbody := haccepted _ _ _ _ List.mem_cons_self
      obtain ⟨-, -, hparse⟩ := hbody.read hread
      obtain ⟨hfits, -⟩ := (accepted_iff_of_parse hparse).mp hbody
      have hlength : (bodyBytes (read.object.contents mem)).length = objectSize.toNat := by
        rw [bodyBytes_of_parseProperties hparse, length_slice]
      refine ⟨?_, hlength ▸ objectSize.toNat_lt⟩
      -- a table in 128 bytes has fewer than 128 pointers
      have hpointers := Nat.le_mul_of_pos_right ((read.object.contents mem).length + 1)
        b.pointerSize_pos
      unfold TableFits at hfits
      omega
  | completeRequest offset flags requestId _ ih =>
      exact List.forall_mem_cons.mpr ⟨trivial, ih (haccepted.mono (List.subset_cons_self _ _))⟩

/-- A callback of a request at the server, and the error reply of `process` if there is a text. -/
def serveCallback (send : List UInt8 → σ → Int × σ) (handlers : List (HeapHandler pl ω σ))
    (h : StoredRequest ω) : Callback → ServerProgram pl ω σ (StoredRequest ω)
  | .startRequest _ _ _ => clientRequestNewStored h
  | .next _ _ contents => clientRequestNewObjectStored contents h
  | .completeRequest _ requestId => do
      let text ← clientRequestCompleteStored send handlers h requestId
      match text with
      | none => pure h
      | some text => do
          let _status ← performRest (protoSendOne pl send (errorObject pl text) requestId
            (protoFlagError ||| protoFlagResponse))
          pure h

/-- The callbacks along a connection. -/
def serveCallbacks (send : List UInt8 → σ → Int × σ) (handlers : List (HeapHandler pl ω σ)) :
    StoredRequest ω → List Callback → ServerProgram pl ω σ (StoredRequest ω)
  | h, [] => pure h
  | h, callback :: callbacks => do
      let h ← serveCallback send handlers h callback
      serveCallbacks send handlers h callbacks

/-! ## The two servers -/

variable {κ : Type} {table : List (NamedResult pl ω)} {address : Nat}
  {other : Application pl (HandlerPointer κ) (ServerClientHandlers ω)}

variable (table address other) in
/-- The application of the endpoint: the same handlers, as values. -/
def resultApplication : Application pl (HandlerPointer κ) (ServerClientHandlers ω) :=
  handlerApplication (table.map RequestHandler.ofResult) address other

/-- The array points at copies of what the endpoint holds, and the sockets were handed the same
bytes. -/
structure Mirrors (address : Nat) (before : BlockHeap.Heap (HeapBlock pl)) (r : StoredRequest ω)
    (s : BlockHeap.Heap (HeapBlock pl) × ServerState pl ω Socket)
    (e : Endpoint pl (HandlerPointer κ) (ServerClientHandlers ω)) : Prop where
  stores : Stores before r e.app s
  socket : s.2.rest = e.socket
  attached : Attached address e

/-- Such a handler answers, and leaves the struct alone. -/
theorem exists_done (table : List (NamedResult pl ω)) (h : ServerClientHandlers ω) :
    ∃ answer, clientRequestComplete
      (table.map (RequestHandler.ofResult (κ := κ))) h = .done answer h := by
  rcases requestedHandler_ofResult Unit κ table h with
    ⟨text, -, hdispatch⟩ | ⟨entry, -, -, hdispatch⟩
  · exact ⟨.text text, by rw [clientRequestComplete, hdispatch]⟩
  · exact ⟨(entry.2 h).answer, by rw [clientRequestComplete, hdispatch]; rfl⟩

/-- What a complete request hands to the socket: the answer, or the error reply. -/
theorem socket_complete {τ : Type} {a : Application pl κ τ} {e e₁ : Endpoint pl κ τ}
    {flags : UInt8} {requestId : UInt16} {answer : Answer pl}
    (hreceived : protoReqRecv a flags requestId e = e₁.answer a requestId answer) :
    (e.complete a flags requestId).socket =
      answer.text?.elim (answer.sendWith (Socket.send a.accepts) requestId e₁.socket) fun text =>
        (protoSendOne pl (Socket.send a.accepts) (errorObject pl text) requestId
          (protoFlagError ||| protoFlagResponse) e₁.socket).2 := by
  rw [Endpoint.complete, hreceived]
  cases answer with
  | nothing => rfl
  | text text =>
      have hview := protoSendOne_view pl (Endpoint.send_view a) (errorObject pl text) requestId
        (protoFlagError ||| protoFlagResponse) (e₁.noteReply flags requestId text)
      exact (congrArg Prod.snd hview).symm
  | objects objects =>
      have hview := protoSend_view pl (Endpoint.send_view a)
        (objects.map SendableObject.object) (UInt8.ofNat objects.length) requestId
        protoFlagResponse (e₁.note (.answer (.objects objects)) protoFlagResponse requestId
          ((sentObjects objects).map fun object => sentBody pl object.object))
      exact (congrArg Prod.snd hview).symm

variable {before : BlockHeap.Heap (HeapBlock pl)} {r : StoredRequest ω}
  {s : BlockHeap.Heap (HeapBlock pl) × ServerState pl ω Socket}
  {e : Endpoint pl (HandlerPointer κ) (ServerClientHandlers ω)}

/-- A request completes. -/
theorem Mirrors.completion (h : Mirrors address before r s e) (hclean : TableClean table)
    {flags : UInt8} (hrequest : ¬ IsResponse flags) (requestId : UInt16) :
    ∃ s', (serveCallback (Socket.send other.accepts) (table.map HeapHandler.ofResult) r
        (.completeRequest flags requestId)).run s = (some r, s') ∧
      Mirrors address before r s'
        (e.react (resultApplication table address other) (.completeRequest flags requestId)) := by
  obtain ⟨answer, hdone⟩ := exists_done (κ := HandlerPointer κ) table e.app
  have hreceived : protoReqRecv (resultApplication table address other) flags requestId e =
      Endpoint.answer (resultApplication table address other) requestId
        { e.completing flags requestId with app := e.app } answer :=
    h.attached.protoReqRecv_of_done hrequest requestId hdone
  obtain ⟨hprocessor, happ⟩ := complete_of_answer hreceived
  have hsocket := socket_complete hreceived
  obtain ⟨s', hrun, hstores, hrest⟩ := h.stores.clientRequestComplete
    (Socket.send other.accepts) requestId hclean (resultApplication table address other) e
  rw [hdone] at hrun hrest
  rw [h.socket] at hrest
  change (clientRequestCompleteStored _ _ _ _).run s = (some answer.text?, s') at hrun
  change s'.2.rest = answer.sendWith _ requestId e.socket at hrest
  have hstores' : Stores before r
      (e.complete (resultApplication table address other) flags requestId).app s' :=
    happ.symm ▸ hstores
  have hattached : Attached address
      (e.complete (resultApplication table address other) flags requestId) :=
    hprocessor.trans h.attached
  cases htext : answer.text? with
  | none =>
      rw [htext] at hrun hsocket
      refine ⟨s', ?_, hstores', hrest.trans hsocket.symm, hattached⟩
      rw [serveCallback]
      exact (run_bind_of_some hrun).trans rfl
  | some text =>
      have hsilent : s'.2.rest = e.socket := by
        rw [hrest]
        cases answer with
        | nothing => rfl
        | text text => rfl
        | objects objects => cases htext
      rw [htext] at hrun hsocket
      refine ⟨(s'.1, { s'.2 with rest := (protoSendOne pl (Socket.send other.accepts)
          (errorObject pl text) requestId (protoFlagError ||| protoFlagResponse) s'.2.rest).2 }),
        ?_, hstores'.keeps (.refl _), ?_, hattached⟩
      · rw [serveCallback]
        exact (run_bind_of_some hrun).trans rfl
      · rw [hsilent]
        exact hsocket.symm

variable (other) in
/-- A callback of a request. -/
theorem Mirrors.react (h : Mirrors address before r s e) (hclean : TableClean table)
    {callback : Callback} (hrequest : callback.OfRequest) (hcopies : callback.Copies) :
    ∃ r' s', (serveCallback (Socket.send other.accepts) (table.map HeapHandler.ofResult) r
        callback).run s = (some r', s') ∧
      Mirrors address before r' s' (e.react (resultApplication table address other) callback) := by
  cases callback with
  | startRequest flags size requestId =>
      obtain ⟨r', s', hrun, hstores, hstate⟩ := h.stores.clientRequestNew
      refine ⟨r', s', hrun, ?_⟩
      rw [resultApplication, h.attached.react_header_of_handlers hrequest]
      refine ⟨hstores, ?_, h.attached⟩
      rw [hstate, h.socket]
      rfl
  | next flags requestId contents =>
      obtain ⟨r', s', hrun, hstores, hstate⟩ := h.stores.clientRequestNewObject hcopies
      refine ⟨r', s', hrun, ?_⟩
      rw [resultApplication, h.attached.react_object_of_handlers hrequest]
      refine ⟨hstores, ?_, h.attached⟩
      rw [hstate, h.socket]
      rfl
  | completeRequest flags requestId =>
      obtain ⟨s', hrun, hmirrors⟩ := h.completion hclean hrequest requestId
      exact ⟨r, s', hrun, hmirrors⟩

variable (other) in
/-- The callbacks of requests. -/
theorem Mirrors.serveCallbacks (h : Mirrors address before r s e) (hclean : TableClean table)
    {callbacks : List Callback} (hrequests : ∀ callback ∈ callbacks, callback.OfRequest)
    (hcopies : ∀ callback ∈ callbacks, callback.Copies) :
    ∃ r' s', (ZxProto.serveCallbacks (Socket.send other.accepts)
        (table.map HeapHandler.ofResult) r callbacks).run s = (some r', s') ∧
      Mirrors address before r' s'
        (e.run (resultApplication table address other) (callbacks.map .callback)) := by
  induction callbacks generalizing r s e with
  | nil => exact ⟨r, s, rfl, h⟩
  | cons callback callbacks ih =>
      obtain ⟨hcallback, hrequests⟩ := List.forall_mem_cons.mp hrequests
      obtain ⟨hcopy, hcopies⟩ := List.forall_mem_cons.mp hcopies
      obtain ⟨r₁, s₁, hrun, h₁⟩ := h.react other hclean hcallback hcopy
      obtain ⟨r', s', hserve, h'⟩ := ih h₁ hrequests hcopies
      exact ⟨r', s', (run_bind_of_some hrun).trans hserve, h'⟩

theorem mirrors_server (clientUser : ω)
    {s : BlockHeap.Heap (HeapBlock pl) × ServerState pl ω Socket} (hsocket : s.2.rest = ⟨0, []⟩) :
    Mirrors address s.1 (storedInit clientUser) s
      (.server pl address (serverHandlersInit clientUser) :
        Endpoint pl (HandlerPointer κ) (ServerClientHandlers ω)) where
  stores := stores_init clientUser
  socket := hsocket
  attached := rfl

/-- **The heap makes no difference to a connection.**  Requests whose objects the decoder accepts
arrive in whatever pieces, and whatever `send` returns: the callbacks on the heap run to their end,
the bytes that were handed to the socket are those of the endpoint, and what has come onto the heap
is what the array points at, copies of the objects that the endpoint holds. -/
theorem serveOnHeap_refines (hclean : TableClean table) (clientUser : ω)
    {c : Conn (Endpoint pl (HandlerPointer κ) (ServerClientHandlers ω))} (hfresh : c.Fresh)
    (happ : c.app = .server pl address (serverHandlersInit clientUser)) {rs : List RecvResult}
    (hfits : Fits pl (reqHost (resultApplication table address other)) c rs)
    (haccepted : AllAccepted pl (received rs))
    (s : BlockHeap.Heap (HeapBlock pl) × ServerState pl ω Socket)
    (hsocket : s.2.rest = ⟨0, []⟩) :
    let c' := (recvAll pl (reqHost (resultApplication table address other)) c rs).2
    (∀ callback ∈ c'.callbacks, callback.OfRequest) →
      ∃ r s', (ZxProto.serveCallbacks (Socket.send other.accepts)
          (table.map HeapHandler.ofResult) (storedInit clientUser) c'.callbacks).run s =
            (some r, s') ∧
        Stores s.1 r c'.app.app s' ∧ s'.2.rest = c'.app.socket := by
  intro c' hrequests
  obtain ⟨cbs, hcallbacks, hrun⟩ :=
    recvAll_run pl (resultApplication table address other) c rs
  have hnone : c.callbacks = [] := by
    obtain ⟨processBuffer, processBufferSize, mem, objectBuffer, app, errno, rfl⟩ := hfresh
    rfl
  rw [hnone, List.nil_append] at hcallbacks
  have hall : c'.callbacks = cbs := hcallbacks
  have hcopies : ∀ callback ∈ c'.callbacks, callback.Copies := by
    have hshows := ((recvAll_spec pl _ (hfresh.atBoundary.tracksFrom pl) hfits).shows).shows
      pl hfresh
    obtain ⟨es, held, hpre, hrenders⟩ := hshows
    exact hrenders.copies (haccepted.mono hpre.subset)
  rw [hall] at hrequests hcopies ⊢
  rw [happ] at hrun
  obtain ⟨r, s', hserve, hmirrors⟩ :=
    (mirrors_server clientUser hsocket).serveCallbacks other hclean hrequests hcopies
  rw [← hrun] at hmirrors
  exact ⟨r, s', hserve, hmirrors.stores, hmirrors.socket⟩

end Server

/-- A connection of a server with one handler. -/
def storedConn : Conn (Endpoint .pc (HandlerPointer Empty) (ServerClientHandlers Unit)) :=
  .init 64 64 (fun _ => 0) ⟨0, []⟩ (.server .pc 4096 (serverHandlersInit ())) 0

/-- A request for the handler, and one for nobody, which is answered with a text. -/
theorem serveOnHeap_refines_two :
    let other := Application.quiet .pc (HandlerPointer Empty) (ServerClientHandlers Unit)
    let s : BlockHeap.Heap (HeapBlock .pc) × ServerState .pc Unit Socket :=
      (.empty (.bytes []), .init ⟨0, []⟩)
    let c' := (recvAll .pc (reqHost (resultApplication storedTable 4096 other)) storedConn
      [.received [0, 6, 0, 1, 0, 4, 0, 1, 0, 2],
        .received [97, 0, 6, 0, 2, 0, 4, 0, 1, 0, 2, 98]]).2
    c'.callbacks.length = 6 ∧ c'.app.sends = 2 ∧
      ∃ r s', (serveCallbacks (Socket.send other.accepts) (storedTable.map HeapHandler.ofResult)
          (storedInit ()) c'.callbacks).run s = (some r, s') ∧
        Stores s.1 r c'.app.app s' ∧ s'.2.rest = c'.app.socket := by
  intro other s c'
  refine ⟨by decide +kernel, by decide +kernel, ?_⟩
  exact serveOnHeap_refines tableClean_storedTable () ⟨_, _, _, _, _, _, rfl⟩ rfl
    (by decide +kernel) (by decide +kernel) s rfl (by decide +kernel)

end ZxProto
