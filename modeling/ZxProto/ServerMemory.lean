import ZxProto.ResponseRuns
import ZxProto.ServerObjects

/-!
# The memory of a server

The objects of a request are copies on the heap.  `client_request_new` releases those of the
last request, `client_request_new_object` makes new ones, and `client_request_complete` and the
handler read them.  The array of the pointers is on the stack of the loop that serves a
connection.

* `StoredRequest` — the array: pointers, and nothing of the objects;
* `serveStored`, `acceptLoop` — the callbacks along a connection, and connection after
  connection; what they know of the objects they load from the blocks;
* `Stores`, `Stores.clientRequestComplete` — along a connection, what is live is what the array
  points at, and these blocks hold the objects that the model without a heap has;
* `serveStored_accounted` — at the end of a connection, every other block has been released;
* `acceptLoop_leaks`, `leftBehind_storedSteps` — what is left behind by the connections.
-/

namespace ZxProto

open BlockHeap BlockHeap.Program

section Memory

variable {pl : Platform} {ω σ : Type}

/-! ## The callbacks -/

/-- `struct server_client_handlers_t`: the pointers in `objects`, as many as `objects_num` says. -/
structure StoredRequest (ω : Type) where
  blocks : List Nat
  blocks_le : blocks.length ≤ maxReceivingObjects
  clientUser : ω

/-- `server_handlers_init`. -/
def storedInit (clientUser : ω) : StoredRequest ω where
  blocks := []
  blocks_le := Nat.zero_le _
  clientUser := clientUser

/-- `free_client_state_recv_objects`: the loop. -/
def freeClientStateRecvObjects : List Nat → ServerProgram pl ω σ Unit
  | [] => pure ()
  | block :: blocks => do
      free block
      freeClientStateRecvObjects blocks

/-- `client_request_new`. -/
def clientRequestNewStored (h : StoredRequest ω) : ServerProgram pl ω σ (StoredRequest ω) := do
  freeClientStateRecvObjects h.blocks
  pure (storedInit h.clientUser)

theorem length_blocks_append {h : StoredRequest ω} (hroom : ¬ h.blocks.length ≥ maxReceivingObjects)
    (block : Nat) : (h.blocks ++ [block]).length ≤ maxReceivingObjects := by
  rw [List.length_append, List.length_singleton]
  omega

/-- What `proto_object_copy` makes room for: it counts the properties in 8 bits, and the size field
has 16. -/
structure Copyable (object : List Property) : Prop where
  length_le : object.length ≤ 255
  size_lt : (bodyBytes object).length < 65536

instance (object : List Property) : Decidable (Copyable object) :=
  decidable_of_iff (object.length ≤ 255 ∧ (bodyBytes object).length < 65536)
    ⟨fun h => ⟨h.1, h.2⟩, fun h => ⟨h.length_le, h.size_lt⟩⟩

/-- `proto_object_copy`, on the heap; the block is shown as the bytes of the properties in it. -/
def protoObjectCopyStored (object : List Property) : ServerProgram pl ω σ Nat :=
  if Copyable object then malloc (.bytes (bodyBytes object)) else fault

/-- `client_request_new_object`. -/
def clientRequestNewObjectStored (object : List Property) (h : StoredRequest ω) :
    ServerProgram pl ω σ (StoredRequest ω) :=
  if hroom : h.blocks.length ≥ maxReceivingObjects then
    pure h
  else do
    let block ← protoObjectCopyStored object
    pure
      { blocks := h.blocks ++ [block]
        blocks_le := length_blocks_append hroom block
        clientUser := h.clientUser }

/-- The object in a block. -/
def HeapBlock.copied? : HeapBlock pl → Option (List Property)
  | .bytes copy => parseProperties copy
  | _ => none

/-- Reading the objects; a block that is not live, or holds no object, is a fault. -/
def readStored : (blocks : List Nat) →
    ServerProgram pl ω σ {objects : List (List Property) // objects.length = blocks.length}
  | [] => pure ⟨[], rfl⟩
  | block :: blocks => do
      let stored ← load block
      match stored.copied? with
      | none => fault
      | some object => do
          let objects ← readStored blocks
          pure ⟨object :: objects.1, congrArg (· + 1) objects.2⟩

/-- `client_request_complete`: the library and the handler see what is in the blocks. -/
def clientRequestCompleteStored (send : List UInt8 → σ → Int × σ)
    (handlers : List (HeapHandler pl ω σ)) (h : StoredRequest ω) (requestId : UInt16) :
    ServerProgram pl ω σ (Option CString) := do
  let objects ← readStored h.blocks
  clientRequestCompleteOnHeap send handlers
    { objects := objects.1
      objects_le := objects.2.trans_le h.blocks_le
      clientUser := h.clientUser }
    requestId

/-- What happens at a server: a callback, or something that is not on its heap. -/
inductive StoredStep (σ : Type)
  | newRequest
  | newObject (object : List Property)
  | complete (requestId : UInt16)
  | other (f : σ → σ)

/-- An object that arrives can be copied. -/
def StoredStep.Copies : StoredStep σ → Prop
  | .newObject object => Copyable object
  | _ => True

/-- The program of a step. -/
def StoredStep.program (send : List UInt8 → σ → Int × σ) (handlers : List (HeapHandler pl ω σ))
    (h : StoredRequest ω) : StoredStep σ → ServerProgram pl ω σ (StoredRequest ω)
  | .newRequest => clientRequestNewStored h
  | .newObject object => clientRequestNewObjectStored object h
  | .complete requestId => do
      let _text ← clientRequestCompleteStored send handlers h requestId
      pure h
  | .other f => do
      performRest fun rest => ((), f rest)
      pure h

/-- A connection. -/
def serveStored (send : List UInt8 → σ → Int × σ) (handlers : List (HeapHandler pl ω σ)) :
    StoredRequest ω → List (StoredStep σ) → ServerProgram pl ω σ (StoredRequest ω)
  | h, [] => pure h
  | h, step :: steps => do
      let h ← step.program send handlers h
      serveStored send handlers h steps

/-- The accept loop: for each connection a struct of its own, which is gone at the end. -/
def acceptLoop (send : List UInt8 → σ → Int × σ) (handlers : List (HeapHandler pl ω σ))
    (clientUser : ω) : List (List (StoredStep σ)) → ServerProgram pl ω σ Unit
  | [] => pure ()
  | steps :: connections => do
      let _h ← serveStored send handlers (storedInit clientUser) steps
      acceptLoop send handlers clientUser connections

/-! ## The same callbacks without a heap -/

/-- What a step makes of the struct. -/
def StoredStep.act (h : ServerClientHandlers ω) : StoredStep σ → ServerClientHandlers ω
  | .newRequest => clientRequestNew h
  | .newObject object => clientRequestNewObject object h
  | .complete _ => h
  | .other _ => h

/-- The struct at the end of a connection. -/
def actSteps (h : ServerClientHandlers ω) (steps : List (StoredStep σ)) : ServerClientHandlers ω :=
  steps.foldl StoredStep.act h

/-! ## A connection -/

variable {h : BlockHeap.Heap (HeapBlock pl)} (state : ServerState pl ω σ)

/-- A block with a copy of the object. -/
def HoldsCopy (h : BlockHeap.Heap (HeapBlock pl)) (block : Nat) (object : List Property) : Prop :=
  h.contents block = .bytes (bodyBytes object)

/-- Since `before`, the blocks that the array points at have come, and nothing else has changed;
they hold the objects of the request, in order, and they differ. -/
structure Stores (before : BlockHeap.Heap (HeapBlock pl)) (r : StoredRequest ω)
    (request : ServerClientHandlers ω) (s : BlockHeap.Heap (HeapBlock pl) × ServerState pl ω σ) :
    Prop where
  adds : before.Adds r.blocks.toFinset s.1
  nodup : r.blocks.Nodup
  copies : List.Forall₂ (HoldsCopy s.1) r.blocks request.objects
  clientUser : r.clientUser = request.clientUser

theorem holdsCopies_congr {h' : BlockHeap.Heap (HeapBlock pl)} {blocks : List Nat}
    {objects : List (List Property)}
    (hsame : ∀ block ∈ blocks, h'.contents block = h.contents block)
    (hcopies : List.Forall₂ (HoldsCopy h) blocks objects) :
    List.Forall₂ (HoldsCopy h') blocks objects :=
  ((List.forall₂_and_left blocks objects).mpr ⟨hsame, hcopies⟩).imp
    fun _ _ hboth => hboth.1.trans hboth.2

theorem run_freeClientStateRecvObjects {blocks : List Nat} (hnodup : blocks.Nodup)
    (hblocks : ∀ block ∈ blocks, block ∈ h.live) :
    ∃ h', (freeClientStateRecvObjects blocks).run (h, state) = (some (), (h', state)) ∧
      h.Drops blocks.toFinset h' := by
  induction blocks generalizing h with
  | nil => exact ⟨h, rfl, .refl h⟩
  | cons block blocks ih =>
      obtain ⟨hnotMem, hnodup⟩ := List.nodup_cons.mp hnodup
      have hmem := hblocks block List.mem_cons_self
      obtain ⟨h', hrun, hdrops⟩ := ih (h := h.release block hmem) hnodup fun other hother =>
        Finset.mem_erase.mpr
          ⟨fun heq => hnotMem (heq ▸ hother), hblocks other (List.mem_cons_of_mem block hother)⟩
      refine ⟨h', ?_, ?_, hdrops.contents, hdrops.next_le⟩
      · rw [freeClientStateRecvObjects, run_bind_of_some (run_free_of_mem hmem), hrun]
      · rw [hdrops.live, Heap.live_release]
        ext a
        simp only [Finset.mem_sdiff, Finset.mem_erase, List.mem_toFinset, List.mem_cons, not_or]
        tauto

theorem run_readStored {blocks : List Nat} {objects : List (List Property)}
    (hblocks : ∀ block ∈ blocks, block ∈ h.live)
    (hcopies : List.Forall₂ (HoldsCopy h) blocks objects) :
    ∃ hlength, (readStored blocks).run (h, state) = (some ⟨objects, hlength⟩, (h, state)) := by
  induction hcopies with
  | nil => exact ⟨rfl, rfl⟩
  | @cons block object blocks objects hcopy _ ih =>
      obtain ⟨hlength, hrun⟩ := ih fun other hother =>
        hblocks other (List.mem_cons_of_mem block hother)
      have hobject : (h.contents block).copied? = some object := by
        rw [hcopy]
        exact parseProperties_bodyBytes object
      refine ⟨congrArg (· + 1) hlength, ?_⟩
      rw [readStored, run_bind_of_some (run_load_of_mem (hblocks block List.mem_cons_self)),
        hobject]
      dsimp only
      rw [run_bind_of_some hrun]
      rfl

/-- The handlers of a table allocate what they append, and return NULL or append nothing. -/
def TableClean (table : List (NamedResult pl ω)) : Prop :=
  ∀ entry ∈ table, ∀ request, (entry.2 request).Clean

variable {before : BlockHeap.Heap (HeapBlock pl)} {r : StoredRequest ω}
  {request : ServerClientHandlers ω} {table : List (NamedResult pl ω)}
  (send : List UInt8 → σ → Int × σ) (requestId : UInt16)
  {s : BlockHeap.Heap (HeapBlock pl) × ServerState pl ω σ}

/-- The array points at live blocks. -/
theorem Stores.mem_live (hstores : Stores before r request s) :
    ∀ block ∈ r.blocks, block ∈ s.1.live := by
  intro block hmem
  rw [hstores.adds.live]
  exact Finset.mem_union_right _ (List.mem_toFinset.mpr hmem)

theorem Stores.length_blocks (hstores : Stores before r request s) :
    r.blocks.length = request.objects.length :=
  hstores.copies.length_eq

/-- Where the blocks are as they were, they hold the same objects. -/
theorem Stores.keeps (hstores : Stores before r request s)
    {s' : BlockHeap.Heap (HeapBlock pl) × ServerState pl ω σ} (hkeeps : s.1.Keeps s'.1) :
    Stores before r request s' where
  adds := hstores.adds.keeps hkeeps
  nodup := hstores.nodup
  copies := holdsCopies_congr
    (fun block hmem => hkeeps.contents block (hstores.mem_live block hmem)) hstores.copies
  clientUser := hstores.clientUser

/-- A request begins. -/
theorem Stores.clientRequestNew (hstores : Stores before r request s) :
    ∃ r' s', (clientRequestNewStored r).run s = (some r', s') ∧
      Stores before r' (ZxProto.clientRequestNew request) s' ∧ s'.2 = s.2 := by
  obtain ⟨h', hrun, hdrops⟩ :=
    run_freeClientStateRecvObjects s.2 hstores.nodup hstores.mem_live
  refine ⟨storedInit r.clientUser, (h', s.2), ?_,
    ⟨(hstores.adds.keeps_of_drops hdrops).adds, List.nodup_nil, .nil, hstores.clientUser⟩, rfl⟩
  rw [clientRequestNewStored]
  exact (run_bind_of_some hrun).trans rfl

/-- An object arrives. -/
theorem Stores.clientRequestNewObject (hstores : Stores before r request s)
    {object : List Property} (hcopyable : Copyable object) :
    ∃ r' s', (clientRequestNewObjectStored object r).run s = (some r', s') ∧
      Stores before r' (ZxProto.clientRequestNewObject object request) s' ∧ s'.2 = s.2 := by
  obtain ⟨heap, state⟩ := s
  have hlength := hstores.length_blocks
  rw [clientRequestNewObjectStored]
  by_cases hroom : r.blocks.length ≥ maxReceivingObjects
  · rw [dif_pos hroom, ZxProto.clientRequestNewObject, dif_pos (hlength ▸ hroom)]
    exact ⟨r, (heap, state), rfl, hstores, rfl⟩
  · rw [dif_neg hroom, ZxProto.clientRequestNewObject, dif_neg (hlength ▸ hroom)]
    let block : HeapBlock pl := .bytes (bodyBytes object)
    have hadds := heap.adds_allocate block
    have hnew : heap.next ∉ r.blocks := fun hmem =>
      heap.next_notMem_live (hstores.mem_live _ hmem)
    have hcopy : (protoObjectCopyStored object).run (heap, state) =
        (some heap.next, (heap.allocate block, state)) := by
      rw [protoObjectCopyStored, if_pos hcopyable]
      rfl
    refine ⟨_, (heap.allocate block, state), run_bind_of_some hcopy,
      ⟨?_, ?_, ?_, hstores.clientUser⟩, rfl⟩
    · show before.Adds (r.blocks ++ [heap.next]).toFinset _
      rw [List.toFinset_append]
      exact hstores.adds.trans hadds
    · exact List.nodup_append_comm.mp (List.nodup_cons.mpr ⟨hnew, hstores.nodup⟩)
    · refine List.rel_append (holdsCopies_congr (fun other hmem => ?_) hstores.copies)
        (.cons (heap.contents_allocate_self block) .nil)
      exact hadds.contents other (hstores.mem_live other hmem)

/-- A request completes: the answer of the model without a heap is sent. -/
theorem Stores.clientRequestComplete {κ : Type} (hstores : Stores before r request s)
    (hclean : TableClean table) (a : Application pl κ (ServerClientHandlers ω))
    (e : Endpoint pl κ (ServerClientHandlers ω)) :
    let answer := ((ZxProto.clientRequestComplete (table.map RequestHandler.ofResult)
      request).run a e).1
    ∃ s', (clientRequestCompleteStored send (table.map HeapHandler.ofResult) r requestId).run s =
        (some answer.text?, s') ∧
      Stores before r request s' ∧ s'.2.rest = answer.sendWith send requestId s.2.rest := by
  intro answer
  obtain ⟨s', hrun, hrest, hkeeps⟩ := clientRequestCompleteOnHeap_refines send requestId a e
    (fun entry hentry => hclean entry hentry request) s
  obtain ⟨hlength, hread⟩ := run_readStored s.2 hstores.mem_live hstores.copies
  refine ⟨s', ?_, hstores.keeps hkeeps, hrest⟩
  rw [clientRequestCompleteStored, run_bind_of_some hread]
  have hseen : (⟨request.objects, hlength.trans_le r.blocks_le, r.clientUser⟩ :
      ServerClientHandlers ω) = request := by
    obtain ⟨objects, hle, clientUser⟩ := request
    rw [hstores.clientUser]
  rw [hseen]
  exact hrun

/-- One step. -/
theorem Stores.step (hstores : Stores before r request s) (hclean : TableClean table)
    {step : StoredStep σ} (hcopies : step.Copies) :
    ∃ r' s', (step.program send (table.map HeapHandler.ofResult) r).run s = (some r', s') ∧
      Stores before r' (step.act request) s' := by
  cases step with
  | newRequest =>
      obtain ⟨r', s', hrun, hstores', -⟩ := hstores.clientRequestNew
      exact ⟨r', s', hrun, hstores'⟩
  | newObject object =>
      obtain ⟨r', s', hrun, hstores', -⟩ := hstores.clientRequestNewObject hcopies
      exact ⟨r', s', hrun, hstores'⟩
  | complete requestId =>
      obtain ⟨s', hrun, hstores', -⟩ := hstores.clientRequestComplete send requestId hclean
        (Application.quiet pl Unit (ServerClientHandlers ω)) (.init (.zeroed _) request)
      exact ⟨r, s', (run_bind_of_some hrun).trans rfl, hstores'⟩
  | other f => exact ⟨r, _, rfl, hstores.keeps (.refl s.1)⟩

/-- A connection. -/
theorem Stores.serveStored (hstores : Stores before r request s) (hclean : TableClean table)
    {steps : List (StoredStep σ)} (hcopies : ∀ step ∈ steps, step.Copies) :
    ∃ r' s', (serveStored send (table.map HeapHandler.ofResult) r steps).run s = (some r', s') ∧
      Stores before r' (actSteps request steps) s' := by
  induction steps generalizing r request s with
  | nil => exact ⟨r, s, rfl, hstores⟩
  | cons step steps ih =>
      obtain ⟨hstep, hcopies⟩ := List.forall_mem_cons.mp hcopies
      obtain ⟨r₁, s₁, hrun, hstores₁⟩ := hstores.step send hclean hstep
      obtain ⟨r', s', hserve, hstores'⟩ := ih hstores₁ hcopies
      exact ⟨r', s', (run_bind_of_some hrun).trans hserve, hstores'⟩

theorem stores_init (clientUser : ω) :
    Stores s.1 (storedInit clientUser) (serverHandlersInit clientUser) s where
  adds := (Heap.Keeps.refl s.1).adds
  nodup := List.nodup_nil
  copies := .nil
  clientUser := rfl

variable (s)

/-- **The memory of a connection.**  Whatever callbacks a connection makes, with objects that
can be copied, and whatever `send` does: nothing that is not live is read or released.  At the
end the array points at blocks that hold the objects of the model without a heap, and at
nothing else; every other block that was given out has been released once, and the blocks from
before the connection are untouched. -/
theorem serveStored_accounted (hclean : TableClean table) (clientUser : ω)
    {steps : List (StoredStep σ)} (hcopies : ∀ step ∈ steps, step.Copies) :
    ∃ r s', (serveStored send (table.map HeapHandler.ofResult) (storedInit clientUser)
        steps).run s = (some r, s') ∧
      Stores s.1 r (actSteps (serverHandlersInit clientUser) steps) s' ∧
      ∀ a, s.1.next ≤ a → a < s'.1.next → a ∉ r.blocks → s'.1.released.count a = 1 := by
  obtain ⟨r, s', hrun, hstores⟩ := (stores_init clientUser).serveStored send hclean hcopies
  exact ⟨r, s', hrun, hstores, fun a hle hlt hnotMem => hstores.adds.count_released hle hlt
    fun hmem => hnotMem (List.mem_toFinset.mp hmem)⟩

/-! ## Connection after connection -/

/-- The objects that are left in the array at the end of a connection. -/
def leftBehind (clientUser : ω) (steps : List (StoredStep σ)) : Nat :=
  (actSteps (serverHandlersInit clientUser) steps).objects.length

/-- **What is left behind.**  Every connection leaves the objects that its array points at, and no
later one releases them. -/
theorem acceptLoop_leaks (hclean : TableClean table) (clientUser : ω)
    {connections : List (List (StoredStep σ))}
    (hcopies : ∀ steps ∈ connections, ∀ step ∈ steps, step.Copies) :
    ∃ blocks s', (acceptLoop send (table.map HeapHandler.ofResult) clientUser connections).run s =
        (some (), s') ∧
      s.1.Adds blocks s'.1 ∧ blocks.card = (connections.map (leftBehind clientUser)).sum := by
  induction connections generalizing s with
  | nil => exact ⟨∅, s, rfl, (Heap.Keeps.refl s.1).adds, rfl⟩
  | cons steps connections ih =>
      obtain ⟨hsteps, hcopies⟩ := List.forall_mem_cons.mp hcopies
      obtain ⟨r, s₁, hrun, hstores⟩ := (stores_init clientUser).serveStored send hclean hsteps
      obtain ⟨blocks, s', hloop, hadds, hcard⟩ := ih s₁ hcopies
      have hdisjoint : Disjoint r.blocks.toFinset blocks := by
        refine (Heap.disjoint_of_new hadds.new).mono_left ?_
        rw [hstores.adds.live]
        exact Finset.subset_union_right
      refine ⟨r.blocks.toFinset ∪ blocks, s', (run_bind_of_some hrun).trans hloop,
        hstores.adds.trans hadds, ?_⟩
      rw [Finset.card_union_of_disjoint hdisjoint, List.toFinset_card_of_nodup hstores.nodup,
        hstores.length_blocks, hcard]
      rfl

/-! ## Requests -/

/-- What the frame of a request calls. -/
def WireFrame.storedSteps (f : WireFrame) : List (StoredStep σ) :=
  .newRequest :: (f.objects.map .newObject ++ [.complete f.requestId])

theorem objects_actSteps_newObjects (h : ServerClientHandlers ω) (objects : List (List Property)) :
    (actSteps h (objects.map (.newObject : List Property → StoredStep σ))).objects =
      objects.foldl collectObject h.objects := by
  induction objects generalizing h with
  | nil => rfl
  | cons object objects ih =>
      rw [List.map_cons, actSteps, List.foldl_cons, ← actSteps, ih, List.foldl_cons,
        StoredStep.act, clientRequestNewObject, collectObject]
      split <;> rfl

/-- A request leaves its own first objects in the array. -/
theorem objects_actSteps_storedSteps (h : ServerClientHandlers ω) (f : WireFrame) :
    (actSteps h (f.storedSteps : List (StoredStep σ))).objects =
      f.objects.take maxReceivingObjects := by
  have hsteps : actSteps h (f.storedSteps : List (StoredStep σ)) =
      actSteps (clientRequestNew h)
        (f.objects.map (.newObject : List Property → StoredStep σ)) := by
    rw [WireFrame.storedSteps, actSteps, List.foldl_cons, List.foldl_append]
    rfl
  have hempty : (clientRequestNew h).objects = [].take maxReceivingObjects := rfl
  rw [hsteps, objects_actSteps_newObjects, foldl_collectObject _ [] hempty, List.nil_append]

/-- A connection leaves the objects of its last request behind, and no more than the array
holds. -/
theorem leftBehind_storedSteps (clientUser : ω) (requests : List WireFrame) (last : WireFrame) :
    leftBehind clientUser
        ((requests ++ [last]).flatMap (WireFrame.storedSteps : _ → List (StoredStep σ))) =
      min maxReceivingObjects last.objects.length := by
  rw [leftBehind, List.flatMap_append, actSteps, List.foldl_append, ← actSteps, ← actSteps,
    List.flatMap_singleton, objects_actSteps_storedSteps, List.length_take]

/-! ## Two requests -/

/-- A handler that answers with an object. -/
def storedTable : List (NamedResult .pc Unit) :=
  [((handlerOfA ⟨none, []⟩).name, fun _ => ⟨none, [exampleObject]⟩)]

theorem tableClean_storedTable : TableClean storedTable := fun _ hentry _ => by
  rw [List.mem_singleton.mp hentry]
  exact ⟨Or.inl rfl, show 1 < intLimit by decide⟩

/-- A request with an ID, which ends in a zero, and another object. -/
def storedRequest : WireFrame where
  flags := 0
  requestId := 7
  objects := [[⟨ProtoObjectPropertyKey.id.code, [0x61, 0], by decide⟩], []]
  objects_ne := List.cons_ne_nil _ _
  size_lt := by decide

theorem copies_storedRequest :
    ∀ step ∈ (storedRequest.storedSteps : List (StoredStep Unit)), step.Copies := by
  intro step hmem
  rcases List.mem_cons.mp hmem with rfl | hmem
  · trivial
  · rcases List.mem_append.mp hmem with hmem | hmem
    · obtain ⟨object, hobject, rfl⟩ := List.mem_map.mp hmem
      exact (show ∀ object ∈ storedRequest.objects, Copyable object by decide) object hobject
    · rw [List.mem_singleton.mp hmem]
      trivial

end Memory

/-- The first request is answered, and its objects are released when the second one comes. -/
theorem serveStored_accounted_two :
    let s : BlockHeap.Heap (HeapBlock .pc) × ServerState .pc Unit Unit :=
      (.empty (.bytes []), .init ())
    let steps : List (StoredStep Unit) := [storedRequest, storedRequest].flatMap (·.storedSteps)
    ∃ r s', (serveStored (fun bytes _ => (bytes.length, ())) (storedTable.map HeapHandler.ofResult)
        (storedInit ()) steps).run s = (some r, s') ∧
      Stores s.1 r (actSteps (serverHandlersInit ()) steps) s' ∧
      ∀ a, s.1.next ≤ a → a < s'.1.next → a ∉ r.blocks → s'.1.released.count a = 1 := by
  intro s steps
  refine serveStored_accounted _ s tableClean_storedTable () fun step hmem => ?_
  obtain ⟨request, hrequest, hstep⟩ := List.mem_flatMap.mp hmem
  have heq : request = storedRequest := by simpa using hrequest
  exact copies_storedRequest step (heq ▸ hstep)

/-- Two clients, and two objects of each are still there. -/
theorem acceptLoop_leaks_two :
    let s : BlockHeap.Heap (HeapBlock .pc) × ServerState .pc Unit Unit :=
      (.empty (.bytes []), .init ())
    let connections : List (List (StoredStep Unit)) :=
      [storedRequest.storedSteps, storedRequest.storedSteps]
    ∃ blocks s', (acceptLoop (fun bytes _ => (bytes.length, ()))
        (storedTable.map HeapHandler.ofResult) () connections).run s = (some (), s') ∧
      s.1.Adds blocks s'.1 ∧ blocks.card = 4 := by
  intro s connections
  have hcopies : ∀ steps ∈ connections, ∀ step ∈ steps, step.Copies := by
    intro steps hmem
    have heq : steps = storedRequest.storedSteps := by simpa [connections] using hmem
    exact heq ▸ copies_storedRequest
  obtain ⟨blocks, s', hrun, hadds, hcard⟩ :=
    acceptLoop_leaks (fun bytes _ => (bytes.length, ())) s tableClean_storedTable () hcopies
  exact ⟨blocks, s', hrun, hadds, hcard.trans (by decide)⟩

end ZxProto
