import Mathlib.Data.List.TakeWhile
import ZxProto.ResponseChain

/-!
# `client_request_complete`, with its heap

The whole function: the ID is copied and looked up, the handler is called, and the
responses that it appended are counted, sent and released.

* `copyStrPropertyOnHeap`, `hashFindStr`, `findRequestHandlerBy` — from the ID to a handler, by a
  lookup in a list or in a table;
* `protoSendOnHeap`, `releaseChain`, `respond` — what becomes of the responses;
* `clientRequestCompleteBy`, `clientRequestCompleteOnHeap` — the function;
  `run_findRequestHandler` and `requestedHandler_eq_dispatch` tie its first part to `dispatch`;
* `HandlerTable`, `ExactDispatch`, `exactDispatch_iff` — which handler an ID calls.
-/

namespace ZxProto

open BlockHeap BlockHeap.Program

section RequestComplete

variable {pl : Platform} {ω σ : Type}

/-! ## From the ID to a handler -/

/-- `copy_str_property`. -/
def copyStrPropertyOnHeap (property : Property) : ServerProgram pl ω σ Nat :=
  malloc (.bytes (property.value ++ [0]))

/-- The string at a pointer: `strlen` ends in the block, if there is a zero in it. -/
def readCString (a : Nat) : ServerProgram pl ω σ (List UInt8) := do
  let block ← load a
  match block with
  | .bytes bytes => if 0 ∈ bytes then pure (bytes.takeWhile fun byte => byte ≠ 0) else fault
  | _ => fault

/-- `HASH_FIND_STR`, on names that differ. -/
def hashFindStr (handlers : List (HeapHandler pl ω σ)) (findstr : Nat) :
    ServerProgram pl ω σ (Option (HeapHandler pl ω σ)) := do
  let key ← readCString findstr
  pure (handlers.find? fun handler => handler.name.bytes == key)

/-- A lookup of the name at a pointer. -/
abbrev FindStr (pl : Platform) (ω σ : Type) :=
  Nat → ServerProgram pl ω σ (Option (HeapHandler pl ω σ))

/-- The first part of `client_request_complete`: the handler, or the text that is returned
instead.  `find` is `HASH_FIND_STR` in `h->handlers`. -/
def findRequestHandlerBy (find : FindStr pl ω σ) (h : ServerClientHandlers ω) :
    ServerProgram pl ω σ (Except CString (HeapHandler pl ω σ)) :=
  match h.objects with
  | [] => pure (.error emptyRequest)
  | firstObject :: _ =>
      match firstObject.find? fun p => p.key == ProtoObjectPropertyKey.id.code with
      | none => pure (.error unknownReqId)
      | some id => do
          let requestId ← copyStrPropertyOnHeap id
          let handler ← find requestId
          free requestId
          match handler with
          | none => pure (.error unknownRequest)
          | some handler => pure (.ok handler)

/-- The same, in a list of handlers. -/
def findRequestHandler (handlers : List (HeapHandler pl ω σ)) :
    ServerClientHandlers ω → ServerProgram pl ω σ (Except CString (HeapHandler pl ω σ)) :=
  findRequestHandlerBy (hashFindStr handlers)

/-! ## What becomes of the responses -/

/-- `objects[i]`, dereferenced for each `i`. -/
def readObjects : List Nat → ServerProgram pl ω σ (List OwnedObject)
  | [] => pure []
  | pointer :: pointers => do
      let block ← load pointer
      match block with
      | .object object => do
          let objects ← readObjects pointers
          pure (object.object :: objects)
      | _ => fault

/-- `proto_send`, of the objects in an array of pointers. -/
def protoSendOnHeap (send : List UInt8 → σ → Int × σ) (objects : Nat) (amount : UInt8)
    (requestId : UInt16) (flags : UInt8) : ServerProgram pl ω σ Int := do
  let block ← load objects
  match block with
  | .pointers array => do
      let objects ← readObjects (array.take amount.toNat)
      if pl.combineObjectsUponSending then do
        let data ← malloc (.bytes (headerBytes flags (requestSize objects) requestId ++
          objects.flatMap (objectBytes pl)))
        let status ← performRest (protoSend pl send objects amount requestId flags)
        free data
        pure status
      else
        performRest (protoSend pl send objects amount requestId flags)
  | _ => fault

/-- `as_array[counter] = response`. -/
def setPointer (asArray counter response : Nat) : ServerProgram pl ω σ Unit := do
  let block ← load asArray
  match block with
  | .pointers array =>
      if counter < array.length then write asArray (.pointers (array.set counter response))
      else fault
  | _ => fault

/-- An array of pointers is there. -/
def noteArray (asArray : Nat) : ServerProgram pl ω σ Unit :=
  perform fun state => ((), { state with arrays := state.arrays ++ [asArray] })

/-- The loop that puts the responses into the array. -/
def fillArray (responseHead asArray : Nat) : ServerProgram pl ω σ Nat :=
  (responseChain pl).llForeach responseHead 0 fun elem counter => do
    let entry ← (responseChain pl).readNode elem
    setPointer asArray counter entry.1
    pure (counter + 1)

/-- The loop that unlinks and releases the entries and their objects. -/
def releaseChain (responseHead : Nat) : ServerProgram pl ω σ Nat :=
  (responseChain pl).llForeachSafe responseHead responseHead fun elem responseHead => do
    let responseHead ← (responseChain pl).llDelete responseHead elem
    let entry ← (responseChain pl).readNode elem
    free entry.1
    free elem
    pure responseHead

/-- An `int` overflows here. -/
def intLimit : Nat := 2 ^ 31

/-- The last part of `client_request_complete`, behind a handler that returned NULL. -/
def respond (send : List UInt8 → σ → Int × σ) (responseHead : Nat) (requestId : UInt16) :
    ServerProgram pl ω σ Unit := do
  let responseCount ← (responseChain pl).llCount intLimit responseHead
  if responseCount ≠ 0 then do
    let asArray ← malloc (.pointers (List.replicate responseCount null))
    noteArray asArray
    let _counter ← fillArray responseHead asArray
    -- what `proto_send` returns is not looked at
    let _status ← protoSendOnHeap send asArray (UInt8.ofNat responseCount) requestId
      protoFlagResponse
    let _responseHead ← releaseChain responseHead
    free asArray
  else
    pure ()

/-- A handler is called. -/
def noteCall (handler : HeapHandler pl ω σ) : ServerProgram pl ω σ Unit :=
  perform fun state => ((), { state with calls := state.calls ++ [handler] })

/-- `handler->cb(h, &response_head)`: the text or NULL, and `response_head`. -/
def callHandler (handler : HeapHandler pl ω σ) (h : ServerClientHandlers ω) :
    ServerProgram pl ω σ (Option CString × Nat) := do
  noteCall handler
  (handler.cb h).call null

/-- What `client_request_complete` does with what it has found. -/
def serveFound (send : List UInt8 → σ → Int × σ) (h : ServerClientHandlers ω)
    (requestId : UInt16) :
    Except CString (HeapHandler pl ω σ) → ServerProgram pl ω σ (Option CString)
  | .error text => pure (some text)
  | .ok handler => do
      let returned ← callHandler handler h
      match returned.1 with
      -- the text is returned at once; the chain is left as it is
      | some text => pure (some text)
      | none => do
          respond send returned.2 requestId
          pure none

/-- `client_request_complete`. -/
def clientRequestCompleteBy (send : List UInt8 → σ → Int × σ) (find : FindStr pl ω σ)
    (h : ServerClientHandlers ω) (requestId : UInt16) :
    ServerProgram pl ω σ (Option CString) := do
  let found ← findRequestHandlerBy find h
  serveFound send h requestId found

/-- The same, with a list of handlers. -/
def clientRequestCompleteOnHeap (send : List UInt8 → σ → Int × σ)
    (handlers : List (HeapHandler pl ω σ)) :
    ServerClientHandlers ω → UInt16 → ServerProgram pl ω σ (Option CString) :=
  clientRequestCompleteBy send (hashFindStr handlers)

/-! ## The handler that is found -/

/-- What the first part finds. -/
def requestedHandler (handlers : List (HeapHandler pl ω σ)) (h : ServerClientHandlers ω) :
    Except CString (HeapHandler pl ω σ) :=
  match h.objects with
  | [] => .error emptyRequest
  | firstObject :: _ =>
      match firstObject.find? fun p => p.key == ProtoObjectPropertyKey.id.code with
      | none => .error unknownReqId
      | some id =>
          match handlers.find? fun handler => handler.name.bytes == copyStrProperty id with
          | none => .error unknownRequest
          | some handler => .ok handler

/-- The first property with the key of an ID, of the first object. -/
def requestedId (h : ServerClientHandlers ω) : Option Property :=
  h.objects.head?.bind fun firstObject =>
    firstObject.find? fun p => p.key == ProtoObjectPropertyKey.id.code

section Found

variable {handlers : List (HeapHandler pl ω σ)} {h : ServerClientHandlers ω} {id : Property}

theorem requestedHandler_of_nil (hnil : h.objects = []) :
    requestedHandler handlers h = .error emptyRequest := by
  rw [requestedHandler, hnil]

theorem requestedHandler_of_none (hne : h.objects ≠ []) (hnone : requestedId h = none) :
    requestedHandler handlers h = .error unknownReqId := by
  obtain ⟨firstObject, objects, hobjects⟩ := List.exists_cons_of_ne_nil hne
  rw [requestedId, hobjects, List.head?_cons, Option.bind_some] at hnone
  simp only [requestedHandler, hobjects, hnone]

theorem requestedHandler_of_some (hid : requestedId h = some id) :
    requestedHandler handlers h =
      match handlers.find? fun handler => handler.name.bytes == copyStrProperty id with
      | none => .error unknownRequest
      | some handler => .ok handler := by
  obtain ⟨firstObject, hhead, hfind⟩ := Option.bind_eq_some_iff.mp hid
  obtain ⟨objects, hobjects⟩ := List.head?_eq_some_iff.mp hhead
  simp only [requestedHandler, hobjects, hfind]

theorem mem_of_requestedHandler {handler : HeapHandler pl ω σ}
    (hrequested : requestedHandler handlers h = .ok handler) : handler ∈ handlers := by
  by_cases hnil : h.objects = []
  · rw [requestedHandler_of_nil hnil] at hrequested
    cases hrequested
  · cases hid : requestedId h with
    | none =>
        rw [requestedHandler_of_none hnil hid] at hrequested
        cases hrequested
    | some id =>
        rw [requestedHandler_of_some hid] at hrequested
        cases hfound : handlers.find? fun handler => handler.name.bytes == copyStrProperty id with
        | none =>
            rw [hfound] at hrequested
            cases hrequested
        | some found =>
            rw [hfound] at hrequested
            cases hrequested
            exact List.mem_of_find?_eq_some hfound

variable {heap : BlockHeap.Heap (HeapBlock pl)} {state : ServerState pl ω σ}

/-- The copy of an ID ends at its first zero, or at the zero behind it. -/
theorem takeWhile_copy (value : List UInt8) :
    (value ++ [0]).takeWhile (fun byte => byte ≠ 0) = value.takeWhile fun byte => byte ≠ 0 := by
  induction value with
  | nil => rfl
  | cons byte value ih =>
      rw [List.cons_append, List.takeWhile_cons, List.takeWhile_cons, ih]

/-- The copy of the ID is released again, and nothing else happens to the heap. -/
theorem run_findRequestHandler (handlers : List (HeapHandler pl ω σ))
    (h : ServerClientHandlers ω) (heap : BlockHeap.Heap (HeapBlock pl))
    (state : ServerState pl ω σ) :
    ∃ heap', (findRequestHandler handlers h).run (heap, state) =
      (some (requestedHandler handlers h), (heap', state)) ∧ heap.Keeps heap' := by
  rw [findRequestHandler, findRequestHandlerBy, requestedHandler]
  cases h.objects with
  | nil => exact ⟨heap, rfl, .refl heap⟩
  | cons firstObject objects =>
      dsimp only
      cases firstObject.find? fun p => p.key == ProtoObjectPropertyKey.id.code with
      | none => exact ⟨heap, rfl, .refl heap⟩
      | some id =>
          have hmem : heap.next ∈ (heap.allocate (.bytes (id.value ++ [0]))).live :=
            Finset.mem_insert_self _ _
          have hstring : (readCString heap.next).run
              (heap.allocate (.bytes (id.value ++ [0])), state) =
                (some (copyStrProperty id), (heap.allocate (.bytes (id.value ++ [0])), state)) := by
            rw [readCString, run_bind_of_some (run_load_of_mem hmem), Heap.contents_allocate_self]
            dsimp only
            rw [if_pos (List.mem_append_right _ List.mem_cons_self), takeWhile_copy]
            rfl
          have hfind : (hashFindStr handlers heap.next).run
              (heap.allocate (.bytes (id.value ++ [0])), state) =
                (some (handlers.find? fun handler => handler.name.bytes == copyStrProperty id),
                  (heap.allocate (.bytes (id.value ++ [0])), state)) := by
            rw [hashFindStr, run_bind_of_some hstring]
            rfl
          refine ⟨_, ?_, heap.keeps_allocate_release _ hmem⟩
          dsimp only
          rw [copyStrPropertyOnHeap, run_bind_of_some (run_malloc _), run_bind_of_some hfind,
            run_bind_of_some (run_free_of_mem hmem)]
          cases handlers.find? fun handler => handler.name.bytes == copyStrProperty id with
          | none => rfl
          | some handler => rfl

/-- The handler that is called has the name of the one that `dispatch` finds, in a table
with the same names. -/
theorem requestedHandler_eq_dispatch {κ : Type} {others : List (RequestHandler pl κ ω)}
    (hnames : handlers.map HeapHandler.name = others.map RequestHandler.name)
    (h : ServerClientHandlers ω) :
    (requestedHandler handlers h).map HeapHandler.name =
      (dispatch others h).map RequestHandler.name := by
  rw [requestedHandler, dispatch]
  cases h.objects with
  | nil => rfl
  | cons firstObject objects =>
      dsimp only
      cases firstObject.find? fun p => p.key == ProtoObjectPropertyKey.id.code with
      | none => rfl
      | some id =>
          have hfind := congrArg
            (List.find? fun name : CString => name.bytes == copyStrProperty id) hnames
          rw [List.find?_map, List.find?_map] at hfind
          have hhere : (handlers.find? fun handler => handler.name.bytes == copyStrProperty id).map
              HeapHandler.name = (findHandler others (copyStrProperty id)).map
                RequestHandler.name := hfind
          dsimp only
          cases hfound : handlers.find? fun handler => handler.name.bytes == copyStrProperty id <;>
            cases hother : findHandler others (copyStrProperty id) <;>
            simp only [hfound, hother, Option.map_none, Option.map_some, reduceCtorEq,
              Option.some.injEq] at hhere
          · rfl
          · exact congrArg Except.ok hhere

end Found

/-! ## Who is called -/

section Calls

theorem steady_performRest {α : Type} (f : σ → α × σ) :
    (performRest f : ServerProgram pl ω σ α).Steady ServerState.calls :=
  steady_perform fun _ => rfl

theorem steady_readObjects (pointers : List Nat) :
    (readObjects pointers : ServerProgram pl ω σ (List OwnedObject)).Steady
      ServerState.calls := by
  induction pointers with
  | nil => exact steady_pure _
  | cons pointer pointers ih =>
      refine (steady_load pointer).bind fun block => ?_
      split
      · exact ih.bind fun _ => steady_pure _
      · exact steady_fault

theorem steady_protoSendOnHeap (send : List UInt8 → σ → Int × σ) (objects : Nat)
    (amount : UInt8) (requestId : UInt16) (flags : UInt8) :
    (protoSendOnHeap send objects amount requestId flags : ServerProgram pl ω σ Int).Steady
      ServerState.calls := by
  refine (steady_load objects).bind fun block => ?_
  split
  · refine (steady_readObjects _).bind fun objects => steady_ite ?_ (steady_performRest _)
    exact (steady_malloc _).bind fun data => (steady_performRest _).bind fun status =>
      (steady_free data).bind fun _ => steady_pure status
  · exact steady_fault

theorem steady_setPointer (asArray counter response : Nat) :
    (setPointer asArray counter response : ServerProgram pl ω σ Unit).Steady
      ServerState.calls := by
  refine (steady_load asArray).bind fun block => ?_
  split
  · exact steady_ite (steady_write _ _) steady_fault
  · exact steady_fault

theorem steady_fillArray (responseHead asArray : Nat) :
    (fillArray responseHead asArray : ServerProgram pl ω σ Nat).Steady ServerState.calls :=
  NodeLayout.steady_llForeach _ (fun elem counter =>
    (NodeLayout.steady_readNode _ elem).bind fun entry =>
      (steady_setPointer asArray counter entry.1).bind fun _ => steady_pure _) _ _

theorem steady_releaseChain (responseHead : Nat) :
    (releaseChain responseHead : ServerProgram pl ω σ Nat).Steady ServerState.calls :=
  NodeLayout.steady_llForeachSafe _ (fun elem head =>
    (NodeLayout.steady_llDelete _ head elem).bind fun head =>
      (NodeLayout.steady_readNode _ elem).bind fun entry =>
        (steady_free entry.1).bind fun _ => (steady_free elem).bind fun _ => steady_pure head) _ _

/-- Sending and releasing the responses calls no handler, faults included. -/
theorem steady_respond (send : List UInt8 → σ → Int × σ) (responseHead : Nat)
    (requestId : UInt16) :
    (respond send responseHead requestId : ServerProgram pl ω σ Unit).Steady
      ServerState.calls := by
  refine (NodeLayout.steady_llCount _ _ responseHead).bind fun count =>
    steady_ite ?_ (steady_pure _)
  refine (steady_malloc _).bind fun asArray => ?_
  refine (steady_perform fun _ => rfl).bind fun _ => ?_
  refine (steady_fillArray responseHead asArray).bind fun _ => ?_
  refine (steady_protoSendOnHeap send asArray _ requestId _).bind fun _ => ?_
  exact (steady_releaseChain responseHead).bind fun _ => steady_free asArray

variable (send : List UInt8 → σ → Int × σ) {handlers : List (HeapHandler pl ω σ)}
  {h : ServerClientHandlers ω} (requestId : UInt16) (heap : BlockHeap.Heap (HeapBlock pl))
  (state : ServerState pl ω σ)

theorem run_clientRequestCompleteOnHeap {found : Except CString (HeapHandler pl ω σ)}
    {s s₀ : BlockHeap.Heap (HeapBlock pl) × ServerState pl ω σ}
    (hfind : (findRequestHandler handlers h).run s = (some found, s₀)) :
    (clientRequestCompleteOnHeap send handlers h requestId).run s =
      (serveFound send h requestId found).run s₀ :=
  run_bind_of_some hfind

/-- Without a handler, the text is returned and nobody is called. -/
theorem run_clientRequestCompleteOnHeap_of_error {text : CString}
    (hrequested : requestedHandler handlers h = .error text) :
    ∃ heap', (clientRequestCompleteOnHeap send handlers h requestId).run (heap, state) =
      (some (some text), (heap', state)) ∧ heap.Keeps heap' := by
  obtain ⟨heap', hfind, hkeeps⟩ := run_findRequestHandler handlers h heap state
  refine ⟨heap', ?_, hkeeps⟩
  rw [run_clientRequestCompleteOnHeap send requestId hfind, hrequested]
  rfl

/-- A handler is called with an empty list, and leaves the entries that it appended. -/
theorem run_callHandler (handler : HeapHandler pl ω σ) (h : ServerClientHandlers ω)
    (heap : BlockHeap.Heap (HeapBlock pl)) (state : ServerState pl ω σ) :
    ∃ result head added heap' state', (callHandler handler h).run (heap, state) =
        (some (result, head), (heap', state')) ∧
      (responseChain pl).Chain heap' head added ∧ state'.appended = state.appended ++ added ∧
      state'.arrays = state.arrays ∧ state'.calls = state.calls ++ [handler] ∧
      heap.Grows heap' ∧ ∀ a ∈ heap.live, heap'.contents a = heap.contents a := by
  have hempty : (responseChain pl).Chain heap null [] := rfl
  obtain ⟨result, head, added, heap', state', hcall, hchain, happended, harrays, hcalls, hgrows,
    hcontents⟩ := (handler.cb h).run_call { state with calls := state.calls ++ [handler] } hempty
  refine ⟨result, head, added, heap', state', ?_, hchain, happended, harrays, hcalls, hgrows,
    fun a ha => hcontents a ha fun _ hnode => absurd hnode List.not_mem_nil⟩
  rw [callHandler, run_bind_of_some rfl, ← hcall]

/-- The handler is called once, whatever it does and whatever comes of its responses. -/
theorem calls_clientRequestCompleteOnHeap {handler : HeapHandler pl ω σ}
    (hrequested : requestedHandler handlers h = .ok handler) :
    ((clientRequestCompleteOnHeap send handlers h requestId).run (heap, state)).2.2.calls =
      state.calls ++ [handler] := by
  obtain ⟨heap', hfind, -⟩ := run_findRequestHandler handlers h heap state
  obtain ⟨result, head, added, heap'', state', hcall, -, -, -, hcalls, -⟩ :=
    run_callHandler handler h heap' state
  rw [run_clientRequestCompleteOnHeap send requestId hfind, hrequested, serveFound,
    run_bind_of_some hcall]
  cases result with
  | some text => exact hcalls
  | none =>
      dsimp only
      rw [(steady_respond send head requestId).bind (fun _ => steady_pure none), hcalls]

end Calls

/-! ## The handler with the name -/

/-- The handlers that are registered, under names that differ. -/
structure HandlerTable (pl : Platform) (ω σ : Type) where
  handlers : List (HeapHandler pl ω σ)
  distinct : (handlers.map HeapHandler.name).Nodup

/-- `server_handlers_handle_request`: `HASH_ADD_STR`. -/
def HandlerTable.register (table : HandlerTable pl ω σ) (handler : HeapHandler pl ω σ)
    (hnew : handler.name ∉ table.handlers.map HeapHandler.name) : HandlerTable pl ω σ where
  handlers := handler :: table.handlers
  distinct := List.nodup_cons.mpr ⟨hnew, table.distinct⟩

theorem CString.eq_of_bytes_eq {text text' : CString} (h : text.bytes = text'.bytes) :
    text = text' := by
  cases text
  cases text'
  cases h
  rfl

/-- A name finds its handler. -/
theorem HandlerTable.find?_eq_some (table : HandlerTable pl ω σ) {handler : HeapHandler pl ω σ}
    (hmem : handler ∈ table.handlers) :
    (table.handlers.find? fun other => other.name.bytes == handler.name.bytes) =
      some handler := by
  have hsome : (table.handlers.find? fun other => other.name.bytes == handler.name.bytes).isSome :=
    List.find?_isSome.mpr ⟨handler, hmem, beq_self_eq_true handler.name.bytes⟩
  obtain ⟨found, hfound⟩ := Option.isSome_iff_exists.mp hsome
  have hbytes : found.name.bytes = handler.name.bytes := by simpa using List.find?_some hfound
  have hname : found.name = handler.name := CString.eq_of_bytes_eq hbytes
  rw [hfound, List.inj_on_of_nodup_map table.distinct (List.mem_of_find?_eq_some hfound) hmem hname]

variable (send : List UInt8 → σ → Int × σ) (table : HandlerTable pl ω σ)
  (h : ServerClientHandlers ω) (requestId : UInt16)
  (s : BlockHeap.Heap (HeapBlock pl) × ServerState pl ω σ)

/-- `client_request_complete` returns the text, and no handler is called. -/
def ReturnsText (text : CString) : Prop :=
  ((clientRequestCompleteOnHeap send table.handlers h requestId).run s).1 = some (some text) ∧
    ((clientRequestCompleteOnHeap send table.handlers h requestId).run s).2.2.calls = s.2.calls

/-- The handler is called once, and no other. -/
def CallsOnce (handler : HeapHandler pl ω σ) : Prop :=
  ((clientRequestCompleteOnHeap send table.handlers h requestId).run s).2.2.calls =
    s.2.calls ++ [handler]

/-- A request calls the handler whose name is the value of its ID, and no other; without
objects, without an ID or without such a handler it gets the text that says so. -/
structure ExactDispatch : Prop where
  emptyRequest : h.objects = [] → ReturnsText send table h requestId s emptyRequest
  unknownReqId : h.objects ≠ [] → requestedId h = none →
    ReturnsText send table h requestId s unknownReqId
  calls : ∀ id, requestedId h = some id → ∀ handler ∈ table.handlers,
    handler.name.bytes = id.value → CallsOnce send table h requestId s handler
  unknownRequest : ∀ id, requestedId h = some id →
    (∀ handler ∈ table.handlers, handler.name.bytes ≠ id.value) →
      ReturnsText send table h requestId s unknownRequest

variable {send table h requestId s}

theorem returnsText_of_error {text : CString}
    (hrequested : requestedHandler table.handlers h = .error text) :
    ReturnsText send table h requestId s text := by
  obtain ⟨heap', hrun, -⟩ :=
    run_clientRequestCompleteOnHeap_of_error send requestId s.1 s.2 hrequested
  exact ⟨congrArg Prod.fst hrun, congrArg (fun result => result.2.2.calls) hrun⟩

/-- A string without a zero is copied whole. -/
theorem copyStrProperty_of_notMem {id : Property} (hzero : (0 : UInt8) ∉ id.value) :
    copyStrProperty id = id.value := by
  refine List.takeWhile_eq_self_iff.mpr fun byte hbyte => ?_
  rw [decide_eq_true_eq]
  rintro rfl
  exact hzero hbyte

/-- **When the dispatch is exact.**  If and only if the ID has no zero byte, or no handler
has the name that the ID has up to its first zero. -/
theorem exactDispatch_iff :
    ExactDispatch send table h requestId s ↔
      ∀ id, requestedId h = some id → (0 : UInt8) ∉ id.value ∨
        ∀ handler ∈ table.handlers,
          handler.name.bytes ≠ id.value.takeWhile fun byte => byte ≠ 0 := by
  constructor
  · intro hexact id hid
    by_contra hcut
    obtain ⟨hzero, hnamed⟩ := not_or.mp hcut
    rw [not_not] at hzero
    push Not at hnamed
    obtain ⟨handler, hmem, hname⟩ := hnamed
    have hname' : copyStrProperty id = handler.name.bytes := hname.symm
    -- the handler is called, although no name has a zero
    have hrequested : requestedHandler table.handlers h = .ok handler := by
      rw [requestedHandler_of_some hid, hname', table.find?_eq_some hmem]
    have hcalls := calls_clientRequestCompleteOnHeap send requestId s.1 s.2 hrequested
    obtain ⟨-, hnobody⟩ := hexact.unknownRequest id hid fun other _ hother =>
      other.name.noNul (hother ▸ hzero)
    rw [hnobody] at hcalls
    exact absurd hcalls (by simp)
  · intro hcond
    refine ⟨fun hnil => returnsText_of_error (requestedHandler_of_nil hnil),
      fun hne hnone => returnsText_of_error (requestedHandler_of_none hne hnone), ?_, ?_⟩
    · intro id hid handler hmem hname
      have hzero : (0 : UInt8) ∉ id.value := hname ▸ handler.name.noNul
      refine calls_clientRequestCompleteOnHeap send requestId s.1 s.2 ?_
      rw [requestedHandler_of_some hid, copyStrProperty_of_notMem hzero, ← hname,
        table.find?_eq_some hmem]
    · intro id hid hother
      refine returnsText_of_error ?_
      have hnone : (table.handlers.find? fun handler =>
          handler.name.bytes == copyStrProperty id) = none := by
        refine List.find?_eq_none.mpr fun handler hmem hname => ?_
        have hbytes : handler.name.bytes = copyStrProperty id := beq_iff_eq.mp hname
        rcases hcond id hid with hzero | hcut
        · exact hother handler hmem (hbytes.trans (copyStrProperty_of_notMem hzero))
        · exact hcut handler hmem hbytes
      rw [requestedHandler_of_some hid, hnone]

end RequestComplete

/-- A table with one handler, for the requests with the ID `a`. -/
def tableOfA (program : HandlerProgram .pc Unit) : HandlerTable .pc Unit Unit :=
  HandlerTable.register ⟨[], List.nodup_nil⟩ ⟨(handlerOfA ⟨none, []⟩).name, fun _ => program⟩
    List.not_mem_nil

/-- A request with one object, whose only property is an ID. -/
def requestWithId (id : List UInt8) (hsize : id.length < 65536) : ServerClientHandlers Unit where
  objects := [[⟨ProtoObjectPropertyKey.id.code, id, hsize⟩]]
  objects_le := show 1 ≤ maxReceivingObjects by decide
  clientUser := ()

/-- The ID `61 00 62` calls the handler for `61`. -/
theorem not_exactDispatch_of_zero :
    let s : BlockHeap.Heap (HeapBlock .pc) × ServerState .pc Unit Unit :=
      (.empty (.bytes []), .init ())
    let send : List UInt8 → Unit → Int × Unit := fun bytes _ => (bytes.length, ())
    let table := tableOfA (.done none)
    ¬ ExactDispatch send table (requestWithId [0x61, 0, 0x62] (by decide)) 1 s ∧
      ((clientRequestCompleteOnHeap send table.handlers
        (requestWithId [0x61, 0, 0x62] (by decide)) 1).run s).2.2.calls.map
          (fun handler => handler.name.bytes) = [[0x61]] := by
  intro s send table
  have hcalled : ((clientRequestCompleteOnHeap send table.handlers
      (requestWithId [0x61, 0, 0x62] (by decide)) 1).run s).2.2.calls.map
        (fun handler => handler.name.bytes) = [[0x61]] := by
    decide
  refine ⟨fun hexact => ?_, hcalled⟩
  obtain ⟨-, hnobody⟩ := hexact.unknownRequest ⟨ProtoObjectPropertyKey.id.code, [0x61, 0, 0x62],
    by decide⟩ rfl (by
      intro handler hmem
      rw [List.mem_singleton.mp hmem]
      decide)
  rw [hnobody] at hcalled
  cases hcalled

end ZxProto
