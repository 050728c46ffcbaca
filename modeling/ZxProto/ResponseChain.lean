import ZxProto.Library.LinkedChain
import ZxProto.Handlers

/-!
# The responses that a handler appends

`server_request_add_response`, on a heap whose blocks are explicit.  A handler is given
the address of an empty list; for each response it hands over an object, and the list
gets an entry.

* `HeapBlock` — what the blocks hold; `responseChain` — the entries as nodes of a list;
* `ServerState` — the further state, with a record of the handlers that were called and
  of the blocks that make up the responses;
* `HandlerProgram` — a handler, step by step;
* `run_serverRequestAddResponseOnHeap`, `run_call` — the list when a handler returns.
-/

namespace ZxProto

open BlockHeap BlockHeap.Program

/-! ## Blocks -/

/-- What the blocks on the heap of a server hold. -/
inductive HeapBlock (pl : Platform)
  /-- `struct request_handler_response_chain_t`. -/
  | entry (response next : Nat)
  | object (object : SendableObject pl)
  | pointers (array : List Nat)
  | bytes (bytes : List UInt8)

/-- The entries of a response chain are nodes of a list of `response` pointers. -/
def responseChain (pl : Platform) : NodeLayout (HeapBlock pl) Nat where
  make response next := .entry response next
  node?
    | .entry response next => some (response, next)
    | _ => none
  node?_make _ _ := rfl

/-! ## Handlers -/

/-- A handler: it allocates objects and appends responses, and reads and changes
whatever else there is; at its end it returns a text, or NULL. -/
inductive HandlerProgram (pl : Platform) (σ : Type)
  | done (result : Option CString)
  | allocate (object : SendableObject pl) (next : Nat → HandlerProgram pl σ)
  | addResponse (object : Nat) (next : HandlerProgram pl σ)
  | act (f : σ → σ) (next : σ → HandlerProgram pl σ)

/-- `struct request_handler_t`, with a callback that works on the heap. -/
structure HeapHandler (pl : Platform) (ω σ : Type) where
  name : CString
  cb : ServerClientHandlers ω → HandlerProgram pl σ

/-- What a server has besides its heap.  The last three fields record the handlers that
were called, the entries and their objects, and the arrays of pointers. -/
structure ServerState (pl : Platform) (ω σ : Type) where
  rest : σ
  calls : List (HeapHandler pl ω σ)
  appended : List (Nat × Nat)
  arrays : List Nat

/-- A server that has not responded yet. -/
def ServerState.init {pl : Platform} {ω σ : Type} (rest : σ) : ServerState pl ω σ where
  rest := rest
  calls := []
  appended := []
  arrays := []

/-- A program of a server. -/
abbrev ServerProgram (pl : Platform) (ω σ : Type) :=
  Program (HeapBlock pl) (ServerState pl ω σ)

section Chain

variable {pl : Platform} {ω σ : Type}

/-- An action on what is not recorded. -/
def performRest {α : Type} (f : σ → α × σ) : ServerProgram pl ω σ α :=
  perform fun state => ((f state.rest).1, { state with rest := (f state.rest).2 })

/-- An entry for an object is on the list. -/
def noteResponse (entry object : Nat) : ServerProgram pl ω σ Unit :=
  perform fun state => ((), { state with appended := state.appended ++ [(entry, object)] })

/-- `server_request_add_response`; the new head. -/
def serverRequestAddResponseOnHeap (response object : Nat) : ServerProgram pl ω σ Nat := do
  let entry ← malloc (.entry null null)
  let node ← (responseChain pl).readNode entry
  -- `entry->response = object`
  write entry ((responseChain pl).make object node.2)
  let response ← (responseChain pl).llAppend response entry
  noteResponse entry object
  pure response

/-- The call of a handler: what it returns, and the head of the list. -/
def HandlerProgram.call : HandlerProgram pl σ → (response : Nat) →
    ServerProgram pl ω σ (Option CString × Nat)
  | .done result, response => pure (result, response)
  | .allocate object next, response => do
      let address ← malloc (.object object)
      (next address).call response
  | .addResponse object next, response => do
      let response ← serverRequestAddResponseOnHeap response object
      next.call response
  | .act f next, response => do
      let rest ← performRest fun rest => (rest, f rest)
      (next rest).call response

/-! ## The list -/

variable {h : BlockHeap.Heap (HeapBlock pl)} (state : ServerState pl ω σ) {head : Nat}
  {nodes : List (Nat × Nat)}

/-- An object gets an entry at the end of the list, in a new block. -/
theorem run_serverRequestAddResponseOnHeap (hchain : (responseChain pl).Chain h head nodes)
    (object : Nat) :
    ∃ head' h', (serverRequestAddResponseOnHeap head object).run (h, state) =
        (some head', (h', { state with appended := state.appended ++ [(h.next, object)] })) ∧
      (responseChain pl).Chain h' head' (nodes ++ [(h.next, object)]) ∧
      h'.live = insert h.next h.live ∧ h.Grows h' ∧
      ∀ a ∈ h.live, (∀ node ∈ nodes, node.1 ≠ a) → h'.contents a = h.contents a := by
  let cleared := h.allocate (.entry null null)
  let filled := cleared.write h.next ((responseChain pl).make object null)
  have hmem : h.next ∈ cleared.live := Finset.mem_insert_self _ _
  have hnew : ∀ node ∈ nodes, node.1 ≠ h.next := fun node hnode heq =>
    h.next_notMem_live (heq ▸ hchain.mem_live node hnode)
  have hkept : (responseChain pl).Chain filled head nodes :=
    (hchain.allocate _).write _ hnew
  have hnode : (responseChain pl).node? (filled.contents h.next) = some (object, null) := by
    rw [Heap.contents_write_self]
    rfl
  obtain ⟨head', h', hrun, hchain', hlive, hnext, -, hcontents⟩ :=
    NodeLayout.run_llAppend state hkept (show h.next ∈ filled.live from hmem) hnode hnew
  have hread : ((responseChain pl).readNode h.next).run (cleared, state) =
      (some (null, null), (cleared, state)) :=
    NodeLayout.run_readNode state hmem (by rw [Heap.contents_allocate_self]; rfl)
  refine ⟨head', h', ?_, hchain', hlive, ?_, ?_⟩
  · rw [serverRequestAddResponseOnHeap, run_bind_of_some (run_malloc _), run_bind_of_some hread,
      run_bind_of_some (run_write_of_mem _ hmem)]
    exact run_bind_of_some hrun
  · have hgrows := h.grows_allocate (.entry null null)
    exact ⟨⟨hnext ▸ hgrows.next_le, fun a ha => hgrows.live a (hlive ▸ ha)⟩,
      hlive ▸ hgrows.subset⟩
  · intro a ha hother
    have hne : a ≠ h.next := fun heq => h.next_notMem_live (heq ▸ ha)
    rw [hcontents a hne hother, cleared.contents_write_of_ne _ hne,
      h.contents_allocate_of_mem _ ha]

/-- A handler is called and returns.  Behind the entries that were there it leaves those that
it appended, in new blocks; nothing that was live has been released or, entries apart,
written to. -/
theorem HandlerProgram.run_call (program : HandlerProgram pl σ)
    (hchain : (responseChain pl).Chain h head nodes) :
    ∃ result head' added h' state', (program.call head).run (h, state) =
        (some (result, head'), (h', state')) ∧
      (responseChain pl).Chain h' head' (nodes ++ added) ∧
      state'.appended = state.appended ++ added ∧ state'.arrays = state.arrays ∧
      state'.calls = state.calls ∧ h.Grows h' ∧
      ∀ a ∈ h.live, (∀ node ∈ nodes, node.1 ≠ a) → h'.contents a = h.contents a := by
  induction program generalizing h head nodes state with
  | done result =>
      refine ⟨result, head, [], h, state, rfl, ?_, ?_, rfl, rfl, .refl h, fun _ _ _ => rfl⟩
      · rw [List.append_nil]
        exact hchain
      · rw [List.append_nil]
  | allocate object next ih =>
      obtain ⟨result, head', added, h', state', hrun, hchain', happended, harrays, hcalls, hgrows,
        hcontents⟩ := ih h.next state (hchain.allocate (.object object))
      refine ⟨result, head', added, h', state', ?_, hchain', happended, harrays, hcalls,
        (h.grows_allocate _).trans hgrows, fun a ha hother => ?_⟩
      · rw [HandlerProgram.call, run_bind_of_some (run_malloc _), hrun]
      · rw [hcontents a (Finset.mem_insert_of_mem ha) hother, h.contents_allocate_of_mem _ ha]
  | addResponse object next ih =>
      obtain ⟨head₁, h₁, hrun₁, hchain₁, -, hgrows₁, hcontents₁⟩ :=
        run_serverRequestAddResponseOnHeap state hchain object
      obtain ⟨result, head', added, h', state', hrun, hchain', happended, harrays, hcalls, hgrows,
        hcontents⟩ :=
          ih { state with appended := state.appended ++ [(h.next, object)] } hchain₁
      refine ⟨result, head', (h.next, object) :: added, h', state', ?_, ?_, ?_, harrays, hcalls,
        hgrows₁.trans hgrows, fun a ha hother => ?_⟩
      · rw [HandlerProgram.call, run_bind_of_some hrun₁, hrun]
      · rw [← List.append_cons] at hchain'
        exact hchain'
      · rw [happended, List.append_assoc]
        rfl
      · rw [hcontents a (hgrows₁.subset ha) ?_, hcontents₁ a ha hother]
        -- the new entry is a new block
        intro node hnode
        rcases List.mem_append.mp hnode with hold | hnew
        · exact hother node hold
        · rw [List.mem_singleton.mp hnew]
          exact fun heq : h.next = a => h.next_notMem_live (heq ▸ ha)
  | act f next ih =>
      obtain ⟨result, head', added, h', state', hrun, hchain', happended, harrays, hcalls, hgrows,
        hcontents⟩ := ih state.rest { state with rest := f state.rest } hchain
      refine ⟨result, head', added, h', state', ?_, hchain', happended, harrays, hcalls, hgrows,
        hcontents⟩
      rw [HandlerProgram.call, run_bind_of_some rfl, ← hrun]

end Chain

end ZxProto
