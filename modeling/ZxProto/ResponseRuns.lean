import ZxProto.ResponseRelease

/-!
# Runs of a server, and its heap

Between two requests nothing of a response may be left on the heap.  A chain is released
behind a handler that returned NULL, and behind no other.

* `GivesBack` — what a handler must leave behind;
  `run_clientRequestCompleteOnHeap_of_ok`: then everything is released, and the answer is
  that of the handler's result;
* `Settled` — the blocks of all responses so far are gone;
* `ServerStep`, `serve`, `WellServed`, `responses_released` — runs;
* `HandlerProgram.ofResult` — handlers that allocate what they append;
  `clientRequestCompleteOnHeap_refines`: for them, the function answers like
  `clientRequestComplete`;
* `leak_of_text` — what a handler leaves behind that returns a text.
-/

namespace ZxProto

open BlockHeap BlockHeap.Program

section Runs

variable {pl : Platform} {ω σ : Type}

/-! ## One request -/

/-- What a handler must leave behind for `client_request_complete`: it has returned NULL or
appended nothing, and what it appended are objects on the heap, each appended once, and
not more than an `int` counts. -/
structure GivesBack (h : BlockHeap.Heap (HeapBlock pl)) (result : Option CString)
    (added : List (Nat × Nat)) : Prop where
  silent : result = none ∨ added = []
  objects : ∃ objects, HoldObjects h (added.map Prod.snd) objects
  distinct : (added.map Prod.snd).Nodup
  count : added.length < intLimit

variable {h : BlockHeap.Heap (HeapBlock pl)} (state : ServerState pl ω σ) {head : Nat}
  {nodes : List (Nat × Nat)}

variable (send : List UInt8 → σ → Int × σ) {handlers : List (HeapHandler pl ω σ)}
  {handler : HeapHandler pl ω σ} {request : ServerClientHandlers ω} (requestId : UInt16)
  {s s₀ s₁ : BlockHeap.Heap (HeapBlock pl) × ServerState pl ω σ} {result : Option CString}
  {added : List (Nat × Nat)}

/-- The text that is returned is the handler's. -/
theorem HandlerResult.text?_answer (result : HandlerResult pl) :
    result.answer.text? = result.error := by
  obtain ⟨error, responses⟩ := result
  rw [HandlerResult.answer]
  cases error with
  | some text => rfl
  | none =>
      dsimp only
      split <;> rfl

/-- Behind such a handler, the function returns, the blocks of the responses are gone, and the
answer is the one that is made of the handler's result. -/
theorem run_clientRequestCompleteOnHeap_of_ok
    (hfind : (findRequestHandler handlers request).run s = (some (.ok handler), s₀))
    (hcall : (callHandler handler request).run s₀ = (some (result, head), s₁))
    (hchain : (responseChain pl).Chain s₁.1 head added) (hgives : GivesBack s₁.1 result added)
    {objects : List (SendableObject pl)}
    (hobjects : HoldObjects s₁.1 (added.map Prod.snd) objects) :
    ∃ s', (clientRequestCompleteOnHeap send handlers request requestId).run s =
        (some (HandlerResult.answer ⟨result, objects⟩).text?, s') ∧
      Responded send requestId (HandlerResult.answer ⟨result, objects⟩) added s₁ s' := by
  rw [run_clientRequestCompleteOnHeap send requestId hfind, serveFound, run_bind_of_some hcall]
  cases result with
  | some text =>
      have hnil : added = [] := hgives.silent.resolve_left (Option.some_ne_none text)
      subst hnil
      exact ⟨s₁, rfl, .of_nil send requestId s₁ rfl⟩
  | none =>
      obtain ⟨s', hrespond, hresponded⟩ :=
        run_respond s₁.2 send requestId hchain hobjects hgives.distinct hgives.count
      refine ⟨s', ?_, hresponded⟩
      rw [HandlerResult.text?_answer]
      dsimp only
      rw [run_bind_of_some hrespond]
      rfl

/-! ## Runs -/

/-- The blocks that make up the responses so far. -/
def ServerState.responseBlocks (state : ServerState pl ω σ) : List Nat :=
  state.appended.flatMap (fun node => [node.1, node.2]) ++ state.arrays

/-- All blocks of responses are gone. -/
def Settled (s : BlockHeap.Heap (HeapBlock pl) × ServerState pl ω σ) : Prop :=
  ∀ a ∈ s.2.responseBlocks, s.1.Gone a

theorem Settled.congr {s' : BlockHeap.Heap (HeapBlock pl) × ServerState pl ω σ}
    (hsettled : Settled s) {added : List (Nat × Nat)} {arrays : List Nat}
    (hevolves : s.1.Evolves s'.1) (happended : s'.2.appended = s.2.appended ++ added)
    (harrays : s'.2.arrays = s.2.arrays ++ arrays)
    (hadded : ∀ node ∈ added, s'.1.Gone node.1 ∧ s'.1.Gone node.2)
    (hgone : ∀ a ∈ arrays, s'.1.Gone a) : Settled s' := by
  intro a ha
  rw [ServerState.responseBlocks, happended, harrays] at ha
  simp only [List.flatMap_append, List.mem_append, List.mem_flatMap, List.mem_cons,
    List.not_mem_nil, or_false] at ha
  rcases ha with (⟨node, hnode, ha⟩ | ⟨node, hnode, rfl | rfl⟩) | hold | hnew
  · refine (hsettled a (List.mem_append_left _ ?_)).evolves hevolves
    exact List.mem_flatMap.mpr ⟨node, hnode, by simpa using ha⟩
  · exact (hadded node hnode).1
  · exact (hadded node hnode).2
  · exact (hsettled a (List.mem_append_right _ hold)).evolves hevolves
  · exact hgone a hnew

/-- If the request calls a handler, then the handler leaves behind what it must. -/
def HandlesWell (handlers : List (HeapHandler pl ω σ)) (request : ServerClientHandlers ω)
    (s : BlockHeap.Heap (HeapBlock pl) × ServerState pl ω σ) : Prop :=
  ∀ handler s₀, (findRequestHandler handlers request).run s = (some (.ok handler), s₀) →
    ∀ result head s₁ added, (callHandler handler request).run s₀ = (some (result, head), s₁) →
      s₁.2.appended = s₀.2.appended ++ added → GivesBack s₁.1 result added

/-- A request completes without a fault, and leaves no block of a response. -/
theorem Settled.clientRequestComplete (hsettled : Settled s)
    (hwell : HandlesWell handlers request s) :
    ∃ text s', (clientRequestCompleteOnHeap send handlers request requestId).run s =
      (some text, s') ∧ Settled s' := by
  cases hrequested : requestedHandler handlers request with
  | error text =>
      obtain ⟨heap', hrun, hkeeps⟩ :=
        run_clientRequestCompleteOnHeap_of_error send requestId s.1 s.2 hrequested
      have hsettled' : Settled (heap', s.2) :=
        hsettled.congr hkeeps.grows.toEvolves (List.append_nil _).symm (List.append_nil _).symm
          (fun _ hnode => absurd hnode List.not_mem_nil) fun _ ha => absurd ha List.not_mem_nil
      exact ⟨some text, (heap', s.2), hrun, hsettled'⟩
  | ok handler =>
      obtain ⟨heap₀, hfind, hkeeps⟩ := run_findRequestHandler handlers request s.1 s.2
      rw [hrequested] at hfind
      obtain ⟨result, head, added, heap₁, state₁, hcall, hchain, happended, harrays, -, hgrows,
        -⟩ := run_callHandler handler request heap₀ s.2
      have hgives := hwell handler _ hfind result head _ added hcall happended
      obtain ⟨objects, hobjects⟩ := hgives.objects
      obtain ⟨s', hrun, hresponded⟩ :=
        run_clientRequestCompleteOnHeap_of_ok send requestId hfind hcall hchain hgives hobjects
      obtain ⟨arrays, harrays', hgone⟩ := hresponded.arrays
      refine ⟨_, s', hrun, hsettled.congr
        ((hkeeps.grows.trans hgrows).toEvolves.trans hresponded.drops.evolves)
        (hresponded.appended.trans happended) ?_ (hresponded.gone hchain hobjects) hgone⟩
      rw [harrays', harrays]

/-- What happens to a server: a request is complete, or something changes that is not on its
heap. -/
inductive ServerStep (ω σ : Type)
  | complete (request : ServerClientHandlers ω) (requestId : UInt16)
  | other (f : σ → σ)

/-- The program of a step; `process` sends the text that is returned from its stack. -/
def ServerStep.programBy (find : FindStr pl ω σ) : ServerStep ω σ → ServerProgram pl ω σ Unit
  | .complete request requestId => do
      let _text ← clientRequestCompleteBy send find request requestId
      pure ()
  | .other f => performRest fun rest => ((), f rest)

/-- A run of a server. -/
def serveBy (find : FindStr pl ω σ) : List (ServerStep ω σ) → ServerProgram pl ω σ Unit
  | [] => pure ()
  | step :: steps => do
      step.programBy send find
      serveBy find steps

/-- A step, with a list of handlers. -/
def ServerStep.program (handlers : List (HeapHandler pl ω σ)) :
    ServerStep ω σ → ServerProgram pl ω σ Unit :=
  ServerStep.programBy send (hashFindStr handlers)

/-- A run, with a list of handlers. -/
def serve (handlers : List (HeapHandler pl ω σ)) :
    List (ServerStep ω σ) → ServerProgram pl ω σ Unit :=
  serveBy send (hashFindStr handlers)

/-- In the step, a handler that is called leaves behind what it must. -/
def ServerStep.WellServed (handlers : List (HeapHandler pl ω σ)) (step : ServerStep ω σ)
    (s : BlockHeap.Heap (HeapBlock pl) × ServerState pl ω σ) : Prop :=
  match step with
  | .complete request _ => HandlesWell handlers request s
  | .other _ => True

/-- Along the run, every handler that is called leaves behind what it must. -/
def WellServed (handlers : List (HeapHandler pl ω σ)) :
    List (ServerStep ω σ) → BlockHeap.Heap (HeapBlock pl) × ServerState pl ω σ → Prop
  | [], _ => True
  | step :: steps, s => step.WellServed handlers s ∧
      ∀ s', (step.program send handlers).run s = (some (), s') → WellServed handlers steps s'

theorem Settled.step {step : ServerStep ω σ} (hsettled : Settled s)
    (hwell : step.WellServed handlers s) :
    ∃ s', (step.program send handlers).run s = (some (), s') ∧ Settled s' := by
  cases step with
  | complete request requestId =>
      obtain ⟨text, s', hrun, hsettled'⟩ := hsettled.clientRequestComplete send requestId hwell
      exact ⟨s', (run_bind_of_some hrun).trans rfl, hsettled'⟩
  | other f => exact ⟨_, rfl, hsettled⟩

theorem Settled.serve {steps : List (ServerStep ω σ)} (hsettled : Settled s)
    (hwell : WellServed send handlers steps s) :
    ∃ s', (serve send handlers steps).run s = (some (), s') ∧ Settled s' := by
  induction steps generalizing s with
  | nil => exact ⟨s, rfl, hsettled⟩
  | cons step steps ih =>
      obtain ⟨hstep, hrest⟩ := hwell
      obtain ⟨s₁, hrun, hsettled₁⟩ := hsettled.step send hstep
      obtain ⟨s', hserve, hsettled'⟩ := ih hsettled₁ (hrest s₁ hrun)
      exact ⟨s', (run_bind_of_some hrun).trans hserve, hsettled'⟩

/-- **Responses are released.**  From any heap, whatever `send` does: along every run in which
each handler that is called returns NULL or appends nothing, and appends objects on the
heap, each once, nothing undefined happens, and every entry, every response object and
every array of pointers has been released exactly once. -/
theorem responses_released (heap : BlockHeap.Heap (HeapBlock pl)) (rest : σ)
    {steps : List (ServerStep ω σ)} (hwell : WellServed send handlers steps (heap, .init rest)) :
    ∃ s', (serve send handlers steps).run (heap, .init rest) = (some (), s') ∧
      ∀ a ∈ s'.2.responseBlocks, a ∉ s'.1.live ∧ s'.1.released.count a = 1 := by
  have hfirst : Settled (heap, (ServerState.init rest : ServerState pl ω σ)) :=
    fun _ ha => absurd ha List.not_mem_nil
  obtain ⟨s', hrun, hsettled⟩ := hfirst.serve send hwell
  exact ⟨s', hrun, fun a ha => ⟨(hsettled a ha).notMem, (hsettled a ha).count_released⟩⟩

/-- A handler that appends responses and returns a text leaves all of them behind: the
function returns with every entry live, and every object that was. -/
theorem leak_of_text {text : CString}
    (hfind : (findRequestHandler handlers request).run s = (some (.ok handler), s₀))
    (hcall : (callHandler handler request).run s₀ = (some (some text, head), s₁))
    (hchain : (responseChain pl).Chain s₁.1 head added) :
    (clientRequestCompleteOnHeap send handlers request requestId).run s =
        (some (some text), s₁) ∧
      ∀ node ∈ added, node.1 ∈ s₁.1.live ∧ s₁.1.released.count node.1 = 0 := by
  constructor
  · rw [run_clientRequestCompleteOnHeap send requestId hfind, serveFound, run_bind_of_some hcall]
    rfl
  · intro node hnode
    have hlive := hchain.mem_live node hnode
    exact ⟨hlive, s₁.1.count_released_of_mem hlive⟩

/-! ## Handlers that allocate what they append -/

/-- A handler that allocates an object for each of its responses, appends it, and returns. -/
def HandlerProgram.ofResult (error : Option CString) :
    List (SendableObject pl) → HandlerProgram pl σ
  | [] => .done error
  | object :: objects =>
      .allocate object fun address => .addResponse address (ofResult error objects)

/-- Such a handler appends its objects in order, each in a block of its own, and allocates nothing
else. -/
theorem run_call_ofResult (error : Option CString) (objects : List (SendableObject pl))
    (hchain : (responseChain pl).Chain h head nodes) :
    ∃ head' added h', ((HandlerProgram.ofResult error objects).call head).run (h, state) =
        (some (error, head'), (h', { state with appended := state.appended ++ added })) ∧
      (responseChain pl).Chain h' head' (nodes ++ added) ∧
      HoldObjects h' (added.map Prod.snd) objects ∧ (added.map Prod.snd).Nodup ∧
      h'.live = h.live ∪ chainBlocks added ∧ ∀ a ∈ chainBlocks added, h.next ≤ a := by
  induction objects generalizing h head nodes state with
  | nil =>
      refine ⟨head, [], h, ?_, ?_, .nil, List.nodup_nil, (Finset.union_empty _).symm,
        fun _ hmem => absurd hmem (Finset.notMem_empty _)⟩
      · rw [List.append_nil]
        rfl
      · rw [List.append_nil]
        exact hchain
  | cons object objects ih =>
      let h₁ := h.allocate (.object object)
      have hchain₁ : (responseChain pl).Chain h₁ head nodes := hchain.allocate _
      obtain ⟨head₂, h₂, hrun₂, hchain₂, hlive₂, hgrows₂, -⟩ :=
        run_serverRequestAddResponseOnHeap state hchain₁ h.next
      let state₂ : ServerState pl ω σ :=
        { state with appended := state.appended ++ [(h₁.next, h.next)] }
      obtain ⟨head', added, h', hrun, hchain', hobjects, hdistinct, hlive, hnew⟩ :=
        ih state₂ hchain₂
      let behind : HandlerProgram pl σ := .addResponse h.next (.ofResult error objects)
      have hbehind : (behind.call head).run (h₁, state) = (some (error, head'),
          (h', { state₂ with appended := state₂.appended ++ added })) :=
        (run_bind_of_some hrun₂).trans hrun
      -- what comes behind the allocation does not touch the object
      obtain ⟨_, _, _, h'', _, hcall, -, -, -, -, hgrows, hcontents⟩ :=
        behind.run_call state hchain₁
      obtain rfl : h' = h'' := congrArg (fun outcome => outcome.2.1) (hbehind.symm.trans hcall)
      have hallocated : h.next ∈ h₁.live := Finset.mem_insert_self _ _
      have hkept : h'.contents h.next = .object object := by
        rw [hcontents h.next hallocated fun node hnode heq =>
          h.next_notMem_live (heq ▸ hchain.mem_live node hnode)]
        exact h.contents_allocate_self _
      have hlater : ∀ a ∈ chainBlocks added, h.next < a := fun a hmem =>
        lt_of_lt_of_le (Nat.lt_succ_self _) (hgrows₂.next_le.trans (hnew a hmem))
      refine ⟨head', (h₁.next, h.next) :: added, h', ?_, ?_,
        .cons ⟨hgrows.subset hallocated, hkept⟩ hobjects,
        List.nodup_cons.mpr ⟨fun hmem =>
          Nat.lt_irrefl _ (hlater _ (mem_chainBlocks.mpr (Or.inr hmem))), hdistinct⟩, ?_, ?_⟩
      · rw [HandlerProgram.ofResult, HandlerProgram.call, run_bind_of_some (run_malloc _), hbehind,
          List.append_assoc]
        rfl
      · rw [← List.append_cons] at hchain'
        exact hchain'
      · have hlive₁ : h₁.live = insert h.next h.live := rfl
        rw [hlive, hlive₂, hlive₁]
        ext a
        simp only [Finset.mem_union, Finset.mem_insert, mem_chainBlocks, List.map_cons,
          List.mem_cons]
        tauto
      · intro a hmem
        simp only [mem_chainBlocks, List.map_cons, List.mem_cons] at hmem
        rcases hmem with (rfl | hfirst) | rfl | hsecond
        · exact Nat.le_succ _
        · exact (hlater a (mem_chainBlocks.mpr (Or.inl hfirst))).le
        · exact le_rfl
        · exact (hlater a (mem_chainBlocks.mpr (Or.inr hsecond))).le

/-- A result that such a handler may have: no text behind responses. -/
structure HandlerResult.Clean (result : HandlerResult pl) : Prop where
  silent : result.error = none ∨ result.responses = []
  count : result.responses.length < intLimit

/-- A call of such a handler adds the blocks of its responses. -/
theorem run_callHandler_ofResult {result : HandlerResult pl}
    (hcb : handler.cb request = .ofResult result.error result.responses)
    (h : BlockHeap.Heap (HeapBlock pl)) (state : ServerState pl ω σ) :
    ∃ head added s₁, (callHandler handler request).run (h, state) =
        (some (result.error, head), s₁) ∧
      (responseChain pl).Chain s₁.1 head added ∧ s₁.2.appended = state.appended ++ added ∧
      s₁.2.rest = state.rest ∧ HoldObjects s₁.1 (added.map Prod.snd) result.responses ∧
      h.Adds (chainBlocks added) s₁.1 ∧ (result.Clean → GivesBack s₁.1 result.error added) := by
  have hempty : (responseChain pl).Chain h null [] := rfl
  obtain ⟨head, added, h', hrun, hchain, hobjects, hdistinct, hlive, hnew⟩ :=
    run_call_ofResult { state with calls := state.calls ++ [handler] } result.error
      result.responses hempty
  have hlength : added.length = result.responses.length := by
    rw [← List.Forall₂.length_eq hobjects, List.length_map]
  let state₁ : ServerState pl ω σ :=
    { state with calls := state.calls ++ [handler], appended := state.appended ++ added }
  have hcalled : (callHandler handler request).run (h, state) =
      (some (result.error, head), (h', state₁)) := by
    rw [callHandler, run_bind_of_some rfl, hcb, ← hrun]
  obtain ⟨_, _, _, h'', _, hcalled', -, -, -, -, hgrows, hcontents⟩ :=
    run_callHandler handler request h state
  obtain rfl : h' = h'' := congrArg (fun outcome => outcome.2.1) (hcalled.symm.trans hcalled')
  refine ⟨head, added, (h', state₁), hcalled, hchain, rfl, rfl, hobjects,
    ⟨hlive, hnew, hcontents, hgrows.next_le⟩, fun hclean =>
      ⟨?_, ⟨result.responses, hobjects⟩, hdistinct, hlength ▸ hclean.count⟩⟩
  · refine hclean.silent.imp_right fun hnil => List.eq_nil_of_length_eq_zero ?_
    rw [hlength, hnil]
    rfl

/-- Every run is well served by such handlers. -/
theorem wellServed_ofResult (steps : List (ServerStep ω σ))
    (s : BlockHeap.Heap (HeapBlock pl) × ServerState pl ω σ)
    (hclean : ∀ handler ∈ handlers, ∀ request, ∃ result : HandlerResult pl,
      handler.cb request = .ofResult result.error result.responses ∧ result.Clean) :
    WellServed send handlers steps s := by
  induction steps generalizing s with
  | nil => trivial
  | cons step steps ih =>
      refine ⟨?_, fun s' _ => ih s'⟩
      cases step with
      | other f => trivial
      | complete request requestId =>
          intro handler s₀ hfind result head s₁ added hcall happended
          obtain ⟨_, hfind', -⟩ := run_findRequestHandler handlers request s.1 s.2
          have hrequested : requestedHandler handlers request = .ok handler :=
            (Option.some.inj (congrArg Prod.fst (hfind.symm.trans hfind'))).symm
          obtain ⟨made, hcb, hmade⟩ := hclean handler (mem_of_requestedHandler hrequested) request
          obtain ⟨_, added', s₁', hcall', -, happended', -, -, -, hgives⟩ :=
            run_callHandler_ofResult hcb s₀.1 s₀.2
          obtain ⟨hresult, rfl⟩ := Prod.mk.inj (hcall.symm.trans hcall')
          obtain ⟨rfl, -⟩ := Prod.mk.inj (Option.some.inj hresult)
          obtain rfl : added = added' :=
            List.append_cancel_left (happended.symm.trans happended')
          exact hgives hmade

/-! ## The two models of the function -/

/-- A name, and what its handler returns and appends. -/
abbrev NamedResult (pl : Platform) (ω : Type) :=
  CString × (ServerClientHandlers ω → HandlerResult pl)

/-- The handler on the heap. -/
def HeapHandler.ofResult (entry : NamedResult pl ω) : HeapHandler pl ω σ where
  name := entry.1
  cb request := .ofResult (entry.2 request).error (entry.2 request).responses

/-- The handler of which only the result is told. -/
def RequestHandler.ofResult {κ : Type} (entry : NamedResult pl ω) : RequestHandler pl κ ω where
  name := entry.1
  cb request := .done (entry.2 request) request

/-- Both models find the same handler, or none for the same reason. -/
theorem requestedHandler_ofResult (σ κ : Type) (table : List (NamedResult pl ω))
    (request : ServerClientHandlers ω) :
    let handlers : List (HeapHandler pl ω σ) := table.map .ofResult
    let others : List (RequestHandler pl κ ω) := table.map .ofResult
    (∃ text, requestedHandler handlers request = .error text ∧
      dispatch others request = .error text) ∨
    ∃ entry ∈ table, requestedHandler handlers request = .ok (.ofResult entry) ∧
      dispatch others request = .ok (.ofResult entry) := by
  intro handlers others
  rw [requestedHandler, dispatch]
  cases request.objects with
  | nil => exact Or.inl ⟨emptyRequest, rfl, rfl⟩
  | cons firstObject objects =>
      dsimp only
      cases firstObject.find? fun p => p.key == ProtoObjectPropertyKey.id.code with
      | none => exact Or.inl ⟨unknownReqId, rfl, rfl⟩
      | some id =>
          dsimp only
          have hheap : handlers.find? (fun handler => handler.name.bytes == copyStrProperty id) =
              (table.find? fun entry => entry.1.bytes == copyStrProperty id).map .ofResult := by
            rw [List.find?_map]
            rfl
          have hplain : findHandler others (copyStrProperty id) =
              (table.find? fun entry => entry.1.bytes == copyStrProperty id).map .ofResult := by
            rw [findHandler, List.find?_map]
            rfl
          rw [hheap, hplain]
          cases hfound : table.find? fun entry => entry.1.bytes == copyStrProperty id with
          | none => exact Or.inl ⟨unknownRequest, rfl, rfl⟩
          | some entry => exact Or.inr ⟨entry, List.mem_of_find?_eq_some hfound, rfl, rfl⟩

/-- **The heap makes no difference.**  For handlers that allocate what they append, and do not
return a text behind responses: the function returns the text of the answer that the model
without a heap gives, sends what that answer sends, and leaves the heap as it was. -/
theorem clientRequestCompleteOnHeap_refines {κ : Type}
    (a : Application pl κ (ServerClientHandlers ω)) (e : Endpoint pl κ (ServerClientHandlers ω))
    {table : List (NamedResult pl ω)} (hclean : ∀ entry ∈ table, (entry.2 request).Clean)
    (s : BlockHeap.Heap (HeapBlock pl) × ServerState pl ω σ) :
    let answer := ((clientRequestComplete (table.map RequestHandler.ofResult) request).run a e).1
    ∃ s', (clientRequestCompleteOnHeap send (table.map HeapHandler.ofResult) request
        requestId).run s = (some answer.text?, s') ∧
      s'.2.rest = answer.sendWith send requestId s.2.rest ∧ s.1.Keeps s'.1 := by
  intro answer
  rcases requestedHandler_ofResult σ κ table request with
    ⟨text, hrequested, hdispatch⟩ | ⟨entry, hentry, hrequested, hdispatch⟩
  · obtain ⟨heap', hrun, hkeeps⟩ :=
      run_clientRequestCompleteOnHeap_of_error send requestId s.1 s.2 hrequested
    have hanswer : answer = .text text := by
      show ((clientRequestComplete _ request).run a e).1 = _
      rw [clientRequestComplete, hdispatch]
      rfl
    rw [hanswer]
    exact ⟨_, hrun, rfl, hkeeps⟩
  · obtain ⟨heap₀, hfind, hkeeps⟩ :=
      run_findRequestHandler (table.map HeapHandler.ofResult) request s.1 s.2
    rw [hrequested] at hfind
    have hcb : (HeapHandler.ofResult entry : HeapHandler pl ω σ).cb request =
        .ofResult (entry.2 request).error (entry.2 request).responses := rfl
    obtain ⟨head, added, s₁, hcall, hchain, -, hrest, hobjects, hadds, hgives⟩ :=
      run_callHandler_ofResult hcb heap₀ s.2
    obtain ⟨s', hrun, hresponded⟩ :=
      run_clientRequestCompleteOnHeap_of_ok send requestId hfind hcall hchain
        (hgives (hclean entry hentry)) hobjects
    have hanswer : answer = (entry.2 request).answer := by
      show ((clientRequestComplete _ request).run a e).1 = _
      rw [clientRequestComplete, hdispatch]
      rfl
    rw [hanswer]
    refine ⟨s', hrun, ?_, hkeeps.trans (hadds.keeps_of_drops hresponded.drops)⟩
    rw [hresponded.rest, hrest]

end Runs

/-- An object with one property of two bytes. -/
def exampleObject : SendableObject .pc :=
  .allocate .pc (fun _ => 0) 16384
    [⟨ProtoObjectPropertyKey.payload.code, [7, 8], 2, by decide⟩] (by decide) (by decide)

/-- Two requests are answered with two objects each, and `send` fails. -/
theorem responses_released_two :
    let program : HandlerProgram .pc Unit := .ofResult none [exampleObject, exampleObject]
    let request := requestWithId [0x61] (by decide)
    ∃ s', (serve (fun _ _ => (-1, ())) (tableOfA program).handlers
        [.complete request 1, .complete request 2]).run (.empty (.bytes []), .init ()) =
          (some (), s') ∧
      ∀ a ∈ s'.2.responseBlocks, a ∉ s'.1.live ∧ s'.1.released.count a = 1 := by
  intro program request
  refine responses_released _ _ _ (wellServed_ofResult _ _ _ fun handler hmem request => ?_)
  rw [List.mem_singleton.mp hmem]
  exact ⟨⟨none, [exampleObject, exampleObject]⟩, rfl, Or.inl rfl,
    show 2 < intLimit by decide⟩

/-- A handler appends an object and returns a text: the entry and the object are never
released. -/
theorem not_responses_released_of_text :
    let program : HandlerProgram .pc Unit := .ofResult (some emptyRequest) [exampleObject]
    let served := (serve (fun bytes _ => (bytes.length, ())) (tableOfA program).handlers
      [.complete (requestWithId [0x61] (by decide)) 1]).run (.empty (.bytes []), .init ())
    served.1 = some () ∧ served.2.2.responseBlocks = [3, 2] ∧
      ∀ a ∈ served.2.2.responseBlocks,
        a ∈ served.2.1.live ∧ served.2.1.released.count a = 0 := by
  decide

end ZxProto
