import ZxProto.ResponseRuns
import ZxProto.UthashRuns

/-!
# Requests, with the table of the handlers

Elsewhere, a server has a list of handlers, whose names differ.  Here it has the table that the
registrations have made, and finds its handlers there.

* `registerHandlers` — `server_handlers_handle_request`, for each of the handlers;
* `hashFindStrInTable`, `serveInTable` — the lookup, and the runs that look up there;
* `Registered.findRequestHandlerBy_eq`, `serveInTable_eq` — they are the programs on the list.
-/

namespace ZxProto

open BlockHeap BlockHeap.Program

section Lookup

variable {pl : Platform} {ω σ : Type}

/-- `struct request_handler_t* handlers`, without a table or with one. -/
abbrev HandlerHead (pl : Platform) (ω σ : Type) :=
  Option (Uthash.UTHashTable (HeapHandler pl ω σ))

/-- The registrations of a program. -/
def registerHandlers (malloc : Nat → Bool) (handlers : List (HeapHandler pl ω σ)) :
    Option (HandlerHead pl ω σ) :=
  Uthash.registerAll malloc HeapHandler.name none handlers

/-- `HASH_FIND_STR`. -/
def hashFindStrInTable (head : HandlerHead pl ω σ) (findstr : Nat) :
    ServerProgram pl ω σ (Option (HeapHandler pl ω σ)) := do
  let key ← readCString findstr
  pure (Uthash.hashFindStr head key)

/-- A run of a server, with the table of its handlers. -/
def serveInTable (send : List UInt8 → σ → Int × σ) (head : HandlerHead pl ω σ) :
    List (ServerStep ω σ) → ServerProgram pl ω σ Unit :=
  serveBy send (hashFindStrInTable head)

/-! ## The same programs -/

variable {malloc : Nat → Bool} {handlers : List (HeapHandler pl ω σ)} {head : HandlerHead pl ω σ}

/-- What makes the table and the list equal: no block for `2 ^ 32` buckets, and short names that
differ. -/
structure Registered (malloc : Nat → Bool) (handlers : List (HeapHandler pl ω σ))
    (head : HandlerHead pl ω σ) : Prop where
  bounded : malloc (Uthash.sizeofUTHashBucket * 2 ^ 32) = false
  distinct : (handlers.map HeapHandler.name).Nodup
  short : ∀ handler ∈ handlers, Uthash.Short handler.name
  run : registerHandlers malloc handlers = some head

/-- The string of an ID, up to its first zero. -/
def idString (id : Property) : CString where
  bytes := copyStrProperty id
  noNul := fun hmem => by simpa using List.mem_takeWhile_imp hmem

theorem short_idString (id : Property) : Uthash.Short (idString id) := by
  have hle : (copyStrProperty id).length ≤ id.value.length :=
    List.Sublist.length_le (List.takeWhile_sublist _)
  exact hle.trans_lt (id.value_lt.trans (by decide))

theorem Registered.hashFindStr_eq (h : Registered malloc handlers head) (id : Property) :
    Uthash.hashFindStr head (copyStrProperty id) =
      handlers.find? fun handler => handler.name.bytes == copyStrProperty id := by
  have hfound := Uthash.hashFindStr_of_run h.bounded h.distinct h.short h.run
    (short_idString id)
  refine hfound.trans (congrArg (fun p => List.find? p handlers) (funext fun handler => ?_))
  rw [Bool.eq_iff_iff, beq_iff_eq, beq_iff_eq]
  constructor
  · intro hname
    exact congrArg CString.bytes hname
  · intro hbytes
    exact CString.eq_of_bytes_eq hbytes

theorem program_eq {α : Type} {m m' : ServerProgram pl ω σ α} (h : ∀ s, m.run s = m'.run s) :
    m = m' := by
  cases m
  cases m'
  exact congrArg Program.mk (funext h)

/-- The copy of an ID is a string. -/
theorem run_readCString_copy (id : Property) (heap : BlockHeap.Heap (HeapBlock pl))
    (state : ServerState pl ω σ) :
    (readCString heap.next).run (heap.allocate (.bytes (id.value ++ [0])), state) =
      (some (copyStrProperty id), (heap.allocate (.bytes (id.value ++ [0])), state)) := by
  have hmem : heap.next ∈ (heap.allocate (.bytes (id.value ++ [0]))).live :=
    Finset.mem_insert_self _ _
  rw [readCString, run_bind_of_some (run_load_of_mem hmem), Heap.contents_allocate_self]
  dsimp only
  rw [if_pos (List.mem_append_right _ List.mem_cons_self), takeWhile_copy]
  rfl

/-- The handler is found in the table as in the list. -/
theorem Registered.findRequestHandlerBy_eq (h : Registered malloc handlers head)
    (request : ServerClientHandlers ω) :
    findRequestHandlerBy (hashFindStrInTable head) request =
      findRequestHandler handlers request := by
  rw [findRequestHandler, findRequestHandlerBy, findRequestHandlerBy]
  cases request.objects with
  | nil => rfl
  | cons firstObject objects =>
      dsimp only
      cases firstObject.find? fun p => p.key == ProtoObjectPropertyKey.id.code with
      | none => rfl
      | some id =>
          refine program_eq fun s => ?_
          obtain ⟨heap, state⟩ := s
          have hstring := run_readCString_copy id heap state
          have htable : (hashFindStrInTable head heap.next).run
              (heap.allocate (.bytes (id.value ++ [0])), state) =
                (some (handlers.find? fun handler => handler.name.bytes == copyStrProperty id),
                  (heap.allocate (.bytes (id.value ++ [0])), state)) := by
            rw [hashFindStrInTable, run_bind_of_some hstring, h.hashFindStr_eq]
            rfl
          have hlist : (hashFindStr handlers heap.next).run
              (heap.allocate (.bytes (id.value ++ [0])), state) =
                (some (handlers.find? fun handler => handler.name.bytes == copyStrProperty id),
                  (heap.allocate (.bytes (id.value ++ [0])), state)) := by
            rw [hashFindStr, run_bind_of_some hstring]
            rfl
          dsimp only
          rw [copyStrPropertyOnHeap, run_bind_of_some (run_malloc _),
            run_bind_of_some (run_malloc _)]
          refine (run_bind_of_some htable).trans (Eq.trans ?_ (run_bind_of_some hlist).symm)
          rfl

/-- **The table is the list.**  With the handlers registered under distinct names, every run of a
server on the table is the run on the list of them. -/
theorem serveInTable_eq (h : Registered malloc handlers head)
    (send : List UInt8 → σ → Int × σ) (steps : List (ServerStep ω σ)) :
    serveInTable send head steps = serve send handlers steps := by
  unfold serveInTable serve
  induction steps with
  | nil => rfl
  | cons step steps ih =>
      have hstep : step.programBy send (hashFindStrInTable head) =
          step.programBy send (hashFindStr handlers) := by
        cases step with
        | complete request requestId =>
            have hcomplete : clientRequestCompleteBy send (hashFindStrInTable head) request
                requestId = clientRequestCompleteBy send (hashFindStr handlers) request requestId :=
              congrArg (· >>= serveFound send request requestId)
                (h.findRequestHandlerBy_eq request)
            rw [ServerStep.programBy, hcomplete, ServerStep.programBy]
        | other f => rfl
      rw [serveBy, hstep, ih, serveBy]

end Lookup

/-- A server with one handler, and a request for it. -/
theorem serveInTable_eq_one :
    let handlers := (tableOfA (.done none)).handlers
    let send : List UInt8 → Unit → Int × Unit := fun bytes _ => (bytes.length, ())
    let request := requestWithId [0x61] (by decide)
    ∃ head, registerHandlers Uthash.boundedMalloc handlers = some head ∧
      serveInTable send head [.complete request 1] = serve send handlers [.complete request 1] := by
  intro handlers send request
  obtain ⟨head, hrun⟩ := Option.isSome_iff_exists.mp
    (show (registerHandlers Uthash.boundedMalloc handlers).isSome = true by decide +kernel)
  have hshort : ∀ handler ∈ handlers, Uthash.Short handler.name := by
    intro handler hmem
    rw [List.mem_singleton.mp hmem]
    exact show 1 < 2 ^ 32 by decide
  exact ⟨head, hrun, serveInTable_eq ⟨by decide, (tableOfA _).distinct, hshort, hrun⟩ send _⟩

end ZxProto
