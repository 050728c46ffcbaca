import ZxProto.RequestComplete

/-!
# The release of the responses

A handler that returned NULL has handed its objects over with the chain: it is counted,
copied into an array, sent and released.

* `HoldObjects` — pointers to objects that are live;
* `run_protoSendOnHeap` — the objects are sent, and the heap is as before;
* `Filling`, `run_fillArray` and `Releasing`, `run_releaseChain` — the two loops, each with
  the invariant that carries it;
* `Listed` — the heap when the array is filled; `Listed.release`, when all is released;
* `Responded`, `run_respond` — what becomes of a chain of objects: its blocks are dropped.
-/

namespace ZxProto

open BlockHeap BlockHeap.Program

section Release

variable {pl : Platform} {ω σ : Type}

/-! ## Objects -/

/-- The pointers point at live blocks that hold the objects. -/
def HoldObjects (h : BlockHeap.Heap (HeapBlock pl)) :
    List Nat → List (SendableObject pl) → Prop :=
  List.Forall₂ fun pointer object => pointer ∈ h.live ∧ h.contents pointer = .object object

variable {h h' : BlockHeap.Heap (HeapBlock pl)} (state : ServerState pl ω σ) {head : Nat}
  {nodes : List (Nat × Nat)} {pointers : List Nat} {objects : List (SendableObject pl)}

theorem HoldObjects.of_mem (hobjects : HoldObjects h pointers objects) :
    ∀ pointer ∈ pointers, pointer ∈ h.live ∧ ∃ object, h.contents pointer = .object object := by
  unfold HoldObjects at hobjects
  induction hobjects with
  | nil => exact fun pointer hmem => absurd hmem List.not_mem_nil
  | cons hfirst _ ih =>
      intro pointer hmem
      rcases List.mem_cons.mp hmem with rfl | hmem
      · exact ⟨hfirst.1, _, hfirst.2⟩
      · exact ih pointer hmem

theorem HoldObjects.congr (hobjects : HoldObjects h pointers objects)
    (hsame : ∀ a ∈ pointers, a ∈ h.live → a ∈ h'.live ∧ h'.contents a = h.contents a) :
    HoldObjects h' pointers objects := by
  unfold HoldObjects at hobjects ⊢
  induction hobjects with
  | nil => exact .nil
  | cons hfirst _ ih =>
      obtain ⟨hlive, hcontents⟩ := hsame _ List.mem_cons_self hfirst.1
      exact .cons ⟨hlive, hcontents.trans hfirst.2⟩
        (ih fun a ha => hsame a (List.mem_cons_of_mem _ ha))

theorem HoldObjects.keeps (hobjects : HoldObjects h pointers objects) (hkeeps : h.Keeps h') :
    HoldObjects h' pointers objects :=
  hobjects.congr fun a _ ha => ⟨hkeeps.live.ge ha, hkeeps.contents a ha⟩

/-- No entry of a chain is one of the objects. -/
theorem HoldObjects.ne_of_chain (hobjects : HoldObjects h pointers objects)
    (hchain : (responseChain pl).Chain h head nodes) :
    ∀ pointer ∈ pointers, ∀ node ∈ nodes, node.1 ≠ pointer := by
  intro pointer hpointer
  obtain ⟨-, object, hobject⟩ := hobjects.of_mem pointer hpointer
  exact hchain.ne_of_node?_eq_none (by rw [hobject]; rfl)

theorem run_readObjects (hobjects : HoldObjects h pointers objects) :
    (readObjects pointers).run (h, state) =
      (some (objects.map SendableObject.object), (h, state)) := by
  unfold HoldObjects at hobjects
  induction hobjects with
  | nil => rfl
  | cons hfirst _ ih =>
      rw [readObjects, run_bind_of_some (run_load_of_mem hfirst.1), hfirst.2]
      dsimp only
      rw [run_bind_of_some ih]
      rfl

/-! ## Sending -/

/-- More objects than are sent make no difference. -/
theorem protoSend_take (send : List UInt8 → σ → Int × σ) (objects : List OwnedObject)
    (amount : UInt8) (requestId : UInt16) (flags : UInt8) :
    protoSend pl send (objects.take amount.toNat) amount requestId flags =
      protoSend pl send objects amount requestId flags := by
  funext rest
  unfold protoSend
  rw [List.take_take, Nat.min_self]

theorem run_performRest {α : Type} (f : σ → α × σ) :
    (performRest f).run (h, state) =
      (some (f state.rest).1, (h, { state with rest := (f state.rest).2 })) := rfl

/-- `proto_send` sends the objects that the array points at; its own buffer is released,
whether or not `send` fails. -/
theorem run_protoSendOnHeap (send : List UInt8 → σ → Int × σ) {asArray : Nat} {array : List Nat}
    (hlive : asArray ∈ h.live) (harray : h.contents asArray = .pointers array)
    (hobjects : HoldObjects h array objects) (amount : UInt8) (requestId : UInt16)
    (flags : UInt8) :
    ∃ h', (protoSendOnHeap send asArray amount requestId flags).run (h, state) =
        (some (protoSend pl send (objects.map SendableObject.object) amount requestId flags
            state.rest).1,
          (h', { state with rest := (protoSend pl send (objects.map SendableObject.object) amount
            requestId flags state.rest).2 })) ∧
      h.Keeps h' := by
  have hsent : HoldObjects h (array.take amount.toNat) (objects.take amount.toNat) :=
    List.forall₂_take _ hobjects
  have hread := run_readObjects state hsent
  rw [List.map_take] at hread
  rw [protoSendOnHeap, run_bind_of_some (run_load_of_mem hlive), harray]
  dsimp only
  rw [run_bind_of_some hread, protoSend_take]
  cases pl.combineObjectsUponSending with
  | true =>
      rw [if_pos rfl]
      let frame : HeapBlock pl := .bytes (headerBytes flags (requestSize
        ((objects.map SendableObject.object).take amount.toNat)) requestId ++
          ((objects.map SendableObject.object).take amount.toNat).flatMap (objectBytes pl))
      have hmem : h.next ∈ (h.allocate frame).live := Finset.mem_insert_self _ _
      refine ⟨_, ?_, h.keeps_allocate_release frame hmem⟩
      rw [run_bind_of_some (run_malloc frame), run_bind_of_some (run_performRest state _),
        run_bind_of_some (run_free_of_mem hmem)]
      rfl
  | false =>
      rw [if_neg Bool.false_ne_true]
      exact ⟨h, rfl, .refl h⟩

theorem run_setPointer {asArray counter response : Nat} {array : List Nat}
    (hlive : asArray ∈ h.live) (harray : h.contents asArray = .pointers array)
    (hroom : counter < array.length) :
    (setPointer asArray counter response).run (h, state) =
      (some (), (h.write asArray (.pointers (array.set counter response)), state)) := by
  rw [setPointer, run_bind_of_some (run_load_of_mem hlive), harray]
  dsimp only
  rw [if_pos hroom, run_write_of_mem _ hlive]

/-- The array while it is filled: the responses of the entries that are done, then NULL. -/
structure Filling (h : BlockHeap.Heap (HeapBlock pl)) (state : ServerState pl ω σ)
    (asArray count : Nat) (done : List (Nat × Nat)) (counter : Nat)
    (s : BlockHeap.Heap (HeapBlock pl) × ServerState pl ω σ) : Prop where
  counter : counter = done.length
  live : s.1.live = h.live
  next : s.1.next = h.next
  array : s.1.contents asArray =
    .pointers (done.map Prod.snd ++ List.replicate (count - done.length) null)
  other : ∀ a, a ≠ asArray → s.1.contents a = h.contents a
  state : s.2 = state

variable {state} in
/-- One turn of the loop: the NULL behind the responses that are done gives way. -/
theorem Filling.step {asArray counter : Nat} {done rest : List (Nat × Nat)} {node : Nat × Nat}
    {s : BlockHeap.Heap (HeapBlock pl) × ServerState pl ω σ} (hlive : asArray ∈ h.live)
    (hnodes : nodes = done ++ node :: rest)
    (hfilling : Filling h state asArray nodes.length done counter s)
    (hchain : (responseChain pl).Chain s.1 node.1 (node :: rest)) :
    ∃ s', ((do
        let entry ← (responseChain pl).readNode node.1
        setPointer asArray counter entry.1
        pure (counter + 1)) : ServerProgram pl ω σ Nat).run s = (some (counter + 1), s') ∧
      Filling h state asArray nodes.length (done ++ [node]) (counter + 1) s' ∧
      (responseChain pl).Chain s'.1 node.1 (node :: rest) := by
  obtain ⟨h₁, state₁⟩ := s
  have hcounter := hfilling.counter
  subst hcounter
  have hlength : nodes.length - done.length = (nodes.length - (done.length + 1)) + 1 := by
    rw [hnodes, List.length_append, List.length_cons]
    omega
  let array := done.map Prod.snd ++ List.replicate (nodes.length - done.length) null
  let h₂ := h₁.write asArray (.pointers (array.set done.length node.2))
  have hroom : done.length < array.length := by
    rw [List.length_append, List.length_map, List.length_replicate, hlength]
    omega
  have hset : (setPointer asArray done.length node.2).run (h₁, state₁) = (some (), (h₂, state₁)) :=
    run_setPointer state₁ (hfilling.live ▸ hlive) hfilling.array hroom
  have hother : ∀ entry ∈ node :: rest, entry.1 ≠ asArray :=
    hchain.ne_of_node?_eq_none (by rw [hfilling.array]; rfl)
  have hkept : (responseChain pl).Chain h₂ node.1 (node :: rest) := hchain.write _ hother
  obtain ⟨-, hentry, next, hnode, -⟩ := hchain
  refine ⟨(h₂, state₁), ?_, ⟨?_, hfilling.live, hfilling.next, ?_, ?_, hfilling.state⟩, hkept⟩
  · rw [run_bind_of_some (NodeLayout.run_readNode state₁ hentry hnode), run_bind_of_some hset]
    rfl
  · rw [List.length_append]
    rfl
  · show h₂.contents asArray = _
    rw [Heap.contents_write_self, List.set_append_right _ _ (List.length_map _).le, hlength,
      List.replicate_succ, List.length_map, Nat.sub_self, List.set_cons_zero, List.map_append,
      List.append_assoc, List.length_append]
    rfl
  · intro a ha
    show h₂.contents a = _
    rw [h₁.contents_write_of_ne _ ha]
    exact hfilling.other a ha

/-- The array gets the response of each entry, in the order of the chain. -/
theorem run_fillArray (hchain : (responseChain pl).Chain h head nodes) {asArray : Nat}
    (hlive : asArray ∈ h.live)
    (harray : h.contents asArray = .pointers (List.replicate nodes.length null)) :
    ∃ h', (fillArray head asArray).run (h, state) = (some nodes.length, (h', state)) ∧
      h'.live = h.live ∧ h'.next = h.next ∧
      h'.contents asArray = .pointers (nodes.map Prod.snd) ∧
      ∀ a, a ≠ asArray → h'.contents a = h.contents a := by
  have hempty : Filling h state asArray nodes.length [] 0 (h, state) :=
    ⟨rfl, rfl, rfl, harray, fun _ _ => rfl, rfl⟩
  obtain ⟨counter, s', hrun, hfilled⟩ := NodeLayout.run_llForeach state
    (fun elem counter => do
      let entry ← (responseChain pl).readNode elem
      setPointer asArray counter entry.1
      pure (counter + 1))
    (Filling h state asArray nodes.length)
    (fun done node rest counter s hnodes hfilling hchain =>
      ⟨counter + 1, hfilling.step hlive hnodes hchain⟩)
    hchain hempty
  refine ⟨s'.1, ?_, hfilled.live, hfilled.next, ?_, hfilled.other⟩
  · rw [fillArray, hrun, hfilled.counter, ← hfilled.state]
  · rw [hfilled.array, Nat.sub_self, List.replicate_zero, List.append_nil]

/-! ## Releasing -/

/-- The blocks of a chain: entries and objects. -/
def chainBlocks (nodes : List (Nat × Nat)) : Finset Nat :=
  (nodes.map Prod.fst ++ nodes.map Prod.snd).toFinset

@[simp] theorem mem_chainBlocks {nodes : List (Nat × Nat)} {a : Nat} :
    a ∈ chainBlocks nodes ↔ a ∈ nodes.map Prod.fst ∨ a ∈ nodes.map Prod.snd := by
  rw [chainBlocks, List.mem_toFinset, List.mem_append]

/-- The heap while a chain is released: the entries that are done are gone, and their
objects. -/
structure Releasing (h : BlockHeap.Heap (HeapBlock pl)) (state : ServerState pl ω σ)
    (nodes done : List (Nat × Nat)) (head : Nat)
    (s : BlockHeap.Heap (HeapBlock pl) × ServerState pl ω σ) : Prop where
  chain : ∃ todo, nodes = done ++ todo ∧ (responseChain pl).Chain s.1 head todo
  live : s.1.live = h.live \ chainBlocks done
  contents : s.1.contents = h.contents
  next : s.1.next = h.next
  state : s.2 = state

/-- An entry and its object are none of the blocks that go before them, and the entry is none
of those behind it. -/
theorem HoldObjects.apart {done rest : List (Nat × Nat)} {node : Nat × Nat}
    (hobjects : HoldObjects h (nodes.map Prod.snd) objects)
    (hchain : (responseChain pl).Chain h head nodes) (hdistinct : (nodes.map Prod.snd).Nodup)
    (hnodes : nodes = done ++ node :: rest) :
    node.2 ∉ chainBlocks done ∧ node.1 ≠ node.2 ∧
      ∀ other ∈ rest, other.1 ≠ node.2 ∧ other.1 ≠ node.1 := by
  have hmem : node ∈ nodes := hnodes ▸ List.mem_append_right _ List.mem_cons_self
  have hentries := hobjects.ne_of_chain hchain node.2 (List.mem_map_of_mem hmem)
  have hnodup := hchain.nodup
  rw [hnodes, List.map_append, List.map_cons] at hdistinct hnodup
  refine ⟨fun hgone => ?_, hentries node hmem, fun other hother => ⟨?_, ?_⟩⟩
  · rcases mem_chainBlocks.mp hgone with hfirst | hsecond
    · obtain ⟨entry, hentry, heq⟩ := List.mem_map.mp hfirst
      exact hentries entry (hnodes ▸ List.mem_append_left _ hentry) heq
    · exact (List.nodup_append.mp hdistinct).2.2 _ hsecond _ List.mem_cons_self rfl
  · exact hentries other (hnodes ▸ List.mem_append_right _ (List.mem_cons_of_mem _ hother))
  · intro heq
    exact (List.nodup_cons.mp (List.nodup_append.mp hnodup).2.1).1
      (heq ▸ List.mem_map_of_mem hother)

variable {state} in
/-- One turn of the loop: `LL_DELETE` finds the entry at the head, and entry and object are
released. -/
theorem Releasing.step {head₀ : Nat} {done rest : List (Nat × Nat)} {node : Nat × Nat}
    {s : BlockHeap.Heap (HeapBlock pl) × ServerState pl ω σ}
    (hwhole : (responseChain pl).Chain h head₀ nodes)
    (hobjects : HoldObjects h (nodes.map Prod.snd) objects)
    (hdistinct : (nodes.map Prod.snd).Nodup) (hnodes : nodes = done ++ node :: rest)
    (hreleasing : Releasing h state nodes done head s) :
    ∃ head' s', ((do
        let head ← (responseChain pl).llDelete head node.1
        let entry ← (responseChain pl).readNode node.1
        free entry.1
        free node.1
        pure head) : ServerProgram pl ω σ Nat).run s = (some head', s') ∧
      Releasing h state nodes (done ++ [node]) head' s' ∧
      ∀ next, (responseChain pl).Chain s.1 next rest → (responseChain pl).Chain s'.1 next rest := by
  obtain ⟨h₁, state₁⟩ := s
  obtain ⟨todo, htodo, hchain⟩ := hreleasing.chain
  obtain rfl : todo = node :: rest := List.append_cancel_left (htodo.symm.trans hnodes)
  obtain ⟨next, hdelete, hrest⟩ := NodeLayout.run_llDelete_head state₁ hchain
  obtain ⟨rfl, hentry, _, hnode, -⟩ := hchain
  obtain ⟨hnotDone, hne, hbehind⟩ := hobjects.apart hwhole hdistinct hnodes
  have hpointer : node.2 ∈ nodes.map Prod.snd :=
    List.mem_map_of_mem (hnodes ▸ List.mem_append_right _ List.mem_cons_self)
  have hobject : node.2 ∈ h₁.live := by
    rw [hreleasing.live]
    exact Finset.mem_sdiff.mpr ⟨(hobjects.of_mem _ hpointer).1, hnotDone⟩
  have hstill : node.1 ∈ (h₁.release node.2 hobject).live := Finset.mem_erase.mpr ⟨hne, hentry⟩
  have hkept : ∀ next, (responseChain pl).Chain h₁ next rest →
      (responseChain pl).Chain ((h₁.release node.2 hobject).release node.1 hstill) next rest :=
    fun next hrest => (hrest.release hobject fun other hother => (hbehind other hother).1).release
      hstill fun other hother => (hbehind other hother).2
  refine ⟨next, ((h₁.release node.2 hobject).release node.1 hstill, state₁), ?_, ?_, hkept⟩
  · rw [run_bind_of_some hdelete, run_bind_of_some (NodeLayout.run_readNode state₁ hentry hnode),
      run_bind_of_some (run_free_of_mem hobject), run_bind_of_some (run_free_of_mem hstill)]
    rfl
  · refine ⟨⟨rest, by rw [hnodes, List.append_assoc]; rfl, hkept next hrest⟩, ?_,
      hreleasing.contents, hreleasing.next, hreleasing.state⟩
    have hlive : h₁.live = h.live \ chainBlocks done := hreleasing.live
    ext a
    simp only [Heap.live_release, hlive, Finset.mem_erase, Finset.mem_sdiff, mem_chainBlocks,
      List.map_append, List.map_cons, List.map_nil, List.mem_append, List.mem_singleton]
    tauto

/-- The whole chain is released, with its objects, and nothing else. -/
theorem run_releaseChain (hchain : (responseChain pl).Chain h head nodes)
    (hobjects : HoldObjects h (nodes.map Prod.snd) objects)
    (hdistinct : (nodes.map Prod.snd).Nodup) :
    ∃ head' h', (releaseChain head).run (h, state) = (some head', (h', state)) ∧
      h.Drops (chainBlocks nodes) h' := by
  have hbegin : Releasing h state nodes [] head (h, state) :=
    ⟨⟨nodes, rfl, hchain⟩, Finset.sdiff_empty.symm, rfl, rfl, rfl⟩
  obtain ⟨head', s', hrun, hreleased⟩ := NodeLayout.run_llForeachSafe state
    (fun elem head => do
      let head ← (responseChain pl).llDelete head elem
      let entry ← (responseChain pl).readNode elem
      free entry.1
      free elem
      pure head)
    (Releasing h state nodes)
    (fun done node rest head s hnodes hreleasing _ =>
      hreleasing.step hchain hobjects hdistinct hnodes)
    hchain hbegin
  refine ⟨head', s'.1, ?_, hreleased.live, fun a _ => congrFun hreleased.contents a,
    hreleased.next.ge⟩
  rw [releaseChain, hrun, ← hreleased.state]

/-! ## The answer -/

/-- The text of an answer. -/
def Answer.text? : Answer pl → Option CString
  | .nothing => none
  | .text message => some message
  | .objects _ => none

/-- What an answer does to the socket before `client_request_complete` returns. -/
def Answer.sendWith (send : List UInt8 → σ → Int × σ) (requestId : UInt16) :
    Answer pl → σ → σ
  | .nothing, rest => rest
  | .text _, rest => rest
  | .objects objects, rest =>
      (protoSend pl send (objects.map SendableObject.object) (UInt8.ofNat objects.length) requestId
        protoFlagResponse rest).2

/-- What `client_request_complete` makes of a chain: its blocks are dropped, and nothing else; the
arrays of pointers are gone; the answer is sent. -/
structure Responded (send : List UInt8 → σ → Int × σ) (requestId : UInt16) (answer : Answer pl)
    (nodes : List (Nat × Nat)) (s s' : BlockHeap.Heap (HeapBlock pl) × ServerState pl ω σ) :
    Prop where
  drops : s.1.Drops (chainBlocks nodes) s'.1
  appended : s'.2.appended = s.2.appended
  arrays : ∃ arrays, s'.2.arrays = s.2.arrays ++ arrays ∧ ∀ a ∈ arrays, s'.1.Gone a
  rest : s'.2.rest = answer.sendWith send requestId s.2.rest

theorem Responded.of_nil (send : List UInt8 → σ → Int × σ) (requestId : UInt16)
    {answer : Answer pl} (s : BlockHeap.Heap (HeapBlock pl) × ServerState pl ω σ)
    (hquiet : answer.sendWith send requestId s.2.rest = s.2.rest) :
    Responded send requestId answer [] s s :=
  ⟨.refl s.1, rfl, ⟨[], (List.append_nil _).symm, fun _ ha => absurd ha List.not_mem_nil⟩,
    hquiet.symm⟩

/-- The blocks of the chain were live, and are gone. -/
theorem Responded.gone {send : List UInt8 → σ → Int × σ} {requestId : UInt16} {answer : Answer pl}
    {s s' : BlockHeap.Heap (HeapBlock pl) × ServerState pl ω σ}
    (hresponded : Responded send requestId answer nodes s s')
    (hchain : (responseChain pl).Chain s.1 head nodes)
    (hobjects : HoldObjects s.1 (nodes.map Prod.snd) objects) :
    ∀ node ∈ nodes, s'.1.Gone node.1 ∧ s'.1.Gone node.2 := by
  intro node hnode
  have hsecond := List.mem_map_of_mem (f := Prod.snd) hnode
  exact ⟨hresponded.drops.gone (hchain.mem_live node hnode)
      (mem_chainBlocks.mpr (Or.inl (List.mem_map_of_mem hnode))),
    hresponded.drops.gone (hobjects.of_mem _ hsecond).1 (mem_chainBlocks.mpr (Or.inr hsecond))⟩

/-- The array, once it is filled, is the one block that is new. -/
structure Listed (h : BlockHeap.Heap (HeapBlock pl)) (nodes : List (Nat × Nat))
    (h' : BlockHeap.Heap (HeapBlock pl)) : Prop where
  live : h'.live = insert h.next h.live
  next : h'.next = h.next + 1
  array : h'.contents h.next = .pointers (nodes.map Prod.snd)
  contents : ∀ a ∈ h.live, h'.contents a = h.contents a

theorem run_fillArray_new (hchain : (responseChain pl).Chain h head nodes) :
    ∃ h', (fillArray head h.next).run
        (h.allocate (.pointers (List.replicate nodes.length null)), state) =
          (some nodes.length, (h', state)) ∧ Listed h nodes h' := by
  obtain ⟨h', hrun, hlive, hnext, harray, hother⟩ := run_fillArray state (hchain.allocate _)
    (Finset.mem_insert_self _ _) (h.contents_allocate_self _)
  refine ⟨h', hrun, hlive, hnext, harray, fun a ha => ?_⟩
  rw [hother a fun heq => h.next_notMem_live (heq ▸ ha), h.contents_allocate_of_mem _ ha]

/-- The array is live when the chain is released, and goes last.  What is left is what there was
before, without the chain. -/
theorem Listed.release {h₂ h₃ h₄ : BlockHeap.Heap (HeapBlock pl)} (hlisted : Listed h nodes h₂)
    (hchain : (responseChain pl).Chain h head nodes)
    (hobjects : HoldObjects h (nodes.map Prod.snd) objects) (hkeeps : h₂.Keeps h₃)
    (hdrops : h₃.Drops (chainBlocks nodes) h₄) :
    ∃ hmem : h.next ∈ h₄.live, h.Drops (chainBlocks nodes) (h₄.release h.next hmem) ∧
      (h₄.release h.next hmem).Gone h.next := by
  have hblocks : ∀ a ∈ chainBlocks nodes, a ∈ h.live := by
    intro a ha
    rcases mem_chainBlocks.mp ha with hfirst | hsecond
    · obtain ⟨node, hnode, rfl⟩ := List.mem_map.mp hfirst
      exact hchain.mem_live node hnode
    · exact (hobjects.of_mem a hsecond).1
  have hlive : h₄.live = insert h.next h.live \ chainBlocks nodes := by
    rw [hdrops.live, hkeeps.live, hlisted.live]
  have hnotMem : h.next ∉ chainBlocks nodes := fun hmem => h.next_notMem_live (hblocks _ hmem)
  have hmem : h.next ∈ h₄.live := by
    rw [hlive]
    exact Finset.mem_sdiff.mpr ⟨Finset.mem_insert_self _ _, hnotMem⟩
  have hnext : h.next < h₄.next := by
    have hle := hkeeps.next_le.trans hdrops.next_le
    rw [hlisted.next] at hle
    exact Nat.lt_of_succ_le hle
  have hleft : h₄.live.erase h.next = h.live \ chainBlocks nodes := by
    rw [hlive, Finset.insert_sdiff_of_notMem _ hnotMem,
      Finset.erase_insert fun hin => h.next_notMem_live (Finset.mem_sdiff.mp hin).1]
  refine ⟨hmem, ⟨hleft, fun a ha => ?_, hnext.le⟩,
    ⟨h.next_pos, hnext⟩, Finset.notMem_erase _ _⟩
  -- a block that is left was live all the time
  have hlast : a ∈ h₄.live := Finset.mem_of_mem_erase ha
  have hfirst : a ∈ h.live := (Finset.mem_sdiff.mp (hleft.subset ha)).1
  have hsecond : a ∈ h₂.live := hlisted.live ▸ Finset.mem_insert_of_mem hfirst
  show h₄.contents a = h.contents a
  rw [hdrops.contents a hlast, hkeeps.contents a hsecond, hlisted.contents a hfirst]

/-- A chain of objects is counted, sent and released, and the array too. -/
theorem run_respond (send : List UInt8 → σ → Int × σ) (requestId : UInt16)
    (hchain : (responseChain pl).Chain h head nodes)
    (hobjects : HoldObjects h (nodes.map Prod.snd) objects)
    (hdistinct : (nodes.map Prod.snd).Nodup) (hcount : nodes.length < intLimit) :
    ∃ s', (respond send head requestId).run (h, state) = (some (), s') ∧
      Responded send requestId (HandlerResult.answer ⟨none, objects⟩) nodes (h, state) s' := by
  have hlength : objects.length = nodes.length := by
    rw [← List.Forall₂.length_eq hobjects, List.length_map]
  have hcounted := NodeLayout.run_llCount state hchain hcount
  by_cases hnil : nodes = []
  · subst hnil
    obtain rfl : objects = [] := List.eq_nil_of_length_eq_zero hlength
    refine ⟨(h, state), ?_, .of_nil send requestId _ rfl⟩
    rw [respond, run_bind_of_some hcounted]
    rfl
  · have hne : nodes.length ≠ 0 := fun hzero => hnil (List.eq_nil_of_length_eq_zero hzero)
    let state₁ : ServerState pl ω σ := { state with arrays := state.arrays ++ [h.next] }
    obtain ⟨h₂, hfill, hlisted⟩ := run_fillArray_new state₁ hchain
    have hsame : ∀ a ∈ h.live, a ∈ h₂.live ∧ h₂.contents a = h.contents a := fun a ha =>
      ⟨hlisted.live ▸ Finset.mem_insert_of_mem ha, hlisted.contents a ha⟩
    have hobjects₂ : HoldObjects h₂ (nodes.map Prod.snd) objects :=
      hobjects.congr fun a _ ha => hsame a ha
    have hchain₂ : (responseChain pl).Chain h₂ head nodes :=
      hchain.congr fun node hnode => hsame _ (hchain.mem_live node hnode)
    have harray : h.next ∈ h₂.live := hlisted.live ▸ Finset.mem_insert_self _ _
    obtain ⟨h₃, hsend, hkeeps⟩ :=
      run_protoSendOnHeap state₁ send harray hlisted.array hobjects₂
        (UInt8.ofNat nodes.length) requestId protoFlagResponse
    let state₃ : ServerState pl ω σ :=
      { state₁ with rest := (protoSend pl send (objects.map SendableObject.object)
          (UInt8.ofNat nodes.length) requestId protoFlagResponse state.rest).2 }
    obtain ⟨head', h₄, hrelease, hdropped⟩ :=
      run_releaseChain state₃ (hchain₂.keeps hkeeps) (hobjects₂.keeps hkeeps) hdistinct
    obtain ⟨hmem, hdrops, hgone⟩ := hlisted.release hchain hobjects hkeeps hdropped
    refine ⟨(h₄.release h.next hmem, state₃), ?_, hdrops, rfl,
      ⟨[h.next], rfl, fun a ha => List.mem_singleton.mp ha ▸ hgone⟩, ?_⟩
    · rw [respond, run_bind_of_some hcounted, if_pos hne, run_bind_of_some (run_malloc _),
        run_bind_of_some rfl, run_bind_of_some hfill, run_bind_of_some hsend,
        run_bind_of_some hrelease, run_free_of_mem hmem]
    · have hanswer : HandlerResult.answer ⟨none, objects⟩ = .objects objects :=
        if_pos (hlength ▸ hne)
      rw [hanswer, Answer.sendWith, hlength]

end Release

end ZxProto
