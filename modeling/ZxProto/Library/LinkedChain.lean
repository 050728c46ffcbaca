import ZxProto.Library.BlockHeap

/-!
# Singly linked lists on a heap of blocks

The macros of `utlist.h`, on nodes that hold a value and the address of the next node.

* `NodeLayout` — how a node lies in a block;
* `llAppend`, `llDelete`, `llForeach`, `llForeachSafe`, `llCount` — the macros;
* `Chain` — the nodes from a head on, with their values, up to NULL;
* `run_llAppend`, `run_llDelete_head`, `run_llCount`, and the rules `run_llForeach` and
  `run_llForeachSafe` for loops with an invariant.
-/

namespace BlockHeap

open Program

/-- How the nodes of a list lie in blocks. -/
structure NodeLayout (β ν : Type) where
  make : ν → Nat → β
  node? : β → Option (ν × Nat)
  node?_make : ∀ value next, node? (make value next) = some (value, next)

namespace NodeLayout

variable {β ν σ γ : Type} (L : NodeLayout β ν)

/-! ## The macros -/

/-- The value and the `next` field at a pointer. -/
def readNode (a : Nat) : Program β σ (ν × Nat) := do
  let block ← load a
  match L.node? block with
  | some node => pure node
  | none => fault

/-- `a->next = next`. -/
def setNext (a next : Nat) : Program β σ Unit := do
  let node ← L.readNode a
  write a (L.make node.1 next)

/-- `while (_tmp->next) { _tmp = _tmp->next; }`. -/
def lastNode : (fuel tmp : Nat) → Program β σ Nat
  | 0, _ => fault
  | fuel + 1, tmp => do
      let node ← L.readNode tmp
      if node.2 ≠ null then lastNode fuel node.2 else pure tmp

/-- `LL_APPEND`; the new head. -/
def llAppend (head add : Nat) : Program β σ Nat := do
  L.setNext add null
  if head ≠ null then do
    let last ← turns fun fuel => L.lastNode fuel head
    L.setNext last add
    pure head
  else
    pure add

/-- `while (_tmp->next && (_tmp->next != (del))) { _tmp = _tmp->next; }`. -/
def nodeBefore (del : Nat) : (fuel tmp : Nat) → Program β σ Nat
  | 0, _ => fault
  | fuel + 1, tmp => do
      let node ← L.readNode tmp
      if node.2 ≠ null ∧ node.2 ≠ del then nodeBefore del fuel node.2 else pure tmp

/-- `LL_DELETE`; the new head. -/
def llDelete (head del : Nat) : Program β σ Nat :=
  if head = del then do
    let node ← L.readNode head
    pure node.2
  else do
    let tmp ← turns fun fuel => L.nodeBefore del fuel head
    let before ← L.readNode tmp
    if before.2 ≠ null then do
      let node ← L.readNode del
      L.setNext tmp node.2
      pure head
    else
      pure head

/-- The loop of `LL_FOREACH`, with what its body hands on. -/
def foreachLoop (body : Nat → γ → Program β σ γ) : (fuel el : Nat) → γ → Program β σ γ
  | 0, _, _ => fault
  | fuel + 1, el, acc =>
      if el = null then
        pure acc
      else do
        let acc ← body el acc
        let node ← L.readNode el
        foreachLoop body fuel node.2 acc

/-- `LL_FOREACH`. -/
def llForeach (head : Nat) (acc : γ) (body : Nat → γ → Program β σ γ) : Program β σ γ :=
  turns fun fuel => L.foreachLoop body fuel head acc

/-- The loop of `LL_FOREACH_SAFE`: `tmp` is read before the body runs. -/
def foreachSafeLoop (body : Nat → γ → Program β σ γ) : (fuel el : Nat) → γ → Program β σ γ
  | 0, _, _ => fault
  | fuel + 1, el, acc =>
      if el = null then
        pure acc
      else do
        let tmp ← L.readNode el
        let acc ← body el acc
        foreachSafeLoop body fuel tmp.2 acc

/-- `LL_FOREACH_SAFE`. -/
def llForeachSafe (head : Nat) (acc : γ) (body : Nat → γ → Program β σ γ) : Program β σ γ :=
  turns fun fuel => L.foreachSafeLoop body fuel head acc

/-- `LL_COUNT`, with a counter that overflows at `limit`. -/
def llCount (limit head : Nat) : Program β σ Nat :=
  L.llForeach head 0 fun _ counter => if counter + 1 < limit then pure (counter + 1) else fault

section Steady

variable {τ : Type} {view : σ → τ}

theorem steady_readNode (a : Nat) : (L.readNode a : Program β σ (ν × Nat)).Steady view := by
  refine (steady_load a).bind fun block => ?_
  split
  · exact steady_pure _
  · exact steady_fault

theorem steady_setNext (a next : Nat) : (L.setNext a next : Program β σ Unit).Steady view :=
  (L.steady_readNode a).bind fun _ => steady_write a _

theorem steady_nodeBefore (del fuel tmp : Nat) :
    (L.nodeBefore del fuel tmp : Program β σ Nat).Steady view := by
  induction fuel generalizing tmp with
  | zero => exact steady_fault
  | succ fuel ih =>
      exact (L.steady_readNode tmp).bind fun node => steady_ite (ih _) (steady_pure _)

theorem steady_llDelete (head del : Nat) : (L.llDelete head del : Program β σ Nat).Steady view := by
  refine steady_ite ((L.steady_readNode head).bind fun _ => steady_pure _) ?_
  refine (steady_turns fun fuel => L.steady_nodeBefore del fuel head).bind fun tmp => ?_
  refine (L.steady_readNode tmp).bind fun before => steady_ite ?_ (steady_pure _)
  exact (L.steady_readNode del).bind fun _ => (L.steady_setNext tmp _).bind fun _ => steady_pure _

variable {body : Nat → γ → Program β σ γ}

theorem steady_llForeach (hbody : ∀ el acc, (body el acc).Steady view) (head : Nat) (acc : γ) :
    (L.llForeach head acc body).Steady view := by
  refine steady_turns fun fuel => ?_
  induction fuel generalizing head acc with
  | zero => exact steady_fault
  | succ fuel ih =>
      exact steady_ite (steady_pure _) ((hbody head acc).bind fun acc =>
        (L.steady_readNode head).bind fun node => ih _ acc)

theorem steady_llForeachSafe (hbody : ∀ el acc, (body el acc).Steady view) (head : Nat) (acc : γ) :
    (L.llForeachSafe head acc body).Steady view := by
  refine steady_turns fun fuel => ?_
  induction fuel generalizing head acc with
  | zero => exact steady_fault
  | succ fuel ih =>
      exact steady_ite (steady_pure _) ((L.steady_readNode head).bind fun tmp =>
        (hbody head acc).bind fun acc => ih _ acc)

theorem steady_llCount (limit head : Nat) : (L.llCount limit head : Program β σ Nat).Steady view :=
  L.steady_llForeach (fun _ _ => steady_ite (steady_pure _) steady_fault) head 0

end Steady

/-! ## Chains -/

/-- From `head` on, the heap holds these nodes: addresses and values. -/
def Chain (h : Heap β) : Nat → List (Nat × ν) → Prop
  | head, [] => head = null
  | head, node :: rest => head = node.1 ∧ head ∈ h.live ∧
      ∃ next, L.node? (h.contents head) = some (node.2, next) ∧ Chain h next rest

variable {L} {h h' : Heap β} {head a : Nat} {value : ν} {nodes rest : List (Nat × ν)}

theorem Chain.mem_live (hchain : L.Chain h head nodes) : ∀ node ∈ nodes, node.1 ∈ h.live := by
  induction nodes generalizing head with
  | nil => exact fun node hnode => absurd hnode List.not_mem_nil
  | cons first rest ih =>
      obtain ⟨rfl, hlive, next, -, hrest⟩ := hchain
      intro node hnode
      rcases List.mem_cons.mp hnode with rfl | hnode
      · exact hlive
      · exact ih hrest node hnode

/-- The nodes hold their values. -/
theorem Chain.node_of_mem (hchain : L.Chain h head nodes) :
    ∀ node ∈ nodes, ∃ next, L.node? (h.contents node.1) = some (node.2, next) := by
  induction nodes generalizing head with
  | nil => exact fun node hnode => absurd hnode List.not_mem_nil
  | cons first rest ih =>
      obtain ⟨rfl, -, next, hnode, hrest⟩ := hchain
      intro node hmem
      rcases List.mem_cons.mp hmem with rfl | hmem
      · exact ⟨next, hnode⟩
      · exact ih hrest node hmem

/-- A block that holds no node is none of them. -/
theorem Chain.ne_of_node?_eq_none (hchain : L.Chain h head nodes)
    (hnone : L.node? (h.contents a) = none) : ∀ node ∈ nodes, node.1 ≠ a := by
  intro node hmem heq
  obtain ⟨next, hnode⟩ := hchain.node_of_mem node hmem
  rw [heq, hnone] at hnode
  cases hnode

/-- A chain depends on its nodes only. -/
theorem Chain.congr (hchain : L.Chain h head nodes)
    (hsame : ∀ node ∈ nodes, node.1 ∈ h'.live ∧ h'.contents node.1 = h.contents node.1) :
    L.Chain h' head nodes := by
  induction nodes generalizing head with
  | nil => exact hchain
  | cons first rest ih =>
      obtain ⟨rfl, -, next, hnode, hrest⟩ := hchain
      obtain ⟨hlive, hcontents⟩ := hsame first List.mem_cons_self
      exact ⟨rfl, hlive, next, hcontents ▸ hnode,
        ih hrest fun node hmem => hsame node (List.mem_cons_of_mem _ hmem)⟩

/-- A head leads to one chain. -/
theorem Chain.unique {nodes' : List (Nat × ν)} (hchain : L.Chain h head nodes)
    (hchain' : L.Chain h head nodes') : nodes = nodes' := by
  induction nodes generalizing head nodes' with
  | nil =>
      cases nodes' with
      | nil => rfl
      | cons first rest => exact absurd hchain (h.ne_null_of_mem hchain'.2.1)
  | cons first rest ih =>
      obtain ⟨hfirst, hlive, next, hnode, hrest⟩ := hchain
      cases nodes' with
      | nil => exact absurd hchain' (h.ne_null_of_mem hlive)
      | cons first' rest' =>
          obtain ⟨hfirst', -, next', hnode', hrest'⟩ := hchain'
          rw [hnode] at hnode'
          obtain ⟨hvalue, rfl⟩ := Prod.ext_iff.mp (Option.some.inj hnode')
          rw [ih hrest hrest', Prod.ext (hfirst.symm.trans hfirst') hvalue]

/-- A chain can be entered at each of its nodes. -/
theorem Chain.drop {front : List (Nat × ν)} {node : Nat × ν}
    (hchain : L.Chain h head (front ++ node :: rest)) : L.Chain h node.1 (node :: rest) := by
  induction front generalizing head with
  | nil =>
      rw [← hchain.1]
      exact hchain
  | cons first front ih =>
      obtain ⟨-, -, next, -, hrest⟩ := hchain
      exact ih hrest

/-- A chain that ends does not come back to a node. -/
theorem Chain.nodup (hchain : L.Chain h head nodes) : (nodes.map Prod.fst).Nodup := by
  induction nodes generalizing head with
  | nil => exact List.nodup_nil
  | cons first rest ih =>
      have hwhole := hchain
      obtain ⟨hfirst, -, next, -, hrest⟩ := hchain
      refine List.nodup_cons.mpr ⟨fun hmem => ?_, ih hrest⟩
      -- otherwise the chain would be a part of itself
      obtain ⟨again, hagain, haddress⟩ := List.mem_map.mp hmem
      obtain ⟨front, back, rfl⟩ := List.append_of_mem hagain
      have hback : L.Chain h head (again :: back) := by
        rw [hfirst, ← haddress]
        exact hrest.drop
      have hlength := congrArg List.length (hwhole.unique hback)
      simp only [List.length_cons, List.length_append] at hlength
      omega

/-- There are at least as many blocks as nodes. -/
theorem Chain.length_le (hchain : L.Chain h head nodes) : nodes.length ≤ h.live.card := by
  have hsub : (nodes.map Prod.fst).toFinset ⊆ h.live := by
    intro a ha
    obtain ⟨node, hnode, rfl⟩ := List.mem_map.mp (List.mem_toFinset.mp ha)
    exact hchain.mem_live node hnode
  calc nodes.length = (nodes.map Prod.fst).toFinset.card := by
        rw [List.toFinset_card_of_nodup hchain.nodup, List.length_map]
    _ ≤ h.live.card := Finset.card_le_card hsub

theorem Chain.head_eq_null_iff (hchain : L.Chain h head nodes) : head = null ↔ nodes = [] := by
  cases nodes with
  | nil => exact ⟨fun _ => rfl, fun _ => hchain⟩
  | cons first rest =>
      exact ⟨fun heq => absurd heq (h.ne_null_of_mem hchain.2.1), fun heq => nomatch heq⟩

theorem Chain.allocate (hchain : L.Chain h head nodes) (block : β) :
    L.Chain (h.allocate block) head nodes :=
  hchain.congr fun node hnode =>
    ⟨Finset.mem_insert_of_mem (hchain.mem_live node hnode),
      h.contents_allocate_of_mem block (hchain.mem_live node hnode)⟩

theorem Chain.keeps (hchain : L.Chain h head nodes) (hkeeps : h.Keeps h') :
    L.Chain h' head nodes :=
  hchain.congr fun node hnode =>
    ⟨hkeeps.live.ge (hchain.mem_live node hnode),
      hkeeps.contents _ (hchain.mem_live node hnode)⟩

theorem Chain.write (hchain : L.Chain h head nodes) (block : β)
    (hother : ∀ node ∈ nodes, node.1 ≠ a) : L.Chain (h.write a block) head nodes :=
  hchain.congr fun node hnode =>
    ⟨hchain.mem_live node hnode, h.contents_write_of_ne block (hother node hnode)⟩

theorem Chain.release (hchain : L.Chain h head nodes) (ha : a ∈ h.live)
    (hother : ∀ node ∈ nodes, node.1 ≠ a) : L.Chain (h.release a ha) head nodes :=
  hchain.congr fun node hnode =>
    ⟨Finset.mem_erase.mpr ⟨hother node hnode, hchain.mem_live node hnode⟩, rfl⟩

/-- The last node of a chain is linked to a node behind it. -/
theorem Chain.link {front : List (Nat × ν)} {last : Nat × ν} {add : Nat} {added : ν}
    (hchain : L.Chain h head (front ++ [last])) (hadd : L.Chain h add [(add, added)])
    (hnew : ∀ node ∈ front ++ [last], node.1 ≠ add) :
    L.Chain (h.write last.1 (L.make last.2 add)) head (front ++ [last, (add, added)]) := by
  induction front generalizing head with
  | nil =>
      obtain ⟨rfl, hlive, -⟩ := hchain
      refine ⟨rfl, hlive, add, ?_, ?_⟩
      · rw [Heap.contents_write_self, L.node?_make]
      · refine hadd.write _ fun node hnode => ?_
        rw [List.mem_singleton.mp hnode]
        exact (hnew last List.mem_cons_self).symm
  | cons first front ih =>
      have hdistinct := hchain.nodup
      obtain ⟨rfl, hlive, next, hnode, hrest⟩ := hchain
      have hne : first.1 ≠ last.1 := by
        rintro heq
        refine (List.nodup_cons.mp hdistinct).1 ?_
        rw [heq]
        exact List.mem_map_of_mem (List.mem_append_right _ List.mem_cons_self)
      refine ⟨rfl, hlive, next, ?_,
        ih hrest fun node hmem => hnew node (List.mem_cons_of_mem _ hmem)⟩
      rw [h.contents_write_of_ne _ hne]
      exact hnode

/-! ## What the macros do to a chain -/

variable (state : σ) {add fuel next : Nat}

theorem run_readNode (ha : a ∈ h.live) (hnode : L.node? (h.contents a) = some (value, next)) :
    (L.readNode a : Program β σ (ν × Nat)).run (h, state) = (some (value, next), (h, state)) := by
  rw [readNode, run_bind_of_some (run_load_of_mem ha), hnode]
  rfl

theorem run_setNext (ha : a ∈ h.live) (hnode : L.node? (h.contents a) = some (value, next))
    (next' : Nat) :
    (L.setNext a next' : Program β σ Unit).run (h, state) =
      (some (), (h.write a (L.make value next'), state)) := by
  rw [setNext, run_bind_of_some (run_readNode state ha hnode), run_write_of_mem _ ha]

/-- The loop of `LL_APPEND` ends at the last node. -/
theorem run_lastNode {front : List (Nat × ν)} {last : Nat × ν}
    (hchain : L.Chain h head (front ++ [last])) (hfuel : front.length < fuel) :
    (L.lastNode fuel head : Program β σ Nat).run (h, state) = (some last.1, (h, state)) := by
  induction front generalizing head fuel with
  | nil =>
      obtain ⟨fuel, rfl⟩ := Nat.exists_eq_add_of_lt hfuel
      obtain ⟨rfl, hlive, next, hnode, rfl⟩ := hchain
      rw [lastNode, run_bind_of_some (run_readNode state hlive hnode), if_neg (not_not.mpr rfl)]
      rfl
  | cons first front ih =>
      obtain ⟨fuel, rfl⟩ := Nat.exists_eq_add_of_lt hfuel
      obtain ⟨rfl, hlive, next, hnode, hrest⟩ := hchain
      have hmore : next ≠ null := fun hend => by
        have hnil := hrest.head_eq_null_iff.mp hend
        exact List.append_ne_nil_of_right_ne_nil _ (List.cons_ne_nil _ _) hnil
      rw [lastNode, run_bind_of_some (run_readNode state hlive hnode), if_pos hmore]
      exact ih hrest (by rw [List.length_cons]; omega)

/-- `LL_APPEND` puts a node that is in none of the list's places behind the list. -/
theorem run_llAppend (hchain : L.Chain h head nodes) (hadd : add ∈ h.live)
    (hnode : L.node? (h.contents add) = some (value, next))
    (hnew : ∀ node ∈ nodes, node.1 ≠ add) :
    ∃ head' h', (L.llAppend head add : Program β σ Nat).run (h, state) =
        (some head', (h', state)) ∧
      L.Chain h' head' (nodes ++ [(add, value)]) ∧ h'.live = h.live ∧ h'.next = h.next ∧
      h'.released = h.released ∧
      ∀ b, b ≠ add → (∀ node ∈ nodes, node.1 ≠ b) → h'.contents b = h.contents b := by
  -- the new node ends a list
  let ended := h.write add (L.make value null)
  have hended : L.Chain ended add [(add, value)] :=
    ⟨rfl, hadd, null, by rw [Heap.contents_write_self, L.node?_make], rfl⟩
  have hkept : L.Chain ended head nodes := hchain.write _ hnew
  have hset := run_setNext state hadd hnode null
  rcases List.eq_nil_or_concat nodes with rfl | ⟨front, last, rfl⟩
  · have hnull : head = null := hchain
    refine ⟨add, ended, ?_, hended, rfl, rfl, rfl, fun b hb _ => h.contents_write_of_ne _ hb⟩
    rw [llAppend, run_bind_of_some hset, if_neg (not_not.mpr hnull)]
    rfl
  · rw [List.concat_eq_append] at hnew hkept ⊢
    have hmem : last ∈ front ++ [last] := List.mem_append_right _ List.mem_cons_self
    have hsome : head ≠ null := fun hnull =>
      List.append_ne_nil_of_right_ne_nil _ (List.cons_ne_nil _ _)
        (hkept.head_eq_null_iff.mp hnull)
    obtain ⟨next', hlast⟩ := hkept.node_of_mem last hmem
    have hfuel : front.length < ended.live.card + 1 := by
      have hlength := hkept.length_le
      rw [List.length_append, List.length_singleton] at hlength
      omega
    have hwalk : (turns fun fuel => L.lastNode fuel head : Program β σ Nat).run (ended, state) =
        (some last.1, (ended, state)) := run_lastNode state hkept hfuel
    refine ⟨head, ended.write last.1 (L.make last.2 add), ?_, ?_, rfl, rfl, rfl, ?_⟩
    · rw [llAppend, run_bind_of_some hset, if_pos hsome, run_bind_of_some hwalk,
        run_bind_of_some (run_setNext state (hkept.mem_live last hmem) hlast add)]
      rfl
    · rw [List.append_assoc]
      exact hkept.link hended hnew
    · intro b hb hother
      rw [ended.contents_write_of_ne _ (hother last hmem).symm, h.contents_write_of_ne _ hb]

/-- `LL_DELETE` of the first node. -/
theorem run_llDelete_head {node : Nat × ν} (hchain : L.Chain h head (node :: rest)) :
    ∃ next, (L.llDelete head node.1 : Program β σ Nat).run (h, state) =
      (some next, (h, state)) ∧ L.Chain h next rest := by
  obtain ⟨hhead, hlive, next, hnode, hrest⟩ := hchain
  refine ⟨next, ?_, hrest⟩
  rw [llDelete, if_pos hhead, run_bind_of_some (run_readNode state hlive hnode)]
  rfl

/-- A loop over a list: each turn keeps the invariant, which knows the nodes that are
done, and leaves the rest of the list alone. -/
theorem run_llForeach (body : Nat → γ → Program β σ γ)
    (Inv : List (Nat × ν) → γ → Heap β × σ → Prop)
    (hstep : ∀ done node rest acc s, nodes = done ++ node :: rest → Inv done acc s →
      L.Chain s.1 node.1 (node :: rest) → ∃ acc' s', (body node.1 acc).run s = (some acc', s') ∧
        Inv (done ++ [node]) acc' s' ∧ L.Chain s'.1 node.1 (node :: rest))
    {acc : γ} (hchain : L.Chain h head nodes) (hinv : Inv [] acc (h, state)) :
    ∃ acc' s', (L.llForeach head acc body).run (h, state) = (some acc', s') ∧
      Inv nodes acc' s' := by
  suffices hloop : ∀ (todo done : List (Nat × ν)) (fuel el : Nat) (acc : γ) (s : Heap β × σ),
      nodes = done ++ todo → todo.length < fuel → L.Chain s.1 el todo → Inv done acc s →
        ∃ acc' s', (L.foreachLoop body fuel el acc).run s = (some acc', s') ∧
          Inv nodes acc' s' from
    hloop nodes [] _ head acc _ rfl (Nat.lt_succ_of_le hchain.length_le) hchain hinv
  intro todo
  induction todo with
  | nil =>
      intro done fuel el acc s hnodes hfuel hchain hinv
      obtain ⟨fuel, rfl⟩ := Nat.exists_eq_add_of_lt hfuel
      rw [foreachLoop, if_pos (show el = null from hchain)]
      rw [List.append_nil] at hnodes
      exact ⟨acc, s, rfl, hnodes ▸ hinv⟩
  | cons node rest ih =>
      intro done fuel el acc s hnodes hfuel hchain hinv
      obtain ⟨fuel, rfl⟩ := Nat.exists_eq_add_of_lt hfuel
      have hel : el = node.1 := hchain.1
      subst hel
      obtain ⟨acc', s', hbody, hinv', hchain'⟩ := hstep done node rest acc s hnodes hinv hchain
      obtain ⟨-, hlive, next, hnode, hrest⟩ := hchain'
      rw [foreachLoop, if_neg (s'.1.ne_null_of_mem hlive), run_bind_of_some hbody,
        run_bind_of_some (run_readNode s'.2 hlive hnode)]
      exact ih (done ++ [node]) _ next acc' s' (by rw [hnodes, List.append_assoc]; rfl)
        (by rw [List.length_cons]; omega) hrest hinv'

/-- A loop that may unlink and release the node it is at: what is behind the node must
stay a chain. -/
theorem run_llForeachSafe (body : Nat → γ → Program β σ γ)
    (Inv : List (Nat × ν) → γ → Heap β × σ → Prop)
    (hstep : ∀ done node rest acc s, nodes = done ++ node :: rest → Inv done acc s →
      L.Chain s.1 node.1 (node :: rest) → ∃ acc' s', (body node.1 acc).run s = (some acc', s') ∧
        Inv (done ++ [node]) acc' s' ∧
        ∀ next, L.Chain s.1 next rest → L.Chain s'.1 next rest)
    {acc : γ} (hchain : L.Chain h head nodes) (hinv : Inv [] acc (h, state)) :
    ∃ acc' s', (L.llForeachSafe head acc body).run (h, state) = (some acc', s') ∧
      Inv nodes acc' s' := by
  suffices hloop : ∀ (todo done : List (Nat × ν)) (fuel el : Nat) (acc : γ) (s : Heap β × σ),
      nodes = done ++ todo → todo.length < fuel → L.Chain s.1 el todo → Inv done acc s →
        ∃ acc' s', (L.foreachSafeLoop body fuel el acc).run s = (some acc', s') ∧
          Inv nodes acc' s' from
    hloop nodes [] _ head acc _ rfl (Nat.lt_succ_of_le hchain.length_le) hchain hinv
  intro todo
  induction todo with
  | nil =>
      intro done fuel el acc s hnodes hfuel hchain hinv
      obtain ⟨fuel, rfl⟩ := Nat.exists_eq_add_of_lt hfuel
      rw [foreachSafeLoop, if_pos (show el = null from hchain)]
      rw [List.append_nil] at hnodes
      exact ⟨acc, s, rfl, hnodes ▸ hinv⟩
  | cons node rest ih =>
      intro done fuel el acc s hnodes hfuel hchain hinv
      obtain ⟨fuel, rfl⟩ := Nat.exists_eq_add_of_lt hfuel
      have hel : el = node.1 := hchain.1
      subst hel
      obtain ⟨acc', s', hbody, hinv', hkeeps⟩ := hstep done node rest acc s hnodes hinv hchain
      obtain ⟨-, hlive, next, hnode, hrest⟩ := hchain
      rw [foreachSafeLoop, if_neg (s.1.ne_null_of_mem hlive),
        run_bind_of_some (run_readNode s.2 hlive hnode),
        run_bind_of_some hbody]
      exact ih (done ++ [node]) _ next acc' s' (by rw [hnodes, List.append_assoc]; rfl)
        (by rw [List.length_cons]; omega) (hkeeps next hrest) hinv'

/-- `LL_COUNT` counts, as long as the counter holds the number. -/
theorem run_llCount {limit : Nat} (hchain : L.Chain h head nodes) (hlimit : nodes.length < limit) :
    (L.llCount limit head : Program β σ Nat).run (h, state) =
      (some nodes.length, (h, state)) := by
  obtain ⟨counter, s, hrun, rfl, rfl⟩ := run_llForeach (L := L) state
    (fun _ counter => if counter + 1 < limit then pure (counter + 1) else fault)
    (fun done counter s => counter = done.length ∧ s = (h, state))
    (by
      rintro done node rest counter s hnodes ⟨rfl, rfl⟩ hchain
      have hroom : done.length + 1 < limit := by
        rw [hnodes, List.length_append, List.length_cons] at hlimit
        omega
      refine ⟨done.length + 1, (h, state), ?_, ⟨by rw [List.length_append]; rfl, rfl⟩, hchain⟩
      rw [if_pos hroom]
      rfl)
    hchain ⟨rfl, rfl⟩
  exact hrun

end NodeLayout

end BlockHeap
