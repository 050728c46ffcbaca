import ZxProto.Stream

/-!
# What the application sees

`process` shows itself to an application through three callbacks.  An
application that looks at the flags, the size and the id of the frame, and at an
object only through its properties, is a function of the sequence of callbacks:
neither the buffer nor the segmentation nor the addresses reach it.

* `Callback`, `Conn.callbacks` — the callbacks, with what they show;
* `Renders.callbacks` — they are determined by the events of the stream if the
  decoder accepts every object;
* `Host.Moves` — what every callback does to the application, a call does;
* `Host.ActsBy` — a host that is such a function;
* `recvProcess_acts` — its state after a call is the fold of the callbacks.
-/

namespace ZxProto

open ByteMemory

/-! ## Callbacks -/

/-- A callback of the application. -/
inductive Callback
  | startRequest (flags : UInt8) (size requestId : UInt16)
  | next (flags : UInt8) (requestId : UInt16) (contents : List Property)
  | completeRequest (flags : UInt8) (requestId : UInt16)
deriving DecidableEq

/-- The callback that a call of `process` is. -/
def Call.callback? : Call → Option Callback
  | .startRequest _ flags size requestId => some (.startRequest flags size requestId)
  | .objectRead _ _ _ _ _ => none
  | .next flags requestId _ contents => some (.next flags requestId contents)
  | .completeRequest _ flags requestId => some (.completeRequest flags requestId)

/-- The callbacks that a connection has made. -/
def Conn.callbacks {σ : Type} (c : Conn σ) : List Callback :=
  c.calls.filterMap Call.callback?

/-- The callback for an event whose object, if it has one, is accepted. -/
def Event.callback : Event → Callback
  | .startRequest _ flags size requestId => .startRequest flags size requestId
  | .object _ flags requestId body =>
      .next flags requestId ((parseProperties body).getD [])
  | .completeRequest _ flags requestId => .completeRequest flags requestId

theorem Renders.callbacks {pl : Build} {held held' : ProtoObject} {es : List Event}
    {cs : List Call} (hrenders : Renders pl held es cs held') (haccepted : EventsAccepted pl es) :
    cs.filterMap Call.callback? = es.map Event.callback := by
  induction hrenders with
  | nil => rfl
  | startRequest offset flags size requestId _ ih =>
      simp [Call.callback?, Event.callback, ih (haccepted.mono (List.subset_cons_self _ _))]
  | object offset flags requestId hread _ ih =>
      -- only an accepted body is sure to be what the application sees
      obtain ⟨-, -, hparse⟩ := (haccepted _ _ _ _ List.mem_cons_self).read hread
      simp [List.filterMap_cons, Call.callback?, Event.callback, hparse,
        ih (haccepted.mono (List.subset_cons_self _ _))]
  | completeRequest offset flags requestId _ ih =>
      simp [Call.callback?, Event.callback, ih (haccepted.mono (List.subset_cons_self _ _))]

/-! ## What every callback keeps -/

/-- Whatever the host is called for, the application behind the call is related to
the one before it. -/
structure Host.Moves {σ : Type} (h : Host σ) (R : σ → σ → Prop) : Prop where
  startRequest : ∀ proto app, R app (h.startRequest proto app)
  nextObject : ∀ proto mem object app, R app (h.nextObject proto mem object app)
  completeRequest : ∀ proto app, R app (h.completeRequest proto app).2
  send : ∀ bytes app, R app (h.send bytes app).2

section Moving

variable {σ : Type} {pl : Build} {h : Host σ} {R : σ → σ → Prop}

theorem finishRequest_moves (hmoves : h.Moves R) (trans : ∀ {a b c}, R a b → R b c → R a c)
    (proto : ProtoProcess) (app : σ) : R app (finishRequest pl h proto app).2 := by
  have hcompleted := hmoves.completeRequest proto app
  rw [finishRequest]
  cases (h.completeRequest proto app).1 with
  | none => exact hcompleted
  | some text =>
      refine trans hcompleted ?_
      simp only
      rw [protoSendOne]
      split <;> exact hmoves.send _ _

theorem caseStep_moves (hmoves : h.Moves R) (refl : ∀ a, R a a)
    (trans : ∀ {a b c}, R a b → R b c → R a c) (l : ProcessLoop σ) :
    R l.app (caseStep pl h l).loop.app := by
  rw [caseStep]
  cases l.proto.state with
  | recvHeader =>
      simp only [recvHeader]
      split
      · exact hmoves.startRequest _ _
      · exact refl _
  | recvObjectSize =>
      simp only [recvObjectSize]
      split <;> exact refl _
  | recvObject =>
      simp only [recvObject]
      split
      · have hnext := hmoves.nextObject l.proto l.mem
        split
        · exact refl _
        · split
          · split
            all_goals exact trans (hnext _ _) (finishRequest_moves hmoves trans _ _)
          · exact hnext _ _
      · exact refl _

/-- A call of `recv_process` relates the application as its callbacks do. -/
theorem recvProcess_moves (hmoves : h.Moves R) (refl : ∀ a, R a a)
    (trans : ∀ {a b c}, R a b → R b c → R a c) (c : Conn σ) (r : RecvResult) :
    R c.app (recvProcess pl h c r).2.app := by
  by_cases hcount : 0 < r.count
  · have hprocess := processLoop_rel pl h (fun l l' => R l.app l'.app) trans
      (caseStep_moves hmoves refl trans)
      ((({ c with errno := r.errno c.errno } : Conn σ).receive r.bytes).enter)
    simp only [recvProcess, if_pos hcount]
    split
    · exact hprocess
    · rw [Conn.compact_app]
      exact hprocess
  · simp only [recvProcess, if_neg hcount]
    exact refl _

end Moving

/-! ## Applications as functions of the callbacks -/

/-- The host does `act` on every callback, the error reply included. -/
structure Host.ActsBy {σ : Type} (h : Host σ) (pl : Build) (act : Callback → σ → σ) :
    Prop where
  startRequest : ∀ proto app, h.startRequest proto app =
    act (.startRequest proto.recvFlags proto.recvSize proto.requestId) app
  nextObject : ∀ proto mem object app, h.nextObject proto mem object app =
    act (.next proto.recvFlags proto.requestId (object.contents mem)) app
  completeRequest : ∀ proto app, (finishRequest pl h proto app).2 =
    act (.completeRequest proto.recvFlags proto.requestId) app

/-- The state of an application after some callbacks. -/
def actAll {σ : Type} (act : Callback → σ → σ) (callbacks : List Callback) (app : σ) : σ :=
  callbacks.foldl (fun app callback => act callback app) app

theorem actAll_append {σ : Type} (act : Callback → σ → σ) (cbs cbs' : List Callback) (app : σ) :
    actAll act (cbs ++ cbs') app = actAll act cbs' (actAll act cbs app) :=
  List.foldl_append

section Acting

variable {σ : Type} {pl : Build} {h : Host σ} {act : Callback → σ → σ}

/-- Between two points of the loop, calls were made and acted on. -/
def ProcessLoop.Acted (act : Callback → σ → σ) (l l' : ProcessLoop σ) : Prop :=
  ∃ cs, l'.calls = l.calls ++ cs ∧ l'.app = actAll act (cs.filterMap Call.callback?) l.app

theorem ProcessLoop.Acted.refl (l : ProcessLoop σ) : l.Acted act l :=
  ⟨[], (List.append_nil _).symm, rfl⟩

theorem ProcessLoop.Acted.trans {l₁ l₂ l₃ : ProcessLoop σ} (h₁ : l₁.Acted act l₂)
    (h₂ : l₂.Acted act l₃) : l₁.Acted act l₃ := by
  obtain ⟨cs, hcalls, happ⟩ := h₁
  obtain ⟨cs', hcalls', happ'⟩ := h₂
  refine ⟨cs ++ cs', ?_, ?_⟩
  · rw [hcalls', hcalls, List.append_assoc]
  · rw [happ', happ, List.filterMap_append, actAll_append]

theorem recvObject_acted (hact : h.ActsBy pl act) (l : ProcessLoop σ) :
    l.Acted act (recvObject pl h l).loop := by
  rw [recvObject]
  split
  · simp only
    split
    · exact ⟨[], (List.append_nil _).symm, rfl⟩
    · split
      -- the last object of a frame: two callbacks, and maybe a reply
      · have hnext := hact.nextObject l.proto l.mem
        split
        all_goals
          refine ⟨_, List.append_assoc _ _ _, ?_⟩
          simp only [List.filterMap_append, List.filterMap_cons, List.filterMap_nil,
            Call.callback?, actAll_append]
          rw [hact.completeRequest, hact.nextObject]
          rfl
      · refine ⟨_, rfl, ?_⟩
        simp only [List.filterMap_cons, List.filterMap_nil, Call.callback?]
        rw [hact.nextObject]
        rfl
  · exact ProcessLoop.Acted.refl l

theorem caseStep_acted (hact : h.ActsBy pl act) (l : ProcessLoop σ) :
    l.Acted act (caseStep pl h l).loop := by
  rw [caseStep]
  cases l.proto.state with
  | recvHeader =>
      simp only [recvHeader]
      split
      · refine ⟨_, rfl, ?_⟩
        simp only [List.filterMap_cons, List.filterMap_nil, Call.callback?]
        rw [hact.startRequest]
        rfl
      · exact ProcessLoop.Acted.refl l
  | recvObjectSize =>
      simp only [recvObjectSize]
      split
      · exact ⟨[], (List.append_nil _).symm, rfl⟩
      · exact ProcessLoop.Acted.refl l
  | recvObject => exact recvObject_acted hact l

theorem process_acts (hact : h.ActsBy pl act) (c : Conn σ) :
    ∃ cbs, (process pl h c).2.callbacks = c.callbacks ++ cbs ∧
      (process pl h c).2.app = actAll act cbs c.app := by
  obtain ⟨cs, hcalls, hfold⟩ := processLoop_rel pl h (ProcessLoop.Acted act)
    ProcessLoop.Acted.trans (caseStep_acted hact) c.enter
  have hdone : (process pl h c).2.calls = c.calls ++ cs := hcalls
  refine ⟨cs.filterMap Call.callback?, ?_, hfold⟩
  rw [Conn.callbacks, hdone, List.filterMap_append]
  rfl

/-- After a call of `recv_process`, the application is the fold of the callbacks
made in it. -/
theorem recvProcess_acts (hact : h.ActsBy pl act) (c : Conn σ) (r : RecvResult) :
    ∃ cbs, (recvProcess pl h c r).2.callbacks = c.callbacks ++ cbs ∧
      (recvProcess pl h c r).2.app = actAll act cbs c.app := by
  by_cases hcount : 0 < r.count
  · obtain ⟨cbs, hcallbacks, hfold⟩ := process_acts hact
      (({ c with errno := r.errno c.errno } : Conn σ).receive r.bytes)
    simp only [recvProcess, if_pos hcount]
    refine ⟨cbs, ?_, ?_⟩
    · split
      · exact hcallbacks
      · rw [Conn.callbacks, Conn.compact_calls]
        exact hcallbacks
    · split
      · exact hfold
      · rw [Conn.compact_app]
        exact hfold
  · simp only [recvProcess, if_neg hcount]
    exact ⟨[], (List.append_nil _).symm, rfl⟩

/-- After a run of calls, too. -/
theorem recvAll_acts (hact : h.ActsBy pl act) (c : Conn σ) (rs : List RecvResult) :
    ∃ cbs, (recvAll pl h c rs).2.callbacks = c.callbacks ++ cbs ∧
      (recvAll pl h c rs).2.app = actAll act cbs c.app := by
  induction rs generalizing c with
  | nil => exact ⟨[], (List.append_nil _).symm, rfl⟩
  | cons r rs ih =>
      obtain ⟨cbs, hcallbacks, hfold⟩ := recvProcess_acts hact c r
      rw [recvAll]
      split
      · exact ⟨cbs, hcallbacks, hfold⟩
      · obtain ⟨cbs', hcallbacks', hfold'⟩ := ih (recvProcess pl h c r).2
        refine ⟨cbs ++ cbs', ?_, ?_⟩
        · rw [hcallbacks', hcallbacks, List.append_assoc]
        · rw [hfold', hfold, actAll_append]

end Acting

end ZxProto
