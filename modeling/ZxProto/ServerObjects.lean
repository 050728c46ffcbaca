import ZxProto.Handlers
import ZxProto.ObjectCopy
import ZxProto.RoundTrip

/-!
# The objects that a handler sees

`client_request_new` frees the objects of the last request,
`client_request_new_object` keeps copies of the first 32 objects of the current
one, and the handler is called with them.  The array outlives the frames, and the
copies outlive the receive buffer.

* `HeapHandlers`, `HeapStep`, `HeapRun` — the array as the source has it: pointers
  to blocks on the heap, in a memory that everything else writes to;
* `Call.Whole`, `Renders.whole` — the objects that `process` passes on are whole;
* `HeapHandlers.Shows` — what the pointers show, and `HeapRun.shows`, that this is
  a function of the callbacks;
* `run_opening_objects` — the same for the struct of the endpoint;
* `handler_sees_own_request` — both, for every stream of frames.
-/

namespace ZxProto

open ByteMemory

/-! ## Collecting objects -/

/-- One more object, if there is room. -/
def collectObject (objects : List (List Property)) (object : List Property) :
    List (List Property) :=
  if objects.length ≥ maxReceivingObjects then objects else objects ++ [object]

theorem collectObject_take {objects : List (List Property)} (object : List Property)
    (all : List (List Property)) (hobjects : objects = all.take maxReceivingObjects) :
    collectObject objects object = (all ++ [object]).take maxReceivingObjects := by
  subst hobjects
  unfold collectObject
  rw [List.length_take]
  by_cases hfull : maxReceivingObjects ≤ all.length
  · rw [if_pos (by omega), List.take_append_of_le_length hfull]
  · rw [if_neg (by omega), List.take_of_length_le (by omega), List.take_of_length_le]
    rw [List.length_append, List.length_singleton]
    omega

theorem foldl_collectObject (objects all : List (List Property))
    (hobjects : objects = all.take maxReceivingObjects) (more : List (List Property)) :
    more.foldl collectObject objects = (all ++ more).take maxReceivingObjects := by
  induction more generalizing objects all with
  | nil => rw [List.append_nil, hobjects]; rfl
  | cons object more ih =>
      rw [List.foldl_cons, ih _ _ (collectObject_take object all hobjects), List.append_assoc]
      rfl

/-- What a callback makes of the objects that are kept. -/
def collect (objects : List (List Property)) : Callback → List (List Property)
  | .startRequest flags _ _ => if IsResponse flags then objects else []
  | .next flags _ contents => if IsResponse flags then objects else collectObject objects contents
  | .completeRequest _ _ => objects

/-! ## The array on the heap -/

/-- The object, seen in another memory. -/
def OwnedObject.within (o : OwnedObject) (mem : Memory) : OwnedObject :=
  { o with mem := mem }

/-- `objects` and `objects_num` of `struct server_client_handlers_t`, with the
memory that the pointers refer to. -/
structure HeapHandlers where
  mem : Memory
  objects : List OwnedObject

/-- What the library's callbacks do to the array at a call of `process`.  `malloc`
gives a block that overlaps neither the blocks in use nor the object that is
copied. -/
inductive HeapStep (pl : Platform) (s : HeapHandlers) : Call → HeapHandlers → Prop
  | freeAll {offset : Nat} {flags : UInt8} {size requestId : UInt16}
      (hrequest : ¬ IsResponse flags) :
      HeapStep pl s (.startRequest offset flags size requestId) { s with objects := [] }
  | copy {flags : UInt8} {requestId : UInt16} {object : ProtoObject} {contents : List Property}
      (hrequest : ¬ IsResponse flags) (hroom : s.objects.length < maxReceivingObjects)
      (hshown : object.contents s.mem = contents) (hcount : object.properties.length ≤ 255)
      {rawMalloc : Nat}
      (hsource : ∀ property ∈ object.properties,
        Apart property (readProperty s.mem property).size rawMalloc (blockSize pl object))
      (hfresh : ∀ o ∈ s.objects,
        Apart o.addr (blockSize pl o.object) rawMalloc (blockSize pl object)) :
      HeapStep pl s (.next flags requestId object contents)
        ⟨(protoObjectCopy pl s.mem object rawMalloc hcount).mem,
          s.objects ++ [protoObjectCopy pl s.mem object rawMalloc hcount]⟩
  | full {flags : UInt8} {requestId : UInt16} {object : ProtoObject} {contents : List Property}
      (hrequest : ¬ IsResponse flags) (hfull : s.objects.length ≥ maxReceivingObjects) :
      HeapStep pl s (.next flags requestId object contents) s
  | responseStart {offset : Nat} {flags : UInt8} {size requestId : UInt16}
      (hresponse : IsResponse flags) :
      HeapStep pl s (.startRequest offset flags size requestId) s
  | responseObject {flags : UInt8} {requestId : UInt16} {object : ProtoObject}
      {contents : List Property} (hresponse : IsResponse flags) :
      HeapStep pl s (.next flags requestId object contents) s
  | objectRead {offset : Nat} {flags : UInt8} {requestId : UInt16} {body : List UInt8}
      {result : UInt8} : HeapStep pl s (.objectRead offset flags requestId body result) s
  | completeRequest {offset : Nat} {flags : UInt8} {requestId : UInt16} :
      HeapStep pl s (.completeRequest offset flags requestId) s

/-- The array along the calls of `process`.  Between any two of them, everything
outside the blocks in use may be overwritten: the receive buffer, freed blocks,
the stack. -/
inductive HeapRun (pl : Platform) (s : HeapHandlers) : List Call → HeapHandlers → Prop
  | refl : HeapRun pl s [] s
  | elsewhere {calls : List Call} {t : HeapHandlers} (mem : Memory) (h : HeapRun pl s calls t)
      (hkept : ∀ o ∈ t.objects, AgreeOn t.mem mem o.addr (blockSize pl o.object)) :
      HeapRun pl s calls { t with mem := mem }
  | call {calls : List Call} {t u : HeapHandlers} {call : Call} (h : HeapRun pl s calls t)
      (hstep : HeapStep pl t call u) : HeapRun pl s (calls ++ [call]) u

/-- The pointers show the objects, each laid out in its block. -/
def HeapHandlers.Shows (pl : Platform) (s : HeapHandlers) (objects : List (List Property)) :
    Prop :=
  List.Forall₂ (fun o props => (o.within s.mem).LaidOut pl props) s.objects objects

/-! ## Calls with whole objects -/

/-- The size field of an object that is passed on is the size of what it shows. -/
def Call.Whole : Call → Prop
  | .startRequest _ _ _ _ => True
  | .objectRead _ _ _ _ _ => True
  | .next _ _ object contents =>
      (bodyBytes contents).length < 65536 ∧
        object.objectSize = UInt16.ofNat (bodyBytes contents).length
  | .completeRequest _ _ _ => True

/-- Where the decoder accepts every object, all of them are whole. -/
theorem Renders.whole {pl : Build} {held held' : ProtoObject} {es : List Event} {cs : List Call}
    (hrenders : Renders pl held es cs held') (haccepted : EventsAccepted pl es) :
    ∀ call ∈ cs, call.Whole := by
  induction hrenders with
  | nil => exact fun call hcall => absurd hcall List.not_mem_nil
  | startRequest offset flags size requestId _ ih =>
      exact List.forall_mem_cons.mpr ⟨trivial, ih (haccepted.mono (List.subset_cons_self _ _))⟩
  | @object _ _ _ _ offset flags requestId objectSize mem bufferFrom read hread _ ih =>
      refine List.forall_mem_cons.mpr ⟨trivial, List.forall_mem_cons.mpr
        ⟨?_, ih (haccepted.mono (List.subset_cons_self _ _))⟩⟩
      obtain ⟨-, hsize, hparse⟩ := (haccepted _ _ _ _ List.mem_cons_self).read hread
      have hlength : (bodyBytes (read.object.contents mem)).length = objectSize.toNat := by
        rw [bodyBytes_of_parseProperties hparse, length_slice]
      refine ⟨?_, ?_⟩
      · rw [hlength]
        exact objectSize.toNat_lt
      · rw [hlength, UInt16.ofNat_toNat]
        exact hsize
  | completeRequest offset flags requestId _ ih =>
      exact List.forall_mem_cons.mpr ⟨trivial, ih (haccepted.mono (List.subset_cons_self _ _))⟩

/-! ## What the pointers show -/

section Heap

variable {pl : Platform}

/-- What the calls leave in the array. -/
def collected (calls : List Call) : List (List Property) :=
  (calls.filterMap Call.callback?).foldl collect []

theorem collected_append (calls : List Call) (call : Call) :
    collected (calls ++ [call]) =
      (call.callback?.toList).foldl collect (collected calls) := by
  rw [collected, List.filterMap_append, List.foldl_append]
  cases hcallback : call.callback? with
  | none => simp [hcallback, collected]
  | some callback => simp [hcallback, collected]

/-- What pointers show depends on their blocks only. -/
theorem forall₂_laidOut_congr {mem mem' : Memory} {os : List OwnedObject}
    {objects : List (List Property)}
    (h : List.Forall₂ (fun o props => (o.within mem).LaidOut pl props) os objects)
    (hkept : ∀ o ∈ os, AgreeOn mem mem' o.addr (blockSize pl o.object)) :
    List.Forall₂ (fun o props => (o.within mem').LaidOut pl props) os objects := by
  induction h with
  | nil => exact .nil
  | @cons o props os objects hshown _ ih =>
      have hblock : blockSize pl o.object =
          dataOffset pl props.length + (bodyBytes props).length := hshown.blockSize_eq
      have hdata : AgreeOn mem mem' (o.addr + dataOffset pl props.length)
          (bodyBytes props).length :=
        (hkept o List.mem_cons_self).mono (by omega) (by omega)
      exact .cons (hshown.congr hdata) (ih fun q hq => hkept q (List.mem_cons_of_mem o hq))

/-- A call of `process` does to what the pointers show what `collect` does. -/
theorem HeapHandlers.Shows.step {s u : HeapHandlers} {objects : List (List Property)}
    {call : Call} (h : s.Shows pl objects) (hstep : HeapStep pl s call u) (hwhole : call.Whole) :
    u.Shows pl ((call.callback?.toList).foldl collect objects) := by
  cases hstep with
  | freeAll hrequest =>
      simp only [Call.callback?, Option.toList_some, List.foldl_cons, List.foldl_nil, collect]
      rw [if_neg hrequest]
      exact .nil
  | @copy flags requestId object contents hrequest hroom hshown hcount rawMalloc hsource hfresh =>
      obtain ⟨hsize, hobjectSize⟩ := hwhole
      obtain ⟨hlaid, hoff⟩ :=
        laidOut_protoObjectCopy pl hshown hsize hobjectSize hcount hsource
      have hlength : objects.length = s.objects.length := h.length_eq.symm
      simp only [Call.callback?, Option.toList_some, List.foldl_cons, List.foldl_nil, collect]
      rw [if_neg hrequest, collectObject, if_neg (by omega)]
      apply List.rel_append
      · -- the blocks in use lie apart from the new one
        exact forall₂_laidOut_congr h fun o ho => hoff.agreeOn (hfresh o ho).symm
      · exact .cons hlaid .nil
  | full hrequest hfull =>
      have hlength : objects.length = s.objects.length := h.length_eq.symm
      simp only [Call.callback?, Option.toList_some, List.foldl_cons, List.foldl_nil, collect]
      rw [if_neg hrequest, collectObject, if_pos (by omega)]
      exact h
  | responseStart hresponse =>
      simp only [Call.callback?, Option.toList_some, List.foldl_cons, List.foldl_nil, collect]
      rw [if_pos hresponse]
      exact h
  | responseObject hresponse =>
      simp only [Call.callback?, Option.toList_some, List.foldl_cons, List.foldl_nil, collect]
      rw [if_pos hresponse]
      exact h
  | objectRead => exact h
  | completeRequest => exact h

/-- `malloc` finds a block: every call of `process` has its step. -/
theorem HeapStep.exists (s : HeapHandlers) {call : Call}
    (hshown : ∀ flags requestId object contents, call = .next flags requestId object contents →
      object.contents s.mem = contents ∧ object.properties.length ≤ 255) :
    ∃ u, HeapStep pl s call u := by
  cases call with
  | startRequest offset flags size requestId =>
      by_cases hresponse : IsResponse flags
      · exact ⟨_, .responseStart hresponse⟩
      · exact ⟨_, .freeAll hresponse⟩
  | objectRead offset flags requestId body result => exact ⟨_, .objectRead⟩
  | completeRequest offset flags requestId => exact ⟨_, .completeRequest⟩
  | next flags requestId object contents =>
      obtain ⟨hcontents, hcount⟩ := hshown _ _ _ _ rfl
      by_cases hresponse : IsResponse flags
      · exact ⟨_, .responseObject hresponse⟩
      · by_cases hfull : s.objects.length ≥ maxReceivingObjects
        · exact ⟨_, .full hresponse hfull⟩
        · -- a block behind everything that must not be touched
          let sources := (object.properties.map fun q => q + (readProperty s.mem q).size).sum
          let blocks := (s.objects.map fun o => o.addr + blockSize pl o.object).sum
          have hsource : ∀ q ∈ object.properties,
              Apart q (readProperty s.mem q).size (sources + blocks) (blockSize pl object) := by
            intro q hq
            have hle : q + (readProperty s.mem q).size ≤ sources :=
              List.le_sum_of_mem (List.mem_map_of_mem hq)
            exact Or.inl (by omega)
          have hfresh : ∀ o ∈ s.objects, Apart o.addr (blockSize pl o.object) (sources + blocks)
              (blockSize pl object) := by
            intro o ho
            have hle : o.addr + blockSize pl o.object ≤ blocks :=
              List.le_sum_of_mem (List.mem_map_of_mem ho)
            exact Or.inl (by omega)
          exact ⟨_, .copy hresponse (Nat.not_le.mp hfull) hcontents hcount hsource hfresh⟩

/-- **The array on the heap.**  Whatever happens outside the blocks in use, the
pointers show what the callbacks leave in the array. -/
theorem HeapRun.shows {s t : HeapHandlers} {calls : List Call} (hs : s.objects = [])
    (hrun : HeapRun pl s calls t) (hwhole : ∀ call ∈ calls, call.Whole) :
    t.Shows pl (collected calls) := by
  induction hrun with
  | refl =>
      unfold HeapHandlers.Shows
      rw [hs]
      exact .nil
  | elsewhere mem _ hkept ih => exact forall₂_laidOut_congr (ih hwhole) hkept
  | call _ hstep ih =>
      rw [collected_append]
      apply (ih fun call hcall => hwhole call (List.mem_append_left _ hcall)).step hstep
      exact hwhole _ (List.mem_append_right _ List.mem_cons_self)

/-- The array never overflows. -/
theorem HeapRun.length_le {s t : HeapHandlers} {calls : List Call} (hs : s.objects = [])
    (hrun : HeapRun pl s calls t) : t.objects.length ≤ maxReceivingObjects := by
  induction hrun with
  | refl =>
      rw [hs]
      exact Nat.zero_le _
  | elsewhere mem _ _ ih => exact ih
  | call _ hstep ih =>
      cases hstep with
      | freeAll _ => exact Nat.zero_le _
      | copy _ hroom _ _ _ _ =>
          rw [List.length_append, List.length_singleton]
          omega
      | full _ _ => exact ih
      | responseStart _ => exact ih
      | responseObject _ => exact ih
      | objectRead => exact ih
      | completeRequest => exact ih

end Heap

/-! ## The callbacks in front of a completion -/

/-- The callbacks of a frame, up to its completion. -/
def WireFrame.opening (f : WireFrame) : List Callback :=
  .startRequest f.flags (UInt16.ofNat (frameSize f.objects)) f.requestId ::
    f.objects.map (Callback.next f.flags f.requestId)

theorem WireFrame.callbacks_eq (f : WireFrame) :
    f.callbacks = f.opening ++ [.completeRequest f.flags f.requestId] := rfl

theorem WireFrame.not_mem_opening (f : WireFrame) (flags : UInt8) (requestId : UInt16) :
    .completeRequest flags requestId ∉ f.opening := by
  intro hmem
  rcases List.mem_cons.mp hmem with heq | hmem
  · cases heq
  · obtain ⟨contents, -, heq⟩ := List.mem_map.mp hmem
    cases heq

/-- Where a completion is called, the callbacks before it are those of whole frames
and the opening of the frame that completes. -/
theorem exists_frame_of_completing {flags : UInt8} {requestId : UInt16} {xs : List Callback}
    {frames : List WireFrame}
    (hpre : xs ++ [.completeRequest flags requestId] <+: frames.flatMap WireFrame.callbacks) :
    ∃ before f after, frames = before ++ f :: after ∧ f.flags = flags ∧
      f.requestId = requestId ∧ xs = before.flatMap WireFrame.callbacks ++ f.opening := by
  induction frames generalizing xs with
  | nil =>
      have hnil := List.prefix_nil.mp hpre
      exact absurd hnil (by simp)
  | cons f frames ih =>
      rw [List.flatMap_cons] at hpre
      have hfirst : f.callbacks <+: f.callbacks ++ frames.flatMap WireFrame.callbacks :=
        List.prefix_append _ _
      -- the completion of `f` comes first, or it is the one that is called
      have hcases : xs ++ [.completeRequest flags requestId] <+: f.callbacks ∨
          f.callbacks <+: xs := by
        rcases List.prefix_or_prefix_of_prefix hpre hfirst with hle | hge
        · exact Or.inl hle
        · rcases List.prefix_concat_iff.mp hge with heq | hmore
          · exact Or.inl (heq ▸ List.prefix_rfl)
          · exact Or.inr hmore
      rcases hcases with hin | hbehind
      · rw [f.callbacks_eq] at hin
        rcases List.prefix_concat_iff.mp hin with heq | hopen
        · obtain ⟨hxs, hlast⟩ := List.append_inj' heq rfl
          cases hlast
          exact ⟨[], f, frames, rfl, rfl, rfl, hxs⟩
        · refine absurd (hopen.subset ?_) (f.not_mem_opening flags requestId)
          exact List.mem_append_right _ List.mem_cons_self
      · obtain ⟨ys, rfl⟩ := hbehind
        rw [List.append_assoc, List.prefix_append_right_inj] at hpre
        obtain ⟨before, g, after, hframes, hflags, hid, hys⟩ := ih hpre
        refine ⟨f :: before, g, after, ?_, hflags, hid, ?_⟩
        · rw [hframes]
          rfl
        · rw [hys, List.flatMap_cons, List.append_assoc]

/-- The opening of a request leaves its first 32 objects. -/
theorem foldl_collect_opening {f : WireFrame} (hrequest : ¬ IsResponse f.flags)
    (objects : List (List Property)) :
    f.opening.foldl collect objects = f.objects.take maxReceivingObjects := by
  have hnext : ∀ (more kept : List (List Property)),
      (more.map (Callback.next f.flags f.requestId)).foldl collect kept =
        more.foldl collectObject kept := by
    intro more
    induction more with
    | nil => exact fun _ => rfl
    | cons object more ih =>
        intro kept
        rw [List.map_cons, List.foldl_cons, List.foldl_cons, collect, if_neg hrequest]
        exact ih _
  rw [WireFrame.opening, List.foldl_cons, collect, if_neg hrequest, hnext,
    foldl_collectObject [] [] rfl, List.nil_append]

/-! ## The struct of the endpoint -/

section Server

variable {pl : Platform} {κ ω : Type}
  (handlers : List (RequestHandler pl (HandlerPointer κ) ω)) (address : Nat)
  (other : Application pl (HandlerPointer κ) (ServerClientHandlers ω))

/-- The callbacks of a request, but for its completion, do what `collect` does, and
the handlers stay attached. -/
theorem react_of_request {e : Endpoint pl (HandlerPointer κ) (ServerClientHandlers ω)}
    (he : Served address e) {callback : Callback}
    (hcallback : ∃ flags requestId, ¬ IsResponse flags ∧
      ((∃ size, callback = .startRequest flags size requestId) ∨
        ∃ contents, callback = .next flags requestId contents)) :
    let e' := e.react (handlerApplication handlers address other) callback
    Served address e' ∧ e'.app.objects = collect e.app.objects callback := by
  obtain ⟨flags, requestId, hrequest, ⟨size, rfl⟩ | ⟨contents, rfl⟩⟩ := hcallback
  · intro e'
    have hreact : e' = { e.beginFrame.invoke (some .clientRequestNew)
        (.incomingRequest flags requestId) with app := clientRequestNew e.app } := by
      show protoReqNewRequest _ flags requestId e.beginFrame = _
      have hpointer : e.beginFrame.processor.incomingRequest = some .clientRequestNew :=
        he.installed.incomingRequest
      have huser : e.beginFrame.processor.user pl = littleEndian pl.pointerSize address := he.user
      rw [protoReqNewRequest, if_neg hrequest, hpointer]
      simp only [handlerApplication, if_pos huser, Script.run]
      rfl
    rw [hreact, collect, if_neg hrequest]
    exact ⟨⟨he.installed.congr rfl rfl, he.user⟩, rfl⟩
  · intro e'
    have hreact : e' = { e.invoke (some .clientRequestNewObject)
        (.incomingObject flags requestId contents) with
          app := clientRequestNewObject contents e.app } := by
      show protoReqObjectCallback _ flags requestId _ contents e = _
      unfold protoReqObjectCallback
      rw [if_neg hrequest, he.installed.incomingObject]
      simp only [handlerApplication, if_pos he.user, Script.run]
    rw [hreact, collect, if_neg hrequest]
    refine ⟨⟨he.installed.congr rfl rfl, he.user⟩, ?_⟩
    show (clientRequestNewObject contents e.app).objects = _
    unfold clientRequestNewObject collectObject
    split <;> rfl

/-- The struct when a request completes: whatever was received before, it holds the
first 32 objects of the request. -/
theorem run_opening_objects {f : WireFrame} (hrequest : ¬ IsResponse f.flags)
    {e : Endpoint pl (HandlerPointer κ) (ServerClientHandlers ω)} (he : Served address e) :
    (e.run (handlerApplication handlers address other) (f.opening.map .callback)).app.objects =
      f.objects.take maxReceivingObjects := by
  have hopening : ∀ callback ∈ f.opening, ∃ flags requestId, ¬ IsResponse flags ∧
      ((∃ size, callback = .startRequest flags size requestId) ∨
        ∃ contents, callback = .next flags requestId contents) := by
    intro callback hmem
    refine ⟨f.flags, f.requestId, hrequest, ?_⟩
    rcases List.mem_cons.mp hmem with rfl | hmem
    · exact Or.inl ⟨_, rfl⟩
    · obtain ⟨contents, -, rfl⟩ := List.mem_map.mp hmem
      exact Or.inr ⟨contents, rfl⟩
  rw [← foldl_collect_opening hrequest e.app.objects]
  generalize f.opening = callbacks at hopening
  induction callbacks generalizing e with
  | nil => rfl
  | cons callback callbacks ih =>
      obtain ⟨hserved, hobjects⟩ :=
        react_of_request handlers address other he (hopening callback List.mem_cons_self)
      rw [List.map_cons, Endpoint.run_cons, List.foldl_cons, ← hobjects]
      exact ih hserved fun c hc => hopening c (List.mem_cons_of_mem _ hc)

/-- From `proto_init`, on a stream of encoded frames: the callbacks are a prefix of
those of the frames, and the objects that are passed on are whole. -/
theorem called_frames {σ : Type} (h : Host σ) {c : Conn σ} (hc : c.Fresh)
    {frames : List WireFrame} (hcount : ∀ f ∈ frames, ∀ props ∈ f.objects, props.length ≤ 14)
    {rs : List RecvResult} (hfits : Fits pl h c rs)
    (hreceived : received rs <+: frames.flatMap WireFrame.bytes) :
    (recvAll pl h c rs).2.callbacks <+: frames.flatMap WireFrame.callbacks ∧
      ∀ call ∈ (recvAll pl h c rs).2.calls, call.Whole := by
  obtain ⟨rest, hrest⟩ := hreceived
  have hshows := ((recvAll_spec pl h (hc.atBoundary.tracksFrom pl) hfits).shows).append pl rest
  rw [List.nil_append, hrest] at hshows
  obtain ⟨es, held, hpre, hrenders⟩ := hshows.shows pl hc
  rw [streamEvents_frames] at hpre
  have haccepted : EventsAccepted pl es := (framesEvents_accepted pl (fun f hf props hprops =>
    decodable_of_c rfl (hcount f hf props hprops)) 0).mono hpre.subset
  constructor
  · rw [Conn.callbacks, hrenders.callbacks haccepted, ← map_callback_framesEvents 0]
    exact hpre.map Event.callback
  · exact hrenders.whole haccepted

/-- **A handler sees its own request.**  Frames, each with at least one object, reach
a server with its handlers attached in any cut, and no error text in them overruns
`error_str`.  The array never holds more than 32 objects.  Where a request completes,
the callbacks so far are those of the frames before it and of its own header and
objects; the handlers are attached, and the struct that they get holds the first 32
objects of that very frame.  On the heap, where everything but the blocks in use may
have been overwritten since, this is what the pointers show. -/
theorem handler_sees_own_request (user : ω)
    {c : Conn (Endpoint pl (HandlerPointer κ) (ServerClientHandlers ω))} (hc : c.Fresh)
    (happ : c.app = Endpoint.server pl address (serverHandlersInit user))
    {frames : List WireFrame} (hcount : ∀ f ∈ frames, ∀ props ∈ f.objects, props.length ≤ 14)
    {rs : List RecvResult}
    (hfits : Fits pl (reqHost (handlerApplication handlers address other)) c rs)
    (hreceived : received rs <+: frames.flatMap WireFrame.bytes)
    (hshort : Along (handlerApplication handlers address other) Endpoint.ShortError
      ((frames.flatMap WireFrame.callbacks).map .callback) c.app) :
    let a := handlerApplication handlers address other
    let done := (recvAll pl (reqHost a) c rs).2
    (∀ made, made <+: done.calls → ∀ s t : HeapHandlers, s.objects = [] →
      HeapRun pl s made t → t.objects.length ≤ maxReceivingObjects) ∧
    ∀ made offset flags requestId,
      made ++ [.completeRequest offset flags requestId] <+: done.calls → ¬ IsResponse flags →
      ∃ before f after, frames = before ++ f :: after ∧ f.flags = flags ∧
        f.requestId = requestId ∧
        made.filterMap Call.callback? = before.flatMap WireFrame.callbacks ++ f.opening ∧
        (let e := c.app.run a ((made.filterMap Call.callback?).map .callback)
        Served address e ∧ e.app.objects = f.objects.take maxReceivingObjects) ∧
        ∀ s t : HeapHandlers, s.objects = [] → HeapRun pl s made t →
          t.Shows pl (f.objects.take maxReceivingObjects) := by
  intro a done
  obtain ⟨hcallbacks, hwhole⟩ := called_frames (reqHost a) hc hcount hfits hreceived
  refine ⟨fun made _ s t hs hrun => hrun.length_le hs, ?_⟩
  intro made offset flags requestId hpre hrequest
  have hcompleting : made.filterMap Call.callback? ++ [.completeRequest flags requestId] <+:
      frames.flatMap WireFrame.callbacks := by
    have hmade := hpre.filterMap Call.callback?
    rw [List.filterMap_append] at hmade
    exact hmade.trans hcallbacks
  obtain ⟨before, f, after, hframes, rfl, rfl, hmade⟩ := exists_frame_of_completing hcompleting
  -- the handlers are still attached when the frame begins
  have hserved : ∀ acts more, (frames.flatMap WireFrame.callbacks) = acts ++ more →
      Served address (c.app.run a (acts.map .callback)) := by
    intro acts more hall
    rw [hall, List.map_append, along_append] at hshort
    rw [happ] at hshort ⊢
    apply served_run
    refine (confined_run_iff _ _).mpr ⟨?_, hshort.1⟩
    exact fun s hs => absurd hs List.not_mem_nil
  have hbegins := hserved (before.flatMap WireFrame.callbacks)
    ((f :: after).flatMap WireFrame.callbacks) (by rw [hframes, List.flatMap_append])
  have hcompletes := hserved (made.filterMap Call.callback?)
    ([.completeRequest f.flags f.requestId] ++ after.flatMap WireFrame.callbacks) (by
      rw [hmade, hframes, List.flatMap_append, List.flatMap_cons, f.callbacks_eq]
      simp only [List.append_assoc])
  refine ⟨before, f, after, hframes, rfl, rfl, hmade, ⟨hcompletes, ?_⟩, ?_⟩
  · rw [hmade, List.map_append, Endpoint.run_append]
    exact run_opening_objects handlers address other hrequest hbegins
  · intro s t hs hrun
    have hshown := hrun.shows hs fun call hcall => hwhole call
      (hpre.subset (List.mem_append_left _ hcall))
    rwa [collected, hmade, List.foldl_append, foldl_collect_opening hrequest] at hshown

end Server

/-- A handler for the requests with the ID `a` that notes the objects it is called
with. -/
def recordingHandler : RequestHandler .pc (HandlerPointer Empty) (List (List (List Property))) where
  name := (handlerOfA ⟨none, []⟩).name
  cb h := .done ⟨none, []⟩ { h with clientUser := h.clientUser ++ [h.objects] }

/-- A server with that handler. -/
def recordingServer :
    Application .pc (HandlerPointer Empty) (ServerClientHandlers (List (List (List Property)))) :=
  handlerApplication [recordingHandler] 4096 (.quiet _ _ _)

/-- Its connection, with a buffer of 512 bytes. -/
def recordingConn : Conn (Endpoint .pc (HandlerPointer Empty)
    (ServerClientHandlers (List (List (List Property))))) :=
  Conn.init 64 512 (fun _ => 0) ⟨0, []⟩ (Endpoint.server .pc 4096 (serverHandlersInit [])) 0

/-- The ID `a`. -/
def propertyA : Property := ⟨ProtoObjectPropertyKey.id.code, [97], by decide⟩

/-- A request with two objects, and one with a single object, that is cut. -/
theorem handler_sees_own_request_two_frames :
    let frames : List WireFrame :=
      [⟨0, 1, [[propertyA], []], by simp, by decide⟩, ⟨0, 2, [[propertyA]], by simp, by decide⟩]
    let bytes := frames.flatMap WireFrame.bytes
    let rs : List RecvResult := [.received (bytes.take 15), .received (bytes.drop 15)]
    let done := (recvAll .pc (reqHost recordingServer) recordingConn rs).2
    done.app.app.clientUser = [[[propertyA], []], [[propertyA]]] ∧
      ∀ s t : HeapHandlers, s.objects = [] → HeapRun .pc s done.calls.dropLast t →
        t.Shows .pc [[propertyA]] := by
  intro frames bytes rs done
  have hacts : (recordingConn.app.run recordingServer
      ((frames.flatMap WireFrame.callbacks).map .callback)).Confined := by decide +kernel
  have hfits : Fits .pc (reqHost recordingServer) recordingConn rs := by decide +kernel
  have hreceived : received rs <+: frames.flatMap WireFrame.bytes := by decide +kernel
  have hcount : ∀ f ∈ frames, ∀ props ∈ f.objects, props.length ≤ 14 := by decide
  obtain ⟨-, hcompleting⟩ := handler_sees_own_request [recordingHandler] 4096 (.quiet _ _ _) []
    (Conn.fresh_init _ _ _ _ _ _) rfl hcount hfits hreceived ((confined_run_iff _ _).mp hacts).2
  refine ⟨by decide +kernel, fun s t hs hrun => ?_⟩
  obtain ⟨before, f, after, hframes, -, hid, -, -, hheap⟩ :=
    hcompleting done.calls.dropLast 24 0 2 (by decide +kernel) (by decide)
  -- the request with the id 2 is the second frame
  have hmem : f ∈ frames := by
    rw [hframes]
    exact List.mem_append_right _ List.mem_cons_self
  have hlast : f.objects = [[propertyA]] := by
    rcases List.mem_cons.mp hmem with rfl | hmem
    · cases hid
    · rw [List.mem_singleton.mp hmem]
  rw [hlast] at hheap
  exact hheap s t hs hrun

/-- The objects of a request that comes behind a request without objects. -/
def misreadObjects : List (List Property) :=
  [[⟨246, [], by decide⟩, ⟨0, [], by decide⟩, ⟨0, List.replicate 88 0, by decide⟩],
    [⟨0, List.replicate 153 0, by decide⟩]]

/-- The frame of a request, whether or not it has objects. -/
def requestBytes (requestId : UInt16) (objects : List (List Property)) : List UInt8 :=
  headerBytes 0 (UInt16.ofNat (frameSize objects)) requestId ++ objects.flatMap objectWire

/-- A request without objects, and a request with two objects behind it: `process`
takes the second header as an object of the first request, and calls the handler with
an object that neither frame has. -/
theorem not_sees_own_request_empty_frame :
    let recorded := (recvAll .pc (reqHost recordingServer) recordingConn
      [.received (requestBytes 1 [] ++ requestBytes 512 misreadObjects)]).2.app.app.clientUser
    ∃ objects ∈ recorded, objects ≠ ([] : List (List Property)).take maxReceivingObjects ∧
      objects ≠ misreadObjects.take maxReceivingObjects := by
  decide +kernel

end ZxProto
