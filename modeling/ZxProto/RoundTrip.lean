import ZxProto.Callbacks

/-!
# The wire round trip

From the constructors and encoders of one side to the callbacks of the other:
frames whose objects are built by `proto_object_assign` or
`proto_object_allocate`, encoded by `proto_send` or `proto_serialize`, are seen
by the receiver one by one, object by object, with the properties of the chains,
however the bytes were cut on the way.

* `ObjectSource`, `FrameSource` — what the sender does;
* `steps_frame` — the frame machine on one encoded frame;
* `recvAll_roundTrip` — the round trip.
-/

namespace ZxProto

open ByteMemory

/-! ## The frame machine on encoded frames -/

/-- The events of successive objects, the first of which starts at `offset`. -/
def objectEvents (flags : UInt8) (requestId : UInt16) (offset : Nat) :
    List (List Property) → List Event
  | [] => []
  | props :: objects =>
      .object (offset + 2) flags requestId (bodyBytes props) ::
        objectEvents flags requestId (offset + 2 + (bodyBytes props).length) objects

/-- The events of a frame whose header starts at `offset`. -/
def WireFrame.events (f : WireFrame) (offset : Nat) : List Event :=
  .startRequest (offset + 5) f.flags (UInt16.ofNat (frameSize f.objects)) f.requestId ::
    (objectEvents f.flags f.requestId (offset + 5) f.objects ++
      [.completeRequest (offset + 5 + frameSize f.objects) f.flags f.requestId])

/-- The events of successive frames, the first of which starts at `offset`. -/
def framesEvents (offset : Nat) : List WireFrame → List Event
  | [] => []
  | f :: frames => f.events offset ++ framesEvents (offset + 5 + frameSize f.objects) frames

theorem objectWire_append {props : List Property} (hsize : (bodyBytes props).length < 65536)
    (rest : List UInt8) :
    objectWire props ++ rest =
      UInt8.ofNat (bodyBytes props).length :: UInt8.ofNat ((bodyBytes props).length / 256) ::
        (bodyBytes props ++ rest) := by
  rw [objectWire, u16Bytes_ofNat hsize]
  rfl

/-- The objects of a frame: the last of them ends exactly at the announced size. -/
theorem steps_objects {s : StreamState} {flags : UInt8} {size requestId : UInt16}
    {start passed : Nat} (hs : s.Between flags size requestId start passed)
    {objects : List (List Property)} (hne : objects ≠ [])
    (hsum : passed + frameSize objects = size.toNat) (rest : List UInt8) :
    ∃ s' : StreamState, s'.AtHeader (start + size.toNat) ∧
      frameMachine.Steps s (objects.flatMap objectWire ++ rest)
        (objectEvents flags requestId (start + passed) objects ++
          [.completeRequest (start + size.toNat) flags requestId]) s' rest := by
  induction objects generalizing s passed with
  | nil => exact absurd rfl hne
  | cons props objects ih =>
      have hlt := size.toNat_lt
      rw [frameSize_cons] at hsum
      have hsize : (bodyBytes props).length < 65536 := by omega
      -- the size prefix is the size, as no object is longer than its frame
      have hlen := toNat_u16le_ofNat hsize
      have hwhole : (u16le (UInt8.ofNat (bodyBytes props).length)
          (UInt8.ofNat ((bodyBytes props).length / 256))).toNat ≤
          (bodyBytes props ++ (objects.flatMap objectWire ++ rest)).length := by
        rw [hlen, List.length_append]
        exact Nat.le_add_right _ _
      rw [List.flatMap_cons, List.append_assoc, objectWire_append hsize, objectEvents]
      cases objects with
      | nil =>
          -- the last object reaches the announced size exactly
          rw [frameSize_nil, Nat.add_zero] at hsum
          obtain ⟨s', hs', hsteps⟩ := steps_object_last hs hwhole (by rw [hlen]; omega)
          rw [hlen, List.take_left, List.drop_left,
            show passed + 2 + (bodyBytes props).length = size.toNat by omega] at hsteps
          rw [hlen, show passed + 2 + (bodyBytes props).length = size.toNat by omega] at hs'
          exact ⟨s', hs', hsteps⟩
      | cons props' objects =>
          -- another object follows, so the size is not reached yet
          have hpos : 0 < frameSize (props' :: objects) := by
            rw [frameSize_cons]
            omega
          obtain ⟨s₁, hs₁, hsteps⟩ := steps_object_more hs hwhole (by rw [hlen]; omega)
          rw [hlen, List.take_left, List.drop_left] at hsteps
          rw [hlen] at hs₁
          obtain ⟨s', hs', hrest⟩ := ih hs₁ (List.cons_ne_nil _ _) (by omega)
          refine ⟨s', hs', ?_⟩
          have hoffset : start + (passed + 2 + (bodyBytes props).length) =
              start + passed + 2 + (bodyBytes props).length := by omega
          rw [hoffset] at hrest
          exact hsteps.trans hrest

/-- One frame, from a header to the next. -/
theorem steps_frame {s : StreamState} {offset : Nat} (hs : s.AtHeader offset) (f : WireFrame)
    (rest : List UInt8) :
    ∃ s' : StreamState, s'.AtHeader (offset + 5 + frameSize f.objects) ∧
      frameMachine.Steps s (f.bytes ++ rest) (f.events offset) s' rest := by
  have hsize : (UInt16.ofNat (frameSize f.objects)).toNat = frameSize f.objects :=
    UInt16.toNat_ofNat_of_lt' f.size_lt
  have hbytes : f.bytes ++ rest = f.flags ::
      UInt8.ofNat (UInt16.ofNat (frameSize f.objects)).toNat ::
      UInt8.ofNat ((UInt16.ofNat (frameSize f.objects)).toNat / 256) ::
      UInt8.ofNat f.requestId.toNat :: UInt8.ofNat (f.requestId.toNat / 256) ::
      (f.objects.flatMap objectWire ++ rest) := by
    simp [WireFrame.bytes, headerBytes, u16Bytes]
  obtain ⟨s₁, hs₁, hheader⟩ := steps_header hs f.flags
    (UInt8.ofNat (UInt16.ofNat (frameSize f.objects)).toNat)
    (UInt8.ofNat ((UInt16.ofNat (frameSize f.objects)).toNat / 256))
    (UInt8.ofNat f.requestId.toNat) (UInt8.ofNat (f.requestId.toNat / 256))
    (f.objects.flatMap objectWire ++ rest)
  rw [u16le_u16Bytes, u16le_u16Bytes] at hs₁ hheader
  obtain ⟨s', hs', hobjects⟩ := steps_objects hs₁ f.objects_ne (by rw [hsize, Nat.zero_add]) rest
  rw [hsize] at hs' hobjects
  rw [hbytes]
  exact ⟨s', hs', hheader.trans hobjects⟩

/-- Successive frames. -/
theorem steps_frames {s : StreamState} {offset : Nat} (hs : s.AtHeader offset)
    (frames : List WireFrame) (rest : List UInt8) :
    ∃ s' offset', s'.AtHeader offset' ∧
      frameMachine.Steps s (frames.flatMap WireFrame.bytes ++ rest)
        (framesEvents offset frames) s' rest := by
  induction frames generalizing s offset with
  | nil => exact ⟨s, offset, hs, .refl _ _⟩
  | cons f frames ih =>
      rw [List.flatMap_cons, List.append_assoc, framesEvents]
      obtain ⟨s₁, hs₁, hframe⟩ := steps_frame hs f (frames.flatMap WireFrame.bytes ++ rest)
      obtain ⟨s', offset', hs', hframes⟩ := ih hs₁
      exact ⟨s', offset', hs', hframe.trans hframes⟩

/-- A stream of encoded frames has exactly the events of the frames. -/
theorem streamEvents_frames (frames : List WireFrame) :
    streamEvents (frames.flatMap WireFrame.bytes) = framesEvents 0 frames := by
  obtain ⟨s', offset', hs', hsteps⟩ := steps_frames StreamState.atHeader_init frames []
  rw [List.append_nil] at hsteps
  rw [streamEvents, hsteps.run_eq_of_waiting (step_header_eq_none hs' (by simp))]

/-! ## The callbacks of a frame -/

/-- The callbacks that a frame should cause. -/
def WireFrame.callbacks (f : WireFrame) : List Callback :=
  .startRequest f.flags (UInt16.ofNat (frameSize f.objects)) f.requestId ::
    (f.objects.map (Callback.next f.flags f.requestId) ++
      [.completeRequest f.flags f.requestId])

theorem map_callback_objectEvents (flags : UInt8) (requestId : UInt16) (offset : Nat)
    (objects : List (List Property)) :
    (objectEvents flags requestId offset objects).map Event.callback =
      objects.map (Callback.next flags requestId) := by
  induction objects generalizing offset with
  | nil => rfl
  | cons props objects ih =>
      rw [objectEvents, List.map_cons, List.map_cons, ih, Event.callback,
        parseProperties_bodyBytes]
      rfl

theorem WireFrame.map_callback_events (f : WireFrame) (offset : Nat) :
    (f.events offset).map Event.callback = f.callbacks := by
  rw [WireFrame.events, List.map_cons, List.map_append, map_callback_objectEvents,
    WireFrame.callbacks]
  rfl

theorem map_callback_framesEvents (offset : Nat) (frames : List WireFrame) :
    (framesEvents offset frames).map Event.callback = frames.flatMap WireFrame.callbacks := by
  induction frames generalizing offset with
  | nil => rfl
  | cons f frames ih =>
      rw [framesEvents, List.map_append, f.map_callback_events, ih, List.flatMap_cons]

theorem mem_objectEvents {flags flags' : UInt8} {requestId requestId' : UInt16}
    {offset offset' : Nat} {objects : List (List Property)} {body : List UInt8}
    (hmem : .object offset' flags' requestId' body ∈ objectEvents flags requestId offset objects) :
    ∃ props ∈ objects, body = bodyBytes props := by
  induction objects generalizing offset with
  | nil => cases hmem
  | cons props objects ih =>
      rw [objectEvents] at hmem
      rcases List.mem_cons.mp hmem with heq | hmem
      · cases heq
        exact ⟨props, List.mem_cons_self, rfl⟩
      · obtain ⟨props', hprops', hbody⟩ := ih hmem
        exact ⟨props', List.mem_cons_of_mem _ hprops', hbody⟩

theorem mem_framesEvents {flags : UInt8} {requestId : UInt16} {offset offset' : Nat}
    {frames : List WireFrame} {body : List UInt8}
    (hmem : .object offset' flags requestId body ∈ framesEvents offset frames) :
    ∃ f ∈ frames, ∃ props ∈ f.objects, body = bodyBytes props := by
  induction frames generalizing offset with
  | nil => cases hmem
  | cons f frames ih =>
      rw [framesEvents] at hmem
      rcases List.mem_append.mp hmem with hmem | hmem
      · rw [WireFrame.events] at hmem
        rcases List.mem_cons.mp hmem with heq | hmem
        · cases heq
        · rcases List.mem_append.mp hmem with hmem | hmem
          · exact ⟨f, List.mem_cons_self, mem_objectEvents hmem⟩
          · simp at hmem
      · obtain ⟨f', hf', hprops⟩ := ih hmem
        exact ⟨f', List.mem_cons_of_mem _ hf', hprops⟩

/-- What the decoder takes for what it is in every build: at most 14 properties, and at
least one where the routine of the Spectrum is linked. -/
structure Decodable (pl : Build) (props : List Property) : Prop where
  count_le : props.length ≤ 14
  ne_nil : pl.decoder = .asm → props ≠ []

theorem decodable_of_c {pl : Build} (hpl : pl.decoder = .c) {props : List Property}
    (hcount : props.length ≤ 14) : Decodable pl props :=
  ⟨hcount, fun hasm => Decoder.noConfusion (hpl.symm.trans hasm)⟩

theorem Decodable.accepted {pl : Build} {props : List Property} (hprops : Decodable pl props) :
    Accepted pl (bodyBytes props) := by
  refine ⟨props, parseProperties_bodyBytes props, ?_, hprops.ne_nil⟩
  -- 14 pointers and the NULL, of at most 8 bytes each
  have hcount := hprops.count_le
  have hsmall : (props.length + 1) * pl.pointerSize ≤ 15 * 8 :=
    Nat.mul_le_mul (by omega) pl.pointerSize_le
  unfold TableFits sizeofProtoObject
  omega

/-- The objects of encoded frames are accepted if the decoder is made for them. -/
theorem framesEvents_accepted (pl : Build) {frames : List WireFrame}
    (hprops : ∀ f ∈ frames, ∀ props ∈ f.objects, Decodable pl props) (offset : Nat) :
    EventsAccepted pl (framesEvents offset frames) := by
  intro offset' flags requestId body hmem
  obtain ⟨f, hf, props, hobject, rfl⟩ := mem_framesEvents hmem
  exact (hprops f hf props hobject).accepted

theorem WireFrame.events_accepted (pl : Build) (f : WireFrame)
    (hprops : ∀ props ∈ f.objects, Decodable pl props) (offset : Nat) :
    EventsAccepted pl (f.events offset) := by
  have hframes : ∀ g ∈ [f], ∀ props ∈ g.objects, Decodable pl props := by
    intro g hg
    rw [List.mem_singleton.mp hg]
    exact hprops
  have haccepted := framesEvents_accepted pl hframes offset
  rwa [framesEvents, framesEvents, List.append_nil] at haccepted

/-- What a connection between two frames sees of encoded frames. -/
theorem Conn.AtBoundary.eventsOf_frames {σ : Type} {c : Conn σ} (hc : c.AtBoundary)
    (frames : List WireFrame) :
    c.eventsOf (frames.flatMap WireFrame.bytes) = framesEvents c.base frames := by
  obtain ⟨s', offset', hs', hsteps⟩ := steps_frames hc.atHeader frames []
  rw [List.append_nil] at hsteps
  rw [Conn.eventsOf, hc.unread, List.nil_append,
    hsteps.run_eq_of_waiting (step_header_eq_none hs' (by simp))]

/-- What a connection between two frames calls for a stream of encoded frames. -/
theorem Conn.TracksFrom.callbacks_frames {σ : Type} {pl : Build} {c₀ c : Conn σ}
    (h₀ : c₀.AtBoundary) {frames : List WireFrame}
    (hc : c.TracksFrom pl c₀ (frames.flatMap WireFrame.bytes))
    (hprops : ∀ f ∈ frames, ∀ props ∈ f.objects, Decodable pl props) :
    c.callbacks = c₀.callbacks ++ frames.flatMap WireFrame.callbacks := by
  obtain ⟨cs, hcalls, hrenders⟩ := hc.renders
  rw [h₀.eventsOf_frames] at hrenders
  rw [Conn.callbacks, hcalls, List.filterMap_append,
    hrenders.callbacks (framesEvents_accepted pl hprops c₀.base), map_callback_framesEvents]
  rfl

theorem Renders.mem_completeRequest {pl : Build} {held held' : ProtoObject} {es : List Event}
    {cs : List Call} (hrenders : Renders pl held es cs held') {offset : Nat} {flags : UInt8}
    {requestId : UInt16} (hmem : .completeRequest offset flags requestId ∈ cs) :
    .completeRequest offset flags requestId ∈ es := by
  induction hrenders with
  | nil => cases hmem
  | startRequest _ _ _ _ _ ih =>
      rcases List.mem_cons.mp hmem with heq | hmem
      · cases heq
      · exact List.mem_cons_of_mem _ (ih hmem)
  | object _ _ _ _ _ ih =>
      rcases List.mem_cons.mp hmem with heq | hmem
      · cases heq
      · rcases List.mem_cons.mp hmem with heq | hmem
        · cases heq
        · exact List.mem_cons_of_mem _ (ih hmem)
  | completeRequest _ _ _ _ ih =>
      rcases List.mem_cons.mp hmem with heq | hmem
      · cases heq
        exact List.mem_cons_self
      · exact List.mem_cons_of_mem _ (ih hmem)

/-- A frame completes with its last event. -/
theorem WireFrame.eq_events_of_completed (f : WireFrame) {base offset : Nat} {flags : UInt8}
    {requestId : UInt16} {es : List Event} (hpre : es <+: f.events base)
    (hmem : .completeRequest offset flags requestId ∈ es) : es = f.events base := by
  rw [WireFrame.events, ← List.cons_append] at hpre ⊢
  rcases List.prefix_concat_iff.mp hpre with heq | hpre
  · exact heq
  · exfalso
    rcases List.mem_cons.mp (hpre.subset hmem) with heq | hmem
    · cases heq
    · -- the other events of the frame are a header and objects
      have hnone : ∀ (objects : List (List Property)) (start : Nat),
          .completeRequest offset flags requestId ∉
            objectEvents f.flags f.requestId start objects := by
        intro objects
        induction objects with
        | nil => exact fun _ hmem => absurd hmem List.not_mem_nil
        | cons props objects ih =>
            intro start hmem
            rcases List.mem_cons.mp hmem with heq | hmem
            · cases heq
            · exact ih _ hmem
      exact hnone _ _ hmem

/-- A frame that arrives between two frames causes its callbacks in any cut, even
if the reply to it is not sent. -/
theorem Cut.callbacks_frame {σ : Type} {pl : Build} {h : Host σ} {c : Conn σ}
    (hc : c.AtBoundary) (hplaced : c.Placed pl) {f : WireFrame} {rs : List RecvResult}
    (hcut : Cut pl h c f.bytes rs) (hprops : ∀ props ∈ f.objects, Decodable pl props) :
    (recvAll pl h c rs).2.callbacks = c.callbacks ++ f.callbacks := by
  have hspec := recvAll_spec pl h (hc.tracksFrom pl) hcut.fits
  rw [List.nil_append, hcut.received] at hspec
  have hframe : [f].flatMap WireFrame.bytes = f.bytes := List.flatMap_singleton _ _
  have hall : ∀ g ∈ [f], ∀ props ∈ g.objects, Decodable pl props := by
    intro g hg
    rw [List.mem_singleton.mp hg]
    exact hprops
  by_cases hzero : (recvAll pl h c rs).1 = 0
  · have hcallbacks := (hframe ▸ hspec.tracks hzero).callbacks_frames hc hall
    rwa [List.flatMap_singleton] at hcallbacks
  · have hevents : c.eventsOf f.bytes = f.events c.base := by
      rw [← hframe, hc.eventsOf_frames]
      exact List.append_nil _
    have haccepted := f.events_accepted pl hprops c.base
    -- the calls end with a completion, and so the frame is over
    obtain ⟨-, cs', offset, flags, requestId, hends⟩ :=
      (hspec.failed hcut.delivers hzero).resolve_right fun hover =>
        hover.2 ⟨hplaced, hevents ▸ haccepted.contained⟩
    obtain ⟨es, cs, hpre, hcalls, hrenders⟩ := hspec.shows
    have hnew : cs = cs' ++ [.completeRequest offset flags requestId] :=
      List.append_cancel_left (hcalls.symm.trans hends)
    have hlast : .completeRequest offset flags requestId ∈ es := by
      apply hrenders.mem_completeRequest
      rw [hnew]
      exact List.mem_append_right _ List.mem_cons_self
    have hwhole : es = f.events c.base := f.eq_events_of_completed (hevents ▸ hpre) hlast
    rw [hwhole] at hrenders
    rw [Conn.callbacks, hcalls, List.filterMap_append, hrenders.callbacks haccepted,
      f.map_callback_events]
    rfl

/-- A connection between two calls that is ready for a frame behind `earlier`:
what it holds and `earlier` end between two frames, and cause `cbs`. -/
structure Conn.ReadyBehind {σ : Type} (pl : Build) (c : Conn σ) (earlier : List UInt8)
    (cbs : List Callback) : Prop where
  drained : frameMachine.step c.stream c.unread = none
  fits : c.proto.totalReceived ≤ c.proto.processBufferSize
  steps : ∃ es t offset, frameMachine.Steps c.stream (c.unread ++ earlier) es t [] ∧
    t.AtHeader offset ∧ EventsAccepted pl es ∧ cbs = es.map Event.callback

theorem Conn.AtBoundary.readyBehind {σ : Type} {c : Conn σ} (pl : Build) (hc : c.AtBoundary) :
    c.ReadyBehind pl [] [] := by
  have hself := hc.tracksFrom pl
  refine ⟨?_, hself.fits, [], c.stream, c.base, ?_, hc.atHeader, ?_, rfl⟩
  · exact step_header_eq_none hc.atHeader (by rw [hc.unread]; decide)
  · rw [hc.unread]
    exact .refl _ _
  · exact fun offset flags requestId body hmem => absurd hmem List.not_mem_nil

/-- With nothing in front of the frame, the connection is between two frames. -/
theorem Conn.ReadyBehind.atBoundary {σ : Type} {pl : Build} {c : Conn σ} {cbs : List Callback}
    (hc : c.ReadyBehind pl [] cbs) : c.AtBoundary ∧ cbs = [] := by
  obtain ⟨hwait, -, es, t, offset, hsteps, ht, -, hcbs⟩ := hc
  rw [List.append_nil] at hsteps
  generalize hunread : c.unread = unread at hwait hsteps
  cases hsteps with
  | refl =>
      have hlength := congrArg List.length hunread
      rw [Conn.unread, length_slice, List.length_nil] at hlength
      exact ⟨⟨ht.state, UInt16.toNat_inj.mp hlength⟩, hcbs⟩
  | head hstep _ =>
      rw [hwait] at hstep
      cases hstep

/-- The frame causes its callbacks in any cut, also if it is cut together with
`earlier`.  Replies may be asked for by `earlier` then, and have to be sent. -/
theorem Cut.callbacks_frame_behind {σ : Type} {pl : Build} {h : Host σ} {c : Conn σ}
    {earlier : List UInt8} {cbs : List Callback} (hc : c.ReadyBehind pl earlier cbs)
    (hplaced : c.Placed pl) (hreplies : earlier = [] ∨ h.RepliesSent) {f : WireFrame}
    {rs : List RecvResult} (hcut : Cut pl h c (earlier ++ f.bytes) rs)
    (hprops : ∀ props ∈ f.objects, Decodable pl props) :
    (recvAll pl h c rs).2.callbacks = c.callbacks ++ (cbs ++ f.callbacks) := by
  rcases hreplies with rfl | hreplies
  · obtain ⟨hboundary, rfl⟩ := hc.atBoundary
    exact hcut.callbacks_frame hboundary hplaced hprops
  · obtain ⟨hwait, hfits, es, t, offset, hsteps, ht, haccepted, rfl⟩ := hc
    obtain ⟨s', hs', hframe⟩ := steps_frame ht f []
    rw [List.append_nil] at hframe
    have hevents : c.eventsOf (earlier ++ f.bytes) = es ++ f.events offset := by
      have hall := (hsteps.append f.bytes).trans hframe
      rw [List.append_assoc] at hall
      rw [Conn.eventsOf, hall.run_eq_of_waiting (step_header_eq_none hs' (by simp))]
    have hboth : EventsAccepted pl (es ++ f.events offset) := by
      intro offset' flags requestId body hmem
      rcases List.mem_append.mp hmem with hmem | hmem
      · exact haccepted _ _ _ _ hmem
      · exact f.events_accepted pl hprops offset _ _ _ _ hmem
    obtain ⟨-, htracks⟩ := hcut.tracksFrom pl h (.refl pl hwait hfits) hreplies hplaced
      (hevents ▸ hboth.contained)
    obtain ⟨cs, hcalls, hrenders⟩ := htracks.renders
    rw [hevents] at hrenders
    rw [Conn.callbacks, hcalls, List.filterMap_append, hrenders.callbacks hboth, List.map_append,
      f.map_callback_events]
    rfl

/-- What a connection has called after a stream of encoded frames. -/
theorem Conn.Tracks.callbacks_frames {σ : Type} {pl : Build} {c : Conn σ}
    {frames : List WireFrame} (hc : c.Tracks pl (frames.flatMap WireFrame.bytes))
    (hprops : ∀ f ∈ frames, ∀ props ∈ f.objects, Decodable pl props) :
    c.callbacks = frames.flatMap WireFrame.callbacks := by
  obtain ⟨c₀, h₀, hfrom⟩ := hc.exists_from pl
  rw [hfrom.callbacks_frames h₀.atBoundary hprops]
  obtain ⟨processBuffer, processBufferSize, mem, objectBuffer, app, errno, rfl⟩ := h₀
  rfl

/-! ## The sender -/

/-- How an object is built: from a chain with at most 14 non-empty properties,
on the heap or in a buffer. -/
structure ObjectSource where
  onHeap : Bool
  mem : Memory
  addr : Nat
  bufferAvailable : UInt16
  chain : List ProtoStackObjectProperty
  count_le : (chainProperties chain).length ≤ 14

/-- `proto_object_allocate` or `proto_object_assign`. -/
def ObjectSource.build (pl : Platform) (o : ObjectSource) : OwnedObject :=
  if o.onHeap then
    protoObjectAllocate pl o.mem o.addr o.chain (o.count_le.trans (by decide))
  else
    protoObjectAssign pl o.mem o.addr o.bufferAvailable o.chain (o.count_le.trans (by decide))

/-- How a frame is sent: 1 to 255 objects, through `proto_serialize` or
`proto_send`.  The sizes of the objects are those of their encoded properties,
so a chain that would wrap the 16-bit `object_size`, and whose constructor would
run past its block, is excluded along with the frames that are too long. -/
structure FrameSource where
  serialized : Bool
  flags : UInt8
  requestId : UInt16
  objects : List ObjectSource
  objects_ne : objects ≠ []
  objects_le : objects.length ≤ 255
  size_lt : frameSize (objects.map fun o => chainProperties o.chain) < 65536

/-- A socket that takes everything and remembers it. -/
def recordingSend (bytes sent : List UInt8) : Int × List UInt8 :=
  (bytes.length, sent ++ bytes)

/-- The bytes that `proto_serialize` writes, or that `proto_send` hands to the
socket. -/
def FrameSource.wire (pl : Platform) (f : FrameSource) : List UInt8 :=
  let objects := f.objects.map (ObjectSource.build pl)
  let amount := UInt8.ofNat objects.length
  if f.serialized then
    protoSerialize pl objects amount f.requestId f.flags
  else
    (protoSend pl recordingSend objects amount f.requestId f.flags []).2

/-- The frame meant. -/
def FrameSource.toWireFrame (f : FrameSource) : WireFrame where
  flags := f.flags
  requestId := f.requestId
  objects := f.objects.map fun o => chainProperties o.chain
  objects_ne := by simpa using f.objects_ne
  size_lt := f.size_lt

/-- The callbacks that the frame should cause at the other side. -/
def FrameSource.callbacks (f : FrameSource) : List Callback :=
  f.toWireFrame.callbacks

theorem length_le_frameSize {props : List Property} {objects : List (List Property)}
    (hmem : props ∈ objects) : (bodyBytes props).length ≤ frameSize objects := by
  have hle : (bodyBytes props).length + 2 ≤ frameSize objects :=
    List.le_sum_of_mem (List.mem_map_of_mem hmem)
  omega

theorem FrameSource.represents (pl : Platform) (f : FrameSource) :
    RepresentsAll pl (f.objects.map (ObjectSource.build pl)) f.toWireFrame.objects := by
  refine List.forall₂_map_left_iff.mpr (List.forall₂_map_right_iff.mpr ?_)
  refine List.forall₂_same.mpr fun o ho => ?_
  have hsize : (bodyBytes (chainProperties o.chain)).length < 65536 :=
    lt_of_le_of_lt (length_le_frameSize (List.mem_map.mpr ⟨o, ho, rfl⟩)) f.size_lt
  rw [ObjectSource.build]
  split
  · exact represents_protoObjectAllocate pl _ _ _ _ hsize
  · exact represents_protoObjectAssign pl _ _ _ _ _ hsize

theorem sendAll_recordingSend (buffers : List (List UInt8)) (sent : List UInt8) :
    sendAll recordingSend buffers sent = sent ++ buffers.flatten := by
  induction buffers generalizing sent with
  | nil => simp [sendAll]
  | cons buffer buffers ih =>
      rw [List.flatten_cons, ← List.append_assoc]
      exact ih (sent ++ buffer)

/-- Both encoders put the frame meant on the wire. -/
theorem FrameSource.wire_eq (pl : Platform) (f : FrameSource) :
    f.wire pl = f.toWireFrame.bytes := by
  have hrepresents := f.represents pl
  have hamount : (UInt8.ofNat (f.objects.map (ObjectSource.build pl)).length).toNat =
      (f.objects.map (ObjectSource.build pl)).length := by
    have hle := f.objects_le
    rw [UInt8.toNat_ofNat', List.length_map]
    omega
  have hsend : ∀ bytes sent, 0 ≤ (recordingSend bytes sent).1 := fun bytes _ =>
    Int.natCast_nonneg bytes.length
  rw [FrameSource.wire]
  split
  · exact protoSerialize_eq f.toWireFrame hrepresents _ hamount
  · rw [protoSend_of_success pl hsend, sendAll_recordingSend, List.nil_append]
    exact flatten_sendBuffers f.toWireFrame hrepresents _ hamount

/-! ## The round trip -/

/-- **The wire round trip.**  Frames sent in any of the ways above, cut in any
way that fits the receiver, cause exactly the callbacks meant.  The two sides may
differ in their platform; the receiving application is arbitrary, as long as the
replies that it asks for are sent. -/
theorem recvAll_roundTrip {σ : Type} (sender receiver : Platform) (h : Host σ) {c : Conn σ}
    (frames : List FrameSource) {rs : List RecvResult} (hc : c.Fresh)
    (hcut : Cut receiver h c (frames.flatMap (FrameSource.wire sender)) rs)
    (hreplies : h.RepliesSent) :
    (recvAll receiver h c rs).1 = 0 ∧
      (recvAll receiver h c rs).2.callbacks = frames.flatMap FrameSource.callbacks := by
  have hwire : frames.flatMap (FrameSource.wire sender) =
      (frames.map FrameSource.toWireFrame).flatMap WireFrame.bytes := by
    rw [List.flatMap_map]
    exact List.flatMap_congr fun f _ => f.wire_eq sender
  have hprops : ∀ f ∈ frames.map FrameSource.toWireFrame, ∀ props ∈ f.objects,
      Decodable receiver props := by
    intro f hf props hprops
    obtain ⟨source, -, rfl⟩ := List.mem_map.mp hf
    obtain ⟨o, -, rfl⟩ := List.mem_map.mp hprops
    exact decodable_of_c rfl o.count_le
  have haccepted : AllAccepted receiver (frames.flatMap (FrameSource.wire sender)) := by
    rw [AllAccepted, hwire, streamEvents_frames]
    exact framesEvents_accepted receiver hprops 0
  obtain ⟨hzero, htracks⟩ :=
    hcut.tracks receiver h hc hreplies (c.placed_of_c rfl) haccepted.contained
  refine ⟨hzero, ?_⟩
  rw [hwire] at htracks
  rw [htracks.callbacks_frames hprops, List.flatMap_map]
  rfl

/-- Two frames, a request with one property and a response with an empty object,
in three pieces that respect no boundary. -/
theorem recvAll_roundTrip_two_frames :
    let id : ProtoStackObjectProperty := ⟨ProtoObjectPropertyKey.id.code, [65, 66], 2, by decide⟩
    let empty : ProtoStackObjectProperty := ⟨ProtoObjectPropertyKey.title.code, [], 0, by decide⟩
    let request : ObjectSource := ⟨true, fun _ => 0, 512, 0, [id, empty], by decide⟩
    let response : ObjectSource := ⟨false, fun _ => 7, 256, 64, [empty], by decide⟩
    let frames : List FrameSource :=
      [⟨false, 0, 1, [request], by simp, by decide, by decide⟩,
        ⟨true, protoFlagResponse, 1, [response, request], by simp, by decide, by decide⟩]
    let rs : List RecvResult := [.received [0, 7, 0, 1, 0, 5, 0, 2],
      .received [0, 2, 65, 66, 2, 9, 0], .received [1, 0, 0, 0, 5, 0, 2, 0, 2, 65, 66]]
    (recvAll Platform.pc Host.quiet (Conn.init 64 16 (fun _ => 0) ⟨0, []⟩ () 0) rs).1 = 0 ∧
      (recvAll Platform.pc Host.quiet (Conn.init 64 16 (fun _ => 0) ⟨0, []⟩ () 0) rs).2.callbacks =
        frames.flatMap FrameSource.callbacks := by
  intro id empty request response frames rs
  refine recvAll_roundTrip Platform.pc Platform.pc Host.quiet frames (Conn.fresh_init _ _ _ _ _ _)
    ⟨by decide +kernel, ?_, by decide +kernel⟩ Host.quiet_repliesSent
  simp [rs, RecvResult.Delivers, RecvResult.count]

end ZxProto
