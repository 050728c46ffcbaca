import ZxProto.Stream

/-!
# What the segmentation does not change

Two results that follow from the refinement by the frame machine, for arbitrary
bytes and every cut of them into `recv` results.

* `SameOutcome`, `recvAll_segmentation` — two cuts of one stream give the same events and
  leave the same parser state and the same unconsumed bytes, if no object overruns the
  object buffer; with the C decoder, only if no number of properties wraps into its test;
* `OnlyDecoded` — `process_next` sees only objects that the decoder accepted.
  `process` does not look at the decoder's result, so this is a property of the
  stream: `onlyDecoded_iff` says of which streams.
-/

namespace ZxProto

open ByteMemory

variable {σ : Type} (pl : Build) (h : Host σ)

/-! ## Segmentation independence -/

/-- The event that a call shows; a body is shown where the decoder gets it. -/
def Call.event? : Call → Option Event
  | .startRequest offset flags size requestId => some (.startRequest offset flags size requestId)
  | .objectRead offset flags requestId body _ => some (.object offset flags requestId body)
  | .next _ _ _ _ => none
  | .completeRequest offset flags requestId => some (.completeRequest offset flags requestId)

/-- The events that a connection has shown to its application. -/
def Conn.events (c : Conn σ) : List Event :=
  c.calls.filterMap Call.event?

theorem Renders.events {pl : Build} {held held' : ProtoObject} {es : List Event}
    {cs : List Call} (hrenders : Renders pl held es cs held') :
    cs.filterMap Call.event? = es := by
  induction hrenders with
  | nil => rfl
  | startRequest _ _ _ _ _ ih => simp [Call.event?, ih]
  | object _ _ _ _ _ ih => simp [List.filterMap_cons, Call.event?, ih]
  | completeRequest _ _ _ _ ih => simp [Call.event?, ih]

/-- A connection that has drained a stream has shown its events. -/
theorem Conn.Tracks.events {c : Conn σ} {stream : List UInt8} (hc : c.Tracks pl stream) :
    c.events = streamEvents stream :=
  let ⟨_, hrenders⟩ := hc.renders
  hrenders.events

/-- Two runs that have come to the same, and in which the decoder has stayed in the object
buffer. -/
structure SameOutcome (c₁ c₂ : Conn σ) : Prop where
  running₁ : c₁.overrun = false
  running₂ : c₂.overrun = false
  events : c₁.events = c₂.events
  frameState : c₁.proto.toFrameState = c₂.proto.toFrameState
  unread : c₁.unread = c₂.unread

/-- **The cut is not observable.**  Two ways of cutting a stream into `recv`
results give the same events, the same parser state and the same unconsumed
bytes, if the object buffer holds the object of every body in the stream; with the C
decoder, exactly if no number of properties passes its test modulo 256 only.  Neither
the buffer size nor the announced object sizes need a bound: an object that outgrows the
buffer leaves no space for a further result. -/
theorem recvAll_segmentation {c : Conn σ} (stream : List UInt8) {rs₁ rs₂ : List RecvResult}
    (hc : c.Fresh) (hplaced : c.Placed pl) (hcut₁ : Cut pl h c stream rs₁)
    (hcut₂ : Cut pl h c stream rs₂) (hreplies : h.RepliesSent) :
    (AllContained pl stream → SameOutcome (recvAll pl h c rs₁).2 (recvAll pl h c rs₂).2) ∧
      (pl.decoder = .c →
        (SameOutcome (recvAll pl h c rs₁).2 (recvAll pl h c rs₂).2 ↔ AllCountsFit pl stream)) := by
  have hsame : AllContained pl stream →
      SameOutcome (recvAll pl h c rs₁).2 (recvAll pl h c rs₂).2 := by
    intro hcontained
    have h₁ := (hcut₁.tracks pl h hc hreplies hplaced hcontained).2
    have h₂ := (hcut₂.tracks pl h hc hreplies hplaced hcontained).2
    -- both runs end in the run of the machine over the whole stream
    have hruns := h₁.run.symm.trans h₂.run
    have hstate := congrArg Transducer.Result.state hruns
    refine ⟨hcut₁.overrun pl h hc hplaced hcontained, hcut₂.overrun pl h hc hplaced hcontained, ?_,
      congrArg StreamState.toFrameState hstate, congrArg Transducer.Result.rest hruns⟩
    rw [h₁.events, h₂.events]
  refine ⟨hsame, fun hpl => ⟨fun houtcome => ?_, fun hfits => hsame (hfits.contained hpl)⟩⟩
  exact (hcut₁.tracks_of_overrun pl h hc hreplies houtcome.running₁).countsFit hpl

/-- A frame with two objects, cut inside the header and inside an object with a
fruitless `recv` in between, and in one piece. -/
theorem recvAll_segmentation_two_objects :
    let c := Conn.init 64 32 (fun _ => 0) ⟨0, []⟩ () 0
    let rs₁ : List RecvResult := [.received [2, 11, 0], .failed ewouldblock,
      .received [1, 0, 4, 0, 1, 0, 7], .received [65, 3, 0, 0, 0, 0]]
    let rs₂ : List RecvResult := [.received [2, 11, 0, 1, 0, 4, 0, 1, 0, 7, 65, 3, 0, 0, 0, 0]]
    SameOutcome (recvAll Platform.pc Host.quiet c rs₁).2
      (recvAll Platform.pc Host.quiet c rs₂).2 := by
  refine (recvAll_segmentation Platform.pc Host.quiet
    [2, 11, 0, 1, 0, 4, 0, 1, 0, 7, 65, 3, 0, 0, 0, 0] (Conn.fresh_init _ _ _ _ _ _)
    (Conn.placed_of_c rfl _) ⟨by decide, ?_, by decide +kernel⟩ ⟨by decide, ?_, by decide +kernel⟩
    Host.quiet_repliesSent).1 ?_
  · simp [RecvResult.Delivers, RecvResult.count, Platform.pc]
  · simp [RecvResult.Delivers, RecvResult.count]
  · have haccepted :
        AllAccepted Platform.pc [2, 11, 0, 1, 0, 4, 0, 1, 0, 7, 65, 3, 0, 0, 0, 0] := by
      decide +kernel
    exact haccepted.contained

/-- A body of 256 properties, in one piece and with the header cut: the decoder writes the
table over the object buffer of 128 bytes. -/
theorem not_recvAll_segmentation_256_properties :
    ¬ SameOutcome (recvAll Platform.pc Host.quiet wideServer [.received overrunningRequest]).2
      (recvAll Platform.pc Host.quiet wideServer [.received (overrunningRequest.take 3),
        .received (overrunningRequest.drop 3)]).2 := by
  intro hsame
  have hrunning := hsame.running₁
  rw [recvAll_singleton, recvProcess_wideServer] at hrunning
  cases hrunning

/-! ## Only decoded objects reach the application -/

/-- Every call of `process_next` comes right after a call of `proto_object_read`
that returned 0, and the object shows the properties of the bytes read. -/
def OnlyDecoded (calls : List Call) : Prop :=
  ∀ before flags requestId object contents after,
    calls = before ++ .next flags requestId object contents :: after →
    ∃ before' offset body, before = before' ++ [.objectRead offset flags requestId body 0] ∧
      parseProperties body = some contents

/-- In front of a call of `process_next` stands the read of an object body that
is one of the events, and the call shows what was read. -/
theorem Renders.split_next {pl : Build} {held held' : ProtoObject} {es : List Event}
    {cs : List Call} (hrenders : Renders pl held es cs held') {before after : List Call}
    {flags : UInt8} {requestId : UInt16} {object : ProtoObject} {contents : List Property}
    (hsplit : cs = before ++ .next flags requestId object contents :: after) :
    ∃ before' offset body result,
      before = before' ++ [.objectRead offset flags requestId body result] ∧
      .object offset flags requestId body ∈ es ∧
      (Accepted pl body → result = 0 ∧ parseProperties body = some contents) := by
  induction hrenders generalizing before with
  | nil => simp at hsplit
  | startRequest offset' flags' size' requestId' _ ih =>
      cases before with
      | nil => simp at hsplit
      | cons call before =>
          rw [List.cons_append, List.cons_eq_cons] at hsplit
          obtain ⟨before', offset, body, result, rfl, hmem, hread⟩ := ih hsplit.2
          exact ⟨call :: before', offset, body, result, rfl, List.mem_cons_of_mem _ hmem, hread⟩
  | @object _ _ _ _ offset' flags' requestId' _ _ _ read hread' _ ih =>
      match before, hsplit with
      | [], hsplit => simp at hsplit
      -- the split falls between the read and the call: this is the object
      | [call], hsplit =>
          simp only [List.cons_append, List.nil_append, List.cons_eq_cons,
            Call.next.injEq] at hsplit
          obtain ⟨rfl, ⟨rfl, rfl, rfl, rfl⟩, -⟩ := hsplit
          refine ⟨[], offset', _, read.result, rfl, List.mem_cons_self, fun haccepted => ?_⟩
          obtain ⟨hresult, -, hparse⟩ := haccepted.read hread'
          exact ⟨hresult, hparse⟩
      | call :: call' :: before, hsplit =>
          simp only [List.cons_append, List.cons_eq_cons] at hsplit
          obtain ⟨before', offset, body, result, rfl, hmem, hread⟩ := ih hsplit.2.2
          exact ⟨call :: call' :: before', offset, body, result, rfl,
            List.mem_cons_of_mem _ hmem, hread⟩
  | completeRequest offset' flags' requestId' _ ih =>
      cases before with
      | nil => simp at hsplit
      | cons call before =>
          rw [List.cons_append, List.cons_eq_cons] at hsplit
          obtain ⟨before', offset, body, result, rfl, hmem, hread⟩ := ih hsplit.2
          exact ⟨call :: before', offset, body, result, rfl, List.mem_cons_of_mem _ hmem, hread⟩

/-- Every object body among the events is read, and then passed on. -/
theorem Renders.exists_next {pl : Build} {held held' : ProtoObject} {es : List Event}
    {cs : List Call} (hrenders : Renders pl held es cs held') {offset : Nat} {flags : UInt8}
    {requestId : UInt16} {body : List UInt8} (hmem : .object offset flags requestId body ∈ es) :
    ∃ before result object contents after,
      cs = before ++ [.objectRead offset flags requestId body result] ++
        .next flags requestId object contents :: after ∧
      (result = 0 → parseProperties body = some contents → Accepted pl body) := by
  induction hrenders with
  | nil => cases hmem
  | startRequest offset' flags' size' requestId' _ ih =>
      obtain ⟨before, result, object, contents, after, rfl, hresult⟩ :=
        ih ((List.mem_cons.mp hmem).resolve_left (by simp))
      exact ⟨_ :: before, result, object, contents, after, rfl, hresult⟩
  | @object _ _ _ cs' offset' flags' requestId' _ mem _ read hread _ ih =>
      rcases List.mem_cons.mp hmem with heq | hmem
      -- the body is that of the first event
      · cases heq
        exact ⟨[], read.result, read.object, read.object.contents mem, cs', rfl,
          fun hresult hparse => accepted_of_read hread hresult hparse⟩
      · obtain ⟨before, result, object, contents, after, rfl, hresult⟩ := ih hmem
        exact ⟨_ :: _ :: before, result, object, contents, after, rfl, hresult⟩
  | completeRequest offset' flags' requestId' _ ih =>
      obtain ⟨before, result, object, contents, after, rfl, hresult⟩ :=
        ih ((List.mem_cons.mp hmem).resolve_left (by simp))
      exact ⟨_ :: before, result, object, contents, after, rfl, hresult⟩

/-- Calls that show events are only on decoded objects exactly if all the bodies
among the events are accepted. -/
theorem Renders.onlyDecoded_iff_accepted {pl : Build} {held held' : ProtoObject}
    {es : List Event} {cs : List Call} (hrenders : Renders pl held es cs held') :
    OnlyDecoded cs ↔ EventsAccepted pl es := by
  constructor
  · intro honly offset flags requestId body hmem
    obtain ⟨before, result, object, contents, after, hsplit, hresult⟩ :=
      hrenders.exists_next hmem
    obtain ⟨before', offset', body', hbefore, hparse⟩ :=
      honly _ flags requestId object contents after hsplit
    -- the read in front of the call is the read of that body
    obtain ⟨-, hread⟩ := List.append_inj' hbefore rfl
    simp only [List.cons.injEq, Call.objectRead.injEq, and_true] at hread
    obtain ⟨-, -, -, rfl, hzero⟩ := hread
    exact hresult hzero hparse
  · intro haccepted before flags requestId object contents after hsplit
    obtain ⟨before', offset, body, result, hbefore, hmem, hread⟩ := hrenders.split_next hsplit
    obtain ⟨rfl, hparse⟩ := hread (haccepted offset flags requestId body hmem)
    exact ⟨before', offset, body, hbefore, hparse⟩

/-- **When only decoded objects reach the application.**  If the decoder accepts
every object body of the stream, then along every cut and for every host; and if
the replies are sent, then only if so.  The condition bounds the number of the properties
itself: a body whose number passes the test modulo 256 overruns the object buffer. -/
theorem onlyDecoded_iff {c : Conn σ} (stream : List UInt8) {rs : List RecvResult}
    (hc : c.Fresh) (hplaced : c.Placed pl) (hcut : Cut pl h c stream rs) :
    (AllAccepted pl stream → (recvAll pl h c rs).2.overrun = false ∧
        OnlyDecoded (recvAll pl h c rs).2.calls) ∧
      (h.RepliesSent →
        ((recvAll pl h c rs).2.overrun = false ∧ OnlyDecoded (recvAll pl h c rs).2.calls ↔
          AllAccepted pl stream)) := by
  have hforward : AllAccepted pl stream → (recvAll pl h c rs).2.overrun = false ∧
      OnlyDecoded (recvAll pl h c rs).2.calls := by
    intro haccepted
    obtain ⟨es, held, hpre, hrenders⟩ := hcut.shows pl h hc
    exact ⟨hcut.overrun pl h hc hplaced haccepted.contained,
      hrenders.onlyDecoded_iff_accepted.mpr (EventsAccepted.mono haccepted hpre.subset)⟩
  refine ⟨hforward, fun hreplies => ⟨?_, hforward⟩⟩
  rintro ⟨hoverrun, honly⟩
  obtain ⟨held, hrenders⟩ := (hcut.tracks_of_overrun pl h hc hreplies hoverrun).renders
  exact hrenders.onlyDecoded_iff_accepted.mp honly

/-- A request with one object of one property, in two pieces. -/
theorem onlyDecoded_one_object :
    OnlyDecoded (recvAll Platform.pc Host.quiet (Conn.init 64 32 (fun _ => 0) ⟨0, []⟩ () 0)
      [.received [0, 6, 0, 1, 0, 4, 0], .received [1, 0, 7, 65]]).2.calls := by
  refine (((onlyDecoded_iff Platform.pc Host.quiet [0, 6, 0, 1, 0, 4, 0, 1, 0, 7, 65]
    (Conn.fresh_init _ _ _ _ _ _) (Conn.placed_of_c rfl _)
    ⟨by decide, ?_, by decide +kernel⟩).2 Host.quiet_repliesSent).mpr (by decide +kernel)).2
  simp [RecvResult.Delivers, RecvResult.count]

/-- A request whose only object is one byte long: the decoder says 1, and
`process_next` is called all the same. -/
theorem not_onlyDecoded_untiled :
    ¬ OnlyDecoded (recvAll Platform.pc Host.quiet (Conn.init 64 32 (fun _ => 0) ⟨0, []⟩ () 0)
      [.received [0, 3, 0, 1, 0, 1, 0, 7]]).2.calls := by
  have hcalls : (recvAll Platform.pc Host.quiet (Conn.init 64 32 (fun _ => 0) ⟨0, []⟩ () 0)
      [.received [0, 3, 0, 1, 0, 1, 0, 7]]).2.calls =
      [.startRequest 5 0 3 1, .objectRead 7 0 1 [7] 1, .next 0 1 ⟨0, []⟩ [],
        .completeRequest 8 0 1] := by
    decide +kernel
  rw [hcalls]
  intro honly
  obtain ⟨before', offset, body, hbefore, -⟩ := honly
    [.startRequest 5 0 3 1, .objectRead 7 0 1 [7] 1] 0 1 ⟨0, []⟩ [] [.completeRequest 8 0 1] rfl
  have hbefore' : [Call.startRequest 5 0 3 1] ++ [.objectRead 7 0 1 [7] 1] =
      before' ++ [.objectRead offset 0 1 body 0] := hbefore
  obtain ⟨-, hread⟩ := List.append_inj' hbefore' rfl
  simp at hread

end ZxProto
