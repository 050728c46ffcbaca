import ZxProto.FrameMachine

/-!
# `process` refines the frame machine

`process` sees its input through a buffer that `recv_process` fills and shifts.
Here the buffer is removed: whatever it holds and however it was filled, the
loop does what the frame machine does on the bytes received.

* `Renders` — which calls of `process` show which events;
* `EventsAccepted`, `EventsContained` — what the decoder makes of the bodies; an object
  that its buffer does not hold ends the run;
* `caseStep_spec`, `processLoop_spec` — every run of the loop is a run of the
  frame machine over the unread bytes;
* `Conn.Tracks`, `Conn.TracksFrom` — a connection between two calls has drained
  the bytes that it was given, since `proto_init` or since an earlier point;
  `recvProcess_spec` and `recvAll_spec` carry this along;
* `Conn.AtBoundary` — between two frames, what follows is a stream of its own.
-/

namespace ZxProto

open ByteMemory

/-! ## The calls that show an event -/

/-- `calls` are the calls that `process` makes for the events, with `held` in the object
buffer before and `held'` behind.  An object takes two: the decoder is called on exactly
its body, and then `process_next`, which sees what the object buffer holds then, be it
the body or what was left there by an earlier object. -/
inductive Renders (pl : Build) : ProtoObject → List Event → List Call → ProtoObject → Prop
  | nil (held : ProtoObject) : Renders pl held [] [] held
  | startRequest {held held' : ProtoObject} {es : List Event} {cs : List Call} (offset : Nat)
      (flags : UInt8) (size requestId : UInt16) :
      Renders pl held es cs held' →
      Renders pl held (.startRequest offset flags size requestId :: es)
        (.startRequest offset flags size requestId :: cs) held'
  | object {held held' : ProtoObject} {es : List Event} {cs : List Call} (offset : Nat)
      (flags : UInt8) (requestId : UInt16) {objectSize : UInt16} {mem : Memory}
      {bufferFrom : Nat} {read : ReadOutcome} :
      pl.readObject held objectSize mem bufferFrom = some read →
      Renders pl read.object es cs held' →
      Renders pl held
        (.object offset flags requestId (slice mem bufferFrom objectSize.toNat) :: es)
        (.objectRead offset flags requestId (slice mem bufferFrom objectSize.toNat) read.result ::
          .next flags requestId read.object (read.object.contents mem) :: cs) held'
  | completeRequest {held held' : ProtoObject} {es : List Event} {cs : List Call} (offset : Nat)
      (flags : UInt8) (requestId : UInt16) :
      Renders pl held es cs held' →
      Renders pl held (.completeRequest offset flags requestId :: es)
        (.completeRequest offset flags requestId :: cs) held'

theorem Renders.append {pl : Build} {held mid held' : ProtoObject} {es fs : List Event}
    {cs ds : List Call} (h : Renders pl held es cs mid) (h' : Renders pl mid fs ds held') :
    Renders pl held (es ++ fs) (cs ++ ds) held' := by
  induction h with
  | nil => exact h'
  | startRequest offset flags size requestId _ ih => exact .startRequest _ _ _ _ (ih h')
  | object offset flags requestId hread _ ih => exact .object _ _ _ hread (ih h')
  | completeRequest offset flags requestId _ ih => exact .completeRequest _ _ _ (ih h')

/-- Every object body among the events is accepted. -/
def EventsAccepted (pl : Build) (es : List Event) : Prop :=
  ∀ offset flags requestId body, .object offset flags requestId body ∈ es → Accepted pl body

/-- The body of the object of an event. -/
def Event.body? : Event → Option (List UInt8)
  | .object _ _ _ body => some body
  | _ => none

instance (pl : Build) (es : List Event) : Decidable (EventsAccepted pl es) :=
  decidable_of_iff (∀ body ∈ es.filterMap Event.body?, Accepted pl body) <| by
    constructor
    · exact fun h offset flags requestId body hmem =>
        h body (List.mem_filterMap.mpr ⟨_, hmem, rfl⟩)
    · intro h body hmem
      obtain ⟨e, hmem, hbody⟩ := List.mem_filterMap.mp hmem
      cases e with
      | startRequest => cases hbody
      | object offset flags requestId body' =>
          cases hbody
          exact h offset flags requestId body hmem
      | completeRequest => cases hbody

/-- The object buffer holds the objects of the events, wherever their bodies lie. -/
def EventsContained (pl : Build) (es : List Event) : Prop :=
  ∀ offset flags requestId body, .object offset flags requestId body ∈ es → Contained pl body

theorem EventsAccepted.contained {pl : Build} {es : List Event} (h : EventsAccepted pl es) :
    EventsContained pl es :=
  fun offset flags requestId body hmem => (h offset flags requestId body hmem).contained

theorem EventsAccepted.mono {pl : Build} {es fs : List Event} (h : EventsAccepted pl fs)
    (hsub : es ⊆ fs) : EventsAccepted pl es :=
  fun offset flags requestId body hmem => h offset flags requestId body (hsub hmem)

theorem EventsContained.mono {pl : Build} {es fs : List Event} (h : EventsContained pl fs)
    (hsub : es ⊆ fs) : EventsContained pl es :=
  fun offset flags requestId body hmem => h offset flags requestId body (hsub hmem)

/-- The decoder accepts every object body that the framing of a stream delimits. -/
def AllAccepted (pl : Build) (stream : List UInt8) : Prop :=
  EventsAccepted pl (streamEvents stream)

/-- The object buffer holds the object of every body that the framing of a stream
delimits. -/
def AllContained (pl : Build) (stream : List UInt8) : Prop :=
  EventsContained pl (streamEvents stream)

instance (pl : Build) (stream : List UInt8) : Decidable (AllAccepted pl stream) :=
  inferInstanceAs (Decidable (EventsAccepted pl _))

theorem AllAccepted.contained {pl : Build} {stream : List UInt8} (h : AllAccepted pl stream) :
    AllContained pl stream :=
  EventsAccepted.contained h

theorem AllContained.of_prefix {pl : Build} {xs ys : List UInt8}
    (h : AllContained pl (xs ++ ys)) : AllContained pl xs :=
  EventsContained.mono h (prefix_streamEvents xs ys).subset

/-- The numbers of properties of the objects of the events. -/
def EventsCountFit (pl : Build) (es : List Event) : Prop :=
  ∀ offset flags requestId body, .object offset flags requestId body ∈ es → CountFits pl body

/-- The numbers of properties of all the bodies that the framing of a stream delimits. -/
def AllCountsFit (pl : Build) (stream : List UInt8) : Prop :=
  EventsCountFit pl (streamEvents stream)

theorem EventsAccepted.countFit {pl : Build} {es : List Event} (h : EventsAccepted pl es) :
    EventsCountFit pl es :=
  fun offset flags requestId body hmem => (h offset flags requestId body hmem).countFits

theorem AllAccepted.countsFit {pl : Build} {stream : List UInt8} (h : AllAccepted pl stream) :
    AllCountsFit pl stream :=
  EventsAccepted.countFit h

theorem AllCountsFit.contained {pl : Build} (hpl : pl.decoder = .c) {stream : List UInt8}
    (h : AllCountsFit pl stream) : AllContained pl stream := by
  intro offset flags requestId body hmem
  obtain ⟨-, -, -, -, hsize⟩ := run_object hmem
  exact (contained_iff_countFits hpl hsize).mpr (h offset flags requestId body hmem)

/-- The C decoder has stored no object that its buffer does not hold, or it would not have
gone on. -/
theorem Renders.countFit {pl : Build} (hpl : pl.decoder = .c) {held held' : ProtoObject}
    {es : List Event} {cs : List Call} (h : Renders pl held es cs held') :
    EventsCountFit pl es := by
  induction h with
  | nil => exact fun _ _ _ _ hmem => absurd hmem List.not_mem_nil
  | startRequest offset flags size requestId _ ih =>
      exact fun o f i b hmem => ih o f i b ((List.mem_cons.mp hmem).resolve_left (by simp))
  | object offset flags requestId hread _ ih =>
      intro o f i b hmem
      rcases List.mem_cons.mp hmem with heq | hmem
      · cases heq
        exact (Build.isSome_readObject_iff hpl).mp (by rw [hread]; rfl)
      · exact ih o f i b hmem
  | completeRequest offset flags requestId _ ih =>
      exact fun o f i b hmem => ih o f i b ((List.mem_cons.mp hmem).resolve_left (by simp))

/-! ## The loop refines the frame machine -/

section Refinement

variable {σ : Type} (pl : Build) (h : Host σ)

/-- The stream state of the loop. -/
def ProcessLoop.stream {σ : Type} (l : ProcessLoop σ) : StreamState where
  toFrameState := l.proto.toFrameState
  offset := l.offset

/-- The bytes that the loop has not consumed. -/
def ProcessLoop.unread {σ : Type} (l : ProcessLoop σ) : List UInt8 :=
  slice l.mem l.data l.available.toNat

/-- The two cursors of the loop agree with its counters. -/
structure ProcessLoop.Synced {σ : Type} (l : ProcessLoop σ) : Prop where
  data_eq : l.data = l.proto.processBuffer + l.proto.totalConsumed.toNat
  consumed_add : l.proto.totalConsumed.toNat + l.available.toNat = l.proto.totalReceived.toNat

/-- Every error reply that the host asks for is taken by its socket. -/
def Host.RepliesSent {σ : Type} (h : Host σ) : Prop :=
  ∀ proto app text app', h.completeRequest proto app = (some text, app') →
    ∀ bytes, 0 ≤ (h.send bytes app').1

theorem Host.repliesSent_of_send {σ : Type} {h : Host σ}
    (hsend : ∀ bytes app, 0 ≤ (h.send bytes app).1) : h.RepliesSent :=
  fun _ _ _ app' _ bytes => hsend bytes app'

theorem Host.quiet_repliesSent : Host.quiet.RepliesSent := by
  intro proto app text app' hcompleted
  cases hcompleted

/-- `process` gives up only over a reply that was not sent. -/
theorem finishRequest_of_repliesSent {h : Host σ} (hreplies : h.RepliesSent)
    (proto : ProtoProcess) (app : σ) : (finishRequest pl h proto app).1 = true := by
  rw [finishRequest]
  cases hcompleted : h.completeRequest proto app with
  | mk result app' =>
      cases result with
      | none => rfl
      | some text =>
          simp only [protoSendOne]
          rw [if_neg (Int.not_lt.mpr (hreplies proto app text app' hcompleted _))]
          rfl

/-- The object buffer holds what the decoder makes of the bodies among the events, where
a buffer at `processBuffer` holds the stream from the position `base` on. -/
def Build.Decodes (pl : Build) (mem : Memory) (processBuffer base : Nat) (es : List Event) :
    Prop :=
  ∀ offset flags requestId body, .object offset flags requestId body ∈ es →
    (pl.readObject ⟨0, []⟩ (UInt16.ofNat body.length) mem
      (processBuffer + (offset - base))).isSome

theorem Build.Decodes.mono {pl : Build} {mem : Memory} {processBuffer base : Nat}
    {es fs : List Event} (h : pl.Decodes mem processBuffer base fs) (hsub : es ⊆ fs) :
    pl.Decodes mem processBuffer base es :=
  fun offset flags requestId body hmem => h offset flags requestId body (hsub hmem)

theorem Build.decodes_append {pl : Build} {mem : Memory} {processBuffer base : Nat}
    {es fs : List Event} (h : pl.Decodes mem processBuffer base es)
    (h' : pl.Decodes mem processBuffer base fs) :
    pl.Decodes mem processBuffer base (es ++ fs) := by
  intro offset flags requestId body hmem
  rcases List.mem_append.mp hmem with hmem | hmem
  · exact h _ _ _ _ hmem
  · exact h' _ _ _ _ hmem

/-- The object buffer holds the objects that the loop reads. -/
abbrev ProcessLoop.Decodes {σ : Type} (pl : Build) (l : ProcessLoop σ) : List Event → Prop :=
  pl.Decodes l.mem l.proto.processBuffer l.base

/-- A completion is the last of the new calls. -/
def EndsCompleting (old new : List Call) : Prop :=
  ∃ cs offset flags requestId, new = old ++ (cs ++ [.completeRequest offset flags requestId])

theorem EndsCompleting.of_append {old cs new : List Call} (hends : EndsCompleting (old ++ cs) new) :
    EndsCompleting old new := by
  obtain ⟨more, offset, flags, requestId, rfl⟩ := hends
  refine ⟨cs ++ more, offset, flags, requestId, ?_⟩
  simp only [List.append_assoc]

/-- What a case does, told by the step of the frame machine at its place. -/
inductive CaseSpec (l : ProcessLoop σ) : FrameStep → Control σ → Prop
  | waits : CaseSpec l none (.ret 0 l)
  | advances {l' : ProcessLoop σ} {es : List Event} {cs : List Call} :
      l'.Synced → l'.calls = l.calls ++ cs → l'.overrun = l.overrun → l.Decodes pl es →
      Renders pl l.objectBuffer es cs l'.objectBuffer →
      CaseSpec l (some (l'.stream, es, l'.unread)) (.next l')
  | fails {l' : ProcessLoop σ} {t : StreamState} {ys : List UInt8} {es : List Event}
      {cs : List Call} :
      ¬ h.RepliesSent → EndsCompleting l.calls l'.calls → l'.calls = l.calls ++ cs →
      l'.overrun = l.overrun → l.Decodes pl es → Renders pl l.objectBuffer es cs l'.objectBuffer →
      CaseSpec l (some (t, es, ys)) (.ret 255 l')
  | overruns {t : StreamState} {ys : List UInt8} {es : List Event} :
      ¬ l.Decodes pl es → CaseSpec l (some (t, es, ys)) (.ret 255 { l with overrun := true })

theorem slice_five (mem : Memory) (a : Nat) {n : Nat} (hn : 5 ≤ n) :
    slice mem a n = mem a :: mem (a + 1) :: mem (a + 2) :: mem (a + 3) :: mem (a + 4) ::
      slice mem (a + 5) (n - 5) := by
  obtain ⟨m, rfl⟩ := Nat.exists_eq_add_of_le hn
  rw [slice_add, Nat.add_sub_cancel_left]
  rfl

theorem slice_two (mem : Memory) (a : Nat) {n : Nat} (hn : 2 ≤ n) :
    slice mem a n = mem a :: mem (a + 1) :: slice mem (a + 2) (n - 2) := by
  obtain ⟨m, rfl⟩ := Nat.exists_eq_add_of_le hn
  rw [slice_add, Nat.add_sub_cancel_left]
  rfl

variable {l : ProcessLoop σ}

/-- Consuming `n` of the available bytes keeps the cursors in step. -/
theorem ProcessLoop.Synced.consume (hl : l.Synced) {n : UInt16} (hn : n ≤ l.available) :
    (l.available - n).toNat = l.available.toNat - n.toNat ∧
      n.toNat ≤ l.available.toNat ∧
      (l.proto.totalConsumed + n).toNat = l.proto.totalConsumed.toNat + n.toNat := by
  have hle := UInt16.le_iff_toNat_le.mp hn
  have hreceived := l.proto.totalReceived.toNat_lt
  have hadd := hl.consumed_add
  refine ⟨UInt16.toNat_sub_of_le _ _ hn, hle, ?_⟩
  rw [UInt16.toNat_add, Nat.mod_eq_of_lt (by omega)]

/-- `data` moves on by as much as the stream position does. -/
theorem ProcessLoop.Synced.offset_add (hl : l.Synced) (n : Nat) :
    l.base + (l.data + n - l.proto.processBuffer) =
      l.base + (l.data - l.proto.processBuffer) + n := by
  have hdata := hl.data_eq
  omega

theorem CaseSpec.of_step {l' : ProcessLoop σ} {step : FrameStep} {es : List Event}
    (cs : List Call) (hstep : step = some (l'.stream, es, l'.unread)) (hsynced : l'.Synced)
    (hcalls : l'.calls = l.calls ++ cs) (hoverrun : l'.overrun = l.overrun)
    (hdecodes : l.Decodes pl es) (hrenders : Renders pl l.objectBuffer es cs l'.objectBuffer) :
    CaseSpec pl h l step (.next l') := by
  rw [hstep]
  exact .advances hsynced hcalls hoverrun hdecodes hrenders

theorem recvHeader_spec (hl : l.Synced) :
    CaseSpec pl h l (frameHeader l.stream l.unread) (recvHeader h l) := by
  by_cases hsize : 5 ≤ l.available
  · obtain ⟨havailable, hle, hconsumed⟩ := hl.consume hsize
    have hdata := hl.data_eq
    have hadd := hl.consumed_add
    rw [recvHeader, if_pos hsize]
    refine CaseSpec.of_step pl h _ ?_ ⟨?_, ?_⟩ rfl rfl (by simp [Build.Decodes])
      (.startRequest _ _ _ _ (.nil _))
    · have hunread : l.unread = _ := slice_five l.mem l.data hle
      rw [hunread]
      simp only [frameHeader, ProcessLoop.stream, ProcessLoop.unread, ProcessLoop.offset,
        havailable, hl.offset_add]
      rfl
    · simp only [hconsumed, hdata]
      exact Nat.add_assoc _ _ _
    · simp only [havailable, hconsumed]
      omega
  · have hshort : l.unread.length < 5 := by
      rw [ProcessLoop.unread, length_slice]
      exact Nat.not_le.mp fun hle => hsize (UInt16.le_iff_toNat_le.mpr hle)
    rw [recvHeader, if_neg hsize, frameHeader_eq_none hshort]
    exact .waits

theorem recvObjectSize_spec (hl : l.Synced) :
    CaseSpec pl h l (frameObjectSize l.stream l.unread) (recvObjectSize l) := by
  by_cases hsize : 2 ≤ l.available
  · obtain ⟨havailable, hle, hconsumed⟩ := hl.consume hsize
    have hdata := hl.data_eq
    have hadd := hl.consumed_add
    rw [recvObjectSize, if_pos hsize]
    refine CaseSpec.of_step pl h [] ?_ ⟨?_, ?_⟩ (List.append_nil _).symm rfl
      (by simp [Build.Decodes]) (.nil _)
    · have hunread : l.unread = _ := slice_two l.mem l.data hle
      rw [hunread]
      simp only [frameObjectSize, ProcessLoop.stream, ProcessLoop.unread, ProcessLoop.offset,
        havailable, hl.offset_add]
      rfl
    · simp only [hconsumed, hdata]
      exact Nat.add_assoc _ _ _
    · simp only [havailable, hconsumed]
      omega
  · have hshort : l.unread.length < 2 := by
      rw [ProcessLoop.unread, length_slice]
      exact Nat.not_le.mp fun hle => hsize (UInt16.le_iff_toNat_le.mpr hle)
    rw [recvObjectSize, if_neg hsize, frameObjectSize_eq_none hshort]
    exact .waits

/-- Of the events, one is that of an object: the one that `data` points at. -/
def ProcessLoop.ReadsNext {σ : Type} (l : ProcessLoop σ) (es : List Event) : Prop :=
  ∀ offset flags requestId body, .object offset flags requestId body ∈ es ↔
    offset = l.offset ∧ flags = l.proto.recvFlags ∧ requestId = l.proto.requestId ∧
      body = slice l.mem l.data l.proto.recvObjectSize.toNat

/-- The object of an event is read where `data` points. -/
theorem ProcessLoop.Synced.decodes_iff (hl : l.Synced) {es : List Event}
    (hes : l.ReadsNext es) : l.Decodes pl es ↔
      (pl.readObject l.objectBuffer l.proto.recvObjectSize l.mem l.data).isSome := by
  have hdata : l.proto.processBuffer + (l.offset - l.base) = l.data := by
    rw [ProcessLoop.offset, Nat.add_sub_cancel_left, hl.data_eq, Nat.add_sub_cancel_left]
  have hread : (pl.readObject ⟨0, []⟩ (UInt16.ofNat (slice l.mem l.data
      l.proto.recvObjectSize.toNat).length) l.mem
        (l.proto.processBuffer + (l.offset - l.base))).isSome =
      (pl.readObject l.objectBuffer l.proto.recvObjectSize l.mem l.data).isSome := by
    rw [hdata, length_slice, UInt16.ofNat_toNat]
    exact Build.readObject_isSome _ _
  rw [← hread]
  constructor
  · exact fun h => h _ _ _ _ ((hes _ _ _ _).mpr ⟨rfl, rfl, rfl, rfl⟩)
  · intro h offset flags requestId body hmem
    obtain ⟨rfl, -, -, rfl⟩ := (hes _ _ _ _).mp hmem
    exact h

theorem recvObject_spec (hl : l.Synced) :
    CaseSpec pl h l (frameObject l.stream l.unread) (recvObject pl h l) := by
  by_cases hsize : l.proto.recvObjectSize ≤ l.available
  · obtain ⟨havailable, hle, hconsumed⟩ := hl.consume hsize
    have hadd := hl.consumed_add
    have hdata : l.data + l.proto.recvObjectSize.toNat = l.proto.processBuffer +
        (l.proto.totalConsumed + l.proto.recvObjectSize).toNat := by
      rw [hconsumed, hl.data_eq, Nat.add_assoc]
    have hleft : (l.proto.totalConsumed + l.proto.recvObjectSize).toNat +
        (l.available - l.proto.recvObjectSize).toNat = l.proto.totalReceived.toNat := by
      omega
    have hstream : l.stream.recvObjectSize.toNat ≤ l.unread.length := by
      rw [ProcessLoop.unread, length_slice]
      exact hle
    have htake : l.unread.take l.stream.recvObjectSize.toNat =
        slice l.mem l.data l.proto.recvObjectSize.toNat := take_slice l.mem l.data hle
    have hdrop : l.unread.drop l.stream.recvObjectSize.toNat = _ := drop_slice l.mem l.data hle
    rw [recvObject, if_pos hsize, frameObject, if_pos hstream, htake, hdrop]
    simp only
    cases hread : pl.readObject l.objectBuffer l.proto.recvObjectSize l.mem l.data with
    | none =>
        have hnot : ∀ es : List Event, l.ReadsNext es → ¬ l.Decodes pl es := by
          intro es hes
          rw [hl.decodes_iff pl hes, hread]
          exact Bool.false_ne_true
        split <;> exact .overruns (hnot _ (by simp [ProcessLoop.ReadsNext, ProcessLoop.stream]))
    | some read =>
        have hdecodes : ∀ es : List Event, l.ReadsNext es → l.Decodes pl es := by
          intro es hes
          rw [hl.decodes_iff pl hes, hread]
          rfl
        -- the decoder is called on the very bytes that the machine takes
        have hobject : Renders pl l.objectBuffer [_] [_, _] read.object :=
          .object l.offset l.proto.recvFlags l.proto.requestId hread (.nil _)
        simp only
        by_cases hdone : l.proto.recvSize ≤ l.proto.recvConsumed + l.proto.recvObjectSize
        · have hpassed : l.stream.recvSize ≤ l.stream.passObject.recvConsumed := hdone
          rw [if_pos hdone, if_pos hpassed]
          split
          · refine CaseSpec.of_step pl h _ ?_ ⟨hdata, hleft⟩ (List.append_assoc _ _ _) rfl
              (hdecodes _ (by simp [ProcessLoop.ReadsNext]))
              (hobject.append (.completeRequest _ _ _ (.nil _)))
            simp only [StreamState.passObject, ProcessLoop.stream, ProcessLoop.unread,
              ProcessLoop.offset, havailable, hl.offset_add]
            rfl
          -- the reply was not sent: the loop returns in the middle of the frame
          · next hfailed =>
              refine .fails (fun hreplies => hfailed ?_)
                ⟨[_, _], _, _, _, List.append_assoc _ _ _⟩ (List.append_assoc _ _ _) rfl
                (hdecodes _ (by simp [ProcessLoop.ReadsNext, ProcessLoop.stream]))
                (hobject.append (.completeRequest _ _ _ (.nil _)))
              exact finishRequest_of_repliesSent pl hreplies _ _
        · have hpassed : ¬ l.stream.recvSize ≤ l.stream.passObject.recvConsumed := hdone
          rw [if_neg hdone, if_neg hpassed]
          refine CaseSpec.of_step pl h _ ?_ ⟨hdata, hleft⟩ rfl rfl
            (hdecodes _ (by simp [ProcessLoop.ReadsNext])) hobject
          simp only [StreamState.passObject, ProcessLoop.stream, ProcessLoop.unread,
            ProcessLoop.offset, havailable, hl.offset_add]
  · have hstream : ¬ l.stream.recvObjectSize.toNat ≤ l.unread.length := by
      rw [ProcessLoop.unread, length_slice]
      exact fun hle => hsize (UInt16.le_iff_toNat_le.mpr hle)
    rw [recvObject, if_neg hsize, frameObject, if_neg hstream]
    exact .waits

/-- Every case of the switch is the step of the frame machine. -/
theorem caseStep_spec (hl : l.Synced) :
    CaseSpec pl h l (frameMachine.step l.stream l.unread) (caseStep pl h l) := by
  change CaseSpec pl h l (frameStep l.stream l.unread) (caseStep pl h l)
  have hstream : l.stream.state = l.proto.state := rfl
  rw [frameStep, caseStep, hstream]
  cases l.proto.state with
  | recvHeader => exact recvHeader_spec pl h hl
  | recvObjectSize => exact recvObjectSize_spec pl h hl
  | recvObject => exact recvObject_spec pl h hl

/-! ## What the loop leaves alone -/

/-- The loop behind a case. -/
def Control.loop {σ : Type} : Control σ → ProcessLoop σ
  | .ret _ l => l
  | .next l => l

/-- The loop neither moves the buffer nor counts what was received. -/
structure ProcessLoop.Kept {σ : Type} (l l' : ProcessLoop σ) : Prop where
  mem : l'.mem = l.mem
  base : l'.base = l.base
  processBuffer : l'.proto.processBuffer = l.proto.processBuffer
  processBufferSize : l'.proto.processBufferSize = l.proto.processBufferSize
  totalReceived : l'.proto.totalReceived = l.proto.totalReceived

theorem ProcessLoop.Kept.refl (l : ProcessLoop σ) : l.Kept l :=
  ⟨rfl, rfl, rfl, rfl, rfl⟩

theorem ProcessLoop.Kept.trans {l₁ l₂ l₃ : ProcessLoop σ} (h₁ : l₁.Kept l₂) (h₂ : l₂.Kept l₃) :
    l₁.Kept l₃ where
  mem := h₂.mem.trans h₁.mem
  base := h₂.base.trans h₁.base
  processBuffer := h₂.processBuffer.trans h₁.processBuffer
  processBufferSize := h₂.processBufferSize.trans h₁.processBufferSize
  totalReceived := h₂.totalReceived.trans h₁.totalReceived

/-- What holds between every loop and the one behind its case, reflexively and
transitively, holds between a loop and its end. -/
theorem processLoop_rel (R : ProcessLoop σ → ProcessLoop σ → Prop)
    (trans : ∀ {l₁ l₂ l₃}, R l₁ l₂ → R l₂ l₃ → R l₁ l₃)
    (step : ∀ l, R l (caseStep pl h l).loop) (l : ProcessLoop σ) :
    R l (processLoop pl h l).2 := by
  induction l using processLoop_induction pl h with
  | returns l result l' hstep =>
      have := step l
      rwa [hstep] at this
  | goesOn l l' hstep ih =>
      have := step l
      rw [hstep] at this
      exact trans this ih

theorem recvObject_kept (l : ProcessLoop σ) : l.Kept (recvObject pl h l).loop := by
  rw [recvObject]
  split
  · simp only
    split
    · exact ⟨rfl, rfl, rfl, rfl, rfl⟩
    · split
      · split <;> exact ⟨rfl, rfl, rfl, rfl, rfl⟩
      · exact ⟨rfl, rfl, rfl, rfl, rfl⟩
  · exact ProcessLoop.Kept.refl l

theorem caseStep_kept (l : ProcessLoop σ) : l.Kept (caseStep pl h l).loop := by
  rw [caseStep]
  cases l.proto.state with
  | recvHeader =>
      simp only [recvHeader]
      split <;> exact ⟨rfl, rfl, rfl, rfl, rfl⟩
  | recvObjectSize =>
      simp only [recvObjectSize]
      split <;> exact ⟨rfl, rfl, rfl, rfl, rfl⟩
  | recvObject => exact recvObject_kept pl h l

theorem processLoop_kept (l : ProcessLoop σ) : l.Kept (processLoop pl h l).2 :=
  processLoop_rel pl h ProcessLoop.Kept ProcessLoop.Kept.trans (caseStep_kept pl h) l

/-! ## Every run of the loop -/

/-- The loop takes steps of the frame machine and makes the calls that show
their events.  It returns 0 where the machine waits, with every object read in the
object buffer, and 255 only over an object that the buffer does not hold, or a reply
that was not sent, behind a completion. -/
structure LoopSpec (l : ProcessLoop σ) (done : UInt8 × ProcessLoop σ) : Prop where
  steps : ∃ es cs t ys, frameMachine.Steps l.stream l.unread es t ys ∧
    done.2.calls = l.calls ++ cs ∧ Renders pl l.objectBuffer es cs done.2.objectBuffer ∧
    (done.1 = 0 → t = done.2.stream ∧ ys = done.2.unread)
  drained : done.1 = 0 →
    done.2.Synced ∧ frameMachine.step done.2.stream done.2.unread = none ∧
      l.Decodes pl (frameMachine.run l.stream l.unread).output
  failed : done.1 ≠ 0 → (¬ h.RepliesSent ∧ EndsCompleting l.calls done.2.calls) ∨
    (done.2.overrun = true ∧ ¬ l.Decodes pl (frameMachine.run l.stream l.unread).output)
  kept : l.Decodes pl (frameMachine.run l.stream l.unread).output → done.2.overrun = l.overrun

theorem processLoop_spec (hl : l.Synced) : LoopSpec pl h l (processLoop pl h l) := by
  revert hl
  induction l using processLoop_induction pl h with
  | returns l result l' hstep =>
      intro hl
      have hspec := caseStep_spec pl h hl
      rw [hstep] at hspec
      generalize hmachine : frameMachine.step l.stream l.unread = stepped at hspec
      have hresult : ¬ (255 : UInt8) = 0 := by decide
      cases hspec with
      | waits =>
          have hnone : (frameMachine.run l.stream l.unread).output = [] := by
            rw [frameMachine.run_of_none hmachine]
          exact ⟨⟨[], [], _, _, .refl _ _, (List.append_nil _).symm, .nil _, fun _ => ⟨rfl, rfl⟩⟩,
            fun _ => ⟨hl, hmachine, by rw [hnone]; simp [Build.Decodes]⟩,
            fun hne => absurd rfl hne, fun _ => rfl⟩
      | fails hreplies hends hcalls hoverrun _ hrenders =>
          -- a failure says nothing about the state it leaves
          exact ⟨⟨_, _, _, _, .single hmachine, hcalls, hrenders,
              fun hzero => absurd hzero hresult⟩,
            fun hzero => absurd hzero hresult, fun _ => Or.inl ⟨hreplies, hends⟩, fun _ => hoverrun⟩
      | overruns hnot =>
          have hnone : ¬ l.Decodes pl (frameMachine.run l.stream l.unread).output := by
            rw [frameMachine.run_of_some hmachine]
            exact fun hall => hnot (hall.mono (List.subset_append_left _ _))
          exact ⟨⟨[], [], _, _, .refl _ _, (List.append_nil _).symm, .nil _,
            fun hzero => absurd hzero hresult⟩, fun hzero => absurd hzero hresult,
            fun _ => Or.inr ⟨rfl, hnone⟩, fun hall => absurd hall hnone⟩
  | goesOn l l' hstep ih =>
      intro hl
      have hspec := caseStep_spec pl h hl
      have hkept := caseStep_kept pl h l
      rw [hstep] at hspec hkept
      generalize hmachine : frameMachine.step l.stream l.unread = stepped at hspec
      cases hspec with
      | @advances _ es₀ _ hl' hcalls hoverrun hdecodes hrenders =>
          obtain ⟨⟨es, cs, t, ys, hsteps, hcalls', hrenders', hend⟩, hdrained, hfailed, hrest⟩ :=
            ih hl'
          -- the buffer has not moved
          have hsame : ∀ fs, l'.Decodes pl fs ↔ l.Decodes pl fs := by
            intro fs
            unfold ProcessLoop.Decodes
            rw [show l'.mem = l.mem from hkept.mem, show l'.base = l.base from hkept.base,
              show l'.proto.processBuffer = l.proto.processBuffer from hkept.processBuffer]
          have hrun : (frameMachine.run l.stream l.unread).output =
              es₀ ++ (frameMachine.run l'.stream l'.unread).output := by
            rw [frameMachine.run_of_some hmachine]
            rfl
          have hall : l.Decodes pl (frameMachine.run l.stream l.unread).output ↔
              l'.Decodes pl (frameMachine.run l'.stream l'.unread).output := by
            rw [hsame, hrun]
            exact ⟨fun h => h.mono (List.subset_append_right _ _), Build.decodes_append hdecodes⟩
          rw [← hall] at hdrained hfailed hrest
          refine ⟨⟨_, _, t, ys, .head hmachine hsteps, ?_, hrenders.append hrenders', hend⟩,
            hdrained, fun hne => (hfailed hne).imp_left fun hsent => ⟨hsent.1, ?_⟩,
            fun h => (hrest h).trans hoverrun⟩
          · rw [hcalls', hcalls, List.append_assoc]
          · exact EndsCompleting.of_append (hcalls ▸ hsent.2)

/-! ## Connections between two calls -/

/-- The stream state of a connection between two calls. -/
def Conn.stream {σ : Type} (c : Conn σ) : StreamState where
  toFrameState := c.proto.toFrameState
  offset := c.base

/-- What the process buffer holds. -/
def Conn.unread {σ : Type} (c : Conn σ) : List UInt8 :=
  slice c.mem c.proto.processBuffer c.proto.totalReceived.toNat

/-- The events that a connection makes of `stream`, behind what it holds. -/
def Conn.eventsOf {σ : Type} (c : Conn σ) (stream : List UInt8) : List Event :=
  (frameMachine.run c.stream (c.unread ++ stream)).output

/-- A connection between two calls that was given `stream` since it was `c₀`: it
has drained the stream as the frame machine does, its new calls show the events,
and what it holds fits the buffer. -/
structure Conn.TracksFrom {σ : Type} (pl : Build) (c c₀ : Conn σ) (stream : List UInt8) :
    Prop where
  run : frameMachine.run c₀.stream (c₀.unread ++ stream) = ⟨c.stream, c₀.eventsOf stream, c.unread⟩
  renders : ∃ cs, c.calls = c₀.calls ++ cs ∧
    Renders pl c₀.objectBuffer (c₀.eventsOf stream) cs c.objectBuffer
  fits : c.proto.totalReceived ≤ c.proto.processBufferSize

/-- The calls since `c₀` show a prefix of the events of `stream`. -/
def Conn.ShowsFrom {σ : Type} (pl : Build) (c c₀ : Conn σ) (stream : List UInt8) : Prop :=
  ∃ es cs, es <+: c₀.eventsOf stream ∧ c.calls = c₀.calls ++ cs ∧
    Renders pl c₀.objectBuffer es cs c.objectBuffer

/-- A connection between two calls that was given `stream`: it has drained the
stream as the frame machine does, its calls show the events, and what it holds
fits the buffer. -/
structure Conn.Tracks {σ : Type} (pl : Build) (c : Conn σ) (stream : List UInt8) : Prop where
  run : frameMachine.run StreamState.init stream = ⟨c.stream, streamEvents stream, c.unread⟩
  renders : ∃ held, Renders pl held (streamEvents stream) c.calls c.objectBuffer
  fits : c.proto.totalReceived ≤ c.proto.processBufferSize

/-- The calls so far show a prefix of the events of `stream`. -/
def Conn.Shows {σ : Type} (pl : Build) (c : Conn σ) (stream : List UInt8) : Prop :=
  ∃ es held, es <+: streamEvents stream ∧ Renders pl held es c.calls c.objectBuffer

/-- A connection that has drained what it holds tracks itself. -/
theorem Conn.TracksFrom.refl {c : Conn σ}
    (hwait : frameMachine.step c.stream c.unread = none)
    (hfits : c.proto.totalReceived ≤ c.proto.processBufferSize) : c.TracksFrom pl c [] := by
  have hrun := frameMachine.run_of_none hwait
  have hnone : c.eventsOf [] = [] := by
    rw [Conn.eventsOf, List.append_nil, hrun]
  refine ⟨?_, ⟨[], (List.append_nil _).symm, ?_⟩, hfits⟩
  · rw [hnone, List.append_nil, hrun]
  · rw [hnone]
    exact .nil _

theorem Conn.Fresh.eventsOf_eq {c₀ : Conn σ} (h₀ : c₀.Fresh) (stream : List UInt8) :
    c₀.eventsOf stream = streamEvents stream := by
  obtain ⟨processBuffer, processBufferSize, mem, objectBuffer, app, errno, rfl⟩ := h₀
  rfl

/-- Since `proto_init`, tracking is relative to nothing. -/
theorem Conn.TracksFrom.tracks {c₀ c : Conn σ} (h₀ : c₀.Fresh) {stream : List UInt8}
    (hc : c.TracksFrom pl c₀ stream) : c.Tracks pl stream := by
  have hevents := h₀.eventsOf_eq stream
  obtain ⟨processBuffer, processBufferSize, mem, objectBuffer, app, errno, rfl⟩ := h₀
  obtain ⟨hrun, ⟨cs, hcalls, hrenders⟩, hfits⟩ := hc
  rw [hevents] at hrun hrenders
  exact ⟨hrun, ⟨objectBuffer, (show c.calls = cs from hcalls) ▸ hrenders⟩, hfits⟩

theorem Conn.ShowsFrom.shows {c₀ c : Conn σ} (h₀ : c₀.Fresh) {stream : List UInt8}
    (hc : c.ShowsFrom pl c₀ stream) : c.Shows pl stream := by
  have hevents := h₀.eventsOf_eq stream
  obtain ⟨processBuffer, processBufferSize, mem, objectBuffer, app, errno, rfl⟩ := h₀
  obtain ⟨es, cs, hpre, hcalls, hrenders⟩ := hc
  rw [hevents] at hpre
  exact ⟨es, objectBuffer, hpre, (show c.calls = cs from hcalls) ▸ hrenders⟩

/-- A connection between two frames: a header is expected, and none of it was
received. -/
structure Conn.AtBoundary {σ : Type} (c : Conn σ) : Prop where
  state : c.proto.state = .recvHeader
  totalReceived : c.proto.totalReceived = 0

theorem Conn.AtBoundary.unread {c : Conn σ} (hc : c.AtBoundary) : c.unread = [] := by
  rw [Conn.unread, hc.totalReceived]
  rfl

theorem Conn.AtBoundary.atHeader {c : Conn σ} (hc : c.AtBoundary) : c.stream.AtHeader c.base :=
  ⟨hc.state, rfl⟩

/-- What follows a frame is seen as a stream of its own. -/
theorem Conn.AtBoundary.eventsOf_eq {c : Conn σ} (hc : c.AtBoundary) (stream : List UInt8) :
    c.eventsOf stream = (streamEvents stream).map (Event.shift c.base) := by
  rw [Conn.eventsOf, hc.unread, List.nil_append]
  exact hc.atHeader.run_output stream

theorem Conn.AtBoundary.tracksFrom {c : Conn σ} (hc : c.AtBoundary) : c.TracksFrom pl c [] := by
  refine .refl pl ?_ ?_
  · exact step_header_eq_none hc.atHeader (by rw [hc.unread]; decide)
  · rw [hc.totalReceived]
    exact UInt16.le_iff_toNat_le.mpr (Nat.zero_le _)

theorem Conn.Fresh.atBoundary {c : Conn σ} (hc : c.Fresh) : c.AtBoundary := by
  obtain ⟨processBuffer, processBufferSize, mem, objectBuffer, app, errno, rfl⟩ := hc
  exact ⟨rfl, rfl⟩

theorem Conn.Fresh.overrun {c : Conn σ} (hc : c.Fresh) : c.overrun = false := by
  obtain ⟨processBuffer, processBufferSize, mem, objectBuffer, app, errno, rfl⟩ := hc
  rfl

theorem Conn.Fresh.tracks {c : Conn σ} (hc : c.Fresh) : c.Tracks pl [] :=
  (hc.atBoundary.tracksFrom pl).tracks pl hc

/-- A connection tracks its stream from some `proto_init` on. -/
theorem Conn.Tracks.exists_from {c : Conn σ} {stream : List UInt8} (hc : c.Tracks pl stream) :
    ∃ c₀ : Conn σ, c₀.Fresh ∧ c.TracksFrom pl c₀ stream := by
  obtain ⟨hrun, ⟨held, hrenders⟩, hfits⟩ := hc
  have hfresh := Conn.fresh_init 0 0 c.mem held c.app c.errno
  have hevents := hfresh.eventsOf_eq stream
  refine ⟨_, hfresh, ?_, ⟨c.calls, rfl, ?_⟩, hfits⟩
  · rw [hevents]
    exact hrun
  · rwa [hevents]

variable {c : Conn σ}

/-- `recv` puts its bytes behind the unconsumed ones, without wrap. -/
theorem Conn.receive_toNat (hfits : c.proto.totalReceived ≤ c.proto.processBufferSize)
    {bytes : List UInt8} (hbytes : bytes.length ≤ c.afford.toNat) :
    (c.receive bytes).proto.totalReceived.toNat =
        c.proto.totalReceived.toNat + bytes.length ∧
      (c.receive bytes).proto.totalReceived ≤ c.proto.processBufferSize := by
  have hle := UInt16.le_iff_toNat_le.mp hfits
  have hsize := c.proto.processBufferSize.toNat_lt
  have hafford : c.afford.toNat =
      c.proto.processBufferSize.toNat - c.proto.totalReceived.toNat :=
    UInt16.toNat_sub_of_le _ _ hfits
  have hsum : (c.receive bytes).proto.totalReceived.toNat =
      c.proto.totalReceived.toNat + bytes.length := by
    simp only [Conn.receive]
    rw [UInt16.toNat_add, UInt16.toNat_ofNat', Nat.mod_eq_of_lt (by omega),
      Nat.mod_eq_of_lt (by omega)]
  exact ⟨hsum, UInt16.le_iff_toNat_le.mpr (by omega)⟩

theorem Conn.receive_unread (hfits : c.proto.totalReceived ≤ c.proto.processBufferSize)
    {bytes : List UInt8} (hbytes : bytes.length ≤ c.afford.toNat) :
    (c.receive bytes).unread = c.unread ++ bytes := by
  rw [Conn.unread, (Conn.receive_toNat hfits hbytes).1, slice_add]
  simp only [Conn.receive, Conn.unread]
  rw [slice_store_of_avoids _ (by left; simp), slice_store_self]

/-- The buffer behind `process` starts with the bytes that were not consumed. -/
theorem Conn.compact_unread {l : ProcessLoop σ} (hl : l.Synced) :
    l.toConn.compact.unread = l.unread := by
  have hadd := hl.consumed_add
  by_cases hall : l.proto.totalConsumed = l.proto.totalReceived
  · have hnone : l.available.toNat = 0 := by
      rw [hall] at hadd
      omega
    rw [Conn.compact, if_pos hall, Conn.unread, ProcessLoop.unread, hnone]
    rfl
  · have hle : l.proto.totalConsumed ≤ l.proto.totalReceived :=
      UInt16.le_iff_toNat_le.mpr (by omega)
    have hrest : (l.proto.totalReceived - l.proto.totalConsumed).toNat = l.available.toNat := by
      rw [UInt16.toNat_sub_of_le _ _ hle]
      omega
    rw [Conn.compact, if_neg hall, Conn.unread, ProcessLoop.unread, hl.data_eq]
    simp only [hrest]
    have hself := slice_store_self l.mem l.proto.processBuffer
      (slice l.mem (l.proto.processBuffer + l.proto.totalConsumed.toNat) l.available.toNat)
    rwa [length_slice] at hself

theorem Conn.compact_stream {l : ProcessLoop σ} (hl : l.Synced) :
    l.toConn.compact.stream = l.stream := by
  have hoffset : l.base + (l.data - l.proto.processBuffer) =
      l.base + l.proto.totalConsumed.toNat := by
    rw [hl.data_eq]
    omega
  rw [Conn.compact]
  split <;> simp only [Conn.stream, ProcessLoop.stream, ProcessLoop.offset, hoffset]

theorem Conn.compact_calls (c : Conn σ) : c.compact.calls = c.calls := by
  rw [Conn.compact]
  split <;> rfl

theorem Conn.compact_app (c : Conn σ) : c.compact.app = c.app := by
  rw [Conn.compact]
  split <;> rfl

theorem Conn.compact_fits {l : ProcessLoop σ} (hl : l.Synced)
    (hfits : l.proto.totalReceived ≤ l.proto.processBufferSize) :
    l.toConn.compact.proto.totalReceived ≤ l.toConn.compact.proto.processBufferSize := by
  have hadd := hl.consumed_add
  have hle := UInt16.le_iff_toNat_le.mp hfits
  rw [Conn.compact]
  split
  · exact UInt16.le_iff_toNat_le.mpr (Nat.zero_le _)
  · have hconsumed : l.proto.totalConsumed ≤ l.proto.totalReceived :=
      UInt16.le_iff_toNat_le.mpr (by omega)
    refine UInt16.le_iff_toNat_le.mpr ?_
    simp only
    rw [UInt16.toNat_sub_of_le _ _ hconsumed]
    omega

theorem Conn.compact_overrun (c : Conn σ) : c.compact.overrun = c.overrun := by
  rw [Conn.compact]
  split <;> rfl

theorem Conn.compact_objectBuffer (c : Conn σ) : c.compact.objectBuffer = c.objectBuffer := by
  rw [Conn.compact]
  split <;> rfl

theorem Conn.compact_errno (c : Conn σ) (errno : Int) :
    ({ c with errno := errno } : Conn σ).compact = { c.compact with errno := errno } := by
  simp only [Conn.compact]
  split <;> rfl

/-! ## Bodies that the object buffer holds the objects of -/

/-- The object buffer holds the objects that the next call of `process` reads. -/
def Conn.Decodes (pl : Build) (c : Conn σ) : Prop :=
  pl.Decodes c.mem c.proto.processBuffer c.base (frameMachine.run c.stream c.unread).output

/-- On the Spectrum, the process buffer and the object buffer lie in the address space, and
not over one another. -/
def Conn.Placed (pl : Build) (c : Conn σ) : Prop :=
  pl.decoder = .asm →
    c.proto.processBuffer + c.proto.processBufferSize.toNat < 65536 ∧
      pl.objectBuffer + 128 ≤ 65536 ∧
      Apart c.proto.processBuffer c.proto.processBufferSize.toNat pl.objectBuffer 128

theorem Conn.placed_of_c {pl : Build} (hpl : pl.decoder = .c) (c : Conn σ) : c.Placed pl := by
  intro hasm
  rw [hpl] at hasm
  cases hasm

/-- The body of an object lies in the process buffer where `Decodes` looks for it. -/
theorem Conn.slice_of_object {c : Conn σ} {offset : Nat} {flags : UInt8} {requestId : UInt16}
    {body : List UInt8}
    (hmem : .object offset flags requestId body ∈ (frameMachine.run c.stream c.unread).output) :
    slice c.mem (c.proto.processBuffer + (offset - c.base)) (UInt16.ofNat body.length).toNat =
        body ∧
      offset - c.base + (UInt16.ofNat body.length).toNat ≤ c.proto.totalReceived.toNat := by
  obtain ⟨front, back, hunread, hoffset, hsize⟩ := run_object hmem
  have hbase : offset - c.base = front.length := by
    rw [hoffset]
    exact Nat.add_sub_cancel_left _ _
  have hlength : (UInt16.ofNat body.length).toNat = body.length := UInt16.toNat_ofNat_of_lt' hsize
  have hreceived : front.length + body.length + back.length = c.proto.totalReceived.toNat := by
    have hall := congrArg List.length hunread
    rw [Conn.unread, length_slice, List.length_append, List.length_append] at hall
    exact hall.symm
  rw [hbase, hlength]
  refine ⟨?_, by omega⟩
  rw [Conn.unread, ← hreceived, slice_add, slice_add] at hunread
  have hfront := (List.append_inj hunread (by simp)).1
  exact (List.append_inj hfront (by simp)).2

/-- Bodies that are held wherever they lie are held in the process buffer. -/
theorem Conn.Placed.decodes {pl : Build} {c : Conn σ} (hplaced : c.Placed pl)
    (hfits : c.proto.totalReceived ≤ c.proto.processBufferSize)
    (hcontained : EventsContained pl (frameMachine.run c.stream c.unread).output) :
    c.Decodes pl := by
  intro offset flags requestId body hmem
  obtain ⟨hbody, hinside⟩ := Conn.slice_of_object hmem
  have hle := UInt16.le_iff_toNat_le.mp hfits
  refine hcontained _ _ _ _ hmem _ _ _ _ hbody fun hasm => ?_
  obtain ⟨hspace, hbuffer, hapart⟩ := hplaced hasm
  exact ⟨by omega, hbuffer, hapart.mono (Nat.le_add_right _ _) (by omega) le_rfl le_rfl⟩

/-- With the C decoder it does not matter where they lie. -/
theorem Conn.decodes_iff_countFit {pl : Build} (hpl : pl.decoder = .c) (c : Conn σ) :
    c.Decodes pl ↔ EventsCountFit pl (frameMachine.run c.stream c.unread).output := by
  refine forall_congr' fun offset => forall_congr' fun flags => forall_congr' fun requestId =>
    forall_congr' fun body => forall_congr' fun hmem => ?_
  rw [Build.isSome_readObject_iff hpl, (Conn.slice_of_object hmem).1]

/-! ## Calls of `process` and `recv_process` -/

theorem recvProcess_overrun (c : Conn σ) {r : RecvResult} (hcount : 0 < r.count) :
    (recvProcess pl h c r).2.overrun =
      (process pl h
        (({ c with errno := r.errno c.errno } : Conn σ).receive r.bytes)).2.overrun := by
  simp only [recvProcess, if_pos hcount]
  split
  · rfl
  · exact Conn.compact_overrun _

/-- `process` on a buffer: `LoopSpec`, for the connection behind the compaction. -/
structure ProcessSpec (c : Conn σ) (done : UInt8 × Conn σ) : Prop where
  steps : ∃ es cs t ys, frameMachine.Steps c.stream c.unread es t ys ∧
    done.2.calls = c.calls ++ cs ∧ Renders pl c.objectBuffer es cs done.2.objectBuffer ∧
    (done.1 = 0 → t = done.2.compact.stream ∧ ys = done.2.compact.unread)
  drained : done.1 = 0 →
    frameMachine.step done.2.compact.stream done.2.compact.unread = none ∧
      (c.proto.totalReceived ≤ c.proto.processBufferSize →
        done.2.compact.proto.totalReceived ≤ done.2.compact.proto.processBufferSize)
  decoded : done.1 = 0 → c.Decodes pl
  failed : done.1 ≠ 0 → (¬ h.RepliesSent ∧ EndsCompleting c.calls done.2.calls) ∨
    (done.2.overrun = true ∧ ¬ c.Decodes pl)
  kept : c.Decodes pl → done.2.overrun = c.overrun

theorem process_spec (c : Conn σ) : ProcessSpec pl h c (process pl h c) := by
  simp only [process]
  have hsynced : c.enter.Synced := ⟨rfl, Nat.zero_add _⟩
  have hstream : c.enter.stream = c.stream := by
    simp [ProcessLoop.stream, ProcessLoop.offset, Conn.stream, Conn.enter]
  obtain ⟨⟨es, cs, t, ys, hsteps, hdone, hrenders, hend⟩, hdrained, hfailed, hoverrun⟩ :=
    processLoop_spec pl h hsynced
  have hdecodes : c.enter.Decodes pl (frameMachine.run c.enter.stream c.enter.unread).output ↔
      c.Decodes pl := by
    rw [hstream]
    rfl
  rw [hdecodes] at hdrained hfailed hoverrun
  have hkept := processLoop_kept pl h c.enter
  refine ⟨⟨es, cs, t, ys, ?_, hdone, hrenders, ?_⟩, ?_, fun hzero => (hdrained hzero).2.2,
    hfailed, hoverrun⟩
  · rwa [hstream] at hsteps
  · intro hzero
    obtain ⟨ht, hys⟩ := hend hzero
    have hl := (hdrained hzero).1
    exact ⟨ht.trans (Conn.compact_stream hl).symm, hys.trans (Conn.compact_unread hl).symm⟩
  · intro hzero
    obtain ⟨hl, hwait, -⟩ := hdrained hzero
    refine ⟨?_, fun hfits => Conn.compact_fits hl ?_⟩
    · rw [Conn.compact_stream hl, Conn.compact_unread hl]
      exact hwait
    · rw [hkept.totalReceived, hkept.processBufferSize]
      exact hfits

theorem recvStatus_of_pos {errno nReceived : Int} (hpos : 0 < nReceived) :
    recvStatus pl errno nReceived = 0 := by
  have hne : ¬ nReceived = 0 := by omega
  have hgt : ¬ nReceived ≤ 0 := by omega
  simp [recvStatus, hne, hgt]

section Since

variable {c₀ : Conn σ} {stream : List UInt8}

theorem Conn.TracksFrom.shows (hc : c.TracksFrom pl c₀ stream) : c.ShowsFrom pl c₀ stream := by
  obtain ⟨cs, hcalls, hrenders⟩ := hc.renders
  exact ⟨_, cs, List.prefix_rfl, hcalls, hrenders⟩

/-- The run over a longer stream is the run so far, and that over the new bytes. -/
theorem Conn.TracksFrom.run_append (hc : c.TracksFrom pl c₀ stream) (bytes : List UInt8) :
    frameMachine.run c₀.stream (c₀.unread ++ (stream ++ bytes)) =
      (frameMachine.run c.stream (c.unread ++ bytes)).prepend (c₀.eventsOf stream) := by
  rw [← List.append_assoc, frameMachine.run_append, hc.run]

theorem Conn.TracksFrom.eventsOf_append (hc : c.TracksFrom pl c₀ stream) (bytes : List UInt8) :
    c₀.eventsOf (stream ++ bytes) =
      c₀.eventsOf stream ++ (frameMachine.run c.stream (c.unread ++ bytes)).output := by
  rw [Conn.eventsOf, hc.run_append]
  rfl

/-- What a call of `recv_process` comes to, on a connection that was given `stream` since
it was `c₀`. -/
structure CallSpec (c₀ c : Conn σ) (stream : List UInt8) (r : RecvResult)
    (called : Int × Conn σ) : Prop where
  shows : called.2.ShowsFrom pl c₀ (stream ++ r.bytes)
  tracks : called.1 = 0 → called.2.TracksFrom pl c₀ (stream ++ r.bytes)
  failed : called.1 ≠ 0 → 0 < r.count →
    (¬ h.RepliesSent ∧ EndsCompleting c₀.calls called.2.calls) ∨ (called.2.overrun = true ∧
      ¬ (c.Placed pl ∧ EventsContained pl (c₀.eventsOf (stream ++ r.bytes))))
  kept : c.Placed pl → EventsContained pl (c₀.eventsOf (stream ++ r.bytes)) →
    called.2.overrun = c.overrun

/-- A call of `process` on new bytes, with the compaction behind it. -/
theorem process_of_received (hc : c.TracksFrom pl c₀ stream) (bytes : List UInt8)
    (hbytes : bytes.length ≤ c.afford.toNat) {done : UInt8 × Conn σ}
    (hdone : process pl h (c.receive bytes) = done) :
    done.2.ShowsFrom pl c₀ (stream ++ bytes) ∧
      (done.1 = 0 → done.2.compact.TracksFrom pl c₀ (stream ++ bytes)) ∧
      (done.1 ≠ 0 →
        (¬ h.RepliesSent ∧ EndsCompleting c₀.calls done.2.calls) ∨ (done.2.overrun = true ∧
          ¬ (c.Placed pl ∧ EventsContained pl (c₀.eventsOf (stream ++ bytes))))) ∧
      (c.Placed pl → EventsContained pl (c₀.eventsOf (stream ++ bytes)) →
        done.2.overrun = c.overrun) := by
  have hspec := process_spec pl h (c.receive bytes)
  have hunread := Conn.receive_unread hc.fits hbytes
  rw [hdone] at hspec
  obtain ⟨⟨es, new, t, ys, hsteps, hcalls, hrenders, hend⟩, hdrained, -, hfailed, hkept⟩ := hspec
  have hevents := hc.eventsOf_append pl bytes
  -- the events of the call are the last ones of the stream
  have hdecodes : c.Placed pl ∧ EventsContained pl (c₀.eventsOf (stream ++ bytes)) →
      (c.receive bytes).Decodes pl := by
    rintro ⟨hplaced, hcontained⟩
    refine Conn.Placed.decodes (c := c.receive bytes) hplaced
      (Conn.receive_toNat hc.fits hbytes).2 ?_
    rw [hunread]
    refine hcontained.mono ?_
    rw [hevents]
    exact List.subset_append_right _ _
  rw [hunread, show (c.receive bytes).stream = c.stream from rfl] at hsteps
  have hrun := hc.run_append pl bytes
  rw [hsteps.run_eq] at hrun hevents
  obtain ⟨cs, hold, hshown⟩ := hc.renders
  have hnew : done.2.calls = c₀.calls ++ (cs ++ new) := by
    rw [hcalls, ← List.append_assoc, ← hold]
    rfl
  have hall := hshown.append hrenders
  refine ⟨⟨_, cs ++ new, ?_, hnew, hall⟩, fun hzero => ?_,
    fun hne => (hfailed hne).imp (fun hsent => ⟨hsent.1, EndsCompleting.of_append (hold ▸ hsent.2)⟩)
      fun hover => ⟨hover.1, fun hcontained => hover.2 (hdecodes hcontained)⟩,
    fun hplaced hcontained => hkept (hdecodes ⟨hplaced, hcontained⟩)⟩
  · rw [hevents, Transducer.Result.prepend_output, ← List.append_assoc]
    exact List.prefix_append _ _
  · -- the machine waits where `process` returned, so nothing of its run is left
    obtain ⟨hwait, hfits⟩ := hdrained hzero
    obtain ⟨rfl, rfl⟩ := hend hzero
    rw [frameMachine.run_of_none hwait] at hrun hevents
    rw [Transducer.Result.prepend_output, List.append_nil] at hevents
    refine ⟨?_, ⟨cs ++ new, ?_, ?_⟩, hfits (Conn.receive_toNat hc.fits hbytes).2⟩
    · rw [hrun, hevents]
      simp [Transducer.Result.prepend]
    · rw [Conn.compact_calls]
      exact hnew
    · rw [hevents, Conn.compact_objectBuffer]
      exact hall

/-- **One call.**  Whatever `recv` returns within the space offered, the calls
made since `c₀` show a prefix of the events of what was received since; a call
that returns 0 has drained it; a call that delivered bytes fails only over an object that
the object buffer does not hold, or a reply that was not sent. -/
theorem recvProcess_spec_from (hc : c.TracksFrom pl c₀ stream) (r : RecvResult)
    (hbytes : r.bytes.length ≤ c.afford.toNat) :
    CallSpec pl h c₀ c stream r (recvProcess pl h c r) := by
  have herrno : ({ c with errno := r.errno c.errno } : Conn σ).TracksFrom pl c₀ stream :=
    ⟨hc.run, hc.renders, hc.fits⟩
  by_cases hcount : 0 < r.count
  · simp only [recvProcess, if_pos hcount]
    generalize hdone : process pl h _ = done
    obtain ⟨hshows, htracks, hfailed, hkept⟩ :=
      process_of_received pl h herrno r.bytes hbytes hdone
    by_cases hzero : done.1 = 0
    · rw [if_neg (not_not.mpr hzero), Conn.compact_errno]
      have hbehind := htracks hzero
      refine ⟨?_, fun _ => ⟨hbehind.run, hbehind.renders, hbehind.fits⟩,
        fun hne _ => absurd (recvStatus_of_pos pl hcount) hne, fun hplaced hcontained => ?_⟩
      · exact hbehind.shows pl
      · exact (Conn.compact_overrun _).trans (hkept hplaced hcontained)
    · rw [if_pos hzero]
      exact ⟨hshows, fun hfail => absurd hfail (by simp), fun _ _ => hfailed hzero, hkept⟩
  · have hnone : r.bytes = [] := by
      cases r with
      | received bytes =>
          simp only [RecvResult.count] at hcount
          simpa [RecvResult.bytes] using hcount
      | failed errno => rfl
    simp only [recvProcess, if_neg hcount]
    refine ⟨?_, fun _ => ?_, fun _ hpos => absurd hpos hcount, fun _ _ => rfl⟩
    · rw [hnone, List.append_nil]
      exact herrno.shows pl
    · rw [hnone, List.append_nil]
      exact herrno

theorem Conn.prefix_eventsOf (c : Conn σ) (xs ys : List UInt8) :
    c.eventsOf xs <+: c.eventsOf (xs ++ ys) := by
  rw [Conn.eventsOf, Conn.eventsOf, ← List.append_assoc,
    frameMachine.run_append c.stream (c.unread ++ xs)]
  exact List.prefix_append _ _

theorem Conn.ShowsFrom.append (hc : c.ShowsFrom pl c₀ stream) (ys : List UInt8) :
    c.ShowsFrom pl c₀ (stream ++ ys) := by
  obtain ⟨es, cs, hpre, hcalls, hrenders⟩ := hc
  exact ⟨es, cs, hpre.trans (c₀.prefix_eventsOf stream ys), hcalls, hrenders⟩

end Since

/-- **One call**, since `proto_init`. -/
theorem recvProcess_spec {stream : List UInt8} (hc : c.Tracks pl stream) (r : RecvResult)
    (hbytes : r.bytes.length ≤ c.afford.toNat) :
    ((recvProcess pl h c r).1 = 0 → (recvProcess pl h c r).2.Tracks pl (stream ++ r.bytes)) ∧
      (c.Placed pl → AllContained pl (stream ++ r.bytes) →
        (recvProcess pl h c r).2.overrun = c.overrun) := by
  obtain ⟨c₀, h₀, hfrom⟩ := hc.exists_from pl
  have hspec := recvProcess_spec_from pl h hfrom r hbytes
  have hevents := h₀.eventsOf_eq (stream ++ r.bytes)
  refine ⟨fun hzero => (hspec.tracks hzero).tracks pl h₀, ?_⟩
  rw [AllContained, ← hevents]
  exact hspec.kept

/-- A call keeps the buffer where it is. -/
theorem recvProcess_buffer (c : Conn σ) (r : RecvResult) :
    (recvProcess pl h c r).2.proto.processBuffer = c.proto.processBuffer ∧
      (recvProcess pl h c r).2.proto.processBufferSize = c.proto.processBufferSize := by
  have hcompact : ∀ c' : Conn σ, c'.compact.proto.processBuffer = c'.proto.processBuffer ∧
      c'.compact.proto.processBufferSize = c'.proto.processBufferSize := by
    intro c'
    rw [Conn.compact]
    split <;> exact ⟨rfl, rfl⟩
  have hkept := processLoop_kept pl h
    (({ c with errno := r.errno c.errno } : Conn σ).receive r.bytes).enter
  have hprocess := And.intro hkept.processBuffer hkept.processBufferSize
  unfold recvProcess
  simp only
  split
  · split
    · exact hprocess
    · have hboth := hcompact
        (process pl h (({ c with errno := r.errno c.errno } : Conn σ).receive r.bytes)).2
      rw [Conn.compact_errno]
      exact ⟨hboth.1.trans hprocess.1, hboth.2.trans hprocess.2⟩
  · exact ⟨rfl, rfl⟩

theorem recvProcess_placed {c : Conn σ} (hplaced : c.Placed pl) (r : RecvResult) :
    (recvProcess pl h c r).2.Placed pl := by
  obtain ⟨hbuffer, hsize⟩ := recvProcess_buffer pl h c r
  rwa [Conn.Placed, hbuffer, hsize]

/-- A `recv` that delivers bytes, or has none yet. -/
def RecvResult.Delivers (r : RecvResult) : Prop :=
  0 < r.count ∨ pl.nonblockingRecv = true ∧ r = .failed ewouldblock

theorem RecvResult.Delivers.pos_of_ne_zero {r : RecvResult} (hdelivers : r.Delivers pl)
    (hne : (recvProcess pl h c r).1 ≠ 0) : 0 < r.count := by
  rcases hdelivers with hpos | ⟨hnonblocking, rfl⟩
  · exact hpos
  · exact absurd (by simp [recvProcess, RecvResult.count, RecvResult.errno, recvStatus,
      hnonblocking]) hne

/-- A call that delivers returns 0, if the object buffer holds what is read and the replies
are sent. -/
theorem recvProcess_of_delivers {c₀ : Conn σ} {stream : List UInt8}
    (hc : c.TracksFrom pl c₀ stream) {r : RecvResult}
    (hbytes : r.bytes.length ≤ c.afford.toNat) (hreplies : h.RepliesSent)
    (hplaced : c.Placed pl) (hcontained : EventsContained pl (c₀.eventsOf (stream ++ r.bytes)))
    (hdelivers : r.Delivers pl) : (recvProcess pl h c r).1 = 0 := by
  by_contra hne
  rcases (recvProcess_spec_from pl h hc r hbytes).failed hne (hdelivers.pos_of_ne_zero pl h hne)
    with ⟨hsent, -⟩ | ⟨-, hnot⟩
  · exact hsent hreplies
  · exact hnot ⟨hplaced, hcontained⟩

/-- What a run of `recv_process` comes to, on a connection that was given `stream` since it
was `c₀`, the bytes of the run included. -/
structure RunSpec (c₀ c : Conn σ) (stream : List UInt8) (rs : List RecvResult)
    (run : Int × Conn σ) : Prop where
  shows : run.2.ShowsFrom pl c₀ stream
  tracks : run.1 = 0 → run.2.TracksFrom pl c₀ stream
  failed : (∀ r ∈ rs, r.Delivers pl) → run.1 ≠ 0 →
    (¬ h.RepliesSent ∧ EndsCompleting c₀.calls run.2.calls) ∨ (run.2.overrun = true ∧
      ¬ (c.Placed pl ∧ EventsContained pl (c₀.eventsOf stream)))
  kept : c.Placed pl → EventsContained pl (c₀.eventsOf stream) → run.2.overrun = c.overrun

/-- **A run.**  The calls made along a run show a prefix of the events of the
bytes received; a run that returns 0 has drained them. -/
theorem recvAll_spec {c₀ : Conn σ} {stream : List UInt8} (hc : c.TracksFrom pl c₀ stream)
    {rs : List RecvResult} (hfits : Fits pl h c rs) :
    RunSpec pl h c₀ c (stream ++ received rs) rs (recvAll pl h c rs) := by
  induction rs generalizing c stream with
  | nil =>
      have hnone : stream ++ received [] = stream := List.append_nil _
      refine ⟨?_, fun _ => ?_, fun _ hne => absurd rfl hne, fun _ _ => rfl⟩
      · rw [hnone]
        exact hc.shows pl
      · rw [hnone]
        exact hc
  | cons r rs ih =>
      obtain ⟨hbytes, hrest⟩ := hfits
      obtain ⟨hshows, htracks, hfailed, hkept⟩ := recvProcess_spec_from pl h hc r hbytes
      have hsplit : stream ++ received (r :: rs) = stream ++ r.bytes ++ received rs := by
        rw [received, List.flatMap_cons, List.append_assoc]
        rfl
      -- what the call has read is a part of the stream
      have hfront : EventsContained pl (c₀.eventsOf (stream ++ received (r :: rs))) →
          EventsContained pl (c₀.eventsOf (stream ++ r.bytes)) := by
        rw [hsplit]
        exact fun h => h.mono (c₀.prefix_eventsOf _ _).subset
      by_cases hzero : (recvProcess pl h c r).1 = 0
      · obtain ⟨hshows', htracks', hfailed', hkept'⟩ := ih (htracks hzero) (hrest hzero)
        rw [recvAll_cons_of_zero pl h hzero]
        rw [← hsplit] at hshows' htracks' hfailed' hkept'
        refine ⟨hshows', htracks', fun hdelivers hne => ?_, fun hplaced hcontained => ?_⟩
        · refine (hfailed' (fun r' hr' => hdelivers r' (List.mem_cons_of_mem r hr')) hne).imp_right
            fun hover => ⟨hover.1, fun hcontained => hover.2 ⟨?_, hcontained.2⟩⟩
          exact recvProcess_placed pl h hcontained.1 r
        · rw [hkept' (recvProcess_placed pl h hplaced r) hcontained]
          exact hkept hplaced (hfront hcontained)
      · rw [recvAll_cons_of_ne_zero pl h hzero]
        refine ⟨?_, fun hreturns => absurd hreturns hzero, fun hdelivers hne => ?_,
          fun hplaced hcontained => hkept hplaced (hfront hcontained)⟩
        · rw [hsplit]
          exact hshows.append pl _
        · have hpos := (hdelivers r List.mem_cons_self).pos_of_ne_zero pl h hne
          exact (hfailed hne hpos).imp_right fun hover =>
            ⟨hover.1, fun hcontained => hover.2 ⟨hcontained.1, hfront hcontained.2⟩⟩

/-- `rs` is a way of cutting `stream` into results of `recv`, each within the
space that it is offered. -/
structure Cut (c : Conn σ) (stream : List UInt8) (rs : List RecvResult) : Prop where
  received : received rs = stream
  delivers : ∀ r ∈ rs, r.Delivers pl
  fits : Fits pl h c rs

/-- A run over any cut drains the stream, if the object buffer holds what is read and the
replies are sent. -/
theorem Cut.tracksFrom {stream : List UInt8} {rs : List RecvResult}
    (hself : c.TracksFrom pl c []) (hcut : Cut pl h c stream rs) (hreplies : h.RepliesSent)
    (hplaced : c.Placed pl) (hcontained : EventsContained pl (c.eventsOf stream)) :
    (recvAll pl h c rs).1 = 0 ∧ (recvAll pl h c rs).2.TracksFrom pl c stream := by
  have hspec := recvAll_spec pl h hself hcut.fits
  rw [List.nil_append, hcut.received] at hspec
  have hzero : (recvAll pl h c rs).1 = 0 := by
    by_contra hne
    rcases hspec.failed hcut.delivers hne with ⟨hsent, -⟩ | ⟨-, hnot⟩
    · exact hsent hreplies
    · exact hnot ⟨hplaced, hcontained⟩
  exact ⟨hzero, hspec.tracks hzero⟩

section Fresh

variable {stream : List UInt8} {rs : List RecvResult}

/-- From `proto_init`, the calls along any cut show a prefix of the events of the
stream. -/
theorem Cut.shows (hc : c.Fresh) (hcut : Cut pl h c stream rs) :
    (recvAll pl h c rs).2.Shows pl stream := by
  have hshows := (recvAll_spec pl h (hc.atBoundary.tracksFrom pl) hcut.fits).shows
  rw [List.nil_append, hcut.received] at hshows
  exact hshows.shows pl hc

/-- From `proto_init`, a run over any cut drains the stream, if the object buffer holds what
is read and the replies are sent. -/
theorem Cut.tracks (hc : c.Fresh) (hcut : Cut pl h c stream rs) (hreplies : h.RepliesSent)
    (hplaced : c.Placed pl) (hcontained : AllContained pl stream) :
    (recvAll pl h c rs).1 = 0 ∧ (recvAll pl h c rs).2.Tracks pl stream := by
  rw [AllContained, ← hc.eventsOf_eq] at hcontained
  obtain ⟨hzero, htracks⟩ :=
    hcut.tracksFrom pl h (hc.atBoundary.tracksFrom pl) hreplies hplaced hcontained
  exact ⟨hzero, htracks.tracks pl hc⟩

/-- From `proto_init`, the decoder stays in its buffer if that holds what is read. -/
theorem Cut.overrun (hc : c.Fresh) (hcut : Cut pl h c stream rs) (hplaced : c.Placed pl)
    (hcontained : AllContained pl stream) : (recvAll pl h c rs).2.overrun = false := by
  have hspec := recvAll_spec pl h (hc.atBoundary.tracksFrom pl) hcut.fits
  rw [List.nil_append, hcut.received] at hspec
  rw [AllContained, ← hc.eventsOf_eq] at hcontained
  rw [hspec.kept hplaced hcontained, hc.overrun]

/-- A run in which the decoder stays in its buffer drains the stream if the replies are
sent. -/
theorem Cut.tracks_of_overrun (hc : c.Fresh) (hcut : Cut pl h c stream rs)
    (hreplies : h.RepliesSent) (hoverrun : (recvAll pl h c rs).2.overrun = false) :
    (recvAll pl h c rs).2.Tracks pl stream := by
  have hspec := recvAll_spec pl h (hc.atBoundary.tracksFrom pl) hcut.fits
  rw [List.nil_append, hcut.received] at hspec
  have hzero : (recvAll pl h c rs).1 = 0 := by
    by_contra hne
    rcases hspec.failed hcut.delivers hne with ⟨hsent, -⟩ | ⟨hover, -⟩
    · exact hsent hreplies
    · rw [hoverrun] at hover
      cases hover
  exact (hspec.tracks hzero).tracks pl hc

/-- The C decoder has stayed in its buffer if that holds what was read, and only then. -/
theorem Conn.Tracks.countsFit {pl : Build} (hpl : pl.decoder = .c) (hc : c.Tracks pl stream) :
    AllCountsFit pl stream := by
  obtain ⟨held, hrenders⟩ := hc.renders
  exact hrenders.countFit hpl

end Fresh

end Refinement

/-! ## A stream that overruns the object buffer -/

/-- A request with one object, of 256 properties without a value. -/
def overrunningRequest : List UInt8 :=
  [0, 2, 3, 1, 0, 0, 3] ++ overrunningBody

theorem length_overrunningRequest : overrunningRequest.length = 775 := by
  rw [overrunningRequest, List.length_append, length_overrunningBody]
  rfl

theorem run_overrunningRequest :
    ∃ t : StreamState, t.state = .recvHeader ∧
      frameMachine.run StreamState.init overrunningRequest =
        ⟨t, [.startRequest 5 0 770 1, .object 7 0 1 overrunningBody, .completeRequest 775 0 1],
          []⟩ := by
  have hsize : (u16le 0 3).toNat = overrunningBody.length := length_overrunningBody.symm
  obtain ⟨s, hs, hheader⟩ :=
    steps_header StreamState.atHeader_init 0 2 3 1 0 (0 :: 3 :: overrunningBody)
  obtain ⟨t, ht, hobject⟩ :=
    steps_object_last hs hsize.le (by rw [hsize, length_overrunningBody]; decide)
  rw [hsize, List.take_length, List.drop_length] at hobject
  refine ⟨t, ht.state, ?_⟩
  have hrun := (hheader.trans hobject).run_eq_of_waiting (step_header_eq_none ht (by decide))
  rw [length_overrunningBody] at hrun
  exact hrun

theorem not_allCountsFit_overrunningRequest : ¬ AllCountsFit Platform.pc overrunningRequest := by
  obtain ⟨t, -, hrun⟩ := run_overrunningRequest
  intro hall
  refine not_countFits_overrunningBody (hall 7 0 1 overrunningBody ?_)
  rw [streamEvents, hrun]
  exact List.mem_cons_of_mem _ List.mem_cons_self

/-- The server of the C build, with a buffer of 1024 bytes. -/
def wideServer : Conn Unit :=
  Conn.init 64 1024 (fun _ => 0) ⟨0, []⟩ () 0

/-- The request comes in one piece. -/
theorem cut_overrunningRequest :
    Cut Platform.pc Host.quiet wideServer overrunningRequest [.received overrunningRequest] where
  received := List.append_nil _
  delivers := by
    refine List.forall_mem_singleton.mpr (Or.inl ?_)
    rw [RecvResult.count, length_overrunningRequest]
    decide
  fits := by
    refine ⟨?_, fun _ => trivial⟩
    rw [RecvResult.bytes, length_overrunningRequest]
    decide

/-- `process` does not get past the decoder. -/
theorem process_wideServer :
    (process Platform.pc Host.quiet (wideServer.receive overrunningRequest)).2.overrun = true := by
  have hfits : wideServer.proto.totalReceived ≤ wideServer.proto.processBufferSize := by decide
  have hbytes : overrunningRequest.length ≤ wideServer.afford.toNat :=
    cut_overrunningRequest.fits.1
  have hspec := process_spec Platform.pc Host.quiet (wideServer.receive overrunningRequest)
  have hnot : ¬ (wideServer.receive overrunningRequest).Decodes Platform.pc := by
    rw [Conn.decodes_iff_countFit rfl, Conn.receive_unread hfits hbytes]
    exact not_allCountsFit_overrunningRequest
  by_cases hzero : (process Platform.pc Host.quiet (wideServer.receive overrunningRequest)).1 = 0
  · exact absurd (hspec.decoded hzero) hnot
  · exact ((hspec.failed hzero).resolve_left fun hsent => hsent.1 Host.quiet_repliesSent).1

theorem recvProcess_wideServer :
    (recvProcess Platform.pc Host.quiet wideServer (.received overrunningRequest)).2.overrun =
      true := by
  have hpos : 0 < (RecvResult.received overrunningRequest).count := by
    rw [RecvResult.count, length_overrunningRequest]
    decide
  rw [recvProcess_overrun _ _ _ hpos]
  have hsame : ({ wideServer with errno := 0 } : Conn Unit) = wideServer := rfl
  exact hsame ▸ process_wideServer

end ZxProto
