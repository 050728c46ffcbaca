import ZxProto.Stream

/-!
# The receive buffer

`recv` is offered what is left of the process buffer.  `Readme.md` asks for a buffer
that holds the largest object; headers and size prefixes are consumed before an object
is complete, so it need not hold them as well.

* `Receives` — calls of `recv_process`, whatever they return, up to a reply that was
  not sent or an object that overran the object buffer;
* `announcedSizes` — the object sizes that a stream announces;
* `loopStates` — the states of `process` between two cases of the switch;
* `BufferInvariant`, `receives_bufferInvariant` — there is room, the buffer holds what
  the parser has not consumed, and the counters of the next call agree.
-/

namespace ZxProto

open ByteMemory

/-! ## What a stream announces -/

/-- The size of the object of an event. -/
def Event.objectSize? : Event → Option Nat
  | .object _ _ _ body => some body.length
  | _ => none

/-- The sizes of the objects of a stream, and of one that is announced at its end. -/
def announcedSizes (stream : List UInt8) : List Nat :=
  let read := frameMachine.run StreamState.init stream
  read.output.filterMap Event.objectSize? ++
    if read.state.state = .recvObject then [read.state.recvObjectSize.toNat] else []

/-- A step that passes an object shows it. -/
theorem mem_of_frameObject {s t : StreamState} {xs ys : List UInt8} {es : List Event}
    (hstep : frameObject s xs = some (t, es, ys)) :
    .object s.offset s.recvFlags s.requestId (xs.take s.recvObjectSize.toNat) ∈ es := by
  obtain ⟨hle, -, -⟩ := frameObject_eq_some hstep
  rw [frameObject, if_pos hle] at hstep
  simp only at hstep
  split at hstep <;> cases hstep <;> exact List.mem_cons_self

/-- What follows does not take an announcement back. -/
theorem mem_announcedSizes_append {n : Nat} {xs : List UInt8} (hn : n ∈ announcedSizes xs)
    (ys : List UInt8) : n ∈ announcedSizes (xs ++ ys) := by
  unfold announcedSizes at hn ⊢
  simp only [frameMachine.run_append StreamState.init xs ys, Transducer.Result.prepend_output,
    Transducer.Result.prepend_state, List.filterMap_append] at hn ⊢
  rw [List.mem_append, List.mem_append]
  rcases List.mem_append.mp hn with hread | hpending
  · exact Or.inl (Or.inl hread)
  generalize frameMachine.run StreamState.init xs = read at hpending ⊢
  by_cases hstate : read.state.state = .recvObject
  · rw [if_pos hstate, List.mem_singleton] at hpending
    subst hpending
    cases hstep : frameMachine.step read.state (read.rest ++ ys) with
    | none =>
        -- the object is still awaited
        rw [frameMachine.run_of_none hstep, if_pos hstate]
        exact Or.inr (List.mem_singleton_self _)
    | some next =>
        -- the object is the next event
        obtain ⟨s, es, rest⟩ := next
        have hobject : frameObject read.state (read.rest ++ ys) = some (s, es, rest) := by
          have hcase : frameStep read.state (read.rest ++ ys) = some (s, es, rest) := hstep
          simpa only [frameStep, hstate] using hcase
        have hsize := List.length_take_of_le (frameObject_eq_some hobject).1
        rw [frameMachine.run_of_some hstep, Transducer.Result.prepend_output,
          List.filterMap_append]
        exact Or.inl (Or.inr (List.mem_append_left _ (List.mem_filterMap.mpr
          ⟨_, mem_of_frameObject hobject, congrArg some hsize⟩)))
  · rw [if_neg hstate] at hpending
    exact absurd hpending List.not_mem_nil

/-! ## Where the frame machine stands -/

/-- A machine that waits has less than the size of what it waits for. -/
theorem length_lt_of_waiting {s : StreamState} {xs : List UInt8} (hwait : frameStep s xs = none) :
    xs.length < 5 ∨ (s.state = .recvObject ∧ xs.length < s.recvObjectSize.toNat) := by
  rw [frameStep] at hwait
  cases hstate : s.state with
  | recvHeader =>
      simp only [hstate] at hwait
      rcases xs with _ | ⟨_, _ | ⟨_, _ | ⟨_, _ | ⟨_, _ | ⟨_, _⟩⟩⟩⟩⟩
      iterate 5 exact Or.inl (by simp)
      cases hwait
  | recvObjectSize =>
      simp only [hstate] at hwait
      rcases xs with _ | ⟨_, _ | ⟨_, _⟩⟩
      iterate 2 exact Or.inl (by simp)
      cases hwait
  | recvObject =>
      simp only [hstate] at hwait
      refine Or.inr ⟨rfl, ?_⟩
      rw [frameObject] at hwait
      by_contra hle
      rw [if_pos (Nat.not_lt.mp hle)] at hwait
      simp only at hwait
      split at hwait <;> cases hwait

/-! ## Inside a call -/

section Receiving

variable {σ : Type} (pl : Build) (h : Host σ)

/-- The states of the loop between two cases of the switch, and the last one. -/
def loopStates (l : ProcessLoop σ) : List (ProcessLoop σ) :=
  match _hstep : caseStep pl h l with
  | .ret _ l' => [l, l']
  | .next l' => l :: loopStates l'
termination_by l.weight
decreasing_by exact caseStep_next pl h _hstep

variable {pl h} in
theorem loopStates_of_ret {l l' : ProcessLoop σ} {result : UInt8}
    (hstep : caseStep pl h l = .ret result l') : loopStates pl h l = [l, l'] := by
  rw [loopStates]
  split
  · next heq =>
      rw [hstep] at heq
      cases heq
      rfl
  · next heq =>
      rw [hstep] at heq
      cases heq

variable {pl h} in
theorem loopStates_of_next {l l' : ProcessLoop σ} (hstep : caseStep pl h l = .next l') :
    loopStates pl h l = l :: loopStates pl h l' := by
  rw [loopStates]
  split
  · next heq =>
      rw [hstep] at heq
      cases heq
  · next heq =>
      rw [hstep] at heq
      cases heq
      rfl

/-- The loop ends in the last of them. -/
theorem getLast?_loopStates (l : ProcessLoop σ) :
    (loopStates pl h l).getLast? = some (processLoop pl h l).2 := by
  induction l using processLoop_induction pl h with
  | returns l result l' hstep =>
      rw [loopStates_of_ret hstep]
      rfl
  | goesOn l l' hstep ih =>
      rw [loopStates_of_next hstep, List.getLast?_cons, ih]
      rfl

/-- What every case keeps holds of all of them. -/
theorem loopStates_invariant {P : ProcessLoop σ → Prop}
    (step : ∀ l, P l → P (caseStep pl h l).loop) {l : ProcessLoop σ} (hl : P l) :
    ∀ l' ∈ loopStates pl h l, P l' := by
  revert hl
  induction l using processLoop_induction pl h with
  | returns l result l' hstep =>
      intro hl
      have hcase := step l hl
      rw [hstep] at hcase
      rw [loopStates_of_ret hstep, List.forall_mem_cons, List.forall_mem_singleton]
      exact ⟨hl, hcase⟩
  | goesOn l l' hstep ih =>
      intro hl
      have hcase := step l hl
      rw [hstep] at hcase
      rw [loopStates_of_next hstep, List.forall_mem_cons]
      exact ⟨hl, ih hcase⟩

/-- Counters that move by as much agree as before. -/
theorem ProcessLoop.Synced.moved {l l' : ProcessLoop σ} (hl : l.Synced) {n : UInt16}
    (hn : n ≤ l.available) (hbuffer : l'.proto.processBuffer = l.proto.processBuffer)
    (hreceived : l'.proto.totalReceived = l.proto.totalReceived)
    (hconsumed : l'.proto.totalConsumed = l.proto.totalConsumed + n)
    (havailable : l'.available = l.available - n) (hdata : l'.data = l.data + n.toNat) :
    l'.Synced := by
  obtain ⟨hrest, hle, hsum⟩ := hl.consume hn
  have hcursor := hl.data_eq
  have hadd := hl.consumed_add
  constructor
  · rw [hdata, hbuffer, hconsumed, hsum, hcursor, Nat.add_assoc]
  · rw [hconsumed, hsum, havailable, hrest, hreceived]
    omega

/-- A case keeps the counters in step, also if it gives up. -/
theorem caseStep_synced {l : ProcessLoop σ} (hl : l.Synced) : (caseStep pl h l).loop.Synced := by
  rw [caseStep]
  cases l.proto.state with
  | recvHeader =>
      simp only [recvHeader]
      split
      · next hsize => exact hl.moved hsize rfl rfl rfl rfl rfl
      · exact hl
  | recvObjectSize =>
      simp only [recvObjectSize]
      split
      · next hsize => exact hl.moved hsize rfl rfl rfl rfl rfl
      · exact hl
  | recvObject =>
      simp only [recvObject]
      split
      · next hsize =>
          split
          · exact ⟨hl.data_eq, hl.consumed_add⟩
          · split
            · split <;> exact hl.moved hsize rfl rfl rfl rfl rfl
            · exact hl.moved hsize rfl rfl rfl rfl rfl
      · exact hl

/-! ## Sequences of calls -/

/-- A call that ends over an error reply that was not sent. -/
def ReplyFailed (c : Conn σ) (r : RecvResult) : Prop :=
  let processed := process pl h (({ c with errno := r.errno c.errno } : Conn σ).receive r.bytes)
  0 < r.count ∧ processed.1 ≠ 0 ∧ processed.2.overrun = false

/-- Calls of `recv_process` one after another, whatever `recv` gives and whatever they
return, as long as no error reply failed and the decoder has stayed in the object buffer. -/
inductive Receives (c₀ : Conn σ) : List RecvResult → Conn σ → Prop
  | init : Receives c₀ [] c₀
  | call {rs : List RecvResult} {c : Conn σ} (hrun : Receives c₀ rs c) (r : RecvResult)
      (hrunning : c.overrun = false) (hbytes : r.bytes.length ≤ c.afford.toNat)
      (hreply : ¬ ReplyFailed pl h c r) : Receives c₀ (rs ++ [r]) (recvProcess pl h c r).2

/-- The counters in one state of a call that `recv` gives `r`. -/
structure CountersAgree (c : Conn σ) (r : RecvResult) (l : ProcessLoop σ) : Prop where
  consumed_le : l.proto.totalConsumed ≤ l.proto.totalReceived
  received_le : l.proto.totalReceived ≤ c.proto.processBufferSize
  received : l.proto.totalReceived.toNat = c.proto.totalReceived.toNat + r.bytes.length
  consumed_add : l.proto.totalConsumed.toNat + l.available.toNat = l.proto.totalReceived.toNat

/-- Between two calls, when the buffer of `c₀` was given `stream`: there is room for
`recv`; the parser has consumed `base` bytes, and the buffer holds the others, in order;
and in every state of the next call, whatever it receives and as long as the decoder stays
in its buffer, the counters agree. -/
structure BufferInvariant (c₀ : Conn σ) (stream : List UInt8) (c : Conn σ) : Prop where
  buffer : c.proto.processBuffer = c₀.proto.processBuffer ∧
    c.proto.processBufferSize = c₀.proto.processBufferSize
  room : c.proto.totalReceived < c₀.proto.processBufferSize ∧ c.afford ≠ 0
  consumed : c.base = (frameMachine.run StreamState.init stream).state.offset ∧
    c.base + c.proto.totalReceived.toNat = stream.length
  holds : slice c.mem c.proto.processBuffer c.proto.totalReceived.toNat = stream.drop c.base
  counters : ∀ r : RecvResult, 0 < r.count → r.bytes.length ≤ c.afford.toNat →
    ∀ l ∈ loopStates pl h (({ c with errno := r.errno c.errno } : Conn σ).receive r.bytes).enter,
      l.overrun = false → CountersAgree c r l

variable {pl h} {c₀ c : Conn σ} {rs : List RecvResult}

/-- A call without a failed reply drains what it was given, whatever it returns, if the
decoder stays in its buffer. -/
theorem recvProcess_tracks {stream : List UInt8} (hc : c.Tracks pl stream) {r : RecvResult}
    (hbytes : r.bytes.length ≤ c.afford.toNat) (hreply : ¬ ReplyFailed pl h c r)
    (hrunning : (recvProcess pl h c r).2.overrun = false) :
    (recvProcess pl h c r).2.Tracks pl (stream ++ r.bytes) := by
  by_cases hcount : 0 < r.count
  · apply (recvProcess_spec pl h hc r hbytes).1
    have hzero : ¬ (process pl h
        (({ c with errno := r.errno c.errno } : Conn σ).receive r.bytes)).1 ≠ 0 := by
      intro hne
      simp only [recvProcess, if_pos hcount, if_pos hne] at hrunning
      exact hreply ⟨hcount, hne, hrunning⟩
    simp only [recvProcess, if_pos hcount, if_neg hzero]
    exact recvStatus_of_pos pl hcount
  · have hnone : r.bytes = [] := by
      cases r with
      | received bytes =>
          simp only [RecvResult.count] at hcount
          simpa [RecvResult.bytes] using hcount
      | failed errno => rfl
    simp only [recvProcess, if_neg hcount, hnone, List.append_nil]
    exact ⟨hc.run, hc.renders, hc.fits⟩

theorem received_concat (rs : List RecvResult) (r : RecvResult) :
    received (rs ++ [r]) = received rs ++ r.bytes := by
  simp [received]

/-- Along the calls, the buffer stays where it is. -/
theorem Receives.buffer (hrun : Receives pl h c₀ rs c) :
    c.proto.processBuffer = c₀.proto.processBuffer ∧
      c.proto.processBufferSize = c₀.proto.processBufferSize := by
  induction hrun with
  | init => exact ⟨rfl, rfl⟩
  | @call rs c _ r _ _ _ ih =>
      obtain ⟨hbuffer, hsize⟩ := recvProcess_buffer pl h c r
      exact ⟨hbuffer.trans ih.1, hsize.trans ih.2⟩

/-- Along the calls, the stream is drained. -/
theorem Receives.tracks (hrun : Receives pl h c₀ rs c) (h₀ : c₀.Fresh)
    (hrunning : c.overrun = false) : c.Tracks pl (received rs) := by
  induction hrun with
  | init => exact h₀.tracks pl
  | @call rs c _ r hbefore hbytes hreply ih =>
      rw [received_concat]
      exact recvProcess_tracks (ih hbefore) hbytes hreply hrunning

/-- Along the calls, the decoder stays in its buffer if that holds what was read. -/
theorem Receives.overrun (hrun : Receives pl h c₀ rs c) (h₀ : c₀.Fresh) (hplaced : c₀.Placed pl)
    (hcontained : AllContained pl (received rs)) : c.overrun = false := by
  cases hrun with
  | init =>
      obtain ⟨processBuffer, processBufferSize, mem, objectBuffer, app, errno, rfl⟩ := h₀
      rfl
  | @call rs c hrun r hbefore hbytes hreply =>
      obtain ⟨hbuffer, hsize⟩ := hrun.buffer
      have hmoved : c.Placed pl := by rwa [Conn.Placed, hbuffer, hsize]
      rw [received_concat] at hcontained
      obtain ⟨-, hkept⟩ := recvProcess_spec pl h (hrun.tracks h₀ hbefore) r hbytes
      rw [hkept hmoved hcontained]
      exact hbefore

/-- In a call, the counters agree from case to case. -/
theorem countersAgree_loopStates (hfits : c.proto.totalReceived ≤ c.proto.processBufferSize)
    {r : RecvResult} (hbytes : r.bytes.length ≤ c.afford.toNat) :
    ∀ l ∈ loopStates pl h (({ c with errno := r.errno c.errno } : Conn σ).receive r.bytes).enter,
      CountersAgree c r l := by
  obtain ⟨hsum, hle⟩ := Conn.receive_toNat (c := { c with errno := r.errno c.errno }) hfits hbytes
  have hall := loopStates_invariant pl h
    (P := fun l => l.Synced ∧ l.proto.totalReceived =
      (({ c with errno := r.errno c.errno } : Conn σ).receive r.bytes).proto.totalReceived)
    (fun l hl => ⟨caseStep_synced pl h hl.1, (caseStep_kept pl h l).totalReceived.trans hl.2⟩)
    (l := (({ c with errno := r.errno c.errno } : Conn σ).receive r.bytes).enter)
    ⟨⟨rfl, Nat.zero_add _⟩, rfl⟩
  intro l hl
  obtain ⟨hsynced, hreceived⟩ := hall l hl
  have hadd := hsynced.consumed_add
  refine ⟨UInt16.le_iff_toNat_le.mpr (by omega), ?_, ?_, hadd⟩
  · rw [hreceived]
    exact hle
  · rw [hreceived]
    exact hsum

/-- Between two calls that have drained the stream, the invariant holds. -/
theorem bufferInvariant_of_tracks (hbuffer : 5 ≤ c₀.proto.processBufferSize)
    {stream : List UInt8} (hannounced : ∀ n ∈ announcedSizes stream,
      n ≤ c₀.proto.processBufferSize.toNat)
    (hkept : c.proto.processBuffer = c₀.proto.processBuffer ∧
      c.proto.processBufferSize = c₀.proto.processBufferSize)
    (htracks : c.Tracks pl (received rs)) (hfront : received rs <+: stream) :
    BufferInvariant pl h c₀ (received rs) c := by
  have hrest := htracks.run
  have hsteps := frameMachine.steps_run StreamState.init (received rs)
  have hwait := frameMachine.step_run_eq_none StreamState.init (received rs)
  rw [hrest] at hsteps hwait
  change frameStep c.stream c.unread = none at hwait
  obtain ⟨front, hsplit, hoffset⟩ := steps_consumes hsteps
  have hbase : c.base = front.length := hoffset.trans (Nat.zero_add _)
  have hunread : c.unread.length = c.proto.totalReceived.toNat := length_slice _ _ _
  have hfive : 5 ≤ c₀.proto.processBufferSize.toNat := UInt16.le_iff_toNat_le.mp hbuffer
  -- what the parser waits for has been announced
  have hroom : c.proto.totalReceived.toNat < c₀.proto.processBufferSize.toNat := by
    rw [← hunread]
    rcases length_lt_of_waiting hwait with hshort | ⟨hstate, hshort⟩
    · omega
    · obtain ⟨rest, rfl⟩ := hfront
      have hmem : c.stream.recvObjectSize.toNat ∈ announcedSizes (received rs) := by
        simp only [announcedSizes, hrest, if_pos hstate]
        exact List.mem_append_right _ (List.mem_singleton_self _)
      have hsize := hannounced _ (mem_announcedSizes_append hmem rest)
      omega
  refine ⟨hkept, ⟨UInt16.lt_iff_toNat_lt.mpr hroom, ?_⟩, ⟨?_, ?_⟩, ?_, ?_⟩
  · intro hnone
    have hafford : c.afford.toNat =
        c.proto.processBufferSize.toNat - c.proto.totalReceived.toNat :=
      UInt16.toNat_sub_of_le _ _ htracks.fits
    rw [hnone, hkept.2, UInt16.toNat_zero] at hafford
    omega
  · rw [hrest]
    rfl
  · have hlength := congrArg List.length hsplit
    rw [List.length_append, hunread] at hlength
    omega
  · have hdrop : (received rs).drop c.base = c.unread := by
      rw [hsplit, hbase, List.drop_left]
    exact hdrop.symm
  · intro r _ hbytes l hl _
    exact countersAgree_loopStates htracks.fits hbytes l hl

/-- **The receive buffer.**  For a buffer of at least 5 bytes and every stream that
announces no object larger than the buffer, however the bytes arrive and whatever the
calls return, up to an error reply that was not sent: the decoder stays in its buffer and
the invariant holds if the object buffer holds the objects of the bodies received; with the
C decoder, exactly if no number of properties in them passes its test modulo 256 only. -/
theorem receives_bufferInvariant (h₀ : c₀.Fresh) (hplaced : c₀.Placed pl)
    (hbuffer : 5 ≤ c₀.proto.processBufferSize) {stream : List UInt8}
    (hannounced : ∀ n ∈ announcedSizes stream, n ≤ c₀.proto.processBufferSize.toNat)
    (hrun : Receives pl h c₀ rs c) (hfront : received rs <+: stream) :
    (AllContained pl (received rs) →
        c.overrun = false ∧ BufferInvariant pl h c₀ (received rs) c) ∧
      (pl.decoder = .c → (c.overrun = false ∧ BufferInvariant pl h c₀ (received rs) c ↔
        AllCountsFit pl (received rs))) := by
  have hforward : AllContained pl (received rs) →
      c.overrun = false ∧ BufferInvariant pl h c₀ (received rs) c := by
    intro hcontained
    have hrunning := hrun.overrun h₀ hplaced hcontained
    exact ⟨hrunning, bufferInvariant_of_tracks hbuffer hannounced hrun.buffer
      (hrun.tracks h₀ hrunning) hfront⟩
  refine ⟨hforward, fun hpl => ⟨?_, fun hfits => hforward (hfits.contained hpl)⟩⟩
  rintro ⟨hrunning, -⟩
  exact (hrun.tracks h₀ hrunning).countsFit hpl

/-- A buffer of 5 bytes takes a frame of 11 bytes in three pieces, with a fruitless
`recv` in between; the last piece ends inside the object. -/
theorem receives_bufferInvariant_of_five :
    let c₀ := Conn.init 64 5 (fun _ => 0) ⟨0, []⟩ () 0
    let call := fun c r => (recvProcess .pc Host.quiet c r).2
    BufferInvariant .pc Host.quiet c₀ [2, 6, 0, 1, 0, 4, 0, 1, 0]
      ([.received [2, 6, 0], .failed ewouldblock, .received [1, 0],
        .received [4, 0, 1, 0]].foldl call c₀) := by
  intro c₀ call
  have hfirst : Receives .pc Host.quiet c₀ _ _ :=
    .call .init (.received [2, 6, 0]) rfl (by decide) (by unfold ReplyFailed; decide +kernel)
  have hsecond := hfirst.call (.failed ewouldblock) (by decide +kernel) (by decide +kernel)
    (by unfold ReplyFailed; decide +kernel)
  have hthird := hsecond.call (.received [1, 0]) (by decide +kernel) (by decide +kernel)
    (by unfold ReplyFailed; decide +kernel)
  have hfourth := hthird.call (.received [4, 0, 1, 0]) (by decide +kernel) (by decide +kernel)
    (by unfold ReplyFailed; decide +kernel)
  have hfront : [2, 6, 0, 1, 0, 4, 0, 1, 0] <+: [2, 6, 0, 1, 0, 4, 0, 1, 0, 7, (65 : UInt8)] := by
    decide
  have haccepted : AllAccepted Platform.pc [2, 6, 0, 1, 0, 4, 0, 1, 0] := by decide +kernel
  exact ((receives_bufferInvariant (Conn.fresh_init _ _ _ _ _ _) (Conn.placed_of_c rfl _)
    (by decide) (by decide +kernel) hfourth hfront).1 haccepted.contained).2

/-- A body of 256 properties, smaller than the buffer of 1024 bytes: the decoder writes the
table over the object buffer, and over what lies behind it on the stack. -/
theorem not_receives_bufferInvariant_256_properties :
    (∀ n ∈ announcedSizes overrunningRequest, n ≤ wideServer.proto.processBufferSize.toNat) ∧
      Receives Platform.pc Host.quiet wideServer [.received overrunningRequest]
        (recvProcess Platform.pc Host.quiet wideServer (.received overrunningRequest)).2 ∧
      ¬ ((recvProcess Platform.pc Host.quiet wideServer (.received overrunningRequest)).2.overrun =
          false ∧
        BufferInvariant Platform.pc Host.quiet wideServer (received [.received overrunningRequest])
          (recvProcess Platform.pc Host.quiet wideServer (.received overrunningRequest)).2) := by
  refine ⟨?_, ?_, fun hboth => ?_⟩
  · obtain ⟨t, ht, hrun⟩ := run_overrunningRequest
    have hnot : ¬ t.state = .recvObject := by simp [ht]
    have hsizes : announcedSizes overrunningRequest = [overrunningBody.length] := by
      simp only [announcedSizes, hrun, if_neg hnot]
      rfl
    rw [hsizes, length_overrunningBody]
    decide
  · refine Receives.call .init (.received overrunningRequest) rfl cut_overrunningRequest.fits.1 ?_
    rintro ⟨hpos, -, hfalse⟩
    rw [← recvProcess_overrun _ _ _ hpos, recvProcess_wideServer] at hfalse
    cases hfalse
  · have hrunning := hboth.1
    rw [recvProcess_wideServer] at hrunning
    cases hrunning

end Receiving

end ZxProto
