import ZxProto.Stream

/-!
# What the server loop learns

A server calls `proto_server_process` as long as it returns 0.  The value is `errno`
when nothing was received, and `errno` may be left over from an earlier call, from the
callbacks, or from none at all.

* `protoServerProcess` — the function;
* `Reports` — what its value should say; `Heard` — the state and the `recv` for which it
  does, `reports_iff`;
* `Live` — the same along the loop, `AlongCalls` — a condition before each call of it;
* `live_iff` — for which runs it holds.
-/

namespace ZxProto

section Liveness

variable {σ : Type} (pl : Build) (h : Host σ)

/-- `proto_server_process`. -/
def protoServerProcess (c : Conn σ) (r : RecvResult) : Int × Conn σ :=
  recvProcess pl h c r

/-- The buffer is full of an object that is announced larger than the buffer. -/
structure Conn.Stuck (c : Conn σ) : Prop where
  state : c.proto.state = .recvObject
  larger : c.proto.processBufferSize < c.proto.recvObjectSize
  full : c.proto.totalReceived = c.proto.processBufferSize

instance (c : Conn σ) : Decidable c.Stuck :=
  decidable_of_iff (c.proto.state = .recvObject ∧
    c.proto.processBufferSize < c.proto.recvObjectSize ∧
      c.proto.totalReceived = c.proto.processBufferSize)
    ⟨fun h => ⟨h.1, h.2.1, h.2.2⟩, fun h => ⟨h.state, h.larger, h.full⟩⟩

/-- What `recv` has put into the buffer. -/
def Conn.given (c : Conn σ) (r : RecvResult) : Conn σ :=
  ({ c with errno := r.errno c.errno } : Conn σ).receive r.bytes

/-- What a call should report, with the decoder in its buffer: it returns 0 only if bytes
were received and processed, or there were none yet; and not when no bytes can be received
any more. -/
structure Reports (c : Conn σ) (r : RecvResult) : Prop where
  zero : (protoServerProcess pl h c r).1 = 0 →
    (0 < r.count ∧ (process pl h (c.given r)).1 = 0) ∨ r = .failed ewouldblock
  stuck : c.Stuck → (protoServerProcess pl h c r).1 ≠ 0
  running : (protoServerProcess pl h c r).2.overrun = false

/-- Every call of the loop reports. -/
def Live (c : Conn σ) : List RecvResult → Prop
  | [] => True
  | r :: rs =>
      Reports pl h c r ∧
        ((protoServerProcess pl h c r).1 = 0 → Live (protoServerProcess pl h c r).2 rs)

/-! ## When a call reports -/

/-- The end of the stream does not meet an `errno` of 0, and a full buffer not an
`EWOULDBLOCK`. -/
def Heard (c : Conn σ) (r : RecvResult) : Prop :=
  (r = .received [] → c.errno ≠ 0) ∧ (c.Stuck → r ≠ .failed ewouldblock)

/-- The object buffer holds the objects that are read in a call. -/
def Conn.DecodesGiven (c : Conn σ) (r : RecvResult) : Prop :=
  0 < r.count → (c.given r).Decodes pl

/-- What holds of the state before each call of the loop, and of what `recv` gives. -/
def AlongCalls (P : Conn σ → RecvResult → Prop) (c : Conn σ) : List RecvResult → Prop
  | [] => True
  | r :: rs =>
      P c r ∧ ((protoServerProcess pl h c r).1 = 0 →
        AlongCalls P (protoServerProcess pl h c r).2 rs)

variable {pl}

/-- The value of a call that received nothing. -/
theorem recvProcess_of_none (hpl : pl.nonblockingRecv = true) (c : Conn σ) {r : RecvResult}
    (hnone : ¬ 0 < r.count) :
    (recvProcess pl h c r).1 =
      if r = .received [] then c.errno
      else if r = .failed ewouldblock then 0
      else r.errno c.errno := by
  simp only [recvProcess, if_neg hnone, recvStatus, hpl, if_true]
  cases r with
  | received bytes =>
      rw [RecvResult.count] at hnone
      have hnil : bytes = [] := List.length_eq_zero_iff.mp (by omega)
      subst hnil
      rfl
  | failed errno =>
      have hcount : ¬ (RecvResult.failed errno).count = 0 := show ¬ (-1 : Int) = 0 by decide
      have hle : (RecvResult.failed errno).count ≤ 0 := show (-1 : Int) ≤ 0 by decide
      have hother : ¬ RecvResult.failed errno = .received [] := fun heq => by cases heq
      rw [if_neg hcount, if_pos hle, if_neg hother]
      by_cases hwould : errno = ewouldblock
      · rw [if_pos (congrArg RecvResult.failed hwould)]
        exact if_pos hwould
      · rw [if_neg fun heq => hwould (RecvResult.failed.inj heq)]
        exact if_neg hwould

/-- A full buffer offers no room. -/
theorem Conn.Stuck.not_pos {c : Conn σ} (hstuck : c.Stuck) {r : RecvResult}
    (hbytes : r.bytes.length ≤ c.afford.toNat) : ¬ 0 < r.count := by
  have hafford : c.afford.toNat = 0 := by
    unfold Conn.afford
    rw [hstuck.full, UInt16.sub_self]
    rfl
  rw [hafford] at hbytes
  cases r with
  | received bytes =>
      rw [RecvResult.bytes] at hbytes
      rw [RecvResult.count]
      omega
  | failed errno => exact show ¬ (0 : Int) < -1 by decide

/-- The decoder stays in its buffer if that holds what is read; if the replies are sent,
only then. -/
theorem running_iff {c : Conn σ} (hrunning : c.overrun = false) (r : RecvResult) :
    (c.DecodesGiven pl r → (protoServerProcess pl h c r).2.overrun = false) ∧
      (h.RepliesSent → (protoServerProcess pl h c r).2.overrun = false → c.DecodesGiven pl r) := by
  unfold protoServerProcess Conn.DecodesGiven
  by_cases hcount : 0 < r.count
  · rw [recvProcess_overrun pl h c hcount]
    have hspec := process_spec pl h (c.given r)
    refine ⟨fun hdecodes => (hspec.kept (hdecodes hcount)).trans hrunning, ?_⟩
    intro hreplies hstayed _
    by_cases hzero : (process pl h (c.given r)).1 = 0
    · exact hspec.decoded hzero
    · rcases hspec.failed hzero with ⟨hsent, -⟩ | ⟨hover, -⟩
      · exact absurd hreplies hsent
      · exact absurd (hstayed.symm.trans hover) Bool.false_ne_true
  · simp only [recvProcess, if_neg hcount]
    exact ⟨fun _ => hrunning, fun _ _ hpos => absurd hpos hcount⟩

/-- A call in which the decoder stays in its buffer reports exactly if it is heard. -/
theorem reports_iff (hpl : pl.nonblockingRecv = true) {c : Conn σ} {r : RecvResult}
    (hbytes : r.bytes.length ≤ c.afford.toNat) (herrno : ∀ errno, r = .failed errno → errno ≠ 0) :
    Reports pl h c r ↔ Heard c r ∧ (protoServerProcess pl h c r).2.overrun = false := by
  constructor
  · refine fun hreports => ⟨⟨fun hend hzero => ?_, fun hstuck hwould => ?_⟩, hreports.running⟩
    · subst hend
      have hresult : (protoServerProcess pl h c (.received [])).1 = 0 := by
        unfold protoServerProcess
        rw [recvProcess_of_none h hpl c (by decide), if_pos rfl]
        exact hzero
      rcases hreports.zero hresult with ⟨hpos, -⟩ | hfailed
      · exact absurd hpos (by decide)
      · cases hfailed
    · subst hwould
      refine hreports.stuck hstuck ?_
      unfold protoServerProcess
      rw [recvProcess_of_none h hpl c (hstuck.not_pos hbytes), if_neg (by simp), if_pos rfl]
  · rintro ⟨⟨hend, hblocked⟩, hrunning⟩
    -- where nothing was received, only `EWOULDBLOCK` gives 0
    have hnone : ¬ 0 < r.count → r ≠ .failed ewouldblock → (recvProcess pl h c r).1 ≠ 0 := by
      intro hcount hother
      rw [recvProcess_of_none h hpl c hcount]
      by_cases hnil : r = .received []
      · rw [if_pos hnil]
        exact hend hnil
      · rw [if_neg hnil, if_neg hother]
        cases r with
        | received bytes =>
            rw [RecvResult.count] at hcount
            exact absurd (congrArg RecvResult.received
              (List.length_eq_zero_iff.mp (by omega : bytes.length = 0))) hnil
        | failed errno => exact herrno errno rfl
    refine ⟨fun hresult => ?_, fun hstuck => hnone (hstuck.not_pos hbytes) (hblocked hstuck),
      hrunning⟩
    by_cases hcount : 0 < r.count
    · refine Or.inl ⟨hcount, ?_⟩
      unfold protoServerProcess at hresult
      simp only [recvProcess, if_pos hcount] at hresult
      split at hresult
      · exact absurd hresult (by simp)
      · next hdone => exact not_not.mp hdone
    · exact Or.inr (not_not.mp fun hother => hnone hcount hother hresult)

/-! ## The loop -/

/-- **The server loop.**  `recv` gives what it is offered room for and sets `errno`
only when it fails, and not to 0; callbacks and `send` may set it to anything.  In every run
of `proto_server_process`, with any `errno` at its start, every call reports what happened if
and only if the end of the stream never meets an `errno` of 0, nor a full buffer an
`EWOULDBLOCK`; provided that the object buffer holds what is read, which every run needs
whose replies are sent. -/
theorem live_iff (hpl : pl.nonblockingRecv = true) {c : Conn σ} (hrunning : c.overrun = false)
    {rs : List RecvResult} (hfits : Fits pl h c rs)
    (herrno : ∀ errno, .failed errno ∈ rs → errno ≠ 0) :
    (AlongCalls pl h (Conn.DecodesGiven pl) c rs →
        (Live pl h c rs ↔ AlongCalls pl h Heard c rs)) ∧
      (h.RepliesSent → (Live pl h c rs ↔
        AlongCalls pl h (Conn.DecodesGiven pl) c rs ∧ AlongCalls pl h Heard c rs)) := by
  induction rs generalizing c with
  | nil => exact ⟨fun _ => Iff.rfl, fun _ => (and_iff_left trivial).symm⟩
  | cons r rs ih =>
      obtain ⟨hbytes, hrest⟩ := hfits
      have hfailed : ∀ errno, r = .failed errno → errno ≠ 0 := fun errno heq =>
        herrno errno (heq ▸ List.mem_cons_self)
      have hlater : ∀ errno, .failed errno ∈ rs → errno ≠ 0 := fun errno hmem =>
        herrno errno (List.mem_cons_of_mem r hmem)
      obtain ⟨hstays, hstayed⟩ := @running_iff σ pl h c hrunning r
      have hnext := fun (hzero : (protoServerProcess pl h c r).1 = 0)
        (hover : (protoServerProcess pl h c r).2.overrun = false) => ih hover (hrest hzero) hlater
      rw [Live, AlongCalls, AlongCalls, reports_iff h hpl hbytes hfailed]
      constructor
      · rintro ⟨hdecodes, hdecoding⟩
        have hover := hstays hdecodes
        constructor
        · rintro ⟨⟨hheard, -⟩, hlive⟩
          exact ⟨hheard, fun hzero => ((hnext hzero hover).1 (hdecoding hzero)).mp (hlive hzero)⟩
        · rintro ⟨hheard, halong⟩
          exact ⟨⟨hheard, hover⟩,
            fun hzero => ((hnext hzero hover).1 (hdecoding hzero)).mpr (halong hzero)⟩
      · intro hreplies
        constructor
        · rintro ⟨⟨hheard, hover⟩, hlive⟩
          have hboth := fun hzero => ((hnext hzero hover).2 hreplies).mp (hlive hzero)
          exact ⟨⟨hstayed hreplies hover, fun hzero => (hboth hzero).1⟩, hheard,
            fun hzero => (hboth hzero).2⟩
        · rintro ⟨⟨hdecodes, hdecoding⟩, hheard, halong⟩
          have hover := hstays hdecodes
          exact ⟨⟨hheard, hover⟩, fun hzero =>
            ((hnext hzero hover).2 hreplies).mpr ⟨hdecoding hzero, halong hzero⟩⟩

end Liveness

/-- A server that does nothing with what it receives, with a buffer of 8 bytes. -/
def idleServer (errno : Int) : Conn Unit :=
  Conn.init 64 8 (fun _ => 0) ⟨0, []⟩ () errno

/-- The end of the stream behind an `EWOULDBLOCK`: every call reports. -/
theorem live_end_behind_ewouldblock :
    Live Platform.pc Host.quiet (idleServer 0)
      [.failed ewouldblock, .received [0, 6, 0], .received []] := by
  apply ((live_iff Host.quiet rfl rfl (by decide +kernel) ?_).2 Host.quiet_repliesSent).mpr
  · refine ⟨⟨?_, fun _ => ⟨?_, fun _ => ⟨?_, fun _ => trivial⟩⟩⟩,
      ⟨by unfold Heard; decide +kernel, fun _ => ⟨by unfold Heard; decide +kernel,
        fun _ => ⟨by unfold Heard; decide +kernel, fun _ => trivial⟩⟩⟩⟩
    · exact fun hpos => absurd hpos (by decide)
    · intro _
      let c := (recvProcess Platform.pc Host.quiet (idleServer 0) (.failed ewouldblock)).2.given
        (.received [0, 6, 0])
      have haccepted : EventsAccepted Platform.pc (frameMachine.run c.stream c.unread).output := by
        decide +kernel
      exact (Conn.decodes_iff_countFit rfl c).mpr haccepted.countFit
    · exact fun hpos => absurd hpos (by decide)
  · intro errno hmem
    simp only [List.mem_cons, RecvResult.failed.injEq, reduceCtorEq, List.not_mem_nil,
      or_false] at hmem
    rw [hmem]
    decide

/-- Bytes, and then the end of the stream, with an `errno` that nothing has set: the
last call returns 0, and so does every further one. -/
theorem not_live_end_of_stream :
    let rs : List RecvResult := [.received [0, 6, 0], .received [], .received []]
    ¬ Live Platform.pc Host.quiet (idleServer 0) rs ∧
      (recvAll Platform.pc Host.quiet (idleServer 0) rs).1 = 0 := by
  refine ⟨fun hlive => ?_, by decide +kernel⟩
  obtain ⟨-, hrest⟩ := hlive
  obtain ⟨hreports, -⟩ := hrest (by decide +kernel)
  rcases hreports.zero (by decide +kernel) with ⟨hpos, -⟩ | hfailed
  · exact absurd hpos (by decide)
  · cases hfailed

end ZxProto
