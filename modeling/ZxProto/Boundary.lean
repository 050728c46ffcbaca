import ZxProto.Segmentation

/-!
# Where frames end

A frame header announces the length of the frame body.  `process` counts the
bytes of the objects in the 16-bit `recv_consumed` and compares it with the
announced length after every object, so it ends a frame at the first object
whose end, modulo 2^16, has reached the length.

* `FramesEndAsAnnounced` — every frame is completed exactly at its announced
  end, and every header stands right there;
* `objectEnds` and `Aligned` — the object ends in a stream, and the streams
  whose frames announce one of theirs;
* `run_objects_endless`, `steps_objects_complete` — one frame: what the frame machine
  does between a header and the next;
* `framesEndAsAnnounced_iff` — the code keeps the boundaries exactly on the
  aligned streams without an object that overruns the object buffer.
-/

namespace ZxProto

open ByteMemory

/-- Headers are parsed at the frame boundaries, and frames are completed there.
`boundary` is the end that the header before has announced. -/
def FramesEndAsAnnounced (boundary : Nat) : List Event → Prop
  | [] => True
  | .startRequest offset _ size _ :: es =>
      offset = boundary + 5 ∧ FramesEndAsAnnounced (offset + size.toNat) es
  | .object _ _ _ _ :: es => FramesEndAsAnnounced boundary es
  | .completeRequest offset _ _ :: es => offset = boundary ∧ FramesEndAsAnnounced boundary es

/-! ## Aligned streams -/

/-- Where the successive objects in front of some bytes end, after `passed`
bytes of the frame body. -/
def objectEnds (passed : Nat) : List UInt8 → List Nat
  | lo :: hi :: rest =>
      if (u16le lo hi).toNat ≤ rest.length then
        (passed + 2 + (u16le lo hi).toNat) ::
          objectEnds (passed + 2 + (u16le lo hi).toNat) (rest.drop (u16le lo hi).toNat)
      else
        []
  | _ => []
termination_by bytes => bytes.length
decreasing_by simp; omega

/-- In every frame whose objects reach the announced length, modulo 2^16, one of
them ends exactly there; the next frame follows behind the announced length. -/
def Aligned (stream : List UInt8) : Prop :=
  match stream with
  | _ :: sizeLo :: sizeHi :: _ :: _ :: rest =>
      (∃ reached ∈ objectEnds 0 rest, (u16le sizeLo sizeHi).toNat ≤ reached % 65536) →
        (u16le sizeLo sizeHi).toNat ∈ objectEnds 0 rest ∧
          Aligned (rest.drop (u16le sizeLo sizeHi).toNat)
  | _ => True
termination_by stream.length
decreasing_by simp; omega

theorem lt_of_mem_objectEnds {passed reached : Nat} {bytes : List UInt8}
    (hmem : reached ∈ objectEnds passed bytes) : passed < reached := by
  induction passed, bytes using objectEnds.induct with
  | case1 passed lo hi rest hsize ih =>
      rw [objectEnds, if_pos hsize] at hmem
      rcases List.mem_cons.mp hmem with rfl | hmem
      · omega
      · have := ih hmem
        omega
  | case2 passed lo hi rest hsize =>
      rw [objectEnds, if_neg hsize] at hmem
      cases hmem
  | case3 passed bytes hshape =>
      rw [objectEnds] at hmem
      · cases hmem
      · exact hshape

/-- Objects end one behind the other. -/
theorem pairwise_objectEnds (passed : Nat) (bytes : List UInt8) :
    (objectEnds passed bytes).Pairwise (· < ·) := by
  induction passed, bytes using objectEnds.induct with
  | case1 passed lo hi rest hsize ih =>
      rw [objectEnds, if_pos hsize]
      exact List.pairwise_cons.mpr ⟨fun reached hmem => lt_of_mem_objectEnds hmem, ih⟩
  | case2 passed lo hi rest hsize =>
      rw [objectEnds, if_neg hsize]
      exact List.Pairwise.nil
  | case3 passed bytes hshape =>
      rw [objectEnds]
      · exact List.Pairwise.nil
      · exact hshape

/-- The first object end that reaches the length, modulo 2^16, is the length if
and only if the length is an object end at all. -/
theorem mem_objectEnds_iff_first {passed length first : Nat} {bytes : List UInt8}
    (hlength : length < 65536)
    (hfirst : (objectEnds passed bytes).find? (fun reached => length ≤ reached % 65536) =
      some first) :
    length ∈ objectEnds passed bytes ↔ first = length := by
  obtain ⟨hreached, before, after, hsplit, hbefore⟩ := List.find?_eq_some_iff_append.mp hfirst
  constructor
  · intro hmem
    have hsorted := pairwise_objectEnds passed bytes
    rw [hsplit] at hmem hsorted
    rcases List.mem_append.mp hmem with hmem | hmem
    · have := hbefore length hmem
      simp [Nat.mod_eq_of_lt hlength] at this
    · rcases List.mem_cons.mp hmem with rfl | hmem
      · rfl
      -- what comes behind the first is larger, and below 2^16 it would have reached
      · have hlt : first < length :=
          (List.pairwise_cons.mp (List.pairwise_append.mp hsorted).2.1).1 length hmem
        simp only [decide_eq_true_eq] at hreached
        omega
  · rintro rfl
    rw [hsplit]
    simp

/-! ## One frame -/

/-- Events that are all objects. -/
def AllObjects (es : List Event) : Prop :=
  ∀ e ∈ es, ∃ offset flags requestId body, e = .object offset flags requestId body

theorem framesEndAsAnnounced_objects {es : List Event} (hes : AllObjects es) (boundary : Nat)
    (fs : List Event) :
    FramesEndAsAnnounced boundary (es ++ fs) ↔ FramesEndAsAnnounced boundary fs := by
  induction es with
  | nil => rfl
  | cons e es ih =>
      obtain ⟨offset, flags, requestId, body, rfl⟩ := hes e List.mem_cons_self
      rw [List.cons_append, FramesEndAsAnnounced]
      exact ih fun e he => hes e (List.mem_cons_of_mem _ he)

section Frame

variable {s : StreamState} {flags : UInt8} {size requestId : UInt16} {start passed : Nat}

/-- A frame that no object end completes: only objects are seen. -/
theorem run_objects_endless (hs : s.Between flags size requestId start passed)
    {bytes : List UInt8}
    (hnone : ∀ reached ∈ objectEnds passed bytes, ¬ size.toNat ≤ reached % 65536) :
    AllObjects (frameMachine.run s bytes).output := by
  induction passed, bytes using objectEnds.induct generalizing s with
  | case1 passed lo hi rest hsize ih =>
      rw [objectEnds, if_pos hsize, List.forall_mem_cons] at hnone
      -- an object that does not reach the length leaves the reader between two objects
      obtain ⟨s', hs', hsteps⟩ := steps_object_more hs hsize hnone.1
      rw [hsteps.run_eq]
      intro e he
      rcases List.mem_append.mp he with he | he
      · exact ⟨_, _, _, _, List.mem_singleton.mp he⟩
      · exact ih hs' hnone.2 e he
  | case2 passed lo hi rest hsize =>
      rw [run_partial_object hs]
      · exact fun e he => absurd he (by simp)
      · intro lo' hi' rest' heq
        cases heq
        exact Nat.not_le.mp hsize
  | case3 passed bytes hshape =>
      rw [run_partial_object hs]
      · exact fun e he => absurd he (by simp)
      · exact fun lo hi rest heq => absurd heq (hshape lo hi rest)

/-- A frame that is completed: at the first object end that reaches the length. -/
theorem steps_objects_complete (hs : s.Between flags size requestId start passed)
    {bytes : List UInt8} {first : Nat}
    (hfirst : (objectEnds passed bytes).find? (fun reached => size.toNat ≤ reached % 65536) =
      some first) :
    ∃ (es : List Event) (s' : StreamState), AllObjects es ∧ s'.AtHeader (start + first) ∧
      frameMachine.Steps s bytes (es ++ [.completeRequest (start + first) flags requestId]) s'
        (bytes.drop (first - passed)) := by
  induction passed, bytes using objectEnds.induct generalizing s with
  | case1 passed lo hi rest hsize ih =>
      rw [objectEnds, if_pos hsize, List.find?_cons] at hfirst
      by_cases hlast : size.toNat ≤ (passed + 2 + (u16le lo hi).toNat) % 65536
      -- this object reaches the length
      · simp only [hlast, decide_true, Option.some.injEq] at hfirst
        subst hfirst
        obtain ⟨s', hs', hsteps⟩ := steps_object_last hs hsize hlast
        refine ⟨[.object (start + passed + 2) flags requestId (rest.take (u16le lo hi).toNat)], s',
          fun e he => ⟨_, _, _, _, List.mem_singleton.mp he⟩, hs', ?_⟩
        · have hdrop : (lo :: hi :: rest).drop (passed + 2 + (u16le lo hi).toNat - passed) =
              rest.drop (u16le lo hi).toNat := by
            rw [show passed + 2 + (u16le lo hi).toNat - passed = (u16le lo hi).toNat + 1 + 1 by
              omega]
            rfl
          rw [hdrop]
          exact hsteps
      -- it does not, and the rest is a frame with more bytes passed
      · simp only [hlast, decide_false] at hfirst
        obtain ⟨s₁, hs₁, hsteps⟩ := steps_object_more hs hsize hlast
        obtain ⟨es, s', hes, hs', hrest⟩ := ih hs₁ hfirst
        have hlt : passed + 2 + (u16le lo hi).toNat < first :=
          lt_of_mem_objectEnds (List.mem_of_find?_eq_some hfirst)
        refine ⟨.object (start + passed + 2) flags requestId (rest.take (u16le lo hi).toNat) :: es,
          s', List.forall_mem_cons.mpr ⟨⟨_, _, _, _, rfl⟩, hes⟩, hs', ?_⟩
        · have hdrop : (lo :: hi :: rest).drop (first - passed) =
              (rest.drop (u16le lo hi).toNat).drop
                (first - (passed + 2 + (u16le lo hi).toNat)) := by
            rw [List.drop_drop, show first - passed = (u16le lo hi).toNat +
              (first - (passed + 2 + (u16le lo hi).toNat)) + 1 + 1 by omega]
            rfl
          rw [hdrop]
          exact hsteps.trans hrest
  | case2 passed lo hi rest hsize =>
      rw [objectEnds, if_neg hsize] at hfirst
      cases hfirst
  | case3 passed bytes hshape =>
      rw [objectEnds] at hfirst
      · cases hfirst
      · exact hshape

end Frame

/-! ## Whole streams -/

/-- From a header on, the frame machine keeps the boundaries exactly if the bytes
are aligned. -/
theorem framesEndAsAnnounced_run {s : StreamState} {boundary : Nat} (hs : s.AtHeader boundary)
    (stream : List UInt8) :
    FramesEndAsAnnounced boundary (frameMachine.run s stream).output ↔ Aligned stream := by
  induction stream using Aligned.induct generalizing s boundary with
  | case1 flags sizeLo sizeHi idLo idHi rest ih =>
      obtain ⟨s₁, hs₁, hheader⟩ := steps_header hs flags sizeLo sizeHi idLo idHi rest
      rw [hheader.run_eq, Aligned]
      simp only [Transducer.Result.prepend_output, List.singleton_append, FramesEndAsAnnounced,
        true_and]
      cases hfirst : (objectEnds 0 rest).find?
        (fun reached => (u16le sizeLo sizeHi).toNat ≤ reached % 65536) with
      | none =>
          have hnone : ∀ reached ∈ objectEnds 0 rest,
              ¬ (u16le sizeLo sizeHi).toNat ≤ reached % 65536 := by
            simpa using hfirst
          -- nothing completes the frame, so there is nothing to check
          have hobjects := run_objects_endless hs₁ hnone
          have hkept := framesEndAsAnnounced_objects hobjects
            (boundary + 5 + (u16le sizeLo sizeHi).toNat) []
          rw [List.append_nil] at hkept
          constructor
          · rintro - ⟨reached, hmem, hreached⟩
            exact absurd hreached (hnone reached hmem)
          · intro _
            exact hkept.mpr trivial
      | some first =>
          obtain ⟨es, s', hes, hs', hsteps⟩ := steps_objects_complete hs₁ hfirst
          have hmem := List.mem_of_find?_eq_some hfirst
          have hreached : (u16le sizeLo sizeHi).toNat ≤ first % 65536 := by
            simpa using List.find?_some hfirst
          have hexists : ∃ reached ∈ objectEnds 0 rest,
              (u16le sizeLo sizeHi).toNat ≤ reached % 65536 := ⟨first, hmem, hreached⟩
          rw [hsteps.run_eq]
          simp only [Transducer.Result.prepend_output, List.append_assoc, List.singleton_append,
            framesEndAsAnnounced_objects hes, FramesEndAsAnnounced, hexists, forall_const,
            mem_objectEnds_iff_first (u16le sizeLo sizeHi).toNat_lt hfirst]
          -- the frame is completed at `first`; the rest is looked at only if that is its length
          constructor
          · rintro ⟨hend, hrest⟩
            obtain rfl : first = (u16le sizeLo sizeHi).toNat := by omega
            rw [← hend] at hrest
            exact ⟨rfl, (ih hexists hs').mp hrest⟩
          · rintro ⟨rfl, hrest⟩
            exact ⟨rfl, (ih hexists hs').mpr hrest⟩
  -- no whole header is left
  | case2 stream hshape =>
      have hshort : stream.length < 5 := by
        match stream, hshape with
        | [], _ | [_], _ | [_, _], _ | [_, _, _], _ | [_, _, _, _], _ => simp
        | a :: b :: c :: d :: e :: rest, hshape => exact absurd rfl (hshape a b c d e rest)
      rw [frameMachine.run_of_none (step_header_eq_none hs hshort), Aligned]
      · simp [FramesEndAsAnnounced]
      · exact hshape

theorem FramesEndAsAnnounced.of_append {es fs : List Event} {boundary : Nat}
    (h : FramesEndAsAnnounced boundary (es ++ fs)) : FramesEndAsAnnounced boundary es := by
  induction es generalizing boundary with
  | nil => trivial
  | cons e es ih =>
      cases e with
      | startRequest offset flags size requestId => exact ⟨h.1, ih h.2⟩
      | object offset flags requestId body => exact ih h
      | completeRequest offset flags requestId => exact ⟨h.1, ih h.2⟩

/-- **When frames end as announced.**  On an aligned stream of bodies that the object buffer
holds the objects of, along every cut and for every host; and if the replies are sent, then
with the C decoder only on an aligned stream in which no number of properties passes the
test modulo 256 only. -/
theorem framesEndAsAnnounced_iff {σ : Type} (pl : Build) (h : Host σ) {c : Conn σ}
    (stream : List UInt8) {rs : List RecvResult} (hc : c.Fresh) (hplaced : c.Placed pl)
    (hcut : Cut pl h c stream rs) :
    (Aligned stream ∧ AllContained pl stream → (recvAll pl h c rs).2.overrun = false ∧
        FramesEndAsAnnounced 0 (recvAll pl h c rs).2.events) ∧
      (h.RepliesSent → pl.decoder = .c →
        ((recvAll pl h c rs).2.overrun = false ∧
            FramesEndAsAnnounced 0 (recvAll pl h c rs).2.events ↔
          Aligned stream ∧ AllCountsFit pl stream)) := by
  have hrun := framesEndAsAnnounced_run StreamState.atHeader_init stream
  have hforward : Aligned stream ∧ AllContained pl stream →
      (recvAll pl h c rs).2.overrun = false ∧
        FramesEndAsAnnounced 0 (recvAll pl h c rs).2.events := by
    rintro ⟨haligned, hcontained⟩
    -- the calls may stop early, over a reply that was not sent
    obtain ⟨es, held, ⟨fs, hpre⟩, hrenders⟩ := hcut.shows pl h hc
    refine ⟨hcut.overrun pl h hc hplaced hcontained, ?_⟩
    rw [Conn.events, hrenders.events]
    have hall := hrun.mpr haligned
    rw [← streamEvents, ← hpre] at hall
    exact hall.of_append
  refine ⟨hforward, fun hreplies hpl =>
    ⟨?_, fun hcondition => hforward (hcondition.imp_right (AllCountsFit.contained hpl))⟩⟩
  rintro ⟨hoverrun, hframes⟩
  have htracks := hcut.tracks_of_overrun pl h hc hreplies hoverrun
  rw [htracks.events] at hframes
  exact ⟨hrun.mp hframes, htracks.countsFit hpl⟩

/-- A frame with one object, followed by a frame with two. -/
theorem framesEndAsAnnounced_two_frames :
    FramesEndAsAnnounced 0
      (recvAll Platform.pc Host.quiet (Conn.init 64 32 (fun _ => 0) ⟨0, []⟩ () 0)
        [.received [0, 2, 0, 1, 0, 0, 0, 0, 4], .received [0, 2, 0, 0, 0, 0, 0]]).2.events := by
  refine (((framesEndAsAnnounced_iff Platform.pc Host.quiet
    [0, 2, 0, 1, 0, 0, 0, 0, 4, 0, 2, 0, 0, 0, 0, 0] (Conn.fresh_init _ _ _ _ _ _)
    (Conn.placed_of_c rfl _) ⟨by decide, ?_, by decide +kernel⟩).2 Host.quiet_repliesSent
      rfl).mpr ⟨?_, ?_⟩).2
  · simp [RecvResult.Delivers, RecvResult.count]
  · simp [Aligned, objectEnds, u16le]
  · have haccepted : AllAccepted Platform.pc [0, 2, 0, 1, 0, 0, 0, 0, 4, 0, 2, 0, 0, 0, 0, 0] := by
      decide +kernel
    exact haccepted.countsFit

/-- A frame that announces no bytes, as `proto_send` emits for `amount == 0`,
followed by the header of another: it is completed only two bytes into that
header. -/
theorem not_framesEndAsAnnounced_empty_frame :
    ¬ FramesEndAsAnnounced 0
      (recvAll Platform.pc Host.quiet (Conn.init 64 32 (fun _ => 0) ⟨0, []⟩ () 0)
        [.received [0, 0, 0, 1, 0, 0, 0, 0, 2, 0]]).2.events := by
  have hevents : (recvAll Platform.pc Host.quiet (Conn.init 64 32 (fun _ => 0) ⟨0, []⟩ () 0)
      [.received [0, 0, 0, 1, 0, 0, 0, 0, 2, 0]]).2.events =
      [.startRequest 5 0 0 1, .object 7 0 1 [], .completeRequest 7 0 1] := by
    decide +kernel
  rw [hevents]
  simp [FramesEndAsAnnounced]

end ZxProto
