import ZxProto.Library.Transducer
import ZxProto.Process

/-!
# The frame machine

What the input of `process` is without the buffer: a byte stream, read by a
resumable transducer whose steps are the three cases of the switch.

* `StreamState`, `Event` — where the reader stands, and what happens in a
  stream, with the positions at which it happens;
* `frameStep`, `frameMachine` — the transducer;
* `streamEvents` — the events of a whole stream;
* `run_object` — the body of an object stands in the stream, where its event says;
* `StreamState.AtHeader.run_output` — a reader that expects a header sees what
  follows as a stream of its own.
-/

namespace ZxProto

open ByteMemory

/-! ## The frame machine -/

/-- Where the parser stands in a frame, and how many bytes it has passed. -/
@[ext]
structure StreamState extends FrameState where
  offset : Nat
deriving DecidableEq

/-- The start of a stream. -/
def StreamState.init : StreamState where
  toFrameState := FrameState.init
  offset := 0

/-- What happens in a stream.  Every event carries the number of bytes passed
before it: the header for `startRequest`, the size prefix for `object`, the last
object for `completeRequest`. -/
inductive Event
  | startRequest (offset : Nat) (flags : UInt8) (size requestId : UInt16)
  | object (offset : Nat) (flags : UInt8) (requestId : UInt16) (body : List UInt8)
  | completeRequest (offset : Nat) (flags : UInt8) (requestId : UInt16)
deriving DecidableEq

/-- A step: the next state, the events, the input left over. -/
abbrev FrameStep := Option (StreamState × List Event × List UInt8)

/-- The state behind a header. -/
def StreamState.passHeader (s : StreamState) (flags : UInt8) (size requestId : UInt16) :
    StreamState :=
  { s with
    state := .recvObjectSize
    recvFlags := flags
    recvSize := size
    requestId := requestId
    recvConsumed := 0
    recvObjectsNum := 0
    offset := s.offset + 5 }

/-- Five bytes of header. -/
def frameHeader (s : StreamState) : List UInt8 → FrameStep
  | flags :: sizeLo :: sizeHi :: idLo :: idHi :: rest =>
      some
        (s.passHeader flags (u16le sizeLo sizeHi) (u16le idLo idHi),
          [.startRequest (s.offset + 5) flags (u16le sizeLo sizeHi) (u16le idLo idHi)], rest)
  | _ => none

/-- The state behind an object size. -/
def StreamState.passObjectSize (s : StreamState) (objectSize : UInt16) : StreamState :=
  { s with
    state := .recvObject
    recvObjectSize := objectSize
    recvConsumed := s.recvConsumed + 2
    offset := s.offset + 2 }

/-- Two bytes of object size. -/
def frameObjectSize (s : StreamState) : List UInt8 → FrameStep
  | lo :: hi :: rest => some (s.passObjectSize (u16le lo hi), [], rest)
  | _ => none

/-- The state behind an object body. -/
def StreamState.passObject (s : StreamState) : StreamState :=
  { s with
    recvObjectsNum := s.recvObjectsNum + 1
    recvConsumed := s.recvConsumed + s.recvObjectSize
    offset := s.offset + s.recvObjectSize.toNat }

/-- An object body, and the end of the frame if it is the last. -/
def frameObject (s : StreamState) (xs : List UInt8) : FrameStep :=
  if s.recvObjectSize.toNat ≤ xs.length then
    let passed := s.passObject
    let object := Event.object s.offset s.recvFlags s.requestId (xs.take s.recvObjectSize.toNat)
    if s.recvSize ≤ passed.recvConsumed then
      some ({ passed with state := .recvHeader },
        [object, .completeRequest passed.offset s.recvFlags s.requestId],
        xs.drop s.recvObjectSize.toNat)
    else
      some ({ passed with state := .recvObjectSize }, [object], xs.drop s.recvObjectSize.toNat)
  else
    none

/-- One case of the switch, on a stream. -/
def frameStep (s : StreamState) (xs : List UInt8) : FrameStep :=
  match s.state with
  | .recvHeader => frameHeader s xs
  | .recvObjectSize => frameObjectSize s xs
  | .recvObject => frameObject s xs

/-- The unread bytes, and an object that may be empty. -/
def frameWeight (s : StreamState) (xs : List UInt8) : Nat :=
  2 * xs.length + if s.state = .recvObject then 1 else 0

theorem frameObjectSize_eq_some {s s' : StreamState} {xs ys : List UInt8} {es : List Event}
    (h : frameObjectSize s xs = some (s', es, ys)) :
    ∃ lo hi, xs = lo :: hi :: ys ∧ es = [] ∧ s' = s.passObjectSize (u16le lo hi) := by
  match xs, h with
  | lo :: hi :: rest, h =>
      cases h
      exact ⟨lo, hi, rfl, rfl, rfl⟩

theorem frameHeader_eq_some {s s' : StreamState} {xs ys : List UInt8} {es : List Event}
    (h : frameHeader s xs = some (s', es, ys)) :
    ∃ flags sizeLo sizeHi idLo idHi,
      xs = flags :: sizeLo :: sizeHi :: idLo :: idHi :: ys ∧
      es = [.startRequest (s.offset + 5) flags (u16le sizeLo sizeHi) (u16le idLo idHi)] ∧
      s' = s.passHeader flags (u16le sizeLo sizeHi) (u16le idLo idHi) := by
  match xs, h with
  | flags :: sizeLo :: sizeHi :: idLo :: idHi :: rest, h =>
      cases h
      exact ⟨flags, sizeLo, sizeHi, idLo, idHi, rfl, rfl, rfl⟩

theorem frameHeader_eq_none {s : StreamState} {xs : List UInt8} (hshort : xs.length < 5) :
    frameHeader s xs = none := by
  match xs with
  | [] | [_] | [_, _] | [_, _, _] | [_, _, _, _] => rfl
  | _ :: _ :: _ :: _ :: _ :: rest =>
      simp only [List.length_cons] at hshort
      omega

theorem frameObjectSize_eq_none {s : StreamState} {xs : List UInt8} (hshort : xs.length < 2) :
    frameObjectSize s xs = none := by
  match xs with
  | [] | [_] => rfl
  | _ :: _ :: rest =>
      simp only [List.length_cons] at hshort
      omega

theorem frameObject_eq_some {s s' : StreamState} {xs ys : List UInt8} {es : List Event}
    (h : frameObject s xs = some (s', es, ys)) :
    s.recvObjectSize.toNat ≤ xs.length ∧ ys = xs.drop s.recvObjectSize.toNat ∧
      s'.state ≠ .recvObject := by
  rw [frameObject] at h
  by_cases hsize : s.recvObjectSize.toNat ≤ xs.length
  · rw [if_pos hsize] at h
    simp only at h
    split at h <;> cases h <;> exact ⟨hsize, rfl, by simp⟩
  · rw [if_neg hsize] at h
    cases h

theorem frameStep_weight_lt {s s' : StreamState} {xs ys : List UInt8} {es : List Event}
    (h : frameStep s xs = some (s', es, ys)) : frameWeight s' ys < frameWeight s xs := by
  rw [frameStep] at h
  cases hstate : s.state with
  | recvHeader =>
      simp only [hstate] at h
      obtain ⟨_, _, _, _, _, rfl, -, rfl⟩ := frameHeader_eq_some h
      simp only [frameWeight, StreamState.passHeader, List.length_cons, reduceCtorEq, hstate,
        if_false]
      omega
  | recvObjectSize =>
      simp only [hstate] at h
      obtain ⟨_, _, rfl, -, rfl⟩ := frameObjectSize_eq_some h
      simp only [frameWeight, StreamState.passObjectSize, List.length_cons, reduceCtorEq, hstate,
        if_false, if_true]
      omega
  | recvObject =>
      simp only [hstate] at h
      obtain ⟨-, rfl, hne⟩ := frameObject_eq_some h
      simp only [frameWeight, List.length_drop, hstate, if_neg hne, if_true]
      omega

theorem frameStep_append {s s' : StreamState} {xs ys : List UInt8} {es : List Event}
    (h : frameStep s xs = some (s', es, ys)) (zs : List UInt8) :
    frameStep s (xs ++ zs) = some (s', es, ys ++ zs) := by
  rw [frameStep] at h ⊢
  cases hstate : s.state with
  | recvHeader =>
      simp only [hstate] at h ⊢
      obtain ⟨_, _, _, _, _, rfl, rfl, rfl⟩ := frameHeader_eq_some h
      rfl
  | recvObjectSize =>
      simp only [hstate] at h ⊢
      obtain ⟨_, _, rfl, rfl, rfl⟩ := frameObjectSize_eq_some h
      rfl
  | recvObject =>
      simp only [hstate] at h ⊢
      obtain ⟨hsize, -, -⟩ := frameObject_eq_some h
      have hlonger : s.recvObjectSize.toNat ≤ (xs ++ zs).length := by
        rw [List.length_append]
        omega
      -- the object is taken from the front, so what comes behind does not matter
      rw [frameObject, if_pos hsize] at h
      rw [frameObject, if_pos hlonger, List.take_append_of_le_length hsize,
        List.drop_append_of_le_length hsize]
      by_cases hdone : s.recvSize ≤ s.passObject.recvConsumed
      · simp only [if_pos hdone] at h ⊢
        cases h
        rfl
      · simp only [if_neg hdone] at h ⊢
        cases h
        rfl

/-- The frame format as a transducer. -/
def frameMachine : Transducer StreamState UInt8 Event where
  step := frameStep
  weight := frameWeight
  weight_lt := frameStep_weight_lt
  step_append := frameStep_append

/-- The events of a whole stream. -/
def streamEvents (stream : List UInt8) : List Event :=
  (frameMachine.run StreamState.init stream).output

theorem prefix_streamEvents (xs ys : List UInt8) :
    streamEvents xs <+: streamEvents (xs ++ ys) := by
  rw [streamEvents, streamEvents, frameMachine.run_append]
  exact List.prefix_append _ _

/-! ## What the machine has passed -/

theorem frameStep_consumes {s t : StreamState} {xs ys : List UInt8} {es : List Event}
    (hstep : frameStep s xs = some (t, es, ys)) :
    ∃ front, xs = front ++ ys ∧ t.offset = s.offset + front.length := by
  rw [frameStep] at hstep
  cases hstate : s.state with
  | recvHeader =>
      simp only [hstate] at hstep
      obtain ⟨flags, sizeLo, sizeHi, idLo, idHi, rfl, -, rfl⟩ := frameHeader_eq_some hstep
      exact ⟨[flags, sizeLo, sizeHi, idLo, idHi], rfl, rfl⟩
  | recvObjectSize =>
      simp only [hstate] at hstep
      obtain ⟨lo, hi, rfl, -, rfl⟩ := frameObjectSize_eq_some hstep
      exact ⟨[lo, hi], rfl, rfl⟩
  | recvObject =>
      simp only [hstate] at hstep
      obtain ⟨hle, rfl, -⟩ := frameObject_eq_some hstep
      refine ⟨xs.take s.recvObjectSize.toNat, (List.take_append_drop _ _).symm, ?_⟩
      rw [List.length_take_of_le hle]
      rw [frameObject, if_pos hle] at hstep
      simp only at hstep
      split at hstep <;> cases hstep <;> rfl

/-- The position counts the bytes that were consumed. -/
theorem steps_consumes {s t : StreamState} {xs ys : List UInt8} {es : List Event}
    (hsteps : frameMachine.Steps s xs es t ys) :
    ∃ front, xs = front ++ ys ∧ t.offset = s.offset + front.length := by
  induction hsteps with
  | refl s xs => exact ⟨[], rfl, rfl⟩
  | head hstep _ ih =>
      obtain ⟨front, rfl, hfront⟩ := frameStep_consumes hstep
      obtain ⟨front', rfl, hoffset⟩ := ih
      refine ⟨front ++ front', (List.append_assoc _ _ _).symm, ?_⟩
      rw [hoffset, hfront, List.length_append, Nat.add_assoc]

/-- The body of an object stands in the input, where its position says. -/
theorem frameStep_object {s t : StreamState} {xs ys : List UInt8} {es : List Event}
    (hstep : frameStep s xs = some (t, es, ys)) {offset : Nat} {flags : UInt8}
    {requestId : UInt16} {body : List UInt8} (hmem : .object offset flags requestId body ∈ es) :
    offset = s.offset ∧ body.length = s.recvObjectSize.toNat ∧ ∃ back, xs = body ++ back := by
  rw [frameStep] at hstep
  cases hstate : s.state with
  | recvHeader =>
      simp only [hstate] at hstep
      obtain ⟨_, _, _, _, _, -, rfl, -⟩ := frameHeader_eq_some hstep
      simp at hmem
  | recvObjectSize =>
      simp only [hstate] at hstep
      obtain ⟨_, _, -, rfl, -⟩ := frameObjectSize_eq_some hstep
      cases hmem
  | recvObject =>
      simp only [hstate] at hstep
      obtain ⟨hle, -, -⟩ := frameObject_eq_some hstep
      rw [frameObject, if_pos hle] at hstep
      simp only at hstep
      have hbody : offset = s.offset ∧ body = xs.take s.recvObjectSize.toNat := by
        split at hstep <;> cases hstep <;> simp at hmem <;> exact ⟨hmem.1, hmem.2.2.2⟩
      obtain ⟨rfl, rfl⟩ := hbody
      exact ⟨rfl, List.length_take_of_le hle, _, (List.take_append_drop _ _).symm⟩

theorem run_object {s : StreamState} {xs : List UInt8} {offset : Nat} {flags : UInt8}
    {requestId : UInt16} {body : List UInt8}
    (hmem : .object offset flags requestId body ∈ (frameMachine.run s xs).output) :
    ∃ front back, xs = front ++ body ++ back ∧ offset = s.offset + front.length ∧
      body.length < 65536 := by
  induction s, xs using frameMachine.run_induction with
  | waiting s xs hwait =>
      rw [frameMachine.run_of_none hwait] at hmem
      cases hmem
  | stepping s xs t es ys hstep ih =>
      rw [frameMachine.run_of_some hstep, Transducer.Result.prepend_output] at hmem
      rcases List.mem_append.mp hmem with hnow | hlater
      · obtain ⟨rfl, hlength, back, rfl⟩ := frameStep_object hstep hnow
        exact ⟨[], back, rfl, rfl, hlength ▸ s.recvObjectSize.toNat_lt⟩
      · obtain ⟨front, rfl, hoffset⟩ := frameStep_consumes hstep
        obtain ⟨front', back, rfl, rfl, hsize⟩ := ih hlater
        refine ⟨front ++ front', back, by simp only [List.append_assoc], ?_, hsize⟩
        rw [hoffset, List.length_append, Nat.add_assoc]

/-! ## Streams that start anywhere -/

/-- An event, seen from `n` bytes further back. -/
def Event.shift (n : Nat) : Event → Event
  | .startRequest offset flags size requestId => .startRequest (n + offset) flags size requestId
  | .object offset flags requestId body => .object (n + offset) flags requestId body
  | .completeRequest offset flags requestId => .completeRequest (n + offset) flags requestId

/-- The second reader stands where the first does, `n` bytes further on.  Only
fields that are read before they are written again have to agree. -/
structure StreamState.Alike (n : Nat) (s s' : StreamState) : Prop where
  state : s'.state = s.state
  offset : s'.offset = n + s.offset
  frame : s.state ≠ .recvHeader → s'.recvFlags = s.recvFlags ∧ s'.recvSize = s.recvSize ∧
    s'.requestId = s.requestId ∧ s'.recvConsumed = s.recvConsumed
  object : s.state = .recvObject → s'.recvObjectSize = s.recvObjectSize

section Alike

variable {n : Nat} {s s' t : StreamState} {xs ys : List UInt8} {es : List Event}

theorem StreamState.Alike.waits (h : s.Alike n s') (hwait : frameStep s xs = none) :
    frameStep s' xs = none := by
  rw [frameStep] at hwait ⊢
  rw [h.state]
  cases hstate : s.state with
  | recvHeader =>
      simp only [hstate] at hwait ⊢
      match xs with
      | [] | [_] | [_, _] | [_, _, _] | [_, _, _, _] => rfl
      | _ :: _ :: _ :: _ :: _ :: _ => cases hwait
  | recvObjectSize =>
      simp only [hstate] at hwait ⊢
      match xs with
      | [] | [_] => rfl
      | _ :: _ :: _ => cases hwait
  | recvObject =>
      simp only [hstate] at hwait ⊢
      rw [frameObject] at hwait ⊢
      rw [h.object hstate]
      by_cases hsize : s.recvObjectSize.toNat ≤ xs.length
      · rw [if_pos hsize] at hwait
        simp only at hwait
        split at hwait <;> cases hwait
      · rw [if_neg hsize]

theorem StreamState.Alike.steps (h : s.Alike n s') (hstep : frameStep s xs = some (t, es, ys)) :
    ∃ t', frameStep s' xs = some (t', es.map (Event.shift n), ys) ∧ t.Alike n t' := by
  have hoffset := h.offset
  rw [frameStep] at hstep ⊢
  rw [h.state]
  cases hstate : s.state with
  | recvHeader =>
      simp only [hstate] at hstep ⊢
      obtain ⟨flags, sizeLo, sizeHi, idLo, idHi, rfl, rfl, rfl⟩ := frameHeader_eq_some hstep
      refine ⟨s'.passHeader flags (u16le sizeLo sizeHi) (u16le idLo idHi), ?_, rfl, ?_,
        fun _ => ⟨rfl, rfl, rfl, rfl⟩, fun hobject => by cases hobject⟩
      · simp only [frameHeader, List.map_cons, List.map_nil, Event.shift, hoffset, Nat.add_assoc]
      · simp only [StreamState.passHeader]
        omega
  | recvObjectSize =>
      simp only [hstate] at hstep ⊢
      obtain ⟨lo, hi, rfl, rfl, rfl⟩ := frameObjectSize_eq_some hstep
      obtain ⟨hflags, hsize, hid, hconsumed⟩ := h.frame (by rw [hstate]; simp)
      refine ⟨_, rfl, rfl, ?_, fun _ => ⟨hflags, hsize, hid, ?_⟩, fun _ => rfl⟩
      · simp only [StreamState.passObjectSize]
        omega
      · simp only [StreamState.passObjectSize, hconsumed]
  | recvObject =>
      simp only [hstate] at hstep ⊢
      obtain ⟨hflags, hsize, hid, hconsumed⟩ := h.frame (by rw [hstate]; simp)
      have hobject := h.object hstate
      obtain ⟨hwhole, -, -⟩ := frameObject_eq_some hstep
      have hpassed : s'.passObject.recvConsumed = s.passObject.recvConsumed := by
        simp only [StreamState.passObject, hconsumed, hobject]
      have hend : s'.passObject.offset = n + s.passObject.offset := by
        simp only [StreamState.passObject, hobject, hoffset]
        omega
      rw [frameObject, if_pos hwhole] at hstep
      rw [frameObject, hobject, if_pos hwhole]
      simp only at hstep ⊢
      rw [hpassed, hsize, hflags, hid, hend, hoffset]
      by_cases hdone : s.recvSize ≤ s.passObject.recvConsumed
      · rw [if_pos hdone] at hstep ⊢
        cases hstep
        exact ⟨_, rfl, rfl, rfl, fun hne => absurd rfl hne, fun hobject => by cases hobject⟩
      · rw [if_neg hdone] at hstep ⊢
        cases hstep
        exact ⟨_, rfl, rfl, rfl, fun _ => ⟨hflags, hsize, hid, rfl⟩,
          fun hobject => by cases hobject⟩

/-- Readers that are alike see the same events. -/
theorem StreamState.Alike.run_output (h : s.Alike n s') (xs : List UInt8) :
    (frameMachine.run s' xs).output = (frameMachine.run s xs).output.map (Event.shift n) :=
  (frameMachine.run_translate StreamState.Alike.waits StreamState.Alike.steps h xs).2.1

end Alike

/-! ## A frame at a time -/

/-- The reader expects a header. -/
structure StreamState.AtHeader (s : StreamState) (offset : Nat) : Prop where
  state : s.state = .recvHeader
  offset : s.offset = offset

/-- The reader stands between two objects, `passed` bytes behind the header that
ends at `start`. -/
structure StreamState.Between (s : StreamState) (flags : UInt8) (size requestId : UInt16)
    (start passed : Nat) : Prop where
  state : s.state = .recvObjectSize
  recvFlags : s.recvFlags = flags
  recvSize : s.recvSize = size
  requestId : s.requestId = requestId
  recvConsumed : s.recvConsumed.toNat = passed % 65536
  offset : s.offset = start + passed

theorem StreamState.atHeader_init : StreamState.init.AtHeader 0 := ⟨rfl, rfl⟩

/-- A reader that expects a header sees what follows as a stream of its own. -/
theorem StreamState.AtHeader.run_output {s : StreamState} {offset : Nat} (hs : s.AtHeader offset)
    (xs : List UInt8) :
    (frameMachine.run s xs).output = (streamEvents xs).map (Event.shift offset) := by
  have halike : StreamState.init.Alike offset s :=
    ⟨hs.state, hs.offset, fun hne => absurd rfl hne, fun hobject => by cases hobject⟩
  exact halike.run_output xs

theorem steps_header {s : StreamState} {offset : Nat} (hs : s.AtHeader offset)
    (flags sizeLo sizeHi idLo idHi : UInt8) (rest : List UInt8) :
    ∃ s' : StreamState,
      s'.Between flags (u16le sizeLo sizeHi) (u16le idLo idHi) (offset + 5) 0 ∧
      frameMachine.Steps s (flags :: sizeLo :: sizeHi :: idLo :: idHi :: rest)
        [.startRequest (offset + 5) flags (u16le sizeLo sizeHi) (u16le idLo idHi)] s' rest := by
  obtain ⟨hstate, rfl⟩ := hs
  refine ⟨s.passHeader flags (u16le sizeLo sizeHi) (u16le idLo idHi),
    ⟨rfl, rfl, rfl, rfl, rfl, rfl⟩, .single ?_⟩
  change frameStep s _ = _
  rw [frameStep, hstate]
  rfl

/-- Fewer than five bytes are no header. -/
theorem step_header_eq_none {s : StreamState} {offset : Nat} (hs : s.AtHeader offset)
    {bytes : List UInt8} (hshort : bytes.length < 5) : frameMachine.step s bytes = none := by
  change frameStep s bytes = none
  rw [frameStep, hs.state]
  exact frameHeader_eq_none hshort

section Between

variable {s : StreamState} {flags : UInt8} {size requestId : UInt16} {start passed : Nat}

/-- The size prefix, and what is expected behind it. -/
theorem step_object_size (hs : s.Between flags size requestId start passed) (lo hi : UInt8)
    (rest : List UInt8) :
    frameMachine.step s (lo :: hi :: rest) = some (s.passObjectSize (u16le lo hi), [], rest) := by
  change frameStep s _ = _
  rw [frameStep, hs.state]
  rfl

/-- The 16-bit counter behind an object. -/
theorem StreamState.Between.passed_toNat (hs : s.Between flags size requestId start passed)
    (n : UInt16) :
    (s.recvConsumed + 2 + n).toNat = (passed + 2 + n.toNat) % 65536 := by
  have hconsumed := hs.recvConsumed
  have htwo : (2 : UInt16).toNat = 2 := rfl
  rw [UInt16.toNat_add, UInt16.toNat_add, hconsumed, htwo]
  omega

/-- A whole object that does not reach the announced size. -/
theorem steps_object_more (hs : s.Between flags size requestId start passed) {lo hi : UInt8}
    {rest : List UInt8} (hwhole : (u16le lo hi).toNat ≤ rest.length)
    (hmore : ¬ size.toNat ≤ (passed + 2 + (u16le lo hi).toNat) % 65536) :
    ∃ s' : StreamState,
      s'.Between flags size requestId start (passed + 2 + (u16le lo hi).toNat) ∧
      frameMachine.Steps s (lo :: hi :: rest)
        [.object (start + passed + 2) flags requestId (rest.take (u16le lo hi).toNat)]
        s' (rest.drop (u16le lo hi).toNat) := by
  have hconsumed := hs.passed_toNat (u16le lo hi)
  have hcompare : ¬ s.recvSize ≤ s.recvConsumed + 2 + u16le lo hi := by
    rw [UInt16.le_iff_toNat_le, hconsumed, hs.recvSize]
    exact hmore
  have hwhole' : (s.passObjectSize (u16le lo hi)).recvObjectSize.toNat ≤ rest.length := hwhole
  have hcompare' : ¬ (s.passObjectSize (u16le lo hi)).recvSize ≤
      (s.passObjectSize (u16le lo hi)).passObject.recvConsumed := hcompare
  have hoffset := hs.offset
  refine ⟨{ (s.passObjectSize (u16le lo hi)).passObject with state := .recvObjectSize },
    ⟨rfl, hs.recvFlags, hs.recvSize, hs.requestId, hconsumed, ?_⟩,
    .head (step_object_size hs lo hi rest) (.single ?_)⟩
  · simp only [StreamState.passObject, StreamState.passObjectSize]
    omega
  · change frameObject _ rest = _
    rw [frameObject, if_pos hwhole']
    simp only [if_neg hcompare']
    simp only [StreamState.passObject, StreamState.passObjectSize, hs.offset, hs.recvFlags,
      hs.requestId]

/-- A whole object that reaches the announced size. -/
theorem steps_object_last (hs : s.Between flags size requestId start passed) {lo hi : UInt8}
    {rest : List UInt8} (hwhole : (u16le lo hi).toNat ≤ rest.length)
    (hlast : size.toNat ≤ (passed + 2 + (u16le lo hi).toNat) % 65536) :
    ∃ s' : StreamState,
      s'.AtHeader (start + (passed + 2 + (u16le lo hi).toNat)) ∧
      frameMachine.Steps s (lo :: hi :: rest)
        [.object (start + passed + 2) flags requestId (rest.take (u16le lo hi).toNat),
          .completeRequest (start + (passed + 2 + (u16le lo hi).toNat)) flags requestId]
        s' (rest.drop (u16le lo hi).toNat) := by
  have hconsumed := hs.passed_toNat (u16le lo hi)
  have hcompare : s.recvSize ≤ s.recvConsumed + 2 + u16le lo hi := by
    rw [UInt16.le_iff_toNat_le, hconsumed, hs.recvSize]
    exact hlast
  have hwhole' : (s.passObjectSize (u16le lo hi)).recvObjectSize.toNat ≤ rest.length := hwhole
  have hcompare' : (s.passObjectSize (u16le lo hi)).recvSize ≤
      (s.passObjectSize (u16le lo hi)).passObject.recvConsumed := hcompare
  have hoffset : s.offset + 2 + (u16le lo hi).toNat =
      start + (passed + 2 + (u16le lo hi).toNat) := by
    rw [hs.offset]
    omega
  refine ⟨{ (s.passObjectSize (u16le lo hi)).passObject with state := .recvHeader },
    ⟨rfl, hoffset⟩, .head (step_object_size hs lo hi rest) (.single ?_)⟩
  change frameObject _ rest = _
  rw [frameObject, if_pos hwhole']
  simp only [if_pos hcompare']
  simp only [StreamState.passObject, StreamState.passObjectSize, hoffset, hs.recvFlags,
    hs.requestId]
  rw [hs.offset]

/-- Without a whole object nothing happens. -/
theorem run_partial_object (hs : s.Between flags size requestId start passed)
    {bytes : List UInt8}
    (hbroken : ∀ lo hi rest, bytes = lo :: hi :: rest → rest.length < (u16le lo hi).toNat) :
    (frameMachine.run s bytes).output = [] := by
  match bytes, hbroken with
  | [], _ | [_], _ =>
      rw [frameMachine.run_of_none]
      change frameStep s _ = none
      rw [frameStep, hs.state]
      exact frameObjectSize_eq_none (by simp)
  | lo :: hi :: rest, hbroken =>
      have hshort : ¬ (s.passObjectSize (u16le lo hi)).recvObjectSize.toNat ≤ rest.length :=
        Nat.not_le.mpr (hbroken lo hi rest rfl)
      rw [frameMachine.run_of_some (step_object_size hs lo hi rest),
        frameMachine.run_of_none]
      · rfl
      · change frameObject _ rest = none
        rw [frameObject, if_neg hshort]

end Between

end ZxProto
