import ZxProto.Decoder
import ZxProto.Send

/-!
# The frame parser

The receiving half of `proto.c`.  `recv_process` appends what one `recv`
returned to the process buffer, lets `process` consume whole headers, size
prefixes and objects, and moves the unconsumed tail to the front.  `process` is
a loop over a three-state switch; it can stop between any two of its reads and
is resumed by the next call.

* `ProtoProcess` — `struct proto_process_t`; `FrameState` is the part of it that
  says where the parser stands in a frame;
* `Host` — what `process` calls: the three callbacks of the application, and the
  socket's `send`;
* `Conn` — a connection: the struct, the memory of the process buffer, the
  object buffer and the application, with a ghost record of the calls, and of a
  decoder that has left the object buffer;
* `process`, `recvProcess`, `recvAll` — one call of each, and a run.
-/

namespace ZxProto

open ByteMemory

/-! ## The process struct -/

/-- `enum proto_process_state_t`. -/
inductive ProtoProcessState
  | recvHeader
  | recvObjectSize
  | recvObject
deriving DecidableEq, Repr

/-- Where the parser stands in a frame. -/
structure FrameState where
  state : ProtoProcessState
  recvFlags : UInt8
  recvSize : UInt16
  requestId : UInt16
  recvConsumed : UInt16
  recvObjectSize : UInt16
  recvObjectsNum : UInt8
deriving DecidableEq, Repr

/-- `struct proto_process_t`. -/
structure ProtoProcess extends FrameState where
  totalReceived : UInt16
  totalConsumed : UInt16
  processBuffer : Nat
  processBufferSize : UInt16
deriving DecidableEq, Repr

/-- The frame state of a zeroed struct. -/
def FrameState.init : FrameState where
  state := .recvHeader
  recvFlags := 0
  recvSize := 0
  requestId := 0
  recvConsumed := 0
  recvObjectSize := 0
  recvObjectsNum := 0

/-- `proto_init`. -/
def protoInit (processBuffer : Nat) (processBufferSize : UInt16) : ProtoProcess where
  toFrameState := FrameState.init
  totalReceived := 0
  totalConsumed := 0
  processBuffer := processBuffer
  processBufferSize := processBufferSize

/-! ## The surroundings of the parser -/

/-- The text that a `const char*` shows. -/
structure CString where
  bytes : List UInt8
  noNul : (0 : UInt8) ∉ bytes
deriving DecidableEq

/-- What `process` calls, on an application state `σ`.  The callbacks receive
the struct by reference and do not write to it; an object is shown through its
pointers into the process buffer.  Callbacks and `send` may change `errno`. -/
structure Host (σ : Type) where
  startRequest : ProtoProcess → σ → σ
  nextObject : ProtoProcess → Memory → ProtoObject → σ → σ
  /-- NULL, or a text explaining the error. -/
  completeRequest : ProtoProcess → σ → Option CString × σ
  /-- `send` on the process socket: the count or -1. -/
  send : List UInt8 → σ → Int × σ
  /-- `errno` behind the callbacks of a call that have led to a state, where it was
  `held` in front of them. -/
  errno : σ → Int → Int := fun _ held => held

/-- An application that does nothing, on a socket that takes everything. -/
def Host.quiet : Host Unit where
  startRequest _ app := app
  nextObject _ _ _ app := app
  completeRequest _ app := (none, app)
  send bytes app := (bytes.length, app)

/-- A call that `process` makes.  `offset` counts the bytes of the stream that
`data` has passed when the call is made. -/
inductive Call
  | startRequest (offset : Nat) (flags : UInt8) (size requestId : UInt16)
  | objectRead (offset : Nat) (flags : UInt8) (requestId : UInt16) (body : List UInt8)
      (result : UInt8)
  | next (flags : UInt8) (requestId : UInt16) (object : ProtoObject) (contents : List Property)
  | completeRequest (offset : Nat) (flags : UInt8) (requestId : UInt16)
deriving DecidableEq

/-- A connection. -/
structure Conn (σ : Type) where
  proto : ProtoProcess
  /-- The memory that the process buffer lies in. -/
  mem : Memory
  /-- What the 128-byte `object_buffer` holds. -/
  objectBuffer : ProtoObject
  app : σ
  errno : Int
  /-- Ghost: the position in the stream of the first byte of the buffer. -/
  base : Nat
  /-- Ghost: the calls made so far. -/
  calls : List Call
  /-- Ghost: the decoder has stored something outside of `object_buffer`, or does
  not return.  Nothing is said of the code from there on. -/
  overrun : Bool

/-- A connection as `proto_init` leaves it. -/
def Conn.init {σ : Type} (processBuffer : Nat) (processBufferSize : UInt16) (mem : Memory)
    (objectBuffer : ProtoObject) (app : σ) (errno : Int) : Conn σ where
  proto := protoInit processBuffer processBufferSize
  mem := mem
  objectBuffer := objectBuffer
  app := app
  errno := errno
  base := 0
  calls := []
  overrun := false

/-- Nothing has happened since `proto_init`. -/
def Conn.Fresh {σ : Type} (c : Conn σ) : Prop :=
  ∃ processBuffer processBufferSize mem objectBuffer app errno,
    c = Conn.init processBuffer processBufferSize mem objectBuffer app errno

theorem Conn.fresh_init {σ : Type} (processBuffer : Nat) (processBufferSize : UInt16)
    (mem : Memory) (objectBuffer : ProtoObject) (app : σ) (errno : Int) :
    (Conn.init processBuffer processBufferSize mem objectBuffer app errno).Fresh :=
  ⟨processBuffer, processBufferSize, mem, objectBuffer, app, errno, rfl⟩

/-! ## The error reply -/

/-- `declare_str_property_on_stack`; `strlen` is cut to the 16-bit size. -/
def declareStrProperty (key : UInt8) (text : CString) : ProtoStackObjectProperty where
  key := key
  value := text.bytes
  valueSize := UInt16.ofNat text.bytes.length
  valueSize_le := by
    rw [UInt16.toNat_ofNat']
    exact Nat.mod_le _ _

theorem length_chainProperties_le (chain : List ProtoStackObjectProperty) :
    (chainProperties chain).length ≤ chain.length := by
  rw [chainProperties, List.length_map]
  exact List.length_filter_le _ chain

/-- `declare_object_on_stack(response_object, 256, &error)`.  A text that does not
fit is written whole; what it overruns on the stack is not modelled. -/
def errorObject (pl : Platform) (text : CString) : OwnedObject :=
  protoObjectAssign pl pl.stack pl.responseObjectBuffer 256
    [declareStrProperty ProtoObjectPropertyKey.error.code text]
    ((length_chainProperties_le _).trans (by simp))

section Parser

variable {σ : Type} (pl : Build) (h : Host σ)

/-- The end of a request: the completion callback, and the error reply if it
returned a text.  The result says whether `process` goes on. -/
def finishRequest (proto : ProtoProcess) (app : σ) : Bool × σ :=
  let completed := h.completeRequest proto app
  match completed.1 with
  | none => (true, completed.2)
  | some text =>
      let sent := protoSendOne pl.toPlatform h.send (errorObject pl.toPlatform text) proto.requestId
        (protoFlagError ||| protoFlagResponse) completed.2
      (sent.1 == 0, sent.2)

/-! ## The loop of `process` -/

/-- The connection with the locals `available` and `data`. -/
structure ProcessLoop (σ : Type) extends Conn σ where
  available : UInt16
  data : Nat

/-- What a case of the switch does: return, or go on with the code behind it. -/
inductive Control (σ : Type)
  | ret (result : UInt8) (l : ProcessLoop σ)
  | next (l : ProcessLoop σ)

/-- Fall through to the next case. -/
def Control.fallthrough {σ : Type} (c : Control σ) (k : ProcessLoop σ → Control σ) : Control σ :=
  match c with
  | .ret result l => .ret result l
  | .next l => k l

/-- The position in the stream of the byte that `data` points at. -/
def ProcessLoop.offset {σ : Type} (l : ProcessLoop σ) : Nat :=
  l.base + (l.data - l.proto.processBuffer)

/-- `case proto_process_recv_header`. -/
def recvHeader (l : ProcessLoop σ) : Control σ :=
  if 5 ≤ l.available then
    let proto : ProtoProcess :=
      { l.proto with
        -- memcpy over the first three fields of the packed struct
        recvFlags := l.mem l.data
        recvSize := u16le (l.mem (l.data + 1)) (l.mem (l.data + 2))
        requestId := u16le (l.mem (l.data + 3)) (l.mem (l.data + 4))
        recvConsumed := 0
        recvObjectsNum := 0
        totalConsumed := l.proto.totalConsumed + 5
        state := .recvObjectSize }
    .next
      { l with
        proto := proto
        data := l.data + 5
        available := l.available - 5
        -- called when the state is that of the next case already
        app := h.startRequest proto l.app
        calls := l.calls ++
          [.startRequest (l.offset + 5) proto.recvFlags proto.recvSize proto.requestId] }
  else
    .ret 0 l

/-- `case proto_process_recv_object_size`. -/
def recvObjectSize (l : ProcessLoop σ) : Control σ :=
  if 2 ≤ l.available then
    .next
      { l with
        proto :=
          { l.proto with
            recvObjectSize := u16le (l.mem l.data) (l.mem (l.data + 1))
            totalConsumed := l.proto.totalConsumed + 2
            recvConsumed := l.proto.recvConsumed + 2
            state := .recvObject }
        available := l.available - 2
        data := l.data + 2 }
  else
    .ret 0 l

/-- `case proto_process_recv_object`.  The return value of `proto_object_read`
is not looked at. -/
def recvObject (l : ProcessLoop σ) : Control σ :=
  if l.proto.recvObjectSize ≤ l.available then
    let size := l.proto.recvObjectSize
    match pl.readObject l.objectBuffer size l.mem l.data with
    -- the frame of `process` is overwritten, or the decoder runs on
    | none => .ret 255 { l with overrun := true }
    | some read =>
        let proto : ProtoProcess :=
          { l.proto with
            recvObjectsNum := l.proto.recvObjectsNum + 1
            totalConsumed := l.proto.totalConsumed + size
            recvConsumed := l.proto.recvConsumed + size }
        let passed : ProcessLoop σ :=
          { l with
            proto := proto
            objectBuffer := read.object
            available := l.available - size
            data := l.data + size.toNat
            -- called before the counters move, also if the read failed
            app := h.nextObject l.proto l.mem read.object l.app
            calls := l.calls ++
              [.objectRead l.offset proto.recvFlags proto.requestId
                  (slice l.mem l.data size.toNat) read.result,
                .next proto.recvFlags proto.requestId read.object (read.object.contents l.mem)] }
        -- the test comes behind an object only, so a frame has at least one
        if proto.recvSize ≤ proto.recvConsumed then
          let finished := finishRequest pl h proto passed.app
          let calls := passed.calls ++
            [.completeRequest (l.offset + size.toNat) proto.recvFlags proto.requestId]
          if finished.1 then
            .next
              { passed with
                proto := { proto with state := .recvHeader }
                app := finished.2
                calls := calls }
          else
            -- `return -1` from a `uint8_t`; the state is left at the object
            .ret 255 { passed with app := finished.2, calls := calls }
        else
          .next { passed with proto := { proto with state := .recvObjectSize } }
  else
    .ret 0 l

/-- One turn of `while (1)`: the switch, with its two fallthroughs. -/
def processTurn (l : ProcessLoop σ) : Control σ :=
  match l.proto.state with
  | .recvHeader =>
      ((recvHeader h l).fallthrough recvObjectSize).fallthrough (recvObject pl h)
  | .recvObjectSize => (recvObjectSize l).fallthrough (recvObject pl h)
  | .recvObject => recvObject pl h l

/-- What is left to do: the available bytes, and an object that may be empty. -/
def ProcessLoop.weight {σ : Type} (l : ProcessLoop σ) : Nat :=
  2 * l.available.toNat + if l.proto.state = .recvObject then 1 else 0

/-- An object that is consumed leaves a state that waits for bytes. -/
theorem recvObject_next {l l' : ProcessLoop σ} (hnext : recvObject pl h l = .next l') :
    l'.available.toNat + l.proto.recvObjectSize.toNat = l.available.toNat ∧
      l'.proto.state ≠ .recvObject := by
  rw [recvObject] at hnext
  by_cases hsize : l.proto.recvObjectSize ≤ l.available
  · have hle := UInt16.le_iff_toNat_le.mp hsize
    have havailable : (l.available - l.proto.recvObjectSize).toNat +
        l.proto.recvObjectSize.toNat = l.available.toNat := by
      rw [UInt16.toNat_sub_of_le _ _ hsize]
      omega
    rw [if_pos hsize] at hnext
    simp only at hnext
    split at hnext
    · cases hnext
    · split at hnext
      · split at hnext
        · cases hnext
          exact ⟨havailable, by simp⟩
        · cases hnext
      · cases hnext
        exact ⟨havailable, by simp⟩
  · rw [if_neg hsize] at hnext
    cases hnext

theorem recvObjectSize_next {l l' : ProcessLoop σ} (hnext : recvObjectSize l = .next l') :
    l'.available.toNat + 2 = l.available.toNat ∧ l'.proto.state = .recvObject := by
  rw [recvObjectSize] at hnext
  by_cases hsize : 2 ≤ l.available
  · have hle : 2 ≤ l.available.toNat := UInt16.le_iff_toNat_le.mp hsize
    rw [if_pos hsize] at hnext
    cases hnext
    refine ⟨?_, rfl⟩
    simp only
    rw [UInt16.toNat_sub_of_le _ _ hsize]
    exact Nat.sub_add_cancel hle
  · rw [if_neg hsize] at hnext
    cases hnext

theorem recvHeader_next {l l' : ProcessLoop σ} (hnext : recvHeader h l = .next l') :
    l'.available.toNat + 5 = l.available.toNat ∧ l'.proto.state = .recvObjectSize := by
  rw [recvHeader] at hnext
  by_cases hsize : 5 ≤ l.available
  · have hle : 5 ≤ l.available.toNat := UInt16.le_iff_toNat_le.mp hsize
    rw [if_pos hsize] at hnext
    cases hnext
    refine ⟨?_, rfl⟩
    simp only
    rw [UInt16.toNat_sub_of_le _ _ hsize]
    exact Nat.sub_add_cancel hle
  · rw [if_neg hsize] at hnext
    cases hnext

theorem Control.fallthrough_eq_next {c : Control σ} {k : ProcessLoop σ → Control σ}
    {l' : ProcessLoop σ} (hnext : c.fallthrough k = .next l') :
    ∃ l, c = .next l ∧ k l = .next l' := by
  cases c with
  | ret result l => cases hnext
  | next l => exact ⟨l, rfl, hnext⟩

/-- A turn that goes on has consumed something, or an empty object. -/
theorem processTurn_next {l l' : ProcessLoop σ} (hnext : processTurn pl h l = .next l') :
    l'.weight < l.weight := by
  rw [processTurn] at hnext
  cases hstate : l.proto.state with
  | recvHeader =>
      simp only [hstate] at hnext
      -- both fallthroughs: header, size and object in one turn
      obtain ⟨l₂, hturn, hobject⟩ := Control.fallthrough_eq_next hnext
      obtain ⟨l₁, hheader, hsize⟩ := Control.fallthrough_eq_next hturn
      have h₁ := recvHeader_next h hheader
      have h₂ := recvObjectSize_next hsize
      have h₃ := recvObject_next pl h hobject
      simp only [ProcessLoop.weight, if_neg h₃.2, hstate, reduceCtorEq, if_false]
      omega
  | recvObjectSize =>
      simp only [hstate] at hnext
      obtain ⟨l₂, hsize, hobject⟩ := Control.fallthrough_eq_next hnext
      have h₂ := recvObjectSize_next hsize
      have h₃ := recvObject_next pl h hobject
      simp only [ProcessLoop.weight, if_neg h₃.2, hstate, reduceCtorEq, if_false]
      omega
  | recvObject =>
      simp only [hstate] at hnext
      have h₃ := recvObject_next pl h hnext
      simp only [ProcessLoop.weight, if_neg h₃.2, hstate, if_true]
      omega

/-- `while (1)`. -/
def processLoop (l : ProcessLoop σ) : UInt8 × ProcessLoop σ :=
  match _hturn : processTurn pl h l with
  | .ret result l' => (result, l')
  | .next l' => processLoop l'
termination_by l.weight
decreasing_by exact processTurn_next pl h _hturn

/-- The case of the switch that the state selects, without the fallthroughs. -/
def caseStep (l : ProcessLoop σ) : Control σ :=
  match l.proto.state with
  | .recvHeader => recvHeader h l
  | .recvObjectSize => recvObjectSize l
  | .recvObject => recvObject pl h l

/-- Go on with the loop, if the control says so. -/
def Control.resume (c : Control σ) : UInt8 × ProcessLoop σ :=
  match c with
  | .ret result l => (result, l)
  | .next l => processLoop pl h l

theorem processLoop_eq_turn (l : ProcessLoop σ) :
    processLoop pl h l = (processTurn pl h l).resume pl h := by
  rw [processLoop]
  split
  · next hturn => rw [hturn]; rfl
  · next hturn => rw [hturn]; rfl

/-- Every case sets `state` to the case that it falls into, so the loop runs one
case at a time. -/
theorem processLoop_eq_case (l : ProcessLoop σ) :
    processLoop pl h l = (caseStep pl h l).resume pl h := by
  rw [processLoop_eq_turn, processTurn, caseStep]
  cases hstate : l.proto.state with
  | recvHeader =>
      simp only
      cases hheader : recvHeader h l with
      | ret result l₁ => rfl
      | next l₁ =>
          simp only [Control.fallthrough, Control.resume]
          rw [processLoop_eq_turn, processTurn, (recvHeader_next h hheader).2]
          rfl
  | recvObjectSize =>
      simp only
      cases hsize : recvObjectSize l with
      | ret result l₁ => rfl
      | next l₁ =>
          simp only [Control.fallthrough, Control.resume]
          rw [processLoop_eq_turn, processTurn, (recvObjectSize_next hsize).2]
          rfl
  | recvObject => rfl

theorem caseStep_next {l l' : ProcessLoop σ} (hnext : caseStep pl h l = .next l') :
    l'.weight < l.weight := by
  rw [caseStep] at hnext
  cases hstate : l.proto.state with
  | recvHeader =>
      simp only [hstate] at hnext
      have h₁ := recvHeader_next h hnext
      simp only [ProcessLoop.weight, h₁.2, hstate, reduceCtorEq, if_false]
      omega
  | recvObjectSize =>
      simp only [hstate] at hnext
      have h₂ := recvObjectSize_next hnext
      simp only [ProcessLoop.weight, h₂.2, hstate, reduceCtorEq, if_false, if_true]
      omega
  | recvObject =>
      simp only [hstate] at hnext
      have h₃ := recvObject_next pl h hnext
      simp only [ProcessLoop.weight, if_neg h₃.2, hstate, if_true]
      omega

/-- Induction along the loop: one rule for a case that returns, one for a case
that goes on. -/
theorem processLoop_induction {motive : ProcessLoop σ → UInt8 × ProcessLoop σ → Prop}
    (returns : ∀ l result l', caseStep pl h l = .ret result l' → motive l (result, l'))
    (goesOn : ∀ l l', caseStep pl h l = .next l' → motive l' (processLoop pl h l') →
      motive l (processLoop pl h l'))
    (l : ProcessLoop σ) : motive l (processLoop pl h l) := by
  induction hn : l.weight using Nat.strongRecOn generalizing l with
  | _ n ih =>
      -- induction on the weight, over single cases instead of turns
      rw [processLoop_eq_case]
      cases hstep : caseStep pl h l with
      | ret result l' => exact returns l result l' hstep
      | next l' =>
          exact goesOn l l' hstep (ih _ (hn ▸ caseStep_next pl h hstep) l' rfl)

/-- The locals as `process` sets them up. -/
def Conn.enter {σ : Type} (c : Conn σ) : ProcessLoop σ :=
  { c with
    proto := { c.proto with totalConsumed := 0 }
    available := c.proto.totalReceived
    data := c.proto.processBuffer }

/-- `process`. -/
def process (c : Conn σ) : UInt8 × Conn σ :=
  let done := processLoop pl h c.enter
  (done.1, done.2.toConn)

/-! ## `recv_process` -/

/-- What `recv` gives: bytes (none at the end of the stream), or -1 and an `errno`. -/
inductive RecvResult
  | received (bytes : List UInt8)
  | failed (errno : Int)
deriving DecidableEq

/-- The bytes that a `recv` puts into the buffer. -/
def RecvResult.bytes : RecvResult → List UInt8
  | .received bytes => bytes
  | .failed _ => []

/-- `n_received`. -/
def RecvResult.count : RecvResult → Int
  | .received bytes => bytes.length
  | .failed _ => -1

/-- `errno` behind the call. -/
def RecvResult.errno (held : Int) : RecvResult → Int
  | .received _ => held
  | .failed errno => errno

def ewouldblock : Int := 11

/-- The tests behind the processing, in the POSIX build. -/
def recvStatus (errno nReceived : Int) : Int :=
  if pl.nonblockingRecv then
    -- `errno` is looked at whether or not `recv` has failed
    if nReceived = 0 then errno
    else if errno = ewouldblock then 0
    else if nReceived ≤ 0 then errno
    else 0
  else if nReceived ≤ 0 then -2
  else 0

/-- The free space that `recv` is offered. -/
def Conn.afford {σ : Type} (c : Conn σ) : UInt16 :=
  c.proto.processBufferSize - c.proto.totalReceived

/-- Move the unconsumed bytes to the front of the buffer. -/
def Conn.compact {σ : Type} (c : Conn σ) : Conn σ :=
  let proto := c.proto
  if proto.totalConsumed = proto.totalReceived then
    { c with
      proto := { proto with totalConsumed := 0, totalReceived := 0 }
      base := c.base + proto.totalConsumed.toNat }
  else
    { c with
      mem := store c.mem
        -- `memmove`: the ranges may overlap, and all is read before it is written
        ⟨proto.processBuffer,
          slice c.mem (proto.processBuffer + proto.totalConsumed.toNat)
            (proto.totalReceived - proto.totalConsumed).toNat⟩
      proto := { proto with totalReceived := proto.totalReceived - proto.totalConsumed }
      base := c.base + proto.totalConsumed.toNat }

/-- The connection after `recv`, with the new bytes behind the unconsumed ones. -/
def Conn.receive {σ : Type} (c : Conn σ) (bytes : List UInt8) : Conn σ :=
  { c with
    mem := store c.mem ⟨c.proto.processBuffer + c.proto.totalReceived.toNat, bytes⟩
    proto := { c.proto with totalReceived := c.proto.totalReceived + UInt16.ofNat bytes.length } }

/-- `recv_process`, given what `recv` returns. -/
def recvProcess (c : Conn σ) (r : RecvResult) : Int × Conn σ :=
  let c := { c with errno := r.errno c.errno }
  if 0 < r.count then
    let processed := process pl h (c.receive r.bytes)
    let behind := { processed.2 with errno := h.errno processed.2.app c.errno }
    if processed.1 ≠ 0 then
      (-1, behind)
    else
      (recvStatus pl behind.errno r.count, behind.compact)
  else
    (recvStatus pl c.errno r.count, c)

/-- Calls of `recv_process` as long as they return 0. -/
def recvAll (c : Conn σ) : List RecvResult → Int × Conn σ
  | [] => (0, c)
  | r :: rs =>
      let called := recvProcess pl h c r
      if called.1 ≠ 0 then called else recvAll called.2 rs

theorem recvAll_cons_of_zero {c : Conn σ} {r : RecvResult} (hzero : (recvProcess pl h c r).1 = 0)
    (rs : List RecvResult) :
    recvAll pl h c (r :: rs) = recvAll pl h (recvProcess pl h c r).2 rs :=
  if_neg (not_not.mpr hzero)

theorem recvAll_cons_of_ne_zero {c : Conn σ} {r : RecvResult}
    (hne : (recvProcess pl h c r).1 ≠ 0) (rs : List RecvResult) :
    recvAll pl h c (r :: rs) = recvProcess pl h c r :=
  if_pos hne

theorem recvAll_singleton (c : Conn σ) (r : RecvResult) :
    (recvAll pl h c [r]).2 = (recvProcess pl h c r).2 := by
  simp only [recvAll]
  split <;> rfl

/-- No `recv` along the run gives more than it was offered. -/
def Fits (c : Conn σ) : List RecvResult → Prop
  | [] => True
  | r :: rs =>
      r.bytes.length ≤ c.afford.toNat ∧
        ((recvProcess pl h c r).1 = 0 → Fits (recvProcess pl h c r).2 rs)

instance decidableFits (c : Conn σ) (rs : List RecvResult) : Decidable (Fits pl h c rs) :=
  match rs with
  | [] => .isTrue trivial
  | r :: rs =>
      have := decidableFits (recvProcess pl h c r).2 rs
      inferInstanceAs (Decidable (_ ∧ (_ → _)))

end Parser

/-- The bytes that a sequence of `recv` results delivers. -/
def received (rs : List RecvResult) : List UInt8 :=
  rs.flatMap RecvResult.bytes

end ZxProto
