import ZxProto.Send

/-!
# Sockets that take a part

`send` may take fewer bytes than it is given, and a socket that does not block does so
when its buffer is nearly full.  The senders look for -1 only.

* `SendResult`, `answers` — what `send` gives for each of some buffers in turn;
* `answerNext` — a socket that gives these answers and keeps them;
* `Sender` — the two functions that send objects, with their buffers and their frame;
* `Sender.run_eq` — a sender hands out its buffers one after another until one fails;
* `SuccessMeansWhole`, `successMeansWhole_iff` — when 0 says that the frame went out.
-/

namespace ZxProto

/-! ## Answers -/

/-- A call of `send`: the buffer, and what it gives, a count or -1. -/
structure SendResult where
  buffer : List UInt8
  result : Int
deriving DecidableEq

/-- The bytes that the socket has taken. -/
def SendResult.taken (a : SendResult) : List UInt8 :=
  a.buffer.take a.result.toNat

def accepted (calls : List SendResult) : List UInt8 :=
  calls.flatMap SendResult.taken

/-- What `send` gives for the buffers, from call number `k` on. -/
def answers (results : Nat → Int) (k : Nat) : List (List UInt8) → List SendResult
  | [] => []
  | buffer :: buffers => ⟨buffer, results k⟩ :: answers results (k + 1) buffers

/-- -1, or a count from 1 to the length of the buffer. -/
def SendResult.Possible (a : SendResult) : Prop :=
  a.result = -1 ∨ 1 ≤ a.result ∧ a.result ≤ a.buffer.length

instance (a : SendResult) : Decidable a.Possible :=
  inferInstanceAs (Decidable (_ ∨ _))

/-- A socket that keeps its calls. -/
def answerNext (results : Nat → Int) (buffer : List UInt8) (calls : List SendResult) :
    Int × List SendResult :=
  (results calls.length, calls ++ [⟨buffer, results calls.length⟩])

/-- Hand out buffers one after another, up to one that fails. -/
def handOut {σ : Type} (send : List UInt8 → σ → Int × σ) : List (List UInt8) → σ → Bool × σ
  | [], s => (true, s)
  | buffer :: buffers, s =>
      let sent := send buffer s
      if sent.1 < 0 then (false, sent.2) else handOut send buffers sent.2

/-- The calls for some buffers, up to one that fails. -/
def callsUntilError : List SendResult → List SendResult
  | [] => []
  | a :: rest => if a.result < 0 then [a] else a :: callsUntilError rest

/-- None of them fails. -/
def AllTaken (calls : List SendResult) : Prop :=
  ∀ a ∈ calls, 0 ≤ a.result

instance (calls : List SendResult) : Decidable (AllTaken calls) :=
  inferInstanceAs (Decidable (∀ a ∈ calls, 0 ≤ a.result))

theorem callsUntilError_of_allTaken {calls : List SendResult} (h : AllTaken calls) :
    callsUntilError calls = calls := by
  induction calls with
  | nil => rfl
  | cons a rest ih =>
      rw [callsUntilError, if_neg (Int.not_lt.mpr (h a List.mem_cons_self)),
        ih fun b hb => h b (List.mem_cons_of_mem a hb)]

/-- Nothing is sent behind a call that fails. -/
theorem callsUntilError_of_error {calls : List SendResult} (h : ¬ AllTaken calls) :
    ∃ before last, callsUntilError calls = before ++ [last] ∧ last.result < 0 ∧
      AllTaken before := by
  induction calls with
  | nil => exact absurd (fun a ha => absurd ha List.not_mem_nil) h
  | cons a rest ih =>
      rw [callsUntilError]
      by_cases hfails : a.result < 0
      · rw [if_pos hfails]
        exact ⟨[], a, rfl, hfails, fun b hb => absurd hb List.not_mem_nil⟩
      · have hrest : ¬ AllTaken rest := by
          intro hall
          apply h
          intro b hb
          rcases List.mem_cons.mp hb with rfl | hb
          · exact Int.not_lt.mp hfails
          · exact hall b hb
        obtain ⟨before, last, hsplit, hlast, hbefore⟩ := ih hrest
        rw [if_neg hfails, hsplit]
        refine ⟨a :: before, last, rfl, hlast, fun b hb => ?_⟩
        rcases List.mem_cons.mp hb with rfl | hb
        · exact Int.not_lt.mp hfails
        · exact hbefore b hb

/-- As much is taken as is offered, or less. -/
theorem length_accepted_le (calls : List SendResult) :
    (accepted calls).length ≤ (calls.map SendResult.buffer).flatten.length := by
  induction calls with
  | nil => exact le_rfl
  | cons a rest ih =>
      have htaken : a.taken.length ≤ a.buffer.length := List.length_take_le' _ _
      simp only [accepted, List.flatMap_cons, List.map_cons, List.flatten_cons,
        List.length_append] at ih ⊢
      omega

/-- Everything is taken if every call takes its buffer. -/
theorem accepted_eq_flatten_iff {calls : List SendResult} (hpossible : ∀ a ∈ calls, a.Possible)
    (hall : AllTaken calls) :
    accepted calls = (calls.map SendResult.buffer).flatten ↔
      ∀ a ∈ calls, a.result = a.buffer.length := by
  induction calls with
  | nil => exact ⟨fun _ a ha => absurd ha List.not_mem_nil, fun _ => rfl⟩
  | cons a rest ih =>
      have hrest := ih (fun b hb => hpossible b (List.mem_cons_of_mem a hb))
        fun b hb => hall b (List.mem_cons_of_mem a hb)
      have hnonneg := hall a List.mem_cons_self
      have hbound : a.result ≤ a.buffer.length := by
        rcases hpossible a List.mem_cons_self with hminus | ⟨-, hle⟩
        · omega
        · exact hle
      have htaken : a.taken.length = a.result.toNat := List.length_take_of_le (by omega)
      have hcons : accepted (a :: rest) = a.taken ++ accepted rest := List.flatMap_cons
      rw [hcons, List.map_cons, List.flatten_cons, List.forall_mem_cons, ← hrest]
      constructor
      · intro heq
        -- what is missing anywhere is missing at the end
        have hlength := congrArg List.length heq
        have hle := length_accepted_le rest
        rw [List.length_append, List.length_append] at hlength
        have hwhole : a.taken.length = a.buffer.length := by omega
        exact ⟨by omega, (List.append_inj heq hwhole).2⟩
      · rintro ⟨hwhole, heq⟩
        have hfront : a.taken = a.buffer := List.take_of_length_le (by omega)
        rw [hfront, heq]

/-- Such buffers leave these calls on the socket. -/
theorem handOut_answerNext (results : Nat → Int) (buffers : List (List UInt8))
    (calls : List SendResult) :
    handOut (answerNext results) buffers calls =
      (decide (AllTaken (answers results calls.length buffers)),
        calls ++ callsUntilError (answers results calls.length buffers)) := by
  induction buffers generalizing calls with
  | nil =>
      have hnone : AllTaken (answers results calls.length []) :=
        fun a ha => absurd ha List.not_mem_nil
      rw [handOut, decide_eq_true hnone]
      exact congrArg (Prod.mk true) (List.append_nil calls).symm
  | cons buffer buffers ih =>
      have hall : AllTaken (answers results calls.length (buffer :: buffers)) ↔
          0 ≤ results calls.length ∧ AllTaken (answers results (calls.length + 1) buffers) :=
        List.forall_mem_cons
      have hnext : (answerNext results buffer calls).2 =
          calls ++ [⟨buffer, results calls.length⟩] := rfl
      rw [handOut, answers, callsUntilError]
      by_cases hfails : results calls.length < 0
      · have hnot : ¬ AllTaken (answers results calls.length (buffer :: buffers)) :=
          fun h => absurd (hall.mp h).1 (Int.not_le.mpr hfails)
        have hsent : (answerNext results buffer calls).1 < 0 := hfails
        rw [if_pos hfails]
        simp only [if_pos hsent, hnext]
        exact congrArg (Prod.mk · _) (decide_eq_false hnot).symm
      · have hiff := hall.trans (and_iff_right (Int.not_lt.mp hfails))
        have hsent : ¬ (answerNext results buffer calls).1 < 0 := hfails
        have hlength : (calls ++ [(⟨buffer, results calls.length⟩ : SendResult)]).length =
            calls.length + 1 := List.length_append
        rw [answers] at hiff
        rw [if_neg hfails]
        simp only [if_neg hsent, hnext]
        rw [ih, hlength, decide_eq_decide.mpr hiff, List.append_assoc, List.singleton_append]

theorem map_buffer_answers (results : Nat → Int) (k : Nat) (buffers : List (List UInt8)) :
    (answers results k buffers).map SendResult.buffer = buffers := by
  induction buffers generalizing k with
  | nil => rfl
  | cons buffer buffers ih => rw [answers, List.map_cons, ih]

/-! ## The senders -/

section Senders

variable (pl : Platform)

/-- The functions that send objects. -/
inductive Sender
  | protoSend (objects : List OwnedObject) (amount : UInt8)
  | protoSendOne (object : OwnedObject)

variable (requestId : UInt16) (flags : UInt8)

/-- The function, over any socket. -/
def Sender.run {σ : Type} (send : List UInt8 → σ → Int × σ) : Sender → σ → Int × σ
  | .protoSend objects amount => ZxProto.protoSend pl send objects amount requestId flags
  | .protoSendOne object => ZxProto.protoSendOne pl send object requestId flags

/-- The buffers that are to go out. -/
def Sender.buffers : Sender → List (List UInt8)
  | .protoSend objects amount => sendBuffers pl objects amount requestId flags
  | .protoSendOne object => [sendOneBytes pl object requestId flags]

/-- The objects of the frame. -/
def Sender.objects : Sender → List OwnedObject
  | .protoSend objects amount => objects.take amount.toNat
  | .protoSendOne object => [object]

/-- The complete frame. -/
def Sender.frame (sender : Sender) : List UInt8 :=
  headerBytes flags (requestSize sender.objects) requestId ++
    sender.objects.flatMap (objectBytes pl)

/-- The buffers are the frame, in order. -/
theorem Sender.flatten_buffers (sender : Sender) :
    (sender.buffers pl requestId flags).flatten = sender.frame pl requestId flags := by
  cases sender with
  | protoSend objects amount => exact flatten_sendBuffers_eq objects amount requestId flags
  | protoSendOne object =>
      have hsize : requestSize [object] = object.object.objectSize + 2 := UInt16.zero_add _
      unfold Sender.buffers Sender.frame Sender.objects
      rw [List.flatten_singleton, List.flatMap_singleton, sendOneBytes_eq_sentBody,
        objectBytes_eq_sentBody, hsize]

/-- The loop of `proto_send` that sends one buffer per object. -/
theorem sendObjects_eq {σ : Type} (send : List UInt8 → σ → Int × σ) (objects : List OwnedObject)
    (s : σ) :
    sendObjects pl send objects s =
      (if (handOut send (objects.map (objectBytes pl)) s).1 then 0 else 3,
        (handOut send (objects.map (objectBytes pl)) s).2) := by
  induction objects generalizing s with
  | nil => rfl
  | cons o objects ih =>
      rw [sendObjects, List.map_cons, handOut]
      by_cases hfails : (send (objectBytes pl o) s).1 < 0
      · rw [if_pos hfails, if_pos hfails]
        rfl
      · rw [if_neg hfails, if_neg hfails, ih]

theorem ite_three_eq_zero_iff (b : Bool) : (if b then (0 : Int) else 3) = 0 ↔ b = true := by
  cases b <;> decide

/-- A sender hands out its buffers, and returns 0 if none failed. -/
theorem Sender.run_eq {σ : Type} (send : List UInt8 → σ → Int × σ) (sender : Sender) (s : σ) :
    ((sender.run pl requestId flags send s).1 = 0 ↔
        (handOut send (sender.buffers pl requestId flags) s).1 = true) ∧
      (sender.run pl requestId flags send s).2 =
        (handOut send (sender.buffers pl requestId flags) s).2 := by
  cases sender with
  | protoSend objects amount =>
      simp only [Sender.run, Sender.buffers, ZxProto.protoSend, sendBuffers]
      cases pl.combineObjectsUponSending with
      | true =>
          simp only [if_true, handOut]
          split
          · exact ⟨by simp, rfl⟩
          · exact ⟨by simp, rfl⟩
      | false =>
          simp only [Bool.false_eq_true, if_false, handOut]
          split
          · exact ⟨by simp, rfl⟩
          · rw [sendObjects_eq]
            exact ⟨ite_three_eq_zero_iff _, rfl⟩
  | protoSendOne object =>
      simp only [Sender.run, Sender.buffers, ZxProto.protoSendOne, handOut]
      split
      · exact ⟨by simp, rfl⟩
      · exact ⟨by simp, rfl⟩

/-! ## What success means -/

variable (results : Nat → Int)

/-- A sender that returns 0 has got its frame accepted, whole and in order; one that
returns another value has sent nothing behind the call that failed. -/
structure SuccessMeansWhole (sender : Sender) : Prop where
  whole : (sender.run pl requestId flags (answerNext results) []).1 = 0 →
    accepted (sender.run pl requestId flags (answerNext results) []).2 =
      sender.frame pl requestId flags
  stops : (sender.run pl requestId flags (answerNext results) []).1 ≠ 0 →
    ∃ before last, (sender.run pl requestId flags (answerNext results) []).2 = before ++ [last] ∧
      last.result < 0 ∧ ∀ a ∈ before, 0 ≤ a.result

variable {pl requestId flags results}

/-- **When success means the whole frame.**  Whatever `send` may give for the buffers: if
it fails for one of them, or takes each of them whole. -/
theorem successMeansWhole_iff {sender : Sender}
    (hpossible : ∀ a ∈ answers results 0 (sender.buffers pl requestId flags), a.Possible) :
    SuccessMeansWhole pl requestId flags results sender ↔
      (∃ a ∈ answers results 0 (sender.buffers pl requestId flags), a.result < 0) ∨
        ∀ a ∈ answers results 0 (sender.buffers pl requestId flags),
          a.result = a.buffer.length := by
  obtain ⟨hzero, hcalls⟩ := sender.run_eq pl requestId flags (answerNext results) []
  have hbuffers := map_buffer_answers results 0 (sender.buffers pl requestId flags)
  have hframe := sender.flatten_buffers pl requestId flags
  rw [handOut_answerNext] at hzero hcalls
  simp only [List.length_nil, List.nil_append, decide_eq_true_eq] at hzero hcalls
  generalize answers results 0 (sender.buffers pl requestId flags) = calls at *
  rw [← hbuffers] at hframe
  by_cases hall : AllTaken calls
  · have hnone : ¬ ∃ a ∈ calls, a.result < 0 := by
      rintro ⟨a, ha, hfails⟩
      exact absurd (hall a ha) (Int.not_le.mpr hfails)
    have hwhole := accepted_eq_flatten_iff hpossible hall
    rw [callsUntilError_of_allTaken hall] at hcalls
    rw [hframe] at hwhole
    rw [or_iff_right hnone, ← hwhole, ← hcalls]
    constructor
    · intro hsuccess
      exact hsuccess.whole (hzero.mpr hall)
    · intro heq
      exact ⟨fun _ => heq, fun hne => absurd (hzero.mpr hall) hne⟩
  · have herror : ∃ a ∈ calls, a.result < 0 := by
      by_contra hnone
      exact hall fun a ha => Int.not_lt.mp fun hfails => hnone ⟨a, ha, hfails⟩
    refine iff_of_true ⟨fun hsuccess => absurd (hzero.mp hsuccess) hall, fun _ => ?_⟩
      (Or.inl herror)
    rw [hcalls]
    exact callsUntilError_of_error hall

/-- An object on the heap, sent in a frame of 11 bytes that is taken whole. -/
theorem successMeansWhole_of_whole :
    SuccessMeansWhole .pc 7 0 (fun _ => 11)
      (.protoSend [protoObjectAllocate .pc (fun _ => 0) 8192
        [⟨ProtoObjectPropertyKey.payload.code, [7], 1, Nat.le_refl 1⟩] (by decide)] 1) :=
  (successMeansWhole_iff (by decide +kernel)).mpr (Or.inr (by decide +kernel))

/-- The same object, of whose frame only one byte is taken: `proto_send` returns 0. -/
theorem not_successMeansWhole_of_one :
    let sender : Sender := .protoSend [protoObjectAllocate .pc (fun _ => 0) 8192
      [⟨ProtoObjectPropertyKey.payload.code, [7], 1, Nat.le_refl 1⟩] (by decide)] 1
    (∀ a ∈ answers (fun _ => 1) 0 (sender.buffers .pc 7 0), a.Possible) ∧
      ¬ SuccessMeansWhole .pc 7 0 (fun _ => 1) sender := by
  refine ⟨by decide +kernel, fun hsuccess => ?_⟩
  exact absurd (hsuccess.whole (by decide +kernel)) (by decide +kernel)

end Senders

end ZxProto
