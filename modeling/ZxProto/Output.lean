import ZxProto.Processor

/-!
# What an endpoint sends

The ghost record of frames against the bytes on the socket, and which frames a
callback adds to it.

* `Application.Reliable`, `Endpoint.WireShows` — on a socket that takes
  everything, the bytes on it are the frames recorded;
* `SentFrame.IsRequest`, `Follows.frames_eq` — application code sends requests
  only;
* `settles_frames` — the last part of a callback sends at most one frame, a
  response with the id of the frame received;
* `react_frames` — the frames that a callback sends.
-/

namespace ZxProto

open ByteMemory

section Output

variable {pl : Platform} {κ τ : Type} {a : Application pl κ τ}

/-! ## The bytes on the socket -/

/-- The socket takes everything. -/
def Application.Reliable (a : Application pl κ τ) : Prop :=
  ∀ n, a.accepts n = true

/-- The bytes on the socket are those of the frames recorded. -/
def Endpoint.WireShows (e : Endpoint pl κ τ) : Prop :=
  e.wire = e.frames.flatMap SentFrame.bytes

theorem Application.Reliable.send_eq (ha : a.Reliable) (bytes : List UInt8)
    (e : Endpoint pl κ τ) :
    e.send a bytes =
      ((bytes.length : Int), { e with sends := e.sends + 1, wire := e.wire ++ bytes }) := by
  rw [Endpoint.send, if_pos (ha e.sends)]

theorem Application.Reliable.send_nonneg (ha : a.Reliable) (bytes : List UInt8)
    (e : Endpoint pl κ τ) : 0 ≤ (e.send a bytes).1 := by
  rw [ha.send_eq]
  exact Int.natCast_nonneg bytes.length

/-- The frame recorded for `proto_send_one` is what it sends. -/
theorem bytes_eq_sendOneBytes (origin : Origin pl) (flags : UInt8) (requestId : UInt16)
    (o : OwnedObject) (during : Nat) :
    (SentFrame.mk origin flags requestId [sentBody pl o] during).bytes =
      sendOneBytes pl o requestId flags := by
  rw [sendOneBytes_eq_sentBody, SentFrame.bytes, SentFrame.size]
  simp [bodyWire]

/-- The frame recorded for `proto_send` is what it sends. -/
theorem bytes_eq_sendBuffers (objects : List (SendableObject pl)) (origin : Origin pl)
    (flags : UInt8) (requestId : UInt16) (during : Nat) :
    (SentFrame.mk origin flags requestId
      ((sentObjects objects).map fun object => sentBody pl object.object) during).bytes =
      (sendBuffers pl (objects.map SendableObject.object) (UInt8.ofNat objects.length) requestId
        flags).flatten := by
  -- `proto_send` takes the number of objects modulo 256, and so does the record
  have htake : (objects.map SendableObject.object).take (UInt8.ofNat objects.length).toNat =
      (sentObjects objects).map SendableObject.object := by
    rw [sentObjects, List.map_take]
  have hbytes : ((sentObjects objects).map SendableObject.object).flatMap (objectBytes pl) =
      ((sentObjects objects).map fun object => sentBody pl object.object).flatMap bodyWire := by
    rw [List.flatMap_map, List.flatMap_map]
    refine List.flatMap_congr fun object _ => ?_
    rw [objectBytes_eq_sentBody, bodyWire, length_sentBody, UInt16.ofNat_toNat]
  have hsize : requestSize ((sentObjects objects).map SendableObject.object) =
      UInt16.ofNat (((sentObjects objects).map fun object => sentBody pl object.object).map
        fun body => body.length + 2).sum := by
    rw [requestSize_eq_sum, List.map_map, List.map_map]
    simp only [Function.comp_def, length_sentBody]
  rw [flatten_sendBuffers_eq, htake, hbytes, hsize, SentFrame.bytes, SentFrame.size]

theorem Endpoint.WireShows.note_one (ha : a.Reliable) {e : Endpoint pl κ τ} (he : e.WireShows)
    (origin : Origin pl) (flags : UInt8) (requestId : UInt16) (o : OwnedObject) :
    (protoSendOne pl (Endpoint.send a) o requestId flags
      (e.note origin flags requestId [sentBody pl o])).2.WireShows := by
  rw [protoSendOne_of_success pl ha.send_nonneg, ha.send_eq]
  show e.wire ++ _ = (e.frames ++ [_]).flatMap SentFrame.bytes
  rw [List.flatMap_append, ← he, List.flatMap_singleton, bytes_eq_sendOneBytes]

theorem sendAll_eq_of_reliable (ha : a.Reliable) (buffers : List (List UInt8))
    (e : Endpoint pl κ τ) :
    (sendAll (Endpoint.send a) buffers e).wire = e.wire ++ buffers.flatten ∧
      (sendAll (Endpoint.send a) buffers e).frames = e.frames := by
  induction buffers generalizing e with
  | nil => exact ⟨(List.append_nil _).symm, rfl⟩
  | cons buffer buffers ih =>
      obtain ⟨hwire, hframes⟩ := ih (e.send a buffer).2
      rw [ha.send_eq] at hwire hframes
      constructor
      · show (sendAll (Endpoint.send a) buffers (e.send a buffer).2).wire = _
        rw [ha.send_eq, hwire, List.flatten_cons, List.append_assoc]
      · show (sendAll (Endpoint.send a) buffers (e.send a buffer).2).frames = _
        rw [ha.send_eq, hframes]

theorem Endpoint.WireShows.follows (ha : a.Reliable) {e e' : Endpoint pl κ τ}
    (hfollows : Follows a e e') (he : e.WireShows) : e'.WireShows := by
  induction hfollows with
  | refl => exact he
  | app app _ ih => exact ih
  | @request e' r _ ih =>
      exact Endpoint.WireShows.note_one ha
        (e := { e' with
          processor := e'.processor.install r
          requests := e'.requests ++ [r] })
        ih (.request (e'.requests.length + 1)) 0 (e'.processor.currentRequestId + 1)
        r.object.object

/-- The direct part of a callback sends nothing. -/
theorem direct_output (callback : Callback) (e : Endpoint pl κ τ) :
    (e.direct callback).wire = e.wire ∧ (e.direct callback).frames = e.frames := by
  have hspec := direct_spec callback e
  generalize e.direct callback = e' at hspec
  cases hspec <;> exact ⟨rfl, rfl⟩

theorem Endpoint.WireShows.settles (ha : a.Reliable) {e e₁ e' : Endpoint pl κ τ}
    {callback : Callback} (hsettles : Settles a e callback e₁ e') (he : e₁.WireShows) :
    e'.WireShows := by
  cases hsettles with
  | nothing => exact he
  | reported => exact he
  | bounced => exact he.note_one ha _ _ _ _
  | replied => exact he.note_one ha _ _ _ _
  | @responded flags requestId _ objects =>
      simp only [Endpoint.answer]
      rw [protoSend_of_success pl ha.send_nonneg]
      obtain ⟨hwire, hframes⟩ := sendAll_eq_of_reliable ha
        (sendBuffers pl (objects.map SendableObject.object) (UInt8.ofNat objects.length) requestId
          protoFlagResponse)
        (e₁.note (.answer (.objects objects)) protoFlagResponse requestId
          ((sentObjects objects).map fun object => sentBody pl object.object))
      rw [Endpoint.WireShows, hwire, hframes]
      show e₁.wire ++ _ = (e₁.frames ++ [_]).flatMap SentFrame.bytes
      rw [List.flatMap_append, ← he, List.flatMap_singleton, bytes_eq_sendBuffers]

theorem Endpoint.WireShows.react (ha : a.Reliable) {e : Endpoint pl κ τ} (he : e.WireShows)
    (callback : Callback) : (e.react a callback).WireShows := by
  obtain ⟨e₁, hfollows, hsettles⟩ := react_eq a callback e
  refine Endpoint.WireShows.settles ha hsettles (Endpoint.WireShows.follows ha hfollows ?_)
  obtain ⟨hwire, hframes⟩ := direct_output callback e
  rw [Endpoint.WireShows, hwire, hframes]
  exact he

theorem Endpoint.WireShows.step (ha : a.Reliable) {e : Endpoint pl κ τ} (he : e.WireShows)
    (act : Act pl κ τ) : (e.step a act).WireShows := by
  cases act with
  | script f => exact he.follows ha (Script.run_follows a _ e)
  | callback callback => exact he.react ha callback

/-- On a reliable socket, a run puts exactly the recorded frames on the wire. -/
theorem Endpoint.WireShows.run (ha : a.Reliable) {e : Endpoint pl κ τ} (he : e.WireShows)
    (acts : List (Act pl κ τ)) : (e.run a acts).WireShows := by
  induction acts generalizing e with
  | nil => exact he
  | cons act acts ih => exact ih (he.step ha act)

/-! ## Which frames are sent -/

/-- A frame that `proto_req_send_request` sent. -/
def SentFrame.IsRequest (f : SentFrame pl) : Prop :=
  f.flags = 0 ∧ ∃ number, f.origin = .request number

theorem SentFrame.IsRequest.not_isResponse {f : SentFrame pl} (hf : f.IsRequest) :
    ¬ IsResponse f.flags := by
  rw [hf.1]
  decide

/-- Application code sends requests only. -/
theorem Follows.frames_eq {e e' : Endpoint pl κ τ} (hfollows : Follows a e e') :
    ∃ requests, e'.frames = e.frames ++ requests ∧ ∀ f ∈ requests, f.IsRequest := by
  refine hfollows.keeps
    (P := fun e' => ∃ requests, e'.frames = e.frames ++ requests ∧ ∀ f ∈ requests, f.IsRequest)
    ?_ ?_ ?_ ⟨[], (List.append_nil _).symm, fun f hf => absurd hf List.not_mem_nil⟩
  · exact fun _ _ h => h
  · rintro _ _ ⟨_, _, rfl⟩ h
    exact h
  · rintro r e' ⟨requests, hframes, hrequests⟩
    refine ⟨requests ++ [⟨.request (e'.requests.length + 1), 0, e'.processor.currentRequestId + 1,
      [sentBody pl r.object.object], e'.started⟩], ?_, ?_⟩
    · rw [← List.append_assoc, ← hframes]
      rfl
    · intro f hf
      rcases List.mem_append.mp hf with hf | hf
      · exact hrequests f hf
      · rw [List.mem_singleton.mp hf]
        exact ⟨rfl, _, rfl⟩

/-- The error reply to a stale response. -/
def bounceFrame (pl : Platform) (requestId : UInt16) (during : Nat) : SentFrame pl :=
  ⟨.bounce, protoFlagError ||| protoFlagResponse, requestId,
    [sentBody pl (errorObject pl unknownRequestId)], during⟩

/-- The frame with an answer, if it has one. -/
def Answer.frame? (requestId : UInt16) (during : Nat) : Answer pl → Option (SentFrame pl)
  | .nothing => none
  | .text message => some ⟨.answer (.text message), protoFlagError ||| protoFlagResponse, requestId,
      [sentBody pl (errorObject pl message)], during⟩
  | .objects list => some ⟨.answer (.objects list), protoFlagResponse, requestId,
      (sentObjects list).map fun object => sentBody pl object.object, during⟩

/-- An answer is sent in one frame, a response with the id of the request. -/
theorem Answer.frame?_eq_some {requestId : UInt16} {during : Nat} {answer : Answer pl}
    {f : SentFrame pl} (hframe : answer.frame? requestId during = some f) :
    f.origin = .answer answer ∧ IsResponse f.flags ∧ f.requestId = requestId ∧
      f.during = during := by
  cases answer with
  | nothing => cases hframe
  | text text =>
      cases hframe
      exact ⟨rfl, isResponse_error_response, rfl, rfl⟩
  | objects objects =>
      cases hframe
      exact ⟨rfl, isResponse_response, rfl, rfl⟩

theorem Answer.frame?_eq_none_iff (requestId : UInt16) (during : Nat) (answer : Answer pl) :
    answer.frame? requestId during = none ↔ answer = .nothing := by
  cases answer <;> simp [Answer.frame?]

/-- The frame that the last part of a callback sends, if it sends one: the
error reply to a stale response, or the answer to a request. -/
inductive Replies (a : Application pl κ τ) (e : Endpoint pl κ τ) :
    Callback → Nat → List (SentFrame pl) → Prop
  | quiet {callback : Callback} {during : Nat} (hfresh : ¬ e.Stale callback) :
      Replies a e callback during []
  | bounce {flags : UInt8} {requestId : UInt16} {during : Nat} (hresponse : IsResponse flags)
      (hid : e.processor.currentRequestId ≠ requestId) :
      Replies a e (.completeRequest flags requestId) during [bounceFrame pl requestId during]
  | answer {flags : UInt8} {requestId : UInt16} {during : Nat} {answer : Answer pl}
      {f : SentFrame pl} {k : κ} (hrequest : ¬ IsResponse flags)
      (hk : e.processor.incomingComplete = some k) (hanswer : a.Answers k answer)
      (hframe : answer.frame? requestId during = some f) :
      Replies a e (.completeRequest flags requestId) during [f]

theorem settles_frames {e e₁ e' : Endpoint pl κ τ} {callback : Callback}
    (hsettles : Settles a e callback e₁ e') :
    ∃ replies, e'.frames = e₁.frames ++ replies ∧ Replies a e callback e₁.started replies := by
  cases hsettles with
  | nothing hfresh => exact ⟨[], (List.append_nil _).symm, .quiet hfresh⟩
  | reported hresponse hid =>
      exact ⟨[], (List.append_nil _).symm, .quiet fun hstale => hstale.2 hid⟩
  | @bounced flags requestId hresponse hid =>
      obtain ⟨sends, wire, heq⟩ := e.reply_sent (a := a) flags requestId unknownRequestId
      refine ⟨_, ?_, .bounce hresponse hid⟩
      rw [heq]
      simp only [Endpoint.noteReply, Endpoint.note, if_pos hresponse, bounceFrame]
  | @replied flags requestId _ text k hrequest hk hanswer =>
      obtain ⟨sends, wire, heq⟩ := e₁.reply_sent (a := a) flags requestId text
      refine ⟨_, ?_, .answer hrequest hk hanswer rfl⟩
      rw [heq]
      simp only [Endpoint.noteReply, Endpoint.note, if_neg hrequest]
  | @responded flags requestId _ objects k hrequest hk hanswer =>
      obtain ⟨sends, wire, heq⟩ := e₁.answer_sent (a := a) requestId objects
      refine ⟨_, ?_, .answer hrequest hk hanswer rfl⟩
      rw [heq]
      rfl

/-- **The frames of a callback**: requests, then at most one reply. -/
theorem react_frames (callback : Callback) (e : Endpoint pl κ τ) :
    ∃ requests replies, (e.react a callback).frames = e.frames ++ (requests ++ replies) ∧
      (∀ f ∈ requests, f.IsRequest) ∧
      Replies a e callback (e.react a callback).started replies := by
  obtain ⟨e₁, hfollows, hsettles⟩ := react_eq a callback e
  obtain ⟨requests, hframes, hrequests⟩ := hfollows.frames_eq
  obtain ⟨replies, hframes', hreplies⟩ := settles_frames hsettles
  refine ⟨requests, replies, ?_, hrequests, ?_⟩
  · rw [hframes', hframes, (direct_output callback e).2, List.append_assoc]
  · rw [hsettles.closed.started]
    exact hreplies

/-- An act that is not the completion of a frame sends requests only. -/
theorem step_frames_of_open {act : Act pl κ τ} (e : Endpoint pl κ τ)
    (hopen : ∀ flags requestId, act ≠ .callback (.completeRequest flags requestId)) :
    ∃ requests, (e.step a act).frames = e.frames ++ requests ∧ ∀ f ∈ requests, f.IsRequest := by
  cases act with
  | script f => exact (Script.run_follows a _ e).frames_eq
  | callback callback =>
      obtain ⟨requests, replies, hframes, hrequests, hreplies⟩ := react_frames (a := a) callback e
      cases hreplies with
      | quiet _ => exact ⟨requests, by rw [Endpoint.step, hframes, List.append_nil], hrequests⟩
      | bounce _ _ => exact absurd rfl (hopen _ _)
      | answer _ _ _ _ => exact absurd rfl (hopen _ _)

theorem run_frames_of_open {acts : List (Act pl κ τ)} (e : Endpoint pl κ τ)
    (hopen : ∀ act ∈ acts, ∀ flags requestId, act ≠ .callback (.completeRequest flags requestId)) :
    ∃ requests, (e.run a acts).frames = e.frames ++ requests ∧ ∀ f ∈ requests, f.IsRequest := by
  induction acts generalizing e with
  | nil => exact ⟨[], (List.append_nil _).symm, fun f hf => absurd hf List.not_mem_nil⟩
  | cons act acts ih =>
      obtain ⟨requests, hframes, hrequests⟩ := step_frames_of_open (a := a) e
        (hopen act List.mem_cons_self)
      obtain ⟨requests', hframes', hrequests'⟩ := ih (e.step a act)
        fun act' hact' => hopen act' (List.mem_cons_of_mem act hact')
      refine ⟨requests ++ requests', ?_, ?_⟩
      · rw [Endpoint.run_cons, hframes', hframes, List.append_assoc]
      · intro f hf
        rcases List.mem_append.mp hf with hf | hf
        · exact hrequests f hf
        · exact hrequests' f hf

/-- The completion of a request sends requests, and then the answer of the
`incoming_complete` callback. -/
theorem complete_frames {flags : UInt8} (hrequest : ¬ IsResponse flags) (requestId : UInt16)
    {e : Endpoint pl κ τ} {k : κ} (hk : e.processor.incomingComplete = some k) :
    let called := (a.incomingComplete k flags requestId (e.processor.user pl) e.app).run a
      (e.invoke (some k) (.incomingComplete flags requestId))
    (e.react a (.completeRequest flags requestId)).frames =
      called.2.frames ++ (called.1.frame? requestId called.2.started).toList := by
  intro called
  have hreceived : protoReqRecv a flags requestId e = called.2.answer a requestId called.1 := by
    rw [protoReqRecv, if_neg hrequest, hk]
  rw [Endpoint.react, Endpoint.complete, hreceived]
  cases called.1 with
  | nothing => exact (List.append_nil _).symm
  | text text =>
      obtain ⟨sends, wire, heq⟩ := called.2.reply_sent (a := a) flags requestId text
      show (called.2.reply a flags requestId text).frames = _
      rw [heq]
      simp only [Endpoint.noteReply, Endpoint.note, if_neg hrequest]
      rfl
  | objects objects =>
      obtain ⟨sends, wire, heq⟩ := called.2.answer_sent (a := a) requestId objects
      show (called.2.answer a requestId (.objects objects)).2.frames = _
      rw [heq]
      rfl

end Output

end ZxProto
