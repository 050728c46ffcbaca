import ZxProto.Network
import ZxProto.RoundTrip

/-!
# The bytes between two endpoints

Two connections, each of which receives the bytes that the other one sends, in
any pieces that fit its buffer, at any time.  If all frames are ones that the
receiver understands, this refines the network of frames: each call of
`recv_process` is some number of deliveries there.

* `SentFrame.WellFormed`, `SentFrame.UnderstoodBy` — a frame that the receiver
  understands;
* `consumed` — the callbacks behind a position, and `due_consumed`;
* `ByteNet` — the two connections;
* `Simulates` — the relation to the network of frames;
* `Simulates.run` — the refinement, and `ByteNet.Fresh.exists_simulates` from the start.
-/

namespace ZxProto

open ByteMemory

/-! ## Frames that are understood -/

section Frames

variable {pl : Platform}

/-- The frame has an object, its length fits the header, and every object is a list of at
most 14 properties. -/
def SentFrame.WellFormed (f : SentFrame pl) : Prop :=
  ∃ objects : List (List Property), objects ≠ [] ∧ frameSize objects < 65536 ∧
    f.bodies = objects.map bodyBytes ∧ ∀ props ∈ objects, props.length ≤ 14

/-- The receiver sees the frame as it was meant.  The routine of the Spectrum takes an object
without properties for one with a property. -/
def SentFrame.UnderstoodBy (receiver : Build) (f : SentFrame pl) : Prop :=
  f.WellFormed ∧ (receiver.decoder = .asm → [] ∉ f.bodies)

/-- The callbacks that a frame causes. -/
def SentFrame.callbacks (f : SentFrame pl) : List Callback :=
  .startRequest f.flags f.size f.requestId ::
    (f.bodies.map (fun body => .next f.flags f.requestId (bodyContents body)) ++
      [.completeRequest f.flags f.requestId])

theorem bodyContents_bodyBytes (props : List Property) :
    bodyContents (bodyBytes props) = props := by
  rw [bodyContents, parseProperties_bodyBytes]
  rfl

/-- The objects are those that the bodies hold. -/
theorem SentFrame.wellFormed_iff (f : SentFrame pl) :
    f.WellFormed ↔ f.bodies ≠ [] ∧ frameSize (f.bodies.map bodyContents) < 65536 ∧
      (f.bodies.map bodyContents).map bodyBytes = f.bodies ∧
        ∀ body ∈ f.bodies, (bodyContents body).length ≤ 14 := by
  constructor
  · rintro ⟨objects, hne, hsize, hbodies, hcount⟩
    have hcontents : f.bodies.map bodyContents = objects := by
      rw [hbodies, List.map_map]
      simp only [Function.comp_def, bodyContents_bodyBytes, List.map_id']
    refine ⟨?_, by rwa [hcontents], by rw [hcontents, hbodies], fun body hbody => ?_⟩
    · rw [hbodies]
      exact fun hnil => hne (List.map_eq_nil_iff.mp hnil)
    · exact hcount _ (hcontents ▸ List.mem_map_of_mem hbody)
  · rintro ⟨hne, hsize, hbodies, hcount⟩
    refine ⟨f.bodies.map bodyContents, ?_, hsize, hbodies.symm, ?_⟩
    · exact fun hnil => hne (List.map_eq_nil_iff.mp hnil)
    · exact List.forall_mem_map.mpr hcount

instance (f : SentFrame pl) : Decidable f.WellFormed :=
  decidable_of_iff _ f.wellFormed_iff.symm

instance (receiver : Build) (f : SentFrame pl) : Decidable (f.UnderstoodBy receiver) :=
  inferInstanceAs (Decidable (_ ∧ _))

/-- A frame that is understood is a frame on the wire. -/
theorem SentFrame.UnderstoodBy.exists_wireFrame {receiver : Build} {f : SentFrame pl}
    (hf : f.UnderstoodBy receiver) :
    ∃ w : WireFrame, w.bytes = f.bytes ∧ w.callbacks = f.callbacks ∧
      ∀ props ∈ w.objects, Decodable receiver props := by
  obtain ⟨⟨objects, hne, hsize, hbodies, hcount⟩, hfilled⟩ := hf
  have hlength : f.size = UInt16.ofNat (frameSize objects) := by
    rw [SentFrame.size, hbodies, List.map_map]
    rfl
  refine ⟨⟨f.flags, f.requestId, objects, hne, hsize⟩, ?_, ?_,
    fun props hprops => ⟨hcount props hprops, ?_⟩⟩
  · rw [SentFrame.bytes, WireFrame.bytes, hlength, hbodies, List.flatMap_map]
    rfl
  · rw [SentFrame.callbacks, WireFrame.callbacks, hlength, hbodies, List.map_map]
    simp only [Function.comp_def, bodyContents_bodyBytes]
  · rintro hasm rfl
    exact hfilled hasm (hbodies ▸ List.mem_map_of_mem hprops)

theorem exists_wireFrames {receiver : Build} {frames : List (SentFrame pl)}
    (hframes : ∀ f ∈ frames, f.UnderstoodBy receiver) :
    ∃ ws : List WireFrame, ws.flatMap WireFrame.bytes = frames.flatMap SentFrame.bytes ∧
      ws.flatMap WireFrame.callbacks = frames.flatMap SentFrame.callbacks ∧
      ∀ w ∈ ws, ∀ props ∈ w.objects, Decodable receiver props := by
  induction frames with
  | nil => exact ⟨[], rfl, rfl, fun w hw => absurd hw List.not_mem_nil⟩
  | cons f frames ih =>
      obtain ⟨w, hbytes, hcallbacks, hcount⟩ := (hframes f List.mem_cons_self).exists_wireFrame
      obtain ⟨ws, hbytes', hcallbacks', hcount'⟩ :=
        ih fun g hg => hframes g (List.mem_cons_of_mem f hg)
      refine ⟨w :: ws, ?_, ?_, ?_⟩
      · rw [List.flatMap_cons, List.flatMap_cons, hbytes, hbytes']
      · rw [List.flatMap_cons, List.flatMap_cons, hcallbacks, hcallbacks']
      · intro v hv
        rcases List.mem_cons.mp hv with rfl | hv
        · exact hcount
        · exact hcount' v hv

/-- The objects of such frames are accepted, as far as they are received. -/
theorem accepted_of_understood {receiver : Build} {frames : List (SentFrame pl)}
    (hframes : ∀ f ∈ frames, f.UnderstoodBy receiver) (n : Nat) :
    AllAccepted receiver ((frames.flatMap SentFrame.bytes).take n) := by
  obtain ⟨ws, hbytes, -, hprops⟩ := exists_wireFrames hframes
  have hpre := prefix_streamEvents ((frames.flatMap SentFrame.bytes).take n)
    ((frames.flatMap SentFrame.bytes).drop n)
  rw [List.take_append_drop, ← hbytes, streamEvents_frames, hbytes] at hpre
  exact (framesEvents_accepted receiver hprops 0).mono hpre.subset

/-- The callbacks that a connection has made over a part of the bytes of such
frames are the first callbacks of the frames. -/
theorem Conn.Tracks.callbacks_prefix {σ : Type} {receiver : Build} {c : Conn σ}
    {frames : List (SentFrame pl)} (hframes : ∀ f ∈ frames, f.UnderstoodBy receiver) {n : Nat}
    (hc : c.Tracks receiver ((frames.flatMap SentFrame.bytes).take n)) :
    c.callbacks <+: frames.flatMap SentFrame.callbacks := by
  have haccepted := accepted_of_understood hframes n
  obtain ⟨ws, hbytes, hcallbacks, -⟩ := exists_wireFrames hframes
  have hpre := prefix_streamEvents ((frames.flatMap SentFrame.bytes).take n)
    ((frames.flatMap SentFrame.bytes).drop n)
  rw [List.take_append_drop, ← hbytes, streamEvents_frames, hbytes] at hpre
  obtain ⟨held, hrenders⟩ := hc.renders
  rw [Conn.callbacks, hrenders.callbacks haccepted, ← hcallbacks,
    ← map_callback_framesEvents 0 ws]
  exact hpre.map _

/-! ## Positions as prefixes -/

/-- The position lies within the frames. -/
def Position.Within (p : Position) (frames : List (SentFrame pl)) : Prop :=
  match p.objects with
  | none => p.completed ≤ frames.length
  | some k => ∃ f, frames[p.completed]? = some f ∧ k ≤ f.bodies.length

/-- The callbacks in front of a position. -/
def consumed (frames : List (SentFrame pl)) (p : Position) : List Callback :=
  (frames.take p.completed).flatMap SentFrame.callbacks ++
    match p.objects, frames[p.completed]? with
    | some k, some f => f.callbacks.take (k + 1)
    | _, _ => []

theorem consumed_of_none {frames : List (SentFrame pl)} {p : Position} (hp : p.objects = none) :
    consumed frames p = (frames.take p.completed).flatMap SentFrame.callbacks := by
  rw [consumed, hp]
  exact List.append_nil _

theorem consumed_of_some {frames : List (SentFrame pl)} {p : Position} {k : Nat} {f : SentFrame pl}
    (hp : p.objects = some k) (hf : frames[p.completed]? = some f) :
    consumed frames p =
      (frames.take p.completed).flatMap SentFrame.callbacks ++ f.callbacks.take (k + 1) := by
  rw [consumed, hp, hf]

/-- Positions keep their meaning when frames are added. -/
theorem Position.Within.mono {p : Position} {frames frames' : List (SentFrame pl)}
    (hgrown : frames <+: frames') (hp : p.Within frames) :
    p.Within frames' ∧ consumed frames' p = consumed frames p := by
  obtain ⟨new, rfl⟩ := hgrown
  rw [Position.Within] at hp ⊢
  cases hobjects : p.objects with
  | none =>
      simp only [hobjects] at hp ⊢
      refine ⟨hp.trans (by simp), ?_⟩
      rw [consumed_of_none hobjects, consumed_of_none hobjects, List.take_append_of_le_length hp]
  | some k =>
      simp only [hobjects] at hp ⊢
      obtain ⟨f, hf, hk⟩ := hp
      obtain ⟨hlt, -⟩ := List.getElem?_eq_some_iff.mp hf
      have hf' : (frames ++ new)[p.completed]? = some f := by
        rw [List.getElem?_append_left hlt]
        exact hf
      refine ⟨⟨f, hf', hk⟩, ?_⟩
      rw [consumed_of_some hobjects hf', consumed_of_some hobjects hf,
        List.take_append_of_le_length hlt.le]

/-- The frames in front of, at and behind an index. -/
theorem flatMap_callbacks_split {frames : List (SentFrame pl)} {i : Nat} {f : SentFrame pl}
    (hf : frames[i]? = some f) :
    frames.flatMap SentFrame.callbacks =
      (frames.take i).flatMap SentFrame.callbacks ++
        (f.callbacks ++ (frames.drop (i + 1)).flatMap SentFrame.callbacks) := by
  obtain ⟨hlt, hget⟩ := List.getElem?_eq_some_iff.mp hf
  have hdrop : frames.drop i = f :: frames.drop (i + 1) := by
    rw [List.drop_eq_getElem_cons hlt, hget]
  calc frames.flatMap SentFrame.callbacks
      = (frames.take i ++ frames.drop i).flatMap SentFrame.callbacks := by
        rw [List.take_append_drop]
    _ = _ := by rw [List.flatMap_append, hdrop, List.flatMap_cons]

/-- The callback that follows the header and `k` objects. -/
theorem callbacks_getElem? (f : SentFrame pl) {k : Nat} (hk : k ≤ f.bodies.length) :
    f.callbacks[k + 1]? = some
      (match f.bodies[k]? with
        | some body => .next f.flags f.requestId (bodyContents body)
        | none => .completeRequest f.flags f.requestId) := by
  rw [SentFrame.callbacks, List.getElem?_cons_succ]
  rcases Nat.lt_or_eq_of_le hk with hlt | rfl
  · rw [List.getElem?_append_left (by simpa using hlt), List.getElem?_map,
      List.getElem?_eq_getElem hlt]
    rfl
  · rw [List.getElem?_append_right (by simp)]
    simp

/-- Between two frames, the first callback behind the position is a header. -/
theorem due_consumed_of_none {frames : List (SentFrame pl)} {p : Position} (hp : p.objects = none)
    {callback : Callback} {rest : List Callback}
    (hpre : consumed frames p ++ callback :: rest <+: frames.flatMap SentFrame.callbacks) :
    ∃ p', due frames p = some (callback, p') ∧ p'.Within frames ∧
      consumed frames p' = consumed frames p ++ [callback] := by
  rw [consumed_of_none hp] at hpre ⊢
  -- there is a frame behind the position, or nothing would be left
  have hlt : p.completed < frames.length := by
    by_contra hge
    rw [List.take_of_length_le (Nat.not_lt.mp hge)] at hpre
    simpa using hpre.length_le
  have hf : frames[p.completed]? = some frames[p.completed] := List.getElem?_eq_getElem hlt
  rw [flatMap_callbacks_split hf, List.prefix_append_right_inj] at hpre
  have hhead : callback = .startRequest frames[p.completed].flags frames[p.completed].size
      frames[p.completed].requestId := by
    rw [SentFrame.callbacks, List.cons_append, List.cons_prefix_cons] at hpre
    exact hpre.1
  refine ⟨⟨p.completed, some 0⟩, ?_, ⟨_, hf, Nat.zero_le _⟩, ?_⟩
  · rw [due, hf, hhead]
    simp only [hp]
  · rw [consumed_of_some (p := ⟨p.completed, some 0⟩) rfl hf, hhead]
    rfl

/-- Inside a frame, the first callback behind the position is the next one of the
frame. -/
theorem callback_of_consumed {frames : List (SentFrame pl)} {p : Position} {k : Nat}
    {f : SentFrame pl} (hp : p.objects = some k) (hf : frames[p.completed]? = some f)
    (hk : k ≤ f.bodies.length) {callback : Callback} {rest : List Callback}
    (hpre : consumed frames p ++ callback :: rest <+: frames.flatMap SentFrame.callbacks) :
    f.callbacks[k + 1]? = some callback := by
  obtain ⟨hlt, -⟩ := List.getElem?_eq_some_iff.mp (callbacks_getElem? f hk)
  rw [consumed_of_some hp hf, flatMap_callbacks_split hf, List.append_assoc,
    List.prefix_append_right_inj] at hpre
  obtain ⟨rest', hrest⟩ := hpre
  have hlen : (f.callbacks.take (k + 1)).length = k + 1 := by
    rw [List.length_take]
    omega
  have hat := congrArg (fun l : List Callback => l[k + 1]?) hrest
  rw [List.append_assoc, List.getElem?_append_right (by omega), hlen, Nat.sub_self,
    List.cons_append, List.getElem?_cons_zero, List.getElem?_append_left hlt] at hat
  exact hat.symm

/-- The callback that is due at a position is the first one behind it. -/
theorem due_consumed {frames : List (SentFrame pl)} {p : Position} (hp : p.Within frames)
    {callback : Callback} {rest : List Callback}
    (hpre : consumed frames p ++ callback :: rest <+: frames.flatMap SentFrame.callbacks) :
    ∃ p', due frames p = some (callback, p') ∧ p'.Within frames ∧
      consumed frames p' = consumed frames p ++ [callback] := by
  cases hobjects : p.objects with
  | none => exact due_consumed_of_none hobjects hpre
  | some k =>
      rw [Position.Within, hobjects] at hp
      obtain ⟨f, hf, hk⟩ := hp
      have hhead := callback_of_consumed hobjects hf hk hpre
      have htake : f.callbacks.take (k + 1 + 1) = f.callbacks.take (k + 1) ++ [callback] := by
        rw [List.take_add_one, hhead]
        rfl
      rw [callbacks_getElem? f hk] at hhead
      rw [consumed_of_some hobjects hf]
      cases hbody : f.bodies[k]? with
      | some body =>
          rw [hbody] at hhead
          have hlt : k < f.bodies.length := (List.getElem?_eq_some_iff.mp hbody).1
          refine ⟨⟨p.completed, some (k + 1)⟩, ?_, ⟨f, hf, hlt⟩, ?_⟩
          · rw [due, hf]
            simp only [hobjects, hbody]
            rw [← Option.some.inj hhead]
          · rw [consumed_of_some (p := ⟨p.completed, some (k + 1)⟩) rfl hf, htake,
              List.append_assoc]
      | none =>
          rw [hbody] at hhead
          -- the completion ends the frame, and the position is behind it
          have hall : f.callbacks.take (k + 1 + 1) = f.callbacks := by
            refine List.take_of_length_le ?_
            have hend := List.getElem?_eq_none_iff.mp hbody
            simp only [SentFrame.callbacks, List.length_cons, List.length_append, List.length_map,
              List.length_nil]
            omega
          refine ⟨⟨p.completed + 1, none⟩, ?_, (List.getElem?_eq_some_iff.mp hf).1, ?_⟩
          · rw [due, hf]
            simp only [hobjects, hbody]
            rw [← Option.some.inj hhead]
          · rw [consumed_of_none (p := ⟨p.completed + 1, none⟩) rfl, List.take_add_one, hf,
              List.flatMap_append, Option.toList_some, List.flatMap_singleton, List.append_assoc,
              ← htake, hall]

end Frames

/-! ## The network of bytes -/

/-- Two connections; `taken` is the number of bytes that each has taken from the
other's socket. -/
structure ByteNet (pl : Side → Build) (κ τ : Side → Type) where
  conn : ∀ s, Conn (Endpoint (pl s) (κ s) (τ s))
  taken : Side → Nat

/-- What can happen next: application code runs outside of the callbacks, or
`recv` gives a side up to `count` of the bytes that are in flight. -/
inductive ByteAct (pl : Side → Build) (κ τ : Side → Type)
  | script (s : Side) (f : τ s → Script (pl s) (κ s) (τ s) Unit)
  | deliver (s : Side) (count : Nat)

section ByteNet

variable {pl : Side → Build} {κ τ : Side → Type} (a : ∀ s, Application (pl s) (κ s) (τ s))

/-- The first `count` bytes in flight to a side. -/
def ByteNet.inFlight (b : ByteNet pl κ τ) (s : Side) (count : Nat) : List UInt8 :=
  ((b.conn s.other).app.wire.drop (b.taken s)).take count

/-- Application code runs on a connection. -/
def Conn.script {pl : Platform} {κ τ : Type} (a : Application pl κ τ)
    (f : τ → Script pl κ τ Unit) (c : Conn (Endpoint pl κ τ)) : Conn (Endpoint pl κ τ) :=
  { c with app := c.app.step a (.script f) }

/-- One step.  `recv` is called with the free space of the buffer, and nothing
happens if there is nothing to give. -/
def ByteNet.step : ByteAct pl κ τ → ByteNet pl κ τ → ByteNet pl κ τ
  | .script s f, b =>
      { b with conn := Function.update b.conn s ((b.conn s).script (a s) f) }
  | .deliver s count, b =>
      let bytes := b.inFlight s count
      if bytes.length ≤ (b.conn s).afford.toNat ∧ bytes ≠ [] then
        { conn := Function.update b.conn s
            (recvProcess (pl s) (reqHost (a s)) (b.conn s) (.received bytes)).2
          taken := Function.update b.taken s (b.taken s + bytes.length) }
      else
        b

/-- A run. -/
def ByteNet.run (acts : List (ByteAct pl κ τ)) (b : ByteNet pl κ τ) : ByteNet pl κ τ :=
  acts.foldl (fun b act => b.step a act) b

/-- Two connections as `proto_init` leaves them. -/
structure ByteNet.Fresh (b : ByteNet pl κ τ) : Prop where
  conn : ∀ s, (b.conn s).Fresh
  placed : ∀ s, (b.conn s).Placed (pl s)
  frames : ∀ s, (b.conn s).app.frames = []
  wire : ∀ s, (b.conn s).app.wire = []
  taken : ∀ s, b.taken s = 0

/-- The receivers understand all frames. -/
def ByteNet.Understood (b : ByteNet pl κ τ) : Prop :=
  ∀ s : Side, ∀ f ∈ (b.conn s.other).app.frames, f.UnderstoodBy (pl s)

/-- No object without properties was sent to the routine of the Spectrum. -/
def ByteNet.Filled (b : ByteNet pl κ τ) : Prop :=
  ∀ s : Side, (pl s).decoder = .asm → ∀ f ∈ (b.conn s.other).app.frames, [] ∉ f.bodies

theorem ByteNet.filled_of_c (hdecoder : ∀ s, (pl s).decoder = .c) (b : ByteNet pl κ τ) :
    b.Filled := by
  intro s hasm
  rw [hdecoder s] at hasm
  cases hasm

/-- A side has the endpoint that it has in the network of frames; it has parsed
the bytes that it took, and made the callbacks in front of its position. -/
structure SimulatesAt (b : ByteNet pl κ τ) (n : Net pl κ τ) (s : Side) : Prop where
  endpoint : n.endpoint s = (b.conn s).app
  placed : (b.conn s).Placed (pl s)
  wire : (b.conn s).app.WireShows
  taken : b.taken s ≤ (b.conn s.other).app.wire.length
  tracks : (b.conn s).Tracks (pl s) ((b.conn s.other).app.wire.take (b.taken s))
  within : (n.position s).Within (b.conn s.other).app.frames
  callbacks : (b.conn s).callbacks = consumed (b.conn s.other).app.frames (n.position s)

/-- Both sides do. -/
def Simulates (b : ByteNet pl κ τ) (n : Net pl κ τ) : Prop :=
  ∀ s, SimulatesAt b n s

theorem ByteNet.Fresh.simulates {b : ByteNet pl κ τ} (hb : b.Fresh) :
    Simulates b (.init fun s => (b.conn s).app) := by
  intro s
  refine ⟨rfl, hb.placed s, ?_, ?_, ?_, Nat.zero_le _, ?_⟩
  · rw [Endpoint.WireShows, hb.frames, hb.wire]
    rfl
  · rw [hb.taken]
    exact Nat.zero_le _
  · rw [hb.taken]
    exact (hb.conn s).tracks (pl s)
  · rw [Conn.callbacks]
    obtain ⟨_, _, _, _, _, _, heq⟩ := hb.conn s
    rw [heq]
    rfl

variable {a}

/-- Deliveries to one side, as long as they are the callbacks in front of it. -/
theorem Net.run_deliveries (s : Side) (cbs : List Callback) (n : Net pl κ τ)
    (hwithin : (n.position s).Within (n.endpoint s.other).frames)
    (hpre : consumed (n.endpoint s.other).frames (n.position s) ++ cbs <+:
      (n.endpoint s.other).frames.flatMap SentFrame.callbacks) :
    ∃ p, n.run a (List.replicate cbs.length (.deliver s)) =
        ⟨Function.update n.endpoint s ((n.endpoint s).run (a s) (cbs.map .callback)),
          Function.update n.position s p⟩ ∧
      p.Within (n.endpoint s.other).frames ∧
      consumed (n.endpoint s.other).frames p =
        consumed (n.endpoint s.other).frames (n.position s) ++ cbs := by
  induction cbs generalizing n with
  | nil =>
      refine ⟨n.position s, ?_, hwithin, (List.append_nil _).symm⟩
      show n = _
      rw [Function.update_eq_self]
      show n = ⟨Function.update n.endpoint s (n.endpoint s), n.position⟩
      rw [Function.update_eq_self]
  | cons callback cbs ih =>
      obtain ⟨p₁, hdue, hwithin₁, hconsumed₁⟩ := due_consumed hwithin hpre
      have hstep : n.step a (.deliver s) =
          ⟨Function.update n.endpoint s ((n.endpoint s).step (a s) (.callback callback)),
            Function.update n.position s p₁⟩ := by
        rw [Net.step, show n.due s = some (callback, p₁) from hdue]
        rfl
      have hother : (n.step a (.deliver s)).endpoint s.other = n.endpoint s.other := by
        rw [hstep]
        exact Function.update_of_ne s.other_ne _ _
      have hposition : (n.step a (.deliver s)).position s = p₁ := by
        rw [hstep]
        exact Function.update_self _ _ _
      obtain ⟨p, hrun, hwithin', hconsumed⟩ := ih (n.step a (.deliver s))
        (by rw [hother, hposition]; exact hwithin₁)
        (by rw [hother, hposition, hconsumed₁, List.append_assoc]; exact hpre)
      rw [hother] at hwithin' hconsumed
      refine ⟨p, ?_, hwithin', ?_⟩
      · rw [List.length_cons, List.replicate_succ, Net.run_cons, hrun, hstep]
        simp only [Function.update_self, Function.update_idem, List.map_cons,
          Endpoint.run_cons]
      · rw [hconsumed, hposition, hconsumed₁, List.append_assoc]
        rfl

/-- One side comes to a new connection and a new position; the other side only
sees frames added. -/
theorem Simulates.update {b : ByteNet pl κ τ} {n : Net pl κ τ} (hsim : Simulates b n) (s : Side)
    {c : Conn (Endpoint (pl s) (κ s) (τ s))} {taken : Nat} {p : Position}
    (hplaced : c.Placed (pl s)) (hframes : (b.conn s).app.frames <+: c.app.frames)
    (hwire : c.app.WireShows)
    (htaken : taken ≤ (b.conn s.other).app.wire.length)
    (htracks : c.Tracks (pl s) ((b.conn s.other).app.wire.take taken))
    (hwithin : p.Within (b.conn s.other).app.frames)
    (hcallbacks : c.callbacks = consumed (b.conn s.other).app.frames p) :
    Simulates (⟨Function.update b.conn s c, Function.update b.taken s taken⟩ : ByteNet pl κ τ)
      ⟨Function.update n.endpoint s c.app, Function.update n.position s p⟩ := by
  intro s'
  by_cases heq : s' = s
  · subst heq
    constructor
    · simp
    · simpa using hplaced
    · simpa using hwire
    · simpa [s'.other_ne] using htaken
    · simpa [s'.other_ne] using htracks
    · simpa [s'.other_ne] using hwithin
    · simpa [s'.other_ne] using hcallbacks
  · -- the other side sees frames added, behind what it has taken
    obtain rfl : s = s'.other := by
      cases s <;> cases s' <;> first | rfl | exact absurd rfl heq
    have hold := hsim s'
    obtain ⟨hwithin', hconsumed⟩ := hold.within.mono hframes
    have hgrown : (b.conn s'.other).app.wire <+: c.app.wire := by
      obtain ⟨new, hnew⟩ := hframes
      rw [(hsim s'.other).wire, hwire, ← hnew, List.flatMap_append]
      exact List.prefix_append _ _
    have htake : c.app.wire.take (b.taken s') =
        (b.conn s'.other).app.wire.take (b.taken s') := by
      obtain ⟨new, hnew⟩ := hgrown
      rw [← hnew, List.take_append_of_le_length hold.taken]
    constructor
    · simpa [heq] using hold.endpoint
    · simpa [heq] using hold.placed
    · simpa [heq] using hold.wire
    · simpa [heq] using hold.taken.trans hgrown.length_le
    · simpa [heq, htake] using hold.tracks
    · simpa [heq] using hwithin'
    · simpa [heq, hconsumed] using hold.callbacks

/-- Application code at one side. -/
theorem Simulates.script {b : ByteNet pl κ τ} {n : Net pl κ τ} (hsim : Simulates b n)
    (ha : ∀ s, (a s).Reliable) (s : Side) (f : τ s → Script (pl s) (κ s) (τ s) Unit) :
    Simulates (b.step a (.script s f)) (n.step a (.script s f)) := by
  have hs := hsim s
  have htracks : ((b.conn s).script (a s) f).Tracks (pl s)
      ((b.conn s.other).app.wire.take (b.taken s)) :=
    ⟨hs.tracks.run, hs.tracks.renders, hs.tracks.fits⟩
  have hnext := hsim.update s (c := (b.conn s).script (a s) f) (p := n.position s)
    hs.placed (prefix_frames_step _ _) (hs.wire.step (ha s) _) hs.taken htracks hs.within
    hs.callbacks
  rw [Function.update_eq_self, Function.update_eq_self] at hnext
  rw [ByteNet.step, Net.step, Net.act, hs.endpoint]
  exact hnext

/-- A call of `recv_process` at one side is some deliveries there. -/
theorem Simulates.deliveries {b : ByteNet pl κ τ} {n : Net pl κ τ} (hsim : Simulates b n)
    (ha : ∀ s, (a s).Reliable) (s : Side)
    (hwell : ∀ f ∈ (b.conn s.other).app.frames, f.UnderstoodBy (pl s)) (count : Nat) :
    ∃ number, Simulates (b.step a (.deliver s count))
      (n.run a (List.replicate number (.deliver s))) := by
  rw [ByteNet.step]
  split
  · next hgiven =>
      obtain ⟨hfits, hne⟩ := hgiven
      have hs := hsim s
      generalize hbytes : b.inFlight s count = bytes at hfits hne
      obtain ⟨cbs, hcallbacks, hrun⟩ :=
        recvProcess_run (pl s) (a s) (b.conn s) (.received bytes)
      have hreplies : (reqHost (a s)).RepliesSent :=
        Host.repliesSent_of_send (ha s).send_nonneg
      have hpos : 0 < (RecvResult.received bytes).count :=
        Int.natCast_pos.mpr (List.length_pos_iff.mpr hne)
      -- the bytes taken are the next ones of the other side's socket
      have htake : (b.conn s.other).app.wire.take (b.taken s) ++ bytes =
          (b.conn s.other).app.wire.take (b.taken s + bytes.length) := by
        rw [List.take_add, ← hbytes, ByteNet.inFlight, List.length_take]
        exact congrArg _ List.take_eq_take_min
      obtain ⟨c₀, hc₀, hfrom⟩ := hs.tracks.exists_from (pl s)
      have hcontained : EventsContained (pl s) (c₀.eventsOf
          ((b.conn s.other).app.wire.take (b.taken s) ++ bytes)) := by
        rw [hc₀.eventsOf_eq, htake, (hsim s.other).wire]
        exact (accepted_of_understood hwell _).contained
      have hzero := recvProcess_of_delivers (pl s) (reqHost (a s)) hfrom
        (r := .received bytes) hfits hreplies hs.placed hcontained (Or.inl hpos)
      have htracks := (recvProcess_spec (pl s) (reqHost (a s)) hs.tracks (.received bytes)
        hfits).1 hzero
      rw [show (RecvResult.received bytes).bytes = bytes from rfl, htake] at htracks
      have htaken : b.taken s + bytes.length ≤ (b.conn s.other).app.wire.length := by
        have hlen := congrArg List.length hbytes
        rw [ByteNet.inFlight, List.length_take, List.length_drop] at hlen
        have := hs.taken
        omega
      have hpre : (recvProcess (pl s) (reqHost (a s)) (b.conn s) (.received bytes)).2.callbacks <+:
          (b.conn s.other).app.frames.flatMap SentFrame.callbacks := by
        rw [(hsim s.other).wire] at htracks
        exact htracks.callbacks_prefix hwell
      rw [hcallbacks, hs.callbacks, ← (hsim s.other).endpoint] at hpre
      obtain ⟨p, hnet, hwithin, hconsumed⟩ := Net.run_deliveries (a := a) s cbs n
        (by rw [(hsim s.other).endpoint]; exact hs.within) hpre
      rw [(hsim s.other).endpoint] at hwithin hconsumed
      refine ⟨cbs.length, ?_⟩
      rw [hnet, hs.endpoint, ← hrun]
      refine hsim.update s (recvProcess_placed (pl s) _ hs.placed _) ?_ ?_ htaken htracks hwithin ?_
      · rw [hrun]
        exact prefix_frames_run _ _
      · rw [hrun]
        exact hs.wire.run (ha s) _
      · rw [hcallbacks, hs.callbacks, hconsumed]
  · exact ⟨0, hsim⟩

theorem Simulates.deliver {b : ByteNet pl κ τ} {n : Net pl κ τ} (hsim : Simulates b n)
    (ha : ∀ s, (a s).Reliable) (s : Side)
    (hwell : ∀ f ∈ (b.conn s.other).app.frames, f.UnderstoodBy (pl s)) (count : Nat) :
    ∃ acts, Simulates (b.step a (.deliver s count)) (n.run a acts) := by
  obtain ⟨number, hnext⟩ := hsim.deliveries ha s hwell count
  exact ⟨_, hnext⟩

/-- Each side runs. -/
theorem ByteNet.exists_run_step (act : ByteAct pl κ τ) (b : ByteNet pl κ τ) (s : Side) :
    ∃ acts, ((b.step a act).conn s).app = (b.conn s).app.run (a s) acts := by
  have hupdate : ∀ (s' : Side) (c : Conn (Endpoint (pl s') (κ s') (τ s'))),
      (∃ acts, c.app = (b.conn s').app.run (a s') acts) →
        ∃ acts, (Function.update b.conn s' c s).app = (b.conn s).app.run (a s) acts := by
    intro s' c hrun
    by_cases heq : s = s'
    · subst heq
      simpa using hrun
    · exact ⟨[], by simp [heq, Endpoint.run]⟩
  cases act with
  | script s' f => exact hupdate s' _ ⟨[.script f], rfl⟩
  | deliver s' count =>
      rw [ByteNet.step]
      split
      · refine hupdate s' _ ?_
        obtain ⟨cbs, -, hrun⟩ := recvProcess_run (pl s') (a s') (b.conn s')
          (.received (b.inFlight s' count))
        exact ⟨_, hrun⟩
      · exact ⟨[], rfl⟩

theorem ByteNet.exists_run (acts : List (ByteAct pl κ τ)) (b : ByteNet pl κ τ) (s : Side) :
    ∃ acts', ((b.run a acts).conn s).app = (b.conn s).app.run (a s) acts' := by
  induction acts generalizing b with
  | nil => exact ⟨[], rfl⟩
  | cons act acts ih =>
      obtain ⟨first, hfirst⟩ := b.exists_run_step (a := a) act s
      obtain ⟨rest, hrest⟩ := ih (b.step a act)
      refine ⟨first ++ rest, ?_⟩
      rw [Endpoint.run_append, ← hfirst]
      exact hrest

/-- **The refinement.**  On reliable sockets, a run of the two connections is a
run of the network of frames, as long as the frames in every state that both
reach are understood. -/
theorem Simulates.run (ha : ∀ s, (a s).Reliable) (acts : List (ByteAct pl κ τ))
    {b : ByteNet pl κ τ} {n : Net pl κ τ} (hsim : Simulates b n)
    (hwell : ∀ first acts', first <+: acts → Simulates (b.run a first) (n.run a acts') →
      (b.run a first).Understood) :
    ∃ acts', Simulates (b.run a acts) (n.run a acts') := by
  induction acts generalizing b n with
  | nil => exact ⟨[], hsim⟩
  | cons act acts ih =>
      have hstep : ∃ moves, Simulates (b.step a act) (n.run a moves) := by
        cases act with
        | script s f => exact ⟨[.script s f], hsim.script ha s f⟩
        | deliver s count =>
            have hearlier : b.Understood := hwell [] [] List.nil_prefix hsim
            exact hsim.deliver ha s (hearlier s) count
      obtain ⟨moves, hmoves⟩ := hstep
      obtain ⟨rest, hrest⟩ := ih hmoves fun first acts' hpre hreached =>
        hwell (act :: first) (moves ++ acts') (List.cons_prefix_cons.mpr ⟨rfl, hpre⟩)
          (by rw [Net.run_append]; exact hreached)
      refine ⟨moves ++ rest, ?_⟩
      rw [Net.run_append]
      exact hrest

theorem ByteNet.prefix_frames (acts : List (ByteAct pl κ τ)) (b : ByteNet pl κ τ) (s : Side) :
    (b.conn s).app.frames <+: ((b.run a acts).conn s).app.frames := by
  obtain ⟨moves, hmoves⟩ := b.exists_run (a := a) acts s
  rw [hmoves]
  exact prefix_frames_run _ _

theorem ByteNet.Filled.of_run {acts : List (ByteAct pl κ τ)} {b : ByteNet pl κ τ}
    (h : (b.run a acts).Filled) : b.Filled :=
  fun s hasm f hf => h s hasm f ((b.prefix_frames acts s.other).subset hf)

/-- Connections that start with nothing received and understand all frames are a network of
frames. -/
theorem ByteNet.Fresh.exists_simulates {b : ByteNet pl κ τ} (hfresh : b.Fresh)
    (ha : ∀ s, (a s).Reliable) (acts : List (ByteAct pl κ τ))
    (hwell : (b.run a acts).Understood) :
    ∃ acts', Simulates (b.run a acts) ((Net.init fun s => (b.conn s).app).run a acts') := by
  have hearlier : ∀ first, first <+: acts → ∀ s,
      ((b.run a first).conn s).app.frames <+: ((b.run a acts).conn s).app.frames := by
    rintro first ⟨rest, rfl⟩ s
    have hrun : b.run a (first ++ rest) = (b.run a first).run a rest := List.foldl_append
    rw [hrun]
    exact (b.run a first).prefix_frames rest s
  exact hfresh.simulates.run ha acts
    fun first _ hfirst _ s f hf => hwell s f ((hearlier first hfirst s.other).subset hf)

end ByteNet

end ZxProto
