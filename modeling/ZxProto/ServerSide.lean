import ZxProto.ClientReceive

/-!
# The two streams of frames

What the client sends, and what a server without requests of its own sends when
it receives that.

* `OfClient`, `OwnFrames` — the client's frames are its requests, in order, and
  error replies to responses that are stale;
* `ServerSide` — the server answers a request when it completes, so its answers
  are in the order of the requests;
* `ServerSide.react` — every frame that the server sends is one that the client
  is prepared for;
* `ServerSide.unique` — no two answers have the same id.
-/

namespace ZxProto

/-! ## The client's frames -/

section Own

variable {plC plS : Platform} {κC τC : Type}

/-- A frame that the client sends: one of its requests, or an error reply to a
response whose request is not the latest one. -/
def OfClient (c : Endpoint plC κC τC) (g : SentFrame plC) : Prop :=
  (∃ number, ∃ r ∈ c.requests, g.origin = .request number ∧ g.flags = 0 ∧
      g.bodies = [sentBody plC r.object.object] ∧
      1 ≤ number ∧ number ≤ c.requests.length ∧ g.requestId = UInt16.ofNat number) ∨
    ∃ number during, g = bounceFrame plC (UInt16.ofNat number) during ∧
      1 ≤ number ∧ number < c.requests.length

/-- The client's frames are such frames, and its requests are in order. -/
structure OwnFrames (c : Endpoint plC κC τC) : Prop where
  made : ∀ g ∈ c.frames, OfClient c g
  increasing : c.frames.Pairwise fun g g' =>
    ∀ i j, g.origin = .request i → g'.origin = .request j → i < j

variable {c c' : Endpoint plC κC τC}
  {incomingRequest incomingObject incomingComplete : Option κC}

theorem OfClient.mono {g : SentFrame plC} (h : OfClient c g)
    (hrequests : c.requests <+: c'.requests) : OfClient c' g := by
  rcases h with ⟨number, r, hr, horigin, hflags, hbodies, hpos, hle, hid⟩ |
    ⟨number, during, hg, hpos, hlt⟩
  · exact Or.inl ⟨number, r, hrequests.subset hr, horigin, hflags, hbodies, hpos,
      hle.trans hrequests.length_le, hid⟩
  · exact Or.inr ⟨number, during, hg, hpos, hlt.trans_le hrequests.length_le⟩

/-- The number of a request that was sent. -/
theorem OfClient.number_le {g : SentFrame plC} (h : OfClient c g) {number : Nat}
    (horigin : g.origin = .request number) : number ≤ c.requests.length := by
  rcases h with ⟨number', r, -, horigin', -, -, -, hle, -⟩ | ⟨number', during, rfl, -, -⟩
  · rw [horigin'] at horigin
    cases horigin
    exact hle
  · cases horigin

/-- The client and the server understand each other's frames. -/
theorem OfClient.wellFormed {g : SentFrame plC} (h : OfClient c g)
    (hcount : ∀ r ∈ c.requests, r.object.properties.length ≤ 14) : g.WellFormed := by
  rcases h with ⟨number, r, hr, -, -, hbodies, -, -, -⟩ | ⟨number, during, rfl, -, -⟩
  · refine ⟨[r.object.properties], List.cons_ne_nil _ _, ?_, ?_, ?_⟩
    · have := r.object.size_le
      rw [frameSize_cons, frameSize_nil]
      omega
    · rw [hbodies, r.object.represents.sentBody_eq]
      rfl
    · intro props hprops
      rw [List.mem_singleton.mp hprops]
      exact hcount r hr
  · exact bounceFrame_wellFormed _ _

theorem FromServer.wellFormed {f : SentFrame plS} (h : FromServer c f) : f.WellFormed := by
  rcases h with ⟨number, answer, -, hok, hframe, -⟩ | ⟨number, during, rfl, -, -⟩
  · exact hok.wellFormed hframe
  · exact bounceFrame_wellFormed _ _

theorem ownFrames_of_nil (hframes : c.frames = []) : OwnFrames c := by
  constructor
  · rw [hframes]
    exact fun g hg => absurd hg List.not_mem_nil
  · rw [hframes]
    exact List.Pairwise.nil

/-- What the client looks like does not matter, as long as it sends the same. -/
theorem OwnFrames.congr (h : OwnFrames c) (hframes : c'.frames = c.frames)
    (hrequests : c'.requests = c.requests) : OwnFrames c' := by
  constructor
  · rw [hframes]
    exact fun g hg => (h.made g hg).mono (by rw [hrequests])
  · rw [hframes]
    exact h.increasing

/-- A request is sent with its number as its id. -/
theorem OwnFrames.install (h : OwnFrames c)
    (hinstalled : Installed incomingRequest incomingObject incomingComplete c)
    (r : Request plC κC) : OwnFrames (c.install r) := by
  have hlength : (c.install r).requests.length = c.requests.length + 1 := List.length_append
  have hrequests : c.requests <+: (c.install r).requests := List.prefix_append _ _
  constructor
  · intro g hg
    rcases List.mem_append.mp hg with hg | hg
    · exact (h.made g hg).mono hrequests
    · rw [List.mem_singleton.mp hg]
      refine Or.inl ⟨c.requests.length + 1, r, List.mem_append_right _ (List.mem_singleton.mpr rfl),
        rfl, rfl, rfl, Nat.le_add_left 1 _, hlength.ge, ?_⟩
      rw [← hlength]
      exact (hinstalled.install r).currentRequestId
  · refine List.pairwise_append.mpr ⟨h.increasing, List.pairwise_singleton _ _, ?_⟩
    intro g hg g' hg' i j hi hj
    rw [List.mem_singleton.mp hg'] at hj
    cases hj
    -- the numbers of the requests before are those issued before
    exact Nat.lt_succ_of_le ((h.made g hg).number_le hi)

theorem OwnFrames.follows {a : Application plC κC τC} (hfollows : Follows a c c')
    (hinstalled : Installed incomingRequest incomingObject incomingComplete c)
    (h : OwnFrames c) : OwnFrames c' := by
  have hboth := hfollows.keeps
    (P := fun c' => Installed incomingRequest incomingObject incomingComplete c' ∧ OwnFrames c')
    ?_ ?_ ?_ ⟨hinstalled, h⟩
  · exact hboth.2
  · exact fun c app hc => ⟨hc.1.congr rfl rfl, hc.2.congr rfl rfl⟩
  · rintro c _ ⟨sends, wire, rfl⟩ hc
    exact ⟨hc.1.congr rfl rfl, hc.2.congr rfl rfl⟩
  · exact fun r c hc => ⟨hc.1.install r, hc.2.install hc.1 r⟩

/-- One more error reply. -/
theorem OwnFrames.bounce (h : OwnFrames c) {number during : Nat} (hpos : 1 ≤ number)
    (hlt : number < c.requests.length) (hrequests : c'.requests = c.requests)
    (hframes : c'.frames = c.frames ++ [bounceFrame plC (UInt16.ofNat number) during]) :
    OwnFrames c' := by
  constructor
  · rw [hframes]
    intro g hg
    rcases List.mem_append.mp hg with hg | hg
    · exact (h.made g hg).mono (by rw [hrequests])
    · rw [List.mem_singleton.mp hg]
      exact Or.inr ⟨number, during, rfl, hpos, by rwa [hrequests]⟩
  · rw [hframes]
    refine List.pairwise_append.mpr ⟨h.increasing, List.pairwise_singleton _ _, ?_⟩
    intro g hg g' hg' i j hi hj
    rw [List.mem_singleton.mp hg'] at hj
    cases hj

/-- A callback at the client: requests, and an error reply if the response is
stale. -/
theorem OwnFrames.react (a : Application plC κC τC) {frames : List (SentFrame plS)}
    {p p' : Position}
    (hclient : ClientSide incomingRequest incomingObject incomingComplete c frames p)
    {callback : Callback} (hdue : Due frames p callback p') (h : OwnFrames c) :
    OwnFrames (c.react a callback) := by
  obtain ⟨c₁, hfollows, hsettles⟩ := react_eq a callback c
  have hsteady := direct_steady callback c
  have hdirect : OwnFrames (c.direct callback) :=
    h.congr (direct_output callback c).2 hsteady.requests
  have h₁ : OwnFrames c₁ := hdirect.follows hfollows (hclient.installed.steady hsteady)
  have hrequests : c.requests <+: c₁.requests := by
    rw [← hsteady.requests]
    exact prefix_requests_follows hfollows
  obtain ⟨replies, hframes, hreplies⟩ := settles_frames hsettles
  cases hreplies with
  | quiet _ =>
      exact h₁.congr (by rw [hframes, List.append_nil]) hsettles.closed.requests
  | bounce hresponse hid =>
      cases hdue with
      | completion hf _ _ =>
          obtain ⟨-, number, hpos, hle, hnumber⟩ :=
            (hclient.fromServer _ (List.mem_of_getElem? hf)).exists_number
          -- the id is not that of the latest request
          have hne : number ≠ c.requests.length := by
            rintro rfl
            exact hid (hclient.installed.currentRequestId.trans hnumber.symm)
          exact h₁.bounce hpos ((Nat.lt_of_le_of_ne hle hne).trans_le hrequests.length_le)
            hsettles.closed.requests (by rw [hframes, hnumber])
  | answer hrequest _ _ _ =>
      cases hdue with
      | completion hf _ _ =>
          exact absurd (hclient.fromServer _ (List.mem_of_getElem? hf)).exists_number.1 hrequest

end Own

/-! ## The server -/

section Server

variable {plC plS : Platform} {κC τC κS τS : Type}

/-- The server's part of the invariant, over the frames of the client and the
server's position in them: it issues no requests, and has sent its answers one
behind the other, each at the completion of a frame. -/
structure ServerSide (incomingRequest incomingObject incomingComplete : Option κS)
    (e : Endpoint plS κS τS) (received : List (SentFrame plC)) (q : Position) : Prop where
  installed : Installed incomingRequest incomingObject incomingComplete e
  idle : e.requests = []
  tallied : e.Tallied
  within : q.Within received
  started : e.started = q.started
  answered : ∀ f ∈ e.frames, f.origin.isAnswer = true → f.during ≤ q.completed
  increasing : e.frames.Pairwise fun f g =>
    f.origin.isAnswer = true → g.origin.isAnswer = true → f.during < g.during

variable {c : Endpoint plC κC τC} {e e' : Endpoint plS κS τS} {received : List (SentFrame plC)}
  {q q' : Position} {incomingRequest incomingObject incomingComplete : Option κS}

/-- The client sends more. -/
theorem ServerSide.grown
    (h : ServerSide incomingRequest incomingObject incomingComplete e received q)
    {received' : List (SentFrame plC)} (hgrown : received <+: received') :
    ServerSide incomingRequest incomingObject incomingComplete e received' q :=
  ⟨h.installed, h.idle, h.tallied, (h.within.mono hgrown).1, h.started, h.answered, h.increasing⟩

/-- An endpoint without requests of its own has sent none. -/
theorem requests_eq_nil_of_idle {frames requests replies : List (SentFrame plS)}
    (htallied : e'.Tallied) (hidle : e'.requests = [])
    (hframes : e'.frames = frames ++ (requests ++ replies))
    (hrequests : ∀ f ∈ requests, f.IsRequest) : requests = [] := by
  have hcount := htallied.requests
  rw [hidle, hframes, requestCount_append, requestCount_append, List.length_nil] at hcount
  have hnone : requestCount requests = 0 := by omega
  refine List.eq_nil_iff_forall_not_mem.mpr fun f hf => ?_
  obtain ⟨-, number, horigin⟩ := hrequests f hf
  refine List.countP_eq_zero.mp hnone f hf ?_
  rw [horigin]
  rfl

/-- Application code at the server changes nothing but the application's state. -/
theorem ServerSide.follows {a : Application plS κS τS} (hfollows : Follows a e e')
    (hidle : e'.requests = [])
    (h : ServerSide incomingRequest incomingObject incomingComplete e received q) :
    e'.frames = e.frames ∧
      ServerSide incomingRequest incomingObject incomingComplete e' received q := by
  obtain ⟨requests, hframes, hrequests⟩ := hfollows.frames_eq
  have htallied := h.tallied.follows hfollows
  have hsplit : e'.frames = e.frames ++ (requests ++ []) := by rw [hframes, List.append_nil]
  have hnone := requests_eq_nil_of_idle htallied hidle hsplit hrequests
  rw [hnone, List.append_nil] at hframes
  refine ⟨hframes, h.installed.follows hfollows, hidle, htallied, h.within, ?_, ?_, ?_⟩
  · exact hfollows.untouched.started.trans h.started
  · rw [hframes]
    exact h.answered
  · rw [hframes]
    exact h.increasing

/-- Only the direct part of a callback counts frames. -/
theorem react_started {a : Application plS κS τS} (callback : Callback) (e : Endpoint plS κS τS) :
    (e.react a callback).started = (e.direct callback).started := by
  obtain ⟨e₁, hfollows, hsettles⟩ := react_eq a callback e
  rw [hsettles.closed.started, hfollows.untouched.started]

/-- The server comes to a new position with some new frames: if there are answers
among them, it is one, which was sent during the frame just completed. -/
theorem ServerSide.advance
    (h : ServerSide incomingRequest incomingObject incomingComplete e received q)
    {a : Application plS κS τS} {callback : Callback} (hdue : Due received q callback q')
    (hidle : (e.react a callback).requests = []) {new : List (SentFrame plS)}
    (hframes : (e.react a callback).frames = e.frames ++ new)
    (hnew : ∀ f ∈ new, f.origin.isAnswer = true → f.during = q.completed + 1 ∧
      q'.completed = q.completed + 1)
    (hone : new.length ≤ 1) :
    ServerSide incomingRequest incomingObject incomingComplete (e.react a callback)
      received q' := by
  have hmono : q.completed ≤ q'.completed := by
    cases hdue with
    | header _ _ => exact le_rfl
    | object _ _ _ => exact le_rfl
    | completion _ _ _ => exact Nat.le_succ _
  refine ⟨h.installed.react callback, hidle, h.tallied.react callback, hdue.within, ?_, ?_, ?_⟩
  · rw [react_started]
    exact hdue.started h.started
  · rw [hframes]
    intro f hf hanswer
    rcases List.mem_append.mp hf with hf | hf
    · exact (h.answered f hf hanswer).trans hmono
    · obtain ⟨hduring, hcompleted⟩ := hnew f hf hanswer
      rw [hduring, hcompleted]
  · rw [hframes]
    refine List.pairwise_append.mpr ⟨h.increasing, ?_, ?_⟩
    · match new, hone with
      | [], _ => exact List.Pairwise.nil
      | [f], _ => exact List.pairwise_singleton _ _
    · intro f hf g hg hfanswer hganswer
      rw [(hnew g hg hganswer).1]
      exact Nat.lt_succ_of_le (h.answered f hf hfanswer)

/-- **A callback at the server.**  Every frame that it sends is one that the
client is prepared for. -/
theorem ServerSide.react {a : Application plS κS τS}
    (hok : ∀ k answer, incomingComplete = some k → a.Answers k answer → answer.Ok)
    (hown : OwnFrames c)
    (h : ServerSide incomingRequest incomingObject incomingComplete e c.frames q)
    {callback : Callback} (hdue : Due c.frames q callback q')
    (hidle : (e.react a callback).requests = []) :
    ∃ new, (e.react a callback).frames = e.frames ++ new ∧ (∀ f ∈ new, FromServer c f) ∧
      ServerSide incomingRequest incomingObject incomingComplete (e.react a callback) c.frames
        q' := by
  obtain ⟨requests, replies, hframes, hrequests, hreplies⟩ := react_frames (a := a) callback e
  have hnone := requests_eq_nil_of_idle (h.tallied.react callback) hidle hframes hrequests
  rw [hnone, List.nil_append] at hframes
  have hstarted : (e.react a callback).started = q'.started := by
    rw [react_started]
    exact hdue.started h.started
  rw [hstarted] at hreplies
  refine ⟨replies, hframes, ?_⟩
  cases hreplies with
  | quiet _ =>
      exact ⟨fun f hf => absurd hf List.not_mem_nil, h.advance hdue hidle hframes
        (fun f hf => absurd hf List.not_mem_nil) (Nat.zero_le _)⟩
  | bounce hresponse hid =>
      refine ⟨fun f hf => ?_, h.advance hdue hidle hframes (fun f hf hanswer => ?_) le_rfl⟩
      · rw [List.mem_singleton.mp hf]
        cases hdue with
        | completion hg _ _ =>
            -- a response of the client is an error reply
            rcases hown.made _ (List.mem_of_getElem? hg) with ⟨number, r, -, -, hflags, -⟩ |
              ⟨number, during, rfl, hpos, hlt⟩
            · rw [hflags] at hresponse
              exact absurd rfl hresponse
            · exact Or.inr ⟨number, _, rfl, hpos, hlt⟩
      · rw [List.mem_singleton.mp hf] at hanswer
        cases hanswer
  | @answer flags requestId _ answer f k hrequest hk hanswer hframe =>
      obtain ⟨horigin, -, hid, hduring⟩ := Answer.frame?_eq_some hframe
      cases hdue with
      | @completion g _ hg hp hend =>
          have hnow : f.during = q.completed + 1 := hduring
          refine ⟨fun f' hf' => ?_, h.advance (.completion hg hp hend) hidle hframes
            (fun f' hf' _ => ?_) le_rfl⟩
          · rw [List.mem_singleton.mp hf']
            -- what is not a response of the client is one of its requests
            rcases hown.made _ (List.mem_of_getElem? hg) with
              ⟨number, r, -, hnumber, -, -, hpos, hle, hrequestId⟩ | ⟨number, during, rfl, -, -⟩
            · refine Or.inl ⟨number, answer, ⟨horigin, g, ?_, ?_, hnumber, hid⟩,
                hok k answer (h.installed.incomingComplete.symm.trans hk) hanswer, ?_, hpos, hle,
                hid.trans hrequestId⟩
              · rw [hnow]
                exact Nat.le_add_left 1 _
              · rw [hnow]
                exact hg
              · rw [hid, hduring]
                exact hframe
            · exact absurd isResponse_error_response hrequest
          · rw [List.mem_singleton.mp hf']
            exact ⟨hnow, rfl⟩

/-- Elements that are not in order are the same. -/
theorem index_eq_of_pairwise {α : Type} {R : α → α → Prop} {l : List α} (hl : l.Pairwise R)
    {i j : Nat} {x y : α} (hx : l[i]? = some x) (hy : l[j]? = some y) (hxy : ¬ R x y)
    (hyx : ¬ R y x) : i = j := by
  obtain ⟨hi, rfl⟩ := List.getElem?_eq_some_iff.mp hx
  obtain ⟨hj, rfl⟩ := List.getElem?_eq_some_iff.mp hy
  rcases Nat.lt_trichotomy i j with hlt | heq | hgt
  · exact absurd (List.pairwise_iff_getElem.mp hl i j hi hj hlt) hxy
  · exact heq
  · exact absurd (List.pairwise_iff_getElem.mp hl j i hj hi hgt) hyx

/-- There is only one frame of the server for a request. -/
theorem ServerSide.answer_unique
    (h : ServerSide incomingRequest incomingObject incomingComplete e c.frames q)
    (hown : OwnFrames c) {number i j : Nat} {f g : SentFrame plS} {answer answer' : Answer plS}
    (hf : e.frames[i]? = some f) (hg : e.frames[j]? = some g)
    (hfanswers : AnswersRequest c number f answer) (hganswers : AnswersRequest c number g answer') :
    i = j := by
  obtain ⟨u, hfduring, hu, huorigin, -⟩ := hfanswers.request
  obtain ⟨v, hgduring, hv, hvorigin, -⟩ := hganswers.request
  -- both were sent during the frame with that request, and there is one
  have hsame : f.during - 1 = g.during - 1 :=
    index_eq_of_pairwise hown.increasing hu hv
      (fun hlt => absurd (hlt number number huorigin hvorigin) (Nat.lt_irrefl _))
      (fun hlt => absurd (hlt number number hvorigin huorigin) (Nat.lt_irrefl _))
  have hfanswer : f.origin.isAnswer = true := by
    rw [hfanswers.origin]
    rfl
  have hganswer : g.origin.isAnswer = true := by
    rw [hganswers.origin]
    rfl
  refine index_eq_of_pairwise h.increasing hf hg (fun hlt => ?_) (fun hlt => ?_)
  · have := hlt hfanswer hganswer
    omega
  · have := hlt hganswer hfanswer
    omega

/-- And no other answer of the server has the same id. -/
theorem ServerSide.unique
    (h : ServerSide incomingRequest incomingObject incomingComplete e c.frames q)
    (hown : OwnFrames c) (hfrom : ∀ f ∈ e.frames, FromServer c f)
    (hle : c.requests.length ≤ 65535) {i j : Nat} {f g : SentFrame plS}
    (hf : e.frames[i]? = some f) (hg : e.frames[j]? = some g)
    (hfanswer : f.origin.isAnswer = true) (hganswer : g.origin.isAnswer = true)
    (hid : f.requestId = g.requestId) : i = j := by
  have hnumber : ∀ f ∈ e.frames, f.origin.isAnswer = true → ∃ number answer,
      AnswersRequest c number f answer ∧ number ≤ c.requests.length ∧
        f.requestId = UInt16.ofNat number := by
    intro f hf hanswer
    rcases hfrom f hf with ⟨number, answer, hanswers, -, -, -, hnumber, hid⟩ |
      ⟨number, during, rfl, -, -⟩
    · exact ⟨number, answer, hanswers, hnumber, hid⟩
    · cases hanswer
  obtain ⟨m, answer, hfanswers, hm, hfid⟩ := hnumber f (List.mem_of_getElem? hf) hfanswer
  obtain ⟨n, answer', hganswers, hn, hgid⟩ := hnumber g (List.mem_of_getElem? hg) hganswer
  obtain rfl : m = n :=
    u16OfNat_inj (hm.trans hle) (hn.trans hle) (hfid.symm.trans (hid.trans hgid))
  exact h.answer_unique hown hf hg hfanswers hganswers

end Server

end ZxProto
