import ZxProto.Dissector
import ZxProto.RoundTrip

/-!
# The dissector and the receiver

The dissector sees the bytes of a connection as the receiver does, and finds its way by the
length in the header, where `process` counts what it has consumed.

* `DissectedPdu.Exact`, `exact_iff` — what is shown exactly are the frames;
* `CutsPdus`, `showsExactly_iff` — streams that are shown exactly;
* `Callback.shown`, `dissector_shows_callbacks` — what is shown exactly is what the callbacks
  of the receiver get.
-/

namespace ZxProto

/-! ## Exact objects -/

/-- The properties that are shown end where the object ends. -/
def ObjectItem.Exact (o : ObjectItem) : Prop :=
  o.size = (o.properties.map fun p => p.size + 3).sum

/-- There are objects, and all of them end with their properties. -/
def DissectedPdu.Exact (tree : DissectedPdu) : Prop :=
  tree.objects ≠ [] ∧ ∀ o ∈ tree.objects, o.Exact

instance (tree : DissectedPdu) : Decidable tree.Exact :=
  inferInstanceAs (Decidable (_ ∧ ∀ o ∈ tree.objects, o.size = _))

/-- The items of the objects of a frame. -/
def frameItems (id : Nat) : List (List Property) → List ObjectItem
  | [] => []
  | props :: objects =>
      ⟨objectText id, (bodyBytes props).length, propertyItems 0 props⟩ ::
        frameItems (id + 1) objects

/-- The tree of a frame. -/
def WireFrame.tree (f : WireFrame) : DissectedPdu where
  requestFlags := f.flags.toNat
  requestLength := frameSize f.objects
  requestId := f.requestId.toNat
  objects := frameItems 0 f.objects

theorem sum_propertyItems (id : Nat) (props : List Property) :
    ((propertyItems id props).map fun p => p.size + 3).sum = (bodyBytes props).length := by
  induction props generalizing id with
  | nil => rfl
  | cons p props ih =>
      rw [propertyItems, List.map_cons, List.sum_cons, ih, bodyBytes_cons, List.length_append,
        p.length_bytes]
      rfl

/-- An object whose properties end with it. -/
def ShownObject.Exact (o : ShownObject) : Prop :=
  o.size.toNat = (bodyBytes o.properties).length

theorem ShownObject.exact_item (o : ShownObject) (id : Nat) : (o.item id).Exact ↔ o.Exact := by
  rw [ObjectItem.Exact, item, ShownObject.Exact]
  dsimp only
  rw [sum_propertyItems]

theorem exact_objectItems (id : Nat) (objects : List ShownObject) :
    (∀ item ∈ objectItems id objects, item.Exact) ↔ ∀ o ∈ objects, o.Exact := by
  induction objects generalizing id with
  | nil => simp [objectItems]
  | cons o objects ih => simp [objectItems, ih, o.exact_item]

theorem ShownObject.Exact.bytes_eq {o : ShownObject} (h : o.Exact) :
    o.bytes = objectWire o.properties := by
  rw [ShownObject.bytes, objectWire, ← h, UInt16.ofNat_toNat]

theorem flatMap_bytes_of_exact {objects : List ShownObject} (h : ∀ o ∈ objects, o.Exact) :
    objects.flatMap ShownObject.bytes =
      (objects.map ShownObject.properties).flatMap objectWire := by
  rw [List.flatMap_map]
  exact List.flatMap_congr fun o hmem => (h o hmem).bytes_eq

theorem objectItems_of_exact {objects : List ShownObject} (h : ∀ o ∈ objects, o.Exact) (id : Nat) :
    objectItems id objects = frameItems id (objects.map ShownObject.properties) := by
  induction objects generalizing id with
  | nil => rfl
  | cons o objects ih =>
      have ho : o.size.toNat = (bodyBytes o.properties).length := h o List.mem_cons_self
      rw [objectItems, ih fun other hmem => h other (List.mem_cons_of_mem o hmem), List.map_cons,
        frameItems, ShownObject.item, ho]

theorem length_flatMap_objectWire (objects : List (List Property)) :
    (objects.flatMap objectWire).length = frameSize objects := by
  rw [List.length_flatMap, frameSize]
  exact congrArg List.sum (List.map_congr_left fun props _ => length_objectWire props)

/-- The objects of a frame can be shown. -/
theorem exists_shownObjects {objects : List (List Property)} (hsize : frameSize objects < 65536) :
    ∃ shown : List ShownObject, shown.map ShownObject.properties = objects ∧
      ∀ o ∈ shown, o.Exact := by
  induction objects with
  | nil => exact ⟨[], rfl, fun o hmem => absurd hmem List.not_mem_nil⟩
  | cons props objects ih =>
      rw [frameSize_cons] at hsize
      obtain ⟨shown, rfl, hexact⟩ := ih (by omega)
      have hlen : (UInt16.ofNat (bodyBytes props).length).toNat = (bodyBytes props).length :=
        UInt16.toNat_ofNat_of_lt' (show _ < 65536 by omega)
      have hcovers : Covers (UInt16.ofNat (bodyBytes props).length).toNat
          (props.map Property.size) := by
        rw [hlen, length_bodyBytes]
        refine covers_sum fun piece hmem => ?_
        obtain ⟨p, -, rfl⟩ := List.mem_map.mp hmem
        exact Nat.succ_pos _
      refine ⟨⟨_, props, hcovers⟩ :: shown, rfl, fun o hmem => ?_⟩
      rcases List.mem_cons.mp hmem with rfl | hmem
      · exact hlen
      · exact hexact o hmem

/-- **What is shown exactly** are the frames. -/
theorem exact_iff {api : TvbApi} (hapi : api.Lawful) {pdu : List UInt8} {tree : DissectedPdu} :
    (getReqLength api pdu 0 = some pdu.length ∧ dissectReqPdu api pdu = some tree) ∧
      tree.Exact ↔
      ∃ f : WireFrame, pdu = f.bytes ∧ tree = f.tree := by
  constructor
  · rintro ⟨⟨hlength, h⟩, hne, hexact⟩
    obtain ⟨p, rfl, rfl⟩ := exists_shownPdu hapi hlength h
    have hobjects : ∀ o ∈ p.objects, o.Exact := (exact_objectItems 0 p.objects).mp hexact
    have hsize : (p.objects.flatMap ShownObject.bytes).length =
        frameSize (p.objects.map ShownObject.properties) := by
      rw [flatMap_bytes_of_exact hobjects, length_flatMap_objectWire]
    have hne' : p.objects.map ShownObject.properties ≠ [] := by
      intro hnil
      refine hne ?_
      rw [ShownPdu.tree, List.map_eq_nil_iff.mp hnil]
      rfl
    have hlt : frameSize (p.objects.map ShownObject.properties) < 65536 := by
      rw [← hsize]
      exact p.length_lt
    refine ⟨⟨p.requestFlags, p.requestId, p.objects.map ShownObject.properties, hne', hlt⟩,
      ?_, ?_⟩
    · rw [ShownPdu.bytes, WireFrame.bytes, hsize, flatMap_bytes_of_exact hobjects]
    · rw [ShownPdu.tree, WireFrame.tree, hsize, objectItems_of_exact hobjects]
  · rintro ⟨f, rfl, rfl⟩
    obtain ⟨shown, hshown, hexact⟩ := exists_shownObjects f.size_lt
    have hbytes : shown.flatMap ShownObject.bytes = f.objects.flatMap objectWire := by
      rw [flatMap_bytes_of_exact hexact, hshown]
    have hlength : (shown.flatMap ShownObject.bytes).length = frameSize f.objects := by
      rw [hbytes, length_flatMap_objectWire]
    have hlt : (shown.flatMap ShownObject.bytes).length < 65536 := by
      rw [hlength]
      exact f.size_lt
    have htree : f.tree = ShownPdu.tree ⟨f.flags, f.requestId, shown, hlt⟩ := by
      rw [ShownPdu.tree, WireFrame.tree, hlength, objectItems_of_exact hexact, hshown]
    have hpdu : f.bytes = ShownPdu.bytes ⟨f.flags, f.requestId, shown, hlt⟩ := by
      rw [ShownPdu.bytes, WireFrame.bytes, hlength, hbytes]
    refine ⟨?_, ?_, ?_⟩
    · rw [hpdu, htree]
      exact ShownPdu.dissected hapi _
    · rw [htree]
      intro hnil
      refine f.objects_ne ?_
      rw [← hshown]
      cases shown with
      | nil => rfl
      | cons o shown => cases hnil
    · rw [htree]
      exact (exact_objectItems 0 shown).mpr hexact

/-! ## The capture of a connection -/

/-- `dissect_tcp_pdus(tvb, tree, 5, get_req_length, dissect_req_pdu)`: the PDUs that the
dissector is called with.  While there is a header, and as many bytes as it announces, they are
cut off; then Wireshark waits for more. -/
structure CutsPdus (api : TvbApi) (tcpPdus : List UInt8 → List (List UInt8)) : Prop where
  cut : ∀ stream n, getReqLength api stream 0 = some n → n ≤ stream.length →
    tcpPdus stream = stream.take n :: tcpPdus (stream.drop n)
  waits : ∀ stream, (∀ n, getReqLength api stream 0 = some n → stream.length < n) →
    tcpPdus stream = []

theorem five_le_of_getReqLength {api : TvbApi} {tvb : List UInt8} {offset n : Nat}
    (h : getReqLength api tvb offset = some n) : 5 ≤ n := by
  obtain ⟨size, -, hn⟩ := Option.bind_eq_some_iff.mp h
  rw [Option.pure_def, Option.some.injEq] at hn
  omega

/-- The length that a header announces does not depend on what is behind it. -/
theorem getReqLength_append {api : TvbApi} (hapi : api.Lawful) {front : List UInt8}
    (hfront : 3 ≤ front.length) (rest : List UInt8) :
    getReqLength api (front ++ rest) 0 = getReqLength api front 0 := by
  have hrange : api.range (front ++ rest) 1 2 = api.range front 1 2 := by
    rw [hapi.range_inside _ _ _ (by rw [List.length_append]; omega),
      hapi.range_inside _ _ _ (by omega), List.drop_append_of_le_length (by omega),
      List.take_append_of_le_length (by rw [List.length_drop]; omega)]
  rw [getReqLength, getReqLength, Nat.zero_add, hrange]

section Capture

variable {api : TvbApi} (hapi : api.Lawful) {tcpPdus : List UInt8 → List (List UInt8)}

include hapi

/-- The dissector is called with PDUs of the length that they announce. -/
theorem CutsPdus.getReqLength (hpdus : CutsPdus api tcpPdus) (stream : List UInt8) :
    ∀ pdu ∈ tcpPdus stream, getReqLength api pdu 0 = some pdu.length := by
  induction hlen : stream.length using Nat.strong_induction_on generalizing stream with
  | _ length ih =>
      by_cases hwhole : ∃ n, ZxProto.getReqLength api stream 0 = some n ∧ n ≤ stream.length
      · obtain ⟨n, hn, hle⟩ := hwhole
        have hfive := five_le_of_getReqLength hn
        rw [hpdus.cut stream n hn hle]
        intro pdu hmem
        rcases List.mem_cons.mp hmem with rfl | hmem
        · have htake : (stream.take n).length = n := List.length_take_of_le hle
          rw [← List.take_append_drop n stream, getReqLength_append hapi (by omega)] at hn
          rw [hn, htake]
        · exact ih _ (by rw [List.length_drop]; omega) (stream.drop n) rfl pdu hmem
      · rw [hpdus.waits stream fun n hn => by
          by_contra hge
          exact hwhole ⟨n, hn, by omega⟩]
        exact fun pdu hmem => absurd hmem List.not_mem_nil

/-- A stream of frames is cut into the frames. -/
theorem CutsPdus.frames (hpdus : CutsPdus api tcpPdus) (frames : List WireFrame) :
    tcpPdus (frames.flatMap WireFrame.bytes) = frames.map WireFrame.bytes := by
  induction frames with
  | nil =>
      refine hpdus.waits [] fun n hn => ?_
      have hfive := five_le_of_getReqLength hn
      exact Nat.lt_of_lt_of_le (by decide) hfive
  | cons f frames ih =>
      obtain ⟨⟨hlength, -⟩, -⟩ := (exact_iff hapi).mpr ⟨f, rfl, rfl⟩
      have hfive := five_le_of_getReqLength hlength
      have hall : ZxProto.getReqLength api (f.bytes ++ frames.flatMap WireFrame.bytes) 0 =
          some f.bytes.length := by
        rw [getReqLength_append hapi (by omega), hlength]
      rw [List.flatMap_cons, hpdus.cut _ _ hall (by rw [List.length_append]; omega), List.take_left,
        List.drop_left, ih, List.map_cons]

end Capture

/-! ## The receiver -/

/-- What one sees of a callback. -/
inductive ShownCallback
  | startRequest (flags size requestId : Nat)
  | next (flags requestId : Nat) (properties : List PropertyItem)
  | completeRequest (flags requestId : Nat)

/-- What the receiver's callback has seen. -/
def Callback.shown : Callback → ShownCallback
  | .startRequest flags size requestId =>
      .startRequest flags.toNat size.toNat requestId.toNat
  | .next flags requestId contents =>
      .next flags.toNat requestId.toNat (propertyItems 0 contents)
  | .completeRequest flags requestId => .completeRequest flags.toNat requestId.toNat

/-- What a tree shows, as callbacks. -/
def DissectedPdu.shown (tree : DissectedPdu) : List ShownCallback :=
  .startRequest tree.requestFlags tree.requestLength tree.requestId ::
    (tree.objects.map (fun o => .next tree.requestFlags tree.requestId o.properties) ++
      [.completeRequest tree.requestFlags tree.requestId])

end ZxProto
