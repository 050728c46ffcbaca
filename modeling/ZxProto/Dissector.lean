import ZxProto.Send

/-!
# The dissector for Wireshark

The documentation has a dissector in Lua, which reads the same frames as `process`, from the
capture of a connection.

* `TvbApi` — what Wireshark gives it of the buffer, and `TvbApi.Lawful`, what it relies on;
* `dissectProperty`, `dissectProperties`, `dissectObject`, `dissectObjects`, `dissectReqPdu`,
  `getReqLength` — the script, as the tree that it shows;
* `ShownObject`, `ShownPdu`, `dissectReqPdu_eq_some_iff` — what it shows: the properties of
  an object are shown until they have covered its size, and the objects until they have
  covered the length.

The lines that are printed to the console are left out.
-/

namespace ZxProto

open ByteMemory

/-! ## The buffer -/

/-- What the script uses of Wireshark: `tvbuf(offset, length)`, which is an error where there is no
result, and `le_uint()` of a range. -/
structure TvbApi where
  range : List UInt8 → Nat → Nat → Option (List UInt8)
  leUint : List UInt8 → Nat

/-- What it relies on: a range that is inside of the buffer has its bytes, and another one is an
error; `le_uint()` takes the low byte first, of up to four bytes. -/
structure TvbApi.Lawful (api : TvbApi) : Prop where
  range_inside : ∀ tvb offset length, offset + length ≤ tvb.length →
    api.range tvb offset length = some ((tvb.drop offset).take length)
  range_outside : ∀ tvb offset length, tvb.length < offset + length →
    api.range tvb offset length = none
  leUint : ∀ range : List UInt8, 0 < range.length → range.length ≤ 4 →
    api.leUint range = range.foldr (fun byte n => byte.toNat + 256 * n) 0

section Buffer

variable {api : TvbApi} (hapi : api.Lawful)

include hapi

theorem TvbApi.Lawful.leUint_one (byte : UInt8) : api.leUint [byte] = byte.toNat := by
  rw [hapi.leUint [byte] Nat.one_pos (by simp)]
  rfl

theorem TvbApi.Lawful.leUint_two (lo hi : UInt8) :
    api.leUint [lo, hi] = (u16le lo hi).toNat := by
  rw [toNat_u16le, hapi.leUint [lo, hi] Nat.two_pos (by simp)]
  simp

theorem TvbApi.Lawful.leUint_u16Bytes (w : UInt16) : api.leUint (u16Bytes w) = w.toNat := by
  rw [u16Bytes, hapi.leUint_two, u16le_u16Bytes]

theorem TvbApi.Lawful.range_eq_some {tvb range : List UInt8} {offset length : Nat}
    (h : api.range tvb offset length = some range) :
    range.length = length ∧ ∃ rest, tvb.drop offset = range ++ rest := by
  by_cases hle : offset + length ≤ tvb.length
  · rw [hapi.range_inside tvb offset length hle] at h
    cases h
    refine ⟨?_, (tvb.drop offset).drop length, (List.take_append_drop _ _).symm⟩
    rw [List.length_take, List.length_drop]
    omega
  · rw [hapi.range_outside tvb offset length (by omega)] at h
    cases h

theorem TvbApi.Lawful.range_of_drop {tvb range rest : List UInt8} {offset length : Nat}
    (hdrop : tvb.drop offset = range ++ rest) (hoffset : offset ≤ tvb.length)
    (hlength : range.length = length) : api.range tvb offset length = some range := by
  subst hlength
  have hle := congrArg List.length hdrop
  rw [List.length_drop, List.length_append] at hle
  rw [hapi.range_inside tvb offset range.length (by omega), hdrop, List.take_left]

end Buffer

/-! ## The script -/

/-- `Property`, in the tree. -/
structure PropertyItem where
  text : String
  key : Nat
  size : Nat
  value : List UInt8
deriving DecidableEq

/-- `Object`, in the tree. -/
structure ObjectItem where
  text : String
  size : Nat
  properties : List PropertyItem
deriving DecidableEq

/-- `Channels Protocol Data`. -/
structure DissectedPdu where
  requestFlags : Nat
  requestLength : Nat
  requestId : Nat
  objects : List ObjectItem
deriving DecidableEq

/-- The text of a property. -/
def propertyText (id key : Nat) : String :=
  "Property " ++ toString id ++ " (" ++ String.singleton (Char.ofNat key) ++ ")"

/-- The text of an object. -/
def objectText (id : Nat) : String :=
  "Object " ++ toString id

section Script

variable (api : TvbApi)

/-- The body of the inner loop: a property that starts at `start`. -/
def dissectProperty (tvb : List UInt8) (start id : Nat) : Option (Nat × PropertyItem) := do
  let propertySize := api.leUint (← api.range tvb start 2)
  let propertyKey := api.leUint (← api.range tvb (start + 2) 1)
  let _range ← api.range tvb start (propertySize + 3)
  let value ← api.range tvb (start + 3) propertySize
  pure (propertySize, ⟨propertyText id propertyKey, propertyKey, propertySize, value⟩)

/-- `while (consumed_properties < object_size)`; the properties start at `start`. -/
def dissectProperties (tvb : List UInt8) (start objectSize consumedProperties id : Nat) :
    Option (Nat × List PropertyItem) :=
  if consumedProperties < objectSize then
    match dissectProperty api tvb (start + consumedProperties) id with
    | none => none
    | some (propertySize, item) =>
        (dissectProperties tvb start objectSize (consumedProperties + propertySize + 3)
          (id + 1)).map fun rest => (rest.1, item :: rest.2)
  else some (consumedProperties, [])
termination_by objectSize - consumedProperties

/-- The body of the outer loop, and `consumed_properties` at its end. -/
def dissectObject (tvb : List UInt8) (consumedOffset id : Nat) : Option (Nat × ObjectItem) := do
  let objectSize := api.leUint (← api.range tvb (consumedOffset + 5) 2)
  let _range ← api.range tvb (consumedOffset + 5) (objectSize + 2)
  let _properties ← api.range tvb (consumedOffset + 7) objectSize
  let shown ← dissectProperties api tvb (consumedOffset + 7) objectSize 0 0
  pure (shown.1, ⟨objectText id, objectSize, shown.2⟩)

/-- `while (consumed_offset < request_length)`. -/
def dissectObjects (tvb : List UInt8) (requestLength consumedOffset id : Nat) :
    Option (List ObjectItem) :=
  if consumedOffset < requestLength then
    match dissectObject api tvb consumedOffset id with
    | none => none
    | some (consumedProperties, item) =>
        (dissectObjects tvb requestLength (consumedOffset + consumedProperties + 2)
          (id + 1)).map (item :: ·)
  else some []
termination_by requestLength - consumedOffset

/-- `dissect_req_pdu`. -/
def dissectReqPdu (tvb : List UInt8) : Option DissectedPdu := do
  let requestFlags := api.leUint (← api.range tvb 0 1)
  let requestLength := api.leUint (← api.range tvb 1 2)
  let requestId := api.leUint (← api.range tvb 3 2)
  let _objects ← api.range tvb 5 requestLength
  let objects ← dissectObjects api tvb requestLength 0 0
  pure ⟨requestFlags, requestLength, requestId, objects⟩

/-- `get_req_length`. -/
def getReqLength (tvb : List UInt8) (offset : Nat) : Option Nat := do
  let requestSize := api.leUint (← api.range tvb (offset + 1) 2)
  pure (requestSize + 5)

end Script

/-! ## Properties -/

/-- The item of a property. -/
def Property.item (id : Nat) (p : Property) : PropertyItem where
  text := propertyText id p.key.toNat
  key := p.key.toNat
  size := p.value.length
  value := p.value

/-- The items of successive properties. -/
def propertyItems (id : Nat) : List Property → List PropertyItem
  | [] => []
  | p :: props => p.item id :: propertyItems (id + 1) props

/-- Pieces cover a size if they end there or behind it, and not before the last. -/
def Covers : Nat → List Nat → Prop
  | size, [] => size = 0
  | size, piece :: pieces => 0 < size ∧ Covers (size - piece) pieces

theorem Covers.le_sum {size : Nat} {pieces : List Nat} (h : Covers size pieces) :
    size ≤ pieces.sum := by
  induction pieces generalizing size with
  | nil => exact (show size = 0 from h).le
  | cons piece pieces ih =>
      have hle := ih h.2
      rw [List.sum_cons]
      omega

/-- Pieces that are not empty cover their sum. -/
theorem covers_sum {pieces : List Nat} (hpos : ∀ piece ∈ pieces, 0 < piece) :
    Covers pieces.sum pieces := by
  induction pieces with
  | nil => rfl
  | cons piece pieces ih =>
      have hpiece := hpos piece List.mem_cons_self
      rw [List.sum_cons]
      refine ⟨by omega, ?_⟩
      rw [Nat.add_sub_cancel_left]
      exact ih fun other hmem => hpos other (List.mem_cons_of_mem piece hmem)

theorem length_bodyBytes (props : List Property) :
    (bodyBytes props).length = (props.map Property.size).sum := by
  rw [bodyBytes, List.length_flatMap]
  exact congrArg List.sum (List.map_congr_left fun p _ => p.length_bytes)

section Properties

variable {api : TvbApi} (hapi : api.Lawful) {tvb : List UInt8} {start id : Nat}

include hapi

/-- What is shown as a property are the bytes of one. -/
theorem dissectProperty_eq_some_iff {n : Nat} {item : PropertyItem} :
    dissectProperty api tvb start id = some (n, item) ↔
      ∃ (p : Property) (rest : List UInt8), tvb.drop start = p.bytes ++ rest ∧
        n = p.value.length ∧ item = p.item id := by
  constructor
  · intro h
    obtain ⟨size, hsize, h⟩ := Option.bind_eq_some_iff.mp h
    obtain ⟨key, hkey, h⟩ := Option.bind_eq_some_iff.mp h
    obtain ⟨whole, -, h⟩ := Option.bind_eq_some_iff.mp h
    obtain ⟨value, hvalue, h⟩ := Option.bind_eq_some_iff.mp h
    cases h
    obtain ⟨hlen, rest₁, hdrop⟩ := hapi.range_eq_some hsize
    obtain ⟨hlen₂, rest₂, hdrop₂⟩ := hapi.range_eq_some hkey
    obtain ⟨hlen₃, rest₃, hdrop₃⟩ := hapi.range_eq_some hvalue
    obtain ⟨lo, hi, rfl⟩ := List.length_eq_two.mp hlen
    obtain ⟨k, rfl⟩ := List.length_eq_one_iff.mp hlen₂
    rw [hapi.leUint_two] at hlen₃ ⊢
    have hrest₁ : rest₁ = k :: rest₂ := by
      rw [← List.drop_drop, hdrop] at hdrop₂
      exact hdrop₂
    have hrest₂ : rest₂ = value ++ rest₃ := by
      rw [show start + 3 = start + 2 + 1 from rfl, ← List.drop_drop, hdrop₂] at hdrop₃
      exact hdrop₃
    have hk : api.leUint [k] = k.toNat := hapi.leUint_one _
    have hsizeBytes : u16Bytes (UInt16.ofNat value.length) = [lo, hi] := by
      rw [hlen₃, UInt16.ofNat_toNat, u16Bytes_u16le]
    refine ⟨⟨k, value, hlen₃ ▸ (u16le lo hi).toNat_lt⟩, rest₃, ?_, hlen₃.symm, ?_⟩
    · rw [hdrop, hrest₁, hrest₂, Property.bytes]
      dsimp only
      rw [hsizeBytes]
      simp
    · rw [Property.item, hk]
      dsimp only
      rw [hlen₃]
  · rintro ⟨p, rest, hdrop, rfl, rfl⟩
    have hstart : start + p.size ≤ tvb.length := by
      have hlen := congrArg List.length hdrop
      rw [List.length_drop, List.length_append, Property.length_bytes, Property.size,
        sizeofProtoObjectProperty] at hlen
      rw [Property.size, sizeofProtoObjectProperty]
      omega
    rw [Property.size, sizeofProtoObjectProperty] at hstart
    have hbytes : p.bytes ++ rest =
        u16Bytes (UInt16.ofNat p.value.length) ++ (p.key :: (p.value ++ rest)) := by
      simp [Property.bytes]
    have hdrop₂ : tvb.drop (start + 2) = [p.key] ++ (p.value ++ rest) := by
      rw [← List.drop_drop, hdrop, hbytes]
      rfl
    have hdrop₃ : tvb.drop (start + 3) = p.value ++ rest := by
      rw [show start + 3 = start + 2 + 1 from rfl, ← List.drop_drop, hdrop₂]
      rfl
    have hsize : api.leUint (u16Bytes (UInt16.ofNat p.value.length)) = p.value.length := by
      rw [hapi.leUint_u16Bytes, UInt16.toNat_ofNat_of_lt' p.value_lt]
    have hkey : api.leUint [p.key] = p.key.toNat := hapi.leUint_one _
    have hrange₁ : api.range tvb start 2 = some (u16Bytes (UInt16.ofNat p.value.length)) :=
      hapi.range_of_drop (hdrop.trans hbytes) (by omega) (length_u16Bytes _)
    have hrange₂ : api.range tvb (start + 2) 1 = some [p.key] :=
      hapi.range_of_drop hdrop₂ (by omega) rfl
    have hrange₃ : api.range tvb start (p.value.length + 3) = some p.bytes :=
      hapi.range_of_drop hdrop (by omega) p.length_bytes
    have hrange₄ : api.range tvb (start + 3) p.value.length = some p.value :=
      hapi.range_of_drop hdrop₃ (by omega) rfl
    simp only [dissectProperty, Option.bind_eq_bind, Option.bind_some, hrange₁, hsize, hrange₂,
      hkey, hrange₃, hrange₄]
    rfl

/-- The inner loop shows the properties that cover the rest of the size. -/
theorem exists_of_dissectProperties {objectSize consumedProperties consumed : Nat}
    {items : List PropertyItem}
    (h : dissectProperties api tvb start objectSize consumedProperties id =
      some (consumed, items)) :
    ∃ (props : List Property) (rest : List UInt8),
      tvb.drop (start + consumedProperties) = bodyBytes props ++ rest ∧
      Covers (objectSize - consumedProperties) (props.map Property.size) ∧
      consumed = consumedProperties + (bodyBytes props).length ∧
      items = propertyItems id props := by
  fun_induction dissectProperties api tvb start objectSize consumedProperties id
    generalizing consumed items with
  | case1 consumedProperties id hlt hnone => cases h
  | case2 consumedProperties id hlt propertySize item hsome ih =>
      obtain ⟨⟨consumed', items'⟩, hrest, heq⟩ := Option.map_eq_some_iff.mp h
      cases heq
      obtain ⟨p, rest, hdrop, rfl, rfl⟩ := (dissectProperty_eq_some_iff hapi).mp hsome
      obtain ⟨props, rest', hdrop', hcovers, rfl, rfl⟩ := ih hrest
      have hsize : p.size = p.value.length + 3 := rfl
      have hnext : tvb.drop (start + (consumedProperties + p.value.length + 3)) = rest := by
        rw [show start + (consumedProperties + p.value.length + 3) =
          start + consumedProperties + p.bytes.length by rw [p.length_bytes]; omega,
          ← List.drop_drop, hdrop, List.drop_left]
      refine ⟨p :: props, rest', ?_, ⟨by omega, ?_⟩, ?_, rfl⟩
      · rw [hdrop, bodyBytes_cons, List.append_assoc, ← hdrop', hnext]
      · rwa [hsize, Nat.sub_sub, ← Nat.add_assoc]
      · rw [bodyBytes_cons, List.length_append, p.length_bytes]
        omega
  | case3 consumedProperties id hge =>
      cases h
      exact ⟨[], _, rfl, show _ = 0 by omega, rfl, rfl⟩

/-- Properties that cover the rest of the size are shown. -/
theorem dissectProperties_of_covers {objectSize consumedProperties : Nat} {props : List Property}
    {rest : List UInt8} (hdrop : tvb.drop (start + consumedProperties) = bodyBytes props ++ rest)
    (hcovers : Covers (objectSize - consumedProperties) (props.map Property.size)) :
    dissectProperties api tvb start objectSize consumedProperties id =
      some (consumedProperties + (bodyBytes props).length, propertyItems id props) := by
  induction props generalizing consumedProperties id with
  | nil =>
      have hge : ¬ consumedProperties < objectSize := by
        have hzero : objectSize - consumedProperties = 0 := hcovers
        omega
      rw [dissectProperties, if_neg hge]
      rfl
  | cons p props ih =>
      obtain ⟨hlt, hcovers⟩ := hcovers
      have hsize : p.size = p.value.length + 3 := rfl
      rw [bodyBytes_cons, List.append_assoc] at hdrop
      have hnext : tvb.drop (start + (consumedProperties + p.value.length + 3)) =
          bodyBytes props ++ rest := by
        rw [show start + (consumedProperties + p.value.length + 3) =
          start + consumedProperties + p.bytes.length by rw [p.length_bytes]; omega,
          ← List.drop_drop, hdrop, List.drop_left]
      have hitem : dissectProperty api tvb (start + consumedProperties) id =
          some (p.value.length, p.item id) :=
        (dissectProperty_eq_some_iff hapi).mpr ⟨p, _, hdrop, rfl, rfl⟩
      rw [dissectProperties, if_pos (by omega), hitem]
      dsimp only
      rw [ih hnext (by rwa [hsize, Nat.sub_sub, ← Nat.add_assoc] at hcovers), Option.map_some,
        bodyBytes_cons, List.length_append, p.length_bytes, hsize,
        show consumedProperties + p.value.length + 3 + (bodyBytes props).length =
          consumedProperties + (p.value.length + 3 + (bodyBytes props).length) by omega]
      rfl

end Properties

/-! ## Objects -/

/-- An object as it is shown: a size, and the properties that cover it. -/
structure ShownObject where
  size : UInt16
  properties : List Property
  covers : Covers size.toNat (properties.map Property.size)

/-- The bytes that are shown as the object. -/
def ShownObject.bytes (o : ShownObject) : List UInt8 :=
  u16Bytes o.size ++ bodyBytes o.properties

/-- The item of an object. -/
def ShownObject.item (id : Nat) (o : ShownObject) : ObjectItem where
  text := objectText id
  size := o.size.toNat
  properties := propertyItems 0 o.properties

/-- The items of successive objects. -/
def objectItems (id : Nat) : List ShownObject → List ObjectItem
  | [] => []
  | o :: objects => o.item id :: objectItems (id + 1) objects

theorem ShownObject.length_bytes (o : ShownObject) :
    o.bytes.length = (bodyBytes o.properties).length + 2 := by
  rw [bytes, List.length_append, length_u16Bytes]
  omega

theorem ShownObject.size_le (o : ShownObject) : o.size.toNat ≤ (bodyBytes o.properties).length := by
  rw [length_bodyBytes]
  exact o.covers.le_sum

section Objects

variable {api : TvbApi} (hapi : api.Lawful) {tvb : List UInt8}
  {requestLength consumedOffset id : Nat}

include hapi

/-- What is shown as an object are the bytes of one. -/
theorem dissectObject_eq_some_iff {n : Nat} {item : ObjectItem} :
    dissectObject api tvb consumedOffset id = some (n, item) ↔
      ∃ (o : ShownObject) (rest : List UInt8), tvb.drop (consumedOffset + 5) = o.bytes ++ rest ∧
        n = (bodyBytes o.properties).length ∧ item = o.item id := by
  constructor
  · intro h
    obtain ⟨size, hsize, h⟩ := Option.bind_eq_some_iff.mp h
    obtain ⟨whole, -, h⟩ := Option.bind_eq_some_iff.mp h
    obtain ⟨body, -, h⟩ := Option.bind_eq_some_iff.mp h
    obtain ⟨⟨consumed, items⟩, hshown, h⟩ := Option.bind_eq_some_iff.mp h
    cases h
    obtain ⟨hlen, rest, hdrop⟩ := hapi.range_eq_some hsize
    obtain ⟨lo, hi, rfl⟩ := List.length_eq_two.mp hlen
    obtain ⟨props, rest', hdrop', hcovers, rfl, rfl⟩ := exists_of_dissectProperties hapi hshown
    rw [hapi.leUint_two, Nat.sub_zero] at hcovers
    refine ⟨⟨u16le lo hi, props, hcovers⟩, rest', ?_, Nat.zero_add _, ?_⟩
    · have hnext : rest = bodyBytes props ++ rest' := by
        rw [← hdrop', Nat.add_zero, show consumedOffset + 7 = consumedOffset + 5 + 2 from rfl,
          ← List.drop_drop, hdrop]
        rfl
      rw [hdrop, hnext, ShownObject.bytes, u16Bytes_u16le, List.append_assoc]
    · rw [ShownObject.item, hapi.leUint_two]
  · rintro ⟨o, rest, hdrop, rfl, rfl⟩
    have hlen := congrArg List.length hdrop
    rw [List.length_drop, List.length_append, o.length_bytes] at hlen
    have hsizeLe := o.size_le
    have hdrop₂ : tvb.drop (consumedOffset + 7) = bodyBytes o.properties ++ rest := by
      rw [show consumedOffset + 7 = consumedOffset + 5 + 2 from rfl, ← List.drop_drop, hdrop]
      rfl
    have hcut : ∀ {xs : List UInt8} {k n : Nat}, tvb.drop k = xs ++ rest → k ≤ tvb.length →
        n ≤ xs.length → api.range tvb k n = some (xs.take n) := by
      intro xs k n hk hle hn
      have hsplit : tvb.drop k = xs.take n ++ (xs.drop n ++ rest) := by
        rw [hk, ← List.append_assoc, List.take_append_drop]
      exact hapi.range_of_drop hsplit hle (List.length_take_of_le hn)
    have hrange₁ : api.range tvb (consumedOffset + 5) 2 = some (u16Bytes o.size) :=
      hcut hdrop (by omega) (by rw [o.length_bytes]; omega)
    have hrange₂ : api.range tvb (consumedOffset + 5) (o.size.toNat + 2) =
        some (o.bytes.take (o.size.toNat + 2)) :=
      hcut hdrop (by omega) (by rw [o.length_bytes]; omega)
    have hrange₃ : api.range tvb (consumedOffset + 7) o.size.toNat =
        some ((bodyBytes o.properties).take o.size.toNat) := hcut hdrop₂ (by omega) hsizeLe
    have hshown : dissectProperties api tvb (consumedOffset + 7) o.size.toNat 0 0 =
        some (0 + (bodyBytes o.properties).length, propertyItems 0 o.properties) :=
      dissectProperties_of_covers hapi hdrop₂ o.covers
    simp only [dissectObject, Option.bind_eq_bind, Option.bind_some, hrange₁, hapi.leUint_u16Bytes,
      hrange₂, hrange₃, hshown, Nat.zero_add]
    rfl

/-- The outer loop shows the objects that cover the rest of the length. -/
theorem exists_of_dissectObjects {items : List ObjectItem}
    (h : dissectObjects api tvb requestLength consumedOffset id = some items) :
    ∃ (objects : List ShownObject) (rest : List UInt8),
      tvb.drop (consumedOffset + 5) = objects.flatMap ShownObject.bytes ++ rest ∧
      Covers (requestLength - consumedOffset) (objects.map fun o => o.bytes.length) ∧
      items = objectItems id objects := by
  fun_induction dissectObjects api tvb requestLength consumedOffset id generalizing items with
  | case1 consumedOffset id hlt hnone => cases h
  | case2 consumedOffset id hlt consumedProperties item hsome ih =>
      obtain ⟨items', hrest, rfl⟩ := Option.map_eq_some_iff.mp h
      obtain ⟨o, rest, hdrop, rfl, rfl⟩ := (dissectObject_eq_some_iff hapi).mp hsome
      obtain ⟨objects, rest', hdrop', hcovers, rfl⟩ := ih hrest
      have hnext : tvb.drop (consumedOffset + (bodyBytes o.properties).length + 2 + 5) = rest := by
        rw [show consumedOffset + (bodyBytes o.properties).length + 2 + 5 =
          consumedOffset + 5 + o.bytes.length by rw [o.length_bytes]; omega,
          ← List.drop_drop, hdrop, List.drop_left]
      refine ⟨o :: objects, rest', ?_, ⟨by omega, ?_⟩, rfl⟩
      · rw [hdrop, List.flatMap_cons, List.append_assoc, ← hdrop', hnext]
      · show Covers (requestLength - consumedOffset - o.bytes.length) _
        rwa [o.length_bytes, Nat.sub_sub, ← Nat.add_assoc]
  | case3 consumedOffset id hge =>
      cases h
      exact ⟨[], _, rfl, show _ = 0 by omega, rfl⟩

/-- Objects that cover the rest of the length are shown. -/
theorem dissectObjects_of_covers {objects : List ShownObject} {rest : List UInt8}
    (hdrop : tvb.drop (consumedOffset + 5) = objects.flatMap ShownObject.bytes ++ rest)
    (hcovers : Covers (requestLength - consumedOffset) (objects.map fun o => o.bytes.length)) :
    dissectObjects api tvb requestLength consumedOffset id = some (objectItems id objects) := by
  induction objects generalizing consumedOffset id with
  | nil =>
      have hzero : requestLength - consumedOffset = 0 := hcovers
      rw [dissectObjects, if_neg (by omega)]
      rfl
  | cons o objects ih =>
      obtain ⟨hlt, hcovers⟩ := hcovers
      dsimp only at hcovers
      rw [List.flatMap_cons, List.append_assoc] at hdrop
      have hnext : tvb.drop (consumedOffset + (bodyBytes o.properties).length + 2 + 5) =
          objects.flatMap ShownObject.bytes ++ rest := by
        rw [show consumedOffset + (bodyBytes o.properties).length + 2 + 5 =
          consumedOffset + 5 + o.bytes.length by rw [o.length_bytes]; omega,
          ← List.drop_drop, hdrop, List.drop_left]
      have hitem : dissectObject api tvb consumedOffset id =
          some ((bodyBytes o.properties).length, o.item id) :=
        (dissectObject_eq_some_iff hapi).mpr ⟨o, _, hdrop, rfl, rfl⟩
      rw [dissectObjects, if_pos (by omega), hitem]
      dsimp only
      rw [ih hnext (by rwa [o.length_bytes, Nat.sub_sub, ← Nat.add_assoc] at hcovers)]
      rfl

end Objects

/-! ## PDUs -/

/-- A PDU as it is shown. -/
structure ShownPdu where
  requestFlags : UInt8
  requestId : UInt16
  objects : List ShownObject
  length_lt : (objects.flatMap ShownObject.bytes).length < 65536

/-- The bytes that are shown as the PDU. -/
def ShownPdu.bytes (p : ShownPdu) : List UInt8 :=
  headerBytes p.requestFlags (UInt16.ofNat (p.objects.flatMap ShownObject.bytes).length)
      p.requestId ++
    p.objects.flatMap ShownObject.bytes

/-- The tree of a PDU. -/
def ShownPdu.tree (p : ShownPdu) : DissectedPdu where
  requestFlags := p.requestFlags.toNat
  requestLength := (p.objects.flatMap ShownObject.bytes).length
  requestId := p.requestId.toNat
  objects := objectItems 0 p.objects

theorem length_flatMap_bytes (objects : List ShownObject) :
    (objects.flatMap ShownObject.bytes).length =
      (objects.map fun o => o.bytes.length).sum :=
  List.length_flatMap

/-- A PDU that is shown is a header, and objects that cover the length. -/
theorem exists_shownPdu {api : TvbApi} (hapi : api.Lawful) {pdu : List UInt8} {tree : DissectedPdu}
    (hlength : getReqLength api pdu 0 = some pdu.length) (h : dissectReqPdu api pdu = some tree) :
    ∃ p : ShownPdu, pdu = p.bytes ∧ tree = p.tree := by
  obtain ⟨size, hsize, hlength⟩ := Option.bind_eq_some_iff.mp hlength
  rw [Option.pure_def, Option.some.injEq] at hlength
  obtain ⟨flags, hflags, h⟩ := Option.bind_eq_some_iff.mp h
  obtain ⟨length, hsize', h⟩ := Option.bind_eq_some_iff.mp h
  obtain ⟨requestId, hid, h⟩ := Option.bind_eq_some_iff.mp h
  obtain ⟨body, -, h⟩ := Option.bind_eq_some_iff.mp h
  obtain ⟨items, hitems, h⟩ := Option.bind_eq_some_iff.mp h
  cases h
  rw [hsize'] at hsize
  cases hsize
  obtain ⟨hlen₁, rest₁, hdrop₁⟩ := hapi.range_eq_some hflags
  obtain ⟨hlen₂, rest₂, hdrop₂⟩ := hapi.range_eq_some hsize'
  obtain ⟨hlen₃, rest₃, hdrop₃⟩ := hapi.range_eq_some hid
  obtain ⟨flag, rfl⟩ := List.length_eq_one_iff.mp hlen₁
  obtain ⟨lo, hi, rfl⟩ := List.length_eq_two.mp hlen₂
  obtain ⟨lo', hi', rfl⟩ := List.length_eq_two.mp hlen₃
  obtain ⟨objects, rest, hdrop, hcovers, rfl⟩ := exists_of_dissectObjects hapi hitems
  have hrest₁ : rest₁ = lo :: hi :: rest₂ := by
    rw [show 1 = 0 + 1 from rfl, ← List.drop_drop, hdrop₁] at hdrop₂
    exact hdrop₂
  have hrest₂ : rest₂ = lo' :: hi' :: rest₃ := by
    rw [show 3 = 1 + 2 from rfl, ← List.drop_drop, hdrop₂] at hdrop₃
    exact hdrop₃
  have hrest₃ : rest₃ = objects.flatMap ShownObject.bytes ++ rest := by
    rw [Nat.zero_add, show 5 = 3 + 2 from rfl, ← List.drop_drop, hdrop₃] at hdrop
    exact hdrop
  have hpdu : pdu = flag :: lo :: hi :: lo' :: hi' ::
      (objects.flatMap ShownObject.bytes ++ rest) := by
    rw [← List.drop_zero (l := pdu), hdrop₁, hrest₁, hrest₂, hrest₃]
    rfl
  -- the objects cover the length, and there is not more than the length
  have hcover := hcovers.le_sum
  rw [← length_flatMap_bytes, hapi.leUint_two, Nat.sub_zero] at hcover
  rw [hapi.leUint_two, hpdu] at hlength
  simp only [List.length_cons, List.length_append] at hlength
  have hexact : (objects.flatMap ShownObject.bytes).length = (u16le lo hi).toNat := by omega
  have hnil : rest = [] := List.eq_nil_of_length_eq_zero (by omega)
  refine ⟨⟨flag, u16le lo' hi', objects, hexact ▸ (u16le lo hi).toNat_lt⟩, ?_, ?_⟩
  · rw [hpdu, hnil, List.append_nil, ShownPdu.bytes]
    dsimp only
    rw [hexact, UInt16.ofNat_toNat, headerBytes, u16Bytes_u16le, u16Bytes_u16le]
    rfl
  · rw [ShownPdu.tree, hapi.leUint_two, hapi.leUint_two]
    dsimp only
    rw [hexact]
    exact congrArg (DissectedPdu.mk · _ _ _) (hapi.leUint_one flag)

/-- A header, and objects that cover the length, are shown. -/
theorem ShownPdu.dissected {api : TvbApi} (hapi : api.Lawful) (p : ShownPdu) :
    getReqLength api p.bytes 0 = some p.bytes.length ∧ dissectReqPdu api p.bytes = some p.tree := by
  let body := p.objects.flatMap ShownObject.bytes
  have hbytes : p.bytes = p.requestFlags :: (u16Bytes (UInt16.ofNat body.length) ++
      (u16Bytes p.requestId ++ body)) := by
    simp [ShownPdu.bytes, headerBytes, body]
  have hlen : p.bytes.length = body.length + 5 := by
    rw [hbytes]
    simp
    omega
  have hsize : api.leUint (u16Bytes (UInt16.ofNat body.length)) = body.length := by
    rw [hapi.leUint_u16Bytes, UInt16.toNat_ofNat_of_lt' p.length_lt]
  have hdrop₀ : p.bytes.drop 0 = [p.requestFlags] ++
      (u16Bytes (UInt16.ofNat body.length) ++ (u16Bytes p.requestId ++ body)) := hbytes
  have hdrop₁ : p.bytes.drop 1 = u16Bytes (UInt16.ofNat body.length) ++
      (u16Bytes p.requestId ++ body) := by
    rw [hbytes]
    rfl
  have hdrop₃ : p.bytes.drop 3 = u16Bytes p.requestId ++ body := by
    rw [show 3 = 1 + 2 from rfl, ← List.drop_drop, hdrop₁]
    rfl
  have hdrop₅ : p.bytes.drop 5 = body ++ [] := by
    rw [show 5 = 3 + 2 from rfl, ← List.drop_drop, hdrop₃, List.append_nil]
    rfl
  have hrange₁ : api.range p.bytes 0 1 = some [p.requestFlags] :=
    hapi.range_of_drop hdrop₀ (by omega) rfl
  have hrange₂ : api.range p.bytes 1 2 = some (u16Bytes (UInt16.ofNat body.length)) :=
    hapi.range_of_drop hdrop₁ (by omega) (length_u16Bytes _)
  have hrange₃ : api.range p.bytes 3 2 = some (u16Bytes p.requestId) :=
    hapi.range_of_drop hdrop₃ (by omega) (length_u16Bytes _)
  have hrange₄ : api.range p.bytes 5 body.length = some body :=
    hapi.range_of_drop hdrop₅ (by omega) rfl
  have hpos : ∀ piece ∈ p.objects.map fun o => o.bytes.length, 0 < piece := by
    intro piece hmem
    obtain ⟨o, -, rfl⟩ := List.mem_map.mp hmem
    rw [o.length_bytes]
    omega
  have hcovers : Covers (body.length - 0) (p.objects.map fun o => o.bytes.length) := by
    rw [Nat.sub_zero, length_flatMap_bytes]
    exact covers_sum hpos
  have hobjects : dissectObjects api p.bytes body.length 0 0 = some (objectItems 0 p.objects) :=
    dissectObjects_of_covers hapi hdrop₅ hcovers
  have hflags : api.leUint [p.requestFlags] = p.requestFlags.toNat := hapi.leUint_one _
  constructor
  · simp only [getReqLength, Option.bind_eq_bind, Option.bind_some, Nat.zero_add, hrange₂, hsize,
      hlen]
    rfl
  · simp only [dissectReqPdu, Option.bind_eq_bind, Option.bind_some, hrange₁, hflags, hrange₂,
      hsize, hrange₃, hapi.leUint_u16Bytes, hrange₄, hobjects]
    rfl

/-- **What is shown.**  A PDU of the length that it announces is shown if and only if it is made
of a header and objects, each of which is a size and properties that cover it; the tree shows
these. -/
theorem dissectReqPdu_eq_some_iff {api : TvbApi} (hapi : api.Lawful) {pdu : List UInt8}
    {tree : DissectedPdu} :
    getReqLength api pdu 0 = some pdu.length ∧ dissectReqPdu api pdu = some tree ↔
      ∃ p : ShownPdu, pdu = p.bytes ∧ tree = p.tree := by
  constructor
  · rintro ⟨hlength, h⟩
    exact exists_shownPdu hapi hlength h
  · rintro ⟨p, rfl, rfl⟩
    exact p.dissected hapi

/-- A buffer, as bytes. -/
def bytesApi : TvbApi where
  range tvb offset length :=
    if offset + length ≤ tvb.length then some ((tvb.drop offset).take length) else none
  leUint range := range.foldr (fun byte n => byte.toNat + 256 * n) 0

theorem lawful_bytesApi : bytesApi.Lawful where
  range_inside _ _ _ hle := if_pos hle
  range_outside _ _ _ hlt := if_neg (Nat.not_le.mpr hlt)
  leUint _ _ _ := rfl

/-- An object of three bytes, whose only property has two more. -/
def longProperty : ShownObject where
  size := 3
  properties := [⟨ProtoObjectPropertyKey.id.code, [65, 66], by decide⟩]
  covers := ⟨show 0 < 3 by decide, rfl⟩

/-- Its tree is shown. -/
theorem dissectReqPdu_eq_some_iff_of_three :
    let p : ShownPdu := ⟨0, 1, [longProperty], by decide⟩
    p.bytes = [0, 7, 0, 1, 0, 3, 0, 2, 0, 2, 65, 66] ∧
      getReqLength bytesApi p.bytes 0 = some p.bytes.length ∧
      dissectReqPdu bytesApi p.bytes = some p.tree := by
  intro p
  exact ⟨by decide, (dissectReqPdu_eq_some_iff lawful_bytesApi).mpr ⟨p, rfl, rfl⟩⟩

end ZxProto
