import ZxProto.ObjectReadLog
import ZxProto.Process

/-!
# What the accessors read

Every accessor walks the pointer table and stops at the first property that passes its
own test.  Each of them tests the key; what it checks of the size differs, and
`get_uint8_property` checks nothing.

* `findPropertyLogged`, … — the accessors, as programs that read memory; the pointers
  come from the table, which is the object's own;
* `AccessorsStayInside`, `accessorsStayInside_iff` — when everything is read in the
  body, and the values from the value of a property with the key;
* `run_findPropertyMatchLogged`, `prefixSearch_exact_iff` — when the search by a prefix
  is exact.
-/

namespace ZxProto

open ByteMemory ReadLog ReadLog.Reading

/-! ## Tests and values -/

/-- `(*prop)->key == key`. -/
def keyIs (key : UInt8) (property : Nat) : Reading Bool := do
  let propertyKey ← load (property + 2)
  pure (propertyKey == key)

/-- `proto_property_value_size(*prop) == size`. -/
def valueSizeIs (size property : Nat) : Reading Bool := do
  let valueSize ← loadU16 property
  pure (valueSize.toNat == size)

/-- `proto_property_value_size(*prop) >= size`. -/
def valueSizeAtLeast (size property : Nat) : Reading Bool := do
  let valueSize ← loadU16 property
  pure (decide (size ≤ valueSize.toNat))

/-- `proto_property_value_size(p) >= len && (memcmp(p->value, match, len) == 0)`.  All
of the `len` bytes count as read, also those behind a first difference. -/
def valueMatches (text : CString) (property : Nat) : Reading Bool :=
  -- `uint8_t len = strlen(match)`
  let len := UInt8.ofNat text.bytes.length
  andAlso (valueSizeAtLeast len.toNat property) do
    let front ← loadBlock (property + sizeofProtoObjectProperty) len.toNat
    pure (front == text.bytes.take len.toNat)

/-- `(*prop)->value`, as an integer of two bytes. -/
def uint16Value (property : Nat) : Reading UInt16 :=
  loadU16 (property + sizeofProtoObjectProperty)

/-- `*(*prop)->value`. -/
def uint8Value (property : Nat) : Reading UInt8 :=
  load (property + sizeofProtoObjectProperty)

/-- The first bytes of `(*prop)->value`, and a zero behind them. -/
def strValue (size : UInt16) (property : Nat) : Reading (List UInt8) := do
  let text ← loadBlock (property + sizeofProtoObjectProperty) size.toNat
  pure (text ++ [0])

/-- `max_size`: one byte is left for the zero termination. -/
def maxSize (targetBufferSize valueSize : UInt16) : UInt16 :=
  if targetBufferSize ≤ valueSize then targetBufferSize - 1 else valueSize

/-! ## The accessors -/

section Accessors

variable (o : ProtoObject) (key : UInt8)

/-- `find_property`. -/
def findPropertyLogged : Reading (Option Nat) :=
  scan (keyIs key) o.properties

/-- `find_property_match`. -/
def findPropertyMatchLogged (text : CString) : Reading (Option Nat) :=
  scan (fun property => andAlso (keyIs key property) (valueMatches text property)) o.properties

/-- The loop of `get_property_ptr_size` and `get_uint16_property`. -/
def findPropertySize (expectedSize : Nat) : Reading (Option Nat) :=
  scan (fun property => andAlso (keyIs key property) (valueSizeIs expectedSize property))
    o.properties

/-- `get_uint16_property`. -/
def getUint16PropertyLogged (default : UInt16) : Reading UInt16 := do
  match ← findPropertySize o key 2 with
  | some property => uint16Value property
  | none => pure default

/-- `get_uint8_property`.  `SANITY_CHECKS`, which would add a test of the size, is not
defined in this file. -/
def getUint8PropertyLogged (default : UInt8) : Reading UInt8 := do
  match ← findPropertyLogged o key with
  | some property => uint8Value property
  | none => pure default

/-- `get_property_ptr`. -/
def getPropertyPtrLogged : Reading (Option Nat) := do
  let property ← findPropertyLogged o key
  pure (property.map (· + sizeofProtoObjectProperty))

/-- `get_property_ptr_size`. -/
def getPropertyPtrSizeLogged (expectedSize : Nat) : Reading (Option Nat) := do
  let property ← findPropertySize o key expectedSize
  pure (property.map (· + sizeofProtoObjectProperty))

/-- `get_str_property`: the return value, and what `target_buffer` holds then. -/
def getStrPropertyLogged (targetBufferSize : UInt16) : Reading (UInt8 × List UInt8) := do
  match ← findPropertyLogged o key with
  | some property => do
      let valueSize ← loadU16 property
      let target ← strValue (maxSize targetBufferSize valueSize) property
      pure (0, target)
  | none => pure (1, [])

/-- `copy_str_property`: what the new block holds. -/
def copyStrPropertyLogged (property : Nat) : Reading (List UInt8) := do
  let valueSize ← loadU16 property
  strValue valueSize property

end Accessors

/-! ## What is found -/

section Found

variable (mem : Memory) (key : UInt8)

@[simp] theorem run_keyIs (property : Nat) :
    (keyIs key property).run mem = (protoPropertyKey mem property == key) := rfl

@[simp] theorem run_valueSizeIs (size property : Nat) :
    (valueSizeIs size property).run mem =
      ((protoPropertyValueSize mem property).toNat == size) := rfl

@[simp] theorem run_valueSizeAtLeast (size property : Nat) :
    (valueSizeAtLeast size property).run mem =
      decide (size ≤ (protoPropertyValueSize mem property).toNat) := rfl

variable (o : ProtoObject)

theorem run_findPropertyLogged :
    (findPropertyLogged o key).run mem = findProperty mem o key :=
  run_scan mem (keyIs key) o.properties

theorem run_findPropertySize (expectedSize : Nat) :
    (findPropertySize o key expectedSize).run mem =
      o.properties.find? fun property => protoPropertyKey mem property == key &&
        (protoPropertyValueSize mem property).toNat == expectedSize := by
  simp only [findPropertySize, run_scan, run_andAlso, run_keyIs, run_valueSizeIs]

theorem run_getUint16PropertyLogged (default : UInt16) :
    (getUint16PropertyLogged o key default).run mem =
      ((findPropertySize o key 2).run mem).elim default fun p => (uint16Value p).run mem := by
  rw [getUint16PropertyLogged, run_bind]
  cases (findPropertySize o key 2).run mem with
  | none => rfl
  | some p => rfl

theorem run_getUint8PropertyLogged (default : UInt8) :
    (getUint8PropertyLogged o key default).run mem =
      (findProperty mem o key).elim default fun p => (uint8Value p).run mem := by
  rw [getUint8PropertyLogged, run_bind, run_findPropertyLogged]
  cases findProperty mem o key with
  | none => rfl
  | some p => rfl

theorem run_getPropertyPtrLogged :
    (getPropertyPtrLogged o key).run mem =
      (findProperty mem o key).map (· + sizeofProtoObjectProperty) := by
  rw [getPropertyPtrLogged, run_bind, run_findPropertyLogged, run_pure]

end Found

/-! ## What is read -/

/-- All pointers of the object point to whole properties in the block. -/
def PointsInside (mem : Memory) (a n : Nat) (o : ProtoObject) : Prop :=
  ∀ p ∈ o.properties, a ≤ p ∧ p + (readProperty mem p).size ≤ a + n

/-- A property of the object that has the key. -/
def OfKey (mem : Memory) (o : ProtoObject) (key : UInt8) (p : Nat) : Prop :=
  p ∈ o.properties ∧ protoPropertyKey mem p = key

/-- What is loaded are bytes of the value of a property of the object that has the
key. -/
def FromValue {α : Type} (mem : Memory) (o : ProtoObject) (key : UInt8) (p : Nat)
    (x : Reading α) : Prop :=
  OfKey mem o key p ∧
    x.Inside mem (p + sizeofProtoObjectProperty) (protoPropertyValueSize mem p).toNat

/-- A search that reads in the block, and finds properties with the key. -/
structure Finds (mem : Memory) (a n : Nat) (o : ProtoObject) (key : UInt8)
    (search : Reading (Option Nat)) : Prop where
  inside : search.Inside mem a n
  ofKey : ∀ p, search.run mem = some p → OfKey mem o key p

/-- An accessor that reads in the block, and returns what it loads from the value of
what a search finds, or a default value. -/
structure LoadsFrom {α : Type} (mem : Memory) (a n : Nat) (o : ProtoObject) (key : UInt8)
    (search : Reading (Option Nat)) (value : Nat → Reading α) (default : α)
    (accessor : Reading α) : Prop where
  inside : accessor.Inside mem a n
  found : ∀ p, search.run mem = some p →
    FromValue mem o key p (value p) ∧ accessor.run mem = (value p).run mem
  notFound : search.run mem = none → accessor.run mem = default

/-- The accessors read in the block; what they find has the key, and what they return
is loaded from its value. -/
structure AccessorsStayInside (mem : Memory) (a n : Nat) (o : ProtoObject) (key : UInt8) :
    Prop where
  findProperty : Finds mem a n o key (findPropertyLogged o key)
  findPropertyMatch : ∀ text, Finds mem a n o key (findPropertyMatchLogged o key text)
  getUint16Property : ∀ default, LoadsFrom mem a n o key (findPropertySize o key 2) uint16Value
    default (getUint16PropertyLogged o key default)
  getUint8Property : ∀ default, LoadsFrom mem a n o key (findPropertyLogged o key) uint8Value
    default (getUint8PropertyLogged o key default)
  getPropertyPtrSize : ∀ expectedSize,
    (getPropertyPtrSizeLogged o key expectedSize).Inside mem a n ∧
      ∀ value, (getPropertyPtrSizeLogged o key expectedSize).run mem = some value →
        ∃ p, value = p + sizeofProtoObjectProperty ∧
          FromValue mem o key p (loadBlock value expectedSize)
  copyStrProperty : ∀ p, (findPropertyLogged o key).run mem = some p →
    (copyStrPropertyLogged p).Inside mem a n ∧
      FromValue mem o key p (strValue (protoPropertyValueSize mem p) p) ∧
      (copyStrPropertyLogged p).run mem = (strValue (protoPropertyValueSize mem p) p).run mem
  getStrProperty : ∀ targetBufferSize, targetBufferSize ≠ 0 →
    LoadsFrom mem a n o key (findPropertyLogged o key)
      (fun p => do
        let target ← strValue (maxSize targetBufferSize (protoPropertyValueSize mem p)) p
        pure (0, target))
      (1, []) (getStrPropertyLogged o key targetBufferSize)

section Reads

variable {mem : Memory} {a n : Nat} {o : ProtoObject} {key : UInt8}

/-- A whole property that lies in the block. -/
theorem PointsInside.bounds (h : PointsInside mem a n o) {p : Nat} (hp : p ∈ o.properties) :
    a ≤ p ∧ p + 3 + (protoPropertyValueSize mem p).toNat ≤ a + n := by
  obtain ⟨hlo, hhi⟩ := h p hp
  rw [size_readProperty, sizeofProtoObjectProperty] at hhi
  exact ⟨hlo, by omega⟩

theorem PointsInside.keyIs (h : PointsInside mem a n o) {p : Nat} (hp : p ∈ o.properties) :
    (keyIs key p).Inside mem a n := by
  obtain ⟨hlo, hhi⟩ := h.bounds hp
  exact (inside_load_iff.mpr ⟨by omega, by omega⟩).bind (inside_pure _)

theorem PointsInside.loadU16 (h : PointsInside mem a n o) {p : Nat} (hp : p ∈ o.properties) :
    (loadU16 p).Inside mem a n := by
  obtain ⟨hlo, hhi⟩ := h.bounds hp
  exact inside_loadU16_iff.mpr ⟨by omega, by omega⟩

/-- The value is compared only if it has the bytes. -/
theorem PointsInside.valueMatches (h : PointsInside mem a n o) {p : Nat} (hp : p ∈ o.properties)
    (text : CString) : (valueMatches text p).Inside mem a n := by
  obtain ⟨hlo, hhi⟩ := h.bounds hp
  refine inside_andAlso ((h.loadU16 hp).bind (inside_pure _)) fun hfits => ?_
  have hle : (UInt8.ofNat text.bytes.length).toNat ≤ (protoPropertyValueSize mem p).toNat :=
    of_decide_eq_true hfits
  refine (inside_loadBlock ?_ ?_).bind (inside_pure _)
  · rw [sizeofProtoObjectProperty]
    omega
  · rw [sizeofProtoObjectProperty]
    omega

theorem PointsInside.findProperty (h : PointsInside mem a n o) :
    Finds mem a n o key (findPropertyLogged o key) := by
  refine ⟨inside_scan fun p hp => h.keyIs hp, fun p hfound => ?_⟩
  rw [run_findPropertyLogged, ZxProto.findProperty] at hfound
  have hkey := List.find?_some hfound
  exact ⟨List.mem_of_find?_eq_some hfound, beq_iff_eq.mp hkey⟩

/-- What a search for the key and more finds. -/
theorem ofKey_of_scan {test : Nat → Reading Bool} {p : Nat}
    (hfound : (scan (fun p => andAlso (keyIs key p) (test p)) o.properties).run mem = some p) :
    OfKey mem o key p ∧ (test p).run mem = true := by
  rw [run_scan] at hfound
  have hpasses := List.find?_some hfound
  rw [run_andAlso, Bool.and_eq_true] at hpasses
  exact ⟨⟨List.mem_of_find?_eq_some hfound, beq_iff_eq.mp hpasses.1⟩, hpasses.2⟩

/-- A search that tests the key first, and then more. -/
theorem PointsInside.finds (h : PointsInside mem a n o) {test : Nat → Reading Bool}
    (htest : ∀ p ∈ o.properties, (test p).Inside mem a n) :
    Finds mem a n o key (scan (fun p => andAlso (ZxProto.keyIs key p) (test p)) o.properties) :=
  ⟨inside_scan fun p hp => inside_andAlso (h.keyIs hp) fun _ => htest p hp,
    fun _ hfound => (ofKey_of_scan hfound).1⟩

theorem PointsInside.findPropertySize (h : PointsInside mem a n o) (expectedSize : Nat) :
    Finds mem a n o key (findPropertySize o key expectedSize) :=
  h.finds fun _ hp => (h.loadU16 hp).bind (inside_pure _)

/-- The loop that tests the size finds a value of that size. -/
theorem toNat_of_findPropertySize {expectedSize p : Nat}
    (hfound : (findPropertySize o key expectedSize).run mem = some p) :
    (protoPropertyValueSize mem p).toNat = expectedSize :=
  beq_iff_eq.mp (ofKey_of_scan hfound).2

/-- What lies in the value of a property lies in the block. -/
theorem FromValue.inside {α : Type} {x : Reading α} {p : Nat} (hx : FromValue mem o key p x)
    (h : PointsInside mem a n o) : x.Inside mem a n := by
  obtain ⟨hlo, hhi⟩ := h.bounds hx.1.1
  refine hx.2.mono ?_ ?_
  · rw [sizeofProtoObjectProperty]
    omega
  · rw [sizeofProtoObjectProperty]
    omega

/-- If there is a target, `max_size` leaves one byte of it. -/
theorem toNat_maxSize {targetBufferSize : UInt16} (hne : targetBufferSize ≠ 0)
    (valueSize : UInt16) :
    (maxSize targetBufferSize valueSize).toNat =
      min valueSize.toNat (targetBufferSize.toNat - 1) := by
  have hpos : targetBufferSize.toNat ≠ 0 := fun hzero => hne (UInt16.toNat_inj.mp hzero)
  unfold maxSize
  split
  · next hle =>
      have hle' := UInt16.le_iff_toNat_le.mp hle
      have hone : (1 : UInt16) ≤ targetBufferSize := by
        rw [UInt16.le_iff_toNat_le]
        exact Nat.one_le_iff_ne_zero.mpr hpos
      rw [UInt16.toNat_sub_of_le _ _ hone]
      exact (Nat.min_eq_right ((Nat.sub_le _ _).trans hle')).symm
  · next hlt =>
      have hlt' := Nat.not_le.mp fun hle => hlt (UInt16.le_iff_toNat_le.mpr hle)
      exact (Nat.min_eq_left (Nat.le_sub_one_of_lt hlt')).symm

theorem maxSize_le {targetBufferSize : UInt16} (hne : targetBufferSize ≠ 0)
    (valueSize : UInt16) : (maxSize targetBufferSize valueSize).toNat ≤ valueSize.toNat := by
  rw [toNat_maxSize hne]
  exact Nat.min_le_left _ _

theorem inside_strValue {size : UInt16} {p k : Nat} (hle : size.toNat ≤ k) :
    (strValue size p).Inside mem (p + sizeofProtoObjectProperty) k :=
  (inside_loadBlock le_rfl (by omega)).bind (inside_pure _)

/-- An accessor that searches, and goes on with what it has found. -/
theorem Finds.loadsFrom {α : Type} {search : Reading (Option Nat)} {value rest : Nat → Reading α}
    (hfinds : Finds mem a n o key search) (h : PointsInside mem a n o) (default : α)
    (hvalue : ∀ p, search.run mem = some p →
      (value p).Inside mem (p + sizeofProtoObjectProperty) (protoPropertyValueSize mem p).toNat)
    (hrest : ∀ p, p ∈ o.properties → (value p).Inside mem a n →
      (rest p).Inside mem a n ∧ (rest p).run mem = (value p).run mem) :
    LoadsFrom mem a n o key search value default (do
      match ← search with
      | some p => rest p
      | none => pure default) := by
  have hfrom (p : Nat) (hfound : search.run mem = some p) : FromValue mem o key p (value p) :=
    ⟨hfinds.ofKey p hfound, hvalue p hfound⟩
  refine ⟨hfinds.inside.bind ?_, fun p hfound => ⟨hfrom p hfound, ?_⟩, fun hnone => ?_⟩
  · cases hfound : search.run mem with
    | none => exact inside_pure default
    | some p =>
        exact (hrest p (hfinds.ofKey p hfound).1 ((hfrom p hfound).inside h)).1
  · rw [run_bind, hfound]
    exact (hrest p (hfinds.ofKey p hfound).1 ((hfrom p hfound).inside h)).2
  · rw [run_bind, hnone]
    rfl

/-- Of the values, only that of `get_uint8_property` may be missing. -/
theorem accessorsStayInside_of_pointsInside (h : PointsInside mem a n o)
    (hvalue : ∀ p, findProperty mem o key = some p → protoPropertyValueSize mem p ≠ 0) :
    AccessorsStayInside mem a n o key where
  findProperty := h.findProperty
  findPropertyMatch text := h.finds fun p hp => h.valueMatches hp text
  getUint16Property default := by
    refine (h.findPropertySize 2).loadsFrom h default (fun p hfound => ?_) fun p _ hinside =>
      ⟨hinside, rfl⟩
    rw [toNat_of_findPropertySize hfound]
    exact inside_loadU16_iff.mpr ⟨le_rfl, le_rfl⟩
  getUint8Property default := by
    refine h.findProperty.loadsFrom h default (fun p hfound => ?_) fun p _ hinside =>
      ⟨hinside, rfl⟩
    have hne := hvalue p (by rw [← run_findPropertyLogged, hfound])
    have hpos : (protoPropertyValueSize mem p).toNat ≠ 0 := fun hzero =>
      hne (UInt16.toNat_inj.mp hzero)
    exact inside_load_iff.mpr ⟨le_rfl, by omega⟩
  getPropertyPtrSize expectedSize := by
    refine ⟨(h.findPropertySize expectedSize).inside.bind (inside_pure _), fun value hrun => ?_⟩
    rw [getPropertyPtrSizeLogged, run_bind, run_pure, Option.map_eq_some_iff] at hrun
    obtain ⟨p, hfound, rfl⟩ := hrun
    refine ⟨p, rfl, (h.findPropertySize expectedSize).ofKey p hfound, ?_⟩
    rw [toNat_of_findPropertySize hfound]
    exact inside_loadBlock le_rfl le_rfl
  copyStrProperty p hfound := by
    have hkey := h.findProperty.ofKey p hfound
    have hfrom : FromValue mem o key p (strValue (protoPropertyValueSize mem p) p) :=
      ⟨hkey, inside_strValue le_rfl⟩
    exact ⟨(h.loadU16 hkey.1).bind (hfrom.inside h), hfrom, run_bind mem _ _⟩
  getStrProperty targetBufferSize hne := by
    refine h.findProperty.loadsFrom h (1, []) (fun p _ => ?_) fun p hp hinside => ?_
    · exact (inside_strValue (maxSize_le hne _)).bind (inside_pure _)
    · exact ⟨(h.loadU16 hp).bind hinside, run_bind mem _ _⟩

end Reads

/-! ## Accepted bodies -/

section Accepted

variable (pl : Platform) (obj : Nat) (held : ProtoObject) (bufferAvailable objectSize : UInt16)
  (mem : Memory) (bufferFrom : Nat)

/-- A property has no value if its size is zero. -/
theorem value_readProperty_eq_nil_iff {mem : Memory} {p : Nat} :
    (readProperty mem p).value = [] ↔ protoPropertyValueSize mem p = 0 := by
  have hlength : (readProperty mem p).value.length = (protoPropertyValueSize mem p).toNat :=
    length_slice mem _ _
  rw [← List.length_eq_zero_iff, hlength]
  exact UInt16.toNat_inj (b := 0)

/-- Where the properties lie one behind the other, `find_property` finds the first of them
with the key. -/
theorem map_findProperty_of_tiled {mem : Memory} {it last : Nat} {props : List Property}
    (htiled : slice mem it (last - it) = bodyBytes props) (size : UInt16) (key : UInt8) :
    (findProperty mem ⟨size, propertyAddresses it props⟩ key).map (readProperty mem) =
      props.find? fun p => p.key == key := by
  rw [findProperty_map_readProperty, ProtoObject.contents,
    map_readProperty_propertyAddresses mem last htiled]

/-- **What the accessors read** of an accepted body, in every memory that still shows
it: everything is in place for exactly those keys whose first property, if there is
one, is not empty. -/
theorem accessorsStayInside_iff
    (haccepted :
      (protoObjectRead pl obj held bufferAvailable objectSize mem bufferFrom).result = 0)
    {mem' : Memory} (hsame : AgreeOn mem mem' bufferFrom objectSize.toNat) (key : UInt8) :
    AccessorsStayInside mem' bufferFrom objectSize.toNat
        (protoObjectRead pl obj held bufferAvailable objectSize mem bufferFrom).object key ↔
      ∀ props p, slice mem bufferFrom objectSize.toNat = bodyBytes props →
        props.find? (fun p => p.key == key) = some p → p.value ≠ [] := by
  obtain ⟨props, hparse, -⟩ := (protoObjectRead_result_eq_zero_iff pl obj held bufferAvailable
    objectSize mem bufferFrom).mp haccepted
  have hbody := parseProperties_eq_some_iff.mp hparse
  rw [(protoObjectRead_contents pl obj held bufferAvailable objectSize mem bufferFrom hparse
    haccepted).1]
  have htiled : slice mem' bufferFrom (bufferFrom + objectSize.toNat - bufferFrom) =
      bodyBytes props := by
    rw [Nat.add_sub_cancel_left, hsame.slice_eq, hbody]
  -- the accessors look for pointers, the condition for properties
  have hfind := map_findProperty_of_tiled htiled objectSize key
  constructor
  · intro hinside props' p hbody' hp
    rw [bodyBytes_injective (hbody'.symm.trans hbody)] at hp
    rw [hp, Option.map_eq_some_iff] at hfind
    obtain ⟨address, haddress, rfl⟩ := hfind
    have hread := ((hinside.getUint8Property 0).found address
      (by rw [run_findPropertyLogged, haddress])).1.2
    intro hvalue
    have hsize := congrArg UInt16.toNat (value_readProperty_eq_nil_iff.mp hvalue)
    have hone := (inside_load_iff.mp hread).2
    rw [hsize] at hone
    exact absurd hone (Nat.not_succ_le_self _)
  · intro hvalue
    refine accessorsStayInside_of_pointsInside
      (fun p hp => end_le_of_mem_propertyAddresses htiled hp) fun p hp hsize => ?_
    rw [hp] at hfind
    exact hvalue props (readProperty mem' p) hbody hfind.symm
      (value_readProperty_eq_nil_iff.mpr hsize)

end Accepted

/-- One property, with a value of one byte. -/
theorem accessorsStayInside_of_one :
    AccessorsStayInside (store (fun _ => 0) ⟨100, [1, 0, 5, 7]⟩) 100 4 ⟨4, [100]⟩ 5 := by
  have haccepted : protoObjectRead .pc 4096 ⟨0, []⟩ 128 4
      (store (fun _ => 0) ⟨100, [1, 0, 5, 7]⟩) 100 =
        ⟨0, ⟨4, [100]⟩, ⟨4096, [4, 0]⟩ :: tableStores .pc 4098 [100]⟩ := by
    decide +kernel
  have hiff := accessorsStayInside_iff .pc 4096 ⟨0, []⟩ 128 4
    (store (fun _ => 0) ⟨100, [1, 0, 5, 7]⟩) 100 (by rw [haccepted])
    (fun _ _ _ => rfl) 5
  rw [haccepted] at hiff
  refine hiff.mpr fun props p hbody hp => ?_
  have hprops : props = [⟨5, [7], by decide⟩] :=
    bodyBytes_injective (hbody.symm.trans (by decide))
  rw [hprops] at hp
  cases hp
  exact List.cons_ne_nil 7 []

/-- One property, with an empty value: `get_uint8_property` reads behind the body. -/
theorem not_accessorsStayInside_of_empty :
    (protoObjectRead .pc 4096 ⟨0, []⟩ 128 3 (store (fun _ => 0) ⟨100, [0, 0, 5]⟩) 100).result = 0 ∧
      ¬ AccessorsStayInside (store (fun _ => 0) ⟨100, [0, 0, 5]⟩) 100 3
        (protoObjectRead .pc 4096 ⟨0, []⟩ 128 3 (store (fun _ => 0) ⟨100, [0, 0, 5]⟩) 100).object
        5 := by
  have hread : protoObjectRead .pc 4096 ⟨0, []⟩ 128 3 (store (fun _ => 0) ⟨100, [0, 0, 5]⟩) 100 =
      ⟨0, ⟨3, [100]⟩, ⟨4096, [3, 0]⟩ :: tableStores .pc 4098 [100]⟩ := by
    decide +kernel
  rw [hread]
  refine ⟨rfl, fun hinside => ?_⟩
  have hload := (inside_bind_iff.mp (hinside.getUint8Property 0).inside).2
  have hlast := (inside_load_iff.mp hload).2
  exact absurd hlast (by decide)

/-! ## The search by a prefix -/

section Prefix

variable (mem : Memory) (o : ProtoObject) (key : UInt8) (text : CString)

/-- The `len` bytes that are compared. -/
def comparedPrefix (text : CString) : List UInt8 :=
  text.bytes.take (text.bytes.length % 256)

theorem length_comparedPrefix :
    (comparedPrefix text).length = (UInt8.ofNat text.bytes.length).toNat := by
  rw [comparedPrefix, List.length_take_of_le (Nat.mod_le _ _), UInt8.toNat_ofNat']

/-- The test of the size and `memcmp` together: the value starts with the bytes that
are compared. -/
theorem run_valueMatches (property : Nat) :
    (valueMatches text property).run mem =
      (comparedPrefix text).isPrefixOf (protoPropertyValue mem property) := by
  have hlength := length_comparedPrefix text
  have htake : text.bytes.take (UInt8.ofNat text.bytes.length).toNat = comparedPrefix text := by
    rw [comparedPrefix, UInt8.toNat_ofNat']
  rw [Bool.eq_iff_iff, List.isPrefixOf_iff_prefix, List.prefix_iff_eq_take, valueMatches,
    run_andAlso, Bool.and_eq_true]
  simp only [run_valueSizeAtLeast, decide_eq_true_eq, run_bind, run_pure, run_loadBlock,
    beq_iff_eq, htake]
  rw [← hlength, protoPropertyValue]
  constructor
  · rintro ⟨hle, hslice⟩
    rw [take_slice mem _ hle, hslice]
  · intro hfront
    have hle : (comparedPrefix text).length ≤ (protoPropertyValueSize mem property).toNat := by
      have hmin := congrArg List.length hfront
      rw [List.length_take, length_slice] at hmin
      omega
    rw [take_slice mem _ hle] at hfront
    exact ⟨hle, hfront.symm⟩

/-- What `find_property_match` returns. -/
theorem run_findPropertyMatchLogged :
    (findPropertyMatchLogged o key text).run mem =
      o.properties.find? fun property => protoPropertyKey mem property == key &&
        (comparedPrefix text).isPrefixOf (protoPropertyValue mem property) := by
  simp only [findPropertyMatchLogged, run_scan, run_andAlso, run_keyIs, run_valueMatches]

/-- The first property with the key whose value starts with all the bytes of the text,
or NULL. -/
def firstWithPrefix : Option Nat :=
  o.properties.find? fun property => protoPropertyKey mem property == key &&
    text.bytes.isPrefixOf (protoPropertyValue mem property)

/-- **When the search is exact**: every property with the key that starts with the
bytes that are compared, and not with all of the text, stands behind one that does. -/
theorem prefixSearch_exact_iff :
    (findPropertyMatchLogged o key text).run mem = firstWithPrefix mem o key text ↔
      ∀ before property after, o.properties = before ++ property :: after →
        protoPropertyKey mem property = key →
        comparedPrefix text <+: protoPropertyValue mem property →
        ¬ text.bytes <+: protoPropertyValue mem property →
          ∃ earlier ∈ before, protoPropertyKey mem earlier = key ∧
            text.bytes <+: protoPropertyValue mem earlier := by
  have himp : ∀ property,
      (protoPropertyKey mem property == key &&
        text.bytes.isPrefixOf (protoPropertyValue mem property)) = true →
      (protoPropertyKey mem property == key &&
        (comparedPrefix text).isPrefixOf (protoPropertyValue mem property)) = true := by
    intro property hstrong
    rw [Bool.and_eq_true, List.isPrefixOf_iff_prefix] at hstrong ⊢
    exact ⟨hstrong.1, (List.take_prefix _ _).trans hstrong.2⟩
  rw [run_findPropertyMatchLogged, firstWithPrefix, find?_eq_find?_iff_of_imp himp]
  simp only [Bool.and_eq_true, beq_iff_eq, List.isPrefixOf_iff_prefix, ← Bool.not_eq_true]
  constructor
  · intro h before property after hsplit hkey hweak hnot
    exact h before property after hsplit ⟨hkey, hweak⟩ fun hstrong => hnot hstrong.2
  · rintro h before property after hsplit ⟨hkey, hweak⟩ hnot
    exact h before property after hsplit hkey hweak fun hstrong => hnot ⟨hkey, hstrong⟩

/-- A text of 256 bytes. -/
def sevens256 : CString where
  bytes := List.replicate 256 7
  noNul hmem := absurd (List.eq_of_mem_replicate hmem) (by decide)

/-- None of its bytes is compared, and a value of one byte is found. -/
theorem not_prefixSearch_exact_of_256 :
    (findPropertyMatchLogged ⟨4, [100]⟩ 5 sevens256).run
        (store (fun _ => 0) ⟨100, [1, 0, 5, 7]⟩) ≠
      firstWithPrefix (store (fun _ => 0) ⟨100, [1, 0, 5, 7]⟩) ⟨4, [100]⟩ 5 sevens256 := by
  rw [run_findPropertyMatchLogged]
  decide +kernel

end Prefix

end ZxProto
