import ZxProto.Objects

/-!
# The C decoder `proto_object_read`

`proto_object_read` walks the body twice: the first pass counts the properties
in an 8-bit variable and checks that they tile the body, the second pass writes
one pointer per property.  Between the two stands the capacity test, made with
the 8-bit count.

* `protoObjectRead` — the function: its result code, what the object holds
  afterwards, and the writes through `obj` in program order;
* `countProperties_eq`, `initPointers_eq` — what each pass computes on a body
  that is tiled;
* `protoObjectRead_of_tiled`, `protoObjectRead_of_untiled` — the whole function,
  for every body;
* `DecodesExactly` — exact acceptance and bounded output, and
  `protoObjectRead_decodesExactly_iff`, which says for which bodies the code
  has it.
-/

namespace ZxProto

open ByteMemory

/-! ## The function -/

/-- First pass: count the properties in a `uint8_t` and run the cursor past the
last of them. -/
def countProperties (mem : Memory) (it stop : Nat) (numberOfProperties : UInt8) : UInt8 × Nat :=
  if it < stop then
    countProperties mem
      (it + (sizeofProtoObjectProperty + (protoPropertyValueSize mem it).toNat)) stop
      (numberOfProperties + 1)
  else
    (numberOfProperties, it)
termination_by stop - it
decreasing_by simp only [sizeofProtoObjectProperty]; omega

/-- Second pass: the cursor values that `*properties++ = it` stores. -/
def initPointers (mem : Memory) (it stop : Nat) : List Nat :=
  if it < stop then
    it :: initPointers mem
      (it + (sizeofProtoObjectProperty + (protoPropertyValueSize mem it).toNat)) stop
  else
    []
termination_by stop - it
decreasing_by simp only [sizeofProtoObjectProperty]; omega

/-- The writes that fill a pointer table from `properties` on, NULL included. -/
def tableStores (pl : Platform) (properties : Nat) : List Nat → List Store
  | [] => [⟨properties, littleEndian pl.pointerSize 0⟩]
  | pointer :: rest =>
      ⟨properties, littleEndian pl.pointerSize pointer⟩ ::
        tableStores pl (properties + pl.pointerSize) rest

/-- The return value, what `obj` holds afterwards, and the writes through `obj`. -/
structure ReadOutcome where
  result : UInt8
  object : ProtoObject
  stores : List Store
deriving DecidableEq

/-- `proto_object_read`.  `held` is what the memory at `obj` holds on entry. -/
def protoObjectRead (pl : Platform) (obj : Nat) (held : ProtoObject)
    (bufferAvailable objectSize : UInt16) (mem : Memory) (bufferFrom : Nat) : ReadOutcome :=
  let stop := bufferFrom + objectSize.toNat
  let counted := countProperties mem bufferFrom stop 0
  -- the last property must end where the body does
  if counted.2 ≠ stop then
    ⟨1, held, []⟩
  else if bufferAvailable.toNat <
      sizeofProtoObject + (counted.1.toNat + 1) * pl.pointerSize then
    ⟨2, held, []⟩
  else
    let properties := initPointers mem bufferFrom stop
    ⟨0, ⟨objectSize, properties⟩,
      ⟨obj, u16Bytes objectSize⟩ :: tableStores pl (obj + sizeofProtoObject) properties⟩

/-! ## What the passes compute -/

/-- The first pass on a tiled block reaches its end exactly, with the number of
properties modulo 256. -/
theorem countProperties_eq (mem : Memory) {it stop : Nat} (hle : it ≤ stop)
    {props : List Property} (h : slice mem it (stop - it) = bodyBytes props) (n : UInt8) :
    countProperties mem it stop n = (n + UInt8.ofNat props.length, stop) := by
  induction props generalizing it n with
  | nil =>
      have hstop := tiled_nil hle h
      rw [countProperties, if_neg (by omega)]
      simp [hstop]
  | cons p props ih =>
      obtain ⟨hlt, -, hsize, hnext, hrest⟩ := tiled_cons h
      have hcount : n + 1 + UInt8.ofNat props.length = n + UInt8.ofNat (props.length + 1) := by
        rw [UInt8.ofNat_add, UInt8.add_assoc, UInt8.add_comm 1]
        rfl
      rw [countProperties, if_pos hlt, hsize, ih hnext hrest, hcount, List.length_cons]

/-- The first pass on a block that is not tiled overruns its end. -/
theorem countProperties_snd_ne (mem : Memory) {it stop : Nat} (hle : it ≤ stop)
    (h : parseProperties (slice mem it (stop - it)) = none) (n : UInt8) :
    (countProperties mem it stop n).2 ≠ stop := by
  induction hk : stop - it using Nat.strongRecOn generalizing it n with
  | _ k ih =>
      rcases Nat.lt_or_ge it stop with hlt | hge
      · rw [countProperties, if_pos hlt]
        rcases Nat.lt_or_ge stop
          (it + (sizeofProtoObjectProperty + (protoPropertyValueSize mem it).toNat))
          with hover | hin
        -- the cursor has passed the end and does not come back
        · rw [countProperties, if_neg (by omega)]
          exact Nat.ne_of_gt hover
        -- the first property is whole, so the rest is not tiled
        · rw [slice_property mem it stop hin, parseProperties_bytes_append,
            Option.map_eq_none_iff] at h
          refine ih _ ?_ hin h _ rfl
          simp only [sizeofProtoObjectProperty]
          omega
      · have hempty : stop - it = 0 := by omega
        rw [hempty] at h
        simp [parseProperties] at h

/-- The second pass on a tiled block lists its properties in order. -/
theorem initPointers_eq (mem : Memory) {it stop : Nat} (hle : it ≤ stop)
    {props : List Property} (h : slice mem it (stop - it) = bodyBytes props) :
    initPointers mem it stop = propertyAddresses it props := by
  induction props generalizing it with
  | nil =>
      have hstop := tiled_nil hle h
      rw [initPointers, if_neg (by omega), propertyAddresses]
  | cons p props ih =>
      obtain ⟨hlt, -, hsize, hnext, hrest⟩ := tiled_cons h
      rw [initPointers, if_pos hlt, hsize, ih hnext hrest, propertyAddresses]

/-! ## The whole function -/

/-- A table of `n` pointers fits if the size field, the pointers and the NULL do. -/
def TableFits (pl : Platform) (n bufferAvailable : Nat) : Prop :=
  sizeofProtoObject + (n + 1) * pl.pointerSize ≤ bufferAvailable

instance (pl : Platform) (n bufferAvailable : Nat) : Decidable (TableFits pl n bufferAvailable) :=
  inferInstanceAs (Decidable (_ ≤ _))

section WholeFunction

variable (pl : Platform) (obj : Nat) (held : ProtoObject) (bufferAvailable objectSize : UInt16)
  (mem : Memory) (bufferFrom : Nat)

/-- On a tiled body the capacity test alone decides, and it uses the number of
properties modulo 256. -/
theorem protoObjectRead_of_tiled {props : List Property}
    (h : slice mem bufferFrom objectSize.toNat = bodyBytes props) :
    protoObjectRead pl obj held bufferAvailable objectSize mem bufferFrom =
      if TableFits pl (props.length % 256) bufferAvailable.toNat then
        ⟨0, ⟨objectSize, propertyAddresses bufferFrom props⟩,
          ⟨obj, u16Bytes objectSize⟩ ::
            tableStores pl (obj + sizeofProtoObject) (propertyAddresses bufferFrom props)⟩
      else
        ⟨2, held, []⟩ := by
  have hle : bufferFrom ≤ bufferFrom + objectSize.toNat := Nat.le_add_right _ _
  have htiled : slice mem bufferFrom (bufferFrom + objectSize.toNat - bufferFrom) =
      bodyBytes props := by
    rwa [Nat.add_sub_cancel_left]
  have hcount : (0 + UInt8.ofNat props.length).toNat = props.length % 256 := by
    rw [UInt8.zero_add, UInt8.toNat_ofNat']
  simp only [protoObjectRead, countProperties_eq mem hle htiled, initPointers_eq mem hle htiled,
    ne_eq, not_true_eq_false, if_false, hcount]
  by_cases hfits : TableFits pl (props.length % 256) bufferAvailable.toNat
  · rw [if_pos hfits, if_neg (Nat.not_lt.mpr hfits)]
  · rw [if_neg hfits, if_pos (Nat.not_le.mp hfits)]

theorem protoObjectRead_of_untiled
    (h : parseProperties (slice mem bufferFrom objectSize.toNat) = none) :
    protoObjectRead pl obj held bufferAvailable objectSize mem bufferFrom = ⟨1, held, []⟩ := by
  have hne := countProperties_snd_ne mem (Nat.le_add_right bufferFrom objectSize.toNat)
    (by rwa [Nat.add_sub_cancel_left]) 0
  simp only [protoObjectRead]
  rw [if_pos hne]

/-- The result code, as a function of the body alone. -/
theorem protoObjectRead_result_eq_zero_iff :
    (protoObjectRead pl obj held bufferAvailable objectSize mem bufferFrom).result = 0 ↔
      ∃ props, parseProperties (slice mem bufferFrom objectSize.toNat) = some props ∧
        TableFits pl (props.length % 256) bufferAvailable.toNat := by
  cases hparse : parseProperties (slice mem bufferFrom objectSize.toNat) with
  | none =>
      rw [protoObjectRead_of_untiled pl obj held bufferAvailable objectSize mem bufferFrom hparse]
      simp
  | some props =>
      rw [protoObjectRead_of_tiled pl obj held bufferAvailable objectSize mem bufferFrom
        (parseProperties_eq_some_iff.mp hparse)]
      split
      · next hfits => simpa using hfits
      · next hfits => simpa using hfits

/-- An accepted object shows the properties of its body. -/
theorem protoObjectRead_contents {props : List Property}
    (hparse : parseProperties (slice mem bufferFrom objectSize.toNat) = some props)
    (hresult : (protoObjectRead pl obj held bufferAvailable objectSize mem bufferFrom).result = 0) :
    (protoObjectRead pl obj held bufferAvailable objectSize mem bufferFrom).object =
        ⟨objectSize, propertyAddresses bufferFrom props⟩ ∧
      (protoObjectRead pl obj held bufferAvailable objectSize mem bufferFrom).object.contents mem =
        props := by
  have htiled := parseProperties_eq_some_iff.mp hparse
  rw [protoObjectRead_of_tiled pl obj held bufferAvailable objectSize mem bufferFrom htiled]
    at hresult ⊢
  by_cases hfits : TableFits pl (props.length % 256) bufferAvailable.toNat
  · rw [if_pos hfits]
    refine ⟨rfl, map_readProperty_propertyAddresses mem
      (bufferFrom + objectSize.toNat) ?_⟩
    rwa [Nat.add_sub_cancel_left]
  · rw [if_neg hfits] at hresult
    simp at hresult

end WholeFunction

/-! ## Exact acceptance and bounded output -/

/-- The writes of a pointer table stay inside the table. -/
theorem tableStores_within (pl : Platform) (a : Nat) (pointers : List Nat) :
    ∀ s ∈ tableStores pl a pointers, s.Within a ((pointers.length + 1) * pl.pointerSize) := by
  induction pointers generalizing a with
  | nil =>
      intro s hs
      rw [tableStores, List.mem_singleton] at hs
      subst hs
      simp [Store.Within]
  | cons pointer pointers ih =>
      intro s hs
      rw [tableStores] at hs
      rw [List.length_cons, Nat.succ_mul]
      rcases List.mem_cons.mp hs with rfl | hs
      · simp only [Store.Within, length_littleEndian]
        omega
      · obtain ⟨hlo, hhi⟩ := ih (a + pl.pointerSize) s hs
        exact ⟨by omega, by omega⟩

/-- A pointer table is read back. -/
theorem slice_tableStores (pl : Platform) (mem : Memory) (a : Nat) (pointers : List Nat) :
    slice (storeAll mem (tableStores pl a pointers)) a ((pointers.length + 1) * pl.pointerSize) =
      pointers.flatMap (littleEndian pl.pointerSize) ++ littleEndian pl.pointerSize 0 := by
  induction pointers generalizing mem a with
  | nil =>
      have hself := slice_store_self mem a (littleEndian pl.pointerSize 0)
      rw [length_littleEndian] at hself
      rw [List.length_nil, Nat.zero_add, Nat.one_mul]
      exact hself
  | cons pointer pointers ih =>
      have hself := slice_store_self mem a (littleEndian pl.pointerSize pointer)
      rw [length_littleEndian] at hself
      have hlength : ((pointer :: pointers).length + 1) * pl.pointerSize =
          pl.pointerSize + (pointers.length + 1) * pl.pointerSize := by
        rw [List.length_cons, Nat.succ_mul, Nat.add_comm]
      -- the later entries lie behind the first
      have hlater : ∀ s ∈ tableStores pl (a + pl.pointerSize) pointers,
          s.Avoids a pl.pointerSize := fun s hs =>
        (tableStores_within pl _ _ s hs).avoids (Or.inr le_rfl)
      rw [tableStores, storeAll_cons, hlength, slice_add, slice_storeAll_of_avoids _ hlater, hself,
        ih, List.flatMap_cons, List.append_assoc]

/-- The decoder accepts a body exactly if it is a concatenation of whole
properties whose pointer table fits `bufferAvailable`; it then writes the size,
the pointers in order and a NULL, all inside `bufferAvailable` bytes; otherwise
it says why and leaves `obj` alone. -/
structure DecodesExactly (pl : Platform) (obj : Nat) (held : ProtoObject)
    (bufferAvailable objectSize : UInt16) (mem : Memory) (bufferFrom : Nat) : Prop where
  accepts : (protoObjectRead pl obj held bufferAvailable objectSize mem bufferFrom).result = 0 ↔
    ∃ props, slice mem bufferFrom objectSize.toNat = bodyBytes props ∧
      TableFits pl props.length bufferAvailable.toNat
  writes : ∀ props, slice mem bufferFrom objectSize.toNat = bodyBytes props →
    TableFits pl props.length bufferAvailable.toNat →
    (protoObjectRead pl obj held bufferAvailable objectSize mem bufferFrom).object =
        ⟨objectSize, propertyAddresses bufferFrom props⟩ ∧
      (protoObjectRead pl obj held bufferAvailable objectSize mem bufferFrom).stores =
        ⟨obj, u16Bytes objectSize⟩ ::
          tableStores pl (obj + sizeofProtoObject) (propertyAddresses bufferFrom props)
  bounded : ∀ s ∈ (protoObjectRead pl obj held bufferAvailable objectSize mem bufferFrom).stores,
    s.Within obj bufferAvailable.toNat
  rejects : (protoObjectRead pl obj held bufferAvailable objectSize mem bufferFrom).result ≠ 0 →
    (protoObjectRead pl obj held bufferAvailable objectSize mem bufferFrom).object = held ∧
      (protoObjectRead pl obj held bufferAvailable objectSize mem bufferFrom).stores = []
  untiled : (¬ ∃ props, slice mem bufferFrom objectSize.toNat = bodyBytes props) →
    (protoObjectRead pl obj held bufferAvailable objectSize mem bufferFrom).result = 1
  tooLarge : ∀ props, slice mem bufferFrom objectSize.toNat = bodyBytes props →
    ¬ TableFits pl props.length bufferAvailable.toNat →
    (protoObjectRead pl obj held bufferAvailable objectSize mem bufferFrom).result = 2

/-- A table that fits also fits when its entries are counted modulo 256. -/
theorem TableFits.mod {pl : Platform} {n bufferAvailable : Nat}
    (h : TableFits pl n bufferAvailable) : TableFits pl (n % 256) bufferAvailable := by
  have hmod : (n % 256 + 1) * pl.pointerSize ≤ (n + 1) * pl.pointerSize :=
    Nat.mul_le_mul_right _ (Nat.succ_le_succ (Nat.mod_le n 256))
  unfold TableFits at h ⊢
  omega

section Exact

variable (pl : Platform) (obj : Nat) (held : ProtoObject) (bufferAvailable objectSize : UInt16)
  (mem : Memory) (bufferFrom : Nat)

/-- A body that is not tiled is rejected as such. -/
theorem decodesExactly_of_untiled
    (hparse : parseProperties (slice mem bufferFrom objectSize.toNat) = none) :
    DecodesExactly pl obj held bufferAvailable objectSize mem bufferFrom := by
  have hread := protoObjectRead_of_untiled pl obj held bufferAvailable objectSize mem bufferFrom
    hparse
  have huntiled : ∀ props, slice mem bufferFrom objectSize.toNat ≠ bodyBytes props := by
    intro props hbody
    rw [hbody, parseProperties_bodyBytes] at hparse
    cases hparse
  refine ⟨?_, ?_, ?_, ?_, ?_, ?_⟩
  · simp [hread, huntiled]
  · intro props hbody
    exact absurd hbody (huntiled props)
  · simp [hread]
  · simp [hread]
  · simp [hread]
  · intro props hbody
    exact absurd hbody (huntiled props)

variable {props : List Property}

/-- A tiled body shows one list of properties. -/
theorem eq_of_tiled {body : List UInt8} (hbody : body = bodyBytes props) {props' : List Property}
    (hbody' : body = bodyBytes props') : props' = props :=
  bodyBytes_injective (hbody'.symm.trans hbody)

/-- A tiled body whose table fits is read, and everything is written inside the
buffer. -/
theorem decodesExactly_of_fits
    (hbody : slice mem bufferFrom objectSize.toNat = bodyBytes props)
    (hfits : TableFits pl props.length bufferAvailable.toNat) :
    DecodesExactly pl obj held bufferAvailable objectSize mem bufferFrom := by
  have hread := protoObjectRead_of_tiled pl obj held bufferAvailable objectSize mem bufferFrom hbody
  rw [if_pos hfits.mod] at hread
  refine ⟨?_, ?_, ?_, ?_, ?_, ?_⟩
  · simpa [hread] using ⟨props, hbody, hfits⟩
  · intro props' hbody' _
    rw [eq_of_tiled hbody hbody', hread]
    exact ⟨rfl, rfl⟩
  · intro s hs
    rw [hread] at hs
    unfold TableFits sizeofProtoObject at hfits
    rcases List.mem_cons.mp hs with rfl | hs
    · simp only [Store.Within, length_u16Bytes]
      omega
    · obtain ⟨hlo, hhi⟩ := tableStores_within pl _ _ s hs
      simp only [length_propertyAddresses, sizeofProtoObject] at hlo hhi
      exact ⟨by omega, by omega⟩
  · simp [hread]
  · intro huntiled
    exact absurd ⟨props, hbody⟩ huntiled
  · intro props' hbody' hnot
    rw [eq_of_tiled hbody hbody'] at hnot
    exact absurd hfits hnot

/-- A tiled body is rejected if the table is too large and the test sees it. -/
theorem decodesExactly_of_tooLarge
    (hbody : slice mem bufferFrom objectSize.toNat = bodyBytes props)
    (hlarge : ¬ TableFits pl props.length bufferAvailable.toNat)
    (hmod : ¬ TableFits pl (props.length % 256) bufferAvailable.toNat) :
    DecodesExactly pl obj held bufferAvailable objectSize mem bufferFrom := by
  have hread := protoObjectRead_of_tiled pl obj held bufferAvailable objectSize mem bufferFrom hbody
  rw [if_neg hmod] at hread
  refine ⟨?_, ?_, ?_, ?_, ?_, ?_⟩
  · constructor
    · simp [hread]
    · rintro ⟨props', hbody', hfits'⟩
      rw [eq_of_tiled hbody hbody'] at hfits'
      exact absurd hfits' hlarge
  · intro props' hbody' hfits'
    rw [eq_of_tiled hbody hbody'] at hfits'
    exact absurd hfits' hlarge
  · simp [hread]
  · simp [hread]
  · intro huntiled
    exact absurd ⟨props, hbody⟩ huntiled
  · simp [hread]

end Exact

/-- **When the decoder is exact.**  The 8-bit count makes no difference unless
the true table is too large while the table of `n % 256` pointers fits; every
body of at most 255 properties is on the good side. -/
theorem protoObjectRead_decodesExactly_iff (pl : Platform) (obj : Nat) (held : ProtoObject)
    (bufferAvailable objectSize : UInt16) (mem : Memory) (bufferFrom : Nat) :
    DecodesExactly pl obj held bufferAvailable objectSize mem bufferFrom ↔
      ∀ props, slice mem bufferFrom objectSize.toNat = bodyBytes props →
        TableFits pl (props.length % 256) bufferAvailable.toNat →
        TableFits pl props.length bufferAvailable.toNat := by
  constructor
  · intro hexact props hbody hmod
    have hread := protoObjectRead_of_tiled pl obj held bufferAvailable objectSize mem bufferFrom
      hbody
    rw [if_pos hmod] at hread
    obtain ⟨props', hbody', hfits⟩ := hexact.accepts.mp (by rw [hread])
    rwa [eq_of_tiled hbody' hbody]
  · intro hgood
    cases hparse : parseProperties (slice mem bufferFrom objectSize.toNat) with
    | none => exact decodesExactly_of_untiled pl obj held bufferAvailable objectSize mem _ hparse
    | some props =>
        have hbody := parseProperties_eq_some_iff.mp hparse
        by_cases hfits : TableFits pl props.length bufferAvailable.toNat
        · exact decodesExactly_of_fits pl obj held bufferAvailable objectSize mem _ hbody hfits
        · exact decodesExactly_of_tooLarge pl obj held bufferAvailable objectSize mem _ hbody hfits
            fun hmod => hfits (hgood props hbody hmod)

/-- 256 empty properties, 768 zero bytes, are read into a 128-byte buffer: the
count wraps to 0, the capacity test passes, and the decoder is not exact. -/
theorem protoObjectRead_not_exact_at_256 :
    (protoObjectRead Platform.pc 0 ⟨0, []⟩ 128 768 (fun _ => 0) 0).result = 0 ∧
      ¬ DecodesExactly Platform.pc 0 ⟨0, []⟩ 128 768 (fun _ => 0) 0 := by
  have hresult : (protoObjectRead Platform.pc 0 ⟨0, []⟩ 128 768 (fun _ => 0) 0).result = 0 := by
    decide +kernel
  have hcount : ((parseProperties (slice (fun _ => 0) 0 768)).map List.length) = some 256 := by
    decide +kernel
  refine ⟨hresult, fun hexact => ?_⟩
  obtain ⟨props, hbody, hfits⟩ := hexact.accepts.mp hresult
  have hslice : slice (fun _ => 0) 0 (768 : UInt16).toNat = slice (fun _ => 0) 0 768 := rfl
  rw [← hslice, hbody, parseProperties_bodyBytes, Option.map_some, Option.some.injEq] at hcount
  rw [hcount] at hfits
  exact absurd hfits (by decide)

end ZxProto
