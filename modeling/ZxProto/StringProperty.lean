import ZxProto.Accessors

/-!
# Copying a value out of an object

`get_str_property` copies the value of the first property with a key into a buffer of
its caller, and a zero behind it.  It clamps the 16-bit size of the value to the size of
the buffer less one.

* `getStrProperty` — the function, with its writes; `run_getStrPropertyLogged`: its reads
  are those of the accessor that is a program;
* `LongestPrefix` — the most of a value that fits a buffer with a zero;
* `ExtractsString`, `extractsString_iff` — when the buffer is kept to, and holds that.
-/

namespace ZxProto

open ByteMemory ReadLog ReadLog.Reading

/-! ## The function -/

/-- `get_str_property`: the return value, and the writes to `target_buffer`. -/
def getStrProperty (mem : Memory) (o : ProtoObject) (key : UInt8) (targetBuffer : Nat)
    (targetBufferSize : UInt16) : UInt8 × List Store :=
  match findProperty mem o key with
  | some property =>
      let size := maxSize targetBufferSize (protoPropertyValueSize mem property)
      (0,
        [⟨targetBuffer, slice mem (property + sizeofProtoObjectProperty) size.toNat⟩,
          ⟨targetBuffer + size.toNat, [0]⟩])
  | none => (1, [])

section StringProperty

variable {mem : Memory} {o : ProtoObject} {key : UInt8} {targetBuffer : Nat}
  {targetBufferSize : UInt16}

theorem getStrProperty_of_some {property : Nat} (hfound : findProperty mem o key = some property) :
    getStrProperty mem o key targetBuffer targetBufferSize =
      (0,
        [⟨targetBuffer, slice mem (property + sizeofProtoObjectProperty)
            (maxSize targetBufferSize (protoPropertyValueSize mem property)).toNat⟩,
          ⟨targetBuffer + (maxSize targetBufferSize (protoPropertyValueSize mem property)).toNat,
            [0]⟩]) := by
  rw [getStrProperty, hfound]

theorem getStrProperty_of_none (hnone : findProperty mem o key = none) :
    getStrProperty mem o key targetBuffer targetBufferSize = (1, []) := by
  rw [getStrProperty, hnone]

/-- The program that reads returns the same, and the bytes that are written. -/
theorem run_getStrPropertyLogged :
    (getStrPropertyLogged o key targetBufferSize).run mem =
      ((getStrProperty mem o key targetBuffer targetBufferSize).1,
        (getStrProperty mem o key targetBuffer targetBufferSize).2.flatMap Store.bytes) := by
  rw [getStrPropertyLogged, run_bind, run_findPropertyLogged]
  cases hfound : findProperty mem o key with
  | none => rw [getStrProperty_of_none hfound]; rfl
  | some property =>
      rw [getStrProperty_of_some hfound]
      simp only [run_bind, run_pure, strValue, run_loadBlock, List.flatMap_cons, List.flatMap_nil,
        List.append_nil]
      rfl

/-! ## What the buffer holds -/

/-- The most of `value` that a buffer of `size` bytes takes with a zero behind it. -/
structure LongestPrefix (size : Nat) (value front : List UInt8) : Prop where
  isPrefix : front <+: value
  fits : front.length + 1 ≤ size
  longest : ∀ other, other <+: value → other.length + 1 ≤ size → other.length ≤ front.length

theorem longestPrefix_take {size : Nat} (hpos : size ≠ 0) (value : List UInt8) :
    LongestPrefix size value (value.take (size - 1)) := by
  refine ⟨List.take_prefix _ _, ?_, fun other hother hfits => ?_⟩
  · have hle := List.length_take_le (size - 1) value
    omega
  · have hle := hother.length_le
    rw [List.length_take]
    omega

/-- `get_str_property` keeps to the buffer and reads no more than headers of the object's
properties and the value; a result of 0 says that a buffer that is not empty holds the
most of the value of the first property with the key; and without such a property, the
result is 1 and nothing is written. -/
structure ExtractsString (mem : Memory) (o : ProtoObject) (key : UInt8) (targetBuffer : Nat)
    (targetBufferSize : UInt16) : Prop where
  writes : ∀ s ∈ (getStrProperty mem o key targetBuffer targetBufferSize).2,
    s.Within targetBuffer targetBufferSize.toNat
  reads : ∀ i ∈ (getStrPropertyLogged o key targetBufferSize).trace mem,
    (∃ property ∈ o.properties, property ≤ i ∧ i < property + sizeofProtoObjectProperty) ∨
      ∃ property, findProperty mem o key = some property ∧
        property + sizeofProtoObjectProperty ≤ i ∧
        i < property + sizeofProtoObjectProperty + (protoPropertyValueSize mem property).toNat
  found : (getStrProperty mem o key targetBuffer targetBufferSize).1 = 0 → targetBufferSize ≠ 0 →
    ∃ property front, findProperty mem o key = some property ∧
      LongestPrefix targetBufferSize.toNat (protoPropertyValue mem property) front ∧
      slice (storeAll mem (getStrProperty mem o key targetBuffer targetBufferSize).2) targetBuffer
        (front.length + 1) = front ++ [0]
  notFound : (∀ property ∈ o.properties, protoPropertyKey mem property ≠ key) →
    (getStrProperty mem o key targetBuffer targetBufferSize).1 = 1 ∧
      (getStrProperty mem o key targetBuffer targetBufferSize).2 = []

theorem findProperty_eq_none_iff :
    findProperty mem o key = none ↔
      ∀ property ∈ o.properties, protoPropertyKey mem property ≠ key := by
  rw [findProperty, List.find?_eq_none]
  simp only [beq_iff_eq]

/-- The search reads keys. -/
theorem trace_findPropertyLogged {i : Nat} (hi : i ∈ (findPropertyLogged o key).trace mem) :
    ∃ property ∈ o.properties, i = property + 2 := by
  obtain ⟨property, hproperty, htrace⟩ := exists_mem_trace_of_scan hi
  exact ⟨property, hproperty, List.mem_singleton.mp htrace⟩

/-- A copy behind the search reads the size, and the bytes that are copied. -/
theorem trace_getStrPropertyLogged {i : Nat}
    (hi : i ∈ (getStrPropertyLogged o key targetBufferSize).trace mem) :
    (∃ property ∈ o.properties, property ≤ i ∧ i < property + sizeofProtoObjectProperty) ∨
      ∃ property, findProperty mem o key = some property ∧
        i ∈ (strValue (maxSize targetBufferSize (protoPropertyValueSize mem property))
          property).trace mem := by
  rw [getStrPropertyLogged, trace_bind, run_findPropertyLogged] at hi
  rcases List.mem_append.mp hi with hsearch | hcopy
  · obtain ⟨property, hproperty, rfl⟩ := trace_findPropertyLogged hsearch
    exact Or.inl ⟨property, hproperty, Nat.le_add_right _ _, Nat.lt_succ_self _⟩
  · cases hfound : findProperty mem o key with
    | none =>
        rw [hfound] at hcopy
        exact absurd hcopy List.not_mem_nil
    | some property =>
        rw [hfound] at hcopy
        simp only [trace_bind, trace_pure, List.append_nil] at hcopy
        rcases List.mem_append.mp hcopy with hsize | hvalue
        · rw [trace_loadU16, List.mem_pair] at hsize
          refine Or.inl ⟨property, List.mem_of_find?_eq_some hfound, ?_⟩
          unfold sizeofProtoObjectProperty
          omega
        · exact Or.inr ⟨property, rfl, hvalue⟩

/-- Without a buffer, the size that is copied wraps. -/
theorem maxSize_zero (valueSize : UInt16) : maxSize 0 valueSize = 65535 := by
  rw [maxSize, if_pos (UInt16.le_iff_toNat_le.mpr (Nat.zero_le _))]
  rfl

/-- A text and a zero behind it. -/
theorem slice_storeAll_string (mem : Memory) (a : Nat) (text : List UInt8) :
    slice (storeAll mem [⟨a, text⟩, ⟨a + text.length, [0]⟩]) a (text.length + 1) =
      text ++ [0] := by
  have hzero : slice (store (store mem ⟨a, text⟩) ⟨a + text.length, [0]⟩) (a + text.length) 1 =
      [0] := slice_store_self _ _ [0]
  rw [slice_add, storeAll_cons, storeAll_cons, storeAll_nil, hzero,
    slice_store_of_avoids _ (Or.inl le_rfl), slice_store_self]

theorem extractsString_of_none (hnone : findProperty mem o key = none) :
    ExtractsString mem o key targetBuffer targetBufferSize where
  writes := by
    rw [getStrProperty_of_none hnone]
    exact fun s hs => absurd hs List.not_mem_nil
  reads i hi := by
    rcases trace_getStrPropertyLogged hi with hheader | ⟨property, hsome, -⟩
    · exact Or.inl hheader
    · rw [hnone] at hsome
      cases hsome
  found hzero := by
    rw [getStrProperty_of_none hnone] at hzero
    cases hzero
  notFound _ := by
    rw [getStrProperty_of_none hnone]
    exact ⟨rfl, rfl⟩

theorem extractsString_of_some {property : Nat} (hfound : findProperty mem o key = some property)
    (hne : targetBufferSize ≠ 0) : ExtractsString mem o key targetBuffer targetBufferSize where
  writes := by
    have hpos : targetBufferSize.toNat ≠ 0 := fun hzero => hne (UInt16.toNat_inj.mp hzero)
    have hsize := toNat_maxSize hne (protoPropertyValueSize mem property)
    rw [getStrProperty_of_some hfound, List.forall_mem_cons, List.forall_mem_singleton]
    refine ⟨⟨le_rfl, ?_⟩, Nat.le_add_right _ _, ?_⟩
    · show targetBuffer + (slice mem _ _).length ≤ _
      rw [length_slice]
      omega
    · show targetBuffer + _ + 1 ≤ _
      omega
  reads i hi := by
    rcases trace_getStrPropertyLogged hi with hheader | ⟨p, hp, htrace⟩
    · exact Or.inl hheader
    · exact Or.inr ⟨p, hp, inside_strValue (maxSize_le hne _) i htrace⟩
  found _ _ := by
    have hpos : targetBufferSize.toNat ≠ 0 := fun hzero => hne (UInt16.toNat_inj.mp hzero)
    have htext : slice mem (property + sizeofProtoObjectProperty)
        (maxSize targetBufferSize (protoPropertyValueSize mem property)).toNat =
          (protoPropertyValue mem property).take (targetBufferSize.toNat - 1) := by
      rw [toNat_maxSize hne, protoPropertyValue, take_slice_min]
    have hlength := congrArg List.length htext
    rw [length_slice] at hlength
    refine ⟨property, _, hfound, longestPrefix_take hpos _, ?_⟩
    rw [getStrProperty_of_some hfound, htext, hlength]
    exact slice_storeAll_string mem targetBuffer _
  notFound hall := by
    rw [findProperty_eq_none_iff.mpr hall] at hfound
    cases hfound

/-- **When the string is extracted**: if there is a buffer at all, or nothing to put
into it. -/
theorem extractsString_iff (mem : Memory) (o : ProtoObject) (key : UInt8) (targetBuffer : Nat)
    (targetBufferSize : UInt16) :
    ExtractsString mem o key targetBuffer targetBufferSize ↔
      targetBufferSize ≠ 0 ∨ ∀ property ∈ o.properties, protoPropertyKey mem property ≠ key := by
  rw [← findProperty_eq_none_iff]
  constructor
  · intro h
    refine or_iff_not_imp_left.mpr fun hzero => ?_
    rw [not_not] at hzero
    by_contra hsome
    obtain ⟨property, hfound⟩ := Option.ne_none_iff_exists'.mp hsome
    -- the terminating zero is the last of 65536 bytes
    have hwrites := h.writes
    rw [getStrProperty_of_some hfound, hzero, maxSize_zero] at hwrites
    have hlast := (hwrites ⟨targetBuffer + 65535, [0]⟩
      (List.mem_cons_of_mem _ (List.mem_singleton_self _))).2
    exact absurd hlast (by simp)
  · intro hcondition
    cases hfound : findProperty mem o key with
    | none => exact extractsString_of_none hfound
    | some property =>
        refine extractsString_of_some hfound (hcondition.resolve_right fun hnone => ?_)
        rw [hfound] at hnone
        cases hnone

/-- A buffer of no bytes: the value of one byte at 100 is copied with everything behind
it, 65536 bytes with the zero. -/
theorem not_extractsString_of_zero :
    ¬ ExtractsString (store (fun _ => 0) ⟨100, [1, 0, 5, 7]⟩) ⟨4, [100]⟩ 5 200 0 := by
  intro h
  have hlast := (h.writes ⟨200 + 65535, [0]⟩ (by decide +kernel)).2
  exact absurd hlast (by decide)

end StringProperty

end ZxProto
