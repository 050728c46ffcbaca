import ZxProto.Library.ReadLog
import ZxProto.ObjectRead

/-!
# What the C decoder reads

The first pass of `proto_object_read` reads a size of two bytes wherever the cursor is
in front of the end.  Where only one byte is left, the second lies behind the body.

* `countPropertiesLogged`, `initPointersLogged`, `protoObjectReadLogged` — the passes
  and the function, as programs that read memory;
* `run_protoObjectReadLogged` — they compute what the function does;
* `OneByteLeft` — a body that ends one byte behind whole properties;
* `readsOnlyBody_iff` — everything else is read inside the body.
-/

namespace ZxProto

open ByteMemory ReadLog ReadLog.Reading

/-! ## The function -/

/-- First pass. -/
def countPropertiesLogged (it stop : Nat) (numberOfProperties : UInt8) :
    Reading (UInt8 × Nat) :=
  if it < stop then do
    -- `memcpy(&value_size, it, sizeof(value_size))`
    let valueSize ← loadU16 it
    countPropertiesLogged (it + (sizeofProtoObjectProperty + valueSize.toNat)) stop
      (numberOfProperties + 1)
  else
    pure (numberOfProperties, it)
termination_by stop - it
decreasing_by simp only [sizeofProtoObjectProperty]; omega

/-- Second pass. -/
def initPointersLogged (it stop : Nat) : Reading (List Nat) :=
  if it < stop then do
    let valueSize ← loadU16 it
    let properties ←
      initPointersLogged (it + (sizeofProtoObjectProperty + valueSize.toNat)) stop
    pure (it :: properties)
  else
    pure []
termination_by stop - it
decreasing_by simp only [sizeofProtoObjectProperty]; omega

/-- `proto_object_read`, with what it reads of the body. -/
def protoObjectReadLogged (pl : Platform) (obj : Nat) (held : ProtoObject)
    (bufferAvailable objectSize : UInt16) (bufferFrom : Nat) : Reading ReadOutcome := do
  let stop := bufferFrom + objectSize.toNat
  let counted ← countPropertiesLogged bufferFrom stop 0
  if counted.2 ≠ stop then
    pure ⟨1, held, []⟩
  else if bufferAvailable.toNat <
      sizeofProtoObject + (counted.1.toNat + 1) * pl.pointerSize then
    pure ⟨2, held, []⟩
  else do
    let properties ← initPointersLogged bufferFrom stop
    pure ⟨0, ⟨objectSize, properties⟩,
      ⟨obj, u16Bytes objectSize⟩ :: tableStores pl (obj + sizeofProtoObject) properties⟩

section Decoder

variable (mem : Memory)

theorem run_countPropertiesLogged (it stop : Nat) (n : UInt8) :
    (countPropertiesLogged it stop n).run mem = countProperties mem it stop n := by
  induction it, n using countProperties.induct mem stop with
  | case1 it n hlt ih =>
      rw [countPropertiesLogged, if_pos hlt, countProperties, if_pos hlt, run_bind, run_loadU16]
      exact ih
  | case2 it n hge => rw [countPropertiesLogged, if_neg hge, countProperties, if_neg hge, run_pure]

theorem run_initPointersLogged (it stop : Nat) :
    (initPointersLogged it stop).run mem = initPointers mem it stop := by
  induction it using initPointers.induct mem stop with
  | case1 it hlt ih =>
      rw [initPointersLogged, if_pos hlt, initPointers, if_pos hlt, run_bind, run_loadU16,
        run_bind, run_pure]
      exact congrArg (it :: ·) ih
  | case2 it hge => rw [initPointersLogged, if_neg hge, initPointers, if_neg hge, run_pure]

/-- The program computes what the function does. -/
theorem run_protoObjectReadLogged (pl : Platform) (obj : Nat) (held : ProtoObject)
    (bufferAvailable objectSize : UInt16) (bufferFrom : Nat) :
    (protoObjectReadLogged pl obj held bufferAvailable objectSize bufferFrom).run mem =
      protoObjectRead pl obj held bufferAvailable objectSize mem bufferFrom := by
  simp only [protoObjectReadLogged, protoObjectRead, run_bind, run_countPropertiesLogged, run_ite,
    run_pure, run_initPointersLogged]

end Decoder

/-! ## Bodies -/

/-- The wire format is prefix-free. -/
theorem Property.bytes_append_inj {p q : Property} {xs ys : List UInt8}
    (h : p.bytes ++ xs = q.bytes ++ ys) : p = q ∧ xs = ys := by
  have hsizes : u16Bytes (UInt16.ofNat p.value.length) =
      u16Bytes (UInt16.ofNat q.value.length) := by
    have htake := congrArg (List.take 2) h
    simp only [Property.bytes, List.append_assoc] at htake
    rwa [List.take_left' (length_u16Bytes _), List.take_left' (length_u16Bytes _)] at htake
  have hvalues : p.value.length = q.value.length := by
    rw [u16Bytes_ofNat p.value_lt, u16Bytes_ofNat q.value_lt] at hsizes
    obtain ⟨hlo, hhi⟩ := List.cons.inj hsizes
    rw [← toNat_u16le_ofNat p.value_lt, hlo, (List.cons.inj hhi).1,
      toNat_u16le_ofNat q.value_lt]
  have hlength : p.bytes.length = q.bytes.length := by
    rw [Property.length_bytes, Property.length_bytes, Property.size, Property.size, hvalues]
  obtain ⟨hbytes, hrest⟩ := List.append_inj h hlength
  have hone : bodyBytes [p] = bodyBytes [q] := by
    rw [bodyBytes_cons, bodyBytes_cons, hbytes]
  exact ⟨(List.cons.inj (bodyBytes_injective hone)).1, hrest⟩

/-- Whole properties, and one byte of a size behind them. -/
def OneByteLeft (body : List UInt8) : Prop :=
  ∃ props b, body = bodyBytes props ++ [b]

theorem oneByteLeft_singleton (b : UInt8) : OneByteLeft [b] :=
  ⟨[], b, rfl⟩

theorem not_oneByteLeft_nil : ¬ OneByteLeft [] := by
  rintro ⟨props, b, h⟩
  simp at h

/-- A body starts with a whole property, or it is one byte. -/
theorem OneByteLeft.cases {body : List UInt8} (h : OneByteLeft body) :
    body.length = 1 ∨ ∃ (p : Property) (rest : List UInt8),
      body = p.bytes ++ rest ∧ OneByteLeft rest := by
  obtain ⟨props, b, rfl⟩ := h
  cases props with
  | nil => exact Or.inl rfl
  | cons p props => exact Or.inr ⟨p, bodyBytes props ++ [b], by simp, props, b, rfl⟩

theorem oneByteLeft_bytes_append_iff (p : Property) (rest : List UInt8) :
    OneByteLeft (p.bytes ++ rest) ↔ OneByteLeft rest := by
  constructor
  · intro h
    rcases h.cases with hone | ⟨q, rest', hsplit, hrest⟩
    · rw [List.length_append, Property.length_bytes, Property.size,
        sizeofProtoObjectProperty] at hone
      omega
    · rwa [(Property.bytes_append_inj hsplit).2]
  · rintro ⟨props, b, rfl⟩
    exact ⟨p :: props, b, by simp⟩

/-! ## What is read -/

section Reads

variable {mem : Memory}

/-- A property whose end lies behind the body is not one of those in front of a last
byte. -/
theorem not_oneByteLeft_of_overrun {it stop : Nat} (htwo : it + 2 ≤ stop)
    (hover : stop < it + (sizeofProtoObjectProperty + (protoPropertyValueSize mem it).toNat)) :
    ¬ OneByteLeft (slice mem it (stop - it)) := by
  intro h
  rcases h.cases with hone | ⟨p, rest, hsplit, -⟩
  · rw [length_slice] at hone
    omega
  · -- a whole property in front shows its size at the cursor
    have hlength := congrArg List.length hsplit
    rw [length_slice, List.length_append, Property.length_bytes] at hlength
    have hfront : slice mem it p.size = p.bytes := by
      have htake := congrArg (List.take p.size) hsplit
      rwa [take_slice mem it (by omega), List.take_left' (Property.length_bytes p)] at htake
    have hsize := size_readProperty mem it
    rw [readProperty_of_slice hfront] at hsize
    omega

/-- **The first pass** reads inside the block, unless it comes to a last byte. -/
theorem inside_countPropertiesLogged_iff {a n it : Nat} (hlo : a ≤ it) (hhi : it ≤ a + n)
    (count : UInt8) :
    (countPropertiesLogged it (a + n) count).Inside mem a n ↔
      ¬ OneByteLeft (slice mem it (a + n - it)) := by
  induction hk : a + n - it using Nat.strongRecOn generalizing it count with
  | _ k ih =>
      rcases Nat.lt_or_ge it (a + n) with hlt | hge
      · rw [countPropertiesLogged, if_pos hlt, inside_bind_iff, inside_loadU16_iff, run_loadU16]
        rcases Nat.lt_or_ge (it + 1) (a + n) with htwo | hone
        · rcases Nat.lt_or_ge (a + n)
            (it + (sizeofProtoObjectProperty + (protoPropertyValueSize mem it).toNat))
            with hover | hin
          · -- the cursor passes the end, and nothing more is read
            have hnot := not_oneByteLeft_of_overrun htwo hover
            rw [hk] at hnot
            change _ ∧ (countPropertiesLogged (it + (sizeofProtoObjectProperty +
              (protoPropertyValueSize mem it).toNat)) _ _).Inside mem a n ↔ _
            rw [countPropertiesLogged, if_neg (by omega)]
            exact iff_of_true ⟨⟨hlo, htwo⟩, inside_pure _⟩ hnot
          · have hsplit := slice_property mem it (a + n) hin
            rw [hk] at hsplit
            rw [hsplit, oneByteLeft_bytes_append_iff]
            refine Iff.trans (and_iff_right ⟨hlo, htwo⟩) (ih _ ?_ ?_ hin _ rfl)
            · simp only [sizeofProtoObjectProperty]
              omega
            · omega
        · -- one byte is left
          have hlast : k = 1 := by omega
          subst hlast
          exact iff_of_false (fun hread => absurd hread.1.2 (by omega))
            (not_not.mpr (oneByteLeft_singleton (mem it)))
      · have hempty : k = 0 := by omega
        subst hempty
        rw [countPropertiesLogged, if_neg (by omega)]
        exact iff_of_true (inside_pure _) not_oneByteLeft_nil

/-- The second pass, on a tiled block, reads inside it. -/
theorem inside_initPointersLogged {a n it : Nat} (hlo : a ≤ it) {props : List Property}
    (htiled : slice mem it (a + n - it) = bodyBytes props) :
    (initPointersLogged it (a + n)).Inside mem a n := by
  induction props generalizing it with
  | nil =>
      have hlength := congrArg List.length htiled
      rw [length_slice, bodyBytes_nil, List.length_nil] at hlength
      rw [initPointersLogged, if_neg (by omega)]
      exact inside_pure []
  | cons p props ih =>
      obtain ⟨hlt, -, hsize, hnext, hrest⟩ := tiled_cons htiled
      have hthree : 3 ≤ p.size := Nat.le_add_left 3 p.value.length
      rw [initPointersLogged, if_pos hlt]
      refine (inside_loadU16_iff.mpr ⟨hlo, by omega⟩).bind (Inside.bind ?_ (inside_pure _))
      rw [run_loadU16]
      change (initPointersLogged (it + (sizeofProtoObjectProperty +
        (protoPropertyValueSize mem it).toNat)) _).Inside mem a n
      rw [hsize]
      exact ih (by omega) hrest

/-- **What the decoder reads** lies in the body, unless the body ends one byte behind
whole properties: for every memory, size and place of the object. -/
theorem readsOnlyBody_iff (pl : Platform) (obj : Nat) (held : ProtoObject)
    (bufferAvailable objectSize : UInt16) (mem : Memory) (bufferFrom : Nat) :
    (protoObjectReadLogged pl obj held bufferAvailable objectSize bufferFrom).Inside mem
        bufferFrom objectSize.toNat ↔
      ¬ OneByteLeft (slice mem bufferFrom objectSize.toNat) := by
  have hcount : (countPropertiesLogged bufferFrom (bufferFrom + objectSize.toNat) 0).Inside mem
      bufferFrom objectSize.toNat ↔ _ :=
    inside_countPropertiesLogged_iff le_rfl (Nat.le_add_right _ _) 0
  rw [Nat.add_sub_cancel_left] at hcount
  rw [protoObjectReadLogged, inside_bind_iff, hcount]
  refine and_iff_left_of_imp fun _ => ?_
  rw [run_countPropertiesLogged]
  refine inside_ite (fun _ => inside_pure _) fun hends => inside_ite (fun _ => inside_pure _)
    fun _ => Inside.bind ?_ (inside_pure _)
  -- the second pass runs on tiled bodies only
  cases hparse : parseProperties (slice mem bufferFrom objectSize.toNat) with
  | none =>
      refine absurd (not_not.mp hends) (countProperties_snd_ne mem (Nat.le_add_right _ _) ?_ 0)
      rwa [Nat.add_sub_cancel_left]
  | some props =>
      have htiled : slice mem bufferFrom (bufferFrom + objectSize.toNat - bufferFrom) =
          bodyBytes props := by
        rw [Nat.add_sub_cancel_left]
        exact parseProperties_eq_some_iff.mp hparse
      exact inside_initPointersLogged le_rfl htiled

/-- A body of one byte: the second byte of the size is read behind it. -/
theorem not_readsOnlyBody_of_one :
    ¬ (protoObjectReadLogged .pc 4096 ⟨0, []⟩ 128 1 100).Inside (fun _ => 0) 100 1 := by
  intro hinside
  have hread := (inside_bind_iff.mp hinside).1
  rw [countPropertiesLogged, if_pos (by decide), inside_bind_iff, inside_loadU16_iff] at hread
  omega

end Reads

end ZxProto
