import ZxProto.ObjectReadAsm

/-!
# The decoder that `process` calls

`process` reads every object into the 128 bytes of its `object_buffer`, with the decoder
that is linked.  Neither decoder is sure to stay in them: the C function counts the
properties in eight bits, and the routine of the Spectrum follows the sizes that it
finds.  Nothing is known of the code behind a write outside of the buffer.

* `Walk.pointers`, `protoObjectReadWalk` — the routine as a function of the memory that
  it finds in front of its loop;
* `Build.readObject` — the call, which gives nothing if the buffer does not hold what
  is stored, or the routine does not return;
* `CallsRoutine.safe_iff`, `CallsRoutine.returns` — on the Spectrum, this is what the
  machine does;
* `Accepted` — the bodies that are read as what they are; `Contained` — those that the
  buffer holds the objects of, wherever they lie.
-/

namespace ZxProto

open ByteMemory

/-! ## The routine as a function -/

/-- The pointers that the loop stores, if it is left within `turns` turns. -/
def Walk.pointers (stop : UInt16) : Nat → Walk → Option (List Nat)
  | 0, _ => none
  | turns + 1, w =>
      if w.next.it < stop then (w.next.pointers stop turns).map (w.it.toNat :: ·)
      else some [w.it.toNat]

theorem Walk.leavesAfter_of_pointers {stop : UInt16} {turns : Nat} {w : Walk} {ps : List Nat}
    (h : w.pointers stop turns = some ps) : w.LeavesAfter stop ps.length := by
  induction turns generalizing w ps with
  | zero => cases h
  | succ turns ih =>
      rw [Walk.pointers] at h
      split at h
      · next hlt =>
          obtain ⟨rest, hrest, rfl⟩ := Option.map_eq_some_iff.mp h
          exact (ih hrest).succ hlt
      · next hleaves =>
          cases h
          exact ⟨Nat.one_pos, fun k hk hlt => by simp at hlt; omega, hleaves⟩

theorem Walk.LeavesAfter.exists_pointers {stop : UInt16} {m turns : Nat} {w : Walk}
    (h : w.LeavesAfter stop m) (hm : m ≤ turns) :
    ∃ ps, w.pointers stop turns = some ps ∧ ps.length = m := by
  induction turns generalizing w m with
  | zero => exact absurd h.pos (by omega)
  | succ turns ih =>
      rw [Walk.pointers]
      obtain ⟨k, rfl⟩ := Nat.exists_eq_succ_of_ne_zero (Nat.pos_iff_ne_zero.mp h.pos)
      by_cases hlt : w.next.it < stop
      · have hpos : 0 < k := by
          by_contra hzero
          obtain rfl : k = 0 := by omega
          exact h.leaves hlt
        -- the walk that is left is that of the next turn
        obtain ⟨ps, hps, hlength⟩ := ih (m := k)
          ⟨hpos, fun j hj hjk => h.stays (j + 1) (Nat.succ_pos j) (Nat.succ_lt_succ hjk), h.leaves⟩
          (by omega)
        exact ⟨w.it.toNat :: ps, by rw [if_pos hlt, hps]; rfl, congrArg Nat.succ hlength⟩
      · obtain rfl : k = 0 := by
          by_contra hne
          exact hlt (h.stays 1 Nat.one_pos (by omega))
        exact ⟨[w.it.toNat], by rw [if_neg hlt], rfl⟩

/-- The memory behind the routine holds the table of the pointers. -/
theorem Walk.finish_of_pointers {stop : UInt16} {turns : Nat} {w : Walk} {ps : List Nat}
    (h : w.pointers stop turns = some ps)
    (htable : w.properties.toNat + tableSize ps.length ≤ 65536) :
    (Walk.next^[ps.length] w).finish =
      storeAll w.mem (tableStores Platform.spectrum w.properties.toNat ps) := by
  have hword : ∀ v : UInt16, littleEndian Platform.spectrum.pointerSize v.toNat = u16Bytes v :=
    fun v => rfl
  induction turns generalizing w ps with
  | zero => cases h
  | succ turns ih =>
      have hnext : w.properties.toNat + 4 ≤ 65536 →
          w.next.properties.toNat = w.properties.toNat + 2 ∧
            w.next.mem = store w.mem ⟨w.properties.toNat, u16Bytes w.it⟩ := by
        intro hle
        exact ⟨Z80.toNat_add_of_lt (show w.properties.toNat + 2 < 65536 by omega),
          Z80.writeWord_eq_store w.mem w.it (by omega)⟩
      rw [Walk.pointers] at h
      split at h
      · obtain ⟨rest, hrest, rfl⟩ := Option.map_eq_some_iff.mp h
        rw [tableSize_eq, List.length_cons] at htable
        obtain ⟨hproperties, hmem⟩ := hnext (by omega)
        have hfinish := ih hrest (by rw [tableSize_eq, hproperties]; omega)
        rw [List.length_cons, Function.iterate_succ_apply, hfinish, hmem, hproperties,
          tableStores, hword]
        rfl
      · cases h
        rw [tableSize_eq, List.length_singleton] at htable
        obtain ⟨hproperties, hmem⟩ := hnext (by omega)
        show Z80.writeWord w.next.mem w.next.properties 0 = _
        rw [Z80.writeWord_eq_store _ _ (by omega), hmem, hproperties]
        rfl

/-- The loop on whole properties stores the pointers to them. -/
theorem Walk.pointers_of_tiled {stop : UInt16} {p : Property} {props : List Property} {w : Walk}
    {turns : Nat}
    (hbody : slice w.mem w.it.toNat (stop.toNat - w.it.toNat) = bodyBytes (p :: props))
    (htable : w.properties.toNat + tableSize (props.length + 1) ≤ 65536)
    (hapart : Apart w.it.toNat (stop.toNat - w.it.toNat) w.properties.toNat
      (tableSize (props.length + 1)))
    (hturns : props.length + 1 ≤ turns) :
    w.pointers stop turns = some (propertyAddresses w.it.toNat (p :: props)) := by
  rw [tableSize_eq] at htable hapart
  induction turns generalizing p props w with
  | zero => omega
  | succ turns ih =>
      obtain ⟨hmem, hit, hnext, hproperties, hrest⟩ :=
        Walk.next_of_tiled hbody (by omega) (hapart.mono le_rfl le_rfl le_rfl (by omega))
      rw [Walk.pointers]
      cases props with
      | nil =>
          have hstop := tiled_nil (by omega) hrest
          rw [if_neg (by rw [UInt16.lt_iff_toNat_lt]; omega)]
          rfl
      | cons q props =>
          rw [List.length_cons] at htable hapart hturns
          obtain ⟨hlt, -⟩ := tiled_cons hrest
          rw [if_pos (UInt16.lt_iff_toNat_lt.mpr hlt), ih hrest (by omega)
            (hapart.mono (by omega) (by omega) (by omega) (by omega)) (by omega), hit]
          rfl

/-- `_proto_object_read`, where the memory in front of its loop is `mem`, but for the
size field.  Behind 128 turns it has stored more than `buffer_available`. -/
def protoObjectReadWalk (obj : Nat) (objectSize : UInt16) (mem : Memory) (bufferFrom : Nat) :
    Option ReadOutcome :=
  let it := UInt16.ofNat bufferFrom
  let w : Walk := ⟨Z80.writeWord mem (UInt16.ofNat obj) objectSize, it, UInt16.ofNat obj + 2⟩
  (w.pointers (it + objectSize) 128).map fun properties =>
    ⟨0, ⟨objectSize, properties⟩,
      ⟨obj, u16Bytes objectSize⟩ ::
        tableStores Platform.spectrum (obj + sizeofProtoObject) properties⟩

/-! ## The call -/

/-- The body and the object buffer lie in the 16-bit address space, and not over one
another. -/
def BodyPlaced (pl : Platform) (bufferFrom : Nat) (objectSize : UInt16) : Prop :=
  bufferFrom + objectSize.toNat < 65536 ∧ pl.objectBuffer + 128 ≤ 65536 ∧
    Apart bufferFrom objectSize.toNat pl.objectBuffer 128

instance (pl : Platform) (bufferFrom : Nat) (objectSize : UInt16) :
    Decidable (BodyPlaced pl bufferFrom objectSize) :=
  inferInstanceAs (Decidable (_ ∧ _))

/-- The decoder, called with the object buffer.  The routine does not return on some
bodies; nor is anything said of it where no C program would place its arguments. -/
def Build.decode (b : Build) (held : ProtoObject) (objectSize : UInt16) (mem : Memory)
    (bufferFrom : Nat) : Option ReadOutcome :=
  match b.decoder with
  | .c => some (protoObjectRead b.toPlatform b.objectBuffer held 128 objectSize mem bufferFrom)
  | .asm =>
      if BodyPlaced b.toPlatform bufferFrom objectSize then
        protoObjectReadWalk b.objectBuffer objectSize mem bufferFrom
      else
        none

/-- The call of `proto_object_read` in `process`: nothing, unless all that is stored lies
in the object buffer. -/
def Build.readObject (b : Build) (held : ProtoObject) (objectSize : UInt16) (mem : Memory)
    (bufferFrom : Nat) : Option ReadOutcome :=
  (b.decode held objectSize mem bufferFrom).filter fun read =>
    decide (∀ s ∈ read.stores, s.Within b.objectBuffer 128)

theorem Build.readObject_eq_some_iff {b : Build} {held : ProtoObject} {objectSize : UInt16}
    {mem : Memory} {bufferFrom : Nat} {read : ReadOutcome} :
    b.readObject held objectSize mem bufferFrom = some read ↔
      b.decode held objectSize mem bufferFrom = some read ∧
        ∀ s ∈ read.stores, s.Within b.objectBuffer 128 := by
  rw [Build.readObject, Option.filter_eq_some_iff, decide_eq_true_iff]

/-- The writes of a table stay in a block exactly if the table does. -/
theorem tableStores_within_iff (pl : Platform) {a start n : Nat} (hstart : start ≤ a)
    (pointers : List Nat) :
    (∀ s ∈ tableStores pl a pointers, s.Within start n) ↔
      a + (pointers.length + 1) * pl.pointerSize ≤ start + n := by
  induction pointers generalizing a with
  | nil =>
      rw [tableStores, List.forall_mem_singleton, Store.Within, length_littleEndian,
        List.length_nil, Nat.zero_add, Nat.one_mul, and_iff_right hstart]
  | cons pointer pointers ih =>
      rw [tableStores, List.forall_mem_cons, ih (by omega), Store.Within, length_littleEndian,
        List.length_cons, Nat.succ_mul (pointers.length + 1)]
      have hone : pl.pointerSize ≤ (pointers.length + 1) * pl.pointerSize :=
        Nat.le_mul_of_pos_left _ (Nat.succ_pos _)
      constructor
      · rintro ⟨-, hrest⟩
        omega
      · intro hle
        refine ⟨⟨hstart, ?_⟩, by omega⟩
        show a + pl.pointerSize ≤ start + n
        omega

/-- Of the platform, a table depends on the size of a pointer only. -/
theorem tableStores_congr {pl pl' : Platform} (hsize : pl.pointerSize = pl'.pointerSize) (a : Nat)
    (pointers : List Nat) : tableStores pl a pointers = tableStores pl' a pointers := by
  induction pointers generalizing a with
  | nil => rw [tableStores, tableStores, hsize]
  | cons pointer pointers ih => rw [tableStores, tableStores, hsize, ih]

/-- The writes of an object stay in the object buffer exactly if its table fits. -/
theorem objectStores_within_iff (pl : Platform) (objectSize : UInt16) (pointers : List Nat) :
    (∀ s ∈ (⟨pl.objectBuffer, u16Bytes objectSize⟩ : Store) ::
        tableStores pl (pl.objectBuffer + sizeofProtoObject) pointers,
      s.Within pl.objectBuffer 128) ↔ TableFits pl pointers.length 128 := by
  rw [List.forall_mem_cons, tableStores_within_iff pl (Nat.le_add_right _ _)]
  unfold TableFits Store.Within sizeofProtoObject
  rw [length_u16Bytes]
  constructor
  · rintro ⟨-, hle⟩
    omega
  · intro hle
    refine ⟨⟨le_rfl, ?_⟩, by omega⟩
    show pl.objectBuffer + 2 ≤ pl.objectBuffer + 128
    omega

/-! ## What is read -/

section Read

variable {b : Build} {held : ProtoObject} {objectSize : UInt16} {mem : Memory} {bufferFrom : Nat}

theorem Build.decode_c (hb : b.decoder = .c) (held : ProtoObject) (objectSize : UInt16)
    (mem : Memory) (bufferFrom : Nat) : b.decode held objectSize mem bufferFrom =
      some (protoObjectRead b.toPlatform b.objectBuffer held 128 objectSize mem bufferFrom) := by
  rw [Build.decode, hb]

/-- What is stored does not depend on what the buffer held. -/
theorem Build.readObject_isSome (held held' : ProtoObject) :
    (b.readObject held objectSize mem bufferFrom).isSome =
      (b.readObject held' objectSize mem bufferFrom).isSome := by
  have hstores : (protoObjectRead b.toPlatform b.objectBuffer held 128 objectSize mem
      bufferFrom).stores = (protoObjectRead b.toPlatform b.objectBuffer held' 128 objectSize mem
      bufferFrom).stores := by
    simp only [protoObjectRead]
    split
    · rfl
    · split <;> rfl
  unfold Build.readObject Build.decode
  cases b.decoder with
  | c =>
      simp only [Option.filter, hstores]
      split <;> rfl
  | asm => rfl

/-- The C function overruns the buffer exactly on a body whose number of properties passes
the test modulo 256 only. -/
theorem Build.readObject_c_eq_none_iff (hb : b.decoder = .c) :
    b.readObject held objectSize mem bufferFrom = none ↔
      ∃ props, parseProperties (slice mem bufferFrom objectSize.toNat) = some props ∧
        TableFits b (props.length % 256) 128 ∧ ¬ TableFits b props.length 128 := by
  rw [Build.readObject, Build.decode_c hb, Option.filter_eq_none_iff]
  simp only [Option.some.injEq, forall_eq', decide_eq_true_iff]
  cases hparse : parseProperties (slice mem bufferFrom objectSize.toNat) with
  | none =>
      rw [protoObjectRead_of_untiled b.toPlatform b.objectBuffer held 128 objectSize mem bufferFrom
        hparse]
      simp
  | some props =>
      rw [protoObjectRead_of_tiled b.toPlatform b.objectBuffer held 128 objectSize mem bufferFrom
        (parseProperties_eq_some_iff.mp hparse)]
      have hsize : (128 : UInt16).toNat = 128 := rfl
      rw [hsize]
      by_cases hmod : TableFits b (props.length % 256) 128
      · rw [if_pos hmod, objectStores_within_iff, length_propertyAddresses]
        simp [hmod]
      · rw [if_neg hmod]
        simp [hmod]

/-- The routine on a body of whole properties stores the pointers to them. -/
theorem protoObjectReadWalk_of_tiled {pl : Platform} (hplaced : BodyPlaced pl bufferFrom objectSize)
    {props : List Property} (hbody : slice mem bufferFrom objectSize.toNat = bodyBytes props)
    (hne : props ≠ []) (hfits : props.length ≤ 62) :
    protoObjectReadWalk pl.objectBuffer objectSize mem bufferFrom =
      some ⟨0, ⟨objectSize, propertyAddresses bufferFrom props⟩,
        ⟨pl.objectBuffer, u16Bytes objectSize⟩ ::
          tableStores Platform.spectrum (pl.objectBuffer + sizeofProtoObject)
            (propertyAddresses bufferFrom props)⟩ := by
  obtain ⟨p, rest, rfl⟩ := List.exists_cons_of_ne_nil hne
  obtain ⟨hspace, hbuffer, hapart⟩ := hplaced
  rw [List.length_cons] at hfits
  have hobj : (UInt16.ofNat pl.objectBuffer).toNat = pl.objectBuffer :=
    UInt16.toNat_ofNat_of_lt' (show pl.objectBuffer < 65536 by omega)
  have hit : (UInt16.ofNat bufferFrom).toNat = bufferFrom :=
    UInt16.toNat_ofNat_of_lt' (show bufferFrom < 65536 by omega)
  have hstop : (UInt16.ofNat bufferFrom + objectSize).toNat = bufferFrom + objectSize.toNat := by
    rw [Z80.toNat_add_of_lt (by rw [hit]; exact hspace), hit]
  have hproperties : (UInt16.ofNat pl.objectBuffer + 2).toNat = pl.objectBuffer + 2 := by
    have htwo : (2 : UInt16).toNat = 2 := rfl
    rw [Z80.toNat_add_of_lt (by rw [hobj, htwo]; omega), hobj, htwo]
  -- the size field is written beside the body
  have hkept : slice (Z80.writeWord mem (UInt16.ofNat pl.objectBuffer) objectSize) bufferFrom
      objectSize.toNat = slice mem bufferFrom objectSize.toNat := by
    rw [Z80.writeWord_eq_store _ _ (by rw [hobj]; omega), hobj]
    have hwithin : (⟨pl.objectBuffer, u16Bytes objectSize⟩ : Store).Within pl.objectBuffer 128 :=
      ⟨le_rfl, Nat.add_le_add_left (show 2 ≤ 128 by decide) _⟩
    exact slice_store_of_avoids mem (hwithin.avoids hapart.symm)
  have hwalk : (⟨Z80.writeWord mem (UInt16.ofNat pl.objectBuffer) objectSize,
      UInt16.ofNat bufferFrom, UInt16.ofNat pl.objectBuffer + 2⟩ : Walk).pointers
        (UInt16.ofNat bufferFrom + objectSize) 128 =
      some (propertyAddresses (UInt16.ofNat bufferFrom).toNat (p :: rest)) := by
    refine Walk.pointers_of_tiled ?_ ?_ ?_ (by omega)
    · rw [hit, hstop, Nat.add_sub_cancel_left, hkept, hbody]
    · rw [tableSize_eq, hproperties]
      omega
    · rw [tableSize_eq, hit, hstop, hproperties, Nat.add_sub_cancel_left]
      exact hapart.mono le_rfl le_rfl (by omega) (by omega)
  simp only [protoObjectReadWalk, hwalk, hit, Option.map_some]

end Read

/-! ## The bodies -/

/-- The decoder takes the body for what it is: whole properties that the object buffer has
room for, and at least one of them for the routine of the Spectrum. -/
def Accepted (b : Build) (body : List UInt8) : Prop :=
  ∃ props, parseProperties body = some props ∧ TableFits b props.length 128 ∧
    (b.decoder = .asm → props ≠ [])

theorem accepted_iff_of_parse {b : Build} {body : List UInt8} {props : List Property}
    (hparse : parseProperties body = some props) :
    Accepted b body ↔ TableFits b props.length 128 ∧ (b.decoder = .asm → props ≠ []) := by
  constructor
  · rintro ⟨props', hparse', hfits⟩
    rw [hparse] at hparse'
    cases hparse'
    exact hfits
  · intro hfits
    exact ⟨props, hparse, hfits⟩

instance (b : Build) (body : List UInt8) : Decidable (Accepted b body) :=
  match hparse : parseProperties body with
  | none => .isFalse (by rintro ⟨props, hprops, -⟩; rw [hparse] at hprops; cases hprops)
  | some _ => decidable_of_iff _ (accepted_iff_of_parse hparse).symm

/-- Where the body may lie. -/
def Build.Places (b : Build) (bufferFrom : Nat) (objectSize : UInt16) : Prop :=
  b.decoder = .asm → BodyPlaced b bufferFrom objectSize

/-- Wherever the body lies, the object buffer holds what the decoder stores. -/
def Contained (b : Build) (body : List UInt8) : Prop :=
  ∀ held objectSize mem bufferFrom, slice mem bufferFrom (UInt16.toNat objectSize) = body →
    b.Places bufferFrom objectSize → (b.readObject held objectSize mem bufferFrom).isSome

/-- If the C decoder's eight bits of the number of properties pass its test, then the object
buffer has room for that number. -/
def CountFits (b : Build) (body : List UInt8) : Prop :=
  ∀ props, parseProperties body = some props →
    TableFits b (props.length % 256) 128 → TableFits b props.length 128

section Bodies

variable {b : Build} {held : ProtoObject} {objectSize : UInt16} {mem : Memory} {bufferFrom : Nat}

/-- A table for 2-byte pointers fits the object buffer up to 62 of them. -/
theorem tableFits_asm_iff (hb : b.decoder = .asm) (n : Nat) : TableFits b n 128 ↔ n ≤ 62 := by
  unfold TableFits sizeofProtoObject
  rw [b.pointerSize_of_asm hb]
  omega

/-- An accepted body is read. -/
theorem Accepted.exists_read (h : Accepted b (slice mem bufferFrom objectSize.toNat))
    (hplaces : b.Places bufferFrom objectSize) (held : ProtoObject) :
    ∃ read, b.readObject held objectSize mem bufferFrom = some read ∧ read.result = 0 ∧
      read.object.objectSize = objectSize ∧
      parseProperties (slice mem bufferFrom objectSize.toNat) =
        some (read.object.contents mem) := by
  obtain ⟨props, hparse, hfits, hne⟩ := h
  have hbody := parseProperties_eq_some_iff.mp hparse
  have hcontents : (propertyAddresses bufferFrom props).map (readProperty mem) = props :=
    map_readProperty_propertyAddresses mem (bufferFrom + objectSize.toNat)
      (by rwa [Nat.add_sub_cancel_left])
  have hstores := (objectStores_within_iff b objectSize (propertyAddresses bufferFrom props)).mpr
    (by rwa [length_propertyAddresses])
  refine ⟨⟨0, ⟨objectSize, propertyAddresses bufferFrom props⟩, _⟩,
    Build.readObject_eq_some_iff.mpr ⟨?_, hstores⟩, rfl, rfl, ?_⟩
  · rw [Build.decode]
    cases hdecoder : b.decoder with
    | c =>
        simp only
        rw [protoObjectRead_of_tiled b.toPlatform b.objectBuffer held 128 objectSize mem bufferFrom
          hbody]
        exact congrArg some (if_pos hfits.mod)
    | asm =>
        simp only
        rw [if_pos (hplaces hdecoder), protoObjectReadWalk_of_tiled (hplaces hdecoder) hbody
          (hne hdecoder) ((tableFits_asm_iff hdecoder _).mp hfits),
          tableStores_congr (b.pointerSize_of_asm hdecoder).symm]
  · rw [hparse]
    exact congrArg some hcontents.symm

theorem Accepted.contained {body : List UInt8} (h : Accepted b body) : Contained b body := by
  rintro held objectSize mem bufferFrom rfl hplaces
  obtain ⟨read, hread, -⟩ := h.exists_read hplaces held
  rw [hread]
  rfl

theorem Accepted.countFits {body : List UInt8} (h : Accepted b body) : CountFits b body := by
  obtain ⟨props, hparse, hfits, -⟩ := h
  intro props' hparse' _
  rw [hparse, Option.some.injEq] at hparse'
  rwa [← hparse']

/-- What is read of an accepted body. -/
theorem Accepted.read {read : ReadOutcome}
    (h : Accepted b (slice mem bufferFrom objectSize.toNat))
    (hread : b.readObject held objectSize mem bufferFrom = some read) :
    read.result = 0 ∧ read.object.objectSize = objectSize ∧
      parseProperties (slice mem bufferFrom objectSize.toNat) =
        some (read.object.contents mem) := by
  have hplaces : b.Places bufferFrom objectSize := by
    intro hdecoder
    obtain ⟨hdecode, -⟩ := Build.readObject_eq_some_iff.mp hread
    simp only [Build.decode, hdecoder] at hdecode
    by_contra hnot
    rw [if_neg hnot] at hdecode
    cases hdecode
  obtain ⟨read', hread', hresult⟩ := h.exists_read hplaces held
  rw [hread] at hread'
  cases hread'
  exact hresult

/-- A read that returns 0 and shows the properties of the body is that of an accepted body. -/
theorem accepted_of_read {read : ReadOutcome}
    (hread : b.readObject held objectSize mem bufferFrom = some read) (hresult : read.result = 0)
    (hparse : parseProperties (slice mem bufferFrom objectSize.toNat) =
      some (read.object.contents mem)) : Accepted b (slice mem bufferFrom objectSize.toNat) := by
  obtain ⟨hdecode, hstores⟩ := Build.readObject_eq_some_iff.mp hread
  refine ⟨read.object.contents mem, hparse, ?_⟩
  cases hdecoder : b.decoder with
  | c =>
      rw [Build.decode_c hdecoder] at hdecode
      cases hdecode
      obtain ⟨props, hprops, hmod⟩ := (protoObjectRead_result_eq_zero_iff b b.objectBuffer held 128
        objectSize mem bufferFrom).mp hresult
      rw [hparse, Option.some.injEq] at hprops
      subst hprops
      refine ⟨?_, fun hasm => nomatch hasm⟩
      by_contra hnot
      have hnone : b.readObject held objectSize mem bufferFrom = none :=
        (Build.readObject_c_eq_none_iff hdecoder).mpr ⟨_, hparse, hmod, hnot⟩
      rw [hread] at hnone
      cases hnone
  | asm =>
      simp only [Build.decode, hdecoder] at hdecode
      split at hdecode
      · obtain ⟨ps, hps, rfl⟩ := Option.map_eq_some_iff.mp hdecode
        have hpos := (Walk.leavesAfter_of_pointers hps).pos
        rw [tableStores_congr (b.pointerSize_of_asm hdecoder).symm, objectStores_within_iff]
          at hstores
        rw [ProtoObject.contents, List.length_map]
        refine ⟨hstores, fun _ hnil => ?_⟩
        have hnone : ps = [] := List.map_eq_nil_iff.mp hnil
        rw [hnone] at hpos
        exact absurd hpos (Nat.lt_irrefl 0)
      · cases hdecode

/-- The C decoder looks at the body only. -/
theorem Build.isSome_readObject_iff (hb : b.decoder = .c) :
    (b.readObject held objectSize mem bufferFrom).isSome ↔
      CountFits b (slice mem bufferFrom objectSize.toNat) := by
  rw [Option.isSome_iff_ne_none, ne_eq, Build.readObject_c_eq_none_iff hb, CountFits]
  simp only [not_exists, not_and, not_not]

/-- With the C decoder, the object buffer holds the objects of the bodies whose number of
properties it has room for, if the eight bits of the number say so. -/
theorem contained_iff_countFits (hb : b.decoder = .c) {body : List UInt8}
    (hbody : body.length < 65536) : Contained b body ↔ CountFits b body := by
  constructor
  · intro hcontained
    have hself :
        slice (store (fun _ => 0) ⟨0, body⟩) 0 (UInt16.ofNat body.length).toNat = body := by
      rw [UInt16.toNat_ofNat_of_lt' hbody]
      exact slice_store_self _ 0 body
    have hread := hcontained ⟨0, []⟩ _ _ _ hself fun hasm => nomatch hb.symm.trans hasm
    rwa [Build.isSome_readObject_iff hb, hself] at hread
  · rintro hfits held objectSize mem bufferFrom rfl -
    exact (Build.isSome_readObject_iff hb).mpr hfits

end Bodies

/-- 256 properties without a value, which the eight bits of the counter take for none. -/
@[irreducible] def overrunningBody : List UInt8 := List.replicate 768 0

theorem length_overrunningBody : overrunningBody.length = 768 := by
  rw [overrunningBody, List.length_replicate]

theorem not_countFits_overrunningBody : ¬ CountFits Platform.pc overrunningBody := by
  have hcount : (parseProperties overrunningBody).map List.length = some 256 := by decide +kernel
  obtain ⟨props, hparse, hlength⟩ := Option.map_eq_some_iff.mp hcount
  intro hall
  have hfits := hall props hparse
  rw [hlength] at hfits
  exact absurd (hfits (by decide)) (by decide)

/-! ## What the machine does -/

section Machine

open Z80

variable {b : Build} {s : State} {mem : Memory}

/-- A call of `_proto_object_read` in `process`.  `mem` is the memory in front of its loop,
but for the size field. -/
structure CallsRoutine (b : Build) (s : State) (mem : Memory) : Prop where
  decoder : b.decoder = .asm
  mem_eq : memAtLabel s = writeWord mem (objArg s) (objectSizeArg s)
  obj : objArg s = UInt16.ofNat b.objectBuffer
  bufferAvailable : bufferAvailableArg s = 128
  placed : BodyPlaced b (bufferFromArg s).toNat (objectSizeArg s)

theorem CallsRoutine.toNat_obj (h : CallsRoutine b s mem) :
    (UInt16.ofNat b.objectBuffer).toNat = b.objectBuffer := by
  have hbuffer := h.placed.2.1
  exact UInt16.toNat_ofNat_of_lt' (show b.objectBuffer < 65536 by omega)

/-- What the call gives is read off the walk of the machine. -/
theorem CallsRoutine.readObject_iff (h : CallsRoutine b s mem) (held : ProtoObject)
    (read : ReadOutcome) :
    b.readObject held (objectSizeArg s) mem (bufferFromArg s).toNat = some read ↔
      ∃ ps, (entryWalk s).pointers (stopArg s) 128 = some ps ∧ ps.length ≤ 62 ∧
        read = ⟨0, ⟨objectSizeArg s, ps⟩, ⟨b.objectBuffer, u16Bytes (objectSizeArg s)⟩ ::
          tableStores Platform.spectrum (b.objectBuffer + sizeofProtoObject) ps⟩ := by
  have hwalk : (⟨writeWord mem (UInt16.ofNat b.objectBuffer) (objectSizeArg s),
      UInt16.ofNat (bufferFromArg s).toNat, UInt16.ofNat b.objectBuffer + 2⟩ : Walk) =
        entryWalk s := by
    rw [entryWalk, h.mem_eq, h.obj, UInt16.ofNat_toNat]
  have hwithin : ∀ ps : List Nat,
      (∀ t ∈ (⟨b.objectBuffer, u16Bytes (objectSizeArg s)⟩ : Store) ::
        tableStores Platform.spectrum (b.objectBuffer + sizeofProtoObject) ps,
          t.Within b.objectBuffer 128) ↔ ps.length ≤ 62 := by
    intro ps
    rw [tableStores_congr (b.pointerSize_of_asm h.decoder).symm, objectStores_within_iff,
      tableFits_asm_iff h.decoder]
  rw [Build.readObject_eq_some_iff, Build.decode, h.decoder]
  simp only [if_pos h.placed, protoObjectReadWalk, hwalk]
  rw [UInt16.ofNat_toNat, ← stopArg, Option.map_eq_some_iff]
  constructor
  · rintro ⟨⟨ps, hps, rfl⟩, hstores⟩
    exact ⟨ps, hps, (hwithin ps).mp hstores, rfl⟩
  · rintro ⟨ps, hps, hlength, rfl⟩
    exact ⟨⟨ps, hps, rfl⟩, (hwithin ps).mpr hlength⟩

/-- **The call gives something exactly if the routine is safe**: it returns, and stays in
the object buffer. -/
theorem CallsRoutine.safe_iff (h : CallsRoutine b s mem) (held : ProtoObject) :
    Safe s ↔ (b.readObject held (objectSizeArg s) mem (bufferFromArg s).toNat).isSome := by
  have hsize : (bufferAvailableArg s).toNat = 128 := by
    rw [h.bufferAvailable]
    rfl
  rw [Option.isSome_iff_exists]
  constructor
  · intro hsafe
    obtain ⟨m, hm, hfits⟩ := hsafe.leavesAfter
    obtain ⟨ps, hps, rfl⟩ := hm.exists_pointers (show m ≤ 128 by omega)
    exact ⟨_, (h.readObject_iff held _).mpr ⟨ps, hps, by omega, rfl⟩⟩
  · rintro ⟨read, hread⟩
    obtain ⟨ps, hps, hlength, -⟩ := (h.readObject_iff held read).mp hread
    exact safe_of_leavesAfter (Walk.leavesAfter_of_pointers hps) (by omega)

/-- The routine returns what the call gives, and leaves the object. -/
theorem CallsRoutine.returns (h : CallsRoutine b s mem) {held : ProtoObject} {read : ReadOutcome}
    (hread : b.readObject held (objectSizeArg s) mem (bufferFromArg s).toNat = some read) :
    ∃ n address, (run protoObjectReadAsm n (atEntry s)).control = .returned address ∧
      (run protoObjectReadAsm n (atEntry s)).get8 .l = read.result ∧
      HoldsObject (run protoObjectReadAsm n (atEntry s)).mem b.objectBuffer read.object := by
  obtain ⟨ps, hps, hlength, rfl⟩ := (h.readObject_iff held read).mp hread
  obtain ⟨n, hn⟩ := returned_of_leavesAfter (Walk.leavesAfter_of_pointers hps)
  have hbuffer := h.placed.2.1
  have htwo : (2 : UInt16).toNat = 2 := rfl
  have hproperties : (entryWalk s).properties.toNat = b.objectBuffer + sizeofProtoObject := by
    rw [entryWalk, h.obj, toNat_add_of_lt (by rw [h.toNat_obj, htwo]; omega), h.toNat_obj]
    rfl
  have hfinish := Walk.finish_of_pointers hps (by
    rw [hproperties, tableSize_eq, sizeofProtoObject]
    omega)
  refine ⟨n, _, hn.control, ?_, ?_⟩
  · rw [State.get8, hn.hl]
    rfl
  · rw [hn.mem, hfinish, hproperties]
    refine holdsObject_tableStores (o := ⟨objectSizeArg s, ps⟩) ?_
    show slice (memAtLabel s) _ _ = _
    rw [h.mem_eq, h.obj, writeWord_eq_store _ _ (by rw [h.toNat_obj]; omega), h.toNat_obj]
    exact slice_store_self mem b.objectBuffer (u16Bytes (objectSizeArg s))

end Machine

end ZxProto
