import ZxProto.Accessors
import ZxProto.AccessorsAsm
import ZxProto.ObjectReadAsm

/-!
# The accessors of the two builds

An object in the memory of the Spectrum, and a call of an accessor on it.  Where the
assembler routine tests the size and the C function does not, they may return different
things; that is `get_uint8_property`.

* `ObjectPlaced` — an object in memory, apart from the stack;
* `AccessorsAgree` — each routine returns what the C function returns;
* `oneByteValue`, `accessors_agree_iff` — when they do.
-/

namespace ZxProto

open ByteMemory ReadLog Z80Accumulator
open Z80 hiding run step run_add run_of_returned

/-! ## Calls on an object in memory -/

/-- An object lies in memory, with its table, its properties and eight bytes of stack
apart; nothing wraps, and no pointer is NULL. -/
structure ObjectPlaced (m : Machine) (obj : UInt16) (o : ProtoObject) : Prop where
  holds : HoldsObject m.mem obj.toNat o
  pointers : ∀ p ∈ o.properties, 0 < p ∧ p + (readProperty m.mem p).size < 65536
  tableInside : obj.toNat + (sizeofProtoObject + tableSize o.properties.length) ≤ 65536
  stackInside : m.sp.toNat + 8 ≤ 65536
  tableStack : Apart obj.toNat (sizeofProtoObject + tableSize o.properties.length) m.sp.toNat 8
  propertyStack : ∀ p ∈ o.properties, Apart p (readProperty m.mem p).size m.sp.toNat 8

/-- A pointer in `hl`. -/
def pointerWord (pointer : Option Nat) : UInt16 :=
  pointer.elim 0 UInt16.ofNat

/-- The routines return what the C functions return: in `hl`, a byte in its low half.
A byte is passed in the low half of a word. -/
structure AccessorsAgree (m : Machine) (ret obj keyWord defaultWord : UInt16) (o : ProtoObject) :
    Prop where
  getUint16Property :
    Returns getUint16PropertyAsm (m.call [ret, defaultWord, keyWord, obj]) ret fun t =>
      t.hl = (getUint16PropertyLogged o (lo keyWord) defaultWord).run m.mem
  getUint8Property :
    Returns getUint8PropertyAsm (m.call [ret, defaultWord, keyWord, obj]) ret fun t =>
      lo t.hl = (getUint8PropertyLogged o (lo keyWord) (lo defaultWord)).run m.mem
  findProperty :
    Returns findPropertyAsm (m.call [ret, keyWord, obj]) ret fun t =>
      t.hl = pointerWord ((findPropertyLogged o (lo keyWord)).run m.mem)
  getPropertyPtr :
    Returns getPropertyPtrAsm (m.call [ret, keyWord, obj]) ret fun t =>
      t.hl = pointerWord ((getPropertyPtrLogged o (lo keyWord)).run m.mem)

section Calls

variable {m : Machine} {obj : UInt16} {o : ProtoObject}

/-- Pointers as the Spectrum keeps them are words. -/
theorem flatMap_u16Bytes_ofNat {pointers : List Nat} (hlt : ∀ p ∈ pointers, p < 65536) :
    (pointers.map UInt16.ofNat).flatMap u16Bytes = pointers.flatMap (littleEndian 2) := by
  induction pointers with
  | nil => rfl
  | cons p pointers ih =>
      rw [List.map_cons, List.flatMap_cons, List.flatMap_cons,
        ih fun q hq => hlt q (List.mem_cons_of_mem p hq), u16Bytes_ofNat (hlt p List.mem_cons_self)]
      rfl

variable {mem : Memory}

/-- The table of an object, as words, also if the stack has changed. -/
theorem ObjectPlaced.table (h : ObjectPlaced m obj o) (hoff : AgreeOff m.mem mem m.sp.toNat 8) :
    WordsAt mem (obj + 2) (tableWords o.properties) := by
  have hlt : ∀ p ∈ o.properties, p < 65536 := fun p hp =>
    (Nat.le_add_right _ _).trans_lt (h.pointers p hp).2
  have hbytes : (o.objectSize :: tableWords o.properties).flatMap u16Bytes =
      objectTable Platform.spectrum o := by
    rw [objectTable, tableWords, List.flatMap_cons, List.flatMap_append,
      flatMap_u16Bytes_ofNat hlt, List.append_assoc]
    rfl
  have hlength : 2 * (o.objectSize :: tableWords o.properties).length =
      (objectTable Platform.spectrum o).length := by
    rw [← hbytes, length_flatMap_u16Bytes]
  have hkept : slice mem obj.toNat (objectTable Platform.spectrum o).length =
      objectTable Platform.spectrum o := by
    rw [length_objectTable, ← tableSize, (hoff.agreeOn h.tableStack.symm).slice_eq]
    have hholds := h.holds
    rwa [HoldsObject, length_objectTable] at hholds
  have hwords : WordsAt mem obj (o.objectSize :: tableWords o.properties) := by
    refine ⟨?_, ?_⟩
    · rw [hlength, hbytes, hkept]
    · rw [hlength, length_objectTable]
      exact h.tableInside
  exact hwords.cons.2

theorem ObjectPlaced.noNull (h : ObjectPlaced m obj o) :
    ∀ p ∈ o.properties, UInt16.ofNat p ≠ 0 := by
  intro p hp hzero
  obtain ⟨hpos, hlt⟩ := h.pointers p hp
  have hmod := congrArg UInt16.toNat hzero
  rw [UInt16.toNat_ofNat_of_lt' (show p < 65536 by omega)] at hmod
  exact absurd hmod (Nat.pos_iff_ne_zero.mp hpos)

/-- A byte of a property, also if the stack has changed. -/
theorem ObjectPlaced.readByte (h : ObjectPlaced m obj o) (hoff : AgreeOff m.mem mem m.sp.toNat 8)
    {p : Nat} (hp : p ∈ o.properties) {k : Nat} (hk : k < (readProperty m.mem p).size) :
    Z80.readByte mem (UInt16.ofNat (p + k)) = m.mem (p + k) := by
  have hlt := (h.pointers p hp).2
  have hapart := h.propertyStack p hp
  unfold Apart at hapart
  rw [Z80.readByte, UInt16.toNat_ofNat_of_lt' (show p + k < 65536 by omega)]
  exact hoff _ (by omega)

theorem ofNat_add_one (p : Nat) : UInt16.ofNat p + 1 = UInt16.ofNat (p + 1) :=
  (UInt16.ofNat_add p 1).symm

theorem ofNat_add_two (p : Nat) : UInt16.ofNat p + 2 = UInt16.ofNat (p + 2) :=
  (UInt16.ofNat_add p 2).symm

/-- The routines find the key where the C functions do. -/
theorem ObjectPlaced.keyedTest_eq (h : ObjectPlaced m obj o)
    (hoff : AgreeOff m.mem mem m.sp.toNat 8) {p : Nat} (hp : p ∈ o.properties) (key : UInt8) :
    keyedTest mem key (UInt16.ofNat p) = (protoPropertyKey m.mem p == key) := by
  have hsize := size_readProperty m.mem p
  unfold sizeofProtoObjectProperty at hsize
  rw [keyedTest, ofNat_add_two, h.readByte hoff hp (by omega), protoPropertyKey]
  exact Bool.beq_comm

/-- A size of one byte is found in two bytes. -/
theorem ObjectPlaced.sizedTest_eq (h : ObjectPlaced m obj o)
    (hoff : AgreeOff m.mem mem m.sp.toNat 8) {p : Nat} (hp : p ∈ o.properties) (size key : UInt8) :
    sizedTest mem size key (UInt16.ofNat p) =
      (protoPropertyKey m.mem p == key &&
        (protoPropertyValueSize m.mem p).toNat == size.toNat) := by
  have hsize := size_readProperty m.mem p
  unfold sizeofProtoObjectProperty at hsize
  have hlow := h.readByte hoff hp (k := 0) (by omega)
  have hhigh := h.readByte hoff hp (k := 1) (by omega)
  have hkey := h.readByte hoff hp (k := 2) (by omega)
  rw [Nat.add_zero] at hlow
  rw [sizedTest, ofNat_add_one, ofNat_add_one, hlow, hhigh, hkey, protoPropertyKey,
    protoPropertyValueSize, toNat_u16le]
  have hbytes : size = m.mem p ∧ 0 = m.mem (p + 1) ↔
      (m.mem p).toNat + 256 * (m.mem (p + 1)).toNat = size.toNat := by
    have hlt := size.toNat_lt
    constructor
    · rintro ⟨rfl, hzero⟩
      rw [← hzero]
      exact Nat.add_zero _
    · intro hword
      exact ⟨UInt8.toNat_inj.mp (by omega), UInt8.toNat_inj.mp (by simp; omega)⟩
  rw [Bool.eq_iff_iff]
  simp only [Bool.and_eq_true, beq_iff_eq, hbytes]
  rw [eq_comm (a := key)]
  exact And.comm

/-- The loop that tests the size finds what the C loop finds. -/
theorem ObjectPlaced.find_sized (h : ObjectPlaced m obj o)
    (hoff : AgreeOff m.mem mem m.sp.toNat 8) (size key : UInt8) :
    (o.properties.find? fun p => sizedTest mem size key (UInt16.ofNat p)) =
      (findPropertySize o key size.toNat).run m.mem := by
  rw [run_findPropertySize]
  exact List.find?_congr fun p hp => h.sizedTest_eq hoff hp size key

theorem ObjectPlaced.find_keyed (h : ObjectPlaced m obj o)
    (hoff : AgreeOff m.mem mem m.sp.toNat 8) (key : UInt8) :
    (o.properties.find? fun p => keyedTest mem key (UInt16.ofNat p)) =
      findProperty m.mem o key :=
  List.find?_congr fun _ hp => h.keyedTest_eq hoff hp key

/-- What the loop that tests the size finds has a value of that size. -/
theorem size_of_findPropertySize {key : UInt8} {expectedSize p : Nat}
    (hfound : (findPropertySize o key expectedSize).run mem = some p) :
    p ∈ o.properties ∧ (readProperty mem p).size = expectedSize + 3 := by
  obtain ⟨⟨hp, -⟩, htest⟩ := ofKey_of_scan hfound
  have hsize : (protoPropertyValueSize mem p).toNat = expectedSize := beq_iff_eq.mp htest
  rw [size_readProperty, hsize, Nat.add_comm]
  exact ⟨hp, rfl⟩

/-- A call with at most three arguments leaves the object alone. -/
theorem ObjectPlaced.call (h : ObjectPlaced m obj o) {words : List UInt16}
    (hle : words.length ≤ 4) :
    AgreeOff m.mem (m.call words).mem m.sp.toNat 8 ∧ WordsAt (m.call words).mem m.sp words := by
  have hinside := h.stackInside
  refine ⟨fun i hi => agreeOff_call m words i (by omega), wordsAt_call m words (by omega)⟩

variable (ret keyWord defaultWord : UInt16)

/-- `get_uint16_property` is the same function twice. -/
theorem ObjectPlaced.getUint16Property (h : ObjectPlaced m obj o) :
    Returns getUint16PropertyAsm (m.call [ret, defaultWord, keyWord, obj]) ret fun t =>
      t.hl = (getUint16PropertyLogged o (lo keyWord) defaultWord).run m.mem := by
  obtain ⟨hoff, hstack⟩ := h.call (show [ret, defaultWord, keyWord, obj].length ≤ 4 from le_rfl)
  have hreturns := returns_getUint16PropertyAsm rfl hstack (h.table hoff) h.noNull
  have hfind := h.find_sized hoff 2 (lo keyWord)
  rw [hfind] at hreturns
  rw [run_getUint16PropertyLogged]
  have hvalue (p : Nat) (hp : (findPropertySize o (lo keyWord) 2).run m.mem = some p) :
      readWord (m.call [ret, defaultWord, keyWord, obj]).mem (UInt16.ofNat p + 1 + 1 + 1) =
        (uint16Value p).run m.mem := by
    obtain ⟨hmem, hsize⟩ := size_of_findPropertySize hp
    rw [readWord, ofNat_add_one, ofNat_add_one, ofNat_add_one, ofNat_add_one,
      h.readByte hoff hmem (k := 3) (by omega), h.readByte hoff hmem (k := 4) (by omega)]
    rfl
  cases hp : (findPropertySize o (lo keyWord) 2).run m.mem with
  | none =>
      rw [show (2 : UInt8).toNat = 2 from rfl, hp] at hreturns
      exact hreturns
  | some p =>
      rw [show (2 : UInt8).toNat = 2 from rfl, hp, Option.elim_some, hvalue p hp] at hreturns
      exact hreturns

/-- The value of the first property that has the key and one byte, or a default value. -/
def oneByteValue (mem : Memory) (o : ProtoObject) (key default : UInt8) : UInt8 :=
  (o.properties.find? fun p => protoPropertyKey mem p == key &&
    (protoPropertyValueSize mem p).toNat == 1).elim default
      fun p => mem (p + sizeofProtoObjectProperty)

/-- `_get_uint8_property` goes on to a property of one byte. -/
theorem ObjectPlaced.getUint8PropertyAsm_returns (h : ObjectPlaced m obj o) :
    Returns getUint8PropertyAsm (m.call [ret, defaultWord, keyWord, obj]) ret fun t =>
      t.hl = u16le (oneByteValue m.mem o (lo keyWord) (lo defaultWord)) 0 := by
  obtain ⟨hoff, hstack⟩ := h.call (show [ret, defaultWord, keyWord, obj].length ≤ 4 from le_rfl)
  have hreturns := returns_getUint8PropertyAsm rfl hstack (h.table hoff) h.noNull
  have hfind := h.find_sized hoff 1 (lo keyWord)
  rw [hfind, show (1 : UInt8).toNat = 1 from rfl] at hreturns
  rw [oneByteValue, ← run_findPropertySize]
  cases hp : (findPropertySize o (lo keyWord) 1).run m.mem with
  | none =>
      rw [hp] at hreturns
      exact hreturns
  | some p =>
      obtain ⟨hmem, hsize⟩ := size_of_findPropertySize hp
      rw [hp, Option.elim_some, ofNat_add_one, ofNat_add_one, ofNat_add_one,
        h.readByte hoff hmem (k := 3) (by omega)] at hreturns
      exact hreturns

/-- `find_property` is the same function twice. -/
theorem ObjectPlaced.findProperty (h : ObjectPlaced m obj o) :
    Returns findPropertyAsm (m.call [ret, keyWord, obj]) ret fun t =>
      t.hl = pointerWord ((findPropertyLogged o (lo keyWord)).run m.mem) := by
  obtain ⟨hoff, hstack⟩ := h.call (show [ret, keyWord, obj].length ≤ 4 from Nat.le_succ 3)
  have hreturns := returns_findPropertyAsm rfl hstack (h.table hoff) h.noNull
  have hfind := h.find_keyed hoff (lo keyWord)
  rw [hfind] at hreturns
  rw [run_findPropertyLogged, pointerWord]
  exact hreturns

/-- `get_property_ptr` is the same function twice. -/
theorem ObjectPlaced.getPropertyPtr (h : ObjectPlaced m obj o) :
    Returns getPropertyPtrAsm (m.call [ret, keyWord, obj]) ret fun t =>
      t.hl = pointerWord ((getPropertyPtrLogged o (lo keyWord)).run m.mem) := by
  obtain ⟨hoff, hstack⟩ := h.call (show [ret, keyWord, obj].length ≤ 4 from Nat.le_succ 3)
  have hreturns := returns_getPropertyPtrAsm rfl hstack (h.table hoff) h.noNull
  have hfind := h.find_keyed hoff (lo keyWord)
  rw [hfind] at hreturns
  rw [run_getPropertyPtrLogged, pointerWord]
  cases hp : ZxProto.findProperty m.mem o (lo keyWord) with
  | none =>
      rw [hp] at hreturns
      exact hreturns
  | some p =>
      rw [hp, Option.elim_some, ofNat_add_one, ofNat_add_one, ofNat_add_one] at hreturns
      exact hreturns

/-- The C function returns the same where it finds a value of one byte, or by accident
the same byte. -/
theorem oneByteValue_eq {key default : UInt8}
    (hfirst : ∀ p, o.properties.find? (fun p => protoPropertyKey mem p == key) = some p →
      protoPropertyValueSize mem p = 1 ∨
        mem (p + sizeofProtoObjectProperty) = oneByteValue mem o key default) :
    oneByteValue mem o key default = (getUint8PropertyLogged o key default).run mem := by
  have himp : ∀ p, (protoPropertyKey mem p == key &&
      (protoPropertyValueSize mem p).toNat == 1) = true → (protoPropertyKey mem p == key) = true :=
    fun p hp => (Bool.and_eq_true _ _ ▸ hp).1
  rw [run_getUint8PropertyLogged, ZxProto.findProperty]
  cases hp : o.properties.find? fun p => protoPropertyKey mem p == key with
  | none =>
      -- no property has the key, whatever its size
      have hnone : (o.properties.find? fun p => protoPropertyKey mem p == key &&
          (protoPropertyValueSize mem p).toNat == 1) = none :=
        List.find?_eq_none.mpr fun p hmem hpasses =>
          List.find?_eq_none.mp hp p hmem (himp p hpasses)
      rw [oneByteValue, hnone]
      rfl
  | some p =>
      rcases hfirst p hp with hsize | hbyte
      · have hkey := List.find?_some hp
        have hpasses : (protoPropertyKey mem p == key &&
            (protoPropertyValueSize mem p).toNat == 1) = true := by
          rw [hkey, hsize]
          rfl
        rw [oneByteValue, find?_eq_some_of_imp himp hp hpasses]
        rfl
      · exact hbyte.symm

/-- **When the accessors agree.**  On an object in memory, the routines return what the
C functions return for exactly those keys whose first property has one byte, or by
accident shows the value of the first one that has (the default value, if none has). -/
theorem accessors_agree_iff (h : ObjectPlaced m obj o) :
    AccessorsAgree m ret obj keyWord defaultWord o ↔
      ∀ p, o.properties.find? (fun p => protoPropertyKey m.mem p == lo keyWord) = some p →
        protoPropertyValueSize m.mem p = 1 ∨
          m.mem (p + sizeofProtoObjectProperty) =
            oneByteValue m.mem o (lo keyWord) (lo defaultWord) := by
  have hasm := h.getUint8PropertyAsm_returns ret keyWord defaultWord
  constructor
  · intro hagree p hp
    obtain ⟨t, hc, hvalue⟩ := hagree.getUint8Property.unique hasm
    rw [hvalue, lo_u16le, run_getUint8PropertyLogged, ZxProto.findProperty, hp] at hc
    exact Or.inr hc.symm
  · intro hfirst
    refine ⟨h.getUint16Property ret keyWord defaultWord, hasm.mono fun t hhl => ?_,
      h.findProperty ret keyWord, h.getPropertyPtr ret keyWord⟩
    rw [hhl, lo_u16le, oneByteValue_eq hfirst]

end Calls

/-- An object at 36864 with one property at 32768, of key 5. -/
def oneProperty (value : List UInt8) : Machine where
  bc := 0
  de := 0
  hl := 0
  ix := 0
  iy := 0
  sp := 61440
  carry := false
  mem := storeAll (fun _ => 0)
    [⟨32768, u16Bytes (UInt16.ofNat value.length) ++ 5 :: value⟩,
      ⟨36864, objectTable Platform.spectrum ⟨UInt16.ofNat (value.length + 3), [32768]⟩⟩]
  control := .running 0
  stored := []
  pushed := []
  a := 0
  zero := false

/-- A value of one byte. -/
theorem accessors_agree_of_one :
    AccessorsAgree (oneProperty [7]) 25000 36864 5 9 ⟨4, [32768]⟩ := by
  have hplaced : ObjectPlaced (oneProperty [7]) 36864 ⟨4, [32768]⟩ := by
    refine ⟨by unfold HoldsObject; decide +kernel, ?_, ?_, ?_, ?_, ?_⟩ <;> decide +kernel
  refine (accessors_agree_iff 25000 5 9 hplaced).mpr fun p hp => Or.inl ?_
  have hfirst : p = 32768 := by
    have hfind : (some p : Option Nat) = some 32768 := hp.symm.trans (by decide +kernel)
    exact Option.some.inj hfind
  rw [hfirst]
  decide +kernel

/-- A value of two bytes: the C function returns the first of them, the routine the
default value. -/
theorem not_accessors_agree_of_two :
    ObjectPlaced (oneProperty [7, 8]) 36864 ⟨5, [32768]⟩ ∧
      ¬ AccessorsAgree (oneProperty [7, 8]) 25000 36864 5 9 ⟨5, [32768]⟩ := by
  have hplaced : ObjectPlaced (oneProperty [7, 8]) 36864 ⟨5, [32768]⟩ := by
    refine ⟨by unfold HoldsObject; decide +kernel, ?_, ?_, ?_, ?_, ?_⟩ <;> decide +kernel
  refine ⟨hplaced, fun hagree => ?_⟩
  obtain ⟨t, hc, hasm⟩ :=
    hagree.getUint8Property.unique (hplaced.getUint8PropertyAsm_returns 25000 5 9)
  rw [hasm, lo_u16le, run_getUint8PropertyLogged] at hc
  exact absurd hc (by decide +kernel)

end ZxProto
