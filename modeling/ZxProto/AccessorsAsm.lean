import ZxProto.Library.Z80Accumulator

/-!
# The assembler accessors

The Spectrum build has four of the accessors in assembler.  Two of them test the size
of a property and then its key, two the key only.

* `getUint16PropertyAsm`, `getUint8PropertyAsm`, `findPropertyAsm`, `getPropertyPtrAsm` —
  the routines, instruction by instruction; a line that the assembler makes several
  instructions of is given as these;
* `reaches_sized`, `reaches_keyed` — what the two loops find;
* `returns_getUint16PropertyAsm`, … — what the routines return, for every table of
  pointers.
-/

namespace ZxProto

open ByteMemory Z80Accumulator
open Z80 hiding run step run_add run_of_returned

/-! ## The routines -/

/-- `_get_uint16_property` and `_get_uint8_property` up to the value: its address is in
`de`. -/
def searchSized (size : UInt8) (notFound : Nat) : List Op :=
  [.plain (.pop .iy),        -- ret
    .plain (.pop .ix),       -- default value
    .plain (.pop .bc),       -- key, in c
    .plain (.pop .hl),       -- ProtoObject*
    .plain (.inc .hl),       -- properties
    .plain (.inc .hl),
    .move .d .h,             -- ld de, hl
    .move .e .l,
    -- 8, `get_16_next_property`, `get_8_next_property`
    .loadDe,                 -- ProtoObjectProperty, into hl
    .ofA (.reg .l),
    .plain (.inc .de),
    .loadDe,
    .ofA (.reg .h),
    .plain (.inc .de),
    .toA (.reg .h),          -- NULL?
    .or (.reg .l),
    .jrZ notFound,
    -- 17
    .ldA size,               -- value_size.low
    .cpHl,
    .jrNz 8,
    .plain (.inc .hl),
    .ldA 0,                  -- value_size.high
    .cpHl,
    .jrNz 8,
    .plain (.inc .hl),
    .toA (.reg .c),          -- key
    .cpHl,
    .jrNz 8,
    -- 28
    .plain (.inc .hl),
    .plain .exDeHl]

/-- `_get_uint16_property`. -/
def getUint16PropertyAsm : List Op :=
  searchSized 2 38 ++
    [.plain .exDeHl,         -- ld l, (de)
      .plain (.loadHl .e),
      .plain .exDeHl,
      .plain (.inc .de),
      .plain .exDeHl,        -- ld h, (de)
      .plain (.loadHl .d),
      .plain .exDeHl,
      .jr 40,
      -- 38, `get_16_not_found`
      .plain (.push .ix),    -- ld hl, ix
      .plain (.pop .hl),
      -- 40, `done_16`
      .plain (.push .iy),
      .plain .ret]

/-- `_get_uint8_property`. -/
def getUint8PropertyAsm : List Op :=
  searchSized 1 35 ++
    [.plain .exDeHl,         -- ld l, (de)
      .plain (.loadHl .e),
      .plain .exDeHl,
      .ldImm .h 0,
      .jr 38,
      -- 35, `get_8_not_found`
      .ldImm .h 0,
      .toA .ixl,             -- default value
      .ofA (.reg .l),
      -- 38, `done_8`
      .plain (.push .iy),
      .plain .ret]

/-- `_find_property` and `_get_property_ptr` up to the property: its address is in
`hl`. -/
def searchKeyed (notFound : Nat) : List Op :=
  [.plain (.pop .iy),        -- ret
    .plain (.pop .bc),       -- key, in c
    .plain (.pop .hl),       -- ProtoObject*
    .plain (.inc .hl),       -- properties
    .plain (.inc .hl),
    .move .d .h,             -- ld de, hl
    .move .e .l,
    -- 7, `get_next_property`, `get_ptr_next_property`
    .loadDe,                 -- ProtoObjectProperty, into ix
    .ofA .ixl,
    .plain (.inc .de),
    .loadDe,
    .ofA .ixh,
    .plain (.inc .de),
    .toA .ixh,               -- NULL?
    .or .ixl,
    .jrZ notFound,
    -- 16
    .toA (.reg .c),          -- key
    .cpIx 2,
    .jrNz 7,
    -- 19
    .toA .ixh,
    .ofA (.reg .h),
    .toA .ixl,
    .ofA (.reg .l)]

/-- `_find_property`. -/
def findPropertyAsm : List Op :=
  searchKeyed 24 ++
    [.jr 25,
      -- 24, `get_not_found`
      .plain (.ldHl 0),      -- NULL
      -- 25, `done`
      .plain (.push .iy),
      .plain .ret]

/-- `_get_property_ptr`. -/
def getPropertyPtrAsm : List Op :=
  searchKeyed 27 ++
    [.plain (.inc .hl),      -- key and size
      .plain (.inc .hl),
      .plain (.inc .hl),
      .jr 28,
      -- 27, `get_ptr_not_found`
      .plain (.ldHl 0),      -- NULL
      -- 28, `get_ptr_done`
      .plain (.push .iy),
      .plain .ret]

/-! ## The loop that tests the size -/

/-- What the loops carry along: the memory, the return address and the key. -/
structure Carries (mem : Memory) (ret key : UInt16) (t : Machine) : Prop where
  mem_eq : t.mem = mem
  iy_eq : t.iy = ret
  bc_eq : t.bc = key

/-- The pointers that are left, and the NULL. -/
def tableWords (pointers : List Nat) : List UInt16 :=
  pointers.map UInt16.ofNat ++ [0]

/-- The size and the key that the first two routines test. -/
def sizedTest (mem : Memory) (size key : UInt8) (property : UInt16) : Bool :=
  size == readByte mem property && 0 == readByte mem (property + 1) &&
    key == readByte mem (property + 1 + 1)

/-- In front of some pointers, with the default value at hand. -/
structure AtSized (mem : Memory) (ret default key : UInt16) (pointers : List Nat) (t : Machine) :
    Prop extends Carries mem ret key t where
  control : t.control = .running 8
  ix_eq : t.ix = default
  table : WordsAt mem t.de (tableWords pointers)
  noNull : ∀ p ∈ pointers, UInt16.ofNat p ≠ 0

/-- Behind a property that passes the tests. -/
structure FoundSized (mem : Memory) (ret key : UInt16) (property : Nat) (t : Machine) : Prop
    extends Carries mem ret key t where
  control : t.control = .running 30
  de_eq : t.de = UInt16.ofNat property + 1 + 1 + 1

/-- Behind the NULL. -/
structure EndedSized (mem : Memory) (ret default key : UInt16) (notFound : Nat) (t : Machine) :
    Prop extends Carries mem ret key t where
  control : t.control = .running notFound
  ix_eq : t.ix = default

section Sized

variable {size : UInt8} {notFound : Nat} {tail : List Op} {t : Machine}

/-- The state behind the test for NULL. -/
def pointerRead (t : Machine) (label notFound : Nat) (pointer : UInt16) : Machine :=
  { t with
    de := t.de + 1 + 1
    hl := pointer
    a := hi pointer ||| lo pointer
    zero := hi pointer ||| lo pointer == 0
    carry := false
    control := .running (if hi pointer ||| lo pointer == 0 then notFound else label) }

/-- A pointer is read, and tested for NULL. -/
theorem run_sizedPointer (h : t.control = .running 8) :
    run (searchSized size notFound ++ tail) 9 t =
      pointerRead t 17 notFound (readWord t.mem t.de) := by
  have hword : u16le (lo (u16le (readByte t.mem t.de) (hi t.hl))) (readByte t.mem (t.de + 1)) =
      readWord t.mem t.de := by
    rw [lo_u16le]
    rfl
  rw [← hword]
  obtain ⟨⟨bc, de, hl, ix, iy, sp, carry, mem, control, stored, pushed⟩, a, zero⟩ := t
  cases h
  rfl

theorem run_sizedLow (h : t.control = .running 17) :
    run (searchSized size notFound ++ tail) 3 t =
      t.compared size (readByte t.mem t.hl) 20 8 := by
  obtain ⟨⟨bc, de, hl, ix, iy, sp, carry, mem, control, stored, pushed⟩, a, zero⟩ := t
  cases h
  rfl

theorem run_sizedHigh (h : t.control = .running 20) :
    run (searchSized size notFound ++ tail) 4 t =
      { t with hl := t.hl + 1 }.compared 0 (readByte t.mem (t.hl + 1)) 24 8 := by
  obtain ⟨⟨bc, de, hl, ix, iy, sp, carry, mem, control, stored, pushed⟩, a, zero⟩ := t
  cases h
  rfl

theorem run_sizedKey (h : t.control = .running 24) :
    run (searchSized size notFound ++ tail) 4 t =
      { t with hl := t.hl + 1 }.compared (lo t.bc) (readByte t.mem (t.hl + 1)) 28 8 := by
  obtain ⟨⟨bc, de, hl, ix, iy, sp, carry, mem, control, stored, pushed⟩, a, zero⟩ := t
  cases h
  rfl

/-- The address of the value comes into `de`. -/
theorem run_sizedValue (h : t.control = .running 28) :
    run (searchSized size notFound ++ tail) 2 t =
      { t with de := t.hl + 1, hl := t.de, control := .running 30 } := by
  obtain ⟨⟨bc, de, hl, ix, iy, sp, carry, mem, control, stored, pushed⟩, a, zero⟩ := t
  cases h
  rfl

/-- The three bytes that are compared decide where the loop goes on. -/
theorem reaches_sizedTests (h : t.control = .running 17) :
    Reaches (searchSized size notFound ++ tail) t fun u =>
      Carries t.mem t.iy t.bc u ∧ u.ix = t.ix ∧
        if sizedTest t.mem size (lo t.bc) t.hl then
          u.control = .running 30 ∧ u.de = t.hl + 1 + 1 + 1
        else
          u.control = .running 8 ∧ u.de = t.de := by
  unfold sizedTest
  apply Reaches.run (n := 3)
  rw [run_sizedLow h]
  by_cases hlow : size == readByte t.mem t.hl
  · apply Reaches.run (n := 4)
    rw [run_sizedHigh (by simp [Machine.compared, hlow])]
    by_cases hhigh : (0 : UInt8) == readByte t.mem (t.hl + 1)
    · apply Reaches.run (n := 4)
      rw [run_sizedKey (by simp [Machine.compared, hhigh])]
      by_cases hkey : lo t.bc == readByte t.mem (t.hl + 1 + 1)
      · apply Reaches.run (n := 2)
        rw [run_sizedValue (by simp [Machine.compared, hkey])]
        refine reaches_now ⟨⟨rfl, rfl, rfl⟩, rfl, ?_⟩
        rw [hlow, hhigh, hkey]
        exact ⟨rfl, rfl⟩
      · refine reaches_now ⟨⟨rfl, rfl, rfl⟩, rfl, ?_⟩
        simp [Machine.compared, hkey]
    · refine reaches_now ⟨⟨rfl, rfl, rfl⟩, rfl, ?_⟩
      simp [Machine.compared, hhigh]
  · refine reaches_now ⟨⟨rfl, rfl, rfl⟩, rfl, ?_⟩
    simp [Machine.compared, hlow]

variable {mem : Memory} {ret default key : UInt16} {p : Nat} {pointers : List Nat}

/-- The pointer that is read next, and the table behind it. -/
theorem wordsAt_tableWords {a : UInt16} (h : WordsAt mem a (tableWords (p :: pointers))) :
    readWord mem a = UInt16.ofNat p ∧ WordsAt mem (a + 1 + 1) (tableWords pointers) := by
  have htwo : a + 1 + 1 = a + 2 := UInt16.add_assoc _ _ _
  rw [htwo]
  exact h.cons

/-- A pointer that is not NULL leads to the tests. -/
theorem control_pointerRead {label : Nat} {pointer : UInt16} (hne : pointer ≠ 0) :
    (pointerRead t label notFound pointer).control = .running label := by
  have hbits : (hi pointer ||| lo pointer == 0) = false := by
    rw [beq_eq_false_iff_ne]
    exact fun hzero => hne ((hi_or_lo_eq_zero pointer).mp hzero)
  simp [pointerRead, hbits]

/-- One turn of the loop. -/
theorem AtSized.turn (h : AtSized mem ret default key (p :: pointers) t) :
    Reaches (searchSized size notFound ++ tail) t fun u =>
      if sizedTest mem size (lo key) (UInt16.ofNat p) then FoundSized mem ret key p u
      else AtSized mem ret default key pointers u := by
  obtain ⟨hpointer, hrest⟩ := wordsAt_tableWords h.table
  have hread : run (searchSized size notFound ++ tail) 9 t = _ := run_sizedPointer h.control
  rw [h.mem_eq, hpointer] at hread
  apply Reaches.run (n := 9)
  rw [hread]
  refine (reaches_sizedTests (control_pointerRead (h.noNull p List.mem_cons_self))).trans ?_
  rintro u ⟨⟨hmem, hiy, hbc⟩, hix, hcontrol⟩
  have hcarries : Carries mem ret key u :=
    ⟨hmem.trans h.mem_eq, hiy.trans h.iy_eq, hbc.trans h.bc_eq⟩
  have htest : sizedTest (pointerRead t 17 notFound (UInt16.ofNat p)).mem size
      (lo (pointerRead t 17 notFound (UInt16.ofNat p)).bc)
      (pointerRead t 17 notFound (UInt16.ofNat p)).hl =
        sizedTest mem size (lo key) (UInt16.ofNat p) := by
    rw [← h.mem_eq, ← h.bc_eq]
    rfl
  rw [htest] at hcontrol
  apply reaches_now
  split
  · next hpasses =>
      rw [if_pos hpasses] at hcontrol
      exact ⟨hcarries, hcontrol.1, hcontrol.2⟩
  · next hfails =>
      rw [if_neg hfails] at hcontrol
      refine ⟨hcarries, hcontrol.1, hix.trans h.ix_eq, ?_, fun q hq =>
        h.noNull q (List.mem_cons_of_mem p hq)⟩
      rw [hcontrol.2]
      exact hrest

/-- The NULL ends the loop. -/
theorem AtSized.finish (h : AtSized mem ret default key [] t) :
    Reaches (searchSized size notFound ++ tail) t
      (EndedSized mem ret default key notFound) := by
  have hread : run (searchSized size notFound ++ tail) 9 t = _ := run_sizedPointer h.control
  rw [h.mem_eq, h.table.cons.1] at hread
  apply Reaches.run (n := 9)
  rw [hread]
  exact reaches_now ⟨⟨h.mem_eq, h.iy_eq, h.bc_eq⟩, rfl, h.ix_eq⟩

/-- **The loop that tests the size** comes behind the first property that passes, or to
its end. -/
theorem reaches_sized (h : AtSized mem ret default key pointers t) :
    Reaches (searchSized size notFound ++ tail) t fun u =>
      (∃ p, pointers.find? (fun p => sizedTest mem size (lo key) (UInt16.ofNat p)) = some p ∧
        FoundSized mem ret key p u) ∨
      pointers.find? (fun p => sizedTest mem size (lo key) (UInt16.ofNat p)) = none ∧
        EndedSized mem ret default key notFound u :=
  reaches_scan (AtSized mem ret default key) (fun _ ht => ht.finish) (fun _ _ _ ht => ht.turn) h

/-- The arguments are taken off the stack. -/
theorem run_sizedEntry (h : t.control = .running 0) :
    run (searchSized size notFound ++ tail) 6 t =
      { t with
        bc := readWord t.mem (t.sp + 2 + 2)
        hl := readWord t.mem (t.sp + 2 + 2 + 2) + 1 + 1
        ix := readWord t.mem (t.sp + 2)
        iy := readWord t.mem t.sp
        sp := t.sp + 2 + 2 + 2 + 2
        control := .running 6 } := by
  obtain ⟨⟨bc, de, hl, ix, iy, sp, carry, mem, control, stored, pushed⟩, a, zero⟩ := t
  cases h
  rfl

/-- The loop is entered in front of all the pointers. -/
theorem reaches_atSized {obj : UInt16} (h : t.control = .running 0)
    (hstack : WordsAt t.mem t.sp [ret, default, key, obj])
    (htable : WordsAt t.mem (obj + 2) (tableWords pointers))
    (hne : ∀ p ∈ pointers, UInt16.ofNat p ≠ 0) :
    Reaches (searchSized size notFound ++ tail) t (AtSized t.mem ret default key pointers) := by
  obtain ⟨hret, hstack⟩ := hstack.cons
  obtain ⟨hdefault, hstack⟩ := hstack.cons
  obtain ⟨hkey, hstack⟩ := hstack.cons
  have htwo : obj + 1 + 1 = obj + 2 := UInt16.add_assoc _ _ _
  apply Reaches.run (n := 6)
  rw [run_sizedEntry h, hret, hdefault, hkey, hstack.cons.1, htwo]
  apply Reaches.run (n := 2)
  rw [run_ldDeHl rfl rfl rfl]
  exact reaches_now ⟨⟨rfl, rfl, rfl⟩, rfl, rfl, htable, hne⟩

end Sized

/-! ## The routines that test the size -/

section SizedRoutines

variable {t : Machine} {mem : Memory} {ret default key obj : UInt16} {p : Nat}
  {pointers : List Nat}

/-- `ld l, (de)` and `ld h, (de)` load a word. -/
theorem run_uint16Value (h : t.control = .running 30) :
    run getUint16PropertyAsm 8 t =
      { t with
        de := t.de + 1
        hl := readWord t.mem t.de
        control := .running 40 } := by
  have hword : u16le (lo (u16le (readByte t.mem t.de) (hi t.hl))) (readByte t.mem (t.de + 1)) =
      readWord t.mem t.de := by
    rw [lo_u16le]
    rfl
  rw [← hword]
  obtain ⟨⟨bc, de, hl, ix, iy, sp, carry, mem, control, stored, pushed⟩, a, zero⟩ := t
  cases h
  rfl

/-- `ld hl, ix` gives the default value. -/
theorem run_uint16Default (h : t.control = .running 38) :
    (run getUint16PropertyAsm 2 t).control = .running 40 ∧
      (run getUint16PropertyAsm 2 t).hl = t.ix ∧ (run getUint16PropertyAsm 2 t).iy = t.iy := by
  have hpop := readWord_pushWord t.mem t.sp t.ix
  obtain ⟨⟨bc, de, hl, ix, iy, sp, carry, mem, control, stored, pushed⟩, a, zero⟩ := t
  cases h
  exact ⟨rfl, hpop, rfl⟩

/-- `_get_uint16_property` returns the value of the first property of two bytes that has
the key, or the default value. -/
theorem returns_getUint16PropertyAsm (h : t.control = .running 0)
    (hstack : WordsAt t.mem t.sp [ret, default, key, obj])
    (htable : WordsAt t.mem (obj + 2) (tableWords pointers))
    (hne : ∀ p ∈ pointers, UInt16.ofNat p ≠ 0) :
    Returns getUint16PropertyAsm t ret fun u =>
      u.hl = (pointers.find? fun p => sizedTest t.mem 2 (lo key) (UInt16.ofNat p)).elim default
        fun p => readWord t.mem (UInt16.ofNat p + 1 + 1 + 1) := by
  have hentry : Reaches getUint16PropertyAsm t (AtSized t.mem ret default key pointers) :=
    reaches_atSized h hstack htable hne
  refine hentry.trans fun u hu => ?_
  have hloop : Reaches getUint16PropertyAsm u _ := reaches_sized hu
  refine hloop.trans ?_
  rintro v (⟨p, hfind, hv⟩ | ⟨hfind, hv⟩)
  · rw [hfind, Option.elim_some, ← hv.mem_eq, ← hv.de_eq]
    apply Reaches.run (n := 8)
    rw [run_uint16Value hv.control]
    exact returns_pushRet (r := .iy) rfl rfl rfl hv.iy_eq rfl
  · rw [hfind, Option.elim_none]
    obtain ⟨hcontrol, hdefault, hiy⟩ := run_uint16Default hv.control
    exact Reaches.run (returns_pushRet (r := .iy) hcontrol rfl rfl (hiy.trans hv.iy_eq)
      (hdefault.trans hv.ix_eq))

/-- `ld l, (de)` loads a byte, and `ld h, 0` extends it. -/
theorem run_uint8Value (h : t.control = .running 30) :
    run getUint8PropertyAsm 5 t =
      { t with hl := u16le (readByte t.mem t.de) 0, control := .running 38 } := by
  have hword : u16le (lo (u16le (readByte t.mem t.de) (hi t.hl))) 0 =
      u16le (readByte t.mem t.de) 0 := by
    rw [lo_u16le]
  rw [← hword]
  obtain ⟨⟨bc, de, hl, ix, iy, sp, carry, mem, control, stored, pushed⟩, a, zero⟩ := t
  cases h
  rfl

/-- The low byte of `ix` is the default value. -/
theorem run_uint8Default (h : t.control = .running 35) :
    run getUint8PropertyAsm 3 t =
      { t with a := lo t.ix, hl := u16le (lo t.ix) 0, control := .running 38 } := by
  have hword : u16le (lo t.ix) (hi (u16le (lo t.hl) 0)) = u16le (lo t.ix) 0 := by
    rw [hi_u16le]
  rw [← hword]
  obtain ⟨⟨bc, de, hl, ix, iy, sp, carry, mem, control, stored, pushed⟩, a, zero⟩ := t
  cases h
  rfl

/-- `_get_uint8_property` returns the value of the first property of one byte that has
the key, or the default value. -/
theorem returns_getUint8PropertyAsm (h : t.control = .running 0)
    (hstack : WordsAt t.mem t.sp [ret, default, key, obj])
    (htable : WordsAt t.mem (obj + 2) (tableWords pointers))
    (hne : ∀ p ∈ pointers, UInt16.ofNat p ≠ 0) :
    Returns getUint8PropertyAsm t ret fun u =>
      u.hl = u16le ((pointers.find? fun p =>
        sizedTest t.mem 1 (lo key) (UInt16.ofNat p)).elim (lo default)
          fun p => readByte t.mem (UInt16.ofNat p + 1 + 1 + 1)) 0 := by
  have hentry : Reaches getUint8PropertyAsm t (AtSized t.mem ret default key pointers) :=
    reaches_atSized h hstack htable hne
  refine hentry.trans fun u hu => ?_
  have hloop : Reaches getUint8PropertyAsm u _ := reaches_sized hu
  refine hloop.trans ?_
  rintro v (⟨p, hfind, hv⟩ | ⟨hfind, hv⟩)
  · rw [hfind, Option.elim_some, ← hv.mem_eq, ← hv.de_eq]
    apply Reaches.run (n := 5)
    rw [run_uint8Value hv.control]
    exact returns_pushRet (r := .iy) rfl rfl rfl hv.iy_eq rfl
  · rw [hfind, Option.elim_none, ← hv.ix_eq]
    apply Reaches.run (n := 3)
    rw [run_uint8Default hv.control]
    exact returns_pushRet (r := .iy) rfl rfl rfl hv.iy_eq rfl

end SizedRoutines

/-! ## The loop that tests the key -/

/-- The key that the other two routines test. -/
def keyedTest (mem : Memory) (key : UInt8) (property : UInt16) : Bool :=
  key == readByte mem (property + 2)

/-- In front of some pointers. -/
structure AtKeyed (mem : Memory) (ret key : UInt16) (pointers : List Nat) (t : Machine) : Prop
    extends Carries mem ret key t where
  control : t.control = .running 7
  table : WordsAt mem t.de (tableWords pointers)
  noNull : ∀ p ∈ pointers, UInt16.ofNat p ≠ 0

/-- Behind a property that has the key. -/
structure FoundKeyed (mem : Memory) (ret key : UInt16) (property : Nat) (t : Machine) : Prop
    extends Carries mem ret key t where
  control : t.control = .running 23
  hl_eq : t.hl = UInt16.ofNat property

/-- Behind the NULL. -/
structure EndedKeyed (mem : Memory) (ret key : UInt16) (notFound : Nat) (t : Machine) : Prop
    extends Carries mem ret key t where
  control : t.control = .running notFound

section Keyed

variable {notFound : Nat} {tail : List Op} {t : Machine} {mem : Memory} {ret key : UInt16}
  {p : Nat} {pointers : List Nat}

/-- The state behind the test for NULL: the pointer is in `ix`. -/
def keyedRead (t : Machine) (notFound : Nat) (pointer : UInt16) : Machine :=
  { pointerRead t 16 notFound pointer with hl := t.hl, ix := pointer }

/-- A pointer is read, and tested for NULL. -/
theorem run_keyedPointer (h : t.control = .running 7) :
    run (searchKeyed notFound ++ tail) 9 t = keyedRead t notFound (readWord t.mem t.de) := by
  have hword : u16le (lo (u16le (readByte t.mem t.de) (hi t.ix))) (readByte t.mem (t.de + 1)) =
      readWord t.mem t.de := by
    rw [lo_u16le]
    rfl
  rw [← hword]
  obtain ⟨⟨bc, de, hl, ix, iy, sp, carry, mem, control, stored, pushed⟩, a, zero⟩ := t
  cases h
  rfl

theorem run_keyedTest (h : t.control = .running 16) :
    run (searchKeyed notFound ++ tail) 3 t =
      t.compared (lo t.bc) (readByte t.mem (t.ix + 2)) 19 7 := by
  obtain ⟨⟨bc, de, hl, ix, iy, sp, carry, mem, control, stored, pushed⟩, a, zero⟩ := t
  cases h
  rfl

/-- The pointer comes into `hl`. -/
theorem run_keyedValue (h : t.control = .running 19) :
    run (searchKeyed notFound ++ tail) 4 t =
      { t with a := lo t.ix, hl := t.ix, control := .running 23 } := by
  have hword : u16le (lo t.ix) (hi (u16le (lo t.hl) (hi t.ix))) = t.ix := by
    rw [hi_u16le]
    exact u16le_u16Bytes t.ix
  have hraw : run (searchKeyed notFound ++ tail) 4 t =
      { t with
        a := lo t.ix
        hl := u16le (lo t.ix) (hi (u16le (lo t.hl) (hi t.ix)))
        control := .running 23 } := by
    obtain ⟨⟨bc, de, hl, ix, iy, sp, carry, mem, control, stored, pushed⟩, a, zero⟩ := t
    cases h
    rfl
  rw [hraw, hword]

/-- The byte that is compared decides where the loop goes on. -/
theorem reaches_keyedTests (h : t.control = .running 16) :
    Reaches (searchKeyed notFound ++ tail) t fun u =>
      Carries t.mem t.iy t.bc u ∧
        if keyedTest t.mem (lo t.bc) t.ix then u.control = .running 23 ∧ u.hl = t.ix
        else u.control = .running 7 ∧ u.de = t.de := by
  unfold keyedTest
  apply Reaches.run (n := 3)
  rw [run_keyedTest h]
  by_cases hkey : lo t.bc == readByte t.mem (t.ix + 2)
  · apply Reaches.run (n := 4)
    rw [run_keyedValue (by simp [Machine.compared, hkey])]
    refine reaches_now ⟨⟨rfl, rfl, rfl⟩, ?_⟩
    rw [hkey]
    exact ⟨rfl, rfl⟩
  · refine reaches_now ⟨⟨rfl, rfl, rfl⟩, ?_⟩
    simp [Machine.compared, hkey]

/-- One turn of the loop. -/
theorem AtKeyed.turn (h : AtKeyed mem ret key (p :: pointers) t) :
    Reaches (searchKeyed notFound ++ tail) t fun u =>
      if keyedTest mem (lo key) (UInt16.ofNat p) then FoundKeyed mem ret key p u
      else AtKeyed mem ret key pointers u := by
  obtain ⟨hpointer, hrest⟩ := wordsAt_tableWords h.table
  have hread : run (searchKeyed notFound ++ tail) 9 t = _ := run_keyedPointer h.control
  rw [h.mem_eq, hpointer] at hread
  have hcontrol : (keyedRead t notFound (UInt16.ofNat p)).control = .running 16 :=
    control_pointerRead (t := t) (h.noNull p List.mem_cons_self)
  apply Reaches.run (n := 9)
  rw [hread]
  refine (reaches_keyedTests hcontrol).trans ?_
  rintro u ⟨⟨hmem, hiy, hbc⟩, hnext⟩
  have hcarries : Carries mem ret key u :=
    ⟨hmem.trans h.mem_eq, hiy.trans h.iy_eq, hbc.trans h.bc_eq⟩
  have htest : keyedTest (keyedRead t notFound (UInt16.ofNat p)).mem
      (lo (keyedRead t notFound (UInt16.ofNat p)).bc)
      (keyedRead t notFound (UInt16.ofNat p)).ix = keyedTest mem (lo key) (UInt16.ofNat p) := by
    rw [← h.mem_eq, ← h.bc_eq]
    rfl
  rw [htest] at hnext
  apply reaches_now
  split
  · next hpasses =>
      rw [if_pos hpasses] at hnext
      exact ⟨hcarries, hnext.1, hnext.2⟩
  · next hfails =>
      rw [if_neg hfails] at hnext
      refine ⟨hcarries, hnext.1, ?_, fun q hq => h.noNull q (List.mem_cons_of_mem p hq)⟩
      rw [hnext.2]
      exact hrest

/-- The NULL ends the loop. -/
theorem AtKeyed.finish (h : AtKeyed mem ret key [] t) :
    Reaches (searchKeyed notFound ++ tail) t (EndedKeyed mem ret key notFound) := by
  have hread : run (searchKeyed notFound ++ tail) 9 t = _ := run_keyedPointer h.control
  rw [h.mem_eq, h.table.cons.1] at hread
  apply Reaches.run (n := 9)
  rw [hread]
  exact reaches_now ⟨⟨h.mem_eq, h.iy_eq, h.bc_eq⟩, rfl⟩

/-- **The loop that tests the key** comes behind the first property that has it, or to
its end. -/
theorem reaches_keyed (h : AtKeyed mem ret key pointers t) :
    Reaches (searchKeyed notFound ++ tail) t fun u =>
      (∃ p, pointers.find? (fun p => keyedTest mem (lo key) (UInt16.ofNat p)) = some p ∧
        FoundKeyed mem ret key p u) ∨
      pointers.find? (fun p => keyedTest mem (lo key) (UInt16.ofNat p)) = none ∧
        EndedKeyed mem ret key notFound u :=
  reaches_scan (AtKeyed mem ret key) (fun _ ht => ht.finish) (fun _ _ _ ht => ht.turn) h

/-- The arguments are taken off the stack. -/
theorem run_keyedEntry (h : t.control = .running 0) :
    run (searchKeyed notFound ++ tail) 5 t =
      { t with
        bc := readWord t.mem (t.sp + 2)
        hl := readWord t.mem (t.sp + 2 + 2) + 1 + 1
        iy := readWord t.mem t.sp
        sp := t.sp + 2 + 2 + 2
        control := .running 5 } := by
  obtain ⟨⟨bc, de, hl, ix, iy, sp, carry, mem, control, stored, pushed⟩, a, zero⟩ := t
  cases h
  rfl

/-- The loop is entered in front of all the pointers. -/
theorem reaches_atKeyed {obj : UInt16} (h : t.control = .running 0)
    (hstack : WordsAt t.mem t.sp [ret, key, obj])
    (htable : WordsAt t.mem (obj + 2) (tableWords pointers))
    (hne : ∀ p ∈ pointers, UInt16.ofNat p ≠ 0) :
    Reaches (searchKeyed notFound ++ tail) t (AtKeyed t.mem ret key pointers) := by
  obtain ⟨hret, hstack⟩ := hstack.cons
  obtain ⟨hkey, hstack⟩ := hstack.cons
  have htwo : obj + 1 + 1 = obj + 2 := UInt16.add_assoc _ _ _
  apply Reaches.run (n := 5)
  rw [run_keyedEntry h, hret, hkey, hstack.cons.1, htwo]
  apply Reaches.run (n := 2)
  rw [run_ldDeHl rfl rfl rfl]
  exact reaches_now ⟨⟨rfl, rfl, rfl⟩, rfl, htable, hne⟩

end Keyed

/-! ## The routines that test the key -/

section KeyedRoutines

variable {t : Machine} {ret key obj : UInt16} {pointers : List Nat}

theorem run_findValue (h : t.control = .running 23) :
    run findPropertyAsm 1 t = { t with control := .running 25 } := by
  obtain ⟨⟨bc, de, hl, ix, iy, sp, carry, mem, control, stored, pushed⟩, a, zero⟩ := t
  cases h
  rfl

theorem run_findNull (h : t.control = .running 24) :
    run findPropertyAsm 1 t = { t with hl := 0, control := .running 25 } := by
  obtain ⟨⟨bc, de, hl, ix, iy, sp, carry, mem, control, stored, pushed⟩, a, zero⟩ := t
  cases h
  rfl

/-- `_find_property` returns the pointer to the first property that has the key, or
NULL. -/
theorem returns_findPropertyAsm (h : t.control = .running 0)
    (hstack : WordsAt t.mem t.sp [ret, key, obj])
    (htable : WordsAt t.mem (obj + 2) (tableWords pointers))
    (hne : ∀ p ∈ pointers, UInt16.ofNat p ≠ 0) :
    Returns findPropertyAsm t ret fun u =>
      u.hl = (pointers.find? fun p => keyedTest t.mem (lo key) (UInt16.ofNat p)).elim 0
        fun p => UInt16.ofNat p := by
  have hentry : Reaches findPropertyAsm t (AtKeyed t.mem ret key pointers) :=
    reaches_atKeyed h hstack htable hne
  refine hentry.trans fun u hu => ?_
  have hloop : Reaches findPropertyAsm u _ := reaches_keyed hu
  refine hloop.trans ?_
  rintro v (⟨p, hfind, hv⟩ | ⟨hfind, hv⟩)
  · rw [hfind, Option.elim_some, ← hv.hl_eq]
    apply Reaches.run (n := 1)
    rw [run_findValue hv.control]
    exact returns_pushRet (r := .iy) rfl rfl rfl hv.iy_eq rfl
  · rw [hfind, Option.elim_none]
    apply Reaches.run (n := 1)
    rw [run_findNull hv.control]
    exact returns_pushRet (r := .iy) rfl rfl rfl hv.iy_eq rfl

/-- The key and the size are skipped. -/
theorem run_ptrValue (h : t.control = .running 23) :
    run getPropertyPtrAsm 4 t = { t with hl := t.hl + 1 + 1 + 1, control := .running 28 } := by
  obtain ⟨⟨bc, de, hl, ix, iy, sp, carry, mem, control, stored, pushed⟩, a, zero⟩ := t
  cases h
  rfl

theorem run_ptrNull (h : t.control = .running 27) :
    run getPropertyPtrAsm 1 t = { t with hl := 0, control := .running 28 } := by
  obtain ⟨⟨bc, de, hl, ix, iy, sp, carry, mem, control, stored, pushed⟩, a, zero⟩ := t
  cases h
  rfl

/-- `_get_property_ptr` returns the pointer to the value of the first property that has
the key, or NULL. -/
theorem returns_getPropertyPtrAsm (h : t.control = .running 0)
    (hstack : WordsAt t.mem t.sp [ret, key, obj])
    (htable : WordsAt t.mem (obj + 2) (tableWords pointers))
    (hne : ∀ p ∈ pointers, UInt16.ofNat p ≠ 0) :
    Returns getPropertyPtrAsm t ret fun u =>
      u.hl = (pointers.find? fun p => keyedTest t.mem (lo key) (UInt16.ofNat p)).elim 0
        fun p => UInt16.ofNat p + 1 + 1 + 1 := by
  have hentry : Reaches getPropertyPtrAsm t (AtKeyed t.mem ret key pointers) :=
    reaches_atKeyed h hstack htable hne
  refine hentry.trans fun u hu => ?_
  have hloop : Reaches getPropertyPtrAsm u _ := reaches_keyed hu
  refine hloop.trans ?_
  rintro v (⟨p, hfind, hv⟩ | ⟨hfind, hv⟩)
  · rw [hfind, Option.elim_some, ← hv.hl_eq]
    apply Reaches.run (n := 4)
    rw [run_ptrValue hv.control]
    exact returns_pushRet (r := .iy) rfl rfl rfl hv.iy_eq rfl
  · rw [hfind, Option.elim_none]
    apply Reaches.run (n := 1)
    rw [run_ptrNull hv.control]
    exact returns_pushRet (r := .iy) rfl rfl rfl hv.iy_eq rfl

end KeyedRoutines

end ZxProto
