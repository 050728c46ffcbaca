import ZxProto.RoundTrip
import ZxProto.StringProperty

/-!
# What is declared is found

For its users an object is a list of values with keys, declared one after the other, of which a
later one hides an earlier one with the same key.  The accessors of the receiver look up what the
sender has declared.

* `declareArgProperty`, `declareVariableProperty` — the macros that declare;
* `lookup`, `lookupSize`, … — the lists, and `lookup_cons_self`, …, their laws;
* `LooksUp`, `looksUp_of_contents` — the accessors on an object in memory;
* `looksUp_received` — on an object that was built, sent and read.
-/

namespace ZxProto

open ByteMemory ReadLog ReadLog.Reading

/-! ## Declarations -/

theorem toNat_ofNat_length_le (bytes : List UInt8) :
    (UInt16.ofNat bytes.length).toNat ≤ bytes.length := by
  rw [UInt16.toNat_ofNat']
  exact Nat.mod_le _ _

/-- `declare_arg_property_on_stack`, for the bytes of a variable. -/
def declareArgProperty (key : UInt8) (bytes : List UInt8) : ProtoStackObjectProperty where
  key := key
  value := bytes
  valueSize := UInt16.ofNat bytes.length
  valueSize_le := toNat_ofNat_length_le bytes

/-- `declare_variable_property_on_stack`. -/
def declareVariableProperty (key : UInt8) (bytes : List UInt8) (size : UInt16)
    (hle : size.toNat ≤ bytes.length) : ProtoStackObjectProperty where
  key := key
  value := bytes
  valueSize := size
  valueSize_le := hle

/-! ## Lists of values with keys -/

section Lists

/-- The first value with the key. -/
def lookup (props : List Property) (key : UInt8) : Option (List UInt8) :=
  (props.find? fun p => p.key == key).map Property.value

/-- The first value with the key and a size. -/
def lookupSize (props : List Property) (key : UInt8) (size : Nat) : Option (List UInt8) :=
  (props.find? fun p => p.key == key && p.value.length == size).map Property.value

/-- The first value with the key that starts with some bytes. -/
def lookupPrefix (props : List Property) (key : UInt8) (front : List UInt8) :
    Option (List UInt8) :=
  (props.find? fun p => p.key == key && front.isPrefixOf p.value).map Property.value

/-- The number of two bytes with the key. -/
def lookupUint16 (props : List Property) (key : UInt8) (default : UInt16) : UInt16 :=
  (lookupSize props key 2).elim default fun value => u16le (value.getD 0 0) (value.getD 1 0)

/-- The first byte of the value with the key. -/
def lookupUint8 (props : List Property) (key : UInt8) (default : UInt8) : UInt8 :=
  (lookup props key).elim default fun value => value.headD 0

/-- As much of the value as a buffer takes with a zero behind it. -/
def lookupStr (props : List Property) (key : UInt8) (size : Nat) : UInt8 × List UInt8 :=
  (lookup props key).elim (1, []) fun value => (0, value.take (size - 1) ++ [0])

variable {p : Property} {props : List Property} {key : UInt8}

/-- A declaration hides those with the same key. -/
theorem lookup_cons_self : lookup (p :: props) p.key = some p.value := by
  simp [lookup]

theorem lookupSize_cons_self : lookupSize (p :: props) p.key p.value.length = some p.value := by
  simp [lookupSize]

/-- It leaves the others alone, and those of another size. -/
theorem lookupSize_cons_of_ne {size : Nat} (hne : p.key ≠ key ∨ p.value.length ≠ size) :
    lookupSize (p :: props) key size = lookupSize props key size := by
  rcases hne with hne | hne <;> simp [lookupSize, hne]

/-- A number that is declared last is the number with its key. -/
theorem lookupUint16_declare (key : UInt8) (number default : UInt16)
    (chain : List ProtoStackObjectProperty) :
    lookupUint16 (chainProperties (declareArgProperty key (u16Bytes number) :: chain)) key
      default = number := by
  have hne : (declareArgProperty key (u16Bytes number)).valueSize ≠ 0 := by
    show UInt16.ofNat (u16Bytes number).length ≠ 0
    rw [length_u16Bytes]
    decide
  rw [chainProperties_cons_of_ne hne]
  have hself : lookupSize ((declareArgProperty key (u16Bytes number)).toProperty ::
      chainProperties chain) key (u16Bytes number).length = some (u16Bytes number) :=
    lookupSize_cons_self
  rw [length_u16Bytes] at hself
  rw [lookupUint16, hself, Option.elim_some]
  exact u16le_u16Bytes number

/-- So is a byte. -/
theorem lookupUint8_declare (key byte default : UInt8) (chain : List ProtoStackObjectProperty) :
    lookupUint8 (chainProperties (declareArgProperty key [byte] :: chain)) key default = byte := by
  have hne : (declareArgProperty key [byte]).valueSize ≠ 0 := by
    show UInt16.ofNat 1 ≠ 0
    decide
  rw [chainProperties_cons_of_ne hne, lookupUint8]
  have hself : lookup ((declareArgProperty key [byte]).toProperty :: chainProperties chain) key =
      some [byte] := lookup_cons_self
  rw [hself]
  rfl

/-- A property without a value is not declared. -/
theorem ne_nil_of_lookup {chain : List ProtoStackObjectProperty} {value : List UInt8}
    (hfound : lookup (chainProperties chain) key = some value) : value ≠ [] := by
  obtain ⟨p, hp, rfl⟩ := Option.map_eq_some_iff.mp hfound
  obtain ⟨property, hproperty, rfl⟩ := List.mem_map.mp (List.mem_of_find?_eq_some hp)
  have hsize := (List.mem_filter.mp hproperty).2
  intro hnil
  have hlength := property.length_value
  rw [hnil] at hlength
  have hzero : property.valueSize = 0 := UInt16.toNat_inj.mp hlength.symm
  simp [hzero] at hsize

end Lists

/-! ## Objects in memory -/

/-- The accessors look up in a list of properties; `get_uint8_property` does if there is a
byte. -/
structure LooksUp (mem : Memory) (o : ProtoObject) (props : List Property) (key : UInt8) :
    Prop where
  findProperty : ((findPropertyLogged o key).run mem).map (protoPropertyValue mem) =
    lookup props key
  findPropertyMatch : ∀ text : CString,
    ((findPropertyMatchLogged o key text).run mem).map (protoPropertyValue mem) =
      lookupPrefix props key (comparedPrefix text)
  getUint16Property : ∀ default,
    (getUint16PropertyLogged o key default).run mem = lookupUint16 props key default
  getUint8Property : ∀ default, lookup props key ≠ some [] →
    (getUint8PropertyLogged o key default).run mem = lookupUint8 props key default
  getPropertyPtrSize : ∀ size,
    ((getPropertyPtrSizeLogged o key size).run mem).map (fun value => slice mem value size) =
      lookupSize props key size
  getStrProperty : ∀ targetBufferSize : UInt16, targetBufferSize ≠ 0 →
    (getStrPropertyLogged o key targetBufferSize).run mem =
      lookupStr props key targetBufferSize.toNat
  copyStrProperty : ((findPropertyLogged o key).run mem).map
      (fun property => (copyStrPropertyLogged property).run mem) =
    (lookup props key).map (· ++ [0])

section Objects

variable (mem : Memory) (o : ProtoObject) (key : UInt8)

/-- A search among the pointers is one among the properties. -/
theorem map_find?_contents (test : Property → Bool) :
    (o.properties.find? fun property => test (readProperty mem property)).map
        (protoPropertyValue mem) =
      ((o.contents mem).find? test).map Property.value := by
  rw [ProtoObject.contents, List.find?_map, Option.map_map]
  rfl

theorem map_findProperty :
    ((findPropertyLogged o key).run mem).map (protoPropertyValue mem) =
      lookup (o.contents mem) key := by
  rw [run_findPropertyLogged, ZxProto.findProperty, lookup]
  exact map_find?_contents mem o fun p => p.key == key

theorem map_findPropertySize (size : Nat) :
    ((findPropertySize o key size).run mem).map (protoPropertyValue mem) =
      lookupSize (o.contents mem) key size := by
  have htest (property : Nat) : (protoPropertyValueSize mem property).toNat =
      (readProperty mem property).value.length := (length_slice mem _ _).symm
  simp only [run_findPropertySize, htest]
  exact map_find?_contents mem o fun p => p.key == key && p.value.length == size

variable {mem o key} in
/-- What the loop that tests the size finds has that size. -/
theorem value_of_findPropertySize {size property : Nat}
    (hfound : (findPropertySize o key size).run mem = some property) :
    protoPropertyValue mem property = slice mem (property + sizeofProtoObjectProperty) size := by
  rw [protoPropertyValue, toNat_of_findPropertySize hfound]

/-- **The accessors see an object only through its properties.** -/
theorem looksUp_of_contents : LooksUp mem o (o.contents mem) key where
  findProperty := map_findProperty mem o key
  findPropertyMatch text := by
    rw [run_findPropertyMatchLogged]
    exact map_find?_contents mem o fun p => p.key == key && (comparedPrefix text).isPrefixOf p.value
  getUint16Property default := by
    rw [run_getUint16PropertyLogged, lookupUint16, ← map_findPropertySize]
    cases hfound : (findPropertySize o key 2).run mem with
    | none => rfl
    | some property =>
        rw [Option.map_some, Option.elim_some, Option.elim_some, value_of_findPropertySize hfound]
        rfl
  getUint8Property default hne := by
    rw [← map_findProperty, run_findPropertyLogged] at hne
    rw [run_getUint8PropertyLogged, lookupUint8, ← map_findProperty, run_findPropertyLogged]
    cases hfound : ZxProto.findProperty mem o key with
    | none => rfl
    | some property =>
        rw [hfound, Option.map_some] at hne
        have hsize : (protoPropertyValueSize mem property).toNat ≠ 0 := by
          intro hzero
          refine hne (congrArg some ?_)
          rw [protoPropertyValue, hzero, slice_zero]
        obtain ⟨size, hsucc⟩ := Nat.exists_eq_succ_of_ne_zero hsize
        rw [Option.map_some, Option.elim_some, Option.elim_some, protoPropertyValue, hsucc,
          slice_succ]
        rfl
  getPropertyPtrSize size := by
    rw [getPropertyPtrSizeLogged, run_bind, run_pure, Option.map_map, ← map_findPropertySize]
    cases hfound : (findPropertySize o key size).run mem with
    | none => rfl
    | some property =>
        rw [Option.map_some, Option.map_some, value_of_findPropertySize hfound]
        rfl
  getStrProperty targetBufferSize hne := by
    have hrun := @run_getStrPropertyLogged mem o key 0 targetBufferSize
    rw [hrun, lookupStr, ← map_findProperty, run_findPropertyLogged]
    cases hfound : ZxProto.findProperty mem o key with
    | none =>
        rw [getStrProperty_of_none hfound]
        rfl
    | some property =>
        rw [getStrProperty_of_some hfound, Option.map_some, Option.elim_some,
          toNat_maxSize hne, protoPropertyValue, take_slice_min]
        rfl
  copyStrProperty := by
    rw [← map_findProperty, Option.map_map]
    refine congrArg (fun f => Option.map f ((findPropertyLogged o key).run mem))
      (funext fun property => ?_)
    simp only [copyStrPropertyLogged, strValue, run_bind, run_loadBlock, run_pure]
    rfl

end Objects

/-! ## From the sender to the accessors -/

theorem ObjectSource.represents_build (pl : Platform) (source : ObjectSource)
    (hsize : (bodyBytes (chainProperties source.chain)).length < 65536) :
    Represents pl (source.build pl) (chainProperties source.chain) := by
  rw [ObjectSource.build]
  split
  · exact represents_protoObjectAllocate pl _ _ _ _ hsize
  · exact represents_protoObjectAssign pl _ _ _ _ _ hsize

/-- **What is declared is found.**  An object is built from a chain, on any platform, and sent to a
receiver with the `proto_object_read` of `proto_objects.c`.  It accepts what arrives, and as long as
the received bytes stay, the accessors look up in the chain: the last declaration of a key first,
and none without a value. -/
theorem looksUp_received (sender : Platform) {receiver : Build} (hreceiver : receiver.decoder = .c)
    (source : ObjectSource) (hsize : (bodyBytes (chainProperties source.chain)).length < 65536)
    {mem : Memory} {bufferFrom : Nat} {objectSize : UInt16}
    (hreceived : slice mem bufferFrom objectSize.toNat = sentBody sender (source.build sender))
    (held : ProtoObject) :
    ∃ read, receiver.readObject held objectSize mem bufferFrom = some read ∧ read.result = 0 ∧
      ∀ mem', AgreeOn mem mem' bufferFrom objectSize.toNat → ∀ key,
        LooksUp mem' read.object (chainProperties source.chain) key ∧
          ∀ default, (getUint8PropertyLogged read.object key default).run mem' =
            lookupUint8 (chainProperties source.chain) key default := by
  have hbody : slice mem bufferFrom objectSize.toNat = bodyBytes (chainProperties source.chain) :=
    hreceived.trans (source.represents_build sender hsize).sentBody_eq
  have haccepted : Accepted receiver (slice mem bufferFrom objectSize.toNat) :=
    hbody ▸ (decodable_of_c hreceiver source.count_le).accepted
  obtain ⟨read, hread, hresult, -, hparse⟩ :=
    haccepted.exists_read (fun hasm => Decoder.noConfusion (hreceiver.symm.trans hasm)) held
  refine ⟨read, hread, hresult, fun mem' hsame key => ?_⟩
  -- the pointers point into the body
  have hpointers : read.object.properties =
      propertyAddresses bufferFrom (chainProperties source.chain) := by
    obtain ⟨hdecode, -⟩ := Build.readObject_eq_some_iff.mp hread
    rw [Build.decode_c hreceiver, protoObjectRead_of_tiled receiver.toPlatform _ held 128 objectSize
      mem bufferFrom hbody, Option.some.injEq] at hdecode
    obtain ⟨props, hprops, hfits, -⟩ := haccepted
    obtain rfl : props = chainProperties source.chain := by
      rw [hbody, parseProperties_bodyBytes, Option.some.injEq] at hprops
      exact hprops.symm
    rw [← hdecode]
    exact congrArg (fun read : ReadOutcome => read.object.properties) (if_pos hfits.mod)
  have hcontents : read.object.contents mem' = chainProperties source.chain := by
    rw [ProtoObject.contents, hpointers]
    apply map_readProperty_propertyAddresses mem' (bufferFrom + objectSize.toNat)
    rw [Nat.add_sub_cancel_left, hsame.slice_eq, hbody]
  have hlooks := looksUp_of_contents mem' read.object key
  rw [hcontents] at hlooks
  exact ⟨hlooks, fun default => hlooks.getUint8Property default
    fun hnil => ne_nil_of_lookup hnil rfl⟩

/-- An object that declares a key twice, and a number of two bytes in between. -/
def twiceDeclared : ObjectSource where
  onHeap := false
  mem := fun _ => 0
  addr := 100
  bufferAvailable := 128
  chain := [declareArgProperty 3 [7], declareArgProperty 4 (u16Bytes 500),
    declareArgProperty 3 [9]]
  count_le := by decide

/-- From a Spectrum to a computer: the later byte is found, and the number. -/
theorem looksUp_received_of_two :
    let props := chainProperties twiceDeclared.chain
    let mem := storeAll (fun _ => 0) [⟨1000, [1, 0, 3, 7, 2, 0, 4, 0xF4, 1, 1, 0, 3, 9]⟩]
    (∃ read, Build.pc.readObject ⟨0, []⟩ 13 mem 1000 = some read ∧ read.result = 0 ∧
      ∀ mem', AgreeOn mem mem' 1000 13 → ∀ key, LooksUp mem' read.object props key ∧
        ∀ default, (getUint8PropertyLogged read.object key default).run mem' =
          lookupUint8 props key default) ∧
      lookupUint8 props 3 0 = 7 ∧ lookupUint16 props 4 0 = 500 := by
  refine ⟨?_, lookupUint8_declare 3 7 0 _, ?_⟩
  · exact looksUp_received .spectrum rfl twiceDeclared (by decide) (by decide) ⟨0, []⟩
  · have hnumber := lookupUint16_declare 4 500 0 [declareArgProperty 3 [9]]
    rw [lookupUint16] at hnumber ⊢
    rw [← hnumber]
    exact congrArg (fun found => Option.elim found _ _) (lookupSize_cons_of_ne (Or.inl (by decide)))

end ZxProto
