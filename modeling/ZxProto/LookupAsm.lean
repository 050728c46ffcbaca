import ZxProto.AccessorsAgreement
import ZxProto.Lookup

/-!
# What is declared is found on the Spectrum

The receiver on a Spectrum is machine code from the first byte to the last: `_proto_object_read`
builds the object, and the routines of `proto_objects.asm` search it.

* `RoutinesLookUp`, `ObjectPlaced.looksUp` — the routines on an object in memory;
* `ObjectLeft` — what a later call still finds of an object that was read;
* `routinesLookUp_received` — the routines on an object that was built, sent and read.
-/

namespace ZxProto

open ByteMemory ReadLog Z80Accumulator
open Z80 hiding run step run_add run_of_returned

/-- The routines look up in a list of properties.  `_get_uint8_property` looks for a value of one
byte. -/
structure RoutinesLookUp (m : Machine) (ret obj keyWord defaultWord : UInt16)
    (props : List Property) : Prop where
  getUint16Property :
    Returns getUint16PropertyAsm (m.call [ret, defaultWord, keyWord, obj]) ret fun t =>
      t.hl = lookupUint16 props (lo keyWord) defaultWord
  getUint8Property :
    Returns getUint8PropertyAsm (m.call [ret, defaultWord, keyWord, obj]) ret fun t =>
      t.hl = u16le ((lookupSize props (lo keyWord) 1).elim (lo defaultWord) (·.headD 0)) 0
  findProperty :
    Returns findPropertyAsm (m.call [ret, keyWord, obj]) ret fun t =>
      (lookup props (lo keyWord)).elim (t.hl = 0) fun value =>
        t.hl ≠ 0 ∧ protoPropertyValue m.mem t.hl.toNat = value
  getPropertyPtr :
    Returns getPropertyPtrAsm (m.call [ret, keyWord, obj]) ret fun t =>
      (lookup props (lo keyWord)).elim (t.hl = 0) fun value =>
        slice m.mem t.hl.toNat value.length = value

section Placed

variable {m : Machine} {obj : UInt16} {o : ProtoObject}

/-- What is found is a property of the object. -/
theorem ObjectPlaced.mem_of_findProperty {key : UInt8} {p : Nat}
    (hfound : ZxProto.findProperty m.mem o key = some p) : p ∈ o.properties :=
  List.mem_of_find?_eq_some hfound

theorem ObjectPlaced.oneByteValue_eq_lookup (key default : UInt8) :
    oneByteValue m.mem o key default =
      (lookupSize (o.contents m.mem) key 1).elim default (·.headD 0) := by
  rw [oneByteValue, ← map_findPropertySize]
  cases hfound : (findPropertySize o key 1).run m.mem with
  | none =>
      rw [run_findPropertySize] at hfound
      rw [hfound]
      rfl
  | some p =>
      rw [Option.map_some, value_of_findPropertySize hfound]
      rw [run_findPropertySize] at hfound
      rw [hfound]
      rfl

/-- **The routines see an object only through its properties.** -/
theorem ObjectPlaced.looksUp (h : ObjectPlaced m obj o) (ret keyWord defaultWord : UInt16) :
    RoutinesLookUp m ret obj keyWord defaultWord (o.contents m.mem) where
  getUint16Property :=
    (h.getUint16Property ret keyWord defaultWord).mono fun t hhl =>
      hhl.trans ((looksUp_of_contents m.mem o (lo keyWord)).getUint16Property defaultWord)
  getUint8Property := by
    have hreturns := h.getUint8PropertyAsm_returns ret keyWord defaultWord
    rwa [oneByteValue_eq_lookup] at hreturns
  findProperty := by
    refine (h.findProperty ret keyWord).mono fun t hhl => ?_
    rw [← map_findProperty]
    rw [run_findPropertyLogged] at hhl ⊢
    cases hfound : ZxProto.findProperty m.mem o (lo keyWord) with
    | none => rwa [hfound] at hhl
    | some p =>
        have hmem := mem_of_findProperty hfound
        have hlt := (h.pointers p hmem).2
        rw [hfound, pointerWord, Option.elim_some] at hhl
        rw [Option.map_some, Option.elim_some, hhl,
          UInt16.toNat_ofNat_of_lt' (show p < 65536 by omega)]
        exact ⟨h.noNull p hmem, rfl⟩
  getPropertyPtr := by
    refine (h.getPropertyPtr ret keyWord).mono fun t hhl => ?_
    rw [← map_findProperty, run_findPropertyLogged]
    rw [run_getPropertyPtrLogged] at hhl
    cases hfound : ZxProto.findProperty m.mem o (lo keyWord) with
    | none => rwa [hfound] at hhl
    | some p =>
        have hlt := (h.pointers p (mem_of_findProperty hfound)).2
        have hsize := size_readProperty m.mem p
        rw [hfound, Option.map_some, pointerWord, Option.elim_some] at hhl
        rw [Option.map_some, Option.elim_some, hhl, protoPropertyValue, length_slice,
          UInt16.toNat_ofNat_of_lt' (show p + sizeofProtoObjectProperty < 65536 by omega)]

end Placed

/-! ## After the decoder -/

section Received

variable {props : List Property} {s : State}

/-- A later call on the object that was read from a body: the table and the body are as the decoder
left them, and its stack lies apart from both. -/
structure ObjectLeft (s : State) (count : Nat) (mem : Memory) (m : Machine) : Prop where
  table : AgreeOn mem m.mem (objArg s).toNat (sizeofProtoObject + tableSize count)
  body : AgreeOn mem m.mem (bufferFromArg s).toNat (objectSizeArg s).toNat
  stackInside : m.sp.toNat + 8 ≤ 65536
  tableStack : Apart (objArg s).toNat (sizeofProtoObject + tableSize count) m.sp.toNat 8
  bodyStack : Apart (bufferFromArg s).toNat (objectSizeArg s).toNat m.sp.toNat 8

/-- `_proto_object_read` leaves the object, and the body where it was. -/
theorem Placed.asmLeaves (h : Placed props s) (hne : props ≠ []) :
    ∃ n, let t := Z80.run protoObjectReadAsm n (atEntry s)
      t.control = .returned (returnAddress s) ∧ t.get8 .l = 0 ∧
        HoldsObject t.mem (objArg s).toNat (shownObject props s) ∧
        slice t.mem (bufferFromArg s).toNat (objectSizeArg s).toNat = bodyBytes props := by
  obtain ⟨n, hcontrol, hzero, hholds⟩ := h.asmReads hne
  obtain ⟨hleaves, hfinish⟩ := h.leavesAfter hne
  obtain ⟨-, -, hbody⟩ := h.slices
  refine ⟨n, hcontrol, hzero, hholds, ?_⟩
  rw [(Returned.of_control hleaves hcontrol).mem, hfinish, slice_storeAll_of_avoids _ _, hbody]
  intro t ht
  apply (tableStores_within _ _ _ t ht).avoids
  rw [shownObject, length_propertyAddresses]
  exact h.bodyTable.symm.mono (Nat.le_add_right _ _) (Nat.le_of_eq (Nat.add_assoc _ _ _))
    le_rfl le_rfl

/-- A later call finds the object. -/
theorem ObjectLeft.objectPlaced {mem : Memory} {m : Machine}
    (hleft : ObjectLeft s props.length mem m) (h : Placed props s) (hpos : 0 < bufferFromArg s)
    (hholds : HoldsObject mem (objArg s).toNat (shownObject props s))
    (hbody : slice mem (bufferFromArg s).toNat (objectSizeArg s).toNat = bodyBytes props) :
    ObjectPlaced m (objArg s) (shownObject props s) ∧
      (shownObject props s).contents m.mem = props := by
  have hkept : slice m.mem (bufferFromArg s).toNat
      ((bufferFromArg s).toNat + (objectSizeArg s).toNat - (bufferFromArg s).toNat) =
        bodyBytes props := by
    rw [Nat.add_sub_cancel_left, hleft.body.slice_eq, hbody]
  have hlength : (shownObject props s).properties.length = props.length :=
    length_propertyAddresses _ _
  have hends : ∀ p ∈ (shownObject props s).properties, (bufferFromArg s).toNat ≤ p ∧
      p + (readProperty m.mem p).size ≤ (bufferFromArg s).toNat + (objectSizeArg s).toNat :=
    fun p hp => end_le_of_mem_propertyAddresses hkept hp
  have hinside := h.bodyInside
  have hfrom : 0 < (bufferFromArg s).toNat := hpos
  refine ⟨⟨?_, ?_, ?_, hleft.stackInside, ?_, ?_⟩, ?_⟩
  · have htable : (objectTable Platform.spectrum (shownObject props s)).length =
        sizeofProtoObject + tableSize props.length := by
      rw [length_objectTable, hlength, tableSize]
    unfold HoldsObject at hholds ⊢
    rw [htable] at hholds ⊢
    rw [hleft.table.slice_eq, hholds]
  · intro p hp
    have hend := hends p hp
    omega
  · rw [hlength]
    exact h.tableInside
  · rw [hlength]
    exact hleft.tableStack
  · intro p hp
    have hend := hends p hp
    exact hleft.bodyStack.mono hend.1 hend.2 le_rfl le_rfl
  · exact map_readProperty_propertyAddresses m.mem _ hkept

/-- **What is declared is found on the Spectrum.**  An object is built from a chain and sent.  Where
the bytes have arrived, `_proto_object_read` returns 0, and every later call of the routines on the
object that it has left, for any key, looks up in the chain. -/
theorem routinesLookUp_received (sender : Platform) (source : ObjectSource)
    (hsize : (bodyBytes (chainProperties source.chain)).length < 65536)
    (hreceived : slice s.mem (bufferFromArg s).toNat (objectSizeArg s).toNat =
      sentBody sender (source.build sender))
    (hplaced : Placed props s) (hne : props ≠ []) (hpos : 0 < bufferFromArg s) :
    ∃ n, let t := Z80.run protoObjectReadAsm n (atEntry s)
      t.control = .returned (returnAddress s) ∧ t.get8 .l = 0 ∧
        ∀ m, ObjectLeft s props.length t.mem m → ∀ ret keyWord defaultWord,
          RoutinesLookUp m ret (objArg s) keyWord defaultWord (chainProperties source.chain) := by
  obtain ⟨n, hcontrol, hzero, hholds, hbody⟩ := hplaced.asmLeaves hne
  have hsent : bodyBytes props = bodyBytes (chainProperties source.chain) :=
    hplaced.body.symm.trans (hreceived.trans (source.represents_build sender hsize).sentBody_eq)
  have hprops : props = chainProperties source.chain :=
    bodyBytes_injective hsent
  refine ⟨n, hcontrol, hzero, fun m hleft ret keyWord defaultWord => ?_⟩
  obtain ⟨hthere, hcontents⟩ := hleft.objectPlaced hplaced hpos hholds hbody
  have hlooks := hthere.looksUp ret keyWord defaultWord
  rwa [hcontents, hprops] at hlooks

end Received

/-- A call on a body that declares the key 3 twice. -/
def twiceDeclaredCall : State :=
  readCall (storeAll (fun _ => 0) [⟨32768, [1, 0, 3, 7, 2, 0, 4, 0xF4, 1, 1, 0, 3, 9]⟩]) 32768 13
    128 36864

theorem placed_twiceDeclaredCall :
    Placed [⟨3, [7], by decide⟩, ⟨4, [0xF4, 1], by decide⟩, ⟨3, [9], by decide⟩]
      twiceDeclaredCall := by
  refine ⟨?_, ?_, ?_, ?_, ?_, ?_, ?_, ?_⟩ <;> decide +kernel

/-- From a computer to a Spectrum: the later byte is found. -/
theorem routinesLookUp_received_of_two :
    (∃ n, let t := Z80.run protoObjectReadAsm n (atEntry twiceDeclaredCall)
      t.control = .returned (returnAddress twiceDeclaredCall) ∧ t.get8 .l = 0 ∧
        ∀ m, ObjectLeft twiceDeclaredCall 3 t.mem m → ∀ ret keyWord defaultWord,
          RoutinesLookUp m ret (objArg twiceDeclaredCall) keyWord defaultWord
            (chainProperties twiceDeclared.chain)) ∧
      (lookupSize (chainProperties twiceDeclared.chain) 3 1).elim 0 (·.headD 0) = 7 := by
  refine ⟨?_, rfl⟩
  exact routinesLookUp_received .pc twiceDeclared (by decide) (by decide +kernel)
    placed_twiceDeclaredCall (List.cons_ne_nil _ _) (by decide)

end ZxProto
