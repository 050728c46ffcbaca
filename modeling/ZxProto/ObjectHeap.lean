import ZxProto.ObjectCopy

/-!
# Built objects in one memory

Objects that were built by `proto_object_assign`, `proto_object_allocate` and
`proto_object_copy`, side by side in one memory.  Each takes a block: the size field,
the pointers and the NULL, seven reserved bytes, the data.

* `Block`, `Block.Stands` — a block, and that the memory holds it;
* `Built` — the memories that the constructors make, with their blocks;
* `Heap`, `Built.heap` — in these memories, every block stands and none overlaps
  another;
* `OnlyReserved`, `Heap.congr` — what is written into reserved bytes only changes no
  block.
-/

namespace ZxProto

open ByteMemory

section ObjectHeap

variable (pl : Platform)

/-! ## Blocks -/

/-- The block of a built object: where it is, and the properties that it shows. -/
structure Block where
  addr : Nat
  properties : List Property

/-- The object at the front of the block. -/
def Block.object (b : Block) : ProtoObject where
  objectSize := UInt16.ofNat (bodyBytes b.properties).length
  properties := propertyAddresses (b.addr + dataOffset pl b.properties.length) b.properties

/-- The bytes of the size field, the pointers and the NULL. -/
def Block.tableSize (b : Block) : Nat :=
  sizeofProtoObject + (b.properties.length + 1) * pl.pointerSize

/-- The bytes that the block takes. -/
def Block.size (b : Block) : Nat :=
  dataOffset pl b.properties.length + (bodyBytes b.properties).length

/-- The memory holds the block: an object that the senders can count and whose size
fits its field, in the address space of the pointers. -/
structure Block.Stands (mem : Memory) (b : Block) : Prop where
  count_le : b.properties.length ≤ 255
  size_lt : (bodyBytes b.properties).length < 65536
  inside : b.addr + b.size pl ≤ 256 ^ pl.pointerSize
  table : slice mem b.addr (b.tableSize pl) = objectTable pl (b.object pl)
  data : slice mem (b.addr + dataOffset pl b.properties.length) (bodyBytes b.properties).length =
    bodyBytes b.properties

/-- The reserved bytes lie between the table and the data. -/
theorem Block.dataOffset_eq (b : Block) :
    dataOffset pl b.properties.length = b.tableSize pl + sizeofProtoObjectRequestHeader := rfl

variable {pl}

/-- A block does not depend on its reserved bytes. -/
theorem Block.Stands.congr {mem mem' : Memory} {b : Block} (h : b.Stands pl mem)
    (htable : AgreeOn mem mem' b.addr (b.tableSize pl))
    (hdata : AgreeOn mem mem' (b.addr + dataOffset pl b.properties.length)
      (bodyBytes b.properties).length) : b.Stands pl mem' :=
  ⟨h.count_le, h.size_lt, h.inside, htable.slice_eq.trans h.table, hdata.slice_eq.trans h.data⟩

theorem Block.Stands.congr_block {mem mem' : Memory} {b : Block} (h : b.Stands pl mem)
    (hkept : AgreeOn mem mem' b.addr (b.size pl)) : b.Stands pl mem' := by
  have hoffset := b.dataOffset_eq pl
  unfold Block.size at hkept
  apply h.congr
  · exact hkept.mono le_rfl (by omega)
  · exact hkept.mono (by omega) (by omega)

theorem Block.Stands.congr_reserved {mem mem' : Memory} {b : Block} (h : b.Stands pl mem)
    (hoff : AgreeOff mem mem' (b.addr + b.tableSize pl) sizeofProtoObjectRequestHeader) :
    b.Stands pl mem' := by
  have hoffset := b.dataOffset_eq pl
  apply h.congr
  · exact hoff.agreeOn (Or.inr le_rfl)
  · exact hoff.agreeOn (Or.inl (by omega))

/-- The block, as the senders see it. -/
theorem Block.Stands.laidOut {mem : Memory} {b : Block} (h : b.Stands pl mem)
    (hcount : (b.object pl).properties.length ≤ 255) :
    (⟨b.addr, mem, b.object pl, hcount⟩ : OwnedObject).LaidOut pl b.properties :=
  ⟨h.size_lt, rfl, rfl, h.data⟩

/-! ## The constructors -/

/-- `proto_object_allocate` asks `malloc` for the block. -/
theorem allocationSize_eq {chain : List ProtoStackObjectProperty} (rawMalloc : Nat)
    (hcount : (chainProperties chain).length ≤ 255)
    (hsize : (bodyBytes (chainProperties chain)).length < 65536) :
    allocationSize pl chain = Block.size pl ⟨rawMalloc, chainProperties chain⟩ := by
  have hsum : (countChain chain 0 0).1.toNat = (bodyBytes (chainProperties chain)).length := by
    rw [countChain_eq, UInt16.zero_add, UInt16.toNat_ofNat_of_lt' hsize]
  simp only [allocationSize, Block.size, dataOffset, toNat_countChain_snd hcount, hsum]
  omega

/-- So does `proto_object_copy`. -/
theorem blockSize_eq_size {mem : Memory} {obj : ProtoObject} {props : List Property}
    (hcontents : obj.contents mem = props) (hsize : (bodyBytes props).length < 65536)
    (hobjectSize : obj.objectSize = UInt16.ofNat (bodyBytes props).length) (rawMalloc : Nat) :
    blockSize pl obj = Block.size pl ⟨rawMalloc, props⟩ := by
  have hnumber : obj.properties.length = props.length := by
    rw [← hcontents, ProtoObject.contents, List.length_map]
  rw [blockSize, Block.size, hnumber, hobjectSize, UInt16.toNat_ofNat_of_lt' hsize]

theorem stands_layOut (mem : Memory) {obj : Nat} {chain : List ProtoStackObjectProperty}
    (hcount : (chainProperties chain).length ≤ 255)
    (hsize : (bodyBytes (chainProperties chain)).length < 65536)
    (hinside : obj + Block.size pl ⟨obj, chainProperties chain⟩ ≤ 256 ^ pl.pointerSize) :
    Block.Stands pl (layOut pl mem obj chain hcount).mem ⟨obj, chainProperties chain⟩ := by
  have hlaid := laidOut_layOut pl mem obj chain hcount hsize
  have hobject : (layOut pl mem obj chain hcount).object =
      Block.object pl ⟨obj, chainProperties chain⟩ :=
    ProtoObject.ext hlaid.objectSize hlaid.properties
  refine ⟨hcount, hsize, hinside, ?_, hlaid.data⟩
  rw [← hobject]
  exact slice_layOut_table pl mem obj chain hcount

theorem stands_protoObjectCopy {mem : Memory} {obj : ProtoObject} {props : List Property}
    (hcontents : obj.contents mem = props) (hsize : (bodyBytes props).length < 65536)
    (hobjectSize : obj.objectSize = UInt16.ofNat (bodyBytes props).length) {rawMalloc : Nat}
    (hcount : obj.properties.length ≤ 255)
    (hinside : rawMalloc + Block.size pl ⟨rawMalloc, props⟩ ≤ 256 ^ pl.pointerSize)
    (hsource : ∀ property ∈ obj.properties,
      Apart property (readProperty mem property).size rawMalloc (blockSize pl obj)) :
    Block.Stands pl (protoObjectCopy pl mem obj rawMalloc hcount).mem ⟨rawMalloc, props⟩ := by
  obtain ⟨hlaid, -⟩ :=
    laidOut_protoObjectCopy pl hcontents hsize hobjectSize hcount hsource
  have hnumber : obj.properties.length = props.length := by
    rw [← hcontents, ProtoObject.contents, List.length_map]
  have hobject : (protoObjectCopy pl mem obj rawMalloc hcount).object =
      Block.object pl ⟨rawMalloc, props⟩ :=
    ProtoObject.ext hlaid.objectSize hlaid.properties
  refine ⟨hnumber ▸ hcount, hsize, hinside, ?_, hlaid.data⟩
  rw [← hobject, Block.tableSize, ← hnumber]
  exact slice_protoObjectCopy_table pl mem obj rawMalloc hcount

variable (pl)

/-- The memories that a program makes with the constructors, and the blocks of its
objects.  A new block overlaps none that is in use; a source of a copy is any object
whose size field is the size of what it shows.  Everything outside the blocks may
change, and a block may be given up. -/
inductive Built : Memory → List Block → Prop
  | start (mem : Memory) : Built mem []
  | elsewhere {mem : Memory} {blocks : List Block} (mem' : Memory) (h : Built mem blocks)
      (hkept : ∀ b ∈ blocks, AgreeOn mem mem' b.addr (b.size pl)) : Built mem' blocks
  | free {mem : Memory} {before after : List Block} (b : Block)
      (h : Built mem (before ++ b :: after)) : Built mem (before ++ after)
  | assign {mem : Memory} {blocks : List Block} (h : Built mem blocks) (obj : Nat)
      (bufferAvailable : UInt16) (lastProperty : List ProtoStackObjectProperty)
      (hcount : (chainProperties lastProperty).length ≤ 255)
      (hsize : (bodyBytes (chainProperties lastProperty)).length < 65536)
      (hinside : obj + Block.size pl ⟨obj, chainProperties lastProperty⟩ ≤ 256 ^ pl.pointerSize)
      (hfresh : ∀ b ∈ blocks, Apart b.addr (b.size pl) obj
        (Block.size pl ⟨obj, chainProperties lastProperty⟩)) :
      Built (protoObjectAssign pl mem obj bufferAvailable lastProperty hcount).mem
        (⟨obj, chainProperties lastProperty⟩ :: blocks)
  | allocate {mem : Memory} {blocks : List Block} (h : Built mem blocks) (rawMalloc : Nat)
      (lastProperty : List ProtoStackObjectProperty)
      (hcount : (chainProperties lastProperty).length ≤ 255)
      (hsize : (bodyBytes (chainProperties lastProperty)).length < 65536)
      (hinside : rawMalloc + Block.size pl ⟨rawMalloc, chainProperties lastProperty⟩ ≤
        256 ^ pl.pointerSize)
      (hfresh : ∀ b ∈ blocks, Apart b.addr (b.size pl) rawMalloc
        (Block.size pl ⟨rawMalloc, chainProperties lastProperty⟩)) :
      Built (protoObjectAllocate pl mem rawMalloc lastProperty hcount).mem
        (⟨rawMalloc, chainProperties lastProperty⟩ :: blocks)
  | copy {mem : Memory} {blocks : List Block} (h : Built mem blocks) {obj : ProtoObject}
      {props : List Property} (hcontents : obj.contents mem = props)
      (hsize : (bodyBytes props).length < 65536)
      (hobjectSize : obj.objectSize = UInt16.ofNat (bodyBytes props).length) (rawMalloc : Nat)
      (hcount : obj.properties.length ≤ 255)
      (hinside : rawMalloc + Block.size pl ⟨rawMalloc, props⟩ ≤ 256 ^ pl.pointerSize)
      (hsource : ∀ property ∈ obj.properties,
        Apart property (readProperty mem property).size rawMalloc (blockSize pl obj))
      (hfresh : ∀ b ∈ blocks, Apart b.addr (b.size pl) rawMalloc
        (Block.size pl ⟨rawMalloc, props⟩)) :
      Built (protoObjectCopy pl mem obj rawMalloc hcount).mem (⟨rawMalloc, props⟩ :: blocks)

/-- Every block stands, and no two overlap. -/
structure Heap (mem : Memory) (blocks : List Block) : Prop where
  stands : ∀ b ∈ blocks, b.Stands pl mem
  apart : ∀ b ∈ blocks, ∀ b' ∈ blocks,
    b = b' ∨ Apart b.addr (b.size pl) b'.addr (b'.size pl)

variable {pl}

/-- A new block joins the others, if nothing outside it was written. -/
theorem Heap.cons {mem mem' : Memory} {blocks : List Block} (h : Heap pl mem blocks) {b : Block}
    (hstands : b.Stands pl mem') (hoff : AgreeOff mem mem' b.addr (b.size pl))
    (hfresh : ∀ b' ∈ blocks, Apart b'.addr (b'.size pl) b.addr (b.size pl)) :
    Heap pl mem' (b :: blocks) := by
  constructor
  · intro b' hb'
    rcases List.mem_cons.mp hb' with rfl | hb'
    · exact hstands
    · exact (h.stands b' hb').congr_block (hoff.agreeOn (hfresh b' hb').symm)
  · intro b₁ hb₁ b₂ hb₂
    rcases List.mem_cons.mp hb₁ with rfl | hold₁
    · rcases List.mem_cons.mp hb₂ with rfl | hold₂
      · exact Or.inl rfl
      · exact Or.inr (hfresh b₂ hold₂).symm
    · rcases List.mem_cons.mp hb₂ with rfl | hold₂
      · exact Or.inr (hfresh b₁ hold₁)
      · exact h.apart b₁ hold₁ b₂ hold₂

/-- **What the constructors make is a heap of blocks.** -/
theorem Built.heap {mem : Memory} {blocks : List Block} (h : Built pl mem blocks) :
    Heap pl mem blocks := by
  induction h with
  | start mem =>
      exact ⟨fun b hb => absurd hb List.not_mem_nil, fun b hb => absurd hb List.not_mem_nil⟩
  | elsewhere mem' _ hkept ih =>
      exact ⟨fun b hb => (ih.stands b hb).congr_block (hkept b hb), ih.apart⟩
  | @free mem before after b _ ih =>
      have hsub : ∀ b' ∈ before ++ after, b' ∈ before ++ b :: after := by
        intro b' hb'
        rcases List.mem_append.mp hb' with hb' | hb'
        · exact List.mem_append_left _ hb'
        · exact List.mem_append_right _ (List.mem_cons_of_mem _ hb')
      exact ⟨fun b' hb' => ih.stands b' (hsub b' hb'),
        fun b₁ hb₁ b₂ hb₂ => ih.apart b₁ (hsub b₁ hb₁) b₂ (hsub b₂ hb₂)⟩
  | @assign mem blocks _ obj bufferAvailable chain hcount hsize hinside hfresh ih =>
      exact ih.cons (stands_layOut mem hcount hsize hinside)
        (agreeOff_layOut pl mem obj chain hcount) hfresh
  | @allocate mem blocks _ rawMalloc chain hcount hsize hinside hfresh ih =>
      exact ih.cons (stands_layOut mem hcount hsize hinside)
        (agreeOff_layOut pl mem rawMalloc chain hcount) hfresh
  | @copy mem blocks _ obj props hcontents hsize hobjectSize rawMalloc hcount hinside hsource
      hfresh ih =>
      obtain ⟨-, hoff⟩ := laidOut_protoObjectCopy pl hcontents hsize hobjectSize hcount hsource
      rw [blockSize_eq_size hcontents hsize hobjectSize rawMalloc] at hoff
      exact ih.cons
        (stands_protoObjectCopy hcontents hsize hobjectSize hcount hinside hsource) hoff hfresh

/-! ## Reserved bytes -/

variable (pl)

/-- The memories differ in reserved bytes of the blocks only. -/
def OnlyReserved (blocks : List Block) (mem mem' : Memory) : Prop :=
  ∀ i, mem' i = mem i ∨ ∃ b ∈ blocks, b.addr + b.tableSize pl ≤ i ∧
    i < b.addr + b.tableSize pl + sizeofProtoObjectRequestHeader

variable {pl}

theorem OnlyReserved.refl (blocks : List Block) (mem : Memory) : OnlyReserved pl blocks mem mem :=
  fun _ => Or.inl rfl

theorem OnlyReserved.trans {blocks : List Block} {mem mem' mem'' : Memory}
    (h : OnlyReserved pl blocks mem mem') (h' : OnlyReserved pl blocks mem' mem'') :
    OnlyReserved pl blocks mem mem'' := by
  intro i
  rcases h' i with heq | hreserved
  · rw [heq]
    exact h i
  · exact Or.inr hreserved

theorem OnlyReserved.mono {blocks blocks' : List Block} {mem mem' : Memory}
    (h : OnlyReserved pl blocks mem mem') (hsub : ∀ b ∈ blocks, b ∈ blocks') :
    OnlyReserved pl blocks' mem mem' := by
  intro i
  rcases h i with heq | ⟨b, hb, hreserved⟩
  · exact Or.inl heq
  · exact Or.inr ⟨b, hsub b hb, hreserved⟩

/-- A write into the reserved bytes of a block. -/
theorem onlyReserved_of_agreeOff {b : Block} {blocks : List Block} (hb : b ∈ blocks)
    {mem mem' : Memory} (h : AgreeOff mem mem' (b.addr + b.tableSize pl)
      sizeofProtoObjectRequestHeader) : OnlyReserved pl blocks mem mem' := by
  intro i
  by_cases hi : i < b.addr + b.tableSize pl ∨
      b.addr + b.tableSize pl + sizeofProtoObjectRequestHeader ≤ i
  · exact Or.inl (h i hi)
  · exact Or.inr ⟨b, hb, by omega, by omega⟩

/-- No reserved byte lies in the table or the data of a block. -/
theorem OnlyReserved.agreeOn {mem mem' : Memory} {blocks : List Block}
    (h : OnlyReserved pl blocks mem mem') (hheap : Heap pl mem blocks) {b : Block}
    (hb : b ∈ blocks) :
    AgreeOn mem mem' b.addr (b.tableSize pl) ∧
      AgreeOn mem mem' (b.addr + dataOffset pl b.properties.length)
        (bodyBytes b.properties).length := by
  have hkept : ∀ i, b.addr ≤ i → i < b.addr + b.size pl →
      (i < b.addr + b.tableSize pl ∨ b.addr + dataOffset pl b.properties.length ≤ i) →
      mem' i = mem i := by
    intro i hlo hhi hout
    rcases h i with heq | ⟨b', hb', hlo', hhi'⟩
    · exact heq
    · exfalso
      have hoffset := b.dataOffset_eq pl
      have hoffset' := b'.dataOffset_eq pl
      rcases hheap.apart b hb b' hb' with rfl | hapart
      · omega
      · unfold Apart Block.size at hapart
        unfold Block.size at hhi
        omega
  have hoffset := b.dataOffset_eq pl
  unfold Block.size at hkept
  constructor
  · intro i hlo hhi
    exact hkept i hlo (by omega) (Or.inl hhi)
  · intro i hlo hhi
    exact hkept i (by omega) (by omega) (Or.inr hlo)

/-- Whatever is written into reserved bytes, the heap is the same. -/
theorem Heap.congr {mem mem' : Memory} {blocks : List Block} (h : Heap pl mem blocks)
    (honly : OnlyReserved pl blocks mem mem') : Heap pl mem' blocks := by
  refine ⟨fun b hb => ?_, h.apart⟩
  obtain ⟨htable, hdata⟩ := honly.agreeOn h hb
  exact (h.stands b hb).congr htable hdata

end ObjectHeap

end ZxProto
