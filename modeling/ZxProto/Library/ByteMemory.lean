import Mathlib.Tactic

/-!
# Byte-addressed memory

A flat memory is a function from addresses to bytes.  This module supplies the
reads and writes that a C program performs on it, with the laws that relate
them:

* `slice` — the bytes read by a block copy out of memory;
* `store` and `storeAll` — one block write, and a sequence of block writes in
  program order, kept as data so that their footprint can be inspected;
* `Store.Within` and `Store.Avoids` — where a write lands;
* `Apart`, `AgreeOn`, `AgreeOff` — blocks, and memories that agree on them;
* `u16le`, `u16Bytes`, `littleEndian` — little-endian machine words.

Nothing here knows what the bytes mean.
-/

namespace ByteMemory

/-- A flat memory: one byte at every address. -/
abbrev Memory := Nat → UInt8

/-! ## Little-endian words -/

/-- The 16-bit word whose low byte is `lo`. -/
def u16le (lo hi : UInt8) : UInt16 :=
  UInt16.ofNat (lo.toNat + 256 * hi.toNat)

/-- The two bytes of a 16-bit word, low byte first. -/
def u16Bytes (w : UInt16) : List UInt8 :=
  [UInt8.ofNat w.toNat, UInt8.ofNat (w.toNat / 256)]

/-- The `width` little-endian bytes of a number, higher bits dropped. -/
def littleEndian : Nat → Nat → List UInt8
  | 0, _ => []
  | width + 1, value => UInt8.ofNat value :: littleEndian width (value / 256)

@[simp] theorem length_u16Bytes (w : UInt16) : (u16Bytes w).length = 2 := rfl

@[simp] theorem length_littleEndian (width value : Nat) :
    (littleEndian width value).length = width := by
  induction width generalizing value with
  | zero => rfl
  | succ width ih => simp [littleEndian, ih]

theorem toNat_u16le (lo hi : UInt8) :
    (u16le lo hi).toNat = lo.toNat + 256 * hi.toNat := by
  have hlo := lo.toNat_lt
  have hhi := hi.toNat_lt
  rw [u16le, UInt16.toNat_ofNat']
  omega

/-- Reading back the two bytes of a word gives the word. -/
@[simp] theorem u16le_u16Bytes (w : UInt16) :
    u16le (UInt8.ofNat w.toNat) (UInt8.ofNat (w.toNat / 256)) = w := by
  have hw := w.toNat_lt
  apply UInt16.toNat_inj.mp
  rw [toNat_u16le, UInt8.toNat_ofNat', UInt8.toNat_ofNat']
  omega

/-- Writing the word that was read from two bytes gives the bytes. -/
theorem u16Bytes_u16le (lo hi : UInt8) : u16Bytes (u16le lo hi) = [lo, hi] := by
  have hlo := lo.toNat_lt
  have hhi := hi.toNat_lt
  have hlow : UInt8.ofNat (lo.toNat + 256 * hi.toNat) = lo := by
    apply UInt8.toNat_inj.mp
    rw [UInt8.toNat_ofNat']
    omega
  have hhigh : UInt8.ofNat ((lo.toNat + 256 * hi.toNat) / 256) = hi := by
    apply UInt8.toNat_inj.mp
    rw [UInt8.toNat_ofNat']
    omega
  rw [u16Bytes, toNat_u16le, hlow, hhigh]

theorem u16Bytes_ofNat {n : Nat} (h : n < 65536) :
    u16Bytes (UInt16.ofNat n) = [UInt8.ofNat n, UInt8.ofNat (n / 256)] := by
  rw [u16Bytes, UInt16.toNat_ofNat_of_lt' h]

theorem toNat_u16le_ofNat {n : Nat} (h : n < 65536) :
    (u16le (UInt8.ofNat n) (UInt8.ofNat (n / 256))).toNat = n := by
  rw [toNat_u16le, UInt8.toNat_ofNat', UInt8.toNat_ofNat']
  omega

/-- A number that is not zero and fits the width has a byte that is not zero. -/
theorem littleEndian_ne_zero {width value : Nat} (hpos : 0 < value) (hlt : value < 256 ^ width) :
    littleEndian width value ≠ littleEndian width 0 := by
  induction width generalizing value with
  | zero => omega
  | succ width ih =>
      intro heq
      obtain ⟨hlow, hrest⟩ := List.cons.inj heq
      have hmod : value % 256 = 0 := by
        have := congrArg UInt8.toNat hlow
        rwa [UInt8.toNat_ofNat'] at this
      rw [Nat.pow_succ] at hlt
      exact ih (by omega) (by omega) hrest

/-! ## Reading -/

/-- The `n` bytes starting at address `a`. -/
def slice (mem : Memory) (a : Nat) : Nat → List UInt8
  | 0 => []
  | n + 1 => mem a :: slice mem (a + 1) n

@[simp] theorem slice_zero (mem : Memory) (a : Nat) : slice mem a 0 = [] := rfl

theorem slice_succ (mem : Memory) (a n : Nat) :
    slice mem a (n + 1) = mem a :: slice mem (a + 1) n := rfl

@[simp] theorem length_slice (mem : Memory) (a n : Nat) : (slice mem a n).length = n := by
  induction n generalizing a with
  | zero => rfl
  | succ n ih => simp [slice_succ, ih]

/-- A block read may be split anywhere. -/
theorem slice_add (mem : Memory) (a n k : Nat) :
    slice mem a (n + k) = slice mem a n ++ slice mem (a + n) k := by
  induction n generalizing a with
  | zero => simp
  | succ n ih =>
      rw [Nat.succ_add, slice_succ, slice_succ, ih, List.cons_append]
      congr 3
      omega

theorem take_slice (mem : Memory) (a : Nat) {n k : Nat} (h : k ≤ n) :
    (slice mem a n).take k = slice mem a k := by
  obtain ⟨m, rfl⟩ := Nat.exists_eq_add_of_le h
  rw [slice_add, List.take_left' (length_slice mem a k)]

theorem take_slice_min (mem : Memory) (a n k : Nat) :
    (slice mem a n).take k = slice mem a (min n k) := by
  rcases Nat.le_total k n with hle | hle
  · rw [take_slice mem a hle, Nat.min_eq_right hle]
  · rw [List.take_of_length_le (by rwa [length_slice]), Nat.min_eq_left hle]

theorem drop_slice (mem : Memory) (a : Nat) {n k : Nat} (h : k ≤ n) :
    (slice mem a n).drop k = slice mem (a + k) (n - k) := by
  obtain ⟨m, rfl⟩ := Nat.exists_eq_add_of_le h
  rw [slice_add, List.drop_left' (length_slice mem a k), Nat.add_sub_cancel_left]

theorem getElem_slice (mem : Memory) (a : Nat) {n k : Nat} (h : k < (slice mem a n).length) :
    (slice mem a n)[k] = mem (a + k) := by
  induction n generalizing a k with
  | zero => simp at h
  | succ n ih =>
      -- the index decides between the head and the block behind it
      cases k with
      | zero => simp [slice_succ]
      | succ k =>
          simp only [slice_succ, List.getElem_cons_succ]
          rw [ih, Nat.succ_add_eq_add_succ]

/-- A block read depends only on the block. -/
theorem slice_congr {mem mem' : Memory} {a n : Nat}
    (h : ∀ i, a ≤ i → i < a + n → mem i = mem' i) : slice mem a n = slice mem' a n := by
  induction n generalizing a with
  | zero => rfl
  | succ n ih =>
      rw [slice_succ, slice_succ, h a le_rfl (by omega),
        ih (fun i hi hlt => h i (by omega) (by omega))]

/-- A word is read from the two bytes that it takes. -/
theorem u16le_of_slice {mem : Memory} {a : Nat} {w : UInt16} (h : slice mem a 2 = u16Bytes w) :
    u16le (mem a) (mem (a + 1)) = w := by
  have hbytes : [mem a, mem (a + 1)] = u16Bytes w := h
  obtain ⟨hlo, hhi⟩ := List.cons.inj hbytes
  rw [hlo, (List.cons.inj hhi).1, u16le_u16Bytes]

/-! ## Writing -/

/-- One block write: the bytes, and the address of the first of them. -/
structure Store where
  addr : Nat
  bytes : List UInt8
deriving DecidableEq, Repr

/-- The write stays inside the `n` bytes from `a` on. -/
def Store.Within (s : Store) (a n : Nat) : Prop :=
  a ≤ s.addr ∧ s.addr + s.bytes.length ≤ a + n

/-- The write touches none of the `n` bytes from `a` on. -/
def Store.Avoids (s : Store) (a n : Nat) : Prop :=
  a + n ≤ s.addr ∨ s.addr + s.bytes.length ≤ a

instance (s : Store) (a n : Nat) : Decidable (s.Within a n) :=
  inferInstanceAs (Decidable (_ ∧ _))

instance (s : Store) (a n : Nat) : Decidable (s.Avoids a n) :=
  inferInstanceAs (Decidable (_ ∨ _))

/-- Memory after one block write. -/
def store (mem : Memory) (s : Store) : Memory :=
  fun i => if s.addr ≤ i ∧ i < s.addr + s.bytes.length then s.bytes.getD (i - s.addr) 0 else mem i

/-- Memory after block writes in program order. -/
def storeAll (mem : Memory) (stores : List Store) : Memory :=
  stores.foldl store mem

@[simp] theorem storeAll_nil (mem : Memory) : storeAll mem [] = mem := rfl

@[simp] theorem storeAll_cons (mem : Memory) (s : Store) (ss : List Store) :
    storeAll mem (s :: ss) = storeAll (store mem s) ss := rfl

theorem storeAll_append (mem : Memory) (ss ts : List Store) :
    storeAll mem (ss ++ ts) = storeAll (storeAll mem ss) ts :=
  List.foldl_append

theorem store_apply_of_avoids {s : Store} {a n i : Nat} (mem : Memory)
    (h : s.Avoids a n) (hlo : a ≤ i) (hhi : i < a + n) : store mem s i = mem i := by
  unfold store
  rw [if_neg]
  rcases h with h | h <;> omega

/-- A write elsewhere does not change a block read. -/
theorem slice_store_of_avoids {s : Store} {a n : Nat} (mem : Memory) (h : s.Avoids a n) :
    slice (store mem s) a n = slice mem a n :=
  slice_congr fun _ hlo hhi => store_apply_of_avoids mem h hlo hhi

/-- Reading back what was written. -/
@[simp] theorem slice_store_self (mem : Memory) (a : Nat) (bytes : List UInt8) :
    slice (store mem ⟨a, bytes⟩) a bytes.length = bytes := by
  apply List.ext_getElem (by simp)
  intro k _ hk
  rw [getElem_slice, store, if_pos ⟨Nat.le_add_right a k, Nat.add_lt_add_left hk a⟩]
  simp [hk]

/-- Writes elsewhere do not change a block read. -/
theorem slice_storeAll_of_avoids {ss : List Store} {a n : Nat} (mem : Memory)
    (h : ∀ s ∈ ss, s.Avoids a n) : slice (storeAll mem ss) a n = slice mem a n := by
  induction ss generalizing mem with
  | nil => rfl
  | cons s ss ih =>
      rw [storeAll_cons, ih _ (fun t ht => h t (List.mem_cons_of_mem s ht)),
        slice_store_of_avoids mem (h s List.mem_cons_self)]

/-! ## Blocks -/

/-- The two blocks do not overlap. -/
def Apart (a n b k : Nat) : Prop :=
  a + n ≤ b ∨ b + k ≤ a

instance (a n b k : Nat) : Decidable (Apart a n b k) :=
  inferInstanceAs (Decidable (_ ∨ _))

/-- The memories agree on the `n` bytes from `a` on. -/
def AgreeOn (mem mem' : Memory) (a n : Nat) : Prop :=
  ∀ i, a ≤ i → i < a + n → mem' i = mem i

/-- The memories agree but for the `n` bytes from `a` on. -/
def AgreeOff (mem mem' : Memory) (a n : Nat) : Prop :=
  ∀ i, (i < a ∨ a + n ≤ i) → mem' i = mem i

theorem Apart.symm {a n b k : Nat} (h : Apart a n b k) : Apart b k a n :=
  Or.symm h

/-- Parts of blocks that do not overlap do not overlap. -/
theorem Apart.mono {a n b k a' n' b' k' : Nat} (h : Apart a n b k) (ha : a ≤ a')
    (hn : a' + n' ≤ a + n) (hb : b ≤ b') (hk : b' + k' ≤ b + k) : Apart a' n' b' k' := by
  unfold Apart at h ⊢
  omega

/-- A write inside one block touches none that does not overlap it. -/
theorem Store.Within.avoids {s : Store} {a n b k : Nat} (h : s.Within a n)
    (hapart : Apart a n b k) : s.Avoids b k := by
  obtain ⟨hlo, hhi⟩ := h
  unfold Apart at hapart
  unfold Store.Avoids
  omega

theorem AgreeOn.slice_eq {mem mem' : Memory} {a n : Nat} (h : AgreeOn mem mem' a n) :
    slice mem' a n = slice mem a n :=
  slice_congr h

theorem AgreeOn.mono {mem mem' : Memory} {a n a' n' : Nat} (h : AgreeOn mem mem' a n)
    (ha : a ≤ a') (hn : a' + n' ≤ a + n) : AgreeOn mem mem' a' n' :=
  fun i hlo hhi => h i (by omega) (by omega)

theorem AgreeOff.refl (mem : Memory) (a n : Nat) : AgreeOff mem mem a n :=
  fun _ _ => rfl

theorem AgreeOff.trans {mem mem' mem'' : Memory} {a n : Nat} (h : AgreeOff mem mem' a n)
    (h' : AgreeOff mem' mem'' a n) : AgreeOff mem mem'' a n :=
  fun i hi => (h' i hi).trans (h i hi)

/-- What changes in one block leaves another alone. -/
theorem AgreeOff.agreeOn {mem mem' : Memory} {a n b k : Nat} (h : AgreeOff mem mem' a n)
    (hapart : Apart a n b k) : AgreeOn mem mem' b k := by
  intro i hlo hhi
  apply h
  unfold Apart at hapart
  omega

/-- A write changes the block that it lands in. -/
theorem agreeOff_store (mem : Memory) {s : Store} {a n : Nat} (h : s.Within a n) :
    AgreeOff mem (store mem s) a n := by
  intro i hi
  obtain ⟨hlo, hhi⟩ := h
  unfold store
  rw [if_neg]
  omega

/-- Writes change the block that they land in. -/
theorem agreeOff_storeAll {ss : List Store} {a n : Nat} (mem : Memory)
    (h : ∀ s ∈ ss, s.Within a n) : AgreeOff mem (storeAll mem ss) a n := by
  induction ss generalizing mem with
  | nil => exact AgreeOff.refl mem a n
  | cons s ss ih =>
      rw [storeAll_cons]
      exact (agreeOff_store mem (h s List.mem_cons_self)).trans
        (ih _ fun t ht => h t (List.mem_cons_of_mem s ht))

end ByteMemory
