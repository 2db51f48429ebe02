import Mathlib.Data.List.Basic
import Mathlib.Tactic.Ring

/-!
# Bytes

Numbers as big-endian bytes and back, buffers that are written in stretches, and byte strings that are
blocks of one length in a row. A buffer is read by its index; its length is kept beside it where the
code checks it.
-/

namespace Zflow.Lib

/-! ## Numbers -/

/-- The low `n` bytes of a number, highest first. -/
def beBytes : Nat → Nat → List UInt8
  | 0, _ => []
  | n + 1, value => beBytes n (value / 256) ++ [UInt8.ofNat value]

/-- The number that bytes are, highest first. -/
def fromBe (bytes : List UInt8) : Nat := bytes.foldl (fun value byte => value * 256 + byte.toNat) 0

@[simp] theorem length_beBytes (n value : Nat) : (beBytes n value).length = n := by
  induction n generalizing value with
  | zero => rfl
  | succ n ih => simp [beBytes, ih]

theorem fromBe_append_singleton (bytes : List UInt8) (byte : UInt8) :
    fromBe (bytes ++ [byte]) = fromBe bytes * 256 + byte.toNat := by
  simp [fromBe]

theorem fromBe_beBytes {n value : Nat} (h : value < 256 ^ n) : fromBe (beBytes n value) = value := by
  induction n generalizing value with
  | zero =>
    rw [pow_zero] at h
    simp [beBytes, fromBe]
    omega
  | succ n ih =>
    have hdiv : value / 256 < 256 ^ n := by
      rw [Nat.div_lt_iff_lt_mul (by decide)]
      rwa [pow_succ] at h
    rw [beBytes, fromBe_append_singleton, ih hdiv, UInt8.toNat_ofNat']
    omega

/-! ## Stretches of bytes -/

/-- `len` bytes of a string, from some index on. -/
def slice (bytes : List UInt8) (start len : Nat) : List UInt8 := (bytes.drop start).take len

/-- The stretch that a string begins with. -/
theorem slice_left {bytes after : List UInt8} {len : Nat} (h : bytes.length = len) :
    slice (bytes ++ after) 0 len = bytes := by
  rw [slice, List.drop_zero, List.take_left' h]

/-- A stretch beyond what a string begins with. -/
theorem slice_right {before bytes : List UInt8} {start len : Nat} (h : before.length ≤ start) :
    slice (before ++ bytes) start len = slice bytes (start - before.length) len := by
  rw [slice, slice, List.drop_append, List.drop_eq_nil_of_le h, List.nil_append]

theorem getD_left {bytes after : List UInt8} {i : Nat} (h : i < bytes.length) :
    (bytes ++ after).getD i 0 = bytes.getD i 0 := by
  rw [List.getD_eq_getElem?_getD, List.getD_eq_getElem?_getD, List.getElem?_append_left h]

theorem getD_right {before bytes : List UInt8} {n i : Nat} (h : before.length = n) :
    (before ++ bytes).getD (n + i) 0 = bytes.getD i 0 := by
  subst h
  rw [List.getD_eq_getElem?_getD, List.getD_eq_getElem?_getD,
    List.getElem?_append_right (Nat.le_add_right _ _), Nat.add_sub_cancel_left]

/-- Bytes by their index. -/
abbrev Buffer := Nat → UInt8

/-- A stretch of a buffer. -/
def Buffer.slice (buffer : Buffer) (start len : Nat) : List UInt8 :=
  (List.range len).map fun i => buffer (start + i)

/-- A buffer with a stretch of it written over. -/
def Buffer.fill (buffer : Buffer) (start len : Nat) (value : Buffer) : Buffer := fun i =>
  if start ≤ i ∧ i < start + len then value (i - start) else buffer i

@[simp] theorem Buffer.length_slice (buffer : Buffer) (start len : Nat) : (buffer.slice start len).length = len := by
  simp [Buffer.slice]

theorem Buffer.getElem?_slice (buffer : Buffer) {start len i : Nat} (h : i < len) :
    (buffer.slice start len)[i]? = some (buffer (start + i)) := by
  simp [Buffer.slice, h]

theorem Buffer.slice_eq_iff {left right : Buffer} {l r len : Nat} :
    left.slice l len = right.slice r len ↔ ∀ i < len, left (l + i) = right (r + i) := by
  simp only [Buffer.slice, List.map_inj_left, List.mem_range]

/-- Rows that are written so far apart that they do not overlap. -/
theorem Buffer.fill_rows {stride len : Nat} (hlen : len ≤ stride) (value : Nat → Buffer) (buffer : Buffer) {n : Nat}
    {row k : Nat} (hrow : row < n) (hk : k < len) :
    (List.range n).foldl (fun buffer row => buffer.fill (row * stride) len (value row)) buffer (row * stride + k) =
      value row k := by
  induction n with
  | zero => omega
  | succ n ih =>
    rw [List.range_succ, List.foldl_append, List.foldl_cons, List.foldl_nil, Buffer.fill]
    rcases Nat.lt_or_eq_of_le (Nat.le_of_lt_succ hrow) with hlt | rfl
    · have hbefore : (row + 1) * stride ≤ n * stride := Nat.mul_le_mul_right _ hlt
      rw [Nat.add_mul, Nat.one_mul] at hbefore
      rw [if_neg (by omega)]
      exact ih hlt
    · rw [if_pos (by omega), Nat.add_sub_cancel_left]

/-! ## Blocks of one length -/

section Blocks

variable {α : Type} {f : Nat → List α} {n len : Nat}

theorem length_flatMap_range (h : ∀ i < n, (f i).length = len) : ((List.range n).flatMap f).length = n * len := by
  induction n with
  | zero => simp
  | succ n ih =>
    rw [List.range_succ, List.flatMap_append, List.length_append, ih fun i hi => h i (by omega),
      List.flatMap_singleton, h n (by omega)]
    ring

/-- Byte `j` of block `i`. -/
theorem getElem?_flatMap_range (h : ∀ i < n, (f i).length = len) {i j : Nat} (hi : i < n) (hj : j < len) :
    ((List.range n).flatMap f)[i * len + j]? = (f i)[j]? := by
  induction n with
  | zero => omega
  | succ n ih =>
    have hbefore : ((List.range n).flatMap f).length = n * len :=
      length_flatMap_range fun i hi => h i (by omega)
    rw [List.range_succ, List.flatMap_append, List.flatMap_singleton]
    rcases Nat.lt_or_eq_of_le (Nat.le_of_lt_succ hi) with hlt | rfl
    · have hin : i * len + j < n * len :=
        calc i * len + j < i * len + len := Nat.add_lt_add_left hj _
          _ = (i + 1) * len := by ring
          _ ≤ n * len := Nat.mul_le_mul_right _ hlt
      rw [List.getElem?_append_left (hbefore.symm ▸ hin)]
      exact ih (fun i hi => h i (by omega)) hlt
    · rw [List.getElem?_append_right (hbefore.symm ▸ Nat.le_add_right _ _), hbefore, Nat.add_sub_cancel_left]

end Blocks

end Zflow.Lib
