import Mathlib.Tactic.Linarith

/-!
# Checked machine arithmetic

Rust's `checked_add`, `checked_sub` and `saturating_add` over unbounded integers: an `i64` is an
`Int` and a `u64` a `Nat`, and the checked operations answer `none` where the exact result leaves
the machine range. The plain `+` of an optimized build wraps around (`wrapI64`); a sum that stays
in range is the exact one (`wrapI64_of_inI64`), which is how "this addition cannot overflow" is
said of a model.

`Between` is the relation of a limiter to its input: a value on the way from zero to a bound.
-/

namespace Zflow.Lib

/-- `i64::MIN`. -/
def i64Min : Int := -9223372036854775808

/-- `i64::MAX`. -/
def i64Max : Int := 9223372036854775807

/-- `u64::MAX`. -/
def u64Max : Nat := 18446744073709551615

/-- The integers an `i64` holds. -/
def InI64 (x : Int) : Prop := i64Min ≤ x ∧ x ≤ i64Max

instance (x : Int) : Decidable (InI64 x) := inferInstanceAs (Decidable (_ ∧ _))

/-- The checked result of an `i64` operation whose exact value is `x`. -/
def checkedI64 (x : Int) : Option Int := if InI64 x then some x else none

/-- The wrapped result of an `i64` operation whose exact value is `x`. -/
def wrapI64 (x : Int) : Int := Int.bmod x 18446744073709551616

/-- An exact value as an `i32`, where one holds it. -/
def checkedI32 (x : Int) : Option Int := if -2 ^ 31 ≤ x ∧ x < 2 ^ 31 then some x else none

/-- An exact value as a `u32`, where one holds it. -/
def checkedU32 (x : Int) : Option Nat := if 0 ≤ x ∧ x < 2 ^ 32 then some x.toNat else none

/-- `u64::checked_add`. -/
def checkedAddU64 (a b : Nat) : Option Nat := if a + b ≤ u64Max then some (a + b) else none

/-- `u64::checked_sub`. -/
def checkedSubU64 (a b : Nat) : Option Nat := if b ≤ a then some (a - b) else none

/-- `u64::checked_mul`. -/
def checkedMulU64 (a b : Nat) : Option Nat := if a * b ≤ u64Max then some (a * b) else none

/-- A `u64` sum of values that are computed one by one, where it stays in range. -/
def checkedSumU64 : List (Option Nat) → Nat → Option Nat
  | [], sum => some sum
  | value :: rest, sum => do checkedSumU64 rest (← checkedAddU64 sum (← value))

/-- `u64::saturating_add`. -/
def saturatingAdd (a b : Nat) : Nat := min (a + b) u64Max

/-- A sum in range does not wrap. -/
theorem wrapI64_of_inI64 {x : Int} (h : InI64 x) : wrapI64 x = x := by
  obtain ⟨lo, hi⟩ := h
  unfold i64Min at lo
  unfold i64Max at hi
  unfold wrapI64
  rw [Int.bmod_eq_of_le] <;> omega

theorem checkedI32_of_range {x : Int} (h : -2147483648 ≤ x) (h' : x < 2147483648) : checkedI32 x = some x :=
  if_pos ⟨h, h'⟩

theorem checkedU32_of_range {x : Int} (h : 0 ≤ x) (h' : x < 4294967296) : checkedU32 x = some x.toNat :=
  if_pos ⟨h, h'⟩

theorem checkedAddU64_eq_some {a b c : Nat} :
    checkedAddU64 a b = some c ↔ a + b = c ∧ c ≤ u64Max := by
  unfold checkedAddU64
  split <;> simp_all <;> omega

theorem checkedSubU64_of_le {a b : Nat} (h : b ≤ a) : checkedSubU64 a b = some (a - b) := if_pos h

theorem checkedAddU64_of_le {a b : Nat} (h : a + b ≤ u64Max) : checkedAddU64 a b = some (a + b) := if_pos h

theorem checkedMulU64_of_le {a b : Nat} (h : a * b ≤ u64Max) : checkedMulU64 a b = some (a * b) := if_pos h

/-- A sum in range is the exact one. -/
theorem checkedSumU64_map {α : Type} {value : α → Option Nat} {exact : α → Nat} {items : List α} (sum : Nat)
    (hvalue : ∀ a ∈ items, value a = some (exact a)) (hle : sum + (items.map exact).sum ≤ u64Max) :
    checkedSumU64 (items.map value) sum = some (sum + (items.map exact).sum) := by
  induction items generalizing sum with
  | nil => rfl
  | cons a items ih =>
    simp only [List.map_cons, List.sum_cons] at hle ⊢
    have hstep : checkedAddU64 sum (exact a) = some (sum + exact a) :=
      checkedAddU64_eq_some.mpr ⟨rfl, by omega⟩
    have hrest := ih (sum + exact a) (fun b hb => hvalue b (List.mem_cons_of_mem _ hb)) (by omega)
    simp only [checkedSumU64, hvalue a List.mem_cons_self, Option.bind_eq_bind, Option.bind_some,
      hstep, hrest, Nat.add_assoc]

theorem saturatingAdd_le (a b : Nat) : saturatingAdd a b ≤ a + b := Nat.min_le_left _ _

theorem saturatingAdd_mono {a b c : Nat} (h : a ≤ b) : saturatingAdd a c ≤ saturatingAdd b c := by
  unfold saturatingAdd
  omega

/-- **A value on the way from zero to `bound`**: of the bound's sign, and no larger. -/
def Between (bound x : Int) : Prop := (0 ≤ x ∧ x ≤ bound) ∨ (bound ≤ x ∧ x ≤ 0)

theorem between_self (x : Int) : Between x x := by
  unfold Between
  omega

/-- The way to a bound is the way gone and the way left. -/
theorem Between.natAbs_sub {bound x : Int} (h : Between bound x) : (bound - x).natAbs + x.natAbs = bound.natAbs := by
  unfold Between at h
  omega

/-- **Adding to a value on the way to a bound stays between the ends of the two sums.** So the
sum is in range when both ends are. -/
theorem Between.add_inI64 {bound x fresh : Int} (h : Between bound x) (lo : InI64 fresh)
    (hi : InI64 (bound + fresh)) : InI64 (x + fresh) := by
  unfold Between at h
  unfold InI64 at *
  omega

end Zflow.Lib
