import Mathlib.Algebra.BigOperators.Group.List.Basic
import Mathlib.Algebra.Group.Prod
import Zflow.Lib.Checked
import Zflow.Lib.Replay

/-!
# Metered streams

A stream of units is passed on in a coarser measure, and what is under one measure must not be lost. There are
two ways to keep it. A meter may carry the remainder of its divisions: then what it passed on and what it still
holds add up to what it was given, step by step and so over a run (`meter_balance`). Or it may keep the running
total and pass on how far its image moved (`moves`): then what it passed on is decided by the total alone
(`sum_moves`), and an odd image makes it turn with the stream (`moves_neg`).

A meter's step answers `none` where its machine arithmetic leaves the range.
-/

namespace Zflow.Lib

/-! ## Narrowing -/

/-- An exact value clamped to an `i32`. -/
def clampI32 (x : Int) : Int := max (-2 ^ 31) (min x (2 ^ 31 - 1))

/-- `x as i32`: the low 32 bits. -/
def wrapI32 (x : Int) : Int := Int.bmod x 4294967296

/-- The saturated result of an `i64` operation whose exact value is `x`. -/
def saturateI64 (x : Int) : Int := max i64Min (min x i64Max)

theorem clampI32_of_range {x : Int} (h : -2147483648 ≤ x) (h' : x < 2147483648) : clampI32 x = x := by
  unfold clampI32
  omega

theorem wrapI32_of_range {x : Int} (h : -2147483648 ≤ x) (h' : x < 2147483648) : wrapI32 x = x := by
  unfold wrapI32
  rw [Int.bmod_eq_of_le] <;> omega

theorem saturateI64_of_inI64 {x : Int} (h : InI64 x) : saturateI64 x = x := by
  unfold InI64 i64Min i64Max at h
  unfold saturateI64 i64Min i64Max
  omega

theorem inI64_saturateI64 (x : Int) : InI64 (saturateI64 x) := by
  unfold InI64 saturateI64 i64Min i64Max
  omega

theorem checkedI64_of_inI64 {x : Int} (h : InI64 x) : checkedI64 x = some x := if_pos h

/-! ## Meters -/

section

variable {P C E M N : Type*}

/-- What a meter passes on of a stream, and the state it is left in. -/
def meter (step : P → C → Option (E × P)) : P → List C → Option (List E × P)
  | p, [] => some ([], p)
  | p, c :: rest => do
    let (e, p) ← step p c
    let (es, p) ← meter step p rest
    return (e :: es, p)

theorem meter_cons {step : P → C → Option (E × P)} {p q s : P} {c : C} {rest : List C} {e : E} {es : List E}
    (h : step p c = some (e, q)) (hrest : meter step q rest = some (es, s)) :
    meter step p (c :: rest) = some (e :: es, s) := by
  simp only [meter, h, hrest, Option.bind_eq_bind, Option.bind_some, Option.pure_def]

/-- **What a meter passed on and what it holds add up.** `level` is what it holds and `paid` what a step passes
on, both in one measure that each step keeps. -/
theorem meter_balance [AddCommMonoid M] {step : P → C → Option (E × P)} (I : P → Prop) (level : P → M)
    (paid : E → M) (hstep : ∀ p c, I p → ∃ e q, step p c = some (e, q) ∧ I q ∧ paid e + level q = level p) (p : P)
    (hp : I p) (stream : List C) :
    ∃ es q, meter step p stream = some (es, q) ∧ I q ∧ (es.map paid).sum + level q = level p := by
  induction stream generalizing p with
  | nil => exact ⟨[], p, rfl, hp, by simp⟩
  | cons c rest ih =>
    obtain ⟨e, q, he, hq, hpaid⟩ := hstep p c hp
    obtain ⟨es, s, hes, hs, hsum⟩ := ih q hq
    refine ⟨e :: es, s, meter_cons he hes, hs, ?_⟩
    rw [List.map_cons, List.sum_cons, add_assoc, hsum, hpaid]

/-! ## The image of a running total -/

variable [AddCommGroup M] [AddCommGroup N]

/-- How far the image of the running total moves, unit by unit. -/
def moves (image : M → N) : M → List M → List N
  | _, [] => []
  | total, unit :: rest => (image (total + unit) - image total) :: moves image (total + unit) rest

/-- **Only the total counts**: the moves add up to the move of the image, however the stream was cut. -/
theorem sum_moves (image : M → N) (total : M) (units : List M) :
    (moves image total units).sum = image (total + units.sum) - image total := by
  induction units generalizing total with
  | nil => simp [moves]
  | cons unit rest ih =>
    rw [moves, List.sum_cons, ih, List.sum_cons, ← add_assoc]
    exact sub_add_sub_cancel' _ _ _

/-- **An odd image turns with the stream**, move by move. -/
theorem moves_neg {image : M → N} (hodd : ∀ total, image (-total) = -image total) (total : M) (units : List M) :
    moves image (-total) (units.map Neg.neg) = (moves image total units).map Neg.neg := by
  induction units generalizing total with
  | nil => rfl
  | cons unit rest ih =>
    have htotal : -total + -unit = -(total + unit) := (neg_add total unit).symm
    simp only [List.map_cons, moves]
    rw [htotal, ih, hodd, hodd, neg_sub_neg, neg_sub]

end

/-- The running total of a stream, as a machine that may refuse a unit. -/
def runningTotal [Add M] (fits : M → M → Prop) : Replay M M := ⟨(· + ·), fits⟩

end Zflow.Lib
