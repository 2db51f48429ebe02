import Zflow.Linux.Wheel

/-!
# The clicks of the virtual pointer

The wheel's reports lose nothing: the clicks of an axis and the remainder it carries are the high-resolution
units it reported. The remainder is under a click, so no sum leaves the range.
-/

namespace Zflow.Linux

open Zflow.Core Lib

/-! ## One division -/

/-- Under a click, either way. -/
def UnderClick (remainder : Int) : Prop := -wheelClickUnits < remainder ∧ remainder < wheelClickUnits

instance (remainder : Int) : Decidable (UnderClick remainder) := inferInstanceAs (Decidable (_ ∧ _))

theorem relativeValue_range (value : Int) :
    -2147483648 ≤ relativeValue value ∧ relativeValue value < 2147483648 := by
  unfold relativeValue clampI32
  omega

/-- A truncated remainder is under a click. -/
theorem underClick_tmod (total : Int) : UnderClick (total.tmod wheelClickUnits) := by
  have hlt := Int.tmod_lt_of_pos total (b := wheelClickUnits) (by decide)
  have hneg := Int.tmod_lt_of_pos (-total) (b := wheelClickUnits) (by decide)
  rw [Int.neg_tmod] at hneg
  exact ⟨by omega, hlt⟩

/-- **A division keeps what it is given**: as clicks, and as the next remainder. -/
theorem legacyWheelDelta_exact {remainder highResolution : Int} (h : UnderClick remainder)
    (hlo : -2147483648 ≤ highResolution) (hhi : highResolution < 2147483648) :
    ∃ clicks rest, legacyWheelDelta remainder highResolution = some (clicks, rest) ∧ UnderClick rest ∧
      wheelClickUnits * clicks + rest = remainder + highResolution := by
  obtain ⟨hrlo, hrhi⟩ := h
  unfold wheelClickUnits at hrlo hrhi
  have hdiv := Int.mul_tdiv_add_tmod (remainder + highResolution) wheelClickUnits
  obtain ⟨hlow, hhigh⟩ := underClick_tmod (remainder + highResolution)
  have hsum : InI64 (remainder + highResolution) := by
    unfold InI64 i64Min i64Max
    omega
  refine ⟨_, _, by rw [legacyWheelDelta, checkedI64_of_inI64 hsum]; rfl, ⟨hlow, hhigh⟩, ?_⟩
  unfold wheelClickUnits at *
  rw [wrapI32_of_range (by omega) (by omega)]
  exact hdiv

/-! ## One report -/

@[simp]
theorem movedBy_append (axis : RelativeAxisCode) (xs ys : List RelativeEvent) :
    movedBy axis (xs ++ ys) = movedBy axis xs + movedBy axis ys := by
  simp [movedBy]

@[simp]
theorem movedBy_pushRelative (axis other : RelativeAxisCode) (value : Int) :
    movedBy axis (pushRelative other value) = if other = axis then value else 0 := by
  unfold pushRelative movedBy
  by_cases hvalue : value = 0 <;> by_cases haxis : other = axis <;> simp [hvalue, haxis]

namespace LegacyWheels

structure Carried (w : LegacyWheels) : Prop where
  hwheel : UnderClick w.legacyHwheelRemainder
  wheel : UnderClick w.legacyWheelRemainder

theorem carried_new : new.Carried := ⟨by decide, by decide⟩

/-- What is still owed to the legacy axes, as a pair. -/
def level (w : LegacyWheels) : Int × Int := (w.legacyHwheelRemainder, w.legacyWheelRemainder)

/-- What some events paid to the legacy axes beyond the high-resolution ones. -/
def paid (events : List RelativeEvent) : Int × Int :=
  (wheelClickUnits * movedBy .relHwheel events - movedBy .relHwheelHiRes events,
    wheelClickUnits * movedBy .relWheel events - movedBy .relWheelHiRes events)

theorem paid_append (xs ys : List RelativeEvent) : paid (xs ++ ys) = paid xs + paid ys := by
  unfold paid wheelClickUnits
  ext <;> simp only [movedBy_append, Prod.fst_add, Prod.snd_add] <;> omega

theorem paid_flatten (reports : List (List RelativeEvent)) : (reports.map paid).sum = paid reports.flatten := by
  induction reports with
  | nil => rfl
  | cons report rest ih => rw [List.map_cons, List.sum_cons, ih, List.flatten_cons, paid_append]

/-- A report pays what its displacement adds. -/
theorem motion_paid {w : LegacyWheels} (h : w.Carried) (delta : MotionDelta) :
    ∃ report w', w.motion delta = some (report, w') ∧ w'.Carried ∧ paid report + w'.level = w.level := by
  obtain ⟨hxlo, hxhi⟩ := relativeValue_range delta.scrollX
  obtain ⟨hylo, hyhi⟩ := relativeValue_range delta.scrollY
  obtain ⟨clicksX, restX, hx, hrestX, hexactX⟩ := legacyWheelDelta_exact h.hwheel hxlo hxhi
  obtain ⟨clicksY, restY, hy, hrestY, hexactY⟩ := legacyWheelDelta_exact h.wheel hylo hyhi
  refine ⟨_, ⟨restX, restY⟩, by simp only [motion, hx, hy]; rfl, ⟨hrestX, hrestY⟩, ?_⟩
  unfold paid level
  ext <;> simp <;> omega

/-- **The wheels lose nothing.** After any displacements, the clicks of each axis and its remainder are the
high-resolution units it reported, and the remainder is under a click. -/
theorem motion_exact (stream : List MotionDelta) :
    ∃ reports w, meter motion new stream = some (reports, w) ∧ w.Carried ∧
      wheelClickUnits * movedBy .relHwheel reports.flatten + w.legacyHwheelRemainder =
        movedBy .relHwheelHiRes reports.flatten ∧
      wheelClickUnits * movedBy .relWheel reports.flatten + w.legacyWheelRemainder =
        movedBy .relWheelHiRes reports.flatten := by
  obtain ⟨reports, w, hrun, hcarried, hsum⟩ :=
    meter_balance Carried level paid (fun w delta h => motion_paid h delta) new carried_new stream
  rw [paid_flatten] at hsum
  have hx := congrArg Prod.fst hsum
  have hy := congrArg Prod.snd hsum
  simp only [paid, level, new, Prod.fst_add, Prod.snd_add] at hx hy
  exact ⟨reports, w, hrun, hcarried, by omega, by omega⟩

end LegacyWheels

end Zflow.Linux
