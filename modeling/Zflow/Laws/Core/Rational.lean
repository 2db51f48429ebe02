import Mathlib.Data.Rat.Floor
import Mathlib.Tactic.Positivity
import Zflow.Laws.Core.PlayoutExact

/-!
# The limiter in exact arithmetic

What the results about playout assume of the limiter, that each axis stays on the way to what was
asked and that something always gets through, is proved here of its formula over the rationals. The
length of a pair is taken as the sum of its axes, which is exact along one axis and never too short.
The same instance is what concrete runs are computed with.
-/

namespace Zflow.Core

open Lib

/-- `f64::round`: the nearest integer, halves away from zero. -/
def roundAway (q : ℚ) : Int := if 0 ≤ q then ⌊q + 1 / 2⌋ else -⌊-q + 1 / 2⌋

instance : F64 ℚ where
  ofInt x := x
  ofNat x := x
  add := (· + ·)
  sub := (· - ·)
  mul := (· * ·)
  div := (· / ·)
  hypot a b := |a| + |b|
  le a b := decide (a ≤ b)
  eq a b := decide (a = b)
  isFinite _ := true
  ceilToU64 q := min ⌈q⌉.toNat u64Max
  roundToI64 := roundAway

/-- Rounding what is on the way to an integer stays on the way to it. -/
theorem between_roundAway {bound : Int} {scale : ℚ} (hnonneg : 0 ≤ scale) (hle : scale ≤ 1) :
    Between bound (roundAway (bound * scale)) := by
  rcases le_total 0 bound with hb | hb
  · have hb' : (0 : ℚ) ≤ bound := by exact_mod_cast hb
    have hlow : 0 ≤ (bound : ℚ) * scale := mul_nonneg hb' hnonneg
    have hhigh : (bound : ℚ) * scale ≤ bound := mul_le_of_le_one_right hb' hle
    left
    unfold roundAway
    rw [if_pos hlow]
    refine ⟨Int.floor_nonneg.mpr (by positivity), ?_⟩
    refine Int.lt_add_one_iff.mp (Int.floor_lt.mpr ?_)
    push_cast
    linarith
  · have hb' : (bound : ℚ) ≤ 0 := by exact_mod_cast hb
    have hlow : (bound : ℚ) * scale ≤ 0 := mul_nonpos_of_nonpos_of_nonneg hb' hnonneg
    have hhigh : (bound : ℚ) ≤ bound * scale := by nlinarith
    right
    unfold roundAway
    by_cases hzero : 0 ≤ (bound : ℚ) * scale
    · have heq : (bound : ℚ) * scale = 0 := le_antisymm hlow hzero
      rw [if_pos hzero, heq]
      have hfloor : ⌊(0 : ℚ) + 1 / 2⌋ = 0 := by norm_num
      rw [hfloor]
      exact ⟨hb, le_refl 0⟩
    · rw [if_neg hzero]
      have hup : ⌊-((bound : ℚ) * scale) + 1 / 2⌋ < -bound + 1 := by
        refine Int.floor_lt.mpr ?_
        push_cast
        linarith
      have hdown : 0 ≤ ⌊-((bound : ℚ) * scale) + 1 / 2⌋ := by
        refine Int.floor_nonneg.mpr ?_
        linarith
      omega

/-- The length of a pair is at least each of its axes. -/
theorem scale_le_one {first second : Int} {cap : Nat} (hlong : ¬ ((|(first : ℚ)| + |(second : ℚ)|) ≤ cap)) :
    0 ≤ (cap : ℚ) / (|(first : ℚ)| + |(second : ℚ)|) ∧ (cap : ℚ) / (|(first : ℚ)| + |(second : ℚ)|) ≤ 1 := by
  have hlt := not_le.mp hlong
  have hcap : (0 : ℚ) ≤ cap := Nat.cast_nonneg cap
  have hpos : 0 < |(first : ℚ)| + |(second : ℚ)| := lt_of_le_of_lt hcap hlt
  exact ⟨div_nonneg hcap hpos.le, (div_le_one hpos).mpr hlt.le⟩

theorem between_sign (x : Int) : Between x x.sign := by
  unfold Between
  rcases lt_trichotomy x 0 with h | h | h
  · rw [Int.sign_eq_neg_one_of_neg h]
    omega
  · rw [h]
    decide
  · rw [Int.sign_eq_one_of_pos h]
    omega

theorem between_zero (x : Int) : Between x 0 := by
  unfold Between
  omega

/-- The share of an axis that fits the cap. -/
def shareOf (first second axis : Int) (cap : Nat) : Int :=
  roundAway (axis * ((cap : ℚ) / (|(first : ℚ)| + |(second : ℚ)|)))

/-- **The cases of the limiter**: the pair is short enough, its shares round to nothing, or they are
what it gives. -/
theorem limitPair_rat (first second : Int) (cap : Nat) : limitPair ℚ first second cap = (first, second, false) ∨
    (¬ (|(first : ℚ)| + |(second : ℚ)| ≤ cap) ∧
      ((second.natAbs ≤ first.natAbs ∧ limitPair ℚ first second cap = (first.sign, 0, true)) ∨
        (first.natAbs < second.natAbs ∧ limitPair ℚ first second cap = (0, second.sign, true)) ∨
        (¬ (shareOf first second first cap = 0 ∧ shareOf first second second cap = 0) ∧ limitPair ℚ first second cap =
            (shareOf first second first cap, shareOf first second second cap, true)))) := by
  unfold limitPair
  by_cases hshort : (F64.le (pairMagnitude first second : ℚ) (F64.ofNat cap) ||
      F64.eq (pairMagnitude first second : ℚ) (F64.ofNat 0)) = true
  · rw [if_pos hshort]
    exact .inl rfl
  rw [if_neg hshort]
  have hlong : ¬ (|(first : ℚ)| + |(second : ℚ)| ≤ cap) := by
    intro hle
    refine hshort ?_
    rw [Bool.or_eq_true]
    exact .inl (decide_eq_true hle)
  refine .inr ⟨hlong, ?_⟩
  by_cases hzero : shareOf first second first cap = 0 ∧ shareOf first second second cap = 0
  · by_cases hlarger : second.natAbs ≤ first.natAbs
    · refine .inl ⟨hlarger, (if_pos hzero).trans ((if_pos hlarger).trans ?_)⟩
      exact congrArg (fun y => (first.sign, y, true)) hzero.2
    · refine .inr (.inl ⟨Nat.lt_of_not_le hlarger, (if_pos hzero).trans ((if_neg hlarger).trans ?_)⟩)
      exact congrArg (fun x => (x, second.sign, true)) hzero.1
  · exact .inr (.inr ⟨hzero, if_neg hzero⟩)

/-- **The limiter stays on the way**, in exact arithmetic. -/
theorem limitsBetween_rat : LimitsBetween ℚ := by
  intro first second cap
  rcases limitPair_rat first second cap with h | ⟨hlong, ⟨-, h⟩ | ⟨-, h⟩ | ⟨-, h⟩⟩
  · rw [h]
    exact ⟨between_self first, between_self second⟩
  · rw [h]
    exact ⟨between_sign first, between_zero second⟩
  · rw [h]
    exact ⟨between_zero first, between_sign second⟩
  · obtain ⟨hnonneg, hle⟩ := scale_le_one hlong
    rw [h]
    exact ⟨between_roundAway hnonneg hle, between_roundAway hnonneg hle⟩

/-- **The limiter lets something through**, in exact arithmetic. -/
theorem limitsProgress_rat : LimitsProgress ℚ := by
  intro first second cap hne
  rcases limitPair_rat first second cap with h | ⟨-, ⟨hle, h⟩ | ⟨hlt, h⟩ | ⟨hshare, h⟩⟩
  · rw [h]
    exact hne
  · rw [h]
    have hfirst : first ≠ 0 := by omega
    exact .inl fun hsign => hfirst (Int.sign_eq_zero_iff_zero.mp hsign)
  · rw [h]
    have hsecond : second ≠ 0 := by omega
    exact .inr fun hsign => hsecond (Int.sign_eq_zero_iff_zero.mp hsign)
  · rw [h]
    exact not_and_or.mp hshare

/-- A clock mapper that has no skew: it maps by the offset of its last sample. -/
structure OffsetClock where
  offset : Option Int
  bootstrapped : Bool
  deriving DecidableEq

instance : ClockMapper OffsetClock where
  new := .ok ⟨none, false⟩
  isReady c := c.offset.isSome
  usesArrivalBootstrap c := c.bootstrapped
  bootstrapFromArrival sender receiver := fun c =>
    if c.offset.isSome then
      (.error (.invalidSample "arrival bootstrap requires an empty clock fit"), c)
    else (.ok (), ⟨some (receiver - sender : Int), true⟩)
  ingestProbe probe := fun _ =>
    (.ok (), ⟨some (probe.receiverReceivedAt - probe.senderEchoedAt : Int), false⟩)
  map c sender :=
    match c.offset with
    | none => .error .notReady
    | some offset => .ok (sender + offset).toNat

/-! ## A sample playout -/

def samplePlayoutConfig : PlayoutConfig ℚ where
  delayMode := .fixed
  fixedDelay := .fromMillis 0
  adaptivePercentile := 95
  minimumDelay := .fromMillis 0
  maximumDelay := .fromMillis 0
  schedulerMargin := .fromMillis 0
  delaySampleWindow := 8
  delaySampleMaxAge := .fromMillis 1000
  growthDivisor := 1
  contractionDivisor := 1
  schedulerTick := .fromMillis 1
  maximumQueuedFrames := 8
  catchUp := ⟨1, 1, 4, 1⟩

/-- What `new` makes of the sample configuration. -/
def samplePlayout (session : SessionContext) : ReceiverPlayout ℚ :=
  .fresh samplePlayoutConfig session 0

/-- A frame arrives whose predecessor was lost, and two polls go after it. -/
def samplePlayoutCalls (session : SessionContext) : List (PlayoutCall OffsetClock) :=
  [.ingestFrame ⟨session, 2, 0, 10, ⟨100, 0, 0, 0⟩, none⟩ 10 ⟨some 0, true⟩, .poll 20, .poll 1020]

end Zflow.Core
