import Zflow.Macos.Pointer

/-!
# Pixels are decided by the total

What the Mac posts for a stream of scrolls is how far the rounded running total moves (`meter_pixels`), as long as
the total stays away from where the products saturate and no step is clamped. So the pixels of two streams with
one total add up to the same (`posted_total`), and a stream turned around posts its pixels turned around
(`posted_neg`). No arithmetic leaves the range for any stream (`pixels_total`).
-/

namespace Zflow.Macos

open Lib

/-! ## Rounding -/

/-- The pixels of a total, exactly: half a pixel rounds away from zero. -/
def rounded (units : Int) : Int :=
  (units * pixelsPerDetent + (units * pixelsPerDetent).sign * wheelDetent.tdiv 2).tdiv wheelDetent

/-- Where no product saturates. -/
def Unsaturated (total : Int) : Prop := -2 ^ 55 < total ∧ total < 2 ^ 55

def FitsI32 (x : Int) : Prop := -2 ^ 31 ≤ x ∧ x < 2 ^ 31

instance (total : Int) : Decidable (Unsaturated total) := inferInstanceAs (Decidable (_ ∧ _))

theorem rounded_neg (units : Int) : rounded (-units) = -rounded units := by
  unfold rounded
  rw [Int.neg_mul, Int.sign_neg, Int.neg_mul, ← Int.neg_add, Int.neg_tdiv]

theorem sign_range (x : Int) : -1 ≤ x.sign ∧ x.sign ≤ 1 := by
  rcases Int.lt_trichotomy x 0 with h | h | h
  · rw [Int.sign_eq_neg_one_of_neg h]
    decide
  · rw [h]
    decide
  · rw [Int.sign_eq_one_of_pos h]
    decide

theorem totalPixels_eq_rounded {units : Int} (h : Unsaturated units) : totalPixels units = rounded units := by
  obtain ⟨hlo, hhi⟩ := h
  obtain ⟨hslo, hshi⟩ := sign_range (units * pixelsPerDetent)
  have hhalf : wheelDetent.tdiv 2 = 60 := rfl
  have hscaled : InI64 (units * pixelsPerDetent) := by
    unfold InI64 i64Min i64Max pixelsPerDetent
    omega
  have hsum : InI64 (units * pixelsPerDetent + (units * pixelsPerDetent).sign * wheelDetent.tdiv 2) := by
    rw [hhalf]
    unfold InI64 i64Min i64Max
    unfold pixelsPerDetent at *
    omega
  simp only [totalPixels, saturateI64_of_inI64 hscaled, saturateI64_of_inI64 hsum, rounded]

/-- A total of pixels is an `i64` over the units of a detent: the difference of two is in range. -/
theorem totalPixels_range (units : Int) : -2 ^ 57 < totalPixels units ∧ totalPixels units < 2 ^ 57 := by
  simp only [totalPixels]
  generalize units * pixelsPerDetent = product
  generalize saturateI64 product + (saturateI64 product).sign * wheelDetent.tdiv 2 = sum
  obtain ⟨hlo, hhi⟩ := inI64_saturateI64 sum
  unfold i64Min at hlo
  unfold i64Max at hhi
  have hdiv := Int.mul_tdiv_add_tmod (saturateI64 sum) wheelDetent
  have hlt := Int.tmod_lt_of_pos (saturateI64 sum) (b := wheelDetent) (by decide)
  have hneg := Int.tmod_lt_of_pos (-saturateI64 sum) (b := wheelDetent) (by decide)
  rw [Int.neg_tmod] at hneg
  unfold wheelDetent at *
  omega

/-! ## A step -/

theorem advance_eq (total units : Int) : advance total units =
      some (wheel (totalPixels (saturateI64 (total + units)) - totalPixels total), saturateI64 (total + units)) := by
  obtain ⟨hlo, hhi⟩ := totalPixels_range total
  obtain ⟨hlo', hhi'⟩ := totalPixels_range (saturateI64 (total + units))
  have hrange : InI64 (totalPixels (saturateI64 (total + units)) - totalPixels total) := by
    unfold InI64 i64Min i64Max
    omega
  simp only [advance, checkedI64_of_inI64 hrange]
  rfl

theorem saturateI64_of_unsaturated {total : Int} (h : Unsaturated total) : saturateI64 total = total := by
  refine saturateI64_of_inI64 ?_
  obtain ⟨hlo, hhi⟩ := h
  unfold InI64 i64Min i64Max
  omega

theorem advance_of_fits {total units : Int} (hnow : Unsaturated total) (hnext : Unsaturated (total + units))
    (hfits : FitsI32 (totalPixels (total + units) - totalPixels total)) :
    advance total units = some (rounded (total + units) - rounded total, total + units) := by
  rw [advance_eq, saturateI64_of_unsaturated hnext, wheel, clampI32_of_range hfits.1 hfits.2,
    totalPixels_eq_rounded hnext, totalPixels_eq_rounded hnow]

/-- What is posted of two axes. -/
def whole (pixels : Int × Int) : Option (Int × Int) :=
  if pixels.1 ≠ 0 ∨ pixels.2 ≠ 0 then some pixels else none

/-- The pixels of a post, none where nothing is posted. -/
def posted (post : Option (Int × Int)) : Int × Int := post.getD 0

theorem posted_whole (pixels : Int × Int) : posted (whole pixels) = pixels := by
  obtain ⟨x, y⟩ := pixels
  unfold posted whole
  split
  · rfl
  · rename_i h
    obtain ⟨rfl, rfl⟩ : x = 0 ∧ y = 0 := by simpa using h
    rfl

theorem whole_neg (pixels : Int × Int) : whole (-pixels) = (whole pixels).map Neg.neg := by
  unfold whole
  simp only [Prod.fst_neg, Prod.snd_neg, ne_eq, Int.neg_eq_zero]
  split <;> rfl

namespace ScrollScale

/-- No step overflows. -/
theorem pixels_some (scale : ScrollScale) (units : Int × Int) :
    ∃ post next, scale.pixels units = some (post, next) := by
  simp only [pixels, advance_eq]
  exact ⟨_, _, rfl⟩

/-- **No stream overflows.** -/
theorem pixels_total (scale : ScrollScale) (stream : List (Int × Int)) :
    ∃ posts last, meter pixels scale stream = some (posts, last) := by
  induction stream generalizing scale with
  | nil => exact ⟨[], scale, rfl⟩
  | cons units rest ih =>
    obtain ⟨post, next, hstep⟩ := scale.pixels_some units
    obtain ⟨posts, last, hrest⟩ := ih next
    exact ⟨post :: posts, last, meter_cons hstep hrest⟩

end ScrollScale

/-! ## A stream -/

def UnsaturatedBoth (total : Int × Int) : Prop := Unsaturated total.1 ∧ Unsaturated total.2

/-- A unit after which the total is small, and whose pixels fit the fields of a scroll event. -/
def Fits (total units : Int × Int) : Prop :=
  UnsaturatedBoth (total + units) ∧ FitsI32 (totalPixels (total + units).1 - totalPixels total.1) ∧
    FitsI32 (totalPixels (total + units).2 - totalPixels total.2)

/-- **A stream that stays in range**: after each of its steps the total is below 2^55, and each step's pixels
fit an `i32`. -/
def Steady (stream : List (Int × Int)) : Prop := (runningTotal Fits).Legal 0 stream

def roundedBoth (total : Int × Int) : Int × Int := (rounded total.1, rounded total.2)

theorem roundedBoth_neg (total : Int × Int) : roundedBoth (-total) = -roundedBoth total :=
  Prod.ext (rounded_neg _) (rounded_neg _)

/-- A step posts how far the rounded total moves. -/
theorem pixels_of_fits {total units : Int × Int} (hnow : UnsaturatedBoth total) (h : Fits total units) :
    ScrollScale.pixels ⟨total⟩ units =
      some (whole (roundedBoth (total + units) - roundedBoth total), ⟨total + units⟩) := by
  obtain ⟨hnext, hx, hy⟩ := h
  have hadvanceX := advance_of_fits hnow.1 hnext.1 hx
  have hadvanceY := advance_of_fits hnow.2 hnext.2 hy
  simp only [ScrollScale.pixels, hadvanceX, hadvanceY]
  rfl

/-- A stream posts its moves. -/
theorem meter_pixels {total : Int × Int} {stream : List (Int × Int)} (hnow : UnsaturatedBoth total)
    (h : (runningTotal Fits).Legal total stream) :
    ∃ last, meter ScrollScale.pixels ⟨total⟩ stream = some ((moves roundedBoth total stream).map whole, last) := by
  induction stream generalizing total with
  | nil => exact ⟨⟨total⟩, rfl⟩
  | cons units rest ih =>
    obtain ⟨hfits, hrest⟩ := h
    obtain ⟨last, hlast⟩ := ih hfits.1 hrest
    exact ⟨last, meter_cons (pixels_of_fits hnow hfits) hlast⟩

theorem meter_pixels_steady {stream : List (Int × Int)} (h : Steady stream) :
    ∃ last, meter ScrollScale.pixels .default stream = some ((moves roundedBoth 0 stream).map whole, last) :=
  meter_pixels ⟨by decide, by decide⟩ h

theorem sum_posted (stream : List (Int × Int)) :
    (((moves roundedBoth 0 stream).map whole).map posted).sum = roundedBoth stream.sum := by
  have hposted : posted ∘ whole = id := funext posted_whole
  rw [List.map_map, hposted, List.map_id, sum_moves, zero_add]
  exact sub_zero _

/-- **The pixels do not depend on how the scroll was batched.** -/
theorem posted_total {stream other : List (Int × Int)} (h : Steady stream) (h' : Steady other)
    (hsum : stream.sum = other.sum) :
    ∃ posts last posts' last', meter ScrollScale.pixels .default stream = some (posts, last) ∧
      meter ScrollScale.pixels .default other = some (posts', last') ∧
      (posts.map posted).sum = (posts'.map posted).sum := by
  obtain ⟨last, hrun⟩ := meter_pixels_steady h
  obtain ⟨last', hrun'⟩ := meter_pixels_steady h'
  refine ⟨_, last, _, last', hrun, hrun', ?_⟩
  rw [sum_posted, sum_posted, hsum]

/-- **A stream turned around posts its pixels turned around**, post by post. -/
theorem posted_neg {stream : List (Int × Int)} (h : Steady stream) (h' : Steady (stream.map Neg.neg)) :
    ∃ posts last last', meter ScrollScale.pixels .default stream = some (posts, last) ∧
      meter ScrollScale.pixels .default (stream.map Neg.neg) = some (posts.map (Option.map Neg.neg), last') := by
  obtain ⟨last, hrun⟩ := meter_pixels_steady h
  obtain ⟨last', hrun'⟩ := meter_pixels_steady h'
  have hmoves := moves_neg roundedBoth_neg 0 stream
  rw [neg_zero] at hmoves
  have hwhole : whole ∘ Neg.neg = Option.map Neg.neg ∘ whole := funext whole_neg
  rw [hmoves, List.map_map, hwhole, ← List.map_map] at hrun'
  exact ⟨_, last, last', hrun, hrun'⟩

end Zflow.Macos
