import Mathlib.Tactic.Positivity
import Zflow.Desktop.Mapping
import Zflow.Laws.Desktop.Geometry

/-!
# Return mappings answer

A mapping between two stretches of edges takes every position of the receiver's range to a point of a display
here, at most three points from the mapped edge, and every point here into that range.
-/

namespace Zflow.Desktop

open Lib

/-! ## Parts of an edge -/

section Parts

variable {part other start stop start' stop' : ℚ}

theorem round_mono (h : part ≤ other) : round part ≤ round other := by
  rw [round_eq, round_eq]
  exact Int.floor_le_floor (by linarith)

theorem units_mono (h : part ≤ other) : units part ≤ units other :=
  Int.toNat_le_toNat (round_mono (mul_le_mul_of_nonneg_right h (Nat.cast_nonneg _)))

theorem units_le (h : part ≤ 1) : units part ≤ fractionMax := by
  have hone : units 1 = fractionMax := by
    unfold units
    rw [one_mul, round_natCast, Int.toNat_natCast]
  exact hone ▸ units_mono h

/-- A stretch that is long enough keeps a length in units. -/
theorem units_lt (hpart : 0 ≤ part) (h : part + 1 / fractionMax ≤ other) : units part < units other := by
  have hmax : (0 : ℚ) < fractionMax := by norm_num [fractionMax]
  have hnext : part * fractionMax + 1 ≤ other * fractionMax := by
    calc part * fractionMax + 1 = (part + 1 / fractionMax) * fractionMax := by field_simp
      _ ≤ other * fractionMax := mul_le_mul_of_nonneg_right h hmax.le
  have hround := round_mono hnext
  rw [round_add_one] at hround
  have hnonneg : 0 ≤ round (part * fractionMax) := by
    rw [← round_zero (α := ℚ)]
    exact round_mono (mul_nonneg hpart hmax.le)
  unfold units
  omega

theorem clamped_nonneg : 0 ≤ clamped part := le_max_left _ _

theorem clamped_le_one : clamped part ≤ 1 := max_le zero_le_one (min_le_right _ _)

theorem clamped_of_mem (hzero : 0 ≤ part) (hone : part ≤ 1) : clamped part = part := by
  unfold clamped
  rw [min_eq_left hone, max_eq_right hzero]

theorem le_carried (h : start' ≤ stop') : start' ≤ carried start stop start' stop' part :=
  le_add_of_nonneg_right (mul_nonneg clamped_nonneg (sub_nonneg.mpr h))

theorem carried_le (h : start' ≤ stop') : carried start stop start' stop' part ≤ stop' := by
  have hle : clamped ((part - start) / (stop - start)) * (stop' - start') ≤ stop' - start' :=
    mul_le_of_le_one_left (sub_nonneg.mpr h) clamped_le_one
  unfold carried
  linarith

end Parts

/-! ## Edges -/

/-- At most three points from an edge, on the inner side. -/
def NearEdge (bounds : Rect) (edge : Edge) (point : Point) : Prop :=
  match edge with
  | .left => bounds.x ≤ point.x ∧ point.x ≤ bounds.x + 3
  | .right => bounds.x + bounds.width - 4 ≤ point.x ∧ point.x < bounds.x + bounds.width
  | .top => bounds.y ≤ point.y ∧ point.y ≤ bounds.y + 3
  | .bottom => bounds.y + bounds.height - 4 ≤ point.y ∧ point.y < bounds.y + bounds.height

/-- Every monitor is at least eight points each way. -/
def Roomy (geometry : Geometry) : Prop := ∀ r ∈ geometry.monitors, 8 ≤ r.width ∧ 8 ≤ r.height

instance (geometry : Geometry) : Decidable (Roomy geometry) := inferInstanceAs (Decidable (∀ _ ∈ _, _))

theorem nearEdge_edgePoint (bounds : Rect) (edge : Edge) (along : ℚ) (hroomy : 0 < bounds.width ∧ 0 < bounds.height) :
    NearEdge bounds edge (edgePoint bounds edge along) := by
  obtain ⟨hwidth, hheight⟩ := hroomy
  cases edge <;> simp only [NearEdge, edgePoint] <;> omega

/-- Moving along an edge keeps the distance from it. -/
theorem NearEdge.near {bounds r : Rect} {edge : Edge} {point : Point} (h : NearEdge bounds edge point) :
    NearEdge bounds edge (r.near edge point) := by
  cases edge <;> exact h

/-- The monitor on an edge has a point near every one of the edge. -/
theorem exists_near {monitors : List Rect} {bounds : Rect} {edge : Edge} {point : Point}
    (hbounds : bounds.Around monitors) (hroomy : ∀ r ∈ monitors, 8 ≤ r.width ∧ 8 ≤ r.height)
    (hnear : NearEdge bounds edge point) : ∃ r ∈ monitors, r.contains (r.near edge point) = true := by
  have hside : ∃ r ∈ monitors, match edge with
      | .left => r.x = bounds.x
      | .right => r.x + r.width = bounds.x + bounds.width
      | .top => r.y = bounds.y
      | .bottom => r.y + r.height = bounds.y + bounds.height := by
    cases edge
    · exact hbounds.left
    · exact hbounds.right
    · exact hbounds.top
    · exact hbounds.bottom
  obtain ⟨r, hr, hside⟩ := hside
  obtain ⟨hwidth, hheight⟩ := hroomy r hr
  refine ⟨r, hr, Rect.contains_iff.mpr ?_⟩
  cases edge <;> simp only [NearEdge] at hnear hside <;> simp only [Rect.near] <;> omega

/-! ## Mappings -/

/-- Part of an edge, from its start to its end. -/
structure Stretch (start stop : ℚ) : Prop where
  nonneg : 0 ≤ start
  lt : start < stop
  le_one : stop ≤ 1

namespace ReturnMapping

/-- A mapping between two stretches, one of them of a desktop that is accepted. -/
structure Ranged (mapping : ReturnMapping) : Prop where
  geometry : mapping.geometry.validate = .ok ()
  here : Stretch mapping.localStart mapping.localEnd
  remote : Stretch mapping.remoteStart mapping.remoteEnd

/-- **A mapping that answers**, onto a desktop that has room. -/
structure Valid (mapping : ReturnMapping) : Prop extends Ranged mapping where
  roomy : Roomy mapping.geometry

/-- The point is on a display of the mapped desktop, near the mapped edge. -/
structure Lands (mapping : ReturnMapping) (point : Point) : Prop where
  display : ∃ r ∈ mapping.geometry.monitors, r.contains point = true
  near : ∃ bounds, mapping.geometry.bounds = .ok bounds ∧ NearEdge bounds mapping.edge point

variable {mapping : ReturnMapping}

theorem Ranged.validate (h : mapping.Ranged) : mapping.validate = .ok () := by
  have hhere := h.here
  have hremote := h.remote
  unfold ReturnMapping.validate
  rw [refuseIf_eq_ok]
  simp [hhere.nonneg, hhere.lt, hhere.le_one, hremote.nonneg, hremote.lt, hremote.le_one,
    hhere.nonneg.trans hhere.lt.le, hhere.lt.le.trans hhere.le_one, hremote.nonneg.trans hremote.lt.le,
    hremote.lt.le.trans hremote.le_one]

/-- Every point here has a place in the receiver's range. -/
theorem Ranged.fraction (h : mapping.Ranged) (point : Point) : ∃ position, mapping.fraction point = .ok position ∧
    units mapping.remoteStart ≤ position ∧ position ≤ units mapping.remoteEnd := by
  obtain ⟨bounds, hbounds, -⟩ := bounds_of_valid h.geometry
  unfold ReturnMapping.fraction
  rw [h.validate, hbounds]
  exact ⟨_, rfl, units_mono (le_carried h.remote.lt.le), units_mono (carried_le h.remote.lt.le)⟩

/-- **Every position of the receiver's range has a point here.** -/
theorem Valid.position (h : mapping.Valid) {position : Nat} (hstart : units mapping.remoteStart ≤ position)
    (hstop : position ≤ units mapping.remoteEnd) : ∃ point, mapping.position position = .ok point ∧
      mapping.Lands point := by
  obtain ⟨bounds, hbounds, haround⟩ := bounds_of_valid h.geometry
  let point := edgePoint bounds mapping.edge
    (carried mapping.remoteStart mapping.remoteEnd mapping.localStart mapping.localEnd ((position : ℚ) / fractionMax))
  have hedge : NearEdge bounds mapping.edge point := 
    nearEdge_edgePoint bounds mapping.edge _ (haround.size h.geometry)
  let found := mapping.geometry.monitors.filterMap fun r =>
    if r.contains (r.near mapping.edge point) then some (r.near mapping.edge point) else none
  have hfound : found ≠ [] := by
    obtain ⟨r, hr, hcontains⟩ := exists_near haround h.roomy hedge
    exact List.ne_nil_of_mem (List.mem_filterMap.mpr ⟨r, hr, if_pos hcontains⟩)
  have hsome : (found.minOn? (·.distance point)).isSome := List.isSome_minOn?_iff.mpr hfound
  obtain ⟨near, hnear⟩ := Option.isSome_iff_exists.mp hsome
  have hposition : mapping.position position = .ok near := by
    have hrange : refuseIf (!(units mapping.remoteStart ≤ position && position ≤ units mapping.remoteEnd))
        "The other computer returned an invalid crossing position" = .ok () := by
      rw [refuseIf_eq_ok]
      simp [hstart, hstop]
    unfold ReturnMapping.position
    rw [h.validate, hrange, hbounds]
    dsimp only [bind, Except.bind]
    rw [hnear]
    rfl
  obtain ⟨r, hr, hcontains⟩ := List.mem_filterMap.mp (List.minOn?_mem hnear)
  split at hcontains
  · rename_i hinside
    cases hcontains
    exact ⟨_, hposition, ⟨r, hr, hinside⟩, bounds, hbounds, hedge.near⟩
  · cases hcontains

end ReturnMapping

end Zflow.Desktop
