import Mathlib.Data.List.Nodup
import Zflow.Desktop.Protocol

/-!
# What a desktop that is reported holds

Its displays are active and each is one of the monitors. The rectangle around the monitors has one of them on
each of its edges, and a selected display is a desktop of its own.
-/

namespace Zflow.Desktop

open Lib

variable {geometry : Geometry} {displays : List Display}

/-! ## Displays -/

/-- An active display of the desktop, with one of its monitors. -/
structure Display.Reported (monitors : List Rect) (display : Display) : Prop where
  valid : display.validate = .ok ()
  active : display.active = true
  bounds : display.bounds ∈ monitors

theorem displays_of_from {monitors : List Rect} {ids : List String} {rectangles : List Rect}
    (h : validateDisplaysFrom monitors ids rectangles displays = .ok ()) :
    (displays.map Display.id).Nodup ∧ (∀ display ∈ displays, display.id ∉ ids) ∧
      ∀ display ∈ displays, display.Reported monitors := by
  induction displays generalizing ids rectangles with
  | nil => simp
  | cons display rest ih =>
    obtain ⟨hvalid, hrest⟩ := check_bind_eq_ok.mp h
    obtain ⟨hgood, hrest⟩ := check_bind_eq_ok.mp hrest
    obtain ⟨hnodup, hfresh, hall⟩ := ih hrest
    rw [refuseIf_eq_ok, Bool.not_eq_false'] at hgood
    simp only [Bool.and_eq_true, Bool.not_eq_true'] at hgood
    obtain ⟨⟨⟨hactive, hunseen⟩, hbounds⟩, -⟩ := hgood
    have hnew : display.id ∉ ids := by simpa using hunseen
    rw [List.map_cons, List.nodup_cons, List.forall_mem_cons, List.forall_mem_cons]
    refine ⟨⟨fun hmem => ?_, hnodup⟩, ⟨hnew, fun other hother hold => hfresh other hother (.tail _ hold)⟩,
      ⟨hvalid, hactive, by simpa using hbounds⟩, hall⟩
    obtain ⟨other, hother, hid⟩ := List.mem_map.mp hmem
    exact hfresh other hother (hid ▸ .head _)

theorem reported_of_valid (h : geometry.validate = .ok ()) : (geometry.displays.map Display.id).Nodup ∧
    ∀ display ∈ geometry.displays, display.Reported geometry.monitors := by
  obtain ⟨-, hdisplays⟩ := check_bind_eq_ok.mp h
  unfold Geometry.validateDisplays at hdisplays
  split at hdisplays
  · rename_i hempty
    rw [List.isEmpty_iff.mp hempty]
    exact ⟨.nil, fun _ hmem => absurd hmem List.not_mem_nil⟩
  · obtain ⟨-, hfrom⟩ := check_bind_eq_ok.mp hdisplays
    obtain ⟨hnodup, -, hall⟩ := displays_of_from hfrom
    exact ⟨hnodup, hall⟩

theorem names_of_display {display : Display} (h : display.validate = .ok ()) :
    validId display.id = true ∧ validId display.name = true := by
  obtain ⟨hnames, -⟩ := check_bind_eq_ok.mp h
  rw [refuseIf_eq_ok] at hnames
  simpa using hnames

/-- The displays that are reported are active, each under an id of its own. -/
theorem displays_of_valid (h : geometry.validate = .ok ()) : (geometry.displays.map Display.id).Nodup ∧
    ∀ display ∈ geometry.displays, display.validate = .ok () ∧ display.active = true :=
  (reported_of_valid h).imp_right fun hall display hmem => ⟨(hall display hmem).valid, (hall display hmem).active⟩

/-! ## Bounds -/

theorem Rect.contains_iff {r : Rect} {point : Point} : r.contains point = true ↔
    r.x ≤ point.x ∧ r.y ≤ point.y ∧ point.x < r.x + r.width ∧ point.y < r.y + r.height := by
  unfold Rect.contains
  simp only [Bool.and_eq_true, decide_eq_true_eq, and_assoc]

/-- **The smallest rectangle** around some monitors has one of them on each of its edges. -/
structure Rect.Around (bounds : Rect) (monitors : List Rect) : Prop where
  left : ∃ r ∈ monitors, r.x = bounds.x
  top : ∃ r ∈ monitors, r.y = bounds.y
  right : ∃ r ∈ monitors, r.x + r.width = bounds.x + bounds.width
  bottom : ∃ r ∈ monitors, r.y + r.height = bounds.y + bounds.height
  inside : ∀ r ∈ monitors, bounds.x ≤ r.x ∧ bounds.y ≤ r.y ∧ r.x + r.width ≤ bounds.x + bounds.width ∧
    r.y + r.height ≤ bounds.y + bounds.height

section

variable (first : Rect) (rest : List Rect) (place : Rect → Int)

theorem foldl_min_of : (∃ r ∈ first :: rest, place r = rest.foldl (fun least r => min least (place r)) (place first)) ∧
    ∀ r ∈ first :: rest, rest.foldl (fun least r => min least (place r)) (place first) ≤ place r := by
  have hmin : ((first :: rest).map place).min? =
      some (rest.foldl (fun least r => min least (place r)) (place first)) := by
    rw [List.map_cons, List.min?_cons', List.foldl_map]
  obtain ⟨hmem, hle⟩ := List.min?_eq_some_iff.mp hmin
  obtain ⟨r, hr, heq⟩ := List.mem_map.mp hmem
  exact ⟨⟨r, hr, heq⟩, fun r hr => hle _ (List.mem_map_of_mem hr)⟩

theorem foldl_max_of : (∃ r ∈ first :: rest, place r = rest.foldl (fun most r => max most (place r)) (place first)) ∧
    ∀ r ∈ first :: rest, place r ≤ rest.foldl (fun most r => max most (place r)) (place first) := by
  have hmax : ((first :: rest).map place).max? =
      some (rest.foldl (fun most r => max most (place r)) (place first)) := by
    rw [List.map_cons, List.max?_cons', List.foldl_map]
  obtain ⟨hmem, hle⟩ := List.max?_eq_some_iff.mp hmax
  obtain ⟨r, hr, heq⟩ := List.mem_map.mp hmem
  exact ⟨⟨r, hr, heq⟩, fun r hr => hle _ (List.mem_map_of_mem hr)⟩

end

theorem bounds_of_valid (h : geometry.validate = .ok ()) :
    ∃ bounds, geometry.bounds = .ok bounds ∧ bounds.Around geometry.monitors := by
  obtain ⟨hmonitors, -⟩ := check_bind_eq_ok.mp h
  obtain ⟨hsome, -⟩ := check_bind_eq_ok.mp hmonitors
  unfold Geometry.bounds
  rw [h]
  cases hcons : geometry.monitors with
  | nil => simp [hcons] at hsome
  | cons first rest =>
    obtain ⟨hleft, hleftLe⟩ := foldl_min_of first rest Rect.x
    obtain ⟨htop, htopLe⟩ := foldl_min_of first rest Rect.y
    obtain ⟨hright, hrightLe⟩ := foldl_max_of first rest fun r => r.x + r.width
    obtain ⟨hbottom, hbottomLe⟩ := foldl_max_of first rest fun r => r.y + r.height
    have hfirst : first ∈ first :: rest := .head _
    have hx := hleftLe first hfirst
    have hy := htopLe first hfirst
    have hr := hrightLe first hfirst
    have hb := hbottomLe first hfirst
    refine ⟨_, rfl, hleft, htop, ?_, ?_, fun r hmem => ?_⟩
    · obtain ⟨r, hmem, heq⟩ := hright
      exact ⟨r, hmem, by dsimp only at hr heq ⊢; omega⟩
    · obtain ⟨r, hmem, heq⟩ := hbottom
      exact ⟨r, hmem, by dsimp only at hb heq ⊢; omega⟩
    · have hxr := hleftLe r hmem
      have hyr := htopLe r hmem
      have hrr := hrightLe r hmem
      have hbr := hbottomLe r hmem
      dsimp only at hr hb hrr hbr ⊢
      omega

/-- No monitor is empty. -/
theorem size_of_valid (h : geometry.validate = .ok ()) {r : Rect} (hr : r ∈ geometry.monitors) :
    0 < r.width ∧ 0 < r.height := by
  obtain ⟨hmonitors, -⟩ := check_bind_eq_ok.mp h
  have hvalid := forM_eq_ok.mp (check_bind_eq_ok.mp hmonitors).2 r hr
  rw [refuseIf_eq_ok, Bool.not_eq_false'] at hvalid
  unfold Rect.valid at hvalid
  simp only [Bool.and_eq_true, decide_eq_true_eq] at hvalid
  omega

theorem Rect.Around.size {bounds : Rect} (haround : bounds.Around geometry.monitors)
    (h : geometry.validate = .ok ()) : 0 < bounds.width ∧ 0 < bounds.height := by
  obtain ⟨r, hr, -⟩ := haround.left
  have hinside := haround.inside r hr
  have hsize := size_of_valid h hr
  omega

/-! ## A selected monitor -/

theorem forMonitor_eq_ok {id : Option String} {selected : Geometry} (h : geometry.forMonitor id = .ok selected) :
    selected.validate = .ok () ∧ ∀ r ∈ selected.monitors, r ∈ geometry.monitors := by
  cases id with
  | none =>
    obtain ⟨hvalid, h⟩ := check_bind_eq_ok.mp h
    cases h
    exact ⟨hvalid, fun r hr => hr⟩
  | some id =>
    obtain ⟨hvalid, h⟩ := check_bind_eq_ok.mp h
    cases hfind : geometry.displays.find? fun display => display.id = id && display.active with
    | none =>
      rw [hfind] at h
      cases h
    | some display =>
      rw [hfind] at h
      cases h
      have hreported := (reported_of_valid hvalid).2 display (List.mem_of_find?_eq_some hfind)
      refine ⟨check_bind_eq_ok.mpr ⟨?_, ?_⟩, fun r hr => List.mem_singleton.mp hr ▸ hreported.bounds⟩
      · obtain ⟨-, hrest⟩ := check_bind_eq_ok.mp hreported.valid
        exact (check_bind_eq_ok.mp hrest).2
      · show (validateDisplaysFrom [display.bounds] [] [] [display]) = _
        exact check_bind_eq_ok.mpr ⟨hreported.valid, check_bind_eq_ok.mpr ⟨by simp [hreported.active], rfl⟩⟩

end Zflow.Desktop
