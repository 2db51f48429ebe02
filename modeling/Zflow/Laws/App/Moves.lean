import Mathlib.Data.List.Count
import Mathlib.Data.List.Induction
import Mathlib.Algebra.Order.Ring.Abs
import Zflow.Laws.App.View
import Zflow.Lib.Walks

/-!
# Dragging a computer

A move shifts the screens it takes along by one distance (`moved_eq_ok`), that of the nearest edge where they
are free, else the one that was asked for. An edge is lined up with where it can be, so it is the nearest of
what each side prefers. Screens of which none is active do not move (`moving_is_safe`).
-/

namespace Zflow.App

open Lib Desktop

/-! ## What a move takes along -/

/-- The screens that move with `anchor`: those of its computer, or that one. -/
def takes (anchor : Monitor) (computer : Bool) (m : Monitor) : Bool :=
  if computer then m.peer = anchor.peer else m.id = anchor.id

def Monitor.shift (m : Monitor) (ex ey : Int) : Monitor := { m with x := m.x + ex, y := m.y + ey }

namespace Layout

/-- The layout with the screens that move shifted. -/
def shifted (layout : Layout) (anchor : Monitor) (computer : Bool) (ex ey : Int) : Layout :=
  ⟨layout.monitors.map fun m => if takes anchor computer m then m.shift ex ey else m⟩

/-- The screens that move, and the active ones they can meet. -/
def taken (layout : Layout) (anchor : Monitor) (computer : Bool) : List Monitor :=
  layout.monitors.filter (takes anchor computer)

def met (layout : Layout) (anchor : Monitor) (computer : Bool) : List Bounds :=
  (layout.monitors.filter fun m => !takes anchor computer m && m.active).map Monitor.bounds

end Layout

section Members

variable {α : Type} {p : α → Bool} {items : List α}

/-- The places of the items of a kind. -/
def indices (p : α → Bool) (items : List α) : List Nat :=
  (List.range items.length).filter fun i => items[i]?.any p

theorem mem_indices {i : Nat} : i ∈ indices p items ↔ items[i]?.any p = true := by
  unfold indices
  rw [List.mem_filter, List.mem_range, and_iff_right_iff_imp]
  intro h
  by_contra hout
  rw [List.getElem?_eq_none (Nat.le_of_not_lt hout)] at h
  cases h

theorem indices_append (p : α → Bool) (items : List α) (a : α) :
    indices p (items ++ [a]) = indices p items ++ if p a then [items.length] else [] := by
  unfold indices
  rw [List.length_append, List.length_singleton, List.range_succ, List.filter_append]
  congr 1
  · refine List.filter_congr fun i hi => ?_
    rw [List.getElem?_append_left (List.mem_range.mp hi)]
  · cases h : p a <;> simp [h]

theorem forall₂_indices (p : α → Bool) (items : List α) :
    List.Forall₂ (fun i a => items[i]? = some a) (indices p items) (items.filter p) := by
  induction items using List.reverseRecOn with
  | nil => exact .nil
  | append_singleton items a ih =>
    have hbefore : List.Forall₂ (fun i b => (items ++ [a])[i]? = some b) (indices p items) (items.filter p) := by
      refine ih.imp fun i b hb => ?_
      obtain ⟨hi, -⟩ := List.getElem?_eq_some_iff.mp hb
      rwa [List.getElem?_append_left hi]
    rw [indices_append, List.filter_append]
    refine List.rel_append hbefore ?_
    cases h : p a with
    | true => simp [h]
    | false => simp [h]

/-- The items that are not at those places. -/
theorem zipIdx_not_indices (p : α → Bool) (q : α → Bool) (items : List α) :
    (items.zipIdx.filter fun (a, i) => !(indices p items).contains i && q a).map Prod.fst =
      items.filter fun a => !p a && q a := by
  have hsame : (items.zipIdx.filter fun (a, i) => !(indices p items).contains i && q a) =
      items.zipIdx.filter ((fun a => !p a && q a) ∘ Prod.fst) := by
    refine List.filter_congr fun (a, i) hmem => ?_
    have hat := List.mem_zipIdx_iff_getElem?.mp hmem
    have hin : (indices p items).contains i = p a := by
      rw [Bool.eq_iff_iff, List.contains_iff_mem, mem_indices, hat]
      rfl
    show (!(indices p items).contains i && q a) = (!p a && q a)
    rw [hin]
  rw [hsame, ← List.filter_map, List.zipIdx_map_fst]

/-- Where the items are told apart, one of them has one place. -/
theorem indices_eq_singleton {i : Nat} {a : α} (hat : items[i]? = some a) (ha : p a = true)
    (honly : ∀ j b, items[j]? = some b → p b = true → j = i) : indices p items = [i] := by
  have hnodup : (indices p items).Nodup := List.nodup_range.filter _
  refine List.perm_singleton.mp ((List.perm_ext_iff_of_nodup hnodup (List.nodup_singleton i)).mpr fun j => ?_)
  rw [mem_indices, List.mem_singleton]
  constructor
  · intro hj
    obtain ⟨b, hb, hpass⟩ := (Option.any_eq_true ..).mp hj
    exact honly j b hb hpass
  · rintro rfl
    rw [hat]
    exact ha

end Members

namespace Layout

variable {layout next : Layout} {id : String} {index : Nat} {anchor : Monitor} {computer : Bool}

/-- The places of the screens that move are those that the source collects. -/
theorem members_eq (hids : (layout.monitors.map Monitor.id).Nodup) (hanchor : layout.monitors[index]? = some anchor) :
    (if computer then
      (List.range layout.monitors.length).filter fun other => layout.monitors[other]?.any (·.peer = anchor.peer)
    else [index]) = indices (takes anchor computer) layout.monitors := by
  cases computer with
  | true => rfl
  | false =>
    refine (indices_eq_singleton hanchor (by simp [takes]) fun j m hm hsame => ?_).symm
    have hid : (layout.monitors.map Monitor.id)[j]? = (layout.monitors.map Monitor.id)[index]? := by
      rw [List.getElem?_map, List.getElem?_map, hm, hanchor]
      exact congrArg some (of_decide_eq_true hsame)
    obtain ⟨hj, -⟩ := List.getElem?_eq_some_iff.mp hm
    exact (List.getElem?_inj (by rwa [List.length_map]) hids).mp hid

theorem moveAll_indices (anchor : Monitor) (computer : Bool) (ex ey : Int) :
    layout.moveAll (indices (takes anchor computer) layout.monitors) ex ey = layout.shifted anchor computer ex ey := by
  unfold moveAll shifted
  refine congrArg Layout.mk (List.ext_getElem? fun i => ?_)
  rw [List.getElem?_mapIdx, List.getElem?_map]
  cases hm : layout.monitors[i]? with
  | none => rfl
  | some m =>
    have hin : (indices (takes anchor computer) layout.monitors).contains i = takes anchor computer m := by
      rw [Bool.eq_iff_iff, List.contains_iff_mem, mem_indices, hm]
      rfl
    rw [Option.map_some, Option.map_some, hin]
    rfl

/-! ## Where a move goes -/

/-- The nearest edge, else the place that was asked for. -/
def choose (moving : List Monitor) (others : List Bounds) (dx dy tolerance : Int) : Option (Int × Int) :=
  let found := (moving.filter (·.active)).flatMap fun m =>
    others.flatMap fun other => (sides m dx dy other).filterMap (against moving others m dx dy tolerance)
  match found.foldl nearest none with
  | some (_, delta) => some delta
  | none => fits moving others dx dy

theorem snap_indices {dx dy tolerance : Int} (htolerance : 0 ≤ tolerance ∧ tolerance ≤ maxCoordinate)
    (hanchor : layout.monitors[index]? = some anchor) :
    layout.snap (indices (takes anchor computer) layout.monitors) dx dy tolerance =
      if (layout.taken anchor computer).any (·.active) then
        choose (layout.taken anchor computer) (layout.met anchor computer) dx dy tolerance
      else none := by
  have hnonempty : (indices (takes anchor computer) layout.monitors).isEmpty = false := by
    rw [List.isEmpty_eq_false_iff]
    refine List.ne_nil_of_mem (mem_indices.mpr ?_ : index ∈ _)
    rw [hanchor]
    cases computer <;> simp [takes]
  have hmoving := mapM_eq_some.mpr (forall₂_indices (takes anchor computer) layout.monitors)
  have hothers := zipIdx_not_indices (takes anchor computer) Monitor.active layout.monitors
  unfold snap
  rw [if_neg (by rw [hnonempty]; simp [htolerance]), hmoving]
  simp only [Option.bind_eq_bind, Option.bind_some]
  unfold taken met
  rw [← hothers, List.map_map]
  cases (layout.monitors.filter (takes anchor computer)).any (·.active) <;> rfl

/-- **What a move does**: it shifts what it takes along by what is chosen. -/
theorem moved_eq {x y : Int} {tolerance : Nat} (hids : (layout.monitors.map Monitor.id).Nodup)
    (hanchor : anchor ∈ layout.monitors) : layout.moved anchor.id x y tolerance computer =
      match if (layout.taken anchor computer).any (·.active) then
        choose (layout.taken anchor computer) (layout.met anchor computer) (x - anchor.x) (y - anchor.y)
          (min tolerance maxSnap : Nat)
        else none with
      | none => .error "Screens cannot overlap"
      | some (ex, ey) => .ok (layout.shifted anchor computer ex ey) := by
  obtain ⟨index, hindex⟩ : ∃ index, layout.monitors.findIdx? (·.id = anchor.id) = some index := by
    rw [← Option.isSome_iff_exists, List.findIdx?_isSome, List.any_eq_true]
    exact ⟨anchor, hanchor, by simp⟩
  have hat : layout.monitors[index]? = some anchor := by
    obtain ⟨hlt, hid, -⟩ := List.findIdx?_eq_some_iff_getElem.mp hindex
    rw [List.getElem?_eq_getElem hlt]
    refine congrArg some (List.inj_on_of_nodup_map hids (List.getElem_mem hlt) hanchor ?_)
    exact of_decide_eq_true hid
  have htolerance : (0 : Int) ≤ (min tolerance maxSnap : Nat) ∧ ((min tolerance maxSnap : Nat) : Int) ≤ maxCoordinate := by
    unfold maxSnap maxCoordinate
    omega
  unfold moved
  simp only [hindex, hat, members_eq hids hat, snap_indices htolerance hat]
  cases (if (layout.taken anchor computer).any (·.active) then
        choose (layout.taken anchor computer) (layout.met anchor computer) (x - anchor.x) (y - anchor.y)
          (min tolerance maxSnap : Nat)
        else none) with
  | none => rfl
  | some delta => exact congrArg Except.ok (moveAll_indices anchor computer delta.1 delta.2)

/-! ## Edges -/

/-- Moved by (ex, ey) the screens stay on the canvas, and those that are active meet no other. -/
def FreeAt (moving : List Monitor) (others : List Bounds) (ex ey : Int) : Prop :=
  ∀ m ∈ moving, Monitor.inRange (m.x + ex) = true ∧ Monitor.inRange (m.y + ey) = true ∧
    (m.active = true → ∀ other ∈ others, (m.bounds.moved ex ey).apart other = true)

instance (moving : List Monitor) (others : List Bounds) (ex ey : Int) : Decidable (FreeAt moving others ex ey) := by
  unfold FreeAt
  infer_instance

/-- How far off a move is from the one that was asked for. -/
def distance (dx dy : Int) (delta : Int × Int) : Int :=
  (delta.1 - dx) * (delta.1 - dx) + (delta.2 - dy) * (delta.2 - dy)

/-- The move that puts a screen against a side, at a place along it. -/
def Side.delta (side : Side) (m : Monitor) (along : Int) : Int × Int :=
  if side.upright then (side.across - m.x, along - m.y) else (along - m.x, side.across - m.y)

section Snaps

variable {moving : List Monitor} {others : List Bounds} {m : Monitor} {dx dy tolerance : Int} {side : Side}
  {along : Int} {delta : Int × Int}

/-- **A snap**: against a side, within the tolerance of the move that was asked for, and free. -/
structure Snaps (moving : List Monitor) (others : List Bounds) (m : Monitor) (dx dy tolerance : Int) (side : Side)
    (along : Int) : Prop where
  touches : along < side.stop ∧ side.start < along + side.size
  near : ((side.delta m along).1 - dx).natAbs ≤ tolerance ∧ ((side.delta m along).2 - dy).natAbs ≤ tolerance
  free : FreeAt moving others (side.delta m along).1 (side.delta m along).2

/-- Lined up with the side's start, end or middle. -/
def Side.LinedUp (side : Side) (along : Int) : Prop :=
  along = side.start ∨ along = side.stop - side.size ∨
    along = side.start + (side.stop - side.start - side.size).tdiv 2

/-- What a side prefers: a place that is lined up, else the one where the screen was dragged. -/
def Prefers (moving : List Monitor) (others : List Bounds) (m : Monitor) (dx dy tolerance : Int) (side : Side)
    (along : Int) : Prop :=
  side.LinedUp along ∨ along = side.dragged ∧
    ∀ other, side.LinedUp other → ¬ Snaps moving others m dx dy tolerance side other

theorem fits_eq_some (hmoving : moving ≠ []) (hvalid : ∀ m ∈ moving, m.validGeometry = true) :
    fits moving others dx dy = some delta ↔ delta = (dx, dy) ∧ FreeAt moving others dx dy := by
  have hfree : (moving.all fun m =>
      let there := Bounds.moved m.bounds dx dy
      Monitor.inRange there.left && Monitor.inRange there.top && m.validGeometry &&
        (!m.active || others.all fun other => Bounds.apart there other)) = true ↔ FreeAt moving others dx dy := by
    rw [List.all_eq_true]
    unfold FreeAt
    refine forall₂_congr fun m hm => ?_
    rw [hvalid m hm]
    simp only [Monitor.bounds, Bounds.moved, Bool.and_true, Bool.and_eq_true, Bool.or_eq_true, Bool.not_eq_true',
      List.all_eq_true, and_assoc]
    cases m.active <;> simp
  have hsmall : FreeAt moving others dx dy → tryI32 dx = some dx ∧ tryI32 dy = some dy := by
    intro h
    obtain ⟨m, hm⟩ := List.exists_mem_of_ne_nil moving hmoving
    obtain ⟨hx, hy, -⟩ := h m hm
    have hm := hvalid m hm
    unfold Monitor.validGeometry Monitor.inRange maxCoordinate at *
    simp only [Bool.and_eq_true, decide_eq_true_eq] at *
    unfold tryI32
    exact ⟨if_pos (by omega), if_pos (by omega)⟩
  unfold fits
  dsimp only
  split
  · rename_i hall
    obtain ⟨hx, hy⟩ := hsmall (hfree.mp hall)
    rw [hx, hy]
    simp [hfree.mp hall, eq_comm]
  · rename_i hnot
    rw [hfree] at hnot
    simp [hnot]

/-- The places along a side that are lined up and near enough, the nearest first. -/
def linedUp (side : Side) (tolerance : Int) : List Int :=
  ([side.start, side.stop - side.size, side.start + (side.stop - side.start - side.size).tdiv 2].mergeSort
    fun a b => (a - side.dragged).natAbs ≤ (b - side.dragged).natAbs).filter
      fun along => (along - side.dragged).natAbs ≤ tolerance

theorem alongs_eq : alongs side tolerance = linedUp side tolerance ++ [side.dragged] := rfl

theorem mem_linedUp : along ∈ linedUp side tolerance ↔
    side.LinedUp along ∧ ((along - side.dragged).natAbs : Int) ≤ tolerance := by
  unfold linedUp Side.LinedUp
  simp only [List.mem_filter, List.mem_mergeSort, List.mem_cons, List.not_mem_nil, or_false, decide_eq_true_eq]

theorem linedUp_pairwise : (linedUp side tolerance).Pairwise fun a b =>
    (a - side.dragged).natAbs ≤ (b - side.dragged).natAbs := by
  let nearer : Int → Int → Bool := fun a b => (a - side.dragged).natAbs ≤ (b - side.dragged).natAbs
  have htrans : ∀ a b c, nearer a b = true → nearer b c = true → nearer a c = true := by
    simp only [nearer, decide_eq_true_eq]
    omega
  have htotal : ∀ a b, (nearer a b || nearer b a) = true := by
    simp only [nearer, Bool.or_eq_true, decide_eq_true_eq]
    omega
  exact ((List.pairwise_mergeSort htrans htotal _).imp of_decide_eq_true).filter _

/-- One place along a side. -/
def tryAt (moving : List Monitor) (others : List Bounds) (m : Monitor) (dx dy tolerance : Int) (side : Side)
    (along : Int) : Option (Int × (Int × Int)) :=
  if along ≥ side.stop ∨ along + side.size ≤ side.start then none
  else
    let (ex, ey) := side.delta m along
    if ((ex - dx).natAbs : Int) > tolerance ∨ ((ey - dy).natAbs : Int) > tolerance then none
    else (fits moving others ex ey).map fun delta => (distance dx dy (ex, ey), delta)

theorem against_eq : against moving others m dx dy tolerance side =
    (alongs side tolerance).findSome? (tryAt moving others m dx dy tolerance side) := by
  unfold against tryAt Side.delta distance
  refine congrArg (fun f => List.findSome? f _) (funext fun along => ?_)
  cases side.upright <;> rfl

variable {found : Int × (Int × Int)}

theorem tryAt_eq_some (hmoving : moving ≠ []) (hvalid : ∀ m ∈ moving, m.validGeometry = true) :
    tryAt moving others m dx dy tolerance side along = some found ↔ Snaps moving others m dx dy tolerance side along ∧
        found = (distance dx dy (side.delta m along), side.delta m along) := by
  unfold tryAt
  split
  · rename_i hmisses
    refine ⟨fun h => (by cases h), ?_⟩
    rintro ⟨hsnaps, -⟩
    have := hsnaps.touches
    omega
  rename_i htouches
  dsimp only
  split
  · rename_i hfar
    refine ⟨fun h => (by cases h), ?_⟩
    rintro ⟨hsnaps, -⟩
    have := hsnaps.near
    omega
  · rename_i hnear
    rw [Option.map_eq_some_iff]
    constructor
    · rintro ⟨delta, hfits, rfl⟩
      obtain ⟨rfl, hfree⟩ := (fits_eq_some hmoving hvalid).mp hfits
      exact ⟨⟨by omega, by omega, hfree⟩, rfl⟩
    · rintro ⟨hsnaps, rfl⟩
      exact ⟨_, (fits_eq_some hmoving hvalid).mpr ⟨rfl, hsnaps.free⟩, rfl⟩

/-- Across a side a snap is as far off as the side is, and along it as far as from where the screen was
dragged. -/
theorem delta_off {b : Bounds} (hside : side ∈ sides m dx dy b) : ∃ off, ∀ along,
    (side.delta m along).1 - dx = (if side.upright then off else along - side.dragged) ∧
      (side.delta m along).2 - dy = if side.upright then along - side.dragged else off := by
  refine ⟨if side.upright then side.across - m.x - dx else side.across - m.y - dy, fun along => ?_⟩
  simp only [sides, List.mem_cons, List.not_mem_nil, or_false] at hside
  unfold Side.delta
  rcases hside with rfl | rfl | rfl | rfl
  all_goals
    simp only [if_true, Bool.false_eq_true, if_false, true_and, and_true]
    omega

/-- A snap that is lined up is among the places that are tried. -/
theorem mem_linedUp_of_snaps {b : Bounds} (hside : side ∈ sides m dx dy b)
    (hsnaps : Snaps moving others m dx dy tolerance side along) (hlined : side.LinedUp along) :
    along ∈ linedUp side tolerance := by
  refine mem_linedUp.mpr ⟨hlined, ?_⟩
  obtain ⟨hx, hy⟩ := hsnaps.near
  obtain ⟨off, hoff⟩ := delta_off hside
  rw [(hoff along).1] at hx
  rw [(hoff along).2] at hy
  cases hup : side.upright with
  | true => simpa only [hup, if_true] using hy
  | false => simpa only [hup, Bool.false_eq_true, if_false] using hx

/-- How far off a snap is tells how far along the side it is from where the screen was dragged. -/
theorem distance_le {other : Int} {b : Bounds} (hside : side ∈ sides m dx dy b)
    (h : (along - side.dragged).natAbs ≤ (other - side.dragged).natAbs) :
    distance dx dy (side.delta m along) ≤ distance dx dy (side.delta m other) := by
  have hsquares : (along - side.dragged) * (along - side.dragged) ≤
      (other - side.dragged) * (other - side.dragged) := by
    rw [← abs_le_iff_mul_self_le, Int.abs_eq_natAbs, Int.abs_eq_natAbs]
    exact Int.ofNat_le.mpr h
  obtain ⟨off, hoff⟩ := delta_off hside
  unfold distance
  rw [(hoff along).1, (hoff along).2, (hoff other).1, (hoff other).2]
  cases side.upright with
  | true => exact Int.add_le_add_left hsquares _
  | false => exact Int.add_le_add_right hsquares _

/-- Nothing is found along a side where none of the places it prefers is a snap. -/
theorem against_eq_none {b : Bounds} (hside : side ∈ sides m dx dy b) (hmoving : moving ≠ [])
    (hvalid : ∀ m ∈ moving, m.validGeometry = true) (h : against moving others m dx dy tolerance side = none) :
    ∀ along, Snaps moving others m dx dy tolerance side along →
      ¬ Prefers moving others m dx dy tolerance side along := by
  rw [against_eq, alongs_eq, List.findSome?_eq_none_iff] at h
  intro along hsnaps hprefers
  have hin : along ∈ linedUp side tolerance ++ [side.dragged] := by
    rcases hprefers with hlined | ⟨rfl, -⟩
    · exact List.mem_append_left _ (mem_linedUp_of_snaps hside hsnaps hlined)
    · simp
  have hnone := h along hin
  rw [(tryAt_eq_some hmoving hvalid).mpr ⟨hsnaps, rfl⟩] at hnone
  cases hnone

/-- **What is found along a side** is a snap that the side prefers, and the nearest of those. -/
theorem against_eq_some {b : Bounds} (hside : side ∈ sides m dx dy b) (hmoving : moving ≠ [])
    (hvalid : ∀ m ∈ moving, m.validGeometry = true) (h : against moving others m dx dy tolerance side = some found) :
    ∃ along, Snaps moving others m dx dy tolerance side along ∧ Prefers moving others m dx dy tolerance side along ∧
      found = (distance dx dy (side.delta m along), side.delta m along) ∧
      ∀ other, Snaps moving others m dx dy tolerance side other →
        Prefers moving others m dx dy tolerance side other → found.1 ≤ distance dx dy (side.delta m other) := by
  rw [against_eq, alongs_eq, List.findSome?_append] at h
  cases hfirst : (linedUp side tolerance).findSome? (tryAt moving others m dx dy tolerance side) with
  | some first =>
    rw [hfirst, Option.some_or] at h
    cases h
    obtain ⟨front, along, back, hsplit, htried, hbefore⟩ := List.findSome?_eq_some_iff.mp hfirst
    obtain ⟨hsnaps, rfl⟩ := (tryAt_eq_some hmoving hvalid).mp htried
    have halong : along ∈ linedUp side tolerance := by
      rw [hsplit]
      simp
    have hlined := (mem_linedUp.mp halong).1
    refine ⟨along, hsnaps, .inl hlined, rfl, fun other hother hprefers => ?_⟩
    rcases hprefers with hotherLined | ⟨-, hnone⟩
    · have hin := mem_linedUp_of_snaps hside hother hotherLined
      have hsorted : (linedUp side tolerance).Pairwise _ := linedUp_pairwise
      rw [hsplit] at hin hsorted
      rcases List.mem_append.mp hin with hfront | hrest
      · have hnone := hbefore other hfront
        rw [(tryAt_eq_some hmoving hvalid).mpr ⟨hother, rfl⟩] at hnone
        cases hnone
      · rcases List.mem_cons.mp hrest with rfl | hback
        · exact Int.le_refl _
        · exact distance_le hside ((List.pairwise_cons.mp (List.pairwise_append.mp hsorted).2.1).1 other hback)
    · exact absurd hsnaps (hnone along hlined)
  | none =>
    rw [hfirst, Option.none_or, List.findSome?_singleton] at h
    obtain ⟨hsnaps, rfl⟩ := (tryAt_eq_some hmoving hvalid).mp h
    have hnone : ∀ other, side.LinedUp other → ¬ Snaps moving others m dx dy tolerance side other := by
      intro other hlined hother
      have hnot := List.findSome?_eq_none_iff.mp hfirst other (mem_linedUp_of_snaps hside hother hlined)
      rw [(tryAt_eq_some hmoving hvalid).mpr ⟨hother, rfl⟩] at hnot
      cases hnot
    refine ⟨side.dragged, hsnaps, .inr ⟨rfl, hnone⟩, rfl, fun other hother hprefers => ?_⟩
    rcases hprefers with hlined | ⟨rfl, -⟩
    · exact absurd hother (hnone other hlined)
    · exact Int.le_refl _

/-- What the fold over the snaps that are found keeps: one of them, and none nearer. -/
theorem foldl_nearest {best : Option (Int × (Int × Int))} {all : List (Int × (Int × Int))}
    (h : all.foldl nearest best = some found) :
    (found ∈ all ∨ best = some found) ∧ (∀ a ∈ all, found.1 ≤ a.1) ∧ ∀ b ∈ best, found.1 ≤ b.1 := by
  induction all generalizing best with
  | nil =>
    cases h
    exact ⟨.inr rfl, fun _ hnone => absurd hnone List.not_mem_nil, fun b hb => by cases hb; exact Int.le_refl _⟩
  | cons first rest ih =>
    obtain ⟨hone, hall, hbest⟩ := ih h
    rw [List.forall_mem_cons]
    unfold nearest at hone hbest
    cases best with
    | none =>
      refine ⟨.inl ?_, ⟨hbest first rfl, hall⟩, fun b hb => by cases hb⟩
      rcases hone with hrest | hfirst
      · exact .tail _ hrest
      · cases hfirst
        exact .head _
    | some b =>
      dsimp only at hone hbest
      split at hone
      · rename_i hnearer
        rw [if_pos hnearer] at hbest
        have hfirst := hbest first rfl
        refine ⟨.inl ?_, ⟨hfirst, hall⟩, fun c hc => ?_⟩
        · rcases hone with hrest | heq
          · exact .tail _ hrest
          · cases heq
            exact .head _
        · cases hc
          omega
      · rename_i hnot
        rw [if_neg hnot] at hbest
        have hb := hbest b rfl
        refine ⟨hone.imp_left (.tail _), ⟨by omega, hall⟩, fun c hc => ?_⟩
        cases hc
        exact hb

theorem foldl_nearest_eq_none {all : List (Int × (Int × Int))} :
    ∀ best, all.foldl nearest best = none → all = [] ∧ best = none := by
  induction all with
  | nil => exact fun best h => ⟨rfl, h⟩
  | cons first rest ih =>
    intro best h
    have hnone := (ih _ h).2
    unfold nearest at hnone
    cases best with
    | none => cases hnone
    | some b =>
      dsimp only at hnone
      split at hnone <;> cases hnone

/-- The snaps that some side prefers. -/
def Offers (moving : List Monitor) (others : List Bounds) (dx dy tolerance : Int) (delta : Int × Int) : Prop :=
  ∃ m ∈ moving, m.active = true ∧ ∃ other ∈ others, ∃ side ∈ sides m dx dy other, ∃ along,
    Snaps moving others m dx dy tolerance side along ∧ Prefers moving others m dx dy tolerance side along ∧
      delta = side.delta m along

/-- **Where a move goes**: to the nearest of the snaps that are offered, or where it was asked to. -/
structure Chosen (moving : List Monitor) (others : List Bounds) (dx dy tolerance : Int) (delta : Int × Int) : Prop where
  free : FreeAt moving others delta.1 delta.2
  near : delta = (dx, dy) ∨ ((delta.1 - dx).natAbs : Int) ≤ tolerance ∧ ((delta.2 - dy).natAbs : Int) ≤ tolerance
  offered : Offers moving others dx dy tolerance delta ∨
    delta = (dx, dy) ∧ ∀ other, ¬ Offers moving others dx dy tolerance other
  nearest : ∀ other, Offers moving others dx dy tolerance other → distance dx dy delta ≤ distance dx dy other

theorem mem_found : found ∈ ((moving.filter (·.active)).flatMap fun m =>
      others.flatMap fun other => (sides m dx dy other).filterMap (against moving others m dx dy tolerance)) ↔
    ∃ m ∈ moving, m.active = true ∧ ∃ other ∈ others, ∃ side ∈ sides m dx dy other,
      against moving others m dx dy tolerance side = some found := by
  simp only [List.mem_flatMap, List.mem_filter, List.mem_filterMap, and_assoc]

/-- What is offered has a snap at least as near that is found. -/
theorem exists_found (hmoving : moving ≠ []) (hvalid : ∀ m ∈ moving, m.validGeometry = true)
    (h : Offers moving others dx dy tolerance delta) : ∃ found, (∃ m ∈ moving, m.active = true ∧ ∃ other ∈ others,
      ∃ side ∈ sides m dx dy other, against moving others m dx dy tolerance side = some found) ∧
      found.1 ≤ distance dx dy delta := by
  obtain ⟨m, hm, hactive, other, hother, side, hside, along, hsnaps, hprefers, rfl⟩ := h
  cases hagainst : against moving others m dx dy tolerance side with
  | none => exact absurd hprefers (against_eq_none hside hmoving hvalid hagainst along hsnaps)
  | some found =>
    obtain ⟨-, -, -, -, hleast⟩ := against_eq_some hside hmoving hvalid hagainst
    exact ⟨found, ⟨m, hm, hactive, other, hother, side, hside, hagainst⟩, hleast along hsnaps hprefers⟩

theorem choose_eq_some (hmoving : moving ≠ []) (hvalid : ∀ m ∈ moving, m.validGeometry = true)
    (h : choose moving others dx dy tolerance = some delta) : Chosen moving others dx dy tolerance delta := by
  unfold choose at h
  dsimp only at h
  split at h
  · rename_i best chosen hfold
    cases h
    obtain ⟨hin, hall, -⟩ := foldl_nearest hfold
    obtain ⟨m, hm, hactive, other, hother, side, hside, hagainst⟩ := mem_found.mp (hin.resolve_right fun hnone => by cases hnone)
    obtain ⟨along, hsnaps, hprefers, heq, -⟩ := against_eq_some hside hmoving hvalid hagainst
    obtain ⟨rfl, rfl⟩ := Prod.mk.inj heq
    refine ⟨hsnaps.free, .inr hsnaps.near,
      .inl ⟨m, hm, hactive, other, hother, side, hside, along, hsnaps, hprefers, rfl⟩, fun next hnext => ?_⟩
    obtain ⟨found, hfound, hle⟩ := exists_found hmoving hvalid hnext
    exact (hall found (mem_found.mpr hfound)).trans hle
  · rename_i hfold
    obtain ⟨rfl, hfree⟩ := (fits_eq_some hmoving hvalid).mp h
    have hnone : ∀ other, ¬ Offers moving others dx dy tolerance other := by
      intro other hoffers
      obtain ⟨found, hfound, -⟩ := exists_found hmoving hvalid hoffers
      have hin := mem_found.mpr hfound
      rw [(foldl_nearest_eq_none none hfold).1] at hin
      cases hin
    exact ⟨hfree, .inl rfl, .inr ⟨rfl, hnone⟩, fun other hother => absurd hother (hnone other)⟩

theorem choose_eq_none (hmoving : moving ≠ []) (hvalid : ∀ m ∈ moving, m.validGeometry = true)
    (h : choose moving others dx dy tolerance = none) : ¬ FreeAt moving others dx dy := by
  intro hfree
  unfold choose at h
  dsimp only at h
  split at h
  · cases h
  · rw [(fits_eq_some hmoving hvalid).mpr ⟨rfl, hfree⟩] at h
    cases h

end Snaps

/-! ## The layout that is moved -/

theorem overlaps_shift (m other : Monitor) (ex ey : Int) :
    (m.shift ex ey).overlaps other = !(m.bounds.moved ex ey).apart other.bounds := by
  unfold Monitor.overlaps Monitor.shift Bounds.apart Bounds.moved Monitor.bounds
  rw [Bool.eq_iff_iff]
  simp only [Bool.and_eq_true, Bool.not_eq_true', Bool.or_eq_false_iff, decide_eq_true_eq, decide_eq_false_iff_not]
  omega

theorem overlaps_shift_shift (m other : Monitor) (ex ey : Int) :
    (m.shift ex ey).overlaps (other.shift ex ey) = m.overlaps other := by
  unfold Monitor.overlaps Monitor.shift Monitor.bounds
  rw [Bool.eq_iff_iff]
  simp only [Bool.and_eq_true, decide_eq_true_eq]
  omega

/-- A layout whose screens are moved where they are free is accepted. -/
theorem shifted_valid (hvalid : layout.Valid) {ex ey : Int}
    (hfree : FreeAt (layout.taken anchor computer) (layout.met anchor computer) ex ey) :
    (layout.shifted anchor computer ex ey).Valid := by
  have htaken : ∀ {m}, m ∈ layout.monitors → takes anchor computer m = true → m ∈ layout.taken anchor computer :=
    fun hm htakes => List.mem_filter.mpr ⟨hm, htakes⟩
  have hmeets : ∀ {m other}, m ∈ layout.monitors → other ∈ layout.monitors → takes anchor computer m = true →
      takes anchor computer other = false → Beside (m.shift ex ey) other := by
    intro m other hm hother htakes hstays hactive hotherActive
    have hin : other.bounds ∈ layout.met anchor computer :=
      List.mem_map_of_mem (List.mem_filter.mpr ⟨hother, by simp [hstays, hotherActive]⟩)
    rw [overlaps_shift, (hfree m (htaken hm htakes)).2.2 hactive _ hin]
    rfl
  refine ⟨?_, ?_, ?_, ?_⟩
  · unfold shifted
    rw [List.length_map]
    exact hvalid.length
  · unfold shifted
    rw [List.map_map]
    have hids : (Monitor.id ∘ fun m => if takes anchor computer m then m.shift ex ey else m) = Monitor.id := by
      funext m
      show (if takes anchor computer m then m.shift ex ey else m).id = m.id
      split <;> rfl
    rw [hids]
    exact hvalid.ids
  · intro there hthere
    obtain ⟨m, hm, rfl⟩ := List.mem_map.mp hthere
    have hgood := hvalid.monitors m hm
    split
    · rename_i htakes
      obtain ⟨hx, hy, -⟩ := hfree m (htaken hm htakes)
      have hsize := hgood.geometry
      refine ⟨hgood.texts, hgood.display, ?_⟩
      unfold Monitor.validGeometry Monitor.shift at *
      simp only [Bool.and_eq_true] at hsize ⊢
      exact ⟨⟨⟨hx, hy⟩, hsize.1.2⟩, hsize.2⟩
    · exact hgood
  · refine List.pairwise_map.mpr (hvalid.beside.imp_of_mem fun {a b} ha hb hbeside => ?_)
    cases htakesA : takes anchor computer a with
    | true =>
      cases htakesB : takes anchor computer b with
      | true =>
        rw [if_pos rfl, if_pos rfl]
        exact fun hactive hother => (overlaps_shift_shift a b ex ey).trans (hbeside hactive hother)
      | false =>
        rw [if_pos rfl, if_neg Bool.false_ne_true]
        exact hmeets ha hb htakesA htakesB
    | false =>
      cases htakesB : takes anchor computer b with
      | true =>
        rw [if_neg Bool.false_ne_true, if_pos rfl]
        exact symm (hmeets hb ha htakesB htakesA)
      | false =>
        rw [if_neg Bool.false_ne_true, if_neg Bool.false_ne_true]
        exact hbeside

/-- A move goes where `Chosen` says, or it fails and has a reason to. -/
theorem moved_cases (hvalid : layout.Valid) (hanchor : anchor ∈ layout.monitors) (computer : Bool) (x y : Int)
    (tolerance : Nat) :
    (∃ delta, layout.moved anchor.id x y tolerance computer = .ok (layout.shifted anchor computer delta.1 delta.2) ∧
      Chosen (layout.taken anchor computer) (layout.met anchor computer) (x - anchor.x) (y - anchor.y)
        (min tolerance maxSnap : Nat) delta) ∨
    layout.moved anchor.id x y tolerance computer = .error "Screens cannot overlap" ∧
      ((∀ m ∈ layout.taken anchor computer, m.active = false) ∨
        ¬ FreeAt (layout.taken anchor computer) (layout.met anchor computer) (x - anchor.x) (y - anchor.y)) := by
  have hmoving : layout.taken anchor computer ≠ [] := by
    refine List.ne_nil_of_mem (List.mem_filter.mpr ⟨hanchor, ?_⟩ : anchor ∈ _)
    cases computer <;> simp [takes]
  have hgeometry : ∀ m ∈ layout.taken anchor computer, m.validGeometry = true := fun m hm =>
    (hvalid.monitors m (List.mem_filter.mp hm).1).geometry
  rw [moved_eq hvalid.ids hanchor]
  cases hactive : (layout.taken anchor computer).any (·.active) with
  | false =>
    rw [if_neg Bool.false_ne_true]
    exact .inr ⟨rfl, .inl fun m hm => Bool.eq_false_iff.mpr (List.any_eq_false.mp hactive m hm)⟩
  | true =>
    rw [if_pos rfl]
    cases hchoose : choose (layout.taken anchor computer) (layout.met anchor computer) (x - anchor.x) (y - anchor.y)
        (min tolerance maxSnap : Nat) with
    | none => exact .inr ⟨rfl, .inr (choose_eq_none hmoving hgeometry hchoose)⟩
    | some delta => exact .inl ⟨delta, rfl, choose_eq_some hmoving hgeometry hchoose⟩

/-- A move that reaches for no edge goes where it was asked to, where that is free. -/
theorem moved_exact (hvalid : layout.Valid) (hanchor : anchor ∈ layout.monitors) (computer : Bool) (x y : Int)
    (hactive : anchor.active = true)
    (hfree : FreeAt (layout.taken anchor computer) (layout.met anchor computer) (x - anchor.x) (y - anchor.y)) :
    layout.moved anchor.id x y 0 computer = .ok (layout.shifted anchor computer (x - anchor.x) (y - anchor.y)) := by
  have hmoving : anchor ∈ layout.taken anchor computer :=
    List.mem_filter.mpr ⟨hanchor, by cases computer <;> simp [takes]⟩
  rcases moved_cases hvalid hanchor computer x y 0 with ⟨delta, hmoved, hchosen⟩ | ⟨-, hreason⟩
  · have hdelta : delta = (x - anchor.x, y - anchor.y) := by
      rcases hchosen.near with hsame | ⟨hx, hy⟩
      · exact hsame
      · rw [Nat.zero_min] at hx hy
        exact Prod.ext (by dsimp only; omega) (by dsimp only; omega)
    rw [hmoved, hdelta]
  · rcases hreason with hidle | hblocked
    · rw [hidle anchor hmoving] at hactive
      cases hactive
    · exact absurd hfree hblocked

/-! ## The law -/

/-- **A layout in which a computer was dragged**: its screens moved by one distance, and all others stayed. -/
structure Drags (layout : Layout) (anchor : Monitor) (computer : Bool) (x y : Int) (tolerance : Nat) (next : Layout) :
    Prop where
  valid : next.validate = .ok ()
  moves : ∃ delta, next = layout.shifted anchor computer delta.1 delta.2 ∧
    Chosen (layout.taken anchor computer) (layout.met anchor computer) (x - anchor.x) (y - anchor.y)
      (min tolerance maxSnap : Nat) delta

/-- **Dragging is safe and local.** It fails only where the spot is not free, or none of the screens that would
move is active. -/
theorem moving_is_safe (layout : Layout) (hvalid : layout.validate = .ok ()) (anchor : Monitor)
    (hanchor : anchor ∈ layout.monitors) (computer : Bool) (x y : Int) (tolerance : Nat) :
    (∀ next, layout.moved anchor.id x y tolerance computer = .ok next →
      Drags layout anchor computer x y tolerance next) ∧
    ∀ error, layout.moved anchor.id x y tolerance computer = .error error →
      (∀ m ∈ layout.taken anchor computer, m.active = false) ∨
        ¬ FreeAt (layout.taken anchor computer) (layout.met anchor computer) (x - anchor.x) (y - anchor.y) := by
  have hgood := validate_eq_ok.mp hvalid
  rcases moved_cases hgood hanchor computer x y tolerance with ⟨delta, hmoved, hchosen⟩ | ⟨hmoved, hreason⟩
  · rw [hmoved]
    refine ⟨fun next h => ?_, fun error h => by cases h⟩
    cases h
    exact ⟨validate_eq_ok.mpr (shifted_valid hgood hchosen.free), delta, rfl, hchosen⟩
  · rw [hmoved]
    exact ⟨fun next h => (by cases h), fun error _ => hreason⟩

/-- This computer and a paired one with one screen, which is active or not. -/
def pair (active : Bool) : Layout :=
  ⟨[⟨"local", "This computer", none, none, 0, 0, 1000, 1000⟩,
    ⟨"peer:b/d", "d · b", some "b", some ⟨"d", "d", ⟨0, 0, 1000, 1000⟩, 0, 0, active⟩, 5000, 0, 1000, 1000⟩]⟩

/-- The screen of the paired computer. -/
def dragged (active : Bool) : Monitor :=
  ⟨"peer:b/d", "d · b", some "b", some ⟨"d", "d", ⟨0, 0, 1000, 1000⟩, 0, 0, active⟩, 5000, 0, 1000, 1000⟩

/-- Dragged to ten units below the top of the other's right edge, the screen moves. -/
theorem moving_is_safe_pair : ∃ next, (pair true).moved "peer:b/d" 1000 10 50 true = .ok next ∧
    Drags (pair true) (dragged true) true 1000 10 50 next := by
  obtain ⟨hsafe, hfails⟩ := moving_is_safe (pair true) (isOk_iff.mp (by decide +kernel)) (dragged true) (by decide)
    true 1000 10 50
  cases hnext : (pair true).moved "peer:b/d" 1000 10 50 true with
  | error error => exact absurd (hfails error hnext) (by decide +kernel)
  | ok next => exact ⟨next, rfl, hsafe next hnext⟩

/-- Where the screen was dragged no side prefers to have it, as it can be lined up with the other's top. -/
theorem not_offered_pair : ¬ Offers ((pair true).taken (dragged true) true) ((pair true).met (dragged true) true)
    (-4000) 10 50 (-4000, 10) := by
  rintro ⟨m, hm, -, other, hother, side, hside, along, -, hprefers, hdelta⟩
  obtain rfl : m = dragged true := by
    rw [show (pair true).taken (dragged true) true = [dragged true] by decide +kernel] at hm
    exact List.mem_singleton.mp hm
  obtain rfl : other = ⟨0, 0, 1000, 1000⟩ := by
    rw [show (pair true).met (dragged true) true = [⟨0, 0, 1000, 1000⟩] by decide +kernel] at hother
    exact List.mem_singleton.mp hother
  have hlined : Snaps ((pair true).taken (dragged true) true) ((pair true).met (dragged true) true) (dragged true)
      (-4000) 10 50 ⟨true, 1000, 0, 1000, 1000, 10⟩ 0 := ⟨by decide, by decide, by decide +kernel⟩
  have hup : side = ⟨true, 1000, 0, 1000, 1000, 10⟩ ∧ along = 10 := by
    rw [show sides (dragged true) (-4000) 10 ⟨0, 0, 1000, 1000⟩ = [⟨true, -1000, 0, 1000, 1000, 10⟩,
      ⟨true, 1000, 0, 1000, 1000, 10⟩, ⟨false, -1000, 0, 1000, 1000, 1000⟩,
      ⟨false, 1000, 0, 1000, 1000, 1000⟩] by decide] at hside
    simp only [List.mem_cons, List.not_mem_nil, or_false] at hside
    rcases hside with rfl | rfl | rfl | rfl <;> simp [Side.delta, dragged] at hdelta ⊢
    omega
  obtain ⟨rfl, rfl⟩ := hup
  rcases hprefers with hline | ⟨-, hnone⟩
  · exact absurd hline (by unfold Side.LinedUp; decide)
  · exact hnone 0 (.inl rfl) hlined

/-- Screens that are not active do not move even where the spot is free, and a side prefers being lined up to
the place where the screen was dragged, which is nearer. -/
theorem moving_lines_up :
    (¬ ∀ (layout : Layout) (anchor : Monitor) (x y : Int) (tolerance : Nat), layout.validate = .ok () →
      anchor ∈ layout.monitors →
      FreeAt (layout.taken anchor true) (layout.met anchor true) (x - anchor.x) (y - anchor.y) →
      (layout.moved anchor.id x y tolerance true).isOk = true) ∧
    ¬ ∀ (layout : Layout) (anchor : Monitor) (x y : Int) (tolerance : Nat) (delta : Int × Int) (m : Monitor)
      (side : Side) (other : Bounds) (along : Int), layout.validate = .ok () → anchor ∈ layout.monitors →
      layout.moved anchor.id x y tolerance true = .ok (layout.shifted anchor true delta.1 delta.2) →
      m ∈ layout.taken anchor true → other ∈ layout.met anchor true →
      side ∈ sides m (x - anchor.x) (y - anchor.y) other →
      Snaps (layout.taken anchor true) (layout.met anchor true) m (x - anchor.x) (y - anchor.y) tolerance side along →
      distance (x - anchor.x) (y - anchor.y) delta ≤ distance (x - anchor.x) (y - anchor.y) (side.delta m along) := by
  constructor
  · intro h
    have hok := h (pair false) (dragged false) 1000 10 50 (isOk_iff.mp (by decide +kernel)) (by decide)
      (by decide +kernel)
    rw [moved_eq (by decide) (by decide), if_neg (by decide +kernel)] at hok
    cases hok
  · intro h
    have hvalid : (pair true).validate = .ok () := isOk_iff.mp (by decide +kernel)
    rcases moved_cases (validate_eq_ok.mp hvalid) (show dragged true ∈ (pair true).monitors by decide) true 1000 10 50
      with ⟨delta, hmoved, hchosen⟩ | ⟨-, hreason⟩
    · have hnear := h (pair true) (dragged true) 1000 10 50 delta (dragged true) ⟨true, 1000, 0, 1000, 1000, 10⟩
        ⟨0, 0, 1000, 1000⟩ 10 hvalid (by decide) hmoved (by decide +kernel) (by decide +kernel) (by decide)
        ⟨by decide, by decide, by decide +kernel⟩
      -- So the screen would go where it was dragged, which no side prefers, though one offers a snap.
      have hrequest : delta = (-4000, 10) := by
        have hzero : distance (1000 - (dragged true).x) (10 - (dragged true).y) delta ≤ 0 := hnear
        unfold distance dragged at hzero
        have hx := mul_self_nonneg (delta.1 - (1000 - 5000))
        have hy := mul_self_nonneg (delta.2 - (10 - 0))
        have hfirst : delta.1 - (1000 - 5000) = 0 := mul_self_eq_zero.mp (by dsimp only at hzero; omega)
        have hsecond : delta.2 - (10 - 0) = 0 := mul_self_eq_zero.mp (by dsimp only at hzero; omega)
        exact Prod.ext (by dsimp only; omega) (by dsimp only; omega)
      rcases hchosen.offered with hoffered | ⟨-, hnone⟩
      · exact not_offered_pair (hrequest ▸ hoffered)
      · refine hnone (-4000, 0) ⟨dragged true, by decide +kernel, rfl, ⟨0, 0, 1000, 1000⟩, by decide +kernel,
          ⟨true, 1000, 0, 1000, 1000, 10⟩, by decide, 0, ⟨by decide, by decide, by decide +kernel⟩, .inl (.inl rfl), rfl⟩
    · exact absurd hreason (by decide +kernel)

end Layout

end Zflow.App
