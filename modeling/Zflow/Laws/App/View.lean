import Zflow.App.LayoutModel
import Zflow.Laws.Desktop.Layout

/-!
# What a view that is accepted holds

`validate` reports the first error it meets; a view passes exactly where it is `Valid`.
-/

namespace Zflow.App

open Lib Desktop

/-- A monitor whose texts, display, place and size are accepted. -/
structure Monitor.Valid (m : Monitor) : Prop where
  texts : ∀ value ∈ m.id :: m.label :: m.peer.toList, validText value = true
  display : ∀ display ∈ m.display, display.validate = .ok ()
  geometry : m.validGeometry = true

theorem Monitor.overlaps_symm (a b : Monitor) : a.overlaps b = b.overlaps a := by
  unfold Monitor.overlaps
  rw [Bool.eq_iff_iff]
  simp only [Bool.and_eq_true, decide_eq_true_eq]
  omega

/-- Two monitors that take part do not overlap. -/
def Beside (a b : Monitor) : Prop := a.active = true → b.active = true → a.overlaps b = false

instance : Std.Symm Beside where
  symm a b h hb ha := by rw [Monitor.overlaps_symm, h ha hb]

/-- **A view that is accepted.** -/
structure Layout.Valid (layout : Layout) : Prop where
  length : layout.monitors.length ≤ maxSharedTiles
  ids : (layout.monitors.map Monitor.id).Nodup
  monitors : ∀ m ∈ layout.monitors, m.Valid
  beside : layout.monitors.Pairwise Beside

/-- One monitor's checks and those of the rest. -/
theorem validateMonitorsFrom_cons {met : List Monitor} {m : Monitor} {rest : List Monitor} :
    validateMonitorsFrom met (m :: rest) = .ok () ↔
      (m.Valid ∧ m.id ∉ met.map Monitor.id ∧ ∀ other ∈ met, Beside m other) ∧
        validateMonitorsFrom (met ++ [m]) rest = .ok () := by
  have hvalid : m.Valid ↔ (∀ value ∈ m.id :: m.label :: m.peer.toList, validText value = true) ∧
      (∀ display ∈ m.display, display.validate = .ok ()) ∧ m.validGeometry = true :=
    ⟨fun h => ⟨h.texts, h.display, h.geometry⟩, fun h => ⟨h.1, h.2.1, h.2.2⟩⟩
  have htexts : ((m.id :: m.label :: m.peer.toList).forM fun value => refuseIf (!validText value)
      "Monitor IDs, labels, and peer names must contain 1 to 256 bytes without control characters.") = .ok () ↔
      ∀ value ∈ m.id :: m.label :: m.peer.toList, validText value = true := by
    rw [forM_eq_ok]
    simp only [refuseIf_eq_ok, Bool.not_eq_false']
  have hfresh : refuseIf (met.any (·.id = m.id)) "Monitor IDs must be unique." = .ok () ↔
      m.id ∉ met.map Monitor.id := by
    rw [refuseIf_eq_ok, List.any_eq_false]
    simp [List.mem_map]
  have hbeside : (met.forM fun other => refuseIf (m.active && other.active && m.overlaps other)
      ("Monitors " ++ m.label ++ " and " ++ other.label ++ " overlap.")) = .ok () ↔
      ∀ other ∈ met, Beside m other := by
    rw [forM_eq_ok]
    refine forall₂_congr fun other _ => ?_
    rw [refuseIf_eq_ok]
    unfold Beside
    cases m.active <;> cases other.active <;> simp
  show (_ >>= _) = _ ↔ _
  rw [check_bind_eq_ok, htexts, hvalid]
  show _ ∧ (_ >>= _) = _ ↔ _
  rw [check_bind_eq_ok, hfresh]
  cases m.display with
  | none =>
    simp only [check_bind_eq_ok, hbeside, refuseIf_eq_ok, Bool.not_eq_false', Option.mem_def, reduceCtorEq,
      false_imp_iff, implies_true, true_and]
    tauto
  | some display =>
    simp only [check_bind_eq_ok, hbeside, refuseIf_eq_ok, Bool.not_eq_false', Option.mem_def,
      Option.some.injEq, forall_eq']
    tauto

theorem validateMonitorsFrom_eq_ok {met monitors : List Monitor} :
    validateMonitorsFrom met monitors = .ok () ↔ (∀ m ∈ monitors, m.Valid) ∧
      (monitors.map Monitor.id).Nodup ∧ monitors.Pairwise Beside ∧
      ∀ m ∈ monitors, m.id ∉ met.map Monitor.id ∧ ∀ other ∈ met, Beside m other := by
  induction monitors generalizing met with
  | nil => simp [validateMonitorsFrom]
  | cons m rest ih =>
    rw [validateMonitorsFrom_cons, ih, List.map_cons, List.nodup_cons, List.pairwise_cons, List.forall_mem_cons,
      List.forall_mem_cons]
    simp only [List.map_append, List.map_cons, List.map_nil, List.mem_append, List.mem_singleton, not_or]
    constructor
    · rintro ⟨⟨hvalid, hfresh, hbeside⟩, hrest, hids, hpairs, happart⟩
      refine ⟨⟨hvalid, hrest⟩, ⟨fun hmem => ?_, hids⟩, ⟨fun other hother => ?_, hpairs⟩, ⟨hfresh, hbeside⟩,
        fun other hother => ?_⟩
      · obtain ⟨other, hother, hid⟩ := List.mem_map.mp hmem
        exact (happart other hother).1.2 hid
      · exact symm ((happart other hother).2 m (.inr rfl))
      · exact ⟨(happart other hother).1.1, fun before hbefore => (happart other hother).2 before (.inl hbefore)⟩
    · rintro ⟨⟨hvalid, hrest⟩, ⟨hnew, hids⟩, ⟨hfirst, hpairs⟩, ⟨hfresh, hbeside⟩, happart⟩
      refine ⟨⟨hvalid, hfresh, hbeside⟩, hrest, hids, hpairs, fun other hother => ⟨⟨(happart other hother).1, ?_⟩, ?_⟩⟩
      · exact fun hid => hnew (hid ▸ List.mem_map_of_mem hother)
      · rintro before (hbefore | rfl)
        · exact (happart other hother).2 before hbefore
        · exact symm (hfirst other hother)

namespace Layout

theorem validate_eq_ok {layout : Layout} : layout.validate = .ok () ↔ layout.Valid := by
  show (refuseIf _ _ >>= _) = _ ↔ _
  rw [check_bind_eq_ok, validateMonitorsFrom_eq_ok]
  simp only [refuseIf_eq_ok, Bool.not_eq_false', decide_eq_true_eq, List.map_nil, List.not_mem_nil,
    not_false_eq_true, false_imp_iff, implies_true, and_true]
  constructor
  · intro h
    obtain ⟨hlength, hmonitors, hids, hbeside⟩ := h
    exact ⟨hlength, hids, hmonitors, hbeside⟩
  · exact fun h => ⟨h.length, h.monitors, h.ids, h.beside⟩

end Layout

end Zflow.App
