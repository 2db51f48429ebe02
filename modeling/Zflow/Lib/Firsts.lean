import Mathlib.Data.List.Induction
import Mathlib.Data.List.Nodup

/-!
# The first of each kind

A list is read from the left and an item is kept when its key is new. What is kept begins with what was kept before
(`push_start`), and reading a bounded start of it again adds nothing (`firsts_again`).
-/

namespace Zflow.Lib.Firsts

variable {α κ : Type*} [DecidableEq κ] (key : α → κ)

/-- One item, kept when its key is new. -/
def push (kept : List α) (a : α) : List α := if kept.any fun known => key known = key a then kept else kept ++ [a]

/-- The first item of each key. -/
def firsts (items : List α) : List α := items.foldl (push key) []

variable {key} {kept items rest : List α} {a : α}

theorem push_old (h : key a ∈ kept.map key) : push key kept a = kept := by
  obtain ⟨known, hknown, hkey⟩ := List.mem_map.mp h
  exact if_pos (List.any_eq_true.mpr ⟨known, hknown, decide_eq_true hkey⟩)

theorem push_new (h : key a ∉ kept.map key) : push key kept a = kept ++ [a] := by
  refine if_neg fun hany => h ?_
  obtain ⟨known, hknown, hkey⟩ := List.any_eq_true.mp hany
  exact List.mem_map.mpr ⟨known, hknown, of_decide_eq_true hkey⟩

/-- Items whose keys are known add nothing. -/
theorem foldl_push_old (h : ∀ a ∈ items, key a ∈ kept.map key) : items.foldl (push key) kept = kept := by
  induction items with
  | nil => rfl
  | cons a items ih =>
    obtain ⟨ha, hitems⟩ := List.forall_mem_cons.mp h
    rw [List.foldl_cons, push_old ha]
    exact ih hitems

/-- Items whose keys are new and distinct are all kept. -/
theorem foldl_push_new (h : ((kept ++ items).map key).Nodup) : items.foldl (push key) kept = kept ++ items := by
  induction items generalizing kept with
  | nil => exact (List.append_nil kept).symm
  | cons a items ih =>
    have hnew : key a ∉ kept.map key := by
      rw [List.map_append, List.map_cons] at h
      exact fun hmem => (List.nodup_append.mp h).2.2 _ hmem _ List.mem_cons_self rfl
    rw [List.foldl_cons, push_new hnew, ih (by rwa [List.append_assoc]), List.append_assoc]
    rfl

/-- **What is kept grows at its end**, by items of the list, and its keys stay distinct. -/
theorem foldl_push (h : (kept.map key).Nodup) (items : List α) : ∃ more, items.foldl (push key) kept = kept ++ more ∧ more ⊆ items ∧
    ((kept ++ more).map key).Nodup := by
  induction items generalizing kept with
  | nil => exact ⟨[], (List.append_nil kept).symm, List.nil_subset _, by rwa [List.append_nil]⟩
  | cons a items ih =>
    by_cases ha : key a ∈ kept.map key
    · obtain ⟨more, hfold, hsub, hnodup⟩ := ih h
      rw [List.foldl_cons, push_old ha]
      exact ⟨more, hfold, List.subset_cons_of_subset a hsub, hnodup⟩
    · have hnext : ((kept ++ [a]).map key).Nodup := by
        rw [List.map_append]
        exact List.nodup_append.mpr ⟨h, List.nodup_singleton _, fun x hx y hy hxy =>
          ha (List.mem_singleton.mp hy ▸ hxy ▸ hx)⟩
      obtain ⟨more, hfold, hsub, hnodup⟩ := ih hnext
      rw [List.foldl_cons, push_new ha]
      refine ⟨a :: more, ?_, List.cons_subset_cons a hsub, ?_⟩
      · rw [hfold, List.append_assoc]
        rfl
      · rwa [List.append_assoc] at hnodup

variable (key) in
theorem nodup_firsts (items : List α) : ((firsts key items).map key).Nodup := by
  have hnil : (([] : List α).map key).Nodup := List.nodup_nil
  obtain ⟨more, hfold, -, hnodup⟩ := foldl_push hnil items
  unfold firsts
  rw [hfold]
  exact hnodup

theorem mem_firsts (h : a ∈ firsts key items) : a ∈ items := by
  have hnil : (([] : List α).map key).Nodup := List.nodup_nil
  obtain ⟨more, hfold, hsub, -⟩ := foldl_push hnil items
  unfold firsts at h
  rw [hfold] at h
  exact hsub h

/-- What comes first in the list comes first in what is kept. -/
theorem firsts_append (items rest : List α) : firsts key items <+: firsts key (items ++ rest) := by
  obtain ⟨more, hfold, -⟩ := foldl_push (nodup_firsts key items) rest
  unfold firsts
  rw [List.foldl_append]
  exact ⟨more, hfold.symm⟩

/-- **Reading the same items again before what was kept of them changes nothing**, however much of it was kept. -/
theorem firsts_again (items rest : List α) (bound : Nat) :
    (firsts key (items ++ (firsts key (items ++ rest)).take bound)).take bound =
      (firsts key (items ++ rest)).take bound := by
  obtain ⟨more, hfold, -, hnodup⟩ := foldl_push (nodup_firsts key items) rest
  have hwhole : firsts key (items ++ rest) = firsts key items ++ more := by
    unfold firsts
    rw [List.foldl_append]
    exact hfold
  have hagain : ∀ again, firsts key (items ++ again) = again.foldl (push key) (firsts key items) := fun again => by
    unfold firsts
    rw [List.foldl_append]
  rw [hwhole, hagain, List.take_append, List.foldl_append]
  have hknown : ∀ a ∈ (firsts key items).take bound, key a ∈ (firsts key items).map key := fun a ha =>
    List.mem_map_of_mem (List.mem_of_mem_take ha)
  have hmore : ((firsts key items ++ more.take (bound - (firsts key items).length)).map key).Nodup :=
    hnodup.sublist (((List.take_sublist _ _).append_left _).map key)
  rw [foldl_push_old hknown, foldl_push_new hmore, List.take_append, List.take_take, Nat.min_self]

end Zflow.Lib.Firsts
