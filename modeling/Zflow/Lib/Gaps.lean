import Mathlib.Data.Set.Card
import Mathlib.Order.Interval.Finset.Nat

/-!
# Numbers that get lost, come late or come twice

Items numbered from 1 arrive in any order, with gaps and repeats. A number counts when it first arrives as the highest so
far, or less than `window` below it. So what has not arrived is what lies up to the highest number and does not count, but
for first arrivals that were too late to tell from repeats (`Counted`). A number that arrived before and is still near the
highest counts (`counted_of_mem`), and a first arrival adds one to what counts (`count_snoc`).
-/

namespace Zflow.Lib.Gaps

/-- The highest number so far. -/
def highest (arrived : List Nat) : Nat := arrived.foldl max 0

/-- The number is above the highest, or less than `window` below it. -/
def Near (window top n : Nat) : Prop := top < n ∨ top - n < window

instance (window top n : Nat) : Decidable (Near window top n) := inferInstanceAs (Decidable (_ ∨ _))

/-- The number was near the highest when it first arrived. -/
def Counted (window : Nat) (arrived : List Nat) (n : Nat) : Prop :=
  n ≠ 0 ∧ ∃ before after, arrived = before ++ n :: after ∧ n ∉ before ∧ Near window (highest before) n

/-- How many numbers count. -/
noncomputable def count (window : Nat) (arrived : List Nat) : Nat := {n | Counted window arrived n}.ncard

variable {window n m : Nat} {arrived : List Nat}

theorem highest_snoc (arrived : List Nat) (n : Nat) : highest (arrived ++ [n]) = max (highest arrived) n := by
  unfold highest
  rw [List.foldl_append]
  rfl

theorem highest_append_le (arrived more : List Nat) : highest arrived ≤ highest (arrived ++ more) := by
  induction more using List.reverseRecOn with
  | nil => rw [List.append_nil]
  | append_singleton more n ih =>
    rw [← List.append_assoc, highest_snoc]
    exact ih.trans (Nat.le_max_left _ _)

theorem le_highest (h : n ∈ arrived) : n ≤ highest arrived := by
  obtain ⟨before, after, rfl⟩ := List.append_of_mem h
  have hgrows := highest_append_le (before ++ [n]) after
  rw [highest_snoc, List.append_assoc] at hgrows
  exact (Nat.le_max_right _ _).trans hgrows

theorem Counted.mem (h : Counted window arrived n) : n ∈ arrived := by
  obtain ⟨-, before, after, rfl, -⟩ := h
  simp

/-- **A number that arrived and is near the highest counts**: it was near when it first arrived. -/
theorem counted_of_mem (hmem : n ∈ arrived) (hne : n ≠ 0) (hnear : highest arrived - n < window) :
    Counted window arrived n := by
  obtain ⟨before, after, rfl, hfirst⟩ := List.eq_append_cons_of_mem hmem
  have hle := highest_append_le before (n :: after)
  exact ⟨hne, before, after, rfl, hfirst, .inr (by omega)⟩

theorem counted_snoc : Counted window (arrived ++ [n]) m ↔
    Counted window arrived m ∨ (m = n ∧ n ≠ 0 ∧ n ∉ arrived ∧ Near window (highest arrived) n) := by
  constructor
  · rintro ⟨hne, before, after, harrived, hfirst, hnear⟩
    rcases List.eq_nil_or_concat after with rfl | ⟨after, last, rfl⟩
    · obtain ⟨rfl, hlast⟩ := List.append_inj' harrived rfl
      cases hlast
      exact .inr ⟨rfl, hne, hfirst, hnear⟩
    · rw [List.concat_eq_append, ← List.cons_append, ← List.append_assoc] at harrived
      obtain ⟨rfl, -⟩ := List.append_inj' harrived rfl
      exact .inl ⟨hne, before, after, rfl, hfirst, hnear⟩
  · rintro (⟨hne, before, after, rfl, hfirst, hnear⟩ | ⟨rfl, hne, hfirst, hnear⟩)
    · exact ⟨hne, before, after ++ [n], by simp, hfirst, hnear⟩
    · exact ⟨hne, arrived, [], rfl, hfirst, hnear⟩

theorem finite_counted (window : Nat) (arrived : List Nat) : {n | Counted window arrived n}.Finite :=
  (List.finite_toSet arrived).subset fun _ h => h.mem

/-- **What an arrival adds to what counts.** -/
theorem count_snoc (window : Nat) (arrived : List Nat) (n : Nat) : count window (arrived ++ [n]) =
    count window arrived + if n ≠ 0 ∧ n ∉ arrived ∧ Near window (highest arrived) n then 1 else 0 := by
  unfold count
  split
  · rename_i hnew
    have hset : {m | Counted window (arrived ++ [n]) m} = insert n {m | Counted window arrived m} := by
      ext m
      rw [Set.mem_ofPred_eq, counted_snoc, Set.mem_insert_iff, Set.mem_ofPred_eq, or_comm]
      exact or_congr_left (and_iff_left hnew)
    have hfresh : n ∉ {m | Counted window arrived m} := fun h => hnew.2.1 h.mem
    rw [hset, Set.ncard_insert_of_notMem hfresh (finite_counted window arrived)]
  · rename_i hold
    have hset : {m | Counted window (arrived ++ [n]) m} = {m | Counted window arrived m} := by
      ext m
      rw [Set.mem_ofPred_eq, counted_snoc, Set.mem_ofPred_eq]
      exact or_iff_left fun h => hold h.2
    rw [hset, Nat.add_zero]

/-- What counts lies between 1 and the highest number. -/
theorem count_le_highest (window : Nat) (arrived : List Nat) : count window arrived ≤ highest arrived := by
  have hsub : {n | Counted window arrived n} ⊆ (Finset.Icc 1 (highest arrived) : Finset Nat) := fun n h =>
    Finset.mem_coe.mpr (Finset.mem_Icc.mpr ⟨Nat.pos_of_ne_zero h.1, le_highest h.mem⟩)
  have hcard := Set.ncard_le_ncard hsub (Finset.finite_toSet _)
  rw [Set.ncard_coe_finset, Nat.card_Icc] at hcard
  exact hcard.trans (by omega)

/-- Before a number up to the highest comes, there is a gap. -/
theorem count_lt_highest (hne : n ≠ 0) (hle : n ≤ highest arrived) (hnew : n ∉ arrived)
    (hnear : Near window (highest arrived) n) : count window arrived < highest arrived := by
  have hnext := count_le_highest window (arrived ++ [n])
  rw [count_snoc, if_pos ⟨hne, hnew, hnear⟩, highest_snoc, Nat.max_eq_left hle] at hnext
  exact hnext

/-- Distinct numbers within one window are at most as many as it is wide. -/
theorem length_le_of_near {top : Nat} {numbers : List Nat} (hnodup : numbers.Nodup)
    (hnear : ∀ n ∈ numbers, n ≤ top ∧ top - n < window) : numbers.length ≤ window := by
  have hsub : numbers ⊆ List.range' (top + 1 - window) window := by
    intro n hn
    obtain ⟨hle, hlt⟩ := hnear n hn
    exact List.mem_range'_1.mpr (by omega)
  have hlength := (hnodup.subperm hsub).length_le
  rwa [List.length_range'] at hlength

end Zflow.Lib.Gaps
