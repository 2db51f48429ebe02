import Zflow.Lib.Gaps
import Zflow.Lib.Replay
import Zflow.Session.Metrics

/-!
# Loss accounting

What is tracked in an activation is what counts of its arrivals in the window below the highest sequence (`tracking_run`,
over `Lib/Gaps`). So the loss an activation adds is its highest sequence less what counts of its arrivals, as long as no
addition to the loss saturates (`balanced_run`), and a repeat in the window is told from a late arrival.
-/

namespace Zflow.Session

open Lib Lib.Gaps

namespace SessionMetrics

variable {m : SessionMetrics} {arrived : List Nat} {sequence : Nat}

/-- What is tracked after the arrivals of an activation. -/
structure Tracking (arrived : List Nat) (m : SessionMetrics) : Prop where
  highest : m.highestMotionSequence = Gaps.highest arrived
  recent : ∀ n, n ∈ m.recentMotionSequences ↔
    Counted sequenceTrackingWindow arrived n ∧ trackingFloor (Gaps.highest arrived) ≤ n

/-- The loss added to `base` and what counts of the arrivals make the highest sequence. -/
def Balanced (base : Nat) (arrived : List Nat) (m : SessionMetrics) : Prop :=
  m.loss + count sequenceTrackingWindow arrived = base + Gaps.highest arrived

/-- An observation whose addition to the loss does not saturate. -/
def Fits (m : SessionMetrics) (sequence : Nat) : Prop :=
  m.loss + (sequence - m.highestMotionSequence - 1) ≤ u64Max

theorem near_of_floor {top : Nat} (h : trackingFloor top ≤ sequence) :
    Near sequenceTrackingWindow top sequence := by
  unfold trackingFloor sequenceTrackingWindow at h
  unfold Near sequenceTrackingWindow
  omega

theorem not_near_of_floor {top : Nat} (hle : sequence ≤ top) (h : sequence < trackingFloor top) :
    ¬ Near sequenceTrackingWindow top sequence := by
  unfold trackingFloor sequenceTrackingWindow at h
  unfold Near sequenceTrackingWindow
  omega

theorem sub_lt_window {top : Nat} (h : trackingFloor top ≤ sequence) : top - sequence < sequenceTrackingWindow := by
  unfold trackingFloor sequenceTrackingWindow at *
  omega

/-! ## What one observation does -/

/-- What an observation makes of the metrics when its sequence is above all arrivals. -/
def advance (sequence : Nat) (m : SessionMetrics) : SessionMetrics :=
  { m with
    loss := saturatingAdd m.loss (sequence - m.highestMotionSequence - 1)
    highestMotionSequence := sequence
    recentMotionSequences :=
      (m.recentMotionSequences.insert sequence).filter fun tracked => trackingFloor sequence ≤ tracked }

/-- When it repeats a sequence that is tracked. -/
def countRepeat (m : SessionMetrics) : SessionMetrics :=
  { m with duplicateDatagrams := saturatingAdd m.duplicateDatagrams 1 }

/-- When it fills a gap. -/
def repair (sequence : Nat) (m : SessionMetrics) : SessionMetrics :=
  { m with
    recentMotionSequences := m.recentMotionSequences.insert sequence
    reordered := saturatingAdd m.reordered 1
    loss := m.loss - 1 }

/-- **What an observation does**, by what its sequence is to the arrivals before it. -/
inductive Observed (arrived : List Nat) (m : SessionMetrics) (sequence : Nat) (after : SessionMetrics) : Prop
  | zero (hzero : sequence = 0) (hafter : after = m)
  | advances (hne : sequence ≠ 0) (habove : Gaps.highest arrived < sequence) (hafter : after = advance sequence m)
  | tooLate (hle : sequence ≤ Gaps.highest arrived) (hlate : sequence < trackingFloor (Gaps.highest arrived))
      (hafter : after = m)
  | repeated (hle : sequence ≤ Gaps.highest arrived) (hold : sequence ∈ arrived) (hafter : after = countRepeat m)
  | repairs (hne : sequence ≠ 0) (hle : sequence ≤ Gaps.highest arrived)
      (hfloor : trackingFloor (Gaps.highest arrived) ≤ sequence) (hnew : sequence ∉ arrived)
      (hafter : after = repair sequence m)

theorem Tracking.observed (h : Tracking arrived m) (sequence : Nat) :
    Observed arrived m sequence (observeMotionSequence sequence m) := by
  have hhighest := h.highest
  unfold observeMotionSequence
  split
  · rename_i hzero
    exact .zero hzero rfl
  rename_i hne
  split
  · rename_i habove
    exact .advances hne (hhighest ▸ habove) rfl
  rename_i hle
  have hle : sequence ≤ Gaps.highest arrived := hhighest ▸ Nat.le_of_not_lt hle
  split
  · rename_i hlate
    exact .tooLate hle (hhighest ▸ hlate) rfl
  rename_i hfloor
  have hfloor : trackingFloor (Gaps.highest arrived) ≤ sequence := hhighest ▸ Nat.le_of_not_lt hfloor
  split
  · rename_i hmem
    exact .repeated hle ((h.recent sequence).mp hmem).1.mem rfl
  · rename_i hnot
    refine .repairs hne hle hfloor (fun harrived => hnot ((h.recent sequence).mpr ⟨?_, hfloor⟩)) rfl
    exact counted_of_mem harrived hne (sub_lt_window hfloor)

/-! ## What is tracked -/

theorem trackingFloor_le {low top : Nat} (h : low ≤ top) : trackingFloor low ≤ trackingFloor top :=
  Nat.sub_le_sub_right h _

theorem mem_insert_recent {recent : Std.ExtTreeSet Nat} {n : Nat} :
    n ∈ recent.insert sequence ↔ n = sequence ∨ n ∈ recent := by
  rw [Std.ExtTreeSet.mem_insert, Std.compare_eq_iff_eq, eq_comm]

theorem mem_filter_recent {recent : Std.ExtTreeSet Nat} {floor n : Nat} :
    (n ∈ recent.filter fun tracked => floor ≤ tracked) ↔ n ∈ recent ∧ floor ≤ n := by
  rw [Std.ExtTreeSet.mem_filter]
  constructor
  · rintro ⟨hmem, hfloor⟩
    rw [Std.ExtTreeSet.get_eq, decide_eq_true_eq] at hfloor
    exact ⟨hmem, hfloor⟩
  · rintro ⟨hmem, hfloor⟩
    refine ⟨hmem, ?_⟩
    rw [Std.ExtTreeSet.get_eq, decide_eq_true_eq]
    exact hfloor

/-- What an arrival does not count for stays tracked. -/
theorem Tracking.keep (h : Tracking arrived m) (hle : sequence ≤ Gaps.highest arrived)
    (hold : ¬ (sequence ≠ 0 ∧ sequence ∉ arrived ∧ Near sequenceTrackingWindow (Gaps.highest arrived) sequence)) :
    Tracking (arrived ++ [sequence]) m := by
  refine ⟨?_, fun n => ?_⟩
  · rw [highest_snoc, Nat.max_eq_left hle, h.highest]
  · rw [h.recent, highest_snoc, Nat.max_eq_left hle, counted_snoc]
    exact and_congr_left' (or_iff_left fun hnew => hold hnew.2).symm

theorem Tracking.advance (h : Tracking arrived m) (hne : sequence ≠ 0) (habove : Gaps.highest arrived < sequence) :
    Tracking (arrived ++ [sequence]) (m.advance sequence) := by
  have hmax : max (Gaps.highest arrived) sequence = sequence := Nat.max_eq_right habove.le
  have hfloor := trackingFloor_le habove.le
  have hnew : sequence ∉ arrived := fun hmem => Nat.not_le_of_lt habove (le_highest hmem)
  refine ⟨by rw [highest_snoc, hmax]; rfl, fun n => ?_⟩
  unfold SessionMetrics.advance
  rw [mem_filter_recent, mem_insert_recent, h.recent, highest_snoc, hmax, counted_snoc]
  constructor
  · rintro ⟨rfl | ⟨hcounted, -⟩, hlow⟩
    · exact ⟨.inr ⟨rfl, hne, hnew, .inl habove⟩, hlow⟩
    · exact ⟨.inl hcounted, hlow⟩
  · rintro ⟨hcounted | ⟨rfl, -⟩, hlow⟩
    · exact ⟨.inr ⟨hcounted, hfloor.trans hlow⟩, hlow⟩
    · exact ⟨.inl rfl, hlow⟩

theorem Tracking.repair (h : Tracking arrived m) (hne : sequence ≠ 0) (hle : sequence ≤ Gaps.highest arrived)
    (hfloor : trackingFloor (Gaps.highest arrived) ≤ sequence) (hnew : sequence ∉ arrived) :
    Tracking (arrived ++ [sequence]) (m.repair sequence) := by
  refine ⟨?_, fun n => ?_⟩
  · rw [highest_snoc, Nat.max_eq_left hle]
    exact h.highest
  · rw [highest_snoc, Nat.max_eq_left hle, counted_snoc]
    unfold SessionMetrics.repair
    rw [mem_insert_recent, h.recent]
    constructor
    · rintro (rfl | ⟨hcounted, hlow⟩)
      · exact ⟨.inr ⟨rfl, hne, hnew, near_of_floor hfloor⟩, hfloor⟩
      · exact ⟨.inl hcounted, hlow⟩
    · rintro ⟨hcounted | ⟨rfl, -⟩, hlow⟩
      · exact .inr ⟨hcounted, hlow⟩
      · exact .inl rfl

theorem Tracking.observe (h : Tracking arrived m) (sequence : Nat) :
    Tracking (arrived ++ [sequence]) (observeMotionSequence sequence m) := by
  cases h.observed sequence with
  | zero hzero hafter =>
    rw [hafter]
    exact h.keep (hzero ▸ Nat.zero_le _) fun hnew => hnew.1 hzero
  | advances hne habove hafter =>
    rw [hafter]
    exact h.advance hne habove
  | tooLate hle hlate hafter =>
    rw [hafter]
    exact h.keep hle fun hnew => not_near_of_floor hle hlate hnew.2.2
  | repeated hle hold hafter =>
    rw [hafter]
    have hkept := h.keep hle fun hnew => hnew.2.1 hold
    exact ⟨hkept.highest, hkept.recent⟩
  | repairs hne hle hfloor hnew hafter =>
    rw [hafter]
    exact h.repair hne hle hfloor hnew

/-- **What an activation tracks**, whatever was observed before it. -/
theorem tracking_run (m : SessionMetrics) (arrived : List Nat) : Tracking arrived (activation m arrived) := by
  refine Replay.foldl_history Tracking (fun log m sequence h => h.observe sequence) ⟨rfl, fun n => ?_⟩ arrived
  constructor
  · intro hmem
    exact absurd hmem Std.ExtTreeSet.not_mem_empty
  · rintro ⟨hcounted, -⟩
    exact absurd hcounted.mem List.not_mem_nil

theorem activation_snoc (m : SessionMetrics) (arrived : List Nat) (sequence : Nat) :
    activation m (arrived ++ [sequence]) = observeMotionSequence sequence (activation m arrived) := by
  unfold activation
  rw [List.foldl_append]
  rfl

/-! ## The loss -/

/-- What does not count leaves the balance as it is. -/
theorem Balanced.keep {base : Nat} {after : SessionMetrics} (h : Balanced base arrived m)
    (hle : sequence ≤ Gaps.highest arrived)
    (hold : ¬ (sequence ≠ 0 ∧ sequence ∉ arrived ∧ Near sequenceTrackingWindow (Gaps.highest arrived) sequence))
    (hloss : after.loss = m.loss) : Balanced base (arrived ++ [sequence]) after := by
  unfold Balanced at *
  rw [hloss, count_snoc, if_neg hold, highest_snoc, Nat.max_eq_left hle]
  exact h

theorem Balanced.advance {base : Nat} (h : Balanced base arrived m) (htracking : Tracking arrived m)
    (hfits : Fits m sequence) (hne : sequence ≠ 0) (habove : Gaps.highest arrived < sequence) :
    Balanced base (arrived ++ [sequence]) (m.advance sequence) := by
  have hnew : sequence ∉ arrived := fun hmem => Nat.not_le_of_lt habove (le_highest hmem)
  have hcount : count sequenceTrackingWindow (arrived ++ [sequence]) = count sequenceTrackingWindow arrived + 1 := by
    rw [count_snoc, if_pos ⟨hne, hnew, .inl habove⟩]
  have hloss : (m.advance sequence).loss = m.loss + (sequence - Gaps.highest arrived - 1) := by
    rw [← htracking.highest]
    exact Nat.min_eq_left hfits
  unfold Balanced at *
  rw [hcount, hloss, highest_snoc, Nat.max_eq_right habove.le]
  omega

/-- A repair takes one from the loss that this activation added. -/
theorem Balanced.repair {base : Nat} (h : Balanced base arrived m) (hne : sequence ≠ 0)
    (hle : sequence ≤ Gaps.highest arrived) (hfloor : trackingFloor (Gaps.highest arrived) ≤ sequence)
    (hnew : sequence ∉ arrived) : Balanced base (arrived ++ [sequence]) (m.repair sequence) := by
  have hnear := near_of_floor hfloor
  have hgap := count_lt_highest hne hle hnew hnear
  have hcount : count sequenceTrackingWindow (arrived ++ [sequence]) = count sequenceTrackingWindow arrived + 1 := by
    rw [count_snoc, if_pos ⟨hne, hnew, hnear⟩]
  have hloss : (m.repair sequence).loss = m.loss - 1 := rfl
  unfold Balanced at *
  rw [hcount, hloss, highest_snoc, Nat.max_eq_left hle]
  omega

theorem Balanced.observe {base : Nat} (h : Balanced base arrived m) (htracking : Tracking arrived m)
    (hfits : Fits m sequence) : Balanced base (arrived ++ [sequence]) (observeMotionSequence sequence m) := by
  cases htracking.observed sequence with
  | zero hzero hafter => exact h.keep (hzero ▸ Nat.zero_le _) (fun hnew => hnew.1 hzero) (congrArg loss hafter)
  | advances hne habove hafter =>
    rw [hafter]
    exact h.advance htracking hfits hne habove
  | tooLate hle hlate hafter =>
    exact h.keep hle (fun hnew => not_near_of_floor hle hlate hnew.2.2) (congrArg loss hafter)
  | repeated hle hold hafter =>
    rw [hafter]
    exact h.keep hle (fun hnew => hnew.2.1 hold) rfl
  | repairs hne hle hfloor hnew hafter =>
    rw [hafter]
    exact h.repair hne hle hfloor hnew

/-- No addition to the loss saturates in the activation. -/
def Unsaturated (m : SessionMetrics) (arrived : List Nat) : Prop :=
  ∀ before sequence, before ++ [sequence] <+: arrived → Fits (activation m before) sequence

theorem balanced_run (h : Unsaturated m arrived) : Balanced m.loss arrived (activation m arrived) := by
  induction arrived using List.reverseRecOn with
  | nil =>
    have hcount := count_le_highest sequenceTrackingWindow []
    have hhighest : Gaps.highest [] = 0 := rfl
    unfold Balanced activation beginActivation
    rw [hhighest, Nat.le_zero.mp hcount]
    rfl
  | append_singleton arrived sequence ih =>
    have hbefore : Unsaturated m arrived := fun before n hinit => h before n (hinit.trans (List.prefix_append _ _))
    rw [activation_snoc]
    exact (ih hbefore).observe (tracking_run m arrived) (h arrived sequence (List.prefix_refl _))

/-! ## Repeats and the size of what is tracked -/

/-- A repeat in the window is told from a late arrival. -/
theorem observe_repeat (hmem : sequence ∈ arrived) (hne : sequence ≠ 0)
    (hnear : Gaps.highest arrived - sequence < sequenceTrackingWindow) :
    activation m (arrived ++ [sequence]) = (activation m arrived).countRepeat := by
  rw [activation_snoc]
  cases (tracking_run m arrived).observed sequence with
  | zero hzero _ => exact absurd hzero hne
  | advances _ habove _ => exact absurd (le_highest hmem) (Nat.not_le_of_lt habove)
  | tooLate _ hlate _ =>
    unfold trackingFloor at hlate
    unfold sequenceTrackingWindow at hlate hnear
    omega
  | repeated _ _ hafter => exact hafter
  | repairs _ _ _ hnew _ => exact absurd hmem hnew

theorem Tracking.size_le (h : Tracking arrived m) : m.recentMotionSequences.size ≤ sequenceTrackingWindow := by
  rw [← Std.ExtTreeSet.length_toList]
  have hnodup : m.recentMotionSequences.toList.Nodup :=
    Std.ExtTreeSet.distinct_toList.imp fun hne heq => hne (Std.compare_eq_iff_eq.mpr heq)
  have hnear : ∀ n ∈ m.recentMotionSequences.toList,
      n ≤ Gaps.highest arrived ∧ Gaps.highest arrived - n < sequenceTrackingWindow := by
    intro n hn
    obtain ⟨hcounted, hfloor⟩ := (h.recent n).mp (Std.ExtTreeSet.mem_toList.mp hn)
    exact ⟨le_highest hcounted.mem, sub_lt_window hfloor⟩
  exact length_le_of_near hnodup hnear

/-- The accounts of one activation, which began with the metrics `m`. -/
structure Accounts (m : SessionMetrics) (arrived : List Nat) : Prop where
  /-- The loss it added is its highest sequence less what counts of its arrivals. -/
  exact_loss : Unsaturated m arrived →
    (activation m arrived).loss = m.loss + (Gaps.highest arrived - count sequenceTrackingWindow arrived)
  /-- A repeat in the window changes the count of duplicates, and nothing else. -/
  repeats : ∀ n ∈ arrived, n ≠ 0 → Gaps.highest arrived - n < sequenceTrackingWindow →
    activation m (arrived ++ [n]) = { activation m arrived with
      duplicateDatagrams := saturatingAdd (activation m arrived).duplicateDatagrams 1 }
  /-- No repair takes from the loss of earlier activations. -/
  earlier_loss : Unsaturated m arrived → m.loss ≤ (activation m arrived).loss
  bounded : (activation m arrived).recentMotionSequences.size ≤ sequenceTrackingWindow

/-- **Loss accounting is exact inside its window**: in every activation, after every order of arrivals, gaps and
repeats. -/
theorem activation_accounts (m : SessionMetrics) (arrived : List Nat) : Accounts m arrived := by
  have hcount := count_le_highest sequenceTrackingWindow arrived
  have hloss : Unsaturated m arrived →
      (activation m arrived).loss = m.loss + (Gaps.highest arrived - count sequenceTrackingWindow arrived) := by
    intro h
    have hbalanced := balanced_run h
    unfold Balanced at hbalanced
    omega
  exact {
    exact_loss := hloss
    repeats := fun n hmem hne hnear => observe_repeat hmem hne hnear
    earlier_loss := fun h => hloss h ▸ Nat.le_add_right _ _
    bounded := (tracking_run m arrived).size_le }

end SessionMetrics

end Zflow.Session
