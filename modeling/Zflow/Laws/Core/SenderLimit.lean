import Mathlib.Data.List.Perm.Subperm
import Zflow.Laws.Core.SenderSchedule

/-!
# How many snapshots wait for their acknowledgement

A sender keeps at most `maxPendingSnapshots` of them, and a tick that would take one more fails. What is
pending went out at least an interval apart, or a third of the lease, and the first of it is not a lease
old. So the bound is met before the acknowledgement times out only where the lease is longer than that many
intervals, and there a receiver that stays silent does meet it (`pending_limit_iff`).
-/

namespace Zflow.Core

open Lib

namespace Sender

/-! ## What a tick finds -/

/-- A snapshot, once it is let through. -/
theorem snapshot_apply {s : Sender} {now : MonotonicTimeMicros} (hremote : s.remote = true)
    (hobserved : s.lastObservedTime ≤ now) : snapshot now s =
      if maxPendingSnapshots ≤ s.pendingSnapshots.size then
        (.error .pendingSnapshotLimit, { s with lastObservedTime := now })
      else match checkedAddU64 s.lastControlSequence 1 with
        | none => (.error .sequenceExhausted, { s with lastObservedTime := now })
        | some next =>
          let taken : StateSnapshot := ⟨s.held, s.anchor now .checkpoint⟩
          (.ok ⟨s.session, next, .stateSnapshot taken⟩, { s with
            lastObservedTime := now
            lastControlSequence := next
            pendingSnapshots := s.pendingSnapshots.insert next ⟨taken, addDuration now s.config.receiverLease⟩
            lastSnapshotAt := now
            dirtySince := none }) := by
  unfold snapshot
  rw [Act.bind_of_ok (requireRemote_of_remote hremote), Act.bind_of_ok (observeTime_of_le hobserved),
    Act.bind_apply, Act.read_apply]
  dsimp only
  split
  · rfl
  · rw [Act.bind_apply, control_apply]
    dsimp only
    cases checkedAddU64 s.lastControlSequence 1 <;> rfl

/-- **Silence is noticed first**: an acknowledgement that is overdue ends the activation, whatever else is
due, and the receiver is told. -/
theorem tick_overdue {s : Sender} {now : MonotonicTimeMicros} (hremote : s.remote = true)
    (hobserved : s.lastObservedTime ≤ now) (hdue : ∃ entry ∈ s.pendingSnapshots.toList, entry.2.ackDeadline ≤ now) :
    (tick now s).1 = match checkedAddU64 s.lastControlSequence 1 with
      | none => .error .sequenceExhausted
      | some next =>
        .ok (.exitRemote .snapshotAckTimedOut ⟨s.session, next, .sessionClose .leaseExpired none⟩) := by
  rw [tick_apply hremote hobserved, Act.bind_apply, Act.read_apply]
  dsimp only
  have hany : (s.pendingSnapshots.toList.any fun entry => entry.2.ackDeadline ≤ now) = true := by
    simpa using hdue
  rw [if_pos hany, Act.bind_apply, control_apply]
  dsimp only
  cases checkedAddU64 s.lastControlSequence 1 <;> rfl

/-- A tick with something due, and no acknowledgement, is a snapshot. -/
theorem tick_due {s : Sender} {now : MonotonicTimeMicros} (hremote : s.remote = true)
    (hobserved : s.lastObservedTime ≤ now) (hacks : ∀ entry ∈ s.pendingSnapshots.toList, now < entry.2.ackDeadline)
    (hdue : ¬ s.Quiet now) :
    tick now s = match snapshot now { s with lastObservedTime := now } with
      | (.ok message, after) => (.ok (.checkpoint message), after)
      | (.error error, after) => (.error error, after) := by
  have hnot := mt (tick_idle hremote hobserved).mp hdue
  rw [tick_apply hremote hobserved, Act.bind_apply, Act.read_apply] at hnot ⊢
  dsimp only at hnot ⊢
  have hnone : ¬ (s.pendingSnapshots.toList.any fun entry => entry.2.ackDeadline ≤ now) = true := by
    simpa using hacks
  rw [if_neg hnone] at hnot ⊢
  split at hnot
  · rename_i hsome
    rw [if_pos hsome, Act.bind_apply]
    rcases snapshot now { s with lastObservedTime := now } with ⟨_ | _, _⟩ <;> rfl
  · exact absurd rfl hnot

/-- What a tick has found that meets the bound. -/
theorem tick_limit {s : Sender} {now : MonotonicTimeMicros} (h : (tick now s).1 = .error .pendingSnapshotLimit) :
    s.remote = true ∧ s.lastObservedTime ≤ now ∧
      (∀ entry ∈ s.pendingSnapshots.toList, now < entry.2.ackDeadline) ∧ ¬ s.Quiet now ∧
      maxPendingSnapshots ≤ s.pendingSnapshots.size := by
  have hremote : s.remote = true := by
    by_contra hremote
    unfold tick at h
    rw [Act.bind_of_error (requireRemote_of_not hremote)] at h
    cases h
  have hobserved : s.lastObservedTime ≤ now := by
    by_contra hlt
    unfold tick at h
    rw [Act.bind_of_ok (requireRemote_of_remote hremote),
      Act.bind_of_error (observeTime_of_lt (Nat.lt_of_not_le hlt))] at h
    cases h
  have hacks : ∀ entry ∈ s.pendingSnapshots.toList, now < entry.2.ackDeadline := by
    intro entry hentry
    by_contra hle
    rw [tick_overdue hremote hobserved ⟨entry, hentry, Nat.le_of_not_lt hle⟩] at h
    split at h <;> cases h
  have hdue : ¬ s.Quiet now := by
    intro hquiet
    rw [(tick_idle hremote hobserved).mpr hquiet] at h
    cases h
  refine ⟨hremote, hobserved, hacks, hdue, ?_⟩
  by_contra hroom
  have hsnapshot := snapshot_apply (s := { s with lastObservedTime := now }) hremote (Nat.le_refl now)
  rw [if_neg hroom] at hsnapshot
  rw [tick_due hremote hobserved hacks hdue, hsnapshot] at h
  dsimp only at h
  cases hnext : checkedAddU64 s.lastControlSequence 1 <;> rw [hnext] at h <;> cases h

/-- What a sender's calls leave of the time since which something is not yet in a snapshot. -/
structure Marked (s s' : Sender) : Prop where
  observed : s.lastObservedTime ≤ s'.lastObservedTime
  dirty : s'.dirtySince = s.dirtySince ∨
    ∃ since, s'.dirtySince = some since ∧ (s.dirtySince = some since ∨ s.lastObservedTime ≤ since)

instance : IsPreorder Sender Marked where
  refl s := ⟨Nat.le_refl _, .inl rfl⟩
  trans a b c hab hbc := by
    refine ⟨hab.observed.trans hbc.observed, ?_⟩
    rcases hbc.dirty with hsame | ⟨since, hsince, hold⟩
    · rw [hsame]
      exact hab.dirty
    · right
      refine ⟨since, hsince, ?_⟩
      rcases hold with hold | hlate
      · rcases hab.dirty with hsame | ⟨other, hother, hrest⟩
        · exact .inl (hsame ▸ hold)
        · cases hother.symm.trans hold
          exact hrest
      · exact .inr (hab.observed.trans hlate)

theorem marked_rule : CaptureRule Marked where
  observed _ _ hle := ⟨hle, .inl rfl⟩
  numbered _ := ⟨Nat.le_refl _, .inl rfl⟩
  held _ _ := ⟨Nat.le_refl _, .inl rfl⟩
  moved s _ _ _ hdirty := by
    refine ⟨Nat.le_refl _, ?_⟩
    rcases hdirty with rfl | rfl
    · exact .inl rfl
    · refine .inr ⟨_, rfl, ?_⟩
      cases s.dirtySince with
      | none => exact .inr (Nat.le_refl _)
      | some since => exact .inl rfl
  overflowed _ := ⟨Nat.le_refl _, .inl rfl⟩
  left _ := ⟨Nat.le_refl _, .inl rfl⟩

end Sender

/-! ## What is in flight -/

/-- Times at least a gap apart that a lease has not outlived are fewer than fit into it. -/
theorem length_mul_lt_of_apart {times : List Nat} {gap lease now : Nat}
    (hne : times ≠ []) (hapart : times.Pairwise fun a b => min (a + gap) u64Max ≤ b)
    (hpast : ∀ time ∈ times, min (time + gap) u64Max ≤ now)
    (hlive : ∀ time ∈ times, now < min (time + lease) u64Max) : times.length * gap < lease := by
  have hspan : ∀ first rest, times = first :: rest → min (first + times.length * gap) u64Max ≤ now := by
    clear hne hlive
    induction times with
    | nil => exact nofun
    | cons first rest ih =>
      rintro _ _ ⟨⟩
      have hfirst := hpast first List.mem_cons_self
      cases rest with
      | nil => simpa using hfirst
      | cons second rest =>
        have hlater := ih (List.pairwise_cons.mp hapart).2
          (fun time htime => hpast time (List.mem_cons_of_mem _ htime)) second rest rfl
        have hnext := (List.pairwise_cons.mp hapart).1 second List.mem_cons_self
        rw [List.length_cons, Nat.add_mul]
        omega
  cases times with
  | nil => exact absurd rfl hne
  | cons first rest =>
    have hbefore := hspan first rest rfl
    have hafter := hlive first List.mem_cons_self
    omega

namespace Sender

/-- The least time between two snapshots, in microseconds. -/
def gap (config : SenderConfig) : Nat :=
  min config.checkpointInterval.asMicros (oneThirdRoundedDown config.receiverLease).asMicros

theorem min_gap_le {config : SenderConfig} {time : Nat} {d : Duration} (h : gap config ≤ d.asMicros) :
    min (time + gap config) u64Max ≤ addDuration time d := by
  unfold addDuration saturatingAdd
  omega

/-- What is due, but no acknowledgement, is due a gap after the last snapshot. -/
theorem gap_le_of_due {s : Sender} {now : Nat}
    (hacks : ∀ entry ∈ s.pendingSnapshots.toList, now < entry.2.ackDeadline) (hdue : ¬ s.Quiet now)
    (hdirty : ∀ since ∈ s.dirtySince, s.lastSnapshotAt ≤ since) :
    min (s.lastSnapshotAt + gap s.config) u64Max ≤ now := by
  by_contra hlt
  have hbefore : ∀ d : Duration, gap s.config ≤ d.asMicros → now < addDuration s.lastSnapshotAt d :=
    fun d hd => Nat.lt_of_lt_of_le (Nat.lt_of_not_le hlt) (min_gap_le hd)
  apply hdue
  refine ⟨hacks, hbefore _ (Nat.min_le_left _ _), ?_, fun _ => hbefore _ (Nat.min_le_right _ _)⟩
  intro since hsince
  exact Nat.lt_of_lt_of_le (hbefore _ (Nat.min_le_left _ _)) (Watch.addDuration_mono (hdirty since hsince) _)

/-- A tick that succeeds is not before anything the sender has seen. -/
theorem observed_of_tick {s s' : Sender} {now : MonotonicTimeMicros} {answer : SenderTick}
    (h : tick now s = (.ok answer, s')) : s.lastObservedTime ≤ now := by
  by_contra hlt
  have hremote := (tick_cases h).1
  unfold tick at h
  rw [Act.bind_of_ok (requireRemote_of_remote hremote),
    Act.bind_of_error (observeTime_of_lt (Nat.lt_of_not_le hlt))] at h
  cases h

end Sender

namespace Watch

/-- **The snapshots of a run are a gap apart**, and what is not yet in one is later than the last. -/
structure Apart (config : SenderConfig) (w : Watch) : Prop where
  apart : (w.emitted.map (·.2)).Pairwise fun a b => min (a + Sender.gap config) u64Max ≤ b
  last : ∀ e ∈ w.emitted, e.2 ≤ w.sender.lastSnapshotAt
  observed : w.sender.lastSnapshotAt ≤ w.sender.lastObservedTime
  dirty : ∀ since ∈ w.sender.dirtySince, w.sender.lastSnapshotAt ≤ since

variable {config : SenderConfig} {w : Watch}

theorem Apart.captured {sender : Sender} (h : Apart config w)
    (hsnapshot : sender.lastSnapshotAt = w.sender.lastSnapshotAt)
    (hmarked : Sender.Marked w.sender sender) : Apart config { w with sender } where
  apart := h.apart
  last e he := by
    rw [hsnapshot]
    exact h.last e he
  observed := by
    rw [hsnapshot]
    exact h.observed.trans hmarked.observed
  dirty since hsince := by
    rw [hsnapshot]
    rcases hmarked.dirty with hsame | ⟨other, hother, hold⟩
    · exact h.dirty since (hsame ▸ hsince)
    · cases hother.symm.trans hsince
      rcases hold with hold | hlate
      · exact h.dirty since hold
      · exact h.observed.trans hlate

/-- **Every step keeps it.** -/
theorem Apart.step {label : WatchStep} {after : Watch} (h : Apart config w)
    (hwatched : Watched config w) (hstep : step label w = some after) : Apart config after := by
  cases label with
  | wait time =>
    simp only [Watch.step] at hstep
    split at hstep
    · cases hstep
      exact ⟨h.apart, h.last, h.observed, h.dirty⟩
    · cases hstep
  | enter =>
    cases hstep
    have hmarked := Sender.marked_rule.enter w.clock w.sender
    rcases Sender.captured_rule.enter w.clock w.sender with hcaptured | hopened
    · rcases hmarked with hmarked | hopened
      · have hkept := h.captured hcaptured.snapshotAt hmarked
        exact ⟨hkept.apart, hkept.last, hkept.observed, hkept.dirty⟩
      · cases (hcaptured.started.symm.trans hopened.begun).symm.trans hopened.started
    · have hemitted := (hwatched.unstarted hopened.started).2.1
      refine ⟨h.apart, fun e he => ?_, ?_, fun since hsince => ?_⟩
      · rw [hemitted] at he
        cases he
      · dsimp only
        rw [hopened.snapshotAt, hopened.observed]
      · dsimp only at hsince
        rw [hopened.dirty] at hsince
        cases hsince
  | capture call time =>
    cases hstep
    exact h.captured (Sender.captured_run call time w.sender).snapshotAt (Sender.marked_rule.run call time w.sender)
  | tick =>
    simp only [Watch.step] at hstep
    cases htick : Sender.tick w.clock w.sender with
    | mk result sender =>
      rw [htick] at hstep
      cases result with
      | error error => cases hstep
      | ok answer =>
        have hobserved := Sender.observed_of_tick htick
        obtain ⟨hremote, hticked⟩ := Sender.tick_cases htick
        cases hticked with
        | exit reason close sequence pending hpending hdue =>
          cases hstep
          exact h.captured rfl ⟨hobserved, .inl rfl⟩
        | idle hlive hperiodic =>
          cases hstep
          exact h.captured rfl ⟨hobserved, .inl rfl⟩
        | checkpoint message taken hlive hsequence =>
          cases hstep
          have hbusy : ¬ w.sender.Quiet w.clock := by
            intro hquiet
            have hidle := (Sender.tick_idle hremote hobserved).mpr hquiet
            rw [htick] at hidle
            cases hidle
          have hacks : ∀ entry ∈ w.sender.pendingSnapshots.toList, w.clock < entry.2.ackDeadline :=
            fun entry hentry => hlive entry.1 entry.2 (Std.ExtTreeMap.mem_toList_iff_getElem?_eq_some.mp hentry)
          have hgap := Sender.gap_le_of_due hacks hbusy h.dirty
          rw [hwatched.configured] at hgap
          refine ⟨?_, ?_, Nat.le_refl _, fun since hsince => ?_⟩
          · rw [List.map_append, List.pairwise_append]
            refine ⟨h.apart, List.pairwise_singleton _ _, ?_⟩
            intro earlier hearlier later hlater
            obtain ⟨e, he, rfl⟩ := List.mem_map.mp hearlier
            rw [List.map_singleton, List.mem_singleton] at hlater
            subst hlater
            have hlast := h.last e he
            exact (saturatingAdd_mono hlast).trans hgap
          · intro e he
            rcases List.mem_append.mp he with hold | hnew
            · exact (hwatched.past e hold).2
            · rw [List.mem_singleton] at hnew
              subst hnew
              exact Nat.le_refl _
          · cases hsince
  | acknowledge ack =>
    simp only [Watch.step] at hstep
    cases hack : Sender.acknowledgeSnapshot ack w.sender with
    | mk result sender =>
      rw [hack] at hstep
      rcases Sender.acknowledge_cases hack with ⟨rfl, rfl, -⟩ | ⟨rfl, pending, -, rfl⟩ |
          ⟨⟨error, rfl⟩, rfl⟩ <;> cases hstep
      · exact ⟨h.apart, h.last, h.observed, h.dirty⟩
      · exact ⟨h.apart, h.last, h.observed, h.dirty⟩
      · exact h

theorem apart_of_reaches {calm : Watch → WatchStep → Prop} {session : SessionContext}
    {now : MonotonicTimeMicros} {sender : Sender}
    (hnew : Sender.new config session now = .ok sender) (hnow : now ≤ u64Max)
    (h : System.Reaches step calm (Watch.start sender now) w) : Watched config w ∧ Apart config w := by
  refine h.invariant (I := fun w => Watched config w ∧ Apart config w) ⟨Watched.start hnew hnow, ?_⟩ ?_
  · obtain ⟨_, -, hsender⟩ := Act.except_bind_eq_ok.mp hnew
    cases hsender
    exact ⟨List.Pairwise.nil, nofun, Nat.le_refl _, nofun⟩
  · rintro s label t ⟨hwatched, hapart⟩ - hstep
    exact ⟨hwatched.step hstep, hapart.step hwatched hstep⟩

/-- What is pending went out, and no time twice. -/
theorem Watched.exists_times (h : Watched config w)
    (hacks : ∀ entry ∈ w.sender.pendingSnapshots.toList, w.clock < entry.2.ackDeadline) :
    ∃ times : List Nat, w.sender.pendingSnapshots.size ≤ times.length ∧ times.Sublist (w.emitted.map (·.2)) ∧
      ∀ time ∈ times, w.clock < min (time + config.receiverLease.asMicros) u64Max := by
  have hwaits : ∀ sequence ∈ w.sender.pendingSnapshots.keys, ∃ pending,
      w.sender.pendingSnapshots[sequence]? = some pending := by
    intro sequence hsequence
    have hmem := Std.ExtTreeMap.mem_keys.mp hsequence
    exact ⟨_, Std.ExtTreeMap.getElem?_eq_some_getElem hmem⟩
  refine ⟨(w.emitted.filter fun e => w.sender.pendingSnapshots.contains e.1).map (·.2), ?_,
    List.filter_sublist.map _, ?_⟩
  · rw [List.length_map, ← List.length_map (f := Prod.fst), ← Std.ExtTreeMap.length_keys]
    apply (Std.ExtTreeMap.nodup_keys.subperm ?_).length_le
    intro sequence hsequence
    obtain ⟨pending, hpending⟩ := hwaits sequence hsequence
    obtain ⟨⟨time, hemitted, -⟩, -⟩ := h.pending sequence pending hpending
    refine List.mem_map.mpr ⟨(sequence, time), List.mem_filter.mpr ⟨hemitted, ?_⟩, rfl⟩
    exact Std.ExtTreeMap.contains_iff_mem.mpr (Std.ExtTreeMap.mem_keys.mp hsequence)
  · intro time htime
    obtain ⟨e, he, rfl⟩ := List.mem_map.mp htime
    obtain ⟨hemitted, hcontains⟩ := List.mem_filter.mp he
    obtain ⟨pending, hpending⟩ := hwaits e.1
      (Std.ExtTreeMap.mem_keys.mpr (Std.ExtTreeMap.contains_iff_mem.mp hcontains))
    obtain ⟨⟨when_, hwhen, hdeadline⟩, -⟩ := h.pending e.1 pending hpending
    have hsame : when_ ≤ e.2 := h.emitted_mono hwhen hemitted (Nat.le_refl _)
    have hlive := hacks (e.1, pending) (Std.ExtTreeMap.mem_toList_iff_getElem?_eq_some.mpr hpending)
    have hmono := addDuration_mono hsame config.receiverLease
    rw [hdeadline] at hlive
    have hle : addDuration e.2 config.receiverLease ≤ min (e.2 + config.receiverLease.asMicros) u64Max :=
      Nat.le_min.mpr ⟨addDuration_le _ _, Nat.min_le_right _ _⟩
    exact Nat.lt_of_lt_of_le hlive (hmono.trans hle)

/-- **The bound is met only by a lease that is longer than that many gaps.** -/
theorem Apart.limit (h : Apart config w) (hwatched : Watched config w)
    (hlimit : (Sender.tick w.clock w.sender).1 = .error .pendingSnapshotLimit) :
    maxPendingSnapshots * Sender.gap config < config.receiverLease.asMicros := by
  obtain ⟨hremote, hobserved, hacks, hdue, hfull⟩ := Sender.tick_limit hlimit
  obtain ⟨times, hsize, hsublist, hlive⟩ := hwatched.exists_times hacks
  have hgap := Sender.gap_le_of_due hacks hdue h.dirty
  rw [hwatched.configured] at hgap
  have hmany : maxPendingSnapshots ≤ times.length := hfull.trans hsize
  have hne : times ≠ [] := by
    rintro rfl
    exact absurd hmany (by decide)
  have hlt := length_mul_lt_of_apart hne (h.apart.sublist hsublist) (fun time htime => by
    obtain ⟨e, he, rfl⟩ := List.mem_map.mp (hsublist.mem htime)
    exact (saturatingAdd_mono (h.last e he)).trans hgap) hlive
  exact Nat.lt_of_le_of_lt (Nat.mul_le_mul_right _ hmany) hlt

/-! ## A receiver that stays silent -/

/-- A tick is made exactly at a deadline. -/
def OnDeadline (w : Watch) : WatchStep → Prop
  | .tick => w.sender.nextDeadline = some w.clock
  | _ => True

/-- Nothing is captured and nothing acknowledged, and `sent` snapshots have gone out. -/
structure Unanswered (config : SenderConfig) (sent : Nat) (w : Watch) : Prop where
  configured : w.sender.config = config
  clock : w.clock = sent * config.checkpointInterval.asMicros
  remote : w.sender.remote = true
  observed : w.sender.lastObservedTime = w.clock
  snapshotAt : w.sender.lastSnapshotAt = w.clock
  held : w.sender.held.isNeutral = true
  dirty : w.sender.dirtySince = none
  control : w.sender.lastControlSequence = sent + 1
  size : w.sender.pendingSnapshots.size = sent
  numbers : ∀ sequence ∈ w.sender.pendingSnapshots, sequence ≤ sent + 1
  late : ∀ entry ∈ w.sender.pendingSnapshots.toList,
    config.checkpointInterval.asMicros + config.receiverLease.asMicros ≤ entry.2.ackDeadline

theorem addDuration_eq {time : Nat} {d : Duration} (h : time + d.asMicros ≤ u64Max) :
    addDuration time d = time + d.asMicros := by
  unfold addDuration saturatingAdd
  rw [Nat.min_eq_left ((Nat.le_add_left _ _).trans h), Nat.min_eq_left h]

/-- An accepted configuration, in microseconds. -/
theorem asMicros_of_validate (h : config.validate = .ok ()) :
    config.checkpointInterval.asMicros ≤ 250000 ∧ config.receiverLease.asMicros ≤ 1000000 := by
  unfold SenderConfig.validate at h
  have hinterval : ¬ maxCheckpointInterval.nanos < config.checkpointInterval.nanos := by
    intro hlt
    have hrefused : config.checkpointInterval.isZero = true ∨
        maxCheckpointInterval.nanos < config.checkpointInterval.nanos := .inr hlt
    rw [if_pos hrefused] at h
    cases h
  have hlease : ¬ maxReceiverLease.nanos < config.receiverLease.nanos := by
    intro hlt
    have hrefused : config.receiverLease.isZero = true ∨
        maxReceiverLease.nanos < config.receiverLease.nanos := .inr hlt
    rw [if_pos hrefused] at h
    split at h <;> cases h
  have hmax : maxCheckpointInterval.nanos = 250000000 := rfl
  have hmax' : maxReceiverLease.nanos = 1000000000 := rfl
  unfold Duration.asMicros
  omega

namespace Unanswered

variable {sent : Nat}

/-- The next snapshot is due an interval later, and no acknowledgement before it. -/
theorem due (h : Unanswered config sent w) (hvalid : config.validate = .ok ())
    (hlong : maxPendingSnapshots * config.checkpointInterval.asMicros < config.receiverLease.asMicros)
    (hsent : sent ≤ maxPendingSnapshots) :
    (∀ entry ∈ w.sender.pendingSnapshots.toList,
      (sent + 1) * config.checkpointInterval.asMicros < entry.2.ackDeadline) ∧
    ¬ w.sender.Quiet ((sent + 1) * config.checkpointInterval.asMicros) ∧
    w.sender.nextDeadline = some ((sent + 1) * config.checkpointInterval.asMicros) := by
  obtain ⟨hinterval, hlease⟩ := asMicros_of_validate hvalid
  have hnext : (sent + 1) * config.checkpointInterval.asMicros =
      w.clock + config.checkpointInterval.asMicros := by
    rw [h.clock, Nat.succ_mul]
  have hsmall : sent * config.checkpointInterval.asMicros ≤
      maxPendingSnapshots * config.checkpointInterval.asMicros := Nat.mul_le_mul_right _ hsent
  have hperiodic : addDuration w.sender.lastSnapshotAt config.checkpointInterval =
      (sent + 1) * config.checkpointInterval.asMicros := by
    rw [h.snapshotAt, hnext]
    apply addDuration_eq
    rw [h.clock]
    unfold u64Max
    omega
  have hacks : ∀ entry ∈ w.sender.pendingSnapshots.toList,
      (sent + 1) * config.checkpointInterval.asMicros < entry.2.ackDeadline := by
    intro entry hentry
    refine Nat.lt_of_lt_of_le ?_ (h.late entry hentry)
    rw [Nat.succ_mul]
    omega
  have hbusy : ¬ w.sender.Quiet ((sent + 1) * config.checkpointInterval.asMicros) := by
    intro hquiet
    have hlt := hquiet.periodic
    rw [h.configured, hperiodic] at hlt
    exact Nat.lt_irrefl _ hlt
  refine ⟨hacks, hbusy, ?_⟩
  obtain ⟨next, hsome, hle⟩ := Sender.nextDeadline_le_periodic h.remote
  rw [h.configured, hperiodic] at hle
  rw [hsome]
  congr
  refine Nat.le_antisymm hle ?_
  by_contra hlt
  have hbusy' : ¬ w.sender.Quiet next := by
    rw [← Sender.lt_nextDeadline_iff h.remote]
    rintro ⟨other, hother, hbefore⟩
    cases hother.symm.trans hsome
    exact Nat.lt_irrefl _ hbefore
  apply hbusy'
  · have hearly : next < (sent + 1) * config.checkpointInterval.asMicros := Nat.lt_of_not_le hlt
    refine ⟨fun entry hentry => hearly.trans (hacks entry hentry), ?_, ?_, ?_⟩
    · rw [h.configured, hperiodic]
      exact hearly
    · rw [h.dirty]
      exact nofun
    · rw [h.held]
      exact nofun

/-- The clock goes on to the next snapshot. -/
theorem wait (h : Unanswered config sent w) (hvalid : config.validate = .ok ())
    (hlong : maxPendingSnapshots * config.checkpointInterval.asMicros < config.receiverLease.asMicros)
    (hsent : sent ≤ maxPendingSnapshots) {time : MonotonicTimeMicros}
    (htime : (sent + 1) * config.checkpointInterval.asMicros = time) :
    time + config.receiverLease.asMicros ≤ u64Max ∧ w.sender.lastObservedTime ≤ time ∧
      step (.wait time) w = some { w with clock := time } := by
  obtain ⟨-, -, hnext⟩ := h.due hvalid hlong hsent
  obtain ⟨hinterval, hlease⟩ := asMicros_of_validate hvalid
  have hsmall : sent * config.checkpointInterval.asMicros ≤
      maxPendingSnapshots * config.checkpointInterval.asMicros := Nat.mul_le_mul_right _ hsent
  have hlater : w.clock ≤ time := by
    rw [h.clock, ← htime, Nat.succ_mul]
    exact Nat.le_add_right _ _
  have hbound : (sent + 1) * config.checkpointInterval.asMicros + config.receiverLease.asMicros ≤
      u64Max := by
    rw [Nat.succ_mul]
    unfold u64Max
    omega
  rw [htime] at hbound
  refine ⟨hbound, h.observed.symm ▸ hlater, ?_⟩
  have hguard : w.clock ≤ time ∧ time ≤ u64Max ∧ w.sender.nextDeadline.all (time ≤ ·) = true := by
    rw [hnext, htime]
    exact ⟨hlater, (Nat.le_add_right _ _).trans hbound, decide_eq_true (Nat.le_refl _)⟩
  simp only [Watch.step]
  rw [if_pos hguard]

/-- A snapshot that goes out. -/
theorem goesOut (h : Unanswered config sent w) {time : MonotonicTimeMicros}
    (htime : (sent + 1) * config.checkpointInterval.asMicros = time)
    (hbound : time + config.receiverLease.asMicros ≤ u64Max) (taken : StateSnapshot) :
    Unanswered config (sent + 1) { w with
      sender := { w.sender with
        lastObservedTime := time
        lastControlSequence := sent + 2
        pendingSnapshots := w.sender.pendingSnapshots.insert (sent + 2)
          ⟨taken, addDuration time w.sender.config.receiverLease⟩
        lastSnapshotAt := time
        dirtySince := none }
      clock := time
      emitted := w.emitted ++ [(sent + 2, time)] } where
  configured := h.configured
  clock := htime.symm
  remote := h.remote
  observed := rfl
  snapshotAt := rfl
  held := h.held
  dirty := rfl
  control := rfl
  size := by
    have hfresh : sent + 2 ∉ w.sender.pendingSnapshots := fun hmem =>
      absurd (h.numbers _ hmem) (Nat.not_succ_le_self _)
    dsimp only
    rw [Std.ExtTreeMap.size_insert, if_neg (mt Std.ExtTreeMap.contains_iff_mem.mp hfresh), h.size]
  numbers sequence hmem := by
    dsimp only at hmem
    rw [Std.ExtTreeMap.mem_insert, Std.compare_eq_iff_eq] at hmem
    rcases hmem with rfl | hold
    · exact Nat.le_refl _
    · exact (h.numbers sequence hold).trans (Nat.le_succ _)
  late entry hentry := by
    have hget := Std.ExtTreeMap.mem_toList_iff_getElem?_eq_some.mp hentry
    dsimp only at hget
    rw [Std.ExtTreeMap.getElem?_insert] at hget
    split at hget
    · rw [← Option.some.inj hget, h.configured]
      dsimp only
      rw [addDuration_eq hbound, ← htime, Nat.succ_mul]
      exact Nat.add_le_add_right (Nat.le_add_left _ _) _
    · exact h.late entry (Std.ExtTreeMap.mem_toList_iff_getElem?_eq_some.mpr hget)

/-- One more snapshot goes out. -/
theorem next (h : Unanswered config sent w) (hvalid : config.validate = .ok ())
    (hlong : maxPendingSnapshots * config.checkpointInterval.asMicros < config.receiverLease.asMicros)
    (hsent : sent < maxPendingSnapshots) :
    ∃ after, System.Reaches step OnDeadline w after ∧ Unanswered config (sent + 1) after := by
  obtain ⟨hacks, hbusy, hnext⟩ := h.due hvalid hlong hsent.le
  generalize htime : (sent + 1) * config.checkpointInterval.asMicros = time at hacks hbusy hnext
  obtain ⟨hbound, hobserved, hwait⟩ := h.wait hvalid hlong hsent.le htime
  have hroom : ¬ maxPendingSnapshots ≤ w.sender.pendingSnapshots.size := by
    rw [h.size]
    exact Nat.not_le.mpr hsent
  have hnumber : checkedAddU64 w.sender.lastControlSequence 1 = some (sent + 2) := by
    rw [checkedAddU64_eq_some, h.control]
    unfold maxPendingSnapshots at hsent
    unfold u64Max
    omega
  have hsnapshot := Sender.snapshot_apply (s := { w.sender with lastObservedTime := time }) h.remote
    (Nat.le_refl time)
  rw [if_neg hroom, hnumber] at hsnapshot
  have htick := Sender.tick_due h.remote hobserved hacks hbusy
  rw [hsnapshot] at htick
  have hstep : ∃ after, step .tick { w with clock := time } = some after ∧
      Unanswered config (sent + 1) after := by
    refine ⟨_, by simp only [Watch.step]; rw [htick], ?_⟩
    exact h.goesOut htime hbound _
  obtain ⟨after, hstep, hafter⟩ := hstep
  exact ⟨after, .step .tick (.step (.wait time) .start trivial hwait) hnext hstep, hafter⟩

/-- **The bound is met**, before any acknowledgement times out. -/
theorem limit (h : Unanswered config maxPendingSnapshots w) (hvalid : config.validate = .ok ())
    (hlong : maxPendingSnapshots * config.checkpointInterval.asMicros < config.receiverLease.asMicros) :
    ∃ after, System.Reaches step OnDeadline w after ∧ after.sender.nextDeadline = some after.clock ∧
      (Sender.tick after.clock after.sender).1 = .error .pendingSnapshotLimit := by
  obtain ⟨hacks, hbusy, hnext⟩ := h.due hvalid hlong (Nat.le_refl _)
  generalize htime : (maxPendingSnapshots + 1) * config.checkpointInterval.asMicros = time at hacks hbusy hnext
  obtain ⟨-, hobserved, hwait⟩ := h.wait hvalid hlong (Nat.le_refl _) htime
  refine ⟨{ w with clock := time }, .step (.wait time) .start trivial hwait, hnext, ?_⟩
  have hsnapshot := Sender.snapshot_apply (s := { w.sender with lastObservedTime := time }) h.remote
    (Nat.le_refl time)
  rw [if_pos h.size.ge] at hsnapshot
  rw [Sender.tick_due h.remote hobserved hacks hbusy, hsnapshot]

end Unanswered

/-- An activation opens. -/
theorem exists_unanswered_zero {session : SessionContext} {sender : Sender}
    (hnew : Sender.new config session 0 = .ok sender) :
    ∃ w, System.Reaches step OnDeadline (start sender 0) w ∧ Unanswered config 0 w := by
  obtain ⟨_, -, hsender⟩ := Act.except_bind_eq_ok.mp hnew
  cases hsender
  refine ⟨_, .step .enter .start trivial rfl, ?_⟩
  exact {
    configured := rfl
    clock := (Nat.zero_mul _).symm
    remote := rfl
    observed := rfl
    snapshotAt := rfl
    held := rfl
    dirty := rfl
    control := rfl
    size := rfl
    numbers := fun _ hmem => absurd hmem Std.ExtTreeMap.not_mem_empty
    late := fun entry hentry => by
      have hget : (∅ : Std.ExtTreeMap ControlSequence PendingSnapshot)[entry.1]? = some entry.2 :=
        Std.ExtTreeMap.mem_toList_iff_getElem?_eq_some.mp hentry
      simp at hget }

/-- Nothing is acknowledged, and the bound is met. -/
theorem exists_limit {session : SessionContext} {sender : Sender} (hvalid : config.validate = .ok ())
    (hnew : Sender.new config session 0 = .ok sender)
    (hlong : maxPendingSnapshots * config.checkpointInterval.asMicros < config.receiverLease.asMicros) :
    ∃ w, System.Reaches step OnDeadline (start sender 0) w ∧ w.sender.nextDeadline = some w.clock ∧
      (Sender.tick w.clock w.sender).1 = .error .pendingSnapshotLimit := by
  have hsent : ∀ sent ≤ maxPendingSnapshots,
      ∃ w, System.Reaches step OnDeadline (start sender 0) w ∧ Unanswered config sent w := by
    intro sent
    induction sent with
    | zero => exact fun _ => exists_unanswered_zero hnew
    | succ sent ih =>
      intro hle
      obtain ⟨w, hreaches, hunanswered⟩ := ih (Nat.le_of_succ_le hle)
      obtain ⟨after, hnext, hafter⟩ := hunanswered.next hvalid hlong hle
      exact ⟨after, hreaches.trans hnext, hafter⟩
  obtain ⟨w, hreaches, hunanswered⟩ := hsent _ (Nat.le_refl _)
  obtain ⟨after, hnext, hafter⟩ := hunanswered.limit hvalid hlong
  exact ⟨after, hreaches.trans hnext, hafter⟩

/-- A gap is an interval, as far as the bound goes: a third of the lease is always long enough. -/
theorem lease_le_of_interval (hvalid : config.validate = .ok ())
    (h : config.receiverLease.asMicros ≤ maxPendingSnapshots * config.checkpointInterval.asMicros) :
    config.receiverLease.asMicros ≤ maxPendingSnapshots * Sender.gap config := by
  have hthird := asMicros_of_validate hvalid
  have hlease : oneThirdRoundedDown config.receiverLease = .fromMicros
      (max (min ((config.receiverLease.asMicros - 1) / 3) u64Max) 1) := rfl
  have hmicros : ∀ n, (Duration.fromMicros n).asMicros = n := fun n =>
    Nat.mul_div_cancel n (by decide)
  unfold Sender.gap
  rw [hlease, hmicros]
  unfold maxPendingSnapshots u64Max at *
  omega

/-- **When the bound is met.** Over a checkpoint interval and a lease that a sender accepts, a run that ticks
it exactly at each deadline, with any captures and acknowledgements in between, never meets the bound on
pending snapshots if and only if the lease is at most that many intervals, in whole microseconds. In every
run, whatever the two are, a tick of a remote sender that finds an acknowledgement overdue ends the
activation for that reason, unless a capture was stamped after the tick or the numbers ran out. -/
theorem pending_limit_iff (hvalid : config.validate = .ok ()) :
    ((∀ session now sender w, now ≤ u64Max → Sender.new config session now = .ok sender →
        System.Reaches step OnDeadline (start sender now) w → w.sender.nextDeadline = some w.clock →
        (Sender.tick w.clock w.sender).1 ≠ .error .pendingSnapshotLimit) ↔
      config.receiverLease.asMicros ≤ maxPendingSnapshots * config.checkpointInterval.asMicros) ∧
    ∀ session now sender w, now ≤ u64Max → Sender.new config session now = .ok sender →
      System.Reaches step OnDeadline (start sender now) w → w.sender.remote = true →
      w.sender.lastObservedTime ≤ w.clock → w.sender.lastControlSequence < u64Max →
      (∃ entry ∈ w.sender.pendingSnapshots.toList, entry.2.ackDeadline ≤ w.clock) →
      (Sender.tick w.clock w.sender).1 = .ok (.exitRemote .snapshotAckTimedOut
        ⟨w.sender.session, w.sender.lastControlSequence + 1, .sessionClose .leaseExpired none⟩) := by
  refine ⟨⟨fun hnever => ?_, fun hle => ?_⟩, ?_⟩
  · by_contra hlong
    have hnew : ∃ sender, Sender.new config ⟨0, 0, 0⟩ 0 = .ok sender := by
      unfold Sender.new
      rw [hvalid]
      exact ⟨_, rfl⟩
    obtain ⟨sender, hnew⟩ := hnew
    obtain ⟨w, hreaches, hdue, hlimit⟩ := exists_limit hvalid hnew (Nat.lt_of_not_le hlong)
    exact hnever _ 0 sender w (Nat.zero_le _) hnew hreaches hdue hlimit
  · intro session now sender w hnow hnew hreaches _ hlimit
    obtain ⟨hwatched, hapart⟩ := apart_of_reaches hnew hnow hreaches
    exact absurd (lease_le_of_interval hvalid hle) (Nat.not_le_of_lt (hapart.limit hwatched hlimit))
  · intro session now sender w _ _ _ hremote hobserved hnumbers hdue
    have hnumber : checkedAddU64 w.sender.lastControlSequence 1 =
        some (w.sender.lastControlSequence + 1) := checkedAddU64_eq_some.mpr ⟨rfl, hnumbers⟩
    rw [Sender.tick_overdue hremote hobserved hdue, hnumber]

/-- A checkpoint each millisecond under a lease of a second is accepted, and never acknowledged. -/
theorem limit_before_timeout : ∃ config sender w, SenderConfig.validate config = .ok () ∧
    config = ⟨.fromMillis 1, .fromMillis 1000⟩ ∧ Sender.new config ⟨1, 1, 1⟩ 0 = .ok sender ∧
    System.Reaches step OnDeadline (start sender 0) w ∧ w.sender.nextDeadline = some w.clock ∧
    (Sender.tick w.clock w.sender).1 = .error .pendingSnapshotLimit := by
  have hnew : Sender.new ⟨.fromMillis 1, .fromMillis 1000⟩ ⟨1, 1, 1⟩ 0 =
      .ok { silentSender with config := ⟨.fromMillis 1, .fromMillis 1000⟩ } := rfl
  obtain ⟨w, hreaches, hdue, hlimit⟩ := exists_limit rfl hnew (by decide)
  exact ⟨_, _, w, rfl, rfl, hnew, hreaches, hdue, hlimit⟩

/-- Of the intervals of the tests, under their lease. -/
theorem pending_limit_iff_tests : SenderConfig.validate ⟨.fromMillis 250, .fromMillis 900⟩ = .ok () ∧
    ∀ session now sender w, now ≤ u64Max → Sender.new ⟨.fromMillis 250, .fromMillis 900⟩ session now = .ok sender →
      System.Reaches step OnDeadline (start sender now) w → w.sender.nextDeadline = some w.clock →
      (Sender.tick w.clock w.sender).1 ≠ .error .pendingSnapshotLimit := by
  have hvalid : SenderConfig.validate ⟨.fromMillis 250, .fromMillis 900⟩ = .ok () := rfl
  exact ⟨hvalid, (pending_limit_iff hvalid).1.mpr (by decide)⟩

end Watch

end Zflow.Core
