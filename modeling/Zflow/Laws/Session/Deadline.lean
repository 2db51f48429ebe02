import Zflow.Laws.Core.Rational
import Zflow.Laws.Core.Receiver
import Zflow.Session.Receive

/-!
# A playout that is behind is ticked

`session_deadline` schedules a tick while playout is behind its target. A settled playout that stands
anywhere but at its target is behind it, so it is ticked, and every tick brings it nearer: with the
course of its events this is what `lossless` says of a playout's whole run.
-/

namespace Zflow.Session

open Zflow.Core Lib

variable {F : Type} [F64 F] {C : Type} [ClockMapper C]

omit [F64 F] in
/-- A playout with an incomplete target is ticked within one session tick. -/
theorem sessionDeadline_of_behind (sender : Option Sender) (receiver : Receiver)
    {p : ReceiverPlayout F} (pendingControls : Bool) (lastTickAt nextProbeAt : MonotonicTimeMicros)
    (hbehind : p.completedSequence < p.target.sequence) :
    ∃ d, sessionDeadline sender receiver (some p) pendingControls lastTickAt nextProbeAt = some d ∧
      d ≤ addDuration lastTickAt sessionTick := by
  unfold sessionDeadline
  refine exists_min?_le (List.mem_filterMap.mpr ⟨some (addDuration lastTickAt sessionTick), ?_, rfl⟩)
  have hcatch : ((some p).any fun playout =>
      playout.stats.completedSequence < playout.stats.selectedTargetSequence) = true :=
    decide_eq_true hbehind
  simp [hcatch]

omit [F64 F] in
/-- **A settled playout away from its target has not completed it.** -/
theorem behind_of_settled {p : ReceiverPlayout F} (hsettled : p.Settled)
    (haway : p.injectedTotals ≠ p.target.totals) : p.completedSequence < p.target.sequence :=
  Nat.lt_of_le_of_ne hsettled.completed_le fun heq => haway (hsettled.completed_eq heq)

omit [F64 F] in
/-- Away from its target something is left of it. -/
theorem remaining_ne_zero {p : ReceiverPlayout F} (haway : p.injectedTotals ≠ p.target.totals) :
    p.remaining ≠ 0 := by
  intro hzero
  refine haway ?_
  rw [← CumulativeMotion.displacement_inj]
  exact (MotionDelta.sub_eq_zero.mp hzero).symm

/-- **Cumulative playout is lossless.** After any successful calls on a new playout: what is injected
is the last rebase's totals and the steps since; no sum of `poll` overflows; a step says it reached
the target exactly when it did, and the targets steps name are in order and above the last cutoff; and
a target that is not fully injected is not complete, so it is ticked, and the polls that keep it go on
shortening what is left. -/
theorem lossless (hbetween : LimitsBetween F) (hprogress : LimitsProgress F)
    (config : PlayoutConfig F) (session : SessionContext) (p : ReceiverPlayout F)
    (hnew : ReceiverPlayout.new config session = .ok p) (calls : List (PlayoutCall C))
    (log : List PlayoutEvent) (p' : ReceiverPlayout F)
    (hrun : ReceiverPlayout.runCalls calls p = (.ok log, p')) :
    -- what is injected
    (Course.machine.run .start log).position = p'.injectedTotals.displacement ∧
    -- the sums of `poll`
    (∀ (q : ReceiverPlayout F) own elapsed remaining u,
      q.target.totals.checkedDeltaFrom q.injectedTotals = .ok remaining → q.catchUp own elapsed = .ok u →
      (u.limited + u.fresh).InRange ∧ u.delta = u.limited + u.fresh) ∧
    -- the targets
    (∀ now step p'', ReceiverPlayout.poll now p' = (.ok (some step), p'') →
      (step.targetReached = true ↔ p''.injectedTotals = p''.target.totals)) ∧
    (∀ before step after, log = before ++ .stepped step :: after →
      (Course.machine.run .start before).through ≤ step.throughSequence ∧
      ∀ cutoff, (Course.machine.run .start before).cutoff = some cutoff → cutoff < step.throughSequence) ∧
    -- completion
    p'.completedSequence ≤ p'.target.sequence ∧
    (p'.completedSequence = p'.target.sequence → p'.injectedTotals = p'.target.totals) ∧
    (p'.injectedTotals ≠ p'.target.totals → (∀ sender receiver pendingControls lastTickAt nextProbeAt,
        ∃ d, sessionDeadline sender receiver (some p') pendingControls lastTickAt nextProbeAt =
            some d ∧ d ≤ addDuration lastTickAt sessionTick) ∧
      ∀ now result p'', ReceiverPlayout.poll now p' = (.ok result, p'') →
        p''.target.sequence = p'.target.sequence → p''.remaining.length < p'.remaining.length) := by
  obtain ⟨hsettled, hshows⟩ := ReceiverPlayout.settled_new hnew
  obtain ⟨hsettled', htracks⟩ := ReceiverPlayout.settled_runCalls hsettled hrun
  obtain ⟨hlegal, hshows'⟩ := htracks _ hshows
  refine ⟨hshows'.1, ?_, ?_, ?_, hsettled'.completed_le, hsettled'.completed_eq, ?_⟩
  · intro q own elapsed remaining u hremaining hcatch
    have hrange := ReceiverPlayout.catchUp_inRange hbetween hremaining hcatch
    exact ⟨hrange, ReceiverPlayout.delta_of_inRange hrange⟩
  · intro now step p'' hpoll
    exact ReceiverPlayout.targetReached_iff hpoll
  · intro before step after hlog
    exact (Course.machine.legal_iff_forall_split _ _).mp hlegal before _ after hlog
  · intro haway
    refine ⟨?_, ?_⟩
    · intro sender receiver pendingControls lastTickAt nextProbeAt
      exact sessionDeadline_of_behind _ _ _ _ _ (behind_of_settled hsettled' haway)
    · intro now result p'' hpoll hsame
      exact ReceiverPlayout.remaining_lt_of_poll hbetween hprogress hsettled' hpoll hsame (remaining_ne_zero haway)

/-- Where the sample run leaves the playout. -/
def samplePlayed : ReceiverPlayout ℚ :=
  (ReceiverPlayout.runCalls (samplePlayoutCalls sampleSession) (samplePlayout sampleSession)).2

/-- What the sample run played. -/
def samplePlayedLog : List PlayoutEvent :=
  (ReceiverPlayout.runCalls (samplePlayoutCalls sampleSession)
    (samplePlayout sampleSession)).1.toOption.getD []

theorem lossless_sample :
    (Course.machine.run .start samplePlayedLog).position = samplePlayed.injectedTotals.displacement ∧
    ∃ d, sessionDeadline none sampleReceiver (some samplePlayed) false 1020 1020 = some d ∧
      d ≤ addDuration 1020 sessionTick := by
  obtain ⟨hposition, -, -, -, -, -, hbehind⟩ := lossless limitsBetween_rat limitsProgress_rat
    samplePlayoutConfig sampleSession (samplePlayout sampleSession) (by decide +kernel)
    (samplePlayoutCalls sampleSession) samplePlayedLog samplePlayed (by decide +kernel)
  exact ⟨hposition, (hbehind (by decide +kernel)).1 _ _ _ _ _⟩

end Zflow.Session
