import Zflow.Laws.Core.Playout
import Zflow.Lib.Replay

/-!
# Playout loses nothing

A playout's events, its rebases and its steps, are replayed by a course that adds up the steps since
the last rebase. **Every run of successful calls is a legal course**: the sum is the injected totals,
the steps name targets in order, and none names a sequence at or below a rebase cutoff. With it the
file shows that the sums of `poll` cannot overflow, that a step says it reached the target exactly
when it did, and that every poll shortens what is left.

What is assumed of the limiter is `LimitsBetween` and `LimitsProgress`.
-/

namespace Zflow.Core

open Lib

/-- **The limiter stays on the way**: each axis is between zero and what it was given. -/
def LimitsBetween (F : Type) [F64 F] : Prop :=
  ∀ first second cap, Between first (limitPair F first second cap).1 ∧
    Between second (limitPair F first second cap).2.1

/-- **The limiter lets something through** when it is given something. -/
def LimitsProgress (F : Type) [F64 F] : Prop :=
  ∀ first second cap, (first ≠ 0 ∨ second ≠ 0) →
    (limitPair F first second cap).1 ≠ 0 ∨ (limitPair F first second cap).2.1 ≠ 0

/-! ## Runs -/

/-- One call of a playout's public methods. -/
inductive PlayoutCall (C : Type) where
  | ingestFrame (frame : MotionFrame) (receivedAt : MonotonicTimeMicros) (clock : C)
  | poll (now : MonotonicTimeMicros)
  | rebase (through : MotionSequence) (totals : CumulativeMotion)
  | advanceControlWatermark (applied : ControlSequence)
  | remapClock (clock : C)

/-- What a call does to the injected displacement. -/
inductive PlayoutEvent where
  | rebased (through : MotionSequence) (totals : CumulativeMotion)
  | stepped (step : PlayoutStep)
  deriving DecidableEq

variable {F : Type} [F64 F] {C : Type} [ClockMapper C]

namespace ReceiverPlayout

def call : PlayoutCall C → Act PlayoutError (ReceiverPlayout F) (List PlayoutEvent)
  | .ingestFrame frame receivedAt clock => do
    let _ ← ingestFrame frame receivedAt clock
    return []
  | .poll now => do
    let step ← poll now
    return step.toList.map .stepped
  | .rebase through totals => do
    rebase through totals
    return [.rebased through totals]
  | .advanceControlWatermark applied => do
    advanceControlWatermark applied
    return []
  | .remapClock clock => do
    remapClock clock
    return []

/-- A run of calls that all succeed, with its events. -/
def runCalls : List (PlayoutCall C) → Act PlayoutError (ReceiverPlayout F) (List PlayoutEvent)
  | [] => return []
  | c :: cs => do
    let events ← call c
    let rest ← runCalls cs
    return events ++ rest

end ReceiverPlayout

/-! ## The course -/

/-- The displacement since the activation began, the last target a step named, and the cutoff. -/
structure Course where
  position : MotionDelta
  through : MotionSequence
  cutoff : Option MotionSequence

namespace Course

def start : Course := ⟨0, 0, none⟩

def apply (c : Course) : PlayoutEvent → Course
  | .rebased through totals =>
    { c with
      position := totals.displacement
      cutoff := some (c.cutoff.elim through (max · through)) }
  | .stepped step => { c with
      position := c.position + step.delta
      through := step.throughSequence }

/-- A step names a target in order and above the cutoff. -/
def Admits (c : Course) : PlayoutEvent → Prop
  | .rebased .. => True
  | .stepped step => c.through ≤ step.throughSequence ∧
      ∀ cutoff, c.cutoff = some cutoff → cutoff < step.throughSequence

def machine : Replay Course PlayoutEvent := ⟨apply, Admits⟩

/-- The course stands where the playout does. -/
def Shows (c : Course) (p : ReceiverPlayout F) : Prop :=
  c.position = p.injectedTotals.displacement ∧ c.through ≤ p.target.sequence ∧
    c.cutoff = p.rebaseCutoff

end Course

/-! ## The invariant -/

namespace ReceiverPlayout

/-- What holds of a playout between successful calls. -/
structure Settled (p : ReceiverPlayout F) : Prop where
  /-- Queued frames are ahead of the target. -/
  ahead : ∀ sequence : MotionSequence, sequence ∈ p.queue → p.target.sequence < sequence
  /-- The target is not below the cutoff. -/
  cutoff : ∀ cutoff, p.rebaseCutoff = some cutoff → cutoff ≤ p.target.sequence
  /-- Nothing above the target is complete. -/
  completed_le : p.completedSequence ≤ p.target.sequence
  /-- A complete target is injected. -/
  completed_eq : p.completedSequence = p.target.sequence → p.injectedTotals = p.target.totals
  /-- A target at the cutoff is the rebase's own, and it is complete. -/
  rebased : p.rebaseCutoff = some p.target.sequence → p.completedSequence = p.target.sequence
  /-- A poll has handed out the touch snapshot of the target it took. -/
  pending : p.target.pendingTouchSnapshot = none

theorem Settled.of_unmoved {p p' : ReceiverPlayout F} (h : p.Settled) (hmoved : Unmoved p p') : p'.Settled where
  ahead := by rw [hmoved.queue, hmoved.target]; exact h.ahead
  cutoff := by rw [hmoved.cutoff, hmoved.target]; exact h.cutoff
  completed_le := by rw [hmoved.completed, hmoved.target]; exact h.completed_le
  completed_eq := by rw [hmoved.completed, hmoved.target, hmoved.injected]; exact h.completed_eq
  rebased := by rw [hmoved.cutoff, hmoved.completed, hmoved.target]; exact h.rebased
  pending := by rw [hmoved.target]; exact h.pending

theorem settled_new {config : PlayoutConfig F} {session : SessionContext} {p : ReceiverPlayout F}
    (h : new config session = .ok p) : p.Settled ∧ Course.start.Shows p := by
  obtain ⟨-, minimum, -, rfl⟩ := new_eq_ok.mp h
  refine ⟨⟨?_, ?_, Nat.le_refl _, fun _ => rfl, ?_, rfl⟩, rfl, Nat.le_refl _, rfl⟩
  · intro sequence hmem
    simp [fresh] at hmem
  · simp [fresh]
  · simp [fresh]

/-! ## The sums of a poll -/

/-- The step of a poll, axis by axis: what the limiter lets through of a backlog which, with the
newest sample, is exactly what remains. -/
theorem catchUp_between (hlimit : LimitsBetween F) {p : ReceiverPlayout F}
    {own : Option CumulativeMotion} {elapsed : Nat} {remaining : MotionDelta} {u : CatchUp}
    (hremaining : p.target.totals.checkedDeltaFrom p.injectedTotals = .ok remaining)
    (hcatch : p.catchUp own elapsed = .ok u) :
    ∃ backlog : MotionDelta, backlog + u.fresh = remaining ∧ u.fresh.InRange ∧
      Between backlog.dx u.limited.dx ∧ Between backlog.dy u.limited.dy ∧
      Between backlog.scrollX u.limited.scrollX ∧ Between backlog.scrollY u.limited.scrollY := by
  obtain ⟨backlog, pointerCap, scrollCap, hbacklog, hfresh, hlimited⟩ := catchUp_ok hcatch
  obtain ⟨hb, -⟩ := CumulativeMotion.checkedDeltaFrom_eq_ok.mp hbacklog
  obtain ⟨hf, hrange⟩ := CumulativeMotion.checkedDeltaFrom_eq_ok.mp hfresh
  obtain ⟨hr, -⟩ := CumulativeMotion.checkedDeltaFrom_eq_ok.mp hremaining
  refine ⟨backlog, ?_, hf ▸ hrange, ?_, ?_, ?_, ?_⟩
  · rw [hb, hf, hr]
    ext <;> simp
  · rw [hlimited]
    exact (hlimit backlog.dx backlog.dy pointerCap).1
  · rw [hlimited]
    exact (hlimit backlog.dx backlog.dy pointerCap).2
  · rw [hlimited]
    exact (hlimit backlog.scrollX backlog.scrollY scrollCap).1
  · rw [hlimited]
    exact (hlimit backlog.scrollX backlog.scrollY scrollCap).2

/-- **The sums of `poll` cannot overflow.** Each lies between the newest sample and the whole
remainder, which are both in range. -/
theorem catchUp_inRange (hlimit : LimitsBetween F) {p : ReceiverPlayout F}
    {own : Option CumulativeMotion} {elapsed : Nat} {remaining : MotionDelta} {u : CatchUp}
    (hremaining : p.target.totals.checkedDeltaFrom p.injectedTotals = .ok remaining)
    (hcatch : p.catchUp own elapsed = .ok u) : (u.limited + u.fresh).InRange := by
  obtain ⟨backlog, hsum, ⟨fx, fy, fsx, fsy⟩, bx, byy, bsx, bsy⟩ :=
    catchUp_between hlimit hremaining hcatch
  obtain ⟨hr, rx, ry, rsx, rsy⟩ := CumulativeMotion.checkedDeltaFrom_eq_ok.mp hremaining
  rw [← hr, ← hsum] at rx ry rsx rsy
  exact ⟨bx.add_inI64 fx rx, byy.add_inI64 fy ry, bsx.add_inI64 fsx rsx, bsy.add_inI64 fsy rsy⟩

/-- A step that does not wrap is the sum of its parts. -/
theorem delta_of_inRange {u : CatchUp} (h : (u.limited + u.fresh).InRange) :
    u.delta = u.limited + u.fresh := by
  obtain ⟨hx, hy, hsx, hsy⟩ := h
  unfold CatchUp.delta
  ext
  · exact wrapI64_of_inI64 hx
  · exact wrapI64_of_inI64 hy
  · exact wrapI64_of_inI64 hsx
  · exact wrapI64_of_inI64 hsy

/-! ## One call -/

/-- What holds in the middle of a poll, between the selection and the step: a target that is
complete has nothing left to hand out. -/
structure Poised (p : ReceiverPlayout F) : Prop where
  ahead : ∀ sequence : MotionSequence, sequence ∈ p.queue → p.target.sequence < sequence
  cutoff : ∀ cutoff, p.rebaseCutoff = some cutoff → cutoff ≤ p.target.sequence
  completed_le : p.completedSequence ≤ p.target.sequence
  complete : p.completedSequence = p.target.sequence →
    p.injectedTotals = p.target.totals ∧ p.target.pendingTouchSnapshot = none
  rebased : p.rebaseCutoff = some p.target.sequence → p.completedSequence = p.target.sequence

theorem Settled.poised {p : ReceiverPlayout F} (h : p.Settled) : p.Poised :=
  ⟨h.ahead, h.cutoff, h.completed_le, fun heq => ⟨h.completed_eq heq, h.pending⟩, h.rebased⟩

/-- **A selection poises the poll.** A new target is above everything complete and every cutoff. -/
theorem poised_of_select {now : MonotonicTimeMicros} {own : Option CumulativeMotion}
    {p p' : ReceiverPlayout F} (hsettled : p.Settled) (h : selectNewestMatureTarget now p = (.ok own, p')) :
    p'.Poised ∧ p.target.sequence ≤ p'.target.sequence := by
  rcases select_ok h with ⟨-, rfl, -⟩ | ⟨sequence, queued, hnewest, -, hselected⟩
  · exact ⟨hsettled.poised, Nat.le_refl _⟩
  · have hlt := hsettled.ahead sequence hnewest.mem
    have htarget : p'.target.sequence = sequence := by rw [hselected.target]
    refine ⟨⟨?_, ?_, ?_, ?_, ?_⟩, htarget ▸ Nat.le_of_lt hlt⟩
    · intro other hother
      rw [hselected.queue] at hother
      obtain ⟨hin, habove⟩ := Std.ExtTreeMap.mem_filter.mp hother
      rw [htarget]
      simpa using habove
    · intro cutoff hcutoff
      rw [hselected.cutoff] at hcutoff
      have hle := hsettled.cutoff cutoff hcutoff
      lia
    · have hle := hsettled.completed_le
      rw [hselected.completed]
      lia
    · intro heq
      have hle := hsettled.completed_le
      rw [hselected.completed] at heq
      lia
    · intro heq
      rw [hselected.cutoff] at heq
      have hle := hsettled.cutoff _ heq
      lia

/-- **The end of a poll settles the state, and its step is admitted**: it is a step to a target that
was not complete, so it is above the cutoff. -/
theorem settled_pollTarget {own : Option CumulativeMotion} {elapsed : Nat}
    {result : Option PlayoutStep} {p p' : ReceiverPlayout F} (hpoised : p.Poised)
    (h : pollTarget own elapsed p = (.ok result, p')) :
    p'.Settled ∧ Course.machine.Tracks Course.Shows p (result.toList.map .stepped) p' := by
  obtain ⟨remaining, hremaining, ⟨rfl, hzero, hpending, rfl⟩ | ⟨u, injected, hcatch, hsum, hleft,
    rfl, hstepped⟩⟩ := pollTarget_ok h
  · have htotals : p.injectedTotals = p.target.totals := by
      obtain ⟨hd, -⟩ := CumulativeMotion.checkedDeltaFrom_eq_ok.mp hremaining
      rw [hzero] at hd
      rw [← CumulativeMotion.displacement_inj]
      exact (MotionDelta.sub_eq_zero.mp hd.symm).symm
    have hmax : max p.completedSequence p.target.sequence = p.target.sequence :=
      Nat.max_eq_right hpoised.completed_le
    refine ⟨⟨hpoised.ahead, hpoised.cutoff, ?_, fun _ => htotals, fun _ => hmax, hpending⟩, ?_⟩
    · exact Nat.le_of_eq hmax
    · exact fun c hc => ⟨trivial, hc⟩
  · have htarget : p'.target.sequence = p.target.sequence := by rw [hstepped.target]
    have htotals : p'.target.totals = p.target.totals := by rw [hstepped.target]
    -- something was left of the target, so it was not complete
    have hincomplete : p.completedSequence < p.target.sequence := by
      refine Nat.lt_of_le_of_ne hpoised.completed_le fun heq => hleft ?_
      obtain ⟨hinjected, hpending⟩ := hpoised.complete heq
      refine ⟨?_, hpending⟩
      obtain ⟨hd, -⟩ := CumulativeMotion.checkedDeltaFrom_eq_ok.mp hremaining
      rw [hd, hinjected]
      exact MotionDelta.sub_self _
    have hcompleted : p'.completedSequence ≤ p.target.sequence ∧
        (p'.completedSequence = p.target.sequence → injected = p.target.totals) := by
      rw [hstepped.completed]
      by_cases hreached : injected = p.target.totals
      · rw [if_pos hreached]
        exact ⟨by lia, fun _ => hreached⟩
      · rw [if_neg hreached]
        exact ⟨by lia, fun heq => by lia⟩
    have hcutoff_lt : ∀ cutoff, p.rebaseCutoff = some cutoff → cutoff < p.target.sequence := by
      intro cutoff hcutoff
      refine Nat.lt_of_le_of_ne (hpoised.cutoff cutoff hcutoff) fun heq => ?_
      have hcomplete := hpoised.rebased (heq ▸ hcutoff)
      lia
    refine ⟨⟨?_, ?_, ?_, ?_, ?_, by rw [hstepped.target]⟩, .single fun c hc => ⟨⟨?_, ?_⟩, ?_, ?_, ?_⟩⟩
    · rw [hstepped.queue, htarget]
      exact hpoised.ahead
    · rw [hstepped.cutoff, htarget]
      exact hpoised.cutoff
    · exact htarget ▸ hcompleted.1
    · rw [htarget, hstepped.injected, htotals]
      exact hcompleted.2
    · rw [htarget, hstepped.cutoff]
      exact fun heq => absurd (hcutoff_lt _ heq) (Nat.lt_irrefl _)
    · exact hc.2.1
    · exact fun cutoff hcutoff => hcutoff_lt cutoff (hc.2.2 ▸ hcutoff)
    · show c.position + u.delta = p'.injectedTotals.displacement
      rw [hstepped.injected, hc.1]
      exact (CumulativeMotion.checkedAdd_eq_ok.mp hsum).1.symm
    · exact Nat.le_of_eq htarget.symm
    · exact hc.2.2.trans hstepped.cutoff.symm

theorem settled_poll {now : MonotonicTimeMicros} {result : Option PlayoutStep}
    {p p' : ReceiverPlayout F} (hsettled : p.Settled) (h : poll now p = (.ok result, p')) :
    p'.Settled ∧ Course.machine.Tracks Course.Shows p (result.toList.map .stepped) p' := by
  obtain ⟨p₁, p₂, elapsed, own, hmoved, hselect, hend⟩ := poll_ok h
  obtain ⟨hpoised, hle⟩ := poised_of_select (hsettled.of_unmoved hmoved) hselect
  obtain ⟨hsettled', htracks⟩ := settled_pollTarget hpoised hend
  refine ⟨hsettled', fun c hc => htracks c ?_⟩
  -- a selection moves the target up, and nothing else the course shows
  have hframe : p₂.injectedTotals = p.injectedTotals ∧ p₂.rebaseCutoff = p.rebaseCutoff := by
    rcases select_ok hselect with ⟨-, rfl, -⟩ | ⟨_, _, -, -, hselected⟩
    · exact ⟨hmoved.injected, hmoved.cutoff⟩
    · exact ⟨hselected.injected.trans hmoved.injected, hselected.cutoff.trans hmoved.cutoff⟩
  refine ⟨by rw [hframe.1]; exact hc.1, ?_, by rw [hframe.2]; exact hc.2.2⟩
  rw [hmoved.target] at hle
  exact Nat.le_trans hc.2.1 hle

/-- Two states that agree on what is injected and where, with no event between them. -/
theorem tracks_nil {p p' : ReceiverPlayout F} (hinjected : p'.injectedTotals = p.injectedTotals)
    (htarget : p.target.sequence ≤ p'.target.sequence) (hcutoff : p'.rebaseCutoff = p.rebaseCutoff) :
    Course.machine.Tracks Course.Shows p [] p' := by
  refine fun c hc => ⟨trivial, ?_, Nat.le_trans hc.2.1 htarget, ?_⟩
  · exact hinjected ▸ hc.1
  · exact hcutoff ▸ hc.2.2

theorem settled_ingestFrame {frame : MotionFrame} {receivedAt : MonotonicTimeMicros} {clock : C}
    {outcome : EnqueueOutcome} {p p' : ReceiverPlayout F} (hsettled : p.Settled)
    (h : ingestFrame frame receivedAt clock p = (.ok outcome, p')) :
    p'.Settled ∧ Course.machine.Tracks Course.Shows p [] p' := by
  rcases ingestFrame_ok h with hmoved | ⟨mapped, -, hlt, hmoved⟩
  · refine ⟨hsettled.of_unmoved hmoved, tracks_nil hmoved.injected ?_ hmoved.cutoff⟩
    rw [hmoved.target]
  · have hqueued : Settled { p with queue := p.queue.insert frame.motionSequence ⟨frame, mapped⟩ } := by
      refine ⟨fun sequence hmem => ?_, hsettled.cutoff, hsettled.completed_le,
        hsettled.completed_eq, hsettled.rebased, hsettled.pending⟩
      rcases Std.ExtTreeMap.mem_insert.mp hmem with hsame | hold
      · rw [← Std.LawfulEqCmp.eq_of_compare hsame]
        exact hlt
      · exact hsettled.ahead sequence hold
    refine ⟨hqueued.of_unmoved hmoved, tracks_nil hmoved.injected ?_ hmoved.cutoff⟩
    rw [hmoved.target]

theorem settled_rebase {through : MotionSequence} {totals : CumulativeMotion}
    {p p' : ReceiverPlayout F} (hsettled : p.Settled) (h : rebase through totals p = (.ok (), p')) :
    p'.Settled ∧ Course.machine.Tracks Course.Shows p [.rebased through totals] p' := by
  obtain ⟨hle, -, rfl⟩ := rebase_ok.mp h
  have hcutoff : p.rebaseCutoff.elim through (max · through) = through := by
    cases hc : p.rebaseCutoff with
    | none => rfl
    | some cutoff => exact Nat.max_eq_right (Nat.le_trans (hsettled.cutoff cutoff hc) hle)
  refine ⟨⟨?_, ?_, Nat.le_refl _, fun _ => rfl, fun _ => rfl, rfl⟩, .single fun c hc => ?_⟩
  · intro sequence hmem
    obtain ⟨hin, habove⟩ := Std.ExtTreeMap.mem_filter.mp hmem
    simpa using habove
  · rintro cutoff hc
    cases hc
    exact Nat.le_of_eq hcutoff
  · obtain ⟨-, hthrough, hsame⟩ := hc
    refine ⟨trivial, rfl, Nat.le_trans hthrough hle, ?_⟩
    exact congrArg (fun cutoff => some (cutoff.elim through (max · through))) hsame

theorem settled_remapClock {clock : C} {p p' : ReceiverPlayout F} (hsettled : p.Settled)
    (h : remapClock clock p = (.ok (), p')) :
    p'.Settled ∧ Course.machine.Tracks Course.Shows p [] p' := by
  obtain ⟨-, -, -, hframes, ⟨mapped, htarget⟩, hcompleted, hinjected, hcutoff⟩ := remapClock_ok h
  refine ⟨⟨?_, ?_, ?_, ?_, ?_, ?_⟩, tracks_nil hinjected ?_ hcutoff⟩
  · intro sequence hmem
    rw [htarget]
    refine hsettled.ahead sequence ?_
    rw [Std.ExtTreeMap.mem_iff_isSome_getElem?] at hmem ⊢
    have hsame := congrArg Option.isSome (hframes sequence)
    rw [Option.isSome_map, Option.isSome_map] at hsame
    rwa [← hsame]
  · rw [hcutoff, htarget]
    exact hsettled.cutoff
  · rw [hcompleted, htarget]
    exact hsettled.completed_le
  · rw [hcompleted, htarget, hinjected]
    exact hsettled.completed_eq
  · rw [hcompleted, htarget, hcutoff]
    exact hsettled.rebased
  · rw [htarget]
    exact hsettled.pending
  · rw [htarget]

/-- **One call** keeps the state settled, and its events are a legal course. -/
theorem settled_call {c : PlayoutCall C} {events : List PlayoutEvent} {p p' : ReceiverPlayout F}
    (hsettled : p.Settled) (h : call c p = (.ok events, p')) :
    p'.Settled ∧ Course.machine.Tracks Course.Shows p events p' := by
  unfold call at h
  cases c with
  | ingestFrame frame receivedAt clock =>
    obtain ⟨outcome, _, hcall, hend⟩ := Act.bind_eq_ok.mp h
    cases hend
    exact settled_ingestFrame hsettled hcall
  | poll now =>
    obtain ⟨step, _, hcall, hend⟩ := Act.bind_eq_ok.mp h
    cases hend
    exact settled_poll hsettled hcall
  | rebase through totals =>
    obtain ⟨_, _, hcall, hend⟩ := Act.bind_eq_ok.mp h
    cases hend
    exact settled_rebase hsettled hcall
  | advanceControlWatermark applied =>
    obtain ⟨_, _, hcall, hend⟩ := Act.bind_eq_ok.mp h
    cases hend
    obtain ⟨-, rfl⟩ := advanceControlWatermark_ok.mp hcall
    exact ⟨⟨hsettled.ahead, hsettled.cutoff, hsettled.completed_le, hsettled.completed_eq,
      hsettled.rebased, hsettled.pending⟩, tracks_nil rfl (Nat.le_refl _) rfl⟩
  | remapClock clock =>
    obtain ⟨_, _, hcall, hend⟩ := Act.bind_eq_ok.mp h
    cases hend
    exact settled_remapClock hsettled hcall

/-- **A run of successful calls** keeps the state settled, and its events are a legal course. -/
theorem settled_runCalls {calls : List (PlayoutCall C)} {log : List PlayoutEvent}
    {p p' : ReceiverPlayout F} (hsettled : p.Settled) (h : runCalls calls p = (.ok log, p')) :
    p'.Settled ∧ Course.machine.Tracks Course.Shows p log p' := by
  induction calls generalizing p log with
  | nil =>
    cases h
    exact ⟨hsettled, .nil _⟩
  | cons c cs ih =>
    unfold runCalls at h
    obtain ⟨events, p₁, hcall, h⟩ := Act.bind_eq_ok.mp h
    obtain ⟨rest, p₂, hrest, hend⟩ := Act.bind_eq_ok.mp h
    cases hend
    obtain ⟨hsettled₁, hfirst⟩ := settled_call hsettled hcall
    obtain ⟨hsettled₂, hlater⟩ := ih hsettled₁ hrest
    exact ⟨hsettled₂, hfirst.append hlater⟩

/-! ## The target -/

/-- **A step says it reached the target exactly when it did.** -/
theorem targetReached_iff {now : MonotonicTimeMicros} {step : PlayoutStep}
    {p p' : ReceiverPlayout F} (h : poll now p = (.ok (some step), p')) :
    step.targetReached = true ↔ p'.injectedTotals = p'.target.totals := by
  obtain ⟨p₁, p₂, elapsed, own, -, -, hend⟩ := poll_ok h
  obtain ⟨remaining, -, ⟨hnone, -⟩ | ⟨u, injected, -, -, -, hstep, hstepped⟩⟩ := pollTarget_ok hend
  · cases hnone
  · cases hstep
    rw [hstepped.injected, hstepped.target]
    simp [stepOf]

end ReceiverPlayout

/-- The length of a displacement, over its axes. -/
def MotionDelta.length (d : MotionDelta) : Nat :=
  d.dx.natAbs + d.dy.natAbs + d.scrollX.natAbs + d.scrollY.natAbs

/-- Going part of the way to a displacement shortens what is left. -/
theorem MotionDelta.length_sub_lt {d part : MotionDelta} (hx : Between d.dx part.dx)
    (hy : Between d.dy part.dy) (hsx : Between d.scrollX part.scrollX)
    (hsy : Between d.scrollY part.scrollY) (hpart : part ≠ 0) :
    (d - part).length < d.length := by
  have hsome : 0 < part.length := by
    refine Nat.pos_of_ne_zero fun hzero => hpart ?_
    unfold MotionDelta.length at hzero
    ext <;> simp <;> omega
  have ex := hx.natAbs_sub
  have ey := hy.natAbs_sub
  have esx := hsx.natAbs_sub
  have esy := hsy.natAbs_sub
  unfold MotionDelta.length at *
  simp only [MotionDelta.sub_dx, MotionDelta.sub_dy, MotionDelta.sub_scrollX, MotionDelta.sub_scrollY]
  omega

namespace ReceiverPlayout

/-- What is left of the target. -/
def remaining (p : ReceiverPlayout F) : MotionDelta :=
  p.target.totals.displacement - p.injectedTotals.displacement

/-- The limiter lets something through of a displacement that is not zero. -/
theorem limited_ne_zero (hprogress : LimitsProgress F) {backlog : MotionDelta}
    (pointerCap scrollCap : Nat) (h : backlog ≠ 0) : (⟨(limitPair F backlog.dx backlog.dy pointerCap).1,
      (limitPair F backlog.dx backlog.dy pointerCap).2.1, (limitPair F backlog.scrollX backlog.scrollY scrollCap).1,
      (limitPair F backlog.scrollX backlog.scrollY scrollCap).2.1⟩ : MotionDelta) ≠ 0 := by
  intro hzero
  obtain ⟨hx, hy, hsx, hsy⟩ := MotionDelta.ext_iff.mp hzero
  refine h (MotionDelta.ext ?_ ?_ ?_ ?_)
  · by_contra hne
    rcases hprogress backlog.dx backlog.dy pointerCap (.inl hne) with h' | h'
    · exact h' hx
    · exact h' hy
  · by_contra hne
    rcases hprogress backlog.dx backlog.dy pointerCap (.inr hne) with h' | h'
    · exact h' hx
    · exact h' hy
  · by_contra hne
    rcases hprogress backlog.scrollX backlog.scrollY scrollCap (.inl hne) with h' | h'
    · exact h' hsx
    · exact h' hsy
  · by_contra hne
    rcases hprogress backlog.scrollX backlog.scrollY scrollCap (.inr hne) with h' | h'
    · exact h' hsx
    · exact h' hsy

/-- **A poll that takes no new target shortens what is left of the old one.** -/
theorem remaining_lt_of_poll (hlimit : LimitsBetween F) (hprogress : LimitsProgress F)
    {now : MonotonicTimeMicros} {result : Option PlayoutStep} {p p' : ReceiverPlayout F}
    (hsettled : p.Settled) (h : poll now p = (.ok result, p'))
    (hsame : p'.target.sequence = p.target.sequence) (hleft : p.remaining ≠ 0) :
    p'.remaining.length < p.remaining.length := by
  obtain ⟨p₁, p₂, elapsed, own, hmoved, hselect, hend⟩ := poll_ok h
  have hsettled₁ := hsettled.of_unmoved hmoved
  -- the target is the same, so nothing was selected
  obtain ⟨rfl, rfl⟩ : own = none ∧ p₂ = p₁ := by
    rcases select_ok hselect with ⟨hown, hp, -⟩ | ⟨sequence, queued, hnewest, -, hselected⟩
    · exact ⟨hown, hp⟩
    · have hlt := hsettled₁.ahead sequence hnewest.mem
      have htarget : p'.target.sequence = sequence := by
        obtain ⟨_, -, ⟨-, -, -, rfl⟩ | ⟨_, _, -, -, -, -, hstepped⟩⟩ := pollTarget_ok hend
        · rw [hselected.target]
        · rw [hstepped.target, hselected.target]
      rw [hmoved.target] at hlt
      exact absurd (htarget.symm.trans hsame) (Nat.ne_of_gt hlt)
  have hremaining : p₂.remaining = p.remaining := by
    unfold remaining
    rw [hmoved.target, hmoved.injected]
  obtain ⟨left, hdelta, hresult⟩ := pollTarget_ok hend
  obtain ⟨hleft_eq, -⟩ := CumulativeMotion.checkedDeltaFrom_eq_ok.mp hdelta
  have hleft' : left = p.remaining := hleft_eq.trans hremaining
  rcases hresult with ⟨-, hzero, -, -⟩ | ⟨u, injected, hcatch, hsum, -, -, hstepped⟩
  · exact absurd (hleft' ▸ hzero) hleft
  · obtain ⟨backlog, pointerCap, scrollCap, hbacklog, hfresh, hlimited⟩ := catchUp_ok hcatch
    -- without a new target the whole remainder is backlog
    have hbacklog' : backlog = left := Except.ok.inj (hbacklog.symm.trans hdelta)
    have hfresh' : u.fresh = 0 := by
      obtain ⟨hd, -⟩ := CumulativeMotion.checkedDeltaFrom_eq_ok.mp hfresh
      exact hd.trans (MotionDelta.sub_self _)
    have hrange := catchUp_inRange hlimit hdelta hcatch
    have hmoves : u.delta = u.limited := by
      rw [delta_of_inRange hrange, hfresh', add_zero]
    have hafter : p'.remaining = p.remaining - u.limited := by
      have hinjected := (CumulativeMotion.checkedAdd_eq_ok.mp hsum).1
      rw [← hleft', hleft_eq]
      unfold remaining
      rw [hstepped.injected, hstepped.target, hinjected, hmoves]
      ext <;> simp <;> omega
    have hne := limited_ne_zero hprogress pointerCap scrollCap hleft
    rw [hafter]
    rw [hbacklog', hleft'] at hlimited
    rw [← hlimited] at hne
    refine MotionDelta.length_sub_lt ?_ ?_ ?_ ?_ hne
    · rw [hlimited]
      exact (hlimit _ _ _).1
    · rw [hlimited]
      exact (hlimit _ _ _).2
    · rw [hlimited]
      exact (hlimit _ _ _).1
    · rw [hlimited]
      exact (hlimit _ _ _).2

end ReceiverPlayout

end Zflow.Core
