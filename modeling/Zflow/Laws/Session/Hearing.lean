import Zflow.Laws.Session.Inbound

/-!
# Sessions that hear some messages only

The rule for a property of an inbound session that depends on what its peer sends: `Inbound.Hearing` is `Rule`
for calls that bring only messages and frames of given kinds. A message may wait before it is applied, so what
waits is of its kind too; what a failure leaves is left out, since it ends the session.
-/

namespace Zflow.Session

open Zflow.Core Lib

variable {F C : Type}

/-- What succeeds keeps `I`. -/
abbrev Preserves {α : Type} (I : Inbound F C → Prop) (x : Act InboundError (Inbound F C) α) : Prop :=
  Act.Triple I x (fun _ => I) fun _ _ => True

/-- The call brings a message of `M` or a frame of `D`, if it brings one. -/
def InboundCall.Among (M : ReliableControlMessage → Prop) (D : MotionFrame → Prop) : InboundCall → Prop
  | .receiveControl message _ => M message
  | .receiveMotion frame _ => D frame
  | .receiveProbe .. | .tick .. | .trackActivation _ => True

namespace Inbound

variable [F64 F] [ClockMapper C]

/-- **A property of sessions** that hear the messages of `M` and the frames of `D` and no others. -/
structure Hearing (env : Environment) (M : ReliableControlMessage → Prop) (D : MotionFrame → Prop)
    (I : Inbound F C → Prop) : Prop where
  aside : ∀ i i', Aside i i' → (∀ front ∈ i'.pending, M front.message) → I i → I i'
  waits : ∀ i, I i → ∀ front ∈ i.pending, M front.message
  control : ∀ message now, M message → Preserves I (applyControl env message now)
  ingest : ∀ p frame now (clock : C), D frame →
    Act.Triple (fun i => I i ∧ i.playout = some p) (onPlayout p (ReceiverPlayout.ingestFrame frame now clock))
      (fun _ => I) fun _ _ => True
  remap : ∀ p (clock : C), Act.Triple (fun i => I i ∧ i.playout = some p)
    (onPlayout p (ReceiverPlayout.remapClock clock)) (fun _ => I) fun _ _ => True
  poll : ∀ now, Preserves I (pollPlayout env now)
  expire : ∀ now, Preserves I (onReceiver (Receiver.tick now) >>= emit env)

namespace Hearing

variable {env : Environment} {M : ReliableControlMessage → Prop} {D : MotionFrame → Prop}
  {I : Inbound F C → Prop}

/-- Nothing new waits. -/
theorem change (h : Hearing env M D I) {f : Inbound F C → Inbound F C} (hf : ∀ i, Aside i (f i))
    (hpending : ∀ i, (f i).pending ⊆ i.pending) : Preserves I (.change f) :=
  .change fun i hi => h.aside i _ (hf i) (fun front hfront => h.waits i hi front (hpending i hfront)) hi

/-- What waits of an activation that is closed is dropped. -/
theorem discard (h : Hearing env M D I) (previous : Option SessionContext) :
    Preserves I (.change fun i : Inbound F C => { i with
      pending := match previous with
        | some closed =>
          if i.receiver.activeContext ≠ some closed then discardPendingContext i.pending closed else i.pending
        | none => i.pending }) := by
  refine h.change (fun i => ⟨rfl, rfl, rfl, rfl, rfl, rfl⟩) fun i => ?_
  cases previous with
  | none => exact List.Subset.refl _
  | some closed =>
    dsimp only
    split
    · exact List.filter_subset_self _
    · exact List.Subset.refl _

theorem onClock (h : Hearing env M D I) (x : Act ClockError C Unit) : Preserves I (Inbound.onClock x) :=
  .on (fun i _ clock hi _ => h.aside i _ ⟨rfl, rfl, rfl, rfl, rfl, rfl⟩ (h.waits i hi) hi) fun _ _ _ _ _ => trivial

theorem sendProbe (h : Hearing env M D I) (probe : ProbeMessage) : Preserves I (Inbound.sendProbe env probe) := by
  unfold Inbound.sendProbe
  refine .bind (h.change (fun _ => ⟨rfl, rfl, rfl, rfl, rfl, rfl⟩) fun _ => List.Subset.refl _) fun _ => ?_
  exact .read fun t => .lift (fun _ _ _ hi => hi.1) fun _ _ _ _ => trivial

theorem pendingControlIsReady (h : Hearing env M D I) (front : PendingControl) (now : MonotonicTimeMicros) :
    Preserves I (Inbound.pendingControlIsReady front now) := by
  intro i hi
  refine ((pendingControlIsReady_reclocks front now i).weaken (fun _ hs => hs) (fun _ i' hclock => ?_)
    fun _ _ _ => trivial) i ⟨i.clock, rfl⟩
  obtain ⟨clock, rfl⟩ := hclock
  exact h.aside i _ ⟨rfl, rfl, rfl, rfl, rfl, rfl⟩ (h.waits i hi) hi

/-- **What waits was heard**, so applying it is applying what was heard. -/
theorem drainLoop (h : Hearing env M D I) (now : MonotonicTimeMicros) (rounds : Nat) :
    Preserves I (Inbound.drainLoop env now rounds) := by
  induction rounds with
  | zero => exact .pure fun _ hi => hi
  | succ rounds ih =>
    intro s hs
    have hwaits := h.waits s hs
    unfold Inbound.drainLoop
    rw [Act.bind_of_ok (Act.read_apply s)]
    cases hpending : s.pending with
    | nil => exact hs
    | cons front rest =>
      rw [hpending] at hwaits
      refine Act.Triple.bind (P := I) (h.pendingControlIsReady front now) (fun ready => ?_) s hs
      by_cases hready : (!ready) = true
      · rw [if_pos hready]
        exact .pure fun _ hi => hi
      rw [if_neg hready]
      refine .bind (Q := fun _ => I) (.change fun i hi => ?_) fun _ => ?_
      · exact h.aside i _ ⟨rfl, rfl, rfl, rfl, rfl, rfl⟩
          (fun item hitem => hwaits item (List.mem_cons_of_mem _ hitem)) hi
      refine .bind (h.control front.message now (hwaits front List.mem_cons_self)) fun _ => ?_
      exact .bind (h.discard s.receiver.activeContext) fun _ => ih

theorem drainPendingControls (h : Hearing env M D I) (now : MonotonicTimeMicros) :
    Preserves I (Inbound.drainPendingControls env now) :=
  .read fun t => (h.drainLoop now t.pending.length).pre fun _ hi => hi.1

theorem receiveControl (h : Hearing env M D I) {message : ReliableControlMessage} (hheard : M message)
    (now : MonotonicTimeMicros) : Preserves I (Inbound.receiveControl env message now) := by
  unfold Inbound.receiveControl
  refine .read fun t => ?_
  by_cases hfull : t.playoutConfig.maximumQueuedFrames ≤ t.pending.length
  · rw [if_pos hfull]
    exact .fail fun _ _ => trivial
  · rw [if_neg hfull]
    refine .bind (Q := fun _ => I) (.change fun i hi => ?_) fun _ => h.drainPendingControls now
    refine h.aside i _ ⟨rfl, rfl, rfl, rfl, rfl, rfl⟩ (fun front hfront => ?_) hi.1
    rcases List.mem_append.mp hfront with hold | hnew
    · exact h.waits i hi.1 front hold
    · rw [List.mem_singleton.mp hnew]
      exact hheard

theorem receiveMotion (h : Hearing env M D I) {frame : MotionFrame} (hheard : D frame)
    (now : MonotonicTimeMicros) : Preserves I (Inbound.receiveMotion frame now) := by
  unfold Inbound.receiveMotion
  refine .read fun t => ?_
  cases hplayout : t.playout with
  | none => exact .pure fun _ hi => hi.1
  | some playout =>
    dsimp only
    by_cases hother : playout.session ≠ frame.session
    · rw [if_pos hother]
      exact .pure fun _ hi => hi.1
    rw [if_neg hother]
    have hingest : Act.Triple (fun i => I i ∧ i.playout = some playout) (do
        let i ← Act.read
        let _ ← onPlayout playout (ReceiverPlayout.ingestFrame frame now i.clock)
        return ()) (fun _ => I) (fun _ _ => True) :=
      .read fun t => .bind ((h.ingest playout frame now t.clock hheard).pre fun _ hi => hi.1) fun _ =>
        .pure fun _ hi => hi
    by_cases hready : (!ClockMapper.isReady t.clock) = true
    · rw [if_pos hready]
      refine .bind (.on (fun i _ clock hi _ => ?_) fun _ _ _ _ _ => trivial) fun _ => hingest
      obtain ⟨hi, rfl⟩ := hi
      exact ⟨h.aside i _ ⟨rfl, rfl, rfl, rfl, rfl, rfl⟩ (h.waits i hi) hi, hplayout⟩
    · rw [if_neg hready]
      exact hingest.pre fun i hi => ⟨hi.1, by rw [hi.2, hplayout]⟩

theorem receiveProbe (h : Hearing env M D I) (probe : ProbeMessage) (sender : Option Sender)
    (now : MonotonicTimeMicros) : Preserves I (Inbound.receiveProbe env probe sender now) := by
  unfold Inbound.receiveProbe
  refine .read fun t => ?_
  cases probe.payload with
  | probe sequence sentAt =>
    dsimp only
    split
    · exact (h.sendProbe _).pre fun _ hi => hi.1
    · exact .pure fun _ hi => hi.1
  | probeEcho sequence probeSentAt receivedAt echoedAt =>
    dsimp only
    split
    · exact .pure fun _ hi => hi.1
    refine .bind (Q := fun _ => I) (Act.Triple.pre ?_ fun _ hi => hi.1) fun _ => ?_
    · exact h.change (fun _ => ⟨rfl, rfl, rfl, rfl, rfl, rfl⟩) fun _ => List.Subset.refl _
    split
    · exact .pure fun _ hi => hi
    refine .bind (h.onClock _) fun _ => .read fun t => ?_
    cases hplayout : t.playout with
    | none => exact .pure fun _ hi => hi.1
    | some playout =>
      dsimp only
      split
      · exact (h.remap playout t.clock).pre fun i hi => ⟨hi.1, by rw [hi.2, hplayout]⟩
      · exact .pure fun _ hi => hi.1

theorem probeClock (h : Hearing env M D I) (clockNow now : MonotonicTimeMicros) :
    Preserves I (Inbound.probeClock env clockNow now) := by
  have hstep : ∀ {f : Inbound F C → Inbound F C}, (∀ i, Aside i (f i)) → (∀ i, (f i).pending = i.pending) →
      Preserves I (.change f) := fun hf hsame => h.change hf fun i => (hsame i).symm ▸ List.Subset.refl _
  have hend : Preserves I (.change fun i : Inbound F C => { i with
      nextProbeAt := if i.nextProbeAt ≤ now then addDuration now probeInterval else i.nextProbeAt }) :=
    hstep (fun _ => ⟨rfl, rfl, rfl, rfl, rfl, rfl⟩) fun _ => rfl
  unfold Inbound.probeClock
  refine .bind (hstep (fun _ => ⟨rfl, rfl, rfl, rfl, rfl, rfl⟩) fun _ => rfl) fun _ => .read fun t => ?_
  cases t.receiver.activeContext with
  | none => exact hend.pre fun _ hi => hi.1
  | some context =>
    dsimp only
    split
    · refine .bind ((h.sendProbe _).pre fun _ hi => hi.1) fun _ => ?_
      refine .bind (hstep (fun _ => ⟨rfl, rfl, rfl, rfl, rfl, rfl⟩) fun _ => rfl) fun _ => ?_
      cases checkedAddU64 t.nextProbeSequence 1 with
      | none => exact .bind (Q := fun _ => I) (.fail fun _ _ => trivial) fun _ => hend
      | some next => exact .bind (hstep (fun _ => ⟨rfl, rfl, rfl, rfl, rfl, rfl⟩) fun _ => rfl) fun _ => hend
    · exact hend.pre fun _ hi => hi.1

theorem tick (h : Hearing env M D I) (clockNow now : MonotonicTimeMicros) :
    Preserves I (Inbound.tick env clockNow now) := by
  unfold Inbound.tick
  refine .read fun t => ?_
  rw [← Act.bind_assoc]
  refine .bind ((h.expire now).pre fun _ hi => hi.1) fun _ => .bind (h.discard _) fun _ => ?_
  refine .bind (h.poll now) fun _ => .bind (h.drainPendingControls now) fun _ => ?_
  exact h.probeClock clockNow now

/-- **The rule for one call.** -/
theorem call (h : Hearing env M D I) {c : InboundCall} (hheard : InboundCall.Among M D c) :
    Preserves I (Inbound.call env c) := by
  cases c with
  | receiveControl message now => exact h.receiveControl hheard now
  | receiveMotion frame now => exact h.receiveMotion hheard now
  | receiveProbe probe sender now => exact h.receiveProbe probe sender now
  | tick clockNow now => exact h.tick clockNow now
  | trackActivation clockNow =>
    refine h.change (fun i => ?_) fun i => ?_ <;> unfold trackActivation <;> split
    · exact ⟨rfl, rfl, rfl, rfl, rfl, rfl⟩
    · exact ⟨rfl, rfl, rfl, rfl, rfl, rfl⟩
    · exact List.Subset.refl _
    · exact List.Subset.refl _

end Hearing

end Inbound

end Zflow.Session
