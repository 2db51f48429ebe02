import Zflow.Laws.Core.Held

/-!
# What a receiver's step can do

One inversion for each function of `Core/Receiver.lean`: every result of `orderControl` is one of
`Ordered`, and every result of `playStep` one of `Played`, with the guards that led there. The laws
about a receiver's log, its activations and its lease are case analyses over these.

A call is `observeTime`, for a control message `checkContext`, then `expireLease`, and then one of
the two. `emit_cases` splits a call along those lines.
-/

namespace Zflow.Core

open Lib

namespace Receiver

/-- A receiver starts with nothing open and no context, under a lease in range. -/
theorem new_eq_ok {config : ReceiverConfig} {now : MonotonicTimeMicros} {r : Receiver} :
    Receiver.new config now = .ok r ↔ (config.heldStateLease.isZero = false ∧
        config.heldStateLease.nanos ≤ maxHeldStateLease.nanos) ∧
      r = ⟨config, none, none, none, now⟩ := by
  unfold Receiver.new ReceiverConfig.new
  by_cases h : config.heldStateLease.isZero ∨ maxHeldStateLease.nanos < config.heldStateLease.nanos
  · rw [if_pos h]
    simp only [bind, Except.bind, reduceCtorEq, false_iff]
    rintro ⟨⟨hzero, hle⟩, -⟩
    rcases h with h | h
    · simp [hzero] at h
    · exact Nat.not_lt_of_le hle h
  · rw [if_neg h]
    simp only [bind, Except.bind, pure, Except.pure, Except.ok.injEq]
    simp only [not_or, Bool.not_eq_true, Nat.not_lt] at h
    constructor
    · exact fun hr => ⟨h, hr.symm⟩
    · exact fun hr => hr.2.symm

/-! ## Closing -/

@[simp]
theorem closeActivation_none {r : Receiver} {reason : SessionCloseReason}
    (h : r.activation = none) : r.closeActivation reason = ([], r) := by
  unfold closeActivation
  rw [h]

/-- **A close releases everything** and then names the activation it closed. -/
theorem closeActivation_some {r : Receiver} {reason : SessionCloseReason} {state : ActivationState}
    (h : r.activation = some state) : r.closeActivation reason =
      ((reconcileHeld state .neutral).1 ++ [.activationClosed state.session reason],
        { r with activation := none }) := by
  unfold closeActivation
  rw [h]
  simp only [← releaseAll_effects]
  rw [releaseAll_state]

@[simp]
theorem closeActivation_activation (r : Receiver) (reason : SessionCloseReason) :
    (r.closeActivation reason).2 = { r with activation := none } := by
  cases h : r.activation with
  | none =>
    rw [closeActivation_none h]
    obtain ⟨_, _, _, _, _⟩ := r
    simp_all
  | some state => rw [closeActivation_some h]

theorem closeActivation_pair (r : Receiver) (reason : SessionCloseReason) :
    r.closeActivation reason = ((r.closeActivation reason).1, { r with activation := none }) := by
  rw [← closeActivation_activation r reason]

/-- The lease has run out at `now`. -/
def Expired (r : Receiver) (now : MonotonicTimeMicros) : Prop :=
  ∃ deadline, r.leaseDeadline = some deadline ∧ deadline ≤ now

theorem expireLease_of_expired {r : Receiver} {now : MonotonicTimeMicros} (h : r.Expired now) :
    r.expireLease now = r.closeActivation .leaseExpired := by
  obtain ⟨deadline, hd, hle⟩ := h
  simp [expireLease, hd, hle]

theorem expireLease_of_live {r : Receiver} {now : MonotonicTimeMicros} (h : ¬ r.Expired now) :
    r.expireLease now = ([], r) := by
  unfold expireLease
  cases hd : r.leaseDeadline with
  | none => rfl
  | some deadline =>
    have hlt : ¬ deadline ≤ now := fun hle => h ⟨deadline, hd, hle⟩
    simp [hlt]

/-- A lease that has run out is that of an open activation. -/
theorem Expired.activation {r : Receiver} {now : MonotonicTimeMicros} (h : r.Expired now) :
    ∃ state deadline, r.activation = some state ∧ state.leaseDeadline = some deadline ∧
      deadline ≤ now := by
  obtain ⟨deadline, hd, hle⟩ := h
  unfold leaseDeadline at hd
  cases ha : r.activation with
  | none => simp [ha] at hd
  | some state => exact ⟨state, deadline, rfl, by simpa [ha] using hd, hle⟩

/-! ## Control messages -/

/-- The activation an accepted `Enter` opens. -/
def entered (message : ReliableControlMessage) (now : MonotonicTimeMicros) (lease : Duration) :
    ActivationState :=
  refreshLease { ActivationState.new message.session with lastControlSequence := message.sequence }
    now lease

/-- The anchor of a payload has been judged good, or there is none. -/
def Anchored (state : ActivationState) (payload : ReliableControl) (delta : Option MotionDelta) :
    Prop :=
  (payload.motionAnchor = none ∧ delta = none) ∨
    ∃ anchor d, payload.motionAnchor = some anchor ∧ delta = some d ∧
      validateAnchor state anchor = .ok d

theorem validateAnchor_eq_ok {state : ActivationState} {anchor : MotionAnchor} {d : MotionDelta} :
    validateAnchor state anchor = .ok d ↔ anchor.activationId = state.session.activationId ∧
        state.lastInjectedMotion ≤ anchor.throughMotionSequence ∧
        anchor.totals.checkedDeltaFrom state.injectedTotals = .ok d := by
  unfold validateAnchor
  by_cases hid : anchor.activationId = state.session.activationId
  · by_cases hback : anchor.throughMotionSequence < state.lastInjectedMotion
    · simp [hid, hback]
    · have hle : state.lastInjectedMotion ≤ anchor.throughMotionSequence := Nat.le_of_not_lt hback
      cases hdelta : anchor.totals.checkedDeltaFrom state.injectedTotals <;>
        simp [hid, hback, hle, Except.mapError]
  · simp [hid]

/-- **The results of the ordering checks**, each with the guards that lead to it. -/
inductive Ordered (message : ReliableControlMessage) (now : MonotonicTimeMicros) (r : Receiver) :
    List ReceiverEffect × Receiver → Prop where
  | refused (reason : RejectionReason) (payload : message.payload ≠ .enter)
      (closed : r.activation = none → reason = .closedActivation ∨ reason = .noOpenActivation)
      (control : reason ≠ .duplicateOrReorderedMotion) :
      Ordered message now r ([.rejected message.session reason], r)
  | enterRefused (reason : RejectionReason) (payload : message.payload = .enter)
      (kind : reason = .closedActivation ∨ reason = .staleActivation ∨
        reason = .controlGap ∧ message.sequence ≠ 1 ∧
          ∀ highest, r.highestActivation = some highest → highest < message.session.activationId) :
      Ordered message now r ([.rejected message.session reason], r)
  | opened (payload : message.payload = .enter) (first : message.sequence = 1)
      (fresh : ∀ highest, r.highestActivation = some highest →
        highest < message.session.activationId) :
      Ordered message now r
        ((r.closeActivation .superseded).1 ++ [.activationOpened message.session],
          { r with
            highestActivation := some message.session.activationId
            activation := some (entered message now r.config.heldStateLease) })
  | overflowed (state : ActivationState) (anchor : MotionAnchor)
      (active : r.activation = some state)
      (same : state.session.activationId = message.session.activationId)
      (next : message.sequence = state.lastControlSequence + 1)
      (valid : validateTransition state message.payload = true)
      (carries : message.payload.motionAnchor = some anchor)
      (overflow : validateAnchor state anchor = .error .motionOverflow) :
      Ordered message now r (r.closeActivation .motionOverflow)
  | accepted (state : ActivationState) (delta : Option MotionDelta)
      (active : r.activation = some state)
      (same : state.session.activationId = message.session.activationId)
      (next : message.sequence = state.lastControlSequence + 1)
      (valid : validateTransition state message.payload = true)
      (anchored : Anchored state message.payload delta) :
      Ordered message now r (r.acceptControl message now state delta)

theorem validateAnchor_rejected {state : ActivationState} {anchor : MotionAnchor}
    {reason : RejectionReason} (h : validateAnchor state anchor = .error (.rejected reason)) :
    reason = .anchorActivationMismatch ∨ reason = .anchorMovedBackwards := by
  unfold validateAnchor at h
  split_ifs at h with hid hback
  · cases h
    exact .inl rfl
  · cases h
    exact .inr rfl
  · cases hdelta : anchor.totals.checkedDeltaFrom state.injectedTotals <;>
      simp [hdelta, Except.mapError] at h

theorem sequenceRejection_some {previous received : ControlSequence} {reason : RejectionReason}
    (h : sequenceRejection previous received = some reason) :
    reason = .duplicateControl ∨ reason = .controlGap := by
  unfold sequenceRejection at h
  split_ifs at h
  · cases h
    exact .inl rfl
  · cases h
    exact .inr rfl

/-- Neither closed nor at or below the highest id: the id is a new one. -/
theorem fresh_of_not_stale {r : Receiver} {id : ActivationId} (h : ¬ r.highestActivation.any (id ≤ ·) = true) :
    ∀ highest, r.highestActivation = some highest → highest < id := by
  intro highest hh
  rw [hh] at h
  simpa using h

theorem receiveEnter_cases (message : ReliableControlMessage) (now : MonotonicTimeMicros)
    (r : Receiver) (h : message.payload = .enter) : Ordered message now r (r.receiveEnter message now) := by
  unfold receiveEnter
  by_cases hclosed : r.isClosed message.session.activationId = true
  · rw [if_pos hclosed]
    exact .enterRefused _ h (.inl rfl)
  · rw [if_neg hclosed]
    by_cases hstale : r.highestActivation.any (message.session.activationId ≤ ·) = true
    · rw [if_pos hstale]
      exact .enterRefused _ h (.inr (.inl rfl))
    · rw [if_neg hstale]
      have hfresh := fresh_of_not_stale hstale
      by_cases hseq : message.sequence ≠ 1
      · rw [if_pos hseq]
        exact .enterRefused _ h (.inr (.inr ⟨rfl, hseq, hfresh⟩))
      · rw [if_neg hseq]
        rw [closeActivation_pair]
        exact .opened h (not_not.mp hseq) hfresh

/-- A message that is next in order follows the last one, without wrapping. -/
theorem sequenceRejection_none {previous received : ControlSequence}
    (h : sequenceRejection previous received = none) : received = previous + 1 := by
  unfold sequenceRejection at h
  split_ifs at h with hle hgap
  have hsome : checkedAddU64 previous 1 = some received := not_not.mp hgap
  rw [checkedAddU64_eq_some] at hsome
  exact hsome.1.symm

theorem anchorControl_cases (message : ReliableControlMessage) (now : MonotonicTimeMicros)
    (r : Receiver) (state : ActivationState) (hpayload : message.payload ≠ .enter) (active : r.activation = some state)
    (same : state.session.activationId = message.session.activationId)
    (next : message.sequence = state.lastControlSequence + 1)
    (valid : validateTransition state message.payload = true) :
    Ordered message now r (r.anchorControl message now state) := by
  unfold anchorControl
  cases hanchor : message.payload.motionAnchor with
  | none => exact .accepted state none active same next valid (.inl ⟨hanchor, rfl⟩)
  | some anchor =>
    simp only
    cases hvalid : validateAnchor state anchor with
    | ok delta =>
      exact .accepted state (some delta) active same next valid (.inr ⟨anchor, delta, hanchor, rfl, hvalid⟩)
    | error failure =>
      cases failure with
      | rejected reason =>
        refine .refused reason hpayload (fun hnone => absurd (active.symm.trans hnone) (by simp)) ?_
        rcases validateAnchor_rejected hvalid with rfl | rfl <;> simp
      | motionOverflow => exact .overflowed state anchor active same next valid hanchor hvalid

/-- **Every result of the ordering checks is one of `Ordered`.** -/
theorem orderControl_cases (message : ReliableControlMessage) (now : MonotonicTimeMicros)
    (r : Receiver) : Ordered message now r (r.orderControl message now) := by
  unfold orderControl
  by_cases hpayload : message.payload = .enter
  · rw [if_pos hpayload]
    exact receiveEnter_cases message now r hpayload
  rw [if_neg hpayload]
  by_cases hclosed : r.isClosed message.session.activationId = true
  · rw [if_pos hclosed]
    exact .refused _ hpayload (fun _ => .inl rfl) (by simp)
  rw [if_neg hclosed]
  cases active : r.activation with
  | none => exact .refused _ hpayload (fun _ => .inr rfl) (by simp)
  | some state =>
    have hopen : ∀ reason : RejectionReason, r.activation = none →
        reason = .closedActivation ∨ reason = .noOpenActivation :=
      fun _ hnone => absurd (active.symm.trans hnone) (by simp)
    simp only
    by_cases hsame : state.session.activationId ≠ message.session.activationId
    · rw [if_pos hsame]
      exact .refused _ hpayload (hopen _) (by simp)
    rw [if_neg hsame]
    cases hseq : sequenceRejection state.lastControlSequence message.sequence with
    | some reason =>
      refine .refused reason hpayload (hopen _) ?_
      rcases sequenceRejection_some hseq with rfl | rfl <;> simp
    | none =>
      have hnext := sequenceRejection_none hseq
      simp only
      by_cases hvalid : validateTransition state message.payload = true
      · rw [if_pos hvalid]
        exact anchorControl_cases message now r state hpayload active (not_not.mp hsame) hnext hvalid
      · rw [if_neg hvalid]
        exact .refused _ hpayload (hopen _) (by simp)

/-- The step of an accepted message, under the receiver's lease. -/
def accepting (r : Receiver) (message : ReliableControlMessage) (now : MonotonicTimeMicros)
    (state : ActivationState) (delta : Option MotionDelta) :
    List ReceiverEffect × ActivationState :=
  acceptState state message now delta r.config.heldStateLease

/-- What `acceptControl` comes to for a payload the transition checks let through: the step, and
for a `SessionClose` the close that follows it. -/
theorem acceptControl_eq {message : ReliableControlMessage} {state : ActivationState}
    (now : MonotonicTimeMicros) (delta : Option MotionDelta) (r : Receiver)
    (valid : validateTransition state message.payload = true) :
    (∃ reason final, message.payload = .sessionClose reason final ∧ r.acceptControl message now state delta =
        ((r.accepting message now state delta).1 ++ (closeActivation reason
            { r with activation := some (r.accepting message now state delta).2 }).1,
          { r with activation := none })) ∨
    ((∀ reason final, message.payload ≠ .sessionClose reason final) ∧ r.acceptControl message now state delta =
        ((r.accepting message now state delta).1,
          { r with activation := some (r.accepting message now state delta).2 })) := by
  unfold acceptControl
  cases hp : message.payload with
  | snapshotAck ack => simp [hp, validateTransition] at valid
  | sessionClose reason final => exact .inl ⟨reason, final, rfl, by simp [accepting]⟩
  | _ => exact .inr ⟨by simp, rfl⟩

/-! ## The state after a step -/

/-- What an accepted payload leaves held, over what its anchor left held. -/
def heldAfter (held : HeldState) : ReliableControl → HeldState
  | .keyDown key => held.pressKey key
  | .keyUp key => held.releaseKey key
  | .buttonDown button _ => held.pressButton button
  | .buttonUp button _ => held.releaseButton button
  | .touchBegin initialState => held.replaceTouch initialState
  | .touchEnd _ | .touchCancel _ => held.clearTouch
  | .stateSnapshot snapshot => snapshot.held
  | .sessionClose .. | .snapshotAck _ | .enter => held

/-- What a good anchor leaves: its sequence, its totals and its touch state. -/
def anchoredState (state : ActivationState) (payload : ReliableControl) : ActivationState :=
  match payload.motionAnchor with
  | none => state
  | some anchor =>
    { state with
      lastInjectedMotion := anchor.throughMotionSequence
      injectedTotals := anchor.totals
      held := state.held.replaceTouch anchor.finalTouchState }

/-- What the touch snapshot of a playout step leaves held. -/
def touchAfter (held : HeldState) (snapshot : Option TouchState) : HeldState :=
  match snapshot with
  | some touch => held.replaceTouch touch
  | none => held

theorem replaceTouch_self (held : HeldState) : held.replaceTouch held.activeTouch = held := rfl

theorem applyAnchorOf_state {state : ActivationState} {payload : ReliableControl}
    {delta : Option MotionDelta} (h : Anchored state payload delta) :
    (applyAnchorOf state payload delta).2 = anchoredState state payload := by
  unfold applyAnchorOf anchoredState
  rcases h with ⟨hnone, -⟩ | ⟨anchor, d, hsome, rfl, -⟩
  · rw [hnone]
  · rw [hsome]
    show (applyAnchor state anchor d).2 = _
    unfold applyAnchor
    by_cases htouch : state.held.activeTouch = anchor.finalTouchState
    · simp only [← htouch, ne_eq, not_true_eq_false, if_false, replaceTouch_self]
    · simp only [htouch, ne_eq, not_false_eq_true, if_true]

theorem applyPayload_state (state : ActivationState) (message : ReliableControlMessage) :
    (applyPayload state message).2 = { state with held := heldAfter state.held message.payload } := by
  unfold applyPayload
  cases message.payload with
  | stateSnapshot snapshot => simp only [reconcileHeld_eq, heldAfter]
  | _ => rfl

/-- **The state an accepted message leaves**: the anchor's, with the payload's held state, its
sequence, and a lease that runs from now while anything is held. -/
theorem acceptState_state {state : ActivationState} {message : ReliableControlMessage}
    {delta : Option MotionDelta} (now : MonotonicTimeMicros) (lease : Duration)
    (h : Anchored state message.payload delta) :
    (acceptState state message now delta lease).2 = refreshLease { anchoredState state message.payload with
        held := heldAfter (anchoredState state message.payload).held message.payload
        lastControlSequence := message.sequence } now lease := by
  have hanchor := applyAnchorOf_state h
  unfold acceptState
  simp only [hanchor, applyPayload_state]

/-- **The state a playout step leaves.** -/
theorem playState_state (state : ActivationState) (step : PlayoutStep) (totals : CumulativeMotion) :
    (playState state step totals).2 = { state with
      injectedTotals := totals
      held := touchAfter state.held step.touchSnapshot
      lastInjectedMotion :=
        if step.targetReached then step.throughSequence else state.lastInjectedMotion } := by
  unfold playState touchAfter
  cases step.touchSnapshot with
  | none =>
    simp only
    split <;> rfl
  | some touch =>
    by_cases htouch : state.held.activeTouch = touch
    · simp only [← htouch, ne_eq, not_true_eq_false, if_false, replaceTouch_self]
      split <;> rfl
    · simp only [htouch, ne_eq, not_false_eq_true, if_true]
      split <;> rfl

@[simp]
theorem anchoredState_session (state : ActivationState) (payload : ReliableControl) :
    (anchoredState state payload).session = state.session := by
  unfold anchoredState
  split <;> rfl

@[simp]
theorem refreshLease_session (state : ActivationState) (now : MonotonicTimeMicros)
    (lease : Duration) : (refreshLease state now lease).session = state.session := rfl

/-! ## Playout steps -/

/-- **The results of a playout step**, each with the guards that lead to it. -/
inductive Played (session : SessionContext) (step : PlayoutStep) (r : Receiver) :
    List ReceiverEffect × Receiver → Prop where
  | refused (reason : RejectionReason)
      (kind : reason = .closedActivation ∧ r.isClosed session.activationId = true ∨
        reason = .noOpenActivation ∧ r.activation = none ∨
        reason = .staleActivation ∧ (∃ state, r.activation = some state ∧ state.session ≠ session) ∨
        reason = .duplicateOrReorderedMotion ∧ ∃ state, r.activation = some state ∧
          state.session = session ∧ step.throughSequence ≤ state.lastInjectedMotion) :
      Played session step r ([.rejected session reason], r)
  | violated (state : ActivationState) (active : r.activation = some state)
      (touch : state.held.activeTouch = ∅) (snapshot : ∃ t, step.touchSnapshot = some t ∧ t ≠ ∅) :
      Played session step r (r.closeActivation .protocolViolation)
  | overflowed (state : ActivationState) (active : r.activation = some state)
      (overflow : ∀ totals, state.injectedTotals.checkedAdd step.delta ≠ .ok totals) :
      Played session step r (r.closeActivation .motionOverflow)
  | played (state : ActivationState) (totals : CumulativeMotion)
      (active : r.activation = some state) (same : state.session = session)
      (ahead : state.lastInjectedMotion < step.throughSequence)
      (touch : state.held.activeTouch = ∅ → ∀ t, step.touchSnapshot = some t → t = ∅)
      (sum : state.injectedTotals.checkedAdd step.delta = .ok totals) :
      Played session step r
        ((playState state step totals).1,
          { r with activation := some (playState state step totals).2 })

theorem playStep_cases (session : SessionContext) (step : PlayoutStep) (r : Receiver) :
    Played session step r (r.playStep session step) := by
  unfold playStep
  by_cases hclosed : r.isClosed session.activationId = true
  · rw [if_pos hclosed]
    exact .refused _ (.inl ⟨rfl, hclosed⟩)
  rw [if_neg hclosed]
  cases active : r.activation with
  | none => exact .refused _ (.inr (.inl ⟨rfl, active⟩))
  | some state =>
    simp only
    by_cases hsame : state.session ≠ session
    · rw [if_pos hsame]
      exact .refused _ (.inr (.inr (.inl ⟨rfl, state, active, hsame⟩)))
    rw [if_neg hsame]
    by_cases hseq : step.throughSequence ≤ state.lastInjectedMotion
    · rw [if_pos hseq]
      exact .refused _ (.inr (.inr (.inr ⟨rfl, state, active, not_not.mp hsame, hseq⟩)))
    rw [if_neg hseq]
    by_cases htouch : step.touchSnapshot.any (fun touch =>
        state.held.activeTouch.isEmpty && !touch.isEmpty) = true
    · rw [if_pos htouch]
      obtain ⟨t, ht, hand⟩ := (Option.any_eq_true _ _).mp htouch
      simp only [Bool.and_eq_true, Std.ExtTreeMap.isEmpty_iff, Bool.not_eq_true',
        Std.ExtTreeMap.isEmpty_eq_false_iff] at hand
      exact .violated state active hand.1 ⟨t, ht, hand.2⟩
    rw [if_neg htouch]
    have hempty : state.held.activeTouch = ∅ → ∀ t, step.touchSnapshot = some t → t = ∅ := by
      intro h t ht
      simpa [ht, h] using htouch
    cases hsum : state.injectedTotals.checkedAdd step.delta with
    | error overflow => exact .overflowed state active fun totals h => by simp [hsum] at h
    | ok totals =>
      exact .played state totals active (not_not.mp hsame) (Nat.lt_of_not_le hseq) hempty hsum

/-! ## Calls -/

/-- The receiver after a call noted the time. -/
def observed (r : Receiver) (now : MonotonicTimeMicros) : Receiver :=
  { r with lastObservedTime := now }

def contextOf (session : SessionContext) : SessionEpoch × TransportGeneration :=
  (session.sessionEpoch, session.transportGeneration)

/-- The receiver after a control message noted the time and the context. -/
def pinned (r : Receiver) (session : SessionContext) (now : MonotonicTimeMicros) : Receiver :=
  { r with lastObservedTime := now, context := some (contextOf session) }

/-- One step after another, with both logs. -/
def andAlso (f g : Receiver → List ReceiverEffect × Receiver) (r : Receiver) :
    List ReceiverEffect × Receiver :=
  ((f r).1 ++ (g (f r).2).1, (g (f r).2).2)

theorem observeTime_cases (now : MonotonicTimeMicros) (r : Receiver) :
    (now < r.lastObservedTime ∧ observeTime now r = (.error .clockMovedBackwards, r)) ∨
      (r.lastObservedTime ≤ now ∧ observeTime now r = (.ok (), r.observed now)) := by
  unfold observeTime
  by_cases h : now < r.lastObservedTime
  · exact .inl ⟨h, if_pos h⟩
  · exact .inr ⟨Nat.le_of_not_lt h, if_neg h⟩

theorem checkContext_cases (session : SessionContext) (now : MonotonicTimeMicros) (r : Receiver) :
    ((∃ p, r.context = some p ∧ p ≠ contextOf session) ∧
      checkContext session (r.observed now) = (.error .contextChanged, r.observed now)) ∨
    ((∀ p, r.context = some p → p = contextOf session) ∧
      checkContext session (r.observed now) = (.ok (), r.pinned session now)) := by
  unfold checkContext
  obtain ⟨config, context, highest, activation, last⟩ := r
  cases context with
  | none => exact .inr ⟨by simp, rfl⟩
  | some p =>
    by_cases h : p = contextOf session
    · exact .inr ⟨by simpa using h, by simp [observed, pinned, h, contextOf]⟩
    · exact .inl ⟨⟨p, rfl, h⟩, by simpa [observed, contextOf] using h⟩

/-- **A control message** fails before anything but the time has changed, or expires the lease and
goes through the ordering checks. -/
theorem receiveControl_cases (message : ReliableControlMessage) (now : MonotonicTimeMicros) (r : Receiver) :
    (now < r.lastObservedTime ∧ receiveControl message now r = (.error .clockMovedBackwards, r)) ∨
    (r.lastObservedTime ≤ now ∧ (∃ p, r.context = some p ∧ p ≠ contextOf message.session) ∧
      receiveControl message now r = (.error .contextChanged, r.observed now)) ∨
    (r.lastObservedTime ≤ now ∧ (∀ p, r.context = some p → p = contextOf message.session) ∧
      receiveControl message now r = (.ok (andAlso (expireLease now) (orderControl message now)
            (r.pinned message.session now)).1,
          (andAlso (expireLease now) (orderControl message now) (r.pinned message.session now)).2)) := by
  unfold receiveControl
  rcases observeTime_cases now r with ⟨hlt, htime⟩ | ⟨hle, htime⟩
  · exact .inl ⟨hlt, Act.bind_of_error htime⟩
  rw [Act.bind_of_ok htime]
  rcases checkContext_cases message.session now r with ⟨hp, hcontext⟩ | ⟨hp, hcontext⟩
  · exact .inr (.inl ⟨hle, hp, Act.bind_of_error hcontext⟩)
  · refine .inr (.inr ⟨hle, hp, ?_⟩)
    rw [Act.bind_of_ok hcontext]
    rfl

theorem receivePlayoutStep_cases (session : SessionContext) (step : PlayoutStep)
    (now : MonotonicTimeMicros) (r : Receiver) : (now < r.lastObservedTime ∧
      receivePlayoutStep session step now r = (.error .clockMovedBackwards, r)) ∨
    (r.lastObservedTime ≤ now ∧ receivePlayoutStep session step now r =
        (.ok (andAlso (expireLease now) (playStep session step) (r.observed now)).1,
          (andAlso (expireLease now) (playStep session step) (r.observed now)).2)) := by
  unfold receivePlayoutStep
  rcases observeTime_cases now r with ⟨hlt, htime⟩ | ⟨hle, htime⟩
  · exact .inl ⟨hlt, Act.bind_of_error htime⟩
  · refine .inr ⟨hle, ?_⟩
    rw [Act.bind_of_ok htime]
    rfl

theorem tick_cases (now : MonotonicTimeMicros) (r : Receiver) :
    (now < r.lastObservedTime ∧ tick now r = (.error .clockMovedBackwards, r)) ∨
    (r.lastObservedTime ≤ now ∧ tick now r =
      (.ok ((r.observed now).expireLease now).1, ((r.observed now).expireLease now).2)) := by
  unfold tick
  rcases observeTime_cases now r with ⟨hlt, htime⟩ | ⟨hle, htime⟩
  · exact .inl ⟨hlt, Act.bind_of_error htime⟩
  · exact .inr ⟨hle, Act.bind_of_ok htime⟩

theorem connectionLost_cases (now : MonotonicTimeMicros) (r : Receiver) :
    (now < r.lastObservedTime ∧ connectionLost now r = (.error .clockMovedBackwards, r)) ∨
    (r.lastObservedTime ≤ now ∧ connectionLost now r = (.ok ((r.observed now).closeActivation .leaseExpired).1,
        ((r.observed now).closeActivation .leaseExpired).2)) := by
  unfold connectionLost
  rcases observeTime_cases now r with ⟨hlt, htime⟩ | ⟨hle, htime⟩
  · exact .inl ⟨hlt, Act.bind_of_error htime⟩
  · exact .inr ⟨hle, Act.bind_of_ok htime⟩

/-! ## The rule for a call

What a call does to the log and to the state is put together from five pieces: a failure, which
changes at most the time; the noting of time and context; a close; the ordering checks; and a
playout step. A property that each piece keeps, and that composes, is kept by every call. -/

/-- A property of a step from one receiver to another with a log between them, which composes and
which each of the pieces of a call has. -/
structure CallRule (J : Receiver → List ReceiverEffect → Receiver → Prop) : Prop where
  noted : ∀ (r : Receiver) (context : Option (SessionEpoch × TransportGeneration)) (now),
    (∀ p, r.context = some p → context = some p) →
    J r [] { r with lastObservedTime := now, context := context }
  append : ∀ a xs b ys c, J a xs b → J b ys c → J a (xs ++ ys) c
  close : ∀ (r : Receiver) (reason), J r (r.closeActivation reason).1 (r.closeActivation reason).2
  order : ∀ (r : Receiver) (message now), r.context = some (contextOf message.session) →
    J r (r.orderControl message now).1 (r.orderControl message now).2
  play : ∀ (r : Receiver) (session step),
    J r (r.playStep session step).1 (r.playStep session step).2

variable {J : Receiver → List ReceiverEffect → Receiver → Prop}

theorem expireLease_context (r : Receiver) (now : MonotonicTimeMicros) :
    (r.expireLease now).2.context = r.context := by
  by_cases h : r.Expired now
  · rw [expireLease_of_expired h, closeActivation_activation]
  · rw [expireLease_of_live h]

theorem CallRule.keep (h : CallRule J) (r : Receiver) : J r [] r :=
  h.noted r r.context r.lastObservedTime fun _ => id

theorem CallRule.observed (h : CallRule J) (r : Receiver) (now : MonotonicTimeMicros) :
    J r [] (r.observed now) := h.noted r r.context now fun _ => id

theorem CallRule.expire (h : CallRule J) (r : Receiver) (now : MonotonicTimeMicros) :
    J r (r.expireLease now).1 (r.expireLease now).2 := by
  by_cases hexp : r.Expired now
  · rw [expireLease_of_expired hexp]
    exact h.close r .leaseExpired
  · rw [expireLease_of_live hexp]
    exact h.keep r

/-- **The rule for a call.** -/
theorem CallRule.emit (h : CallRule J) (r : Receiver) (c : ReceiverCall) : J r (r.emit c).1 (r.emit c).2 := by
  -- a log after a note is the log
  have after : ∀ {r' xs b}, J r [] r' → J r' xs b → J r xs b :=
    fun hnote hlog => h.append _ _ _ _ _ hnote hlog
  unfold Receiver.emit call
  cases c with
  | receiveControl message now =>
    rcases receiveControl_cases message now r with ⟨-, hcall⟩ | ⟨-, -, hcall⟩ | ⟨-, hp, hcall⟩
    · simp only [hcall]
      exact h.keep r
    · simp only [hcall]
      exact h.observed r now
    · simp only [hcall]
      refine after (h.noted r (some (contextOf message.session)) now fun p h => ?_) ?_
      · rw [hp p h]
      refine h.append _ _ _ _ _ (h.expire _ now) (h.order _ message now ?_)
      exact expireLease_context _ _
  | receivePlayoutStep session step now =>
    rcases receivePlayoutStep_cases session step now r with ⟨-, hcall⟩ | ⟨-, hcall⟩
    · simp only [hcall]
      exact h.keep r
    · simp only [hcall]
      refine after (h.observed r now) ?_
      exact h.append _ _ _ _ _ (h.expire _ now) (h.play _ session step)
  | tick now =>
    rcases tick_cases now r with ⟨-, hcall⟩ | ⟨-, hcall⟩
    · simp only [hcall]
      exact h.keep r
    · simp only [hcall]
      exact after (h.observed r now) (h.expire _ now)
  | connectionLost now =>
    rcases connectionLost_cases now r with ⟨-, hcall⟩ | ⟨-, hcall⟩
    · simp only [hcall]
      exact h.keep r
    · simp only [hcall]
      exact after (h.observed r now) (h.close _ _)

end Receiver

/-! ## A sample run

One activation that presses a key; the laws of runs are tried on it. -/

def sampleSession : SessionContext := ⟨1, 1, 1⟩

def sampleConfig : ReceiverConfig := ⟨.fromMillis 200⟩

def sampleReceiver : Receiver := ⟨sampleConfig, none, none, none, 0⟩

/-- A control message of the sample session. -/
def sampleControl (sequence : ControlSequence) (payload : ReliableControl) :
    ReliableControlMessage := ⟨sampleSession, sequence, payload⟩

def sampleCalls : List ReceiverCall :=
  [.receiveControl (sampleControl 1 .enter) 10,
    .receiveControl (sampleControl 2 (.keyDown (.keyboard 4))) 20]

end Zflow.Core
