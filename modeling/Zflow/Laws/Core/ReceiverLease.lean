import Zflow.Laws.Core.ReceiverOrder

/-!
# The held-state lease

Held state can stop being neutral in many places (a control, the touch state of an anchor, a
snapshot, a playout step's touch), and the deadline is set in one: at the end of an accepted
control message. This file shows that the one place is enough.

`acceptances` is what a run accepted, with the time of each. **Whenever something is held, a
deadline is set, and it is no later than one lease after the last message accepted for that
activation.** No other call moves it, and at the deadline every call releases first.
-/

namespace Zflow.Core

open Lib

namespace Receiver

/-! ## What a call accepts -/

def isRejection : ReceiverEffect → Bool
  | .rejected .. => true
  | _ => false

/-- The activation a call renews, with the time: that of a control message without a rejection. -/
def accepts (r : Receiver) : ReceiverCall → Option (ActivationId × MonotonicTimeMicros)
  | .receiveControl message now =>
    match (receiveControl message now r).1 with
    | .ok effects => if effects.any isRejection then none else some (message.session.activationId, now)
    | .error _ => none
  | _ => none

/-- A call as a step of the log of acceptances. -/
def acceptStep (r : Receiver) (c : ReceiverCall) :
    List (ActivationId × MonotonicTimeMicros) × Receiver :=
  ((r.accepts c).toList, (r.emit c).2)

/-- What a run accepts, in order. -/
def acceptances (r : Receiver) (calls : List ReceiverCall) :
    List (ActivationId × MonotonicTimeMicros) :=
  (Replay.collect acceptStep r calls).1

/-- The time of the last acceptance for an activation. -/
def lastAccepted (accepted : List (ActivationId × MonotonicTimeMicros)) (id : ActivationId) :
    Option MonotonicTimeMicros :=
  ((accepted.filter fun entry => entry.1 == id).getLast?).map (·.2)

theorem lastAccepted_append_self (accepted : List (ActivationId × MonotonicTimeMicros))
    (id : ActivationId) (now : MonotonicTimeMicros) : lastAccepted (accepted ++ [(id, now)]) id = some now := by
  simp [lastAccepted]

/-! ## What a step does to the lease -/

/-- The activation that is still open has the lease it had, and holds nothing it did not. -/
def LeaseKept (r r' : Receiver) : Prop :=
  r'.config = r.config ∧ ∀ state', r'.activation = some state' →
    ∃ state, r.activation = some state ∧ state'.session = state.session ∧
      state'.leaseDeadline = state.leaseDeadline ∧ (state.held = .neutral → state'.held = .neutral)

/-- The activation that is open is that of `id`, with a lease from `now` while it holds something. -/
def LeaseRenewed (id : ActivationId) (now : MonotonicTimeMicros) (r r' : Receiver) : Prop :=
  r'.config = r.config ∧ ∀ state', r'.activation = some state' →
    state'.session.activationId = id ∧
      state'.leaseDeadline =
        if state'.held.isNeutral then none else some (addDuration now r.config.heldStateLease)

theorem LeaseKept.refl (r : Receiver) : LeaseKept r r :=
  ⟨rfl, fun state hs => ⟨state, hs, rfl, rfl, id⟩⟩

theorem LeaseKept.trans {a b c : Receiver} (hab : LeaseKept a b) (hbc : LeaseKept b c) :
    LeaseKept a c := by
  refine ⟨hbc.1.trans hab.1, fun state'' hs'' => ?_⟩
  obtain ⟨state', hs', hsession', hlease', hheld'⟩ := hbc.2 state'' hs''
  obtain ⟨state, hs, hsession, hlease, hheld⟩ := hab.2 state' hs'
  exact ⟨state, hs, hsession'.trans hsession, hlease'.trans hlease, fun h => hheld' (hheld h)⟩

theorem leaseKept_close (r : Receiver) (reason : SessionCloseReason) : LeaseKept r (r.closeActivation reason).2 := by
  rw [closeActivation_activation]
  exact ⟨rfl, by simp⟩

theorem leaseKept_expire (r : Receiver) (now : MonotonicTimeMicros) : LeaseKept r (r.expireLease now).2 := by
  by_cases hexp : r.Expired now
  · rw [expireLease_of_expired hexp]
    exact leaseKept_close r .leaseExpired
  · rw [expireLease_of_live hexp]
    exact .refl r

/-- **A playout step keeps the lease.** Its touch snapshot cannot hold what was not held. -/
theorem leaseKept_play (session : SessionContext) (step : PlayoutStep) (r : Receiver) :
    LeaseKept r (r.playStep session step).2 := by
  generalize hresult : r.playStep session step = result
  have hcases := playStep_cases session step r
  rw [hresult] at hcases
  cases hcases with
  | refused => exact .refl r
  | violated => exact leaseKept_close r .protocolViolation
  | overflowed => exact leaseKept_close r .motionOverflow
  | played state totals active same ahead touch sum =>
    refine ⟨rfl, fun state' hs' => ?_⟩
    cases hs'
    rw [playState_state]
    refine ⟨state, active, rfl, rfl, fun hneutral => ?_⟩
    show touchAfter state.held step.touchSnapshot = .neutral
    unfold touchAfter
    cases hsnapshot : step.touchSnapshot with
    | none => exact hneutral
    | some t =>
      have hempty : t = ∅ := touch (by rw [hneutral]; rfl) t hsnapshot
      rw [hneutral, hempty]
      rfl

/-- No effect of a close, of an accepted message or of a playout step is a rejection. -/
theorem isRejection_of_isInjection {effect : ReceiverEffect} (h : effect.isInjection = true) :
    isRejection effect = false := by
  cases effect <;> simp_all [ReceiverEffect.isInjection, isRejection]

theorem any_isRejection_close (r : Receiver) (reason : SessionCloseReason) :
    (r.closeActivation reason).1.any isRejection = false := by
  cases h : r.activation with
  | none =>
    rw [closeActivation_none h]
    rfl
  | some state =>
    rw [closeActivation_some h, List.any_append]
    have hreleases : (reconcileHeld state .neutral).1.any isRejection = false := by
      refine List.any_eq_false.mpr fun effect he => ?_
      rw [isRejection_of_isInjection (isInjection_reconcileHeld he)]
      exact Bool.false_ne_true
    rw [hreleases]
    rfl

theorem any_isRejection_expire (r : Receiver) (now : MonotonicTimeMicros) :
    (r.expireLease now).1.any isRejection = false := by
  by_cases hexp : r.Expired now
  · rw [expireLease_of_expired hexp]
    exact any_isRejection_close r .leaseExpired
  · rw [expireLease_of_live hexp]
    rfl

theorem any_isRejection_acceptState (state : ActivationState) (message : ReliableControlMessage)
    (delta : Option MotionDelta) (now : MonotonicTimeMicros) (lease : Duration) :
    (acceptState state message now delta lease).1.any isRejection = false := by
  refine List.any_eq_false.mpr fun effect he => ?_
  rcases effects_acceptState he with h | ⟨s, a, rfl⟩
  · rw [isRejection_of_isInjection h]
    exact Bool.false_ne_true
  · exact Bool.false_ne_true

/-- **The ordering checks reject and keep the lease, or do not and renew it.** -/
theorem lease_order (message : ReliableControlMessage) (now : MonotonicTimeMicros) (r : Receiver) :
    ((r.orderControl message now).1.any isRejection = true ∧ LeaseKept r (r.orderControl message now).2) ∨
    ((r.orderControl message now).1.any isRejection = false ∧
      LeaseRenewed message.session.activationId now r (r.orderControl message now).2) := by
  generalize hresult : r.orderControl message now = result
  have hcases := orderControl_cases message now r
  rw [hresult] at hcases
  cases hcases with
  | refused => exact .inl ⟨rfl, .refl r⟩
  | enterRefused => exact .inl ⟨rfl, .refl r⟩
  | opened =>
    refine .inr ⟨?_, rfl, fun state' hs' => ?_⟩
    · rw [List.any_append, any_isRejection_close]
      rfl
    · cases hs'
      exact ⟨rfl, rfl⟩
  | overflowed =>
    refine .inr ⟨any_isRejection_close r _, ?_⟩
    rw [closeActivation_activation]
    exact ⟨rfl, by simp⟩
  | accepted state delta active same _ valid anchored =>
    right
    rcases acceptControl_eq now delta r valid with ⟨reason, final, -, h⟩ | ⟨-, h⟩
    · rw [h, List.any_append, accepting, any_isRejection_acceptState, any_isRejection_close]
      exact ⟨rfl, rfl, by simp⟩
    · rw [h]
      refine ⟨any_isRejection_acceptState state message delta now r.config.heldStateLease,
        rfl, fun state' hs' => ?_⟩
      cases hs'
      rw [accepting, acceptState_state now _ anchored]
      exact ⟨by simpa using same, rfl⟩

/-- **A call accepts and renews the lease, or does neither.** -/
theorem lease_emit (r : Receiver) (c : ReceiverCall) :
    match r.accepts c with
    | some (id, now) => LeaseRenewed id now r (r.emit c).2
    | none => LeaseKept r (r.emit c).2 := by
  have hnoted : ∀ (now : MonotonicTimeMicros) context,
      LeaseKept r { r with lastObservedTime := now, context := context } :=
    fun now context => ⟨rfl, fun state hs => ⟨state, hs, rfl, rfl, id⟩⟩
  unfold Receiver.emit call accepts
  cases c with
  | receiveControl message now =>
    rcases receiveControl_cases message now r with ⟨-, hcall⟩ | ⟨-, -, hcall⟩ | ⟨-, -, hcall⟩
    · simp only [hcall]
      exact .refl r
    · simp only [hcall]
      exact hnoted now r.context
    · simp only [hcall, andAlso, List.any_append, any_isRejection_expire, Bool.false_or]
      have hpre := (hnoted now (some (contextOf message.session))).trans
        (leaseKept_expire (r.pinned message.session now) now)
      rcases lease_order message now ((r.pinned message.session now).expireLease now).2 with
        ⟨hrejected, hkept⟩ | ⟨haccepted, hrenewed⟩
      · simp only [hrejected, if_true]
        exact hpre.trans hkept
      · simp only [haccepted, Bool.false_eq_true, if_false]
        exact ⟨hrenewed.1.trans hpre.1, fun state' hs' => hpre.1 ▸ hrenewed.2 state' hs'⟩
  | receivePlayoutStep session step now =>
    rcases receivePlayoutStep_cases session step now r with ⟨-, hcall⟩ | ⟨-, hcall⟩
    · simp only [hcall]
      exact .refl r
    · simp only [hcall]
      exact ((hnoted now r.context).trans (leaseKept_expire _ now)).trans (leaseKept_play session step _)
  | tick now =>
    rcases tick_cases now r with ⟨-, hcall⟩ | ⟨-, hcall⟩
    · simp only [hcall]
      exact .refl r
    · simp only [hcall]
      exact (hnoted now r.context).trans (leaseKept_expire _ now)
  | connectionLost now =>
    rcases connectionLost_cases now r with ⟨-, hcall⟩ | ⟨-, hcall⟩
    · simp only [hcall]
      exact .refl r
    · simp only [hcall]
      exact (hnoted now r.context).trans (leaseKept_close _ _)

/-! ## Runs -/

/-- What holds of the lease after a run that accepted `accepted`. -/
def Leased (lease : Duration) (accepted : List (ActivationId × MonotonicTimeMicros))
    (r : Receiver) : Prop :=
  r.config.heldStateLease = lease ∧ ∀ state, r.activation = some state →
    (state.held ≠ .neutral → ∃ d, state.leaseDeadline = some d) ∧
      ∀ d, state.leaseDeadline = some d →
        ∃ t, lastAccepted accepted state.session.activationId = some t ∧ d ≤ t + lease.asMicros

theorem leased_emit {lease : Duration} {accepted : List (ActivationId × MonotonicTimeMicros)}
    {r : Receiver} (c : ReceiverCall) (h : Leased lease accepted r) :
    Leased lease (accepted ++ (r.accepts c).toList) (r.emit c).2 := by
  obtain ⟨hconfig, hstate⟩ := h
  have hstep := lease_emit r c
  cases haccepts : r.accepts c with
  | none =>
    simp only [haccepts] at hstep
    simp only [Option.toList_none, List.append_nil]
    refine ⟨by rw [hstep.1, hconfig], fun state' hs' => ?_⟩
    obtain ⟨state, hs, hsession, hlease, hheld⟩ := hstep.2 state' hs'
    obtain ⟨hset, hbound⟩ := hstate state hs
    rw [hsession, hlease]
    exact ⟨fun hne => hset fun hneutral => hne (hheld hneutral), hbound⟩
  | some entry =>
    obtain ⟨id, now⟩ := entry
    simp only [haccepts] at hstep
    simp only [Option.toList_some]
    refine ⟨by rw [hstep.1, hconfig], fun state' hs' => ?_⟩
    obtain ⟨hid, hlease⟩ := hstep.2 state' hs'
    rw [hid, lastAccepted_append_self, hlease]
    by_cases hneutral : state'.held.isNeutral = true
    · rw [if_pos hneutral]
      exact ⟨fun hne => absurd (HeldState.isNeutral_iff.mp hneutral) hne, by simp⟩
    · rw [if_neg hneutral]
      refine ⟨fun _ => ⟨_, rfl⟩, fun d hd => ⟨now, rfl, ?_⟩⟩
      cases hd
      exact hconfig ▸ addDuration_le now r.config.heldStateLease

/-- **The run keeps the lease bound.** -/
theorem leased_runCalls {config : ReceiverConfig} {now : MonotonicTimeMicros} {r : Receiver}
    (hnew : Receiver.new config now = .ok r) (calls : List ReceiverCall) :
    Leased config.heldStateLease (r.acceptances calls) (r.runCalls calls).2 := by
  have hstart : Leased config.heldStateLease [] r := by
    rw [(new_eq_ok.mp hnew).2]
    exact ⟨rfl, by simp⟩
  have hstep : ∀ log p c, Leased config.heldStateLease log p →
      Leased config.heldStateLease (log ++ (acceptStep p c).1) (acceptStep p c).2 :=
    fun log p c h => leased_emit c h
  have hrun := Replay.collect_history (Leased config.heldStateLease) hstep hstart calls
  rwa [Replay.collect_state_congr acceptStep Receiver.emit fun _ _ => rfl] at hrun

/-! ## The deadline -/

/-- A call that checks the lease before anything else: every one but the loss of the connection. -/
def looksAtLease : ReceiverCall → Bool
  | .connectionLost _ => false
  | _ => true

/-- An effect that lets go of something: a release, or an empty touch state. -/
def isRelease : ReceiverEffect → Bool
  | .key _ pressed _ => !pressed
  | .button _ pressed _ => !pressed
  | .touchReplaced touch _ => touch.isEmpty
  | _ => false

/-- A close lets go and presses nothing. -/
theorem isRelease_of_mem_close {state : ActivationState} {effect : ReceiverEffect}
    (h : effect ∈ (reconcileHeld state .neutral).1) : isRelease effect = true := by
  rw [reconcileHeld_eq] at h
  simp only [List.mem_append, List.mem_map] at h
  rcases h with (((⟨_, -, rfl⟩ | ⟨key, hkey, rfl⟩) | ⟨_, -, rfl⟩) | ⟨button, hbutton, rfl⟩) | h
  · rfl
  · exact absurd ((mem_keysDown _ _ _).mp hkey).1 (by simp [HeldState.neutral])
  · rfl
  · exact absurd ((mem_buttonsDown _ _ _).mp hbutton).1 (by simp [HeldState.neutral])
  · unfold touchChange at h
    split_ifs at h
    · rw [List.mem_singleton.mp h]
      rfl
    · cases h

/-- **At the deadline a call releases first**, and closes. -/
theorem call_of_expired {r r' : Receiver} {state : ActivationState} {d : MonotonicTimeMicros}
    {c : ReceiverCall} {effects : List ReceiverEffect} (active : r.activation = some state)
    (deadline : state.leaseDeadline = some d) (hlooks : looksAtLease c = true) (hdue : d ≤ c.time)
    (hcall : call c r = (.ok effects, r')) :
    ∃ rest, effects = (reconcileHeld state .neutral).1 ++ .activationClosed state.session .leaseExpired :: rest := by
  have hexpired : ∀ now context, d ≤ now → ({ r with lastObservedTime := now, context := context }.expireLease now).1 =
        (reconcileHeld state .neutral).1 ++ [.activationClosed state.session .leaseExpired] := by
    intro now context hle
    have hactive : ({ r with lastObservedTime := now, context := context } : Receiver).activation =
      some state := active
    rw [expireLease_of_expired ⟨d, by simp [leaseDeadline, active, deadline], hle⟩,
      closeActivation_some hactive]
  have split : ∀ rest : List ReceiverEffect,
      (reconcileHeld state .neutral).1 ++ [.activationClosed state.session .leaseExpired] ++ rest =
        (reconcileHeld state .neutral).1 ++
          .activationClosed state.session .leaseExpired :: rest := by simp
  unfold call at hcall
  cases c with
  | receiveControl message now =>
    rcases receiveControl_cases message now r with ⟨-, h⟩ | ⟨-, -, h⟩ | ⟨-, -, h⟩
    · simp [h] at hcall
    · simp [h] at hcall
    · simp only [h, andAlso, Prod.mk.injEq, Except.ok.injEq] at hcall
      have hfirst := hexpired now (some (contextOf message.session)) hdue
      exact ⟨_, by rw [← hcall.1, pinned, hfirst, split]⟩
  | receivePlayoutStep session step now =>
    rcases receivePlayoutStep_cases session step now r with ⟨-, h⟩ | ⟨-, h⟩
    · simp [h] at hcall
    · simp only [h, andAlso, Prod.mk.injEq, Except.ok.injEq] at hcall
      exact ⟨_, by rw [← hcall.1, observed, hexpired now r.context hdue, split]⟩
  | tick now =>
    rcases tick_cases now r with ⟨-, h⟩ | ⟨-, h⟩
    · simp [h] at hcall
    · simp only [h, Prod.mk.injEq, Except.ok.injEq] at hcall
      exact ⟨[], by rw [← hcall.1, observed, hexpired now r.context hdue]⟩
  | connectionLost now => cases hlooks

/-- **The lease bounds what is held.** After any calls on a new receiver: while something is held a
deadline is set, at most one lease after the last message accepted for the open activation; a call
that accepts nothing never moves it later; and from the deadline on a call that succeeds first
releases everything and closes the activation, which no part of the call opens again. -/
theorem lease_bounds_held (config : ReceiverConfig) (now : MonotonicTimeMicros) (r : Receiver)
    (hnew : Receiver.new config now = .ok r) (calls : List ReceiverCall) :
    let r' := (r.runCalls calls).2
    (∀ state, r'.activation = some state → state.held ≠ .neutral → ∃ d t, state.leaseDeadline = some d ∧
        lastAccepted (r.acceptances calls) state.session.activationId = some t ∧
        d ≤ t + config.heldStateLease.asMicros) ∧
    (∀ c, r'.accepts c = none → ∀ d, (r'.emit c).2.leaseDeadline = some d → r'.leaseDeadline = some d) ∧
    ∀ state d c effects r'', r'.activation = some state → state.leaseDeadline = some d →
      looksAtLease c = true → d ≤ c.time → call c r' = (.ok effects, r'') → ∃ releases rest,
        effects = releases ++ .activationClosed state.session .leaseExpired :: rest ∧
        (∀ effect ∈ releases, isRelease effect = true) ∧
        (∀ b : Backend, b.Shows (some state) → (Backend.machine.run b releases).held = .neutral) ∧
        ∀ state'', r''.activation = some state'' →
          state''.session.activationId ≠ state.session.activationId := by
  intro r'
  have hleased : Leased config.heldStateLease (r.acceptances calls) r' := leased_runCalls hnew calls
  have horder : Orderly r (r.runCalls calls).1 r' := orderly_runCalls (topmost_new hnew).1 calls
  refine ⟨?_, ?_, ?_⟩
  · intro state active hheld
    obtain ⟨hset, hbound⟩ := hleased.2 state active
    obtain ⟨d, hd⟩ := hset hheld
    obtain ⟨t, ht, hle⟩ := hbound d hd
    exact ⟨d, t, hd, ht, hle⟩
  · intro c haccepts d hd
    have hkept := lease_emit r' c
    simp only [haccepts] at hkept
    obtain ⟨state', hs', hd'⟩ := Option.bind_eq_some_iff.mp hd
    obtain ⟨state, hs, -, hlease, -⟩ := hkept.2 state' hs'
    simp only [leaseDeadline, hs, Option.bind_some]
    rw [← hlease, hd']
  · intro state d c effects r'' active deadline hlooks hdue hcall
    obtain ⟨rest, hrest⟩ := call_of_expired active deadline hlooks hdue hcall
    refine ⟨_, rest, hrest, fun effect => isRelease_of_mem_close, fun b hb => ?_, ?_⟩
    · exact ((logs_reconcileHeld state .neutral) b hb).2.1
    · -- the call's log closes the id, and what a log closes is closed
      have hemit : r'.emit c = (effects, r'') := by
        unfold Receiver.emit
        rw [hcall]
      have hstep := orderly_callRule.emit r' c horder.topmost
      rw [hemit] at hstep
      have hclosed := hstep.closes state.session .leaseExpired (by simp [hrest])
      exact (isClosed_iff.mp hclosed).2

/-- What the sample run leaves open: one key held, with a lease from its press. -/
def sampleState : ActivationState :=
  ⟨sampleSession, 2, HeldState.neutral.pressKey (.keyboard 4), 0, .zero, some 200020⟩

theorem lease_bounds_held_sample : ∃ d t, sampleState.leaseDeadline = some d ∧
      lastAccepted (sampleReceiver.acceptances sampleCalls) 1 = some t ∧
      d ≤ t + sampleConfig.heldStateLease.asMicros :=
  (lease_bounds_held sampleConfig 0 sampleReceiver rfl sampleCalls).1 sampleState
    (by decide +kernel) (by decide +kernel)

end Receiver

end Zflow.Core
