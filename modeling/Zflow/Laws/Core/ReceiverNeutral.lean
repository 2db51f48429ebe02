import Zflow.Laws.Core.ReceiverControl
import Zflow.Laws.Core.ReceiverLease
import Zflow.Lib.System

/-!
# What a lease ends

`ReceiverLease` bounds what is held from above; this file is about what is not held. A deadline is set
exactly while something is held (`Leashed`), so what a lease ends was holding something
(`lease_ends_holding`). One step leaves a deadline behind with nothing held: a playout step with an
empty touch snapshot, where a contact was the last thing held (`lifts`).
-/

namespace Zflow.Core

open Lib

namespace Receiver

/-- Calls as steps. -/
def step : System Receiver ReceiverCall := fun c r => some (r.emit c).2

/-- **The invariant**: the deadline is set exactly while something is held. -/
def Leashed (r : Receiver) : Prop :=
  ∀ state, r.activation = some state → (state.leaseDeadline.isSome = true ↔ state.held ≠ .neutral)

/-- A step that the activation takes, and that lifts the last contacts while nothing else is held. -/
def lifted (session : SessionContext) (step : PlayoutStep) (state : ActivationState) : Bool :=
  state.session = session && state.lastInjectedMotion < step.throughSequence &&
    (state.injectedTotals.checkedAdd step.delta).isOk && step.touchSnapshot.any (·.isEmpty) &&
    state.held.clearTouch.isNeutral && !state.held.activeTouch.isEmpty

/-- A playout step, in order of time and before the deadline, that lifts the last contacts. -/
def lifts (r : Receiver) : ReceiverCall → Bool
  | .receivePlayoutStep session step now =>
    r.lastObservedTime ≤ now && !r.leaseDeadline.any (· ≤ now) && r.activation.any (lifted session step)
  | _ => false

/-- A `SessionClose` that gives the lease as its reason. -/
def blamesLease : ReceiverCall → Bool
  | .receiveControl message _ =>
    match message.payload with
    | .sessionClose reason _ => reason = .leaseExpired
    | _ => false
  | _ => false

/-! ## Steps -/

theorem Leashed.of_none {r : Receiver} (h : r.activation = none) : Leashed r := by
  intro state active
  cases h.symm.trans active

theorem Leashed.of_same {r r' : Receiver} (hr : Leashed r) (h : r'.activation = r.activation) :
    Leashed r' := fun state active => hr state (h.symm.trans active)

/-- Refreshing the lease sets the deadline exactly while something is held. -/
theorem Leashed.of_refreshed {r : Receiver} {state : ActivationState} {now : MonotonicTimeMicros}
    {lease : Duration} (h : r.activation = some (refreshLease state now lease)) : Leashed r := by
  intro state' active
  cases h.symm.trans active
  unfold refreshLease
  by_cases hneutral : state.held.isNeutral = true
  · simp [HeldState.isNeutral_iff.mp hneutral]
  · have hne : state.held ≠ .neutral := fun h => hneutral (HeldState.isNeutral_iff.mpr h)
    simp [hneutral, hne]

theorem leashed_control {message : ReliableControlMessage} {now : MonotonicTimeMicros}
    {effects : List ReceiverEffect} {r r' : Receiver} (hr : Leashed r)
    (h : Controlled message now r effects r') : Leashed r' := by
  cases h with
  | refused => exact hr.of_same rfl
  | late | overflowed | ended => exact .of_none rfl
  | opened => exact .of_refreshed rfl
  | accepted state delta _ _ _ _ _ anchored =>
    apply Leashed.of_refreshed
    rw [accepting, acceptState_state now _ anchored]

/-- What a playout step leaves held is neutral only if it was before, or the step lifted the last
contacts. -/
theorem neutral_after_touch {held : HeldState} {snapshot : Option TouchState}
    (hopen : held.activeTouch = ∅ → ∀ touch, snapshot = some touch → touch = ∅) :
    touchAfter held snapshot = .neutral ↔ held = .neutral ∨
      (snapshot.any (·.isEmpty) = true ∧ held.clearTouch.isNeutral = true ∧ held.activeTouch.isEmpty = false) := by
  obtain ⟨keys, buttons, contacts⟩ := held
  cases snapshot with
  | none => simp [touchAfter]
  | some touch =>
    by_cases hcontacts : contacts = ∅
    · have htouch : touch = ∅ := hopen hcontacts touch rfl
      simp [touchAfter, HeldState.replaceTouch, hcontacts, htouch]
    · simp [touchAfter, HeldState.replaceTouch, HeldState.clearTouch, HeldState.neutral, hcontacts]
      tauto

/-- **A playout step keeps the invariant unless it lifts the last contacts.** -/
theorem leashed_played {session : SessionContext} {step : PlayoutStep} {r : Receiver}
    {result : List ReceiverEffect × Receiver} (hr : Leashed r) (h : Played session step r result) :
    Leashed result.2 ↔ r.activation.any (lifted session step) = false := by
  cases h with
  | refused reason kind =>
    refine iff_of_true hr ?_
    cases active : r.activation with
    | none => rfl
    | some state =>
      simp only [Option.any_some]
      rcases kind with ⟨-, hclosed⟩ | ⟨-, hnone⟩ | ⟨-, other, hactive, hsession⟩ |
        ⟨-, other, hactive, -, hbehind⟩
      · have hother := (isClosed_iff.mp hclosed).2 state active
        have hsession : state.session ≠ session := fun h => hother (by rw [h])
        simp [lifted, hsession]
      · cases active.symm.trans hnone
      · cases active.symm.trans hactive
        simp [lifted, hsession]
      · cases active.symm.trans hactive
        have hahead : ¬ state.lastInjectedMotion < step.throughSequence := Nat.not_lt.mpr hbehind
        simp [lifted, hahead]
  | violated state active touch =>
    refine iff_of_true (.of_none (by simp)) ?_
    simp [active, lifted, touch]
  | overflowed state active overflow =>
    refine iff_of_true (.of_none (by simp)) ?_
    have hsum : (state.injectedTotals.checkedAdd step.delta).isOk = false := by
      cases h : state.injectedTotals.checkedAdd step.delta with
      | ok totals => exact absurd h (overflow totals)
      | error => rfl
    simp [active, lifted, hsum]
  | played state totals active same ahead touch sum =>
    have hneutral := neutral_after_touch touch
    have hlifted : r.activation.any (lifted session step) = true ↔
        step.touchSnapshot.any (·.isEmpty) = true ∧ state.held.clearTouch.isNeutral = true ∧
          state.held.activeTouch.isEmpty = false := by
      simp [active, lifted, same, ahead, sum, Except.isOk, Except.toBool, and_assoc]
    have hbefore := hr state active
    have hheld : Leashed { r with activation := some (playState state step totals).2 } ↔
        (state.leaseDeadline.isSome = true ↔ touchAfter state.held step.touchSnapshot ≠ .neutral) := by
      rw [playState_state]
      exact ⟨fun h => h _ rfl, fun h state' hs' => by cases hs'; exact h⟩
    rw [hheld, hbefore, ← Bool.not_eq_true, hlifted, Ne, Ne, hneutral]
    by_cases hwas : state.held = .neutral
    · simp [hwas, HeldState.neutral]
    · simp [hwas]

/-- **A call keeps the invariant unless it lifts the last contacts.** -/
theorem leashed_emit {r : Receiver} (hr : Leashed r) (c : ReceiverCall) :
    Leashed (r.emit c).2 ↔ r.lifts c = false := by
  have hexpire : ∀ now r, Leashed r → Leashed (expireLease now r).2 := by
    intro now r hr
    by_cases hexp : r.Expired now
    · rw [expireLease_of_expired hexp]
      exact .of_none (by simp)
    · rw [expireLease_of_live hexp]
      exact hr
  unfold Receiver.emit call
  cases c with
  | receiveControl message now =>
    refine iff_of_true ?_ rfl
    simp only
    cases hcall : receiveControl message now r with
    | mk answer r' =>
      cases answer with
      | ok effects => exact leashed_control hr (receiveControl_ok hcall)
      | error e =>
        rcases receiveControl_cases message now r with ⟨-, h⟩ | ⟨-, -, h⟩ | ⟨-, -, h⟩ <;>
          cases hcall.symm.trans h <;> exact hr.of_same rfl
  | receivePlayoutStep session step now =>
    rcases receivePlayoutStep_cases session step now r with ⟨hlt, hcall⟩ | ⟨hle, hcall⟩
    · simp only [hcall]
      refine iff_of_true hr ?_
      simp [lifts, Nat.not_le.mpr hlt]
    · simp only [hcall, andAlso]
      have hdue : r.leaseDeadline.any (· ≤ now) = true ↔ r.Expired now := by
        simp [Option.any_eq_true, Expired]
      rw [leashed_played (hexpire now (r.observed now) (hr.of_same rfl)) (playStep_cases session step _)]
      by_cases hexp : (r.observed now).Expired now
      · rw [expireLease_of_expired hexp]
        have hexp : r.Expired now := hexp
        simp [lifts, hdue.mpr hexp]
      · rw [expireLease_of_live hexp]
        have hlive : r.leaseDeadline.any (· ≤ now) = false := by
          rw [← Bool.not_eq_true, hdue]
          exact hexp
        simp [lifts, hle, hlive, observed]
  | tick now =>
    refine iff_of_true ?_ rfl
    rcases tick_cases now r with ⟨-, hcall⟩ | ⟨-, hcall⟩
    · simp only [hcall]
      exact hr
    · simp only [hcall]
      exact hexpire now _ (hr.of_same rfl)
  | connectionLost now =>
    refine iff_of_true ?_ rfl
    rcases connectionLost_cases now r with ⟨-, hcall⟩ | ⟨-, hcall⟩
    · simp only [hcall]
      exact hr
    · simp only [hcall]
      exact .of_none (by simp)

/-! ## Closes -/

/-- A close names the reason it was given. -/
theorem closed_reason {r : Receiver} {reason other : SessionCloseReason} {session : SessionContext}
    (h : .activationClosed session other ∈ (r.closeActivation reason).1) : other = reason := by
  rcases mem_closeActivation h with hinjection | ⟨_, heq⟩
  · cases hinjection
  · cases heq
    rfl

/-- What an expiry closes is the open activation, and a deadline was set for it. -/
theorem closed_expire {r : Receiver} {now : MonotonicTimeMicros} {reason : SessionCloseReason}
    {session : SessionContext} (h : .activationClosed session reason ∈ (r.expireLease now).1) :
    ∃ state, r.activation = some state ∧ state.session = session ∧
      state.leaseDeadline.isSome = true := by
  by_cases hexp : r.Expired now
  · obtain ⟨state, deadline, active, hdeadline, -⟩ := hexp.activation
    rw [expireLease_of_expired hexp, closeActivation_some active] at h
    refine ⟨state, active, ?_, by simp [hdeadline]⟩
    rcases List.mem_append.mp h with h | h
    · cases isInjection_reconcileHeld h
    · cases List.mem_singleton.mp h
      rfl
  · rw [expireLease_of_live hexp] at h
    cases h

/-- The ordering checks close with the lease as the reason only where the message gives it. -/
theorem closed_order {message : ReliableControlMessage} {now : MonotonicTimeMicros} {r : Receiver}
    {session : SessionContext} (h : .activationClosed session .leaseExpired ∈ (r.orderControl message now).1) :
    ∃ final, message.payload = .sessionClose .leaseExpired final := by
  generalize hresult : r.orderControl message now = result at h
  have hcases := orderControl_cases message now r
  rw [hresult] at hcases
  cases hcases with
  | refused | enterRefused => cases List.mem_singleton.mp h
  | opened =>
    rcases List.mem_append.mp h with h | h
    · cases closed_reason h
    · cases List.mem_singleton.mp h
  | overflowed => cases closed_reason h
  | accepted state delta active same next valid anchored =>
    have hown : ∀ session reason, .activationClosed session reason ∉ (r.accepting message now state delta).1 := by
      intro session reason hmem
      rcases effects_acceptState hmem with hinjection | ⟨_, _, heq⟩
      · cases hinjection
      · cases heq
    rcases acceptControl_eq now delta r valid with ⟨reason, final, hpayload, heq⟩ | ⟨-, heq⟩
    · rw [heq] at h
      rcases List.mem_append.mp h with h | h
      · exact absurd h (hown _ _)
      · cases closed_reason h
        exact ⟨final, hpayload⟩
    · rw [heq] at h
      exact absurd h (hown _ _)

theorem closed_play {session closed : SessionContext} {step : PlayoutStep} {r : Receiver} :
    .activationClosed closed .leaseExpired ∉ (r.playStep session step).1 := by
  intro h
  generalize hresult : r.playStep session step = result at h
  have hcases := playStep_cases session step r
  rw [hresult] at hcases
  cases hcases with
  | refused => cases List.mem_singleton.mp h
  | violated | overflowed => cases closed_reason h
  | played =>
    have hinjection := effects_playState h
    cases hinjection

/-- **What a lease ends was holding something.** -/
theorem closes_holding {r r' : Receiver} {c : ReceiverCall} {effects : List ReceiverEffect}
    {session : SessionContext} (hr : Leashed r) (hcall : call c r = (.ok effects, r'))
    (hlooks : looksAtLease c = true) (hblames : blamesLease c = false)
    (hclosed : .activationClosed session .leaseExpired ∈ effects) :
    ∃ state, r.activation = some state ∧ state.session = session ∧ state.held ≠ .neutral := by
  suffices ∃ now r₀, r₀.activation = r.activation ∧ .activationClosed session .leaseExpired ∈ (expireLease now r₀).1 by
    obtain ⟨now, r₀, hsame, hexpired⟩ := this
    obtain ⟨state, active, hsession, hdeadline⟩ := closed_expire hexpired
    rw [hsame] at active
    exact ⟨state, active, hsession, (hr state active).mp hdeadline⟩
  unfold call at hcall
  cases c with
  | receiveControl message now =>
    rcases receiveControl_cases message now r with ⟨-, h⟩ | ⟨-, -, h⟩ | ⟨-, -, h⟩
    · cases hcall.symm.trans h
    · cases hcall.symm.trans h
    · cases hcall.symm.trans h
      rcases List.mem_append.mp hclosed with hmem | hmem
      · exact ⟨now, r.pinned message.session now, rfl, hmem⟩
      · obtain ⟨final, hpayload⟩ := closed_order hmem
        simp [blamesLease, hpayload] at hblames
  | receivePlayoutStep session step now =>
    rcases receivePlayoutStep_cases session step now r with ⟨-, h⟩ | ⟨-, h⟩
    · cases hcall.symm.trans h
    · cases hcall.symm.trans h
      rcases List.mem_append.mp hclosed with hmem | hmem
      · exact ⟨now, r.observed now, rfl, hmem⟩
      · exact absurd hmem closed_play
  | tick now =>
    rcases tick_cases now r with ⟨-, h⟩ | ⟨-, h⟩
    · cases hcall.symm.trans h
    · cases hcall.symm.trans h
      exact ⟨now, r.observed now, rfl, hclosed⟩
  | connectionLost now => cases hlooks

/-! ## Runs -/

/-- **A lease ends what holds something.** In every run of a new receiver, what holds something has a
deadline. As long as no playout step lifts the last contacts with nothing else held, what has a deadline
holds something, and only a `SessionClose` that gives that reason itself closes an activation that holds
nothing as one whose lease ran out. -/
theorem lease_ends_holding {config : ReceiverConfig} {now : MonotonicTimeMicros} {start : Receiver}
    (hnew : Receiver.new config now = .ok start) :
    (∀ calls state, (start.runCalls calls).2.activation = some state → state.held ≠ .neutral →
      state.leaseDeadline.isSome = true) ∧
    ∀ r, System.Reaches step (fun r c => r.lifts c = false) start r →
      Leashed r ∧ ∀ c effects r' session, call c r = (.ok effects, r') → looksAtLease c = true →
        blamesLease c = false → .activationClosed session .leaseExpired ∈ effects →
        ∃ state, r.activation = some state ∧ state.session = session ∧ state.held ≠ .neutral := by
  constructor
  · intro calls state active hheld
    obtain ⟨deadline, hdeadline⟩ := ((leased_runCalls hnew calls).2 state active).1 hheld
    simp [hdeadline]
  · intro r hreaches
    have hr : Leashed r := by
      apply hreaches.invariant
      · rw [(new_eq_ok.mp hnew).2]
        exact .of_none rfl
      · intro r c r' hr hcalm hstep
        cases hstep
        exact (leashed_emit hr c).mpr hcalm
    exact ⟨hr, fun c effects r' session hcall hlooks hblames hclosed =>
      closes_holding hr hcall hlooks hblames hclosed⟩

/-- A finger on a pad. -/
def sampleTouch : TouchState :=
  .ofList [(1, (⟨1, 10, 20, none, none, none, none, .finger, none⟩ : TouchContact))]

/-- A playout step with nothing on the pad any more. -/
def sampleLift : PlayoutStep := ⟨25, 1, 0, some ∅, true, false, false⟩

def sampleTouched : List ReceiverCall :=
  [.receiveControl (sampleControl 1 .enter) 10,
    .receiveControl (sampleControl 2 (.touchBegin sampleTouch)) 20]

/-- The finger is held, with a lease, and the lease ends it. -/
theorem lease_ends_holding_sample : ∃ r, System.Reaches step (fun r c => r.lifts c = false) sampleReceiver r ∧
      (tick 200020 r).1.toOption.any (·.contains (.activationClosed sampleSession .leaseExpired)) = true ∧
      ∃ state, r.activation = some state ∧ state.held ≠ .neutral := by
  have hrun : ((step.guarded fun r c => r.lifts c = false).exec sampleTouched sampleReceiver).any
      (fun r => (tick 200020 r).1.toOption.any
        (·.contains (.activationClosed sampleSession .leaseExpired))) = true := by
    decide +kernel
  obtain ⟨r, hreaches, hfacts⟩ := System.exists_reaches_of_exec hrun
  obtain ⟨effects, heffects, hclosed⟩ := Option.any_eq_true _ _ |>.mp hfacts
  refine ⟨r, hreaches, hfacts, ?_⟩
  have hcall : call (.tick 200020) r = (.ok effects, (tick 200020 r).2) := by
    refine Prod.ext ?_ rfl
    show (tick 200020 r).1 = .ok effects
    cases htick : (tick 200020 r).1 with
    | ok other =>
      rw [htick] at heffects
      cases heffects
      rfl
    | error e =>
      rw [htick] at heffects
      cases heffects
  have hnew : Receiver.new sampleConfig 0 = .ok sampleReceiver := rfl
  obtain ⟨state, active, -, hheld⟩ := ((lease_ends_holding hnew).2 r hreaches).2 (.tick 200020) effects _
    sampleSession hcall rfl rfl (by simpa using hclosed)
  exact ⟨state, active, hheld⟩

/-- **An activation that holds nothing can close with the lease as its reason**: at the deadline of a touch
that a datagram lifted, and by a message that gives that reason. -/
theorem lease_ends_neutral :
    let lifted := (sampleReceiver.runCalls (sampleTouched ++ [.receivePlayoutStep sampleSession sampleLift 30])).2
    let entered := (sampleReceiver.runCalls [.receiveControl (sampleControl 1 .enter) 10]).2
    (lifted.activation.any fun state =>
      state.held.isNeutral && state.leaseDeadline == some 200020) = true ∧
    (lifted.emit (.tick 200020)).1 = [.activationClosed sampleSession .leaseExpired] ∧
    (entered.activation.any fun state => state.held.isNeutral) = true ∧
    (entered.emit (.receiveControl (sampleControl 2 (.sessionClose .leaseExpired none)) 20)).1 =
      [.activationClosed sampleSession .leaseExpired] := by
  decide +kernel

end Receiver

end Zflow.Core
