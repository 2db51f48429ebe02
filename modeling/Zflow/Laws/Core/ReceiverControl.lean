import Zflow.Laws.Core.ReceiverOrder

/-!
# What one control message comes to

`receive_control` looks at the lease and then at the message, and the two can meet: a message can
arrive when the lease has run out. `Controlled` lists what comes out of both together, with the
guards that lead there, and `receiveControl_ok` says that nothing else does.
-/

namespace Zflow.Core

open Lib

namespace Receiver

/-- An `Enter` for a new activation that is not the first message of its stream. -/
def Misnumbered (r : Receiver) (message : ReliableControlMessage) : Prop :=
  message.payload = .enter ∧ message.sequence ≠ 1 ∧
    ∀ highest, r.highestActivation = some highest → highest < message.session.activationId

/-- The receiver after it pinned the context and closed what was open. -/
def shut (r : Receiver) (session : SessionContext) (now : MonotonicTimeMicros) : Receiver :=
  { r.pinned session now with activation := none }

/-- **What a control message comes to.** -/
inductive Controlled (message : ReliableControlMessage) (now : MonotonicTimeMicros) (r : Receiver) :
    List ReceiverEffect → Receiver → Prop where
  | refused (reason : RejectionReason) (live : ¬ r.Expired now)
      (control : reason ≠ .duplicateOrReorderedMotion) :
      Controlled message now r [.rejected message.session reason] (r.pinned message.session now)
  | late (reason : RejectionReason) (expired : r.Expired now)
      (kind : reason = .closedActivation ∨ reason = .noOpenActivation ∨ reason = .staleActivation ∨
        reason = .controlGap ∧ r.Misnumbered message) :
      Controlled message now r
        ((r.closeActivation .leaseExpired).1 ++ [.rejected message.session reason])
        (r.shut message.session now)
  | opened (reason : SessionCloseReason) (payload : message.payload = .enter)
      (first : message.sequence = 1)
      (fresh : ∀ highest, r.highestActivation = some highest →
        highest < message.session.activationId) :
      Controlled message now r
        ((r.closeActivation reason).1 ++ [.activationOpened message.session])
        { r.pinned message.session now with
          highestActivation := some message.session.activationId
          activation := some (entered message now r.config.heldStateLease) }
  | overflowed (state : ActivationState) (anchor : MotionAnchor) (live : ¬ r.Expired now)
      (active : r.activation = some state)
      (same : state.session.activationId = message.session.activationId)
      (next : message.sequence = state.lastControlSequence + 1)
      (valid : validateTransition state message.payload = true)
      (carries : message.payload.motionAnchor = some anchor)
      (overflow : validateAnchor state anchor = .error .motionOverflow) :
      Controlled message now r (r.closeActivation .motionOverflow).1 (r.shut message.session now)
  | ended (state : ActivationState) (delta : Option MotionDelta) (reason : SessionCloseReason)
      (final : Option MotionAnchor) (live : ¬ r.Expired now) (active : r.activation = some state)
      (same : state.session.activationId = message.session.activationId)
      (next : message.sequence = state.lastControlSequence + 1)
      (valid : validateTransition state message.payload = true)
      (anchored : Anchored state message.payload delta)
      (close : message.payload = .sessionClose reason final) :
      Controlled message now r
        ((r.accepting message now state delta).1 ++
          (closeActivation reason
            { r with activation := some (r.accepting message now state delta).2 }).1)
        (r.shut message.session now)
  | accepted (state : ActivationState) (delta : Option MotionDelta) (live : ¬ r.Expired now)
      (active : r.activation = some state)
      (same : state.session.activationId = message.session.activationId)
      (next : message.sequence = state.lastControlSequence + 1)
      (valid : validateTransition state message.payload = true)
      (anchored : Anchored state message.payload delta)
      (goes : ∀ reason final, message.payload ≠ .sessionClose reason final) :
      Controlled message now r (r.accepting message now state delta).1
        { r.pinned message.session now with
          activation := some (r.accepting message now state delta).2 }

/-- Noting time and context does not change what a close releases. -/
theorem closeActivation_pinned (r : Receiver) (session : SessionContext) (now : MonotonicTimeMicros)
    (reason : SessionCloseReason) :
    ((r.pinned session now).closeActivation reason).1 = (r.closeActivation reason).1 := by
  unfold closeActivation pinned
  cases r.activation <;> rfl

theorem closeActivation_with (r : Receiver) (session : SessionContext) (now : MonotonicTimeMicros)
    (activation : Option ActivationState) (reason : SessionCloseReason) :
    (closeActivation reason { r.pinned session now with activation := activation }).1 =
      (closeActivation reason { r with activation := activation }).1 := by
  unfold closeActivation pinned
  cases activation <;> rfl

theorem accepting_pinned (r : Receiver) (session : SessionContext) (now t : MonotonicTimeMicros)
    (message : ReliableControlMessage) (state : ActivationState) (delta : Option MotionDelta) :
    (r.pinned session now).accepting message t state delta = r.accepting message t state delta := rfl

/-- **Every control message that is answered comes to one of `Controlled`.** -/
theorem receiveControl_ok {message : ReliableControlMessage} {now : MonotonicTimeMicros}
    {effects : List ReceiverEffect} {r r' : Receiver} (h : receiveControl message now r = (.ok effects, r')) :
    Controlled message now r effects r' := by
  rcases receiveControl_cases message now r with ⟨-, hcall⟩ | ⟨-, -, hcall⟩ | ⟨-, -, hcall⟩
  · cases hcall.symm.trans h
  · cases hcall.symm.trans h
  obtain ⟨rfl, rfl⟩ : _ = effects ∧ _ = r' := by
    have heq := hcall.symm.trans h
    simpa using heq
  unfold andAlso
  by_cases hexp : (r.pinned message.session now).Expired now
  · -- the activation is closed, so the message finds none
    rw [expireLease_of_expired hexp, closeActivation_pair]
    simp only [closeActivation_pinned]
    have horder := orderControl_cases message now (r.shut message.session now)
    show Controlled message now r (_ ++ (orderControl message now (r.shut message.session now)).1)
      (orderControl message now (r.shut message.session now)).2
    generalize orderControl message now (r.shut message.session now) = result at horder
    cases horder with
    | refused reason payload closed =>
      rcases closed rfl with hreason | hreason
      · exact .late reason hexp (.inl hreason)
      · exact .late reason hexp (.inr (.inl hreason))
    | enterRefused reason payload kind =>
      rcases kind with hreason | hreason | ⟨hreason, hseq, hfresh⟩
      · exact .late reason hexp (.inl hreason)
      · exact .late reason hexp (.inr (.inr (.inl hreason)))
      · exact .late reason hexp (.inr (.inr (.inr ⟨hreason, payload, hseq, hfresh⟩)))
    | opened payload first fresh => exact .opened .leaseExpired payload first fresh
    | overflowed state anchor active => cases active
    | accepted state delta active => cases active
  · rw [expireLease_of_live hexp]
    have horder := orderControl_cases message now (r.pinned message.session now)
    simp only [List.nil_append]
    generalize orderControl message now (r.pinned message.session now) = result at horder
    cases horder with
    | refused reason payload closed control => exact .refused reason hexp control
    | enterRefused reason payload kind =>
      refine .refused reason hexp ?_
      rcases kind with rfl | rfl | ⟨rfl, -⟩ <;> simp
    | opened payload first fresh =>
      simp only [closeActivation_pinned]
      exact .opened .superseded payload first fresh
    | overflowed state anchor active same next valid carries overflow =>
      rw [closeActivation_pair, closeActivation_pinned]
      exact .overflowed state anchor hexp active same next valid carries overflow
    | accepted state delta active same next valid anchored =>
      rcases acceptControl_eq now delta (r.pinned message.session now) valid with
        ⟨reason, final, hpayload, heq⟩ | ⟨hgoes, heq⟩
      · rw [heq, accepting_pinned, closeActivation_with]
        exact .ended state delta reason final hexp active same next valid anchored hpayload
      · rw [heq, accepting_pinned]
        exact .accepted state delta hexp active same next valid anchored hgoes

/-- **A playout step that is answered** is played by the receiver as it was, or as the end of its
lease leaves it. -/
theorem receivePlayoutStep_ok {session : SessionContext} {step : PlayoutStep}
    {now : MonotonicTimeMicros} {effects : List ReceiverEffect} {r r' : Receiver}
    (h : receivePlayoutStep session step now r = (.ok effects, r')) :
    (¬ r.Expired now ∧ Played session step (r.observed now) (effects, r')) ∨
    ∃ rest, effects = (r.closeActivation .leaseExpired).1 ++ rest ∧
      Played session step { r.observed now with activation := none } (rest, r') := by
  rcases receivePlayoutStep_cases session step now r with ⟨-, hcall⟩ | ⟨-, hcall⟩
  · cases hcall.symm.trans h
  obtain ⟨rfl, rfl⟩ : _ = effects ∧ _ = r' := by
    have heq := hcall.symm.trans h
    simpa using heq
  unfold andAlso
  by_cases hexp : (r.observed now).Expired now
  · rw [expireLease_of_expired hexp, closeActivation_pair]
    have hclose : ((r.observed now).closeActivation .leaseExpired).1 = (r.closeActivation .leaseExpired).1 := by
      unfold closeActivation observed
      cases r.activation <;> rfl
    rw [hclose]
    exact .inr ⟨_, rfl, playStep_cases session step _⟩
  · rw [expireLease_of_live hexp]
    exact .inl ⟨hexp, playStep_cases session step _⟩

/-- Effects that neither refuse nor open anything. -/
def Quiet (effects : List ReceiverEffect) : Prop :=
  ∀ effect ∈ effects, ∀ session, (∀ reason, effect ≠ .rejected session reason) ∧
    effect ≠ .activationOpened session

theorem Quiet.append {xs ys : List ReceiverEffect} (hx : Quiet xs) (hy : Quiet ys) :
    Quiet (xs ++ ys) := fun effect hmem => (List.mem_append.mp hmem).elim (hx effect) (hy effect)

/-- A close injects, and names what it closed. -/
theorem mem_closeActivation {r : Receiver} {reason : SessionCloseReason} {effect : ReceiverEffect}
    (h : effect ∈ (r.closeActivation reason).1) :
    effect.isInjection = true ∨ ∃ session, effect = .activationClosed session reason := by
  cases hactive : r.activation with
  | none =>
    rw [closeActivation_none hactive] at h
    cases h
  | some state =>
    rw [closeActivation_some hactive] at h
    rcases List.mem_append.mp h with h | h
    · exact .inl (isInjection_reconcileHeld h)
    · exact .inr ⟨_, List.mem_singleton.mp h⟩

theorem quiet_closeActivation (r : Receiver) (reason : SessionCloseReason) : Quiet (r.closeActivation reason).1 := by
  intro effect hmem session
  rcases mem_closeActivation hmem with hinjection | ⟨_, rfl⟩
  · refine ⟨?_, ?_⟩
    · rintro _ rfl
      cases hinjection
    · rintro rfl
      cases hinjection
  · exact ⟨by simp, by simp⟩

theorem quiet_accepting (r : Receiver) (message : ReliableControlMessage)
    (now : MonotonicTimeMicros) (state : ActivationState) (delta : Option MotionDelta) :
    Quiet (r.accepting message now state delta).1 := by
  intro effect hmem session
  rcases effects_acceptState hmem with hinjection | ⟨_, _, rfl⟩
  · refine ⟨?_, ?_⟩
    · rintro _ rfl
      cases hinjection
    · rintro rfl
      cases hinjection
  · exact ⟨by simp, by simp⟩

/-- Which of its three ways a control message's answer goes. -/
theorem kind_controlled {message : ReliableControlMessage} {now : MonotonicTimeMicros}
    {r r' : Receiver} {effects : List ReceiverEffect} (h : Controlled message now r effects r') :
    (∃ session reason, .rejected session reason ∈ effects) ∨ Quiet effects ∨
      (∀ session reason, .rejected session reason ∉ effects) ∧ (∃ opened, .activationOpened opened ∈ effects) ∧
        r'.activeContext = some message.session := by
  cases h with
  | refused reason => exact .inl ⟨_, reason, List.mem_singleton_self _⟩
  | late reason => exact .inl ⟨_, reason, List.mem_append_right _ (List.mem_singleton_self _)⟩
  | opened reason =>
    refine .inr (.inr ⟨?_, ⟨message.session, by simp⟩, rfl⟩)
    intro session other hmem
    rcases List.mem_append.mp hmem with hmem | hmem
    · exact (quiet_closeActivation _ _ _ hmem session).1 other rfl
    · cases List.mem_singleton.mp hmem
  | overflowed => exact .inr (.inl (quiet_closeActivation _ _))
  | ended =>
    exact .inr (.inl ((quiet_accepting _ _ _ _ _).append (quiet_closeActivation _ _)))
  | accepted => exact .inr (.inl (quiet_accepting _ _ _ _ _))

/-- A refused message leaves the activation, or closes it when its lease has run out. -/
theorem activation_of_rejected {message : ReliableControlMessage} {now : MonotonicTimeMicros}
    {r r' : Receiver} {effects : List ReceiverEffect} (h : Controlled message now r effects r')
    (hrejected : ∃ session reason, .rejected session reason ∈ effects) :
    r'.activation = r.activation ∨ r'.activation = none := by
  obtain ⟨session, reason, hmem⟩ := hrejected
  cases h with
  | refused => exact .inl rfl
  | late => exact .inr rfl
  | opened other =>
    rcases List.mem_append.mp hmem with hmem | hmem
    · exact absurd rfl ((quiet_closeActivation _ _ _ hmem session).1 reason)
    · cases List.mem_singleton.mp hmem
  | overflowed => exact .inr rfl
  | ended => exact .inr rfl
  | accepted => exact absurd rfl ((quiet_accepting _ _ _ _ _ _ hmem session).1 reason)

/-- An accepted message that opens nothing moves the open activation on, or closes it. -/
theorem activation_of_quiet {message : ReliableControlMessage} {now : MonotonicTimeMicros}
    {r r' : Receiver} {effects : List ReceiverEffect}
    (h : Controlled message now r effects r') (hquiet : Quiet effects) :
    r'.activation = none ∨ ∃ state delta, r.activation = some state ∧ Anchored state message.payload delta ∧
      r'.activation = some (r.accepting message now state delta).2 := by
  cases h with
  | refused reason =>
    exact absurd rfl ((hquiet _ (List.mem_singleton_self _) _).1 reason)
  | late => exact .inl rfl
  | opened => exact absurd rfl (hquiet _ (List.mem_append_right _ (List.mem_singleton_self _)) _).2
  | overflowed => exact .inl rfl
  | ended => exact .inl rfl
  | accepted state delta _ active _ _ _ anchored => exact .inr ⟨state, delta, active, anchored, rfl⟩

theorem activation_of_opened {message : ReliableControlMessage} {now : MonotonicTimeMicros}
    {r r' : Receiver} {effects : List ReceiverEffect} (h : Controlled message now r effects r')
    (hopened : ∃ opened, .activationOpened opened ∈ effects) :
    message.payload = .enter ∧ r'.activation = some (entered message now r.config.heldStateLease) := by
  obtain ⟨session, hmem⟩ := hopened
  cases h with
  | refused => cases List.mem_singleton.mp hmem
  | late =>
    rcases List.mem_append.mp hmem with hmem | hmem
    · exact absurd rfl (quiet_closeActivation _ _ _ hmem session).2
    · cases List.mem_singleton.mp hmem
  | opened reason payload => exact ⟨payload, rfl⟩
  | overflowed => exact absurd rfl (quiet_closeActivation _ _ _ hmem session).2
  | ended =>
    refine absurd rfl (Quiet.append ?_ ?_ _ hmem session).2
    · exact quiet_accepting _ _ _ _ _
    · exact quiet_closeActivation _ _
  | accepted => exact absurd rfl (quiet_accepting _ _ _ _ _ _ hmem session).2

/-! ## All or nothing -/

/-- A message that was not refused opened its activation, closed the open one, or is the next of the
open one's stream. -/
def Advances (message : ReliableControlMessage) (effects : List ReceiverEffect) (r r' : Receiver) :
    Prop :=
  (.activationOpened message.session ∈ effects ∧ r'.activeContext = some message.session) ∨
  (∃ state reason, r.activation = some state ∧ r'.activation = none ∧
    .activationClosed state.session reason ∈ effects) ∨
  ∃ state state', r.activation = some state ∧ r'.activation = some state' ∧
    state'.session = state.session ∧ message.sequence = state.lastControlSequence + 1 ∧
    state'.lastControlSequence = message.sequence

theorem mem_closed_closeActivation {r : Receiver} {state : ActivationState}
    (h : r.activation = some state) (reason : SessionCloseReason) :
    .activationClosed state.session reason ∈ (r.closeActivation reason).1 := by
  rw [closeActivation_some h]
  exact List.mem_append_right _ (List.mem_singleton_self _)

theorem accepting_session {r : Receiver} {message : ReliableControlMessage}
    {now : MonotonicTimeMicros} {state : ActivationState} {delta : Option MotionDelta}
    (h : Anchored state message.payload delta) :
    (r.accepting message now state delta).2.session = state.session := by
  rw [accepting, acceptState_state now _ h]
  simp

theorem accepting_sequence {r : Receiver} {message : ReliableControlMessage}
    {now : MonotonicTimeMicros} {state : ActivationState} {delta : Option MotionDelta}
    (h : Anchored state message.payload delta) :
    (r.accepting message now state delta).2.lastControlSequence = message.sequence := by
  rw [accepting, acceptState_state now _ h]
  rfl

/-- **The ordering checks refuse and change nothing, or refuse nothing.** -/
theorem order_atomic (message : ReliableControlMessage) (now : MonotonicTimeMicros) (r : Receiver) :
    (∃ reason, r.orderControl message now = ([.rejected message.session reason], r)) ∨
    (∀ session reason, .rejected session reason ∉ (r.orderControl message now).1) ∧
      Advances message (r.orderControl message now).1 r (r.orderControl message now).2 := by
  generalize hresult : r.orderControl message now = result
  have hcases := orderControl_cases message now r
  rw [hresult] at hcases
  cases hcases with
  | refused reason => exact .inl ⟨reason, rfl⟩
  | enterRefused reason => exact .inl ⟨reason, rfl⟩
  | opened =>
    refine .inr ⟨?_, .inl ⟨List.mem_append_right _ (List.mem_singleton_self _), rfl⟩⟩
    intro session reason hmem
    rcases List.mem_append.mp hmem with hmem | hmem
    · exact (quiet_closeActivation _ _ _ hmem session).1 reason rfl
    · cases List.mem_singleton.mp hmem
  | overflowed state anchor active =>
    rw [closeActivation_pair]
    refine .inr ⟨?_, .inr (.inl ⟨state, _, active, rfl, mem_closed_closeActivation active _⟩)⟩
    intro session reason hmem
    exact (quiet_closeActivation _ _ _ hmem session).1 reason rfl
  | accepted state delta active same next valid anchored =>
    have hquiet := quiet_accepting r message now state delta
    rcases acceptControl_eq now delta r valid with ⟨reason, final, -, heq⟩ | ⟨-, heq⟩
    · rw [heq]
      refine .inr ⟨?_, .inr (.inl ⟨state, reason, active, rfl, List.mem_append_right _ ?_⟩)⟩
      · intro session other hmem
        exact (hquiet.append (quiet_closeActivation _ _) _ hmem session).1 other rfl
      · have hsession : (r.accepting message now state delta).2.session = state.session :=
          accepting_session anchored
        rw [← hsession]
        exact mem_closed_closeActivation rfl reason
    · rw [heq]
      refine .inr ⟨fun session reason hmem => (hquiet _ hmem session).1 reason rfl, ?_⟩
      exact .inr (.inr ⟨state, _, active, rfl, accepting_session anchored, next, accepting_sequence anchored⟩)

/-- **A control message is taken whole or not at all.** While the lease lasts, a refusal is the only
effect and leaves the activation as it was; any other answer opened it, closed it or moved it on by one.
What the message itself does, once the lease has been looked at, never both refuses and injects. -/
theorem control_atomic {message : ReliableControlMessage} {now : MonotonicTimeMicros}
    {effects : List ReceiverEffect} {r r' : Receiver} (h : receiveControl message now r = (.ok effects, r')) :
    (¬ r.Expired now → (∀ session reason, .rejected session reason ∈ effects →
        effects = [.rejected session reason] ∧ r'.activation = r.activation) ∧
      ((∀ session reason, .rejected session reason ∉ effects) → Advances message effects r r')) ∧
    ∃ own, effects = (r.expireLease now).1 ++ own ∧
      ∀ session reason, .rejected session reason ∈ own → ∀ effect ∈ own, effect.isInjection = false := by
  rcases receiveControl_cases message now r with ⟨-, hcall⟩ | ⟨-, -, hcall⟩ | ⟨-, -, hcall⟩
  · cases hcall.symm.trans h
  · cases hcall.symm.trans h
  obtain ⟨rfl, rfl⟩ : _ = effects ∧ _ = r' := by
    have heq := hcall.symm.trans h
    simpa using heq
  constructor
  · intro hlive
    have hlive' : ¬ (r.pinned message.session now).Expired now := hlive
    simp only [andAlso, expireLease_of_live hlive', List.nil_append]
    rcases order_atomic message now (r.pinned message.session now) with
      ⟨reason, hrefused⟩ | ⟨hnone, hadvances⟩
    · rw [hrefused]
      refine ⟨?_, fun hnone => absurd (List.mem_singleton_self _) (hnone _ _)⟩
      intro session other hmem
      cases List.mem_singleton.mp hmem
      exact ⟨rfl, rfl⟩
    · exact ⟨fun session reason hmem => absurd hmem (hnone session reason), fun _ => hadvances⟩
  · have hpinned : (r.expireLease now).1 = ((r.pinned message.session now).expireLease now).1 :=
      expireLease_effects (show r.activation = (r.pinned message.session now).activation from rfl) now
    rw [hpinned]
    refine ⟨_, rfl, ?_⟩
    intro session reason hmem effect heffect
    rcases order_atomic message now ((r.pinned message.session now).expireLease now).2 with
      ⟨other, hrefused⟩ | ⟨hnone, -⟩
    · rw [hrefused] at heffect
      cases List.mem_singleton.mp heffect
      rfl
    · exact absurd hmem (hnone session reason)

/-- What the sample run leaves: a key held, and a message of its stream to come. -/
def sampleHolding : Receiver := (sampleReceiver.runCalls sampleCalls).2

/-- The release of a key that is up is refused, and changes nothing. -/
theorem control_atomic_refused :
    let refused := receiveControl (sampleControl 3 (.keyUp (.keyboard 5))) 30 sampleHolding
    refused.1 = .ok [.rejected sampleSession .invalidTransition] ∧
      refused.2.activation = sampleHolding.activation := by
  intro refused
  have heffects : refused.1 = .ok [.rejected sampleSession .invalidTransition] := by decide +kernel
  have hlive : ¬ sampleHolding.Expired 30 := by
    rintro ⟨deadline, hd, hle⟩
    have hlease : sampleHolding.leaseDeadline = some 200020 := by decide +kernel
    cases hlease.symm.trans hd
    exact absurd hle (by decide)
  have hatomic := (control_atomic (Prod.ext heffects rfl)).1 hlive
  exact ⟨heffects, (hatomic.1 _ _ (List.mem_singleton_self _)).2⟩

end Receiver

end Zflow.Core
