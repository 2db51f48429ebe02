import Zflow.Laws.Session.Lockstep

/-!
# What the backend is left holding

What a session has handed to its backend is replayed here by the machine of `ReceiverLog`.
`Covered` relates it to what the receiver believes: **everything the backend holds, the receiver
holds**. An answer that is handed over keeps the relation, whatever the backend cannot inject; an
answer that is lost keeps it when it lets go of nothing. So the last release of a session leaves the
backend neutral, unless a step before it was cut short (`Applied.CutsShort`): the two ways in which
`apply_control` loses releases.
-/

namespace Zflow.Session

open Zflow.Core Lib

/-! ## Covering -/

/-- Every element of the first set is in the second, and can be injected. -/
def Among {α : Type} [Ord α] [Std.TransOrd α] (supports : α → Bool)
    (backend held : Std.ExtTreeSet α) : Prop := ∀ x ∈ backend, x ∈ held ∧ supports x = true

section

variable {α : Type} [Ord α] [Std.TransOrd α] [Std.LawfulEqOrd α] {supports : α → Bool}
  {backend held : Std.ExtTreeSet α}

theorem Among.insert (h : Among supports backend held) (x : α) :
    Among supports (if supports x then backend.insert x else backend) (held.insert x) := by
  intro y hy
  rw [Std.ExtTreeSet.mem_insert, Std.compare_eq_iff_eq]
  by_cases hx : supports x = true
  · rw [if_pos hx, Std.ExtTreeSet.mem_insert, Std.compare_eq_iff_eq] at hy
    rcases hy with rfl | hy
    · exact ⟨.inl rfl, hx⟩
    · exact ⟨.inr (h y hy).1, (h y hy).2⟩
  · rw [if_neg hx] at hy
    exact ⟨.inr (h y hy).1, (h y hy).2⟩

theorem Among.erase (h : Among supports backend held) (x : α) :
    Among supports (if supports x then backend.erase x else backend) (held.erase x) := by
  intro y hy
  rw [Std.ExtTreeSet.mem_erase, ne_eq, Std.compare_eq_iff_eq]
  by_cases hx : supports x = true
  · rw [if_pos hx, Std.ExtTreeSet.mem_erase, ne_eq, Std.compare_eq_iff_eq] at hy
    exact ⟨⟨hy.1, (h y hy.2).1⟩, (h y hy.2).2⟩
  · rw [if_neg hx] at hy
    -- what the backend cannot inject it does not hold
    refine ⟨⟨?_, (h y hy).1⟩, (h y hy).2⟩
    rintro rfl
    exact hx (h x hy).2

end

/-- Everything the backend holds, the receiver holds too, and the backend can inject it. -/
structure Covered (env : Environment) (backend held : HeldState) : Prop where
  keys : Among env.supportsKey backend.pressedKeys held.pressedKeys
  buttons : Among env.supportsButton backend.pressedButtons held.pressedButtons
  touch : backend.activeTouch ≠ ∅ → held.activeTouch ≠ ∅ ∧ env.supportsTouch = true

theorem covered_neutral (env : Environment) (held : HeldState) : Covered env .neutral held where
  keys key h := by simp [HeldState.neutral] at h
  buttons button h := by simp [HeldState.neutral] at h
  touch h := absurd rfl h

/-- What covers nothing holds nothing. -/
theorem Covered.eq_neutral {env : Environment} {backend : HeldState}
    (h : Covered env backend .neutral) : backend = .neutral := by
  obtain ⟨keys, buttons, touch⟩ := backend
  have hkeys : keys = ∅ := by
    refine Std.ExtTreeSet.ext_mem fun key => ⟨fun hmem => ?_, fun hmem => by simp at hmem⟩
    exact (h.keys key hmem).1
  have hbuttons : buttons = ∅ := by
    refine Std.ExtTreeSet.ext_mem fun button => ⟨fun hmem => ?_, fun hmem => by simp at hmem⟩
    exact (h.buttons button hmem).1
  have htouch : touch = ∅ := by
    by_contra hne
    exact (h.touch hne).1 rfl
  rw [hkeys, hbuttons, htouch]
  rfl

/-- Between the two something is let go. -/
def LetsGo (held after : HeldState) : Prop :=
  (∃ key ∈ held.pressedKeys, key ∉ after.pressedKeys) ∨
    (∃ button ∈ held.pressedButtons, button ∉ after.pressedButtons) ∨
    held.activeTouch ≠ ∅ ∧ after.activeTouch = ∅

/-- Where nothing is let go, what was covered stays covered. -/
theorem Covered.keep {env : Environment} {backend held after : HeldState}
    (h : Covered env backend held) (hkeeps : ¬ LetsGo held after) : Covered env backend after where
  keys key hmem := by
    obtain ⟨hheld, hsupported⟩ := h.keys key hmem
    refine ⟨?_, hsupported⟩
    by_contra hgone
    exact hkeeps (.inl ⟨key, hheld, hgone⟩)
  buttons button hmem := by
    obtain ⟨hheld, hsupported⟩ := h.buttons button hmem
    refine ⟨?_, hsupported⟩
    by_contra hgone
    exact hkeeps (.inr (.inl ⟨button, hheld, hgone⟩))
  touch hne := by
    obtain ⟨hheld, hsupported⟩ := h.touch hne
    exact ⟨fun hgone => hkeeps (.inr (.inr ⟨hheld, hgone⟩)), hsupported⟩

/-- **One effect** reaches the receiver's side, and the backend's if the backend can inject it. -/
theorem covered_apply (env : Environment) {b r : Backend} (effect : ReceiverEffect) (h : Covered env b.held r.held) :
    Covered env (if env.toBackend effect then b.apply effect else b).held (r.apply effect).held := by
  cases effect with
  | key key pressed synthetic =>
    have hset : Among env.supportsKey
        (if env.supportsKey key then (b.apply (.key key pressed synthetic)).held.pressedKeys
          else b.held.pressedKeys) (r.apply (.key key pressed synthetic)).held.pressedKeys := by
      cases pressed
      · exact h.keys.erase key
      · exact h.keys.insert key
    unfold Environment.toBackend Environment.backendSupports
    cases pressed <;> cases hs : env.supportsKey key <;> simp only [hs, if_true] at hset ⊢ <;>
      exact ⟨hset, h.buttons, h.touch⟩
  | button button pressed synthetic =>
    have hset : Among env.supportsButton (if env.supportsButton button then
          (b.apply (.button button pressed synthetic)).held.pressedButtons
        else b.held.pressedButtons)
        (r.apply (.button button pressed synthetic)).held.pressedButtons := by
      cases pressed
      · exact h.buttons.erase button
      · exact h.buttons.insert button
    unfold Environment.toBackend Environment.backendSupports
    cases pressed <;> cases hs : env.supportsButton button <;> simp only [hs, if_true] at hset ⊢ <;>
      exact ⟨h.keys, hset, h.touch⟩
  | touchReplaced touch synthetic =>
    unfold Environment.toBackend Environment.backendSupports
    cases hs : env.supportsTouch with
    | true => exact ⟨h.keys, h.buttons, fun hne => ⟨hne, hs⟩⟩
    | false =>
      refine ⟨h.keys, h.buttons, fun hne => ?_⟩
      have hsupported := (h.touch hne).2
      rw [hs] at hsupported
      cases hsupported
  | _ => exact ⟨h.keys, h.buttons, h.touch⟩

/-- **A batch** that is handed over keeps the cover. -/
theorem covered_run (env : Environment) (effects : List ReceiverEffect) {b r : Backend}
    (h : Covered env b.held r.held) : Covered env (Backend.machine.run b (env.backendOf effects)).held
      (Backend.machine.run r effects).held := by
  induction effects generalizing b r with
  | nil => exact h
  | cons effect rest ih =>
    have hstep := covered_apply env effect h
    unfold Environment.backendOf
    rw [List.filter_cons]
    by_cases hgoes : env.toBackend effect = true
    · rw [if_pos hgoes] at hstep ⊢
      exact ih hstep
    · rw [if_neg hgoes] at hstep ⊢
      exact ih hstep

/-- **The answers of a receiver keep the cover** from what it held to what it holds. -/
theorem covered_of_logs {env : Environment} {b : Backend} {before after : Option ActivationState}
    {effects : List ReceiverEffect} (hlogs : Logs before effects after) (h : Covered env b.held (heldBy before)) :
    Covered env (Backend.machine.run b (env.backendOf effects)).held (heldBy after) := by
  -- a backend that stands where the receiver believes it stands
  obtain ⟨r, hr⟩ : ∃ r : Backend, r.Shows before := by
    cases before with
    | none => exact ⟨⟨.neutral, 0⟩, rfl, fun _ h => by cases h⟩
    | some state =>
      refine ⟨⟨state.held, state.injectedTotals.displacement⟩, rfl, ?_⟩
      rintro _ ⟨⟩
      rfl
  have hafter := (hlogs r hr).2.1
  rw [← hr.1] at h
  rw [← hafter]
  exact covered_run env effects h

/-! ## Cutting an answer short -/

variable {F C : Type}

/-- What a control message the receiver takes leaves held: nothing where it ends the activation. -/
def heldAfterControl (state : ActivationState) (payload : ReliableControl) : HeldState :=
  match payload with
  | .sessionClose .. => .neutral
  | _ => Receiver.heldAfter (Receiver.anchoredState state payload).held payload

/-- **The anchor of a control the receiver takes, which playout cannot follow**: it is behind the
playout's target, or too far from what was injected (and then it closes the activation). Something
that was held is let go by it. -/
def Unfollowable (state : ActivationState) (p : ReceiverPlayout F)
    (message : ReliableControlMessage) : Prop :=
  state.session.activationId = message.session.activationId ∧
  message.sequence = state.lastControlSequence + 1 ∧
  Receiver.validateTransition state message.payload = true ∧
  ∃ anchor, message.payload.motionAnchor = some anchor ∧
    anchor.activationId = state.session.activationId ∧
    state.lastInjectedMotion ≤ anchor.throughMotionSequence ∧
    ((∃ d, anchor.totals.checkedDeltaFrom state.injectedTotals = .ok d) ∧
        anchor.throughMotionSequence < p.target.sequence ∧
        LetsGo state.held (heldAfterControl state message.payload) ∨
      (∀ d, anchor.totals.checkedDeltaFrom state.injectedTotals ≠ .ok d) ∧
        LetsGo state.held .neutral)

/-- **A control whose answer is cut short**: the lease has run out and the message is an `Enter` for a
new activation that is not the first of its stream, or the lease is live and the playout cannot follow
the message. -/
def Applied.CutsShort (a : Applied F) : Prop :=
  (a.before.Expired a.now ∧ a.before.Misnumbered a.message) ∨
    (¬ a.before.Expired a.now ∧ ∃ state p, a.before.activation = some state ∧ a.playout = some p ∧
      Unfollowable state p a.message)

/-- What the backend holds, of everything that was handed to it. -/
def delivered (i : Inbound F C) : HeldState :=
  (Backend.machine.run .neutral i.handed.flatten).held

/-- No control so far was cut short. -/
def Whole (i : Inbound F C) : Prop := ∀ a ∈ i.applied, ¬ a.CutsShort

/-- The receiver covers the backend, as long as no control is cut short. -/
def Covers (env : Environment) (i : Inbound F C) : Prop :=
  Whole i → Covered env (delivered i) (heldBy i.receiver.activation)

/-- What a session keeps at times up to `bound`. -/
structure Covering [F64 F] (env : Environment) (bound : MonotonicTimeMicros) (i : Inbound F C) :
    Prop where
  /-- A playout can be made for any session once one was made. -/
  begun : i.playout ≠ none → ∀ session, ∃ p, ReceiverPlayout.new i.playoutConfig session = .ok p
  observed : i.receiver.lastObservedTime ≤ bound
  covers : Covers env i

/-- What a session that stops keeps. -/
def Closable (env : Environment) (bound : MonotonicTimeMicros) (_ : InboundError)
    (i : Inbound F C) : Prop := i.receiver.lastObservedTime ≤ bound ∧ Covers env i

/-- What was handed over with a batch on top. -/
theorem delivered_batches (env : Environment) (i i' : Inbound F C) (effects : List ReceiverEffect)
    (h : i'.handed = i.handed ++ env.batchesOf effects) :
    delivered i' = (Backend.machine.run (Backend.machine.run .neutral i.handed.flatten)
      (env.backendOf effects)).held := by
  unfold delivered
  rw [h, List.flatten_append, Replay.run_append]
  unfold Environment.batchesOf
  by_cases hbatch : env.backendOf effects ≠ []
  · rw [if_pos hbatch]
    simp
  · rw [if_neg hbatch, not_not.mp hbatch]
    rfl

variable [F64 F]

/-- **Handing over an answer keeps the cover.** `i` has the answer on record, and `before` is what was
open when the message came. -/
theorem emit_covering {env : Environment} {bound : MonotonicTimeMicros}
    {effects : List ReceiverEffect} {i : Inbound F C} {before : Option ActivationState}
    (hbegun : i.playout ≠ none → ∀ session, ∃ p, ReceiverPlayout.new i.playoutConfig session = .ok p)
    (hobserved : i.receiver.lastObservedTime ≤ bound)
    (hcovered : Whole i → Covered env (delivered i) (heldBy before))
    (hlogs : Logs before effects i.receiver.activation)
    (hfatal : Fatal effects → Whole i → heldBy i.receiver.activation = heldBy before) :
    Act.Triple (· = i) (Inbound.emit env effects) (fun _ => Covering env bound) (Closable env bound) := by
  -- what is handed over, whatever comes of it
  have hhanded : ∀ i', Inbound.Answering { i with handed := i.handed ++ env.batchesOf effects } i' →
      Covers env i' := by
    rintro i' ⟨replies, sequence, rfl⟩ hwhole
    rw [delivered_batches env i _ effects rfl]
    exact covered_of_logs hlogs (hcovered hwhole)
  refine Inbound.emit_triple env effects i ?_ ?_ ?_
  · refine fun h => ⟨hobserved, fun hwhole => ?_⟩
    rw [hfatal h hwhole]
    exact hcovered hwhole
  · rintro i' - hanswering
    have hcovers := hhanded i' hanswering
    obtain ⟨replies, sequence, rfl⟩ := hanswering
    exact ⟨hbegun, hobserved, hcovers⟩
  · rintro e i' - - hanswering
    have hcovers := hhanded i' hanswering
    obtain ⟨replies, sequence, rfl⟩ := hanswering
    exact ⟨hobserved, hcovers⟩

/-! ## The methods -/

/-- The log of a call that is answered. -/
theorem logs_of_call {c : ReceiverCall} {effects : List ReceiverEffect} {r r' : Receiver}
    (h : Receiver.call c r = (.ok effects, r')) : Logs r.activation effects r'.activation := by
  have hemit : r.emit c = (effects, r') := by
    unfold Receiver.emit
    rw [h]
  have hlogs := logs_callRule.emit r c
  rw [hemit] at hlogs
  exact hlogs

theorem observed_controlled {message : ReliableControlMessage} {now : MonotonicTimeMicros}
    {r r' : Receiver} {effects : List ReceiverEffect}
    (h : Receiver.Controlled message now r effects r') : r'.lastObservedTime = now := by
  cases h <;> rfl

theorem not_fatal_of_quiet {effects : List ReceiverEffect} (h : Receiver.Quiet effects) :
    ¬ Fatal effects := by
  rintro ⟨session, reason, hmem, -⟩
  exact (h _ hmem session).1 reason rfl

/-- A fatal rejection finds the activation as it was, unless the lease had run out. -/
theorem activation_of_fatal {message : ReliableControlMessage} {now : MonotonicTimeMicros}
    {r r' : Receiver} {effects : List ReceiverEffect}
    (h : Receiver.Controlled message now r effects r') (hfatal : Fatal effects) :
    r'.activation = r.activation ∨ r.Expired now ∧ r.Misnumbered message := by
  obtain ⟨session, reason, hmem, hreason⟩ := hfatal
  cases h with
  | refused => exact .inl rfl
  | late other expired kind =>
    rcases List.mem_append.mp hmem with hmem | hmem
    · exact absurd rfl ((Receiver.quiet_closeActivation _ _ _ hmem session).1 reason)
    · cases List.mem_singleton.mp hmem
      rcases kind with rfl | rfl | rfl | ⟨rfl, hmisnumbered⟩
      · cases hreason
      · cases hreason
      · cases hreason
      · exact .inr ⟨expired, hmisnumbered⟩
  | opened other =>
    rcases List.mem_append.mp hmem with hmem | hmem
    · exact absurd rfl ((Receiver.quiet_closeActivation _ _ _ hmem session).1 reason)
    · cases List.mem_singleton.mp hmem
  | overflowed => exact absurd rfl ((Receiver.quiet_closeActivation _ _ _ hmem session).1 reason)
  | ended =>
    refine absurd rfl ((Receiver.Quiet.append ?_ ?_ _ hmem session).1 reason)
    · exact Receiver.quiet_accepting _ _ _ _ _
    · exact Receiver.quiet_closeActivation _ _
  | accepted => exact absurd rfl ((Receiver.quiet_accepting _ _ _ _ _ _ hmem session).1 reason)

/-- Playout follows a message that is next in order, unless its anchor stops it. -/
theorem anchor_of_not_followed {message : ReliableControlMessage} {state : ActivationState}
    {p : ReceiverPlayout F} (hmatches : Matches state p) (next : message.sequence = state.lastControlSequence + 1)
    (hfails : ∀ p', follow message p ≠ (.ok (), p')) :
    ∃ anchor, message.payload.motionAnchor = some anchor ∧
      ((∃ d, anchor.totals.checkedDeltaFrom state.injectedTotals = .ok d) →
        anchor.throughMotionSequence < p.target.sequence) := by
  have hwatermark : p.appliedControlSequence ≤ message.sequence := by
    rw [next]
    exact Nat.le_succ_of_le hmatches.watermark
  cases hanchor : message.payload.motionAnchor with
  | none => exact absurd (follow_of_none hwatermark hanchor) (hfails _)
  | some anchor =>
    refine ⟨anchor, rfl, fun hdelta => Nat.lt_of_not_le fun hle => ?_⟩
    rw [← hmatches.injected] at hdelta
    obtain ⟨p', hfollow⟩ := follow_of_some hwatermark hanchor hle hdelta
    exact hfails p' hfollow

theorem validateAnchor_overflow {state : ActivationState} {anchor : MotionAnchor}
    (h : validateAnchor state anchor = .error .motionOverflow) : anchor.activationId = state.session.activationId ∧
      state.lastInjectedMotion ≤ anchor.throughMotionSequence ∧
      ∀ d, anchor.totals.checkedDeltaFrom state.injectedTotals ≠ .ok d := by
  unfold validateAnchor at h
  split_ifs at h with hid hback
  · cases h
  · cases h
  · refine ⟨not_not.mp hid, Nat.le_of_not_lt hback, fun d hd => ?_⟩
    rw [hd] at h
    cases h

/-- A good anchor is of the activation, not behind it, and in range of it. -/
theorem anchored_some {state : ActivationState} {payload : ReliableControl}
    {delta : Option MotionDelta} {anchor : MotionAnchor}
    (h : Receiver.Anchored state payload delta) (hanchor : payload.motionAnchor = some anchor) :
    anchor.activationId = state.session.activationId ∧ state.lastInjectedMotion ≤ anchor.throughMotionSequence ∧
      ∃ d, anchor.totals.checkedDeltaFrom state.injectedTotals = .ok d := by
  rcases h with ⟨hnone, -⟩ | ⟨other, d, hsome, -, hvalid⟩
  · rw [hanchor] at hnone
    cases hnone
  · obtain rfl := Option.some.inj (hanchor.symm.trans hsome)
    obtain ⟨hid, hle, hdelta⟩ := Receiver.validateAnchor_eq_ok.mp hvalid
    exact ⟨hid, hle, d, hdelta⟩

/-- **An answer that the playout cannot follow, and that lets go of something, is cut short.** -/
theorem cutsShort_of_not_followed {i : Inbound F C} {message : ReliableControlMessage}
    {now : MonotonicTimeMicros} {effects : List ReceiverEffect} {r : Receiver}
    {p : ReceiverPlayout F} (hlockstep : Lockstep i)
    (hctl : Receiver.Controlled message now i.receiver effects r)
    (hquiet : Receiver.Quiet effects) (hplayout : i.playout = some p)
    (hfails : ∀ p', follow message p ≠ (.ok (), p'))
    (hgoes : LetsGo (heldBy i.receiver.activation) (heldBy r.activation)) :
    Applied.CutsShort ⟨message, now, i.receiver, i.playout, effects, r⟩ := by
  have hmatches : ∀ state, i.receiver.activation = some state → Matches state p := by
    intro state active
    obtain ⟨q, hq, h⟩ := hlockstep.matched state active
    exact Option.some.inj (hplayout.symm.trans hq) ▸ h
  cases hctl with
  | refused reason => exact absurd rfl ((hquiet _ (List.mem_singleton_self _) _).1 reason)
  | late reason =>
    exact absurd rfl ((hquiet _ (List.mem_append_right _ (List.mem_singleton_self _)) _).1 reason)
  | opened =>
    exact absurd rfl (hquiet _ (List.mem_append_right _ (List.mem_singleton_self _)) _).2
  | overflowed state anchor live active same next valid carries overflow =>
    obtain ⟨hid, hle, hover⟩ := validateAnchor_overflow overflow
    rw [active] at hgoes
    refine .inr ⟨live, state, p, active, hplayout, same, next, valid, anchor, carries, hid, hle, ?_⟩
    exact .inr ⟨hover, hgoes⟩
  | ended state delta reason final live active same next valid anchored close =>
    obtain ⟨anchor, hanchor, hbehind⟩ := anchor_of_not_followed (hmatches state active) next hfails
    obtain ⟨hid, hle, hdelta⟩ := anchored_some anchored hanchor
    rw [active] at hgoes
    refine .inr ⟨live, state, p, active, hplayout, same, next, valid, anchor, hanchor, hid, hle, ?_⟩
    refine .inl ⟨hdelta, hbehind hdelta, ?_⟩
    rw [close]
    exact hgoes
  | accepted state delta live active same next valid anchored goes =>
    obtain ⟨anchor, hanchor, hbehind⟩ := anchor_of_not_followed (hmatches state active) next hfails
    obtain ⟨hid, hle, hdelta⟩ := anchored_some anchored hanchor
    rw [active] at hgoes
    refine .inr ⟨live, state, p, active, hplayout, same, next, valid, anchor, hanchor, hid, hle, ?_⟩
    refine .inl ⟨hdelta, hbehind hdelta, ?_⟩
    have hheld : (i.receiver.accepting message now state delta).2.held =
        heldAfterControl state message.payload := by
      have hstate := Receiver.acceptState_state now i.receiver.config.heldStateLease anchored
      unfold Receiver.accepting heldAfterControl
      rw [hstate]
      cases hpayload : message.payload with
      | sessionClose reason final => exact absurd hpayload (goes reason final)
      | _ => rfl
    rw [← hheld]
    exact hgoes

/-- Whether a playout can be made does not depend on the session. -/
theorem new_any {config : PlayoutConfig F} {session : SessionContext} {p : ReceiverPlayout F}
    (h : ReceiverPlayout.new config session = .ok p) (other : SessionContext) :
    ∃ p', ReceiverPlayout.new config other = .ok p' := by
  obtain ⟨hvalid, minimum, hminimum, -⟩ := ReceiverPlayout.new_eq_ok.mp h
  exact ⟨_, ReceiverPlayout.new_eq_ok.mpr ⟨hvalid, minimum, hminimum, rfl⟩⟩

/-- No playout step is rejected fatally. -/
theorem not_fatal_played {session : SessionContext} {step : PlayoutStep} {r r' : Receiver}
    {effects : List ReceiverEffect} (h : Receiver.Played session step r (effects, r')) :
    ¬ Fatal effects ∧ r'.lastObservedTime = r.lastObservedTime := by
  generalize hresult : (effects, r') = result at h
  cases h with
  | refused reason kind =>
    obtain ⟨rfl, rfl⟩ := Prod.mk.inj hresult
    refine ⟨?_, rfl⟩
    rintro ⟨s, other, hmem, hfatal⟩
    cases List.mem_singleton.mp hmem
    rcases kind with ⟨rfl, -⟩ | ⟨rfl, -⟩ | ⟨rfl, -⟩ | ⟨rfl, -⟩ <;> cases hfatal
  | violated state =>
    rw [Receiver.closeActivation_pair] at hresult
    obtain ⟨rfl, rfl⟩ := Prod.mk.inj hresult
    exact ⟨not_fatal_of_quiet (Receiver.quiet_closeActivation _ _), rfl⟩
  | overflowed state =>
    rw [Receiver.closeActivation_pair] at hresult
    obtain ⟨rfl, rfl⟩ := Prod.mk.inj hresult
    exact ⟨not_fatal_of_quiet (Receiver.quiet_closeActivation _ _), rfl⟩
  | played state totals =>
    obtain ⟨rfl, rfl⟩ := Prod.mk.inj hresult
    refine ⟨?_, rfl⟩
    rintro ⟨s, other, hmem, -⟩
    have hinjection := Receiver.effects_playState hmem
    cases hinjection

/-- **A method of the playout keeps the cover.** -/
theorem onPlayout_covering {α : Type} (env : Environment) {bound : MonotonicTimeMicros}
    {p : ReceiverPlayout F} {x : Act PlayoutError (ReceiverPlayout F) α} :
    Act.Triple (fun i : Inbound F C => Covering env bound i ∧ i.playout = some p)
      (Inbound.onPlayout p x) (fun _ => Covering env bound) (Closable env bound) := by
  refine Inbound.onPlayout_triple ?_ ?_
  · rintro i a p' ⟨hi, hplayout⟩ -
    refine ⟨fun _ => hi.begun ?_, hi.observed, hi.covers⟩
    rw [hplayout]
    exact Option.some_ne_none p
  · rintro i e p' ⟨hi, -⟩ -
    exact ⟨hi.observed, hi.covers⟩

/-- **A poll keeps the cover.** -/
theorem pollPlayout_covering (env : Environment) {bound now : MonotonicTimeMicros} (hnow : now ≤ bound) :
    Act.Triple (Covering (F := F) (C := C) env bound) (Inbound.pollPlayout env now)
      (fun _ => Covering env bound) (Closable env bound) := by
  intro i hi
  rcases Inbound.pollPlayout_cases env now i with ⟨-, hrun⟩ | ⟨p, p', result, hplayout, -, hcases⟩
  · rw [hrun]
    exact hi
  have hbegun : ∀ session, ∃ p, ReceiverPlayout.new i.playoutConfig session = .ok p := by
    refine hi.begun ?_
    rw [hplayout]
    exact Option.some_ne_none p
  rcases hcases with ⟨e, -, hrun⟩ | ⟨-, hrun⟩ | ⟨step, effects, r, -, hstep, hrun⟩
  · rw [hrun]
    exact ⟨hi.observed, hi.covers⟩
  · rw [hrun]
    exact ⟨fun _ => hbegun, hi.observed, hi.covers⟩
  · rw [hrun]
    have hlogs := logs_of_call (c := .receivePlayoutStep p.session step now) hstep
    have hmild : ¬ Fatal effects ∧ r.lastObservedTime = now := by
      rcases Receiver.receivePlayoutStep_ok hstep with ⟨-, hplayed⟩ | ⟨rest, rfl, hplayed⟩
      · exact not_fatal_played hplayed
      · obtain ⟨hrest, hobserved⟩ := not_fatal_played hplayed
        refine ⟨?_, hobserved⟩
        rintro ⟨session, reason, hmem, hfatal⟩
        rcases List.mem_append.mp hmem with hmem | hmem
        · exact (Receiver.quiet_closeActivation _ _ _ hmem session).1 reason rfl
        · exact hrest ⟨session, reason, hmem, hfatal⟩
    have hobserved : r.lastObservedTime ≤ bound := hmild.2 ▸ hnow
    have hemit := emit_covering (i := { i with playout := some p', receiver := r, effects := i.effects ++ effects })
      (fun _ => hbegun) hobserved hi.covers hlogs fun hfatal _ => absurd hfatal hmild.1
    exact hemit _ rfl

/-- The receiver closes what is open, or its lease does: nothing of it is fatal. -/
theorem not_fatal_expireLease (r : Receiver) (now : MonotonicTimeMicros) : ¬ Fatal (r.expireLease now).1 := by
  by_cases hexp : r.Expired now
  · rw [Receiver.expireLease_of_expired hexp]
    exact not_fatal_of_quiet (Receiver.quiet_closeActivation _ _)
  · rw [Receiver.expireLease_of_live hexp]
    rintro ⟨_, _, hmem, -⟩
    cases hmem

/-- **The end of a lease keeps the cover.** -/
theorem expire_covering (env : Environment) {bound now : MonotonicTimeMicros} (hnow : now ≤ bound) :
    Act.Triple (Covering (F := F) (C := C) env bound) (Inbound.onReceiver (Receiver.tick now) >>= Inbound.emit env)
      (fun _ => Covering env bound) (Closable env bound) := by
  intro i hi
  rcases Receiver.tick_cases now i.receiver with ⟨-, hcall⟩ | ⟨-, hcall⟩
  · rw [Act.bind_of_error (Inbound.onReceiver_error hcall)]
    exact ⟨hi.observed, hi.covers⟩
  · rw [Act.bind_of_ok (Inbound.onReceiver_ok hcall)]
    have hmild := not_fatal_expireLease (i.receiver.observed now) now
    have hlogs := logs_of_call (c := .tick now) hcall
    have hobserved : ((i.receiver.observed now).expireLease now).2.lastObservedTime ≤ bound := by
      by_cases hexp : (i.receiver.observed now).Expired now
      · rw [Receiver.expireLease_of_expired hexp, Receiver.closeActivation_activation]
        exact hnow
      · rw [Receiver.expireLease_of_live hexp]
        exact hnow
    generalize (i.receiver.observed now).expireLease now = result at hlogs hobserved hmild
    obtain ⟨effects, r⟩ := result
    have hemit := emit_covering (i := { i with receiver := r, effects := i.effects ++ effects })
      hi.begun hobserved hi.covers hlogs fun hfatal _ => absurd hfatal hmild
    exact hemit _ rfl

omit [F64 F] in
/-- **The close of a session** hands over everything the receiver holds. -/
theorem close_neutral {env : Environment} {bound : MonotonicTimeMicros} {i : Inbound F C}
    (hobserved : i.receiver.lastObservedTime ≤ bound)
    (hcovered : Covered env (delivered i) (heldBy i.receiver.activation)) :
    delivered (Inbound.close env bound i).2 = .neutral := by
  unfold Inbound.close
  rcases Receiver.connectionLost_cases bound i.receiver with ⟨hlt, -⟩ | ⟨-, hcall⟩
  · exact absurd hobserved (Nat.not_le_of_lt hlt)
  rw [Act.bind_of_ok (Inbound.onReceiver_ok hcall)]
  have hlogs := logs_of_call (c := .connectionLost bound) hcall
  have hmild : ¬ Fatal ((i.receiver.observed bound).closeActivation .leaseExpired).1 :=
    not_fatal_of_quiet (Receiver.quiet_closeActivation _ _)
  have hnone : ((i.receiver.observed bound).closeActivation .leaseExpired).2.activation = none := by
    rw [Receiver.closeActivation_activation]
  rw [hnone] at hlogs
  rcases Inbound.emit_cases env ((i.receiver.observed bound).closeActivation .leaseExpired).1 _ with
    ⟨hfatal, -⟩ | ⟨-, ⟨replies, sequence, hstate⟩, -⟩
  · exact absurd hfatal hmild
  · rw [hstate, delivered_batches env i _ _ rfl]
    exact (covered_of_logs hlogs hcovered).eq_neutral

variable [ClockMapper C]

/-- **A control keeps the cover**, and a stop leaves it. -/
theorem applyControl_covering (env : Environment) {bound now : MonotonicTimeMicros}
    (hclock : ∃ clock, (ClockMapper.new : Except ClockError C) = .ok clock) (hnow : now ≤ bound)
    (message : ReliableControlMessage) :
    Act.Triple (fun i : Inbound F C => Lockstep i ∧ Covering env bound i)
      (Inbound.applyControl env message now) (fun _ => Covering env bound) (Closable env bound) := by
  rintro i ⟨hlockstep, hi⟩
  rcases Inbound.applyControl_cases env message now i with
    ⟨e, r, hne, hr, hrun⟩ | ⟨effects, r, hanswer, hrun⟩
  · rw [hrun]
    rcases hr with rfl | rfl
    · exact ⟨hi.observed, hi.covers⟩
    · exact ⟨hnow, hi.covers⟩
  rw [hrun]
  have hctl := Receiver.receiveControl_ok hanswer
  have hobserved : r.lastObservedTime ≤ bound := observed_controlled hctl ▸ hnow
  have hlogs : Logs i.receiver.activation effects r.activation :=
    logs_of_call (c := .receiveControl message now) hanswer
  have hwhole : Whole (i.answered message now effects r) → Whole i :=
    fun h a hmem => h a (List.mem_append_left _ hmem)
  have hlast : Whole (i.answered message now effects r) →
      ¬ Applied.CutsShort ⟨message, now, i.receiver, i.playout, effects, r⟩ :=
    fun h => h _ (List.mem_append_right _ (List.mem_singleton_self _))
  -- whatever becomes of clock and playout, the answer is handed over
  have hemit : ∀ (clock : C) playout, (playout ≠ none → ∀ session, ∃ p,
      ReceiverPlayout.new i.playoutConfig session = .ok p) →
      Act.Triple (· = { i.answered message now effects r with clock := clock, playout := playout })
        (Inbound.emit env effects) (fun _ => Covering env bound) (Closable env bound) := by
    intro clock playout hbegun
    refine emit_covering hbegun hobserved (fun h => hi.covers (hwhole h)) hlogs ?_
    intro hfatal h
    rcases activation_of_fatal hctl hfatal with hsame | hlate
    · exact congrArg heldBy hsame
    · exact absurd (.inl hlate) (hlast h)
  have hbegun := hi.begun
  refine Inbound.afterControl_triple (i := i.answered message now effects r) ?_ ?_ ?_ ?_ ?_ ?_ ?_ _ rfl
  · exact fun _ => hemit i.clock i.playout hbegun
  · exact fun _ _ => hemit i.clock i.playout hbegun
  · intro hquiet p p' hplayout hfollow
    refine hemit i.clock (some p') fun _ => hbegun ?_
    rw [show i.playout = some p from hplayout]
    exact Option.some_ne_none p
  · rintro hquiet p hplayout hfails e i' - ⟨clock, playout, rfl⟩
    refine ⟨hobserved, fun h => (hi.covers (hwhole h)).keep fun hgoes => hlast h ?_⟩
    exact cutsShort_of_not_followed hlockstep hctl hquiet hplayout hfails hgoes
  · intro session hactive hopened clock p p' hnew hfollow
    exact hemit clock (some p') fun _ => new_any hnew
  · rintro session hactive hopened hwhy e i' - ⟨clock, playout, rfl⟩
    refine ⟨hobserved, fun h => ?_⟩
    have hcovered := hi.covers (hwhole h)
    by_cases hplayout : i.playout = none
    · -- nothing was open before the first playout
      have hnone : i.receiver.activation = none := by
        cases hactive : i.receiver.activation with
        | none => rfl
        | some state =>
          obtain ⟨p, hp, -⟩ := hlockstep.matched state hactive
          exact absurd (hplayout.symm.trans hp) (by simp)
      rw [hnone] at hcovered
      show Covered env (delivered i) _
      rw [hcovered.eq_neutral]
      exact covered_neutral env _
    · exfalso
      obtain ⟨p, hp⟩ := hbegun hplayout session
      obtain ⟨hpayload, -⟩ := Receiver.activation_of_opened hctl hopened
      rcases hwhy with ⟨error, herror⟩ | ⟨error, herror⟩ | ⟨q, hq, hfails⟩
      · obtain ⟨clock, hclock⟩ := hclock
        cases hclock.symm.trans herror
      · cases hp.symm.trans herror
      · obtain ⟨-, minimum, -, rfl⟩ := ReceiverPlayout.new_eq_ok.mp hq
        refine hfails _ (follow_of_none (Nat.zero_le _) ?_)
        rw [hpayload]
        rfl
  · rcases Receiver.kind_controlled hctl with h | h | ⟨h, h', h''⟩
    · exact .inl h
    · exact .inr (.inl h)
    · exact .inr (.inr ⟨h, h', _, h''⟩)

/-- **The cover is kept by every run**, and every stop leaves a session that can be closed. -/
theorem covering_rule (env : Environment) {bound : MonotonicTimeMicros}
    (hclock : ∃ clock, (ClockMapper.new : Except ClockError C) = .ok clock) :
    Inbound.Rule env (· ≤ bound) (fun i : Inbound F C => Lockstep i ∧ Covering env bound i)
      (fun e i => StoppedInOrder e i ∧ Closable env bound e i) where
  aside i i' h hi := by
    refine ⟨(lockstep_rule env).aside i i' h hi.1, ?_, ?_, ?_⟩
    · rw [h.playout, h.config]
      exact hi.2.begun
    · rw [h.receiver]
      exact hi.2.observed
    · have hcovers := hi.2.covers
      unfold Covers Whole delivered at hcovers ⊢
      rw [h.applied, h.handed, h.receiver]
      exact hcovers
  stops e i hne hi := ⟨⟨hne, hi.1.inOrder⟩, hi.2.observed, hi.2.covers⟩
  matched i active hi := (lockstep_rule env).matched i active hi.1
  control message now hnow :=
    ((applyControl_lockstep env message now).and
      (applyControl_covering env hclock hnow message)).pre fun _ hi => ⟨hi.1, hi⟩
  ingest p frame now clock := by
    refine (((lockstep_rule env).ingest p frame now clock).and (onPlayout_covering env)).pre ?_
    exact fun i hi => ⟨⟨hi.1.1, hi.2⟩, hi.1.2, hi.2⟩
  remap p clock := by
    refine (((lockstep_rule env).remap p clock).and (onPlayout_covering env)).pre ?_
    exact fun i hi => ⟨⟨hi.1.1, hi.2⟩, hi.1.2, hi.2⟩
  poll now hnow := (pollPlayout_lockstep env now).and (pollPlayout_covering env hnow)
  expire now hnow := (expire_lockstep env now).and (expire_covering env hnow)

/-- **Every release reaches the backend, unless a control is cut short.** Whatever calls a session
makes, and wherever it stops: if none of the controls it answered was cut short, then replaying
everything that was handed to the backend, its close included, leaves nothing held. -/
theorem releases_reach_backend (env : Environment) (config : ReceiverConfig)
    (playoutConfig : PlayoutConfig F) (start closing : MonotonicTimeMicros) (i : Inbound F C)
    (hnew : Inbound.new config playoutConfig start = .ok i) (calls : List InboundCall)
    (hstart : start ≤ closing) (htimes : ∀ c ∈ calls, c.time ≤ closing)
    (hwhole : ∀ a ∈ (Inbound.runCalls env calls i).2.applied, ¬ a.CutsShort) :
    delivered (Inbound.close env closing (Inbound.runCalls env calls i).2).2 = .neutral := by
  obtain ⟨hreceiver, hclock, -, hplayout, -, -, hhanded, -, -⟩ := Inbound.new_ok hnew
  have hr := (Receiver.new_eq_ok.mp hreceiver).2
  have hcovering : Covering env closing i := by
    refine ⟨fun h => absurd hplayout h, ?_, fun _ => ?_⟩
    · rw [hr]
      exact hstart
    · unfold delivered
      rw [hhanded]
      exact covered_neutral env _
  have hrun := (covering_rule (F := F) (C := C) env ⟨_, hclock⟩).runCalls calls htimes
  have hi := hrun i ⟨lockstep_new hnew, hcovering⟩
  cases hresult : Inbound.runCalls env calls i with
  | mk result i' =>
    rw [hresult] at hi hwhole
    cases result with
    | ok _ => exact close_neutral hi.2.observed (hi.2.covers hwhole)
    | error e => exact close_neutral hi.2.1 (hi.2.2 hwhole)

omit [F64 F] in
/-- A message without an anchor, correctly numbered if it is an `Enter`, is never cut short. -/
theorem not_cutsShort_of_plain {a : Applied F} (hanchor : a.message.payload.motionAnchor = none)
    (hfirst : a.message.payload = .enter → a.message.sequence = 1) : ¬ a.CutsShort := by
  rintro (⟨-, hpayload, hsequence, -⟩ | ⟨-, state, p, -, -, -, -, -, anchor, hsome, -⟩)
  · exact hsequence (hfirst hpayload)
  · rw [hanchor] at hsome
    cases hsome

/-- A key is pressed, and the connection is lost. -/
def heldKeyCalls : List InboundCall :=
  [.receiveControl (sampleControl 1 .enter) 10,
    .receiveControl (sampleControl 2 (.keyDown (.keyboard 4))) 20]

theorem releases_reach_backend_sample : delivered (Inbound.close acceptingEnvironment 30
      (Inbound.runCalls acceptingEnvironment heldKeyCalls sampleInbound).2).2 = .neutral := by
  refine releases_reach_backend acceptingEnvironment sampleConfig samplePlayoutConfig 0 30
    sampleInbound (by decide +kernel) heldKeyCalls (by decide) (by decide) fun a hmem => ?_
  have hplain : ∀ a ∈ (Inbound.runCalls acceptingEnvironment heldKeyCalls sampleInbound).2.applied,
      a.message.payload.motionAnchor = none ∧ (a.message.payload = .enter → a.message.sequence = 1) := by
    decide +kernel
  exact not_cutsShort_of_plain (hplain a hmem).1 (hplain a hmem).2

/-- With the key held, an `Enter` for another activation arrives as the lease runs out. It is not the
first message of its stream. -/
def lateEnterCalls : List InboundCall :=
  heldKeyCalls ++ [.receiveControl ⟨⟨1, 1, 2⟩, 5, .enter⟩ 200020]

/-- With the key held, a snapshot releases it whose anchor is behind the frame playout has taken. -/
def behindAnchorCalls : List InboundCall :=
  heldKeyCalls ++ [.receiveMotion ⟨sampleSession, 2, 1, 20, ⟨100, 0, 0, 0⟩, none⟩ 22, .tick 30 30,
    .receiveControl (sampleControl 3 (.stateSnapshot
      ⟨.neutral, ⟨1, 1, 25, ⟨50, 0, 0, 0⟩, ∅, .checkpoint⟩⟩)) 40]

/-- **Releases that never reach a backend that accepts everything**: the key stays down, after a late
`Enter` and after an anchor that playout cannot follow. -/
theorem releases_lost : (∀ batches, acceptingEnvironment.applies batches = .ok ()) ∧
      HidUsage.keyboard 4 ∈ (delivered (Inbound.close acceptingEnvironment 300000
        (Inbound.runCalls acceptingEnvironment lateEnterCalls sampleInbound).2).2).pressedKeys ∧
      HidUsage.keyboard 4 ∈ (delivered (Inbound.close acceptingEnvironment 300000
        (Inbound.runCalls acceptingEnvironment behindAnchorCalls sampleInbound).2).2).pressedKeys :=
  ⟨fun _ => rfl, by decide +kernel, by decide +kernel⟩

end Zflow.Session
