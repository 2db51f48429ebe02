import Zflow.Laws.Daemon.Routing

/-!
# A closing session's releases reach the devices

A session that has pressed something on the devices, and has not been released since (`pressedBy`),
stays registered under its peer's name until its cleanup has been handed over and applied. That is the
invariant `Tended.holding`; with it no newer session of the peer is heard before, and nothing stays
down after the session has ended (`releases_reach_devices`).

It takes three conditions on a step (`Orderly`). A dial that ends while a session of the peer holds
something must not take its place: `connect` registers the new session at once, and the old one's
cleanup is refused (`dial_strands_keys`). The input thread must take a batch that closes the activation
of a session that holds something. And a session must not stop with something pressed and its
activation already closed.
-/

namespace Zflow.Daemon

open Zflow.Core Lib Linux InputThread

variable {P D : Type}

/-! ## What is pressed -/

/-- Whether something is down after an effect: a close releases everything. -/
def pressedNext (held : Bool) (effect : ReceiverEffect) : Bool :=
  !Computer.isActivationClosed effect && (held || presses effect)

def pressedAfter (held : Bool) (effects : List ReceiverEffect) : Bool :=
  effects.foldl pressedNext held

/-- Whether a session may hold something down after a batch was handed over. Of a batch that was not
applied in full, any press counts and no release. -/
def Delivery.pressed (session : SessionId) (held : Bool) (delivery : Delivery P) : Bool :=
  if delivery.applied then
    if delivery.session = session then pressedAfter held delivery.command.effects
    else held && !delivery.command.effects.any Computer.isActivationClosed
  else held || (delivery.session = session && delivery.command.effects.any presses)

/-- Whether a session's batches pressed something that nothing has released since. -/
def pressedBy (session : SessionId) (log : List (Delivery P)) : Bool :=
  log.foldl (Delivery.pressed session) false

theorem pressedBy_concat (session : SessionId) (log : List (Delivery P)) (delivery : Delivery P) :
    pressedBy session (log ++ [delivery]) = delivery.pressed session (pressedBy session log) := by
  unfold pressedBy
  rw [List.foldl_append]
  rfl

@[simp]
theorem pressedAfter_nil (held : Bool) : pressedAfter held [] = held := rfl

@[simp]
theorem pressedAfter_cons (held : Bool) (effect : ReceiverEffect) (rest : List ReceiverEffect) :
    pressedAfter held (effect :: rest) = pressedAfter (pressedNext held effect) rest := rfl

/-- Only an open activation holds something, so a batch that leaves it closed leaves nothing down. -/
theorem pressedAfter_of_closed {opened after held : Bool} {effects : List ReceiverEffect}
    (h : activationAfter opened effects = some after) (hheld : held = true → opened = true)
    (hafter : after = false) : pressedAfter held effects = false := by
  induction effects generalizing opened held with
  | nil =>
    cases h
    rw [hafter] at hheld
    cases held with
    | false => rfl
    | true => exact absurd (hheld rfl) (by decide)
  | cons effect rest ih =>
    rw [activationAfter_cons] at h
    obtain ⟨next, hnext, hrest⟩ := Option.bind_eq_some_iff.mp h
    rw [pressedAfter_cons]
    apply ih hrest
    intro hdown
    cases next with
    | true => rfl
    | false =>
      cases effect <;> cases opened <;> simp_all [activationNext, pressedNext, Computer.isActivationClosed, presses]

/-- Releases leave down what was down, unless they close. -/
theorem pressedAfter_of_quiet {effects : List ReceiverEffect} (held : Bool)
    (h : ∀ effect ∈ effects, presses effect = false) :
    pressedAfter held effects = (held && !effects.any Computer.isActivationClosed) := by
  induction effects generalizing held with
  | nil => simp
  | cons effect rest ih =>
    rw [pressedAfter_cons, ih _ fun other hmem => h other (List.mem_cons_of_mem _ hmem),
      List.any_cons, pressedNext, h effect List.mem_cons_self]
    cases Computer.isActivationClosed effect <;> simp

/-- After a close it does not matter what was down before. -/
theorem pressedAfter_congr {effects : List ReceiverEffect} (held held' : Bool)
    (h : effects.any Computer.isActivationClosed = true) :
    pressedAfter held effects = pressedAfter held' effects := by
  induction effects generalizing held held' with
  | nil => cases h
  | cons effect rest ih =>
    rw [pressedAfter_cons, pressedAfter_cons]
    cases hclosed : Computer.isActivationClosed effect with
    | true =>
      unfold pressedNext
      rw [hclosed]
      rfl
    | false =>
      apply ih
      rw [List.any_cons, hclosed, Bool.false_or] at h
      exact h

/-- Another session's batch presses nothing for a session. -/
theorem pressed_of_other {session : SessionId} {held : Bool} {delivery : Delivery P}
    (hne : delivery.session ≠ session) (h : delivery.pressed session held = true) :
    held = true := by
  unfold Delivery.pressed at h
  split at h
  · exact (Bool.and_eq_true_iff.mp h).1
  · simpa [hne] using h

/-! ## The devices -/

section Devices

variable [VirtualInput D] [RestingInput D]

open Act

theorem rest_onDevices {x : Act InjectionError D Unit}
    (h : ∀ d : D, RestingInput.atRest d → RestingInput.atRest (x d).2) :
    Triple RestingInput.atRest (onDevices x) (fun _ d => RestingInput.atRest d)
      (fun _ d => RestingInput.atRest d) := by
  apply Triple.on
  · intro d a d' hd hx
    rw [← show (x d).2 = d' from congrArg Prod.snd hx]
    exact h d hd
  · intro d e d' hd hx
    rw [← show (x d).2 = d' from congrArg Prod.snd hx]
    exact h d hd

theorem rest_releaseDevices : Triple RestingInput.atRest (releaseDevices (D := D))
    (fun _ d => RestingInput.atRest d) (fun _ d => RestingInput.atRest d) := by
  intro d hd
  have hrest := RestingInput.releaseAll d hd
  unfold releaseDevices
  cases (VirtualInput.releaseAll d).1 <;> exact hrest

/-- An effect that presses nothing keeps devices at rest, whether it is applied or not. -/
theorem applyReceiverEffect_rest {effect : ReceiverEffect} (touchCapturedAt : CapturedAt)
    (keyboard : KeyboardMode) (hquiet : presses effect = false) :
    Triple RestingInput.atRest (applyReceiverEffect (D := D) effect touchCapturedAt keyboard)
      (fun _ d => RestingInput.atRest d) (fun _ d => RestingInput.atRest d) := by
  apply Triple.bind (Q := fun _ d => RestingInput.atRest d)
  · intro d hd
    unfold preparePointer
    match pointerUse d effect with
    | some (true, busy) => exact rest_onDevices (fun d => RestingInput.keyboardPointer d busy) d hd
    | some (false, busy) => exact RestingInput.keyboardPointerReleased d busy hd
    | none => exact hd
  · intro _
    unfold applyToDevices
    cases effect with
    | motion delta through => exact rest_onDevices fun d => RestingInput.motion d delta
    | key key pressed synthetic =>
      obtain rfl : pressed = false := hquiet
      exact rest_onDevices fun d => RestingInput.keyUp d key
    | button button pressed synthetic =>
      obtain rfl : pressed = false := hquiet
      exact rest_onDevices fun d => RestingInput.buttonUp d button
    | touchReplaced state synthetic =>
      have hempty : state.isEmpty = true := by simpa [presses] using hquiet
      exact rest_onDevices fun d => RestingInput.touchLifted d state _ hempty
    | activationClosed session reason => exact rest_releaseDevices
    | activationOpened session => exact rest_onDevices fun d => RestingInput.keyboardBegin d keyboard
    | snapshotAck session ack => exact Triple.pure fun _ h => h
    | rejected session reason => exact Triple.pure fun _ h => h

/-- A close that is applied leaves the devices at rest. -/
theorem applyReceiverEffect_closed {effect : ReceiverEffect} {touchCapturedAt : CapturedAt}
    {keyboard : KeyboardMode} {d d' : D} (hclosed : Computer.isActivationClosed effect = true)
    (h : applyReceiverEffect effect touchCapturedAt keyboard d = (.ok (), d')) :
    RestingInput.atRest d' := by
  obtain ⟨-, mid, -, happly⟩ := bind_eq_ok.mp h
  cases effect with
  | activationClosed session reason =>
    replace happly : releaseDevices mid = (.ok (), d') := happly
    unfold releaseDevices at happly
    cases hreleased : (VirtualInput.releaseAll mid).1 with
    | true =>
      rw [hreleased] at happly
      cases happly
      exact RestingInput.atRest_of_released mid hreleased
    | false =>
      rw [hreleased] at happly
      cases happly
  | _ => cases hclosed

/-- A batch that presses nothing keeps devices at rest. -/
theorem inject_rest (touchCapturedAt : CapturedAt) {effects : List ReceiverEffect}
    {r : Receiving D} (hquiet : ∀ effect ∈ effects, presses effect = false) (hrest : RestingInput.atRest r.devices) :
    RestingInput.atRest (r.inject touchCapturedAt effects).2.devices := by
  induction effects generalizing r with
  | nil => exact hrest
  | cons effect rest ih =>
    have htriple := applyReceiverEffect_rest touchCapturedAt r.nextKeyboard
      (hquiet effect List.mem_cons_self) r.devices hrest
    unfold Receiving.inject
    cases hresult : applyReceiverEffect effect touchCapturedAt r.nextKeyboard r.devices with
    | mk result devices =>
      rw [hresult] at htriple
      cases result with
      | ok _ => exact ih (fun other hmem => hquiet other (List.mem_cons_of_mem _ hmem)) htriple
      | error diagnostic =>
        cases diagnostic with
        | injectionRejected => exact htriple
        | injectionFailed => exact RestingInput.releaseAll devices htriple

/-- A batch that is applied and leaves nothing down leaves the devices at rest. -/
theorem inject_applied (touchCapturedAt : CapturedAt) (held : Bool) {effects : List ReceiverEffect}
    {r : Receiving D} (hrest : held = false → RestingInput.atRest r.devices)
    (h : (r.inject touchCapturedAt effects).1 = true) (hafter : pressedAfter held effects = false) :
    RestingInput.atRest (r.inject touchCapturedAt effects).2.devices := by
  induction effects generalizing r held with
  | nil => exact hrest hafter
  | cons effect rest ih =>
    unfold Receiving.inject at h ⊢
    cases hresult : applyReceiverEffect effect touchCapturedAt r.nextKeyboard r.devices with
    | mk result devices =>
      rw [hresult] at h
      cases result with
      | error diagnostic => cases diagnostic <;> cases h
      | ok _ =>
        apply ih (pressedNext held effect) _ h hafter
        intro hdown
        cases hclosed : Computer.isActivationClosed effect with
        | true => exact applyReceiverEffect_closed hclosed hresult
        | false =>
          rw [pressedNext, hclosed, Bool.not_false, Bool.true_and, Bool.or_eq_false_iff] at hdown
          exact (applyReceiverEffect_rest touchCapturedAt r.nextKeyboard hdown.2).ok (hrest hdown.1) hresult

end Devices

/-! ## The invariant -/

variable [DecidableEq P] [VirtualInput D] [RestingInput D]

namespace Computer

/-- What the law promises of a daemon that still runs. -/
structure Released (d : Computer P D) : Prop where
  /-- Nothing a session pressed is down after the session has ended. -/
  ended : ∀ session actor, d.actors session = some actor → actor.stage = .ended →
    pressedBy session d.delivered = false
  /-- No session is heard while an older one of its peer has something down. -/
  handover : ∀ before delivery after, d.delivered = before ++ delivery :: after →
    ∀ earlier ∈ before, earlier.peer = delivery.peer → earlier.session ≠ delivery.session →
      pressedBy earlier.session before = false
  /-- The devices are at rest when no session has anything down. -/
  rest : (∀ session, pressedBy session d.delivered = false) →
    RestingInput.atRest d.receiving.devices

/-- The steps the law is about. -/
def Orderly (d : Computer P D) : Step P → Prop
  -- a dial that ends takes the place of no session that holds something
  | .connect session record generation _ =>
    (d.actors session).all fun actor =>
      match d.dialEnds actor.peer record generation with
      | .replaces existing => !pressedBy existing d.delivered
      | _ => true
  -- the input thread takes and applies what closes the activation of a session that holds something
  | .batch session effects touchCapturedAt answers =>
    endsClosed effects ∧ (pressedBy session d.delivered || effects.any presses) →
      answers.sent = .queued ∧ (d.actors session).all fun actor =>
        (d.receiving.handle (d.command actor.peer effects touchCapturedAt)).1
  -- a session that holds something stops with its activation open
  | .stop session opened => pressedBy session d.delivered → opened
  | _ => True

instance (d : Computer P D) (label : Step P) : Decidable (Orderly d label) := by
  cases label <;> unfold Orderly <;> infer_instance

/-- **The invariant**: a session that holds something is registered, and will clean up. -/
structure Tended (d : Computer P D) : Prop where
  registered : ∀ peer session, d.shared.sessions peer = some session →
    ∃ actor, d.actors session = some actor ∧ actor.peer = peer
  known : ∀ delivery ∈ d.delivered,
    ∃ actor, d.actors delivery.session = some actor ∧ actor.peer = delivery.peer
  holding : ∀ session, pressedBy session d.delivered = true →
    ∃ actor, d.actors session = some actor ∧ actor.stage ≠ .ended ∧ actor.opened = true ∧
      d.shared.sessions actor.peer = some session
  handover : ∀ before delivery after, d.delivered = before ++ delivery :: after →
    ∀ earlier ∈ before, earlier.peer = delivery.peer → earlier.session ≠ delivery.session →
      pressedBy earlier.session before = false
  rest : (∀ session, pressedBy session d.delivered = false) →
    RestingInput.atRest d.receiving.devices

omit [DecidableEq P] in
theorem Tended.released {d : Computer P D} (h : Tended d) : Released d where
  ended session actor hactor hstage := by
    by_contra hpressed
    obtain ⟨holder, hholder, hlive, -⟩ := h.holding session (Bool.eq_true_of_not_eq_false hpressed)
    rw [hactor] at hholder
    obtain rfl := Option.some.inj hholder
    exact hlive hstage
  handover := h.handover
  rest := h.rest

omit [DecidableEq P] in
/-- Handing a batch of a registered session over: none of its peer's older sessions holds anything. -/
theorem Tended.handover_concat {d : Computer P D} {delivery : Delivery P} (h : Tended d)
    (hregistered : d.shared.sessions delivery.peer = some delivery.session)
    (before : List (Delivery P)) (next : Delivery P) (after : List (Delivery P))
    (hsplit : d.delivered ++ [delivery] = before ++ next :: after) :
    ∀ earlier ∈ before, earlier.peer = next.peer → earlier.session ≠ next.session →
      pressedBy earlier.session before = false := by
  rcases List.eq_nil_or_concat after with rfl | ⟨rest, last, rfl⟩
  · obtain ⟨rfl, hnext⟩ := List.append_inj' hsplit rfl
    obtain rfl := (List.cons.inj hnext).1
    intro earlier hmem hpeer hother
    by_contra hpressed
    obtain ⟨holder, hholder, -, -, hheld⟩ :=
      h.holding earlier.session (Bool.eq_true_of_not_eq_false hpressed)
    obtain ⟨actor, hactor, hactorPeer⟩ := h.known earlier hmem
    rw [hholder] at hactor
    obtain rfl := Option.some.inj hactor
    rw [hactorPeer, hpeer, hregistered] at hheld
    exact hother (Option.some.inj hheld).symm
  · rw [List.concat_eq_append, ← List.cons_append, ← List.append_assoc] at hsplit
    obtain ⟨hlog, -⟩ := List.append_inj' hsplit rfl
    exact h.handover before next rest hlog

omit [DecidableEq P] in
/-- A batch that leaves nothing down leaves the devices at rest. -/
theorem Tended.rest_concat {d : Computer P D} {delivery : Delivery P} (h : Tended d)
    (happlied : delivery.applied = (d.receiving.handle delivery.command).1)
    (hnone : ∀ session, pressedBy session (d.delivered ++ [delivery]) = false) :
    RestingInput.atRest (d.receiving.handle delivery.command).2.devices := by
  have hpressed : ∀ session, delivery.pressed session (pressedBy session d.delivered) = false := by
    intro session
    rw [← pressedBy_concat]
    exact hnone session
  by_cases hdone : delivery.applied = true
  · -- applied in full: what any session held counts as held
    have hown : pressedAfter (pressedBy delivery.session d.delivered) delivery.command.effects =
        false := by
      have := hpressed delivery.session
      rwa [Delivery.pressed, if_pos hdone, if_pos rfl] at this
    rw [hdone] at happlied
    unfold Receiving.handle at happlied ⊢
    split at happlied
    · cases happlied
    rename_i hrunning
    rw [if_neg hrunning]
    by_cases hsome : ∃ session, pressedBy session d.delivered = true
    · obtain ⟨holder, hholder⟩ := hsome
      have hclosing : delivery.session = holder ∨
          delivery.command.effects.any isActivationClosed = true := by
        by_cases heq : delivery.session = holder
        · exact .inl heq
        · have := hpressed holder
          rw [Delivery.pressed, if_pos hdone, if_neg heq, hholder] at this
          exact .inr (by simpa using this)
      apply inject_applied _ true (fun hfalse => nomatch hfalse) happlied.symm
      rcases hclosing with rfl | hclosing
      · rwa [hholder] at hown
      · rwa [pressedAfter_congr true _ hclosing]
    · have hfree : ∀ session, pressedBy session d.delivered = false := by
        intro session
        exact Bool.eq_false_of_not_eq_true fun hdown => hsome ⟨session, hdown⟩
      rw [hfree] at hown
      exact inject_applied _ false (fun _ => h.rest hfree) happlied.symm hown
  · -- not applied in full: nothing was down, and nothing was pressed
    have hkept : ∀ session, (pressedBy session d.delivered ||
        (decide (delivery.session = session) && delivery.command.effects.any presses)) = false := by
      intro session
      have := hpressed session
      rwa [Delivery.pressed, if_neg hdone] at this
    have hrest := h.rest fun session => (Bool.or_eq_false_iff.mp (hkept session)).1
    have hquiet : ∀ effect ∈ delivery.command.effects, presses effect = false := by
      have := (Bool.or_eq_false_iff.mp (hkept delivery.session)).2
      rw [decide_eq_true rfl, Bool.true_and, List.any_eq_false] at this
      exact fun effect hmem => Bool.eq_false_of_not_eq_true (this effect hmem)
    unfold Receiving.handle
    split
    · exact hrest
    · exact inject_rest _ hquiet hrest

/-- **An answered batch keeps the invariant**, where it leaves nothing of its session's down unless the
session's activation stays open. -/
theorem Tended.answered {answers : Answers} {session : SessionId} {effects : List ReceiverEffect}
    {command : ReceiverCommand} {d routed : Computer P D} {actor : Actor P}
    {opened accepted : Bool} (h : Tended d) (hactor : d.actors session = some actor)
    (hlive : actor.stage ≠ .ended)
    (hrouted : Routed answers actor.peer session effects command d (.ok accepted, routed))
    (hclosed : opened = false → pressedBy session routed.delivered = false) :
    Tended (answered session actor opened (.ok accepted, routed)) := by
  obtain ⟨hactors, hsessions, -⟩ := hrouted.frame
  have hpeer : ∀ other a, d.actors other = some a →
      ∃ b, (Computer.answered session actor opened (.ok accepted, routed)).actors other = some b ∧
        b.peer = a.peer := by
    intro other a ha
    obtain ⟨b, hb, hbpeer, -⟩ := answered_actor_of opened accepted hactor hactors ha
    exact ⟨b, hb, hbpeer⟩
  -- a session that holds something after the batch did before, or the batch was its own
  have hholding : (∀ other, pressedBy other routed.delivered = true →
        other = session ∧ d.shared.sessions actor.peer = some session ∨ pressedBy other d.delivered = true) →
      ∀ other, pressedBy other routed.delivered = true →
      ∃ b, (Computer.answered session actor opened (.ok accepted, routed)).actors other = some b ∧
        b.stage ≠ .ended ∧ b.opened = true ∧ routed.shared.sessions b.peer = some other := by
    intro hfrom other hpressed
    have hregistered : ∃ a, d.actors other = some a ∧ a.stage ≠ .ended ∧
        (other ≠ session → a.opened = true) ∧ d.shared.sessions a.peer = some other := by
      rcases hfrom other hpressed with ⟨rfl, hregistered⟩ | hbefore
      · exact ⟨actor, hactor, hlive, fun hne => absurd rfl hne, hregistered⟩
      · obtain ⟨a, ha, hstage, hopen, hregistered⟩ := h.holding other hbefore
        exact ⟨a, ha, hstage, fun _ => hopen, hregistered⟩
    obtain ⟨a, ha, hstage, hopen, hregistered⟩ := hregistered
    obtain ⟨b, hb, hbpeer, hother, hown⟩ := answered_actor_of opened accepted hactor hactors ha
    refine ⟨b, hb, ?_, ?_, ?_⟩
    · by_cases heq : other = session
      · rw [(hown heq).2]
        cases accepted with
        | true => exact hlive
        | false => exact fun hended => nomatch hended
      · rw [(hother heq).stage]
        exact hstage
    · by_cases heq : other = session
      · rw [(hown heq).1]
        by_contra hshut
        subst heq
        rw [hclosed (Bool.eq_false_of_not_eq_true hshut)] at hpressed
        cases hpressed
      · rw [(hother heq).opened]
        exact hopen heq
    · rw [hsessions, hbpeer]
      exact hregistered
  have hregistered : ∀ peer other, routed.shared.sessions peer = some other →
      ∃ b, (Computer.answered session actor opened (.ok accepted, routed)).actors other = some b ∧
        b.peer = peer := by
    intro peer other hreg
    rw [hsessions] at hreg
    obtain ⟨a, ha, hapeer⟩ := h.registered peer other hreg
    obtain ⟨b, hb, hbpeer⟩ := hpeer other a ha
    exact ⟨b, hb, hbpeer.trans hapeer⟩
  have hknown : ∀ delivery ∈ d.delivered,
      ∃ b, (Computer.answered session actor opened (.ok accepted, routed)).actors delivery.session =
        some b ∧ b.peer = delivery.peer := by
    intro delivery hmem
    obtain ⟨a, ha, hapeer⟩ := h.known delivery hmem
    obtain ⟨b, hb, hbpeer⟩ := hpeer _ a ha
    exact ⟨b, hb, hbpeer.trans hapeer⟩
  rcases hrouted.log with ⟨hdelivered, hreceiving⟩ |
    ⟨claimed, hreg, hclaimed, hne, hdelivered, hreceiving⟩
  · refine ⟨hregistered, ?_, ?_, ?_, ?_⟩
    · show ∀ delivery ∈ routed.delivered, _
      rw [hdelivered]
      exact hknown
    · apply hholding
      intro other hpressed
      rw [hdelivered] at hpressed
      exact .inr hpressed
    · show ∀ before delivery after, routed.delivered = _ → _
      rw [hdelivered]
      exact h.handover
    · show (∀ other, pressedBy other routed.delivered = false) → RestingInput.atRest routed.receiving.devices
      rw [hdelivered, hreceiving]
      exact h.rest
  · refine ⟨hregistered, ?_, ?_, ?_, ?_⟩
    · show ∀ delivery ∈ routed.delivered, _
      rw [hdelivered]
      intro delivery hmem
      rcases List.mem_append.mp hmem with hmem | hmem
      · exact hknown delivery hmem
      · obtain rfl := List.mem_singleton.mp hmem
        exact hpeer session actor hactor
    · apply hholding
      intro other hpressed
      rw [hdelivered, pressedBy_concat] at hpressed
      by_cases heq : session = other
      · exact .inl ⟨heq.symm, hreg⟩
      · exact .inr (pressed_of_other heq hpressed)
    · show ∀ before delivery after, routed.delivered = _ → _
      rw [hdelivered]
      exact h.handover_concat hreg
    · show (∀ other, pressedBy other routed.delivered = false) → RestingInput.atRest routed.receiving.devices
      rw [hdelivered, hreceiving]
      exact h.rest_concat rfl

omit [DecidableEq P] [VirtualInput D] [RestingInput D] in
theorem opens_of_safety {effects : List ReceiverEffect} (h : effects.all isSafetyRelease = true) :
    opensActivation effects = false := by
  apply List.any_eq_false.mpr
  intro effect hmem
  have hsafe := List.all_eq_true.mp h effect hmem
  cases effect <;> simp_all [isSafetyRelease]

/-- A session whose accepted batch leaves its activation closed holds nothing any more. -/
theorem batch_closed {answers : Answers} {session : SessionId} {effects : List ReceiverEffect}
    {touchCapturedAt : CapturedAt} {d routed : Computer P D} {actor : Actor P} {accepted : Bool}
    (h : Tended d) (hcalm : Orderly d (.batch session effects touchCapturedAt answers))
    (hactor : d.actors session = some actor) (hne : effects ≠ [])
    (hafter : activationAfter actor.opened effects = some false)
    (hopens : opensActivation effects = false)
    (hrouted : Routed answers actor.peer session effects
      (d.command actor.peer effects touchCapturedAt) d (.ok accepted, routed)) :
    pressedBy session routed.delivered = false := by
  have hends := endsClosed_of_closed hafter hne
  have hcommand := activationAfter_command d actor.peer touchCapturedAt hafter
  have hheld : pressedBy session d.delivered = true → actor.opened = true := by
    intro hpressed
    obtain ⟨holder, hholder, -, hopen, -⟩ := h.holding session hpressed
    rw [hactor] at hholder
    rw [Option.some.inj hholder]
    exact hopen
  have htaken : (pressedBy session d.delivered || effects.any presses) = true → answers.sent = .queued ∧
        (d.receiving.handle (d.command actor.peer effects touchCapturedAt)).1 = true := by
    intro hdown
    have hanswer := hcalm ⟨hends, hdown⟩
    rw [hactor] at hanswer
    exact hanswer
  rcases hrouted.log with ⟨hdelivered, -⟩ | ⟨claimed, hreg, hclaimed, hcommandNe, hdelivered, -⟩
  · -- not handed over, so it cannot have been one that had to be
    rw [hdelivered]
    by_contra hpressed
    rw [Bool.not_eq_false] at hpressed
    obtain ⟨hqueued, -⟩ := htaken (by rw [hpressed, Bool.true_or])
    cases hrouted with
    | refused _ hsame hwhy =>
      obtain ⟨holder, hholder, -, -, hreg⟩ := h.holding session hpressed
      rw [hactor] at hholder
      obtain rfl := Option.some.inj hholder
      rw [hwhy hreg] at hopens
      cases hopens
    | kept _ claimed _ hreg hclaimed hsame hwhy =>
      rcases hwhy with hempty | ⟨hqueue, -⟩
      · rw [hempty, activationAfter_nil, hheld hpressed] at hcommand
        cases hcommand
      · exact hqueue hqueued
    | handed _ claimed _ hreg hclaimed hne' hsame happlied =>
      have hlog := hsame.delivered
      rw [(yieldInbound_yielded _ _ _ _).delivered, hdelivered] at hlog
      have hlength := congrArg List.length hlog
      simp [handOver, hclaimed.delivered] at hlength
  · rw [hdelivered, pressedBy_concat]
    unfold Delivery.pressed
    by_cases hdown : (pressedBy session d.delivered || effects.any presses) = true
    · rw [if_pos (htaken hdown).2, if_pos rfl]
      exact pressedAfter_of_closed hcommand hheld rfl
    · obtain ⟨hfree, hnone⟩ := Bool.or_eq_false_iff.mp (Bool.eq_false_of_not_eq_true hdown)
      have hquiet := presses_command d actor.peer touchCapturedAt fun effect hmem =>
        Bool.eq_false_of_not_eq_true (List.any_eq_false.mp hnone effect hmem)
      rw [hfree]
      split
      · rw [if_pos rfl, pressedAfter_of_quiet _ hquiet, Bool.false_and]
      · rw [Bool.false_or, Bool.and_eq_false_iff]
        right
        exact List.any_eq_false.mpr fun effect hmem => by simp [hquiet effect hmem]

/-- **A cleanup reaches the devices**: the batch of a session that holds something is handed over and
applied, unless the daemon ends. -/
theorem cleanup_handed {answers : Answers} {session : SessionId} {effects : List ReceiverEffect}
    {d routed : Computer P D} {actor : Actor P} {accepted : Bool} (h : Tended d)
    (hactor : d.actors session = some actor) (hsafety : effects.all isSafetyRelease = true)
    (hclosed : effects.any isActivationClosed = true)
    (hpressed : pressedBy session d.delivered = true)
    (hrouted : Routed answers actor.peer session effects (d.command actor.peer effects none) d
      (.ok accepted, routed)) :
    ∃ delivery, routed.delivered = d.delivered ++ [delivery] ∧ delivery.session = session ∧
      delivery.command.effects = effects ∧ delivery.applied = true := by
  have hcommand := command_of_safety d actor.peer none hsafety
  cases hrouted with
  | refused _ hsame hwhy =>
    obtain ⟨holder, hholder, -, -, hreg⟩ := h.holding session hpressed
    rw [hactor] at hholder
    obtain rfl := Option.some.inj hholder
    have hopens := hwhy hreg
    rw [opens_of_safety hsafety] at hopens
    cases hopens
  | kept _ claimed _ hreg hclaimed hsame hwhy =>
    rw [hcommand] at hwhy
    rcases hwhy with rfl | ⟨-, -, hunsafe⟩
    · cases hclosed
    · rw [hsafety] at hunsafe
      cases hunsafe
  | handed _ claimed _ hreg hclaimed hne hsame happlied =>
    rw [hcommand, hsafety] at happlied
    refine ⟨⟨actor.peer, session, claimed.shared.inboundOwner, d.command actor.peer effects none,
      (d.receiving.handle (d.command actor.peer effects none)).1⟩, ?_, rfl, hcommand, ?_⟩
    · rw [hsame.delivered, (yieldInbound_yielded _ _ _ _).delivered]
      unfold handOver
      rw [hclaimed.delivered, claimed_receiving hclaimed]
    · rcases happlied with happlied | ⟨-, hunsafe⟩
      · exact happlied
      · cases hunsafe

/-- After a cleanup that was answered, nothing of the session is down. -/
theorem cleanup_closed {answers : Answers} {session : SessionId} {effects : List ReceiverEffect}
    {d routed : Computer P D} {actor : Actor P} {accepted : Bool} (h : Tended d)
    (hactor : d.actors session = some actor) (hsafety : effects.all isSafetyRelease = true)
    (hclosed : effects.any isActivationClosed = true)
    (hrouted : Routed answers actor.peer session effects (d.command actor.peer effects none) d
      (.ok accepted, routed)) : pressedBy session routed.delivered = false := by
  have hquiet : ∀ effect ∈ effects, presses effect = false := fun effect hmem =>
    presses_of_safety (List.all_eq_true.mp hsafety effect hmem)
  by_cases hpressed : pressedBy session d.delivered = true
  · obtain ⟨delivery, hdelivered, hsession, heffects, happlied⟩ :=
      cleanup_handed h hactor hsafety hclosed hpressed hrouted
    rw [hdelivered, pressedBy_concat, Delivery.pressed, if_pos happlied, if_pos hsession, heffects,
      pressedAfter_of_quiet _ hquiet, hclosed, Bool.not_true, Bool.and_false]
  · rw [Bool.not_eq_true] at hpressed
    rcases hrouted.log with ⟨hdelivered, -⟩ | ⟨claimed, -, -, -, hdelivered, -⟩
    · rw [hdelivered]
      exact hpressed
    · rw [hdelivered, pressedBy_concat]
      unfold Delivery.pressed
      rw [command_of_safety d actor.peer none hsafety, hpressed]
      split
      · rw [if_pos rfl, pressedAfter_of_quiet _ hquiet, Bool.false_and]
      · rw [Bool.false_or, Bool.and_eq_false_iff]
        right
        exact List.any_eq_false.mpr fun effect hmem => by simp [hquiet effect hmem]

omit [DecidableEq P] in
/-- A step that hands nothing over keeps the invariant, where the sessions that hold something stay
registered and stay to clean up. -/
theorem Tended.frame {d after : Computer P D} (h : Tended d)
    (hdelivered : after.delivered = d.delivered) (hreceiving : after.receiving = d.receiving)
    (hregistered : ∀ peer session, after.shared.sessions peer = some session →
      ∃ actor, after.actors session = some actor ∧ actor.peer = peer)
    (hactors : ∀ session a, d.actors session = some a → ∃ b, after.actors session = some b ∧ b.peer = a.peer ∧
        (pressedBy session d.delivered = true → a.stage ≠ .ended → a.opened = true →
          d.shared.sessions a.peer = some session →
          b.stage ≠ .ended ∧ b.opened = true ∧ after.shared.sessions a.peer = some session)) :
    Tended after where
  registered := hregistered
  known := by
    rw [hdelivered]
    intro delivery hmem
    obtain ⟨a, ha, hpeer⟩ := h.known delivery hmem
    obtain ⟨b, hb, hbpeer, -⟩ := hactors _ a ha
    exact ⟨b, hb, hbpeer.trans hpeer⟩
  holding := by
    rw [hdelivered]
    intro session hpressed
    obtain ⟨a, ha, hstage, hopen, hreg⟩ := h.holding session hpressed
    obtain ⟨b, hb, hbpeer, hkeeps⟩ := hactors session a ha
    obtain ⟨hbstage, hbopen, hbreg⟩ := hkeeps hpressed hstage hopen hreg
    exact ⟨b, hb, hbstage, hbopen, by rw [hbpeer]; exact hbreg⟩
  handover := by
    rw [hdelivered]
    exact h.handover
  rest := by
    rw [hdelivered, hreceiving]
    exact h.rest

omit [DecidableEq P] in
/-- A step of the registry keeps the invariant, where it takes no session's place that holds
something. -/
theorem Tended.unmoved {d after : Computer P D} (h : Tended d) (hmoved : Unmoved d after)
    (hregistered : ∀ peer session, after.shared.sessions peer = some session →
      d.shared.sessions peer = some session ∨ ∃ actor, d.actors session = some actor ∧ actor.peer = peer)
    (hkeeps : ∀ peer session, pressedBy session d.delivered = true →
      d.shared.sessions peer = some session → after.shared.sessions peer = some session) :
    Tended after := by
  have halike : ∀ session a, d.actors session = some a →
      ∃ b, after.actors session = some b ∧ Alike a b := by
    intro session a ha
    have hrel := hmoved.actors session
    rw [ha] at hrel
    cases hb : after.actors session with
    | none =>
      rw [hb] at hrel
      cases hrel
    | some b =>
      rw [hb] at hrel
      cases hrel with
      | some hlike => exact ⟨b, rfl, hlike⟩
  apply h.frame hmoved.delivered hmoved.receiving
  · intro peer session hreg
    obtain ⟨a, ha, hpeer⟩ : ∃ a, d.actors session = some a ∧ a.peer = peer := by
      rcases hregistered peer session hreg with hbefore | hnew
      · exact h.registered peer session hbefore
      · exact hnew
    obtain ⟨b, hb, hlike⟩ := halike session a ha
    exact ⟨b, hb, hlike.peer.trans hpeer⟩
  · intro session a ha
    obtain ⟨b, hb, hlike⟩ := halike session a ha
    refine ⟨b, hb, hlike.peer, ?_⟩
    intro hpressed hstage hopen hreg
    rw [hlike.stage, hlike.opened]
    exact ⟨hstage, hopen, hkeeps a.peer session hpressed hreg⟩

/-- **An orderly step keeps the invariant**, unless the daemon ends. -/
theorem Tended.step {label : Step P} {d after : Computer P D} (h : Tended d)
    (hcalm : Orderly d label) (hstep : step label d = some after) (hlive : after.stopped = false) :
    Tended after := by
  obtain ⟨-, hstep⟩ := step_cases hstep
  cases hstep with
  | policy config generation seatGate => exact ⟨h.registered, h.known, h.holding, h.handover, h.rest⟩
  | start peer session task hfresh =>
    have hold : ∀ other a, d.actors other = some a →
        (d.setActor session ⟨peer, .running, some task, false, none⟩).actors other = some a := by
      intro other a ha
      have hne : other ≠ session := by
        intro heq
        rw [heq, hfresh] at ha
        cases ha
      exact (Function.update_of_ne hne ..).trans ha
    refine h.frame rfl rfl ?_ ?_
    · intro other registered hreg
      obtain ⟨a, ha, hpeer⟩ := h.registered other registered hreg
      exact ⟨a, hold registered a ha, hpeer⟩
    · intro other a ha
      exact ⟨a, hold other a ha, rfl, fun _ hstage hopen hreg => ⟨hstage, hopen, hreg⟩⟩
  | stop session opened actor hactor hstage =>
    have hset : ∀ other a, d.actors other = some a →
        ∃ b, (d.setActor session { actor with stage := .stopped, opened }).actors other = some b ∧
          b.peer = a.peer ∧ (pressedBy other d.delivered = true → a.stage ≠ .ended →
            a.opened = true → b.stage ≠ .ended ∧ b.opened = true) := by
      intro other a ha
      by_cases heq : other = session
      · subst heq
        rw [hactor] at ha
        obtain rfl := Option.some.inj ha
        refine ⟨_, Function.update_self .., rfl, ?_⟩
        exact fun hpressed _ _ => ⟨(fun hended => nomatch hended), hcalm hpressed⟩
      · exact ⟨a, (Function.update_of_ne heq ..).trans ha, rfl, fun _ hs ho => ⟨hs, ho⟩⟩
    refine h.frame rfl rfl ?_ ?_
    · intro other registered hreg
      obtain ⟨a, ha, hpeer⟩ := h.registered other registered hreg
      obtain ⟨b, hb, hbpeer, -⟩ := hset registered a ha
      exact ⟨b, hb, hbpeer.trans hpeer⟩
    · intro other a ha
      obtain ⟨b, hb, hbpeer, hkeeps⟩ := hset other a ha
      refine ⟨b, hb, hbpeer, fun hpressed hs ho hreg => ?_⟩
      obtain ⟨hbs, hbo⟩ := hkeeps hpressed hs ho
      exact ⟨hbs, hbo, hreg⟩
  | connect session record generation now actor hactor htask =>
    apply h.unmoved ((unmoved_setActor (b := { actor with task := none }) hactor
      ⟨rfl, rfl, rfl⟩).trans (unmoved_connect _ _ _ _ _ _))
    · intro peer registered hreg
      rcases connect_sessions actor.peer session record generation now
        (d.setActor session { actor with task := none }) peer with hsame | ⟨heq, hnew, -⟩
      · rw [hsame] at hreg
        exact .inl hreg
      · rw [hnew] at hreg
        obtain rfl := Option.some.inj hreg
        exact .inr ⟨actor, hactor, heq.symm⟩
    · intro peer registered hpressed hreg
      rcases connect_sessions actor.peer session record generation now
        (d.setActor session { actor with task := none }) peer with hsame | ⟨heq, -, hwhy⟩
      · rw [hsame]
        exact hreg
      · exfalso
        rw [heq] at hreg
        rcases hwhy with hnone | ⟨existing, hends, hexisting⟩
        · cases hnone.symm.trans hreg
        · -- the dial would take the place of a session that holds something
          obtain rfl := Option.some.inj (hexisting.symm.trans hreg)
          have hfree : (d.actors session).all (fun actor =>
              match d.dialEnds actor.peer record generation with
              | .replaces existing => !pressedBy existing d.delivered
              | _ => true) = true := hcalm
          rw [hactor, Option.all_some, show d.dialEnds actor.peer record generation =
            .replaces existing from hends] at hfree
          simp [hpressed] at hfree
  | accept session generation known closed now actor hactor htask =>
    apply h.unmoved (unmoved_letGo hactor (unmoved_accept _ _ _ _ _ _ _))
    · intro peer registered hreg
      rw [letGo_sessions] at hreg
      rcases accept_sessions actor.peer session generation known closed now d peer with
        hsame | ⟨heq, -, hnew⟩
      · rw [hsame] at hreg
        exact .inl hreg
      · rw [hnew] at hreg
        obtain rfl := Option.some.inj hreg
        exact .inr ⟨actor, hactor, heq.symm⟩
    · intro peer registered hpressed hreg
      rw [letGo_sessions]
      rcases accept_sessions actor.peer session generation known closed now d peer with
        hsame | ⟨heq, hnone, -⟩
      · rw [hsame]
        exact hreg
      · rw [heq, hnone] at hreg
        cases hreg
  | retire peer =>
    apply h.unmoved (unmoved_retire peer d)
    · rw [retire_sessions]
      exact fun _ _ hreg => .inl hreg
    · rw [retire_sessions]
      exact fun _ _ _ hreg => hreg
  | batch session effects touchCapturedAt answers actor opened answer routed hactor hstage hne
      hafter hopens hrouted =>
    cases answer with
    | error error => cases hlive
    | ok accepted =>
      apply h.answered hactor (by rw [hstage]; decide) hrouted
      intro hshut
      rw [hshut] at hafter
      apply batch_closed h hcalm hactor hne hafter _ hrouted
      by_contra hopening
      rw [hopens (Bool.eq_true_of_not_eq_false hopening)] at hshut
      cases hshut
  | cleanup session effects answers actor answer routed hactor hstage hopened hsafety hclosed
      hrouted =>
    cases answer with
    | error error => cases hlive
    | ok accepted =>
      apply h.answered hactor (by rw [hstage]; decide) hrouted
      exact fun _ => cleanup_closed h hactor hsafety hclosed hrouted
  | closed session actor hactor hstage hopened =>
    obtain ⟨hactors, hdelivered, hreceiving, -⟩ := closed_frame actor.peer session d
    have hset : ∀ other a, d.actors other = some a → ∃ b, ((d.closed actor.peer session).setActor session
            { actor with stage := .ended }).actors other = some b ∧ b.peer = a.peer ∧
          (other ≠ session → b = a) := by
      intro other a ha
      by_cases heq : other = session
      · subst heq
        rw [hactor] at ha
        obtain rfl := Option.some.inj ha
        exact ⟨_, Function.update_self .., rfl, fun hne => absurd rfl hne⟩
      · refine ⟨a, (Function.update_of_ne heq ..).trans ?_, rfl, fun _ => rfl⟩
        rw [hactors]
        exact ha
    refine h.frame hdelivered hreceiving ?_ ?_
    · intro peer registered hreg
      rw [show ((d.closed actor.peer session).setActor session _).shared.sessions peer =
        (d.closed actor.peer session).shared.sessions peer from rfl, closed_sessions] at hreg
      split at hreg
      · cases hreg
      · obtain ⟨a, ha, hpeer⟩ := h.registered peer registered hreg
        obtain ⟨b, hb, hbpeer, -⟩ := hset registered a ha
        exact ⟨b, hb, hbpeer.trans hpeer⟩
    · intro other a ha
      obtain ⟨b, hb, hbpeer, hsame⟩ := hset other a ha
      refine ⟨b, hb, hbpeer, fun hpressed hs ho hreg => ?_⟩
      have hne : other ≠ session := by
        intro heq
        subst heq
        rw [hactor] at ha
        obtain rfl := Option.some.inj ha
        rw [hopened] at ho
        cases ho
      rw [hsame hne]
      refine ⟨hs, ho, ?_⟩
      rw [show ((d.closed actor.peer session).setActor session _).shared.sessions a.peer =
        (d.closed actor.peer session).shared.sessions a.peer from rfl, closed_sessions, if_neg]
      · exact hreg
      · intro hcond
        exact hne (Option.some.inj (hreg.symm.trans hcond.2))

/-- **Releases reach the devices**: in every interleaving of orderly steps, while the daemon runs,
nothing that a session pressed is down after the session has ended or when a newer session of its peer
is heard; and the cleanup of a session that holds something is handed over and applied, or the daemon
ends. -/
theorem releases_reach_devices (config : Config P) (identityFingerprint : Fingerprint)
    (seatGate : SeatGate) {devices : D} (hrest : RestingInput.atRest devices) {d : Computer P D}
    (h : System.Reaches step Orderly (start config identityFingerprint seatGate devices) d)
    (hlive : d.stopped = false) :
    Released d ∧ ∀ session effects answers after, pressedBy session d.delivered = true →
      step (.cleanup session effects answers) d = some after →
      after.stopped = true ∨ ∃ delivery, after.delivered = d.delivered ++ [delivery] ∧
        delivery.session = session ∧ delivery.command.effects = effects ∧
        delivery.applied = true := by
  have hinv : d.stopped = false → Tended d := by
    apply h.invariant (I := fun d => d.stopped = false → Tended d)
    · intro _
      refine ⟨nofun, nofun, nofun, ?_, fun _ => hrest⟩
      intro before delivery after hsplit
      cases before <;> cases hsplit
    · intro s label t hs hcalm hstep hlive
      exact (hs (step_cases hstep).1).step hcalm hstep hlive
  have htended := hinv hlive
  refine ⟨htended.released, ?_⟩
  intro session effects answers after hpressed hstep
  obtain ⟨-, hstep⟩ := step_cases hstep
  cases hstep with
  | cleanup _ _ _ actor answer routed hactor hstage hopened hsafety hclosed hrouted =>
    cases answer with
    | error error => exact .inl rfl
    | ok accepted =>
      right
      obtain ⟨delivery, hdelivered, hrest⟩ :=
        cleanup_handed htended hactor hsafety hclosed hpressed hrouted
      exact ⟨delivery, hdelivered, hrest⟩

/-! ## A dial that ends -/

/-- A peer whose own dial loses to this computer's. -/
def losingPeer : PeerConfig := ⟨some 1, ⟨true, true, true, false⟩, .standard, false⟩

def dialingDesk : Computer (Fin 2) PlainInput :=
  start ⟨true, false, fun _ => some losingPeer⟩ 0 ⟨.normal 1000, false⟩ .atRest

/-- The peer's session 10 holds a key when this computer's own dial ends in session 11. -/
def strandingCalls : List (Step (Fin 2)) :=
  [.start firstPeer 11 .connecting, .start firstPeer 10 .accepting, .accept 10 0 true false 0,
    .batch 10 [.activationOpened ⟨1, 1, 1⟩] none granted,
    .batch 10 [.key (HidUsage.keyboard 4) true false] none granted,
    .connect 11 losingPeer 0 5,
    .stop 10 true,
    .cleanup 10 [.key (HidUsage.keyboard 4) false true,
      .activationClosed ⟨1, 1, 1⟩ .leaseExpired] granted,
    .closed 10]

/-- **A dial that ends strands what the peer's session held**: the cleanup of session 10 is refused,
and the key stays down after the session has ended. -/
theorem dial_strands_keys : ∃ d : Computer (Fin 2) PlainInput, System.exec step strandingCalls dialingDesk = some d ∧
      d.stopped = false ∧ d.receiving.devices.keys = [HidUsage.keyboard 4] ∧ ¬ Released d := by
  have hrun : (System.exec step strandingCalls dialingDesk).any (fun d =>
      d.stopped = false ∧ d.receiving.devices.keys = [HidUsage.keyboard 4] ∧ pressedBy 10 d.delivered = true ∧
        (d.actors 10).any fun actor => actor.stage = .ended) = true := by decide
  obtain ⟨d, hd, hfacts⟩ := Option.any_eq_true _ _ |>.mp hrun
  obtain ⟨hlive, hkeys, hpressed, hactor⟩ := of_decide_eq_true hfacts
  obtain ⟨actor, hactor, hended⟩ := Option.any_eq_true _ _ |>.mp hactor
  refine ⟨d, hd, hlive, hkeys, ?_⟩
  intro hreleased
  rw [hreleased.ended 10 actor hactor (of_decide_eq_true hended)] at hpressed
  cases hpressed

/-- The same session, cleaned up before the dial ends. -/
def tidyCalls : List (Step (Fin 2)) :=
  [.start firstPeer 11 .connecting, .start firstPeer 10 .accepting, .accept 10 0 true false 0,
    .batch 10 [.activationOpened ⟨1, 1, 1⟩] none granted,
    .batch 10 [.key (HidUsage.keyboard 4) true false] none granted,
    .retire firstPeer, .stop 10 true,
    .cleanup 10 [.key (HidUsage.keyboard 4) false true,
      .activationClosed ⟨1, 1, 1⟩ .leaseExpired] granted,
    .closed 10, .connect 11 losingPeer 0 5,
    .batch 11 [.activationOpened ⟨1, 2, 1⟩] none granted]

theorem releases_reach_devices_tidy : ∃ d : Computer (Fin 2) PlainInput, d.delivered.length = 4 ∧ Released d := by
  have hrun : ((System.guarded step Orderly).exec tidyCalls dialingDesk).any (fun d =>
      d.stopped = false ∧ d.delivered.length = 4) = true := by decide
  obtain ⟨d, hreaches, hd⟩ := System.exists_reaches_of_exec hrun
  obtain ⟨hlive, hlength⟩ := of_decide_eq_true hd
  exact ⟨d, hlength, (releases_reach_devices _ _ _ rfl hreaches hlive).1⟩

end Computer

end Zflow.Daemon
