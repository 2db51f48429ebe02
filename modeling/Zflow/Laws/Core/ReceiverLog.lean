import Mathlib.Tactic.Abel
import Zflow.Laws.Core.Receiver
import Zflow.Lib.Replay

/-!
# The effects are a log of the state

A backend that replays a receiver's effects: it presses and releases, replaces touch, and adds up
the displacement since the activation opened. It refuses what no real device should be told: a press
of what is down, a release of what is up, and a close while something is held.

**Every run of a receiver is a legal log of this backend**, and after it the backend holds what the
open activation holds and has moved by its injected totals (`effects_log_state`). The proof is one
`Replay.Tracks` fact for each piece of a call, put together by `CallRule`.
-/

namespace Zflow.Core

open Lib

/-! ## The backend -/

/-- What a device driven by the effects has down, and how far it moved in this activation. -/
structure Backend where
  held : HeldState
  moved : MotionDelta

namespace Backend

def neutral : Backend := ⟨.neutral, 0⟩

def apply (b : Backend) : ReceiverEffect → Backend
  | .activationOpened _ => { b with moved := 0 }
  | .motion delta _ => { b with moved := b.moved + delta }
  | .key key pressed _ =>
    { b with held := if pressed then b.held.pressKey key else b.held.releaseKey key }
  | .button button pressed _ =>
    { b with held := if pressed then b.held.pressButton button else b.held.releaseButton button }
  | .touchReplaced touch _ => { b with held := b.held.replaceTouch touch }
  | .snapshotAck .. | .activationClosed .. | .rejected .. => b

/-- The effect is a real edge, or a close with nothing held. -/
def Admits (b : Backend) : ReceiverEffect → Prop
  | .key key pressed _ => pressed = true ↔ key ∉ b.held.pressedKeys
  | .button button pressed _ => pressed = true ↔ button ∉ b.held.pressedButtons
  | .activationClosed .. => b.held = .neutral
  | _ => True

/-- The backend as a machine that replays a log of effects. -/
def machine : Replay Backend ReceiverEffect := ⟨apply, Admits⟩

end Backend

/-- What an activation holds; nothing when none is open. -/
def heldBy (activation : Option ActivationState) : HeldState :=
  match activation with
  | some state => state.held
  | none => .neutral

/-- The backend stands where the receiver believes it stands. -/
def Backend.Shows (b : Backend) (activation : Option ActivationState) : Prop :=
  b.held = heldBy activation ∧
    ∀ state, activation = some state → b.moved = state.injectedTotals.displacement

/-- A log that takes the backend from one activation to another, without a refusal. -/
abbrev Logs (before : Option ActivationState) (log : List ReceiverEffect)
    (after : Option ActivationState) : Prop :=
  Backend.machine.Tracks Backend.Shows before log after

theorem Logs.append {a b c : Option ActivationState} {xs ys : List ReceiverEffect}
    (h : Logs a xs b) (h' : Logs b ys c) : Logs a (xs ++ ys) c := Replay.Tracks.append h h'

/-! ## Edges -/

/-- **A list of distinct edges is logged one by one.** `ok` is what makes an edge real; an edge
does not disturb what makes another real. -/
theorem logs_edges {α : Type} {effect : α → ReceiverEffect} {update : HeldState → α → HeldState}
    (ok : HeldState → α → Prop) (happly : ∀ (b : Backend) x, b.apply (effect x) = { b with held := update b.held x })
    (hadmits : ∀ (b : Backend) x, ok b.held x → b.Admits (effect x))
    (hkeep : ∀ held x y, x ≠ y → ok held x → ok (update held y) x)
    (state : ActivationState) (xs : List α) (hnodup : xs.Nodup) (hok : ∀ x ∈ xs, ok state.held x) :
    Logs (some state) (xs.map effect) (some { state with held := xs.foldl update state.held }) := by
  induction xs generalizing state with
  | nil => exact .nil _
  | cons x xs ih =>
    obtain ⟨hx, hxs⟩ := List.nodup_cons.mp hnodup
    have hhead : Logs (some state) [effect x] (some { state with held := update state.held x }) := by
      refine .single fun b hb => ⟨hadmits b x ?_, ?_, ?_⟩
      · exact hb.1 ▸ hok x List.mem_cons_self
      · have := happly b x
        simp_all [Backend.machine, heldBy, Backend.Shows]
      · have := happly b x
        simp_all [Backend.machine, Backend.Shows]
    have htail := ih { state with held := update state.held x } hxs fun y hy =>
      hkeep _ _ _ (fun hyx => hx (hyx ▸ hy)) (hok y (List.mem_cons_of_mem _ hy))
    exact hhead.append htail

theorem logs_keysUp (state : ActivationState) (keys : List HidUsage) (hnodup : keys.Nodup)
    (hheld : ∀ key ∈ keys, key ∈ state.held.pressedKeys) : Logs (some state) (keys.map (.key · false true))
      (some { state with held := keys.foldl HeldState.releaseKey state.held }) := by
  refine logs_edges (fun held key => key ∈ held.pressedKeys) (fun b x => rfl) ?_ ?_ state keys hnodup hheld
  · intro b x hx
    simpa [Backend.Admits] using hx
  · intro held x y hne hx
    simp only [HeldState.releaseKey, Std.ExtTreeSet.mem_erase, ne_eq, Std.compare_eq_iff_eq]
    exact ⟨fun h => hne h.symm, hx⟩

theorem logs_keysDown (state : ActivationState) (keys : List HidUsage) (hnodup : keys.Nodup)
    (hfree : ∀ key ∈ keys, key ∉ state.held.pressedKeys) : Logs (some state) (keys.map (.key · true true))
      (some { state with held := keys.foldl HeldState.pressKey state.held }) := by
  refine logs_edges (fun held key => key ∉ held.pressedKeys) (fun b x => rfl) ?_ ?_ state keys hnodup hfree
  · intro b x hx
    simpa [Backend.Admits] using hx
  · intro held x y hne hx
    simp only [HeldState.pressKey, Std.ExtTreeSet.mem_insert, Std.compare_eq_iff_eq, not_or]
    exact ⟨fun h => hne h.symm, hx⟩

theorem logs_buttonsUp (state : ActivationState) (buttons : List PointerButton)
    (hnodup : buttons.Nodup) (hheld : ∀ button ∈ buttons, button ∈ state.held.pressedButtons) :
    Logs (some state) (buttons.map (.button · false true))
      (some { state with held := buttons.foldl HeldState.releaseButton state.held }) := by
  refine logs_edges (fun held button => button ∈ held.pressedButtons) (fun b x => rfl) ?_ ?_ state buttons hnodup hheld
  · intro b x hx
    simpa [Backend.Admits] using hx
  · intro held x y hne hx
    simp only [HeldState.releaseButton, Std.ExtTreeSet.mem_erase, ne_eq, Std.compare_eq_iff_eq]
    exact ⟨fun h => hne h.symm, hx⟩

theorem logs_buttonsDown (state : ActivationState) (buttons : List PointerButton)
    (hnodup : buttons.Nodup) (hfree : ∀ button ∈ buttons, button ∉ state.held.pressedButtons) :
    Logs (some state) (buttons.map (.button · true true))
      (some { state with held := buttons.foldl HeldState.pressButton state.held }) := by
  refine logs_edges (fun held button => button ∉ held.pressedButtons) (fun b x => rfl) ?_ ?_ state buttons hnodup hfree
  · intro b x hx
    simpa [Backend.Admits] using hx
  · intro held x y hne hx
    simp only [HeldState.pressButton, Std.ExtTreeSet.mem_insert, Std.compare_eq_iff_eq, not_or]
    exact ⟨fun h => hne h.symm, hx⟩

/-- A touch replacement is always admitted. -/
theorem logs_touch (state : ActivationState) (touch : TouchState) (synthetic : Bool) :
    Logs (some state) [.touchReplaced touch synthetic]
      (some { state with held := state.held.replaceTouch touch }) := by
  refine .single fun b hb => ⟨trivial, ?_, ?_⟩
  · simp [Backend.machine, Backend.apply, heldBy, hb.1]
  · intro state' h
    cases h
    exact hb.2 state rfl

/-- An effect that the backend does not act on. -/
theorem logs_note {activation : Option ActivationState} {effect : ReceiverEffect}
    (happly : ∀ b : Backend, b.apply effect = b) (hadmits : ∀ b : Backend, b.Admits effect) :
    Logs activation [effect] activation := by
  refine .single fun b hb => ⟨hadmits b, ?_⟩
  show (b.apply effect).Shows activation
  rw [happly b]
  exact hb

/-- A displacement, left out when it is zero. -/
theorem logs_motion (state : ActivationState) (totals : CumulativeMotion) (delta : MotionDelta)
    (through : MotionSequence) (hsum : totals.displacement = state.injectedTotals.displacement + delta) :
    Logs (some state) (if delta ≠ 0 then [.motion delta through] else [])
      (some { state with injectedTotals := totals }) := by
  by_cases hzero : delta = 0
  · have htotals : totals = state.injectedTotals := by
      rw [← CumulativeMotion.displacement_inj, hsum, hzero, add_zero]
    rw [if_neg (not_not.mpr hzero), htotals]
    exact .nil _
  · rw [if_pos hzero]
    refine .single fun b hb => ⟨trivial, hb.1, ?_⟩
    intro state' h
    cases h
    simp [Backend.machine, Backend.apply, hb.2 state rfl, hsum]

/-- Two activations a backend cannot tell apart: the sequences and the lease are not its business. -/
theorem Logs.same {before : Option ActivationState} {log : List ReceiverEffect}
    {state state' : ActivationState} (h : Logs before log (some state))
    (hheld : state'.held = state.held) (htotals : state'.injectedTotals = state.injectedTotals) :
    Logs before log (some state') := by
  intro b hb
  obtain ⟨hlegal, hshows, hmoved⟩ := h b hb
  refine ⟨hlegal, ?_, ?_⟩
  · rw [hshows]
    exact hheld.symm
  · intro s hs
    cases hs
    rw [htotals]
    exact hmoved state rfl

/-! ## The pieces of a call -/

theorem logs_reconcileKeys (state : ActivationState) (authoritative : HeldState) : Logs (some state)
      ((keysUp state.held authoritative).map (.key · false true)
        ++ (keysDown state.held authoritative).map (.key · true true))
      (some { state with held := { state.held with pressedKeys := authoritative.pressedKeys } }) := by
  have hup := logs_keysUp state (keysUp state.held authoritative)
    (nodup_keysUp _ _) fun key hkey => ((mem_keysUp _ _ _).mp hkey).1
  rw [foldl_releaseKey] at hup
  have hfree : ∀ key ∈ keysDown state.held authoritative, key ∉
      (keysUp state.held authoritative).foldl (fun set y => set.erase y) state.held.pressedKeys := by
    intro key hkey
    rw [mem_foldl_erase, not_and]
    exact fun hheld => absurd hheld ((mem_keysDown _ _ _).mp hkey).2
  have hkeys := foldl_up_down (mem_keysUp state.held authoritative) (mem_keysDown state.held authoritative)
  rw [← hkeys]
  refine hup.append ((logs_keysDown _ _ (nodup_keysDown _ _) hfree).same ?_ rfl)
  rw [foldl_pressKey]

theorem logs_reconcileButtons (state : ActivationState) (authoritative : HeldState) : Logs (some state)
      ((buttonsUp state.held authoritative).map (.button · false true)
        ++ (buttonsDown state.held authoritative).map (.button · true true))
      (some { state with
        held := { state.held with pressedButtons := authoritative.pressedButtons } }) := by
  have hup := logs_buttonsUp state (buttonsUp state.held authoritative) (nodup_buttonsUp _ _)
    fun button hbutton => ((mem_buttonsUp _ _ _).mp hbutton).1
  rw [foldl_releaseButton] at hup
  have hfree : ∀ button ∈ buttonsDown state.held authoritative, button ∉
      (buttonsUp state.held authoritative).foldl (fun set y => set.erase y)
        state.held.pressedButtons := by
    intro button hbutton
    rw [mem_foldl_erase, not_and]
    exact fun hheld => absurd hheld ((mem_buttonsDown _ _ _).mp hbutton).2
  have hbuttons := foldl_up_down (mem_buttonsUp state.held authoritative) (mem_buttonsDown state.held authoritative)
  rw [← hbuttons]
  refine hup.append ((logs_buttonsDown _ _ (nodup_buttonsDown _ _) hfree).same ?_ rfl)
  rw [foldl_pressButton]

/-- **The walk of `reconcileHeld` is a list of real edges** and ends where it should. -/
theorem logs_reconcileHeld (state : ActivationState) (authoritative : HeldState) :
    Logs (some state) (reconcileHeld state authoritative).1 (some { state with held := authoritative }) := by
  rw [reconcileHeld_eq]
  have hkeys := logs_reconcileKeys state authoritative
  have hbuttons := logs_reconcileButtons
    { state with held := { state.held with pressedKeys := authoritative.pressedKeys } } authoritative
  have hedges := hkeys.append hbuttons
  rw [← List.append_assoc] at hedges
  refine hedges.append ?_
  by_cases htouch : state.held.activeTouch = authoritative.activeTouch
  · rw [touchChange, if_neg (not_not.mpr htouch)]
    refine Logs.same (.nil _) ?_ rfl
    simp only [htouch]
  · rw [touchChange, if_pos htouch]
    exact logs_touch _ authoritative.activeTouch true

/-- **A close is logged with nothing held.** -/
theorem logs_closeActivation (r : Receiver) (reason : SessionCloseReason) :
    Logs r.activation (r.closeActivation reason).1 (r.closeActivation reason).2.activation := by
  cases h : r.activation with
  | none =>
    rw [Receiver.closeActivation_none h, h]
    exact .nil _
  | some state =>
    rw [Receiver.closeActivation_some h]
    refine (logs_reconcileHeld state .neutral).append (.single fun b hb => ⟨hb.1, hb.1, ?_⟩)
    intro state' h'
    cases h'

/-- The anchor of a payload: what the backend still lacks, and a touch state that differs. -/
theorem logs_applyAnchorOf {state : ActivationState} {payload : ReliableControl}
    {delta : Option MotionDelta} (h : Receiver.Anchored state payload delta) :
    Logs (some state) (applyAnchorOf state payload delta).1 (some (applyAnchorOf state payload delta).2) := by
  unfold applyAnchorOf
  rcases h with ⟨hnone, -⟩ | ⟨anchor, d, hsome, rfl, hvalid⟩
  · rw [hnone]
    exact .nil _
  · rw [hsome]
    have hd : anchor.totals.displacement = state.injectedTotals.displacement + d := by
      obtain ⟨-, -, hdelta⟩ := Receiver.validateAnchor_eq_ok.mp hvalid
      rw [(CumulativeMotion.checkedDeltaFrom_eq_ok.mp hdelta).1]
      ext <;> simp
    have hmotion := logs_motion state anchor.totals d anchor.throughMotionSequence hd
    show Logs (some state) (applyAnchor state anchor d).1 (some (applyAnchor state anchor d).2)
    unfold applyAnchor
    by_cases htouch : state.held.activeTouch = anchor.finalTouchState
    · simp only [htouch, ne_eq, not_true_eq_false, if_false]
      exact hmotion.same rfl rfl
    · simp only [htouch, ne_eq, not_false_eq_true, if_true]
      exact (hmotion.append (logs_touch _ anchor.finalTouchState true)).same rfl rfl

/-- An anchor touches no key and no button. -/
theorem applyAnchorOf_held (state : ActivationState) (payload : ReliableControl) (delta : Option MotionDelta) :
    (applyAnchorOf state payload delta).2.held.pressedKeys = state.held.pressedKeys ∧
      (applyAnchorOf state payload delta).2.held.pressedButtons = state.held.pressedButtons := by
  unfold applyAnchorOf
  split
  · unfold applyAnchor
    simp only
    split <;> exact ⟨rfl, rfl⟩
  · exact ⟨rfl, rfl⟩

/-- **A payload that the transition checks let through is a real edge.** -/
theorem logs_applyPayload {state before : ActivationState} {message : ReliableControlMessage}
    (hvalid : Receiver.validateTransition before message.payload = true)
    (hkeys : state.held.pressedKeys = before.held.pressedKeys)
    (hbuttons : state.held.pressedButtons = before.held.pressedButtons) :
    Logs (some state) (applyPayload state message).1 (some (applyPayload state message).2) := by
  unfold applyPayload
  cases hp : message.payload with
  | keyDown key =>
    simp only [hp, Receiver.validateTransition, Bool.not_eq_true', ← hkeys] at hvalid
    exact logs_keysDown state [key] (by simp) (by simpa [← Std.ExtTreeSet.contains_iff_mem] using hvalid)
  | keyUp key =>
    simp only [hp, Receiver.validateTransition, ← hkeys] at hvalid
    exact logs_keysUp state [key] (by simp) (by simpa [← Std.ExtTreeSet.contains_iff_mem] using hvalid)
  | buttonDown button anchor =>
    simp only [hp, Receiver.validateTransition, Bool.and_eq_true, Bool.not_eq_true', ← hbuttons] at hvalid
    exact logs_buttonsDown state [button] (by simp)
      (by simpa [← Std.ExtTreeSet.contains_iff_mem] using hvalid.2)
  | buttonUp button anchor =>
    simp only [hp, Receiver.validateTransition, Bool.and_eq_true, ← hbuttons] at hvalid
    exact logs_buttonsUp state [button] (by simp)
      (by simpa [← Std.ExtTreeSet.contains_iff_mem] using hvalid.2)
  | touchBegin initialState => exact logs_touch state initialState false
  | touchEnd anchor => exact logs_touch state ∅ false
  | touchCancel anchor => exact logs_touch state ∅ false
  | stateSnapshot snapshot =>
    have hwalk := logs_reconcileHeld state snapshot.held
    simp only [reconcileHeld_eq] at hwalk ⊢
    exact hwalk.append (logs_note (fun _ => rfl) fun _ => trivial)
  | sessionClose reason final => exact .nil _
  | snapshotAck ack => exact .nil _
  | enter => exact .nil _

/-- The step of an accepted message. -/
theorem logs_acceptState {state : ActivationState} {message : ReliableControlMessage}
    {delta : Option MotionDelta} (now : MonotonicTimeMicros) (lease : Duration)
    (hvalid : Receiver.validateTransition state message.payload = true)
    (hanchored : Receiver.Anchored state message.payload delta) :
    Logs (some state) (acceptState state message now delta lease).1
      (some (acceptState state message now delta lease).2) := by
  obtain ⟨hkeys, hbuttons⟩ := applyAnchorOf_held state message.payload delta
  have hanchor := logs_applyAnchorOf hanchored
  have hpayload := logs_applyPayload hvalid hkeys hbuttons
  exact (hanchor.append hpayload).same rfl rfl

theorem logs_acceptControl {r : Receiver} {state : ActivationState}
    {message : ReliableControlMessage} {delta : Option MotionDelta} (now : MonotonicTimeMicros)
    (active : r.activation = some state)
    (hvalid : Receiver.validateTransition state message.payload = true)
    (hanchored : Receiver.Anchored state message.payload delta) :
    Logs r.activation (r.acceptControl message now state delta).1
      (r.acceptControl message now state delta).2.activation := by
  have hstep := logs_acceptState now r.config.heldStateLease hvalid hanchored
  rw [active]
  rcases Receiver.acceptControl_eq now delta r hvalid with ⟨reason, final, -, h⟩ | ⟨-, h⟩
  · rw [h]
    refine hstep.append ?_
    have hclose := logs_closeActivation
      { r with activation := some (r.accepting message now state delta).2 } reason
    rw [Receiver.closeActivation_activation] at hclose
    exact hclose
  · rw [h]
    exact hstep

/-- The step of playout on the open activation. -/
theorem logs_playState {state : ActivationState} {step : PlayoutStep} {totals : CumulativeMotion}
    (sum : state.injectedTotals.checkedAdd step.delta = .ok totals) :
    Logs (some state) (playState state step totals).1 (some (playState state step totals).2) := by
  have hmotion := logs_motion state totals step.delta step.throughSequence (CumulativeMotion.checkedAdd_eq_ok.mp sum).1
  unfold playState
  cases htouch : step.touchSnapshot with
  | none =>
    simp only [List.append_nil]
    refine hmotion.same ?_ ?_ <;> split <;> rfl
  | some touch =>
    by_cases hsame : state.held.activeTouch = touch
    · simp only [hsame, ne_eq, not_true_eq_false, if_false, List.append_nil]
      refine hmotion.same ?_ ?_ <;> split <;> rfl
    · simp only [hsame, ne_eq, not_false_eq_true, if_true]
      refine (hmotion.append (logs_touch _ touch false)).same ?_ ?_ <;> split <;> rfl

/-! ## Runs -/

/-- **Each piece of a call is a legal log** from the activation before it to the one after. -/
theorem logs_callRule : Receiver.CallRule fun r log r' => Logs r.activation log r'.activation where
  noted r _ _ _ := .nil r.activation
  append _ _ _ _ _ hab hbc := hab.append hbc
  close := logs_closeActivation
  order r message now _ := by
    generalize hresult : r.orderControl message now = result
    have hcases := Receiver.orderControl_cases message now r
    rw [hresult] at hcases
    cases hcases with
    | refused reason => exact logs_note (fun _ => rfl) fun _ => trivial
    | enterRefused reason => exact logs_note (fun _ => rfl) fun _ => trivial
    | opened =>
      have hclose := logs_closeActivation r .superseded
      rw [Receiver.closeActivation_activation] at hclose
      refine hclose.append (.single fun b hb => ⟨trivial, hb.1, ?_⟩)
      intro state h
      cases h
      rfl
    | overflowed => exact logs_closeActivation r .motionOverflow
    | accepted state delta active _ _ valid anchored =>
      exact logs_acceptControl now active valid anchored
  play r session step := by
    generalize hresult : r.playStep session step = result
    have hcases := Receiver.playStep_cases session step r
    rw [hresult] at hcases
    cases hcases with
    | refused reason => exact logs_note (fun _ => rfl) fun _ => trivial
    | violated => exact logs_closeActivation r .protocolViolation
    | overflowed => exact logs_closeActivation r .motionOverflow
    | played state totals active _ _ _ sum =>
      rw [active]
      exact logs_playState sum

/-- The log of a run and the receiver it leaves. -/
def Receiver.runCalls (r : Receiver) (calls : List ReceiverCall) :
    List ReceiverEffect × Receiver :=
  Replay.collect Receiver.emit r calls

/-- **A run is a legal log** of the backend, from any state that stands where the receiver does. -/
theorem logs_runCalls (r : Receiver) (calls : List ReceiverCall) :
    Logs r.activation (r.runCalls calls).1 (r.runCalls calls).2.activation :=
  Replay.Tracks.collect (fun r c => logs_callRule.emit r c) r calls

/-- A new receiver has nothing open, so the neutral backend stands where it does. -/
theorem shows_new {config : ReceiverConfig} {now : MonotonicTimeMicros} {r : Receiver}
    (h : Receiver.new config now = .ok r) : Backend.neutral.Shows r.activation := by
  rw [(Receiver.new_eq_ok.mp h).2]
  exact ⟨rfl, by simp⟩

/-- **The effects are a faithful log of the state.** After any calls on a new receiver, a backend
that replayed its effects from neutral holds exactly what the open activation holds, has moved by
its injected totals since it opened, and was never told anything but real edges and closes with
nothing held. -/
theorem effects_log_state (config : ReceiverConfig) (now : MonotonicTimeMicros) (r : Receiver)
    (hnew : Receiver.new config now = .ok r) (calls : List ReceiverCall) :
    let log := (r.runCalls calls).1
    let activation := (r.runCalls calls).2.activation
    (Backend.machine.run .neutral log).held = heldBy activation ∧ (∀ state, activation = some state →
        (Backend.machine.run .neutral log).moved = state.injectedTotals.displacement) ∧
      ∀ before effect after, log = before ++ effect :: after →
        (Backend.machine.run .neutral before).Admits effect := by
  obtain ⟨hlegal, hheld, hmoved⟩ := logs_runCalls r calls .neutral (shows_new hnew)
  refine ⟨hheld, hmoved, ?_⟩
  exact (Backend.machine.legal_iff_forall_split _ _).mp hlegal

theorem effects_log_state_sample : (Backend.machine.run .neutral (sampleReceiver.runCalls sampleCalls).1).held =
      heldBy (sampleReceiver.runCalls sampleCalls).2.activation :=
  (effects_log_state sampleConfig 0 sampleReceiver rfl sampleCalls).1

end Zflow.Core
