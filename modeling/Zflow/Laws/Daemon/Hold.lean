import Zflow.Daemon.Hold
import Zflow.Laws.Core.ReceiverLog
import Zflow.Laws.Daemon.Routing
import Zflow.Laws.Linux.Uinput

/-!
# A hold leaves no key or button down

The log of a receiver replays to what it holds (`logs_runCalls`). The devices replay a part of that log, and
`Below` says how they stand to the whole of it: a press that is dropped leaves them below, and a release is
never dropped. Touch is replaced as one, so of the contacts there is only the last replacement that came
through; one that was dropped since leaves them where they were, even those it lifts.
-/

namespace Zflow.Daemon

open Zflow.Core Lib Linux InputThread
open VirtualDevices (Applied NothingDown)

/-! ## The touch that came through -/

/-- What a log of effects makes of the touchpad. -/
structure Touch where
  /-- The contacts of the last replacement that was let through, if none has closed them since. -/
  contacts : List ContactId
  /-- A replacement was dropped since. -/
  overtaken : Bool

def Touch.after (touch : Touch) : ReceiverEffect × Bool → Touch
  | (.touchReplaced state _, true) => ⟨state.keys, false⟩
  | (.touchReplaced _ _, false) => { touch with overtaken := true }
  | (.activationClosed .., true) => ⟨[], false⟩
  | _ => touch

def touchOf (log : List (ReceiverEffect × Bool)) : Touch := log.foldl Touch.after ⟨[], false⟩

/-! ## One effect -/

/-- **The devices hold no more than the receiver**, but for contacts that a dropped replacement would have
lifted. -/
structure Below (devices : VirtualDevices) (held : HeldState) (touch : Touch) : Prop where
  sound : KeyRemap.Sound devices.keyboard.remap
  keys : ∀ key ∈ devices.keyboard.remap.physical, key ∈ held.pressedKeys
  buttons : ∀ button ∈ devices.pointer.held, button ∈ held.pressedButtons
  contacts : devices.contacts = touch.contacts
  touch : touch.overtaken = false → ∀ id ∈ devices.contacts, id ∈ held.activeTouch

namespace Below

variable {devices devices' : VirtualDevices} {b : Backend} {touch : Touch} {effect : ReceiverEffect}

theorem mem_pressKey {held : HeldState} {key other : HidUsage} :
    other ∈ (held.pressKey key).pressedKeys ↔ key = other ∨ other ∈ held.pressedKeys := by
  rw [HeldState.pressKey, Std.ExtTreeSet.mem_insert, Std.compare_eq_iff_eq]

theorem mem_releaseKey {held : HeldState} {key other : HidUsage} :
    other ∈ (held.releaseKey key).pressedKeys ↔ key ≠ other ∧ other ∈ held.pressedKeys := by
  rw [HeldState.releaseKey, Std.ExtTreeSet.mem_erase, ne_eq, Std.compare_eq_iff_eq]

theorem mem_pressButton {held : HeldState} {button other : PointerButton} :
    other ∈ (held.pressButton button).pressedButtons ↔ button = other ∨ other ∈ held.pressedButtons := by
  rw [HeldState.pressButton, Std.ExtTreeSet.mem_insert, Std.compare_eq_iff_eq]

theorem mem_releaseButton {held : HeldState} {button other : PointerButton} :
    other ∈ (held.releaseButton button).pressedButtons ↔ button ≠ other ∧ other ∈ held.pressedButtons := by
  rw [HeldState.releaseButton, Std.ExtTreeSet.mem_erase, ne_eq, Std.compare_eq_iff_eq]

/-- An effect that does not replace touch leaves the contacts and what is known of them. -/
theorem touch_same {held : HeldState} (h : Below devices held touch) (hsame : devices'.contacts = devices.contacts)
    {held' : HeldState} (hheld : held'.activeTouch = held.activeTouch) :
    touch.overtaken = false → ∀ id ∈ devices'.contacts, id ∈ held'.activeTouch := by
  intro hfresh id hid
  rw [hsame] at hid
  rw [hheld]
  exact h.touch hfresh id hid

/-- An effect that moves nothing of what is held. -/
theorem idle (h : Below devices b.held touch) (happlied : Applied effect devices devices')
    (hkeys : ∀ usage down, VirtualDevices.keyAfter usage down effect = down)
    (hbuttons : ∀ button down, VirtualDevices.buttonAfter button down effect = down)
    (hcontacts : VirtualDevices.contactsAfter devices.contacts effect = devices.contacts) :
    Below devices' b.held touch := by
  have hsame : devices'.contacts = devices.contacts := happlied.contacts.trans hcontacts
  refine ⟨happlied.sound, fun usage husage => ?_, fun button hbutton => ?_, hsame.trans h.contacts,
    h.touch_same hsame rfl⟩
  · have hbefore := (happlied.keys usage).mp husage
    rw [hkeys] at hbefore
    exact h.keys usage hbefore
  · have hbefore := (happlied.buttons button).mp hbutton
    rw [hbuttons] at hbefore
    exact h.buttons button hbefore

/-- An effect that is let through does to the devices what it did to the receiver. -/
theorem delivered (h : Below devices b.held touch) (happlied : Applied effect devices devices') :
    Below devices' (b.apply effect).held (touch.after (effect, true)) := by
  have hidle := h.idle happlied
  obtain ⟨hsound, hkeys, hbuttons, hcontacts⟩ := happlied
  cases effect with
  | key key pressed synthetic =>
    refine ⟨hsound, fun usage husage => ?_, fun button hbutton => ?_, hcontacts.trans h.contacts, ?_⟩
    · have hdown := (hkeys usage).mp husage
      simp only [VirtualDevices.keyAfter] at hdown
      cases pressed with
      | true =>
        apply mem_pressKey.mpr
        split at hdown
        · exact .inl ‹_›
        · exact .inr (h.keys usage hdown)
      | false =>
        apply mem_releaseKey.mpr
        split at hdown
        · cases hdown
        · exact ⟨‹_›, h.keys usage hdown⟩
    · have hheld := h.buttons button ((hbuttons button).mp hbutton)
      cases pressed <;> exact hheld
    · exact h.touch_same hcontacts (by cases pressed <;> rfl)
  | button button pressed synthetic =>
    refine ⟨hsound, fun usage husage => ?_, fun other hother => ?_, hcontacts.trans h.contacts, ?_⟩
    · have hheld := h.keys usage ((hkeys usage).mp husage)
      cases pressed <;> exact hheld
    · have hdown := (hbuttons other).mp hother
      simp only [VirtualDevices.buttonAfter] at hdown
      cases pressed with
      | true =>
        apply mem_pressButton.mpr
        split at hdown
        · exact .inl ‹_›
        · exact .inr (h.buttons other hdown)
      | false =>
        apply mem_releaseButton.mpr
        split at hdown
        · cases hdown
        · exact ⟨‹_›, h.buttons other hdown⟩
    · exact h.touch_same hcontacts (by cases pressed <;> rfl)
  | touchReplaced state synthetic =>
    refine ⟨hsound, fun usage husage => h.keys usage ((hkeys usage).mp husage),
      fun button hbutton => h.buttons button ((hbuttons button).mp hbutton), hcontacts, fun _ id hid => ?_⟩
    rw [hcontacts] at hid
    exact Std.ExtTreeMap.mem_keys.mp hid
  | activationOpened session =>
    exact ⟨hsound, fun usage husage => ((hkeys usage).mp husage).elim,
      fun button hbutton => h.buttons button ((hbuttons button).mp hbutton), hcontacts.trans h.contacts,
      h.touch_same hcontacts rfl⟩
  | activationClosed session reason =>
    refine ⟨hsound, fun usage husage => ((hkeys usage).mp husage).elim,
      fun button hbutton => ((hbuttons button).mp hbutton).elim, hcontacts, fun _ id hid => ?_⟩
    rw [hcontacts] at hid
    cases hid
  | motion delta throughSequence => exact hidle (fun _ _ => rfl) (fun _ _ => rfl) rfl
  | snapshotAck session ack => exact hidle (fun _ _ => rfl) (fun _ _ => rfl) rfl
  | rejected session reason => exact hidle (fun _ _ => rfl) (fun _ _ => rfl) rfl

/-- What is dropped and is no release leaves the devices below. -/
theorem dropped (h : Below devices b.held touch) (hrelease : isRelease effect = false) :
    Below devices (b.apply effect).held (touch.after (effect, false)) := by
  cases effect with
  | key key pressed synthetic =>
    cases pressed with
    | true =>
      exact { h with keys := fun other hother => mem_pressKey.mpr (.inr (h.keys other hother)) }
    | false => cases hrelease
  | button button pressed synthetic =>
    cases pressed with
    | true =>
      exact { h with buttons := fun other hother => mem_pressButton.mpr (.inr (h.buttons other hother)) }
    | false => cases hrelease
  | touchReplaced state synthetic => exact ⟨h.sound, h.keys, h.buttons, h.contacts, nofun⟩
  | activationClosed session reason => cases hrelease
  | activationOpened session => exact h
  | motion delta throughSequence => exact h
  | snapshotAck session ack => exact h
  | rejected session reason => exact h

end Below

/-! ## Batches -/

/-- Inject and Hold let every release through. -/
theorem lets_of_release {admission : Admission} (hadmission : admission ≠ .refuse) {effect : ReceiverEffect}
    (h : isRelease effect = true) : admission.lets effect = true := by
  unfold Admission.lets
  cases admission with
  | inject => simp
  | hold => simp [h]
  | refuse => exact absurd rfl hadmission

section Inject

variable {touchCapturedAt : CapturedAt} {r r' : Receiving VirtualDevices} {effect : ReceiverEffect}
  {rest : List ReceiverEffect}

/-- A batch that is applied in full, one effect at a time. -/
theorem inject_cons (h : Receiving.inject touchCapturedAt r (effect :: rest) = (true, r')) :
    ∃ devices, applyReceiverEffect effect touchCapturedAt r.nextKeyboard r.devices = (.ok (), devices) ∧
      Receiving.inject touchCapturedAt { r with devices } rest = (true, r') := by
  unfold Receiving.inject at h
  split at h
  next devices happly => exact ⟨devices, happly, h⟩
  next => cases h
  next => cases h

/-- **After a delivered close nothing is down.** -/
theorem inject_closed {before : List ReceiverEffect} {session : SessionContext} {reason : SessionCloseReason}
    (h : Receiving.inject touchCapturedAt r (before ++ .activationClosed session reason :: rest) = (true, r')) :
    NothingDown (Receiving.inject touchCapturedAt r (before ++ [.activationClosed session reason])).2.devices := by
  induction before generalizing r with
  | nil =>
    obtain ⟨devices, happly, -⟩ := inject_cons h
    show NothingDown (Receiving.inject touchCapturedAt r [.activationClosed session reason]).2.devices
    simp only [Receiving.inject, happly]
    obtain ⟨⟨⟩, mid, hprepare, hclose⟩ := Act.bind_eq_ok.mp happly
    exact (VirtualDevices.releaseDevices_nothing hclose).1
  | cons effect before ih =>
    obtain ⟨devices, happly, hrest⟩ := inject_cons h
    simp only [List.cons_append, Receiving.inject, happly]
    exact ih hrest

end Inject

/-- **A batch that is applied leaves the devices below**, where `turned` is what becomes of an effect on its
way. -/
theorem Below.batch {admission : Admission} (hadmission : admission ≠ .refuse)
    {turned : ReceiverEffect → ReceiverEffect}
    (hturned : ∀ effect devices devices', Applied (turned effect) devices devices' → Applied effect devices devices')
    {touchCapturedAt : CapturedAt} {effects : List ReceiverEffect} {r r' : Receiving VirtualDevices}
    {b : Backend} {touch : Touch} (h : Below r.devices b.held touch)
    (hinject : Receiving.inject touchCapturedAt r ((effects.filter admission.lets).map turned) = (true, r')) :
    Below r'.devices (Backend.machine.run b effects).held
      ((effects.map fun effect => (effect, admission.lets effect)).foldl Touch.after touch) := by
  induction effects generalizing r b touch with
  | nil =>
    cases hinject
    exact h
  | cons effect rest ih =>
    cases hlets : admission.lets effect with
    | true =>
      rw [List.filter_cons_of_pos hlets, List.map_cons] at hinject
      obtain ⟨devices, happly, hrest⟩ := inject_cons hinject
      have happlied := hturned effect _ _ (VirtualDevices.applied h.sound happly)
      rw [List.map_cons, List.foldl_cons, hlets]
      exact ih (h.delivered happlied) hrest
    | false =>
      have hrelease : isRelease effect = false := by
        cases hrelease : isRelease effect with
        | false => rfl
        | true =>
          rw [lets_of_release hadmission hrelease] at hlets
          cases hlets
      rw [List.filter_cons_of_neg (by simp [hlets])] at hinject
      rw [List.map_cons, List.foldl_cons, hlets]
      exact ih (h.dropped hrelease) hinject

/-- What becomes of an effect that is let through on its way to the devices. -/
def turned (reverseScroll : Bool) (effect : ReceiverEffect) : ReceiverEffect :=
  if reverseScroll then (reverseScrolling [effect]).headD effect else effect

/-- Scrolling that is turned around is no other key, button or contact. -/
theorem applied_of_turned (reverseScroll : Bool) (effect : ReceiverEffect) (devices devices' : VirtualDevices)
    (h : Applied (turned reverseScroll effect) devices devices') : Applied effect devices devices' := by
  cases reverseScroll with
  | false => exact h
  | true => cases effect <;> exact ⟨h.sound, h.keys, h.buttons, h.contacts⟩

namespace Service

theorem command_effects (effects : List ReceiverEffect) (admission : Admission) (reverseScroll : Bool)
    (keyboard : KeyboardMode) (touchCapturedAt : CapturedAt) :
    (command effects admission reverseScroll keyboard touchCapturedAt).effects =
      (effects.filter admission.lets).map (turned reverseScroll) := by
  cases reverseScroll with
  | false => exact (List.map_id _).symm
  | true => exact List.map_congr_left fun effect _ => rfl

/-- A command that is acknowledged was applied in full. -/
theorem handle_ok {command : ReceiverCommand} {r r' : Receiving VirtualDevices}
    (h : r.handle command = (true, r')) : r.stopping = false ∧ Receiving.inject command.touchCapturedAt
      { r with nextKeyboard := command.keyboard.getD r.nextKeyboard } command.effects = (true, r') := by
  unfold Receiving.handle at h
  split at h
  next => cases h
  next hstopping => exact ⟨Bool.eq_false_of_not_eq_true hstopping, h⟩

/-- What serving a batch leaves. -/
theorem serve_cases {effects : List ReceiverEffect} {admission : Admission} {command : ReceiverCommand}
    {s after : Service} (h : s.serve effects admission command = some after) : after.receiver = s.receiver ∧
      after.log = s.log ++ effects.map (fun effect => (effect, admission.lets effect)) ∧
      ∃ r : Receiving VirtualDevices, r.devices = s.receiving.devices ∧
        Receiving.inject command.touchCapturedAt r command.effects = (true, after.receiving) := by
  unfold serve at h
  split at h
  next hempty =>
    cases h
    refine ⟨rfl, rfl, s.receiving, rfl, ?_⟩
    rw [hempty]
    rfl
  next =>
    simp only at h
    split at h
    next happlied =>
      cases h
      refine ⟨rfl, rfl, { s.receiving with
        nextKeyboard := command.keyboard.getD s.receiving.nextKeyboard }, rfl, ?_⟩
      exact (handle_ok (Prod.ext happlied rfl)).2
    next => cases h

/-! ## Runs -/

/-- **What holds between two turns.** -/
structure Kept (s : Service) : Prop where
  below : ∃ b : Backend, b.Shows s.receiver.activation ∧ Below s.receiving.devices b.held (touchOf s.log)
  released : ∀ entry ∈ s.log, isRelease entry.1 = true → entry.2 = true

variable {s after : Service}

theorem Kept.start {config : ReceiverConfig} {now : MonotonicTimeMicros} {receiver : Receiver}
    (hnew : Receiver.new config now = .ok receiver) (mode : KeyboardMode) (terminal experimentalTouchpad : Bool) :
    (Service.start receiver mode terminal experimentalTouchpad).Kept where
  below := by
    refine ⟨.neutral, shows_new hnew, (KeyRemap.Sound.new mode).call (.setTerminal terminal), ?_, ?_, ?_, ?_⟩
    · intro key hkey
      exact absurd hkey Std.ExtTreeSet.not_mem_empty
    · intro button hbutton
      exact absurd hbutton Std.ExtTreeSet.not_mem_empty
    · cases experimentalTouchpad <;> rfl
    · intro _ id hid
      cases experimentalTouchpad <;> cases hid
  released _ hentry := by cases hentry

theorem Kept.step (h : s.Kept) {turn : Turn} (hstep : Service.step turn s = some after) : after.Kept := by
  cases turn with
  | batch calls admission reverseScroll keyboard touchCapturedAt =>
    simp only [Service.step] at hstep
    split at hstep
    next => cases hstep
    next hadmission =>
      obtain ⟨hreceiver, hlog, r, hdevices, hinject⟩ := serve_cases hstep
      rw [command_effects] at hinject
      obtain ⟨b, hshows, hbelow⟩ := h.below
      refine ⟨⟨Backend.machine.run b (s.receiver.runCalls calls).1, ?_, ?_⟩, fun entry hentry hrelease => ?_⟩
      · rw [hreceiver]
        exact (logs_runCalls s.receiver calls b hshows).2
      · rw [hlog, touchOf, List.foldl_append]
        exact (hdevices ▸ hbelow).batch hadmission (applied_of_turned reverseScroll) hinject
      · rw [hlog, List.mem_append] at hentry
        rcases hentry with hbefore | hnew
        · exact h.released entry hbefore hrelease
        · obtain ⟨effect, -, rfl⟩ := List.mem_map.mp hnew
          exact lets_of_release hadmission hrelease
  | focus terminal =>
    cases hstep
    obtain ⟨b, hshows, hbelow⟩ := h.below
    exact ⟨⟨b, hshows, hbelow.sound.call (.setTerminal terminal), hbelow.keys, hbelow.buttons,
      hbelow.contacts, hbelow.touch⟩, h.released⟩

theorem kept_of_reaches {config : ReceiverConfig} {now : MonotonicTimeMicros} {receiver : Receiver}
    (hnew : Receiver.new config now = .ok receiver) {mode : KeyboardMode} {terminal experimentalTouchpad : Bool}
    (h : Service.step.Reaches (fun _ _ => True) (start receiver mode terminal experimentalTouchpad) s) : s.Kept :=
  h.invariant (.start hnew mode terminal experimentalTouchpad) fun _ _ _ hkept _ hstep => hkept.step hstep

/-- However a seat is held and let go, the keys the keyboard follows and the buttons that are down are the
peer's, no release is lost, and a close that comes through leaves nothing down. The contacts are those of the
last touch that came through, and the peer's too unless one was dropped since. -/
theorem hold_leaves_no_more_down {config : ReceiverConfig} {now : MonotonicTimeMicros} {receiver : Receiver}
    (hnew : Receiver.new config now = .ok receiver) {mode : KeyboardMode} {terminal experimentalTouchpad : Bool}
    (h : Service.step.Reaches (fun _ _ => True) (start receiver mode terminal experimentalTouchpad) s) :
    (∀ key ∈ s.receiving.devices.keyboard.remap.physical, key ∈ (heldBy s.receiver.activation).pressedKeys) ∧
    (∀ button ∈ s.receiving.devices.pointer.held, button ∈ (heldBy s.receiver.activation).pressedButtons) ∧
    s.receiving.devices.contacts = (touchOf s.log).contacts ∧
    ((touchOf s.log).overtaken = false →
      ∀ id ∈ s.receiving.devices.contacts, id ∈ (heldBy s.receiver.activation).activeTouch) ∧
    (∀ entry ∈ s.log, isRelease entry.1 = true → entry.2 = true) ∧
    ∀ (command : ReceiverCommand) (before rest : List ReceiverEffect) (session : SessionContext)
      (reason : SessionCloseReason), command.effects = before ++ .activationClosed session reason :: rest →
      (s.receiving.handle command).1 = true → NothingDown (s.receiving.handle
          { command with effects := before ++ [.activationClosed session reason] }).2.devices := by
  obtain ⟨⟨b, ⟨hheld, -⟩, hbelow⟩, hreleased⟩ := kept_of_reaches hnew h
  rw [hheld] at hbelow
  refine ⟨hbelow.keys, hbelow.buttons, hbelow.contacts, hbelow.touch, hreleased, ?_⟩
  intro command before rest session reason heffects happlied
  obtain ⟨hstopping, hinject⟩ := handle_ok (Prod.ext happlied rfl)
  rw [heffects] at hinject
  unfold Receiving.handle
  rw [if_neg (by simp [hstopping])]
  exact inject_closed hinject

/-! A peer that lifts one of two fingers while the seat is unknown. -/

def finger (id : ContactId) : ContactId × TouchContact :=
  (id, ⟨id, 100, 100, none, none, none, none, .finger, none⟩)

def twoFingers : TouchState := .ofList [finger 1, finger 2]

def fingerLifted : PlayoutStep := ⟨40, 1, 0, some (.ofList [finger 1]), true, false, false⟩

/-- The second finger is lifted while the seat is held, and a key is let go. -/
def liftedHeld : List Turn :=
  [.batch [.receiveControl (sampleControl 1 .enter) 10] .inject false .mac none,
    .batch [.receiveControl (sampleControl 2 (.touchBegin twoFingers)) 20,
      .receiveControl (sampleControl 3 (.keyDown (.keyboard 4))) 30,
      .receiveControl (sampleControl 4 (.keyDown (.keyboard 5))) 35] .inject false .mac none,
    .batch [.receivePlayoutStep sampleSession fingerLifted 40,
      .receiveControl (sampleControl 5 (.keyUp (.keyboard 4))) 50] .hold false .mac none]

theorem hold_leaves_no_more_down_lifted :
    ∃ s : Service, Service.step.Reaches (fun _ _ => True) (start sampleReceiver .mac false true) s ∧
      s.receiving.devices.contacts = [1, 2] ∧ (.keyboard 5) ∈ (heldBy s.receiver.activation).pressedKeys := by
  have hrun : ((Service.step.guarded fun _ _ => True).exec liftedHeld
      (start sampleReceiver .mac false true)).any (fun s => (touchOf s.log).contacts = [1, 2] ∧
        .keyboard 5 ∈ s.receiving.devices.keyboard.remap.physical) = true := by decide +kernel
  obtain ⟨s, hreaches, hfacts⟩ := System.exists_reaches_of_exec hrun
  obtain ⟨htouch, hkey⟩ := of_decide_eq_true hfacts
  obtain ⟨hkeys, -, hcontacts, -⟩ := @hold_leaves_no_more_down s sampleConfig 0 sampleReceiver rfl _ _ _ hreaches
  exact ⟨s, hreaches, hcontacts.trans htouch, hkeys _ hkey⟩

/-- The finger that was lifted stays down until touch is replaced again. -/
theorem hold_leaves_finger_down :
    ¬ ∀ (config : ReceiverConfig) (now : MonotonicTimeMicros) (receiver : Receiver) (mode : KeyboardMode)
      (terminal experimentalTouchpad : Bool) (s : Service), Receiver.new config now = .ok receiver →
      Service.step.Reaches (fun _ _ => True) (start receiver mode terminal experimentalTouchpad) s →
        ∀ id ∈ s.receiving.devices.contacts, id ∈ (heldBy s.receiver.activation).activeTouch := by
  intro h
  have hrun : ((Service.step.guarded fun _ _ => True).exec liftedHeld
      (start sampleReceiver .mac false true)).any (fun s => 2 ∈ s.receiving.devices.contacts ∧
        2 ∉ (heldBy s.receiver.activation).activeTouch) = true := by decide +kernel
  obtain ⟨s, hreaches, hfacts⟩ := System.exists_reaches_of_exec hrun
  obtain ⟨hdown, hlifted⟩ := of_decide_eq_true hfacts
  exact hlifted (h sampleConfig 0 sampleReceiver .mac false true s rfl hreaches 2 hdown)

end Service

end Zflow.Daemon
