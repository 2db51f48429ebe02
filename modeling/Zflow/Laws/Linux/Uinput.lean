import Zflow.Laws.Core.Keymap
import Zflow.Linux.Uinput

/-!
# What an effect leaves on the virtual devices

Of an effect that is applied: the physical keys the keyboard follows, the buttons and the contacts are what
the effect makes of them, whatever the remap injects meanwhile. A close leaves nothing down.
-/

namespace Zflow.Linux

open Zflow.Core Lib InputThread

theorem ok_of_isOk {result : Except InjectionError Unit} (h : result.isOk = true) : result = .ok () := by
  cases result with
  | ok answer => rfl
  | error error => cases h

/-! ## The methods -/

namespace VirtualKeyboard

variable {k k' : VirtualKeyboard}

theorem inject_remap (edge : Edge) (k : VirtualKeyboard) : (inject edge k).2.remap = k.remap := by
  rw [inject, Act.bind_apply]
  cases hidToEvdevKey edge.1 <;> rfl

theorem injectAll_remap (edges : List Edge) (k : VirtualKeyboard) : (injectAll edges k).2.remap = k.remap := by
  induction edges generalizing k with
  | nil => rfl
  | cons edge rest ih =>
    have hfirst := inject_remap edge k
    cases hresult : inject edge k with
    | mk result after =>
      rw [hresult] at hfirst
      cases result with
      | ok answer =>
        rw [injectAll, Act.bind_of_ok hresult]
        exact (ih after).trans hfirst
      | error error =>
        rw [injectAll, Act.bind_of_error hresult]
        exact hfirst

/-- A call whose edges are injected leaves the remap as the call does. -/
theorem remapped_remap {call : KeyRemap.Call}
    (h : (remapped call >>= injectAll) k = (.ok (), k')) : k'.remap = (k.remap.call call).2 := by
  obtain ⟨edges, after, hcall, hinject⟩ := Act.bind_eq_ok.mp h
  cases hcall
  rw [← show (injectAll _ _).2 = k' from congrArg Prod.snd hinject]
  exact injectAll_remap _ _

theorem setKey_remap {usage : HidUsage} {pressed : Bool} (h : setKey usage pressed k = (.ok (), k')) :
    k'.remap = (k.remap.call (.key usage pressed)).2 := by
  obtain ⟨code, after, hcode, hrest⟩ := Act.bind_eq_ok.mp h
  obtain ⟨-, rfl⟩ := Act.lift_eq_ok.mp hcode
  exact remapped_remap hrest

/-- Nothing is injected, and no key of the peer is known. -/
theorem releaseAll_eq (h : releaseAll k = (.ok (), k')) : k' = ⟨k.remap.reset k.remap.mode, ∅⟩ := by
  obtain ⟨⟨⟩, after, hreset, hrest⟩ := Act.bind_eq_ok.mp h
  cases hreset
  obtain ⟨held, after, hread, hrest⟩ := Act.bind_eq_ok.mp hrest
  cases hread
  obtain ⟨codes, after, hcodes, hclear⟩ := Act.bind_eq_ok.mp hrest
  obtain ⟨-, rfl⟩ := Act.lift_eq_ok.mp hcodes
  cases hclear
  rfl

theorem begin_eq {mode : KeyboardMode} (h : begin mode k = (.ok (), k')) : ∃ r : KeyRemap, k' = ⟨r.reset mode, ∅⟩ := by
  obtain ⟨⟨⟩, after, hrelease, hreset⟩ := Act.bind_eq_ok.mp h
  cases hreset
  rw [releaseAll_eq hrelease]
  exact ⟨_, rfl⟩

end VirtualKeyboard

namespace VirtualPointer

variable {p p' : VirtualPointer}

theorem setButton_held {button : PointerButton} {pressed : Bool} (h : setButton button pressed p = (.ok (), p'))
    (other : PointerButton) :
    other ∈ p'.held ↔ if button = other then pressed = true else other ∈ p.held := by
  obtain ⟨code, after, hcode, hchange⟩ := Act.bind_eq_ok.mp h
  obtain ⟨-, rfl⟩ := Act.lift_eq_ok.mp hcode
  cases hchange
  cases pressed with
  | true =>
    show other ∈ p.held.insert button ↔ _
    rw [Std.ExtTreeSet.mem_insert, Std.compare_eq_iff_eq]
    split <;> simp_all
  | false =>
    show other ∈ p.held.erase button ↔ _
    rw [Std.ExtTreeSet.mem_erase, ne_eq, Std.compare_eq_iff_eq]
    split <;> simp_all

theorem releaseAll_eq (h : releaseAll p = (.ok (), p')) : p' = ⟨∅⟩ := by
  obtain ⟨held, after, hread, hrest⟩ := Act.bind_eq_ok.mp h
  cases hread
  obtain ⟨codes, after, hcodes, hclear⟩ := Act.bind_eq_ok.mp hrest
  obtain ⟨-, rfl⟩ := Act.lift_eq_ok.mp hcodes
  cases hclear
  rfl

end VirtualPointer

theorem VirtualTouchpad.replace_eq {touch : TouchState} {t t' : VirtualTouchpad}
    (h : replace touch t = (.ok (), t')) : t' = ⟨touch.keys⟩ := by
  unfold replace at h
  split at h
  · cases h
  · cases h
    rfl

/-! ## All of them -/

namespace VirtualDevices

/-- Nothing is injected, no key of the peer is known, and no button or contact is down. -/
def NothingDown (d : VirtualDevices) : Prop :=
  d.keyboard.held = ∅ ∧ d.keyboard.remap.physical = ∅ ∧ d.pointer.held = ∅ ∧ d.contacts = []

/-- Whether the keyboard follows a key after an effect, where it did or did not before. -/
def keyAfter (usage : HidUsage) (down : Prop) : ReceiverEffect → Prop
  | .key other pressed _ => if other = usage then pressed = true else down
  | .activationOpened _ | .activationClosed .. => False
  | _ => down

def buttonAfter (button : PointerButton) (down : Prop) : ReceiverEffect → Prop
  | .button other pressed _ => if other = button then pressed = true else down
  | .activationClosed .. => False
  | _ => down

def contactsAfter (contacts : List ContactId) : ReceiverEffect → List ContactId
  | .touchReplaced touch _ => touch.keys
  | .activationClosed .. => []
  | _ => contacts

variable {d d' : VirtualDevices} {effect : ReceiverEffect} {touchCapturedAt : CapturedAt}
  {mode : KeyboardMode}

/-- **What an applied effect leaves.** -/
structure Applied (effect : ReceiverEffect) (d d' : VirtualDevices) : Prop where
  sound : KeyRemap.Sound d'.keyboard.remap
  keys : ∀ usage, usage ∈ d'.keyboard.remap.physical ↔
    keyAfter usage (usage ∈ d.keyboard.remap.physical) effect
  buttons : ∀ button, button ∈ d'.pointer.held ↔ buttonAfter button (button ∈ d.pointer.held) effect
  contacts : d'.contacts = contactsAfter d.contacts effect

/-- What a call to the keyboard's remap that presses no key of the peer leaves. -/
structure Prepared (d d' : VirtualDevices) : Prop where
  sound : KeyRemap.Sound d'.keyboard.remap
  keys : d'.keyboard.remap.physical = d.keyboard.remap.physical
  pointer : d'.pointer = d.pointer
  touchpad : d'.touchpad = d.touchpad

theorem onDevices_ok {x : Act InjectionError VirtualDevices Unit} (h : onDevices x d = (.ok (), d')) :
    x d = (.ok (), d') := by
  obtain ⟨after, hx, rfl⟩ := Act.on_eq_ok.mp h
  exact hx

theorem onKeyboard_ok {x : Act InjectionError VirtualKeyboard Unit} (h : onDevices (onKeyboard x) d = (.ok (), d')) :
    ∃ keyboard, x d.keyboard = (.ok (), keyboard) ∧ d' = { d with keyboard } := by
  obtain ⟨keyboard, hkeyboard, rfl⟩ := Act.on_eq_ok.mp (onDevices_ok h)
  exact ⟨keyboard, hkeyboard, rfl⟩

theorem onPointer_ok {x : Act InjectionError VirtualPointer Unit} (h : onDevices (onPointer x) d = (.ok (), d')) :
    ∃ pointer, x d.pointer = (.ok (), pointer) ∧ d' = { d with pointer } := by
  obtain ⟨pointer, hpointer, rfl⟩ := Act.on_eq_ok.mp (onDevices_ok h)
  exact ⟨pointer, hpointer, rfl⟩

theorem replaceTouch_eq {touch : TouchState} (h : replaceTouch touch d = (.ok (), d')) :
    d' = { d with touchpad := d'.touchpad } ∧ d'.contacts = touch.keys := by
  unfold replaceTouch at h
  split at h
  next touchpad htouchpad =>
    obtain ⟨hresult, rfl⟩ := Prod.ext_iff.mp h
    refine ⟨rfl, ?_⟩
    exact congrArg VirtualTouchpad.contacts (VirtualTouchpad.replace_eq (Prod.ext hresult rfl))
  next htouchpad =>
    obtain ⟨hempty, rfl⟩ := Prod.ext_iff.mp h
    refine ⟨rfl, ?_⟩
    split at hempty
    next hnone =>
      rw [Std.ExtTreeMap.isEmpty_iff.mp hnone]
      simp [VirtualDevices.contacts, htouchpad]
    next => cases hempty

theorem prepared (hsound : KeyRemap.Sound d.keyboard.remap)
    (h : preparePointer effect d = (.ok (), d')) : Prepared d d' := by
  unfold preparePointer at h
  split at h
  next busy _ =>
    obtain ⟨keyboard, hpointer, rfl⟩ := onKeyboard_ok h
    have hremap := VirtualKeyboard.remapped_remap hpointer
    have hkept := hsound.pointer busy
    exact ⟨hremap ▸ hkept.sound, (congrArg KeyRemap.physical hremap).trans hkept.physical, rfl, rfl⟩
  next busy _ =>
    cases h
    exact ⟨hsound.call (.pointerReleased busy), rfl, rfl, rfl⟩
  next =>
    cases h
    exact ⟨hsound, rfl, rfl, rfl⟩

theorem Prepared.contacts (h : Prepared d d') : d'.contacts = d.contacts := by
  unfold VirtualDevices.contacts
  rw [h.touchpad]

/-- What presses no key and touches neither a button nor a contact. -/
theorem Prepared.applied (h : Prepared d d') (hkey : ∀ usage down, keyAfter usage down effect = down)
    (hbutton : ∀ button down, buttonAfter button down effect = down)
    (hcontacts : contactsAfter d.contacts effect = d.contacts) : Applied effect d d' where
  sound := h.sound
  keys usage := by rw [hkey, h.keys]
  buttons button := by rw [hbutton, h.pointer]
  contacts := h.contacts.trans hcontacts.symm

theorem touchpad_releaseAll_eq {touchpad : Option VirtualTouchpad}
    (h : (touchpad.map VirtualTouchpad.releaseAll).all (·.1.isOk) = true) :
    (touchpad.map VirtualTouchpad.releaseAll).map (·.2) = touchpad.map fun _ => ⟨[]⟩ := by
  cases touchpad with
  | none => rfl
  | some t =>
    have hresult : VirtualTouchpad.replace ∅ t = (.ok (), (VirtualTouchpad.releaseAll t).2) :=
      Prod.ext (ok_of_isOk h) rfl
    exact congrArg some (VirtualTouchpad.replace_eq hresult)

theorem releaseAll_eq (h : (releaseAll d).1 = true) : (releaseAll d).2 =
      ⟨⟨d.keyboard.remap.reset d.keyboard.remap.mode, ∅⟩, ⟨∅⟩, d.touchpad.map fun _ => ⟨[]⟩⟩ := by
  simp only [releaseAll, Bool.and_eq_true] at h
  obtain ⟨⟨hkeys, hbuttons⟩, htouch⟩ := h
  have hkeyboard : VirtualKeyboard.releaseAll d.keyboard = (.ok (), (VirtualKeyboard.releaseAll d.keyboard).2) :=
    Prod.ext (ok_of_isOk hkeys) rfl
  have hpointer : VirtualPointer.releaseAll d.pointer = (.ok (), (VirtualPointer.releaseAll d.pointer).2) :=
    Prod.ext (ok_of_isOk hbuttons) rfl
  simp only [releaseAll]
  rw [VirtualKeyboard.releaseAll_eq hkeyboard, VirtualPointer.releaseAll_eq hpointer, touchpad_releaseAll_eq htouch]

/-- Devices that are released hold nothing down. -/
theorem releaseDevices_nothing (h : releaseDevices d = (.ok (), d')) :
    d'.NothingDown ∧ KeyRemap.Sound d'.keyboard.remap := by
  have hall : (releaseAll d).1 = true ∧ (releaseAll d).2 = d' := by
    unfold releaseDevices at h
    split at h
    next hok => exact ⟨hok, congrArg Prod.snd h⟩
    next => cases h
  rw [← hall.2, releaseAll_eq hall.1]
  refine ⟨⟨rfl, rfl, rfl, ?_⟩, .reset _ _⟩
  cases d.touchpad <;> rfl

/-- **Every effect that is applied** makes of the keys, the buttons and the contacts what it says. -/
theorem applied (hsound : KeyRemap.Sound d.keyboard.remap)
    (h : applyReceiverEffect effect touchCapturedAt mode d = (.ok (), d')) : Applied effect d d' := by
  obtain ⟨⟨⟩, mid, hprepare, happly⟩ := Act.bind_eq_ok.mp h
  have hprepared := prepared hsound hprepare
  cases effect with
  | motion delta throughSequence =>
    cases happly
    exact hprepared.applied (fun _ _ => rfl) (fun _ _ => rfl) rfl
  | key key pressed synthetic =>
    obtain ⟨keyboard, hkey, rfl⟩ := onKeyboard_ok happly
    have hremap := VirtualKeyboard.setKey_remap hkey
    refine ⟨hremap ▸ hprepared.sound.call (.key key pressed), fun usage => ?_, fun button => ?_, ?_⟩
    · show usage ∈ keyboard.remap.physical ↔ _
      have hphysical := (KeyRemap.key_sound hprepared.sound key pressed).2 usage
      rw [hprepared.keys] at hphysical
      rw [hremap]
      exact hphysical
    · exact iff_of_eq (congrArg (button ∈ VirtualPointer.held ·) hprepared.pointer)
    · exact hprepared.contacts
  | button button pressed synthetic =>
    obtain ⟨pointer, hbutton, rfl⟩ := onPointer_ok happly
    refine ⟨hprepared.sound, fun usage => ?_, fun other => ?_, ?_⟩
    · exact iff_of_eq (congrArg (usage ∈ ·) hprepared.keys)
    · rw [VirtualPointer.setButton_held hbutton other, hprepared.pointer]
      exact Iff.rfl
    · exact hprepared.contacts
  | touchReplaced touch synthetic =>
    obtain ⟨hothers, hcontacts⟩ := replaceTouch_eq (onDevices_ok happly)
    rw [hothers]
    refine ⟨hprepared.sound, fun usage => ?_, fun button => ?_, hcontacts⟩
    · exact iff_of_eq (congrArg (usage ∈ ·) hprepared.keys)
    · exact iff_of_eq (congrArg (button ∈ VirtualPointer.held ·) hprepared.pointer)
  | activationOpened session =>
    obtain ⟨keyboard, hbegin, rfl⟩ := onKeyboard_ok happly
    obtain ⟨remap, rfl⟩ := VirtualKeyboard.begin_eq hbegin
    refine ⟨.reset _ _, fun usage => ?_, fun button => ?_, hprepared.contacts⟩
    · exact iff_of_false Std.ExtTreeSet.not_mem_empty id
    · exact iff_of_eq (congrArg (button ∈ VirtualPointer.held ·) hprepared.pointer)
  | activationClosed session reason =>
    obtain ⟨⟨-, hphysical, hheld, hcontacts⟩, hsound⟩ := releaseDevices_nothing happly
    refine ⟨hsound, fun usage => ?_, fun button => ?_, hcontacts⟩
    · rw [hphysical]
      exact iff_of_false Std.ExtTreeSet.not_mem_empty id
    · rw [hheld]
      exact iff_of_false Std.ExtTreeSet.not_mem_empty id
  | snapshotAck session ack =>
    cases happly
    exact hprepared.applied (fun _ _ => rfl) (fun _ _ => rfl) rfl
  | rejected session reason =>
    cases happly
    exact hprepared.applied (fun _ _ => rfl) (fun _ _ => rfl) rfl

end VirtualDevices

end Zflow.Linux
