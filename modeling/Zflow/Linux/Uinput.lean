import Zflow.Runtime.Linux

/-!
# The virtual devices

The keyboard, pointer and touchpad that the input thread types a peer's input on (`src/linux/uinput.rs`, with
the key and button codes of `src/linux/mapping.rs`): what each holds down, and which input it cannot represent.
The keyboard's remap is `Zflow.Core.KeyRemap`. What a report says besides (where a contact is on the pad, how
far a wheel turns, when it is stamped) is left out, and a device write does not fail here.
-/

namespace Zflow.Linux

open Zflow.Core Lib InputThread

/-! ## Codes -/

/-- `HID_CONSUMER`. -/
def hidConsumer : Nat := 0x0c

/-- `KEY_MAP`: the code of each key that has one. -/
def keyMap : List (Nat × HidUsage) :=
  [(1, .keyboard 0x29), (2, .keyboard 0x1e), (3, .keyboard 0x1f), (4, .keyboard 0x20), (5, .keyboard 0x21),
    (6, .keyboard 0x22), (7, .keyboard 0x23), (8, .keyboard 0x24), (9, .keyboard 0x25), (10, .keyboard 0x26),
    (11, .keyboard 0x27), (12, .keyboard 0x2d), (13, .keyboard 0x2e), (14, .keyboard 0x2a),
    (15, .keyboard 0x2b), (16, .keyboard 0x14), (17, .keyboard 0x1a), (18, .keyboard 0x08),
    (19, .keyboard 0x15), (20, .keyboard 0x17), (21, .keyboard 0x1c), (22, .keyboard 0x18),
    (23, .keyboard 0x0c), (24, .keyboard 0x12), (25, .keyboard 0x13), (26, .keyboard 0x2f),
    (27, .keyboard 0x30), (28, .keyboard 0x28), (29, .keyboard 0xe0), (30, .keyboard 0x04),
    (31, .keyboard 0x16), (32, .keyboard 0x07), (33, .keyboard 0x09), (34, .keyboard 0x0a),
    (35, .keyboard 0x0b), (36, .keyboard 0x0d), (37, .keyboard 0x0e), (38, .keyboard 0x0f),
    (39, .keyboard 0x33), (40, .keyboard 0x34), (41, .keyboard 0x35), (42, .keyboard 0xe1),
    (43, .keyboard 0x31), (44, .keyboard 0x1d), (45, .keyboard 0x1b), (46, .keyboard 0x06),
    (47, .keyboard 0x19), (48, .keyboard 0x05), (49, .keyboard 0x11), (50, .keyboard 0x10),
    (51, .keyboard 0x36), (52, .keyboard 0x37), (53, .keyboard 0x38), (54, .keyboard 0xe5),
    (55, .keyboard 0x55), (56, .keyboard 0xe2), (57, .keyboard 0x2c), (58, .keyboard 0x39),
    (59, .keyboard 0x3a), (60, .keyboard 0x3b), (61, .keyboard 0x3c), (62, .keyboard 0x3d),
    (63, .keyboard 0x3e), (64, .keyboard 0x3f), (65, .keyboard 0x40), (66, .keyboard 0x41),
    (67, .keyboard 0x42), (68, .keyboard 0x43), (69, .keyboard 0x53), (70, .keyboard 0x47),
    (71, .keyboard 0x5f), (72, .keyboard 0x60), (73, .keyboard 0x61), (74, .keyboard 0x56),
    (75, .keyboard 0x5c), (76, .keyboard 0x5d), (77, .keyboard 0x5e), (78, .keyboard 0x57),
    (79, .keyboard 0x59), (80, .keyboard 0x5a), (81, .keyboard 0x5b), (82, .keyboard 0x62),
    (83, .keyboard 0x63), (85, .keyboard 0x94), (86, .keyboard 0x64), (87, .keyboard 0x44),
    (88, .keyboard 0x45), (89, .keyboard 0x87), (90, .keyboard 0x92), (91, .keyboard 0x93),
    (92, .keyboard 0x8a), (93, .keyboard 0x88), (94, .keyboard 0x8b), (95, .keyboard 0x8c),
    (96, .keyboard 0x58), (97, .keyboard 0xe4), (98, .keyboard 0x54), (99, .keyboard 0x46),
    (100, .keyboard 0xe6), (102, .keyboard 0x4a), (103, .keyboard 0x52), (104, .keyboard 0x4b),
    (105, .keyboard 0x50), (106, .keyboard 0x4f), (107, .keyboard 0x4d), (108, .keyboard 0x51),
    (109, .keyboard 0x4e), (110, .keyboard 0x49), (111, .keyboard 0x4c), (113, ⟨hidConsumer, 0xe2⟩),
    (114, ⟨hidConsumer, 0xea⟩), (115, ⟨hidConsumer, 0xe9⟩), (116, ⟨hidConsumer, 0x30⟩), (117, .keyboard 0x67),
    (119, .keyboard 0x48), (121, .keyboard 0x85), (122, .keyboard 0x90), (123, .keyboard 0x91),
    (124, .keyboard 0x89), (125, .keyboard 0xe3), (126, .keyboard 0xe7), (127, .keyboard 0x65),
    (128, .keyboard 0x78), (129, .keyboard 0x79), (130, .keyboard 0xa3), (131, .keyboard 0x7a),
    (132, .keyboard 0x77), (133, .keyboard 0x7c), (134, .keyboard 0x74), (135, .keyboard 0x7d),
    (136, .keyboard 0x7e), (137, .keyboard 0x7b), (138, .keyboard 0x75), (139, .keyboard 0x76),
    (140, ⟨hidConsumer, 0x192⟩), (142, ⟨hidConsumer, 0x32⟩), (143, ⟨hidConsumer, 0x83⟩),
    (150, ⟨hidConsumer, 0x196⟩), (155, ⟨hidConsumer, 0x18a⟩), (156, ⟨hidConsumer, 0x22a⟩),
    (157, ⟨hidConsumer, 0x194⟩), (158, ⟨hidConsumer, 0x224⟩), (159, ⟨hidConsumer, 0x225⟩),
    (161, ⟨hidConsumer, 0xb8⟩), (163, ⟨hidConsumer, 0xb5⟩), (164, ⟨hidConsumer, 0xcd⟩),
    (165, ⟨hidConsumer, 0xb6⟩), (166, ⟨hidConsumer, 0xb7⟩), (167, ⟨hidConsumer, 0xb2⟩),
    (168, ⟨hidConsumer, 0xb4⟩), (172, ⟨hidConsumer, 0x223⟩), (173, ⟨hidConsumer, 0x227⟩),
    (179, .keyboard 0xb6), (180, .keyboard 0xb7), (181, ⟨hidConsumer, 0x201⟩), (182, ⟨hidConsumer, 0x279⟩),
    (183, .keyboard 0x68), (184, .keyboard 0x69), (185, .keyboard 0x6a), (186, .keyboard 0x6b),
    (187, .keyboard 0x6c), (188, .keyboard 0x6d), (189, .keyboard 0x6e), (190, .keyboard 0x6f),
    (191, .keyboard 0x70), (192, .keyboard 0x71), (193, .keyboard 0x72), (194, .keyboard 0x73)]

def hidToEvdevKey (usage : HidUsage) : Except InjectionError Nat :=
  match keyMap.find? (·.2 = usage) with
  | some mapping => .ok mapping.1
  | none => .error .unsupported

/-- From `BTN_LEFT` to `BTN_TASK`. -/
def pointerButtonToEvdev : PointerButton → Except InjectionError Nat
  | 1 => .ok 0x110
  | 2 => .ok 0x111
  | 3 => .ok 0x112
  | 4 => .ok 0x113
  | 5 => .ok 0x114
  | 6 => .ok 0x115
  | 7 => .ok 0x116
  | 8 => .ok 0x117
  | _ => .error .unsupported

/-! ## The keyboard -/

structure VirtualKeyboard where
  /-- Turns the peer's physical key edges into the edges injected here. -/
  remap : KeyRemap
  /-- Injected usages, after the remap. -/
  held : Std.ExtTreeSet HidUsage

namespace VirtualKeyboard

/-- An edge of a key that is already so writes nothing. -/
def inject (edge : Edge) : Act InjectionError VirtualKeyboard Unit := do
  let _ ← Act.lift id (hidToEvdevKey edge.1)
  Act.change fun k => { k with held := if edge.2 then k.held.insert edge.1 else k.held.erase edge.1 }

/-- Each edge is its own report. -/
def injectAll : List Edge → Act InjectionError VirtualKeyboard Unit
  | [] => pure ()
  | edge :: rest => do
    inject edge
    injectAll rest

/-- What the remap makes of a call. -/
def remapped (call : KeyRemap.Call) : Act InjectionError VirtualKeyboard (List Edge) :=
  Act.total fun k => ((k.remap.call call).1, { k with remap := (k.remap.call call).2 })

/-- A key this device cannot type is refused before the remap records it. -/
def setKey (usage : HidUsage) (pressed : Bool) : Act InjectionError VirtualKeyboard Unit := do
  let _ ← Act.lift id (hidToEvdevKey usage)
  let edges ← remapped (.key usage pressed)
  injectAll edges

def pointer (busy : Bool) : Act InjectionError VirtualKeyboard Unit := do
  let edges ← remapped (.pointer busy)
  injectAll edges

/-- It presses nothing. -/
def pointerReleased (busy : Bool) (k : VirtualKeyboard) : VirtualKeyboard :=
  { k with remap := k.remap.pointerReleased busy }

/-- Whether the focused app is a terminal. -/
def setTerminal (terminal : Bool) (k : VirtualKeyboard) : VirtualKeyboard :=
  { k with remap := k.remap.setTerminal terminal }

/-- Forgets the peer's held keys. -/
def reset (mode : KeyboardMode) (k : VirtualKeyboard) : VirtualKeyboard := { k with remap := k.remap.reset mode }

/-- Releases every injected key. The mode stays. -/
def releaseAll : Act InjectionError VirtualKeyboard Unit := do
  Act.change fun k => k.reset k.remap.mode
  let k ← Act.read
  let _ ← Act.lift id (k.held.toList.mapM hidToEvdevKey)
  Act.change fun k => { k with held := ∅ }

/-- Starts an activation, with nothing from the last one down. -/
def begin (mode : KeyboardMode) : Act InjectionError VirtualKeyboard Unit := do
  releaseAll
  Act.change (reset mode)

end VirtualKeyboard

/-! ## The pointer and the touchpad -/

structure VirtualPointer where
  held : Std.ExtTreeSet PointerButton

namespace VirtualPointer

def setButton (button : PointerButton) (pressed : Bool) : Act InjectionError VirtualPointer Unit := do
  let _ ← Act.lift id (pointerButtonToEvdev button)
  Act.change fun p => { p with held := if pressed then p.held.insert button else p.held.erase button }

def releaseAll : Act InjectionError VirtualPointer Unit := do
  let p ← Act.read
  let _ ← Act.lift id (p.held.toList.mapM pointerButtonToEvdev)
  Act.change fun p => { p with held := ∅ }

end VirtualPointer

/-- `MAX_TOUCHPAD_CONTACTS`. -/
def maxTouchpadContacts : Nat := 5

structure VirtualTouchpad where
  /-- The contacts that are down, by their ids. -/
  contacts : List ContactId

namespace VirtualTouchpad

def replace (touch : TouchState) : Act InjectionError VirtualTouchpad Unit := do
  if touch.size > maxTouchpadContacts then Act.fail .tooManyTouchContacts
  else Act.change fun t => { t with contacts := touch.keys }

def releaseAll : Act InjectionError VirtualTouchpad Unit := replace ∅

end VirtualTouchpad

/-! ## All of them -/

/-- `VirtualInput` of `src/linux/uinput.rs`. -/
structure VirtualDevices where
  keyboard : VirtualKeyboard
  pointer : VirtualPointer
  /-- Only where the experimental touchpad is on. -/
  touchpad : Option VirtualTouchpad

namespace VirtualDevices

def onKeyboard (x : Act InjectionError VirtualKeyboard Unit) : Act InjectionError VirtualDevices Unit :=
  .on keyboard (fun keyboard d => { d with keyboard }) id x

def onPointer (x : Act InjectionError VirtualPointer Unit) : Act InjectionError VirtualDevices Unit :=
  .on pointer (fun pointer d => { d with pointer }) id x

/-- The touch contacts that are down. -/
def contacts (d : VirtualDevices) : List ContactId := (d.touchpad.map (·.contacts)).getD []

def replaceTouch (touch : TouchState) : Act InjectionError VirtualDevices Unit := fun d =>
  match d.touchpad with
  | some touchpad =>
    let (result, touchpad) := touchpad |> VirtualTouchpad.replace touch
    (result, { d with touchpad := some touchpad })
  | none => (if touch.isEmpty then .ok () else .error .touchpadDisabled, d)

/-- Every device is released, whatever becomes of the others. -/
def releaseAll (d : VirtualDevices) : Bool × VirtualDevices :=
  let (keys, keyboard) := d.keyboard |> VirtualKeyboard.releaseAll
  let (buttons, pointer) := d.pointer |> VirtualPointer.releaseAll
  let touch := d.touchpad.map VirtualTouchpad.releaseAll
  (keys.isOk && buttons.isOk && touch.all (·.1.isOk), ⟨keyboard, pointer, touch.map (·.2)⟩)

instance : VirtualInput VirtualDevices where
  keyboardBegin mode := onKeyboard (VirtualKeyboard.begin mode)
  keyboardPointer busy := onKeyboard (VirtualKeyboard.pointer busy)
  keyboardPointerReleased busy d := { d with keyboard := d.keyboard.pointerReleased busy }
  setKey usage pressed := onKeyboard (VirtualKeyboard.setKey usage pressed)
  setButton button pressed := onPointer (VirtualPointer.setButton button pressed)
  motion _ := pure ()
  replaceTouchAt touch _ := replaceTouch touch
  releaseAll := releaseAll
  buttons d := d.pointer.held.toList
  touching d := !d.contacts.isEmpty

end VirtualDevices

end Zflow.Linux
