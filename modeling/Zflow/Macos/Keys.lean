import Zflow.Core.Model

/-!
# Mac virtual keycodes

The keycodes and media keys a Mac posts for HID usages, and the flags its events carry
(`src/macos/keys.rs`). Flags are bit sets.
-/

namespace Zflow.Macos

open Zflow.Core

/-- Mac keycodes and the keyboard-page usage at the same position. 10 and 50 name ANSI positions; on ISO
keyboards macOS swaps them. -/
def macKeys : List (Nat × Nat) :=
  [(0, 0x04), (1, 0x16), (2, 0x07), (3, 0x09), (4, 0x0b), (5, 0x0a), (6, 0x1d), (7, 0x1b), (8, 0x06),
   (9, 0x19), (10, 0x64), (11, 0x05), (12, 0x14), (13, 0x1a), (14, 0x08), (15, 0x15), (16, 0x1c),
   (17, 0x17), (18, 0x1e), (19, 0x1f), (20, 0x20), (21, 0x21), (22, 0x23), (23, 0x22), (24, 0x2e),
   (25, 0x26), (26, 0x24), (27, 0x2d), (28, 0x25), (29, 0x27), (30, 0x30), (31, 0x12), (32, 0x18),
   (33, 0x2f), (34, 0x0c), (35, 0x13), (36, 0x28), (37, 0x0f), (38, 0x0d), (39, 0x34), (40, 0x0e),
   (41, 0x33), (42, 0x31), (43, 0x36), (44, 0x38), (45, 0x11), (46, 0x10), (47, 0x37), (48, 0x2b),
   (49, 0x2c), (50, 0x35), (51, 0x2a), (53, 0x29), (54, 0xe7), (55, 0xe3), (56, 0xe1), (57, 0x39),
   (58, 0xe2), (59, 0xe0), (60, 0xe5), (61, 0xe6), (62, 0xe4), (64, 0x6c), (65, 0x63), (67, 0x55),
   (69, 0x57), (71, 0x53), (75, 0x54), (76, 0x58), (78, 0x56), (79, 0x6d), (80, 0x6e), (81, 0x67),
   (82, 0x62), (83, 0x59), (84, 0x5a), (85, 0x5b), (86, 0x5c), (87, 0x5d), (88, 0x5e), (89, 0x5f),
   (90, 0x6f), (91, 0x60), (92, 0x61), (93, 0x89), (94, 0x87), (95, 0x85), (96, 0x3e), (97, 0x3f),
   (98, 0x40), (99, 0x3c), (100, 0x41), (101, 0x42), (102, 0x91), (103, 0x44), (104, 0x90), (105, 0x68),
   (106, 0x6b), (107, 0x69), (109, 0x43), (110, 0x65), (111, 0x45), (113, 0x6a), (114, 0x49),
   (115, 0x4a), (116, 0x4b), (117, 0x4c), (118, 0x3d), (119, 0x4d), (120, 0x3b), (121, 0x4e),
   (122, 0x3a), (123, 0x50), (124, 0x4f), (125, 0x51), (126, 0x52)]

def printScreen : Nat := 0x46
def f13 : Nat := 105

/-- The HID usage page of consumer controls. -/
def consumer : Nat := 0x0c

/-- Consumer-page usages and the `NX_KEYTYPE` macOS posts for them. Power and the rest are dropped. -/
def mediaKeys : List (Nat × Nat) :=
  [(0xe9, 0), (0xea, 1), (0x6f, 2), (0x70, 3), (0xe2, 7), (0xb8, 14), (0xcd, 16), (0xb5, 17),
   (0xb6, 18), (0xb3, 19), (0xb4, 20)]

def shift : Nat := 0x00020000
def control : Nat := 0x00040000
def option : Nat := 0x00080000
def command : Nat := 0x00100000
def numericPad : Nat := 0x00200000
def help : Nat := 0x00400000
def function : Nat := 0x00800000

/-- Modifier keycodes with their aggregate flag and device bit. -/
def modifiers : List (Nat × Nat × Nat) :=
  [(59, control, 0x00000001), (56, shift, 0x00000002), (60, shift, 0x00000004), (55, command, 0x00000008),
   (54, command, 0x00000010), (58, option, 0x00000020), (61, option, 0x00000040), (62, control, 0x00002000)]

/-- The keycode to post for a keyboard-page usage. `iso` is this Mac's own keyboard type. -/
def hidToMacKeycode (usage : HidUsage) (iso : Bool) : Option Nat :=
  if usage.page ≠ HidUsage.keyboardKeypad then none
  else
    -- Macs have no PrintScreen. F13 sits in its place.
    let code := if usage.usage = printScreen then some f13
      else (macKeys.find? (·.2 == usage.usage)).map (·.1)
    code.map fun code => if (code = 10 ∨ code = 50) ∧ iso then 60 - code else code

/-- The `NX_KEYTYPE` to post for a consumer-page usage. -/
def hidToMediaKey (usage : HidUsage) : Option Nat :=
  if usage.page ≠ consumer then none else (mediaKeys.find? (·.1 == usage.usage)).map (·.2)

def isModifier (code : Nat) : Bool := modifiers.any (·.1 == code)

/-- What a held keycode adds to the event flags. -/
def modifierFlag (code : Nat) : Nat :=
  match modifiers.find? (·.1 == code) with
  | some (_, aggregate, device) => aggregate ||| device
  | none => 0

/-- Event flags for the held keycodes: each modifier's aggregate flag and its left or right device bit. -/
def modifierFlags (held : List Nat) : Nat := held.foldl (fun flags code => flags ||| modifierFlag code) 0

/-- Flags a key carries of its own: keypad keys are on the numeric pad, function and navigation keys
carry Fn, and arrows carry both. -/
def keyFlags (code : Nat) : Nat :=
  if 123 ≤ code ∧ code ≤ 126 then numericPad ||| function
  else if code = 114 then help ||| function
  else if code ∈ [65, 67, 69, 75, 76, 78, 81, 82, 83, 84, 85, 86, 87, 88, 89, 91, 92] then numericPad
  else if code ∈ [64, 71, 79, 80, 96, 97, 98, 99, 100, 101, 103, 105, 106, 107, 109, 111, 113, 115, 116,
      117, 118, 119, 120, 121, 122] then function
  else 0

end Zflow.Macos
