import Zflow.Core.Receiver
import Zflow.Lib.Replay

/-!
# Keyboard modes

The pure stage between the receiver and an input backend (`src/core/keymap.rs`): physical key edges in,
injected edges out. A method answers with the edges it adds, in order, and the next state. A
`BTreeMap` is walked in the order of its keys, which `toList` lists.
-/

namespace Zflow.Core

open Lib

/-- How a peer's physical keys are typed here. -/
inductive KeyboardMode where
  | standard | pcPositions | mac
  deriving DecidableEq

/-- A key goes down (`true`) or up. -/
abbrev Edge := HidUsage × Bool

namespace Keymap

/-! ## The keys -/

def lctrl : HidUsage := .keyboard 0xe0
def lshift : HidUsage := .keyboard 0xe1
def lalt : HidUsage := .keyboard 0xe2
def lgui : HidUsage := .keyboard 0xe3
def rctrl : HidUsage := .keyboard 0xe4
def rshift : HidUsage := .keyboard 0xe5
def ralt : HidUsage := .keyboard 0xe6
def rgui : HidUsage := .keyboard 0xe7

def a : HidUsage := .keyboard 0x04
def b : HidUsage := .keyboard 0x05
def c : HidUsage := .keyboard 0x06
def d : HidUsage := .keyboard 0x07
def e : HidUsage := .keyboard 0x08
def f : HidUsage := .keyboard 0x09
def h : HidUsage := .keyboard 0x0b
def k : HidUsage := .keyboard 0x0e
def l : HidUsage := .keyboard 0x0f
def m : HidUsage := .keyboard 0x10
def n : HidUsage := .keyboard 0x11
def p : HidUsage := .keyboard 0x13
def q : HidUsage := .keyboard 0x14
def t : HidUsage := .keyboard 0x17
def u : HidUsage := .keyboard 0x18
def v : HidUsage := .keyboard 0x19
def w : HidUsage := .keyboard 0x1a

def n1 : HidUsage := .keyboard 0x1e
def n2 : HidUsage := .keyboard 0x1f
def n3 : HidUsage := .keyboard 0x20
def n4 : HidUsage := .keyboard 0x21
def n5 : HidUsage := .keyboard 0x22
def n6 : HidUsage := .keyboard 0x23
def n7 : HidUsage := .keyboard 0x24
def n8 : HidUsage := .keyboard 0x25
def n9 : HidUsage := .keyboard 0x26
def n0 : HidUsage := .keyboard 0x27

def backspace : HidUsage := .keyboard 0x2a
def tab : HidUsage := .keyboard 0x2b
def space : HidUsage := .keyboard 0x2c
def minus : HidUsage := .keyboard 0x2d
def equal : HidUsage := .keyboard 0x2e
def lbracket : HidUsage := .keyboard 0x2f
def rbracket : HidUsage := .keyboard 0x30
def grave : HidUsage := .keyboard 0x35
def nonUsBackslash : HidUsage := .keyboard 0x64

def f1 : HidUsage := .keyboard 0x3a
def f2 : HidUsage := .keyboard 0x3b
def f3 : HidUsage := .keyboard 0x3c
def f4 : HidUsage := .keyboard 0x3d
def f5 : HidUsage := .keyboard 0x3e
def f6 : HidUsage := .keyboard 0x3f
def f7 : HidUsage := .keyboard 0x40
def f8 : HidUsage := .keyboard 0x41
def f9 : HidUsage := .keyboard 0x42
def f10 : HidUsage := .keyboard 0x43
def f11 : HidUsage := .keyboard 0x44
def f12 : HidUsage := .keyboard 0x45

def printScreen : HidUsage := .keyboard 0x46
def home : HidUsage := .keyboard 0x4a
def pageUp : HidUsage := .keyboard 0x4b
def delete : HidUsage := .keyboard 0x4c
def end_ : HidUsage := .keyboard 0x4d
def pageDown : HidUsage := .keyboard 0x4e
def right : HidUsage := .keyboard 0x4f
def left : HidUsage := .keyboard 0x50
def down : HidUsage := .keyboard 0x51
def up : HidUsage := .keyboard 0x52

/-! ## Modifiers -/

/-- Physical modifier classes, a bit each. -/
def cmd : UInt8 := 1
def opt : UInt8 := 2
def ctrl : UInt8 := 4
def shift : UInt8 := 8

def modifierClass (usage : HidUsage) : Option UInt8 :=
  if usage ∈ [lctrl, rctrl] then some ctrl
  else if usage ∈ [lshift, rshift] then some shift
  else if usage ∈ [lalt, ralt] then some opt
  else if usage ∈ [lgui, rgui] then some cmd
  else none

def isModifier (usage : HidUsage) : Bool := (modifierClass usage).isSome

/-- What a held physical modifier injects when no rule consumes it. -/
def defaultOutput (mode : KeyboardMode) (modifier : HidUsage) : HidUsage :=
  match mode with
  | .standard => modifier
  | .pcPositions =>
    if modifier = lalt then lgui
    else if modifier = lgui then lalt
    else if modifier = ralt then rgui
    else if modifier = rgui then ralt
    else modifier
  | .mac => if modifier = lgui then lctrl else if modifier = rgui then rctrl else modifier

/-! ## Rules -/

inductive Context where
  | terminal | any | gui

inductive Out where
  /-- The physical key itself. -/
  | same
  | key (output : HidUsage)

def Out.resolve (out : Out) (key : HidUsage) : HidUsage :=
  match out with
  | .same => key
  | .key output => output

inductive Action where
  /-- Press the modifiers, owned by the consumed physical modifiers, then the output key, owned by the
  physical key. -/
  | press (mods : List HidUsage) (output : Out)
  /-- `press`, plus the second set of modifiers owned by the physical key. -/
  | pressWith (mods keyMods : List HidUsage) (output : Out)
  /-- `press`, and keep the modifiers down for the keys that follow. -/
  | hold (mods : List HidUsage) (output : Out)
  /-- Press and release one key with no other modifier down. -/
  | tap (output : HidUsage)
  | block

structure Rule where
  context : Context
  /-- Classes that must be held. -/
  held : UInt8
  /-- Physical keys the row matches; none for every key that is not a modifier. -/
  keys : List HidUsage
  action : Action

def Rule.matches (rule : Rule) (terminal : Bool) (held : UInt8) (key : HidUsage) : Bool :=
  let context := match rule.context with
    | .terminal => terminal
    | .any => true
    | .gui => !terminal
  let exact := cmd ||| opt ||| ctrl
  context && held &&& exact == rule.held &&& exact &&
    (rule.held &&& shift == 0 || held &&& shift != 0) &&
    (rule.keys.isEmpty || rule.keys.contains key)

def anyKey : List HidUsage := []

/-- Mac mode shortcuts. The first matching row wins. -/
def rules : List Rule :=
  [
    -- Rows that need Shift.
    ⟨.any, cmd ||| shift, [lbracket], .press [lctrl] (.key pageUp)⟩,
    ⟨.any, cmd ||| shift, [rbracket], .press [lctrl] (.key pageDown)⟩,
    ⟨.any, cmd ||| shift, [n3], .press [lshift] (.key printScreen)⟩,
    ⟨.any, cmd ||| shift, [n4, n5], .press [] (.key printScreen)⟩,
    -- Terminals.
    ⟨.terminal, cmd, [c, v, t, n, w, f, q], .pressWith [lctrl] [lshift] .same⟩,
    ⟨.terminal, cmd, [k], .press [lctrl] (.key l)⟩,
    ⟨.terminal, cmd, [equal], .pressWith [lctrl] [lshift] .same⟩,
    ⟨.terminal, cmd, [minus, n0], .press [lctrl] .same⟩,
    ⟨.terminal, cmd, [n1, n2, n3, n4, n5], .press [lalt] .same⟩,
    ⟨.terminal, cmd, [n6, n7, n8, n9], .press [lalt] .same⟩,
    ⟨.terminal, opt, [left], .press [lalt] (.key b)⟩,
    ⟨.terminal, opt, [right], .press [lalt] (.key f)⟩,
    ⟨.terminal, opt, [backspace], .press [lctrl] (.key w)⟩,
    ⟨.terminal, cmd, [backspace], .press [lctrl] (.key u)⟩,
    -- Every app.
    ⟨.any, cmd, [tab], .hold [lalt] .same⟩,
    ⟨.any, cmd, [grave, nonUsBackslash], .hold [lalt] (.key grave)⟩,
    ⟨.any, cmd, [space], .tap lgui⟩,
    ⟨.any, cmd, [left], .press [] (.key home)⟩,
    ⟨.any, cmd, [right], .press [] (.key end_)⟩,
    ⟨.any, cmd, [up], .press [lctrl] (.key home)⟩,
    ⟨.any, cmd, [down], .press [lctrl] (.key end_)⟩,
    ⟨.any, cmd, [h, m], .press [lgui] (.key h)⟩,
    ⟨.any, ctrl ||| cmd, [q], .press [lgui] (.key l)⟩,
    ⟨.any, ctrl ||| cmd, [f], .press [] (.key f11)⟩,
    ⟨.any, ctrl ||| cmd, anyKey, .block⟩,
    ⟨.any, ctrl ||| cmd ||| opt, anyKey, .block⟩,
    ⟨.any, cmd ||| opt, [left], .press [lctrl] (.key pageUp)⟩,
    ⟨.any, cmd ||| opt, [right], .press [lctrl] (.key pageDown)⟩,
    ⟨.any, cmd ||| opt, [f1, f2, f3, f4, f5, f6], .block⟩,
    ⟨.any, cmd ||| opt, [f7, f8, f9, f10, f11, f12], .block⟩,
    ⟨.any, cmd ||| opt, [backspace, delete, up, down], .block⟩,
    ⟨.any, ctrl, [left], .press [lgui] (.key pageUp)⟩,
    ⟨.any, ctrl, [right], .press [lgui] (.key pageDown)⟩,
    ⟨.any, ctrl, [up], .tap lgui⟩,
    -- GUI apps.
    ⟨.gui, opt, [left, right, backspace, delete], .press [lctrl] .same⟩,
    ⟨.gui, ctrl, [a], .press [] (.key home)⟩,
    ⟨.gui, ctrl, [e], .press [] (.key end_)⟩,
    ⟨.gui, ctrl, [b], .press [] (.key left)⟩,
    ⟨.gui, ctrl, [f], .press [] (.key right)⟩,
    ⟨.gui, ctrl, [n], .press [] (.key down)⟩,
    ⟨.gui, ctrl, [p], .press [] (.key up)⟩,
    ⟨.gui, ctrl, [d], .press [] (.key delete)⟩,
    ⟨.gui, ctrl, [h], .press [] (.key backspace)⟩,
    -- Any other chord with Cmd in a terminal.
    ⟨.terminal, cmd, anyKey, .block⟩,
    ⟨.terminal, cmd ||| opt, anyKey, .block⟩]

end Keymap

/-! ## The remap -/

/-- Remaps one peer's physical key edges to the edges to inject. -/
structure KeyRemap where
  mode : KeyboardMode
  terminal : Bool
  pointerBusy : Bool
  physical : Std.ExtTreeSet HidUsage
  /-- Option keys held back until the next key or click. -/
  deferred : Std.ExtTreeSet HidUsage
  /-- Injected key to the physical keys keeping it down. -/
  owners : Std.ExtTreeMap HidUsage (Std.ExtTreeSet HidUsage)
  /-- Outputs of an active `hold` rule. While set, keys skip the rules. -/
  bound : Option (Std.ExtTreeSet HidUsage)

namespace KeyRemap

open Keymap (modifierClass defaultOutput)

def new (mode : KeyboardMode) : KeyRemap := ⟨mode, false, false, ∅, ∅, ∅, none⟩

/-- Forgets every held key and switches mode. The terminal bit survives. -/
def reset (r : KeyRemap) (mode : KeyboardMode) : KeyRemap := { KeyRemap.new mode with terminal := r.terminal }

def setTerminal (r : KeyRemap) (terminal : Bool) : KeyRemap := { r with terminal }

/-- Keys currently injected. -/
def injected (r : KeyRemap) : List HidUsage := r.owners.keys

def own (r : KeyRemap) (output owner : HidUsage) : List Edge × KeyRemap :=
  let owners := r.owners[output]?.getD ∅
  (if output ∈ r.owners then [] else [(output, true)],
    { r with owners := r.owners.insert output (owners.insert owner) })

/-- Each modifier owns its default. -/
def ownDefaults (r : KeyRemap) (modifiers : List HidUsage) : List Edge × KeyRemap :=
  Replay.collect (fun r modifier => r.own (defaultOutput r.mode modifier) modifier) r modifiers

def ownsAny (r : KeyRemap) (key : HidUsage) : Bool := r.owners.values.any (·.contains key)

/-- Held-back Option keys are pressed now, so Option+click works. -/
def pointer (r : KeyRemap) (busy : Bool) : List Edge × KeyRemap :=
  let (edges, r) := { r with deferred := ∅ }.ownDefaults r.deferred.toList
  (edges, { r with pointerBusy := busy })

/-- A release presses nothing. -/
def pointerReleased (r : KeyRemap) (busy : Bool) : KeyRemap := { r with pointerBusy := busy }

def pressModifier (r : KeyRemap) (modifier : HidUsage) (class_ : UInt8) : List Edge × KeyRemap :=
  let holdBack := r.mode = .mac ∧ class_ = Keymap.opt ∧ !r.pointerBusy ∧ r.physical.toList.all Keymap.isModifier
  if holdBack then ([], { r with deferred := r.deferred.insert modifier })
  else r.own (defaultOutput r.mode modifier) modifier

/-! ### The wanted modifiers -/

abbrev Owners := Std.ExtTreeMap HidUsage (Std.ExtTreeSet HidUsage)

def want (wanted : Owners) (output owner : HidUsage) : Owners :=
  wanted.insert output ((wanted[output]?.getD ∅).insert owner)

/-- What a held key adds to the wanted modifiers. -/
def wantHeld (mode : KeyboardMode) (consumed : UInt8) (mods : List HidUsage) (wanted : Owners)
    (held : HidUsage) : Owners :=
  match modifierClass held with
  | none => wanted
  | some class_ =>
    if class_ &&& consumed == 0 then want wanted (defaultOutput mode held) held
    else mods.foldl (want · · held) wanted

/-- `mods` owned by the held modifiers of the `consumed` classes, `keyMods` owned by `key`, and every
other held modifier's default owned by itself. -/
def wanted (r : KeyRemap) (consumed : UInt8) (mods keyMods : List HidUsage) (key : HidUsage) : Owners :=
  keyMods.foldl (want · · key) (r.physical.toList.foldl (wantHeld r.mode consumed mods) ∅)

def lift (r : KeyRemap) (output : HidUsage) : List Edge × KeyRemap :=
  ([(output, false)], { r with owners := r.owners.erase output })

def assign (r : KeyRemap) (entry : HidUsage × Std.ExtTreeSet HidUsage) : List Edge × KeyRemap :=
  (if entry.1 ∈ r.owners then [] else [(entry.1, true)],
    { r with owners := r.owners.insert entry.1 entry.2 })

/-- Makes the injected modifiers exactly the wanted ones. -/
def setModifiers (r : KeyRemap) (consumed : UInt8) (mods keyMods : List HidUsage) (key : HidUsage) :
    List Edge × KeyRemap :=
  let wanted := r.wanted consumed mods keyMods key
  let r := { r with deferred := ∅ }
  let unwanted := r.owners.keys.filter fun output => Keymap.isModifier output && !wanted.contains output
  let (released, r) := Replay.collect lift r unwanted
  let (pressed, r) := Replay.collect assign r wanted.toList
  (released ++ pressed, r)

/-! ### Keys -/

def lookup (r : KeyRemap) (key : HidUsage) : Option Keymap.Rule :=
  if r.mode ≠ .mac then none
  else
    let held := (r.physical.toList.filterMap modifierClass).foldl (· ||| ·) 0
    Keymap.rules.find? (·.matches r.terminal held key)

/-- `setModifiers`, then the output owned by the physical key. -/
def chord (r : KeyRemap) (consumed : UInt8) (mods keyMods : List HidUsage) (output key : HidUsage) :
    List Edge × KeyRemap :=
  let (edges, r) := r.setModifiers consumed mods keyMods key
  let (pressed, r) := r.own output key
  (edges ++ pressed, r)

def pressKey (r : KeyRemap) (key : HidUsage) : List Edge × KeyRemap :=
  if r.bound.isSome then
    -- The app switcher is open: its Alt stays and the key goes out as is.
    let idle := r.physical.toList.filter fun held => Keymap.isModifier held && !r.ownsAny held
    let (edges, r) := r.ownDefaults idle
    let (pressed, r) := { r with deferred := ∅ }.own key key
    (edges ++ pressed, r)
  else match r.lookup key with
    | none => r.chord 0 [] [] key key
    | some rule => match rule.action with
      | .block => ([], r)
      | .tap output =>
        let (edges, r) := r.setModifiers rule.held [] [] key
        (edges ++ if output ∈ r.owners then [] else [(output, true), (output, false)], r)
      | .press mods output => r.chord rule.held mods [] (output.resolve key) key
      | .pressWith mods keyMods output => r.chord rule.held mods keyMods (output.resolve key) key
      | .hold mods output =>
        let (edges, r) := r.chord rule.held mods [] (output.resolve key) key
        let bound := Std.ExtTreeSet.ofList (mods.filter fun output => r.owners.contains output)
        (edges, { r with bound := if bound.isEmpty then none else some bound })

def release (r : KeyRemap) (key : HidUsage) : List Edge × KeyRemap :=
  let freed := (r.owners.toList.filter fun entry => (entry.2.erase key).isEmpty).map (·.1)
  -- Keys before modifiers, so a released chord never leaves its bare key down.
  let freed := sortByKey Keymap.isModifier freed
  (freed.map (·, false),
    { r with
      deferred := r.deferred.erase key
      owners := r.owners.filterMap fun _ owners =>
        if (owners.erase key).isEmpty then none else some (owners.erase key)
      bound := if freed.any fun output => r.bound.any (·.contains output) then none else r.bound })

/-- Maps one physical key edge to the edges to inject. A repeated press or a release of a key that is
not held maps to nothing. -/
def key (r : KeyRemap) (usage : HidUsage) (pressed : Bool) : List Edge × KeyRemap :=
  if !pressed then
    if usage ∈ r.physical then { r with physical := r.physical.erase usage }.release usage
    else ([], r)
  else if usage ∈ r.physical then ([], r)
  else
    let r := { r with physical := r.physical.insert usage }
    match modifierClass usage with
    | some class_ => r.pressModifier usage class_
    | none => r.pressKey usage

/-! ### Runs -/

inductive Call where
  | key (usage : HidUsage) (pressed : Bool)
  | pointer (busy : Bool)
  | pointerReleased (busy : Bool)
  | setTerminal (terminal : Bool)

def call (r : KeyRemap) : Call → List Edge × KeyRemap
  | .key usage pressed => r.key usage pressed
  | .pointer busy => r.pointer busy
  | .pointerReleased busy => ([], r.pointerReleased busy)
  | .setTerminal terminal => ([], r.setTerminal terminal)

/-- The edges of a run of calls, and the state it leads to. -/
def runCalls (r : KeyRemap) (calls : List Call) : List Edge × KeyRemap := Replay.collect call r calls

end KeyRemap

/-- Whether a key is down after a call, where it was or was not before. -/
def KeyRemap.Call.holds (usage : HidUsage) (held : Bool) : KeyRemap.Call → Bool
  | .key other pressed => if other = usage then pressed else held
  | _ => held

/-- Whether the last call about a key was its press. -/
def heldAfter (usage : HidUsage) (calls : List KeyRemap.Call) : Bool :=
  calls.foldl (KeyRemap.Call.holds usage) false

/-- A keyboard that takes edges: a key is pressed only while it is up, and released only while down. -/
def keyboard : Replay (HidUsage → Prop) Edge where
  apply down edge := fun usage => if usage = edge.1 then edge.2 = true else down usage
  admits down edge := down edge.1 ↔ edge.2 = false

end Zflow.Core
