import Zflow.Macos.Edge
import Zflow.Macos.Inject
import Zflow.Macos.Keys

/-!
# What the injector holds down

The other half of the injector (`src/macos/inject.rs`): the keys, buttons and key repeat it keeps track
of while it posts, and the methods that `Zflow.Macos.MacInput` stands for. What it does to the Mac is an
interface, `Backend`, and so is the arithmetic of the pointer, which works in floats: the acceleration,
the scroll scale and the displays. Either may answer anything, and a post may fail.
-/

namespace Zflow.Macos

open Zflow.Core Lib

/-- One event to post. -/
inductive Posted where
  /-- A drag names a button and the click state of its press. -/
  | move (target : CursorPosition) (dx dy : Int) (drag : Option (Nat × Int)) (flags : Nat)
  /-- `button` is a CG button: 0 left, 1 right, 2 and up other. -/
  | button (button : Nat) (down : Bool) (position : CursorPosition) (clickState : Int) (flags : Nat)
  | key (code : Nat) (down autorepeat : Bool) (flags : Nat)
  /-- A modifier going down or up. `flags` already include the change. -/
  | modifier (code : Nat) (down : Bool) (flags : Nat)
  | scroll (x y : Int) (flags : Nat)
  /-- An `NX_KEYTYPE`, such as volume up. -/
  | media (key : Nat) (down : Bool)

/-- What an activation reads from this Mac when it opens. -/
structure Environment where
  /-- The keyboard last typed on is ISO. -/
  iso : Bool
  delay : Nat
  interval : Nat
  doubleClick : Nat

/-- Everything the injector does to the Mac, and the arithmetic of its pointer. -/
class Backend (B : Type) where
  post : Posted → Act String B Unit
  /-- Flips the real Caps Lock. -/
  toggleCapsLock : Act String B Unit
  /-- Releases whatever the native side still holds, after a failed post. -/
  releaseAll : B → B
  environment : B → Environment × B
  frontmostIsTerminal : B → Bool × B
  sessionLocked : B → Bool × B
  /-- Where zflow last put the cursor, unless something on the Mac moved it since. -/
  cursor : B → CursorPosition × B
  /-- Whether a press is close enough to the one before to count with it. -/
  close : B → CursorPosition → CursorPosition → Bool
  /-- The whole points a motion comes to. -/
  accelerate : Int → Int → MonotonicTimeMicros → B → (Int × Int) × B
  /-- Whether a handoff drops a move, from the cursor to where it would put it. -/
  watch : CursorPosition → CursorPosition → B → Bool × B
  /-- Where the displays keep a point. -/
  clamp : CursorPosition → B → CursorPosition × B
  /-- Remembers a move from one point to another. -/
  moved : CursorPosition → CursorPosition → B → B
  /-- The pixels of a scroll, where it moved a whole one. -/
  pixels : Int → Int → B → Option (Int × Int) × B
  /-- Forgets the last speed, the parts under a point and the scroll total. -/
  resetPointer : B → B

structure Repeat where
  code : Nat
  at_ : MonotonicTimeMicros

structure Press where
  button : Nat
  at_ : MonotonicTimeMicros
  position : CursorPosition
  count : Int

/-- Turns receiver effects into Mac events and remembers what they hold, so every way out can release
it. -/
structure Poster (B : Type) where
  backend : B
  environment : Environment
  keyboard : KeyboardMode
  remap : KeyRemap
  /-- In the mac mode, what each physical Ctrl or Cmd key became when it was pressed, so its release
  matches. -/
  chosen : Std.ExtTreeMap HidUsage HidUsage
  /-- Keyboard usages down, with the keycode each went down as. -/
  keys : Std.ExtTreeMap HidUsage Nat
  /-- How many usages hold each keycode. PrintScreen and F13 share one. -/
  codes : Std.ExtTreeMap Nat Nat
  media : Std.ExtTreeMap HidUsage Nat
  repeating : Option Repeat
  /-- CG buttons down, with the click state of their press. -/
  buttons : Std.ExtTreeMap Nat Int
  lastPress : Option Press
  locked : Option (MonotonicTimeMicros × Bool)
  /-- Every event handed to the Mac so far, whether or not it took it. No method reads it. -/
  posted : List Posted

namespace Poster

variable {B : Type} [Backend B]

def new (backend : B) : Poster B where
  backend
  environment := ⟨false, 250000, 33000, 500000⟩
  keyboard := .standard
  remap := .new .standard
  chosen := ∅
  keys := ∅
  codes := ∅
  media := ∅
  repeating := none
  buttons := ∅
  lastPress := none
  locked := none
  posted := []

def post (event : Posted) : Act String (Poster B) Unit := fun p =>
  let (result, backend) := Backend.post event p.backend
  (result, { p with backend, posted := p.posted ++ [event] })

/-- A post whose failure only sets `failed`. -/
def attempt (event : Posted) (p : Poster B) : Poster B := (post event p).2

/-- Held modifiers with their side bits. Every event carries them. -/
def flags (p : Poster B) : Nat := modifierFlags p.codes.keys

def keyEvent (p : Poster B) (code : Nat) (down autorepeat : Bool) : Posted :=
  .key code down autorepeat (p.flags ||| keyFlags code)

/-! ## Keys -/

def press (usage : HidUsage) (now : MonotonicTimeMicros) : Act String (Poster B) Unit := fun p =>
  match hidToMacKeycode usage p.environment.iso with
  | none => (.ok (), p)
  | some code =>
    if usage ∈ p.keys then (.ok (), p)
    else
      let count := p.codes[code]?.getD 0 + 1
      let p := { p with keys := p.keys.insert usage code, codes := p.codes.insert code count }
      if count > 1 then (.ok (), p)
      else if isModifier code then post (.modifier code true p.flags) p
      else
        -- Only the newest key repeats, as on a real keyboard.
        let p := { p with repeating := some ⟨code, now + p.environment.delay⟩ }
        post (p.keyEvent code true false) p

def release (usage : HidUsage) : Act String (Poster B) Unit := fun p =>
  match p.keys[usage]? with
  | none => (.ok (), p)
  | some code =>
    let p := { p with keys := p.keys.erase usage }
    match p.codes[code]? with
    | none => (.ok (), p)
    | some count =>
      if count - 1 > 0 then (.ok (), { p with codes := p.codes.insert code (count - 1) })
      else
        let p := { p with codes := p.codes.erase code }
        if isModifier code then post (.modifier code false p.flags) p
        else
          let p := { p with
            repeating := if p.repeating.any (·.code == code) then none else p.repeating }
          post (p.keyEvent code false false) p

def capsLock : HidUsage := .keyboard 0x39

/-- Posts one key edge that came out of the remap. -/
def output (usage : HidUsage) (pressed : Bool) (now : MonotonicTimeMicros) : Act String (Poster B) Unit :=
  fun p => match hidToMediaKey usage with
    | some key =>
      let changed := if pressed then !p.media.contains usage else p.media.contains usage
      let p := { p with media := if pressed then p.media.insert usage key else p.media.erase usage }
      if changed then post (.media key pressed) p else (.ok (), p)
    | none =>
      if usage = capsLock then
        -- The press flips the real lock; its release does nothing.
        if pressed then
          let (result, backend) := Backend.toggleCapsLock p.backend
          (result, { p with backend })
        else (.ok (), p)
      else if pressed then press usage now p
      else release usage p

/-- The edges the remap answers with, until one fails. -/
def outputs (now : MonotonicTimeMicros) : List Edge → Act String (Poster B) Unit
  | [] => pure ()
  | (usage, pressed) :: rest => do
    output usage pressed now
    outputs now rest

def swapped (physical : HidUsage) : Option HidUsage :=
  if physical = Keymap.lctrl then some Keymap.lgui
  else if physical = Keymap.lgui then some Keymap.lctrl
  else if physical = Keymap.rctrl then some Keymap.rgui
  else if physical = Keymap.rgui then some Keymap.rctrl
  else none

/-- In the mac mode, Ctrl and Cmd trade places outside terminals. The front app is read on the press, and
the release goes where the press went. -/
def choose (p : Poster B) (physical : HidUsage) (pressed : Bool) : HidUsage × Poster B :=
  match swapped physical with
  | none => (physical, p)
  | some swapped =>
    if p.keyboard ≠ .mac then (physical, p)
    else if !pressed then
      (p.chosen[physical]?.getD physical, { p with chosen := p.chosen.erase physical })
    else match p.chosen[physical]? with
      | some chosen => (chosen, p)
      | none =>
        let (terminal, backend) := Backend.frontmostIsTerminal p.backend
        let chosen := if terminal then physical else swapped
        (chosen, { p with backend, chosen := p.chosen.insert physical chosen })

def key (physical : HidUsage) (pressed : Bool) (now : MonotonicTimeMicros) : Act String (Poster B) Unit :=
  fun p =>
    let (usage, p) := p.choose physical pressed
    let (edges, remap) := p.remap.key usage pressed
    outputs now edges { p with remap }

/-! ## The pointer -/

/-- The same button pressed again soon and close by counts up. -/
def clickCount (button : Nat) (position : CursorPosition) (now : MonotonicTimeMicros) (p : Poster B) :
    Int × Poster B :=
  let count := match p.lastPress with
    | some last =>
      if last.button = button ∧ now - last.at_ ≤ p.environment.doubleClick ∧
          Backend.close p.backend last.position position then last.count + 1
      else 1
    | none => 1
  (count, { p with lastPress := some ⟨button, now, position, count⟩ })

/-- Wire button 1 is CG's left (0), 2 right (1), 3 middle (2), and on. -/
def button (button : PointerButton) (pressed : Bool) (now : MonotonicTimeMicros) :
    Act String (Poster B) Unit := fun p =>
  if button = 0 ∨ button - 1 ≥ 32 then (.ok (), p)
  else if p.buttons.contains (button - 1) = pressed then (.ok (), p)
  else
    let (position, backend) := Backend.cursor p.backend
    let p := { p with backend }
    if pressed then
      let (count, p) := p.clickCount (button - 1) position now
      let p := { p with buttons := p.buttons.insert (button - 1) count }
      post (.button (button - 1) true position count p.flags) p
    else
      let count := p.buttons[button - 1]?.getD 1
      let p := { p with buttons := p.buttons.erase (button - 1) }
      post (.button (button - 1) false position count p.flags) p

/-- A drag names one button: left, then right, then the lowest other. -/
def postMove (start target : CursorPosition) (dx dy : Int) : Act String (Poster B) Unit := fun p =>
  let (target, backend) := Backend.clamp target p.backend
  let p := { p with backend := Backend.moved start target backend }
  post (.move target dx dy p.buttons.toList.head? p.flags) p

def motion (dx dy : Int) (now : MonotonicTimeMicros) : Act String (Poster B) Unit := fun p =>
  let ((dx, dy), backend) := Backend.accelerate dx dy now p.backend
  if dx = 0 ∧ dy = 0 then (.ok (), { p with backend })
  else
    let (start, backend) := Backend.cursor backend
    let target := ⟨start.x + dx, start.y + dy⟩
    let (dropped, backend) := Backend.watch start target backend
    if dropped then (.ok (), { p with backend })
    else postMove start target dx dy { p with backend }

/-- Puts the cursor at a point with a posted move. -/
def moveTo (point : CursorPosition) : Act String (Poster B) Unit := fun p =>
  let (start, backend) := Backend.cursor p.backend
  postMove start point (Macos.round (point.x - start.x)) (Macos.round (point.y - start.y))
    { p with backend }

def scroll (x y : Int) : Act String (Poster B) Unit := fun p =>
  let (pixels, backend) := Backend.pixels x y p.backend
  match pixels with
  | some (x, y) => post (.scroll x y p.flags) { p with backend }
  | none => (.ok (), { p with backend })

/-! ## Every way out -/

def liftKey (p : Poster B) (code : Nat) : Poster B :=
  let p := { p with codes := p.codes.erase code }
  p.attempt (p.keyEvent code false false)

def liftModifier (p : Poster B) (code : Nat) : Poster B :=
  let p := { p with codes := p.codes.erase code }
  p.attempt (.modifier code false p.flags)

def liftMedia (p : Poster B) (entry : HidUsage × Nat) : Poster B := p.attempt (.media entry.2 false)

def liftMedias (p : Poster B) : Poster B := p.media.toList.foldl liftMedia { p with media := ∅ }

def liftButton (position : CursorPosition) (p : Poster B) (entry : Nat × Int) : Poster B :=
  p.attempt (.button entry.1 false position entry.2 p.flags)

def liftButtons (p : Poster B) : Poster B :=
  if p.buttons.isEmpty then p
  else
    let (position, backend) := Backend.cursor p.backend
    p.buttons.toList.foldl (liftButton position) { p with backend, buttons := ∅ }

/-- Releases keys, then modifiers, then buttons, and stops the repeat. Caps Lock stays as it is. -/
def releaseAll (p : Poster B) : Poster B :=
  let (modifiers, plain) := p.codes.keys.partition isModifier
  let p := (plain.foldl liftKey { p with repeating := none }).liftMedias
  let p := (modifiers.foldl liftModifier p).liftButtons
  { p with
    keys := ∅
    chosen := ∅
    remap := p.remap.reset p.remap.mode
    backend := Backend.releaseAll p.backend }

/-- Starts an activation with nothing down, in the mode its first batch named. -/
def begin (keyboard : KeyboardMode) (p : Poster B) : Poster B :=
  let p := p.releaseAll
  let (environment, backend) := Backend.environment p.backend
  { p with
    keyboard
    -- The mac mode is Standard plus the Ctrl and Cmd swap in `choose`.
    remap := p.remap.reset (if keyboard = .mac then .standard else keyboard)
    environment
    backend := Backend.resetPointer backend
    lastPress := none }

/-! ## The screen and the clock -/

def lockCheckInterval : MonotonicTimeMicros := 100000

/-- Whether the screen is locked, asked at most every 100 ms. -/
def isLocked (now : MonotonicTimeMicros) (p : Poster B) : Bool × Poster B :=
  let fresh := p.locked.filter fun check => now - check.1 < lockCheckInterval
  match fresh with
  | some (_, locked) => (locked, p)
  | none =>
    let (locked, backend) := Backend.sessionLocked p.backend
    (locked, { p with backend, locked := some (now, locked) })

/-- The pointer prelude of an effect: what the keyboard held back goes down. -/
def pointer (busy : Bool) (now : MonotonicTimeMicros) : Act String (Poster B) Unit := fun p =>
  let (edges, remap) := p.remap.pointer busy
  outputs now edges { p with remap }

instance : MacInput (Poster B) where
  locked := isLocked
  buttons p := p.buttons.keys
  pointer := pointer
  pointerReleased busy p := { p with remap := p.remap.pointerReleased busy }
  begin := begin
  releaseAll := releaseAll
  motion := motion
  scroll := scroll
  key := key
  button := button

/-- Repeats the newest held key when it is due. macOS does not repeat posted keys. -/
def tick (now : MonotonicTimeMicros) (p : Poster B) : Except String Unit × Poster B :=
  match p.repeating with
  | none => (.ok (), p)
  | some due =>
    if due.at_ > now then (.ok (), p)
    else match p.isLocked now with
      | (true, p) => (.error "the Mac is locked", p.releaseAll)
      | (false, p) =>
        -- A late tick does not catch up with a burst.
        let next := due.at_ + p.environment.interval
        let at_ := if next > now then next else now + p.environment.interval
        match post (p.keyEvent due.code true true) { p with repeating := some ⟨due.code, at_⟩ } with
        | (.ok _, p) => (.ok (), p)
        | (.error error, p) => (.error error, p.releaseAll)

end Poster

/-! ## Runs -/

inductive PosterCall where
  | apply (effects : List ReceiverEffect) (keyboard : Option KeyboardMode) (now : MonotonicTimeMicros)
  | tick (now : MonotonicTimeMicros)
  | moveTo (point : CursorPosition)
  | releaseAll

variable {B : Type} [Backend B]

/-- One call of the injector's core: its answer, and what it leaves. -/
def InjectorCore.call (core : InjectorCore (Poster B)) : PosterCall → Except String Unit × InjectorCore (Poster B)
  | .apply effects keyboard now => core.apply effects keyboard now
  | .tick now => ((core.input.tick now).1, { core with input := (core.input.tick now).2 })
  | .moveTo point => ((Poster.moveTo point core.input).1, { core with input := (Poster.moveTo point core.input).2 })
  | .releaseAll => (.ok (), { core with input := core.input.releaseAll })

/-- A new core after a run of calls. -/
def InjectorCore.ran (backend : B) (calls : List PosterCall) : InjectorCore (Poster B) :=
  calls.foldl (fun core call => (core.call call).2) ⟨.new backend, .standard⟩

end Zflow.Macos
