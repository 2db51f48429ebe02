import Zflow.Lib.Check

/-!
# Desktop handoff metadata

The messages with which one computer holds another's desktop during a crossing (`src/desktop.rs`,
`src/desktop/monitors.rs`). Positions along an edge are fractions of `fractionMax`.
-/

namespace Zflow.Desktop

open Lib

/-- `FRACTION_MAX`. -/
def fractionMax : Nat := 1000000

/-- `MAX_TOKEN`. -/
def maxToken : Nat := 9007199254740991

/-- `LEASE_MS`. -/
def leaseMs : Nat := 2000

/-- `MAX_EXITS`: at most this many ways off a desktop go in one Prepare. -/
def maxExits : Nat := 64

inductive Edge where
  | left | right | top | bottom
  deriving DecidableEq

structure Point where
  x : Int
  y : Int
  deriving DecidableEq

structure Rect where
  x : Int
  y : Int
  width : Nat
  height : Nat
  deriving DecidableEq

def Rect.contains (rect : Rect) (point : Point) : Bool :=
  rect.x ≤ point.x && rect.y ≤ point.y && point.x < rect.x + rect.width
    && point.y < rect.y + rect.height

/-- Characters of `White_Space`. -/
def isWhitespace (c : Char) : Bool :=
  (0x9 ≤ c.toNat && c.toNat ≤ 0xd) || (0x2000 ≤ c.toNat && c.toNat ≤ 0x200a)
    || [0x20, 0x85, 0xa0, 0x1680, 0x2028, 0x2029, 0x202f, 0x205f, 0x3000].contains c.toNat

/-- `char::is_control`. -/
def isControl (c : Char) : Bool := c.toNat ≤ 0x1f || (0x7f ≤ c.toNat && c.toNat ≤ 0x9f)

def validId (id : String) : Bool :=
  id.toList.any (!isWhitespace ·) && id.utf8ByteSize ≤ 128 && !id.toList.any isControl

structure Display where
  id : String
  name : String
  bounds : Rect
  widthMm : Nat
  heightMm : Nat
  active : Bool
  deriving DecidableEq

structure Geometry where
  monitors : List Rect
  displays : List Display
  deriving DecidableEq

/-- A monitor's size and place are within bounds. -/
def Rect.valid (rect : Rect) : Bool :=
  (1 ≤ rect.width && rect.width ≤ 16384) && (1 ≤ rect.height && rect.height ≤ 16384)
    && rect.x.natAbs ≤ 65536 && rect.y.natAbs ≤ 65536

def validateMonitors (monitors : List Rect) : Except String Unit := do
  refuseIf (monitors.isEmpty || monitors.length > 16) "Desktop must contain 1 to 16 monitors"
  monitors.forM fun rect => refuseIf (!rect.valid) "Invalid desktop monitor geometry"

def Display.validate (display : Display) : Except String Unit := do
  refuseIf (!(validId display.id && validId display.name)) "Invalid monitor identity"
  refuseIf (!((display.widthMm == 0 && display.heightMm == 0)
    || ((10 ≤ display.widthMm && display.widthMm ≤ 4000)
      && (10 ≤ display.heightMm && display.heightMm ≤ 4000)))) "Invalid physical monitor size"
  validateMonitors [display.bounds]

/-- The walk over the displays, with the ids and the rectangles met before. -/
def validateDisplaysFrom (monitors : List Rect) :
    List String → List Rect → List Display → Except String Unit
  | _, _, [] => .ok ()
  | ids, rectangles, display :: rest => do
    display.validate
    refuseIf (!(display.active && !ids.contains display.id && monitors.contains display.bounds
      && !rectangles.contains display.bounds)) "Invalid or repeated active monitor"
    validateDisplaysFrom monitors (display.id :: ids) (display.bounds :: rectangles) rest

namespace Geometry

def validateDisplays (geometry : Geometry) : Except String Unit :=
  if geometry.displays.isEmpty then .ok ()
  else do
    refuseIf (geometry.displays.length != geometry.monitors.length) "Incomplete monitor identities"
    validateDisplaysFrom geometry.monitors [] [] geometry.displays

def validate (geometry : Geometry) : Except String Unit := do
  validateMonitors geometry.monitors
  geometry.validateDisplays

/-- `bounds`: the smallest rectangle around the monitors. -/
def bounds (geometry : Geometry) : Except String Rect := do
  geometry.validate
  match geometry.monitors with
  | [] => .error "Desktop must contain 1 to 16 monitors"
  | first :: rest =>
    let x := rest.foldl (fun x rect => min x rect.x) first.x
    let y := rest.foldl (fun y rect => min y rect.y) first.y
    let right := rest.foldl (fun right rect => max right (rect.x + (rect.width : Int)))
      (first.x + first.width)
    let bottom := rest.foldl (fun bottom rect => max bottom (rect.y + (rect.height : Int)))
      (first.y + first.height)
    return ⟨x, y, (right - x).toNat, (bottom - y).toNat⟩

/-- `for_monitor`: the whole desktop, or the one active display of that id. -/
def forMonitor (geometry : Geometry) : Option String → Except String Geometry
  | none => do
    geometry.validate
    return geometry
  | some id => do
    geometry.validate
    match geometry.displays.find? fun display => display.id = id && display.active with
    | some display => return ⟨[display.bounds], [display]⟩
    | none =>
      .error "The selected monitor is disconnected; refresh the screen arrangement"

end Geometry

/-- A stretch of one edge of the desktop being prepared, where leaving takes the pointer elsewhere. -/
structure Exit where
  monitor : Option String
  edge : Edge
  start : Nat
  stop : Nat

structure Prepare where
  monitor : Option String
  token : Nat
  edge : Edge
  start : Nat
  stop : Nat
  position : Nat
  exits : List Exit

inductive DesktopRequest where
  | snapshot
  | prepare (request : Prepare)
  | poll (token : Nat)
  | finish (token : Nat)

namespace DesktopRequest

def token : DesktopRequest → Option Nat
  | snapshot => none
  | prepare request => some request.token
  | poll token | finish token => some token

def validate (request : DesktopRequest) : Except String Unit := do
  refuseIf (!(request.token.all fun token => 0 < token && token ≤ maxToken))
    "Desktop handoff token must be a positive safe JSON integer"
  match request with
  | prepare request => do
    refuseIf (!request.monitor.all validId) "Invalid target monitor"
    refuseIf (!(request.start < request.stop && request.stop ≤ fractionMax
      && request.start ≤ request.position && request.position ≤ request.stop))
      "Invalid desktop edge range or position"
    refuseIf (request.exits.length > maxExits) "Too many desktop exits"
    request.exits.forM fun exit_ =>
      refuseIf (!(exit_.monitor.all validId && exit_.start < exit_.stop
        && exit_.stop ≤ fractionMax)) "Invalid desktop exit"
  | _ => .ok ()

end DesktopRequest

/-- A desktop's answers. `exited` says the pointer left through the exit of that index. -/
inductive DesktopResponse where
  | snapshot (geometry : Geometry) (position : Point)
  | prepared (geometry : Geometry) (position : Point)
  | active
  | exited (exit_ : Nat) (position : Nat)
  | finished
  | unavailable (reason : String)

/-- A cursor stands on one of the monitors. -/
def validateCursor (geometry : Geometry) (position : Point) : Except String Unit := do
  geometry.validate
  refuseIf (!geometry.monitors.any (·.contains position)) "Cursor is outside active monitors"

def DesktopResponse.validate : DesktopResponse → Except String Unit
  | snapshot geometry position | prepared geometry position => validateCursor geometry position
  | exited exit_ position =>
    refuseIf (!(exit_ < maxExits && position ≤ fractionMax)) "Invalid exit position"
  | unavailable reason =>
    refuseIf (reason.utf8ByteSize > 1024) "Desktop diagnostic is too long"
  | active | finished => .ok ()

end Zflow.Desktop
