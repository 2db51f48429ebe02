import Zflow.Lens.Tiles

/-!
# The viewing side of a lens

`src/lens/viewer.rs`. The decoder's pixels as they arrive, and which chunks of them the client has not copied
since they changed. The client asks which chunks under a circle changed, and copies them one by one. Each call
holds the lock over the whole of its work, so the calls of two threads are an interleaving.
-/

namespace Zflow.Lens

open Lib Zflow.Core

/-- `CHUNK`: the client copies pixels in squares this size. -/
def chunkSize : Nat := 256

inductive ViewerState where
  | closed | opening | open | failed

structure Status where
  state : ViewerState
  width : Nat
  height : Nat
  frames : Nat

/-- The desktop as decoded so far, and the chunks the client has not copied since they changed. -/
structure Shown where
  width : Nat
  height : Nat
  pixels : Buffer
  dirty : Nat → Bool

structure Viewer where
  status : Status
  shown : Shown

namespace Shown

/-- How many chunks are in a row. -/
def columns (s : Shown) : Nat := divCeil s.width chunkSize

/-- How many chunks there are. -/
def count (s : Shown) : Nat := s.columns * divCeil s.height chunkSize

/-- Where a chunk is. -/
def chunkRect (s : Shown) (id : Nat) : Rect :=
  let x := id % s.columns * chunkSize
  let y := id / s.columns * chunkSize
  ⟨x, y, min chunkSize (s.width - x), min chunkSize (s.height - y)⟩

end Shown

namespace Viewer

/-- A viewer that no desktop was seen through. -/
def default : Viewer := ⟨⟨.closed, 0, 0, 0⟩, ⟨0, 0, fun _ => 0, fun _ => false⟩⟩

section dirty

variable {F : Type} [LensF64 F]

/-- `f64::max(x, 0.)`. -/
def maxZero (x : F) : F := if F64.le (F64.ofNat 0) x then x else F64.ofNat 0

/-- The rows, or columns, of chunks that a circle's square touches. -/
def span (center radius : F) (size : Nat) : List Nat :=
  let low := LensF64.toUsize (maxZero (F64.sub center radius)) / chunkSize
  let high := min (LensF64.toUsize (maxZero (F64.add center radius))) (size - 1) / chunkSize
  List.range' low (high + 1 - low)

/-- The chunks that a circle's square touches, row by row. -/
def around (s : Shown) (x y radius : F) : List Nat :=
  (span y radius s.height).flatMap fun row =>
    (span x radius s.width).map fun column => row * s.columns + column

/-- The chunks under a circle that changed since the client last copied them, as far as there is room. -/
def dirty (v : Viewer) (x y radius : F) (room : Nat) : List Nat :=
  if v.shown.width = 0 then []
  else (around v.shown x y radius).foldl (fun out id =>
    if out.length < room ∧ v.shown.dirty id then out ++ [id] else out) []

end dirty

/-- What a chunk is copied into: bytes in rows so far apart. -/
structure Copy where
  pixels : Buffer
  stride : Nat

/-- Copies a chunk into a buffer so long, and marks it clean. -/
def chunk (id : Nat) (into : Copy) (length : Nat) (v : Viewer) : Option ((Nat × Nat) × Copy × Viewer) :=
  let s := v.shown
  if s.columns = 0 then none
  else
    let area := s.chunkRect id
    if s.height ≤ area.y then none
    else if into.stride < area.width * 4 ∨ length < into.stride * (area.height - 1) + area.width * 4 then none
    else
      let pixels := (List.range area.height).foldl (fun pixels row =>
        pixels.fill (row * into.stride) (area.width * 4)
          fun k => s.pixels (((area.y + row) * s.width + area.x) * 4 + k)) into.pixels
      some ((area.width, area.height), { into with pixels },
        { v with shown := { s with dirty := Function.update s.dirty id false } })

/-- The viewed computer's desktop size, before its tiles. -/
def ready (width height : Nat) (_ : Viewer) : Viewer where
  shown := ⟨width, height, fun _ => 0, fun _ => false⟩
  status := ⟨.open, width, height, 0⟩

/-- One tile of a frame. -/
def showTile (desktop : Buffer) (s : Shown) (area : Rect) : Shown :=
  { s with
    pixels := fillRows s.width area (fun row k => desktop (((area.y + row) * s.width + area.x) * 4 + k)) s.pixels
    dirty := Function.update s.dirty (area.y / chunkSize * s.columns + area.x / chunkSize) true }

/-- Copies the tiles a frame changed from the decoder's desktop, and marks their chunks. -/
def show_ (desktop : Buffer) (length : Nat) (changed : List Rect) (v : Viewer) : Viewer :=
  if length ≠ v.shown.width * v.shown.height * 4 then v
  else { shown := changed.foldl (showTile desktop) v.shown
         status := { v.status with frames := v.status.frames + 1 } }

end Viewer

/-! ## The client -/

/-- The viewer, and of each chunk what it was last copied into, and whether that was since the desktop's
size came. -/
structure Watching where
  viewer : Viewer
  copied : Nat → Option Viewer.Copy
  since : Nat → Bool

inductive ViewerCall (F : Type) where
  | ready (width height : Nat)
  | show_ (desktop : Buffer) (length : Nat) (changed : List Rect)
  | dirty (x y radius : F) (room : Nat)
  | chunk (id : Nat) (into : Viewer.Copy) (length : Nat)

namespace Watching

def start : Watching := ⟨.default, fun _ => none, fun _ => false⟩

def step {F : Type} : System Watching (ViewerCall F)
  | .ready width height, w => some { w with viewer := w.viewer.ready width height, since := fun _ => false }
  | .show_ desktop length changed, w => some { w with viewer := w.viewer.show_ desktop length changed }
  | .dirty _ _ _ _, w => some w
  | .chunk id into length, w =>
    match w.viewer.chunk id into length with
    | none => some w
    | some (_, copy, viewer) => some {
        viewer, copied := Function.update w.copied id (some copy), since := Function.update w.since id true }

end Watching

end Zflow.Lens
