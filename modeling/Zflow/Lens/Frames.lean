import Zflow.Lens.Tiles

/-!
# Frames of the recorded monitor

`src/lens/capture.rs`. The newest buffer of a PipeWire stream stays out of it while the encoder reads it in
place, and the damage of each frame is kept until the encoder takes it. Every buffer is taken in order, as its
damage is relative to the one before. Sums that the source leaves unchecked answer `none` where they overflow.
The two flags that only keep the log short are left out, and frames are counted without wrapping.
-/

namespace Zflow.Lens

open Lib Zflow.Core

/-- `MAX_DAMAGE`: rectangles kept between two takes. -/
def maxDamage : Nat := 128

/-- A buffer kept out of the stream while the encoder reads its mapped memory, from `data` on. -/
structure Screen.Held where
  buffer : Nat
  memory : Buffer
  data : Nat
  len : Nat
  stride : Nat

/-- The latest frame of the recorded monitor. -/
structure Screen where
  held : Option Screen.Held
  width : Nat
  height : Nat
  frames : Nat
  /-- Changed since the last take; `none` means everything. -/
  damage : Option (List Rect)

def Rect.contains (outer inner : Rect) : Option Bool :=
  if outer.x ≤ inner.x ∧ outer.y ≤ inner.y then do
    let right ← checkedAddU64 inner.x inner.width
    let outerRight ← checkedAddU64 outer.x outer.width
    if right ≤ outerRight then do
      let bottom ← checkedAddU64 inner.y inner.height
      let outerBottom ← checkedAddU64 outer.y outer.height
      return decide (bottom ≤ outerBottom)
    else some false
  else some false

/-- The frame that a held buffer is. -/
def Screen.Held.capture (held : Screen.Held) : Capture :=
  ⟨fun i => held.memory (held.data + i), held.len, held.stride⟩

namespace Screen

/-- `Screen::default()`. -/
def default : Screen := ⟨none, 0, 0, 0, none⟩

/-- What changed since the last call. -/
def takeDamage (s : Screen) : Option (List Rect) × Screen := (s.damage, { s with damage := some [] })

/-- Adds rectangles to the known ones, but for those that one of these contains. -/
def keep (known : List Rect) : List Rect → Option (Option (List Rect))
  | [] => some (some known)
  | rect :: rest => do
    let inside ← known.anyM (·.contains rect)
    if inside then keep known rest
    else if known.length = maxDamage then some none
    else keep (known ++ [rect]) rest

def addDamage (rects : Option (List Rect)) (s : Screen) : Option Screen :=
  match s.damage, rects with
  | some known, some rects => (keep known rects).map fun damage => { s with damage }
  | _, _ => some { s with damage := none }

/-- Counts one frame and its damage, already cut to the frame. -/
def note (size : Nat × Nat) (damage : Option (List Rect)) (s : Screen) : Option Screen := do
  let whole : Rect := ⟨0, 0, size.1, size.2⟩
  let resized : Bool := (s.width, s.height) ≠ size
  let s ← addDamage (damage.filter fun rects => !resized && !rects.contains whole)
    { s with width := size.1, height := size.2 }
  return { s with frames := s.frames + 1 }

/-- Keeps `next` for the encoder, and answers the buffer it replaces. -/
def hold (next : Held) (size : Nat × Nat) (damage : Option (List Rect)) (s : Screen) :
    Option (Option Nat × Screen) := do
  let s ← s.note size damage
  return (s.held.map (·.buffer), { s with held := some next })

/-- Gives up the held buffer. -/
def release (s : Screen) : Option Nat × Screen := (s.held.map (·.buffer), { s with held := none })

end Screen

/-! ## Buffers -/

/-- `spa_meta_region`. -/
structure Region where
  x : Int32
  y : Int32
  width : UInt32
  height : UInt32
  deriving DecidableEq

/-- A buffer's metadata. -/
inductive Meta where
  /-- Its data is null. -/
  | null
  | header (corrupted : Bool)
  | videoDamage (regions : List Region)
  | other
  deriving DecidableEq

/-- `spa_chunk`. -/
structure Chunk where
  offset : UInt32
  size : UInt32
  stride : Int32
  corrupted : Bool

/-- The first `spa_data` of a buffer. -/
structure BufferData where
  mapped : Bool
  memory : Buffer
  maxsize : UInt32
  chunk : Option Chunk

/-- A dequeued `pw_buffer`, whose own structures may be missing. -/
structure RawBuffer where
  id : Nat
  metas : Option (List Meta)
  data : Option BufferData

/-- A damage region in frame pixels, cut to the frame; `none` inside when nothing of it is there. -/
def clamp (region : Region) (frame : Nat × Nat) : Option (Option Rect) := do
  let left := max region.x.toInt 0
  let top := max region.y.toInt 0
  let right := min (← checkedI64 (region.x.toInt + region.width.toNat)) frame.1
  let bottom := min (← checkedI64 (region.y.toInt + region.height.toNat)) frame.2
  if left < right ∧ top < bottom then do
    let width ← checkedI64 (right - left)
    let height ← checkedI64 (bottom - top)
    return some ⟨left.toNat, top.toNat, width.toNat, height.toNat⟩
  else some none

/-- The bytes of a frame inside a mapped buffer, where they start and where they end; `none` when the chunk
cannot hold one. -/
def frame (len offset size : Nat) (stride : Int) (width height : Nat) : Option (Nat × Nat) :=
  if stride < 0 then none
  else do
    let stride := stride.toNat
    let row ← checkedMulU64 width 4
    if width = 0 ∨ height = 0 ∨ stride < row then none
    else do
      let before ← checkedMulU64 stride (height - 1)
      let needed ← checkedAddU64 before row
      let last ← checkedAddU64 offset needed
      if needed ≤ size ∧ last ≤ len then some (offset, last) else none

/-- Why a buffer has no frame to keep. -/
inductive Stop where
  | skip
  /-- Its frame is lost: the next one replaces the whole picture. -/
  | lost
  | overflow
  deriving DecidableEq

/-- The damage in a buffer's metadata. -/
def readMetas (size : Nat × Nat) : List Meta → Option (List Rect) → Except Stop (Option (List Rect))
  | [], damage => .ok damage
  | .header true :: _, _ => .error .skip
  | .videoDamage regions :: rest, _ =>
    match regions.mapM (clamp · size) with
    | none => .error .overflow
    | some rects => readMetas size rest (some rects.reduceOption)
  | _ :: rest, damage => readMetas size rest damage

/-- The frame in a buffer's data. -/
def RawBuffer.held (raw : RawBuffer) (size : Nat × Nat) : Except Stop Screen.Held :=
  match raw.data with
  | none => .error .skip
  | some data =>
    match data.chunk with
    | none => .error .skip
    | some chunk =>
      -- the recorder keeps the damage of a frame that it could not record for the next one
      if chunk.size = 0 ∨ chunk.corrupted then .error .skip
      else if !data.mapped then .error .lost
      else
        match frame data.maxsize.toNat chunk.offset.toNat chunk.size.toNat chunk.stride.toInt size.1 size.2 with
        | none => .error .lost
        | some (start, last) => .ok ⟨raw.id, data.memory, start, last - start, chunk.stride.toInt.toNat⟩

/-- Reads a buffer's frame and damage. -/
def inspect (raw : RawBuffer) (size : Nat × Nat) : Except Stop (Screen.Held × Option (List Rect)) :=
  match raw.metas with
  | none => .error .skip
  | some metas => do
    let damage ← readMetas size metas none
    let held ← raw.held size
    return (held, damage)

/-! ## The stream -/

/-- Stream state on the PipeWire thread, and the screen it shares. -/
structure Frames where
  screen : Screen
  size : Option (Nat × Nat)
  /-- The next frame replaces the whole picture. -/
  whole : Bool

namespace Frames

/-- Takes one dequeued buffer: whether the picture changed, and the buffer to give back to the stream. -/
def receive (raw : RawBuffer) (f : Frames) : Option ((Bool × Option Nat) × Frames) :=
  match f.size with
  | none => some ((false, some raw.id), f)
  | some size =>
    match inspect raw size with
    | .error .overflow => none
    | .error .skip => some ((false, some raw.id), f)
    | .error .lost => some ((false, some raw.id), { f with whole := true })
    | .ok (held, damage) => do
      let (previous, screen) ← f.screen.hold held size (damage.filter fun _ => !f.whole)
      return ((true, previous), { f with screen, whole := false })

/-- `param_changed`: the stream's format came. -/
def formatChanged (width height : UInt32) (f : Frames) : Frames where
  screen := f.screen.release.2
  size := some (width.toNat, height.toNat)
  whole := true

end Frames

/-! ## A recording -/

/-- The last frame that a take saw: its buffer, and the screen's size. -/
structure Taken where
  held : Screen.Held
  width : Nat
  height : Nat

/-- The stream, and of its past the last buffer that was neither flagged corrupted nor empty, and the frame held
at the last take. -/
structure Recording where
  stream : Frames
  last : Option RawBuffer
  taken : Option Taken

inductive StreamEvent where
  | format (width height : UInt32)
  | buffer (raw : RawBuffer)
  | take

/-- A buffer whose chunk is neither empty nor flagged corrupted. -/
def RawBuffer.recorded (raw : RawBuffer) : Bool :=
  (raw.data.bind (·.chunk)).any fun chunk => chunk.size ≠ 0 && !chunk.corrupted

/-- A buffer that is neither flagged corrupted nor empty. -/
def RawBuffer.intact (raw : RawBuffer) : Bool :=
  raw.metas.any (fun metas => !metas.contains (.header true)) && raw.recorded

namespace Recording

/-- `run`, before anything came. -/
def start : Recording := ⟨⟨.default, none, true⟩, none, none⟩

def step : System Recording StreamEvent
  | .format width height, r => some { r with stream := r.stream.formatChanged width height }
  | .buffer raw, r => do
    let (_, stream) ← r.stream.receive raw
    return { r with stream, last := if raw.intact then some raw else r.last }
  | .take, r => some { r with
      stream := { r.stream with screen := r.stream.screen.takeDamage.2 }
      taken := r.stream.screen.held.map (⟨·, r.stream.screen.width, r.stream.screen.height⟩) }

end Recording

end Zflow.Lens
