import Zflow.Lens.Tiles

/-!
# Applying a packet in place

`Decoder::apply` of `src/lens/tiles.rs` once more, on a decoder that it writes to as it goes, with every
index and every sum of a `usize` checked. What a machine would stop at is a failure of its own, beside the
errors that the code answers with. The picture is as long as `Decoder::new` makes it.
-/

namespace Zflow.Lens

open Lib

inductive Failure where
  /-- An index out of bounds, a division by zero, or a result out of range. -/
  | stopped
  | refused (message : String)

namespace Failure

/-- What the machine can compute. -/
def machine {α : Type} (x : Option α) : Except Failure α :=
  match x with
  | some a => .ok a
  | none => .error .stopped

/-- `ensure!`. -/
def ensure (holds : Prop) [Decidable holds] (message : String) : Except Failure Unit :=
  if holds then .ok () else .error (.refused message)

/-- `&bytes[start..start + len]` is in bounds. -/
def stretch (start len length : Nat) : Option Unit := if start + len ≤ length then some () else none

/-- A big-endian number at some place. -/
def field (bytes : List UInt8) (start len : Nat) : Except Failure Nat := do
  machine (stretch start len bytes.length)
  return fromBe (slice bytes start len)

end Failure

open Failure

/-- `usize::div_ceil`. -/
def divCeilUsize (a b : Nat) : Option Nat := if b = 0 then none else some (divCeil a b)

/-- `rect`. -/
def rectUsize (width height id : Nat) : Option Rect := do
  let columns ← divCeilUsize width tileSize
  if columns = 0 then none
  else
    let x ← checkedMulU64 (id % columns) tileSize
    let y ← checkedMulU64 (id / columns) tileSize
    return ⟨x, y, min tileSize (← checkedSubU64 width x), min tileSize (← checkedSubU64 height y)⟩

/-- `record_size`. -/
def recordSizeUsize (width height level : Nat) : Option Nat := do
  checkedMulU64 (← checkedMulU64 (← divCeilUsize width level) (← divCeilUsize height level)) 4

namespace Decoder

/-- How long the picture is. -/
def length (d : Decoder) : Nat := d.width * d.height * 4

/-- One step of the loop that reads the records. -/
def readRecordUsize (d : Decoder) (raw : List UInt8) (offset : Nat) (seen : List Nat) :
    Except Failure (Record × Nat) := do
  ensure ((← machine (checkedAddU64 offset 5)) ≤ raw.length) "truncated tile id"
  let id ← field raw offset 4
  machine (stretch (offset + 4) 1 raw.length)
  let level := (raw.getD (offset + 4) 0).toNat
  let offset := offset + 5
  ensure (id < d.count ∧ id ∉ seen) "invalid or repeated tile"
  ensure (level = 1 ∨ level = 2 ∨ level = 4) "invalid tile level"
  let tile ← machine (rectUsize d.width d.height id)
  let size ← machine (recordSizeUsize tile.width tile.height level)
  let next ← machine (checkedAddU64 offset size)
  ensure (next ≤ raw.length) "truncated tile pixels"
  return (⟨id, level, offset⟩, next)

def readRecordsUsize (d : Decoder) (raw : List UInt8) : Nat → Nat → List Nat →
    Except Failure (List Record × Nat)
  | 0, offset, _ => .ok ([], offset)
  | n + 1, offset, seen => do
    let (record, next) ← d.readRecordUsize raw offset seen
    let (records, last) ← d.readRecordsUsize raw n next (record.id :: seen)
    return (record :: records, last)

/-- Where a row of a tile begins in the picture, all of it in bounds. -/
def rowStart (d : Decoder) (tile : Rect) (row : Nat) : Option Nat := do
  let line ← checkedMulU64 (← checkedAddU64 tile.y row) d.width
  let start ← checkedMulU64 (← checkedAddU64 line tile.x) 4
  stretch start (← checkedMulU64 tile.width 4) d.length
  return start

/-- A row of an exact tile. -/
def copyRow (raw : List UInt8) (start : Nat) (tile : Rect) (row : Nat) : Act Failure Decoder Unit := do
  let d ← .read
  let target ← .lift id (machine (d.rowStart tile row))
  let source ← .lift id (machine do
    let source ← checkedAddU64 start (← checkedMulU64 (← checkedMulU64 row tile.width) 4)
    stretch source (tile.width * 4) raw.length
    return source)
  .change fun d => { d with
    pixels := d.pixels.fill target (tile.width * 4) fun k => raw.getD (source + k) 0 }

/-- A row of a preview, `upscale`. -/
def upscaleRow (raw : List UInt8) (start : Nat) (tile : Rect) (level row : Nat) :
    Act Failure Decoder Unit := do
  let d ← .read
  let source ← .lift id (machine do
    let columns ← divCeilUsize tile.width level
    -- the data of the record, its row, and the pixels of the row
    stretch start 0 raw.length
    let skipped ← checkedMulU64 (← checkedMulU64 (row / level) columns) 4
    stretch skipped (← checkedMulU64 columns 4) (raw.length - start)
    if (List.range tile.width).all fun column => column / level < columns then return start + skipped
    else none)
  let target ← .lift id (machine (d.rowStart tile row))
  .change fun d => { d with
    pixels := d.pixels.fill target (tile.width * 4) fun k => raw.getD (source + (k / 4 / level * 4 + k % 4)) 0 }

/-- `for row in 0..h`. -/
def forRows (row : Nat → Act Failure Decoder Unit) : List Nat → Act Failure Decoder Unit
  | [] => return ()
  | i :: rest => do
    row i
    forRows row rest

/-- Writes one record, and says where. -/
def publishInPlace (raw : List UInt8) (record : Record) : Act Failure Decoder Rect := do
  let d ← .read
  let tile ← .lift id (machine (rectUsize d.width d.height record.id))
  forRows (if record.level = 1 then copyRow raw record.start tile
    else upscaleRow raw record.start tile record.level) (List.range tile.height)
  .lift id (machine (stretch record.id 1 d.count))
  .change fun d => { d with valid := Function.update d.valid record.id true }
  return tile

def publishAll (raw : List UInt8) : List Record → Act Failure Decoder (List Rect)
  | [] => return []
  | record :: rest => do
    let tile ← publishInPlace raw record
    return tile :: (← publishAll raw rest)

/-- What the header and the body of a packet say. -/
def parseUsize (zstd : Zstd) (d : Decoder) (packet : List UInt8) :
    Except Failure (UInt64 × List UInt8 × List Record) := do
  -- the magic is only looked at where the packet is long enough
  ensure (header < packet.length ∧ packet.take 4 = magic) "invalid tile header"
  let sequence := UInt64.ofNat (← field packet 4 8)
  let width ← field packet 12 2
  let height ← field packet 14 2
  let count ← field packet 16 4
  let length ← field packet 20 4
  let expected ← machine (checkedAddU64 d.sequence.toNat 1)
  ensure (sequence.toNat = expected) "tile sequence gap"
  ensure ((width, height) = (d.width, d.height)) "desktop size changed"
  ensure (0 < count ∧ count ≤ d.count) "invalid tile count"
  let most ← machine do
    checkedAddU64 (← checkedMulU64 (← checkedMulU64 width height) 4) (← checkedMulU64 d.count 5)
  ensure (length ≤ most) "oversized tile body"
  let raw ← (zstd.decompress (packet.drop header) length).mapError .refused
  ensure (raw.length = length) "wrong tile body length"
  let (records, last) ← d.readRecordsUsize raw count 0 []
  ensure (last = raw.length) "trailing tile data"
  return (sequence, raw, records)

/-- `apply`. -/
def applyInPlace (zstd : Zstd) (packet : List UInt8) : Act Failure Decoder (List Rect) := do
  let d ← .read
  let (sequence, raw, records) ← .lift id (d.parseUsize zstd packet)
  let changed ← publishAll raw records
  .change fun d => { d with sequence }
  return changed

end Decoder

end Zflow.Lens
