import Zflow.Core.Playout
import Zflow.Lib.Bytes
import Zflow.Lib.System

/-!
# Tiles that build to lossless

`src/lens/tiles.rs`. The encoder tracks what the other side holds for every 64x64 tile and spends a
byte budget on the lens first, then on a ring around it, then on the rest of the desktop; the decoder
applies what it is sent. A buffer of pixels is its bytes by index, four to a pixel. The compressor is a
parameter. Captures and rounds are counted without wrapping, as neither reaches 2^64.
-/

namespace Zflow.Lens

open Lib Zflow.Core

/-! ## Geometry -/

/-- `TILE`. -/
def tileSize : Nat := 64

/-- `usize::div_ceil`. -/
def divCeil (a b : Nat) : Nat := (a + b - 1) / b

/-- A region, in desktop pixels. -/
structure Rect where
  x : Nat
  y : Nat
  width : Nat
  height : Nat
  deriving DecidableEq

def Rect.overlaps (damage tile : Rect) : Bool :=
  damage.x < tile.x + tile.width && tile.x < damage.x + damage.width &&
    damage.y < tile.y + tile.height && tile.y < damage.y + damage.height

def dimensions (width height : Nat) : Except String Nat :=
  if 0 < width ∧ 0 < height ∧ width ≤ 4096 ∧ height ≤ 2160 then
    .ok (divCeil width tileSize * divCeil height tileSize)
  else .error s!"unsupported desktop dimensions {width}x{height}"

/-- Where a tile is. -/
def rect (width height id : Nat) : Rect :=
  let columns := divCeil width tileSize
  let x := id % columns * tileSize
  let y := id / columns * tileSize
  ⟨x, y, min tileSize (width - x), min tileSize (height - y)⟩

def recordSize (width height level : Nat) : Nat := divCeil width level * divCeil height level * 4

/-- Writes the rows of a tile: `value row` is the row's bytes. -/
def fillRows (width : Nat) (tile : Rect) (value : Nat → Buffer) (pixels : Buffer) : Buffer :=
  (List.range tile.height).foldl
    (fun pixels row =>
      pixels.fill (((tile.y + row) * width + tile.x) * 4) (tile.width * 4) (value row))
    pixels

/-- What the lens uses of `f64` beside its arithmetic. -/
class LensF64 (F : Type) extends F64 F where
  /-- `x as usize`. -/
  toUsize : F → Nat
  /-- `x.total_cmp(y) != Greater`. -/
  totalLe : F → F → Bool

variable {F : Type} [LensF64 F]

structure View (F : Type) where
  x : F
  y : F
  radius : F

namespace View

/-- `f64::clamp`. -/
def clamp (x low high : F) : F :=
  if F64.le low x then (if F64.le x high then x else high) else low

def includes (view : View F) (tile : Rect) : Bool :=
  let dx := F64.sub view.x (clamp view.x (F64.ofNat tile.x) (F64.ofNat (tile.x + tile.width)))
  let dy := F64.sub view.y (clamp view.y (F64.ofNat tile.y) (F64.ofNat (tile.y + tile.height)))
  F64.le (F64.add (F64.mul dx dx) (F64.mul dy dy)) (F64.mul view.radius view.radius)

def distance (view : View F) (tile : Rect) : F :=
  let half (n : Nat) : F := F64.div (F64.ofNat n) (F64.ofNat 2)
  F64.hypot (F64.sub (F64.add (F64.ofNat tile.x) (half tile.width)) view.x)
    (F64.sub (F64.add (F64.ofNat tile.y) (half tile.height)) view.y)

end View

/-! ## The encoder -/

/-- Bytes the next packet may use. -/
structure Budget where
  lens : Nat
  fill : Nat

structure Packet where
  body : Option (List UInt8)
  /-- Every tile under the lens is exact on the other side once this packet lands. -/
  exact : Bool
  /-- The background scan stopped early. -/
  more : Bool

structure Tile where
  /-- 0: the other side has nothing. 1: exact. 2 or 4: a preview downscaled by that factor. -/
  level : Nat
  stale : Bool
  checked : Nat
  comparedNs : UInt64
  picked : Nat
  sentNs : UInt64

inductive Need where
  | missing
  | stale
  | refine
  | current
  deriving DecidableEq

/-- An input frame. -/
structure Capture where
  pixels : Buffer
  length : Nat
  stride : Nat

/-- `REFRESH_NS`. -/
def refreshNs : UInt64 := 1000000000

/-- `RING_REFRESH_NS`. -/
def ringRefreshNs : UInt64 := 250000000

/-- `SCAN`: the background tiles compared in a round. -/
def scanMost : Nat := 256

structure Encoder (F : Type) where
  width : Nat
  height : Nat
  /-- The source pixels behind what the other side shows. -/
  pixels : Buffer
  tiles : Nat → Tile
  generation : Nat
  round : Nat
  cursor : Nat
  clean : Nat
  /-- When the earliest far tile that changed may be refreshed. -/
  deferred : Option UInt64
  sequence : UInt64
  ratio : F
  raw : List UInt8

namespace Encoder

def new (F : Type) [LensF64 F] (width height : Nat) : Except String (Encoder F) := do
  let _ ← dimensions width height
  return {
    width, height
    pixels := fun _ => 0
    tiles := fun _ => ⟨0, false, 0, 0, 0, 0⟩
    generation := 1
    round := 0
    cursor := 0
    clean := 0
    deferred := none
    sequence := 0
    ratio := F64.div (F64.ofNat 35) (F64.ofNat 100)
    raw := [] }

/-- How many tiles there are. -/
def count (e : Encoder F) : Nat := divCeil e.width tileSize * divCeil e.height tileSize

def rect (e : Encoder F) (id : Nat) : Rect := Lens.rect e.width e.height id

def setTile (e : Encoder F) (id : Nat) (tile : Tile) : Encoder F :=
  { e with tiles := Function.update e.tiles id tile }

/-- A new capture arrived, damaged where it says; without damage everywhere. Only a tile that was
current at the previous capture stays current through this one. -/
def changed (e : Encoder F) (damage : Option (List Rect)) : Encoder F :=
  let generation := e.generation + 1
  let tiles := match damage with
    | none => e.tiles
    | some damage => fun id =>
      let tile := e.tiles id
      if !damage.any (·.overlaps (e.rect id)) && tile.checked + 1 = generation then
        { tile with checked := generation }
      else tile
  { e with generation, clean := 0, tiles }

/-- Whether some row of a tile differs from the capture. -/
def differs (e : Encoder F) (id : Nat) (capture : Capture) : Bool :=
  let tile := e.rect id
  (List.range tile.height).any fun i =>
    let row := tile.y + i
    capture.pixels.slice (row * capture.stride + tile.x * 4) (tile.width * 4) ≠
      e.pixels.slice ((row * e.width + tile.x) * 4) (tile.width * 4)

/-- Whether `need` compares a tile with the capture. -/
def compares (e : Encoder F) (id : Nat) (now every : UInt64) : Bool :=
  (e.tiles id).level ≠ 0 && (e.tiles id).checked ≠ e.generation &&
    (e.tiles id).comparedNs + every ≤ now

/-- What a tile lacks, from what is known of it. -/
def lacks (e : Encoder F) (id : Nat) : Need :=
  if (e.tiles id).stale then .stale
  else if 2 ≤ (e.tiles id).level then .refine
  else .current

/-- Compares a tile with the capture, unless it was compared less than `every` ago. -/
def need (e : Encoder F) (id : Nat) (capture : Capture) (now every : UInt64) : Need × Encoder F :=
  if (e.tiles id).level = 0 then (.missing, e)
  else
    let e := if e.compares id now every then
      e.setTile id { e.tiles id with
        checked := e.generation, comparedNs := now, stale := e.differs id capture }
    else e
    (e.lacks id, e)

/-- Estimated compressed bytes for one tile at a level. -/
def cost (e : Encoder F) (id level : Nat) : Nat :=
  let tile := e.rect id
  LensF64.toUsize (F64.mul (F64.ofNat (recordSize tile.width tile.height level)) e.ratio) + 5

/-! ### Records -/

/-- One block filtered into a single pixel. -/
def box (width : Nat) (pixels : Buffer) (tile : Rect) (level by_ bx : Nat) : List UInt8 :=
  let rows := List.range' (tile.y + by_) (min level (tile.height - by_))
  let columns := List.range' (tile.x + bx) (min level (tile.width - bx))
  let n := rows.length * columns.length
  (List.range 4).map fun channel =>
    let sum := (rows.flatMap fun row => columns.map fun column =>
      (pixels ((row * width + column) * 4 + channel)).toNat).sum
    UInt8.ofNat ((sum + n / 2) / n)

/-- The pixels of a record: a tile's rows, or a preview of it. -/
def record (width : Nat) (pixels : Buffer) (tile : Rect) (level : Nat) : List UInt8 :=
  if level = 1 then
    (List.range tile.height).flatMap fun row =>
      pixels.slice (((tile.y + row) * width + tile.x) * 4) (tile.width * 4)
  else
    (List.range (divCeil tile.height level)).flatMap fun by_ =>
      (List.range (divCeil tile.width level)).flatMap fun bx =>
        box width pixels tile level (by_ * level) (bx * level)

/-- Appends one record and remembers the source pixels that the other side will be showing. -/
def put (e : Encoder F) (id level : Nat) (capture : Capture) (now : UInt64) : Encoder F :=
  let tile := e.rect id
  let pixels := fillRows e.width tile
    (fun i k => capture.pixels ((tile.y + i) * capture.stride + tile.x * 4 + k)) e.pixels
  { e.setTile id
      { level, stale := false, checked := e.generation, comparedNs := now, picked := e.round
        sentNs := now } with
    pixels
    raw := e.raw ++ beBytes 4 id ++ [UInt8.ofNat level] ++ record e.width pixels tile level }

end Encoder

/-! ### A round -/

/-- What `need` was asked about a tile: its answer, whether it compared the pixels, and whether it put
that off because it did so lately. -/
structure Look where
  id : Nat
  need : Need
  compared : Bool
  putOff : Bool

/-- The encoder in the middle of a round; `looks` is the history of what it asked. -/
structure Round (F : Type) where
  encoder : Encoder F
  records : Nat
  fill : Nat
  scanned : Nat
  looks : List Look

namespace Round

def need (r : Round F) (id : Nat) (capture : Capture) (now every : UInt64) : Need × Round F :=
  let (need, encoder) := r.encoder.need id capture now every
  let look : Look := {
    id, need
    compared := r.encoder.compares id now every
    putOff := (encoder.tiles id).checked ≠ encoder.generation }
  (need, { r with encoder, looks := r.looks ++ [look] })

def put (r : Round F) (id level : Nat) (capture : Capture) (now : UInt64) : Round F :=
  { r with encoder := r.encoder.put id level capture now, records := r.records + 1 }

def setClean (r : Round F) (clean : Nat) : Round F :=
  { r with encoder := { r.encoder with clean } }

/-- Notes when a tile is due that was compared too recently to look again. -/
def putOff (r : Round F) (id : Nat) : Round F :=
  let tile := r.encoder.tiles id
  let due := tile.comparedNs + refreshNs
  if tile.checked ≠ r.encoder.generation then
    { r with encoder := { r.encoder with deferred := some (r.encoder.deferred.elim due (min · due)) } }
  else r

end Round

/-- A sort by the first component that keeps the order of equals. -/
def sortByFirst {α : Type} (entries : List (F × α)) : List (F × α) :=
  entries.insertionSort fun left right => LensF64.totalLe left.1 right.1 = true

namespace Encoder

/-- The tiles a view includes, nearest first. -/
def near (e : Encoder F) (view : View F) : List (F × Nat) :=
  sortByFirst (((List.range e.count).filter fun id => view.includes (e.rect id)).map fun id =>
    (view.distance (e.rect id), id))

/-- The tiles under the lens. -/
def lens (e : Encoder F) (view : Option (View F)) : List (F × Nat) :=
  match view with
  | some view => e.near view
  | none => (List.range e.count).map fun id => (F64.ofNat 0, id)

/-- How urgent a tile is: its distance in radii, less the time it waited. -/
def urgency (e : Encoder F) (view : Option (View F)) (now : UInt64) (distance : F) (id : Nat) : F :=
  let sent := (e.tiles id).sentNs
  let waited : Nat := if sent ≤ now then (now - sent).toNat else 0
  let radius := (view.map (·.radius)).getD (F64.ofNat 1)
  F64.sub (F64.div distance radius) (F64.div (F64.ofNat waited) (F64.ofNat 100000000))

/-- One tile of the lens: what it needs joins the work. -/
def lookAt (view : Option (View F)) (capture : Capture) (now : UInt64)
    (state : Round F × List (F × Nat × Need)) (entry : F × Nat) : Round F × List (F × Nat × Need) :=
  let (r, work) := state
  let (distance, id) := entry
  let (need, r) := r.need id capture now 0
  if need = .current then (r, work)
  else (r, work ++ [(r.encoder.urgency view now distance id, id, need)])

/-- What is sent of the lens, the budget left, and whether all of it is exact. -/
structure Choice where
  chosen : List (Nat × Nat)
  left : Nat
  exact : Bool

/-- The cost of previews of the tiles with a need. -/
def previewCost (e : Encoder F) (work : List (Nat × Need)) (level : Nat) (of : Need) : Nat :=
  ((work.filter (·.2 = of)).map fun w => e.cost w.1 level).sum

/-- One tile of the work when the budget does not cover the lens. -/
def chooseOne (e : Encoder F) (level : Nat) (stale : Bool) (choice : Choice) (w : Nat × Need) : Choice :=
  let (id, need) := w
  let previewed := need = .missing || (stale && need = .stale)
  let extra := e.cost id 1 - if previewed then e.cost id level else 0
  if extra ≤ choice.left then
    { choice with chosen := choice.chosen ++ [(id, 1)], left := choice.left - extra }
  else
    { choice with
      chosen := if previewed then choice.chosen ++ [(id, level)] else choice.chosen
      exact := false }

def choose (e : Encoder F) (work : List (Nat × Need)) (budget : Nat) : Choice :=
  let exactCost := (work.map fun w => e.cost w.1 1).sum
  if exactCost ≤ budget then ⟨work.map fun w => (w.1, 1), budget - exactCost, true⟩
  else
    let level := if e.previewCost work 2 .missing + e.previewCost work 2 .stale ≤ budget then 2 else 4
    let left := budget - e.previewCost work level .missing
    let stale : Bool := e.previewCost work level .stale ≤ left
    let left := if stale then left - e.previewCost work level .stale else left
    work.foldl (e.chooseOne level stale) ⟨[], left, true⟩

/-- One tile of the ring: it only gets exact tiles, from spare budget. -/
def ringOne (capture : Capture) (now : UInt64) (r : Round F) (id : Nat) : Round F :=
  if r.fill = 0 then r
  else if (r.encoder.tiles id).picked = r.encoder.round then r
  else
    let (need, r) := r.need id capture now ringRefreshNs
    if need ≠ .current ∧ r.encoder.cost id 1 ≤ r.fill then
      { r with fill := r.fill - r.encoder.cost id 1 }.put id 1 capture now
    else r

/-- One tile of the background scan, and whether the scan goes on. -/
def scanOne (capture : Capture) (now : UInt64) (r : Round F) : Round F × Bool :=
  let id := r.encoder.cursor
  if (r.encoder.tiles id).picked = r.encoder.round then
    -- picked by the lens or the ring; a preview still needs another visit
    (r.setClean (if 1 < (r.encoder.tiles id).level then 0 else r.encoder.clean + 1), true)
  else
    let (need, r) := r.need id capture now refreshNs
    let r := r.putOff id
    if need ≠ .current ∧ r.fill < r.encoder.cost id 1 then (r, false)
    else
      let r := if need = .current then r
        else { r with fill := r.fill - r.encoder.cost id 1 }.put id 1 capture now
      (r.setClean (r.encoder.clean + 1), true)

/-- The scan, for so many tiles more. -/
def scan (capture : Capture) (now : UInt64) : Nat → Round F → Round F
  | 0, r => r
  | n + 1, r =>
    if r.encoder.clean < r.encoder.count then
      let (next, goesOn) := scanOne capture now r
      if goesOn then
        let cursor := (r.encoder.cursor + 1) % r.encoder.count
        scan capture now n
          { next with encoder := { next.encoder with cursor }, scanned := next.scanned + 1 }
      else next
    else r

/-- A new round, with no records yet; what was put off is looked at again once it is due. -/
def begin_ (e : Encoder F) (now : UInt64) : Encoder F :=
  let e := { e with round := e.round + 1, raw := [] }
  if e.deferred.any (· ≤ now) then { e with deferred := none, clean := 0 } else e

/-- The lens: what it needs, most urgent first. -/
def lensWork (e : Encoder F) (view : Option (View F)) (capture : Capture) (now : UInt64) :
    Round F × List (Nat × Need) :=
  let (r, work) := (e.lens view).foldl (lookAt view capture now) (⟨e, 0, 0, 0, []⟩, [])
  (r, (sortByFirst work).map Prod.snd)

def putAll (capture : Capture) (now : UInt64) (r : Round F) (chosen : List (Nat × Nat)) : Round F :=
  chosen.foldl (fun r c => r.put c.1 c.2 capture now) r

/-- The ring and the rest of the desktop. -/
def spread (view : View F) (capture : Capture) (now : UInt64) (r : Round F) : Round F :=
  let ring := { view with radius := F64.add view.radius (F64.ofNat 256) }
  let r := ((r.encoder.near ring).map Prod.snd).foldl (ringOne capture now) r
  scan capture now scanMost r

end Encoder

/-- What the code relies on: `zstd::bulk`. -/
structure Zstd where
  compress : List UInt8 → List UInt8
  /-- Into at most so many bytes. -/
  decompress : List UInt8 → Nat → Except String (List UInt8)

/-- `HEADER`. -/
def header : Nat := 24

/-- `SPT4`. -/
def magic : List UInt8 := [0x53, 0x50, 0x54, 0x34]

namespace Encoder

/-- Closes the round's packet. -/
def finish (zstd : Zstd) (e : Encoder F) (records : Nat) : Encoder F × Option (List UInt8) :=
  if records = 0 then (e, none)
  else
    let sequence := e.sequence + 1
    let compressed := zstd.compress e.raw
    let ratio := F64.add (F64.mul (F64.div (F64.ofNat 8) (F64.ofNat 10)) e.ratio)
      (F64.mul (F64.div (F64.ofNat 2) (F64.ofNat 10))
        (F64.div (F64.ofNat compressed.length) (F64.ofNat e.raw.length)))
    let body := magic ++ beBytes 8 sequence.toNat ++ beBytes 2 e.width ++ beBytes 2 e.height ++
      beBytes 4 records ++ beBytes 4 e.raw.length ++ compressed
    ({ e with sequence, ratio }, some body)

/-- Whether a capture has every row; the last one needs no padding after it. -/
def covers (e : Encoder F) (capture : Capture) : Bool :=
  e.width * 4 ≤ capture.stride &&
    capture.stride * (e.height - 1) + e.width * 4 ≤ capture.length

def validView (view : View F) : Bool :=
  F64.isFinite view.x && F64.isFinite view.y && F64.isFinite view.radius &&
    !F64.le view.radius (F64.ofNat 0)

/-- The lens: what the budget allows of its work is sent. -/
def sendLens (e : Encoder F) (capture : Capture) (view : Option (View F)) (budget : Nat)
    (now : UInt64) : Round F × Choice :=
  let (r, work) := (e.begin_ now).lensWork view capture now
  let choice := r.encoder.choose work budget
  (putAll capture now r choice.chosen, choice)

/-- The round of a packet: the lens, then what the budget leaves for the rest. -/
def round_ (e : Encoder F) (capture : Capture) (view : Option (View F)) (budget : Budget)
    (now : UInt64) : Round F × Bool × Bool :=
  let (r, choice) := e.sendLens capture view budget.lens now
  match view with
  | none => (r, choice.exact, false)
  | some view =>
    let r := spread view capture now { r with fill := min budget.fill choice.left }
    (r, choice.exact, r.scanned = scanMost && r.encoder.clean < r.encoder.count)

/-- What `encode` leaves: the encoder, its packet, and the history of the round. -/
structure Encoded (F : Type) where
  encoder : Encoder F
  packet : Packet
  looks : List Look

def encode (zstd : Zstd) (e : Encoder F) (capture : Capture) (view : Option (View F)) (budget : Budget)
    (now : UInt64) : Except String (Encoded F) :=
  if !e.covers capture then .error "short input frame"
  else if !view.all validView then .error "invalid view"
  else
    let (r, exact, more) := e.round_ capture view budget now
    let (encoder, body) := finish zstd r.encoder r.records
    .ok ⟨encoder, ⟨body, exact, more⟩, r.looks⟩

end Encoder

/-! ## The decoder -/

structure Decoder where
  width : Nat
  height : Nat
  pixels : Buffer
  valid : Nat → Bool
  sequence : UInt64

/-- A record in a decompressed body: its pixels begin at `start`. -/
structure Record where
  id : Nat
  level : Nat
  start : Nat

namespace Decoder

def new (width height : Nat) : Except String Decoder := do
  let _ ← dimensions width height
  return ⟨width, height, fun _ => 0, fun _ => false, 0⟩

def count (d : Decoder) : Nat := divCeil d.width tileSize * divCeil d.height tileSize

/-- Whether every tile in the view has something to show. -/
def covers (d : Decoder) (view : View F) : Bool :=
  (List.range d.count).all fun id => d.valid id || !view.includes (rect d.width d.height id)

/-- The record at some place, and where the next one begins. -/
def readRecord (d : Decoder) (raw : List UInt8) (offset : Nat) (seen : List Nat) :
    Except String (Record × Nat) :=
  if raw.length < offset + 5 then .error "truncated tile id"
  else
    let id := fromBe (slice raw offset 4)
    let level := (raw.getD (offset + 4) 0).toNat
    if ¬(id < d.count ∧ id ∉ seen) then .error "invalid or repeated tile"
    else if ¬(level = 1 ∨ level = 2 ∨ level = 4) then .error "invalid tile level"
    else
      let tile := rect d.width d.height id
      let size := recordSize tile.width tile.height level
      if raw.length < offset + 5 + size then .error "truncated tile pixels"
      else .ok (⟨id, level, offset + 5⟩, offset + 5 + size)

/-- So many records, and where they end. -/
def readRecords (d : Decoder) (raw : List UInt8) : Nat → Nat → List Nat →
    Except String (List Record × Nat)
  | 0, offset, _ => .ok ([], offset)
  | n + 1, offset, seen => do
    let (record, next) ← d.readRecord raw offset seen
    let (records, last) ← d.readRecords raw n next (record.id :: seen)
    return (record :: records, last)

/-- Blows a preview up into its tile by repeating pixels. -/
def upscale (width : Nat) (data : Buffer) (tile : Rect) (level : Nat) (pixels : Buffer) : Buffer :=
  let columns := divCeil tile.width level
  fillRows width tile (fun row k => data (row / level * columns * 4 + k / 4 / level * 4 + k % 4)) pixels

/-- Writes the pixels of one record. -/
def draw (width : Nat) (data : Buffer) (tile : Rect) (level : Nat) (pixels : Buffer) : Buffer :=
  if level = 1 then fillRows width tile (fun row k => data (row * tile.width * 4 + k)) pixels
  else upscale width data tile level pixels

def publish (raw : List UInt8) (d : Decoder) (record : Record) : Decoder :=
  { d with
    pixels := draw d.width (fun i => raw.getD (record.start + i) 0)
      (rect d.width d.height record.id) record.level d.pixels
    valid := Function.update d.valid record.id true }

/-- What a packet says: its sequence number, its body and the records in it. -/
def parse (zstd : Zstd) (d : Decoder) (packet : List UInt8) :
    Except String (UInt64 × List UInt8 × List Record) :=
  if ¬(header < packet.length ∧ packet.take 4 = magic) then .error "invalid tile header"
  else
    let sequence := UInt64.ofNat (fromBe (slice packet 4 8))
    let width := fromBe (slice packet 12 2)
    let height := fromBe (slice packet 14 2)
    let count := fromBe (slice packet 16 4)
    let length := fromBe (slice packet 20 4)
    if sequence ≠ d.sequence + 1 then .error "tile sequence gap"
    else if (width, height) ≠ (d.width, d.height) then .error "desktop size changed"
    else if ¬(0 < count ∧ count ≤ d.count) then .error "invalid tile count"
    else if width * height * 4 + d.count * 5 < length then .error "oversized tile body"
    else do
      let raw ← zstd.decompress (packet.drop header) length
      if raw.length ≠ length then .error "wrong tile body length"
      else
        let (records, last) ← d.readRecords raw count 0 []
        if last ≠ raw.length then .error "trailing tile data"
        else .ok (sequence, raw, records)

/-- Validates every record before it writes any pixel. The answer is the rectangles that changed. -/
def apply (zstd : Zstd) (d : Decoder) (packet : List UInt8) : Except String (Decoder × List Rect) := do
  let (sequence, raw, records) ← d.parse zstd packet
  let drawn := records.foldl (publish raw) d
  return ({ drawn with sequence }, records.map fun record => rect d.width d.height record.id)

end Decoder

/-! ## The two sides -/

/-- Byte `i` of the picture that a capture shows, on a desktop so wide. -/
def Capture.at_ (capture : Capture) (width : Nat) : Buffer := fun i =>
  capture.pixels (i / 4 / width * capture.stride + i / 4 % width * 4 + i % 4)

inductive Event (F : Type) where
  /-- A capture arrived that shows this picture; the encoder gets its damage. -/
  | changed (picture : Buffer) (damage : Option (List Rect))
  | encode (capture : Capture) (view : Option (View F)) (budget : Budget) (now : UInt64)

/-- An encoder, and the decoder that gets its packets in order. -/
structure Sides (F : Type) where
  encoder : Encoder F
  decoder : Decoder
  /-- What the last capture announced shows. -/
  picture : Buffer
  now : UInt64

/-- A step of the two sides. It cannot be taken where the decoder refuses the packet. -/
def Sides.step (zstd : Zstd) : System (Sides F) (Event F) := fun event sides =>
  match event with
  | .changed picture damage => some { sides with encoder := sides.encoder.changed damage, picture }
  | .encode capture view budget now =>
    if now < sides.now then none
    else match sides.encoder.encode zstd capture view budget now with
      | .error _ => some { sides with now }
      | .ok encoded => match encoded.packet.body with
        | none => some { sides with encoder := encoded.encoder, now }
        | some body => match sides.decoder.apply zstd body with
          | .error _ => none
          | .ok (decoder, _) => some { sides with encoder := encoded.encoder, decoder, now }

end Zflow.Lens
