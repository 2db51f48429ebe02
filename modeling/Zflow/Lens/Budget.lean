import Zflow.Lens.Tiles

/-!
# What a round spends, in machine arithmetic

The round of `src/lens/tiles.rs` once more, with the sums and differences of its budget as a `usize` has
them: each answers `none` where the machine would wrap around or stop.
-/

namespace Zflow.Lens

open Lib Zflow.Core

variable {F : Type} [LensF64 F]

namespace Encoder

/-- `cost`. -/
def costUsize (e : Encoder F) (id level : Nat) : Option Nat :=
  let tile := e.rect id
  checkedAddU64
    (LensF64.toUsize (F64.mul (F64.ofNat (recordSize tile.width tile.height level)) e.ratio)) 5

def previewCostUsize (e : Encoder F) (work : List (Nat × Need)) (level : Nat) (of : Need) : Option Nat :=
  checkedSumU64 ((work.filter (·.2 = of)).map fun w => e.costUsize w.1 level) 0

def chooseOneUsize (e : Encoder F) (level : Nat) (stale : Bool) (choice : Choice) (w : Nat × Need) :
    Option Choice := do
  let (id, need) := w
  let previewed := need = .missing || (stale && need = .stale)
  let extra ← checkedSubU64 (← e.costUsize id 1) (← (if previewed then e.costUsize id level else some 0))
  if extra ≤ choice.left then
    return { choice with
      chosen := choice.chosen ++ [(id, 1)]
      left := ← checkedSubU64 choice.left extra }
  else
    return { choice with
      chosen := if previewed then choice.chosen ++ [(id, level)] else choice.chosen
      exact := false }

def chooseUsize (e : Encoder F) (work : List (Nat × Need)) (budget : Nat) : Option Choice := do
  let exactCost ← checkedSumU64 (work.map fun w => e.costUsize w.1 1) 0
  if exactCost ≤ budget then return ⟨work.map fun w => (w.1, 1), ← checkedSubU64 budget exactCost, true⟩
  else
    let both ← checkedAddU64 (← e.previewCostUsize work 2 .missing) (← e.previewCostUsize work 2 .stale)
    let level := if both ≤ budget then 2 else 4
    -- `saturating_sub`
    let left := budget - (← e.previewCostUsize work level .missing)
    let staleCost ← e.previewCostUsize work level .stale
    let stale : Bool := staleCost ≤ left
    let left ← (if stale then checkedSubU64 left staleCost else some left)
    work.foldlM (e.chooseOneUsize level stale) ⟨[], left, true⟩

/-- A tile of the ring or of the scan that gets what is spare. -/
def sendSpare (capture : Capture) (now : UInt64) (r : Round F) (id : Nat) : Option (Round F) := do
  let fill ← checkedSubU64 r.fill (← r.encoder.costUsize id 1)
  return { r with fill }.put id 1 capture now

def ringOneUsize (capture : Capture) (now : UInt64) (r : Round F) (id : Nat) : Option (Round F) :=
  if r.fill = 0 then some r
  else if (r.encoder.tiles id).picked = r.encoder.round then some r
  else
    let (need, r) := r.need id capture now ringRefreshNs
    if need = .current then some r
    else do
      if (← r.encoder.costUsize id 1) ≤ r.fill then sendSpare capture now r id else some r

def scanOneUsize (capture : Capture) (now : UInt64) (r : Round F) : Option (Round F × Bool) :=
  let id := r.encoder.cursor
  if (r.encoder.tiles id).picked = r.encoder.round then
    some (r.setClean (if 1 < (r.encoder.tiles id).level then 0 else r.encoder.clean + 1), true)
  else
    let (need, r) := r.need id capture now refreshNs
    let r := r.putOff id
    if need = .current then some (r.setClean (r.encoder.clean + 1), true)
    else do
      if r.fill < (← r.encoder.costUsize id 1) then return (r, false)
      else
        let r ← sendSpare capture now r id
        return (r.setClean (r.encoder.clean + 1), true)

def scanUsize (capture : Capture) (now : UInt64) : Nat → Round F → Option (Round F)
  | 0, r => some r
  | n + 1, r =>
    if r.encoder.clean < r.encoder.count then do
      let (next, goesOn) ← scanOneUsize capture now r
      if goesOn then
        let cursor := (r.encoder.cursor + 1) % r.encoder.count
        scanUsize capture now n
          { next with encoder := { next.encoder with cursor }, scanned := next.scanned + 1 }
      else return next
    else some r

def spreadUsize (view : View F) (capture : Capture) (now : UInt64) (r : Round F) : Option (Round F) := do
  let ring := { view with radius := F64.add view.radius (F64.ofNat 256) }
  let r ← ((r.encoder.near ring).map Prod.snd).foldlM (ringOneUsize capture now) r
  scanUsize capture now scanMost r

def roundUsize (e : Encoder F) (capture : Capture) (view : Option (View F)) (budget : Budget)
    (now : UInt64) : Option (Round F × Bool × Bool) := do
  let (r, work) := (e.begin_ now).lensWork view capture now
  let choice ← r.encoder.chooseUsize work budget.lens
  let r := putAll capture now r choice.chosen
  match view with
  | none => return (r, choice.exact, false)
  | some view =>
    let r ← spreadUsize view capture now { r with fill := min budget.fill choice.left }
    return (r, choice.exact, r.scanned = scanMost && r.encoder.clean < r.encoder.count)

end Encoder

end Zflow.Lens
