import Zflow.Pairing.Neighbors

/-!
# The one-shot pairing window of a fresh install

`src/pairing_window.rs`, with the file `state_dir/pairing-window` it keeps beside what is in memory.
The file is its words (`split_whitespace`), and each save says how it went, as the disk may fail at
any of them. A process that restarts loads the window from the file.
-/

namespace Zflow.Pairing

open Lib

/-! ## The window -/

def openFor : Nat := seconds (10 * 60)

/-- How long a lone stranger has to stay alone before it joins. -/
def holdOff : Nat := seconds 5

/-- Why the window closed. -/
inductive Reason where
  | hadPeers
  | accepted
  | expired
  | rival
  | restarted
  | failed
  deriving DecidableEq

/-- How a reason is written. -/
def Reason.name : Reason → String
  | .hadPeers => "had_peers"
  | .accepted => "accepted"
  | .expired => "expired"
  | .rival => "rival"
  | .restarted => "restarted"
  | .failed => "failed"

def parseReason (text : String) : Option Reason :=
  [Reason.hadPeers, .accepted, .expired, .rival, .restarted, .failed].find? (·.name = text)

inductive Phase where
  | never
  | eligible
  | opened (until_ : Instant)
  | closed (reason : Reason)
  deriving DecidableEq

structure PairingWindow where
  phase : Phase
  /-- The lone stranger about to join, and since when it is alone. -/
  holding : Option (Stranger × Instant)

/-- The words of the window's file, where there is one. -/
abbrev File := Option (List String)

/-- How `config::save_text` goes. -/
inductive Save where
  | saved
  /-- The file stays as it was. -/
  | failed
  /-- The file was replaced, and syncing its directory failed. -/
  | unsynced

/-- Whether the file has the new text. -/
def Save.reaches : Save → Bool
  | .failed => false
  | _ => true

def Save.succeeds : Save → Bool
  | .saved => true
  | _ => false

/-- `config::save_text`: the file after it. -/
def saveText (save : Save) (text : List String) (file : File) : File :=
  if save.reaches then some text else file

namespace PairingWindow

/-- A failed save is only logged. -/
def close (window : PairingWindow) (reason : Reason) (save : Save) (file : File) :
    PairingWindow × File :=
  ({ window with phase := .closed reason, holding := none },
    saveText save ["closed", reason.name] file)

/-- A file that cannot be read counts as empty. -/
def load (readable : Bool) (save : Save) (file : File) : PairingWindow × File :=
  let text := if readable then file.getD [] else []
  let window : PairingWindow := ⟨.never, none⟩
  match text with
  | ["eligible"] => ({ window with phase := .eligible }, file)
  | "open" :: _ => window.close .restarted save file
  | ["closed", reason] =>
    ({ window with phase := .closed ((parseReason reason).getD .restarted) }, file)
  | _ => (window, file)

def markEligible (save : Save) (file : File) : File := saveText save ["eligible"] file

/-- The file says open before the window is; when that cannot be saved, the window does not open. -/
def open_ (window : PairingWindow) (hasPeers : Bool) (since : Nat) (now : Instant) (save : Save)
    (file : File) : PairingWindow × File :=
  if window.phase ≠ .eligible then (window, file)
  else if hasPeers then window.close .hadPeers save file
  else
    let file := saveText save ["open", toString since] file
    if !save.succeeds then ({ window with phase := .never }, file)
    else ({ window with phase := .opened (now + openFor) }, file)

def isOpen (window : PairingWindow) : Bool :=
  match window.phase with
  | .opened _ => true
  | _ => false

/-- A computer was placed, which uses the window up. -/
def placed (window : PairingWindow) (save : Save) (file : File) : PairingWindow × File :=
  match window.phase with
  | .eligible | .opened _ => window.close .accepted save file
  | _ => (window, file)

/-- The computer `tick` returned could not be added. -/
def notAdded (window : PairingWindow) (save : Save) (file : File) : PairingWindow × File :=
  match window.phase with
  | .opened _ => window.close .failed save file
  | _ => (window, file)

/-- The only stranger around, where it may join. -/
def candidate (strangers : Strangers) : Option Stranger :=
  match strangers.present with
  | [only] =>
    if strangers.unidentified = 0 ∧ only.answered ∧ only.fresh ∧ !only.duplicateName then some only
    else none
  | _ => none

/-- Who `tick` holds from now on: any change of the candidate starts the wait again. -/
def hold (window : PairingWindow) (candidate : Option Stranger) (now : Instant) :
    Option (Stranger × Instant) :=
  if window.holding.any fun held => some held.1 = candidate then window.holding
  else candidate.map fun stranger => (stranger, now)

/-- Weighs who is around and returns the stranger to trust now. -/
def tick (window : PairingWindow) (strangers : Strangers) (now : Instant) (save : Save)
    (file : File) : (PairingWindow × File) × Option Stranger :=
  match window.phase with
  | .opened until_ =>
    if until_ ≤ now then (window.close .expired save file, none)
    else if 1 < strangers.present.length ∨ strangers.turnedAway then
      (window.close .rival save file, none)
    else
      let holding := window.hold (candidate strangers) now
      (({ window with holding }, file),
        holding.bind fun held => if now - held.2 < holdOff then none else some held.1)
  | _ => ((window, file), none)

end PairingWindow

/-! ## Runs -/

/-- What is noted of a run beside the program's own state. -/
structure Ledger where
  /-- The file was marked eligible. -/
  marked : Bool
  /-- The open periods since then. -/
  opened : Nat
  /-- Whether the window was closed since then. -/
  closed : Bool
  /-- Whether it ever opened after it was closed, with no new mark in between. -/
  reopened : Bool
  /-- When the last open period began. -/
  openedAt : Instant
  /-- Every tick, with who was around. -/
  ticks : List (Strangers × Instant)
  /-- What the last step returned, where that was a tick. -/
  joining : Option Stranger

structure World where
  file : File
  window : Option PairingWindow
  now : Instant
  ledger : Ledger

inductive Label where
  | wait (elapsed : Nat)
  | markEligible (save : Save)
  /-- The program starts, or starts again. -/
  | load (readable : Bool) (save : Save)
  | stop
  | open_ (hasPeers : Bool) (since : Nat) (save : Save)
  | placed (save : Save)
  | notAdded (save : Save)
  | tick (strangers : Strangers) (save : Save)
  | close (reason : Reason) (save : Save)

def Label.save : Label → Save
  | .markEligible save | .load _ save | .open_ _ _ save | .placed save | .notAdded save | .tick _ save
  | .close _ save => save
  | .wait _ | .stop => .saved

/-- Who is around at the step, where it is a tick. -/
def Label.around : Label → List Strangers
  | .tick strangers _ => [strangers]
  | _ => []

namespace World

def start (file : File) (now : Instant) : World :=
  ⟨file, none, now, ⟨decide (file = some ["eligible"]), 0, false, false, 0, [], none⟩⟩

/-- Whether the step calls `close`. -/
def closes (w : World) : Label → Bool
  | .load readable _ => readable && (w.file.getD []).head? = some "open"
  | .open_ hasPeers _ _ => hasPeers && w.window.any (·.phase = .eligible)
  | .placed _ => w.window.any fun window => window.phase = .eligible || window.isOpen
  | .notAdded _ => w.window.any (·.isOpen)
  | .tick strangers _ => w.window.any fun window => match window.phase with
    | .opened until_ => until_ ≤ w.now || 1 < strangers.present.length || strangers.turnedAway
    | _ => false
  | .close .. => w.window.isSome
  | _ => false

def isOpen (w : World) : Bool := w.window.any (·.isOpen)

/-- The state after a step that leaves `window` and `file`, with what is noted of it. -/
def after (w : World) (label : Label) (result : Option PairingWindow × File)
    (joining : Option Stranger) : World :=
  let opens := !w.isOpen && result.1.any (·.isOpen)
  { w with
    window := result.1
    file := result.2
    ledger := { w.ledger with
      opened := if opens then w.ledger.opened + 1 else w.ledger.opened
      closed := w.ledger.closed || w.closes label
      reopened := w.ledger.reopened || (opens && w.ledger.closed)
      openedAt := if opens then w.now else w.ledger.openedAt
      ticks := w.ledger.ticks ++ label.around.map (·, w.now)
      joining } }

/-- An operation on the window, where the program runs. -/
def withWindow (w : World) (label : Label) (operation : PairingWindow → File → PairingWindow × File) :
    Option World :=
  w.window.map fun window =>
    let (window, file) := operation window w.file
    w.after label (some window, file) none

def step : System World Label := fun label w =>
  match label with
  | .wait elapsed =>
    some { w with now := w.now + elapsed, ledger := { w.ledger with joining := none } }
  | .markEligible save =>
    let ledger := { w.ledger with joining := none }
    some { w with
      file := PairingWindow.markEligible save w.file
      ledger := if save.reaches then { ledger with marked := true, opened := 0, closed := false }
        else ledger }
  | .load readable save =>
    let (window, file) := PairingWindow.load readable save w.file
    some (w.after label (some window, file) none)
  | .stop => some (w.after label (none, w.file) none)
  | .open_ hasPeers since save => w.withWindow label (·.open_ hasPeers since w.now save)
  | .placed save => w.withWindow label (·.placed save)
  | .notAdded save => w.withWindow label (·.notAdded save)
  | .close reason save => w.withWindow label (·.close reason save)
  | .tick strangers save =>
    w.window.map fun window =>
      let ((window, file), joining) := window.tick strangers w.now save w.file
      w.after label (some window, file) joining

/-- A step that closes the window while the file still reads `eligible` gets its closing saved. -/
def Lasting (w : World) (label : Label) : Prop :=
  w.closes label = true → w.file = some ["eligible"] → label.save.reaches = true

instance (w : World) (label : Label) : Decidable (w.Lasting label) := by
  unfold Lasting; infer_instance

end World

end Zflow.Pairing
