import Mathlib
import Zflow.Settings.Config

/-!
# Saving a settings file

`save_text` of `src/config.rs` and `Document::save` of `src/app/model.rs`, over one directory and the faults of the file
system: each step fails where a fault says so. An error that depends on the files themselves (a file that is missing, or
there already) comes from the directory. The directory's creation leaves no trace here.
-/

namespace Zflow.Settings

open Lib Pairing

/-! ## The directory -/

/-- What stands under a name: a regular file, or something else, which may be read through. -/
inductive Node where
  | file (contents : ByteArray) (mode : Nat) (owner : Nat × Nat)
  | other (contents : Except IoError ByteArray)

def Node.read : Node → Except IoError ByteArray
  | file contents _ _ => .ok contents
  | other contents => contents

abbrev Directory := ByteArray → Option Node

/-- What is read of a path: its directory, its last part and its text. -/
structure Path where
  parent : Option String
  fileName : Option ByteArray
  display : String

/-- The steps that fail, and what with. A write that fails may have written some bytes. -/
structure Faults where
  read : Option String
  createDir : Option String
  /-- The eight random bytes. -/
  random : Except String Spki
  metadata : Option String
  create : Option String
  write : Option (Nat × String)
  sync : Option String
  permissions : Option String
  chown : Option String
  rename : Option String
  remove : Option String
  openParent : Option String
  syncParent : Option String

/-- A step that fails or does nothing else. -/
def attempt (fault : Option String) : Except IoError Unit :=
  match fault with
  | some text => .error (.other text)
  | none => .ok ()

variable (faults : Faults)

/-- `fs::read`. -/
def readFile (path : Path) (directory : Directory) : Except IoError ByteArray := do
  attempt faults.read
  match path.fileName with
  | none => .error .isADirectory
  | some name => match directory name with
    | none => .error .notFound
    | some node => node.read

/-! ## `save_text` -/

/-- The temporary file, the file it is to replace, and the mode and the owner of that one. -/
structure Temporary where
  name : String
  target : String
  existing : Option (Nat × Nat × Nat)

/-- `fs::symlink_metadata`: the mode and the owner of the file to replace, if there is one. -/
def existingMetadata (path : Path) (target : String) (directory : Directory) :
    Except ConfigError (Option (Nat × Nat × Nat)) := do
  (attempt faults.metadata).mapError (.read path.display)
  match directory target.toByteArray with
  | some (.file _ mode owner) => .ok (some (mode, owner))
  | some (.other _) => .error (.unsafeTarget path.display)
  | none => .ok none

/-- Up to the creation of the temporary file: its directory, and what it is to be. -/
def planTemporary (path : Path) (directory : Directory) : Except ConfigError (String × Temporary) := do
  let some parent := path.parent | .error (.noParent path.display)
  (attempt faults.createDir).mapError (.write parent)
  let some fileName := path.fileName.bind String.fromUTF8? | .error (.invalidPath path.display)
  let suffix ← faults.random.mapError fun text => .write parent (.other text)
  let existing ← existingMetadata faults path fileName directory
  return (parent, ⟨s!".{fileName}.tmp-{encodeHex suffix}", fileName, existing⟩)

/-- `create_new`: no file may have the name yet. -/
def createTemporary (path : Path) : Act ConfigError Directory Temporary := do
  let directory ← .read
  let (parent, temporary) ← .lift id (planTemporary faults path directory)
  .lift (.write s!"{parent}/{temporary.name}") (attempt faults.create)
  if (directory temporary.name.toByteArray).isSome then .fail (.write s!"{parent}/{temporary.name}" .alreadyExists)
  else
    .change fun directory => Function.update directory temporary.name.toByteArray (some (.file .empty 0o600 (0, 0)))
    return temporary

/-- What stands under a name changes, if anything does. -/
def changeNode (name : ByteArray) (f : Node → Node) (directory : Directory) : Directory :=
  Function.update directory name ((directory name).map f)

def Node.withContents (contents : ByteArray) : Node → Node
  | file _ mode owner => file contents mode owner
  | other read => other read

def Node.withMode (mode : Nat) : Node → Node
  | file contents _ owner => file contents mode owner
  | other read => other read

def Node.withOwner (owner : Nat × Nat) : Node → Node
  | file contents mode _ => file contents mode owner
  | other read => other read

/-- `write_all`: a failure leaves the bytes that were written. -/
def writeAll (bytes : ByteArray) (temporary : Temporary) : Act IoError Directory Unit :=
  match faults.write with
  | some (written, text) => do
    .change (changeNode temporary.name.toByteArray (.withContents (bytes.extract 0 written)))
    .fail (.other text)
  | none => .change (changeNode temporary.name.toByteArray (.withContents bytes))

/-- The mode and the owner of the file that is replaced, if there is one. -/
def copyMetadata (temporary : Temporary) : Act IoError Directory Unit :=
  match temporary.existing with
  | some (mode, owner) => do
    .lift id (attempt faults.permissions)
    .change (changeNode temporary.name.toByteArray (.withMode (mode % 0o1000)))
    .lift id (attempt faults.chown)
    .change (changeNode temporary.name.toByteArray (.withOwner owner))
  | none => pure ()

/-- Renaming replaces the file at once. -/
def renameTemporary (temporary : Temporary) : Act IoError Directory Unit := do
  .lift id (attempt faults.rename)
  .change fun directory =>
    Function.update (Function.update directory temporary.target.toByteArray (directory temporary.name.toByteArray))
      temporary.name.toByteArray none

/-- Writes the temporary file and puts it in the file's place. -/
def fillTemporary (text : String) (temporary : Temporary) : Act IoError Directory Unit := do
  writeAll faults text.toByteArray temporary
  .lift id (attempt faults.sync)
  copyMetadata faults temporary
  renameTemporary faults temporary

/-- `remove_file`, whose failure is ignored. -/
def removeTemporary (temporary : Temporary) (directory : Directory) : Directory :=
  match faults.remove with
  | some _ => directory
  | none => Function.update directory temporary.name.toByteArray none

/-- Without this the rename itself may not survive a crash. -/
def syncParent (path : Path) : Act ConfigError Directory Unit := do
  .lift (.write (path.parent.getD "")) (attempt faults.openParent)
  .lift (.write (path.parent.getD "")) (attempt faults.syncParent)

/-- The file's new text, or its removal where the text cannot take its place. -/
def replaceFile (path : Path) (text : String) (temporary : Temporary) : Act ConfigError Directory Unit := fun directory =>
  match fillTemporary faults text temporary directory with
  | (.ok (), after) => (.ok (), after)
  | (.error source, after) => (.error (.write path.display source), removeTemporary faults temporary after)

def saveText (path : Path) (text : String) : Act ConfigError Directory Unit := do
  let temporary ← createTemporary faults path
  replaceFile faults path text temporary
  syncParent faults path

/-! ## `Document::save` -/

/-- What a document holds. -/
class Contents (T : Type) where
  /-- Checks everything before a save. -/
  checkSave : T → Except String Unit
  /-- The text to write, given what was saved and what the file held before. -/
  render : T → T → Option String → Except String String

/-- A file being edited. `saved` is what the file held when it was read or last written. -/
structure Document (T : Type) where
  path : Path
  draft : T
  saved : T
  diskContents : Option ByteArray

inductive SaveError where
  | check (message : String)
  | notUtf8
  | render (message : String)
  | read (path : String) (source : IoError)
  | changedOnDisk (path : String)
  | config (error : ConfigError)

variable {T : Type}

def Document.isDirty [DecidableEq T] (document : Document T) : Bool := document.draft ≠ document.saved

/-- `read_contents`: a file that is missing has no contents. -/
def readContents (path : Path) (directory : Directory) : Except SaveError (Option ByteArray) :=
  match readFile faults path directory with
  | .ok contents => .ok (some contents)
  | .error .notFound => .ok none
  | .error source => .error (.read path.display source)

/-- The text that the file held, as far as it is text. -/
def diskText : Option ByteArray → Except SaveError (Option String)
  | none => .ok none
  | some bytes => match String.fromUTF8? bytes with
    | some text => .ok (some text)
    | none => .error .notUtf8

/-- What is checked and rendered before the file is touched. -/
def Document.prepare [Contents T] (document : Document T) (directory : Directory) : Except SaveError String := do
  (Contents.checkSave document.draft).mapError .check
  let disk ← diskText document.diskContents
  let text ← (Contents.render document.draft document.saved disk).mapError .render
  let contents ← readContents faults document.path directory
  refuseIf (contents ≠ document.diskContents) (.changedOnDisk document.path.display)
  return text

/-- `Document::save`. -/
def Document.save [Contents T] : Act SaveError (Document T × Directory) Unit := do
  let (document, directory) ← .read
  let text ← .lift id (document.prepare faults directory)
  .on Prod.snd (fun directory state => (state.1, directory)) .config (saveText faults document.path text)
  .change fun state => ({ state.1 with diskContents := some text.toByteArray, saved := state.1.draft }, state.2)

end Zflow.Settings
