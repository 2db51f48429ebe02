import Zflow.Desktop.Layout
import Zflow.Laws.Pairing.Names
import Zflow.Laws.Settings.Config
import Zflow.Settings.Document

/-!
# A save is whole, but for two faults

A save that fails leaves the document and the directory as they were, and one that succeeds puts the draft's text in the
file's place. Two faults break this. The directory is synced after the file is replaced, and its failure is reported as
the save's: the file has the new text, the document does not know it, and the next save is refused. And a temporary file
that cannot be removed stays.
-/

namespace Zflow.Settings

open Lib Pairing

variable {faults : Faults} {path : Path} {start directory : Directory} {temporary : Temporary}

/-! ## What a save needs -/

def Node.metadata : Node → Option (Nat × Nat × Nat)
  | file _ mode owner => some (mode, owner)
  | other _ => none

/-- The temporary file can be created. -/
structure Creates (faults : Faults) (path : Path) (directory : Directory) (temporary : Temporary) : Prop where
  parent : path.parent ≠ none
  createDir : faults.createDir = none
  target : path.fileName = some temporary.target.toByteArray
  name : ∃ suffix, faults.random = .ok suffix ∧ temporary.name = s!".{temporary.target}.tmp-{encodeHex suffix}"
  metadata : faults.metadata = none
  regular : ∀ contents, directory temporary.target.toByteArray ≠ some (.other contents)
  existing : temporary.existing = (directory temporary.target.toByteArray).bind Node.metadata
  create : faults.create = none
  free : directory temporary.name.toByteArray = none

/-- The temporary file takes the file's place. -/
structure Lands (faults : Faults) (temporary : Temporary) : Prop where
  write : faults.write = none
  sync : faults.sync = none
  metadata : temporary.existing ≠ none → faults.permissions = none ∧ faults.chown = none
  rename : faults.rename = none

/-- The directory is synced. -/
structure Syncs (faults : Faults) : Prop where
  openParent : faults.openParent = none
  syncParent : faults.syncParent = none

theorem attempt_eq_ok {fault : Option String} : attempt fault = .ok () ↔ fault = none := by
  cases fault <;> simp [attempt]

theorem existingMetadata_eq_ok {target : String} {existing : Option (Nat × Nat × Nat)} :
    existingMetadata faults path target directory = .ok existing ↔ faults.metadata = none ∧
      (∀ contents, directory target.toByteArray ≠ some (.other contents)) ∧
      existing = (directory target.toByteArray).bind Node.metadata := by
  unfold existingMetadata
  rw [check_bind_eq_ok, Act.mapError_eq_ok, attempt_eq_ok]
  refine and_congr_right fun _ => ?_
  split <;> simp_all [Node.metadata, eq_comm]

theorem planTemporary_eq_ok : (∃ parent, planTemporary faults path directory = .ok (parent, temporary)) ↔
      path.parent ≠ none ∧ faults.createDir = none ∧ path.fileName = some temporary.target.toByteArray ∧
      (∃ suffix, faults.random = .ok suffix ∧ temporary.name = s!".{temporary.target}.tmp-{encodeHex suffix}") ∧
      existingMetadata faults path temporary.target directory = .ok temporary.existing := by
  unfold planTemporary
  constructor
  · rintro ⟨parent, hplan⟩
    cases hparent : path.parent with
    | none => rw [hparent] at hplan; cases hplan
    | some _ =>
    rw [hparent] at hplan
    obtain ⟨hdir, hplan⟩ := check_bind_eq_ok.mp hplan
    cases hname : path.fileName.bind String.fromUTF8? with
    | none => rw [hname] at hplan; cases hplan
    | some fileName =>
    rw [hname] at hplan
    obtain ⟨suffix, hsuffix, hplan⟩ := Act.except_bind_eq_ok.mp hplan
    obtain ⟨existing, hexisting, hplan⟩ := Act.except_bind_eq_ok.mp hplan
    obtain ⟨bytes, hbytes, htext⟩ := Option.bind_eq_some_iff.mp hname
    cases hplan
    refine ⟨nofun, attempt_eq_ok.mp (Act.mapError_eq_ok.mp hdir), ?_, ⟨suffix, Act.mapError_eq_ok.mp hsuffix, rfl⟩,
      hexisting⟩
    rw [hbytes, toByteArray_of_fromUTF8? htext]
  · rintro ⟨hparent, hdir, htarget, ⟨suffix, hsuffix, hname⟩, hexisting⟩
    obtain ⟨parent, hparent⟩ := Option.ne_none_iff_exists'.mp hparent
    have htext : path.fileName.bind String.fromUTF8? = some temporary.target := by
      rw [htarget, Option.bind_some, fromUTF8?_toByteArray]
    refine ⟨parent, ?_⟩
    rw [hparent, htext, hdir, hsuffix]
    refine check_bind_eq_ok.mpr ⟨rfl, Act.except_bind_eq_ok.mpr ⟨suffix, rfl, Act.except_bind_eq_ok.mpr
      ⟨temporary.existing, hexisting, ?_⟩⟩⟩
    rw [← hname]
    rfl

/-- The directory with the temporary file, still empty. -/
def created (temporary : Temporary) (directory : Directory) : Directory :=
  Function.update directory temporary.name.toByteArray (some (.file .empty 0o600 (0, 0)))

theorem creates_iff : Creates faults path directory temporary ↔
    (∃ parent, planTemporary faults path directory = .ok (parent, temporary)) ∧ faults.create = none ∧
      directory temporary.name.toByteArray = none := by
  rw [planTemporary_eq_ok, existingMetadata_eq_ok]
  constructor
  · intro h
    exact ⟨⟨h.parent, h.createDir, h.target, h.name, h.metadata, h.regular, h.existing⟩, h.create, h.free⟩
  · rintro ⟨⟨hparent, hdir, htarget, hname, hmeta, hregular, hexisting⟩, hcreate, hfree⟩
    exact ⟨hparent, hdir, htarget, hname, hmeta, hregular, hexisting, hcreate, hfree⟩

theorem Creates.unique {other : Temporary} (h : Creates faults path directory temporary)
    (hother : Creates faults path directory other) : other = temporary := by
  obtain ⟨⟨_, hplan⟩, -⟩ := creates_iff.mp h
  obtain ⟨⟨_, hplan'⟩, -⟩ := creates_iff.mp hother
  rw [hplan] at hplan'
  cases hplan'
  rfl

/-- **The temporary file is created, or nothing happens.** -/
theorem createTemporary_cases (faults : Faults) (path : Path) (directory : Directory) :
    (∃ error, createTemporary faults path directory = (.error error, directory) ∧
      ∀ temporary, ¬ Creates faults path directory temporary) ∨
    ∃ temporary, Creates faults path directory temporary ∧
      createTemporary faults path directory = (.ok temporary, created temporary directory) := by
  simp only [creates_iff, createTemporary, Act.bind_apply, Act.read_apply, Act.lift]
  cases hplan : planTemporary faults path directory with
  | error error => exact .inl ⟨error, rfl, by simp⟩
  | ok plan =>
  obtain ⟨parent, temporary⟩ := plan
  cases hcreate : faults.create with
  | some text => exact .inl ⟨_, rfl, by simp⟩
  | none =>
  cases hfree : directory temporary.name.toByteArray with
  | some node =>
    refine .inl ⟨.write s!"{parent}/{temporary.name}" .alreadyExists, ?_, ?_⟩
    · simp [attempt, Except.mapError, hfree]
    · rintro other ⟨⟨_, hother⟩, -, hnone⟩
      cases hother
      rw [hfree] at hnone
      cases hnone
  | none =>
    refine .inr ⟨temporary, ⟨⟨parent, rfl⟩, rfl, hfree⟩, ?_⟩
    simp [attempt, Except.mapError, hfree, Act.bind_apply, created]

theorem Creates.name_ne_target (h : Creates faults path directory temporary) :
    temporary.name.toByteArray ≠ temporary.target.toByteArray := by
  obtain ⟨suffix, -, hname⟩ := h.name
  intro heq
  rw [String.toByteArray_inj, hname] at heq
  have hlength := congrArg String.length heq
  have hdot : ".".length = 1 := rfl
  simp only [toString, String.length_append] at hlength
  omega

/-! ## Filling the temporary file -/

/-- The directory is as it was, but for the temporary file, which has these contents. -/
structure Beside (start : Directory) (temporary : Temporary) (bytes : ByteArray) (directory : Directory) : Prop where
  others : ∀ other, other ≠ temporary.name.toByteArray → directory other = start other
  there : ∃ mode owner, directory temporary.name.toByteArray = some (.file bytes mode owner)

/-- The file has the new text, and the temporary file is gone. -/
structure Replaced (start : Directory) (temporary : Temporary) (bytes : ByteArray) (directory : Directory) : Prop where
  others : ∀ other, other ≠ temporary.target.toByteArray → other ≠ temporary.name.toByteArray →
    directory other = start other
  there : ∃ mode owner, directory temporary.target.toByteArray = some (.file bytes mode owner)
  gone : directory temporary.name.toByteArray = none

/-- What is left where a step fails. -/
def Unfinished (start : Directory) (temporary : Temporary) (directory : Directory) : Prop :=
  ∃ bytes, Beside start temporary bytes directory

theorem Beside.created (start : Directory) (temporary : Temporary) :
    Beside start temporary .empty (created temporary start) where
  others _ hne := Function.update_of_ne hne _ _
  there := ⟨0o600, (0, 0), Function.update_self _ _ _⟩

theorem Beside.changeNode {bytes bytes' : ByteArray} {f : Node → Node} (h : Beside start temporary bytes directory)
    (hf : ∀ mode owner, ∃ mode' owner', f (.file bytes mode owner) = .file bytes' mode' owner') :
    Beside start temporary bytes' (changeNode temporary.name.toByteArray f directory) where
  others other hne := (Function.update_of_ne hne _ _).trans (h.others other hne)
  there := by
    obtain ⟨mode, owner, hnode⟩ := h.there
    obtain ⟨mode', owner', hafter⟩ := hf mode owner
    refine ⟨mode', owner', ?_⟩
    rw [Settings.changeNode, Function.update_self, hnode, Option.map_some, hafter]

theorem attempt_triple {P : Directory → Prop} (fault : Option String) :
    Act.Triple P (.lift id (attempt fault)) (fun _ s => fault = none ∧ P s) (fun (_ : IoError) s => fault ≠ none ∧ P s) := by
  refine Act.Triple.lift (fun _ hok s hs => ⟨attempt_eq_ok.mp hok, hs⟩) fun error herror s hs => ⟨?_, hs⟩
  rintro rfl
  cases herror

theorem writeAll_triple (bytes : ByteArray) : Act.Triple (Unfinished start temporary) (writeAll faults bytes temporary)
      (fun _ s => faults.write = none ∧ Beside start temporary bytes s)
      (fun _ s => faults.write ≠ none ∧ Unfinished start temporary s) := by
  rintro s ⟨old, hs⟩
  unfold writeAll
  cases hwrite : faults.write with
  | none => exact ⟨rfl, hs.changeNode fun mode owner => ⟨mode, owner, rfl⟩⟩
  | some fault => exact ⟨nofun, _, hs.changeNode fun mode owner => ⟨mode, owner, rfl⟩⟩

theorem copyMetadata_triple {bytes : ByteArray} :
    Act.Triple (Beside start temporary bytes) (copyMetadata faults temporary)
      (fun _ s => (temporary.existing ≠ none → faults.permissions = none ∧ faults.chown = none) ∧
        Beside start temporary bytes s)
      (fun _ s => ¬ (temporary.existing ≠ none → faults.permissions = none ∧ faults.chown = none) ∧
        Unfinished start temporary s) := by
  unfold copyMetadata
  cases hexisting : temporary.existing with
  | none => exact .pure fun s hs => ⟨fun hne => absurd rfl hne, hs⟩
  | some existing =>
    obtain ⟨mode, owner⟩ := existing
    refine .bind ((attempt_triple faults.permissions).weaken (fun _ => id) (fun _ _ => id)
      fun _ s hs => ⟨fun hall => hs.1 (hall nofun).1, bytes, hs.2⟩) fun _ => ?_
    refine .bind (.change (Q := fun _ s => faults.permissions = none ∧ Beside start temporary bytes s) fun s hs =>
      ⟨hs.1, hs.2.changeNode fun _ owner => ⟨mode % 0o1000, owner, rfl⟩⟩) fun _ => ?_
    refine .bind ((attempt_triple faults.chown).weaken (fun _ => id) (fun _ _ => id)
      fun _ s hs => ⟨fun hall => hs.1 (hall nofun).2, bytes, hs.2.2⟩) fun _ => ?_
    exact .change fun s hs => ⟨fun _ => ⟨hs.2.1, hs.1⟩, hs.2.2.changeNode fun mode _ => ⟨mode, owner, rfl⟩⟩

theorem renameTemporary_triple {bytes : ByteArray} (hne : temporary.name.toByteArray ≠ temporary.target.toByteArray) :
    Act.Triple (Beside start temporary bytes) (renameTemporary faults temporary)
      (fun _ s => faults.rename = none ∧ Replaced start temporary bytes s)
      (fun _ s => faults.rename ≠ none ∧ Unfinished start temporary s) := by
  refine .bind ((attempt_triple faults.rename).weaken (fun _ => id) (fun _ _ => id)
    fun _ s hs => ⟨hs.1, bytes, hs.2⟩) fun _ => ?_
  refine .change fun s hs => ⟨hs.1, ⟨fun other htarget hname => ?_, ?_, Function.update_self _ _ _⟩⟩
  · rw [Function.update_of_ne hname, Function.update_of_ne htarget, hs.2.others other hname]
  · rw [Function.update_of_ne hne.symm, Function.update_self]
    exact hs.2.there

/-- **The text takes the file's place, or the file is untouched.** -/
theorem fillTemporary_triple (faults : Faults) (start : Directory) (text : String)
    (hne : temporary.name.toByteArray ≠ temporary.target.toByteArray) :
    Act.Triple (Unfinished start temporary) (fillTemporary faults text temporary)
      (fun _ s => Lands faults temporary ∧ Replaced start temporary text.toByteArray s)
      (fun _ s => ¬ Lands faults temporary ∧ Unfinished start temporary s) := by
  refine .bind ((writeAll_triple text.toByteArray).weaken (fun _ => id) (fun _ _ => id)
    fun _ s hs => ⟨fun h => hs.1 h.write, hs.2⟩) fun _ => .given fun hwrite => ?_
  refine .bind ((attempt_triple faults.sync).weaken (fun _ => id) (fun _ _ => id)
    fun _ s hs => ⟨fun h => hs.1 h.sync, _, hs.2⟩) fun _ => .given fun hsync => ?_
  refine .bind (copyMetadata_triple.weaken (fun _ => id) (fun _ _ => id)
    fun _ s hs => ⟨fun h => hs.1 h.metadata, hs.2⟩) fun _ => .given fun hmeta => ?_
  exact (renameTemporary_triple hne).weaken (fun _ => id) (fun _ s hs => ⟨⟨hwrite, hsync, hmeta, hs.1⟩, hs.2⟩)
    fun _ s hs => ⟨fun h => hs.1 h.rename, hs.2⟩

/-- The temporary file is removed where it can be, and then nothing has happened. -/
theorem replaceFile_triple (text : String) (hcreates : Creates faults path start temporary) :
    Act.Triple (Unfinished start temporary) (replaceFile faults path text temporary)
      (fun _ s => Lands faults temporary ∧ Replaced start temporary text.toByteArray s)
      (fun _ s => ¬ Lands faults temporary ∧
        (faults.remove = none ∧ s = start ∨ faults.remove ≠ none ∧ Unfinished start temporary s)) := by
  intro s hs
  have hfill := fillTemporary_triple faults start text hcreates.name_ne_target
  unfold replaceFile
  cases hr : fillTemporary faults text temporary s with
  | mk result after =>
  cases result with
  | ok _ => exact hfill.ok hs hr
  | error source =>
    obtain ⟨hnot, bytes, hafter⟩ := hfill.error hs hr
    refine ⟨hnot, ?_⟩
    unfold removeTemporary
    cases hremove : faults.remove with
    | some text => exact .inr ⟨nofun, bytes, hafter⟩
    | none =>
      refine .inl ⟨rfl, funext fun name => ?_⟩
      show Function.update after temporary.name.toByteArray none name = start name
      rcases eq_or_ne name temporary.name.toByteArray with rfl | hne
      · rw [Function.update_self, hcreates.free]
      · rw [Function.update_of_ne hne, hafter.others name hne]

theorem syncParent_triple (faults : Faults) (path : Path) (P : Directory → Prop) :
    Act.Triple P (syncParent faults path) (fun _ s => Syncs faults ∧ P s) (fun _ s => ¬ Syncs faults ∧ P s) := by
  intro s hs
  simp only [syncParent, Act.bind_apply, Act.lift]
  cases hopen : faults.openParent with
  | some text => exact ⟨fun h => absurd (hopen.symm.trans h.openParent) nofun, hs⟩
  | none =>
  cases hsync : faults.syncParent with
  | some text => exact ⟨fun h => absurd (hsync.symm.trans h.syncParent) nofun, hs⟩
  | none => exact ⟨⟨hopen, hsync⟩, hs⟩

/-! ## All that a save can do -/

/-- What becomes of the directory when a text is saved. -/
inductive TextOutcome (faults : Faults) (path : Path) (bytes : ByteArray) (start : Directory) :
    Except ConfigError Unit × Directory → Prop
  | kept {error}
    (never : ∀ temporary, Creates faults path start temporary → ¬ Lands faults temporary ∧ faults.remove = none) :
    TextOutcome faults path bytes start (.error error, start)
  | leftover {error temporary after} (creates : Creates faults path start temporary) (lands : ¬ Lands faults temporary)
    (remove : faults.remove ≠ none) (unfinished : Unfinished start temporary after) :
    TextOutcome faults path bytes start (.error error, after)
  | unsynced {error temporary after} (creates : Creates faults path start temporary) (lands : Lands faults temporary)
    (syncs : ¬ Syncs faults) (replaced : Replaced start temporary bytes after) :
    TextOutcome faults path bytes start (.error error, after)
  | saved {temporary after} (creates : Creates faults path start temporary) (lands : Lands faults temporary)
    (syncs : Syncs faults) (replaced : Replaced start temporary bytes after) :
    TextOutcome faults path bytes start (.ok (), after)

theorem saveText_outcome (faults : Faults) (path : Path) (text : String) (start : Directory) :
    TextOutcome faults path text.toByteArray start (saveText faults path text start) := by
  unfold saveText
  obtain ⟨error, hcreate, hnone⟩ | ⟨temporary, hcreates, hcreate⟩ := createTemporary_cases faults path start
  · rw [Act.bind_of_error hcreate]
    exact .kept fun temporary h => absurd h (hnone temporary)
  rw [Act.bind_of_ok hcreate]
  have hunfinished : Unfinished start temporary (created temporary start) := ⟨_, .created start temporary⟩
  have hreplace := replaceFile_triple text hcreates
  cases hr : replaceFile faults path text temporary (created temporary start) with
  | mk result after =>
  cases result with
  | error error =>
    rw [Act.bind_of_error hr]
    obtain ⟨hlands, ⟨hremove, rfl⟩ | ⟨hremove, hafter⟩⟩ := hreplace.error hunfinished hr
    · refine .kept fun other h => ?_
      rw [hcreates.unique h]
      exact ⟨hlands, hremove⟩
    · exact .leftover hcreates hlands hremove hafter
  | ok _ =>
    rw [Act.bind_of_ok hr]
    obtain ⟨hlands, hreplaced⟩ := hreplace.ok hunfinished hr
    cases hs : syncParent faults path after with
    | mk result final =>
    have hsync := syncParent_triple faults path (· = after)
    cases result with
    | error error =>
      obtain ⟨hsyncs, rfl⟩ := hsync.error rfl hs
      exact .unsynced hcreates hlands hsyncs hreplaced
    | ok _ =>
      obtain ⟨hsyncs, rfl⟩ := hsync.ok rfl hs
      exact .saved hcreates hlands hsyncs hreplaced

/-! ## The file -/

/-- What reading the file gives, if it is there. -/
def fileAt (path : Path) (directory : Directory) : Option (Except IoError ByteArray) :=
  (path.fileName.bind directory).map Node.read

variable {before after : Directory} {bytes : ByteArray}

/-- **What is read depends on the file only.** -/
theorem readFile_congr (h : fileAt path after = fileAt path before) :
    readFile faults path after = readFile faults path before := by
  unfold fileAt at h
  unfold readFile
  cases hname : path.fileName with
  | none => rfl
  | some name =>
    rw [hname, Option.bind_some, Option.bind_some] at h
    cases hafter : after name <;> cases hbefore : before name <;> simp_all

theorem readContents_congr (h : fileAt path after = fileAt path before) :
    readContents faults path after = readContents faults path before := by
  unfold readContents
  rw [readFile_congr h]

theorem readFile_of_fileAt (hread : faults.read = none) (h : fileAt path directory = some (.ok bytes)) :
    readFile faults path directory = .ok bytes := by
  obtain ⟨node, hnode, hbytes⟩ := Option.map_eq_some_iff.mp h
  obtain ⟨name, hname, hnode⟩ := Option.bind_eq_some_iff.mp hnode
  unfold readFile
  rw [hread, hname]
  dsimp only [attempt, bind, Except.bind]
  rw [hnode]
  exact hbytes

theorem readContents_of_fileAt (hread : faults.read = none) (h : fileAt path directory = some (.ok bytes)) :
    readContents faults path directory = .ok (some bytes) := by
  unfold readContents
  rw [readFile_of_fileAt hread h]

theorem eq_of_readContents {contents : Option ByteArray} (h : readContents faults path directory = .ok contents)
    (hfile : fileAt path directory = some (.ok bytes)) : contents = some bytes := by
  cases hread : faults.read with
  | none => exact Except.ok.inj (h.symm.trans (readContents_of_fileAt hread hfile))
  | some fault =>
    unfold readContents readFile at h
    rw [hread] at h
    cases h

/-- What has been read is the file. -/
theorem fileAt_of_readContents (h : readContents faults path directory = .ok (some bytes)) :
    fileAt path directory = some (.ok bytes) := by
  unfold readContents at h
  split at h
  · rename_i contents hread
    cases h
    unfold readFile at hread
    obtain ⟨-, hread⟩ := check_bind_eq_ok.mp hread
    unfold fileAt
    split at hread
    · cases hread
    · rename_i name hname
      split at hread
      · cases hread
      · rename_i node hnode
        rw [hname, Option.bind_some, hnode, Option.map_some, hread]
  · cases h
  · cases h

theorem Replaced.fileAt (h : Replaced before temporary bytes after)
    (hcreates : Creates faults path before temporary) : fileAt path after = some (.ok bytes) := by
  obtain ⟨mode, owner, hnode⟩ := h.there
  unfold Settings.fileAt
  rw [hcreates.target, Option.bind_some, hnode]
  rfl

theorem Replaced.others_eq (h : Replaced before temporary bytes after)
    (hcreates : Creates faults path before temporary) {name : ByteArray} (hne : path.fileName ≠ some name) :
    after name = before name := by
  rcases eq_or_ne name temporary.name.toByteArray with rfl | hname
  · rw [h.gone, hcreates.free]
  · refine h.others name ?_ hname
    rintro rfl
    exact hne hcreates.target

/-! ## Saves that are whole -/

variable {T : Type} [Contents T] {document : Document T} {text : String}

/-- The draft is checked and rendered, and the file is as it was read. -/
structure Ready (faults : Faults) (document : Document T) (directory : Directory) (text : String) : Prop where
  checked : Contents.checkSave document.draft = .ok ()
  rendered : ∃ disk, diskText document.diskContents = .ok disk ∧
    Contents.render document.draft document.saved disk = .ok text
  current : readContents faults document.path directory = .ok document.diskContents

theorem prepare_eq_ok : document.prepare faults directory = .ok text ↔ Ready faults document directory text := by
  unfold Document.prepare
  rw [check_bind_eq_ok, Act.mapError_eq_ok]
  constructor
  · rintro ⟨hcheck, hrest⟩
    obtain ⟨disk, hdisk, hrest⟩ := Act.except_bind_eq_ok.mp hrest
    obtain ⟨rendered, hrender, hrest⟩ := Act.except_bind_eq_ok.mp hrest
    obtain ⟨contents, hread, hrest⟩ := Act.except_bind_eq_ok.mp hrest
    obtain ⟨hsame, hrest⟩ := check_bind_eq_ok.mp hrest
    cases hrest
    refine ⟨hcheck, ⟨disk, hdisk, Act.mapError_eq_ok.mp hrender⟩, ?_⟩
    rw [hread, not_not.mp (of_decide_eq_false (refuseIf_eq_ok.mp hsame))]
  · rintro ⟨hcheck, ⟨disk, hdisk, hrender⟩, hcurrent⟩
    refine ⟨hcheck, Act.except_bind_eq_ok.mpr ⟨disk, hdisk, Act.except_bind_eq_ok.mpr ⟨text, ?_, ?_⟩⟩⟩
    · rw [hrender]
      rfl
    · refine Act.except_bind_eq_ok.mpr ⟨_, hcurrent, check_bind_eq_ok.mpr ⟨?_, rfl⟩⟩
      exact refuseIf_eq_ok.mpr (decide_eq_false (not_not.mpr rfl))

/-- The next save is not refused: the file holds what the document remembers of it. -/
def InStep (state : Document T × Directory) : Prop := ∀ faults : Faults, faults.read = none →
  readContents faults state.1.path state.2 = .ok state.1.diskContents

/-- **A save that happens completely or not at all.** -/
structure SavesWhole [DecidableEq T] (faults : Faults) (before : Document T × Directory)
    (result : Except SaveError Unit × Document T × Directory) : Prop where
  failed : ∀ error, result.1 = .error error →
    result.2.1 = before.1 ∧ fileAt before.1.path result.2.2 = fileAt before.1.path before.2
  saved : result.1 = .ok () → ∃ disk text, diskText before.1.diskContents = .ok disk ∧
    Contents.render before.1.draft before.1.saved disk = .ok text ∧
    fileAt before.1.path result.2.2 = some (.ok text.toByteArray) ∧
    result.2.1.diskContents = some text.toByteArray ∧ result.2.1.draft = before.1.draft ∧ result.2.1.isDirty = false
  /-- No temporary file is left. -/
  others : ∀ name, before.1.path.fileName ≠ some name → result.2.2 name = before.2 name
  /-- A file that differs from what was read is not replaced. -/
  conflict : readContents faults before.1.path before.2 ≠ .ok before.1.diskContents →
    (∃ error, result.1 = .error error) ∧ result.2 = before
  next : InStep before → InStep result.2

/-- The faults that break a save: the directory is not synced after the file has changed, or a temporary file stays. -/
inductive Loses (faults : Faults) (document : Document T) (directory : Directory) : Prop
  | unsynced {text : String} {temporary : Temporary} (ready : Ready faults document directory text)
    (creates : Creates faults document.path directory temporary) (lands : Lands faults temporary) (syncs : ¬ Syncs faults)
    (changes : document.diskContents ≠ some text.toByteArray)
  | leftover {text : String} {temporary : Temporary} (ready : Ready faults document directory text)
    (creates : Creates faults document.path directory temporary) (lands : ¬ Lands faults temporary)
    (remove : faults.remove ≠ none)

/-- What a save does once the draft is ready. -/
theorem save_of_ready (hready : Ready faults document directory text) :
    Document.save faults (document, directory) = match saveText faults document.path text directory with
      | (.ok (), after) =>
        (.ok (), { document with diskContents := some text.toByteArray, saved := document.draft }, after)
      | (.error error, after) => (.error (.config error), document, after) := by
  unfold Document.save
  rw [Act.bind_of_ok (Act.read_apply _)]
  have hlift : (Act.lift id (document.prepare faults directory) : Act SaveError (Document T × Directory) String)
      (document, directory) = (.ok text, (document, directory)) := by
    rw [prepare_eq_ok.mpr hready]
    rfl
  refine (Act.bind_of_ok hlift).trans ?_
  rw [Act.bind_apply, Act.on]
  rcases saveText faults document.path text directory with ⟨error | _, after⟩ <;> rfl

theorem save_of_not_ready (h : ∀ text, ¬ Ready faults document directory text) :
    ∃ error, Document.save faults (document, directory) = (.error error, document, directory) := by
  unfold Document.save
  rw [Act.bind_of_ok (Act.read_apply _)]
  cases hprepare : document.prepare faults directory with
  | error error => exact ⟨error, Act.bind_of_error (by rw [hprepare]; rfl)⟩
  | ok text => exact absurd (prepare_eq_ok.mp hprepare) (h text)

theorem SavesWhole.of_unchanged [DecidableEq T] {error : SaveError} {state : Document T × Directory} :
    SavesWhole faults state (.error error, state) where
  failed _ _ := ⟨rfl, rfl⟩
  saved h := nomatch h
  others _ _ := rfl
  conflict _ := ⟨⟨error, rfl⟩, rfl⟩
  next h := h

/-- What the outcome of saving a ready text makes of the save. -/
theorem savesWhole_of_ready [DecidableEq T] (hready : Ready faults document directory text)
    (hloses : ¬ Loses faults document directory) :
    SavesWhole faults (document, directory) (Document.save faults (document, directory)) := by
  rw [save_of_ready hready]
  have houtcome := saveText_outcome faults document.path text directory
  generalize saveText faults document.path text directory = result at houtcome
  cases houtcome with
  | kept hnever => exact .of_unchanged
  | leftover hcreates hlands hremove hunfinished => exact absurd (.leftover hready hcreates hlands hremove) hloses
  | @unsynced error temporary after hcreates hlands hsyncs hreplaced =>
    -- the file had this text already
    have hsame : document.diskContents = some text.toByteArray :=
      by_contra fun hchanges => hloses (.unsynced hready hcreates hlands hsyncs hchanges)
    have hbefore : fileAt document.path directory = some (.ok text.toByteArray) :=
      fileAt_of_readContents (hsame ▸ hready.current)
    have hfile : fileAt document.path after = fileAt document.path directory :=
      (hreplaced.fileAt hcreates).trans hbefore.symm
    refine ⟨fun _ _ => ⟨rfl, hfile⟩, nofun, fun name => hreplaced.others_eq hcreates,
      fun hconflict => absurd hready.current hconflict, fun hnext faults hread => ?_⟩
    exact (readContents_congr hfile).trans (hnext faults hread)
  | @saved temporary after hcreates hlands hsyncs hreplaced =>
    have hafter := hreplaced.fileAt hcreates
    obtain ⟨disk, hdisk, hrender⟩ := hready.rendered
    refine ⟨nofun, fun _ => ⟨disk, text, hdisk, hrender, hafter, rfl, rfl, ?_⟩, fun name => hreplaced.others_eq hcreates,
      fun hconflict => absurd hready.current hconflict, fun _ faults hread => readContents_of_fileAt hread hafter⟩
    exact decide_eq_false (not_not.mpr rfl)

/-- **A save that is reported as failed for its directory has replaced the file**, and the document does not know. -/
theorem save_unsynced (hready : Ready faults document directory text)
    (hcreates : Creates faults document.path directory temporary) (hlands : Lands faults temporary)
    (hsyncs : ¬ Syncs faults) : ∃ error after, Document.save faults (document, directory) = (.error error, document, after) ∧
      fileAt document.path after = some (.ok text.toByteArray) := by
  rw [save_of_ready hready]
  have houtcome := saveText_outcome faults document.path text directory
  generalize saveText faults document.path text directory = result at houtcome
  cases houtcome with
  | kept hnever => exact absurd hlands (hnever _ hcreates).1
  | leftover hcreates' hlands' =>
    rw [hcreates.unique hcreates'] at hlands'
    exact absurd hlands hlands'
  | unsynced hcreates' _ _ hreplaced => exact ⟨_, _, rfl, hreplaced.fileAt hcreates'⟩
  | saved _ _ hsyncs' => exact absurd hsyncs' hsyncs

/-- A temporary file that cannot be removed stays. -/
theorem save_leftover (hready : Ready faults document directory text)
    (hcreates : Creates faults document.path directory temporary) (hlands : ¬ Lands faults temporary)
    (hremove : faults.remove ≠ none) : ∃ error after,
      Document.save faults (document, directory) = (.error error, document, after) ∧
      (after temporary.name.toByteArray).isSome := by
  rw [save_of_ready hready]
  have houtcome := saveText_outcome faults document.path text directory
  generalize saveText faults document.path text directory = result at houtcome
  have hlands' : ∀ other, Creates faults document.path directory other → ¬ Lands faults other := fun other h => by
    rw [hcreates.unique h]
    exact hlands
  cases houtcome with
  | kept hnever => exact absurd (hnever _ hcreates).2 hremove
  | leftover hcreates' _ _ hunfinished =>
    obtain ⟨bytes, hbeside⟩ := hunfinished
    obtain ⟨mode, owner, hnode⟩ := hbeside.there
    rw [hcreates.unique hcreates'] at hnode
    exact ⟨_, _, rfl, Option.isSome_of_eq_some hnode⟩
  | unsynced hcreates' hlands'' => exact absurd hlands'' (hlands' _ hcreates')
  | saved hcreates' hlands'' => exact absurd hlands'' (hlands' _ hcreates')

theorem Loses.not_savesWhole [DecidableEq T] (h : Loses faults document directory) :
    ¬ SavesWhole faults (document, directory) (Document.save faults (document, directory)) := by
  intro hwhole
  cases h with
  | unsynced hready hcreates hlands hsyncs hchanges =>
    obtain ⟨error, after, hsave, hafter⟩ := save_unsynced hready hcreates hlands hsyncs
    rw [hsave] at hwhole
    have hfile := (hwhole.failed error rfl).2.symm.trans hafter
    exact hchanges (eq_of_readContents hready.current hfile)
  | @leftover text temporary hready hcreates hlands hremove =>
    obtain ⟨error, after, hsave, hthere⟩ := save_leftover hready hcreates hlands hremove
    rw [hsave] at hwhole
    have hother : document.path.fileName ≠ some temporary.name.toByteArray := fun heq =>
      hcreates.name_ne_target (Option.some.inj (heq.symm.trans hcreates.target))
    have hgone : after temporary.name.toByteArray = none := (hwhole.others _ hother).trans hcreates.free
    rw [hgone] at hthere
    cases hthere

/-- **A save happens completely or not at all, exactly where no fault loses it.** -/
theorem saves_whole_iff [DecidableEq T] (faults : Faults) (document : Document T) (directory : Directory) :
    SavesWhole faults (document, directory) (Document.save faults (document, directory)) ↔
      ¬ Loses faults document directory := by
  refine ⟨fun hwhole hloses => hloses.not_savesWhole hwhole, fun hloses => ?_⟩
  by_cases hready : ∃ text, Ready faults document directory text
  · obtain ⟨text, hready⟩ := hready
    exact savesWhole_of_ready hready hloses
  · obtain ⟨error, hsave⟩ := save_of_not_ready (not_exists.mp hready)
    rw [hsave]
    exact .of_unchanged

/-! ## A directory that is not synced -/

/-- The layout that every paired computer keeps, where there is one. -/
structure Kept where
  layout : Option Desktop.SharedLayout
  deriving DecidableEq

/-- A layout that is missing is not written. -/
@[reducible]
def Kept.contents (toStringPretty : Desktop.SharedLayout → Except String String) : Contents Kept where
  checkSave kept := kept.layout.elim (.ok ()) Desktop.SharedLayout.validate
  render kept _ _ := kept.layout.elim (.ok "") toStringPretty

/-- The shared layout's document where there is no file yet. -/
def newKept : Document Kept :=
  ⟨⟨some "zflow", some "config.toml.shared-layout.toml".toByteArray, "zflow/config.toml.shared-layout.toml"⟩, ⟨none⟩, ⟨none⟩,
    none⟩

/-- Only the directory cannot be synced. -/
def unsyncedFaults : Faults :=
  ⟨none, none, .ok [0, 0, 0, 0, 0, 0, 0, 0], none, none, none, none, none, none, none, none, none, some "Input/output error"⟩

/-- The first save of the shared layout writes its file, and is reported as failed. -/
theorem not_saves_whole : ¬ ∀ (T : Type) (_ : DecidableEq T) (_ : Contents T) (faults : Faults) (document : Document T)
    (directory : Directory), SavesWhole faults (document, directory) (Document.save faults (document, directory)) := by
  intro hall
  let _ := Kept.contents fun _ => .ok ""
  have hready : Ready unsyncedFaults newKept (fun _ => none) "" := ⟨rfl, ⟨none, rfl, rfl⟩, rfl⟩
  have hcreates : Creates unsyncedFaults newKept.path (fun _ => none)
      ⟨s!".config.toml.shared-layout.toml.tmp-{encodeHex [0, 0, 0, 0, 0, 0, 0, 0]}", "config.toml.shared-layout.toml", none⟩ :=
    ⟨nofun, rfl, rfl, ⟨_, rfl, rfl⟩, rfl, nofun, rfl, rfl, rfl⟩
  have hloses : Loses unsyncedFaults newKept fun _ => none :=
    .unsynced hready hcreates ⟨rfl, rfl, fun _ => ⟨rfl, rfl⟩, rfl⟩ (fun h => nomatch h.syncParent) nofun
  exact hloses.not_savesWhole (hall Kept inferInstance inferInstance unsyncedFaults newKept fun _ => none)

end Zflow.Settings
