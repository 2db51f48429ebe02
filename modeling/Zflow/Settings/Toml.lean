import Zflow.Lib.Check
import Zflow.Lib.Records

/-!
# Patching a TOML file

`merge_changes` and `items_equal` of `src/app/model.rs`, over the document trees of `toml_edit`. A tree keeps how the file is
written: a key's text, a value's text and what stands around both. Its order of tables in the file is left out. Scalars are
of any type, and a text is opaque: only the crates look into it (`Crates`).
-/

namespace Zflow.Settings.Toml

open Lib

/-! ## Document trees -/

/-- What stands before and after; `none` is what the printer chooses. -/
structure Decor where
  before : Option String
  after : Option String

def Decor.none : Decor := ⟨.none, .none⟩

/-- A key, with its text and what stands around it, unless the printer chooses those. -/
structure Key where
  name : String
  text : Option String
  deriving DecidableEq

/-- A key that is written anew. -/
def Key.new (name : String) : Key := ⟨name, none⟩

/-- A table's header. An implicit table has none, and a dotted one stands in its members' keys. -/
structure Head where
  decor : Decor
  implicit : Bool
  dotted : Bool

/-- `Table::new`. -/
def Head.new : Head := ⟨.none, false, false⟩

/-- `toml_edit::Item`. Scalars, arrays and inline tables are its values. -/
inductive Item (S : Type) where
  | scalar (scalar : S) (text : Option String) (decor : Decor)
  | array (items : List (Item S)) (trailing : String) (decor : Decor)
  | inlineTable (entries : List (Key × Item S)) (dotted : Bool) (preamble : String) (decor : Decor)
  | table (entries : List (Key × Item S)) (head : Head)
  | arrayOfTables (tables : List (Item S))

abbrev Entries (S : Type) : Type := List (Key × Item S)

variable {S : Type}

namespace Item

def asTable : Item S → Option (Entries S)
  | table entries _ => some entries
  | _ => none

/-- `as_table_like`: a table, or an inline one. -/
def asTableLike : Item S → Option (Entries S)
  | table entries _ => some entries
  | inlineTable entries _ _ _ => some entries
  | _ => none

def isInline : Item S → Bool
  | inlineTable _ _ _ _ => true
  | _ => false

/-- The same table with other entries. -/
def withEntries (entries : Entries S) : Item S → Item S
  | table _ head => table entries head
  | inlineTable _ dotted preamble decor => inlineTable entries dotted preamble decor
  | item => item

/-- The decor of a value. -/
def decor : Item S → Option Decor
  | scalar _ _ decor => some decor
  | array _ _ decor => some decor
  | inlineTable _ _ _ decor => some decor
  | _ => none

/-- `*decor_mut() = decor`, of a value. -/
def withDecor (decor : Decor) : Item S → Item S
  | scalar value text _ => scalar value text decor
  | array items trailing _ => array items trailing decor
  | inlineTable entries dotted preamble _ => inlineTable entries dotted preamble decor
  | item => item

mutual

/-- `into_value`: what can stand in an inline table. -/
def intoValue : Item S → Item S
  | table entries _ => inlineTable (intoValueEntries entries) false "" .none
  | arrayOfTables tables => array (intoValues tables) "" .none
  | item => item

def intoValues : List (Item S) → List (Item S)
  | [] => []
  | item :: rest => withDecor .none item.intoValue :: intoValues rest

def intoValueEntries : List (Key × Item S) → List (Key × Item S)
  | [] => []
  | (key, item) :: rest => (.new key.name, withDecor .none item.intoValue) :: intoValueEntries rest

end

end Item

/-! ### Tables by name -/

def entry (name : String) (entries : Entries S) : Option (Key × Item S) := entries.find? (·.1.name = name)

def get (name : String) (entries : Entries S) : Option (Item S) := (entry name entries).map Prod.snd

def containsKey (name : String) (entries : Entries S) : Bool := (entry name entries).isSome

/-- `TableLike::insert`: what replaces an entry gets a new key, and an inline table takes values only. -/
def insert (inline : Bool) (name : String) (item : Item S) (entries : Entries S) : Entries S :=
  let added := (Key.new name, if inline then item.intoValue else item)
  if containsKey name entries then entries.map fun entry => if entry.1.name = name then added else entry
  else entries ++ [added]

def remove (name : String) (entries : Entries S) : Entries S := entries.filter (·.1.name ≠ name)

/-- What `get_mut` is used for. -/
def modify (name : String) (f : Item S → Item S) (entries : Entries S) : Entries S :=
  entries.map fun entry => if entry.1.name = name then (entry.1, f entry.2) else entry

/-! ### What a tree says -/

/-- A table without a header of its own is not there when it is empty. -/
def hide (hidden : Bool) (content : Content S) : Option (Data S) :=
  if hidden && content.isEmpty then none else some (.ofContent content)

mutual

/-- The data of what is printed. -/
def Item.shown : Item S → Option (Data S)
  | .scalar value _ _ => some (.scalar value)
  | .array items _ _ => some (.array (shownItems items))
  | .inlineTable entries dotted _ _ => hide dotted (content entries)
  | .table entries head => hide (head.implicit || head.dotted) (content entries)
  | .arrayOfTables tables => some (.array (shownItems tables))

def shownItems : List (Item S) → List (Data S)
  | [] => []
  | item :: rest => match item.shown with
    | some data => data :: shownItems rest
    | none => shownItems rest

def content : List (Key × Item S) → Content S
  | [] => ∅
  | (key, item) :: rest => match item.shown with
    | some data => (content rest).insert key.name data
    | none => (content rest).erase key.name

end

/-! ## Merging -/

variable {Text : Type} [DecidableEq Text]

mutual

/-- `items_equal`. -/
def itemsEqual (display : Item S → Text) : Item S → Item S → Bool
  | .table left _, .table right _ => left.length = right.length && entriesEqual display right left
  | .table _ _, _ => false
  | _, .table _ _ => false
  | left, right => display left = display right

/-- Each entry is in the other table. -/
def entriesEqual (display : Item S → Text) (right : Entries S) : List (Key × Item S) → Bool
  | [] => true
  | (key, value) :: rest =>
    (match get key.name right with
      | some other => itemsEqual display value other
      | none => false) && entriesEqual display right rest

end

/-- The first loop of `merge_changes`: what is not written any more. -/
def removeGone (before after target : Entries S) : Entries S :=
  before.foldl (fun target entry => if containsKey entry.1.name after then target else remove entry.1.name target) target

/-- The last part of the second loop: what is written takes the place, with the decor of what was there. -/
def replace (inline : Bool) (name : String) (value : Item S) (target : Entries S) : Entries S :=
  match (get name target).bind Item.decor with
  | some decor => insert inline name (value.withDecor decor) target
  | none => insert inline name value target

/-- A table to merge into. -/
def openTable (inline : Bool) (name : String) (target : Entries S) : Entries S :=
  if containsKey name target then target else insert inline name (.table [] .new) target

mutual

/-- The second loop of `merge_changes`. -/
def mergeEntries (display : Item S → Text) (inline : Bool) (before : Entries S) : List (Key × Item S) → Entries S → Entries S
  | [], target => target
  | (key, value) :: rest, target =>
    mergeEntries display inline before rest
      (if (get key.name before).any fun previous => itemsEqual display previous value then target
        else mergeItem display inline key.name (get key.name before) value target)

/-- What is done for a value that is new or differs. -/
def mergeItem (display : Item S → Text) (inline : Bool) (name : String) (previous : Option (Item S)) :
    Item S → Entries S → Entries S
  | .table next head, target =>
    match previous.bind Item.asTable with
    | some previous =>
      let target := openTable inline name target
      match (get name target).bind fun item => item.asTableLike.map (item.isInline, ·) with
      | some (inline', table) =>
        modify name (.withEntries (mergeEntries display inline' previous next (removeGone previous next table))) target
      | none => replace inline name (.table next head) target
    | none => replace inline name (.table next head) target
  | value, target => replace inline name value target

end

/-- `merge_changes`. -/
def mergeChanges (display : Item S → Text) (inline : Bool) (target before after : Entries S) : Entries S :=
  mergeEntries display inline before after (removeGone before after target)

/-! ## Rendering -/

/-- What `toml` and `toml_edit` do. -/
structure Crates (S Text : Type) where
  /-- `str::parse`, of a document's root table. -/
  parse : Text → Except String (Entries S)
  /-- `to_string`, of a document. -/
  print : Entries S → Text
  /-- `to_string`, of an item. -/
  display : Item S → Text
  toStringPretty : Data S → Except String Text

/-- `Config::render`, given how the settings are written as data. -/
def render (crates : Crates S Text) (next saved : Data S) (disk : Option Text) : Except String Text := do
  let next ← crates.toStringPretty next
  match disk with
  | none => return next
  | some disk =>
    let document ← crates.parse disk
    let saved ← crates.toStringPretty saved
    let before ← crates.parse saved
    let after ← crates.parse next
    return crates.print (mergeChanges crates.display false document before after)

end Zflow.Settings.Toml
