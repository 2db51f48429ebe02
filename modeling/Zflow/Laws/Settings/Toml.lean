import Mathlib.Data.List.Nodup
import Mathlib.Data.List.Perm.Subperm
import Zflow.Settings.Toml

/-!
# Merging patches the file

`merge_changes` walks three trees at once. What it makes of each name depends on what the trees have under that name only
(`entry_mergeChanges`). So the file is patched (`Patched`): read as data it is changed where the two serializations differ.
And an entry whose value is the same in both stays as it is written (`entryAt_mergeChanges`).
-/

namespace Zflow.Settings.Toml

open Lib

variable {S Text : Type}

/-! ## Entries -/

section Entries

variable {name other : String} {item : Item S} {entries target : Entries S} {inline : Bool} {f : Item S → Item S}

theorem entry_cons (first : Key × Item S) (rest : Entries S) :
    entry name (first :: rest) = if first.1.name = name then some first else entry name rest := by
  unfold entry
  rw [List.find?_cons]
  by_cases heq : first.1.name = name <;> simp [heq]

theorem entry_mem {found : Key × Item S} (h : entry name entries = some found) : found ∈ entries :=
  List.mem_of_find?_eq_some h

theorem entry_eq_none : entry name entries = none ↔ name ∉ entries.map (·.1.name) := by
  unfold entry
  simp [List.find?_eq_none]

theorem containsKey_iff : containsKey name entries = true ↔ name ∈ entries.map (·.1.name) := by
  rw [containsKey, ← Option.ne_none_iff_isSome, ne_eq, entry_eq_none, not_not]

/-- In a table of distinct names each entry is found. -/
theorem entry_of_mem {found : Key × Item S} (hnodup : (entries.map (·.1.name)).Nodup) (h : found ∈ entries) :
    entry found.1.name entries = some found := by
  induction entries with
  | nil => cases h
  | cons first rest ih =>
    obtain ⟨hfirst, hrest⟩ := List.nodup_cons.mp hnodup
    rw [entry_cons]
    rcases List.mem_cons.mp h with rfl | hmem
    · exact if_pos rfl
    · have hne : first.1.name ≠ found.1.name := fun heq => hfirst (List.mem_map.mpr ⟨found, hmem, heq.symm⟩)
      rw [if_neg hne, ih hrest hmem]

theorem entry_modify_self : entry name (modify name f target) = (entry name target).map fun e => (e.1, f e.2) := by
  unfold modify
  induction target with
  | nil => rfl
  | cons first rest ih =>
    rw [List.map_cons, entry_cons, entry_cons, ih]
    by_cases heq : first.1.name = name <;> simp [heq]

theorem entry_modify_of_ne (hne : other ≠ name) : entry other (modify name f target) = entry other target := by
  unfold modify
  induction target with
  | nil => rfl
  | cons first rest ih =>
    rw [List.map_cons, entry_cons, entry_cons, ih]
    by_cases heq : first.1.name = name
    · have hother : ¬ name = other := fun h => hne h.symm
      simp [heq, hother]
    · simp [heq]

theorem entry_remove_self : entry name (remove name target) = none := by
  rw [entry_eq_none]
  simp [remove]

theorem entry_remove_of_ne (hne : other ≠ name) : entry other (remove name target) = entry other target := by
  unfold remove
  induction target with
  | nil => rfl
  | cons first rest ih =>
    rw [List.filter_cons, entry_cons, ← ih]
    by_cases heq : first.1.name = name
    · have hother : ¬ name = other := fun h => hne h.symm
      simp [heq, hother]
    · simp [heq, entry_cons]

/-- What is inserted. -/
def inserted (inline : Bool) (name : String) (item : Item S) : Key × Item S :=
  (.new name, if inline then item.intoValue else item)

theorem insert_of_contains (h : containsKey name target = true) :
    insert inline name item target = target.map fun e => if e.1.name = name then inserted inline name item else e :=
  if_pos h

theorem insert_of_not_contains (h : ¬ containsKey name target = true) :
    insert inline name item target = target ++ [inserted inline name item] :=
  if_neg h

theorem entry_insert_self : entry name (insert inline name item target) = some (inserted inline name item) := by
  have hname : (inserted inline name item).1.name = name := rfl
  by_cases h : containsKey name target = true
  · rw [insert_of_contains h]
    rw [containsKey_iff] at h
    induction target with
    | nil => cases h
    | cons first rest ih =>
      rw [List.map_cons, entry_cons]
      by_cases heq : first.1.name = name
      · simp [heq, hname]
      · have hrest : name ∈ rest.map (·.1.name) := by simpa [Ne.symm heq] using h
        simpa [heq] using ih hrest
  · rw [insert_of_not_contains h]
    have hnone : entry name target = none := by
      rwa [containsKey, Bool.not_eq_true, Option.isSome_eq_false_iff, Option.isNone_iff_eq_none] at h
    unfold entry at hnone ⊢
    rw [List.find?_append, hnone]
    simp [hname]

theorem entry_insert_of_ne (hne : other ≠ name) : entry other (insert inline name item target) = entry other target := by
  have hname : (inserted inline name item).1.name = name := rfl
  have hother : ¬ name = other := fun h => hne h.symm
  by_cases h : containsKey name target = true
  · rw [insert_of_contains h]
    clear h
    induction target with
    | nil => rfl
    | cons first rest ih =>
      rw [List.map_cons, entry_cons, entry_cons, ih]
      by_cases heq : first.1.name = name
      · simp [heq, hname, hother]
      · simp [heq]
  · rw [insert_of_not_contains h]
    unfold entry
    rw [List.find?_append]
    simp [hname, hother]

theorem entry_removeGone (before after : Entries S) : entry name (removeGone before after target) =
    if containsKey name before ∧ ¬ containsKey name after then none else entry name target := by
  unfold removeGone
  induction before generalizing target with
  | nil => simp [containsKey, entry]
  | cons first rest ih =>
    rw [List.foldl_cons, ih]
    have hcontains : containsKey name (first :: rest) = true ↔ first.1.name = name ∨ containsKey name rest = true := by
      rw [containsKey_iff, containsKey_iff, List.map_cons, List.mem_cons, eq_comm]
    by_cases hafter : containsKey first.1.name after = true
    · rw [if_pos hafter]
      by_cases heq : first.1.name = name
      · subst heq
        simp [hafter]
      · simp [hcontains, heq]
    · rw [if_neg hafter]
      by_cases heq : first.1.name = name
      · subst heq
        simp [hafter, hcontains, entry_remove_self]
      · simp [hcontains, heq, entry_remove_of_ne (Ne.symm heq)]

end Entries

/-! ## Merging by name -/

section Merge

variable [DecidableEq Text] {display : Item S → Text} {inline : Bool} {name other : String}
variable {target before after : Entries S} {previous : Option (Item S)} {value : Item S}

/-- The entry of a value that takes another's place. -/
def replaced (inline : Bool) (name : String) (value : Item S) (old : Option (Key × Item S)) : Key × Item S :=
  match old.bind (·.2.decor) with
  | some decor => inserted inline name (value.withDecor decor)
  | none => inserted inline name value

/-- What there is to merge a table into. -/
def base (inline : Bool) (name : String) (old : Option (Key × Item S)) : Key × Item S :=
  old.getD (inserted inline name (.table [] .new))

/-- The entry of a table that is merged, where it can be. -/
def mergedTable (display : Item S → Text) (previous next : Entries S) (base : Key × Item S) : Option (Key × Item S) :=
  base.2.asTableLike.map fun table =>
    (base.1, base.2.withEntries (mergeChanges display base.2.isInline table previous next))

/-- The entry of a value that is new or differs. -/
def mergedItem (display : Item S → Text) (inline : Bool) (name : String) (previous : Option (Item S)) (value : Item S)
    (old : Option (Key × Item S)) : Key × Item S :=
  match previous.bind Item.asTable, value.asTable with
  | some previous, some next => (mergedTable display previous next (base inline name old)).getD (replaced inline name value old)
  | _, _ => replaced inline name value old

theorem entry_replace_self : entry name (replace inline name value target) =
    some (replaced inline name value (entry name target)) := by
  unfold replace replaced get
  rw [Option.bind_map]
  show entry name (match (entry name target).bind (·.2.decor) with
    | some decor => _
    | none => _) = _
  split <;> exact entry_insert_self

theorem entry_replace_of_ne (hne : other ≠ name) :
    entry other (replace inline name value target) = entry other target := by
  unfold replace
  split <;> exact entry_insert_of_ne hne

theorem entry_openTable_self : entry name (openTable inline name target) =
    some (base inline name (entry name target)) := by
  unfold openTable base
  split
  case isTrue hcontains =>
    obtain ⟨found, hfound⟩ := Option.isSome_iff_exists.mp hcontains
    rw [hfound, Option.getD_some]
  case isFalse hnot =>
    have hnone : entry name target = none := by
      rwa [containsKey, Bool.not_eq_true, Option.isSome_eq_false_iff, Option.isNone_iff_eq_none] at hnot
    rw [hnone, Option.getD_none, entry_insert_self]

theorem entry_openTable_of_ne (hne : other ≠ name) : entry other (openTable inline name target) = entry other target := by
  unfold openTable
  split
  · rfl
  · exact entry_insert_of_ne hne

/-- What a table that is written anew does to its name. -/
theorem mergeItem_table {written next : Entries S} (head : Head) (h : previous.bind Item.asTable = some written) :
    mergeItem display inline name previous (.table next head) target =
      match (get name (openTable inline name target)).bind fun item => item.asTableLike.map (item.isInline, ·) with
      | some (inline', table) =>
        modify name (.withEntries (mergeChanges display inline' table written next)) (openTable inline name target)
      | none => replace inline name (.table next head) (openTable inline name target) := by
  rw [mergeItem, h]
  rfl

theorem mergeItem_of_none (h : previous.bind Item.asTable = none ∨ value.asTable = none) :
    mergeItem display inline name previous value target = replace inline name value target := by
  cases value with
  | table next head =>
    rcases h with h | h
    · rw [mergeItem, h]
    · cases h
  | _ => rfl

theorem mergedItem_of_none {old : Option (Key × Item S)} (h : previous.bind Item.asTable = none ∨ value.asTable = none) :
    mergedItem display inline name previous value old = replaced inline name value old := by
  unfold mergedItem
  rcases h with h | h <;> rw [h]
  cases previous.bind Item.asTable <;> rfl

theorem entry_mergeItem_self : entry name (mergeItem display inline name previous value target) =
    some (mergedItem display inline name previous value (entry name target)) := by
  by_cases hnone : previous.bind Item.asTable = none ∨ value.asTable = none
  · rw [mergeItem_of_none hnone, mergedItem_of_none hnone, entry_replace_self]
  obtain ⟨hprevious, hvalue⟩ := not_or.mp hnone
  obtain ⟨written, hwritten⟩ := Option.ne_none_iff_exists'.mp hprevious
  cases value with
  | table next head =>
    rw [mergeItem_table head hwritten]
    have hmerged : mergedItem display inline name previous (.table next head) (entry name target) =
        (mergedTable display written next (base inline name (entry name target))).getD
          (replaced inline name (.table next head) (entry name target)) := by
      unfold mergedItem
      rw [hwritten]
      rfl
    have hget : get name (openTable inline name target) = some (base inline name (entry name target)).2 := by
      rw [get, entry_openTable_self, Option.map_some]
    rw [hmerged, hget, Option.bind_some, mergedTable]
    cases htable : (base inline name (entry name target)).2.asTableLike with
    | some table =>
      show entry name (modify name _ _) = _
      rw [entry_modify_self, entry_openTable_self]
      rfl
    | none =>
      show entry name (replace inline name _ _) = _
      have hold : entry name (openTable inline name target) = entry name target := by
        rw [entry_openTable_self]
        cases hentry : entry name target with
        | some found => rfl
        | none =>
          rw [hentry] at htable
          cases inline <;> cases htable
      rw [entry_replace_self, hold]
      rfl
  | _ => exact absurd rfl hvalue

theorem entry_mergeItem_of_ne (hne : other ≠ name) :
    entry other (mergeItem display inline name previous value target) = entry other target := by
  by_cases hnone : previous.bind Item.asTable = none ∨ value.asTable = none
  · rw [mergeItem_of_none hnone, entry_replace_of_ne hne]
  obtain ⟨hprevious, hvalue⟩ := not_or.mp hnone
  obtain ⟨written, hwritten⟩ := Option.ne_none_iff_exists'.mp hprevious
  cases value with
  | table next head =>
    rw [mergeItem_table head hwritten]
    split
    · rw [entry_modify_of_ne hne, entry_openTable_of_ne hne]
    · rw [entry_replace_of_ne hne, entry_openTable_of_ne hne]
  | _ => exact absurd rfl hvalue

/-- What a written value makes of its entry. -/
def mergedEntry (display : Item S → Text) (inline : Bool) (name : String) (previous : Option (Item S)) (value : Item S)
    (old : Option (Key × Item S)) : Option (Key × Item S) :=
  if previous.any fun previous => itemsEqual display previous value then old
  else some (mergedItem display inline name previous value old)

theorem entry_mergeEntries {rest : Entries S} (hnodup : (rest.map (·.1.name)).Nodup) :
    entry name (mergeEntries display inline before rest target) = match entry name rest with
      | some (_, value) => mergedEntry display inline name (get name before) value (entry name target)
      | none => entry name target := by
  induction rest generalizing target with
  | nil => rw [mergeEntries]; rfl
  | cons first rest ih =>
    obtain ⟨key, value⟩ := first
    obtain ⟨hfirst, hrest⟩ := List.nodup_cons.mp hnodup
    rw [mergeEntries, ih hrest, entry_cons]
    by_cases heq : key.name = name
    · subst heq
      rw [entry_eq_none.mpr hfirst, if_pos rfl]
      show entry key.name (if _ then _ else _) = mergedEntry display inline key.name _ value _
      unfold mergedEntry
      split
      · rfl
      · exact entry_mergeItem_self
    · have hstep : entry name (if (get key.name before).any fun previous => itemsEqual display previous value then target
          else mergeItem display inline key.name (get key.name before) value target) = entry name target := by
        split
        · rfl
        · exact entry_mergeItem_of_ne (Ne.symm heq)
      rw [if_neg heq, hstep]

/-- **What merging makes of a name** depends on what the trees have there. -/
theorem entry_mergeChanges (hnodup : (after.map (·.1.name)).Nodup) :
    entry name (mergeChanges display inline target before after) = match entry name after with
      | some (_, value) => mergedEntry display inline name (get name before) value (entry name target)
      | none => if containsKey name before then none else entry name target := by
  rw [mergeChanges, entry_mergeEntries hnodup, entry_removeGone]
  cases hafter : entry name after with
  | some found => simp [containsKey, hafter]
  | none => exact if_congr (by simp [containsKey, hafter]) rfl rfl

end Merge

/-! ## What the trees say -/

section Shown

variable {item : Item S} {entries : Entries S} {data : Data S} {leaf : Data S → Item S}

theorem getElem?_content (entries : Entries S) (name : String) :
    (content entries)[name]? = (get name entries).bind Item.shown := by
  induction entries with
  | nil =>
    rw [content, Std.ExtTreeMap.getElem?_empty]
    rfl
  | cons first rest ih =>
    obtain ⟨key, item⟩ := first
    rw [content, get, entry_cons]
    cases hshown : item.shown with
    | some data =>
      rw [Std.ExtTreeMap.getElem?_insert, ih]
      by_cases heq : key.name = name
      · simp [heq, hshown]
      · simp [heq, get]
    | none =>
      rw [Std.ExtTreeMap.getElem?_erase, ih]
      by_cases heq : key.name = name
      · simp [heq, hshown]
      · simp [heq, get]

/-- A table that is hidden is empty. -/
theorem hide_eq_none {hidden : Bool} {c : Content S} (h : hide hidden c = none) : c = ∅ := by
  unfold hide at h
  split at h
  case isTrue hempty =>
    rw [Bool.and_eq_true, Std.ExtTreeMap.isEmpty_iff] at hempty
    exact hempty.2
  case isFalse => cases h

theorem eq_of_hide_eq_some {hidden : Bool} {c : Content S} (h : hide hidden c = some data) : data = .ofContent c := by
  unfold hide at h
  split at h
  · cases h
  · exact (Option.some.inj h).symm

theorem shown_withDecor (decor : Decor) : (item.withDecor decor).shown = item.shown := by
  cases item <;> rfl

/-- A table of what a tree says: it may be hidden. -/
theorem shown_of_asTableLike (h : item.asTableLike = some entries) : ∃ hidden : Bool, ∀ entries' : Entries S,
    (item.withEntries entries').shown = hide hidden (content entries') ∧
      (item.withEntries entries').asTableLike = some entries' ∧ item.shown = hide hidden (content entries) := by
  cases item with
  | table _ head =>
    cases h
    exact ⟨head.implicit || head.dotted, fun _ => ⟨rfl, rfl, rfl⟩⟩
  | inlineTable _ dotted =>
    cases h
    exact ⟨dotted, fun _ => ⟨rfl, rfl, rfl⟩⟩
  | _ => cases h

/-- A value other than a table. -/
structure Plain (data : Data S) : Prop where
  proper : data.Proper
  not_table : ∀ entries, data ≠ .table entries

/-- **A tree as it is printed from data**: each value other than a table stands as its data says, and an empty table has a
header. -/
inductive Printed (leaf : Data S → Item S) : Item S → Prop
  | leaf {data : Data S} (plain : Plain data) : Printed leaf (leaf data)
  | table {entries : Entries S} {head : Head} (nodup : (entries.map (·.1.name)).Nodup)
    (header : entries = [] → (head.implicit || head.dotted) = false) (each : ∀ entry ∈ entries, Printed leaf entry.2) :
    Printed leaf (.table entries head)

/-- What is relied on of the crates: they read back what they print, and a value is printed in the way that its data says. -/
structure Consistent [DecidableEq Text] (crates : Crates S Text) (leaf : Data S → Item S) : Prop where
  print : ∀ entries, ∃ read, crates.parse (crates.print entries) = .ok read ∧ content read = content entries
  pretty : ∀ {written : Content S} {text}, (Data.ofContent written).Proper →
    crates.toStringPretty (.ofContent written) = .ok text → ∃ entries, crates.parse text = .ok entries ∧
      content entries = written ∧ Printed leaf (.table entries .new)
  display : ∀ {data other}, Plain data → Plain other → crates.display (leaf data) = crates.display (leaf other) →
    data = other
  shown : ∀ {data}, Plain data → (leaf data).shown = some data ∧ (leaf data).intoValue.shown = some data

variable [DecidableEq Text] {crates : Crates S Text} {first second : Item S}

theorem Consistent.leaf_asTable (h : Consistent crates leaf) (hdata : Plain data) : (leaf data).asTable = none := by
  have hshown := (h.shown hdata).1
  cases hleaf : leaf data with
  | table entries head =>
    rw [hleaf, Item.shown, hide] at hshown
    split at hshown
    · cases hshown
    · exact absurd (Option.some.inj hshown).symm (hdata.not_table _)
  | _ => rfl

theorem Printed.shown_isSome (h : Consistent crates leaf) (hitem : Printed leaf item) : item.shown ≠ none := by
  induction hitem with
  | leaf hdata =>
    rw [(h.shown hdata).1]
    nofun
  | @table entries head _ header _ ih =>
    rw [Item.shown]
    intro hnone
    have hempty := hide_eq_none hnone
    cases entries with
    | nil =>
      rw [header rfl] at hnone
      cases hnone
    | cons entry rest =>
      have hget : get entry.1.name (entry :: rest) = some entry.2 := by rw [get, entry_cons, if_pos rfl]; rfl
      have hcontent := getElem?_content (entry :: rest) entry.1.name
      rw [hempty, Std.ExtTreeMap.getElem?_empty, hget] at hcontent
      exact ih entry List.mem_cons_self hcontent.symm

theorem Printed.of_table (h : Consistent crates leaf) {head : Head} (hitem : Printed leaf (.table entries head)) :
    (entries.map (·.1.name)).Nodup ∧ ∀ entry ∈ entries, Printed leaf entry.2 := by
  generalize htable : Item.table entries head = item at hitem
  cases hitem with
  | leaf hdata =>
    have hleaf := h.leaf_asTable hdata
    rw [← htable] at hleaf
    cases hleaf
  | table hnodup _ each =>
    cases htable
    exact ⟨hnodup, each⟩

/-- A table that is printed from data says that data. -/
theorem Printed.shown_table (h : Consistent crates leaf) {head : Head} (hitem : Printed leaf (.table entries head)) :
    (Item.table entries head).shown = some (.ofContent (content entries)) := by
  have hsome := hitem.shown_isSome h
  rw [Item.shown] at hsome ⊢
  unfold hide at hsome ⊢
  split at hsome
  · exact absurd rfl hsome
  · rw [if_neg ‹_›]

theorem content_intoValueEntries (h : ∀ entry ∈ entries, entry.2.intoValue.shown = entry.2.shown) :
    content (Item.intoValueEntries entries) = content entries := by
  induction entries with
  | nil => rfl
  | cons entry rest ih =>
    obtain ⟨hentry, hrest⟩ := List.forall_mem_cons.mp h
    obtain ⟨key, item⟩ := entry
    rw [Item.intoValueEntries, content, content, shown_withDecor, hentry, ih hrest]
    rfl

/-- What is printed says the same in an inline table. -/
theorem Printed.shown_intoValue (h : Consistent crates leaf) (hitem : Printed leaf item) :
    item.intoValue.shown = item.shown := by
  induction hitem with
  | leaf hdata => rw [(h.shown hdata).1, (h.shown hdata).2]
  | @table entries head hnodup header each ih =>
    rw [(Printed.table hnodup header each).shown_table h, Item.intoValue, Item.shown, content_intoValueEntries ih]
    rfl

theorem itemsEqual_of_not_table {display : Item S → Text} (hfirst : first.asTable = none) (hsecond : second.asTable = none) :
    itemsEqual display first second = decide (display first = display second) := by
  cases first with
  | table => cases hfirst
  | _ =>
    cases second with
    | table => cases hsecond
    | _ => rfl

theorem entriesEqual_iff {display : Item S → Text} {right rest : Entries S} : entriesEqual display right rest = true ↔
    ∀ entry ∈ rest, ∃ other, get entry.1.name right = some other ∧ itemsEqual display entry.2 other = true := by
  induction rest with
  | nil => simp [entriesEqual]
  | cons entry rest ih =>
    obtain ⟨key, value⟩ := entry
    rw [entriesEqual, Bool.and_eq_true, ih, List.forall_mem_cons]
    refine and_congr_left fun _ => ?_
    cases get key.name right <;> simp

/-- Two tables say the same where they have as many entries and each of one is in the other. -/
theorem content_eq_iff {left right : Entries S} (hleft : (left.map (·.1.name)).Nodup) (hright : (right.map (·.1.name)).Nodup)
    (hshown : ∀ entry ∈ left, entry.2.shown ≠ none) (hshown' : ∀ entry ∈ right, entry.2.shown ≠ none) :
    content left = content right ↔ left.length = right.length ∧
      ∀ entry ∈ left, ∃ other, get entry.1.name right = some other ∧ entry.2.shown = other.shown := by
  -- a name that is there says something
  have hthere : ∀ {entries : Entries S}, (∀ entry ∈ entries, entry.2.shown ≠ none) → ∀ name,
      name ∈ entries.map (·.1.name) ↔ (content entries)[name]? ≠ none := by
    intro entries hall name
    rw [getElem?_content, get, ← not_iff_not, not_not, ← entry_eq_none]
    cases hentry : entry name entries with
    | none => simp
    | some found => simpa using hall found (entry_mem hentry)
  have hget : ∀ entry ∈ left, (content left)[entry.1.name]? = entry.2.shown := fun entry hmem => by
    rw [getElem?_content, get, entry_of_mem hleft hmem]
    rfl
  constructor
  · intro heq
    refine ⟨?_, fun entry hmem => ?_⟩
    · have hperm : (left.map (·.1.name)).Perm (right.map (·.1.name)) := by
        refine (List.perm_ext_iff_of_nodup hleft hright).mpr fun name => ?_
        rw [hthere hshown, hthere hshown', heq]
      simpa using hperm.length_eq
    · have hentry := hget entry hmem
      rw [heq, getElem?_content] at hentry
      cases hother : get entry.1.name right with
      | none =>
        rw [hother] at hentry
        exact absurd hentry.symm (hshown entry hmem)
      | some other =>
        rw [hother] at hentry
        exact ⟨other, rfl, hentry.symm⟩
  · rintro ⟨hlength, hall⟩
    have hsub : left.map (·.1.name) ⊆ right.map (·.1.name) := by
      intro name hmem
      obtain ⟨entry, hentry, rfl⟩ := List.mem_map.mp hmem
      obtain ⟨other, hother, -⟩ := hall entry hentry
      by_contra hnot
      rw [get, entry_eq_none.mpr hnot] at hother
      cases hother
    have hperm := (hleft.subperm hsub).perm_of_length_le (by simp [hlength])
    refine Std.ExtTreeMap.ext_getElem? fun name => ?_
    by_cases hmem : name ∈ left.map (·.1.name)
    · obtain ⟨entry, hentry, rfl⟩ := List.mem_map.mp hmem
      obtain ⟨other, hother, hsame⟩ := hall entry hentry
      rw [hget entry hentry, getElem?_content, hother, hsame]
      rfl
    · have hleft' := mt (hthere hshown name).mpr hmem
      have hright' := mt (hthere hshown' name).mpr fun h => hmem (hperm.mem_iff.mpr h)
      rw [not_not.mp hleft', not_not.mp hright']

/-- **`items_equal` is equality of what is said**, of trees printed from data. -/
theorem itemsEqual_iff (h : Consistent crates leaf) (hfirst : Printed leaf first) (hsecond : Printed leaf second) :
    itemsEqual crates.display first second = true ↔ first.shown = second.shown := by
  induction hfirst generalizing second with
  | @leaf data hdata =>
    cases hsecond with
    | @leaf other hother =>
      rw [itemsEqual_of_not_table (h.leaf_asTable hdata) (h.leaf_asTable hother), decide_eq_true_iff, (h.shown hdata).1,
        (h.shown hother).1, Option.some.injEq]
      exact ⟨h.display hdata hother, fun heq => by rw [heq]⟩
    | table hnodup header each =>
      rw [(Printed.table hnodup header each).shown_table h, (h.shown hdata).1, Option.some.injEq]
      refine iff_of_false ?_ (hdata.not_table _)
      have hleaf := h.leaf_asTable hdata
      cases hitem : leaf data with
      | table => rw [hitem] at hleaf; cases hleaf
      | _ => simp [itemsEqual]
  | @table entries head hnodup header each ih =>
    have hthis := (Printed.table hnodup header each).shown_table h
    cases hsecond with
    | @leaf other hother =>
      rw [hthis, (h.shown hother).1, Option.some.injEq]
      refine iff_of_false ?_ fun heq => hother.not_table _ heq.symm
      have hleaf := h.leaf_asTable hother
      cases hitem : leaf other with
      | table => rw [hitem] at hleaf; cases hleaf
      | _ => simp [itemsEqual]
    | @table entries' head' hnodup' header' each' =>
      rw [hthis, (Printed.table hnodup' header' each').shown_table h, Option.some.injEq, Data.ofContent_injective.eq_iff,
        content_eq_iff hnodup hnodup' (fun e he => (each e he).shown_isSome h) (fun e he => (each' e he).shown_isSome h),
        itemsEqual, Bool.and_eq_true, decide_eq_true_iff, entriesEqual_iff]
      refine and_congr_right fun _ => forall₂_congr fun e he => exists_congr fun other => and_congr_right fun hother => ?_
      obtain ⟨found, hfound, rfl⟩ := Option.map_eq_some_iff.mp hother
      exact ih e he (each' found (entry_mem hfound))

end Shown

/-! ## The file is patched -/

section Patched

variable [DecidableEq Text] {crates : Crates S Text} {leaf : Data S → Item S} {inline : Bool} {name : String}
variable {target before after : Entries S} {head head' : Head} {previous : Option (Item S)} {value : Item S}
variable {old : Option (Key × Item S)}

theorem shown_inserted (h : Consistent crates leaf) (hvalue : Printed leaf value) :
    (inserted inline name value).2.shown = value.shown := by
  cases inline with
  | false => rfl
  | true => exact hvalue.shown_intoValue h

theorem shown_inserted_withDecor (value : Item S) (decor : Decor) :
    (inserted inline name (value.withDecor decor)).2.shown = (inserted inline name value).2.shown := by
  cases inline <;> cases value <;> rfl

theorem shown_replaced (h : Consistent crates leaf) (hvalue : Printed leaf value) :
    (replaced inline name value old).2.shown = value.shown := by
  unfold replaced
  split
  · rw [shown_inserted_withDecor, shown_inserted h hvalue]
  · exact shown_inserted h hvalue

/-- What an entry says. -/
def said (entry : Option (Key × Item S)) : Option (Data S) := entry.bind (·.2.shown)

theorem getElem?_content_eq_said (entries : Entries S) : (content entries)[name]? = said (entry name entries) := by
  rw [getElem?_content, get, Option.bind_map]
  rfl

/-- A merged entry is patched. -/
def PatchesEntry (display : Item S → Text) (leaf : Data S → Item S) (value : Item S) : Prop :=
  ∀ (inline : Bool) (name : String) (previous : Option (Item S)) (old : Option (Key × Item S)),
    (∀ item ∈ previous, Printed leaf item) → Patched (said old) (previous.bind Item.shown) value.shown
      (said (mergedEntry display inline name previous value old))

/-- **A merged table is patched name by name**, where its entries are. -/
theorem patched_mergeChanges_of (hnodup : (after.map (·.1.name)).Nodup) (hbefore : ∀ entry ∈ before, Printed leaf entry.2)
    (each : ∀ entry ∈ after, PatchesEntry crates.display leaf entry.2) (inline : Bool) (target : Entries S) (name : String) :
    Patched (content target)[name]? (content before)[name]? (content after)[name]?
      (content (mergeChanges crates.display inline target before after))[name]? := by
  rw [getElem?_content_eq_said target, getElem?_content before, getElem?_content_eq_said after,
    getElem?_content_eq_said (mergeChanges _ _ _ _ _), entry_mergeChanges hnodup]
  cases hentry : entry name after with
  | some found =>
    refine each found (entry_mem hentry) inline name (get name before) _ fun item hitem => ?_
    obtain ⟨written, hwritten, rfl⟩ := Option.map_eq_some_iff.mp hitem
    exact hbefore written (entry_mem hwritten)
  | none =>
    cases hwritten : entry name before with
    | some found =>
      simp only [containsKey, hwritten, Option.isSome_some, if_true]
      exact .set _ _ _
    | none =>
      simp only [containsKey, get, hwritten, Option.isSome_none, Bool.false_eq_true, if_false]
      exact .kept _ _

/-- An entry whose value is written as it was stays. -/
theorem PatchesEntry.of_item (h : Consistent crates leaf) (hvalue : Printed leaf value)
    (hitem : ∀ (inline : Bool) (name : String) (previous : Option (Item S)) (old : Option (Key × Item S)),
      (∀ item ∈ previous, Printed leaf item) → Patched (said old) (previous.bind Item.shown) value.shown
        (mergedItem crates.display inline name previous value old).2.shown) : PatchesEntry crates.display leaf value := by
  intro inline name previous old hprevious
  unfold mergedEntry
  split
  case isTrue hequal =>
    cases previous with
    | none => cases hequal
    | some item =>
      rw [Option.bind_some, (itemsEqual_iff h (hprevious item rfl) hvalue).mp hequal]
      exact .kept _ _
  case isFalse => exact hitem inline name previous old hprevious

/-- What there is to merge into says what the entry says, if it is a table. -/
theorem said_base {table : Entries S} (htable : (base inline name old).2.asTableLike = some table) :
    said old = some (.ofContent (content table)) ∨ said old = none ∧ content table = ∅ := by
  unfold base at htable
  cases old with
  | none =>
    refine .inr ⟨rfl, ?_⟩
    cases inline <;> cases htable <;> rfl
  | some found =>
    obtain ⟨hidden, hshown⟩ := shown_of_asTableLike htable
    have hfound : said (some found) = hide hidden (content table) := (hshown table).2.2
    rw [hfound]
    cases hhide : hide hidden (content table) with
    | none => exact .inr ⟨rfl, hide_eq_none hhide⟩
    | some data => exact .inl (congrArg some (eq_of_hide_eq_some hhide))

/-- **A merged entry is patched.** -/
theorem Printed.patches (h : Consistent crates leaf) (hvalue : Printed leaf value) :
    PatchesEntry crates.display leaf value := by
  induction hvalue with
  | @leaf data hdata =>
    refine .of_item h (.leaf hdata) fun inline name previous old _ => ?_
    rw [mergedItem_of_none (.inr (h.leaf_asTable hdata)), shown_replaced h (.leaf hdata)]
    exact .set _ _ _
  | @table next head hnodup header each ih =>
    have hvalue : Printed leaf (.table next head) := .table hnodup header each
    refine .of_item h hvalue fun inline name previous old hprevious => ?_
    cases hwritten : previous.bind Item.asTable with
    | none =>
      rw [mergedItem_of_none (.inl hwritten), shown_replaced h hvalue]
      exact .set _ _ _
    | some written =>
    unfold mergedItem
    rw [hwritten]
    show Patched _ _ _ ((mergedTable crates.display written next (base inline name old)).getD _).2.shown
    unfold mergedTable
    cases htable : (base inline name old).2.asTableLike with
    | none =>
      rw [Option.map_none, Option.getD_none, shown_replaced h hvalue]
      exact .set _ _ _
    | some table =>
      obtain ⟨item, rfl, hitem⟩ := Option.bind_eq_some_iff.mp hwritten
      cases item with
      | table _ head' =>
        cases hitem
        have hprevious := hprevious _ rfl
        rw [Option.bind_some, hprevious.shown_table h, hvalue.shown_table h, Option.map_some, Option.getD_some]
        obtain ⟨hidden, hshown⟩ := shown_of_asTableLike htable
        have heach := patched_mergeChanges_of hnodup (hprevious.of_table h).2 ih (base inline name old).2.isInline table
        rw [(hshown _).1]
        cases hhide : hide hidden (content (mergeChanges crates.display (base inline name old).2.isInline table written next)) with
        | none =>
          refine .emptied (said_base htable) fun other => ?_
          have hother := heach other
          rwa [hide_eq_none hhide, Std.ExtTreeMap.getElem?_empty] at hother
        | some data =>
          rw [eq_of_hide_eq_some hhide]
          exact .inside (said_base htable) heach
      | _ => cases hitem

/-! ## What stays as it is written -/

/-- The entry at a path through tables. -/
def entryAt : List String → Entries S → Option (Key × Item S)
  | [], _ => none
  | [name], entries => entry name entries
  | name :: next :: rest, entries => ((entry name entries).bind (·.2.asTableLike)).bind (entryAt (next :: rest))

/-- **Two serializations have the same value at a path**, or at one before it. -/
inductive SameAt : Content S → Content S → List String → Prop
  | here {before after : Content S} {name : String} {rest : List String} (same : before[name]? = after[name]?) :
    SameAt before after (name :: rest)
  | inside {before after inner inner' : Content S} {name : String} {rest : List String}
    (hbefore : before[name]? = some (.ofContent inner)) (hafter : after[name]? = some (.ofContent inner'))
    (same : SameAt inner inner' rest) : SameAt before after (name :: rest)

theorem entryAt_congr {rest : List String} {entries entries' : Entries S} (heq : entry name entries = entry name entries') :
    entryAt (name :: rest) entries = entryAt (name :: rest) entries' := by
  cases rest with
  | nil => exact heq
  | cons next rest => rw [entryAt, entryAt, heq]

/-- What is said at a name is printed there. -/
theorem Printed.entry_of_content (h : Consistent crates leaf) (hitem : Printed leaf (.table before head)) {data : Data S}
    (hdata : (content before)[name]? = some data) :
    ∃ key item, entry name before = some (key, item) ∧ Printed leaf item ∧ item.shown = some data := by
  rw [getElem?_content_eq_said] at hdata
  obtain ⟨⟨key, item⟩, hentry, hshown⟩ := Option.bind_eq_some_iff.mp hdata
  exact ⟨key, item, hentry, (hitem.of_table h).2 _ (entry_mem hentry), hshown⟩

theorem Printed.entry_of_none (h : Consistent crates leaf) (hitem : Printed leaf (.table before head))
    (hnone : (content before)[name]? = none) : entry name before = none := by
  rw [getElem?_content_eq_said] at hnone
  cases hentry : entry name before with
  | none => rfl
  | some found =>
    rw [hentry] at hnone
    exact absurd hnone (((hitem.of_table h).2 found (entry_mem hentry)).shown_isSome h)

/-- An entry whose value is the same in both serializations stays. -/
theorem entry_mergeChanges_of_same (h : Consistent crates leaf) (hbefore : Printed leaf (.table before head))
    (hafter : Printed leaf (.table after head')) (hsame : (content before)[name]? = (content after)[name]?) :
    entry name (mergeChanges crates.display inline target before after) = entry name target := by
  rw [entry_mergeChanges (hafter.of_table h).1]
  cases hdata : (content after)[name]? with
  | none =>
    rw [hafter.entry_of_none h hdata]
    simp [containsKey, hbefore.entry_of_none h (hsame.trans hdata)]
  | some data =>
    obtain ⟨key, value, hentry, hvalue, hshown⟩ := hafter.entry_of_content h hdata
    obtain ⟨key', previous, hentry', hprevious, hshown'⟩ := hbefore.entry_of_content h (hsame.trans hdata)
    have hequal := (itemsEqual_iff h hprevious hvalue).mpr (hshown'.trans hshown.symm)
    rw [hentry]
    show mergedEntry _ _ _ (get name before) value _ = _
    rw [get, hentry', mergedEntry]
    exact if_pos hequal

/-- What says a table is printed as one. -/
theorem Printed.eq_table (h : Consistent crates leaf) (hvalue : Printed leaf value) {inner : Content S}
    (hshown : value.shown = some (.ofContent inner)) : ∃ entries head, value = .table entries head ∧ content entries = inner := by
  cases hvalue with
  | leaf hdata =>
    rw [(h.shown hdata).1] at hshown
    exact absurd (Option.some.inj hshown) (hdata.not_table _)
  | @table entries head hnodup header each =>
    rw [(Printed.table hnodup header each).shown_table h] at hshown
    exact ⟨entries, head, rfl, Data.ofContent_injective (Option.some.inj hshown)⟩

/-- A table that differs is merged into the file's. -/
theorem entry_mergeChanges_of_tables (h : Consistent crates leaf) (hbefore : Printed leaf (.table before head))
    (hafter : Printed leaf (.table after head')) {inner inner' : Content S} (hne : inner ≠ inner')
    (hinner : (content before)[name]? = some (.ofContent inner)) (hinner' : (content after)[name]? = some (.ofContent inner'))
    {key : Key} {item : Item S} {table : Entries S} (hentry : entry name target = some (key, item))
    (htable : item.asTableLike = some table) :
    ∃ previous value previousHead valueHead, Printed leaf (.table previous previousHead) ∧ content previous = inner ∧
      Printed leaf (.table value valueHead) ∧ content value = inner' ∧
      entry name (mergeChanges crates.display inline target before after) =
        some (key, item.withEntries (mergeChanges crates.display item.isInline table previous value)) := by
  obtain ⟨_, previous, hentry', hprevious, hshown⟩ := hbefore.entry_of_content h hinner
  obtain ⟨_, value, hentry'', hvalue, hshown'⟩ := hafter.entry_of_content h hinner'
  have hunequal : ¬ itemsEqual crates.display previous value = true := by
    rw [itemsEqual_iff h hprevious hvalue, hshown, hshown', Option.some.injEq, Data.ofContent_injective.eq_iff]
    exact hne
  obtain ⟨previous, previousHead, rfl, hwritten⟩ := hprevious.eq_table h hshown
  obtain ⟨value, valueHead, rfl, hwritten'⟩ := hvalue.eq_table h hshown'
  refine ⟨previous, value, previousHead, valueHead, hprevious, hwritten, hvalue, hwritten', ?_⟩
  rw [entry_mergeChanges (hafter.of_table h).1, hentry'', get, hentry', hentry]
  show mergedEntry _ _ _ (some _) _ _ = _
  unfold mergedEntry
  rw [Option.any_some, if_neg hunequal]
  show some ((Option.map _ item.asTableLike).getD _) = _
  rw [htable]
  rfl

/-- **A value other than a table is replaced as a unit**, also an array of tables. -/
theorem entry_mergeChanges_of_plain (h : Consistent crates leaf) (hbefore : Printed leaf (.table before head))
    (hafter : Printed leaf (.table after head')) {data : Data S} (hplain : Plain data)
    (hdata : (content after)[name]? = some data) (hne : (content before)[name]? ≠ some data) :
    entry name (mergeChanges crates.display inline target before after) =
      some (replaced inline name (leaf data) (entry name target)) := by
  obtain ⟨key, value, hentry, hvalue, hshown⟩ := hafter.entry_of_content h hdata
  obtain rfl : value = leaf data := by
    cases hvalue with
    | leaf hother =>
      rw [(h.shown hother).1] at hshown
      rw [Option.some.inj hshown]
    | table hnodup header each =>
      rw [(Printed.table hnodup header each).shown_table h] at hshown
      exact absurd (Option.some.inj hshown).symm (hplain.not_table _)
  have hunequal : ¬ (get name before).any (fun previous => itemsEqual crates.display previous (leaf data)) = true := by
    intro hany
    cases hget : get name before with
    | none =>
      rw [hget] at hany
      cases hany
    | some previous =>
      rw [hget, Option.any_some] at hany
      obtain ⟨found, hfound, rfl⟩ := Option.map_eq_some_iff.mp hget
      rw [itemsEqual_iff h ((hbefore.of_table h).2 found (entry_mem hfound)) hvalue, hshown] at hany
      exact hne (by rw [getElem?_content, hget, Option.bind_some, hany])
  rw [entry_mergeChanges (hafter.of_table h).1, hentry]
  show mergedEntry _ _ _ _ _ _ = _
  unfold mergedEntry
  rw [if_neg hunequal, mergedItem_of_none (.inr (h.leaf_asTable hplain))]

/-- So in a table of the file an array is replaced, where the serializations differ in it. -/
theorem entryAt_mergeChanges_of_plain (h : Consistent crates leaf) (hbefore : Printed leaf (.table before head))
    (hafter : Printed leaf (.table after head')) {other : String} {inner inner' : Content S} {data : Data S} (hplain : Plain data)
    (hinner : (content before)[name]? = some (.ofContent inner)) (hinner' : (content after)[name]? = some (.ofContent inner'))
    (hdata : inner'[other]? = some data) (hne : inner[other]? ≠ some data) {key : Key} {item : Item S} {table : Entries S}
    (hentry : entry name target = some (key, item)) (htable : item.asTableLike = some table) :
    entryAt [name, other] (mergeChanges crates.display inline target before after) =
      some (replaced item.isInline other (leaf data) (entry other table)) := by
  have hinners : inner ≠ inner' := fun heq => hne (heq ▸ hdata)
  obtain ⟨previous, value, _, _, hprevious, hwritten, hvalue, hwritten', hmerged⟩ :=
    entry_mergeChanges_of_tables h hbefore hafter hinners hinner hinner' hentry htable
  obtain ⟨_, htableLike⟩ := shown_of_asTableLike htable
  rw [← hwritten] at hne
  rw [← hwritten'] at hdata
  rw [entryAt, hmerged, Option.bind_some, (htableLike _).2.1, Option.bind_some]
  exact entry_mergeChanges_of_plain h hprevious hvalue hplain hdata hne

/-- **A key of the file whose value is the same in both serializations keeps its text.** -/
theorem entryAt_mergeChanges (h : Consistent crates leaf) {path : List String} {found : Key × Item S}
    (hbefore : Printed leaf (.table before head)) (hafter : Printed leaf (.table after head'))
    (hsame : SameAt (content before) (content after) path) (hfound : entryAt path target = some found) :
    entryAt path (mergeChanges crates.display inline target before after) = some found := by
  generalize hcontent : content before = written at hsame
  generalize hcontent' : content after = written' at hsame
  induction hsame generalizing before after head head' target inline with
  | here same =>
    rw [← hfound]
    exact entryAt_congr (entry_mergeChanges_of_same h hbefore hafter (by rw [hcontent, hcontent', same]))
  | @inside _ _ inner inner' name rest hinner hinner' same ih =>
    rw [← hcontent] at hinner
    rw [← hcontent'] at hinner'
    by_cases hequal : inner = inner'
    · rw [← hfound]
      exact entryAt_congr (entry_mergeChanges_of_same h hbefore hafter (by rw [hinner, hinner', hequal]))
    cases rest with
    | nil => cases same
    | cons next rest =>
    obtain ⟨table, htable, hrest⟩ := Option.bind_eq_some_iff.mp hfound
    obtain ⟨⟨key, item⟩, hentry, hitem⟩ := Option.bind_eq_some_iff.mp htable
    obtain ⟨previous, value, _, _, hprevious, hwritten, hvalue, hwritten', hmerged⟩ :=
      entry_mergeChanges_of_tables h hbefore hafter hequal hinner hinner' hentry hitem
    obtain ⟨_, htableLike⟩ := shown_of_asTableLike hitem
    rw [entryAt, hmerged, Option.bind_some, (htableLike _).2.1, Option.bind_some]
    exact ih hprevious hvalue hrest hwritten hwritten'

/-- **A file that is rendered is patched**, and each key whose value is the same in both serializations keeps its text. -/
theorem render_patches (h : Consistent crates leaf) {next saved : Content S} {disk text : Text}
    (hnextProper : (Data.ofContent next).Proper) (hsavedProper : (Data.ofContent saved).Proper)
    (hrender : render crates (.ofContent next) (.ofContent saved) (some disk) = .ok text) :
    ∃ document merged read, crates.parse disk = .ok document ∧ text = crates.print merged ∧ crates.parse text = .ok read ∧
      (∀ name : String, Patched (content document)[name]? saved[name]? next[name]? (content read)[name]?) ∧
      ∀ path found, SameAt saved next path → entryAt path document = some found → entryAt path merged = some found := by
  obtain ⟨nextText, hnext, hrender⟩ := Act.except_bind_eq_ok.mp hrender
  obtain ⟨document, hdocument, hrender⟩ := Act.except_bind_eq_ok.mp hrender
  obtain ⟨savedText, hsaved, hrender⟩ := Act.except_bind_eq_ok.mp hrender
  obtain ⟨before, hbefore, hrender⟩ := Act.except_bind_eq_ok.mp hrender
  obtain ⟨after, hafter, hrender⟩ := Act.except_bind_eq_ok.mp hrender
  obtain ⟨_, hparse, hbeforeContent, hbeforePrinted⟩ := h.pretty hsavedProper hsaved
  obtain rfl := Except.ok.inj (hbefore.symm.trans hparse)
  obtain ⟨_, hparse', hafterContent, hafterPrinted⟩ := h.pretty hnextProper hnext
  obtain rfl := Except.ok.inj (hafter.symm.trans hparse')
  obtain ⟨read, hread, hreadContent⟩ := h.print (mergeChanges crates.display false document before after)
  obtain rfl := Except.ok.inj hrender
  refine ⟨document, _, read, hdocument, rfl, hread, fun name => ?_, fun path found hsame hfound => ?_⟩
  · obtain ⟨hnodup, heach⟩ := hafterPrinted.of_table h
    rw [hreadContent, ← hbeforeContent, ← hafterContent]
    exact patched_mergeChanges_of hnodup (hbeforePrinted.of_table h).2 (fun entry hmem => (heach entry hmem).patches h)
      false document name
  · rw [← hbeforeContent, ← hafterContent] at hsame
    exact entryAt_mergeChanges h hbeforePrinted hafterPrinted hsame hfound

end Patched

/-! ## Texts that are trees -/

section Trees

mutual

/-- A value as the printer writes it. -/
def valueOf : Data S → Item S
  | .scalar value => .scalar value none .none
  | .array items => .array (valuesOf items) "" .none
  | .table fields => .inlineTable (inlineOf fields) false "" .none

def valuesOf : List (Data S) → List (Item S)
  | [] => []
  | data :: rest => valueOf data :: valuesOf rest

def inlineOf : List (String × Data S) → List (Key × Item S)
  | [] => []
  | (name, data) :: rest => (.new name, valueOf data) :: inlineOf rest

end

mutual

/-- A table as the printer writes it, with the tables in it. -/
def treeOf : Data S → Item S
  | .table fields => .table (entriesOf fields) .new
  | .scalar value => valueOf (.scalar value)
  | .array items => valueOf (.array items)

def entriesOf : List (String × Data S) → List (Key × Item S)
  | [] => []
  | (name, data) :: rest => (.new name, treeOf data) :: entriesOf rest

end

/-- Crates to which a text is its own tree. -/
def treeCrates : Crates S (Entries S) where
  parse := .ok
  print := id
  display item := [(.new "", item)]
  toStringPretty
    | .table fields => .ok (entriesOf fields)
    | _ => .error "unsupported type"

theorem inlineOf_eq_map (fields : List (String × Data S)) :
    inlineOf fields = fields.map fun field => (.new field.1, valueOf field.2) := by
  induction fields with
  | nil => rfl
  | cons field rest ih => rw [inlineOf, ih]; rfl

theorem entriesOf_eq_map (fields : List (String × Data S)) :
    entriesOf fields = fields.map fun field => (.new field.1, treeOf field.2) := by
  induction fields with
  | nil => rfl
  | cons field rest ih => rw [entriesOf, ih]; rfl

theorem entry_map (f : Data S → Item S) (fields : List (String × Data S)) (name : String) :
    entry name (fields.map fun field => (Key.new field.1, f field.2)) = (fields.lookup name).map fun data => (.new name, f data) := by
  induction fields with
  | nil => rfl
  | cons field rest ih =>
    rw [List.map_cons, entry_cons, ih]
    by_cases heq : field.1 = name
    · subst heq
      rw [if_pos (show (Key.new field.1).name = field.1 from rfl), List.lookup_cons_self]
      rfl
    · rw [if_neg (show ¬ (Key.new field.1).name = name from heq), lookup_cons_of_ne (Ne.symm heq)]

/-- The members of a table, each written in a way that says it. -/
theorem content_map {f : Data S → Item S} {written : Content S}
    (h : ∀ (name : String) (data : Data S), written[name]? = some data → (f data).shown = some data) :
    content (written.toList.map fun field => (Key.new field.1, f field.2)) = written := by
  refine Std.ExtTreeMap.ext_getElem? fun name => ?_
  rw [getElem?_content, get, entry_map, lookup_toList]
  cases hdata : written[name]? with
  | none => rfl
  | some data => exact h name data hdata

theorem shownItems_valuesOf {items : List (Data S)} (h : ∀ data ∈ items, (valueOf data).shown = some data) :
    shownItems (valuesOf items) = items := by
  induction items with
  | nil => rfl
  | cons first rest ih =>
    obtain ⟨hfirst, hrest⟩ := List.forall_mem_cons.mp h
    rw [valuesOf, shownItems, hfirst, ih hrest]

theorem shown_valueOf {data : Data S} (h : data.Proper) : (valueOf data).shown = some data := by
  induction h with
  | scalar => rfl
  | array _ ih => rw [valueOf, Item.shown, shownItems_valuesOf ih]
  | @ofContent written _ ih =>
    rw [Data.ofContent, valueOf, Item.shown, inlineOf_eq_map, content_map ih]
    rfl

/-- **What the printer writes is printed from its data.** -/
theorem printed_treeOf {data : Data S} (h : data.Proper) :
    Printed valueOf (treeOf data) ∧ (treeOf data).shown = some data := by
  induction h with
  | scalar value => exact ⟨.leaf ⟨.scalar value, nofun⟩, rfl⟩
  | array each => exact ⟨.leaf ⟨.array each, nofun⟩, shown_valueOf (.array each)⟩
  | @ofContent written _ ih =>
    have hnames : ((entriesOf written.toList).map (·.1.name)).Nodup := by
      have hkeys : (entriesOf written.toList).map (·.1.name) = written.toList.map Prod.fst := by
        rw [entriesOf_eq_map, List.map_map]
        rfl
      rw [hkeys, Std.ExtTreeMap.map_fst_toList_eq_keys]
      exact Std.ExtTreeMap.nodup_keys
    refine ⟨.table hnames (fun _ => rfl) fun entry hmem => ?_, ?_⟩
    · rw [entriesOf_eq_map] at hmem
      obtain ⟨field, hfield, rfl⟩ := List.mem_map.mp hmem
      exact (ih field.1 field.2 (Std.ExtTreeMap.mem_toList_iff_getElem?_eq_some.mp hfield)).1
    · rw [Data.ofContent, treeOf, Item.shown, entriesOf_eq_map, content_map fun name data hdata => (ih name data hdata).2]
      rfl

theorem treeCrates_consistent [DecidableEq (Entries S)] : Consistent (treeCrates (S := S)) valueOf where
  print entries := ⟨entries, rfl, rfl⟩
  pretty {written text} hproper htext := by
    obtain ⟨hprinted, hshown⟩ := printed_treeOf hproper
    obtain rfl := Except.ok.inj htext
    refine ⟨_, rfl, ?_, hprinted⟩
    exact Data.ofContent_injective (eq_of_hide_eq_some hshown).symm
  display hdata hother heq := by
    have hvalue := (Prod.mk.inj (List.cons.inj heq).1).2
    have hshown := shown_valueOf hdata.proper
    rw [hvalue, shown_valueOf hother.proper] at hshown
    exact (Option.some.inj hshown).symm
  shown {data} hdata := by
    refine ⟨shown_valueOf hdata.proper, ?_⟩
    rw [← shown_valueOf hdata.proper]
    cases data <;> rfl

end Trees

end Zflow.Settings.Toml
