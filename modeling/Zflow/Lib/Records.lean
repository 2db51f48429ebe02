import Mathlib.Logic.Equiv.Defs
import Std.Data.ExtTreeMap.Lemmas
import Zflow.Lib.Walks

/-!
# Records in keyed data, and what patching them keeps

Data that describes itself is scalars, arrays and tables. A `Shape` reads and writes a value as data; a `Member` does so under
a name of a table, where the name may be missing: a value left out is read as its default. `Fields` are a record's members.

`Patched` is a three-way merge: a target is changed where two other trees, both *written*, differ. A target need not look
as it would be written: names may be missing, and a table may stand in another shape. The law of a shape (`Lawful`) says
that all the same the patched target reads as the value that the second tree was written from.
-/

namespace Zflow.Lib

inductive Data (S : Type) where
  | scalar (scalar : S)
  | array (items : List (Data S))
  | table (fields : List (String × Data S))

variable {S α β : Type}

theorem lookup_cons_of_ne {name first : String} {data : α} {rest : List (String × α)} (h : name ≠ first) :
    List.lookup name ((first, data) :: rest) = rest.lookup name := by
  rw [List.lookup_cons, beq_false_of_ne h]

/-- A table's content. -/
abbrev Content (S : Type) : Type := Std.ExtTreeMap String (Data S)

/-- The table, in the order of its names. -/
def Data.ofContent (content : Content S) : Data S := .table content.toList

theorem lookup_toList (content : Content S) (name : String) : content.toList.lookup name = content[name]? := by
  cases hget : content[name]? with
  | none =>
    refine List.lookup_eq_none_iff.mpr fun entry hmem => ?_
    have hentry := Std.ExtTreeMap.mem_toList_iff_getElem?_eq_some.mp hmem
    rw [bne_iff_ne]
    rintro rfl
    rw [hget] at hentry
    cases hentry
  | some data =>
    have hmem := Std.ExtTreeMap.mem_toList_iff_getElem?_eq_some.mpr hget
    cases hlookup : content.toList.lookup name with
    | none => exact absurd (List.lookup_eq_none_iff.mp hlookup _ hmem) (by simp)
    | some found =>
      obtain ⟨first, last, heq, -⟩ := List.lookup_eq_some_iff.mp hlookup
      have hfound : (name, found) ∈ content.toList := by
        rw [heq]
        exact List.mem_append_right _ List.mem_cons_self
      rw [Std.ExtTreeMap.mem_toList_iff_getElem?_eq_some, hget] at hfound
      rw [Option.some.inj hfound]

theorem Data.ofContent_injective : Function.Injective (Data.ofContent (S := S)) := fun _ _ heq =>
  Std.ExtTreeMap.toList_inj.mp (Data.table.inj heq)

/-- All of its tables are in the order of their names. -/
inductive Data.Proper : Data S → Prop
  | scalar (scalar : S) : Proper (.scalar scalar)
  | array {items : List (Data S)} (each : ∀ data ∈ items, Proper data) : Proper (.array items)
  | ofContent {content : Content S} (each : ∀ (name : String) (data : Data S), content[name]? = some data → Proper data) :
    Proper (.ofContent content)

/-! ## Patching -/

/-- **A target patched**: it stays where the two written trees agree, takes what is written instead, or is a table whose
members are patched. A table left without members may be left out. -/
inductive Patched : Option (Data S) → Option (Data S) → Option (Data S) → Option (Data S) → Prop
  | kept (target value) : Patched target value value target
  | set (target before after) : Patched target before after after
  | inside {target} {fields before after result : Content S}
    (htarget : target = some (.ofContent fields) ∨ target = none ∧ fields = ∅)
    (each : ∀ name : String, Patched fields[name]? before[name]? after[name]? result[name]?) :
    Patched target (some (.ofContent before)) (some (.ofContent after)) (some (.ofContent result))
  | emptied {target} {fields before after : Content S}
    (htarget : target = some (.ofContent fields) ∨ target = none ∧ fields = ∅)
    (each : ∀ name : String, Patched fields[name]? before[name]? after[name]? none) :
    Patched target (some (.ofContent before)) (some (.ofContent after)) none

/-- What neither written tree has stays as it was, or is not there. -/
theorem Patched.of_none {target result : Option (Data S)} (h : Patched target none none result) :
    result = target ∨ result = none := by
  cases h with
  | kept => exact .inl rfl
  | set => exact .inr rfl

/-- What only the second tree has is there. -/
theorem Patched.of_added {result : Option (Data S)} {data : Data S} (h : Patched none none (some data) result) :
    result = some data := by
  cases h
  rfl

/-- What only the first tree has is not there any more. -/
theorem Patched.of_removed {target result : Option (Data S)} {data : Data S} (h : Patched target (some data) none result) :
    result = none := by
  cases h
  rfl

/-! ## Shapes -/

/-- How a value is read and written. -/
structure Shape (S α : Type) where
  read : Data S → Option α
  write : α → Data S

/-- **What a shape owes**: it reads what it writes, reads only what can be written, and reads a patched table as the value
written second. -/
structure Shape.Lawful (shape : Shape S α) (Valid : α → Prop) : Prop where
  write_proper : ∀ a, (shape.write a).Proper
  read_write : ∀ {a}, Valid a → shape.read (shape.write a) = some a
  read_valid : ∀ {data a}, shape.read data = some a → Valid a
  inside : ∀ {fields before after result : Content S} {a b}, shape.write a = .ofContent before →
    shape.write b = .ofContent after → shape.read (.ofContent fields) = some a → Valid b →
    (∀ name : String, Patched fields[name]? before[name]? after[name]? result[name]?) →
    shape.read (.ofContent result) = some b

/-- The value is never written as a table. -/
def Shape.Flat (shape : Shape S α) : Prop := ∀ a content, shape.write a ≠ .ofContent content

/-- A shape that writes no tables is patched as a whole. -/
theorem Shape.Lawful.of_flat {shape : Shape S α} {Valid : α → Prop} (hflat : shape.Flat)
    (hproper : ∀ a, (shape.write a).Proper) (hwrite : ∀ {a}, Valid a → shape.read (shape.write a) = some a)
    (hvalid : ∀ {data a}, shape.read data = some a → Valid a) : shape.Lawful Valid where
  write_proper := hproper
  read_write := hwrite
  read_valid := hvalid
  inside hbefore := absurd hbefore (hflat _ _)

theorem Shape.Lawful.write_injective {shape : Shape S α} {Valid : α → Prop} (h : shape.Lawful Valid) {a b : α}
    (ha : Valid a) (hb : Valid b) (heq : shape.write a = shape.write b) : a = b := by
  have hread := h.read_write ha
  rw [heq, h.read_write hb] at hread
  exact (Option.some.inj hread).symm

/-! ## Members -/

/-- How a value is read and written where it may be left out. -/
structure Member (S α : Type) where
  read : Option (Data S) → Option α
  write : α → Option (Data S)

structure Member.Lawful (member : Member S α) (Valid : α → Prop) : Prop where
  write_proper : ∀ {a data}, member.write a = some data → data.Proper
  read_write : ∀ {a}, Valid a → member.read (member.write a) = some a
  read_valid : ∀ {data a}, member.read data = some a → Valid a
  patched : ∀ {target result a b}, Patched target (member.write a) (member.write b) result →
    member.read target = some a → Valid b → member.read result = some b

namespace Shape

variable (shape : Shape S α)

/-- It must be there. -/
def required : Member S α where
  read data := data.bind shape.read
  write a := some (shape.write a)

/-- What is missing is the default. -/
def orDefault (default : α) : Member S α where
  read
    | none => some default
    | some data => shape.read data
  write a := some (shape.write a)

/-- The default is left out. -/
def skipping [DecidableEq α] (default : α) : Member S α where
  read
    | none => some default
    | some data => shape.read data
  write a := if a = default then none else some (shape.write a)

/-- What is missing is nothing, and nothing is left out. -/
def optional : Member S (Option α) where
  read
    | none => some none
    | some data => (shape.read data).map some
  write a := a.map shape.write

end Shape

section Laws

variable {shape : Shape S α} {Valid : α → Prop} {default : α}

/-- A member that writes no tables is patched as a whole. -/
theorem Member.Lawful.of_flat {member : Member S α} (hflat : ∀ a content, member.write a ≠ some (.ofContent content))
    (hproper : ∀ {a data}, member.write a = some data → data.Proper)
    (hwrite : ∀ {a}, Valid a → member.read (member.write a) = some a)
    (hvalid : ∀ {data a}, member.read data = some a → Valid a) : member.Lawful Valid where
  write_proper := hproper
  read_write := hwrite
  read_valid := hvalid
  patched {target result a b} h hread hb := by
    generalize hbefore : member.write a = before at h
    generalize hafter : member.write b = after at h
    cases h with
    | kept => rw [hread, ← hwrite (hvalid hread), ← hwrite hb, hbefore, hafter]
    | set => rw [← hafter, hwrite hb]
    | inside => exact absurd hbefore (hflat _ _)
    | emptied => exact absurd hbefore (hflat _ _)

theorem Shape.Lawful.required (h : shape.Lawful Valid) (hflat : shape.Flat) : shape.required.Lawful Valid := by
  refine .of_flat (fun a content heq => hflat a content (Option.some.inj heq)) (fun heq => ?_) (fun ha => h.read_write ha) ?_
  · exact Option.some.inj heq ▸ h.write_proper _
  intro data a hread
  obtain ⟨_, -, hread⟩ := Option.bind_eq_some_iff.mp hread
  exact h.read_valid hread

theorem Shape.Lawful.orDefault (h : shape.Lawful Valid) (hflat : shape.Flat) (hdefault : Valid default) :
    (shape.orDefault default).Lawful Valid := by
  refine .of_flat (fun a content heq => hflat a content (Option.some.inj heq)) (fun heq => ?_) (fun ha => h.read_write ha) ?_
  · exact Option.some.inj heq ▸ h.write_proper _
  intro data a hread
  cases data with
  | none => exact Option.some.inj hread ▸ hdefault
  | some data => exact h.read_valid hread

theorem Shape.Lawful.skipping [DecidableEq α] (h : shape.Lawful Valid) (hflat : shape.Flat) (hdefault : Valid default) :
    (shape.skipping default).Lawful Valid := by
  have hwrite : ∀ {a data}, (shape.skipping default).write a = some data → shape.write a = data := by
    intro a data heq
    by_cases ha : a = default
    · simp [Shape.skipping, ha] at heq
    · simpa [Shape.skipping, ha] using heq
  refine .of_flat (fun a content heq => hflat a content (hwrite heq)) (fun heq => ?_) (fun {a} ha => ?_) ?_
  · exact hwrite heq ▸ h.write_proper _
  · by_cases heq : a = default
    · simp [Shape.skipping, heq]
    · simpa [Shape.skipping, heq] using h.read_write ha
  · intro data a hread
    cases data with
    | none => exact Option.some.inj hread ▸ hdefault
    | some data => exact h.read_valid hread

theorem Shape.Lawful.optional (h : shape.Lawful Valid) (hflat : shape.Flat) :
    shape.optional.Lawful fun value => ∀ a ∈ value, Valid a := by
  refine .of_flat (fun value content heq => ?_) (fun heq => ?_) (fun {value} hvalue => ?_) ?_
  · obtain ⟨a, -, heq⟩ := Option.map_eq_some_iff.mp heq
    exact hflat a content heq
  · obtain ⟨a, -, rfl⟩ := Option.map_eq_some_iff.mp heq
    exact h.write_proper a
  · cases value with
    | none => rfl
    | some a => exact congrArg (Option.map some) (h.read_write (hvalue a rfl))
  · intro data value hread a ha
    cases data with
    | none => cases hread; cases ha
    | some data =>
      obtain ⟨b, hb, rfl⟩ := Option.map_eq_some_iff.mp hread
      cases ha
      exact h.read_valid hb

/-- **A patched value reads as the one written second**, where a missing one is read as an empty table. -/
theorem Shape.Lawful.patched (h : shape.Lawful Valid) {target result : Option (Data S)} {a b : α}
    (hpatched : Patched target (some (shape.write a)) (some (shape.write b)) result)
    (hread : shape.read (target.getD (.ofContent ∅)) = some a) (hb : Valid b) :
    shape.read (result.getD (.ofContent ∅)) = some b := by
  have hfields : ∀ {fields : Content S}, target = some (.ofContent fields) ∨ target = none ∧ fields = ∅ →
      shape.read (.ofContent fields) = some a := by
    rintro fields (rfl | ⟨rfl, rfl⟩) <;> exact hread
  generalize hbefore : shape.write a = before at hpatched
  generalize hafter : shape.write b = after at hpatched
  cases hpatched with
  | kept =>
    rw [hread, h.write_injective (h.read_valid hread) hb (hbefore.trans hafter.symm)]
  | set =>
    rw [← hafter]
    exact h.read_write hb
  | inside htarget each => exact h.inside hbefore hafter (hfields htarget) hb each
  | emptied htarget each =>
    refine h.inside hbefore hafter (hfields htarget) hb fun name => ?_
    rw [Std.ExtTreeMap.getElem?_empty]
    exact each name

/-- **A table that may be left out**, where an empty one reads as the default. -/
theorem Shape.Lawful.orDefault_of_empty (h : shape.Lawful Valid)
    (hempty : shape.read (.ofContent ∅) = some default) : (shape.orDefault default).Lawful Valid := by
  have hread : ∀ data, (shape.orDefault default).read data = shape.read (data.getD (.ofContent ∅)) := by
    rintro (_ | data)
    · exact hempty.symm
    · rfl
  constructor
  case write_proper => exact fun heq => Option.some.inj heq ▸ h.write_proper _
  case read_write => exact fun ha => h.read_write ha
  case read_valid =>
    intro data a ha
    rw [hread] at ha
    exact h.read_valid ha
  case patched =>
    intro target result a b hpatched ha hb
    rw [hread] at ha ⊢
    exact h.patched hpatched ha hb

end Laws

/-! ## Fields -/

/-- A record's members: their names, and how they are read by name, read one after the other, and written. -/
structure Fields (S α : Type) where
  names : List String
  read : (String → Option (Data S)) → Option α
  /-- From an array. What follows is not looked at. -/
  readSeq : List (Data S) → Option α
  write : α → String → Option (Data S)

namespace Fields

def nil : Fields S Unit where
  names := []
  read _ := some ()
  readSeq _ := some ()
  write _ _ := none

def cons (name : String) (member : Member S α) (rest : Fields S β) : Fields S (α × β) where
  names := name :: rest.names
  read get := do return (← member.read (get name), ← rest.read get)
  readSeq items := do return (← member.read items.head?, ← rest.readSeq items.tail)
  write value asked := if asked = name then member.write value.1 else rest.write value.2 asked

@[simp] theorem names_nil : (nil : Fields S Unit).names = [] := rfl
@[simp] theorem names_cons (name : String) (member : Member S α) (rest : Fields S β) :
    (cons name member rest).names = name :: rest.names := rfl

/-- The members of a structure. -/
def map (fields : Fields S α) (e : α ≃ β) : Fields S β where
  names := fields.names
  read get := (fields.read get).map e
  readSeq items := (fields.readSeq items).map e
  write value := fields.write (e.symm value)

structure Lawful (fields : Fields S α) (Valid : α → Prop) : Prop where
  write_proper : ∀ {a name data}, fields.write a name = some data → data.Proper
  read_write : ∀ {a}, Valid a → fields.read (fields.write a) = some a
  read_congr : ∀ {get get'}, (∀ name ∈ fields.names, get name = get' name) → fields.read get = fields.read get'
  read_valid : ∀ {get a}, fields.read get = some a → Valid a
  readSeq_valid : ∀ {items a}, fields.readSeq items = some a → Valid a
  patched : ∀ {target result : String → Option (Data S)} {a b},
    (∀ name ∈ fields.names, Patched (target name) (fields.write a name) (fields.write b name) (result name)) →
    fields.read target = some a → Valid b → fields.read result = some b

theorem Lawful.nil : (nil : Fields S Unit).Lawful fun _ => True where
  write_proper heq := nomatch heq
  read_write _ := rfl
  read_congr _ := rfl
  read_valid _ := trivial
  readSeq_valid _ := trivial
  patched _ _ _ := rfl

section Laws

variable {name : String} {member : Member S α} {rest : Fields S β} {fields : Fields S α}
variable {Valid : α → Prop} {Valid' : β → Prop}

theorem read_cons_eq_some {get : String → Option (Data S)} {value : α × β} :
    (cons name member rest).read get = some value ↔ member.read (get name) = some value.1 ∧ rest.read get = some value.2 := by
  obtain ⟨a, b⟩ := value
  simp [cons, Option.bind_eq_some_iff]

theorem Lawful.cons (hname : name ∉ rest.names) (hmember : member.Lawful Valid) (hrest : rest.Lawful Valid') :
    (cons name member rest).Lawful fun value => Valid value.1 ∧ Valid' value.2 := by
  -- the first name is not a later one's
  have hlater : ∀ value : α × β, ∀ other ∈ rest.names,
      (Fields.cons name member rest).write value other = rest.write value.2 other := by
    intro value other hmem
    have hne : other ≠ name := fun heq => hname (heq ▸ hmem)
    exact if_neg hne
  have hfirst : ∀ value : α × β, (Fields.cons name member rest).write value name = member.write value.1 := fun value =>
    if_pos rfl
  constructor
  case write_proper =>
    intro value other data heq
    simp only [Fields.cons] at heq
    split at heq
    · exact hmember.write_proper heq
    · exact hrest.write_proper heq
  case read_write =>
    intro value hvalue
    refine read_cons_eq_some.mpr ⟨?_, ?_⟩
    · rw [hfirst, hmember.read_write hvalue.1]
    · rw [hrest.read_congr (hlater value), hrest.read_write hvalue.2]
  case read_congr =>
    intro get get' hget
    have hhead := hget name List.mem_cons_self
    have htail := hrest.read_congr fun other hmem => hget other (List.mem_cons_of_mem _ hmem)
    simp only [Fields.cons, hhead, htail]
  case read_valid =>
    intro get value hread
    obtain ⟨hhead, htail⟩ := read_cons_eq_some.mp hread
    exact ⟨hmember.read_valid hhead, hrest.read_valid htail⟩
  case readSeq_valid =>
    rintro items ⟨a, b⟩ hread
    simp only [Fields.cons, Option.bind_eq_bind, Option.bind_eq_some_iff, Option.pure_def, Option.some.injEq,
      Prod.mk.injEq] at hread
    obtain ⟨_, hhead, _, htail, rfl, rfl⟩ := hread
    exact ⟨hmember.read_valid hhead, hrest.readSeq_valid htail⟩
  case patched =>
    intro target result value after hpatched hread hvalid
    obtain ⟨hhead, htail⟩ := read_cons_eq_some.mp hread
    have hone := hpatched name List.mem_cons_self
    rw [hfirst, hfirst] at hone
    refine read_cons_eq_some.mpr ⟨hmember.patched hone hhead hvalid.1, hrest.patched (fun other hmem => ?_) htail hvalid.2⟩
    have hother := hpatched other (List.mem_cons_of_mem _ hmem)
    rwa [hlater value other hmem, hlater after other hmem] at hother

theorem Lawful.of_iff {Other : α → Prop} (h : fields.Lawful Valid) (hiff : ∀ a, Other a ↔ Valid a) :
    fields.Lawful Other := by
  obtain rfl : Other = Valid := funext fun a => propext (hiff a)
  exact h

theorem Lawful.map (h : fields.Lawful Valid) (e : α ≃ β) : (fields.map e).Lawful fun b => Valid (e.symm b) where
  write_proper heq := h.write_proper heq
  read_write hb := by simp [Fields.map, h.read_write hb]
  read_congr hget := congrArg (Option.map e) (h.read_congr hget)
  read_valid hread := by
    obtain ⟨a, ha, rfl⟩ := Option.map_eq_some_iff.mp hread
    simpa using h.read_valid ha
  readSeq_valid hread := by
    obtain ⟨a, ha, rfl⟩ := Option.map_eq_some_iff.mp hread
    simpa using h.readSeq_valid ha
  patched {target result b b'} hpatched hread hb' := by
    obtain ⟨a, ha, rfl⟩ := Option.map_eq_some_iff.mp hread
    have hafter : fields.read result = some (e.symm b') := by
      refine h.patched (fun name hmem => ?_) ha hb'
      have hname := hpatched name hmem
      simpa [Fields.map] using hname
    simp [Fields.map, hafter]

end Laws

/-! ### A record as a table -/

variable (fields : Fields S α)

/-- The members that are not left out. -/
def content (a : α) : Content S :=
  fields.names.foldr (fun name content => (fields.write a name).elim content (content.insert name)) ∅

/-- A record is a table that has only its members, or an array of them. -/
def shape : Shape S α where
  read
    | .table entries => if entries.all (·.1 ∈ fields.names) then fields.read fun name => entries.lookup name else none
    | .array items => fields.readSeq items
    | .scalar _ => none
  write a := .ofContent (fields.content a)

variable {fields}

theorem getElem?_content (a : α) (name : String) :
    (fields.content a)[name]? = if name ∈ fields.names then fields.write a name else none := by
  unfold content
  induction fields.names with
  | nil => simp
  | cons first names ih =>
    rw [List.foldr_cons]
    cases hwrite : fields.write a first with
    | none =>
      rw [Option.elim_none, ih]
      by_cases heq : name = first
      · subst heq
        simp [hwrite]
      · simp [heq]
    | some data =>
      rw [Option.elim_some, Std.ExtTreeMap.getElem?_insert, ih]
      by_cases heq : name = first
      · subst heq
        simp [hwrite]
      · simp [heq, Ne.symm heq]

/-- A table with no other names than a record's is read by name. -/
theorem read_shape_eq_some {content : Content S} {a : α} : fields.shape.read (.ofContent content) = some a ↔
    (∀ name, content[name]? ≠ none → name ∈ fields.names) ∧ fields.read (fun name => content[name]?) = some a := by
  have hall : content.toList.all (·.1 ∈ fields.names) = true ↔ ∀ name, content[name]? ≠ none → name ∈ fields.names := by
    rw [List.all_eq_true]
    constructor
    · intro h name hne
      obtain ⟨data, hdata⟩ := Option.ne_none_iff_exists'.mp hne
      exact of_decide_eq_true (h _ (Std.ExtTreeMap.mem_toList_iff_getElem?_eq_some.mpr hdata))
    · intro h entry hmem
      have hentry := Std.ExtTreeMap.mem_toList_iff_getElem?_eq_some.mp hmem
      exact decide_eq_true (h entry.1 (by rw [hentry]; nofun))
  have hread : fields.shape.read (.ofContent content) =
      if content.toList.all (·.1 ∈ fields.names) then fields.read fun name => content[name]? else none := by
    simp only [shape, Data.ofContent, lookup_toList]
  rw [hread, ← hall]
  split
  case isTrue hknown => exact ⟨fun h => ⟨hknown, h⟩, And.right⟩
  case isFalse hunknown => exact ⟨nofun, fun h => absurd h.1 hunknown⟩

/-- Of an empty table all members are missing. -/
theorem read_shape_empty : fields.shape.read (.ofContent ∅) = fields.read fun _ => none := by
  rw [Data.ofContent, show (∅ : Content S).toList = [] from rfl]
  rfl

/-- **A record's shape is lawful** where its members are. -/
theorem Lawful.shape {Valid : α → Prop} (h : fields.Lawful Valid) : fields.shape.Lawful Valid where
  write_proper a := .ofContent fun name data hdata => by
    rw [getElem?_content] at hdata
    split at hdata
    · exact h.write_proper hdata
    · cases hdata
  read_write {a} ha := by
    refine read_shape_eq_some.mpr ⟨fun name hne => ?_, ?_⟩
    · rw [getElem?_content] at hne
      by_contra hnot
      exact hne (if_neg hnot)
    · rw [← h.read_write ha]
      exact h.read_congr fun name hmem => by rw [getElem?_content, if_pos hmem]
  read_valid {data a} hread := by
    cases data with
    | scalar => cases hread
    | array items => exact h.readSeq_valid hread
    | table entries =>
      simp only [Fields.shape] at hread
      split at hread
      · exact h.read_valid hread
      · cases hread
  inside {target before after result a b} hbefore hafter hread hb hpatched := by
    obtain rfl := Data.ofContent_injective hbefore
    obtain rfl := Data.ofContent_injective hafter
    obtain ⟨hknown, hread⟩ := read_shape_eq_some.mp hread
    refine read_shape_eq_some.mpr ⟨fun name hne => ?_, h.patched (fun name hmem => ?_) hread hb⟩
    · by_contra hnot
      have hname := hpatched name
      rw [getElem?_content, getElem?_content, if_neg hnot, if_neg hnot] at hname
      rcases hname.of_none with hresult | hresult
      · exact hnot (hknown name (hresult ▸ hne))
      · exact hne hresult
    · have hname := hpatched name
      rwa [getElem?_content, getElem?_content, if_pos hmem, if_pos hmem] at hname

end Fields

/-! ## Maps and lists -/

namespace Shape

variable (shape : Shape S α)

def readEntries : List (String × Data S) → Option (Std.ExtTreeMap String α)
  | [] => some ∅
  | (name, data) :: rest => do
    let map ← readEntries rest
    return map.insert name (← shape.read data)

/-- A table of values of one kind, under any names. -/
def mapOf : Shape S (Std.ExtTreeMap String α) where
  read
    | .table entries => shape.readEntries entries
    | _ => none
  write map := .ofContent (map.map fun _ a => shape.write a)

/-- An array of values of one kind. -/
def listOf : Shape S (List α) where
  read
    | .array items => items.mapM shape.read
    | _ => none
  write items := .array (items.map shape.write)

variable {shape} {Valid : α → Prop}

theorem readEntries_eq_some {entries : List (String × Data S)} (hnodup : (entries.map Prod.fst).Nodup)
    {map : Std.ExtTreeMap String α} : shape.readEntries entries = some map ↔
      ∀ name : String, (entries.lookup name).map shape.read = map[name]?.map some := by
  induction entries generalizing map with
  | nil =>
    simp only [readEntries, Option.some.injEq, List.lookup_nil, Option.map_none]
    constructor
    · rintro rfl name
      simp
    · intro h
      refine Std.ExtTreeMap.ext_getElem? fun name => ?_
      rw [Std.ExtTreeMap.getElem?_empty, Option.map_eq_none_iff.mp (h name).symm]
  | cons entry rest ih =>
    obtain ⟨first, data⟩ := entry
    obtain ⟨hfirst, hrest⟩ := List.nodup_cons.mp hnodup
    have hlookup : rest.lookup first = none := List.lookup_eq_none_iff.mpr fun entry hmem => by
      rw [bne_iff_ne]
      rintro rfl
      exact hfirst (List.mem_map.mpr ⟨entry, hmem, rfl⟩)
    have hcons : shape.readEntries ((first, data) :: rest) = some map ↔
        ∃ before a, shape.readEntries rest = some before ∧ shape.read data = some a ∧ before.insert first a = map := by
      simp [readEntries, Option.bind_eq_some_iff]
    rw [hcons]
    constructor
    · rintro ⟨before, a, hbefore, hread, rfl⟩ name
      rw [Std.ExtTreeMap.getElem?_insert]
      by_cases heq : name = first
      · subst heq
        simp [hread]
      · rw [lookup_cons_of_ne heq, (ih hrest).mp hbefore name]
        simp [Ne.symm heq]
    · intro h
      have hhead := h first
      rw [List.lookup_cons_self] at hhead
      obtain ⟨a, hget, hread⟩ := Option.map_eq_some_iff.mp hhead.symm
      refine ⟨map.erase first, a, (ih hrest).mpr fun name => ?_, hread.symm, ?_⟩
      · rw [Std.ExtTreeMap.getElem?_erase]
        by_cases heq : name = first
        · subst heq
          simp [hlookup]
        · have hname := h name
          rw [lookup_cons_of_ne heq] at hname
          simpa [Ne.symm heq] using hname
      · refine Std.ExtTreeMap.ext_getElem? fun name => ?_
        rw [Std.ExtTreeMap.getElem?_insert, Std.ExtTreeMap.getElem?_erase]
        by_cases heq : name = first
        · subst heq
          simp [hget]
        · simp [Ne.symm heq]

/-- A map is read name by name. -/
theorem read_mapOf_eq_some {content : Content S} {map : Std.ExtTreeMap String α} :
    shape.mapOf.read (.ofContent content) = some map ↔
      ∀ name : String, content[name]?.map shape.read = map[name]?.map some := by
  have hnodup : (content.toList.map Prod.fst).Nodup := by
    rw [Std.ExtTreeMap.map_fst_toList_eq_keys]
    exact Std.ExtTreeMap.nodup_keys
  rw [show shape.mapOf.read (.ofContent content) = shape.readEntries content.toList from rfl, readEntries_eq_some hnodup]
  simp only [lookup_toList]

theorem read_mapOf_empty : shape.mapOf.read (.ofContent ∅) = some ∅ := by
  rw [Data.ofContent, show (∅ : Content S).toList = [] from rfl]
  rfl

theorem Lawful.readEntries_valid (h : shape.Lawful Valid) {entries : List (String × Data S)}
    {map : Std.ExtTreeMap String α} (hread : shape.readEntries entries = some map) (name : String) (a : α)
    (ha : map[name]? = some a) : Valid a := by
  induction entries generalizing map with
  | nil =>
    cases hread
    simp at ha
  | cons entry rest ih =>
    obtain ⟨first, data⟩ := entry
    simp only [readEntries, Option.bind_eq_bind, Option.bind_eq_some_iff, Option.pure_def, Option.some.injEq] at hread
    obtain ⟨before, hbefore, b, hb, rfl⟩ := hread
    rw [Std.ExtTreeMap.getElem?_insert] at ha
    split at ha
    · cases ha
      exact h.read_valid hb
    · exact ih hbefore ha

/-- **A map's shape is lawful** where its values' is, and no value is an empty table. -/
theorem Lawful.mapOf (h : shape.Lawful Valid) (hempty : shape.read (.ofContent ∅) = none) :
    shape.mapOf.Lawful fun map => ∀ (name : String) (a : α), map[name]? = some a → Valid a := by
  have hwrite : ∀ (map : Std.ExtTreeMap String α) (name : String),
      (map.map fun _ a => shape.write a)[name]? = map[name]?.map shape.write := fun map name =>
    Std.ExtTreeMap.getElem?_map
  constructor
  case write_proper =>
    intro map
    refine .ofContent fun name data hdata => ?_
    rw [hwrite] at hdata
    obtain ⟨a, -, rfl⟩ := Option.map_eq_some_iff.mp hdata
    exact h.write_proper a
  case read_write =>
    intro map hmap
    refine read_mapOf_eq_some.mpr fun name => ?_
    rw [hwrite, Option.map_map]
    refine Option.map_congr fun a ha => h.read_write (hmap name a ha)
  case read_valid =>
    intro data map hread
    cases data with
    | table entries => exact h.readEntries_valid hread
    | scalar => cases hread
    | array => cases hread
  case inside =>
    intro fields before after result x y hbefore hafter hread hvalid hpatched
    obtain rfl := Data.ofContent_injective hbefore
    obtain rfl := Data.ofContent_injective hafter
    have hfields := read_mapOf_eq_some.mp hread
    refine read_mapOf_eq_some.mpr fun name => ?_
    have hname := hpatched name
    have hfield := hfields name
    rw [hwrite, hwrite] at hname
    cases hx : x[name]? with
    | none =>
      rw [hx] at hname hfield
      have hnone := Option.map_eq_none_iff.mp hfield
      rw [hnone] at hname
      cases hy : y[name]? with
      | none =>
        rw [hy] at hname
        rw [hname.of_none.elim id id]
        rfl
      | some b =>
        rw [hy] at hname
        rw [hname.of_added]
        exact congrArg some (h.read_write (hvalid name b hy))
    | some a =>
      rw [hx] at hname hfield
      obtain ⟨data, hdata, hread⟩ := Option.map_eq_some_iff.mp hfield
      rw [hdata] at hname
      cases hy : y[name]? with
      | none =>
        rw [hy] at hname
        rw [hname.of_removed]
        rfl
      | some b =>
        rw [hy] at hname
        have hafter := h.patched hname hread (hvalid name b hy)
        cases hresult : result[name]? with
        | none =>
          rw [hresult] at hafter
          cases hempty.symm.trans hafter
        | some data =>
          rw [hresult] at hafter
          exact congrArg some hafter

theorem Lawful.mapM_valid (h : shape.Lawful Valid) {items : List (Data S)} {values : List α}
    (hread : List.Forall₂ (fun data a => shape.read data = some a) items values) : ∀ a ∈ values, Valid a := by
  induction hread with
  | nil => exact fun a ha => absurd ha List.not_mem_nil
  | cons hhead _ ih => exact List.forall_mem_cons.mpr ⟨h.read_valid hhead, ih⟩

theorem Lawful.listOf (h : shape.Lawful Valid) : shape.listOf.Lawful fun items => ∀ a ∈ items, Valid a := by
  refine .of_flat (fun _ _ heq => nomatch heq) (fun items => .array fun data hmem => ?_) (fun {items} hitems => ?_)
    (fun {data items} hread => ?_)
  · obtain ⟨a, -, rfl⟩ := List.mem_map.mp hmem
    exact h.write_proper a
  · refine mapM_eq_some.mpr (List.forall₂_map_left_iff.mpr (List.forall₂_same.mpr fun a ha => ?_))
    exact h.read_write (hitems a ha)
  · cases data with
    | array => exact h.mapM_valid (mapM_eq_some.mp hread)
    | scalar => cases hread
    | table => cases hread

theorem listOf_flat : shape.listOf.Flat := fun _ _ heq => nomatch heq

end Shape

end Zflow.Lib
