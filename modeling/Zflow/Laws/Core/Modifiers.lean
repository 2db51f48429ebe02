import Zflow.Laws.Core.Keymap

/-!
# The modifiers a key press finds down

A key press that no binding takes first makes the injected modifiers exactly the wanted ones
(`mem_setModifiers`), and only then injects its own key. So at the moment an ordinary key goes down the
modifiers in effect are a matter of the keys held and of the row that matched (`pressKey_split`),
whatever chords came before.
-/

namespace Zflow.Core

open Lib

/-- A part that holds none of what a split points at lies before it. -/
theorem split_append {α : Type} {p : α → Prop} {xs ys before after : List α} {x : α}
    (hxs : ∀ y ∈ xs, ¬ p y) (hx : p x) (h : xs ++ ys = before ++ x :: after) :
    ∃ middle, before = xs ++ middle ∧ ys = middle ++ x :: after := by
  rcases List.append_eq_append_iff.mp h with ⟨middle, hbefore, hys⟩ | ⟨rest, hrest, hafter⟩
  · exact ⟨middle, hbefore, hys⟩
  · cases rest with
    | nil => exact ⟨[], by simpa using hrest.symm, by simpa using hafter.symm⟩
    | cons y rest =>
      obtain ⟨rfl, -⟩ := List.cons.inj hafter
      exact absurd hx (hxs x (hrest ▸ List.mem_append_right before (.head _)))

namespace Keymap

/-- The chord an action presses: its modifiers, those the key owns, and the key that goes out. -/
def Action.chord : Action → Option (List HidUsage × List HidUsage × Out)
  | .press mods output => some (mods, [], output)
  | .pressWith mods keyMods output => some (mods, keyMods, output)
  | .hold mods output => some (mods, [], output)
  | .tap _ => none
  | .block => none

/-- What a rule presses beside its key are modifiers. -/
def Rule.tidy (rule : Rule) : Bool :=
  match rule.action with
  | .press mods _ => mods.all isModifier
  | .pressWith mods keyMods _ => mods.all isModifier && keyMods.all isModifier
  | .hold mods _ => mods.all isModifier
  | .tap output => isModifier output
  | .block => true

theorem rules_tidy : rules.all Rule.tidy = true := by decide

theorem Rule.tidy_chord {rule : Rule} (htidy : rule.tidy = true) {mods keyMods : List HidUsage}
    {output : Out} (hchord : rule.action.chord = some (mods, keyMods, output)) :
    (∀ u ∈ mods, isModifier u = true) ∧ ∀ u ∈ keyMods, isModifier u = true := by
  unfold Rule.tidy at htidy
  cases haction : rule.action with
  | press mods' output' =>
    rw [haction] at hchord htidy
    cases hchord
    exact ⟨List.all_eq_true.mp htidy, by simp⟩
  | pressWith mods' keyMods' output' =>
    rw [haction] at hchord htidy
    cases hchord
    obtain ⟨hmods, hkeyMods⟩ := Bool.and_eq_true_iff.mp htidy
    exact ⟨List.all_eq_true.mp hmods, List.all_eq_true.mp hkeyMods⟩
  | hold mods' output' =>
    rw [haction] at hchord htidy
    cases hchord
    exact ⟨List.all_eq_true.mp htidy, by simp⟩
  | tap output' =>
    rw [haction] at hchord
    cases hchord
  | block =>
    rw [haction] at hchord
    cases hchord

end Keymap

namespace KeyRemap

open Keymap (modifierClass defaultOutput)

variable {r : KeyRemap} {output owner usage key : HidUsage} {consumed : UInt8}
  {mods keyMods : List HidUsage}

/-! ## Who keeps a key down -/

/-- A physical key keeps an injected key down. -/
def Owns (owners : Owners) (output owner : HidUsage) : Prop :=
  ∃ set, owners[output]? = some set ∧ owner ∈ set

theorem Owns.mem {owners : Owners} (h : Owns owners output owner) : output ∈ owners := by
  obtain ⟨set, hset, -⟩ := h
  exact Std.ExtTreeMap.mem_iff_isSome_getElem?.mpr (by rw [hset]; rfl)

theorem Backed.mem_iff {physical : Std.ExtTreeSet HidUsage} {owners : Owners} (h : Backed physical owners) :
    output ∈ owners ↔ ∃ owner, Owns owners output owner := by
  constructor
  · intro hmem
    obtain ⟨set, hset⟩ := Option.isSome_iff_exists.mp (Std.ExtTreeMap.mem_iff_isSome_getElem?.mp hmem)
    obtain ⟨⟨owner, howner⟩, -⟩ := h output set hset
    exact ⟨owner, set, hset, howner⟩
  · rintro ⟨owner, howns⟩
    exact howns.mem

theorem not_owns_empty : ¬ Owns ∅ output owner := by
  rintro ⟨set, hset, -⟩
  simp at hset

theorem owns_want {wanted : Owners} {other held : HidUsage} : Owns (want wanted output held) other owner ↔
      other = output ∧ owner = held ∨ Owns wanted other owner := by
  unfold Owns want
  rw [Std.ExtTreeMap.getElem?_insert]
  simp only [Std.compare_eq_iff_eq]
  by_cases heq : output = other
  · subst heq
    simp only [if_true, Option.some.injEq, exists_eq_left', Std.ExtTreeSet.mem_insert,
      Std.compare_eq_iff_eq, true_and, eq_comm (a := held)]
    cases hset : wanted[output]? with
    | none => simp
    | some set => simp
  · simp [heq, Ne.symm heq]

theorem owns_foldl_want {held : HidUsage} (outputs : List HidUsage) (wanted : Owners) :
    Owns (outputs.foldl (want · · held) wanted) usage owner ↔
      usage ∈ outputs ∧ owner = held ∨ Owns wanted usage owner := by
  induction outputs generalizing wanted with
  | nil => simp
  | cons output rest ih =>
    rw [List.foldl_cons, ih, owns_want, List.mem_cons, or_and_right, or_assoc, or_left_comm]

theorem isEmpty_eq_false_iff {set : Std.ExtTreeSet HidUsage} :
    set.isEmpty = false ↔ ∃ usage, usage ∈ set := by
  rw [← Bool.not_eq_true, Std.ExtTreeSet.isEmpty_iff, Std.ExtTreeSet.eq_empty_iff_forall_not_mem, not_forall_not]

/-- A release takes its own key from what it keeps down, and nobody else's. -/
theorem owns_release : Owns (r.release key).2.owners output owner ↔
    Owns r.owners output owner ∧ owner ≠ key := by
  have hmap : (r.release key).2.owners[output]? = (r.owners[output]?).bind fun owners =>
      if (owners.erase key).isEmpty then none else some (owners.erase key) := by
    show (r.owners.filterMap fun _ owners =>
      if (owners.erase key).isEmpty then none else some (owners.erase key))[output]? = _
    rw [Std.ExtTreeMap.getElem?_filterMap']
  unfold Owns
  rw [hmap]
  constructor
  · rintro ⟨set, hset, howner⟩
    obtain ⟨owners, howners, hleft⟩ := Option.bind_eq_some_iff.mp hset
    split at hleft
    · cases hleft
    · cases hleft
      obtain ⟨hne, howner⟩ := Std.ExtTreeSet.mem_erase.mp howner
      exact ⟨⟨owners, howners, howner⟩, fun heq => hne (Std.compare_eq_iff_eq.mpr heq.symm)⟩
  · rintro ⟨⟨owners, howners, howner⟩, hne⟩
    have hleft : owner ∈ owners.erase key :=
      Std.ExtTreeSet.mem_erase.mpr ⟨fun heq => hne (Std.compare_eq_iff_eq.mp heq).symm, howner⟩
    refine ⟨owners.erase key, ?_, hleft⟩
    rw [howners, Option.bind_some, if_neg]
    rw [isEmpty_eq_false_iff.mpr ⟨owner, hleft⟩]
    exact Bool.false_ne_true

/-! ## The wanted modifiers -/

/-- What a held modifier asks for: its default, or the modifiers of the row that consumes it. -/
def Asks (mode : KeyboardMode) (consumed : UInt8) (mods : List HidUsage) (held usage : HidUsage) : Prop :=
  ∃ class_, modifierClass held = some class_ ∧
    if class_ &&& consumed = 0 then usage = defaultOutput mode held else usage ∈ mods

theorem owns_wantHeld {mode : KeyboardMode} {wanted : Owners} {held : HidUsage} :
    Owns (wantHeld mode consumed mods wanted held) usage owner ↔
      Asks mode consumed mods held usage ∧ owner = held ∨ Owns wanted usage owner := by
  unfold wantHeld Asks
  cases hclass : modifierClass held with
  | none => simp
  | some class_ =>
    by_cases hconsumed : class_ &&& consumed = 0
    · simp [hconsumed, owns_want]
    · simp [hconsumed, owns_foldl_want]

theorem owns_foldl_wantHeld {mode : KeyboardMode} (helds : List HidUsage) (wanted : Owners) :
    Owns (helds.foldl (wantHeld mode consumed mods) wanted) usage owner ↔
      owner ∈ helds ∧ Asks mode consumed mods owner usage ∨ Owns wanted usage owner := by
  induction helds generalizing wanted with
  | nil => simp
  | cons held rest ih =>
    rw [List.foldl_cons, ih, owns_wantHeld, List.mem_cons, or_and_right, or_assoc, or_left_comm]
    refine or_congr_left' fun _ => ?_
    constructor
    · rintro ⟨hasks, rfl⟩
      exact ⟨rfl, hasks⟩
    · rintro ⟨rfl, hasks⟩
      exact ⟨hasks, rfl⟩

/-- **The wanted modifiers**: those of the key, and what each held modifier asks for. -/
theorem owns_wanted : Owns (r.wanted consumed mods keyMods key) usage owner ↔
    usage ∈ keyMods ∧ owner = key ∨ owner ∈ r.physical ∧ Asks r.mode consumed mods owner usage := by
  unfold wanted
  rw [owns_foldl_want, owns_foldl_wantHeld, Std.ExtTreeSet.mem_toList]
  exact or_congr_right (or_iff_left not_owns_empty)

theorem mem_wanted (hkey : key ∈ r.physical) : usage ∈ r.wanted consumed mods keyMods key ↔
    usage ∈ keyMods ∨ ∃ held ∈ r.physical, Asks r.mode consumed mods held usage := by
  rw [(backed_wanted r consumed mods keyMods hkey).mem_iff]
  simp only [owns_wanted]
  constructor
  · rintro ⟨owner, ⟨hkeyMod, -⟩ | ⟨howner, hasks⟩⟩
    · exact .inl hkeyMod
    · exact .inr ⟨owner, howner, hasks⟩
  · rintro (hkeyMod | ⟨held, hheld, hasks⟩)
    · exact ⟨key, .inl ⟨hkeyMod, rfl⟩⟩
    · exact ⟨held, .inr ⟨hheld, hasks⟩⟩

theorem isModifier_defaultOutput {mode : KeyboardMode} {held : HidUsage}
    (h : Keymap.isModifier held = true) : Keymap.isModifier (defaultOutput mode held) = true := by
  unfold defaultOutput
  cases mode with
  | standard => exact h
  | pcPositions =>
    dsimp only
    split_ifs
    any_goals decide
    exact h
  | mac =>
    dsimp only
    split_ifs
    any_goals decide
    exact h

theorem isModifier_of_wanted (hdown : key ∈ r.physical) (hmods : ∀ u ∈ mods, Keymap.isModifier u = true)
    (hkeyMods : ∀ u ∈ keyMods, Keymap.isModifier u = true)
    (h : usage ∈ r.wanted consumed mods keyMods key) : Keymap.isModifier usage = true := by
  rcases (mem_wanted hdown).mp h with hkey | ⟨held, -, class_, hclass, hasks⟩
  · exact hkeyMods usage hkey
  · split at hasks
    · subst hasks
      exact isModifier_defaultOutput (by rw [Keymap.isModifier, hclass]; rfl)
    · exact hmods usage hasks

/-! ## What `setModifiers` leaves -/

theorem mem_collect_assign (entries : List (HidUsage × Std.ExtTreeSet HidUsage)) :
    usage ∈ (Replay.collect assign r entries).2.owners ↔ usage ∈ entries.map (·.1) ∨ usage ∈ r.owners := by
  induction entries generalizing r with
  | nil => simp [Replay.collect]
  | cons entry rest ih =>
    refine (ih (r := (r.assign entry).2)).trans ?_
    show _ ∨ usage ∈ r.owners.insert entry.1 entry.2 ↔ _
    rw [Std.ExtTreeMap.mem_insert, Std.compare_eq_iff_eq, List.map_cons, List.mem_cons]
    exact ⟨fun h => h.elim (fun hr => .inl (.inr hr)) (·.elim (fun he => .inl (.inl he.symm)) .inr),
      fun h => h.elim (·.elim (fun he => .inr (.inl he.symm)) .inl) (fun hw => .inr (.inr hw))⟩

theorem getElem?_collect_assign_of_not_mem (entries : List (HidUsage × Std.ExtTreeSet HidUsage))
    (h : usage ∉ entries.map (·.1)) : (Replay.collect assign r entries).2.owners[usage]? = r.owners[usage]? := by
  induction entries generalizing r with
  | nil => rfl
  | cons entry rest ih =>
    rw [List.map_cons, List.mem_cons, not_or] at h
    refine (ih (r := (r.assign entry).2) h.2).trans ?_
    show (r.owners.insert entry.1 entry.2)[usage]? = _
    rw [Std.ExtTreeMap.getElem?_insert, if_neg]
    intro heq
    exact h.1 (Std.compare_eq_iff_eq.mp heq).symm

theorem getElem?_collect_assign (entries : List (HidUsage × Std.ExtTreeSet HidUsage))
    (hnodup : (entries.map (·.1)).Nodup) : ∀ entry ∈ entries,
      (Replay.collect assign r entries).2.owners[entry.1]? = some entry.2 := by
  induction entries generalizing r with
  | nil => simp
  | cons first rest ih =>
    intro entry hentry
    rw [List.map_cons, List.nodup_cons] at hnodup
    rcases List.mem_cons.mp hentry with rfl | hrest
    · refine (getElem?_collect_assign_of_not_mem (r := (r.assign entry).2) rest hnodup.1).trans ?_
      show (r.owners.insert entry.1 entry.2)[entry.1]? = some entry.2
      rw [Std.ExtTreeMap.getElem?_insert_self]
    · exact ih (r := (r.assign first).2) hnodup.2 entry hrest

theorem edges_collect_assign (entries : List (HidUsage × Std.ExtTreeSet HidUsage)) :
    ∀ edge ∈ (Replay.collect assign r entries).1, edge.1 ∈ entries.map (·.1) := by
  induction entries generalizing r with
  | nil => simp [Replay.collect]
  | cons entry rest ih =>
    intro edge hedge
    rcases List.mem_append.mp hedge with hfirst | hrest
    · unfold assign at hfirst
      dsimp only at hfirst
      split at hfirst
      · cases hfirst
      · exact List.mem_singleton.mp hfirst ▸ .head _
    · exact .tail _ (ih edge hrest)

/-- **The injected modifiers are exactly the wanted ones**, and no other key changes. -/
theorem mem_setModifiers : usage ∈ (r.setModifiers consumed mods keyMods key).2.owners ↔
    usage ∈ r.wanted consumed mods keyMods key ∨
      usage ∈ r.owners ∧ Keymap.isModifier usage = false := by
  unfold setModifiers
  dsimp only
  rw [mem_collect_assign, collect_lift, Std.ExtTreeMap.map_fst_toList_eq_keys, Std.ExtTreeMap.mem_keys]
  dsimp only
  rw [mem_foldl_lift, List.mem_filter, Std.ExtTreeMap.mem_keys]
  by_cases hwanted : usage ∈ r.wanted consumed mods keyMods key
  · simp [hwanted]
  · simp only [hwanted, false_or, Bool.and_eq_true, Bool.not_eq_true', ← Bool.not_eq_true,
      Std.ExtTreeMap.contains_iff_mem, not_false_eq_true, and_true]
    exact ⟨fun h => ⟨h.1, fun hmod => h.2 ⟨h.1, hmod⟩⟩, fun h => ⟨h.1, fun hand => h.2 hand.2⟩⟩

/-- A wanted modifier is kept down by those that want it. -/
theorem owns_setModifiers (h : Owns (r.wanted consumed mods keyMods key) usage owner) :
    Owns (r.setModifiers consumed mods keyMods key).2.owners usage owner := by
  obtain ⟨set, hset, howner⟩ := h
  refine ⟨set, ?_, howner⟩
  unfold setModifiers
  dsimp only
  refine getElem?_collect_assign _ ?_ (usage, set) (Std.ExtTreeMap.mem_toList_iff_getElem?_eq_some.mpr hset)
  rw [Std.ExtTreeMap.map_fst_toList_eq_keys]
  exact Std.ExtTreeMap.nodup_keys

/-- `setModifiers` moves modifiers only. -/
theorem edges_setModifiers (hdown : key ∈ r.physical) (hmods : ∀ u ∈ mods, Keymap.isModifier u = true)
    (hkeyMods : ∀ u ∈ keyMods, Keymap.isModifier u = true) :
    ∀ edge ∈ (r.setModifiers consumed mods keyMods key).1, Keymap.isModifier edge.1 = true := by
  unfold setModifiers
  dsimp only
  intro edge hedge
  rw [collect_lift] at hedge
  rcases List.mem_append.mp hedge with hreleased | hpressed
  · obtain ⟨output, houtput, rfl⟩ := List.mem_map.mp hreleased
    exact (Bool.and_eq_true_iff.mp (List.mem_filter.mp houtput).2).1
  · have hmem := edges_collect_assign _ edge hpressed
    rw [Std.ExtTreeMap.map_fst_toList_eq_keys, Std.ExtTreeMap.mem_keys] at hmem
    exact isModifier_of_wanted hdown hmods hkeyMods hmem

theorem edges_own {edge : Edge} (h : edge ∈ (r.own output owner).1) : edge = (output, true) := by
  unfold own at h
  dsimp only at h
  split at h
  · cases h
  · exact List.mem_singleton.mp h

theorem own_split {before after : List Edge} (h : (r.own output owner).1 = before ++ (usage, true) :: after) :
    usage = output ∧ output ∉ r.owners ∧ before = [] := by
  have hpress : (usage, true) = (output, true) := edges_own (h ▸ List.mem_append_right before (.head _))
  unfold own at h
  dsimp only at h
  split at h
  · simp at h
  · rename_i hout
    cases before with
    | nil => exact ⟨congrArg Prod.fst hpress, hout, rfl⟩
    | cons edge rest => simp at h

theorem edges_ownDefaults (modifiers : List HidUsage)
    (hmodifiers : ∀ modifier ∈ modifiers, Keymap.isModifier modifier = true) :
    ∀ edge ∈ (r.ownDefaults modifiers).1, Keymap.isModifier edge.1 = true := by
  induction modifiers generalizing r with
  | nil => simp [ownDefaults, Replay.collect]
  | cons modifier rest ih =>
    intro edge hedge
    rcases List.mem_append.mp hedge with hfirst | hrest
    · rw [edges_own hfirst]
      exact isModifier_defaultOutput (hmodifiers modifier (.head _))
    · exact ih (fun other hother => hmodifiers other (.tail _ hother)) edge hrest

/-! ## The classes held -/

/-- The classes of the modifiers held, as `lookup` reads them. -/
def classes (r : KeyRemap) : UInt8 := (r.physical.toList.filterMap modifierClass).foldl (· ||| ·) 0

/-- A modifier of the class is held. -/
def Holds (r : KeyRemap) (class_ : UInt8) : Prop := ∃ held ∈ r.physical, modifierClass held = some class_

theorem or_and_eq_zero (x y z : UInt8) : (x ||| y) &&& z = 0 ↔ x &&& z = 0 ∧ y &&& z = 0 := by
  have hdistrib : (x ||| y) &&& z = x &&& z ||| y &&& z := by
    apply UInt8.toBitVec_inj.mp
    simp [BitVec.and_or_distrib_right]
  rw [hdistrib, UInt8.or_eq_zero_iff]

theorem foldl_or_and_eq_zero (bits : List UInt8) (start mask : UInt8) :
    bits.foldl (· ||| ·) start &&& mask = 0 ↔ start &&& mask = 0 ∧ ∀ bit ∈ bits, bit &&& mask = 0 := by
  induction bits generalizing start with
  | nil => simp
  | cons bit rest ih => rw [List.foldl_cons, ih, or_and_eq_zero, List.forall_mem_cons, and_assoc]

theorem modifierClass_mem {class_ : UInt8} (h : modifierClass usage = some class_) :
    class_ ∈ [Keymap.cmd, Keymap.opt, Keymap.ctrl, Keymap.shift] := by
  unfold modifierClass at h
  split_ifs at h <;> · cases h; decide

theorem classes_and_ne_zero {class_ : UInt8} (hclass : class_ ∈ [Keymap.cmd, Keymap.opt, Keymap.ctrl, Keymap.shift]) :
    r.classes &&& class_ ≠ 0 ↔ r.Holds class_ := by
  have hdisjoint : ∀ c ∈ [Keymap.cmd, Keymap.opt, Keymap.ctrl, Keymap.shift],
      ∀ d ∈ [Keymap.cmd, Keymap.opt, Keymap.ctrl, Keymap.shift], c &&& d ≠ 0 → c = d := by decide +kernel
  have hself : ∀ c ∈ [Keymap.cmd, Keymap.opt, Keymap.ctrl, Keymap.shift], c &&& c ≠ 0 := by decide +kernel
  rw [classes, ne_eq, foldl_or_and_eq_zero]
  constructor
  · intro hnot
    by_contra hnone
    refine hnot ⟨by simp, fun bit hbit => ?_⟩
    obtain ⟨held, hheld, hbitclass⟩ := List.mem_filterMap.mp hbit
    by_contra hne
    have heq := hdisjoint bit (modifierClass_mem hbitclass) class_ hclass hne
    exact hnone ⟨held, Std.ExtTreeSet.mem_toList.mp hheld, heq ▸ hbitclass⟩
  · rintro ⟨held, hheld, heldclass⟩ ⟨-, hall⟩
    refine hself class_ hclass (hall class_ (List.mem_filterMap.mpr ⟨held, ?_, heldclass⟩))
    exact Std.ExtTreeSet.mem_toList.mpr hheld

/-! ## The row a key matches -/

theorem lookup_mac (hmode : r.mode = .mac) :
    r.lookup key = Keymap.rules.find? (·.matches r.terminal r.classes key) := by
  unfold lookup
  rw [if_neg (by simp [hmode])]
  rfl

/-- A row that matches says so. -/
theorem lookup_eq_some {rule : Keymap.Rule} (h : r.lookup key = some rule) :
    r.mode = .mac ∧ rule ∈ Keymap.rules ∧ rule.matches r.terminal r.classes key = true := by
  by_cases hmode : r.mode = .mac
  · rw [lookup_mac hmode] at h
    have hmatches := List.find?_some h
    exact ⟨hmode, List.mem_of_find?_eq_some h, hmatches⟩
  · unfold lookup at h
    rw [if_pos hmode] at h
    cases h

theorem lookup_isSome {rule : Keymap.Rule} (hmode : r.mode = .mac) (hrule : rule ∈ Keymap.rules)
    (hmatches : rule.matches r.terminal r.classes key = true) : r.lookup key ≠ none := by
  rw [lookup_mac hmode]
  intro hnone
  exact List.find?_eq_none.mp hnone rule hrule hmatches

theorem matches_of {rule : Keymap.Rule} {terminal : Bool} {held : UInt8}
    (hcontext : (match rule.context with
      | .terminal => terminal
      | .any => true
      | .gui => !terminal) = true)
    (hexact : held &&& (Keymap.cmd ||| Keymap.opt ||| Keymap.ctrl) =
      rule.held &&& (Keymap.cmd ||| Keymap.opt ||| Keymap.ctrl))
    (hshift : rule.held &&& Keymap.shift = 0) (hkeys : rule.keys = [] ∨ key ∈ rule.keys) :
    rule.matches terminal held key = true := by
  simp only [Keymap.Rule.matches, Bool.and_eq_true, Bool.or_eq_true, beq_iff_eq, List.isEmpty_iff,
    List.contains_iff_mem]
  exact ⟨⟨⟨hcontext, hexact⟩, .inl hshift⟩, hkeys⟩

theorem matches_context {rule : Keymap.Rule} {terminal : Bool} {held : UInt8}
    (h : rule.matches terminal held key = true) : rule.context = .gui → terminal = false := by
  intro hcontext
  simp only [Keymap.Rule.matches, hcontext, Bool.and_eq_true, Bool.not_eq_true'] at h
  exact h.1.1.1

theorem matches_exact {rule : Keymap.Rule} {terminal : Bool} {held : UInt8}
    (h : rule.matches terminal held key = true) : held &&& (Keymap.cmd ||| Keymap.opt ||| Keymap.ctrl) =
      rule.held &&& (Keymap.cmd ||| Keymap.opt ||| Keymap.ctrl) := by
  simp only [Keymap.Rule.matches, Bool.and_eq_true, beq_iff_eq] at h
  exact h.1.1.2

theorem matches_keys {rule : Keymap.Rule} {terminal : Bool} {held : UInt8}
    (h : rule.matches terminal held key = true) : rule.keys = [] ∨ key ∈ rule.keys := by
  simp only [Keymap.Rule.matches, Bool.and_eq_true, Bool.or_eq_true, List.isEmpty_iff, List.contains_iff_mem] at h
  exact h.2

/-- Cmd, Option and Ctrl match exactly, so a row consumes each of them that is held. -/
theorem consumes {rule : Keymap.Rule} (h : r.lookup key = some rule) {held : HidUsage} {class_ : UInt8}
    (hheld : held ∈ r.physical) (hclass : modifierClass held = some class_)
    (hfree : class_ &&& rule.held = 0) : class_ = Keymap.shift := by
  obtain ⟨-, -, hmatches⟩ := lookup_eq_some h
  have hholds : r.classes &&& class_ ≠ 0 :=
    (classes_and_ne_zero (modifierClass_mem hclass)).mpr ⟨held, hheld, hclass⟩
  have hexact : ∀ c ∈ [Keymap.cmd, Keymap.opt, Keymap.ctrl, Keymap.shift], c ≠ Keymap.shift →
      c = (Keymap.cmd ||| Keymap.opt ||| Keymap.ctrl) &&& c := by decide +kernel
  by_contra hshift
  have hmask := hexact class_ (modifierClass_mem hclass) hshift
  apply hholds
  calc r.classes &&& class_
      = r.classes &&& (Keymap.cmd ||| Keymap.opt ||| Keymap.ctrl) &&& class_ := by
        rw [UInt8.and_assoc, ← hmask]
    _ = rule.held &&& (Keymap.cmd ||| Keymap.opt ||| Keymap.ctrl) &&& class_ := by
        rw [matches_exact hmatches]
    _ = class_ &&& rule.held := by rw [UInt8.and_assoc, ← hmask, UInt8.and_comm]
    _ = 0 := hfree

/-- The classes that match exactly, bit by bit. -/
theorem exact_classes (held : UInt8) : held &&& (Keymap.cmd ||| Keymap.opt ||| Keymap.ctrl) =
    (if held &&& Keymap.cmd = 0 then 0 else Keymap.cmd) |||
      (if held &&& Keymap.opt = 0 then 0 else Keymap.opt) |||
      (if held &&& Keymap.ctrl = 0 then 0 else Keymap.ctrl) := by
  have hall : ∀ bits : Fin 256, UInt8.ofFin bits &&& (Keymap.cmd ||| Keymap.opt ||| Keymap.ctrl) =
      (if UInt8.ofFin bits &&& Keymap.cmd = 0 then 0 else Keymap.cmd) |||
        (if UInt8.ofFin bits &&& Keymap.opt = 0 then 0 else Keymap.opt) |||
        (if UInt8.ofFin bits &&& Keymap.ctrl = 0 then 0 else Keymap.ctrl) := by decide +kernel
  simpa using hall held.toFin

theorem lookup_holds {rule : Keymap.Rule} (h : r.lookup key = some rule) {class_ : UInt8}
    (hclass : class_ ∈ [Keymap.cmd, Keymap.opt, Keymap.ctrl]) :
    rule.held &&& class_ ≠ 0 ↔ r.Holds class_ := by
  have hmask : ∀ c ∈ [Keymap.cmd, Keymap.opt, Keymap.ctrl],
      c = (Keymap.cmd ||| Keymap.opt ||| Keymap.ctrl) &&& c := by decide +kernel
  have hclasses : ∀ c ∈ [Keymap.cmd, Keymap.opt, Keymap.ctrl],
      c ∈ [Keymap.cmd, Keymap.opt, Keymap.ctrl, Keymap.shift] := by decide +kernel
  rw [← classes_and_ne_zero (hclasses class_ hclass), hmask class_ hclass, ← UInt8.and_assoc,
    ← UInt8.and_assoc, matches_exact (lookup_eq_some h).2.2]

/-- Only Cmd goes out as another key. -/
theorem defaultOutput_mac (h : modifierClass usage ≠ some Keymap.cmd) : defaultOutput .mac usage = usage := by
  unfold defaultOutput
  dsimp only
  split_ifs with hleft hright
  · subst hleft
    exact absurd (by decide) h
  · subst hright
    exact absurd (by decide) h
  · rfl

/-- With a row, the wanted modifiers are those it names and Shift. -/
theorem wanted_of_lookup {rule : Keymap.Rule} (hdown : key ∈ r.physical) (h : r.lookup key = some rule)
    (hwanted : usage ∈ r.wanted rule.held mods keyMods key) :
    usage ∈ mods ++ keyMods ∨ modifierClass usage = some Keymap.shift := by
  rcases (mem_wanted hdown).mp hwanted with hkey | ⟨held, hheld, class_, hclass, hasks⟩
  · exact .inl (List.mem_append_right mods hkey)
  · split at hasks
    · rename_i hfree
      obtain rfl := consumes h hheld hclass hfree
      rw [(lookup_eq_some h).1, defaultOutput_mac (by rw [hclass]; decide)] at hasks
      exact .inr (hasks ▸ hclass)
    · exact .inl (List.mem_append_left keyMods hasks)

/-! ## The press of an ordinary key -/

/-- The state in which an ordinary key is looked up: it is down already. -/
def pressing (r : KeyRemap) (key : HidUsage) : KeyRemap := { r with physical := r.physical.insert key }

/-- What a key that no binding takes goes out as: itself, or the chord of the row it matches. -/
inductive Chord (r : KeyRemap) (key : HidUsage) :
    UInt8 → List HidUsage → List HidUsage → HidUsage → Prop where
  | plain (h : r.lookup key = none) : Chord r key 0 [] [] key
  | row {rule : Keymap.Rule} {mods keyMods : List HidUsage} {output : Keymap.Out}
      (h : r.lookup key = some rule) (hchord : rule.action.chord = some (mods, keyMods, output)) :
      Chord r key rule.held mods keyMods (output.resolve key)

theorem Chord.modifiers {output : HidUsage} (h : Chord r key consumed mods keyMods output) :
    (∀ u ∈ mods, Keymap.isModifier u = true) ∧ ∀ u ∈ keyMods, Keymap.isModifier u = true := by
  cases h with
  | plain _ => simp
  | row hlookup hchord =>
    have htidy := List.all_eq_true.mp Keymap.rules_tidy _ (lookup_eq_some hlookup).2.1
    exact Keymap.Rule.tidy_chord htidy hchord

/-- A key that goes down in a chord goes down right after the modifiers are set. -/
theorem chord_split {before after : List Edge} (hdown : key ∈ r.physical)
    (hmods : ∀ u ∈ mods, Keymap.isModifier u = true) (hkeyMods : ∀ u ∈ keyMods, Keymap.isModifier u = true)
    (husage : Keymap.isModifier usage = false)
    (h : (r.chord consumed mods keyMods output key).1 = before ++ (usage, true) :: after) :
    usage = output ∧ before = (r.setModifiers consumed mods keyMods key).1 := by
  have hparts : (r.setModifiers consumed mods keyMods key).1 ++
      ((r.setModifiers consumed mods keyMods key).2.own output key).1 = before ++ (usage, true) :: after := h
  obtain ⟨middle, hbefore, hown⟩ := split_append (p := fun edge : Edge => Keymap.isModifier edge.1 = false)
    (fun edge hedge => by simp [edges_setModifiers hdown hmods hkeyMods edge hedge]) husage hparts
  obtain ⟨husage, -, rfl⟩ := own_split hown
  exact ⟨husage, by rw [hbefore, List.append_nil]⟩

/-- **An ordinary key that goes down outside a binding** is the output of the chord its press matched,
and goes down right after the modifiers of that chord are set. -/
theorem pressKey_split {before after : List Edge} (hdown : key ∈ r.physical) (hbound : r.bound = none)
    (husage : Keymap.isModifier usage = false) (h : (r.pressKey key).1 = before ++ (usage, true) :: after) :
    ∃ consumed mods keyMods, Chord r key consumed mods keyMods usage ∧
      before = (r.setModifiers consumed mods keyMods key).1 := by
  have hsplit : ∀ {consumed mods keyMods output}, Chord r key consumed mods keyMods output →
      (r.chord consumed mods keyMods output key).1 = before ++ (usage, true) :: after →
      ∃ consumed mods keyMods, Chord r key consumed mods keyMods usage ∧
        before = (r.setModifiers consumed mods keyMods key).1 := by
    intro consumed mods keyMods output hchord hedges
    obtain ⟨rfl, hbefore⟩ := chord_split hdown hchord.modifiers.1 hchord.modifiers.2 husage hedges
    exact ⟨consumed, mods, keyMods, hchord, hbefore⟩
  unfold pressKey at h
  rw [if_neg (by simp [hbound])] at h
  cases hlookup : r.lookup key with
  | none =>
    rw [hlookup] at h
    exact hsplit (.plain hlookup) h
  | some rule =>
    rw [hlookup] at h
    have htidy := List.all_eq_true.mp Keymap.rules_tidy rule (lookup_eq_some hlookup).2.1
    cases haction : rule.action with
    | block =>
      simp only [haction] at h
      simp at h
    | tap output =>
      simp only [haction] at h
      have hoff : Keymap.isModifier output = true := by simpa [Keymap.Rule.tidy, haction] using htidy
      have hmem : ((usage, true) : Edge) ∈ before ++ (usage, true) :: after :=
        List.mem_append_right before (.head _)
      rw [← h] at hmem
      rcases List.mem_append.mp hmem with hset | htap
      · simp [edges_setModifiers hdown (by simp) (by simp) _ hset] at husage
      · split at htap
        · cases htap
        · simp only [List.mem_cons, Prod.mk.injEq] at htap
          simp_all
    | press mods output =>
      simp only [haction] at h
      exact hsplit (.row hlookup (by rw [haction]; rfl)) h
    | pressWith mods keyMods output =>
      simp only [haction] at h
      exact hsplit (.row hlookup (by rw [haction]; rfl)) h
    | hold mods output =>
      simp only [haction] at h
      exact hsplit (.row hlookup (by rw [haction]; rfl)) h

/-- The modifiers a keyboard has down when that key goes down are the wanted ones. -/
theorem down_setModifiers {down : HidUsage → Prop} (hdown : Shows down r) (husage : Keymap.isModifier usage = true) :
    keyboard.run down (r.setModifiers consumed mods keyMods key).1 usage ↔
      usage ∈ r.wanted consumed mods keyMods key := by
  refine (((tracks_setModifiers consumed mods keyMods key) down hdown).2 usage).trans ?_
  rw [mem_setModifiers]
  simp [husage]

end KeyRemap

end Zflow.Core
