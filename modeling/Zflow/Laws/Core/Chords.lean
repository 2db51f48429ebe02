import Zflow.Laws.Core.Modifiers

/-!
# What a Mac's chords never type

Two promises of the table of rules. In a terminal a Command chord never types a letter with bare
Control, the two rows that mean to apart: the press sets the modifiers of the row it matched, and the
rows are checked one by one. And outside a window-switching binding no Command chord presses a function
key or Delete with Control and Alt both down. Inside a binding no row is read: there the press goes out
with whatever is down, and the binding keeps an Alt down.
-/

namespace Zflow.Core

open Lib

namespace Keymap

def letters : List HidUsage := (List.range 26).map fun letter => .keyboard (0x04 + letter)

def controls : List HidUsage := [lctrl, rctrl]

def shifts : List HidUsage := [lshift, rshift]

def alts : List HidUsage := [lalt, ralt]

def commands : List HidUsage := [lgui, rgui]

/-- The keys a Linux console takes with Control and Alt: to switch terminals or to reboot. -/
def consoleKeys : List HidUsage := [f1, f2, f3, f4, f5, f6, f7, f8, f9, f10, f11, f12, delete]

/-- The rows of Command that mean to type a letter with bare Control, each by its key and its letter.
The third such row, Backspace to W, is one of Option's. -/
def bareControl : List (HidUsage × HidUsage) := [(k, l), (backspace, u)]

/-- In a terminal no other row of Command types a letter with Control and without Shift. -/
def Rule.shifted (rule : Rule) : Bool :=
  (match rule.context with
    | .gui => true
    | _ => false) ||
  rule.held &&& cmd == 0 ||
  match rule.action.chord with
  | none => true
  | some (mods, keyMods, output) =>
    !(mods ++ keyMods).any (controls.contains ·) || keyMods.any (shifts.contains ·) ||
      !rule.keys.isEmpty && rule.keys.all fun key =>
        !letters.contains (output.resolve key) || bareControl.contains (key, output.resolve key)

theorem Rule.shifted_spec {rule : Rule} (h : rule.shifted = true) (hcontext : rule.context ≠ .gui)
    (hheld : rule.held &&& cmd ≠ 0) {mods keyMods : List HidUsage} {output : Out}
    (hchord : rule.action.chord = some (mods, keyMods, output)) {control : HidUsage}
    (hcontrol : control ∈ controls) (hpressed : control ∈ mods ++ keyMods) :
    (∃ shift ∈ shifts, shift ∈ keyMods) ∨ rule.keys ≠ [] ∧ ∀ key ∈ rule.keys,
      output.resolve key ∈ letters → (key, output.resolve key) ∈ bareControl := by
  have hcontexts : (match rule.context with
      | .gui => true
      | _ => false) = false := by
    cases hcase : rule.context with
    | gui => exact absurd hcase hcontext
    | any => rfl
    | terminal => rfl
  unfold Rule.shifted at h
  rw [hchord, hcontexts] at h
  simp only [Bool.false_or, Bool.or_eq_true, beq_iff_eq, hheld, false_or, Bool.not_eq_true',
    List.any_eq_false, List.any_eq_true, List.contains_iff_mem, Bool.and_eq_true, List.all_eq_true,
    List.isEmpty_eq_false_iff] at h
  rcases h with (hnone | ⟨shift, hshift, hmem⟩) | ⟨hkeys, hall⟩
  · exact absurd hcontrol (hnone control hpressed)
  · exact .inl ⟨shift, hmem, hshift⟩
  · refine .inr ⟨hkeys, fun key hkey hletter => (hall key hkey).resolve_left ?_⟩
    simp [hletter]

theorem rules_shifted : rules.all Rule.shifted = true := by decide

/-- No row presses both a Control and an Alt. -/
theorem rules_apart : rules.all (fun rule => match rule.action.chord with
    | none => true
    | some (mods, keyMods, _) =>
      !((mods ++ keyMods).any (controls.contains ·) && (mods ++ keyMods).any (alts.contains ·))) =
        true := by decide

end Keymap

namespace KeyRemap

open Keymap (modifierClass defaultOutput)

variable {r : KeyRemap} {usage key : HidUsage} {c : Call} {before after : List Edge}

/-- A Command key is held after a run of calls. -/
def commandHeld (calls : List Call) : Prop := ∃ command ∈ Keymap.commands, heldAfter command calls = true

/-- The keys that are down when a call has emitted a part of its edges. -/
def downAt (calls : List Call) (before : List Edge) : HidUsage → Prop :=
  keyboard.run (fun _ => False) (((KeyRemap.new .mac).runCalls calls).1 ++ before)

/-! ## What a Mac's remap keeps -/

/-- A step that takes no key from anybody. -/
structure Grows (r r' : KeyRemap) : Prop where
  mode : r'.mode = r.mode
  bound : r'.bound = r.bound
  physical : r'.physical = r.physical
  deferred : ∀ modifier ∈ r'.deferred, modifier ∈ r.deferred
  owns : ∀ output owner, Owns r.owners output owner → Owns r'.owners output owner

theorem Grows.trans {r₁ r₂ : KeyRemap} (h : Grows r r₁) (h' : Grows r₁ r₂) : Grows r r₂ :=
  ⟨h'.mode.trans h.mode, h'.bound.trans h.bound, h'.physical.trans h.physical,
    fun modifier hmodifier => h.deferred modifier (h'.deferred modifier hmodifier),
    fun output owner howns => h'.owns output owner (h.owns output owner howns)⟩

theorem grows_clear (r : KeyRemap) : Grows r { r with deferred := ∅ } :=
  ⟨rfl, rfl, rfl, fun _ h => absurd h Std.ExtTreeSet.not_mem_empty, fun _ _ h => h⟩

theorem grows_own (output owner : HidUsage) : Grows r (r.own output owner).2 :=
  ⟨rfl, rfl, rfl, fun _ h => h, fun _ _ h => owns_want.mpr (.inr h)⟩

theorem grows_ownDefaults (modifiers : List HidUsage) : Grows r (r.ownDefaults modifiers).2 := by
  induction modifiers generalizing r with
  | nil => exact ⟨rfl, rfl, rfl, fun _ h => h, fun _ _ h => h⟩
  | cons modifier rest ih =>
    have hrest : Grows (r.own (defaultOutput r.mode modifier) modifier).2 _ := ih
    exact (grows_own _ _).trans hrest

/-- **What holds of a Mac's remap in every run**, besides `Sound`: a window-switching binding keeps
Alt down, and under it every modifier that is down keeps some key down, a held-back Option apart. -/
structure MacSound (r : KeyRemap) : Prop where
  sound : Sound r
  mode : r.mode = .mac
  held : ∀ modifier ∈ r.deferred, Keymap.isModifier modifier = true
  switching : ∀ bound, r.bound = some bound → Keymap.lalt ∈ bound ∧ Keymap.lalt ∈ r.owners
  engaged : r.bound ≠ none → ∀ held ∈ r.physical, ∀ class_, modifierClass held = some class_ →
    class_ ≠ Keymap.opt → ∃ output, Owns r.owners output held

namespace MacSound

theorem new : MacSound (KeyRemap.new .mac) where
  sound := .new .mac
  mode := rfl
  held _ h := absurd h Std.ExtTreeSet.not_mem_empty
  switching _ h := by cases h
  engaged h := absurd rfl h

/-- Outside a binding there is nothing to keep. -/
theorem unbound (hsound : Sound r) (hmode : r.mode = .mac)
    (hheld : ∀ modifier ∈ r.deferred, Keymap.isModifier modifier = true) (hbound : r.bound = none) : MacSound r :=
  ⟨hsound, hmode, hheld, fun bound h => by simp [hbound] at h, fun h => absurd hbound h⟩

theorem grow {r' : KeyRemap} (h : MacSound r) (hsound : Sound r') (hgrows : Grows r r') : MacSound r' where
  sound := hsound
  mode := hgrows.mode.trans h.mode
  held modifier hmodifier := h.held modifier (hgrows.deferred modifier hmodifier)
  switching bound hbound := by
    obtain ⟨hmem, halt⟩ := h.switching bound (hgrows.bound ▸ hbound)
    obtain ⟨owner, howns⟩ := h.sound.backed.mem_iff.mp halt
    exact ⟨hmem, (hgrows.owns _ _ howns).mem⟩
  engaged hbound held hheld class_ hclass hopt := by
    obtain ⟨output, howns⟩ := h.engaged (hgrows.bound ▸ hbound) held (hgrows.physical ▸ hheld) class_ hclass hopt
    exact ⟨output, hgrows.owns output held howns⟩

/-- An ordinary key that goes down is not yet a matter of any chord. -/
theorem pressed (h : MacSound r) (hkey : modifierClass key = none) :
    MacSound { r with physical := r.physical.insert key } where
  sound := h.sound.press key
  mode := h.mode
  held := h.held
  switching := h.switching
  engaged hbound held hheld class_ hclass hopt := by
    rcases Std.ExtTreeSet.mem_insert.mp hheld with heq | hbefore
    · rw [← Std.compare_eq_iff_eq.mp heq, hkey] at hclass
      cases hclass
    · exact h.engaged hbound held hbefore class_ hclass hopt

theorem pointer (h : MacSound r) (busy : Bool) : MacSound (r.pointer busy).2 := by
  have hgrows : Grows r ({ r with deferred := ∅ }.ownDefaults r.deferred.toList).2 :=
    (grows_clear r).trans (grows_ownDefaults _)
  exact h.grow (h.sound.pointer busy).sound ⟨hgrows.mode, hgrows.bound, hgrows.physical, hgrows.deferred, hgrows.owns⟩

theorem pressModifier (h : MacSound r) {modifier : HidUsage} {class_ : UInt8}
    (hclass : modifierClass modifier = some class_) :
    MacSound ({ r with physical := r.physical.insert modifier }.pressModifier modifier class_).2 := by
  have hsound := (h.sound.press modifier).pressModifier class_ Std.ExtTreeSet.mem_insert_self
  have hmodifier : Keymap.isModifier modifier = true := by
    rw [Keymap.isModifier, hclass]
    rfl
  unfold KeyRemap.pressModifier at hsound ⊢
  dsimp only at hsound ⊢
  split
  · rename_i hback
    rw [if_pos hback] at hsound
    refine ⟨hsound.sound, h.mode, fun other hother => ?_, h.switching, ?_⟩
    · rcases Std.ExtTreeSet.mem_insert.mp hother with heq | hbefore
      · exact Std.compare_eq_iff_eq.mp heq ▸ hmodifier
      · exact h.held other hbefore
    · intro hbound held hheld other hother hopt
      rcases Std.ExtTreeSet.mem_insert.mp hheld with heq | hbefore
      · rw [← Std.compare_eq_iff_eq.mp heq, hclass] at hother
        cases hother
        exact absurd hback.2.1 hopt
      · exact h.engaged hbound held hbefore other hother hopt
  · rename_i hback
    rw [if_neg hback] at hsound
    refine ⟨hsound.sound, h.mode, h.held, fun bound hbound => ?_, ?_⟩
    · obtain ⟨hmem, halt⟩ := h.switching bound hbound
      exact ⟨hmem, Std.ExtTreeMap.mem_insert.mpr (.inr halt)⟩
    · intro hbound held hheld other hother hopt
      rcases Std.ExtTreeSet.mem_insert.mp hheld with heq | hbefore
      · exact ⟨_, owns_want.mpr (.inl ⟨rfl, (Std.compare_eq_iff_eq.mp heq).symm⟩)⟩
      · obtain ⟨output, howns⟩ := h.engaged hbound held hbefore other hother hopt
        exact ⟨output, owns_want.mpr (.inr howns)⟩

/-- A binding whose Alt goes up is over. -/
theorem bound_release {bound : Std.ExtTreeSet HidUsage} (h : (r.release key).2.bound = some bound) :
    r.bound = some bound ∧ ∀ output ∈ bound, output ∈ r.owners → output ∈ (r.release key).2.owners := by
  have hbound : (if (sortByKey Keymap.isModifier ((r.owners.toList.filter fun entry =>
      (entry.2.erase key).isEmpty).map (·.1))).any fun output => r.bound.any (·.contains output)
    then none else r.bound) = some bound := h
  split at hbound
  · cases hbound
  · rename_i hfreed
    refine ⟨hbound, fun output houtput hmem => ?_⟩
    obtain ⟨set, hset⟩ := Option.isSome_iff_exists.mp (Std.ExtTreeMap.mem_iff_isSome_getElem?.mp hmem)
    cases hempty : (set.erase key).isEmpty with
    | true =>
      refine absurd (List.any_eq_true.mpr ⟨output, ?_, ?_⟩) hfreed
      · exact mem_sortByKey.mpr ((mem_freed r key output).mpr ⟨set, hset, hempty⟩)
      · rw [hbound]
        exact Std.ExtTreeSet.contains_iff_mem.mpr houtput
    | false =>
      obtain ⟨owner, howner⟩ := isEmpty_eq_false_iff.mp hempty
      obtain ⟨hne, howner⟩ := Std.ExtTreeSet.mem_erase.mp howner
      exact (owns_release.mpr ⟨⟨set, hset, howner⟩,
        fun heq => hne (Std.compare_eq_iff_eq.mpr heq.symm)⟩).mem

theorem release (h : MacSound r) (key : HidUsage) :
    MacSound ({ r with physical := r.physical.erase key }.release key).2 where
  sound := h.sound.release key
  mode := h.mode
  held modifier hmodifier := h.held modifier (Std.ExtTreeSet.mem_erase.mp hmodifier).2
  switching bound hbound := by
    obtain ⟨hbefore, hkept⟩ := bound_release hbound
    obtain ⟨hmem, halt⟩ := h.switching bound hbefore
    exact ⟨hmem, hkept _ hmem halt⟩
  engaged hbound held hheld class_ hclass hopt := by
    obtain ⟨bound, hsome⟩ := Option.ne_none_iff_exists'.mp hbound
    obtain ⟨hne, hbefore⟩ := Std.ExtTreeSet.mem_erase.mp (show held ∈ r.physical.erase key from hheld)
    have hactive : r.bound ≠ none := by
      rw [(bound_release hsome).1]
      exact Option.some_ne_none bound
    obtain ⟨output, howns⟩ := h.engaged hactive held hbefore class_ hclass hopt
    exact ⟨output, owns_release.mpr ⟨howns, fun heq => hne (Std.compare_eq_iff_eq.mpr heq.symm)⟩⟩

/-- A held modifier keeps a key down in a chord that names a modifier for each class it consumes. -/
theorem owns_chord {consumed : UInt8} {mods keyMods : List HidUsage} {output held : HidUsage}
    {class_ : UInt8} (hmods : mods ≠ []) (hheld : held ∈ r.physical) (hclass : modifierClass held = some class_) :
    ∃ other, Owns (r.chord consumed mods keyMods output key).2.owners other held := by
  have hasks : ∃ other, Asks r.mode consumed mods held other := by
    by_cases hfree : class_ &&& consumed = 0
    · exact ⟨defaultOutput r.mode held, class_, hclass, by rw [if_pos hfree]⟩
    · obtain ⟨other, rest, rfl⟩ := List.exists_cons_of_ne_nil hmods
      refine ⟨other, class_, hclass, ?_⟩
      rw [if_neg hfree]
      exact .head _
  obtain ⟨other, hasks⟩ := hasks
  exact ⟨other, owns_want.mpr (.inr (owns_setModifiers (owns_wanted.mpr (.inr ⟨hheld, hasks⟩))))⟩

/-- The rows that keep a modifier down keep Alt down. -/
theorem hold_alt {rule : Keymap.Rule} {mods : List HidUsage} {output : Keymap.Out}
    (hrule : rule ∈ Keymap.rules) (haction : rule.action = .hold mods output) : mods = [Keymap.lalt] := by
  have hall : Keymap.rules.all (fun rule => match rule.action with
    | .hold mods _ => mods == [Keymap.lalt]
    | _ => true) = true := by decide
  have hthis := List.all_eq_true.mp hall rule hrule
  simpa [haction] using hthis

/-- A binding starts with its Alt down. -/
theorem bound_hold {owners : Owners} {bound : Std.ExtTreeSet HidUsage}
    (h : (if (Std.ExtTreeSet.ofList ([Keymap.lalt].filter fun output => owners.contains output)).isEmpty
      then none
      else some (Std.ExtTreeSet.ofList ([Keymap.lalt].filter fun output => owners.contains output))) =
        some bound) : Std.ExtTreeSet.ofList [Keymap.lalt] = bound ∧ Keymap.lalt ∈ owners := by
  by_cases halt : Keymap.lalt ∈ owners
  · have hfilter : ([Keymap.lalt].filter fun output => owners.contains output) = [Keymap.lalt] := by
      simp [halt]
    rw [hfilter] at h
    split at h
    · cases h
    · exact ⟨Option.some.inj h, halt⟩
  · simp [halt] at h

theorem setModifiers_kept (r : KeyRemap) (consumed : UInt8) (mods keyMods : List HidUsage)
    (key : HidUsage) : (r.setModifiers consumed mods keyMods key).2.bound = r.bound ∧
      (r.setModifiers consumed mods keyMods key).2.mode = r.mode ∧
      (r.setModifiers consumed mods keyMods key).2.deferred = ∅ := by
  have hassign : ∀ (entries : List (HidUsage × Std.ExtTreeSet HidUsage)) (r : KeyRemap),
      (Replay.collect assign r entries).2.bound = r.bound ∧ (Replay.collect assign r entries).2.mode = r.mode ∧
        (Replay.collect assign r entries).2.deferred = r.deferred := by
    intro entries
    induction entries with
    | nil => exact fun _ => ⟨rfl, rfl, rfl⟩
    | cons entry rest ih => exact fun r => ih (r.assign entry).2
  unfold setModifiers
  dsimp only
  rw [collect_lift]
  exact hassign _ _

theorem pressKey (h : MacSound r) (hkey : key ∈ r.physical) : MacSound (r.pressKey key).2 := by
  have hsound := (h.sound.pressKey hkey).sound
  unfold KeyRemap.pressKey at hsound ⊢
  by_cases hbound : r.bound.isSome
  · rw [if_pos hbound] at hsound ⊢
    have hidle := grows_ownDefaults (r := r) (r.physical.toList.filter fun held =>
      Keymap.isModifier held && !r.ownsAny held)
    exact h.grow hsound (hidle.trans ((grows_clear _).trans (grows_own key key)))
  rw [if_neg hbound] at hsound ⊢
  have hnone : r.bound = none := by simpa using hbound
  have hclear : ∀ modifier ∈ (∅ : Std.ExtTreeSet HidUsage), Keymap.isModifier modifier = true :=
    fun _ hempty => absurd hempty Std.ExtTreeSet.not_mem_empty
  have hchord : ∀ consumed mods keyMods output, Sound (r.chord consumed mods keyMods output key).2 →
      MacSound (r.chord consumed mods keyMods output key).2 := by
    intro consumed mods keyMods output hsound
    obtain ⟨hbound', hmode, hdeferred⟩ := setModifiers_kept r consumed mods keyMods key
    exact unbound hsound (hmode.trans h.mode) (hdeferred ▸ hclear) (hbound'.trans hnone)
  cases hlookup : r.lookup key with
  | none =>
    rw [hlookup] at hsound
    exact hchord _ _ _ _ hsound
  | some rule =>
    rw [hlookup] at hsound
    cases haction : rule.action with
    | block =>
      simp only [haction]
      exact h
    | tap output =>
      simp only [haction] at hsound ⊢
      obtain ⟨hbound', hmode, hdeferred⟩ := setModifiers_kept r rule.held [] [] key
      exact unbound hsound (hmode.trans h.mode) (hdeferred ▸ hclear) (hbound'.trans hnone)
    | press mods output =>
      simp only [haction] at hsound ⊢
      exact hchord _ _ _ _ hsound
    | pressWith mods keyMods output =>
      simp only [haction] at hsound ⊢
      exact hchord _ _ _ _ hsound
    | hold mods output =>
      simp only [haction] at hsound ⊢
      obtain rfl := hold_alt (lookup_eq_some hlookup).2.1 haction
      obtain ⟨-, hmode, hdeferred⟩ := setModifiers_kept r rule.held [Keymap.lalt] [] key
      refine ⟨hsound, hmode.trans h.mode, hdeferred ▸ hclear, fun bound hsome => ?_, ?_⟩
      · obtain ⟨rfl, halt⟩ := bound_hold hsome
        exact ⟨by simp, halt⟩
      · intro _ held hheld class_ hclass _
        refine owns_chord (by simp) ?_ hclass
        exact (h.sound.chord rule.held [Keymap.lalt] [] (output.resolve key) hkey).physical ▸ hheld

theorem call (h : MacSound r) (c : Call) : MacSound (r.call c).2 := by
  cases c with
  | key usage pressed =>
    show MacSound (r.key usage pressed).2
    by_cases hsame : usage ∈ r.physical ↔ pressed = true
    · rw [key_idle hsame]
      exact h
    cases pressed with
    | false =>
      rw [key_release (by simpa using hsame)]
      exact h.release usage
    | true =>
      have hup : usage ∉ r.physical := by simpa using hsame
      unfold KeyRemap.key
      simp only [Bool.not_true, Bool.false_eq_true, if_false, if_neg hup]
      cases hclass : modifierClass usage with
      | none => exact (h.pressed hclass).pressKey Std.ExtTreeSet.mem_insert_self
      | some class_ => exact h.pressModifier hclass
  | pointer busy => exact h.pointer busy
  | pointerReleased busy => exact ⟨⟨h.sound.backed, h.sound.deferred⟩, h.mode, h.held, h.switching, h.engaged⟩
  | setTerminal terminal => exact ⟨⟨h.sound.backed, h.sound.deferred⟩, h.mode, h.held, h.switching, h.engaged⟩

end MacSound

theorem macSound_runCalls (calls : List Call) : MacSound ((KeyRemap.new .mac).runCalls calls).2 := by
  have hrun : ∀ (calls : List Call) (r : KeyRemap), MacSound r → MacSound (r.runCalls calls).2 := by
    intro calls
    induction calls with
    | nil => exact fun _ h => h
    | cons c rest ih => exact fun r h => ih (r.call c).2 (h.call c)
  exact hrun calls _ .new

/-! ## An ordinary key goes down at its press only -/

theorem edges_release {edge : Edge} (h : edge ∈ (r.release key).1) : edge.2 = false := by
  obtain ⟨output, -, rfl⟩ := List.mem_map.mp h
  rfl

/-- Only the press of an ordinary key that was up presses an ordinary key. -/
theorem call_press (hsound : MacSound r) (husage : Keymap.isModifier usage = false)
    (h : (r.call c).1 = before ++ (usage, true) :: after) :
    ∃ key, c = .key key true ∧ key ∉ r.physical ∧ modifierClass key = none ∧
      r.call c = (r.pressing key).pressKey key := by
  have hmem : (usage, true) ∈ (r.call c).1 := by
    rw [h]
    exact List.mem_append_right before (.head _)
  cases c with
  | key key pressed =>
    have hcall : r.call (.key key pressed) = r.key key pressed := rfl
    rw [hcall] at hmem ⊢
    by_cases hsame : key ∈ r.physical ↔ pressed = true
    · rw [key_idle hsame] at hmem
      cases hmem
    cases pressed with
    | false =>
      rw [key_release (by simpa using hsame)] at hmem
      cases edges_release hmem
    | true =>
      have hup : key ∉ r.physical := by simpa using hsame
      unfold KeyRemap.key at hmem ⊢
      simp only [Bool.not_true, Bool.false_eq_true, if_false, if_neg hup] at hmem ⊢
      cases hclass : modifierClass key with
      | none => exact ⟨key, rfl, hup, hclass, rfl⟩
      | some class_ =>
        rw [hclass] at hmem
        dsimp only at hmem
        unfold pressModifier at hmem
        dsimp only at hmem
        split at hmem
        · cases hmem
        · have hout : usage = _ := congrArg Prod.fst (edges_own hmem)
          have hkey : Keymap.isModifier key = true := by
            rw [Keymap.isModifier, hclass]
            rfl
          rw [hout, isModifier_defaultOutput hkey] at husage
          cases husage
  | pointer busy =>
    have hpressed : (usage, true) ∈ ({ r with deferred := ∅ }.ownDefaults r.deferred.toList).1 := hmem
    have hmodifier := edges_ownDefaults _ (fun modifier hmodifier =>
      hsound.held modifier (Std.ExtTreeSet.mem_toList.mp hmodifier)) _ hpressed
    rw [husage] at hmodifier
    cases hmodifier
  | pointerReleased busy => cases hmem
  | setTerminal terminal => cases hmem

theorem command_holds {calls : List Call} (h : commandHeld calls) :
    (((KeyRemap.new .mac).runCalls calls).2.pressing key).Holds Keymap.cmd := by
  obtain ⟨command, hcommand, hheld⟩ := h
  have hnew : command ∈ (KeyRemap.new .mac).physical ↔ false = true :=
    ⟨fun h => absurd h Std.ExtTreeSet.not_mem_empty, fun h => by cases h⟩
  have hphysical := (physical_runCalls (.new .mac) calls hnew).mpr hheld
  have hcmd : ∀ command ∈ Keymap.commands, modifierClass command = some Keymap.cmd := by decide
  exact ⟨command, Std.ExtTreeSet.mem_insert.mpr (.inr hphysical), hcmd command hcommand⟩

/-- The modifiers down when an ordinary key goes down outside a binding are those of its chord. -/
theorem press_split {calls : List Call} (hbound : ((KeyRemap.new .mac).runCalls calls).2.bound = none)
    (husage : Keymap.isModifier usage = false)
    (h : ((((KeyRemap.new .mac).runCalls calls).2.pressing key).pressKey key).1 = before ++ (usage, true) :: after) :
    ∃ consumed mods keyMods,
      Chord (((KeyRemap.new .mac).runCalls calls).2.pressing key) key consumed mods keyMods usage ∧
        ∀ u, Keymap.isModifier u = true → (downAt calls before u ↔
          u ∈ (((KeyRemap.new .mac).runCalls calls).2.pressing key).wanted consumed mods keyMods key) := by
  have hdown : key ∈ (((KeyRemap.new .mac).runCalls calls).2.pressing key).physical :=
    Std.ExtTreeSet.mem_insert_self
  obtain ⟨consumed, mods, keyMods, hchord, rfl⟩ := pressKey_split hdown hbound husage h
  refine ⟨consumed, mods, keyMods, hchord, fun u hu => ?_⟩
  unfold downAt
  rw [Replay.run_append]
  refine down_setModifiers ?_ hu
  exact ((tracks_runCalls (KeyRemap.new .mac) calls) _ (shows_new .mac)).2

/-! ## Terminals -/

/-- A row that needs no Shift is found while its other classes are held, where it applies. -/
theorem lookup_of_row (rule : Keymap.Rule) (hmode : r.mode = .mac) (hrule : rule ∈ Keymap.rules)
    (hcontext : rule.context = .any ∨ rule.context = .terminal ∧ r.terminal = true)
    (hkeys : rule.keys = [] ∨ key ∈ rule.keys) (hshift : rule.held &&& Keymap.shift = 0)
    (heq : r.classes &&& (Keymap.cmd ||| Keymap.opt ||| Keymap.ctrl) =
      rule.held &&& (Keymap.cmd ||| Keymap.opt ||| Keymap.ctrl)) : r.lookup key ≠ none := by
  refine lookup_isSome hmode hrule (matches_of ?_ heq hshift hkeys)
  rcases hcontext with hany | ⟨hterm, hterminal⟩
  · rw [hany]
  · rw [hterm]
    exact hterminal

/-- In a terminal every key matches a row while Command is held. -/
theorem terminal_lookup (hmode : r.mode = .mac) (hterminal : r.terminal = true)
    (hcmd : r.Holds Keymap.cmd) : r.lookup key ≠ none := by
  have hexact := exact_classes r.classes
  rw [if_neg ((classes_and_ne_zero (by decide)).mpr hcmd)] at hexact
  by_cases hopt : r.classes &&& Keymap.opt = 0 <;> by_cases hctrl : r.classes &&& Keymap.ctrl = 0
  all_goals simp only [hopt, hctrl, if_true, if_false] at hexact
  · exact lookup_of_row ⟨.terminal, Keymap.cmd, Keymap.anyKey, .block⟩ hmode (by simp [Keymap.rules])
      (.inr ⟨rfl, hterminal⟩) (.inl rfl) (by decide) (hexact.trans (by decide))
  · exact lookup_of_row ⟨.any, Keymap.ctrl ||| Keymap.cmd, Keymap.anyKey, .block⟩ hmode
      (by simp [Keymap.rules]) (.inl rfl) (.inl rfl) (by decide) (hexact.trans (by decide))
  · exact lookup_of_row ⟨.terminal, Keymap.cmd ||| Keymap.opt, Keymap.anyKey, .block⟩ hmode
      (by simp [Keymap.rules]) (.inr ⟨rfl, hterminal⟩) (.inl rfl) (by decide) (hexact.trans (by decide))
  · exact lookup_of_row ⟨.any, Keymap.ctrl ||| Keymap.cmd ||| Keymap.opt, Keymap.anyKey, .block⟩ hmode
      (by simp [Keymap.rules]) (.inl rfl) (.inl rfl) (by decide) (hexact.trans (by decide))

/-- A letter of a chord of Command that a terminal matched has no bare Control. -/
theorem shifted_of_chord {consumed : UInt8} {mods keyMods : List HidUsage} (hmode : r.mode = .mac)
    (hterminal : r.terminal = true) (hdown : key ∈ r.physical) (hcmd : r.Holds Keymap.cmd)
    (hchord : Chord r key consumed mods keyMods usage) (hletter : usage ∈ Keymap.letters)
    {control : HidUsage} (hcontrol : control ∈ Keymap.controls)
    (hwanted : control ∈ r.wanted consumed mods keyMods key) :
    (∃ shift ∈ Keymap.shifts, shift ∈ r.wanted consumed mods keyMods key) ∨ (key, usage) ∈ Keymap.bareControl := by
  cases hchord with
  | plain hnone => exact absurd hnone (terminal_lookup hmode hterminal hcmd)
  | row hlookup hrow =>
    rename_i rule output
    have hcheck := List.all_eq_true.mp Keymap.rules_shifted rule (lookup_eq_some hlookup).2.1
    have hheld : rule.held &&& Keymap.cmd ≠ 0 := (lookup_holds hlookup (by decide)).mpr hcmd
    have hpressed : control ∈ mods ++ keyMods := by
      refine (wanted_of_lookup hdown hlookup hwanted).resolve_right fun hshift => ?_
      have hnot : ∀ control ∈ Keymap.controls, modifierClass control ≠ some Keymap.shift := by decide
      exact hnot control hcontrol hshift
    have hcontext : rule.context ≠ .gui := by
      intro hgui
      rw [matches_context (lookup_eq_some hlookup).2.2 hgui] at hterminal
      cases hterminal
    rcases Keymap.Rule.shifted_spec hcheck hcontext hheld hrow hcontrol hpressed with
      ⟨shift, hshift, hkeyMod⟩ | ⟨hkeys, hall⟩
    · exact .inl ⟨shift, hshift, (mem_wanted hdown).mpr (.inl hkeyMod)⟩
    · have hkey := (matches_keys (lookup_eq_some hlookup).2.2).resolve_left hkeys
      exact .inr (hall key hkey hletter)

/-- **A Command chord in a terminal never types a letter with bare Control.** In every run of a Mac's
remap, where a call presses a letter while a Command key is held, the terminal bit is set and no
window-switching binding is active, the keys down at that moment hold no Control without a Shift, but
for the two rows that mean it: so Command and C never interrupt. -/
theorem terminal_chords_spare_control (calls : List Call) (c : Call) (letter : HidUsage)
    (before after : List Edge) (hletter : letter ∈ Keymap.letters)
    (hterminal : ((KeyRemap.new .mac).runCalls calls).2.terminal = true) (hcmd : commandHeld calls)
    (hbound : ((KeyRemap.new .mac).runCalls calls).2.bound = none)
    (hpress : (((KeyRemap.new .mac).runCalls calls).2.call c).1 = before ++ (letter, true) :: after) :
    ((∃ control ∈ Keymap.controls, downAt calls before control) →
        (∃ shift ∈ Keymap.shifts, downAt calls before shift) ∨
          ∃ key, c = .key key true ∧ (key, letter) ∈ Keymap.bareControl) ∧
      (letter = Keymap.c → ¬ ((∃ control ∈ Keymap.controls, downAt calls before control) ∧
        ∀ shift ∈ Keymap.shifts, ¬ downAt calls before shift)) := by
  have hplain : ∀ letter ∈ Keymap.letters, Keymap.isModifier letter = false := by decide
  have hcontrols : ∀ control ∈ Keymap.controls, Keymap.isModifier control = true := by decide
  have hshifts : ∀ shift ∈ Keymap.shifts, Keymap.isModifier shift = true := by decide
  have hsound := macSound_runCalls calls
  obtain ⟨key, rfl, hup, hclass, hcall⟩ := call_press hsound (hplain letter hletter) hpress
  rw [hcall] at hpress
  obtain ⟨consumed, mods, keyMods, hchord, hwanted⟩ := press_split hbound (hplain letter hletter) hpress
  have hspared : (∃ control ∈ Keymap.controls, downAt calls before control) →
      (∃ shift ∈ Keymap.shifts, downAt calls before shift) ∨ (key, letter) ∈ Keymap.bareControl := by
    rintro ⟨control, hcontrol, hdown⟩
    rcases shifted_of_chord (r := ((KeyRemap.new .mac).runCalls calls).2.pressing key) hsound.mode
      hterminal Std.ExtTreeSet.mem_insert_self (command_holds hcmd) hchord hletter hcontrol
      ((hwanted control (hcontrols control hcontrol)).mp hdown) with ⟨shift, hshift, hmem⟩ | hbare
    · exact .inl ⟨shift, hshift, (hwanted shift (hshifts shift hshift)).mpr hmem⟩
    · exact .inr hbare
  refine ⟨fun hcontrol => (hspared hcontrol).imp_right fun hbare => ⟨key, rfl, hbare⟩, ?_⟩
  rintro rfl ⟨hcontrol, hnoshift⟩
  rcases hspared hcontrol with ⟨shift, hshift, hdown⟩ | hbare
  · exact hnoshift shift hshift hdown
  · have hrows : ∀ row ∈ Keymap.bareControl, row.2 ≠ Keymap.c := by decide
    exact hrows _ hbare rfl


/-- Cmd and C in a terminal: Control and Shift and C. -/
def copying : List Call := [.setTerminal true, .key Keymap.lgui true]

theorem terminal_chords_spare_control_copying :
    (((KeyRemap.new .mac).runCalls copying).2.call (.key Keymap.c true)).1 =
        [(Keymap.lshift, true)] ++ (Keymap.c, true) :: [] ∧
      ¬ ((∃ control ∈ Keymap.controls, downAt copying [(Keymap.lshift, true)] control) ∧
        ∀ shift ∈ Keymap.shifts, ¬ downAt copying [(Keymap.lshift, true)] shift) := by
  have hpress : (((KeyRemap.new .mac).runCalls copying).2.call (.key Keymap.c true)).1 =
      [(Keymap.lshift, true)] ++ (Keymap.c, true) :: [] := by decide +kernel
  refine ⟨hpress, (terminal_chords_spare_control copying _ _ _ _ (by decide) (by decide +kernel) ?_
    (by decide +kernel) hpress).2 rfl⟩
  exact ⟨Keymap.lgui, .head _, by decide⟩

/-! ## Consoles -/

theorem mem_ownDefaults (modifiers : List HidUsage) : usage ∈ (r.ownDefaults modifiers).2.owners ↔
    usage ∈ modifiers.map (defaultOutput r.mode) ∨ usage ∈ r.owners := by
  induction modifiers generalizing r with
  | nil => simp [ownDefaults, Replay.collect]
  | cons modifier rest ih =>
    refine (ih (r := (r.own (defaultOutput r.mode modifier) modifier).2)).trans ?_
    show _ ∨ usage ∈ want r.owners _ _ ↔ _
    unfold want
    rw [Std.ExtTreeMap.mem_insert, Std.compare_eq_iff_eq, List.map_cons, List.mem_cons, or_assoc, eq_comm,
      or_left_comm]
    rfl

/-- The values of a map are those of its entries. -/
theorem values_eq_map_toList {α β : Type} {cmp : α → α → Ordering} [Std.TransCmp cmp]
    (map : Std.ExtTreeMap α β cmp) : map.values = map.toList.map (·.2) := by
  have hfoldr : map.values = map.foldr (fun _ value rest => value :: rest) [] := by
    obtain ⟨⟨inner⟩⟩ := map
    induction inner using Quotient.inductionOn
    rfl
  rw [hfoldr, Std.ExtTreeMap.foldr_eq_foldr_toList]
  induction map.toList with
  | nil => rfl
  | cons entry rest ih => rw [List.foldr_cons, List.map_cons, ih]

theorem ownsAny_iff : r.ownsAny key = true ↔ ∃ output, Owns r.owners output key := by
  unfold ownsAny
  rw [values_eq_map_toList, List.any_map, List.any_eq_true]
  constructor
  · rintro ⟨entry, hentry, howns⟩
    exact ⟨entry.1, entry.2, Std.ExtTreeMap.mem_toList_iff_getElem?_eq_some.mp hentry,
      Std.ExtTreeSet.contains_iff_mem.mp howns⟩
  · rintro ⟨output, set, hset, howns⟩
    exact ⟨(output, set), Std.ExtTreeMap.mem_toList_iff_getElem?_eq_some.mpr hset,
      Std.ExtTreeSet.contains_iff_mem.mpr howns⟩

/-- The modifiers a binding brings back before a key: those that keep nothing down. -/
def idle (r : KeyRemap) : List HidUsage :=
  r.physical.toList.filter fun held => Keymap.isModifier held && !r.ownsAny held

/-- Under a binding these are Option keys. -/
theorem MacSound.idle_opt (h : MacSound r) (hbound : r.bound ≠ none) {held : HidUsage}
    (hheld : held ∈ r.idle) : modifierClass held = some Keymap.opt := by
  obtain ⟨hphysical, hidle⟩ := List.mem_filter.mp hheld
  obtain ⟨hmodifier, hfree⟩ := Bool.and_eq_true_iff.mp hidle
  obtain ⟨class_, hclass⟩ := Option.isSome_iff_exists.mp hmodifier
  by_cases hopt : class_ = Keymap.opt
  · rw [hclass, hopt]
  · have howns := ownsAny_iff.mpr (h.engaged hbound held (Std.ExtTreeSet.mem_toList.mp hphysical) class_ hclass hopt)
    simp [howns] at hfree

/-- Under a binding a key goes out as it is, after the modifiers brought back. -/
theorem pressKey_bound (hbound : r.bound ≠ none) : r.pressKey key =
    ((r.ownDefaults r.idle).1 ++ ({ (r.ownDefaults r.idle).2 with deferred := ∅ }.own key key).1,
      ({ (r.ownDefaults r.idle).2 with deferred := ∅ }.own key key).2) := by
  unfold pressKey
  rw [if_pos (Option.isSome_iff_ne_none.mpr hbound)]
  rfl

/-- Command and Option with a console key match a row. -/
theorem console_lookup (hmode : r.mode = .mac) (hcmd : r.Holds Keymap.cmd) (hopt : r.Holds Keymap.opt)
    (hkey : key ∈ Keymap.consoleKeys) : r.lookup key ≠ none := by
  have hexact := exact_classes r.classes
  rw [if_neg ((classes_and_ne_zero (by decide)).mpr hcmd),
    if_neg ((classes_and_ne_zero (by decide)).mpr hopt)] at hexact
  by_cases hctrl : r.classes &&& Keymap.ctrl = 0
  · rw [if_pos hctrl] at hexact
    have hkeys : key ∈ [Keymap.f1, Keymap.f2, Keymap.f3, Keymap.f4, Keymap.f5, Keymap.f6] ∨
        key ∈ [Keymap.f7, Keymap.f8, Keymap.f9, Keymap.f10, Keymap.f11, Keymap.f12] ∨
        key ∈ [Keymap.backspace, Keymap.delete, Keymap.up, Keymap.down] := by
      have hall : ∀ key ∈ Keymap.consoleKeys,
          key ∈ [Keymap.f1, Keymap.f2, Keymap.f3, Keymap.f4, Keymap.f5, Keymap.f6] ∨
          key ∈ [Keymap.f7, Keymap.f8, Keymap.f9, Keymap.f10, Keymap.f11, Keymap.f12] ∨
          key ∈ [Keymap.backspace, Keymap.delete, Keymap.up, Keymap.down] := by decide
      exact hall key hkey
    rcases hkeys with hlow | hhigh | hedit
    · exact lookup_of_row ⟨.any, Keymap.cmd ||| Keymap.opt, _, .block⟩ hmode (by simp [Keymap.rules])
        (.inl rfl) (.inr hlow) (by decide) (hexact.trans (by decide))
    · exact lookup_of_row ⟨.any, Keymap.cmd ||| Keymap.opt, _, .block⟩ hmode (by simp [Keymap.rules])
        (.inl rfl) (.inr hhigh) (by decide) (hexact.trans (by decide))
    · exact lookup_of_row ⟨.any, Keymap.cmd ||| Keymap.opt, _, .block⟩ hmode (by simp [Keymap.rules])
        (.inl rfl) (.inr hedit) (by decide) (hexact.trans (by decide))
  · rw [if_neg hctrl] at hexact
    exact lookup_of_row ⟨.any, Keymap.ctrl ||| Keymap.cmd ||| Keymap.opt, Keymap.anyKey, .block⟩ hmode
      (by simp [Keymap.rules]) (.inl rfl) (.inl rfl) (by decide) (hexact.trans (by decide))

theorem alt_of_defaultOutput {held : HidUsage} (h : defaultOutput .mac held ∈ Keymap.alts) :
    modifierClass held = some Keymap.opt := by
  have hcommands : ∀ command ∈ Keymap.commands, defaultOutput .mac command ∉ Keymap.alts := by decide
  have halts : ∀ alt ∈ Keymap.alts, modifierClass alt = some Keymap.opt := by decide
  have hsame : defaultOutput .mac held = held := by
    unfold defaultOutput
    dsimp only
    split_ifs with hleft hright
    · exact absurd h (hcommands held (hleft ▸ by decide))
    · exact absurd h (hcommands held (hright ▸ by decide))
    · rfl
  exact halts held (hsame ▸ h)

/-- A console key of a chord of Command has no Control together with an Alt. -/
theorem apart_of_chord {consumed : UInt8} {mods keyMods : List HidUsage} (hmode : r.mode = .mac)
    (hdown : key ∈ r.physical) (hcmd : r.Holds Keymap.cmd)
    (hchord : Chord r key consumed mods keyMods usage) (hconsole : usage ∈ Keymap.consoleKeys)
    {control alt : HidUsage} (hcontrol : control ∈ Keymap.controls) (halt : alt ∈ Keymap.alts)
    (hwantedControl : control ∈ r.wanted consumed mods keyMods key) :
    alt ∉ r.wanted consumed mods keyMods key := by
  intro hwantedAlt
  cases hchord with
  | plain hnone =>
    rcases (mem_wanted hdown).mp hwantedAlt with hnil | ⟨held, hheld, class_, hclass, hasks⟩
    · cases hnil
    · rw [if_pos (UInt8.and_zero), hmode] at hasks
      have hopt := alt_of_defaultOutput (hasks ▸ halt)
      exact console_lookup hmode hcmd ⟨held, hheld, hopt⟩ hconsole hnone
  | row hlookup hrow =>
    rename_i rule output
    have hcheck := List.all_eq_true.mp Keymap.rules_apart rule (lookup_eq_some hlookup).2.1
    have hnot : ∀ u ∈ Keymap.controls ++ Keymap.alts, modifierClass u ≠ some Keymap.shift := by decide
    have hpressed : ∀ u ∈ Keymap.controls ++ Keymap.alts,
        u ∈ r.wanted rule.held mods keyMods key → u ∈ mods ++ keyMods := fun u hu hwanted =>
      (wanted_of_lookup hdown hlookup hwanted).resolve_right (hnot u hu)
    have hboth : (mods ++ keyMods).any (Keymap.controls.contains ·) = true ∧
        (mods ++ keyMods).any (Keymap.alts.contains ·) = true :=
      ⟨List.any_eq_true.mpr ⟨control, hpressed control (List.mem_append_left _ hcontrol) hwantedControl,
        List.contains_iff_mem.mpr hcontrol⟩,
      List.any_eq_true.mpr ⟨alt, hpressed alt (List.mem_append_right _ halt) hwantedAlt,
        List.contains_iff_mem.mpr halt⟩⟩
    rw [hrow] at hcheck
    simp only [hboth.1, hboth.2] at hcheck
    cases hcheck

/-- After a run, a call presses a function key or Delete with a Control and an Alt down. -/
def SwitchesConsole (calls : List Call) (c : Call) : Prop :=
  ∃ key ∈ Keymap.consoleKeys, ∃ before after,
    (((KeyRemap.new .mac).runCalls calls).2.call c).1 = before ++ (key, true) :: after ∧
      (∃ control ∈ Keymap.controls, downAt calls before control) ∧
      ∃ alt ∈ Keymap.alts, downAt calls before alt

/-- A function key or Delete goes down under a window-switching binding, with a Control injected. -/
def Tangled (r : KeyRemap) (c : Call) : Prop :=
  r.bound ≠ none ∧ (∃ control ∈ Keymap.controls, control ∈ r.owners) ∧
    ∃ key ∈ Keymap.consoleKeys, c = .key key true ∧ key ∉ r.physical ∧ key ∉ r.owners

/-- The keys down once a binding has brought its idle modifiers back. -/
theorem downAt_idle (calls : List Call) (key : HidUsage) :
    downAt calls (((((KeyRemap.new .mac).runCalls calls).2.pressing key).ownDefaults
        (((KeyRemap.new .mac).runCalls calls).2.pressing key).idle).1) usage ↔
      usage ∈ (((KeyRemap.new .mac).runCalls calls).2.pressing key).idle.map (defaultOutput .mac) ∨
        usage ∈ ((KeyRemap.new .mac).runCalls calls).2.owners := by
  have hshows := ((tracks_runCalls (KeyRemap.new .mac) calls) _ (shows_new .mac)).2
  have htracks := tracks_ownDefaults (((KeyRemap.new .mac).runCalls calls).2.pressing key)
    (((KeyRemap.new .mac).runCalls calls).2.pressing key).idle
  have hmode : (((KeyRemap.new .mac).runCalls calls).2.pressing key).mode = .mac :=
    (macSound_runCalls calls).mode
  unfold downAt
  rw [Replay.run_append]
  refine ((htracks _ hshows).2 usage).trans ?_
  rw [mem_ownDefaults, hmode]
  exact Iff.rfl

/-- **When a Command chord would switch consoles**: under a window-switching binding, where a Control is
injected besides the binding's Alt. -/
theorem switchesConsole_iff_tangled {calls : List Call} (hcmd : commandHeld calls) :
    SwitchesConsole calls c ↔ Tangled ((KeyRemap.new .mac).runCalls calls).2 c := by
  have hsound := macSound_runCalls calls
  have hplain : ∀ key ∈ Keymap.consoleKeys, Keymap.isModifier key = false := by decide
  have hcontrols : ∀ control ∈ Keymap.controls, Keymap.isModifier control = true := by decide
  have halts : ∀ alt ∈ Keymap.alts, Keymap.isModifier alt = true := by decide
  constructor
  · rintro ⟨usage, husage, before, after, hpress, ⟨control, hcontrol, hcontrolDown⟩, alt, halt, haltDown⟩
    obtain ⟨key, rfl, hup, hclass, hcall⟩ := call_press hsound (hplain usage husage) hpress
    rw [hcall] at hpress
    have hdown : key ∈ (((KeyRemap.new .mac).runCalls calls).2.pressing key).physical :=
      Std.ExtTreeSet.mem_insert_self
    by_cases hbound : ((KeyRemap.new .mac).runCalls calls).2.bound = none
    · obtain ⟨consumed, mods, keyMods, hchord, hwanted⟩ := press_split hbound (hplain usage husage) hpress
      exact absurd ((hwanted alt (halts alt halt)).mp haltDown)
        (apart_of_chord (r := ((KeyRemap.new .mac).runCalls calls).2.pressing key) hsound.mode hdown
          (command_holds hcmd) hchord husage hcontrol halt
          ((hwanted control (hcontrols control hcontrol)).mp hcontrolDown))
    · have hpressing := hsound.pressed hclass
      rw [pressKey_bound (r := ((KeyRemap.new .mac).runCalls calls).2.pressing key) hbound] at hpress
      obtain ⟨middle, hbefore, hown⟩ := split_append
        (p := fun edge : Edge => Keymap.isModifier edge.1 = false) (fun edge hedge => by
          simp [edges_ownDefaults _ (fun held hheld =>
            (Bool.and_eq_true_iff.mp (List.mem_filter.mp hheld).2).1) edge hedge])
        (hplain usage husage) hpress
      obtain ⟨rfl, hfree, rfl⟩ := own_split hown
      rw [List.append_nil] at hbefore
      rw [hbefore] at hcontrolDown
      refine ⟨hbound, ⟨control, hcontrol, ((downAt_idle calls usage).mp hcontrolDown).resolve_left ?_⟩,
        usage, husage, rfl, hup, fun hinjected => ?_⟩
      · intro hidle
        obtain ⟨held, hheld, hdefault⟩ := List.mem_map.mp hidle
        have hopt := hpressing.idle_opt hbound hheld
        have hnot : ∀ control ∈ Keymap.controls, modifierClass control ≠ some Keymap.opt := by decide
        rw [defaultOutput_mac (by rw [hopt]; decide)] at hdefault
        exact hnot control hcontrol (hdefault ▸ hopt)
      · exact hfree ((mem_ownDefaults _).mpr (.inr hinjected))
  · rintro ⟨hbound, ⟨control, hcontrol, hinjected⟩, key, hkey, rfl, hup, hfree⟩
    have hclass : modifierClass key = none := by
      simpa [Keymap.isModifier] using hplain key hkey
    have hcall : ((KeyRemap.new .mac).runCalls calls).2.call (.key key true) =
        (((KeyRemap.new .mac).runCalls calls).2.pressing key).pressKey key := by
      show ((KeyRemap.new .mac).runCalls calls).2.key key true = _
      unfold KeyRemap.key
      simp only [Bool.not_true, Bool.false_eq_true, if_false, if_neg hup, hclass]
      rfl
    obtain ⟨bound, hsome⟩ := Option.ne_none_iff_exists'.mp hbound
    obtain ⟨-, halt⟩ := hsound.switching bound hsome
    refine ⟨key, hkey, _, [], ?_, ⟨control, hcontrol, (downAt_idle calls key).mpr (.inr hinjected)⟩,
      Keymap.lalt, .head _, (downAt_idle calls key).mpr (.inr halt)⟩
    rw [hcall, pressKey_bound (r := ((KeyRemap.new .mac).runCalls calls).2.pressing key) hbound]
    have hkeyFree : key ∉ ((((KeyRemap.new .mac).runCalls calls).2.pressing key).ownDefaults
        (((KeyRemap.new .mac).runCalls calls).2.pressing key).idle).2.owners := by
      intro hmem
      refine hfree (((mem_ownDefaults _).mp hmem).resolve_left fun hidle => ?_)
      obtain ⟨held, hheld, hdefault⟩ := List.mem_map.mp hidle
      have hheldModifier := (Bool.and_eq_true_iff.mp (List.mem_filter.mp hheld).2).1
      have hmodifier : Keymap.isModifier key = true := hdefault ▸ isModifier_defaultOutput hheldModifier
      rw [hplain key hkey] at hmodifier
      cases hmodifier
    unfold own
    dsimp only
    rw [if_neg hkeyFree]

/-- **A Command chord switches consoles exactly under a tangled binding.** In every run of a Mac's remap,
no call made with a Command key held presses a function key or Delete with a Control and an Alt down, if
and only if no such call presses one while a window-switching binding is active and a Control is
injected. -/
theorem never_switches_console_iff (calls : List Call) :
    (∀ earlier c later, calls = earlier ++ c :: later → commandHeld earlier → ¬ SwitchesConsole earlier c) ↔
      ∀ earlier c later, calls = earlier ++ c :: later → commandHeld earlier →
        ¬ Tangled ((KeyRemap.new .mac).runCalls earlier).2 c := by
  constructor
  · intro h earlier c later hsplit hcmd htangled
    exact h earlier c later hsplit hcmd ((switchesConsole_iff_tangled hcmd).mpr htangled)
  · intro h earlier c later hsplit hcmd hswitches
    exact h earlier c later hsplit hcmd ((switchesConsole_iff_tangled hcmd).mp hswitches)

/-- Cmd and Tab, then Ctrl, then F2: Ctrl, Alt and F2 are down together. -/
def tangling : List Call := [.key Keymap.lgui true, .key Keymap.tab true, .key Keymap.lctrl true]

theorem not_never_switches_console : ¬ ∀ earlier c later, tangling ++ [.key Keymap.f2 true] = earlier ++ c :: later →
      commandHeld earlier → ¬ SwitchesConsole earlier c := by
  intro h
  have hcmd : commandHeld tangling := ⟨Keymap.lgui, .head _, by decide⟩
  refine h tangling (.key Keymap.f2 true) [] rfl hcmd ((switchesConsole_iff_tangled hcmd).mpr ?_)
  exact ⟨by decide +kernel, ⟨Keymap.lctrl, .head _, by decide +kernel⟩, Keymap.f2, by decide, rfl,
    by decide +kernel, by decide +kernel⟩

end KeyRemap

end Zflow.Core
