import Zflow.Laws.Core.Modifiers

/-!
# The plain modes permute the keys

In the two modes without rules the remap comes down to one table. Each injected key is kept down by the
one physical key it stands for (`Plain`), so a press injects one key that was up, a release lets go of
that key alone, and setting the modifiers finds them as it wants them. The tables undo themselves, so
feeding the output through a second remap gives the input back.
-/

namespace Zflow.Core

open Lib

namespace KeyRemap

open Keymap (modifierClass defaultOutput)

variable {r : KeyRemap} {mode : KeyboardMode} {usage output owner : HidUsage}

/-! ## The tables -/

/-- The keys PC positions moves. -/
def swapped : List HidUsage := [Keymap.lalt, Keymap.lgui, Keymap.ralt, Keymap.rgui]

theorem defaultOutput_pc (h : usage ∉ swapped) : defaultOutput .pcPositions usage = usage := by
  simp only [swapped, List.mem_cons, List.not_mem_nil, or_false, not_or] at h
  obtain ⟨hlalt, hlgui, hralt, hrgui⟩ := h
  simp [defaultOutput, hlalt, hlgui, hralt, hrgui]

/-- A mode without rules undoes itself. -/
theorem defaultOutput_involutive (hmode : mode ≠ .mac) (usage : HidUsage) :
    defaultOutput mode (defaultOutput mode usage) = usage := by
  cases mode with
  | standard => rfl
  | mac => exact absurd rfl hmode
  | pcPositions =>
    by_cases hmem : usage ∈ swapped
    · have hall : ∀ usage ∈ swapped, defaultOutput .pcPositions (defaultOutput .pcPositions usage) = usage := by decide
      exact hall usage hmem
    · rw [defaultOutput_pc hmem, defaultOutput_pc hmem]

theorem defaultOutput_injective (hmode : mode ≠ .mac) {usage other : HidUsage}
    (h : defaultOutput mode usage = defaultOutput mode other) : usage = other := by
  rw [← defaultOutput_involutive hmode usage, h, defaultOutput_involutive hmode]

theorem defaultOutput_plain (hmode : mode ≠ .mac) (h : modifierClass usage = none) :
    defaultOutput mode usage = usage := by
  cases mode with
  | standard => rfl
  | mac => exact absurd rfl hmode
  | pcPositions =>
    refine defaultOutput_pc fun hmem => ?_
    have hall : ∀ usage ∈ swapped, modifierClass usage ≠ none := by decide
    exact hall usage hmem h

/-- The edge a plain mode makes of an edge. -/
def remapped (mode : KeyboardMode) (edge : Edge) : Edge := (defaultOutput mode edge.1, edge.2)

/-- The key edges among the calls. -/
def inputs (calls : List Call) : List Edge :=
  calls.filterMap fun
    | .key usage pressed => some (usage, pressed)
    | _ => none

/-! ## What a plain mode keeps -/

/-- **Each injected key is kept down by the key it stands for**, and nothing is held back or bound. -/
structure Plain (r : KeyRemap) : Prop where
  mode : r.mode ≠ .mac
  deferred : r.deferred = ∅
  bound : r.bound = none
  backed : Backed r.physical r.owners
  owns : ∀ output owner, Owns r.owners output owner ↔
    owner ∈ r.physical ∧ output = defaultOutput r.mode owner

theorem Plain.new (hmode : mode ≠ .mac) : Plain (KeyRemap.new mode) where
  mode := hmode
  deferred := rfl
  bound := rfl
  backed := .empty _
  owns output owner := by
    constructor
    · intro h
      exact absurd h not_owns_empty
    · intro h
      exact absurd h.1 Std.ExtTreeSet.not_mem_empty

/-- A key that is up has nothing down. -/
theorem Plain.not_mem (h : Plain r) (hup : usage ∉ r.physical) :
    defaultOutput r.mode usage ∉ r.owners := by
  intro hmem
  obtain ⟨owner, howns⟩ := h.backed.mem_iff.mp hmem
  obtain ⟨howner, heq⟩ := (h.owns _ owner).mp howns
  exact hup (defaultOutput_injective h.mode heq ▸ howner)

/-- What a key owns by itself, one more key owns the same way. -/
theorem owns_own (h : Plain r) : ∀ output owner, Owns (want r.owners (defaultOutput r.mode usage) usage) output owner ↔
      owner ∈ r.physical.insert usage ∧ output = defaultOutput r.mode owner := by
  intro output owner
  rw [owns_want, h.owns, Std.ExtTreeSet.mem_insert, Std.compare_eq_iff_eq]
  constructor
  · rintro (⟨rfl, rfl⟩ | ⟨howner, rfl⟩)
    · exact ⟨.inl rfl, rfl⟩
    · exact ⟨.inr howner, rfl⟩
  · rintro ⟨rfl | howner, rfl⟩
    · exact .inl ⟨rfl, rfl⟩
    · exact .inr ⟨howner, rfl⟩

/-! ## A press -/

theorem getElem?_congr {physical : Std.ExtTreeSet HidUsage} {a b : Owners} (ha : Backed physical a)
    (hb : Backed physical b) (h : ∀ owner, Owns a output owner ↔ Owns b output owner) : a[output]? = b[output]? := by
  cases hleft : a[output]? with
  | none =>
    cases hright : b[output]? with
    | none => rfl
    | some set =>
      obtain ⟨⟨owner, howner⟩, -⟩ := hb output set hright
      obtain ⟨other, hother, -⟩ := (h owner).mpr ⟨set, hright, howner⟩
      simp [hleft] at hother
  | some set =>
    cases hright : b[output]? with
    | none =>
      obtain ⟨⟨owner, howner⟩, -⟩ := ha output set hleft
      obtain ⟨other, hother, -⟩ := (h owner).mp ⟨set, hleft, howner⟩
      simp [hright] at hother
    | some other =>
      congr 1
      refine Std.ExtTreeSet.ext_mem fun owner => ?_
      have howner := h owner
      simpa [Owns, hleft, hright] using howner

/-- Assigning what is there already changes nothing. -/
theorem collect_assign_idle (entries : List (HidUsage × Std.ExtTreeSet HidUsage))
    (h : ∀ entry ∈ entries, r.owners[entry.1]? = some entry.2) : Replay.collect assign r entries = ([], r) := by
  induction entries with
  | nil => rfl
  | cons entry rest ih =>
    have hentry := h entry (.head _)
    have hmem : entry.1 ∈ r.owners := Std.ExtTreeMap.mem_iff_isSome_getElem?.mpr (by rw [hentry]; rfl)
    have hsame : r.owners.insert entry.1 entry.2 = r.owners := by
      refine Std.ExtTreeMap.ext_getElem? fun other => ?_
      rw [Std.ExtTreeMap.getElem?_insert]
      split
      · rename_i heq
        rw [← Std.compare_eq_iff_eq.mp heq, hentry]
      · rfl
    have hassign : r.assign entry = ([], r) := by
      unfold assign
      rw [if_pos hmem, hsame]
    show ((r.assign entry).1 ++ (Replay.collect assign (r.assign entry).2 rest).1,
      (Replay.collect assign (r.assign entry).2 rest).2) = _
    rw [hassign, ih fun other hother => h other (.tail _ hother)]
    rfl

theorem isModifier_defaultOutput_iff (hmode : mode ≠ .mac) :
    Keymap.isModifier (defaultOutput mode usage) = true ↔ Keymap.isModifier usage = true := by
  constructor
  · intro h
    rw [← defaultOutput_involutive hmode usage]
    exact isModifier_defaultOutput h
  · exact isModifier_defaultOutput

/-- A modifier is wanted by the key it stands for. -/
theorem owns_wanted_plain (h : Plain r) {key : HidUsage} (hkey : modifierClass key = none) :
    Owns ((r.pressing key).wanted 0 [] [] key) output owner ↔
      Keymap.isModifier output = true ∧ Owns r.owners output owner := by
  rw [owns_wanted, h.owns]
  constructor
  · rintro (⟨hnil, -⟩ | ⟨howner, class_, hclass, hasks⟩)
    · cases hnil
    · rw [if_pos UInt8.and_zero] at hasks
      have hmodifier : Keymap.isModifier owner = true := by
        rw [Keymap.isModifier, hclass]
        rfl
      rcases Std.ExtTreeSet.mem_insert.mp howner with heq | hbefore
      · rw [← Std.compare_eq_iff_eq.mp heq, hkey] at hclass
        cases hclass
      · exact ⟨hasks ▸ isModifier_defaultOutput hmodifier, hbefore, hasks⟩
  · rintro ⟨hmodifier, howner, rfl⟩
    obtain ⟨class_, hclass⟩ := Option.isSome_iff_exists.mp ((isModifier_defaultOutput_iff h.mode).mp hmodifier)
    refine .inr ⟨Std.ExtTreeSet.mem_insert.mpr (.inr howner), class_, hclass, ?_⟩
    rw [if_pos UInt8.and_zero]
    rfl

/-- The modifiers are wanted as they are. -/
theorem setModifiers_plain (h : Plain r) {key : HidUsage} (hkey : modifierClass key = none) :
    (r.pressing key).setModifiers 0 [] [] key = ([], r.pressing key) := by
  have hdown : key ∈ (r.pressing key).physical := Std.ExtTreeSet.mem_insert_self
  have hwanted := backed_wanted (r.pressing key) 0 [] [] hdown
  have hunwanted : ((r.pressing key).owners.keys.filter fun output =>
      Keymap.isModifier output && !((r.pressing key).wanted 0 [] [] key).contains output) = [] := by
    refine List.filter_eq_nil_iff.mpr fun output houtput hfree => ?_
    obtain ⟨hmodifier, hfree⟩ := Bool.and_eq_true_iff.mp hfree
    obtain ⟨owner, howns⟩ := h.backed.mem_iff.mp (Std.ExtTreeMap.mem_keys.mp houtput)
    have hmem := ((owns_wanted_plain h hkey).mpr ⟨hmodifier, howns⟩).mem
    rw [Std.ExtTreeMap.contains_iff_mem.mpr hmem] at hfree
    cases hfree
  have hclear : { r.pressing key with deferred := ∅ } = r.pressing key := by
    unfold pressing
    rw [← h.deferred]
  have hassign := collect_assign_idle (r := r.pressing key)
    ((r.pressing key).wanted 0 [] [] key).toList fun entry hentry => by
      have hset := Std.ExtTreeMap.mem_toList_iff_getElem?_eq_some.mp hentry
      have hmem : entry.1 ∈ (r.pressing key).wanted 0 [] [] key :=
        Std.ExtTreeMap.mem_iff_isSome_getElem?.mpr (by rw [hset]; rfl)
      have hmodifier := isModifier_of_wanted hdown (by simp) (by simp) hmem
      refine Eq.trans (getElem?_congr ((h.backed).mono ?_) hwanted fun owner => ?_) hset
      · exact fun owner howner => Std.ExtTreeSet.mem_insert.mpr (.inr howner)
      · rw [owns_wanted_plain h hkey]
        exact ⟨fun howns => ⟨hmodifier, howns⟩, And.right⟩
  unfold setModifiers
  dsimp only
  rw [hunwanted, hclear]
  show ([] ++ (Replay.collect assign (r.pressing key) _).1, (Replay.collect assign (r.pressing key) _).2) = _
  rw [hassign]
  rfl

/-- What the press of a key that was up comes to in a plain mode. -/
theorem key_press_plain (h : Plain r) (hup : usage ∉ r.physical) :
    r.key usage true = ([(defaultOutput r.mode usage, true)],
      { r.pressing usage with owners := want r.owners (defaultOutput r.mode usage) usage }) := by
  have hfree : defaultOutput r.mode usage ∉ r.owners := h.not_mem hup
  unfold key
  simp only [Bool.not_true, Bool.false_eq_true, if_false, if_neg hup]
  cases hclass : modifierClass usage with
  | some class_ =>
    have hback : ¬ (r.mode = .mac ∧ class_ = Keymap.opt ∧ (!r.pointerBusy) = true ∧
        (r.physical.insert usage).toList.all Keymap.isModifier = true) := fun hback => h.mode hback.1
    dsimp only
    unfold pressModifier own
    dsimp only
    rw [if_neg hback, if_neg hfree]
    rfl
  | none =>
    have hlookup : (r.pressing usage).lookup usage = none := by
      unfold lookup
      exact if_pos h.mode
    show (r.pressing usage).pressKey usage = _
    unfold pressKey chord
    rw [if_neg (by simp [pressing, h.bound]), hlookup]
    dsimp only
    rw [setModifiers_plain h hclass]
    rw [defaultOutput_plain h.mode hclass] at hfree ⊢
    unfold own
    dsimp only
    rw [if_neg (show usage ∉ (r.pressing usage).owners from hfree)]
    rfl

/-! ## A release -/

theorem freed_plain (h : Plain r) (hdown : usage ∈ r.physical) :
    sortByKey Keymap.isModifier ((r.owners.toList.filter fun entry =>
      (entry.2.erase usage).isEmpty).map (·.1)) = [defaultOutput r.mode usage] := by
  refine List.perm_singleton.mp ((sortByKey_perm _ _).trans ?_)
  refine (List.perm_ext_iff_of_nodup (nodup_freed r usage) (by simp)).mpr fun output => ?_
  rw [mem_freed, List.mem_singleton]
  constructor
  · rintro ⟨set, hset, hempty⟩
    obtain ⟨⟨owner, howner⟩, -⟩ := h.backed output set hset
    obtain ⟨-, houtput⟩ := (h.owns output owner).mp ⟨set, hset, howner⟩
    by_cases heq : owner = usage
    · rw [houtput, heq]
    · have hleft : owner ∈ set.erase usage :=
        Std.ExtTreeSet.mem_erase.mpr ⟨fun hcmp => heq (Std.compare_eq_iff_eq.mp hcmp).symm, howner⟩
      rw [isEmpty_eq_false_iff.mpr ⟨owner, hleft⟩] at hempty
      cases hempty
  · rintro rfl
    obtain ⟨set, hset, -⟩ := (h.owns (defaultOutput r.mode usage) usage).mpr ⟨hdown, rfl⟩
    refine ⟨set, hset, ?_⟩
    by_contra hfull
    obtain ⟨owner, howner⟩ := isEmpty_eq_false_iff.mp (Bool.not_eq_true _ ▸ hfull)
    obtain ⟨hne, howner⟩ := Std.ExtTreeSet.mem_erase.mp howner
    obtain ⟨-, heq⟩ := (h.owns _ owner).mp ⟨set, hset, howner⟩
    exact hne (Std.compare_eq_iff_eq.mpr (defaultOutput_injective h.mode heq))

theorem edges_release_plain (h : Plain r) (hdown : usage ∈ r.physical) :
    (r.key usage false).1 = [(defaultOutput r.mode usage, false)] := by
  rw [key_release hdown]
  show (sortByKey Keymap.isModifier ((r.owners.toList.filter fun entry =>
    (entry.2.erase usage).isEmpty).map (·.1))).map (·, false) = _
  rw [freed_plain h hdown]
  rfl

/-! ## A run -/

/-- **A plain mode turns one edge into one edge**, and keeps what it keeps. -/
theorem key_plain (h : Plain r) {pressed : Bool} (hnew : usage ∈ r.physical ↔ pressed = false) :
    (r.key usage pressed).1 = [remapped r.mode (usage, pressed)] ∧ Plain (r.key usage pressed).2 ∧
      (r.key usage pressed).2.mode = r.mode := by
  cases pressed with
  | true =>
    have hup : usage ∉ r.physical := by simpa using hnew
    rw [key_press_plain h hup]
    refine ⟨rfl, ⟨h.mode, h.deferred, h.bound, ?_, owns_own h⟩, rfl⟩
    refine (h.backed.mono fun owner howner => ?_).want Std.ExtTreeSet.mem_insert_self
    exact Std.ExtTreeSet.mem_insert.mpr (.inr howner)
  | false =>
    have hdown : usage ∈ r.physical := hnew.mpr rfl
    refine ⟨edges_release_plain h hdown, ?_, by rw [key_release hdown]; rfl⟩
    rw [key_release hdown]
    have hsound : Sound r := ⟨h.backed, fun _ hmem => by simp [h.deferred] at hmem⟩
    refine ⟨h.mode, ?_, ?_, (hsound.release usage).backed, fun output owner => ?_⟩
    · show r.deferred.erase usage = ∅
      rw [h.deferred]
      simp
    · show (if _ then none else r.bound) = none
      rw [h.bound, ite_self]
    · rw [owns_release]
      show Owns r.owners output owner ∧ _ ↔ owner ∈ r.physical.erase usage ∧ output = defaultOutput r.mode owner
      simp only [h.owns, Std.ExtTreeSet.mem_erase, ne_eq, Std.compare_eq_iff_eq]
      constructor
      · rintro ⟨⟨howner, houtput⟩, hne⟩
        exact ⟨⟨fun heq => hne heq.symm, howner⟩, houtput⟩
      · rintro ⟨⟨hne, howner⟩, houtput⟩
        exact ⟨⟨howner, houtput⟩, fun heq => hne heq.symm⟩

theorem pointer_plain (h : Plain r) (busy : Bool) : r.pointer busy = ([], { r with pointerBusy := busy }) := by
  unfold pointer
  rw [h.deferred]
  show ([], { r with deferred := ∅, pointerBusy := busy }) = _
  rw [← h.deferred]

/-- A plain mode reads a stream edge by edge, whatever pointer calls lie between. -/
theorem runCalls_plain (calls : List Call) {down : HidUsage → Prop} {r : KeyRemap} (h : Plain r)
    (hdown : ∀ usage, down usage ↔ usage ∈ r.physical) (hlegal : keyboard.Legal down (inputs calls)) :
    (r.runCalls calls).1 = (inputs calls).map (remapped r.mode) ∧ Plain (r.runCalls calls).2 ∧
      (r.runCalls calls).2.mode = r.mode ∧
      ∀ usage, keyboard.run down (inputs calls) usage ↔ usage ∈ (r.runCalls calls).2.physical := by
  induction calls generalizing r down with
  | nil => exact ⟨rfl, h, rfl, hdown⟩
  | cons c rest ih =>
    have hsilent : ∀ r' : KeyRemap, r.call c = ([], r') → Plain r' → r'.mode = r.mode →
        r'.physical = r.physical → inputs (c :: rest) = inputs rest →
        (r.runCalls (c :: rest)).1 = (inputs (c :: rest)).map (remapped r.mode) ∧
          Plain (r.runCalls (c :: rest)).2 ∧ (r.runCalls (c :: rest)).2.mode = r.mode ∧
          ∀ usage, keyboard.run down (inputs (c :: rest)) usage ↔ usage ∈ (r.runCalls (c :: rest)).2.physical := by
      intro r' hcall hplain hmode hphysical hinputs
      rw [hinputs] at hlegal ⊢
      have hrest := ih hplain (fun usage => hphysical ▸ hdown usage) hlegal
      show ((r.call c).1 ++ ((r.call c).2.runCalls rest).1 = _ ∧ Plain ((r.call c).2.runCalls rest).2 ∧
        ((r.call c).2.runCalls rest).2.mode = _ ∧ ∀ usage, _ ↔ usage ∈ ((r.call c).2.runCalls rest).2.physical)
      rw [hcall, ← hmode]
      exact hrest
    cases c with
    | key usage pressed =>
      obtain ⟨hadmits, hlegal⟩ : (down usage ↔ pressed = false) ∧
        keyboard.Legal (keyboard.apply down (usage, pressed)) (inputs rest) := hlegal
      obtain ⟨hedges, hplain, hmode⟩ := key_plain h ((hdown usage).symm.trans hadmits)
      have hsound : Sound r := ⟨h.backed, fun _ hmem => by simp [h.deferred] at hmem⟩
      have hphysical := (key_sound hsound usage pressed).2
      have hdown' : ∀ other, keyboard.apply down (usage, pressed) other ↔
          other ∈ (r.key usage pressed).2.physical := by
        intro other
        rw [hphysical other]
        show (if other = usage then _ else _) ↔ _
        by_cases heq : usage = other
        · simp [heq]
        · simp [heq, Ne.symm heq, hdown other]
      obtain ⟨hrun, hend, hendMode, hshows⟩ := ih hplain hdown' hlegal
      refine ⟨?_, hend, hendMode.trans hmode, hshows⟩
      show (r.key usage pressed).1 ++ ((r.key usage pressed).2.runCalls rest).1 =
        remapped r.mode (usage, pressed) :: (inputs rest).map (remapped r.mode)
      rw [hedges, hrun, hmode]
      rfl
    | pointer busy =>
      refine hsilent { r with pointerBusy := busy } (pointer_plain h busy)
        ⟨h.mode, h.deferred, h.bound, h.backed, h.owns⟩ rfl rfl rfl
    | pointerReleased busy =>
      exact hsilent (r.pointerReleased busy) rfl ⟨h.mode, h.deferred, h.bound, h.backed, h.owns⟩ rfl rfl rfl
    | setTerminal terminal =>
      exact hsilent (r.setTerminal terminal) rfl ⟨h.mode, h.deferred, h.bound, h.backed, h.owns⟩ rfl rfl rfl

/-- What a plain mode makes of a well-formed stream is well formed. -/
theorem legal_remapped (hmode : mode ≠ .mac) {down : HidUsage → Prop} (edges : List Edge)
    (h : keyboard.Legal down edges) :
    keyboard.Legal (fun usage => down (defaultOutput mode usage)) (edges.map (remapped mode)) := by
  induction edges generalizing down with
  | nil => trivial
  | cons edge rest ih =>
    obtain ⟨hadmits, hrest⟩ := h
    refine ⟨?_, ?_⟩
    · show down (defaultOutput mode (defaultOutput mode edge.1)) ↔ edge.2 = false
      rw [defaultOutput_involutive hmode]
      exact hadmits
    · have happly : keyboard.apply (fun usage => down (defaultOutput mode usage)) (remapped mode edge) =
          fun usage => keyboard.apply down edge (defaultOutput mode usage) := by
        funext usage
        show (if usage = defaultOutput mode edge.1 then edge.2 = true else down (defaultOutput mode usage)) =
          if defaultOutput mode usage = edge.1 then edge.2 = true else down (defaultOutput mode usage)
        have hiff : usage = defaultOutput mode edge.1 ↔ defaultOutput mode usage = edge.1 := by
          constructor
          · rintro rfl
            exact defaultOutput_involutive hmode edge.1
          · intro heq
            rw [← heq, defaultOutput_involutive hmode]
        simp only [hiff]
      rw [happly]
      exact ih hrest

theorem remapped_remapped (hmode : mode ≠ .mac) (edges : List Edge) :
    (edges.map (remapped mode)).map (remapped mode) = edges := by
  rw [List.map_map]
  refine (List.map_congr_left fun edge _ => ?_).trans (List.map_id edges)
  exact Prod.ext (defaultOutput_involutive hmode edge.1) rfl

/-- The edges a new plain mode makes of a well-formed stream. -/
theorem runCalls_new (hmode : mode ≠ .mac) {calls : List Call}
    (hlegal : keyboard.Legal (fun _ => False) (inputs calls)) :
    ((KeyRemap.new mode).runCalls calls).1 = (inputs calls).map (remapped mode) :=
  (runCalls_plain calls (.new hmode) (fun _ => ⟨False.elim, fun h => absurd h Std.ExtTreeSet.not_mem_empty⟩) hlegal).1

theorem inputs_append (calls more : List Call) : inputs (calls ++ more) = inputs calls ++ inputs more :=
  List.filterMap_append

/-- **The plain modes permute the keys and lose nothing.** For every stream of calls whose key edges
alternate for each key, whatever pointer and terminal calls lie between: standard mode emits exactly
the key edges; each call with PC positions emits one edge for its key edge, and none without one; and
any stream with these edges, through another remap with PC positions, gives the first edges back. -/
theorem plain_modes_lossless (calls : List Call) (hlegal : keyboard.Legal (fun _ => False) (inputs calls)) :
    ((KeyRemap.new .standard).runCalls calls).1 = inputs calls ∧ (∀ earlier c later, calls = earlier ++ c :: later →
        (((KeyRemap.new .pcPositions).runCalls earlier).2.call c).1 = (inputs [c]).map (remapped .pcPositions)) ∧
      ∀ again, inputs again = ((KeyRemap.new .pcPositions).runCalls calls).1 →
        ((KeyRemap.new .pcPositions).runCalls again).1 = inputs calls := by
  have hpc : KeyboardMode.pcPositions ≠ .mac := by decide
  refine ⟨?_, ?_, ?_⟩
  · rw [runCalls_new (by decide) hlegal]
    exact List.map_id _
  · intro earlier c later hsplit
    rw [hsplit, inputs_append, Replay.legal_append] at hlegal
    obtain ⟨-, hplain, hmode, hshows⟩ := runCalls_plain earlier (.new hpc)
      (fun _ => ⟨False.elim, fun h => absurd h Std.ExtTreeSet.not_mem_empty⟩) hlegal.1
    have hone : keyboard.Legal (keyboard.run (fun _ => False) (inputs earlier)) (inputs [c]) := by
      have hrest : inputs (c :: later) = inputs [c] ++ inputs later := inputs_append [c] later
      have hboth := hlegal.2
      rw [hrest, Replay.legal_append] at hboth
      exact hboth.1
    have hcall := (runCalls_plain [c] hplain hshows hone).1
    rw [hmode] at hcall
    show _ = (inputs [c]).map (remapped (KeyRemap.new .pcPositions).mode)
    simpa [runCalls, Replay.collect] using hcall
  · intro again hagain
    rw [runCalls_new hpc hlegal] at hagain
    have hlegal' : keyboard.Legal (fun _ => False) (inputs again) := by
      rw [hagain]
      exact legal_remapped hpc (inputs calls) hlegal
    rw [runCalls_new hpc hlegal', hagain, remapped_remapped hpc]

/-- Option and a letter, with a click between. -/
def clicking : List Call :=
  [.key Keymap.lalt true, .pointer true, .key Keymap.a true, .key Keymap.lalt false, .key Keymap.a false]

theorem plain_modes_lossless_clicking : ((KeyRemap.new .standard).runCalls clicking).1 = inputs clicking ∧
      inputs clicking = [(Keymap.lalt, true), (Keymap.a, true), (Keymap.lalt, false), (Keymap.a, false)] := by
  refine ⟨(plain_modes_lossless clicking ?_).1, rfl⟩
  simp [inputs, clicking, keyboard, Replay.Legal, Keymap.lalt, Keymap.a, HidUsage.keyboard]

end KeyRemap

end Zflow.Core
