import Zflow.Core.Keymap
import Zflow.Laws.Core.Held

/-!
# Key remapping never leaves anything stuck

Two facts carry the law, and neither is about the table of rules. What a step emits takes a keyboard
from the keys that have owners before it to those that have owners after it (`Tracks`): so the edges
are well formed and leave exactly `injected` down. And the owners of a key are physical keys that are
down (`Sound`): so once these are up no key has an owner left.
-/

namespace Zflow.Core

open Lib

namespace KeyRemap

variable {r : KeyRemap} {output owner usage : HidUsage}

/-- A keyboard has the injected keys down. -/
def Shows (down : HidUsage → Prop) (r : KeyRemap) : Prop := ∀ usage, down usage ↔ usage ∈ r.owners

/-- What a step emits takes a keyboard from the injected keys before it to those after it. -/
abbrev Tracks (r : KeyRemap) (result : List Edge × KeyRemap) : Prop :=
  keyboard.Tracks Shows r result.1 result.2

/-! ## The edges are well formed -/

theorem tracks_silent {r' : KeyRemap} (h : ∀ usage, usage ∈ r'.owners ↔ usage ∈ r.owners) : Tracks r ([], r') := by
  intro down hdown
  exact ⟨trivial, fun usage => (hdown usage).trans (h usage).symm⟩

/-- What the edges say of the owners is which keys have some. -/
theorem tracks_congr {edges : List Edge} {r₁ r₂ : KeyRemap} (h : Tracks r (edges, r₁))
    (hsame : ∀ usage, usage ∈ r₁.owners ↔ usage ∈ r₂.owners) : Tracks r (edges, r₂) := by
  intro down hdown
  obtain ⟨hlegal, hshows⟩ := h down hdown
  exact ⟨hlegal, fun usage => (hshows usage).trans (hsame usage)⟩

theorem tracks_press {r' : KeyRemap} (hout : output ∉ r.owners)
    (h : ∀ usage, usage ∈ r'.owners ↔ output = usage ∨ usage ∈ r.owners) : Tracks r ([(output, true)], r') := by
  refine Replay.Tracks.single fun down hdown => ⟨?_, fun usage => ?_⟩
  · have hup : ¬ down output := fun hd => hout ((hdown output).mp hd)
    simpa [keyboard] using hup
  · rw [h usage, ← hdown usage]
    show (if usage = output then true = true else down usage) ↔ _
    by_cases heq : usage = output
    · simp [heq]
    · simp [heq, Ne.symm heq]

theorem tracks_lift (hout : output ∈ r.owners) : Tracks r (r.lift output) := by
  refine Replay.Tracks.single fun down hdown => ⟨?_, fun usage => ?_⟩
  · simpa [keyboard] using (hdown output).mpr hout
  · show (if usage = output then false = true else down usage) ↔ usage ∈ r.owners.erase output
    rw [Std.ExtTreeMap.mem_erase, hdown usage]
    by_cases heq : usage = output
    · simp [heq]
    · simp [heq, Ne.symm heq]

/-- Every key that is lifted was injected. -/
theorem tracks_lifts (outputs : List HidUsage) (hnodup : outputs.Nodup)
    (hmem : ∀ output ∈ outputs, output ∈ r.owners) : Tracks r (Replay.collect lift r outputs) := by
  induction outputs generalizing r with
  | nil => exact .nil r
  | cons output rest ih =>
    obtain ⟨hfresh, hrest⟩ := List.nodup_cons.mp hnodup
    refine (tracks_lift (hmem output (.head _))).append (ih hrest fun other hother => ?_)
    refine Std.ExtTreeMap.mem_erase.mpr ⟨?_, hmem other (.tail _ hother)⟩
    intro heq
    exact hfresh (Std.compare_eq_iff_eq.mp heq ▸ hother)

theorem tracks_insert (output : HidUsage) (owners : Std.ExtTreeSet HidUsage) :
    Tracks r (if output ∈ r.owners then [] else [(output, true)],
      { r with owners := r.owners.insert output owners }) := by
  by_cases hout : output ∈ r.owners
  · rw [if_pos hout]
    refine tracks_silent fun usage => ?_
    rw [Std.ExtTreeMap.mem_insert, Std.compare_eq_iff_eq]
    constructor
    · rintro (rfl | husage)
      · exact hout
      · exact husage
    · exact .inr
  · rw [if_neg hout]
    refine tracks_press hout fun usage => ?_
    rw [Std.ExtTreeMap.mem_insert, Std.compare_eq_iff_eq]

theorem tracks_own (output owner : HidUsage) : Tracks r (r.own output owner) := tracks_insert _ _

theorem tracks_collect {C : Type} {step : KeyRemap → C → List Edge × KeyRemap}
    (h : ∀ r c, Tracks r (step r c)) (r : KeyRemap) (calls : List C) : Tracks r (Replay.collect step r calls) :=
  @Replay.Tracks.collect _ _ keyboard _ Shows _ _ id step h r calls

theorem tracks_ownDefaults (r : KeyRemap) (modifiers : List HidUsage) : Tracks r (r.ownDefaults modifiers) :=
  tracks_collect (fun _ _ => tracks_own _ _) r modifiers

theorem tracks_pointer (busy : Bool) : Tracks r (r.pointer busy) := by
  unfold pointer
  exact tracks_ownDefaults { r with deferred := ∅ } r.deferred.toList

theorem tracks_pressModifier (modifier : HidUsage) (class_ : UInt8) : Tracks r (r.pressModifier modifier class_) := by
  unfold pressModifier
  dsimp only
  split
  · exact tracks_silent fun _ => Iff.rfl
  · exact tracks_own _ _

theorem tracks_setModifiers (consumed : UInt8) (mods keyMods : List HidUsage) (key : HidUsage) :
    Tracks r (r.setModifiers consumed mods keyMods key) := by
  refine Replay.Tracks.append (tracks_lifts (r := { r with deferred := ∅ }) _ ?_ ?_)
    (tracks_collect (fun _ _ => tracks_insert _ _) _ _)
  · exact Std.ExtTreeMap.nodup_keys.filter _
  · intro output houtput
    exact Std.ExtTreeMap.mem_keys.mp (List.mem_of_mem_filter houtput)

theorem tracks_chord (consumed : UInt8) (mods keyMods : List HidUsage) (output key : HidUsage) :
    Tracks r (r.chord consumed mods keyMods output key) :=
  (tracks_setModifiers _ _ _ _).append (tracks_own _ _)

/-- A key that is tapped is up before and after. -/
theorem tracks_tap (output : HidUsage) :
    Tracks r (if output ∈ r.owners then [] else [(output, true), (output, false)], r) := by
  by_cases hout : output ∈ r.owners
  · rw [if_pos hout]
    exact .nil r
  · rw [if_neg hout]
    have hpress := tracks_insert (r := r) output ∅
    rw [if_neg hout] at hpress
    have hlift : Tracks { r with owners := r.owners.insert output ∅ } ([(output, false)], r) := by
      refine tracks_congr (tracks_lift Std.ExtTreeMap.mem_insert_self) fun usage => ?_
      show usage ∈ (r.owners.insert output ∅).erase output ↔ usage ∈ r.owners
      rw [Std.ExtTreeMap.mem_erase, Std.ExtTreeMap.mem_insert, ne_eq, Std.compare_eq_iff_eq]
      constructor
      · rintro ⟨hne, heq | husage⟩
        · exact absurd heq hne
        · exact husage
      · intro husage
        exact ⟨fun heq => hout (heq ▸ husage), .inr husage⟩
    exact hpress.append hlift

theorem tracks_pressKey (key : HidUsage) : Tracks r (r.pressKey key) := by
  unfold pressKey
  split
  · exact (tracks_ownDefaults _ _).append (tracks_own _ _)
  · cases r.lookup key with
    | none => exact tracks_chord _ _ _ _ _
    | some rule =>
      cases haction : rule.action with
      | block => simpa [haction] using tracks_silent (r := r) fun _ => Iff.rfl
      | tap output =>
        simp only [haction]
        exact (tracks_setModifiers _ _ _ _).append (tracks_tap _)
      | press mods output =>
        simp only [haction]
        exact tracks_chord _ _ _ _ _
      | pressWith mods keyMods output =>
        simp only [haction]
        exact tracks_chord _ _ _ _ _
      | hold mods output =>
        simp only [haction]
        exact tracks_chord _ _ _ _ _

theorem collect_lift (r : KeyRemap) (outputs : List HidUsage) : Replay.collect lift r outputs =
      (outputs.map (·, false), { r with owners := outputs.foldl (·.erase ·) r.owners }) := by
  induction outputs generalizing r with
  | nil => rfl
  | cons output rest ih =>
    simp only [Replay.collect, ih, List.map_cons, List.foldl_cons]
    rfl

theorem mem_foldl_lift (outputs : List HidUsage) (owners : Owners) :
    usage ∈ outputs.foldl (·.erase ·) owners ↔ usage ∈ owners ∧ usage ∉ outputs := by
  induction outputs generalizing owners with
  | nil => simp
  | cons output rest ih =>
    rw [List.foldl_cons, ih, Std.ExtTreeMap.mem_erase, ne_eq, Std.compare_eq_iff_eq, List.mem_cons]
    constructor
    · rintro ⟨⟨hne, husage⟩, hrest⟩
      exact ⟨husage, not_or.mpr ⟨fun heq => hne heq.symm, hrest⟩⟩
    · rintro ⟨husage, hnot⟩
      exact ⟨⟨fun heq => hnot (.inl heq.symm), husage⟩, fun hrest => hnot (.inr hrest)⟩

theorem mem_freed (r : KeyRemap) (key : HidUsage) (usage : HidUsage) :
    usage ∈ (r.owners.toList.filter fun entry => (entry.2.erase key).isEmpty).map (·.1) ↔
      ∃ owners, r.owners[usage]? = some owners ∧ (owners.erase key).isEmpty = true := by
  rw [List.mem_map]
  constructor
  · rintro ⟨⟨usage, owners⟩, hentry, rfl⟩
    obtain ⟨hmem, hempty⟩ := List.mem_filter.mp hentry
    exact ⟨owners, Std.ExtTreeMap.mem_toList_iff_getElem?_eq_some.mp hmem, hempty⟩
  · rintro ⟨owners, howners, hempty⟩
    exact ⟨(usage, owners), List.mem_filter.mpr
      ⟨Std.ExtTreeMap.mem_toList_iff_getElem?_eq_some.mpr howners, hempty⟩, rfl⟩

theorem nodup_freed (r : KeyRemap) (key : HidUsage) :
    ((r.owners.toList.filter fun entry => (entry.2.erase key).isEmpty).map (·.1)).Nodup := by
  refine List.Nodup.sublist (List.filter_sublist.map _) ?_
  rw [Std.ExtTreeMap.map_fst_toList_eq_keys]
  exact Std.ExtTreeMap.nodup_keys

/-- A release lifts the keys that nobody keeps down any more. -/
theorem tracks_release (r : KeyRemap) (key : HidUsage) : Tracks r (r.release key) := by
  have hperm := sortByKey_perm Keymap.isModifier
    ((r.owners.toList.filter fun entry => (entry.2.erase key).isEmpty).map (·.1))
  have hlifts := tracks_lifts (r := r) _ (hperm.nodup_iff.mpr (nodup_freed r key)) fun output hout => by
    obtain ⟨owners, howners, -⟩ := (mem_freed r key output).mp (hperm.mem_iff.mp hout)
    exact Std.ExtTreeMap.mem_iff_isSome_getElem?.mpr (by rw [howners]; rfl)
  rw [collect_lift] at hlifts
  refine tracks_congr hlifts fun usage => ?_
  rw [mem_foldl_lift, hperm.mem_iff, mem_freed]
  simp only [Std.ExtTreeMap.mem_iff_isSome_getElem?, Std.ExtTreeMap.getElem?_filterMap']
  cases howners : r.owners[usage]? with
  | none => simp
  | some owners =>
    cases hempty : (owners.erase key).isEmpty with
    | true => simp
    | false => simp

theorem tracks_key (usage : HidUsage) (pressed : Bool) : Tracks r (r.key usage pressed) := by
  unfold key
  dsimp only
  split
  · split
    · exact tracks_release { r with physical := r.physical.erase usage } usage
    · exact tracks_silent fun _ => Iff.rfl
  · split
    · exact tracks_silent fun _ => Iff.rfl
    · split
      · exact tracks_pressModifier (r := { r with physical := r.physical.insert usage }) _ _
      · exact tracks_pressKey (r := { r with physical := r.physical.insert usage }) _

theorem tracks_call (r : KeyRemap) (c : Call) : Tracks r (r.call c) := by
  cases c with
  | key usage pressed => exact tracks_key usage pressed
  | pointer busy => exact tracks_pointer busy
  | pointerReleased busy => exact tracks_silent fun _ => Iff.rfl
  | setTerminal terminal => exact tracks_silent fun _ => Iff.rfl

/-- **The edges are well formed**, and leave exactly the injected keys down. -/
theorem tracks_runCalls (r : KeyRemap) (calls : List Call) : Tracks r (r.runCalls calls) :=
  tracks_collect tracks_call r calls

/-! ## The owners are down -/

/-- Each key has an owner, and its owners are down. -/
def Backed (physical : Std.ExtTreeSet HidUsage) (owners : Owners) : Prop :=
  ∀ (output : HidUsage) (set : Std.ExtTreeSet HidUsage), owners[output]? = some set → (∃ owner, owner ∈ set) ∧ ∀ owner ∈ set, owner ∈ physical

namespace Backed

variable {physical set : Std.ExtTreeSet HidUsage} {owners : Owners}

theorem empty (physical : Std.ExtTreeSet HidUsage) : Backed physical ∅ := by
  intro output set hset
  rw [Std.ExtTreeMap.getElem?_empty] at hset
  cases hset

theorem mono {more : Std.ExtTreeSet HidUsage} (h : Backed physical owners)
    (hmore : ∀ owner ∈ physical, owner ∈ more) : Backed more owners := by
  intro output set hset
  obtain ⟨hsome, hall⟩ := h output set hset
  exact ⟨hsome, fun owner howner => hmore owner (hall owner howner)⟩

theorem insert (h : Backed physical owners) (hsome : ∃ owner, owner ∈ set)
    (hall : ∀ owner ∈ set, owner ∈ physical) : Backed physical (owners.insert output set) := by
  intro other others hother
  rw [Std.ExtTreeMap.getElem?_insert] at hother
  split at hother
  · cases hother
    exact ⟨hsome, hall⟩
  · exact h other others hother

theorem erase (h : Backed physical owners) : Backed physical (owners.erase output) := by
  intro other others hother
  rw [Std.ExtTreeMap.getElem?_erase] at hother
  split at hother
  · cases hother
  · exact h other others hother

theorem want (h : Backed physical owners) (howner : owner ∈ physical) :
    Backed physical (want owners output owner) := by
  refine h.insert ⟨owner, Std.ExtTreeSet.mem_insert_self⟩ fun other hother => ?_
  rw [Std.ExtTreeSet.mem_insert, Std.compare_eq_iff_eq] at hother
  rcases hother with rfl | hbefore
  · exact howner
  · cases hset : owners[output]? with
    | none =>
      rw [hset] at hbefore
      exact absurd hbefore Std.ExtTreeSet.not_mem_empty
    | some others =>
      rw [hset] at hbefore
      exact (h output others hset).2 other hbefore

theorem foldl_want (h : Backed physical owners) (outputs : List HidUsage) (howner : owner ∈ physical) :
    Backed physical (outputs.foldl (KeyRemap.want · · owner) owners) :=
  List.foldlRecOn outputs _ h fun _ hbefore _ _ => hbefore.want howner

theorem wantHeld (h : Backed physical owners) (mode : KeyboardMode) (consumed : UInt8)
    (mods : List HidUsage) {held : HidUsage} (hheld : held ∈ physical) :
    Backed physical (wantHeld mode consumed mods owners held) := by
  unfold KeyRemap.wantHeld
  cases Keymap.modifierClass held with
  | none => exact h
  | some class_ =>
    dsimp only
    split
    · exact h.want hheld
    · exact h.foldl_want mods hheld

end Backed

theorem backed_wanted (r : KeyRemap) (consumed : UInt8) (mods keyMods : List HidUsage) {key : HidUsage}
    (hkey : key ∈ r.physical) : Backed r.physical (r.wanted consumed mods keyMods key) := by
  refine Backed.foldl_want ?_ keyMods hkey
  refine List.foldlRecOn _ _ (.empty _) fun owners hbefore held hheld => ?_
  exact hbefore.wantHeld r.mode consumed mods (Std.ExtTreeSet.mem_toList.mp hheld)

/-- **What holds of the remap**: the owners and the keys held back are down. -/
structure Sound (r : KeyRemap) : Prop where
  backed : Backed r.physical r.owners
  deferred : ∀ modifier ∈ r.deferred, modifier ∈ r.physical

/-- What a step on keys that are down keeps. -/
structure Kept (r r' : KeyRemap) : Prop where
  sound : Sound r'
  physical : r'.physical = r.physical

namespace Sound

theorem new (mode : KeyboardMode) : Sound (KeyRemap.new mode) :=
  ⟨.empty _, fun _ h => absurd h Std.ExtTreeSet.not_mem_empty⟩

theorem reset (r : KeyRemap) (mode : KeyboardMode) : Sound (r.reset mode) :=
  ⟨(new mode).backed, (new mode).deferred⟩

theorem clear (h : Sound r) : Sound { r with deferred := ∅ } :=
  ⟨h.backed, fun _ h => absurd h Std.ExtTreeSet.not_mem_empty⟩

theorem own (h : Sound r) (output : HidUsage) (howner : owner ∈ r.physical) : Kept r (r.own output owner).2 :=
  ⟨⟨h.backed.want howner, h.deferred⟩, rfl⟩

theorem lift (h : Sound r) (output : HidUsage) : Kept r (r.lift output).2 :=
  ⟨⟨h.backed.erase, h.deferred⟩, rfl⟩

theorem assign (h : Sound r) (entry : HidUsage × Std.ExtTreeSet HidUsage)
    (hsome : ∃ owner, owner ∈ entry.2) (hall : ∀ owner ∈ entry.2, owner ∈ r.physical) : Kept r (r.assign entry).2 :=
  ⟨⟨h.backed.insert hsome hall, h.deferred⟩, rfl⟩

/-- A run of steps on what fits the keys that are down. -/
theorem collect {C : Type} {step : KeyRemap → C → List Edge × KeyRemap} (fits : Std.ExtTreeSet HidUsage → C → Prop)
    (hstep : ∀ r c, Sound r → fits r.physical c → Kept r (step r c).2) (h : Sound r) (calls : List C)
    (hfits : ∀ c ∈ calls, fits r.physical c) : Kept r (Replay.collect step r calls).2 := by
  induction calls generalizing r with
  | nil => exact ⟨h, rfl⟩
  | cons c rest ih =>
    have hfirst := hstep r c h (hfits c (.head _))
    have hrest := ih hfirst.sound fun d hd => hfirst.physical ▸ hfits d (.tail _ hd)
    exact ⟨hrest.sound, hrest.physical.trans hfirst.physical⟩

theorem ownDefaults (h : Sound r) (modifiers : List HidUsage)
    (hdown : ∀ modifier ∈ modifiers, modifier ∈ r.physical) : Kept r (r.ownDefaults modifiers).2 :=
  collect (fun physical modifier => modifier ∈ physical) (fun _ _ hr hmodifier => hr.own _ hmodifier) h modifiers hdown

theorem pointer (h : Sound r) (busy : Bool) : Kept r (r.pointer busy).2 := by
  have hpressed := h.clear.ownDefaults r.deferred.toList fun modifier hmodifier =>
    h.deferred modifier (Std.ExtTreeSet.mem_toList.mp hmodifier)
  exact ⟨⟨hpressed.sound.backed, hpressed.sound.deferred⟩, hpressed.physical⟩

theorem pressModifier (h : Sound r) {modifier : HidUsage} (class_ : UInt8)
    (hdown : modifier ∈ r.physical) : Kept r (r.pressModifier modifier class_).2 := by
  unfold KeyRemap.pressModifier
  dsimp only
  split
  · refine ⟨⟨h.backed, fun other hother => ?_⟩, rfl⟩
    rw [Std.ExtTreeSet.mem_insert, Std.compare_eq_iff_eq] at hother
    rcases hother with rfl | hbefore
    · exact hdown
    · exact h.deferred other hbefore
  · exact h.own _ hdown

theorem setModifiers (h : Sound r) (consumed : UInt8) (mods keyMods : List HidUsage) {key : HidUsage}
    (hkey : key ∈ r.physical) : Kept r (r.setModifiers consumed mods keyMods key).2 := by
  have hlifted := collect (fun _ _ => True) (fun _ output hr _ => hr.lift output) h.clear
    (r.owners.keys.filter fun output =>
      Keymap.isModifier output && !(r.wanted consumed mods keyMods key).contains output)
    fun _ _ => trivial
  have hassigned := collect (fun physical entry => (∃ owner, owner ∈ entry.2) ∧ ∀ owner ∈ entry.2, owner ∈ physical)
    (fun r entry hr hfits => hr.assign entry hfits.1 hfits.2) hlifted.sound
    (r.wanted consumed mods keyMods key).toList fun entry hentry => by
      rw [hlifted.physical]
      exact backed_wanted r consumed mods keyMods hkey _ _ (Std.ExtTreeMap.mem_toList_iff_getElem?_eq_some.mp hentry)
  exact ⟨hassigned.sound, hassigned.physical.trans hlifted.physical⟩

theorem chord (h : Sound r) (consumed : UInt8) (mods keyMods : List HidUsage) (output : HidUsage)
    {key : HidUsage} (hkey : key ∈ r.physical) : Kept r (r.chord consumed mods keyMods output key).2 := by
  have hset := h.setModifiers consumed mods keyMods hkey
  have hown := hset.sound.own output (hset.physical ▸ hkey)
  exact ⟨hown.sound, hown.physical.trans hset.physical⟩

theorem pressKey (h : Sound r) {key : HidUsage} (hkey : key ∈ r.physical) : Kept r (r.pressKey key).2 := by
  unfold KeyRemap.pressKey
  split
  · have hidle := h.ownDefaults (r.physical.toList.filter fun held =>
      Keymap.isModifier held && !r.ownsAny held) fun modifier hmodifier =>
        Std.ExtTreeSet.mem_toList.mp (List.mem_of_mem_filter hmodifier)
    have hown := hidle.sound.clear.own key (hidle.physical ▸ hkey)
    exact ⟨hown.sound, hown.physical.trans hidle.physical⟩
  · cases r.lookup key with
    | none => exact h.chord 0 [] [] key hkey
    | some rule =>
      cases haction : rule.action with
      | block =>
        simp only [haction]
        exact ⟨h, rfl⟩
      | tap output =>
        simp only [haction]
        exact h.setModifiers rule.held [] [] hkey
      | press mods output =>
        simp only [haction]
        exact h.chord rule.held mods [] _ hkey
      | pressWith mods keyMods output =>
        simp only [haction]
        exact h.chord rule.held mods keyMods _ hkey
      | hold mods output =>
        simp only [haction]
        have hchord := h.chord rule.held mods [] (output.resolve key) hkey
        exact ⟨⟨hchord.sound.backed, hchord.sound.deferred⟩, hchord.physical⟩

/-- A key that goes up owns nothing any more. -/
theorem release (h : Sound r) (usage : HidUsage) :
    Sound ({ r with physical := r.physical.erase usage }.release usage).2 where
  backed output set hset := by
    have hmap : (r.owners.filterMap fun _ owners =>
        if (owners.erase usage).isEmpty then none else some (owners.erase usage))[output]? = some set := hset
    rw [Std.ExtTreeMap.getElem?_filterMap'] at hmap
    obtain ⟨owners, howners, hleft⟩ := Option.bind_eq_some_iff.mp hmap
    split at hleft
    · cases hleft
    · rename_i hempty
      cases hleft
      constructor
      · by_contra hnone
        exact hempty (Std.ExtTreeSet.isEmpty_iff.mpr
          (Std.ExtTreeSet.eq_empty_iff_forall_not_mem.mpr (not_exists.mp hnone)))
      · intro owner howner
        obtain ⟨hne, howner⟩ := Std.ExtTreeSet.mem_erase.mp howner
        exact Std.ExtTreeSet.mem_erase.mpr ⟨hne, (h.backed output owners howners).2 owner howner⟩
  deferred modifier hmodifier := by
    obtain ⟨hne, hbefore⟩ := Std.ExtTreeSet.mem_erase.mp (show modifier ∈ r.deferred.erase usage from hmodifier)
    exact Std.ExtTreeSet.mem_erase.mpr ⟨hne, h.deferred modifier hbefore⟩

end Sound

theorem Sound.press (h : Sound r) (usage : HidUsage) :
    Sound { r with physical := r.physical.insert usage } where
  backed := h.backed.mono fun _ howner => Std.ExtTreeSet.mem_insert.mpr (.inr howner)
  deferred modifier hmodifier := Std.ExtTreeSet.mem_insert.mpr (.inr (h.deferred modifier hmodifier))

theorem key_press (h : Sound r) (hup : usage ∉ r.physical) :
    Kept { r with physical := r.physical.insert usage } (r.key usage true).2 := by
  have hdown : usage ∈ r.physical.insert usage := Std.ExtTreeSet.mem_insert_self
  unfold key
  simp only [Bool.not_true, Bool.false_eq_true, if_false, if_neg hup]
  cases Keymap.modifierClass usage with
  | none => exact (h.press usage).pressKey hdown
  | some class_ => exact (h.press usage).pressModifier class_ hdown

theorem key_idle {pressed : Bool} (hsame : usage ∈ r.physical ↔ pressed = true) : r.key usage pressed = ([], r) := by
  cases pressed with
  | true => simp [key, hsame.mpr rfl]
  | false => simp [key, hsame]

/-- A release presses nothing. -/
theorem key_release (hdown : usage ∈ r.physical) :
    r.key usage false = { r with physical := r.physical.erase usage }.release usage := by
  simp [key, hdown]

theorem key_sound (h : Sound r) (usage : HidUsage) (pressed : Bool) : Sound (r.key usage pressed).2 ∧ ∀ other,
      other ∈ (r.key usage pressed).2.physical ↔ if usage = other then pressed = true else other ∈ r.physical := by
  by_cases hsame : usage ∈ r.physical ↔ pressed = true
  · rw [key_idle hsame]
    refine ⟨h, fun other => ?_⟩
    split
    · rename_i heq
      rwa [← heq]
    · exact Iff.rfl
  · cases pressed with
    | true =>
      have hup : usage ∉ r.physical := by simpa using hsame
      have hpress := key_press h hup
      refine ⟨hpress.sound, fun other => ?_⟩
      rw [hpress.physical, Std.ExtTreeSet.mem_insert, Std.compare_eq_iff_eq]
      split
      · rename_i heq
        exact ⟨fun _ => rfl, fun _ => .inl heq⟩
      · rename_i hne
        exact ⟨fun hor => hor.resolve_left hne, .inr⟩
    | false =>
      rw [key_release (by simpa using hsame)]
      refine ⟨h.release usage, fun other => ?_⟩
      show other ∈ r.physical.erase usage ↔ _
      rw [Std.ExtTreeSet.mem_erase, ne_eq, Std.compare_eq_iff_eq]
      split
      · rename_i heq
        exact ⟨fun hand => absurd heq hand.1, fun hfalse => by cases hfalse⟩
      · rename_i hne
        exact ⟨And.right, fun hother => ⟨hne, hother⟩⟩

theorem Sound.call (h : Sound r) (c : Call) : Sound (r.call c).2 := by
  cases c with
  | key usage pressed => exact (key_sound h usage pressed).1
  | pointer busy => exact (h.pointer busy).sound
  | pointerReleased busy => exact ⟨h.backed, h.deferred⟩
  | setTerminal terminal => exact ⟨h.backed, h.deferred⟩

/-- A call keeps track of the physical keys. -/
theorem physical_call (h : Sound r) (c : Call) {held : Bool} (hheld : usage ∈ r.physical ↔ held = true) :
    usage ∈ (r.call c).2.physical ↔ c.holds usage held = true := by
  cases c with
  | key other pressed =>
    refine ((key_sound h other pressed).2 usage).trans ?_
    show _ ↔ (if other = usage then pressed else held) = true
    split
    · exact Iff.rfl
    · exact hheld
  | pointer busy => exact (h.pointer busy).physical ▸ hheld
  | pointerReleased busy => exact hheld
  | setTerminal terminal => exact hheld

theorem sound_runCalls (h : Sound r) (calls : List Call) : Sound (r.runCalls calls).2 := by
  induction calls generalizing r with
  | nil => exact h
  | cons c rest ih => exact ih (h.call c)

theorem physical_runCalls (h : Sound r) (calls : List Call) {held : Bool} (hheld : usage ∈ r.physical ↔ held = true) :
    usage ∈ (r.runCalls calls).2.physical ↔ calls.foldl (Call.holds usage) held = true := by
  induction calls generalizing r held with
  | nil => exact hheld
  | cons c rest ih => exact ih (h.call c) (physical_call h c hheld)

/-! ## The law -/

theorem shows_new (mode : KeyboardMode) : Shows (fun _ => False) (KeyRemap.new mode) := by
  intro usage
  exact ⟨False.elim, fun h => absurd h Std.ExtTreeMap.not_mem_empty⟩

/-- **Key remapping leaves nothing stuck.** In every mode and after every run of calls, the edges are
well formed and leave exactly the injected keys down; a physical release presses nothing; every
injected key has an owner, which is down; and with no physical key down nothing is injected. -/
theorem keys_never_stuck (mode : KeyboardMode) (calls : List Call) :
    let edges := ((KeyRemap.new mode).runCalls calls).1
    let remap := ((KeyRemap.new mode).runCalls calls).2
    keyboard.Legal (fun _ => False) edges ∧
      (∀ usage, keyboard.run (fun _ => False) edges usage ↔ usage ∈ remap.injected) ∧
      (∀ usage edge, edge ∈ (remap.key usage false).1 → edge.2 = false) ∧
      (∀ usage ∈ remap.injected, ∃ owners, remap.owners[usage]? = some owners ∧
        (∃ owner, owner ∈ owners) ∧ ∀ owner ∈ owners, heldAfter owner calls = true) ∧
      ((∀ usage, heldAfter usage calls = false) → ∀ usage, usage ∉ remap.injected) := by
  intro edges remap
  have hsound : Sound remap := sound_runCalls (.new mode) calls
  have hphysical : ∀ usage, usage ∈ remap.physical ↔ heldAfter usage calls = true := fun usage => by
    refine physical_runCalls (.new mode) calls ?_
    exact ⟨fun h => absurd h Std.ExtTreeSet.not_mem_empty, fun h => by cases h⟩
  have hbacked : ∀ usage ∈ remap.injected, ∃ owners, remap.owners[usage]? = some owners ∧
      (∃ owner, owner ∈ owners) ∧ ∀ owner ∈ owners, heldAfter owner calls = true := by
    intro usage husage
    obtain ⟨owners, howners⟩ := Option.isSome_iff_exists.mp
      (Std.ExtTreeMap.mem_iff_isSome_getElem?.mp (Std.ExtTreeMap.mem_keys.mp husage))
    obtain ⟨hsome, hall⟩ := hsound.backed usage owners howners
    exact ⟨owners, howners, hsome, fun owner howner => (hphysical owner).mp (hall owner howner)⟩
  obtain ⟨hlegal, hshows⟩ := tracks_runCalls (KeyRemap.new mode) calls _ (shows_new mode)
  refine ⟨hlegal, ?_, ?_, hbacked, ?_⟩
  · intro usage
    exact (hshows usage).trans Std.ExtTreeMap.mem_keys.symm
  · intro usage edge hedge
    by_cases hdown : usage ∈ remap.physical
    · rw [key_release hdown] at hedge
      obtain ⟨output, -, rfl⟩ := List.mem_map.mp hedge
      rfl
    · rw [key_idle (by simpa using hdown)] at hedge
      cases hedge
  · intro hup usage husage
    obtain ⟨owners, -, ⟨owner, howner⟩, hall⟩ := hbacked usage husage
    have hdown := hall owner howner
    rw [hup owner] at hdown
    cases hdown

/-- Copy in a Mac's terminal: Cmd goes up before C. -/
def copy : List Call :=
  [.setTerminal true, .key Keymap.lgui true, .key Keymap.c true, .key Keymap.lgui false,
    .key Keymap.c false]

theorem keys_never_stuck_copy : (∀ usage, heldAfter usage copy = false) ∧
      ∀ usage, usage ∉ ((KeyRemap.new .mac).runCalls copy).2.injected := by
  have hup : ∀ usage, heldAfter usage copy = false := by
    intro usage
    by_cases hcmd : Keymap.lgui = usage <;> by_cases hc : Keymap.c = usage <;>
      simp [heldAfter, copy, Call.holds, hcmd, hc]
  exact ⟨hup, (keys_never_stuck .mac copy).2.2.2.2 hup⟩

end KeyRemap

end Zflow.Core
