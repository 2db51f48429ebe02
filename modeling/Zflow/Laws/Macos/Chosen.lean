import Zflow.Laws.Core.PlainModes
import Zflow.Laws.Macos.Poster

/-!
# The Ctrl and Cmd swap, and the modifiers it holds

In the mac mode each of the four Ctrl and Cmd keys stands for the modifier chosen at its press. The remap
below knows only the modifiers chosen, each down once; so two keys that stand for the same one share it,
and the first to go up takes it along. While no key goes up that shares its modifier with another
(`Shared`), the modifier of every key that is down is down. And what is down always stands for a key that
is down, so with every key up no modifier is left.
-/

namespace Zflow.Macos

open Zflow.Core Lib

/-! ## Modifiers and their keycodes -/

theorem hidToMacKeycode_eq {usage : HidUsage} {iso : Bool} {code : Nat}
    (h : hidToMacKeycode usage iso = some code) (hmodifier : isModifier code = true) :
    usage.page = HidUsage.keyboardKeypad ∧ (code, usage.usage) ∈ macKeys := by
  unfold hidToMacKeycode at h
  split at h
  · cases h
  rename_i hpage
  obtain ⟨found, hfound, hcode⟩ := Option.map_eq_some_iff.mp h
  have hmods : ∀ row ∈ modifiers, row.1 ≠ 10 ∧ row.1 ≠ 50 ∧ row.1 ≠ f13 := by decide
  obtain ⟨row, hrow, heq⟩ := List.any_eq_true.mp hmodifier
  have heq : row.1 = code := by simpa using heq
  obtain ⟨hten, hfifty, hf13⟩ := hmods row hrow
  rw [heq] at hten hfifty hf13
  have hsame : found = code := by
    split at hcode
    · rename_i hswap
      rcases hswap.1 with rfl | rfl
      · exact absurd hcode.symm hfifty
      · exact absurd hcode.symm hten
    · exact hcode
  rw [hsame] at hfound
  split at hfound
  · exact absurd (Option.some.inj hfound).symm hf13
  · obtain ⟨entry, hfind, hentry⟩ := Option.map_eq_some_iff.mp hfound
    have husage := List.find?_some hfind
    have hrow : entry = (code, usage.usage) := Prod.ext hentry (by simpa using husage)
    exact ⟨not_not.mp hpage, hrow ▸ List.mem_of_find?_eq_some hfind⟩

/-- Each modifier's keycode stands for one usage. -/
theorem modifier_usage {usage other : HidUsage} {iso : Bool} {code : Nat}
    (h : hidToMacKeycode usage iso = some code) (h' : hidToMacKeycode other iso = some code)
    (hmodifier : isModifier code = true) : usage = other := by
  have hrows : ∀ row ∈ macKeys, ∀ row' ∈ macKeys, row.1 = row'.1 → row.2 = row'.2 := by decide +kernel
  obtain ⟨hpage, hmem⟩ := hidToMacKeycode_eq h hmodifier
  obtain ⟨hpage', hmem'⟩ := hidToMacKeycode_eq h' hmodifier
  have husage := hrows _ hmem _ hmem' rfl
  cases usage
  cases other
  simp_all

namespace Poster

variable {B : Type} [Backend B] {p : Poster B} {usage : HidUsage}

/-- The four keys that trade places. -/
def ctrlAndCmd : List HidUsage := [Keymap.lctrl, Keymap.lgui, Keymap.rctrl, Keymap.rgui]

/-- A usage that goes to the Mac as a keycode. -/
def Typing (usage : HidUsage) (iso : Bool) : Prop :=
  hidToMediaKey usage = none ∧ usage ≠ capsLock ∧ (hidToMacKeycode usage iso).isSome = true

/-- **The keys down are those of the remap**, and each modifier is down once. -/
structure Keyed (keys : Std.ExtTreeMap HidUsage Nat) (codes : Std.ExtTreeMap Nat Nat)
    (physical : Std.ExtTreeSet HidUsage) (iso : Bool) : Prop where
  keycode : ∀ (usage : HidUsage) (code : Nat), keys[usage]? = some code → hidToMacKeycode usage iso = some code
  mem : ∀ usage : HidUsage, usage ∈ keys ↔ usage ∈ physical ∧ Typing usage iso
  modifier : ∀ (usage : HidUsage) (code : Nat), hidToMacKeycode usage iso = some code →
    isModifier code = true → codes[code]? = if usage ∈ keys then some 1 else none

/-- What posting and its bookkeeping leave alone. -/
structure Frame (p p' : Poster B) : Prop where
  chosen : p'.chosen = p.chosen
  remap : p'.remap = p.remap
  keyboard : p'.keyboard = p.keyboard
  environment : p'.environment = p.environment

omit [Backend B] in
theorem Frame.trans {p₁ p₂ : Poster B} (h : Frame p p₁) (h' : Frame p₁ p₂) : Frame p p₂ :=
  ⟨h'.chosen.trans h.chosen, h'.remap.trans h.remap, h'.keyboard.trans h.keyboard, h'.environment.trans h.environment⟩

theorem frame_press (usage : HidUsage) (now : MonotonicTimeMicros) : Frame p (press usage now p).2 := by
  unfold press
  cases hidToMacKeycode usage p.environment.iso with
  | none => exact ⟨rfl, rfl, rfl, rfl⟩
  | some code =>
    dsimp only
    split
    · exact ⟨rfl, rfl, rfl, rfl⟩
    split
    · exact ⟨rfl, rfl, rfl, rfl⟩
    · split <;> exact ⟨rfl, rfl, rfl, rfl⟩

theorem frame_release (usage : HidUsage) : Frame p (release usage p).2 := by
  unfold release
  cases p.keys[usage]? with
  | none => exact ⟨rfl, rfl, rfl, rfl⟩
  | some code =>
    dsimp only
    cases p.codes[code]? with
    | none => exact ⟨rfl, rfl, rfl, rfl⟩
    | some count =>
      dsimp only
      split
      · exact ⟨rfl, rfl, rfl, rfl⟩
      · split <;> exact ⟨rfl, rfl, rfl, rfl⟩

theorem frame_output (usage : HidUsage) (pressed : Bool) (now : MonotonicTimeMicros) :
    Frame p (output usage pressed now p).2 := by
  unfold output
  cases hidToMediaKey usage with
  | some key =>
    cases pressed <;> simp only [Bool.false_eq_true, if_false, if_true] <;> split <;>
      exact ⟨rfl, rfl, rfl, rfl⟩
  | none =>
    dsimp only
    split
    · cases pressed <;> exact ⟨rfl, rfl, rfl, rfl⟩
    · cases pressed with
      | true => exact frame_press usage now
      | false => exact frame_release usage

/-! ## The keys of an edge -/

/-- What a press does to the keys, whether its post succeeds or not. -/
theorem press_keys (now : MonotonicTimeMicros) {code : Nat}
    (hcode : hidToMacKeycode usage p.environment.iso = some code) (hfree : usage ∉ p.keys) :
    (press usage now p).2.keys = p.keys.insert usage code ∧
      (press usage now p).2.codes = p.codes.insert code (p.codes[code]?.getD 0 + 1) := by
  unfold press
  rw [hcode]
  dsimp only
  rw [if_neg hfree]
  split
  · exact ⟨rfl, rfl⟩
  · split <;> exact ⟨rfl, rfl⟩

theorem Keyed.press {physical : Std.ExtTreeSet HidUsage} (now : MonotonicTimeMicros)
    (h : Keyed p.keys p.codes physical p.environment.iso) (hmedia : hidToMediaKey usage = none)
    (hcaps : usage ≠ capsLock) (hup : usage ∉ physical) :
    Keyed (Poster.press usage now p).2.keys (Poster.press usage now p).2.codes (physical.insert usage)
      p.environment.iso := by
  have hfree : usage ∉ p.keys := fun hmem => hup ((h.mem usage).mp hmem).1
  cases hcode : hidToMacKeycode usage p.environment.iso with
  | none =>
    have hsame : (Poster.press usage now p).2 = p := by
      unfold Poster.press
      rw [hcode]
    rw [hsame]
    refine ⟨h.keycode, fun other => ?_, h.modifier⟩
    rw [h.mem, Std.ExtTreeSet.mem_insert, Std.compare_eq_iff_eq]
    refine ⟨fun hand => ⟨.inr hand.1, hand.2⟩, fun hand => ⟨hand.1.resolve_left ?_, hand.2⟩⟩
    rintro rfl
    have htyping := hand.2.2.2
    rw [hcode] at htyping
    cases htyping
  | some code =>
    obtain ⟨hkeys, hcodes⟩ := press_keys now hcode hfree
    rw [hkeys, hcodes]
    refine ⟨fun other found hfound => ?_, fun other => ?_, fun other found hother hmodifier => ?_⟩
    · rw [Std.ExtTreeMap.getElem?_insert] at hfound
      split at hfound
      · rename_i heq
        rw [← Std.compare_eq_iff_eq.mp heq, hcode, ← hfound]
      · exact h.keycode other found hfound
    · rw [Std.ExtTreeMap.mem_insert, Std.ExtTreeSet.mem_insert, Std.compare_eq_iff_eq, h.mem]
      constructor
      · rintro (rfl | hand)
        · exact ⟨.inl rfl, hmedia, hcaps, by rw [hcode]; rfl⟩
        · exact ⟨.inr hand.1, hand.2⟩
      · rintro ⟨rfl | hbefore, htyping⟩
        · exact .inl rfl
        · exact .inr ⟨hbefore, htyping⟩
    · rw [Std.ExtTreeMap.getElem?_insert]
      simp only [Std.ExtTreeMap.mem_insert, Std.compare_eq_iff_eq]
      by_cases hsame : code = found
      · subst hsame
        obtain rfl := modifier_usage hcode hother hmodifier
        have hnone : p.codes[code]? = none := by
          rw [h.modifier usage code hcode hmodifier, if_neg hfree]
        simp [hnone]
      · have hne : usage ≠ other := by
          rintro rfl
          exact hsame (Option.some.inj (hcode.symm.trans hother))
        simp only [if_neg hsame, hne, false_or]
        exact h.modifier other found hother hmodifier

/-- What a release does to the keys. -/
theorem release_keys {code : Nat} (hkey : p.keys[usage]? = some code) : (release usage p).2.keys = p.keys.erase usage ∧
      ∀ other, other ≠ code → (release usage p).2.codes[other]? = p.codes[other]? := by
  have hinsert : ∀ (n other : Nat), other ≠ code → (p.codes.insert code n)[other]? = p.codes[other]? := by
    intro n other hne
    rw [Std.ExtTreeMap.getElem?_insert, if_neg]
    exact fun heq => hne (Std.compare_eq_iff_eq.mp heq).symm
  have herase : ∀ other, other ≠ code → (p.codes.erase code)[other]? = p.codes[other]? := by
    intro other hne
    rw [Std.ExtTreeMap.getElem?_erase, if_neg]
    exact fun heq => hne (Std.compare_eq_iff_eq.mp heq).symm
  unfold release
  rw [hkey]
  dsimp only
  cases p.codes[code]? with
  | none => exact ⟨rfl, fun _ _ => rfl⟩
  | some count =>
    dsimp only
    split
    · exact ⟨rfl, hinsert _⟩
    · split <;> exact ⟨rfl, herase⟩

/-- A modifier that is down once is up after its release. -/
theorem release_modifier {code : Nat} (hkey : p.keys[usage]? = some code) (hone : p.codes[code]? = some 1) :
    (release usage p).2.codes[code]? = none := by
  unfold release
  rw [hkey]
  dsimp only
  rw [hone]
  dsimp only
  have herase : (p.codes.erase code)[code]? = none := by
    rw [Std.ExtTreeMap.getElem?_erase_self]
  split
  · rename_i hmore
    simp at hmore
  · split <;> exact herase

theorem Keyed.release {physical : Std.ExtTreeSet HidUsage} (h : Keyed p.keys p.codes physical p.environment.iso) :
    Keyed (Poster.release usage p).2.keys (Poster.release usage p).2.codes (physical.erase usage)
      p.environment.iso := by
  cases hkey : p.keys[usage]? with
  | none =>
    have hsame : (Poster.release usage p).2 = p := by
      unfold Poster.release
      rw [hkey]
    have hfree : usage ∉ p.keys := by
      rw [Std.ExtTreeMap.mem_iff_isSome_getElem?, hkey]
      exact Bool.false_ne_true
    rw [hsame]
    refine ⟨h.keycode, fun other => ?_, h.modifier⟩
    rw [h.mem, Std.ExtTreeSet.mem_erase, ne_eq, Std.compare_eq_iff_eq]
    refine ⟨fun hand => ⟨⟨?_, hand.1⟩, hand.2⟩, fun hand => ⟨hand.1.2, hand.2⟩⟩
    rintro rfl
    exact hfree ((h.mem usage).mpr hand)
  | some code =>
    have hcode := h.keycode usage code hkey
    have hmem : usage ∈ p.keys := Std.ExtTreeMap.mem_iff_isSome_getElem?.mpr (by rw [hkey]; rfl)
    obtain ⟨hkeys, hcodes⟩ := release_keys hkey
    rw [hkeys]
    refine ⟨fun other found hfound => ?_, fun other => ?_, fun other found hother hmodifier => ?_⟩
    · rw [Std.ExtTreeMap.getElem?_erase] at hfound
      split at hfound
      · cases hfound
      · exact h.keycode other found hfound
    · rw [Std.ExtTreeMap.mem_erase, Std.ExtTreeSet.mem_erase, h.mem, and_assoc]
    · simp only [Std.ExtTreeMap.mem_erase, ne_eq, Std.compare_eq_iff_eq]
      by_cases hsame : found = code
      · subst hsame
        obtain rfl := modifier_usage hcode hother hmodifier
        have hone : p.codes[found]? = some 1 := by
          rw [h.modifier usage found hcode hmodifier, if_pos hmem]
        rw [release_modifier hkey hone]
        simp
      · have hne : usage ≠ other := by
          rintro rfl
          exact hsame (Option.some.inj (hother.symm.trans hcode))
        rw [hcodes found hsame, h.modifier other found hother hmodifier]
        simp [hne]

/-- An edge of the remap moves its own key. -/
theorem Keyed.output {physical : Std.ExtTreeSet HidUsage} (pressed : Bool) (now : MonotonicTimeMicros)
    (h : Keyed p.keys p.codes physical p.environment.iso) (hnew : usage ∈ physical ↔ pressed = false) :
    Keyed (Poster.output usage pressed now p).2.keys (Poster.output usage pressed now p).2.codes
      (if pressed then physical.insert usage else physical.erase usage) p.environment.iso := by
  -- A key that types nothing is in no record.
  have hother : ¬ Typing usage p.environment.iso → Keyed p.keys p.codes
      (if pressed then physical.insert usage else physical.erase usage) p.environment.iso := by
    intro hnot
    refine ⟨h.keycode, fun other => (h.mem other).trans (and_congr_left fun htyping => ?_), h.modifier⟩
    have hne : usage ≠ other := by
      rintro rfl
      exact hnot htyping
    cases pressed with
    | true => simp [hne]
    | false => simp [hne]
  unfold Poster.output
  cases hmedia : hidToMediaKey usage with
  | some key =>
    have hkept := hother fun htyping => by
      rw [htyping.1] at hmedia
      cases hmedia
    cases pressed <;> simp only [Bool.false_eq_true, if_false, if_true] at hkept ⊢ <;> split <;> exact hkept
  | none =>
    dsimp only
    split
    · rename_i hcaps
      have hkept := hother fun htyping => htyping.2.1 hcaps
      cases pressed <;> exact hkept
    · rename_i hcaps
      cases pressed with
      | true => exact h.press now hmedia hcaps (by simpa using hnew)
      | false => exact h.release

/-! ## What stands for what -/

theorem swapped_eq_none : swapped usage = none ↔ usage ∉ ctrlAndCmd := by
  unfold swapped
  split_ifs with hlctrl hlgui hrctrl hrgui
  · simp [hlctrl, ctrlAndCmd]
  · simp [hlgui, ctrlAndCmd]
  · simp [hrctrl, ctrlAndCmd]
  · simp [hrgui, ctrlAndCmd]
  · simp [ctrlAndCmd, hlctrl, hlgui, hrctrl, hrgui]

theorem swapped_mem {other : HidUsage} (h : swapped usage = some other) : other ∈ ctrlAndCmd := by
  unfold swapped at h
  split_ifs at h <;> · cases h; decide

/-- A key that goes up shares its modifier with another that is down. -/
def Shared (p : Poster B) (physical : HidUsage) : Prop :=
  physical ∈ ctrlAndCmd ∧ ∃ other : HidUsage, other ≠ physical ∧
    p.chosen[other]? = some (p.chosen[physical]?.getD physical)

/-- What the swap answers for one of its keys, and what it remembers. -/
structure Chooses (p : Poster B) (physical : HidUsage) (pressed : Bool) (usage : HidUsage)
    (p' : Poster B) : Prop where
  modifier : usage ∈ ctrlAndCmd
  chosen : ∀ other : HidUsage, p'.chosen[other]? =
    if other = physical then if pressed then some usage else none else p.chosen[other]?
  kept : ∀ c : HidUsage, p.chosen[physical]? = some c → usage = c
  released : pressed = false → usage = p.chosen[physical]?.getD physical
  remap : p'.remap = p.remap
  keyboard : p'.keyboard = p.keyboard
  environment : p'.environment = p.environment
  keys : p'.keys = p.keys
  codes : p'.codes = p.codes

theorem choose_chooses {physical : HidUsage} {pressed : Bool} (hmem : physical ∈ ctrlAndCmd)
    (hkeyboard : p.keyboard = .mac) (hchosen : ∀ k c : HidUsage, p.chosen[k]? = some c → c ∈ ctrlAndCmd) :
    Chooses p physical pressed (p.choose physical pressed).1 (p.choose physical pressed).2 := by
  obtain ⟨other, hother⟩ := Option.ne_none_iff_exists'.mp fun hnone => swapped_eq_none.mp hnone hmem
  unfold choose
  rw [hother]
  dsimp only
  rw [if_neg (not_not.mpr hkeyboard)]
  cases pressed with
  | false =>
    refine ⟨?_, fun k => ?_, fun c hc => ?_, fun _ => rfl, rfl, rfl, rfl, rfl, rfl⟩
    · show p.chosen[physical]?.getD physical ∈ ctrlAndCmd
      cases hsome : p.chosen[physical]? with
      | none => exact hmem
      | some c => exact hchosen physical c hsome
    · show (p.chosen.erase physical)[k]? = _
      rw [Std.ExtTreeMap.getElem?_erase]
      by_cases heq : k = physical
      · simp [heq]
      · simp [heq, Ne.symm heq]
    · show p.chosen[physical]?.getD physical = c
      rw [hc, Option.getD_some]
  | true =>
    rw [if_neg (by simp)]
    cases hsome : p.chosen[physical]? with
    | some c =>
      refine ⟨hchosen physical c hsome, fun k => ?_, fun d hd => Option.some.inj (hsome.symm.trans hd),
        fun h => (by cases h), rfl, rfl, rfl, rfl, rfl⟩
      dsimp only
      split
      · rename_i heq
        rw [heq, hsome]
        rfl
      · rfl
    | none =>
      refine ⟨?_, fun k => ?_, fun d hd => ?_, fun h => (by cases h), rfl, rfl, rfl, rfl, rfl⟩
      · dsimp only
        split
        · exact hmem
        · exact swapped_mem hother
      · show (p.chosen.insert physical _)[k]? = _
        rw [Std.ExtTreeMap.getElem?_insert]
        by_cases heq : k = physical
        · simp [heq]
        · simp [heq, Ne.symm heq]
      · rw [hsome] at hd
        cases hd

/-- **What holds in the mac mode**: the keys down are the remap's, and each of those stands for a key that
is down. -/
structure Standing (p : Poster B) (held : HidUsage → Bool) : Prop where
  good : Good p
  keyboard : p.keyboard = .mac
  plain : p.remap.Plain
  standard : p.remap.mode = .standard
  keyed : Keyed p.keys p.codes p.remap.physical p.environment.iso
  chosen : ∀ k c : HidUsage, p.chosen[k]? = some c → k ∈ ctrlAndCmd ∧ c ∈ ctrlAndCmd ∧ held k = true
  backed : ∀ u ∈ p.remap.physical, (u ∉ ctrlAndCmd ∧ held u = true) ∨ ∃ k : HidUsage, p.chosen[k]? = some u

/-- The modifier of every key that is down is down in the remap. -/
def Supported (p : Poster B) : Prop :=
  ∀ k c : HidUsage, p.chosen[k]? = some c → c ∈ p.remap.physical

/-- The keys down after an edge. -/
def heldWith (held : HidUsage → Bool) (physical : HidUsage) (pressed : Bool) : HidUsage → Bool :=
  fun other => if other = physical then pressed else held other

/-- An edge through the remap: what the keyboard and the record come to. -/
theorem edge_keyed (hplain : p.remap.Plain) (hstandard : p.remap.mode = .standard)
    (hkeyed : Keyed p.keys p.codes p.remap.physical p.environment.iso) (usage : HidUsage) (pressed : Bool)
    (now : MonotonicTimeMicros) :
    let p' := (outputs now (p.remap.key usage pressed).1 { p with remap := (p.remap.key usage pressed).2 }).2
    Keyed p'.keys p'.codes p'.remap.physical p'.environment.iso ∧ p'.remap.Plain ∧
      p'.remap.mode = .standard ∧ p'.keyboard = p.keyboard ∧ p'.chosen = p.chosen ∧
      ∀ other, other ∈ p'.remap.physical ↔ if other = usage then pressed = true else other ∈ p.remap.physical := by
  by_cases hsame : usage ∈ p.remap.physical ↔ pressed = true
  · rw [KeyRemap.key_idle hsame]
    refine ⟨hkeyed, hplain, hstandard, rfl, rfl, fun other => ?_⟩
    split
    · rename_i heq
      rw [heq]
      exact hsame
    · exact Iff.rfl
  · have hnew : usage ∈ p.remap.physical ↔ pressed = false := by
      cases pressed <;> simpa using hsame
    obtain ⟨hedges, hplain', hmode⟩ := KeyRemap.key_plain hplain hnew
    have hedges : (p.remap.key usage pressed).1 = [(usage, pressed)] := by
      rw [hedges, hstandard]
      rfl
    have hphysical : (p.remap.key usage pressed).2.physical =
        if pressed then p.remap.physical.insert usage else p.remap.physical.erase usage := by
      cases pressed with
      | true =>
        rw [KeyRemap.key_press_plain hplain (by simpa using hnew)]
        rfl
      | false =>
        rw [KeyRemap.key_release (by simpa using hnew)]
        rfl
    have hsound : KeyRemap.Sound p.remap :=
      ⟨hplain.backed, fun _ hmem => by simp [hplain.deferred] at hmem⟩
    have houtput := Keyed.output (p := { p with remap := (p.remap.key usage pressed).2 }) pressed now
      hkeyed hnew
    have hframe := frame_output (p := { p with remap := (p.remap.key usage pressed).2 }) usage pressed now
    have hstate : (outputs now [(usage, pressed)] { p with remap := (p.remap.key usage pressed).2 }).2 =
        (output usage pressed now { p with remap := (p.remap.key usage pressed).2 }).2 := by
      show ((output usage pressed now >>= fun _ => outputs now []) _).2 = _
      rw [Act.bind_apply]
      rcases output usage pressed now _ with ⟨_ | _, _⟩ <;> rfl
    rw [hedges, hstate]
    refine ⟨?_, hframe.remap ▸ hplain', ?_, hframe.keyboard, hframe.chosen, fun other => ?_⟩
    · rw [hframe.remap, hframe.environment, hphysical]
      exact houtput
    · rw [hframe.remap, hmode]
      exact hstandard
    · rw [hframe.remap, (KeyRemap.key_sound hsound usage pressed).2 other]
      simp only [eq_comm]

/-- **A key edge in the mac mode.** What is down still stands for keys that are down; and unless a key goes
up that shares its modifier, the modifier of every key that is down stays down. -/
theorem key_standing {held : HidUsage → Bool} (h : Standing p held) (physical : HidUsage) (pressed : Bool)
    (now : MonotonicTimeMicros) : Standing (key physical pressed now p).2 (heldWith held physical pressed) ∧
      (Supported p → ¬ (pressed = false ∧ Shared p physical) → Supported (key physical pressed now p).2) := by
  have hgood := carries_key physical pressed now p h.good
  by_cases hmem : physical ∈ ctrlAndCmd
  · have hchoose : Chooses p physical pressed _ _ :=
      choose_chooses hmem h.keyboard fun k c hc => (h.chosen k c hc).2.1
    have hkey : key physical pressed now p = outputs now
        ((p.choose physical pressed).2.remap.key (p.choose physical pressed).1 pressed).1
        { (p.choose physical pressed).2 with
          remap := ((p.choose physical pressed).2.remap.key (p.choose physical pressed).1 pressed).2 } := rfl
    rw [hkey] at hgood ⊢
    generalize (p.choose physical pressed).1 = usage at hchoose hgood ⊢
    generalize (p.choose physical pressed).2 = q at hchoose hgood ⊢
    obtain ⟨hkeyed, hplain, hstandard, hkeyboard, hchosen, hphysical⟩ := edge_keyed (p := q)
      (hchoose.remap ▸ h.plain) (hchoose.remap ▸ h.standard)
      (by rw [hchoose.keys, hchoose.codes, hchoose.remap, hchoose.environment]; exact h.keyed)
      usage pressed now
    generalize (outputs now (q.remap.key usage pressed).1
      { q with remap := (q.remap.key usage pressed).2 }).2 = p'
      at hgood hkeyed hplain hstandard hkeyboard hchosen hphysical ⊢
    rw [hchoose.remap] at hphysical
    have hget : ∀ k : HidUsage, p'.chosen[k]? =
        if k = physical then if pressed then some usage else none else p.chosen[k]? := fun k => by
      rw [hchosen]
      exact hchoose.chosen k
    refine ⟨⟨hgood, hkeyboard.trans (hchoose.keyboard.trans h.keyboard), hplain, hstandard, hkeyed,
      fun k c hc => ?_, fun u hu => ?_⟩, fun hsupported hshared k c hc => ?_⟩
    · rw [hget] at hc
      split at hc
      · rename_i heq
        split at hc
        · rename_i hpressed
          cases hc
          exact ⟨heq ▸ hmem, hchoose.modifier, by simp [heldWith, heq, hpressed]⟩
        · cases hc
      · rename_i hne
        obtain ⟨hk, hc', hheld⟩ := h.chosen k c hc
        exact ⟨hk, hc', by simp [heldWith, hne, hheld]⟩
    · have hu' := (hphysical u).mp hu
      split at hu'
      · rename_i heq
        refine .inr ⟨physical, ?_⟩
        rw [hget, if_pos rfl, if_pos hu', heq]
      · rename_i hne
        rcases h.backed u hu' with ⟨hfree, hheld⟩ | ⟨k, hk⟩
        · have hother : u ≠ physical := fun heq => hfree (heq ▸ hmem)
          exact .inl ⟨hfree, by simp [heldWith, hother, hheld]⟩
        · refine .inr ⟨k, ?_⟩
          rw [hget, if_neg]
          · exact hk
          · rintro rfl
            exact hne (hchoose.kept u hk).symm
    · rw [hphysical]
      rw [hget] at hc
      split at hc
      · split at hc
        · rename_i hpressed
          cases hc
          rw [if_pos rfl]
          exact hpressed
        · cases hc
      · rename_i hne
        by_cases heq : c = usage
        · rw [if_pos heq]
          by_contra hreleased
          have hreleased : pressed = false := by simpa using hreleased
          refine hshared ⟨hreleased, hmem, k, hne, ?_⟩
          rw [hc, heq, hchoose.released hreleased]
        · rw [if_neg heq]
          exact hsupported k c hc
  · have hkey : key physical pressed now p =
        outputs now (p.remap.key physical pressed).1 { p with remap := (p.remap.key physical pressed).2 } := by
      unfold key choose
      rw [swapped_eq_none.mpr hmem]
    rw [hkey] at hgood ⊢
    obtain ⟨hkeyed, hplain, hstandard, hkeyboard, hchosen, hphysical⟩ :=
      edge_keyed h.plain h.standard h.keyed physical pressed now
    generalize (outputs now (p.remap.key physical pressed).1
      { p with remap := (p.remap.key physical pressed).2 }).2 = p'
      at hgood hkeyed hplain hstandard hkeyboard hchosen hphysical ⊢
    refine ⟨⟨hgood, hkeyboard.trans h.keyboard, hplain, hstandard, hkeyed, fun k c hc => ?_,
      fun u hu => ?_⟩, fun hsupported _ k c hc => ?_⟩
    · rw [hchosen] at hc
      obtain ⟨hk, hc', hheld⟩ := h.chosen k c hc
      have hne : k ≠ physical := fun heq => hmem (heq ▸ hk)
      exact ⟨hk, hc', by simp [heldWith, hne, hheld]⟩
    · rw [hchosen]
      have hu' := (hphysical u).mp hu
      split at hu'
      · rename_i heq
        exact .inl ⟨heq ▸ hmem, by simp [heldWith, heq, hu']⟩
      · rename_i hne
        rcases h.backed u hu' with ⟨hfree, hheld⟩ | hk
        · exact .inl ⟨hfree, by simp [heldWith, hne, hheld]⟩
        · exact .inr hk
    · rw [hchosen] at hc
      have hne : c ≠ physical := fun heq => hmem (heq ▸ (h.chosen k c hc).2.1)
      rw [hphysical, if_neg hne]
      exact hsupported k c hc

/-! ## Choices last -/

omit [Backend B] in
theorem frame_foldl {α : Type} (lift : Poster B → α → Poster B) (hlift : ∀ p a, Frame p (lift p a))
    (entries : List α) (p : Poster B) : Frame p (entries.foldl lift p) := by
  induction entries generalizing p with
  | nil => exact ⟨rfl, rfl, rfl, rfl⟩
  | cons entry rest ih => exact (hlift p entry).trans (ih (lift p entry))

theorem frame_outputs (now : MonotonicTimeMicros) (edges : List Edge) (p : Poster B) :
    Frame p (outputs now edges p).2 := by
  induction edges generalizing p with
  | nil => exact ⟨rfl, rfl, rfl, rfl⟩
  | cons edge rest ih =>
    obtain ⟨usage, pressed⟩ := edge
    have hframe := frame_output (p := p) usage pressed now
    show Frame p ((output usage pressed now >>= fun _ => outputs now rest) p).2
    rw [Act.bind_apply]
    rcases houtput : output usage pressed now p with ⟨_ | _, p'⟩
    · rw [houtput] at hframe
      exact hframe
    · rw [houtput] at hframe
      exact hframe.trans (ih p')

theorem key_chosen (physical : HidUsage) (pressed : Bool) (now : MonotonicTimeMicros) :
    (key physical pressed now p).2.chosen = (p.choose physical pressed).2.chosen :=
  (frame_outputs now _ _).chosen

/-- A choice lasts until its key goes up. -/
theorem choose_kept {physical : HidUsage} {pressed : Bool} {k c : HidUsage} (hc : p.chosen[k]? = some c)
    (hdown : pressed = false → k ≠ physical) : (p.choose physical pressed).2.chosen[k]? = some c := by
  unfold choose
  cases hswap : swapped physical with
  | none => exact hc
  | some other =>
    dsimp only
    split
    · exact hc
    cases pressed with
    | false =>
      show (p.chosen.erase physical)[k]? = some c
      rw [Std.ExtTreeMap.getElem?_erase, if_neg]
      · exact hc
      · exact fun heq => hdown rfl (Std.compare_eq_iff_eq.mp heq).symm
    | true =>
      rw [if_neg (by simp)]
      cases hsome : p.chosen[physical]? with
      | some _ => exact hc
      | none =>
        show (p.chosen.insert physical _)[k]? = some c
        rw [Std.ExtTreeMap.getElem?_insert, if_neg]
        · exact hc
        · intro heq
          rw [Std.compare_eq_iff_eq.mp heq, hc] at hsome
          cases hsome

/-- A press of one of the keys makes its choice, or finds the one it made. -/
theorem choose_makes {physical : HidUsage} (hmem : physical ∈ ctrlAndCmd) (hkeyboard : p.keyboard = .mac)
    (hchosen : ∀ k c : HidUsage, p.chosen[k]? = some c → c ∈ ctrlAndCmd) :
    ∃ c, (p.choose physical true).2.chosen[physical]? = some c := by
  have hchoose : Chooses p physical true _ _ := choose_chooses hmem hkeyboard hchosen
  have hget := hchoose.chosen physical
  rw [if_pos rfl, if_pos rfl] at hget
  exact ⟨_, hget⟩

/-! ## Releasing everything -/

theorem frame_releaseAll (p : Poster B) :
    p.releaseAll.keyboard = p.keyboard ∧ p.releaseAll.remap.mode = p.remap.mode := by
  have hstart : Frame p { p with repeating := none } := ⟨rfl, rfl, rfl, rfl⟩
  have hkeys := hstart.trans
    (frame_foldl liftKey (fun _ _ => ⟨rfl, rfl, rfl, rfl⟩) (p.codes.keys.partition isModifier).2 _)
  have hmedia : ∀ q : Poster B, Frame q q.liftMedias := fun q =>
    have hbare : Frame q { q with media := ∅ } := ⟨rfl, rfl, rfl, rfl⟩
    hbare.trans (frame_foldl liftMedia (fun _ _ => ⟨rfl, rfl, rfl, rfl⟩) q.media.toList _)
  have hmodifiers := frame_foldl (B := B) liftModifier (fun _ _ => ⟨rfl, rfl, rfl, rfl⟩)
    (p.codes.keys.partition isModifier).1
  have hbuttons : ∀ q : Poster B, Frame q q.liftButtons := fun q => by
    unfold liftButtons
    split
    · exact ⟨rfl, rfl, rfl, rfl⟩
    · have hbare : Frame q { q with backend := (Backend.cursor q.backend).2, buttons := ∅ } :=
        ⟨rfl, rfl, rfl, rfl⟩
      exact hbare.trans (frame_foldl (liftButton _) (fun _ _ => ⟨rfl, rfl, rfl, rfl⟩) _ _)
  have hframe := (hkeys.trans (hmedia _)).trans ((hmodifiers _).trans (hbuttons _))
  have hmode := congrArg KeyRemap.mode hframe.remap
  exact ⟨hframe.keyboard, hmode⟩

omit [Backend B] in
/-- At rest, nothing stands for anything. -/
theorem AtRest.standing (hrest : AtRest p) (hgood : Good p) (hkeyboard : p.keyboard = .mac)
    (hplain : p.remap.Plain) (hstandard : p.remap.mode = .standard) (hphysical : p.remap.physical = ∅)
    (held : HidUsage → Bool) : Standing p held ∧ Supported p := by
  have hnone : ∀ k : HidUsage, p.chosen[k]? = none := fun k => by
    rw [hrest.chosen]
    exact Std.ExtTreeMap.getElem?_empty
  refine ⟨⟨hgood, hkeyboard, hplain, hstandard, ?_, fun k c hc => ?_, fun u hu => ?_⟩, fun k c hc => ?_⟩
  · rw [hrest.keys, hrest.codes, hphysical]
    refine ⟨fun usage code hcode => ?_, fun usage => ?_, fun usage code _ _ => ?_⟩
    · simp at hcode
    · simp
    · simp
  · rw [hnone] at hc
    cases hc
  · rw [hphysical] at hu
    simp at hu
  · rw [hnone] at hc
    cases hc

theorem plain_reset (r : KeyRemap) : (r.reset .standard).Plain :=
  have h : (KeyRemap.new .standard).Plain := KeyRemap.Plain.new (by decide)
  ⟨h.mode, h.deferred, h.bound, h.backed, h.owns⟩

omit [Backend B] in
theorem AtRest.stands (hrest : AtRest p) (hgood : Good p) (hkeyboard : p.keyboard = .mac)
    (hstandard : p.remap.mode = .standard) (held : HidUsage → Bool) : Standing p held ∧ Supported p := by
  have hreset : p.remap = p.remap.reset .standard := by
    conv_lhs => rw [hrest.remap, hstandard]
    rfl
  refine hrest.standing hgood hkeyboard ?_ hstandard ?_ held
  · rw [hreset]
    exact plain_reset _
  · rw [hreset]
    rfl

theorem releaseAll_standing {held : HidUsage → Bool} (h : Standing p held) (held' : HidUsage → Bool) :
    Standing p.releaseAll held' ∧ Supported p.releaseAll := by
  obtain ⟨hgood, hrest⟩ := releaseAll_atRest h.good
  obtain ⟨hkeyboard, hmode⟩ := frame_releaseAll p
  exact hrest.stands hgood (hkeyboard.trans h.keyboard) (hmode.trans h.standard) held'

theorem begin_standing (h : Good p) (held : HidUsage → Bool) :
    Standing (p.begin .mac) held ∧ Supported (p.begin .mac) := by
  obtain ⟨_, hrest⟩ := releaseAll_atRest h
  have hgood := good_begin .mac h
  have hrest' : AtRest (p.begin .mac) := ⟨hrest.keys, hrest.codes, hrest.media, hrest.buttons, hrest.chosen,
    hrest.repeating, rfl, hrest.keysUp, hrest.mediaUp, hrest.buttonsUp⟩
  exact hrest'.standing hgood rfl (plain_reset _) rfl rfl held

/-- **A shared release takes the modifier along**: the other key still stands for it. -/
theorem shared_lifts {held : HidUsage → Bool} (h : Standing p held) {physical : HidUsage}
    (hshared : Shared p physical) (now : MonotonicTimeMicros) :
    ∃ other c : HidUsage, other ≠ physical ∧ p.chosen[other]? = some c ∧
      (key physical false now p).2.chosen[other]? = some c ∧ c ∉ (key physical false now p).2.keys := by
  obtain ⟨hmem, other, hother, hc⟩ := hshared
  have hchoose : Chooses p physical false _ _ :=
    choose_chooses hmem h.keyboard fun k c hc => (h.chosen k c hc).2.1
  have hedge := edge_keyed (p := (p.choose physical false).2) (hchoose.remap ▸ h.plain) (hchoose.remap ▸ h.standard)
    (by rw [hchoose.keys, hchoose.codes, hchoose.remap, hchoose.environment]; exact h.keyed)
    (p.choose physical false).1 false now
  have hkeyed : Keyed (key physical false now p).2.keys _ (key physical false now p).2.remap.physical _ :=
    hedge.1
  have hphysical : ∀ usage, usage ∈ (key physical false now p).2.remap.physical ↔ _ := hedge.2.2.2.2.2
  refine ⟨other, p.chosen[physical]?.getD physical, hother, hc, ?_, fun hkeys => ?_⟩
  · rw [key_chosen]
    exact choose_kept hc fun _ => hother
  · have hup := (hphysical _).mp ((hkeyed.mem _).mp hkeys).1
    rw [if_pos (hchoose.released rfl).symm] at hup
    cases hup

/-! ## Strokes -/

omit [Backend B] in
theorem Standing.congr {held : HidUsage → Bool} {p' : Poster B} (h : Standing p held) (hgood : Good p')
    (hframe : Frame p p') (hkeys : p'.keys = p.keys) (hcodes : p'.codes = p.codes) :
    Standing p' held ∧ (Supported p → Supported p') := by
  obtain ⟨hchosen, hremap, hkeyboard, henvironment⟩ := hframe
  refine ⟨⟨hgood, hkeyboard.trans h.keyboard, ?_, ?_, ?_, ?_, ?_⟩, fun hsupported => ?_⟩
  · exact hremap ▸ h.plain
  · exact hremap ▸ h.standard
  · rw [hkeys, hcodes, hremap, henvironment]
    exact h.keyed
  · rw [hchosen]
    exact h.chosen
  · rw [hchosen, hremap]
    exact h.backed
  · unfold Supported
    rw [hchosen, hremap]
    exact hsupported

theorem frame_isLocked (now : MonotonicTimeMicros) : Frame p (p.isLocked now).2 ∧
    (p.isLocked now).2.keys = p.keys ∧ (p.isLocked now).2.codes = p.codes := by
  unfold isLocked
  dsimp only
  split <;> exact ⟨⟨rfl, rfl, rfl, rfl⟩, rfl, rfl⟩

/-- A repeat changes no key, and a failed one releases them all. -/
theorem frame_tick (now : MonotonicTimeMicros) :
    ((p.tick now).1 = .ok () → Frame p (p.tick now).2 ∧ (p.tick now).2.keys = p.keys ∧
        (p.tick now).2.codes = p.codes) ∧
      ((p.tick now).2.keyboard = p.keyboard ∧ (p.tick now).2.remap.mode = p.remap.mode) := by
  have hreleased : ∀ {q : Poster B}, Frame p q → q.releaseAll.keyboard = p.keyboard ∧
      q.releaseAll.remap.mode = p.remap.mode := fun {q} h =>
    have hrelease := frame_releaseAll q
    ⟨hrelease.1.trans h.keyboard, hrelease.2.trans (congrArg KeyRemap.mode h.remap)⟩
  unfold tick
  cases p.repeating with
  | none => exact ⟨fun _ => ⟨⟨rfl, rfl, rfl, rfl⟩, rfl, rfl⟩, rfl, rfl⟩
  | some due =>
    dsimp only
    split
    · exact ⟨fun _ => ⟨⟨rfl, rfl, rfl, rfl⟩, rfl, rfl⟩, rfl, rfl⟩
    obtain ⟨hframe, hkeys, hcodes⟩ := frame_isLocked (p := p) now
    rcases hlocked : p.isLocked now with ⟨locked, q⟩
    rw [hlocked] at hframe hkeys hcodes
    cases locked with
    | true => exact ⟨fun hok => (by cases hok), hreleased hframe⟩
    | false =>
      dsimp only at hframe hkeys hcodes ⊢
      generalize (if due.at_ + q.environment.interval > now then due.at_ + q.environment.interval
        else now + q.environment.interval) = next
      rcases hresult : post (q.keyEvent due.code true true)
        { q with repeating := some ⟨due.code, next⟩ } with ⟨result, q'⟩
      have hq : (post (q.keyEvent due.code true true) { q with repeating := some ⟨due.code, next⟩ }).2 = q' :=
        congrArg Prod.snd hresult
      have hposted : Frame q q' ∧ q'.keys = q.keys ∧ q'.codes = q.codes :=
        hq ▸ ⟨⟨rfl, rfl, rfl, rfl⟩, rfl, rfl⟩
      have hafter := hframe.trans hposted.1
      cases result with
      | ok _ =>
        exact ⟨fun _ => ⟨hafter, hposted.2.1.trans hkeys, hposted.2.2.trans hcodes⟩, hafter.keyboard,
          congrArg KeyRemap.mode hafter.remap⟩
      | error _ => exact ⟨fun hok => (by cases hok), hreleased hafter⟩

omit [Backend B] in
/-- The modifiers' keycodes are down where their keys are. -/
theorem Standing.down {held : HidUsage → Bool} (h : Standing p held) {c : HidUsage} {code : Nat}
    (hcode : hidToMacKeycode c p.environment.iso = some code) (hmodifier : isModifier code = true) :
    (shown p.posted).keys code = true ↔ c ∈ p.keys := by
  rw [h.good.shows_.keys, Std.ExtTreeMap.mem_iff_isSome_getElem?, h.keyed.modifier c code hcode hmodifier]
  split
  · rename_i hmem
    exact iff_of_true rfl hmem
  · rename_i hfree
    exact iff_of_false Bool.false_ne_true hfree

/-- Each of the four keys types a modifier. -/
theorem ctrlAndCmd_typing {c : HidUsage} (hmem : c ∈ ctrlAndCmd) (iso : Bool) :
    Typing c iso ∧ ∃ code, hidToMacKeycode c iso = some code ∧ isModifier code = true := by
  have hkeys : ∀ c ∈ ctrlAndCmd, ∀ iso : Bool, hidToMediaKey c = none ∧ c ≠ capsLock ∧
      (hidToMacKeycode c iso).any isModifier = true := by decide +kernel
  obtain ⟨hmedia, hcaps, hany⟩ := hkeys c hmem iso
  obtain ⟨code, hcode, hmodifier⟩ := Option.any_eq_true _ _ |>.mp hany
  exact ⟨⟨hmedia, hcaps, by rw [hcode]; rfl⟩, code, hcode, hmodifier⟩

/-- Each modifier's keycode stands for some key. -/
theorem modifier_typed {code : Nat} (hmodifier : isModifier code = true) (iso : Bool) :
    ∃ usage, hidToMacKeycode usage iso = some code := by
  have hrows : ∀ iso : Bool, ∀ row ∈ modifiers, (macKeys.any fun entry =>
      hidToMacKeycode (.keyboard entry.2) iso == some row.1) = true := by decide +kernel
  obtain ⟨row, hrow, heq⟩ := List.any_eq_true.mp hmodifier
  obtain ⟨entry, _, hentry⟩ := List.any_eq_true.mp (hrows iso row hrow)
  exact ⟨_, (beq_iff_eq.mp hentry).trans (congrArg some (beq_iff_eq.mp heq))⟩

end Poster

variable {B : Type} [Backend B]

/-- One key edge as the daemon sends it, or the clock of the key repeat. -/
inductive Stroke where
  | key (usage : HidUsage) (pressed synthetic : Bool) (now : MonotonicTimeMicros)
  | tick (now : MonotonicTimeMicros)

namespace Stroke

def call : Stroke → PosterCall
  | .key usage pressed synthetic now => .apply [.key usage pressed synthetic] none now
  | .tick now => .tick now

/-- The physical keys down after a stroke. -/
def holding (held : HidUsage → Bool) : Stroke → HidUsage → Bool
  | .key usage pressed _ _ => Poster.heldWith held usage pressed
  | .tick _ => held

/-- The stroke lets a key up. -/
def lets : Stroke → HidUsage → Prop
  | .key usage pressed _ _, other => pressed = false ∧ usage = other
  | .tick _, _ => False

/-- **The stroke lifts a modifier that another key still stands for.** -/
def Lifts (p : Poster B) : Stroke → Prop
  | .key usage pressed _ _ => pressed = false ∧ Poster.Shared p usage
  | .tick _ => False

end Stroke

namespace InjectorCore

/-- A core after a run of strokes. -/
def typed (core : InjectorCore (Poster B)) (strokes : List Stroke) : InjectorCore (Poster B) :=
  strokes.foldl (fun core stroke => (core.call stroke.call).2) core

/-- What a batch of one key edge leaves: the edge, or everything released. -/
theorem apply_key (core : InjectorCore (Poster B)) (usage : HidUsage) (pressed synthetic : Bool)
    (now : MonotonicTimeMicros) :
    let q := (core.input.isLocked now).2
    let answer := core.apply [.key usage pressed synthetic] none now
    (answer.2.input = (Poster.key usage pressed now q).2 ∨ answer.2.input = q.releaseAll ∨
        answer.2.input = (Poster.key usage pressed now q).2.releaseAll) ∧
      (answer.1 = .ok () → answer.2.input = (Poster.key usage pressed now q).2) := by
  have heffects : ∀ (mode : KeyboardMode) (q : Poster B),
      effects mode now [.key usage pressed synthetic] q = Poster.key usage pressed now q := by
    intro mode q
    show ((InjectorCore.effect mode (.key usage pressed synthetic) now >>= fun _ => pure ()) q) = _
    have heffect : InjectorCore.effect mode (.key usage pressed synthetic) now q =
        Poster.key usage pressed now q := rfl
    rw [Act.bind_apply, heffect]
    rcases Poster.key usage pressed now q with ⟨_ | _, _⟩ <;> rfl
  intro q answer
  rcases hlock : MacInput.locked now core.input with ⟨locked, q'⟩
  have hq : q = q' := congrArg Prod.snd hlock
  have hrefuse : refuseLocked [.key usage pressed synthetic] now core.input =
      if locked then (.error "the Mac is locked", q') else (.ok (), q') := by
    have hany : [ReceiverEffect.key usage pressed synthetic].any ReceiverEffect.isInjection = true := rfl
    unfold refuseLocked
    rw [if_pos hany, hlock]
    cases locked <;> rfl
  have hanswer : answer = core.apply [.key usage pressed synthetic] none now := rfl
  unfold apply applyUnlocked at hanswer
  cases locked with
  | true =>
    rw [if_pos rfl] at hrefuse
    dsimp only at hanswer
    rw [Act.bind_of_error hrefuse] at hanswer
    rw [hanswer, hq]
    exact ⟨.inr (.inl rfl), fun hok => by cases hok⟩
  | false =>
    rw [if_neg Bool.false_ne_true] at hrefuse
    dsimp only at hanswer
    rw [Act.bind_of_ok hrefuse, heffects] at hanswer
    rw [hanswer, hq]
    rcases Poster.key usage pressed now q' with ⟨_ | _, p'⟩
    · exact ⟨.inr (.inr rfl), fun hok => by cases hok⟩
    · exact ⟨.inl rfl, fun _ => rfl⟩

/-- Every stroke of a run is accepted. -/
def Accepts (core : InjectorCore (Poster B)) : List Stroke → Prop
  | [] => True
  | stroke :: rest => (core.call stroke.call).1 = .ok () ∧ Accepts (core.call stroke.call).2 rest

/-- **No stroke of a run lifts a modifier that another key still stands for.** -/
def Spares (core : InjectorCore (Poster B)) : List Stroke → Prop
  | [] => True
  | stroke :: rest => ¬ stroke.Lifts core.input ∧ Spares (core.call stroke.call).2 rest

variable {core : InjectorCore (Poster B)} {held : HidUsage → Bool}

theorem stroke_standing (h : core.input.Standing held) (stroke : Stroke) :
    (core.call stroke.call).2.input.Standing (stroke.holding held) ∧
      (core.input.Supported → ¬ stroke.Lifts core.input → (core.call stroke.call).2.input.Supported) := by
  cases stroke with
  | key usage pressed synthetic now =>
    obtain ⟨hframe, hkeys, hcodes⟩ := Poster.frame_isLocked (p := core.input) now
    obtain ⟨hlocked, hlockedSupported⟩ := h.congr (Poster.good_isLocked now h.good) hframe hkeys hcodes
    obtain ⟨hkey, hkeySupported⟩ := Poster.key_standing hlocked usage pressed now
    obtain ⟨hinput, _⟩ := core.apply_key usage pressed synthetic now
    show (core.apply [.key usage pressed synthetic] none now).2.input.Standing _ ∧
      (_ → _ → (core.apply [.key usage pressed synthetic] none now).2.input.Supported)
    rcases hinput with heq | heq | heq
    · rw [heq]
      refine ⟨hkey, fun hsupported hspared => hkeySupported (hlockedSupported hsupported) ?_⟩
      unfold Poster.Shared
      rw [hframe.chosen]
      exact hspared
    · rw [heq]
      have hreleased := Poster.releaseAll_standing hlocked (Poster.heldWith held usage pressed)
      exact ⟨hreleased.1, fun _ _ => hreleased.2⟩
    · rw [heq]
      have hreleased := Poster.releaseAll_standing hkey (Poster.heldWith held usage pressed)
      exact ⟨hreleased.1, fun _ _ => hreleased.2⟩
  | tick now =>
    obtain ⟨hgood, hrest⟩ := Poster.good_tick now h.good
    obtain ⟨hframe, hkeyboard, hmode⟩ := Poster.frame_tick (p := core.input) now
    show (core.input.tick now).2.Standing held ∧ (_ → _ → (core.input.tick now).2.Supported)
    cases hanswer : (core.input.tick now).1 with
    | ok _ =>
      obtain ⟨hsame, hkeys, hcodes⟩ := hframe hanswer
      obtain ⟨hstanding, hsupported⟩ := h.congr hgood hsame hkeys hcodes
      exact ⟨hstanding, fun hs _ => hsupported hs⟩
    | error error =>
      have hreleased := (hrest error hanswer).stands hgood (hkeyboard.trans h.keyboard) (hmode.trans h.standard) held
      exact ⟨hreleased.1, fun _ _ => hreleased.2⟩

/-- A choice lasts while its key is down and the strokes are accepted. -/
theorem stroke_kept {stroke : Stroke} {k c : HidUsage} (hc : core.input.chosen[k]? = some c)
    (hok : (core.call stroke.call).1 = .ok ()) (hdown : ¬ stroke.lets k) :
    (core.call stroke.call).2.input.chosen[k]? = some c := by
  cases stroke with
  | key usage pressed synthetic now =>
    have hinput := (core.apply_key usage pressed synthetic now).2 hok
    show (core.apply [.key usage pressed synthetic] none now).2.input.chosen[k]? = some c
    rw [hinput, Poster.key_chosen]
    refine Poster.choose_kept ?_ fun hreleased heq => hdown ⟨hreleased, heq.symm⟩
    rw [(Poster.frame_isLocked now).1.chosen]
    exact hc
  | tick now =>
    show (core.input.tick now).2.chosen[k]? = some c
    rw [((Poster.frame_tick now).1 hok).1.chosen]
    exact hc

/-- **A run of strokes**: what is down keeps standing for keys that are down, and keeps them all where the
run spares them. -/
theorem typed_standing (strokes : List Stroke) (h : core.input.Standing held) :
    (core.typed strokes).input.Standing (strokes.foldl Stroke.holding held) ∧
      (core.input.Supported → core.Spares strokes → (core.typed strokes).input.Supported) := by
  induction strokes generalizing core held with
  | nil => exact ⟨h, fun hsupported _ => hsupported⟩
  | cons stroke rest ih =>
    obtain ⟨hstep, hstepSupported⟩ := stroke_standing h stroke
    obtain ⟨hrest, hrestSupported⟩ := ih hstep
    exact ⟨hrest, fun hsupported hspares => hrestSupported (hstepSupported hsupported hspares.1) hspares.2⟩

theorem typed_kept (strokes : List Stroke) {k c : HidUsage} (hc : core.input.chosen[k]? = some c)
    (haccepts : core.Accepts strokes) (hdown : ∀ stroke ∈ strokes, ¬ stroke.lets k) :
    (core.typed strokes).input.chosen[k]? = some c := by
  induction strokes generalizing core with
  | nil => exact hc
  | cons stroke rest ih =>
    have hstep := stroke_kept hc haccepts.1 (hdown stroke (List.mem_cons_self ..))
    exact ih hstep haccepts.2 fun other hother => hdown other (List.mem_cons_of_mem _ hother)

theorem typed_append (strokes rest : List Stroke) :
    core.typed (strokes ++ rest) = (core.typed strokes).typed rest := List.foldl_append

/-- A reachable core that opens an activation in the mac mode. -/
def openedInMac (backend : B) (calls : List PosterCall) (session : SessionContext) (now : MonotonicTimeMicros) :
    InjectorCore (Poster B) :=
  ((InjectorCore.ran backend calls).call (.apply [.activationOpened session] (some .mac) now)).2

theorem openedInMac_standing (backend : B) (calls : List PosterCall) (session : SessionContext)
    (now : MonotonicTimeMicros) (held : HidUsage → Bool) :
    (openedInMac backend calls session now).input.Standing held ∧
      (openedInMac backend calls session now).input.Supported :=
  Poster.begin_standing (good_ran backend calls) held

end InjectorCore

/-- The modifier a key was given at its press is down on the Mac. -/
def Upheld (p : Poster B) (c : HidUsage) : Prop :=
  ∃ code, hidToMacKeycode c p.environment.iso = some code ∧ (Poster.shown p.posted).keys code = true

omit [Backend B] in
theorem upheld_iff {p : Poster B} {held : HidUsage → Bool} (h : p.Standing held) {k c : HidUsage}
    (hc : p.chosen[k]? = some c) : Upheld p c ↔ c ∈ p.keys := by
  obtain ⟨_, code, hcode, hmodifier⟩ := Poster.ctrlAndCmd_typing (h.chosen k c hc).2.1 p.environment.iso
  constructor
  · rintro ⟨found, hfound, hdown⟩
    obtain rfl := Option.some.inj (hcode.symm.trans hfound)
    exact (h.down hcode hmodifier).mp hdown
  · exact fun hkeys => ⟨code, hcode, (h.down hcode hmodifier).mpr hkeys⟩

/-- **While a key is down, the modifier it was given at its press is down**: for each press of a run that is
accepted from there on and lets the key up no more. -/
def InjectorCore.Upholds (core : InjectorCore (Poster B)) (strokes : List Stroke) : Prop :=
  ∀ before k synthetic now rest, strokes = before ++ .key k true synthetic now :: rest →
    k ∈ Poster.ctrlAndCmd → (core.typed before).Accepts (.key k true synthetic now :: rest) →
    (∀ stroke ∈ rest, ¬ stroke.lets k) →
    ∃ c, (core.typed (before ++ [.key k true synthetic now])).input.chosen[k]? = some c ∧
      Upheld (core.typed strokes).input c

/-- **The swap keeps the modifiers of held keys**, where no Ctrl or Cmd key goes up while another that is
down stands for the same modifier. In the mac mode, with any answers about the front app: a key that was
pressed and is still down has the modifier it was given at its press down, while the injector accepts what
it is sent; and in any run at all, with every key up no modifier is down. A release that shares its
modifier, where it is accepted, does take it from the other key. -/
theorem held_modifiers_stay_down (backend : B) (calls : List PosterCall) (session : SessionContext)
    (opened : MonotonicTimeMicros) (strokes : List Stroke) :
    let core := InjectorCore.openedInMac backend calls session opened
    let after := core.typed strokes
    (core.Spares strokes → core.Upholds strokes) ∧ ((∀ k, strokes.foldl Stroke.holding (fun _ => false) k = false) →
        ∀ code, isModifier code = true → (Poster.shown after.input.posted).keys code = false) ∧
      ∀ k synthetic now, Poster.Shared after.input k →
        (after.call (Stroke.key k false synthetic now).call).1 = .ok () →
        ∃ other c : HidUsage, other ≠ k ∧ after.input.chosen[other]? = some c ∧
          (after.call (Stroke.key k false synthetic now).call).2.input.chosen[other]? = some c ∧
          ¬ Upheld (after.call (Stroke.key k false synthetic now).call).2.input c := by
  intro core after
  obtain ⟨hopened, hopenedSupported⟩ :=
    InjectorCore.openedInMac_standing backend calls session opened fun _ => false
  obtain ⟨hafter, hafterSupported⟩ := InjectorCore.typed_standing strokes hopened
  refine ⟨fun hspares before k synthetic now rest hsplit hmem haccepts hdown => ?_, fun hup code hmodifier => ?_,
    fun k synthetic now hshared hok => ?_⟩
  · have hbefore := (InjectorCore.typed_standing before hopened).1
    obtain ⟨c, hc⟩ : ∃ c, (core.typed (before ++ [.key k true synthetic now])).input.chosen[k]? = some c := by
      rw [InjectorCore.typed_append]
      have hinput := ((core.typed before).apply_key k true synthetic now).2 haccepts.1
      show ∃ c, ((core.typed before).apply [.key k true synthetic] none now).2.input.chosen[k]? = some c
      rw [hinput, Poster.key_chosen]
      have hframe := (Poster.frame_isLocked (p := (core.typed before).input) now).1
      refine Poster.choose_makes hmem (hframe.keyboard.trans hbefore.keyboard) ?_
      rw [hframe.chosen]
      exact fun k c hc => (hbefore.chosen k c hc).2.1
    have hkept : after.input.chosen[k]? = some c := by
      have hlast := InjectorCore.typed_kept rest hc (by rw [InjectorCore.typed_append]; exact haccepts.2) hdown
      rw [← InjectorCore.typed_append, List.append_assoc, List.singleton_append, ← hsplit] at hlast
      exact hlast
    refine ⟨c, hc, (upheld_iff hafter hkept).mpr ?_⟩
    have hsupported := hafterSupported hopenedSupported hspares k c hkept
    exact (hafter.keyed.mem c).mpr ⟨hsupported, (Poster.ctrlAndCmd_typing (hafter.chosen k c hkept).2.1 _).1⟩
  · obtain ⟨usage, husage⟩ := Poster.modifier_typed hmodifier after.input.environment.iso
    rw [← Bool.not_eq_true, hafter.down husage hmodifier, hafter.keyed.mem]
    rintro ⟨hphysical, -⟩
    rcases hafter.backed usage hphysical with ⟨-, hheld⟩ | ⟨k, hk⟩
    · rw [hup] at hheld
      cases hheld
    · have hheld := (hafter.chosen k usage hk).2.2
      rw [hup] at hheld
      cases hheld
  · obtain ⟨hframe, hkeys, hcodes⟩ := Poster.frame_isLocked (p := after.input) now
    have hlocked := (hafter.congr (Poster.good_isLocked now hafter.good) hframe hkeys hcodes).1
    have hinput := (after.apply_key k false synthetic now).2 hok
    obtain ⟨other, c, hother, hbefore, hc, hkeys⟩ := Poster.shared_lifts hlocked (show Poster.Shared _ k by
      unfold Poster.Shared
      rw [hframe.chosen]
      exact hshared) now
    show ∃ other c : HidUsage, other ≠ k ∧ after.input.chosen[other]? = some c ∧
      (after.apply [.key k false synthetic] none now).2.input.chosen[other]? = some c ∧
      ¬ Upheld (after.apply [.key k false synthetic] none now).2.input c
    rw [hinput]
    refine ⟨other, c, hother, hframe.chosen ▸ hbefore, hc, fun hupheld => hkeys ?_⟩
    exact (upheld_iff (Poster.key_standing hlocked k false now).1 hc).mp hupheld

/-! ## Two keys, one modifier -/

/-- A Mac that takes every event, with what it answers each time about the front app. -/
structure FrontApps where
  terminal : List Bool

instance : Backend FrontApps where
  post _ mac := (.ok (), mac)
  toggleCapsLock mac := (.ok (), mac)
  releaseAll mac := mac
  environment mac := (⟨false, 250000, 33000, 500000⟩, mac)
  frontmostIsTerminal mac := (mac.terminal.headD false, ⟨mac.terminal.tail⟩)
  sessionLocked mac := (false, mac)
  cursor mac := (⟨0, 0⟩, mac)
  close _ _ _ := true
  accelerate dx dy _ mac := ((dx, dy), mac)
  watch _ _ mac := (false, mac)
  clamp point mac := (point, mac)
  moved _ _ mac := mac
  pixels x y mac := (some (x, y), mac)
  resetPointer mac := mac

/-- Left Ctrl down in an editor, left Cmd down in a terminal and up again. -/
def twoCommands : List Stroke :=
  [.key Keymap.lctrl true false 0, .key Keymap.lgui true false 1, .key Keymap.lgui false false 2]

/-- Both stand for Cmd, and the second takes it up while the first is down. -/
theorem not_upholds {core : InjectorCore (Poster B)} (haccepts : core.Accepts twoCommands)
    (hchosen : (core.typed (twoCommands.take 1)).input.chosen[Keymap.lctrl]? = some Keymap.lgui)
    (hup : (Poster.shown (core.typed twoCommands).input.posted).keys 55 = false) :
    ¬ core.Upholds twoCommands := by
  intro h
  have hpress := h [] Keymap.lctrl false 0 (twoCommands.drop 1) rfl (by decide) haccepts
  obtain ⟨c, hc, code, hcode, hdown⟩ := hpress fun stroke hstroke => by
    have hlgui : Keymap.lgui ≠ Keymap.lctrl := by decide
    rcases List.mem_cons.mp hstroke with rfl | hrest
    · exact fun hlets => hlgui hlets.2
    · rw [List.mem_singleton.mp hrest]
      exact fun hlets => hlgui hlets.2
  obtain rfl := Option.some.inj (hc.symm.trans hchosen)
  have hcommand : ∀ iso : Bool, hidToMacKeycode Keymap.lgui iso = some 55 := by decide +kernel
  obtain rfl := Option.some.inj (hcode.symm.trans (hcommand _))
  rw [hup] at hdown
  cases hdown

/-- A Mac that opens an activation with an editor in front, and a terminal from the next look on. -/
def editorThenTerminal : InjectorCore (Poster FrontApps) :=
  InjectorCore.openedInMac (FrontApps.mk [false, true]) [] ⟨1, 1, 1⟩ 0

theorem not_held_modifiers_stay_down : ¬ ∀ strokes, editorThenTerminal.Upholds strokes := fun h =>
  not_upholds ⟨by decide +kernel, by decide +kernel, by decide +kernel, trivial⟩ (by decide +kernel)
    (by decide +kernel) (h twoCommands)

/-- Left Ctrl down in an editor, C down and up. -/
def copying : List Stroke :=
  [.key Keymap.lctrl true false 0, .key (.keyboard 0x06) true false 1, .tick 2,
   .key (.keyboard 0x06) false false 3]

theorem held_modifiers_stay_down_copying :
    (InjectorCore.openedInMac (FrontApps.mk [false]) [] ⟨1, 1, 1⟩ 0).Upholds copying :=
  (held_modifiers_stay_down (FrontApps.mk [false]) [] ⟨1, 1, 1⟩ 0 copying).1
    ⟨fun hlifts => (by cases hlifts.1), fun hlifts => (by cases hlifts.1), id,
      fun hlifts => absurd hlifts.2.1 (by decide), trivial⟩

end Zflow.Macos
