import Zflow.Core.Host
import Zflow.Laws.Core.Keymap

/-!
# Option keys that are held back

A Mac's Option key is held back only while the pointer is idle, and goes down with the next click. So while a
button is down nothing is held back, and a release then has nothing to press.
-/

namespace Zflow.Core

open Lib

namespace KeyRemap

open Keymap (modifierClass)

variable {r r' r'' : KeyRemap}

/-- A step that holds nothing more back. -/
structure Frees (r r' : KeyRemap) : Prop where
  pointerBusy : r'.pointerBusy = r.pointerBusy
  terminal : r'.terminal = r.terminal
  deferred : r.deferred = ∅ → r'.deferred = ∅

namespace Frees

theorem refl (r : KeyRemap) : Frees r r := ⟨rfl, rfl, id⟩

theorem trans (h : Frees r r') (h' : Frees r' r'') : Frees r r'' :=
  ⟨h'.pointerBusy.trans h.pointerBusy, h'.terminal.trans h.terminal, h'.deferred ∘ h.deferred⟩

theorem collect {C : Type} (step : KeyRemap → C → List Edge × KeyRemap) (h : ∀ r c, Frees r (step r c).2)
    (r : KeyRemap) (items : List C) : Frees r (Replay.collect step r items).2 := by
  induction items generalizing r with
  | nil => exact refl r
  | cons item rest ih => exact (h r item).trans (ih _)

theorem own (r : KeyRemap) (output owner : HidUsage) : Frees r (r.own output owner).2 := ⟨rfl, rfl, id⟩

theorem ownDefaults (r : KeyRemap) (modifiers : List HidUsage) : Frees r (r.ownDefaults modifiers).2 :=
  collect (fun r modifier => r.own (Keymap.defaultOutput r.mode modifier) modifier) (fun _ _ => own _ _ _) r modifiers

theorem clear (r : KeyRemap) : Frees r { r with deferred := ∅ } := ⟨rfl, rfl, fun _ => rfl⟩

theorem setModifiers (r : KeyRemap) (consumed : UInt8) (mods keyMods : List HidUsage) (key : HidUsage) :
    Frees r (r.setModifiers consumed mods keyMods key).2 := by
  refine (clear r).trans ((collect lift ?_ _ _).trans (collect assign ?_ _ _))
  · exact fun _ _ => ⟨rfl, rfl, id⟩
  · exact fun _ _ => ⟨rfl, rfl, id⟩

theorem chord (r : KeyRemap) (consumed : UInt8) (mods keyMods : List HidUsage) (output key : HidUsage) :
    Frees r (r.chord consumed mods keyMods output key).2 :=
  (setModifiers r consumed mods keyMods key).trans (own _ _ _)

theorem pressKey (r : KeyRemap) (key : HidUsage) : Frees r (r.pressKey key).2 := by
  unfold KeyRemap.pressKey
  split
  · exact (ownDefaults r _).trans ((clear _).trans (own _ _ _))
  · split
    · exact chord r _ _ _ _ _
    · split
      · exact refl r
      · exact setModifiers r _ _ _ _
      · exact chord r _ _ _ _ _
      · exact chord r _ _ _ _ _
      · have hchord := chord r ‹Keymap.Rule›.held ‹List HidUsage› [] (‹Keymap.Out›.resolve key) key
        exact ⟨hchord.pointerBusy, hchord.terminal, hchord.deferred⟩

theorem release (r : KeyRemap) (key : HidUsage) : Frees r (r.release key).2 := by
  refine ⟨rfl, rfl, fun h => ?_⟩
  show r.deferred.erase key = ∅
  rw [h]
  rfl

end Frees

/-- While the pointer is busy no key is held back. -/
theorem frees_key (hbusy : r.pointerBusy = true) (usage : HidUsage) (pressed : Bool) :
    Frees r (r.key usage pressed).2 := by
  unfold key
  split
  · split
    · have herased : Frees r { r with physical := r.physical.erase usage } := ⟨rfl, rfl, id⟩
      exact herased.trans (Frees.release _ _)
    · exact .refl r
  · split
    · exact .refl r
    · have hinsert : Frees r { r with physical := r.physical.insert usage } := ⟨rfl, rfl, id⟩
      dsimp only
      split
      · refine hinsert.trans ?_
        unfold pressModifier
        simp only [hbusy, Bool.not_true, Bool.false_eq_true, false_and, and_false, if_false]
        exact Frees.own _ _ _
      · exact hinsert.trans (Frees.pressKey _ _)

/-- No key tells whether the pointer is busy, or changes the terminal flag. -/
theorem key_flags (r : KeyRemap) (usage : HidUsage) (pressed : Bool) :
    (r.key usage pressed).2.pointerBusy = r.pointerBusy ∧ (r.key usage pressed).2.terminal = r.terminal := by
  by_cases hbusy : r.pointerBusy = true
  · exact ⟨(frees_key hbusy usage pressed).pointerBusy, (frees_key hbusy usage pressed).terminal⟩
  · unfold key
    split
    · split
      · have hreleased := Frees.release { r with physical := r.physical.erase usage } usage
        exact ⟨hreleased.pointerBusy, hreleased.terminal⟩
      · exact ⟨rfl, rfl⟩
    · split
      · exact ⟨rfl, rfl⟩
      · dsimp only
        split
        · unfold pressModifier
          dsimp only
          split <;> exact ⟨rfl, rfl⟩
        · have hpressed := Frees.pressKey { r with physical := r.physical.insert usage } usage
          exact ⟨hpressed.pointerBusy, hpressed.terminal⟩

/-- With nothing held back a press of the pointer types nothing. -/
theorem pointer_of_deferred (h : r.deferred = ∅) (busy : Bool) : r.pointer busy = ([], r.pointerReleased busy) := by
  obtain ⟨mode, terminal, pointerBusy, physical, deferred, owners, bound⟩ := r
  cases h
  rfl

/-- After a press of the pointer nothing is held back. -/
theorem deferred_pointer (r : KeyRemap) (busy : Bool) :
    (r.pointer busy).2.deferred = ∅ ∧ (r.pointer busy).2.pointerBusy = busy :=
  ⟨(Frees.ownDefaults { r with deferred := ∅ } r.deferred.toList).deferred rfl, rfl⟩

/-! ## The terminal flag

Only a press reads it. -/

theorem setTerminal_of_eq {terminal : Bool} (h : r.terminal = terminal) : r.setTerminal terminal = r := by
  cases h
  rfl

theorem ownDefaults_setTerminal (r : KeyRemap) (terminal : Bool) (modifiers : List HidUsage) :
    (r.setTerminal terminal).ownDefaults modifiers =
      ((r.ownDefaults modifiers).1, (r.ownDefaults modifiers).2.setTerminal terminal) := by
  induction modifiers generalizing r with
  | nil => rfl
  | cons modifier rest ih =>
    have hrest := ih (r.own (Keymap.defaultOutput r.mode modifier) modifier).2
    simp only [ownDefaults, Replay.collect] at hrest ⊢
    have hown : (r.setTerminal terminal).own (Keymap.defaultOutput (r.setTerminal terminal).mode modifier) modifier =
        ((r.own (Keymap.defaultOutput r.mode modifier) modifier).1,
          (r.own (Keymap.defaultOutput r.mode modifier) modifier).2.setTerminal terminal) := rfl
    rw [hown, hrest]

theorem pointer_setTerminal (r : KeyRemap) (terminal busy : Bool) : (r.setTerminal terminal).pointer busy =
    ((r.pointer busy).1, (r.pointer busy).2.setTerminal terminal) := by
  have hdefaults := ownDefaults_setTerminal { r with deferred := ∅ } terminal r.deferred.toList
  have hstart : { r.setTerminal terminal with deferred := ∅ } =
      ({ r with deferred := ∅ } : KeyRemap).setTerminal terminal := rfl
  have hdeferred : (r.setTerminal terminal).deferred = r.deferred := rfl
  unfold pointer
  rw [hstart, hdeferred, hdefaults]
  rfl

theorem release_setTerminal (r : KeyRemap) (terminal : Bool) (usage : HidUsage) :
    (r.setTerminal terminal).key usage false =
      ((r.key usage false).1, (r.key usage false).2.setTerminal terminal) := by
  unfold key
  simp only [Bool.not_false, if_true]
  show (if usage ∈ r.physical then _ else _) = _
  split <;> rfl

end KeyRemap

end Zflow.Core
