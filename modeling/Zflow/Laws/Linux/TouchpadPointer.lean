import Zflow.Lib.Toggle
import Zflow.Linux.TouchpadPointer

/-!
# What a touchpad holds down

A press on the pad is turned into a button, which stays down until the press ends. The buttons that are down are then
those that the held presses were turned into, as long as a press is not turned into a button that is down already and
no tap clicks one. A clickpad that is pressed waits with taps, but one with buttons of its own does not.
-/

namespace Zflow.Linux

open Zflow.Core Lib Session

/-- The presses and releases of buttons. -/
def buttonChanges (transitions : List CaptureTransition) : List (PointerButton × Bool) :=
  transitions.filterMap fun
    | .button button .pressed => some (button, true)
    | .button button .released => some (button, false)
    | _ => none

/-- What each held press was turned into. -/
abbrev Images := PointerButton → Option PointerButton

variable {G : Type} [Measure G]

/-- What a press is turned into. -/
def image (G : Type) [Measure G] (clickpad : Bool) (fingers : List Finger) (count : Nat) (button : PointerButton) :
    PointerButton :=
  if clickpad ∧ button = primary then clickfinger G fingers count else button

/-- The held presses of a pad, from what happens on it; a press is admitted that is turned into a button that no held
press was turned into. -/
def imaging (G : Type) [Measure G] (clickpad : Bool) (fingers : List Finger) (count : Nat) :
    Replay Images CaptureTransition where
  apply images
    | .button button .pressed => Function.update images button (some (image G clickpad fingers count button))
    | .button button .released => Function.update images button none
    | _ => images
  admits images
    | .button button .pressed => ∀ other, images other ≠ some (image G clickpad fingers count button)
    | _ => True

/-- The held presses after a report. -/
def imagesAfter (G : Type) [Measure G] (clickpad : Bool) (images : Images) (r : PadReport) : Images :=
  (imaging G clickpad r.fingers r.count).run images r.buttons

/-- **No button is asked for twice** in a report: none that a held press was turned into is pressed again, or clicked
by the tap that ends. -/
structure Apart (p : TouchpadPointer G) (images : Images) (r : PadReport) : Prop where
  presses : (imaging G p.clickpad r.fingers r.count).Legal images r.buttons
  taps : changed r.buttons = false → ∀ tap, p.tap = some tap →
    ∀ clicked, (Tap.report G r.fingers r.count r.at_ tap).1 = some clicked → ∀ other, images other ≠ some clicked

/-! ## One change -/

/-- **What a pad keeps**: the press it remembers is the clickpad's, and the buttons that are down are those that the
held presses were turned into, each by one press. -/
structure Tracks (p : TouchpadPointer G) (images : Images) (down : PointerButton → Bool) : Prop where
  pressed : p.pressed = if p.clickpad then images primary else none
  plain : ∀ button turned, images button = some turned → ¬(p.clickpad = true ∧ button = primary) → turned = button
  down : ∀ button, down button = true ↔ ∃ other, images other = some button
  once : ∀ button other turned, images button = some turned → images other = some turned → button = other

theorem tracks_new (clickpad : Bool) (settings : TouchpadSettings) :
    Tracks (.new clickpad settings : TouchpadPointer G) (fun _ => none) fun _ => false where
  pressed := by cases clickpad <;> rfl
  plain _ _ h := by cases h
  down _ := by simp
  once _ _ _ h := by cases h

namespace Tracks

variable {p : TouchpadPointer G} {images : Images} {down : PointerButton → Bool} {button : PointerButton}

/-- What a press is passed on as. -/
theorem button_pressed (p : TouchpadPointer G) (fingers : List Finger) (count : Nat) (button : PointerButton) :
    p.button fingers count (.button button .pressed) = (.button (image G p.clickpad fingers count button) .pressed,
        { p with pressed := if p.clickpad = true ∧ button = primary then some (clickfinger G fingers count)
          else p.pressed }) := by
  unfold TouchpadPointer.button image
  dsimp only
  split <;> rfl

/-- What the release of a held press is passed on as. -/
theorem button_released (h : Tracks p images down) (fingers : List Finger) (count : Nat) {turned : PointerButton}
    (hheld : images button = some turned) : p.button fingers count (.button button .released) =
      (.button turned .released,
        { p with pressed := if p.clickpad = true ∧ button = primary then none else p.pressed }) := by
  have hpressed := h.pressed
  unfold TouchpadPointer.button
  dsimp only
  split
  next hclick =>
    rw [hpressed, if_pos hclick.1, ← hclick.2, hheld]
    rfl
  next hplain => rw [h.plain button turned hheld hplain]

/-- A press that is admitted. -/
theorem press (h : Tracks p images down) {fingers : List Finger} {count : Nat} (hup : images button = none)
    (hadmits : ∀ other, images other ≠ some (image G p.clickpad fingers count button)) :
    Tracks (p.button fingers count (.button button .pressed)).2
      (Function.update images button (some (image G p.clickpad fingers count button)))
      (Function.update down (image G p.clickpad fingers count button) true) := by
  rw [button_pressed]
  refine ⟨?_, fun other turned hother hplain => ?_, fun other => ?_, fun one other turned hone hother => ?_⟩
  · have hpressed := h.pressed
    cases hclickpad : p.clickpad with
    | false => simpa [hclickpad] using hpressed
    | true =>
      by_cases hprimary : button = primary
      · subst hprimary
        simp [image]
      · rw [if_pos hclickpad] at hpressed
        simp [hprimary, hpressed, Function.update_of_ne (Ne.symm hprimary)]
  · by_cases heq : other = button
    · subst heq
      rw [Function.update_self] at hother
      cases hother
      exact if_neg hplain
    · rw [Function.update_of_ne heq] at hother
      exact h.plain other turned hother hplain
  · by_cases heq : other = image G p.clickpad fingers count button
    · subst heq
      exact iff_of_true (Function.update_self _ _ _) ⟨button, Function.update_self _ _ _⟩
    · rw [Function.update_of_ne heq, h.down]
      constructor
      · rintro ⟨press, hpress⟩
        have hne : press ≠ button := by
          rintro rfl
          rw [hup] at hpress
          cases hpress
        exact ⟨press, (Function.update_of_ne hne _ _).trans hpress⟩
      · rintro ⟨press, hpress⟩
        by_cases hpressed : press = button
        · subst hpressed
          rw [Function.update_self] at hpress
          exact absurd (Option.some.inj hpress).symm heq
        · rw [Function.update_of_ne hpressed] at hpress
          exact ⟨press, hpress⟩
  · by_cases heq : one = button
    · by_cases heq' : other = button
      · exact heq.trans heq'.symm
      · subst heq
        rw [Function.update_self] at hone
        rw [Function.update_of_ne heq'] at hother
        cases hone
        exact absurd hother (hadmits other)
    · rw [Function.update_of_ne heq] at hone
      by_cases heq' : other = button
      · subst heq'
        rw [Function.update_self] at hother
        cases hother
        exact absurd hone (hadmits one)
      · rw [Function.update_of_ne heq'] at hother
        exact h.once one other turned hone hother

/-- A release. -/
theorem release (h : Tracks p images down) (fingers : List Finger) (count : Nat) {turned : PointerButton}
    (hheld : images button = some turned) :
    Tracks (p.button fingers count (.button button .released)).2 (Function.update images button none)
      (Function.update down turned false) := by
  rw [h.button_released fingers count hheld]
  have hrest : ∀ {other : PointerButton} {turned' : PointerButton},
      Function.update images button none other = some turned' → other ≠ button ∧ images other = some turned' := by
    intro other turned' hother
    by_cases heq : other = button
    · subst heq
      rw [Function.update_self] at hother
      cases hother
    · rw [Function.update_of_ne heq] at hother
      exact ⟨heq, hother⟩
  refine ⟨?_, fun other turned' hother hplain => h.plain other turned' (hrest hother).2 hplain, fun other => ?_,
    fun one other turned' hone hother => h.once one other turned' (hrest hone).2 (hrest hother).2⟩
  · have hpressed := h.pressed
    cases hclickpad : p.clickpad with
    | false => simpa [hclickpad] using hpressed
    | true =>
      by_cases hprimary : button = primary
      · subst hprimary
        simp
      · rw [if_pos hclickpad] at hpressed
        simp [hprimary, hpressed, Function.update_of_ne (Ne.symm hprimary)]
  · by_cases heq : other = turned
    · subst heq
      refine iff_of_false (by rw [Function.update_self]; exact Bool.false_ne_true) ?_
      rintro ⟨press, hpress⟩
      exact (hrest hpress).1 (h.once press button other (hrest hpress).2 hheld)
    · rw [Function.update_of_ne heq, h.down]
      constructor
      · rintro ⟨press, hpress⟩
        have hne : press ≠ button := by
          rintro rfl
          exact heq (Option.some.inj (hpress.symm.trans hheld))
        exact ⟨press, (Function.update_of_ne hne _ _).trans hpress⟩
      · rintro ⟨press, hpress⟩
        exact ⟨press, (hrest hpress).2⟩

end Tracks

/-! ## A report's changes -/

theorem buttonChanges_append (first second : List CaptureTransition) :
    buttonChanges (first ++ second) = buttonChanges first ++ buttonChanges second := List.filterMap_append

/-- The presses that are held on the pad itself. -/
def heldPresses (images : Images) : PointerButton → Bool := fun button => (images button).isSome

theorem heldPresses_apply (clickpad : Bool) (fingers : List Finger) (count : Nat) (images : Images)
    (transition : CaptureTransition) : (toggles PointerButton).run (heldPresses images) (buttonChanges [transition]) =
      heldPresses ((imaging G clickpad fingers count).apply images transition) := by
  have hupdate : ∀ button turned, Function.update (heldPresses images) button (turned : Option PointerButton).isSome =
      heldPresses (Function.update images button turned) := by
    intro button turned
    funext other
    unfold heldPresses
    by_cases heq : other = button
    · subst heq
      rw [Function.update_self, Function.update_self]
    · rw [Function.update_of_ne heq, Function.update_of_ne heq]
  match transition with
  | .key _ .pressed | .key _ .released | .key _ .repeat | .button _ .repeat => rfl
  | .button button .pressed => exact hupdate button (some (image G clickpad fingers count button))
  | .button button .released => exact hupdate button none

theorem heldPresses_run (clickpad : Bool) (fingers : List Finger) (count : Nat) (images : Images)
    (transitions : List CaptureTransition) :
    (toggles PointerButton).run (heldPresses images) (buttonChanges transitions) =
      heldPresses ((imaging G clickpad fingers count).run images transitions) := by
  induction transitions generalizing images with
  | nil => rfl
  | cons transition rest ih =>
    rw [← List.singleton_append, buttonChanges_append, Replay.run_append, heldPresses_apply (G := G) clickpad fingers count, ih]
    rfl

namespace Tracks

variable {p : TouchpadPointer G} {images : Images} {down : PointerButton → Bool}

theorem clickpad_button (p : TouchpadPointer G) (fingers : List Finger) (count : Nat) (transition : CaptureTransition) :
    (p.button fingers count transition).2.clickpad = p.clickpad := by
  match transition with
  | .key _ _ => rfl
  | .button _ state =>
    unfold TouchpadPointer.button
    dsimp only
    split
    · cases state <;> rfl
    · rfl

/-- **One change of the pad's**: what is passed on is a change of the buttons that are down exactly where the press is
admitted, and then the pad goes on as it did. -/
theorem change (h : Tracks p images down) (fingers : List Finger) (count : Nat) {transition : CaptureTransition}
    (hpad : (toggles PointerButton).Legal (heldPresses images) (buttonChanges [transition])) :
    ((toggles PointerButton).Legal down (buttonChanges [(p.button fingers count transition).1]) ↔
        (imaging G p.clickpad fingers count).admits images transition) ∧
      ((imaging G p.clickpad fingers count).admits images transition →
        Tracks (p.button fingers count transition).2 ((imaging G p.clickpad fingers count).apply images transition)
          ((toggles PointerButton).run down (buttonChanges [(p.button fingers count transition).1]))) := by
  match transition with
  | .key _ .pressed | .key _ .released | .key _ .repeat => exact ⟨Iff.rfl, fun _ => h⟩
  | .button button .repeat =>
    obtain ⟨turned, hrepeat⟩ : ∃ turned, p.button fingers count (.button button .repeat) = (.button turned .repeat, p) := by
      unfold TouchpadPointer.button
      dsimp only
      split
      · exact ⟨_, rfl⟩
      · exact ⟨_, rfl⟩
    rw [hrepeat]
    exact ⟨Iff.rfl, fun _ => h⟩
  | .button button .pressed =>
    have hup : images button = none := by
      have hfalse : heldPresses images button = false := hpad.1
      exact Option.isNone_iff_eq_none.mp (by simpa [heldPresses] using hfalse)
    refine ⟨?_, fun hadmits => ?_⟩
    · rw [button_pressed]
      show (down _ = false ∧ True) ↔ _
      rw [and_true, ← Bool.not_eq_true, h.down, not_exists]
      rfl
    · have hpress := h.press hup hadmits
      rw [button_pressed] at hpress ⊢
      exact hpress
  | .button button .released =>
    have hheld : heldPresses images button = true := hpad.1
    obtain ⟨turned, hturned⟩ := Option.isSome_iff_exists.mp hheld
    refine ⟨?_, fun _ => ?_⟩
    · rw [h.button_released fingers count hturned]
      exact iff_of_true ⟨(h.down turned).mpr ⟨button, hturned⟩, trivial⟩ trivial
    · have hrelease := h.release fingers count hturned
      rw [h.button_released fingers count hturned] at hrelease ⊢
      exact hrelease

/-- **All changes of a report.** -/
theorem buttons (h : Tracks p images down) (fingers : List Finger) (count : Nat) {transitions : List CaptureTransition}
    (hpad : (toggles PointerButton).Legal (heldPresses images) (buttonChanges transitions)) :
    ((toggles PointerButton).Legal down (buttonChanges (p.buttons fingers count transitions).1) ↔
        (imaging G p.clickpad fingers count).Legal images transitions) ∧
      ((imaging G p.clickpad fingers count).Legal images transitions →
        Tracks (p.buttons fingers count transitions).2 ((imaging G p.clickpad fingers count).run images transitions)
          ((toggles PointerButton).run down (buttonChanges (p.buttons fingers count transitions).1))) := by
  induction transitions generalizing p images down with
  | nil => exact ⟨Iff.rfl, fun _ => h⟩
  | cons transition rest ih =>
    rw [← List.singleton_append, buttonChanges_append, Replay.legal_append,
      heldPresses_apply (G := G) p.clickpad fingers count] at hpad
    obtain ⟨hiff, htracks⟩ := h.change fingers count hpad.1
    have hout : (p.buttons fingers count (transition :: rest)).1 =
      [(p.button fingers count transition).1] ++ ((p.button fingers count transition).2.buttons fingers count rest).1 :=
        rfl
    rw [hout, buttonChanges_append, Replay.legal_append, hiff, Replay.legal_cons, Replay.run_append, Replay.run_cons]
    have hrest := fun hadmits => ih (htracks hadmits) hpad.2
    rw [clickpad_button] at hrest
    exact ⟨and_congr_right fun hadmits => (hrest hadmits).1, fun hlegal => (hrest hlegal.1).2 hlegal.2⟩

end Tracks

/-! ## A report -/

section Report

variable {p p' : TouchpadPointer G} {images : Images} {down : PointerButton → Bool} {r : PadReport}

omit [Measure G] in
theorem Tracks.congr (h : Tracks p images down) (hpressed : p'.pressed = p.pressed)
    (hclickpad : p'.clickpad = p.clickpad) : Tracks p' images down :=
  ⟨by rw [hpressed, hclickpad]; exact h.pressed, fun button turned hturned hplain => h.plain button turned hturned
    (hclickpad ▸ hplain), h.down, h.once⟩

/-- A tap clicks when the last finger lifts. -/
theorem report_of_count {fingers : List Finger} {count : Nat} (hcount : count ≠ 0) (at_ : Nat) (tap : Tap) :
    (Tap.report G fingers count at_ tap).1 = none := by
  unfold Tap.report
  dsimp only
  rw [if_neg hcount]
  split <;> rfl

/-- Keys leave the pad as it is. -/
theorem buttons_of_unchanged (fingers : List Finger) (count : Nat) {transitions : List CaptureTransition}
    (h : changed transitions = false) : (p.buttons fingers count transitions).2 = p := by
  induction transitions with
  | nil => rfl
  | cons transition rest ih =>
    match transition, h with
    | .key _ _, h => exact ih h

theorem imagesAfter_of_unchanged (clickpad : Bool) (images : Images) (h : changed r.buttons = false) :
    imagesAfter G clickpad images r = images := by
  unfold imagesAfter
  generalize r.buttons = transitions at h
  induction transitions with
  | nil => rfl
  | cons transition rest ih =>
    match transition, h with
    | .key _ _, h => exact ih h

/-- The button that a tap clicks in a report, by what was known of it before. -/
def clicked (p : TouchpadPointer G) (r : PadReport) : Option PointerButton :=
  if changed r.buttons then none else p.tap.bind fun tap => (Tap.report G r.fingers r.count r.at_ tap).1

theorem tapped_eq (p : TouchpadPointer G) (fingers : List Finger) (count at_ : Nat) :
    (p.tapped fingers count at_).1 = clicks (p.tap.bind fun tap => (Tap.report G fingers count at_ tap).1) := by
  have hclicks : ∀ tap, p.startTap count at_ = some tap →
      (p.tapped fingers count at_).1 = clicks (Tap.report G fingers count at_ tap).1 := by
    intro tap htap
    simp only [TouchpadPointer.tapped, htap]
  by_cases hstart : (p.settings.tapToClick && p.pressed.isNone && p.count == 0 && decide (count > 0)) = true
  · -- A tap that starts has a finger on the pad, so none ends.
    have hcount : count ≠ 0 := by
      simp only [Bool.and_eq_true, decide_eq_true_eq] at hstart
      omega
    have hnone : (p.tap.bind fun tap => (Tap.report G fingers count at_ tap).1) = none := by
      cases p.tap with
      | none => rfl
      | some tap => exact report_of_count hcount at_ tap
    rw [hclicks _ (if_pos hstart), report_of_count hcount, hnone]
  · have hsame : p.startTap count at_ = p.tap := if_neg hstart
    cases htap : p.tap with
    | none =>
      unfold TouchpadPointer.tapped
      rw [hsame, htap]
      rfl
    | some tap => exact hclicks tap (hsame.trans htap)

/-- A tap leaves the presses alone. -/
theorem tapped_kept (p : TouchpadPointer G) (fingers : List Finger) (count at_ : Nat) :
    (p.tapped fingers count at_).2.pressed = p.pressed ∧ (p.tapped fingers count at_).2.clickpad = p.clickpad := by
  unfold TouchpadPointer.tapped
  split <;> exact ⟨rfl, rfl⟩

/-- The pad when a report's changes are passed on, before its tap. -/
def afterChanges (p : TouchpadPointer G) (r : PadReport) : TouchpadPointer G :=
  if changed r.buttons then { (p.buttons r.fingers r.count r.buttons).2 with tap := none, gesture := Measure.rest }
  else (p.buttons r.fingers r.count r.buttons).2

/-- **What a report passes on**: its changes, and the click of a tap. -/
theorem report_transitions (p : TouchpadPointer G) (r : PadReport) :
    (p.report r).1.transitions = (p.buttons r.fingers r.count r.buttons).1 ++ clicks (clicked p r) := by
  show _ ++ ((afterChanges p r).tapped r.fingers r.count r.at_).1 = _
  rw [tapped_eq]
  unfold afterChanges clicked
  cases hchanged : changed r.buttons with
  | true => rfl
  | false =>
    simp only [Bool.false_eq_true, if_false]
    rw [buttons_of_unchanged r.fingers r.count hchanged]

theorem report_kept (p : TouchpadPointer G) (r : PadReport) :
    (p.report r).2.pressed = (p.buttons r.fingers r.count r.buttons).2.pressed ∧
      (p.report r).2.clickpad = (p.buttons r.fingers r.count r.buttons).2.clickpad := by
  have hbefore : (afterChanges p r).pressed = (p.buttons r.fingers r.count r.buttons).2.pressed ∧
      (afterChanges p r).clickpad = (p.buttons r.fingers r.count r.buttons).2.clickpad := by
    unfold afterChanges
    split <;> exact ⟨rfl, rfl⟩
  obtain ⟨hpressed, hclickpad⟩ := tapped_kept (afterChanges p r) r.fingers r.count r.at_
  exact ⟨hpressed.trans hbefore.1, hclickpad.trans hbefore.2⟩

/-- A click is of a button that is up, and leaves it so. -/
theorem legal_clicks (clicked : Option PointerButton) :
    ((toggles PointerButton).Legal down (buttonChanges (clicks clicked)) ↔
        ∀ button, clicked = some button → down button = false) ∧
      ((toggles PointerButton).Legal down (buttonChanges (clicks clicked)) →
        (toggles PointerButton).run down (buttonChanges (clicks clicked)) = down) := by
  cases clicked with
  | none => exact ⟨iff_of_true trivial fun _ h => (by cases h), fun _ => rfl⟩
  | some button =>
    have hlegal : (toggles PointerButton).Legal down (buttonChanges (clicks (some button))) ↔ down button = false := by
      show (down button = false ∧ Function.update down button true button = true ∧ True) ↔ _
      rw [Function.update_self, and_true, and_iff_left rfl]
    refine ⟨hlegal.trans ⟨fun hup other hother => ?_, fun h => h button rfl⟩, fun h => ?_⟩
    · cases hother
      exact hup
    · show Function.update (Function.update down button true) button false = down
      rw [Function.update_idem, ← hlegal.mp h, Function.update_eq_self]

theorem taps_iff (p : TouchpadPointer G) (r : PadReport) (images : Images) :
    (∀ button, clicked p r = some button → ∀ other, imagesAfter G p.clickpad images r other ≠ some button) ↔
      (changed r.buttons = false → ∀ tap, p.tap = some tap →
        ∀ button, (Tap.report G r.fingers r.count r.at_ tap).1 = some button → ∀ other, images other ≠ some button) := by
  unfold clicked
  cases hchanged : changed r.buttons with
  | true => exact iff_of_true (fun _ h => (by cases h)) fun h => (by cases h)
  | false =>
    rw [imagesAfter_of_unchanged p.clickpad images hchanged]
    constructor
    · intro h _ tap htap button hbutton
      refine h button ?_
      simp only [Bool.false_eq_true, if_false, htap]
      exact hbutton
    · intro h button hbutton
      simp only [Bool.false_eq_true, if_false] at hbutton
      obtain ⟨tap, htap, hbutton⟩ := Option.bind_eq_some_iff.mp hbutton
      exact h rfl tap htap button hbutton

/-- **A report passes on changes of the buttons that are down exactly where it is apart**, and then the pad goes on as
it did. -/
theorem Tracks.report (h : Tracks p images down)
    (hpad : (toggles PointerButton).Legal (heldPresses images) (buttonChanges r.buttons)) :
    ((toggles PointerButton).Legal down (buttonChanges (p.report r).1.transitions) ↔ Apart p images r) ∧
      (Apart p images r → Tracks (p.report r).2 (imagesAfter G p.clickpad images r)
        ((toggles PointerButton).run down (buttonChanges (p.report r).1.transitions))) := by
  obtain ⟨hiff, htracks⟩ := h.buttons r.fingers r.count hpad
  obtain ⟨hpressed, hclickpad⟩ := report_kept p r
  rw [report_transitions, buttonChanges_append, Replay.legal_append, Replay.run_append, hiff]
  have hclicks : (imaging G p.clickpad r.fingers r.count).Legal images r.buttons →
      ((toggles PointerButton).Legal ((toggles PointerButton).run down
          (buttonChanges (p.buttons r.fingers r.count r.buttons).1)) (buttonChanges (clicks (clicked p r))) ↔
        (changed r.buttons = false → ∀ tap, p.tap = some tap → ∀ button,
          (Tap.report G r.fingers r.count r.at_ tap).1 = some button → ∀ other, images other ≠ some button)) := by
    intro hlegal
    rw [(legal_clicks _).1, ← taps_iff]
    refine forall_congr' fun button => imp_congr_right fun _ => ?_
    rw [← Bool.not_eq_true, (htracks hlegal).down, not_exists]
    rfl
  have hapart : (imaging G p.clickpad r.fingers r.count).Legal images r.buttons ∧ _ ↔ Apart p images r :=
    ⟨fun h => ⟨h.1, (hclicks h.1).mp h.2⟩, fun h => ⟨h.presses, (hclicks h.presses).mpr h.taps⟩⟩
  refine ⟨hapart, fun h => ?_⟩
  have hlegal := hapart.mpr h
  rw [(legal_clicks _).2 hlegal.2]
  exact (htracks hlegal.1).congr hpressed hclickpad

end Report

/-! ## A run -/

/-- A pad after some reports. -/
def TouchpadPointer.ran (p : TouchpadPointer G) (history : List PadReport) : TouchpadPointer G :=
  history.foldl (fun p r => (p.report r).2) p

/-- What a pad passes on. -/
def passedOn (p : TouchpadPointer G) : List PadReport → List CaptureTransition
  | [] => []
  | r :: rest => (p.report r).1.transitions ++ passedOn (p.report r).2 rest

/-- The held presses after some reports, and what each was turned into. -/
def imagesOf (G : Type) [Measure G] (clickpad : Bool) (images : Images) (history : List PadReport) : Images :=
  history.foldl (imagesAfter G clickpad) images

theorem clickpad_buttons (p : TouchpadPointer G) (fingers : List Finger) (count : Nat)
    (transitions : List CaptureTransition) : (p.buttons fingers count transitions).2.clickpad = p.clickpad := by
  induction transitions generalizing p with
  | nil => rfl
  | cons transition rest ih => exact (ih _).trans (Tracks.clickpad_button p fingers count transition)

theorem clickpad_report (p : TouchpadPointer G) (r : PadReport) : (p.report r).2.clickpad = p.clickpad :=
  (report_kept p r).2.trans (clickpad_buttons p _ _ _)

theorem clickpad_ran (p : TouchpadPointer G) (history : List PadReport) : (p.ran history).clickpad = p.clickpad := by
  induction history generalizing p with
  | nil => rfl
  | cons r rest ih => exact (ih _).trans (clickpad_report p r)

/-- Reports that are apart. -/
def reports (G : Type) [Measure G] : Replay (TouchpadPointer G × Images) PadReport where
  apply state r := ((state.1.report r).2, imagesAfter G state.1.clickpad state.2 r)
  admits state r := Apart state.1 state.2 r

theorem reports_run (p : TouchpadPointer G) (images : Images) (history : List PadReport) :
    (reports G).run (p, images) history = (p.ran history, imagesOf G p.clickpad images history) := by
  induction history generalizing p images with
  | nil => rfl
  | cons r rest ih =>
    rw [Replay.run_cons]
    refine (ih _ _).trans ?_
    rw [clickpad_report]
    rfl

/-- **A run passes on changes exactly where each report is apart.** -/
theorem Tracks.run {p : TouchpadPointer G} {images : Images} {down : PointerButton → Bool} {history : List PadReport}
    (h : Tracks p images down)
    (hpad : (toggles PointerButton).Legal (heldPresses images) (buttonChanges (history.flatMap (·.buttons)))) :
    ((toggles PointerButton).Legal down (buttonChanges (passedOn p history)) ↔ (reports G).Legal (p, images) history) ∧
      ((reports G).Legal (p, images) history → Tracks (p.ran history) (imagesOf G p.clickpad images history)
        ((toggles PointerButton).run down (buttonChanges (passedOn p history)))) := by
  induction history generalizing p images down with
  | nil => exact ⟨Iff.rfl, fun _ => h⟩
  | cons r rest ih =>
    rw [List.flatMap_cons, buttonChanges_append, Replay.legal_append,
      heldPresses_run (G := G) p.clickpad r.fingers r.count] at hpad
    obtain ⟨hiff, htracks⟩ := h.report hpad.1
    rw [passedOn, buttonChanges_append, Replay.legal_append, hiff, Replay.legal_cons, Replay.run_append]
    have hrest := fun hapart => ih (htracks hapart) hpad.2
    refine ⟨and_congr_right fun hapart => (hrest hapart).1, fun hlegal => ?_⟩
    have hran := (hrest hlegal.1).2 hlegal.2
    rw [clickpad_report] at hran
    exact hran

/-- No button is down. -/
def noneDown : PointerButton → Bool := fun _ => false

def noImages : Images := fun _ => none

/-- The buttons that are down when a pad passed something on. -/
def downAfter (transitions : List CaptureTransition) : PointerButton → Bool :=
  (toggles PointerButton).run noneDown (buttonChanges transitions)

/-- **No held button is lifted** in a run. -/
structure HoldsButtons (p : TouchpadPointer G) (history : List PadReport) : Prop where
  /-- While a press is held, the button it was turned into is down. -/
  kept : ∀ before r after k button turned, history = before ++ r :: after →
    (imaging G p.clickpad r.fingers r.count).run (imagesOf G p.clickpad noImages before) (r.buttons.take k) button =
      some turned →
    downAfter (passedOn p before ++ ((p.ran before).report r).1.transitions.take k) turned = true
  alternate : ∀ button, Alternates true (((buttonChanges (passedOn p history)).filter (·.1 = button)).map (·.2))
  /-- After every report the buttons that are down are those that the held presses were turned into. -/
  exactly : ∀ before after, history = before ++ after → ∀ button, downAfter (passedOn p before) button = true ↔
    ∃ other, imagesOf G p.clickpad noImages before other = some button

/-- The presses that have an image are those that are held on the pad. -/
theorem heldPresses_imagesOf (clickpad : Bool) (history : List PadReport) :
    heldPresses (imagesOf G clickpad noImages history) = downAfter (history.flatMap (·.buttons)) := by
  have hrun : ∀ images, heldPresses (imagesOf G clickpad images history) =
      (toggles PointerButton).run (heldPresses images) (buttonChanges (history.flatMap (·.buttons))) := by
    induction history with
    | nil => exact fun _ => rfl
    | cons r rest ih =>
      intro images
      rw [List.flatMap_cons, buttonChanges_append, Replay.run_append,
        heldPresses_run (G := G) clickpad r.fingers r.count]
      exact ih _
  exact hrun noImages

theorem buttons_take (p : TouchpadPointer G) (fingers : List Finger) (count k : Nat)
    (transitions : List CaptureTransition) : (p.buttons fingers count (transitions.take k)).1 =
      (p.buttons fingers count transitions).1.take k := by
  induction transitions generalizing p k with
  | nil => simp [TouchpadPointer.buttons]
  | cons transition rest ih =>
    cases k with
    | zero => rfl
    | succ k => exact congrArg _ (ih _ k)

/-- What is down stays so while a tap clicks another button. -/
theorem run_clicks_take {down : PointerButton → Bool} {clicked : Option PointerButton} {turned : PointerButton}
    (hlegal : (toggles PointerButton).Legal down (buttonChanges (clicks clicked))) (h : down turned = true) (j : Nat) :
    (toggles PointerButton).run down (buttonChanges ((clicks clicked).take j)) turned = true := by
  rcases j with _ | _ | j
  · exact h
  · cases clicked with
    | none => exact h
    | some button =>
      show Function.update down button true turned = true
      by_cases heq : turned = button
      · subst heq
        exact Function.update_self _ _ _
      · rw [Function.update_of_ne heq, h]
  · rw [List.take_of_length_le (by cases clicked <;> simp [clicks]), (legal_clicks clicked).2 hlegal]
    exact h

/-- In the middle of a report what held presses were turned into is down. -/
theorem Tracks.kept {p : TouchpadPointer G} {images : Images} {down : PointerButton → Bool} {r : PadReport}
    (h : Tracks p images down)
    (hpad : (toggles PointerButton).Legal (heldPresses images) (buttonChanges r.buttons)) (hapart : Apart p images r)
    {k : Nat} {button turned : PointerButton}
    (hheld : (imaging G p.clickpad r.fingers r.count).run images (r.buttons.take k) button = some turned) :
    (toggles PointerButton).run down (buttonChanges ((p.report r).1.transitions.take k)) turned = true := by
  have hsplit : r.buttons = r.buttons.take k ++ r.buttons.drop k := (List.take_append_drop k _).symm
  have hpad' := hpad
  have hpresses := hapart.presses
  rw [hsplit, buttonChanges_append, Replay.legal_append] at hpad'
  rw [hsplit, Replay.legal_append] at hpresses
  have htracks := (h.buttons r.fingers r.count hpad'.1).2 hpresses.1
  have hdown := (htracks.down turned).mpr ⟨button, hheld⟩
  rw [buttons_take] at hdown
  have hlegal := (h.report hpad).1.mpr hapart
  rw [report_transitions, buttonChanges_append, Replay.legal_append] at hlegal
  rw [report_transitions, List.take_append, buttonChanges_append, Replay.run_append]
  by_cases hk : k ≤ (p.buttons r.fingers r.count r.buttons).1.length
  · rw [Nat.sub_eq_zero_of_le hk]
    exact hdown
  · rw [List.take_of_length_le (Nat.le_of_not_le hk)] at hdown ⊢
    exact run_clicks_take hlegal.2 hdown _

/-- **A pad never lifts a held button if and only if its reports are apart.** -/
theorem holds_buttons_iff (clickpad : Bool) (settings : TouchpadSettings) (history : List PadReport)
    (hpad : ∀ button, Alternates true (((buttonChanges (history.flatMap (·.buttons))).filter (·.1 = button)).map (·.2))) :
    HoldsButtons (.new clickpad settings : TouchpadPointer G) history ↔
      ∀ before r after, history = before ++ r :: after →
        Apart ((.new clickpad settings : TouchpadPointer G).ran before) (imagesOf G clickpad noImages before) r := by
  have hlegal : (toggles PointerButton).Legal (heldPresses noImages) (buttonChanges (history.flatMap (·.buttons))) :=
    legal_of_alternates hpad
  have hnew : Tracks (.new clickpad settings : TouchpadPointer G) noImages noneDown := tracks_new clickpad settings
  have hsplits : (reports G).Legal ((.new clickpad settings : TouchpadPointer G), noImages) history ↔
      ∀ before r after, history = before ++ r :: after →
        Apart ((.new clickpad settings : TouchpadPointer G).ran before) (imagesOf G clickpad noImages before) r := by
    rw [Replay.legal_iff_forall_split]
    refine forall_congr' fun before => forall_congr' fun r => forall_congr' fun after => imp_congr_right fun _ => ?_
    rw [reports_run]
    rfl
  rw [← hsplits]
  constructor
  · exact fun h => (hnew.run hlegal).1.mp (legal_of_alternates h.alternate)
  · intro hapart
    -- What is so of the reports before some point, and from there on.
    have hbefore : ∀ {before after}, history = before ++ after →
        Tracks ((.new clickpad settings : TouchpadPointer G).ran before) (imagesOf G clickpad noImages before)
          (downAfter (passedOn (.new clickpad settings : TouchpadPointer G) before)) ∧
        (toggles PointerButton).Legal (heldPresses (imagesOf G clickpad noImages before))
          (buttonChanges (after.flatMap (·.buttons))) := by
      rintro before after rfl
      rw [List.flatMap_append, buttonChanges_append, Replay.legal_append] at hlegal
      rw [Replay.legal_append] at hapart
      refine ⟨(hnew.run hlegal.1).2 hapart.1, ?_⟩
      rw [heldPresses_imagesOf]
      exact hlegal.2
    refine ⟨fun before r after k button turned hsplit hheld => ?_, ?_, fun before after hsplit button => ?_⟩
    · obtain ⟨htracks, hrest⟩ := hbefore hsplit
      rw [List.flatMap_cons, buttonChanges_append, Replay.legal_append] at hrest
      have hr := hsplits.mp hapart before r after hsplit
      have hheld' : (imaging G ((.new clickpad settings : TouchpadPointer G).ran before).clickpad r.fingers r.count).run
          (imagesOf G clickpad noImages before) (r.buttons.take k) button = some turned := by
        rw [clickpad_ran]
        exact hheld
      rw [downAfter, buttonChanges_append, Replay.run_append]
      exact htracks.kept hrest.1 hr hheld'
    · exact alternates_of_legal ((hnew.run hlegal).1.mpr hapart)
    · exact (hbefore hsplit).1.down button

/-! ## A tap beside a held button -/

/-- Fingers that move nothing. -/
instance : Measure Unit where
  travelled _ _ := false
  spread _ _ := false
  rest := ()
  motion _ _ _ _ _ := (⟨0, 0, 0, 0⟩, ())

def touching (buttons : List CaptureTransition) (at_ : Nat) : PadReport := ⟨[⟨7, 100, 100⟩], 1, buttons, at_⟩
def lifted (buttons : List CaptureTransition) (at_ : Nat) : PadReport := ⟨[], 0, buttons, at_⟩

/-- The left button is held below the pad, and a finger taps. -/
def tapWhileHeld : List PadReport :=
  [lifted [.button primary .pressed] 1000000, touching [] 2000000, lifted [] 2100000,
    lifted [.button primary .released] 3000000]

/-- A tap, and then a press of the pad by one finger. -/
def tapThenPress : List PadReport :=
  [touching [] 2000000, lifted [] 2100000, touching [.button primary .pressed] 3000000,
    lifted [.button primary .released] 4000000]

theorem not_holds_buttons : ¬ ∀ (clickpad : Bool) (settings : TouchpadSettings) (history : List PadReport), (∀ button,
        Alternates true (((buttonChanges (history.flatMap (·.buttons))).filter (·.1 = button)).map (·.2))) →
      HoldsButtons (.new clickpad settings : TouchpadPointer Unit) history := by
  intro h
  have hpad : (toggles PointerButton).Legal noneDown (buttonChanges (tapWhileHeld.flatMap (·.buttons))) :=
    ⟨rfl, rfl, trivial⟩
  have halternate := (h false ⟨true, true⟩ tapWhileHeld (alternates_of_legal hpad)).alternate primary
  have hchanges : ((buttonChanges (passedOn (.new false ⟨true, true⟩ : TouchpadPointer Unit) tapWhileHeld)).filter
      (·.1 = primary)).map (·.2) = [true, true, false, false] := by decide
  rw [hchanges] at halternate
  exact Bool.noConfusion halternate.2.1

theorem holds_buttons_tapThenPress : HoldsButtons (.new true ⟨true, true⟩ : TouchpadPointer Unit) tapThenPress := by
  have hpad : (toggles PointerButton).Legal noneDown (buttonChanges (tapThenPress.flatMap (·.buttons))) :=
    ⟨rfl, rfl, trivial⟩
  have hapart : (reports Unit).Legal (.new true ⟨true, true⟩, noImages) tapThenPress :=
    ⟨⟨trivial, fun _ _ h => (nomatch h)⟩, ⟨trivial, fun _ _ _ _ _ _ h => (nomatch h)⟩,
      ⟨⟨fun _ h => (nomatch h), trivial⟩, fun h => (nomatch h)⟩, ⟨⟨trivial, trivial⟩, fun h => (nomatch h)⟩, trivial⟩
  refine (holds_buttons_iff true ⟨true, true⟩ tapThenPress (alternates_of_legal hpad)).mpr fun before r after hsplit => ?_
  have hr := ((reports Unit).legal_iff_forall_split _ _).mp hapart before r after hsplit
  rw [reports_run] at hr
  exact hr

end Zflow.Linux
