import Zflow.Windows.Input

/-!
# Nothing stuck on Windows

What Windows holds down is read off the log of what it took. The record covers it, so a release that
Windows takes whole leaves nothing down; and the clock repeats only a key that is down. A release that
stays pending keeps the next call from pressing anything, but not the rest of its own batch: a batch is
orderly when it presses nothing after it closed the activation, or Windows takes all of it.
-/

namespace Zflow.Windows

open Zflow.Core Lib

/-! ## Targets -/

theorem posted_eq {usage : HidUsage} {target : Target} (h : posted usage = some target) :
    (usage = .keyboard 72 ∧ target = ⟨2, 0x13, 0⟩) ∨
      (usage.page = consumer ∧ ∃ row ∈ media, row.1 = usage.usage ∧ target = ⟨2, row.2, 0⟩) ∨
      (usage.page = HidUsage.keyboardKeypad ∧ ∃ row ∈ keys, row.1 = usage.usage ∧
        target = ⟨1, row.2 % 256, row.2 / 256⟩) := by
  unfold posted at h
  split_ifs at h with hpause hconsumer hpage
  · exact .inl ⟨hpause, (Option.some.inj h).symm⟩
  · obtain ⟨row, hrow, htarget⟩ := Option.map_eq_some_iff.mp h
    have husage := List.find?_some hrow
    exact .inr (.inl ⟨hconsumer, row, List.mem_of_find?_eq_some hrow, beq_iff_eq.mp husage, htarget.symm⟩)
  · obtain ⟨row, hrow, htarget⟩ := Option.map_eq_some_iff.mp h
    have husage := List.find?_some hrow
    exact .inr (.inr ⟨not_not.mp hpage, row, List.mem_of_find?_eq_some hrow, beq_iff_eq.mp husage, htarget.symm⟩)

/-- A key is a scan code or a virtual key. -/
theorem posted_kind {usage : HidUsage} {target : Target} (h : posted usage = some target) :
    target.kind = 1 ∨ target.kind = 2 := by
  rcases posted_eq h with ⟨-, rfl⟩ | ⟨-, _, -, -, rfl⟩ | ⟨-, _, -, -, rfl⟩
  · exact .inr rfl
  · exact .inr rfl
  · exact .inl rfl

/-- No two usages share a target. -/
theorem posted_injective {usage other : HidUsage} {target : Target} (h : posted usage = some target)
    (h' : posted other = some target) : usage = other := by
  have hpause : ∀ row ∈ media, row.2 ≠ 0x13 := by decide
  have hmedia : ∀ row ∈ media, ∀ row' ∈ media, row.2 = row'.2 → row.1 = row'.1 := by decide
  have hkeys : ∀ row ∈ keys, ∀ row' ∈ keys, row.2 = row'.2 → row.1 = row'.1 := by decide +kernel
  have hsame : ∀ {a b : HidUsage}, a.page = b.page → a.usage = b.usage → a = b := by
    rintro ⟨_, _⟩ ⟨_, _⟩ rfl rfl
    rfl
  rcases posted_eq h with ⟨hu, rfl⟩ | ⟨hpage, row, hrow, hu, rfl⟩ | ⟨hpage, row, hrow, hu, rfl⟩ <;>
    rcases posted_eq h' with ⟨hu', ht⟩ | ⟨hpage', row', hrow', hu', ht⟩ | ⟨hpage', row', hrow', hu', ht⟩ <;>
    simp only [Target.mk.injEq, and_true, true_and, false_and, Nat.reduceEqDiff] at ht
  · exact hu.trans hu'.symm
  · exact absurd ht.symm (hpause row' hrow')
  · exact absurd ht (hpause row hrow)
  · exact hsame (hpage.trans hpage'.symm) (hu.symm.trans ((hmedia row hrow row' hrow' ht).trans hu'))
  · have hrows : row.2 = row'.2 := by omega
    exact hsame (hpage.trans hpage'.symm) (hu.symm.trans ((hkeys row hrow row' hrow' hrows).trans hu'))

/-! ## What Windows holds -/

/-- The event moves that key or button. -/
def NativeEvent.moves (event : NativeEvent) (target : Target) : Prop :=
  event.kind ≤ 3 ∧ event.kind = target.kind ∧ event.code = target.code ∧ event.extra = target.extra

instance (event : NativeEvent) (target : Target) : Decidable (event.moves target) :=
  inferInstanceAs (Decidable (_ ∧ _))

/-- The event presses a key or button. -/
def NativeEvent.presses (event : NativeEvent) : Bool := event.kind ≤ 3 ∧ event.value ≠ 0

/-- **What Windows holds down**: it moves what it takes, and a repeat is of something that is down. -/
def windows : Replay (Target → Bool) Posting where
  apply down e := fun target =>
    if e.taken = true ∧ e.event.moves target then decide (e.event.value ≠ 0) else down target
  admits down e := e.autorepeat = true → ∃ target, e.event = target.event true ∧ down target = true

/-- What is down after a log. -/
def heldIn (log : List Posting) : Target → Bool := windows.run (fun _ => false) log

theorem heldIn_append (log : List Posting) (e : Posting) (target : Target) : heldIn (log ++ [e]) target =
      if e.taken = true ∧ e.event.moves target then decide (e.event.value ≠ 0) else heldIn log target := by
  unfold heldIn
  rw [windows.run_append]
  rfl

/-- A target's event moves it and nothing else. -/
theorem Target.event_moves {target : Target} (h : target.kind ≤ 3) (pressed : Bool) (other : Target) :
    (target.event pressed).moves other ↔ other = target := by
  obtain ⟨kind, code, extra⟩ := target
  obtain ⟨kind', code', extra'⟩ := other
  simp only [NativeEvent.moves, Target.event, Target.mk.injEq] at h ⊢
  omega

theorem heldIn_event (log : List Posting) {target : Target} (h : target.kind ≤ 3) (pressed : Bool)
    (pending autorepeat : Bool) (other : Target) :
    heldIn (log ++ [⟨target.event pressed, true, pending, autorepeat⟩]) other =
      if other = target then pressed else heldIn log other := by
  rw [heldIn_append]
  simp only [true_and, Target.event_moves h]
  split
  · cases pressed <;> rfl
  · rfl

namespace Injector

variable {W : Type} {i i' : Injector W}

/-- The record has the key or button down. -/
def Recorded (i : Injector W) (target : Target) : Prop :=
  (∃ usage ∈ i.keys, Windows.posted usage = some target) ∨ ∃ button ∈ i.buttons, target = buttonTarget button

/-- **What holds between the methods**: the record covers what Windows holds, and the repeat is of a key
that is down. -/
structure Good (i : Injector W) : Prop where
  legal : windows.Legal (fun _ => false) i.posted
  covers : ∀ target, heldIn i.posted target = true → i.Recorded target
  named : ∀ usage ∈ i.keys, (Windows.posted usage).isSome = true
  repeating : ∀ usage at_, i.repeating = some (usage, at_) →
    ∃ target, Windows.posted usage = some target ∧ heldIn i.posted target = true

theorem Good.congr (h : Good i) (hposted : i'.posted = i.posted) (hkeys : i'.keys = i.keys)
    (hbuttons : i'.buttons = i.buttons) (hrepeating : i'.repeating = i.repeating) : Good i' := by
  refine ⟨hposted ▸ h.legal, fun target hheld => ?_, hkeys ▸ h.named, fun usage at_ hat => ?_⟩
  · unfold Recorded
    rw [hkeys, hbuttons]
    exact h.covers target (hposted ▸ hheld)
  · rw [hposted]
    exact h.repeating usage at_ (hrepeating ▸ hat)

theorem legal_append {log : List Posting} {e : Posting} (h : windows.Legal (fun _ => false) log)
    (he : e.autorepeat = true → ∃ target, e.event = target.event true ∧ heldIn log target = true) :
    windows.Legal (fun _ => false) (log ++ [e]) :=
  (windows.legal_append _ _ _).mpr ⟨h, he, trivial⟩

variable [Native W]

theorem postAs_eq (autorepeat : Bool) (event : NativeEvent) (i : Injector W) :
    postAs autorepeat event i = ((Native.post event i.native).1,
      { i with native := (Native.post event i.native).2, posted := i.posted ++
          [⟨event, (Native.post event i.native).1.isOk, i.releasing, autorepeat⟩] }) := rfl

omit [Native W] in
/-- An event that Windows refuses, or that moves nothing. -/
theorem good_still (h : Good i) (e : Posting) (hposted : i'.posted = i.posted ++ [e])
    (hlegal : e.autorepeat = true → ∃ target, e.event = target.event true ∧ heldIn i.posted target = true)
    (hstill : ∀ target, heldIn i'.posted target = heldIn i.posted target) (hkeys : i'.keys = i.keys)
    (hbuttons : i'.buttons = i.buttons) (hrepeating : i'.repeating = i.repeating) : Good i' := by
  refine ⟨?_, fun target hheld => ?_, hkeys ▸ h.named, fun usage at_ hat => ?_⟩
  · rw [hposted]
    exact legal_append h.legal hlegal
  · unfold Recorded
    rw [hkeys, hbuttons]
    rw [hstill] at hheld
    exact h.covers target hheld
  · simp only [hstill]
    exact h.repeating usage at_ (hrepeating ▸ hat)

omit [Native W] in
/-- A refused event changes nothing that is down. -/
theorem heldIn_refused (log : List Posting) (event : NativeEvent) (pending autorepeat : Bool)
    (target : Target) : heldIn (log ++ [⟨event, false, pending, autorepeat⟩]) target = heldIn log target := by
  rw [heldIn_append]
  exact if_neg fun hand => Bool.false_ne_true hand.1

/-- Motion and the wheel hold nothing down. -/
theorem good_pointing (h : Good i) {event : NativeEvent} (hkind : 3 < event.kind) : Good (post event i).2 := by
  refine good_still h _ rfl (fun hauto => by cases hauto) (fun target => ?_) rfl rfl rfl
  refine (heldIn_append _ _ target).trans (if_neg fun hand => ?_)
  have hmoves : event.kind ≤ 3 := hand.2.1
  omega

omit [Native W] in
/-- The record after a key or button went down or up. -/
theorem good_moved (h : Good i) {target : Target} (htarget : target.kind ≤ 3) (pressed pending : Bool)
    (hposted : i'.posted = i.posted ++ [⟨target.event pressed, true, pending, false⟩])
    (hcovers : ∀ other, (if other = target then pressed else heldIn i.posted other) = true → i'.Recorded other)
    (hnamed : ∀ usage ∈ i'.keys, (Windows.posted usage).isSome = true)
    (hrepeating : ∀ usage at_, i'.repeating = some (usage, at_) → ∃ other, Windows.posted usage = some other ∧
      (if other = target then pressed else heldIn i.posted other) = true) : Good i' := by
  refine ⟨?_, fun other hheld => ?_, hnamed, fun usage at_ hat => ?_⟩
  · rw [hposted]
    exact legal_append h.legal fun hauto => by cases hauto
  · rw [hposted, heldIn_event _ htarget] at hheld
    exact hcovers other hheld
  · obtain ⟨other, hother, hheld⟩ := hrepeating usage at_ hat
    refine ⟨other, hother, ?_⟩
    rw [hposted, heldIn_event _ htarget]
    exact hheld

omit [Native W] in
/-- A key that went up is forgotten. -/
theorem covers_erase (h : Good i) {usage : HidUsage} {target : Target}
    (htarget : Windows.posted usage = some target) (other : Target)
    (hheld : (if other = target then false else heldIn i.posted other) = true) :
    (∃ u ∈ i.keys.erase usage, Windows.posted u = some other) ∨
      ∃ button ∈ i.buttons, other = buttonTarget button := by
  split at hheld
  · cases hheld
  · rename_i hne
    rcases h.covers other hheld with ⟨u, hu, hposted⟩ | hbutton
    · refine .inl ⟨u, Std.ExtTreeSet.mem_erase.mpr ⟨fun heq => hne ?_, hu⟩, hposted⟩
      rw [Std.compare_eq_iff_eq] at heq
      subst heq
      exact Option.some.inj (hposted.symm.trans htarget)
    · exact .inr hbutton

theorem good_key (usage : HidUsage) (pressed : Bool) (h : Good i) : Good (key usage pressed i).2 := by
  unfold key
  cases htarget : Windows.posted usage with
  | none => exact h
  | some target =>
    have hkind : target.kind ≤ 3 := by rcases posted_kind htarget with heq | heq <;> omega
    dsimp only [post]
    rw [postAs_eq]
    rcases Native.post (target.event pressed) i.native with ⟨_ | _, native⟩
    · exact good_still h _ rfl (fun hauto => by cases hauto) (heldIn_refused _ _ _ _) rfl rfl rfl
    dsimp only [Except.isOk, Except.toBool]
    cases pressed with
    | true =>
      have hcovers : ∀ other, (if other = target then true else heldIn i.posted other) = true →
          (∃ u ∈ i.keys.insert usage, Windows.posted u = some other) ∨
            ∃ button ∈ i.buttons, other = buttonTarget button := by
        intro other hheld
        split at hheld
        · rename_i heq
          exact .inl ⟨usage, Std.ExtTreeSet.mem_insert_self, heq ▸ htarget⟩
        · rcases h.covers other hheld with ⟨u, hu, hposted⟩ | hbutton
          · exact .inl ⟨u, Std.ExtTreeSet.mem_insert.mpr (.inr hu), hposted⟩
          · exact .inr hbutton
      have hnamed : ∀ u ∈ i.keys.insert usage, (Windows.posted u).isSome = true := by
        intro u hu
        rw [Std.ExtTreeSet.mem_insert, Std.compare_eq_iff_eq] at hu
        rcases hu with rfl | hu
        · rw [htarget]
          rfl
        · exact h.named u hu
      have hkept : ∀ u at_, i.repeating = some (u, at_) → ∃ other, Windows.posted u = some other ∧
          (if other = target then true else heldIn i.posted other) = true := by
        intro u at_ hat
        obtain ⟨other, hother, hheld⟩ := h.repeating u at_ hat
        exact ⟨other, hother, by simp [hheld]⟩
      split
      · refine good_moved h hkind true _ rfl hcovers hnamed fun u at_ hat => ?_
        obtain ⟨rfl, -⟩ := Prod.mk.inj (Option.some.inj hat)
        exact ⟨target, htarget, if_pos rfl⟩
      · refine good_moved h hkind true _ rfl hcovers hnamed fun u at_ hat => ?_
        dsimp only at hat
        split at hat
        · cases hat
        · exact hkept u at_ hat
    | false =>
      rw [Bool.false_and, if_neg Bool.false_ne_true]
      refine good_moved h hkind false _ rfl (covers_erase h htarget) (fun u hu => ?_) fun u at_ hat => ?_
      · exact h.named u (Std.ExtTreeSet.mem_of_mem_erase hu)
      · have hother : i.repeating = some (u, at_) ∧ u ≠ usage := by
          cases hrepeating : i.repeating with
          | none => simp [hrepeating] at hat
          | some due =>
            rw [hrepeating, Option.any_some] at hat
            by_cases hsame : due.1 = usage
            · simp [hsame] at hat
            · have hdue : due = (u, at_) := by simpa [hsame] using hat
              exact ⟨congrArg some hdue, fun heq => hsame (by rw [hdue, heq])⟩
        obtain ⟨other, hposted, hheld⟩ := h.repeating u at_ hother.1
        refine ⟨other, hposted, ?_⟩
        rw [if_neg]
        · exact hheld
        · rintro rfl
          exact hother.2 (posted_injective hposted htarget)

/-! ## Releasing -/

/-- What posting ups leaves, and what it adds to the log. -/
structure Lifts (i i' : Injector W) (new : List Posting) : Prop where
  posted : i'.posted = i.posted ++ new
  ups : ∀ e ∈ new, e.event.presses = false ∧ e.pending = i.releasing
  releasing : i'.releasing = i.releasing
  remap : i'.remap = i.remap
  good : Good i → i.repeating = none → Good i' ∧ i'.repeating = none

omit [Native W] in
theorem Lifts.refl (i : Injector W) : Lifts i i [] :=
  ⟨(List.append_nil _).symm, fun _ he => (by cases he), rfl, rfl, fun h hnone => ⟨h, hnone⟩⟩

omit [Native W] in
theorem Lifts.trans {i'' : Injector W} {new new' : List Posting} (h : Lifts i i' new)
    (h' : Lifts i' i'' new') : Lifts i i'' (new ++ new') := by
  refine ⟨?_, fun e he => ?_, h'.releasing.trans h.releasing, h'.remap.trans h.remap, fun hgood hnone => ?_⟩
  · rw [h'.posted, h.posted, List.append_assoc]
  · rcases List.mem_append.mp he with he | he
    · exact h.ups e he
    · exact h.releasing ▸ h'.ups e he
  · obtain ⟨hgood', hnone'⟩ := h.good hgood hnone
    exact h'.good hgood' hnone'

omit [Native W] in
/-- One up that is posted. -/
theorem Lifts.single {e : Posting} (hposted : i'.posted = i.posted ++ [e]) (hup : e.event.presses = false)
    (hpending : e.pending = i.releasing) (hreleasing : i'.releasing = i.releasing)
    (hremap : i'.remap = i.remap) (hgood : Good i → i.repeating = none → Good i')
    (hrepeating : i'.repeating = i.repeating) : Lifts i i' [e] where
  posted := hposted
  ups posting he := by
    rw [List.mem_singleton.mp he]
    exact ⟨hup, hpending⟩
  releasing := hreleasing
  remap := hremap
  good h hnone := ⟨hgood h hnone, hrepeating.trans hnone⟩

/-- One key: its up is posted, and it is forgotten if Windows took it. -/
theorem lifts_key (i : Injector W) {usage : HidUsage} {target : Target}
    (htarget : Windows.posted usage = some target) :
    ∃ e, Lifts i (i.liftKey usage) [e] ∧ (i.liftKey usage).buttons = i.buttons ∧
      (i.liftKey usage).keys = if e.taken then i.keys.erase usage else i.keys := by
  have hkind : target.kind ≤ 3 := by rcases posted_kind htarget with heq | heq <;> omega
  have hup : (target.event false).presses = false := by simp [NativeEvent.presses, Target.event]
  refine ⟨⟨target.event false, (Native.post (target.event false) i.native).1.isOk, i.releasing, false⟩, ?_⟩
  unfold liftKey
  rw [htarget]
  dsimp only [post]
  rw [postAs_eq]
  rcases Native.post (target.event false) i.native with ⟨_ | _, native⟩
  · refine ⟨.single rfl hup rfl rfl rfl (fun h _ => ?_) rfl, rfl, rfl⟩
    exact good_still h _ rfl (fun hauto => by cases hauto) (heldIn_refused _ _ _ _) rfl rfl rfl
  · refine ⟨.single rfl hup rfl rfl rfl (fun h hnone => ?_) rfl, rfl, rfl⟩
    refine good_moved h hkind false _ rfl (covers_erase h htarget) (fun u hu => ?_) fun u at_ hat => ?_
    · exact h.named u (Std.ExtTreeSet.mem_of_mem_erase hu)
    · rw [show i.repeating = none from hnone] at hat
      cases hat

/-- One button, the same way. -/
theorem lifts_button (i : Injector W) (button : PointerButton) :
    ∃ e, Lifts i (i.liftButton button) [e] ∧ (i.liftButton button).keys = i.keys ∧
      (i.liftButton button).buttons = if e.taken then i.buttons.erase button else i.buttons := by
  have hkind : (buttonTarget button).kind ≤ 3 := le_refl 3
  have hup : ((buttonTarget button).event false).presses = false := by
    simp [NativeEvent.presses, Target.event]
  refine ⟨⟨(buttonTarget button).event false, (Native.post ((buttonTarget button).event false) i.native).1.isOk,
    i.releasing, false⟩, ?_⟩
  unfold liftButton post
  rw [postAs_eq]
  rcases Native.post ((buttonTarget button).event false) i.native with ⟨_ | _, native⟩
  · refine ⟨.single rfl hup rfl rfl rfl (fun h _ => ?_) rfl, rfl, rfl⟩
    exact good_still h _ rfl (fun hauto => by cases hauto) (heldIn_refused _ _ _ _) rfl rfl rfl
  · refine ⟨.single rfl hup rfl rfl rfl (fun h hnone => ?_) rfl, rfl, rfl⟩
    refine good_moved h hkind false _ rfl (fun other hheld => ?_) h.named fun u at_ hat => ?_
    · split at hheld
      · cases hheld
      · rename_i hne
        rcases h.covers other hheld with hkey | ⟨b, hb, hother⟩
        · exact .inl hkey
        · refine .inr ⟨b, Std.ExtTreeSet.mem_erase.mpr ⟨fun heq => hne ?_, hb⟩, hother⟩
          rw [Std.compare_eq_iff_eq] at heq
          rw [hother, heq]
    · rw [show i.repeating = none from hnone] at hat
      cases hat

omit [Native W] in
/-- Each in turn: what Windows takes the up of is forgotten, and `kept` is left alone. -/
theorem lifts_each {α β : Type} [Ord α] [Std.TransOrd α] [Std.LawfulEqOrd α]
    {liftOne : Injector W → α → Injector W} {held : Injector W → Std.ExtTreeSet α} {kept : Injector W → β}
    {named : α → Prop} (hone : ∀ i x, named x → ∃ e, Lifts i (liftOne i x) [e] ∧ kept (liftOne i x) = kept i ∧
      held (liftOne i x) = if e.taken then (held i).erase x else held i)
    (xs : List α) (i : Injector W) (hnamed : ∀ x ∈ xs, named x) :
    ∃ new, Lifts i (xs.foldl liftOne i) new ∧ kept (xs.foldl liftOne i) = kept i ∧
      ((∀ e ∈ new, e.taken = true) → ∀ x ∈ held (xs.foldl liftOne i), x ∈ held i ∧ x ∉ xs) := by
  induction xs generalizing i with
  | nil => exact ⟨[], .refl i, rfl, fun _ x hmem => ⟨hmem, List.not_mem_nil⟩⟩
  | cons x rest ih =>
    obtain ⟨e, hfirst, hkept, hheld⟩ := hone i x (hnamed x List.mem_cons_self)
    obtain ⟨new, hrest, hrestKept, hrestHeld⟩ :=
      ih (liftOne i x) fun other hother => hnamed other (List.mem_cons_of_mem _ hother)
    refine ⟨[e] ++ new, hfirst.trans hrest, hrestKept.trans hkept, fun htaken other hmem => ?_⟩
    obtain ⟨hleft, hnot⟩ := hrestHeld (fun e' he' => htaken e' (List.mem_append_right _ he')) other hmem
    rw [hheld, if_pos (htaken e (List.mem_append_left _ (List.mem_singleton_self e))),
      Std.ExtTreeSet.mem_erase, ne_eq, Std.compare_eq_iff_eq] at hleft
    refine ⟨hleft.2, fun hcons => ?_⟩
    rcases List.mem_cons.mp hcons with heq | hlater
    · exact hleft.1 heq.symm
    · exact hnot hlater

theorem lifts_keys (usages : List HidUsage) (i : Injector W)
    (hnamed : ∀ usage ∈ usages, (Windows.posted usage).isSome = true) :
    ∃ new, Lifts i (usages.foldl liftKey i) new ∧ (usages.foldl liftKey i).buttons = i.buttons ∧
      ((∀ e ∈ new, e.taken = true) → ∀ usage ∈ (usages.foldl liftKey i).keys, usage ∈ i.keys ∧ usage ∉ usages) := by
  refine lifts_each (fun i usage husage => ?_) usages i hnamed
  obtain ⟨target, htarget⟩ := Option.isSome_iff_exists.mp husage
  exact lifts_key i htarget

theorem lifts_buttons (buttons : List PointerButton) (i : Injector W) :
    ∃ new, Lifts i (buttons.foldl liftButton i) new ∧ (buttons.foldl liftButton i).keys = i.keys ∧
      ((∀ e ∈ new, e.taken = true) →
        ∀ button ∈ (buttons.foldl liftButton i).buttons, button ∈ i.buttons ∧ button ∉ buttons) :=
  lifts_each (fun i button _ => lifts_button i button) buttons i fun _ _ => trivial

/-- **What a release leaves**: everything Windows took up is up, and if it took all, nothing is left. -/
theorem lifts_lift (h : Good i) :
    ∃ new, Lifts { i with repeating := none } i.lift new ∧
      ((∀ e ∈ new, e.taken = true) → i.lift.keys = ∅ ∧ i.lift.buttons = ∅) := by
  obtain ⟨new, hkeys, hbuttons, hleft⟩ := lifts_keys i.keys.toList { i with repeating := none }
    fun usage hmem => h.named usage (Std.ExtTreeSet.mem_toList.mp hmem)
  obtain ⟨new', hlift, hsame, hnone⟩ := lifts_buttons
    (i.keys.toList.foldl liftKey { i with repeating := none }).buttons.toList
    (i.keys.toList.foldl liftKey { i with repeating := none })
  refine ⟨new ++ new', hkeys.trans hlift, fun htaken => ⟨?_, ?_⟩⟩
  · refine Std.ExtTreeSet.eq_empty_iff_forall_not_mem.mpr fun usage hmem => ?_
    obtain ⟨hbefore, hnot⟩ := hleft (fun e he => htaken e (List.mem_append_left _ he)) usage (hsame ▸ hmem)
    exact hnot (Std.ExtTreeSet.mem_toList.mpr hbefore)
  · refine Std.ExtTreeSet.eq_empty_iff_forall_not_mem.mpr fun button hmem => ?_
    obtain ⟨hbefore, hnot⟩ := hnone (fun e he => htaken e (List.mem_append_right _ he)) button hmem
    exact hnot (Std.ExtTreeSet.mem_toList.mpr hbefore)

/-- A remap that holds nothing. -/
def Idle (r : KeyRemap) : Prop := r.physical = ∅ ∧ r.deferred = ∅

/-- What `release` leaves, and what it adds to the log. -/
structure Released (i i' : Injector W) (new : List Posting) : Prop where
  posted : i'.posted = i.posted ++ new
  ups : ∀ e ∈ new, e.event.presses = false ∧ e.pending = i.releasing
  good : Good i'
  idle : Idle i'.remap
  repeating : i'.repeating = none
  clear : (∀ e ∈ new, e.taken = true) → i'.keys = ∅ ∧ i'.buttons = ∅ ∧ i'.releasing = false

theorem released (h : Good i) : ∃ new, Released i i.release new := by
  have hbare : Good { i with repeating := none } := ⟨h.legal, h.covers, h.named, fun _ _ hat => by cases hat⟩
  obtain ⟨new, hlift, hclear⟩ := lifts_lift h
  obtain ⟨hgood, hnone⟩ := hlift.good hbare rfl
  refine ⟨new, hlift.posted, hlift.ups, hgood.congr rfl rfl rfl rfl, ⟨rfl, rfl⟩, hnone, fun htaken => ?_⟩
  obtain ⟨hkeys, hbuttons⟩ := hclear htaken
  refine ⟨hkeys, hbuttons, ?_⟩
  show (!i.lift.keys.isEmpty || !i.lift.buttons.isEmpty) = false
  rw [hkeys, hbuttons]
  rfl

/-! ## Effects -/

/-- What an effect that closes nothing does: the record stays true, and a release is as pending as it was. -/
structure Steady (i i' : Injector W) : Prop where
  good : Good i → Good i'
  releasing : i'.releasing = i.releasing
  posted : ∃ new, i'.posted = i.posted ++ new ∧ ∀ e ∈ new, e.pending = i.releasing

instance : IsPreorder (Injector W) Steady where
  refl i := ⟨id, rfl, [], (List.append_nil _).symm, fun _ he => by cases he⟩
  trans i i' i'' h h' := by
    obtain ⟨new, hposted, hpending⟩ := h.posted
    obtain ⟨new', hposted', hpending'⟩ := h'.posted
    refine ⟨h'.good ∘ h.good, h'.releasing.trans h.releasing, new ++ new', ?_, fun e he => ?_⟩
    · rw [hposted', hposted, List.append_assoc]
    · rcases List.mem_append.mp he with he | he
      · exact hpending e he
      · exact (hpending' e he).trans h.releasing

omit [Native W] in
/-- One posting more. -/
theorem Steady.single (hgood : Good i → Good i') (hreleasing : i'.releasing = i.releasing) (event : NativeEvent)
    (taken autorepeat : Bool) (hposted : i'.posted = i.posted ++ [⟨event, taken, i.releasing, autorepeat⟩]) :
    Steady i i' :=
  ⟨hgood, hreleasing, _, hposted, fun e he => by rw [List.mem_singleton.mp he]⟩

omit [Native W] in
/-- Nothing posted and nothing recorded. -/
theorem Steady.still (hposted : i'.posted = i.posted) (hkeys : i'.keys = i.keys)
    (hbuttons : i'.buttons = i.buttons) (hrepeating : i'.repeating = i.repeating)
    (hreleasing : i'.releasing = i.releasing) : Steady i i' :=
  ⟨fun h => h.congr hposted hkeys hbuttons hrepeating, hreleasing, [], by rw [hposted, List.append_nil],
    fun _ he => by cases he⟩

theorem steady_pointing {event : NativeEvent} (hkind : 3 < event.kind) :
    Act.Within Steady (post event : Act String (Injector W) Unit) := fun _ =>
  .single (fun h => good_pointing h hkind) rfl event _ false rfl

theorem key_log (usage : HidUsage) (pressed : Bool) (i : Injector W) :
    (key usage pressed i).2.releasing = i.releasing ∧
      ∃ new, (key usage pressed i).2.posted = i.posted ++ new ∧ ∀ e ∈ new, e.pending = i.releasing := by
  unfold key
  cases Windows.posted usage with
  | none => exact ⟨rfl, [], (List.append_nil _).symm, fun _ he => by cases he⟩
  | some target =>
    have hnew : ∀ taken, ∀ e ∈ [Posting.mk (target.event pressed) taken i.releasing false],
        e.pending = i.releasing := fun _ e he => by rw [List.mem_singleton.mp he]
    dsimp only [post]
    rw [postAs_eq]
    rcases Native.post (target.event pressed) i.native with ⟨_ | _, native⟩
    · exact ⟨rfl, _, rfl, hnew _⟩
    · dsimp only
      split <;> exact ⟨rfl, _, rfl, hnew _⟩

theorem steady_key (usage : HidUsage) (pressed : Bool) :
    Act.Within Steady (key usage pressed : Act String (Injector W) Unit) := fun i =>
  have hlog := key_log usage pressed i
  ⟨good_key usage pressed, hlog.1, hlog.2⟩

theorem steady_edges (out : List Edge) : Act.Within Steady (edges out : Act String (Injector W) Unit) := by
  induction out with
  | nil => exact Act.Within.pure ()
  | cons edge rest ih => exact Act.Within.bind (steady_key edge.1 edge.2) fun _ => ih

theorem steady_physicalKey (usage : HidUsage) (pressed : Bool) :
    Act.Within Steady (physicalKey usage pressed : Act String (Injector W) Unit) := fun i =>
  have hremap : Steady i { i with remap := (i.remap.key usage pressed).2 } := .still rfl rfl rfl rfl rfl
  trans_of Steady hremap (steady_edges (i.remap.key usage pressed).1 _)

theorem steady_pointer (pressed : Bool) :
    Act.Within Steady (pointer pressed : Act String (Injector W) Unit) := fun i =>
  have hremap : Steady i { i with remap := (i.remap.pointer (pressed || !i.buttons.isEmpty)).2 } :=
    .still rfl rfl rfl rfl rfl
  trans_of Steady hremap (steady_edges (i.remap.pointer (pressed || !i.buttons.isEmpty)).1 _)

/-- A button is recorded as soon as Windows took it. -/
theorem steady_click (button : PointerButton) (pressed : Bool) :
    Act.Within Steady (do
      post ((buttonTarget button).event pressed)
      .change fun i : Injector W =>
        let buttons := if pressed then i.buttons.insert button else i.buttons.erase button
        { i with buttons, remap := i.remap.pointerReleased !buttons.isEmpty }) := by
  intro i
  have hkind : (buttonTarget button).kind ≤ 3 := le_refl 3
  rw [Act.bind_apply]
  unfold post
  rw [postAs_eq]
  rcases Native.post ((buttonTarget button).event pressed) i.native with ⟨_ | _, native⟩
  · refine .single (fun h => ?_) rfl _ _ _ rfl
    exact good_still h _ rfl (fun hauto => by cases hauto) (heldIn_refused _ _ _ _) rfl rfl rfl
  · refine .single (fun h => ?_) rfl _ _ _ rfl
    refine good_moved h hkind pressed _ rfl (fun other hheld => ?_) h.named fun u at_ hat => ?_
    · split at hheld
      · rename_i heq
        subst hheld
        exact .inr ⟨button, Std.ExtTreeSet.mem_insert_self, heq⟩
      · rename_i hne
        rcases h.covers other hheld with hkey | ⟨b, hb, hother⟩
        · exact .inl hkey
        · have hdistinct : b ≠ button := fun heq => hne (by rw [hother, heq])
          refine .inr ⟨b, ?_, hother⟩
          cases pressed with
          | true => exact Std.ExtTreeSet.mem_insert.mpr (.inr hb)
          | false =>
            exact Std.ExtTreeSet.mem_erase.mpr ⟨fun heq => hdistinct (Std.compare_eq_iff_eq.mp heq).symm, hb⟩
    · obtain ⟨other, hother, hheld⟩ := h.repeating u at_ hat
      refine ⟨other, hother, ?_⟩
      rw [if_neg]
      · exact hheld
      · rintro rfl
        rcases posted_kind hother with hone | htwo
        · cases hone
        · cases htwo

theorem steady_button (which : PointerButton) (pressed : Bool) :
    Act.Within Steady (button which pressed : Act String (Injector W) Unit) :=
  Act.Within.bind (steady_pointer pressed) fun _ => steady_click which pressed

/-- The effect closes the activation. -/
def closes : ReceiverEffect → Bool
  | .activationClosed .. => true
  | _ => false

/-! ### What an effect keeps -/

section Rule

variable {R : Injector W → Injector W → Prop} [IsPreorder (Injector W) R]
  (hpointer : Act.Within R (pointer false : Act String (Injector W) Unit))
  (hpoints : ∀ {event : NativeEvent}, 3 < event.kind → Act.Within R (post event : Act String (Injector W) Unit))

include hpoints in
theorem within_wheel (amount axis : Int) : Act.Within R (wheel amount axis : Act String (Injector W) Unit) := by
  intro i
  unfold wheel
  split
  · exact refl_of R i
  · exact hpoints (by decide : 3 < 5) i

include hpointer hpoints in
theorem within_motion (delta : MotionDelta) : Act.Within R (motion delta : Act String (Injector W) Unit) := by
  have hwheels : Act.Within R (wheel delta.scrollY 0 >>= fun _ => wheel delta.scrollX 1 :
      Act String (Injector W) Unit) := Act.Within.bind (within_wheel hpoints _ _) fun _ => within_wheel hpoints _ _
  unfold motion
  refine Act.Within.bind ?_ fun _ => Act.Within.bind ?_ fun _ => hwheels
  · split
    · exact hpointer
    · exact Act.Within.pure ()
  · split
    · exact hpoints (by decide : 3 < 4)
    · exact Act.Within.pure ()

include hpointer hpoints in
/-- **A relation that keys, buttons and closes keep, and what a pointer posts, is kept by any effect.** -/
theorem within_effect (effect : ReceiverEffect)
    (hkey : ∀ usage pressed synthetic, effect = .key usage pressed synthetic →
      Act.Within R (physicalKey usage pressed : Act String (Injector W) Unit))
    (hbutton : ∀ which pressed synthetic, effect = .button which pressed synthetic →
      Act.Within R (button which pressed : Act String (Injector W) Unit))
    (hclose : closes effect = true → ∀ i : Injector W, R i i.release) :
    Act.Within R (Injector.effect effect : Act String (Injector W) Unit) := by
  cases effect with
  | activationClosed session reason => exact hclose rfl
  | key usage pressed synthetic => exact hkey usage pressed synthetic rfl
  | button which pressed synthetic => exact hbutton which pressed synthetic rfl
  | motion delta through => exact within_motion hpointer hpoints delta
  | touchReplaced state synthetic =>
    show Act.Within R (if state.isEmpty then pure () else .fail "Raw touch is not supported on Windows")
    split
    · exact Act.Within.pure ()
    · exact Act.Within.fail _
  | activationOpened session => exact Act.Within.pure ()
  | snapshotAck session ack => exact Act.Within.pure ()
  | rejected session reason => exact Act.Within.pure ()

end Rule

theorem steady_effect {effect : ReceiverEffect} (h : closes effect = false) :
    Act.Within Steady (Injector.effect effect : Act String (Injector W) Unit) :=
  within_effect (steady_pointer false) steady_pointing effect (fun usage pressed _ _ => steady_physicalKey usage pressed)
    (fun which pressed _ _ => steady_button which pressed) fun hcloses => by rw [h] at hcloses; cases hcloses

/-- **What any effect does**: the record stays true; and while Windows takes everything, no release becomes
pending. -/
structure Carries (i i' : Injector W) : Prop where
  good : Good i → Good i'
  posted : Good i → ∃ new, i'.posted = i.posted ++ new ∧ ((∀ e ∈ new, e.taken = true) → i.releasing = false →
    i'.releasing = false ∧ ∀ e ∈ new, e.pending = false)

instance : IsPreorder (Injector W) Carries where
  refl i := ⟨id, fun _ => ⟨[], (List.append_nil _).symm, fun _ hreleasing => ⟨hreleasing, fun _ he => by cases he⟩⟩⟩
  trans i i' i'' h h' := by
    refine ⟨h'.good ∘ h.good, fun hgood => ?_⟩
    obtain ⟨new, hposted, hclear⟩ := h.posted hgood
    obtain ⟨new', hposted', hclear'⟩ := h'.posted (h.good hgood)
    refine ⟨new ++ new', by rw [hposted', hposted, List.append_assoc], fun htaken hreleasing => ?_⟩
    obtain ⟨hmid, hpending⟩ := hclear (fun e he => htaken e (List.mem_append_left _ he)) hreleasing
    obtain ⟨hlast, hpending'⟩ := hclear' (fun e he => htaken e (List.mem_append_right _ he)) hmid
    refine ⟨hlast, fun e he => ?_⟩
    rcases List.mem_append.mp he with he | he
    · exact hpending e he
    · exact hpending' e he

omit [Native W] in
theorem Steady.carries (h : Steady i i') : Carries i i' := by
  obtain ⟨new, hposted, hpending⟩ := h.posted
  exact ⟨h.good, fun _ => ⟨new, hposted, fun _ hreleasing =>
    ⟨h.releasing.trans hreleasing, fun e he => (hpending e he).trans hreleasing⟩⟩⟩

theorem carries_release (i : Injector W) : Carries i i.release := by
  refine ⟨fun h => ?_, fun h => ?_⟩
  · obtain ⟨new, hrelease⟩ := released h
    exact hrelease.good
  · obtain ⟨new, hrelease⟩ := released h
    exact ⟨new, hrelease.posted, fun htaken hreleasing =>
      ⟨(hrelease.clear htaken).2.2, fun e he => (hrelease.ups e he).2.trans hreleasing⟩⟩

theorem carries_effect (effect : ReceiverEffect) :
    Act.Within Carries (Injector.effect effect : Act String (Injector W) Unit) := by
  cases hcloses : closes effect with
  | false => exact fun i => (steady_effect hcloses i).carries
  | true =>
    cases effect with
    | activationClosed session reason => exact carries_release
    | _ => cases hcloses

theorem carries_effects (batch : List ReceiverEffect) :
    Act.Within Carries (effects batch : Act String (Injector W) Unit) := by
  induction batch with
  | nil => exact Act.Within.pure ()
  | cons effect rest ih => exact Act.Within.bind (carries_effect effect) fun _ => ih

/-! ## Effects on a remap that holds nothing -/

/-- The effect presses a key or a button. -/
def pressing : ReceiverEffect → Bool
  | .key _ pressed _ => pressed
  | .button _ pressed _ => pressed
  | _ => false

/-- **From a remap that holds nothing**, the remap still holds nothing and nothing was pressed. -/
structure Quiet (i i' : Injector W) : Prop where
  good : Good i → Good i'
  idle : Good i → Idle i.remap → Idle i'.remap
  posted : Good i → Idle i.remap → ∃ new, i'.posted = i.posted ++ new ∧ ∀ e ∈ new, e.event.presses = false

instance : IsPreorder (Injector W) Quiet where
  refl i := ⟨id, fun _ => id, fun _ _ => ⟨[], (List.append_nil _).symm, fun _ he => by cases he⟩⟩
  trans i i' i'' h h' := by
    refine ⟨h'.good ∘ h.good, fun hgood => h'.idle (h.good hgood) ∘ h.idle hgood, fun hgood hidle => ?_⟩
    obtain ⟨new, hposted, hups⟩ := h.posted hgood hidle
    obtain ⟨new', hposted', hups'⟩ := h'.posted (h.good hgood) (h.idle hgood hidle)
    refine ⟨new ++ new', by rw [hposted', hposted, List.append_assoc], fun e he => ?_⟩
    rcases List.mem_append.mp he with he | he
    · exact hups e he
    · exact hups' e he

theorem idle_key {r : KeyRemap} (h : Idle r) (usage : HidUsage) : r.key usage false = ([], r) := by
  unfold KeyRemap.key
  rw [if_pos (by rfl), if_neg]
  rw [h.1]
  exact Std.ExtTreeSet.not_mem_empty

theorem idle_pointer {r : KeyRemap} (h : Idle r) (busy : Bool) :
    (r.pointer busy).1 = [] ∧ Idle (r.pointer busy).2 := by
  unfold KeyRemap.pointer KeyRemap.ownDefaults
  rw [h.2]
  exact ⟨rfl, h.1, rfl⟩

theorem quiet_pointing {event : NativeEvent} (hkind : 3 < event.kind) :
    Act.Within Quiet (post event : Act String (Injector W) Unit) := fun _ =>
  ⟨fun h => good_pointing h hkind, fun _ => id, fun _ _ => ⟨_, rfl, fun e he => by
    rw [List.mem_singleton.mp he]
    simp [NativeEvent.presses, Nat.not_le_of_lt hkind]⟩⟩

theorem quiet_pointer (pressed : Bool) : Act.Within Quiet (pointer pressed : Act String (Injector W) Unit) := by
  intro i
  have hsteady := steady_pointer pressed i
  refine ⟨hsteady.good, fun _ hidle => ?_, fun _ hidle => ?_⟩
  · obtain ⟨hout, hidle'⟩ := idle_pointer hidle (pressed || !i.buttons.isEmpty)
    unfold pointer
    dsimp only
    rw [hout]
    exact hidle'
  · obtain ⟨hout, hidle'⟩ := idle_pointer hidle (pressed || !i.buttons.isEmpty)
    refine ⟨[], ?_, fun _ he => by cases he⟩
    unfold pointer
    dsimp only
    rw [hout, List.append_nil]
    rfl

theorem quiet_release (which : PointerButton) :
    Act.Within Quiet (button which false : Act String (Injector W) Unit) := by
  refine Act.Within.bind (quiet_pointer false) fun _ i => ?_
  have hsteady := steady_click which false i
  rw [Act.bind_apply] at hsteady ⊢
  unfold post at hsteady ⊢
  rw [postAs_eq] at hsteady ⊢
  have hups : ∀ taken, ∀ e ∈ [Posting.mk ((buttonTarget which).event false) taken i.releasing false],
      e.event.presses = false := fun _ e he => by
    rw [List.mem_singleton.mp he]
    simp [NativeEvent.presses, Target.event]
  refine ⟨hsteady.good, ?_, ?_⟩
  · rcases Native.post ((buttonTarget which).event false) i.native with ⟨_ | _, native⟩
    · exact fun _ hidle => hidle
    · exact fun _ hidle => hidle
  · rcases Native.post ((buttonTarget which).event false) i.native with ⟨_ | _, native⟩
    · exact fun _ _ => ⟨_, rfl, hups _⟩
    · exact fun _ _ => ⟨_, rfl, hups _⟩

theorem quiet_key (usage : HidUsage) : Act.Within Quiet (physicalKey usage false : Act String (Injector W) Unit) := by
  intro i
  have hsteady := steady_physicalKey usage false i
  refine ⟨hsteady.good, fun _ hidle => ?_, fun _ hidle => ⟨[], ?_, fun _ he => by cases he⟩⟩
  · unfold physicalKey
    rw [idle_key hidle]
    exact hidle
  · unfold physicalKey
    rw [idle_key hidle, List.append_nil]
    rfl

theorem quiet_close (i : Injector W) : Quiet i i.release := by
  refine ⟨(carries_release i).good, fun hgood _ => ?_, fun hgood _ => ?_⟩
  · obtain ⟨new, hrelease⟩ := released hgood
    exact hrelease.idle
  · obtain ⟨new, hrelease⟩ := released hgood
    exact ⟨new, hrelease.posted, fun e he => (hrelease.ups e he).1⟩

theorem quiet_effect {effect : ReceiverEffect} (h : pressing effect = false) :
    Act.Within Quiet (Injector.effect effect : Act String (Injector W) Unit) := by
  refine within_effect (quiet_pointer false) quiet_pointing effect ?_ ?_ fun _ => quiet_close
  · rintro usage pressed synthetic rfl
    obtain rfl : pressed = false := h
    exact quiet_key usage
  · rintro which pressed synthetic rfl
    obtain rfl : pressed = false := h
    exact quiet_release which

theorem quiet_effects {batch : List ReceiverEffect} (h : batch.any pressing = false) :
    Act.Within Quiet (effects batch : Act String (Injector W) Unit) := by
  induction batch with
  | nil => exact Act.Within.pure ()
  | cons effect rest ih =>
    rw [List.any_cons, Bool.or_eq_false_iff] at h
    exact Act.Within.bind (quiet_effect h.1) fun _ => ih h.2

/-! ## Batches -/

/-- Nothing was pressed while a release was pending. -/
def Fine (log : List Posting) : Prop := ∀ e ∈ log, e.event.presses = true → e.pending = false

theorem Fine.append {log new : List Posting} (h : Fine log)
    (hnew : ∀ e ∈ new, e.event.presses = true → e.pending = false) : Fine (log ++ new) := by
  intro e he
  rcases List.mem_append.mp he with he | he
  · exact h e he
  · exact hnew e he

/-- Ups press nothing. -/
theorem Fine.ups {log new : List Posting} (h : Fine log) (hnew : ∀ e ∈ new, e.event.presses = false) :
    Fine (log ++ new) :=
  h.append fun e he hpresses => absurd hpresses (by rw [hnew e he]; exact Bool.false_ne_true)

/-- The batch goes on pressing after it closed the activation. -/
def pressesOn : List ReceiverEffect → Bool
  | [] => false
  | effect :: rest => if closes effect then rest.any pressing else pressesOn rest

/-- **A batch that presses nothing after a close** presses nothing while a release is pending: it starts
with none, and until it closes none becomes pending. -/
theorem fine_effects {batch : List ReceiverEffect} (h : pressesOn batch = false) (hgood : Good i)
    (hreleasing : i.releasing = false) (hfine : Fine i.posted) : Fine (effects batch i).2.posted := by
  induction batch generalizing i with
  | nil => exact hfine
  | cons effect rest ih =>
    show Fine ((Injector.effect effect >>= fun _ => effects rest) i).2.posted
    unfold pressesOn at h
    cases hcloses : closes effect with
    | true =>
      rw [hcloses, if_pos rfl] at h
      obtain ⟨new, hrelease⟩ := released hgood
      have heffect : Injector.effect effect i = (.ok (), i.release) := by
        cases effect with
        | activationClosed session reason => rfl
        | _ => cases hcloses
      rw [Act.bind_of_ok heffect]
      obtain ⟨new', hposted, hups⟩ := (quiet_effects h i.release).posted hrelease.good hrelease.idle
      rw [hposted, hrelease.posted]
      exact (hfine.ups fun e he => (hrelease.ups e he).1).ups hups
    | false =>
      rw [hcloses, if_neg Bool.false_ne_true] at h
      have hsteady := steady_effect hcloses i
      obtain ⟨new, hposted, hpending⟩ := hsteady.posted
      have hfine' : Fine (Injector.effect effect i).2.posted := by
        rw [hposted]
        exact hfine.append fun e he _ => (hpending e he).trans hreleasing
      rw [Act.bind_apply]
      rcases hresult : Injector.effect effect i with ⟨_ | _, i'⟩
      · rw [hresult] at hfine'
        exact hfine'
      · rw [hresult] at hfine' hsteady
        exact ih h (hsteady.good hgood) (hsteady.releasing.trans hreleasing) hfine'

/-! ## The engine's calls, one at a time -/

/-- What `ready` and `apply` do first. -/
theorem finishRelease_leaves (h : Good i) : Good (finishRelease i).2 ∧
    (∃ new, (finishRelease i).2.posted = i.posted ++ new ∧ ∀ e ∈ new, e.event.presses = false) ∧
      ((finishRelease i).1 = .ok () → (finishRelease i).2.releasing = false) := by
  unfold finishRelease
  split
  · obtain ⟨new, hrelease⟩ := released h
    dsimp only
    split
    · exact ⟨hrelease.good, ⟨new, hrelease.posted, fun e he => (hrelease.ups e he).1⟩, fun hok => by cases hok⟩
    · rename_i hdone
      exact ⟨hrelease.good, ⟨new, hrelease.posted, fun e he => (hrelease.ups e he).1⟩,
        fun _ => Bool.eq_false_iff.mpr hdone⟩
  · rename_i hfree
    exact ⟨h, ⟨[], (List.append_nil _).symm, fun _ he => by cases he⟩, fun _ => Bool.eq_false_iff.mpr hfree⟩

/-- What the clock's repeat leaves: a key that is down stays down. -/
theorem good_again (h : Good i) {usage : HidUsage} {target : Target} (htarget : Windows.posted usage = some target)
    (hheld : heldIn i.posted target = true) : Good (postAs true (target.event true) i).2 := by
  have hkind : target.kind ≤ 3 := by rcases posted_kind htarget with heq | heq <;> omega
  refine good_still h _ rfl (fun _ => ⟨target, rfl, hheld⟩) (fun other => ?_) rfl rfl rfl
  rw [postAs_eq]
  dsimp only
  cases (Native.post (target.event true) i.native).1.isOk with
  | false => exact heldIn_refused _ _ _ _ _
  | true =>
    rw [heldIn_event _ hkind]
    split
    · rename_i heq
      rw [heq, hheld]
    · rfl

theorem good_tick (h : Good i) : Good (tick i).2 := by
  unfold tick
  split
  · obtain ⟨new, hrelease⟩ := released h
    exact hrelease.good
  split
  · exact h
  rename_i usage at_ hat
  dsimp only
  split
  · exact h.congr rfl rfl rfl rfl
  obtain ⟨target, htarget, hheld⟩ := h.repeating usage at_ hat
  rw [htarget]
  have hclock : Good { i with native := (Native.now i.native).2 } := h.congr rfl rfl rfl rfl
  have hagain := good_again hclock htarget hheld
  dsimp only at hagain ⊢
  rcases hpost : postAs true (target.event true) { i with native := (Native.now i.native).2 } with ⟨_ | _, i'⟩
  · rw [hpost] at hagain
    exact hagain
  · have hkept : i'.repeating = some (usage, at_) := by
      have hsame := congrArg (fun result => result.2.repeating) hpost
      exact hsame.symm.trans hat
    rw [hpost] at hagain
    refine ⟨hagain.legal, hagain.covers, hagain.named, fun u due hdue => ?_⟩
    obtain ⟨rfl, -⟩ := Prod.mk.inj (Option.some.inj hdue)
    exact hagain.repeating usage at_ hkept

theorem good_apply (batch : List ReceiverEffect) (h : Good i) : Good (apply batch i).2 := by
  obtain ⟨hfirst, -, -⟩ := finishRelease_leaves h
  unfold apply
  rcases hfinish : finishRelease i with ⟨_ | _, i'⟩ <;> rw [hfinish] at hfirst
  · exact hfirst
  · have heffects := (carries_effects batch i').good hfirst
    dsimp only
    rcases hresult : effects batch i' with ⟨_ | _, i''⟩
    · rw [hresult] at heffects
      obtain ⟨new, hrelease⟩ := released heffects
      exact hrelease.good
    · rw [hresult] at heffects
      exact heffects

theorem good_call (call : InjectorCall) (h : Good i) : Good (Injector.call call i).2 := by
  obtain ⟨new, hrelease⟩ := released h
  cases call with
  | configure keyboard reverseScroll => exact hrelease.good.congr rfl rfl rfl rfl
  | ready =>
    obtain ⟨hfirst, -, -⟩ := finishRelease_leaves h
    show Good ((finishRelease >>= fun _ => post ⟨4, 0, 0, 0⟩) i).2
    rw [Act.bind_apply]
    rcases hfinish : finishRelease i with ⟨_ | _, i'⟩ <;> rw [hfinish] at hfirst
    · exact hfirst
    · exact (steady_pointing (by decide : 3 < 4) i').good hfirst
  | apply batch => exact good_apply batch h
  | tick => exact good_tick h
  | release => exact hrelease.good

/-- **An orderly call**: a batch presses nothing after it closed the activation, or Windows takes every event
it comes to. -/
def Orderly (i : Injector W) : InjectorCall → Prop
  | .apply batch => pressesOn batch = false ∨
      ∀ e ∈ (Injector.call (.apply batch) i).2.posted.drop i.posted.length, e.taken = true
  | _ => True

/-- A failed batch only adds ups. -/
theorem apply_posted {i' : Injector W} (batch : List ReceiverEffect) (hgood : Good (effects batch i').2)
    (hfinish : finishRelease i = (.ok (), i')) : ∃ ups, (apply batch i).2.posted =
      (effects batch i').2.posted ++ ups ∧ ∀ e ∈ ups, e.event.presses = false := by
  unfold apply
  rw [hfinish]
  dsimp only
  rcases hresult : effects batch i' with ⟨_ | _, i''⟩
  · rw [hresult] at hgood
    obtain ⟨ups, hrelease⟩ := released hgood
    exact ⟨ups, hrelease.posted, fun e he => (hrelease.ups e he).1⟩
  · exact ⟨[], (List.append_nil _).symm, fun _ he => by cases he⟩

theorem fine_apply {batch : List ReceiverEffect} (h : Good i) (hfine : Fine i.posted)
    (horderly : i.Orderly (.apply batch)) : Fine (apply batch i).2.posted := by
  obtain ⟨hfirst, ⟨new, hposted, hups⟩, hdone⟩ := finishRelease_leaves h
  have horderly' : pressesOn batch = false ∨
      ∀ e ∈ (apply batch i).2.posted.drop i.posted.length, e.taken = true := horderly
  have hstart : Fine (finishRelease i).2.posted := by
    rw [hposted]
    exact hfine.ups hups
  rcases hfinish : finishRelease i with ⟨error | _, i'⟩ <;> rw [hfinish] at hfirst hposted hdone hstart
  · unfold apply
    rw [hfinish]
    exact hstart
  · have hcarries := carries_effects batch i'
    obtain ⟨out, hout, hclear⟩ := hcarries.posted hfirst
    obtain ⟨ups, hlast, hlastUps⟩ := apply_posted batch (hcarries.good hfirst) hfinish
    have hbatch : Fine (effects batch i').2.posted := by
      rcases horderly' with hcalm | htaken
      · exact fine_effects hcalm hfirst (hdone rfl) hstart
      · rw [hlast, hout, show i'.posted = _ from hposted, List.append_assoc, List.append_assoc,
          List.drop_left] at htaken
        have hclear' := hclear (fun e he => htaken e (by simp [he])) (hdone rfl)
        rw [hout]
        exact hstart.append fun e he _ => hclear'.2 e he
    rw [hlast]
    exact hbatch.ups hlastUps

theorem fine_call {call : InjectorCall} (h : Good i) (hfine : Fine i.posted) (horderly : i.Orderly call) :
    Fine (Injector.call call i).2.posted := by
  obtain ⟨new, hrelease⟩ := released h
  have hreleased : Fine i.release.posted := by
    rw [hrelease.posted]
    exact hfine.ups fun e he => (hrelease.ups e he).1
  cases call with
  | configure keyboard reverseScroll => exact hreleased
  | ready =>
    obtain ⟨-, ⟨new, hposted, hups⟩, -⟩ := finishRelease_leaves h
    have hfirst : Fine (finishRelease i).2.posted := by
      rw [hposted]
      exact hfine.ups hups
    show Fine ((finishRelease >>= fun _ => post ⟨4, 0, 0, 0⟩) i).2.posted
    rw [Act.bind_apply]
    rcases hfinish : finishRelease i with ⟨_ | _, i'⟩ <;> rw [hfinish] at hfirst
    · exact hfirst
    · exact hfirst.ups fun e he => by rw [List.mem_singleton.mp he]; rfl
  | apply batch => exact fine_apply h hfine horderly
  | tick =>
    show Fine (tick i).2.posted
    unfold tick
    split
    · exact hreleased
    · rename_i hfree
      split
      · exact hfine
      dsimp only
      split
      · exact hfine
      split
      · exact hfine
      · rw [postAs_eq]
        have hpending : ∀ event taken, ∀ e ∈ [Posting.mk event taken i.releasing true],
            e.event.presses = true → e.pending = false := fun _ _ e he _ => by
          rw [List.mem_singleton.mp he]
          exact Bool.eq_false_iff.mpr hfree
        dsimp only
        rcases Native.post _ _ with ⟨_ | _, native⟩
        · exact hfine.append (hpending _ _)
        · exact hfine.append (hpending _ _)
  | release => exact hreleased

/-- Every call of a run is orderly. -/
def Orderlies (i : Injector W) : List InjectorCall → Prop
  | [] => True
  | call :: rest => i.Orderly call ∧ Orderlies (Injector.call call i).2 rest

omit [Native W] in
theorem good_new (native : W) (delay repeatInterval : Nat) : Good (new native delay repeatInterval) where
  legal := trivial
  covers _ hheld := by cases hheld
  named _ hmem := absurd hmem Std.ExtTreeSet.not_mem_empty
  repeating _ _ hat := by cases hat

/-- **A run of calls** keeps the record true, and presses nothing while a release is pending where its calls
are orderly. -/
theorem ran_good (calls : List InjectorCall) (h : Good i) : Good (i.ran calls) ∧
    (i.Orderlies calls → Fine i.posted → Fine (i.ran calls).posted) := by
  induction calls generalizing i with
  | nil => exact ⟨h, fun _ hfine => hfine⟩
  | cons call rest ih =>
    obtain ⟨hgood, hfine⟩ := ih (good_call call h)
    exact ⟨hgood, fun horderly hstart => hfine horderly.2 (fine_call h hstart horderly.1)⟩

/-- What a pending release does to `ready` and `apply`: they fail unless it completes. -/
theorem finishRelease_pending (hreleasing : i.releasing = true) (hstill : i.release.releasing = true) :
    finishRelease i = (.error releasePending, i.release) := by
  unfold finishRelease
  rw [if_pos hreleasing]
  exact if_pos hstill

end Injector

variable {W : Type} [Native W]

/-- **The Windows injector leaves nothing stuck.** In every run of calls, with any effects and any events
refused: the record covers what Windows holds; a pending release that does not complete fails `ready` and
`apply`, and nothing else is done; the clock repeats only what Windows holds; and a release that Windows
takes whole, or the tick that retries one, leaves nothing down and nothing recorded. And where the calls are
orderly, nothing is pressed while a release is pending. -/
theorem windows_leaves_nothing_stuck (native : W) (delay repeatInterval : Nat) (calls : List InjectorCall) :
    let start := Injector.new native delay repeatInterval
    let i := start.ran calls
    (∀ target, heldIn i.posted target = true → i.Recorded target) ∧
      (start.Orderlies calls → ∀ e ∈ i.posted, e.event.presses = true → e.pending = false) ∧
      (i.releasing = true → i.release.releasing = true → Injector.ready i = (.error releasePending, i.release) ∧
          ∀ batch, Injector.apply batch i = (.error releasePending, i.release)) ∧
      (∀ before e after, i.posted = before ++ e :: after → e.autorepeat = true →
        ∃ target, e.event = target.event true ∧ heldIn before target = true) ∧
      ∀ call, call = .release ∨ call = .tick ∧ i.releasing = true →
        (∀ e ∈ (Injector.call call i).2.posted.drop i.posted.length, e.taken = true) →
        (Injector.call call i).2.keys = ∅ ∧ (Injector.call call i).2.buttons = ∅ ∧
          ∀ target, heldIn (Injector.call call i).2.posted target = false := by
  intro start i
  obtain ⟨hgood, hfine⟩ := Injector.ran_good calls (Injector.good_new native delay repeatInterval)
  refine ⟨hgood.covers, fun horderly => hfine horderly fun _ he => (by cases he), fun hreleasing hstill => ?_,
    (windows.legal_iff_forall_split _ _).mp hgood.legal, fun call hcall htaken => ?_⟩
  · have hfinish := Injector.finishRelease_pending hreleasing hstill
    refine ⟨Act.bind_of_error hfinish, fun batch => ?_⟩
    unfold Injector.apply
    rw [hfinish]
  · have hcalled : (Injector.call call i).2 = i.release := by
      rcases hcall with rfl | ⟨rfl, hreleasing⟩
      · rfl
      · show (Injector.tick i).2 = i.release
        unfold Injector.tick
        rw [if_pos hreleasing]
    obtain ⟨new, hrelease⟩ := Injector.released hgood
    rw [hcalled] at htaken ⊢
    rw [hrelease.posted, List.drop_left] at htaken
    obtain ⟨hkeys, hbuttons, -⟩ := hrelease.clear htaken
    refine ⟨hkeys, hbuttons, fun target => Bool.eq_false_iff.mpr fun hheld => ?_⟩
    rcases hrelease.good.covers target hheld with ⟨usage, husage, -⟩ | ⟨button, hbutton, -⟩
    · rw [hkeys] at husage
      exact Std.ExtTreeSet.not_mem_empty husage
    · rw [hbuttons] at hbutton
      exact Std.ExtTreeSet.not_mem_empty hbutton

/-! ## A batch that goes on -/

/-- A Windows that answers each post as the list says, and takes the rest. Its clock stands still. -/
structure Answers where
  next : List Bool

instance : Native Answers where
  post _ w := (if w.next.headD true then .ok () else .error "Windows blocked remote input", ⟨w.next.tail⟩)
  now w := (0, w)

/-- A goes down, its up is refused as the activation closes, and the next one presses B in the same batch. -/
def goingOn : List InjectorCall :=
  [.apply [.key (.keyboard 4) true false, .activationClosed ⟨1, 1, 1⟩ .superseded, .activationOpened ⟨1, 1, 2⟩,
    .key (.keyboard 5) true false]]

/-- A goes down and up in one batch, and the next one finds an event refused. -/
def oneAtATime : List InjectorCall :=
  [.apply [.key (.keyboard 4) true false, .activationClosed ⟨1, 1, 1⟩ .superseded], .tick,
   .apply [.activationOpened ⟨1, 1, 2⟩, .key (.keyboard 5) true false]]

theorem not_windows_leaves_nothing_stuck :
    ¬ ∀ e ∈ ((Injector.new (Answers.mk [true, false, true]) 1 33000).ran goingOn).posted,
      e.event.presses = true → e.pending = false := by
  decide +kernel

theorem windows_leaves_nothing_stuck_oneAtATime :
    ∀ e ∈ ((Injector.new (Answers.mk [true, false]) 1 33000).ran oneAtATime).posted,
      e.event.presses = true → e.pending = false :=
  (windows_leaves_nothing_stuck (Answers.mk [true, false]) 1 33000 oneAtATime).2.1
    ⟨.inl rfl, trivial, .inl rfl, trivial⟩

end Zflow.Windows
