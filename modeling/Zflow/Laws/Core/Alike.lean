import Zflow.Laws.Core.Hosts

/-!
# Held-back keys on every platform

Three platforms that are sent the same events, where nothing posted fails. While their remaps and the buttons they
know of agree, an event makes each take the same edges, as long as a button that goes up was down and a scroll goes
somewhere, or nothing is held back.
-/

namespace Zflow.Core

open Lib

open Windows (Injector Native)
open Linux (VirtualDevices)
open InputThread (VirtualInput)
open Lens (Player Desk)

/-- What the input thread does with an event while no contact is down. -/
def HostEvent.calls (event : HostEvent) (held : Std.ExtTreeSet PointerButton) : List Deed :=
  match event with
  | .key usage pressed => [.ask (.key usage pressed)]
  | .button which true => [.ask (.pointer true), .button which true]
  | .button which false => [.ask (.pointerReleased (held.toList.any (· ≠ which))), .button which false]
  | .scroll dx dy => if dx ≠ 0 ∨ dy ≠ 0 then [.ask (.pointer !held.isEmpty), .scroll dx dy] else []

theorem deeds_of_contacts {d : VirtualDevices} (h : d.contacts = []) (event : HostEvent) :
    d.deeds event = event.calls d.pointer.held := by
  have htouching : VirtualInput.touching d = false := by
    show (!d.contacts.isEmpty) = false
    rw [h]
    rfl
  cases event with
  | key usage pressed => rfl
  | button which pressed =>
    have huse : InputThread.pointerUse d (HostEvent.button which pressed).effect =
        some (pressed, pressed || d.pointer.held.toList.any (· ≠ which)) := by
      show some (pressed, pressed || _ || VirtualInput.touching d) = _
      rw [htouching, Bool.or_false]
      rfl
    rw [VirtualDevices.deeds, huse]
    cases pressed <;> rfl
  | scroll dx dy =>
    have huse : InputThread.pointerUse d (HostEvent.scroll dx dy).effect =
        if dx ≠ 0 ∨ dy ≠ 0 then some (true, !d.pointer.held.isEmpty) else none := by
      show (if _ then some (true, !d.pointer.held.toList.isEmpty || VirtualInput.touching d) else none) = _
      rw [htouching, Bool.or_false, Std.ExtTreeSet.isEmpty_toList]
    rw [VirtualDevices.deeds, huse]
    unfold HostEvent.calls VirtualDevices.applies
    dsimp only
    split <;> rfl

/-! ## What the platforms know -/

/-- The bits of the lens host's buttons after one moved that has a code. -/
theorem getLsbD_moved (buttons : BitVec 32) {which : PointerButton} (hwhich : which < 32) (pressed : Bool) (b : Nat) :
    (Player.moved buttons which pressed).getLsbD b = if which = b then pressed else buttons.getLsbD b := by
  have hmin : min which 31 = which := Nat.min_eq_left (Nat.le_of_lt_succ hwhich)
  have hbit : (1#32 <<< which).getLsbD b = decide (which = b) := by
    rw [← BitVec.twoPow_eq, BitVec.getLsbD_twoPow, decide_eq_true hwhich, Bool.true_and]
  unfold Player.moved
  rw [hmin]
  cases pressed with
  | true =>
    show (buttons ||| 1#32 <<< which).getLsbD b = _
    rw [BitVec.getLsbD_or, hbit]
    split <;> simp_all
  | false =>
    show (buttons &&& ~~~(1#32 <<< which)).getLsbD b = _
    rw [BitVec.getLsbD_and, BitVec.getLsbD_not, hbit]
    split
    · simp_all
    · by_cases hb : b < 32
      · simp_all
      · simp_all [BitVec.getLsbD_of_ge]

theorem code_lt {which : PointerButton} {code : Nat} (h : Linux.pointerButtonToEvdev which = .ok code) : which < 32 := by
  unfold Linux.pointerButtonToEvdev at h
  split at h <;> first | decide | cases h

theorem bits_ne_zero (buttons : BitVec 32) : (buttons != 0) = true ↔ ∃ b, buttons.getLsbD b = true := by
  rw [bne_iff_ne]
  constructor
  · intro hne
    by_contra! hnone
    exact hne (BitVec.eq_of_getLsbD_eq fun b _ => by simpa using hnone b)
  · rintro ⟨b, hb⟩ rfl
    simp at hb

theorem not_isEmpty_iff (held : Std.ExtTreeSet PointerButton) : (!held.isEmpty) = true ↔ ∃ b, b ∈ held := by
  rw [Bool.not_eq_true', Std.ExtTreeSet.isEmpty_eq_false_iff]
  constructor
  · intro hne
    by_contra! hnone
    exact hne (Std.ExtTreeSet.ext_mem fun b => by simpa using hnone b)
  · rintro ⟨b, hb⟩ rfl
    simp at hb

theorem any_ne_iff (held : Std.ExtTreeSet PointerButton) (which : PointerButton) :
    held.toList.any (· ≠ which) = true ↔ ∃ b, b ∈ held ∧ b ≠ which := by
  simp

/-- What a remap knows of the buttons that are down. -/
structure Settled (r : KeyRemap) (down : PointerButton → Prop) : Prop where
  busy : r.pointerBusy = true ↔ ∃ b, down b
  free : (∃ b, down b) → r.deferred = ∅

/-- **What the platforms agree on.** -/
structure Alike {W D : Type} (terminal : Bool) (i : Injector W) (d : VirtualDevices) (p : Player D) : Prop
    extends Settled d.keyboard.remap (· ∈ d.pointer.held) where
  sound : KeyRemap.Sound d.keyboard.remap
  windows : i.remap = d.keyboard.remap
  lens : p.remap.setTerminal terminal = d.keyboard.remap
  terminal : p.terminal = terminal
  contacts : d.contacts = []
  buttons : ∀ b, b ∈ i.buttons ↔ b ∈ d.pointer.held
  bits : ∀ b, p.buttons.getLsbD b = true ↔ b ∈ d.pointer.held

/-- A button that goes up was down and a scroll goes somewhere, or no key is held back. -/
def Calm (d : VirtualDevices) : HostEvent → Prop
  | .button which false => which ∈ d.pointer.held ∨ d.keyboard.remap.deferred = ∅
  | .scroll dx dy => (dx ≠ 0 ∨ dy ≠ 0) ∨ d.keyboard.remap.deferred = ∅
  | _ => True

section Play

variable {r : KeyRemap}

theorem play_key (usage : HidUsage) (pressed : Bool) : r.play [.ask (.key usage pressed)] =
    ((r.key usage pressed).1.map .edge, (r.key usage pressed).2) := by
  show (_ ++ [], _) = _
  rw [List.append_nil]
  rfl

theorem play_press (which : PointerButton) : r.play [.ask (.pointer true), .button which true] =
    ((r.pointer true).1.map .edge ++ [.button which true], (r.pointer true).2) := rfl

theorem play_scroll (dx dy : Int) (busy : Bool) : r.play [.ask (.pointer busy), .scroll dx dy] =
    ((r.pointer busy).1.map .edge ++ [.scroll dx dy], (r.pointer busy).2) := rfl

end Play

namespace Alike

variable {W D : Type} {terminal : Bool} {i : Injector W} {d : VirtualDevices} {p : Player D} {event : HostEvent}

theorem windows_isEmpty (h : Alike terminal i d p) : (!i.buttons.isEmpty) = !d.pointer.held.isEmpty := by
  rw [Bool.eq_iff_iff, not_isEmpty_iff, not_isEmpty_iff]
  exact exists_congr h.buttons

theorem lens_isEmpty (h : Alike terminal i d p) : (p.buttons != 0) = !d.pointer.held.isEmpty := by
  rw [Bool.eq_iff_iff, bits_ne_zero, not_isEmpty_iff]
  exact exists_congr h.bits

/-- A calm release of a button finds nothing held back. -/
theorem deferred_of_calm (h : Alike terminal i d p) {which : PointerButton} (hcalm : Calm d (.button which false)) :
    d.keyboard.remap.deferred = ∅ := by
  rcases hcalm with hheld | hfree
  · exact h.free ⟨which, hheld⟩
  · exact hfree

theorem windows_held (h : Alike terminal i d p) (which : PointerButton) (pressed : Bool) (b : PointerButton) :
    b ∈ Injector.moved i.buttons which pressed ↔ if which = b then pressed = true else b ∈ d.pointer.held := by
  rw [← h.buttons b]
  cases pressed with
  | true =>
    show b ∈ i.buttons.insert which ↔ _
    rw [Std.ExtTreeSet.mem_insert, Std.compare_eq_iff_eq]
    split <;> simp_all
  | false =>
    show b ∈ i.buttons.erase which ↔ _
    rw [Std.ExtTreeSet.mem_erase, ne_eq, Std.compare_eq_iff_eq]
    split <;> simp_all

theorem windows_moved (h : Alike terminal i d p) (which : PointerButton) :
    (!(Injector.moved i.buttons which false).isEmpty) = d.pointer.held.toList.any (· ≠ which) := by
  rw [Bool.eq_iff_iff, not_isEmpty_iff, any_ne_iff]
  refine exists_congr fun b => ?_
  rw [h.windows_held]
  split <;> simp_all [eq_comm]

/-- Windows takes what the input thread takes. -/
theorem play_windows (h : Alike terminal i d p) (hcalm : Calm d event) :
    i.remap.play (i.deeds event) = d.keyboard.remap.play (event.calls d.pointer.held) := by
  rw [h.windows]
  cases event with
  | key usage pressed => rfl
  | button which pressed =>
    cases pressed with
    | true =>
      have hheld : (!(Injector.moved i.buttons which true).isEmpty) = true := by
        rw [not_isEmpty_iff]
        exact ⟨which, Std.ExtTreeSet.mem_insert_self⟩
      show d.keyboard.remap.play [.ask (.pointer true), .button which true,
        .ask (.pointerReleased !(Injector.moved i.buttons which true).isEmpty)] = _
      rw [hheld]
      rfl
    | false =>
      have hpointer := KeyRemap.pointer_of_deferred (h.deferred_of_calm hcalm)
      show d.keyboard.remap.play [.ask (.pointer !i.buttons.isEmpty), .button which false,
        .ask (.pointerReleased !(Injector.moved i.buttons which false).isEmpty)] = d.keyboard.remap.play
          [.ask (.pointerReleased (d.pointer.held.toList.any (· ≠ which))), .button which false]
      rw [h.windows_moved]
      simp only [KeyRemap.play, Replay.collect, Deed.play, KeyRemap.call, hpointer]
      rfl
  | scroll dx dy =>
    show d.keyboard.remap.play (if _ then [.ask (.pointer !i.buttons.isEmpty), _] else _) = _
    rw [h.windows_isEmpty]
    rfl

theorem lens_moved (h : Alike terminal i d p) {which : PointerButton} (hwhich : which < 32) (pressed : Bool) :
    (Player.moved p.buttons which pressed != 0) = (pressed || d.pointer.held.toList.any (· ≠ which)) := by
  rw [Bool.eq_iff_iff, bits_ne_zero, Bool.or_eq_true, any_ne_iff]
  simp only [getLsbD_moved _ hwhich]
  constructor
  · rintro ⟨b, hb⟩
    split at hb
    · exact .inl hb
    · exact .inr ⟨b, (h.bits b).mp hb, Ne.symm ‹_›⟩
  · rintro (hpressed | ⟨b, hb, hne⟩)
    · exact ⟨which, by rw [if_pos rfl, hpressed]⟩
    · exact ⟨b, by rw [if_neg hne.symm]; exact (h.bits b).mpr hb⟩

/-- A button's deeds on the lens host. -/
theorem lens_deeds [Desk D] (h : Alike terminal i d p) {which : PointerButton} (pressed : Bool)
    (hcode : ∃ code, Linux.pointerButtonToEvdev which = .ok code) :
    p.deeds (.button which pressed) = (HostEvent.button which pressed).calls d.pointer.held := by
  obtain ⟨code, hcode⟩ := hcode
  have hmoved := h.lens_moved (code_lt hcode) pressed
  unfold Player.deeds
  simp only [hcode]
  rw [hmoved]
  cases pressed <;> rfl

/-- The lens host takes what the input thread takes, and its remap differs by the terminal flag at most. -/
theorem play_lens [Desk D] (h : Alike terminal i d p) (hcalm : Calm d event)
    (hcode : ∀ which pressed, event = .button which pressed → ∃ code, Linux.pointerButtonToEvdev which = .ok code) :
    (p.remap.play (p.deeds event)).1 = (d.keyboard.remap.play (event.calls d.pointer.held)).1 ∧
      (p.remap.play (p.deeds event)).2.setTerminal terminal =
        (d.keyboard.remap.play (event.calls d.pointer.held)).2 := by
  cases event with
  | key usage pressed =>
    have hcalls : (HostEvent.key usage pressed).calls d.pointer.held = [.ask (.key usage pressed)] := rfl
    rw [hcalls, ← h.lens]
    cases pressed with
    | true =>
      have hplay : p.remap.play (p.deeds (.key usage true)) =
          (p.remap.setTerminal p.terminal).play [.ask (.key usage true)] := rfl
      rw [hplay, h.terminal, play_key]
      exact ⟨rfl, KeyRemap.setTerminal_of_eq (KeyRemap.key_flags _ usage true).2⟩
    | false =>
      show (p.remap.play [.ask (.key usage false)]).1 = _ ∧ (p.remap.play [.ask (.key usage false)]).2.setTerminal _ = _
      rw [play_key, play_key, KeyRemap.release_setTerminal]
      exact ⟨rfl, rfl⟩
  | button which pressed =>
    rw [h.lens_deeds pressed (hcode which pressed rfl), ← h.lens]
    cases pressed with
    | true =>
      show (p.remap.play [_, _]).1 = ((p.remap.setTerminal terminal).play [_, _]).1 ∧ _ =
        ((p.remap.setTerminal terminal).play [_, _]).2
      rw [play_press, play_press, KeyRemap.pointer_setTerminal]
      exact ⟨rfl, rfl⟩
    | false => exact ⟨rfl, rfl⟩
  | scroll dx dy =>
    have hturned : (p.remap.setTerminal terminal).pointer (!d.pointer.held.isEmpty) = _ :=
      KeyRemap.pointer_setTerminal p.remap terminal _
    by_cases hturn : dx ≠ 0 ∨ dy ≠ 0
    · have hdeeds : p.deeds (.scroll dx dy) = [.ask (.pointer !d.pointer.held.isEmpty), .scroll dx dy] := by
        unfold Player.deeds
        simp only [if_pos hturn, h.lens_isEmpty]
      have hcalls : (HostEvent.scroll dx dy).calls d.pointer.held =
          [.ask (.pointer !d.pointer.held.isEmpty), .scroll dx dy] := if_pos hturn
      rw [hdeeds, hcalls, ← h.lens, play_scroll, play_scroll, hturned]
      exact ⟨rfl, rfl⟩
    · -- Nothing is held back, and the remap knew the buttons already.
      have hfree : p.remap.deferred = ∅ := by
        have := hcalm.resolve_left hturn
        rw [← h.lens] at this
        exact this
      have hdeeds : p.deeds (.scroll dx dy) = [.ask (.pointer !d.pointer.held.isEmpty)] := by
        unfold Player.deeds
        simp only [if_neg hturn, h.lens_isEmpty]
      have hcalls : (HostEvent.scroll dx dy).calls d.pointer.held = [] := if_neg hturn
      have hknown : p.remap.pointerReleased (!d.pointer.held.isEmpty) = p.remap := by
        have hbusy : p.remap.pointerBusy = !d.pointer.held.isEmpty := by
          rw [Bool.eq_iff_iff, not_isEmpty_iff, ← h.busy, ← h.lens]
          rfl
        rw [← hbusy]
        rfl
      have hplay : p.remap.play [.ask (.pointer !d.pointer.held.isEmpty)] = ([], p.remap) := by
        simp only [KeyRemap.play, Replay.collect, Deed.play, KeyRemap.call, KeyRemap.pointer_of_deferred hfree, hknown]
        rfl
      rw [hdeeds, hcalls, hplay, ← h.lens]
      exact ⟨rfl, rfl⟩

/-- What the remap knows after an event. -/
theorem settled (h : Alike terminal i d p) (hcalm : Calm d event) :
    Settled (d.keyboard.remap.play (event.calls d.pointer.held)).2
      fun b => VirtualDevices.buttonAfter b (b ∈ d.pointer.held) event.effect := by
  cases event with
  | key usage pressed =>
    show Settled (d.keyboard.remap.play [.ask (.key usage pressed)]).2 (· ∈ d.pointer.held)
    rw [play_key]
    refine ⟨by rw [(KeyRemap.key_flags _ usage pressed).1, h.busy], fun hdown => ?_⟩
    exact (KeyRemap.frees_key (h.busy.mpr hdown) usage pressed).deferred (h.free hdown)
  | button which pressed =>
    cases pressed with
    | true =>
      show Settled (d.keyboard.remap.pointer true).2 fun b => if which = b then true = true else b ∈ d.pointer.held
      have hpressed := KeyRemap.deferred_pointer d.keyboard.remap true
      exact ⟨iff_of_true hpressed.2 ⟨which, by rw [if_pos rfl]⟩, fun _ => hpressed.1⟩
    | false =>
      show Settled (d.keyboard.remap.pointerReleased (d.pointer.held.toList.any (· ≠ which)))
        fun b => if which = b then false = true else b ∈ d.pointer.held
      refine ⟨?_, fun _ => h.deferred_of_calm hcalm⟩
      rw [show (d.keyboard.remap.pointerReleased _).pointerBusy = d.pointer.held.toList.any (· ≠ which) from rfl,
        any_ne_iff]
      refine exists_congr fun b => ?_
      by_cases hb : which = b <;> simp [hb, eq_comm]
  | scroll dx dy =>
    show Settled (d.keyboard.remap.play (if dx ≠ 0 ∨ dy ≠ 0 then _ else _)).2 (· ∈ d.pointer.held)
    split
    · have hturned := KeyRemap.deferred_pointer d.keyboard.remap (!d.pointer.held.isEmpty)
      rw [play_scroll]
      exact ⟨by rw [hturned.2, not_isEmpty_iff], fun _ => hturned.1⟩
    · exact h.toSettled

/-! ## An event -/

/-- **What an event leaves alike**, where every platform posts it. -/
theorem handle [Native W] [Desk D] {mode : KeyboardMode} (h : Alike terminal i d p) (hcalm : Calm d event)
    (hwindows : (Injector.host.handle event i).1 = .ok ())
    (hlinux : ((VirtualDevices.host mode).handle event d).1 = .ok ())
    (hlens : (Player.host.handle event p).1 = .ok ()) :
    Alike terminal (Injector.host.handle event i).2 ((VirtualDevices.host mode).handle event d).2
      (Player.host.handle event p).2 := by
  have hcode := VirtualDevices.code_of_handle hlinux
  have happlied := VirtualDevices.applied h.sound (Prod.ext hlinux rfl :
    InputThread.applyReceiverEffect event.effect none mode d = (.ok (), _))
  have hremap := (VirtualDevices.host mode).remap_handle hlinux
  have htook : ((VirtualDevices.host mode).handle event d).2.keyboard.remap =
      (d.keyboard.remap.play (event.calls d.pointer.held)).2 := by
    rw [← deeds_of_contacts h.contacts]
    exact hremap
  have hdown : ∀ b, b ∈ ((VirtualDevices.host mode).handle event d).2.pointer.held ↔
      VirtualDevices.buttonAfter b (b ∈ d.pointer.held) event.effect := happlied.buttons
  refine { sound := happlied.sound, windows := ?_, lens := ?_, terminal := ?_, contacts := ?_, buttons := ?_,
           bits := ?_, toSettled := ?_ }
  · rw [htook, show (· ∈ _) = _ from funext fun b => propext (hdown b)]
    exact h.settled hcalm
  · rw [htook, ← h.play_windows hcalm]
    exact Injector.host.remap_handle hwindows
  · rw [htook, ← (h.play_lens hcalm hcode).2]
    exact congrArg (·.setTerminal terminal) (Player.host.remap_handle hlens)
  · exact (Player.terminal_play event p).trans h.terminal
  · refine happlied.contacts.trans ?_
    rw [h.contacts]
    cases event <;> rfl
  · intro b
    rw [hdown, Injector.buttons_handle hwindows]
    cases event with
    | button which pressed => exact windows_held h which pressed b
    | key usage pressed => exact h.buttons b
    | scroll dx dy => exact h.buttons b
  · intro b
    rw [hdown, show (Player.host.handle event p).2.buttons = _ from Player.buttons_play p hcode]
    cases event with
    | button which pressed =>
      obtain ⟨code, hcode⟩ := hcode which pressed rfl
      show (Player.moved p.buttons which pressed).getLsbD b = true ↔ if which = b then pressed = true else _
      rw [getLsbD_moved _ (code_lt hcode)]
      split
      · rfl
      · exact h.bits b
    | key usage pressed => exact h.bits b
    | scroll dx dy => exact h.bits b

end Alike

/-! ## A run -/

section Run

variable {W D : Type} {mode : KeyboardMode} {terminal : Bool}

/-- Nothing is down and no key was sent. -/
theorem alike_new (mode : KeyboardMode) (terminal : Bool) {i : Injector W} {d : VirtualDevices} (desk : D)
    (hi : i.remap = (KeyRemap.new mode).setTerminal terminal ∧ i.buttons = ∅)
    (hd : d.keyboard.remap = (KeyRemap.new mode).setTerminal terminal ∧ d.pointer.held = ∅ ∧ d.contacts = []) :
    Alike terminal i d (Player.new desk mode terminal) := by
  obtain ⟨hremap, hbuttons⟩ := hi
  obtain ⟨hdevices, hheld, hcontacts⟩ := hd
  have hnone : ∀ b, ¬ b ∈ d.pointer.held := fun b hb => by
    rw [hheld] at hb
    exact Std.ExtTreeSet.not_mem_empty hb
  refine { busy := ?_, free := fun ⟨b, hb⟩ => absurd hb (hnone b), sound := ?_, windows := ?_, lens := hdevices.symm,
           terminal := rfl, contacts := hcontacts, buttons := ?_, bits := ?_ }
  · rw [hdevices]
    exact iff_of_false Bool.false_ne_true fun ⟨b, hb⟩ => hnone b hb
  · rw [hdevices]
    exact (KeyRemap.Sound.new mode).call (.setTerminal terminal)
  · rw [hremap, hdevices]
  · rw [hbuttons, hheld]
    exact fun b => Iff.rfl
  · exact fun b => iff_of_false (by simp [Player.new]) (hnone b)

variable [Native W] [Desk D]

omit [Native W] [Desk D] in
/-- What the input thread takes for an event, and what it posts. -/
theorem Alike.played_linux {i : Injector W} {d : VirtualDevices} {p : Player D} {event : HostEvent}
    (h : Alike terminal i d p) : (d.keyboard.remap.play (d.deeds event)).1 =
      (d.keyboard.remap.play (event.calls d.pointer.held)).1 := by
  rw [deeds_of_contacts h.contacts]

/-- **A calm run is played alike**, from wherever the platforms agree. -/
theorem played_alike {events : List HostEvent} {i : Injector W} {d : VirtualDevices} {p : Player D}
    (h : Alike terminal i d p) (hwindows : Injector.host.Posts i events)
    (hlinux : (VirtualDevices.host mode).Posts d events) (hlens : Player.host.Posts p events)
    (hcalm : ∀ before event rest, events = before ++ event :: rest →
      Calm ((VirtualDevices.host mode).after d before) event) :
    Injector.host.played i events = (VirtualDevices.host mode).played d events ∧
      Player.host.played p events = (VirtualDevices.host mode).played d events ∧
      List.Forall₂ (fun event played => ∀ which, event = .button which false → played = [.button which false]) events
        ((VirtualDevices.host mode).played d events) := by
  induction events generalizing i d p with
  | nil => exact ⟨rfl, rfl, .nil⟩
  | cons event rest ih =>
    have hfirst : Calm d event := hcalm [] event rest rfl
    have hnext := h.handle hfirst hwindows.1 hlinux.1 hlens.1
    have hrest := ih hnext hwindows.2 hlinux.2 hlens.2 fun before event' rest' hsplit =>
      hcalm (event :: before) event' rest' (by rw [hsplit]; rfl)
    have htook : (d.keyboard.remap.play (d.deeds event)).1 = _ := h.played_linux
    refine ⟨?_, ?_, ?_⟩
    · exact congrArg₂ List.cons (.trans (congrArg Prod.fst (h.play_windows hfirst)) htook.symm) hrest.1
    · exact congrArg₂ List.cons
        ((h.play_lens hfirst (VirtualDevices.code_of_handle hlinux.1)).1.trans htook.symm) hrest.2.1
    · refine .cons (fun which hrelease => ?_) hrest.2.2
      subst hrelease
      exact htook

/-- **Every platform treats held-back Option keys alike** in a calm run, and a release of a button presses no key. -/
theorem held_back_alike (mode : KeyboardMode) (terminal : Bool) (events : List HostEvent) (i : Injector W)
    (d : VirtualDevices) (desk : D) (hi : i.remap = (KeyRemap.new mode).setTerminal terminal ∧ i.buttons = ∅)
    (hd : d.keyboard.remap = (KeyRemap.new mode).setTerminal terminal ∧ d.pointer.held = ∅ ∧ d.contacts = [])
    (hwindows : Injector.host.Posts i events) (hlinux : (VirtualDevices.host mode).Posts d events)
    (hlens : Player.host.Posts (Player.new desk mode terminal) events)
    (hcalm : ∀ before event rest, events = before ++ event :: rest →
      Calm ((VirtualDevices.host mode).after d before) event) :
    Injector.host.played i events = (VirtualDevices.host mode).played d events ∧
      Player.host.played (Player.new desk mode terminal) events = (VirtualDevices.host mode).played d events ∧
      List.Forall₂ (fun event played => ∀ which, event = .button which false → played = [.button which false]) events
        ((VirtualDevices.host mode).played d events) :=
  played_alike (alike_new mode terminal desk hi hd) hwindows hlinux hlens hcalm

end Run

/-! ## A scroll of no distance -/

/-- A desktop that takes everything. -/
instance : Desk Unit where
  key _ _ := pure ()
  button _ _ := pure ()
  axis _ _ := pure ()

/-- The platforms before anything was sent. -/
def freshInjector (mode : KeyboardMode) : Injector Windows.Answers :=
  { Injector.new (Windows.Answers.mk []) 1 33000 with remap := .new mode }

def freshDevices (mode : KeyboardMode) : VirtualDevices := ⟨⟨.new mode, ∅⟩, ⟨∅⟩, none⟩

/-- Option is held back, and a viewer turns the wheel by nothing. -/
def stillScroll : List HostEvent := [.key Keymap.lalt true, .scroll 0 0]

/-- Option, and a click. -/
def optionClick : List HostEvent := [.key Keymap.lalt true, .button 1 true, .button 1 false, .key Keymap.lalt false]

/-- The lens host tells its remap of a scroll before it looks how far it goes, so Option goes down there and stays
held back on the others. -/
theorem not_held_back_alike :
    ¬ ∀ (mode : KeyboardMode) (terminal : Bool) (events : List HostEvent) (i : Injector Windows.Answers)
      (d : VirtualDevices) (desk : Unit), i.remap = (KeyRemap.new mode).setTerminal terminal ∧ i.buttons = ∅ →
      d.keyboard.remap = (KeyRemap.new mode).setTerminal terminal ∧ d.pointer.held = ∅ ∧ d.contacts = [] →
      Injector.host.Posts i events → (VirtualDevices.host mode).Posts d events →
      Player.host.Posts (Player.new desk mode terminal) events →
      Player.host.played (Player.new desk mode terminal) events = (VirtualDevices.host mode).played d events := by
  intro h
  have halike := h .mac false stillScroll (freshInjector .mac) (freshDevices .mac) () ⟨rfl, rfl⟩ ⟨rfl, rfl, rfl⟩
    ⟨by decide +kernel, by decide +kernel, trivial⟩ ⟨by decide +kernel, by decide +kernel, trivial⟩
    ⟨by decide +kernel, by decide +kernel, trivial⟩
  exact absurd halike (by decide +kernel)

theorem held_back_alike_optionClick : Injector.host.played (freshInjector .mac) optionClick =
        (VirtualDevices.host .mac).played (freshDevices .mac) optionClick ∧
      Player.host.played (Player.new () .mac false) optionClick =
        (VirtualDevices.host .mac).played (freshDevices .mac) optionClick ∧
      List.Forall₂ (fun event played => ∀ which, event = .button which false → played = [.button which false])
        optionClick ((VirtualDevices.host .mac).played (freshDevices .mac) optionClick) :=
  held_back_alike .mac false optionClick (freshInjector .mac) (freshDevices .mac) () ⟨rfl, rfl⟩ ⟨rfl, rfl, rfl⟩
    ⟨by decide +kernel, by decide +kernel, by decide +kernel, by decide +kernel, trivial⟩
    ⟨by decide +kernel, by decide +kernel, by decide +kernel, by decide +kernel, trivial⟩
    ⟨by decide +kernel, by decide +kernel, by decide +kernel, by decide +kernel, trivial⟩
    ((Replay.mk (fun d event => ((VirtualDevices.host .mac).handle event d).2) Calm).legal_iff_forall_split
      (freshDevices .mac) optionClick |>.mp ⟨trivial, trivial, .inl (by decide +kernel), trivial, trivial⟩)

end Zflow.Core
