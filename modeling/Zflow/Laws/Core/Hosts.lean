import Zflow.Laws.Core.HeldBack
import Zflow.Laws.Linux.Uinput
import Zflow.Laws.Windows.Input
import Zflow.Lens.Play

/-!
# Every platform treats held-back keys alike

The Windows injector, the input thread's devices and the lens host, each as the deeds it does with an event. They
take the same edges out of the remap, with one exception: where the input thread and the lens host tell the remap
that a button went up, Windows presses what is held back first. So the platforms agree until a button goes up that
is not down, as one does whose press was dropped, while an Option key is held back.
-/

namespace Zflow.Core

open Lib

theorem doAll_singleton {ε S : Type} (does : Deed → Act ε S Unit) (deed : Deed) : doAll does [deed] = does deed := by
  funext s
  rw [doAll, Act.bind_apply]
  rcases does deed s with ⟨_ | ⟨⟩, after⟩ <;> rfl

namespace Host

variable {ε S : Type} (host : Host ε S) {s : S} {event : HostEvent}

/-- What is posted leaves the remap as its calls do. -/
theorem remap_doAll {deeds : List Deed} (h : (doAll host.does deeds s).1 = .ok ()) :
    host.remap (doAll host.does deeds s).2 = ((host.remap s).play deeds).2 := by
  induction deeds generalizing s with
  | nil => rfl
  | cons deed rest ih =>
    have hdeed := host.remap_does s deed
    cases hdoes : host.does deed s with
    | mk result after =>
      rw [hdoes] at hdeed
      cases result with
      | error error =>
        rw [doAll, Act.bind_of_error hdoes] at h
        cases h
      | ok answer =>
        rw [doAll, Act.bind_of_ok hdoes] at h ⊢
        rw [ih h, hdeed rfl]
        rfl

theorem remap_handle (h : (host.handle event s).1 = .ok ()) :
    host.remap (host.handle event s).2 = ((host.remap s).play (host.deeds s event)).2 := by
  have heq := host.handle_eq s event h
  rw [heq] at h ⊢
  exact host.remap_doAll h

end Host

end Zflow.Core

/-! ## Windows -/

namespace Zflow.Windows.Injector

open Zflow.Core Lib

variable {W : Type} [Native W]

/-- What a post leaves alone. -/
structure Aside (i i' : Injector W) : Prop where
  remap : i'.remap = i.remap
  buttons : i'.buttons = i.buttons

instance : IsPreorder (Injector W) Aside where
  refl _ := ⟨rfl, rfl⟩
  trans _ _ _ h h' := ⟨h'.remap.trans h.remap, h'.buttons.trans h.buttons⟩

theorem aside_post (event : NativeEvent) : Act.Within Aside (post event : Act String (Injector W) Unit) := by
  intro i
  rw [post, postAs_eq]
  exact ⟨rfl, rfl⟩

theorem aside_key (usage : HidUsage) (pressed : Bool) :
    Act.Within Aside (key usage pressed : Act String (Injector W) Unit) := by
  intro i
  unfold key
  cases Windows.posted usage with
  | none => exact ⟨rfl, rfl⟩
  | some target =>
    cases hpost : post (target.event pressed) i with
    | mk result after =>
      have haside := (aside_post (target.event pressed)).of_eq hpost
      dsimp only
      rw [hpost]
      cases result with
      | error error => exact haside
      | ok answer =>
        dsimp only
        split
        · exact ⟨haside.remap, haside.buttons⟩
        · exact ⟨haside.remap, haside.buttons⟩

theorem aside_edges (out : List Edge) : Act.Within Aside (edges out : Act String (Injector W) Unit) := by
  induction out with
  | nil => exact Act.Within.pure ()
  | cons edge rest ih => exact Act.Within.bind (aside_key edge.1 edge.2) fun _ => ih

theorem aside_wheel (amount axis : Int) : Act.Within Aside (wheel amount axis : Act String (Injector W) Unit) := by
  intro i
  unfold wheel
  split
  · exact ⟨rfl, rfl⟩
  · exact aside_post _ i

/-- The buttons that are down after one moved. -/
def moved (buttons : Std.ExtTreeSet PointerButton) (which : PointerButton) (pressed : Bool) :
    Std.ExtTreeSet PointerButton :=
  if pressed then buttons.insert which else buttons.erase which

def deeds (i : Injector W) : HostEvent → List Deed
  | .key usage pressed => [.ask (.key usage pressed)]
  | .button which pressed =>
    [.ask (.pointer (pressed || !i.buttons.isEmpty)), .button which pressed,
      .ask (.pointerReleased !(moved i.buttons which pressed).isEmpty)]
  | .scroll dx dy => if dx ≠ 0 ∨ dy ≠ 0 then [.ask (.pointer !i.buttons.isEmpty), .scroll dx dy] else []

def does : Deed → Act String (Injector W) Unit
  | .ask call => fun i => edges (i.remap.call call).1 { i with remap := (i.remap.call call).2 }
  | .button which pressed => do
    post ((buttonTarget which).event pressed)
    .change fun i => { i with buttons := moved i.buttons which pressed }
  | .scroll dx dy => do
    wheel dy 0
    wheel dx 1

theorem remap_does (i : Injector W) (deed : Deed) : (does deed i).2.remap = (deed.play i.remap).2 := by
  cases deed with
  | ask call => exact (aside_edges _ _).remap
  | button which pressed =>
    rw [does, Act.bind_apply]
    cases hpost : post ((buttonTarget which).event pressed) i with
    | mk result after =>
      have haside := (aside_post _).of_eq hpost
      cases result with
      | error error => exact haside.remap
      | ok answer => exact haside.remap
  | scroll dx dy => exact (Act.Within.bind (aside_wheel dy 0) (fun _ => aside_wheel dx 1) i).remap

/-- A button's edge, with the press that is held back before it. -/
theorem button_eq (which : PointerButton) (pressed : Bool) (i : Injector W) :
    button which pressed i = doAll does (i.deeds (.button which pressed)) i := by
  show (pointer pressed >>= _) i = (pointer pressed >>= _) i
  refine Act.bind_congr fun _ after hpointer => ?_
  have hpointed : after.buttons = i.buttons := ((aside_edges _).of_eq hpointer).buttons
  show _ = ((post _ >>= fun _ => .change _) >>= _) after
  rw [Act.bind_assoc]
  refine Act.bind_congr fun _ posted hpost => ?_
  have hbuttons : posted.buttons = i.buttons := ((aside_post _).of_eq hpost).buttons.trans hpointed
  rw [← hbuttons]
  rfl

theorem handle_eq (i : Injector W) (event : HostEvent) : effect event.effect i = doAll does (i.deeds event) i := by
  cases event with
  | key usage pressed =>
    rw [deeds, doAll_singleton]
    rfl
  | button which pressed => exact button_eq which pressed i
  | scroll dx dy =>
    show motion ⟨0, 0, dx, dy⟩ i = doAll does (if dx ≠ 0 ∨ dy ≠ 0 then _ else _) i
    unfold motion
    by_cases hturn : dx ≠ 0 ∨ dy ≠ 0
    · rw [if_pos hturn, if_pos hturn]
      refine Act.bind_congr fun _ after _ => ?_
      rw [doAll_singleton]
      rfl
    · rw [if_neg hturn, if_neg hturn]
      obtain ⟨rfl, rfl⟩ : dx = 0 ∧ dy = 0 := by omega
      rfl

/-- The Windows injector, with no release pending. -/
def host : Host String (Injector W) where
  remap := remap
  handle event := effect event.effect
  deeds := deeds
  does := does
  handle_eq i event _ := handle_eq i event
  remap_does i deed _ := remap_does i deed

/-- The buttons after an event that was posted. -/
theorem buttons_handle {i : Injector W} {event : HostEvent} (h : (host.handle event i).1 = .ok ()) :
    (host.handle event i).2.buttons = match event with
      | .button which pressed => moved i.buttons which pressed
      | _ => i.buttons := by
  cases event with
  | key usage pressed => exact (aside_edges _ _).buttons
  | button which pressed =>
    obtain ⟨_, after, hpointer, hrest⟩ := Act.bind_eq_ok.mp (Prod.ext h rfl : button which pressed i = (.ok (), _))
    obtain ⟨_, posted, hpost, hchange⟩ := Act.bind_eq_ok.mp hrest
    have hbuttons := ((aside_post _).of_eq hpost).buttons.trans ((aside_edges _).of_eq hpointer).buttons
    have hleft : (button which pressed i).2 = _ := (congrArg Prod.snd hchange).symm
    show (button which pressed i).2.buttons = _
    rw [hleft, ← hbuttons]
    rfl
  | scroll dx dy =>
    obtain ⟨_, after, hpointer, hrest⟩ :=
      Act.bind_eq_ok.mp (Prod.ext h rfl : motion ⟨0, 0, dx, dy⟩ i = (.ok (), _))
    have hpointed : after.buttons = i.buttons := by
      split at hpointer
      · exact ((aside_edges _).of_eq hpointer).buttons
      · cases hpointer
        rfl
    have hturned : Aside after (motion ⟨0, 0, dx, dy⟩ i).2 := by
      refine Act.Within.of_eq (Act.Within.bind ?_ fun _ => ?_) hrest
      · exact Act.Within.pure ()
      · exact Act.Within.bind (aside_wheel dy 0) fun _ => aside_wheel dx 1
    exact hturned.buttons.trans hpointed

end Zflow.Windows.Injector

/-! ## Linux -/

namespace Zflow.Linux.VirtualDevices

open Zflow.Core Lib InputThread

/-- A call of the keyboard's; the key of one must have a code. -/
def askKeyboard : KeyRemap.Call → Act InjectionError VirtualKeyboard Unit
  | .key usage pressed => VirtualKeyboard.setKey usage pressed
  | call => do
    let edges ← VirtualKeyboard.remapped call
    VirtualKeyboard.injectAll edges

/-- What the keyboard is told of the pointer first. -/
def prepares : Option (Bool × Bool) → List Deed
  | some (true, busy) => [.ask (.pointer busy)]
  | some (false, busy) => [.ask (.pointerReleased busy)]
  | none => []

/-- What the event itself is. -/
def applies : HostEvent → List Deed
  | .key usage pressed => [.ask (.key usage pressed)]
  | .button which pressed => [.button which pressed]
  | .scroll dx dy => if dx ≠ 0 ∨ dy ≠ 0 then [.scroll dx dy] else []

def deeds (d : VirtualDevices) (event : HostEvent) : List Deed :=
  prepares (pointerUse d event.effect) ++ applies event

def does : Deed → Act RuntimeDiagnostic VirtualDevices Unit
  | .ask call => InputThread.onDevices (onKeyboard (askKeyboard call))
  | .button which pressed => InputThread.onDevices (VirtualInput.setButton which pressed)
  | .scroll dx dy => InputThread.onDevices (VirtualInput.motion ⟨0, 0, dx, dy⟩)

variable {d : VirtualDevices} {event : HostEvent}

theorem doAll_append {ε S : Type} (does : Deed → Act ε S Unit) (first second : List Deed) :
    doAll does (first ++ second) = doAll does first >>= fun _ => doAll does second := by
  induction first with
  | nil => rfl
  | cons deed rest ih =>
    rw [List.cons_append, doAll, ih, doAll, Act.bind_assoc]

theorem prepare_eq (d : VirtualDevices) (effect : ReceiverEffect) :
    preparePointer effect d = doAll does (prepares (pointerUse d effect)) d := by
  unfold preparePointer
  split
  next busy husage =>
    rw [husage, prepares, doAll_singleton]
    rfl
  next busy husage =>
    rw [husage, prepares, doAll_singleton]
    rfl
  next husage =>
    rw [husage]
    rfl

theorem apply_eq (event : HostEvent) (mode : KeyboardMode) :
    applyToDevices event.effect none mode = (doAll does (applies event) : Act RuntimeDiagnostic VirtualDevices Unit) := by
  cases event with
  | key usage pressed =>
    rw [applies, doAll_singleton]
    rfl
  | button which pressed =>
    rw [applies, doAll_singleton]
    rfl
  | scroll dx dy =>
    rw [applies]
    split
    · rw [doAll_singleton]
      rfl
    · rfl

theorem handle_eq (d : VirtualDevices) (event : HostEvent) (mode : KeyboardMode) :
    applyReceiverEffect event.effect none mode d = doAll does (d.deeds event) d := by
  rw [deeds, doAll_append, Act.bind_apply, ← prepare_eq, ← apply_eq event mode, applyReceiverEffect, Act.bind_apply]

theorem askKeyboard_remap {call : KeyRemap.Call} {k k' : VirtualKeyboard} (h : askKeyboard call k = (.ok (), k')) :
    k'.remap = (k.remap.call call).2 := by
  cases call with
  | key usage pressed => exact VirtualKeyboard.setKey_remap h
  | pointer busy => exact VirtualKeyboard.remapped_remap h
  | pointerReleased busy => exact VirtualKeyboard.remapped_remap h
  | setTerminal terminal => exact VirtualKeyboard.remapped_remap h

theorem remap_does (d : VirtualDevices) (deed : Deed) (h : (does deed d).1 = .ok ()) :
    (does deed d).2.keyboard.remap = (deed.play d.keyboard.remap).2 := by
  cases deed with
  | ask call =>
    obtain ⟨keyboard, hask, hleft⟩ := onKeyboard_ok (Prod.ext h rfl : does (.ask call) d = (.ok (), _))
    exact (congrArg (·.keyboard.remap) hleft).trans (askKeyboard_remap hask)
  | button which pressed =>
    obtain ⟨pointer, -, hleft⟩ := onPointer_ok (Prod.ext h rfl : does (.button which pressed) d = (.ok (), _))
    exact congrArg (·.keyboard.remap) hleft
  | scroll dx dy => rfl

/-- A button that is posted has a code. -/
theorem code_of_handle {mode : KeyboardMode} (h : (applyReceiverEffect event.effect none mode d).1 = .ok ())
    (which : PointerButton) (pressed : Bool) (hevent : event = .button which pressed) :
    ∃ code, pointerButtonToEvdev which = .ok code := by
  subst hevent
  obtain ⟨_, mid, -, happly⟩ := Act.bind_eq_ok.mp (Prod.ext h rfl :
    applyReceiverEffect (HostEvent.button which pressed).effect none mode d = (.ok (), _))
  obtain ⟨pointer, hset, -⟩ := onPointer_ok happly
  obtain ⟨code, after, hcode, -⟩ := Act.bind_eq_ok.mp hset
  exact ⟨code, (Act.lift_eq_ok.mp hcode).1⟩

/-- The devices of the input thread. -/
def host (mode : KeyboardMode) : Host RuntimeDiagnostic VirtualDevices where
  remap d := d.keyboard.remap
  handle event := applyReceiverEffect event.effect none mode
  deeds := deeds
  does := does
  handle_eq d event _ := handle_eq d event mode
  remap_does := remap_does

end Zflow.Linux.VirtualDevices

/-! ## The lens -/

namespace Zflow.Lens.Player

open Zflow.Core Lib

variable {D : Type} [Desk D]

/-- What a call on the desk leaves alone. -/
structure Aside (p p' : Player D) : Prop where
  remap : p'.remap = p.remap
  buttons : p'.buttons = p.buttons
  terminal : p'.terminal = p.terminal

instance : IsPreorder (Player D) Aside where
  refl _ := ⟨rfl, rfl, rfl⟩
  trans _ _ _ h h' := ⟨h'.remap.trans h.remap, h'.buttons.trans h.buttons, h'.terminal.trans h.terminal⟩

omit [Desk D] in
theorem aside_onDesk (x : Act String D Unit) : Act.Within Aside (onDesk x : Act String (Player D) Unit) :=
  fun _ => ⟨rfl, rfl, rfl⟩

theorem aside_keys (edges : List Edge) : Act.Within Aside (keys edges : Act String (Player D) Unit) := by
  induction edges with
  | nil => exact Act.Within.pure ()
  | cons edge rest ih =>
    refine Act.Within.bind ?_ fun _ => ih
    unfold key
    split
    · exact aside_onDesk _
    · exact Act.Within.pure ()

theorem aside_scroll (dx dy : Int) : Act.Within Aside (scroll dx dy : Act String (Player D) Unit) := by
  unfold scroll
  split
  · exact Act.Within.pure ()
  · exact aside_onDesk _

/-- What is typed does not depend on the buttons. -/
theorem keys_buttons (edges : List Edge) (p : Player D) (buttons : BitVec 32) :
    keys edges { p with buttons } = ((keys edges p).1, { (keys edges p).2 with buttons }) := by
  induction edges generalizing p with
  | nil => rfl
  | cons edge rest ih =>
    have hkey : key edge { p with buttons } = ((key edge p).1, { (key edge p).2 with buttons }) := by
      unfold key
      cases Linux.hidToEvdevKey edge.1 <;> rfl
    rw [keys, Act.bind_apply, Act.bind_apply, hkey]
    rcases key edge p with ⟨_ | _, after⟩
    · rfl
    · exact ih after

def deeds (p : Player D) : HostEvent → List Deed
  | .key usage pressed =>
    if pressed then [.ask (.setTerminal p.terminal), .ask (.key usage true)] else [.ask (.key usage false)]
  | .button which pressed =>
    match Linux.pointerButtonToEvdev which with
    | .error _ => []
    | .ok _ =>
      let busy := moved p.buttons which pressed != 0
      [.ask (if pressed then .pointer busy else .pointerReleased busy), .button which pressed]
  | .scroll dx dy => .ask (.pointer (p.buttons != 0)) :: if dx ≠ 0 ∨ dy ≠ 0 then [.scroll dx dy] else []

def does : Deed → Act String (Player D) Unit
  | .ask call => fun p => keys (p.remap.call call).1 { p with remap := (p.remap.call call).2 }
  | .button which pressed => fun p =>
    match Linux.pointerButtonToEvdev which with
    | .error _ => (.ok (), p)
    | .ok code => onDesk (Desk.button code pressed) { p with buttons := moved p.buttons which pressed }
  | .scroll dx dy => scroll dx dy

theorem remap_does (p : Player D) (deed : Deed) : (does deed p).2.remap = (deed.play p.remap).2 := by
  cases deed with
  | ask call => exact (aside_keys _ _).remap
  | button which pressed =>
    unfold does
    dsimp only
    split <;> rfl
  | scroll dx dy => exact (aside_scroll dx dy p).remap

theorem playKey_eq (usage : HidUsage) (pressed : Bool) (p : Player D) :
    playKey usage pressed p = doAll does (p.deeds (.key usage pressed)) p := by
  cases pressed with
  | true =>
    show _ = (does _ >>= fun _ => doAll does [.ask (.key usage true)]) p
    rw [doAll_singleton]
    rfl
  | false =>
    show _ = doAll does [.ask (.key usage false)] p
    rw [doAll_singleton]
    rfl

/-- Whether the buttons are noted before keys are typed or after makes no difference, unless one is not typed. -/
theorem keys_then {edges : List Edge} {p : Player D} {buttons : BitVec 32} {x : Act String (Player D) Unit}
    (h : ((keys edges >>= fun _ => x) { p with buttons }).1 = .ok ()) :
    (keys edges >>= fun _ => x) { p with buttons } =
      (keys edges >>= fun _ => .change (fun p => { p with buttons }) >>= fun _ => x) p := by
  have hnoted := keys_buttons edges p buttons
  cases htyped : keys edges p with
  | mk result after =>
    rw [htyped] at hnoted
    cases result with
    | error error =>
      rw [Act.bind_of_error hnoted] at h
      cases h
    | ok answer =>
      rw [Act.bind_of_ok hnoted, Act.bind_of_ok htyped]
      rfl

/-- How a button is told to the remap. -/
def pointerCall (p : Player D) (which : PointerButton) (pressed : Bool) : KeyRemap.Call :=
  if pressed then .pointer (moved p.buttons which pressed != 0)
    else .pointerReleased (moved p.buttons which pressed != 0)

theorem playButton_eq {which : PointerButton} {pressed : Bool} {p : Player D}
    (h : (playButton which pressed p).1 = .ok ()) :
    playButton which pressed p = doAll does (p.deeds (.button which pressed)) p := by
  cases hcode : Linux.pointerButtonToEvdev which with
  | error error => simp only [playButton, deeds, hcode, doAll, Act.pure_apply]
  | ok code =>
    let told := p.remap.call (p.pointerCall which pressed)
    have hplay : playButton which pressed p = (keys told.1 >>= fun _ => onDesk (Desk.button code pressed))
          { { p with remap := told.2 } with buttons := moved p.buttons which pressed } := by
      unfold playButton
      rw [hcode]
      cases pressed <;> rfl
    have hdeeds : p.deeds (.button which pressed) = [.ask (p.pointerCall which pressed), .button which pressed] := by
      simp only [deeds, hcode, pointerCall]
    rw [hplay] at h
    rw [hplay, keys_then h, hdeeds, doAll, doAll_singleton]
    show _ = (keys told.1 >>= fun _ => does (.button which pressed)) { p with remap := told.2 }
    refine Act.bind_congr fun _ after htyped => ?_
    have hbuttons : after.buttons = p.buttons := ((aside_keys told.1).of_eq htyped).buttons
    simp only [does, hcode, hbuttons]
    rfl

theorem playScroll_eq (dx dy : Int) (p : Player D) : playScroll dx dy p = doAll does (p.deeds (.scroll dx dy)) p := by
  show (keys _ >>= _) _ = (does _ >>= _) p
  refine Act.bind_congr fun _ after _ => ?_
  by_cases hturn : dx ≠ 0 ∨ dy ≠ 0
  · rw [if_pos hturn, doAll_singleton]
    rfl
  · rw [if_neg hturn]
    obtain ⟨rfl, rfl⟩ : dx = 0 ∧ dy = 0 := by omega
    rfl

theorem play_eq {p : Player D} {event : HostEvent} (h : (play event p).1 = .ok ()) :
    play event p = doAll does (p.deeds event) p := by
  cases event with
  | key usage pressed => exact playKey_eq usage pressed p
  | button which pressed => exact playButton_eq h
  | scroll dx dy => exact playScroll_eq dx dy p

/-- The lens host. -/
def host : Host String (Player D) where
  remap := remap
  handle := play
  deeds := deeds
  does := does
  handle_eq _ _ h := play_eq h
  remap_does p deed _ := remap_does p deed

theorem terminal_play (event : HostEvent) (p : Player D) : (play event p).2.terminal = p.terminal := by
  cases event with
  | key usage pressed => exact (aside_keys _ _).terminal
  | button which pressed =>
    show (playButton which pressed p).2.terminal = p.terminal
    unfold playButton
    cases Linux.pointerButtonToEvdev which with
    | error error => rfl
    | ok code => exact (Act.Within.bind (aside_keys _) (fun _ => aside_onDesk _) _).terminal
  | scroll dx dy => exact (Act.Within.bind (aside_keys _) (fun _ => aside_scroll dx dy) _).terminal

/-- A button that has a code is noted, and nothing else changes the buttons. -/
theorem buttons_play {event : HostEvent} (p : Player D)
    (hcode : ∀ which pressed, event = .button which pressed → ∃ code, Linux.pointerButtonToEvdev which = .ok code) :
    (play event p).2.buttons = match event with
      | .button which pressed => moved p.buttons which pressed
      | _ => p.buttons := by
  cases event with
  | key usage pressed => exact (aside_keys _ _).buttons
  | button which pressed =>
    obtain ⟨code, hcode⟩ := hcode which pressed rfl
    show (playButton which pressed p).2.buttons = moved p.buttons which pressed
    unfold playButton
    rw [hcode]
    exact (Act.Within.bind (aside_keys _) (fun _ => aside_onDesk _) _).buttons
  | scroll dx dy => exact (Act.Within.bind (aside_keys _) (fun _ => aside_scroll dx dy) _).buttons

end Zflow.Lens.Player
