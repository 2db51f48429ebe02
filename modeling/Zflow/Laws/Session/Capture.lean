import Zflow.Laws.Core.SenderLimit
import Zflow.Lib.Toggle
import Zflow.Session.Capture

/-!
# Captured input is a script the sender takes

The merger keeps what each device holds, and passes on the changes of the union: it follows the log of what
the devices press and release (`Follows`). The sender keeps one set of pressed keys and buttons and refuses a
press of what is pressed and a release of what is not. That set is the union (`Agrees`), so it refuses none
of the changes, whatever the devices do (`merged_capture_valid`).
-/

namespace Zflow.Session

open Zflow.Core Lib

variable {P : Type} [Ord P] [Std.TransOrd P] [Std.LawfulEqOrd P] [DecidableEq P]

/-! ## The merger -/

namespace CaptureMerger

/-- Each device holds in the merger what it holds by the log. -/
def Follows (m : CaptureMerger P) (log : List (Grip P CaptureMember)) : Prop :=
  ∀ path member, ((m.heldByDevice[path]?).getD ∅).contains member = held log path member

/-- What a device did, transition by transition. -/
def grips (path : P) (transitions : List CaptureTransition) : List (Grip P CaptureMember) :=
  transitions.filterMap fun transition => transition.change.map fun change => ⟨path, change.1, change.2⟩

variable {m : CaptureMerger P} {log : List (Grip P CaptureMember)}

theorem follows_empty : (CaptureMerger.empty : CaptureMerger P).Follows [] := by
  intro path member
  simp [CaptureMerger.empty, held]

theorem Follows.holds (h : m.Follows log) (member : CaptureMember) :
    m.holds member = heldByAny log member := by
  rw [Bool.eq_iff_iff, heldByAny_iff]
  unfold CaptureMerger.holds
  rw [List.any_eq_true]
  constructor
  · rintro ⟨entry, hentry, hcontains⟩
    have hget := Std.ExtTreeMap.mem_toList_iff_getElem?_eq_some.mp hentry
    refine ⟨entry.1, ?_⟩
    rw [← h, hget]
    exact hcontains
  · rintro ⟨path, hheld⟩
    rw [← h] at hheld
    cases hget : m.heldByDevice[path]? with
    | none =>
      rw [hget] at hheld
      simp at hheld
    | some device =>
      rw [hget] at hheld
      exact ⟨(path, device), Std.ExtTreeMap.mem_toList_iff_getElem?_eq_some.mpr hget, hheld⟩

/-- The set of a device after a transition. -/
theorem follows_insert (h : m.Follows log) (path : P) (member : CaptureMember) (pressed : Bool) :
    Follows ⟨m.heldByDevice.insert path (if pressed then ((m.heldByDevice[path]?).getD ∅).insert member
      else ((m.heldByDevice[path]?).getD ∅).erase member)⟩ (log ++ [⟨path, member, pressed⟩]) := by
  intro other otherMember
  dsimp only
  rw [held_concat, Std.ExtTreeMap.getElem?_insert]
  simp only [Std.compare_eq_iff_eq]
  by_cases hpath : path = other
  · subst hpath
    rw [if_pos rfl, Option.getD_some]
    by_cases hmember : member = otherMember
    · subst hmember
      cases pressed <;> simp
    · have hother : ¬ (path = path ∧ member = otherMember) := fun hboth => hmember hboth.2
      rw [if_neg hother, ← h path otherMember]
      cases pressed <;> simp [Std.ExtTreeSet.contains_insert, Std.ExtTreeSet.contains_erase, hmember]
  · rw [if_neg hpath, if_neg fun hboth => hpath hboth.1]
    exact h other otherMember

/-- **A transition** is passed on when the union changes. -/
theorem turn_eq (h : m.Follows log) (path : P) (member : CaptureMember) (pressed : Bool) :
    (m.turn path member pressed).1.toList =
      (if heldByAny log member ≠ heldByAny (log ++ [⟨path, member, pressed⟩]) member then
        [(member, pressed)] else []) ∧
      (m.turn path member pressed).2.Follows (log ++ [⟨path, member, pressed⟩]) := by
  have hafter := follows_insert h path member pressed
  have hbefore := h.holds member
  have hunion := hafter.holds member
  unfold turn
  dsimp only
  rw [hbefore, hunion]
  by_cases hchange : heldByAny log member ≠ heldByAny (log ++ [⟨path, member, pressed⟩]) member
  · -- the device did not have it the way it has it now
    have hchanged : (if pressed then !((m.heldByDevice[path]?).getD ∅).contains member
        else ((m.heldByDevice[path]?).getD ∅).contains member) = true := by
      by_contra hsame
      apply hchange
      rw [h path member] at hsame
      have hheld : held log path member = pressed := by
        cases pressed <;> simpa using hsame
      rw [Bool.eq_iff_iff, heldByAny_iff, heldByAny_iff]
      refine exists_congr fun holder => ?_
      rw [held_concat]
      split
      · rename_i hboth
        dsimp only at hboth
        rw [← hboth.1, hheld]
      · rfl
    rw [if_pos hchange, hchanged]
    simp only [Bool.true_and, bne_iff_ne]
    rw [if_pos hchange]
    exact ⟨rfl, hafter⟩
  · rw [if_neg hchange]
    have hsame : (heldByAny log member != heldByAny (log ++ [⟨path, member, pressed⟩]) member) = false := by
      simpa using hchange
    rw [hsame, Bool.and_false]
    exact ⟨rfl, hafter⟩

/-- **A frame**: what is passed on are the changes of the union, and every device is followed. -/
theorem mergeTransitions_eq (h : m.Follows log) (path : P) (transitions : List CaptureTransition) :
    (m.mergeTransitions path transitions).1 = changesAfter log (grips path transitions) ∧
      (m.mergeTransitions path transitions).2.Follows (log ++ grips path transitions) := by
  induction transitions generalizing m log with
  | nil =>
    refine ⟨rfl, ?_⟩
    rw [show grips path [] = [] from rfl, List.append_nil]
    exact h
  | cons transition rest ih =>
    unfold mergeTransitions grips
    cases hchange : transition.change with
    | none =>
      simp only [List.filterMap_cons, hchange, Option.map_none]
      exact ih h
    | some change =>
      obtain ⟨member, pressed⟩ := change
      obtain ⟨hpassed, hfollows⟩ := turn_eq h path member pressed
      obtain ⟨hlater, hlast⟩ := ih hfollows
      simp only [List.filterMap_cons, hchange, Option.map_some]
      refine ⟨?_, ?_⟩
      · rw [hpassed, hlater]
        rfl
      · rw [List.append_assoc] at hlast
        exact hlast

/-- Forgetting the devices that hold nothing changes nothing. -/
theorem Follows.retain (h : m.Follows log) :
    Follows ⟨m.heldByDevice.filter fun _ held => !held.isEmpty⟩ log := by
  intro path member
  rw [← h path member]
  dsimp only
  rw [Std.ExtTreeMap.getElem?_filter']
  cases hget : m.heldByDevice[path]? with
  | none => rfl
  | some device =>
    cases hempty : device.isEmpty with
    | false => simp [Option.filter, hempty]
    | true =>
      have hnone : device = ∅ := Std.ExtTreeSet.isEmpty_iff.mp hempty
      simp [Option.filter, hnone]

theorem merge_eq (h : m.Follows log) (path : P) (transitions : List CaptureTransition) :
    (m.merge path transitions).1 = changesAfter log (grips path transitions) ∧
      (m.merge path transitions).2.Follows (log ++ grips path transitions) := by
  obtain ⟨hpassed, hfollows⟩ := mergeTransitions_eq h path transitions
  exact ⟨hpassed, hfollows.retain⟩

end CaptureMerger

/-! ## The sender -/

/-- The sender holds the keys and buttons of the set. -/
structure Agrees (union : CaptureMember → Bool) (held : HeldState) : Prop where
  keys : ∀ key, held.pressedKeys.contains key = union (.key key)
  buttons : ∀ button, held.pressedButtons.contains button = union (.button button)

theorem Agrees.of_eq {union : CaptureMember → Bool} {held held' : HeldState} (h : Agrees union held)
    (hkeys : held'.pressedKeys = held.pressedKeys)
    (hbuttons : held'.pressedButtons = held.pressedButtons) : Agrees union held' :=
  ⟨fun key => by rw [hkeys, h.keys], fun button => by rw [hbuttons, h.buttons]⟩

/-- The sender is remote and takes the time, and what it holds is as said. -/
structure Ready (Φ : HeldState → Prop) (now : MonotonicTimeMicros) (s : Sender) : Prop where
  remote : s.remote = true
  observed : s.lastObservedTime ≤ now
  held : Φ s.held

/-- A failure that is not for what is held. -/
def Other (error : SenderError) : Prop := error ≠ .invalidTransition

/-- A method of the sender takes `Φ` to `Ψ`, and does not fail for what is held. -/
abbrev Takes {α : Type} (Φ Ψ : HeldState → Prop) (now : MonotonicTimeMicros)
    (x : Act SenderError Sender α) : Prop :=
  Act.Triple (Ready Φ now) x (fun _ => Ready Ψ now) fun error _ => Other error

variable {Φ Ψ : HeldState → Prop} {now : MonotonicTimeMicros}

/-- A control message, where what is held allows it. -/
theorem takes_hold {refused : Sender → Bool} {held : Sender → HeldState} {payload : Sender → ReliableControl}
    (h : ∀ s, Φ s.held → refused s = false ∧ Ψ (held s)) :
    Takes Φ Ψ now (do
      Sender.beforeControl now
      let s ← .read
      if refused s then .fail .invalidTransition
      else
        .change fun s => { s with held := held s }
        Sender.control (payload s)) := by
  intro s hs
  have hbefore : Sender.beforeControl now s = (.ok (), { s with lastObservedTime := now }) := by
    unfold Sender.beforeControl
    rw [Act.bind_of_ok (Sender.requireRemote_of_remote hs.remote), Sender.observeTime_of_le hs.observed]
  rw [Act.bind_of_ok hbefore, Act.bind_apply, Act.read_apply]
  obtain ⟨hallowed, hheld⟩ := h { s with lastObservedTime := now } hs.held
  dsimp only
  rw [hallowed, if_neg Bool.false_ne_true, Act.bind_apply, Act.change_apply]
  dsimp only
  rw [Sender.control_apply]
  split
  · rename_i result s' heq
    split at heq
    · cases heq
      exact ⟨hs.remote, Nat.le_refl _, hheld⟩
    · cases heq
  · rename_i result s' heq
    split at heq
    · cases heq
    · cases heq
      exact nofun

theorem takes_captureMotion {delta : MotionDelta} {touch : Option TouchState}
    (h : ∀ held, Φ held → Ψ (match touch with
      | some touch => held.replaceTouch touch
      | none => held)) : Takes Φ Ψ now (Sender.captureMotion delta touch now) := by
  intro s hs
  unfold Sender.captureMotion
  rw [Act.bind_of_ok (Sender.requireRemote_of_remote hs.remote),
    Act.bind_of_ok (Sender.observeTime_of_le hs.observed), Act.bind_apply, Act.read_apply]
  dsimp only
  cases htotals : s.totals.checkedAdd delta with
  | error error => exact nofun
  | ok totals =>
    cases hnext : Sender.nextSequence s.lastMotionSequence with
    | error error =>
      have hexhausted : error = .sequenceExhausted := by
        unfold Sender.nextSequence at hnext
        split at hnext <;> cases hnext
        rfl
      subst hexhausted
      exact nofun
    | ok next => exact ⟨hs.remote, Nat.le_refl _, h s.held hs.held⟩

variable {union : CaptureMember → Bool}

/-- A set with a member put in or taken out. -/
theorem contains_change {α : Type} [Ord α] [Std.TransOrd α] [Std.LawfulEqOrd α] [DecidableEq α]
    (set : Std.ExtTreeSet α) (member other : α) (pressed : Bool) :
    (if pressed then set.insert member else set.erase member).contains other =
      if other = member then pressed else set.contains other := by
  by_cases hsame : other = member
  · subst hsame
    cases pressed <;> simp
  · have hne : ¬ member = other := fun h => hsame h.symm
    cases pressed <;>
      simp [hsame, hne, Std.ExtTreeSet.contains_insert, Std.ExtTreeSet.contains_erase]

theorem Agrees.changeKey {held : HeldState} (h : Agrees union held) (usage : HidUsage) (pressed : Bool) :
    Agrees ((toggles CaptureMember).apply union (.key usage, pressed)) { held with
      pressedKeys := if pressed then held.pressedKeys.insert usage else held.pressedKeys.erase usage } where
  keys key := by
    rw [contains_change, h.keys]
    simp [toggles, Function.update_apply]
  buttons button := by
    rw [h.buttons]
    simp [toggles]

theorem Agrees.changeButton {held : HeldState} (h : Agrees union held) (button : PointerButton) (pressed : Bool) :
    Agrees ((toggles CaptureMember).apply union (.button button, pressed)) { held with
      pressedButtons :=
        if pressed then held.pressedButtons.insert button else held.pressedButtons.erase button } where
  keys key := by
    rw [h.keys]
    simp [toggles]
  buttons other := by
    rw [contains_change, h.buttons]
    simp [toggles, Function.update_apply]

/-- **A change of the union is a transition of the sender.** -/
theorem takes_press {change : CaptureMember × Bool} (hadmits : (toggles CaptureMember).admits union change) :
    Takes (Agrees union) (Agrees ((toggles CaptureMember).apply union change)) now (press now change) := by
  obtain ⟨member, pressed⟩ := change
  have hunion : union member = !pressed := hadmits
  cases member with
  | key usage =>
    cases pressed with
    | true => exact takes_hold fun s hs => ⟨(hs.keys usage).trans hunion, hs.changeKey usage true⟩
    | false =>
      have hrefuses (held : HeldState) (h : Agrees union held) : (!held.pressedKeys.contains usage) = false := by
        rw [h.keys, hunion]
        rfl
      exact takes_hold fun s hs => ⟨hrefuses s.held hs, hs.changeKey usage false⟩
  | button button =>
    cases pressed with
    | true => exact takes_hold fun s hs => ⟨(hs.buttons button).trans hunion, hs.changeButton button true⟩
    | false =>
      have hrefuses (held : HeldState) (h : Agrees union held) : (!held.pressedButtons.contains button) = false := by
        rw [h.buttons, hunion]
        rfl
      exact takes_hold fun s hs => ⟨hrefuses s.held hs, hs.changeButton button false⟩

/-! ## A frame goes out -/

section send

variable (sends : List Sent → Except String Unit)

/-- What a call with the sender in hand takes `Φ` to, and that it does not fail for what is held. -/
abbrev Sends (Φ Ψ : HeldState → Prop) (now : MonotonicTimeMicros) (x : Act CaptureError Outbound Unit) :
    Prop :=
  Act.Triple (fun o => Ready Φ now o.sender) x (fun _ o => Ready Ψ now o.sender)
    fun error _ => error ≠ .sender .invalidTransition

theorem sends_transmit (message : Sent) : Sends Φ Φ now (transmit sends message) := by
  refine .bind (Q := fun _ o => Ready Φ now o.sender) (.change fun _ h => h) fun _ => .read fun o => ?_
  exact .lift (fun _ _ _ => And.left) fun _ _ _ _ => nofun

/-- The sender's answer goes out. -/
theorem sends_on {α : Type} {x : Act SenderError Sender α} (hx : Takes Φ Ψ now x) (message : α → Sent) :
    Sends Φ Ψ now (do
      let answer ← .on Outbound.sender (fun sender o => { o with sender }) .sender x
      transmit sends (message answer)) := by
  refine .bind (Q := fun _ o => Ready Ψ now o.sender) ?_ fun answer => sends_transmit sends (message answer)
  refine .on (fun o answer s hs heq => hx.ok hs heq) fun o error s hs heq herror => ?_
  cases herror
  exact hx.error hs heq rfl

theorem sends_transitions {transitions : List (CaptureMember × Bool)}
    (hlegal : (toggles CaptureMember).Legal union transitions) :
    Sends (Agrees union) (Agrees ((toggles CaptureMember).run union transitions)) now
      (sendTransitions sends now transitions) := by
  induction transitions generalizing union with
  | nil => exact .pure fun _ => id
  | cons change rest ih =>
    exact .bind (sends_on sends (takes_press hlegal.1) .control) fun _ => ih hlegal.2

/-- Touch and motion leave the keys and buttons. -/
theorem sends_moved (touch : Option TouchState) (motion : MotionDelta) :
    Sends (Agrees union) (Agrees union) now (sendMoved sends touch motion now) := by
  have hpre {Φ : HeldState → Prop} {o : Outbound} (hΦ : Agrees union o.sender.held → Φ o.sender.held) :
      ∀ s, Ready (Agrees union) now s.sender ∧ s = o → Ready Φ now s.sender := by
    rintro s ⟨hready, rfl⟩
    exact ⟨hready.remote, hready.observed, hΦ hready.held⟩
  have hcaptured (Φ : HeldState → Prop) : Sends Φ Φ now (sendMotion sends (Sender.captureMotion motion none now)) := by
    have htakes : Takes Φ Φ now (Sender.captureMotion motion none now) :=
      takes_captureMotion fun _ h => h
    exact sends_on sends htakes .motion
  have hmoved : Sends (Agrees union) (Agrees union) now
      (if motion ≠ 0 then sendMotion sends (Sender.captureMotion motion none now) else return ()) := by
    split
    · exact hcaptured _
    · exact .pure fun _ => id
  refine .read fun o => ?_
  cases touch with
  | none => exact hmoved.pre (hpre id)
  | some state =>
    dsimp only
    split
    · rename_i hbegin
      obtain ⟨hactive, hstate⟩ := Bool.and_eq_true_iff.mp hbegin
      have hbegun : Takes (fun held => Agrees union held ∧ held.activeTouch.isEmpty = true) (Agrees union)
          now (Sender.touchBegin state now) := by
        refine takes_hold fun s hs => ⟨?_, hs.1.of_eq rfl rfl⟩
        rw [hs.2, Bool.not_true, Bool.false_or]
        simpa using hstate
      refine .bind ((sends_on sends hbegun .control).pre (hpre fun h => ⟨h, hactive⟩)) fun _ => ?_
      exact hmoved
    split
    · rename_i hend
      obtain ⟨hactive, -⟩ := Bool.and_eq_true_iff.mp hend
      have hended : Takes (fun held => Agrees union held ∧ held.activeTouch.isEmpty = false) (Agrees union)
          now (Sender.touchEnd false now) :=
        takes_hold fun s hs => ⟨hs.2, hs.1.of_eq rfl rfl⟩
      have hpast : ∀ s, Ready (Agrees union) now s.sender ∧ s = o →
          Ready (fun held => Agrees union held ∧ held.activeTouch.isEmpty = false) now s.sender :=
        hpre fun h => ⟨h, by simpa using hactive⟩
      split
      · exact .bind ((hcaptured _).pre hpast) fun _ => sends_on sends hended .control
      · exact (sends_on sends hended .control).pre hpast
    split
    · have hreplaced : Takes (Agrees union) (Agrees union) now (Sender.captureMotion motion (some state) now) :=
        takes_captureMotion fun _ h => h.of_eq rfl rfl
      exact (sends_on sends hreplaced .motion).pre (hpre id)
    · exact hmoved.pre (hpre id)

/-- **A frame goes out**: the sender follows the changes, and never refuses one for what is held. -/
theorem sends_capture (negotiated : NegotiatedSession) (frame : CaptureFrame)
    {transitions : List (CaptureMember × Bool)} (hlegal : (toggles CaptureMember).Legal union transitions) :
    Sends (Agrees union) (Agrees ((toggles CaptureMember).run union transitions)) now
      (sendCapture sends negotiated frame transitions now) :=
  .bind (sends_moved sends _ _) fun _ => sends_transitions sends hlegal

/-! ## Runs -/

/-- The session's outbound half, with the log of what the devices did since the activation began, and what
the merger has passed on. -/
structure Scripted (P : Type) [Ord P] [Std.TransOrd P] [Std.LawfulEqOrd P] where
  outgoing : Outgoing P
  log : List (Grip P CaptureMember)
  merged : List (CaptureMember × Bool)

inductive OutgoingCall (P : Type) where
  | beginOutbound (context : SessionContext) (now : MonotonicTimeMicros)
  | capture (captured : CapturedDeviceFrame P) (time : MonotonicTimeMicros)
  | endOutbound (reason : SessionCloseReason) (now : MonotonicTimeMicros)
  | acknowledge (session : SessionContext) (ack : SnapshotAck)
  | tick (now : MonotonicTimeMicros)

namespace Scripted

def start : Scripted P := ⟨⟨none, [], .empty⟩, [], []⟩

/-- What the session is set up with. -/
structure Setup where
  config : SenderConfig
  negotiated : NegotiatedSession
  takesContacts : Bool

/-- A call that fails ends the session. -/
def step (setup : Setup) : System (Scripted P) (OutgoingCall P)
  | .beginOutbound context now, w =>
    match Outgoing.beginOutbound sends setup.config context now w.outgoing with
    | (.ok (), outgoing) => some ⟨outgoing, [], []⟩
    | (.error _, _) => none
  | .capture captured time, w =>
    match Outgoing.capture sends setup.negotiated setup.takesContacts captured time w.outgoing with
    | (.ok (), outgoing) =>
      if w.outgoing.sender.isSome then
        let transitions := (captured.frame.forTarget setup.takesContacts).transitions
        some ⟨outgoing, w.log ++ CaptureMerger.grips captured.devicePath transitions,
          w.merged ++ (w.outgoing.merger.merge captured.devicePath transitions).1⟩
      else some { w with outgoing }
    | (.error _, _) => none
  | .endOutbound reason now, w =>
    match Outgoing.endOutbound sends reason now w.outgoing with
    | (.ok (), outgoing) => some ⟨outgoing, [], []⟩
    | (.error _, _) => none
  | .acknowledge session ack, w =>
    match Outgoing.acknowledge session ack w.outgoing with
    | (.ok (), outgoing) => some { w with outgoing }
    | (.error _, _) => none
  | .tick now, w =>
    match Outgoing.tick sends now w.outgoing with
    | (.ok (), outgoing) => some { w with outgoing }
    | (.error _, _) => none

/-- **The invariant**: the merger follows the log and has passed on its changes, and a sender that is there is
remote and holds the union. -/
structure Valid (w : Scripted P) : Prop where
  follows : w.outgoing.merger.Follows w.log
  merged : w.merged = changes w.log
  sender : ∀ s, w.outgoing.sender = some s → s.remote = true ∧ Agrees (heldByAny w.log) s.held

variable {sends} {setup : Setup} {w : Scripted P}

/-- A call that leaves the merger, and of the sender what it holds. -/
theorem Valid.kept {outgoing : Outgoing P} (h : Valid w) (hmerger : outgoing.merger = w.outgoing.merger)
    (hsender : ∀ s', outgoing.sender = some s' →
      ∃ s, w.outgoing.sender = some s ∧ s'.remote = s.remote ∧ s'.held = s.held) :
    Valid { w with outgoing } where
  follows := hmerger ▸ h.follows
  merged := h.merged
  sender s' hs' := by
    obtain ⟨s, hs, hremote, hheld⟩ := hsender s' hs'
    rw [hremote, hheld]
    exact h.sender s hs

theorem Valid.fresh {outgoing : Outgoing P} (hmerger : outgoing.merger = .empty)
    (hsender : ∀ s, outgoing.sender = some s → s.remote = true ∧ s.held = .neutral) : Valid ⟨outgoing, [], []⟩ where
  follows := hmerger ▸ CaptureMerger.follows_empty
  merged := rfl
  sender s hs := by
    obtain ⟨hremote, hheld⟩ := hsender s hs
    refine ⟨hremote, ?_⟩
    rw [hheld]
    exact ⟨fun key => by simp [HeldState.neutral, heldByAny], fun button => by
      simp [HeldState.neutral, heldByAny]⟩

/-! ### One call -/

theorem enter_ok {s s' : Sender} {message : ReliableControlMessage}
    (h : Sender.enter now s = (.ok message, s')) : s'.remote = true ∧ s'.held = .neutral := by
  unfold Sender.enter at h
  obtain ⟨_, s₁, -, h⟩ := Act.bind_eq_ok.mp h
  obtain ⟨_, _, hread, h⟩ := Act.bind_eq_ok.mp h
  cases hread
  by_cases hremote : s₁.remote = true
  · rw [if_pos hremote] at h
    cases h
  rw [if_neg hremote] at h
  by_cases hstarted : s₁.started = true
  · rw [if_pos hstarted] at h
    cases h
  rw [if_neg hstarted] at h
  obtain ⟨_, _, hchange, hcontrol⟩ := Act.bind_eq_ok.mp h
  cases hchange
  obtain ⟨-, rfl⟩ := Sender.control_eq_ok hcontrol
  exact ⟨rfl, rfl⟩

theorem transmit_sender {message : Sent} {o o' : Outbound} {result : Except CaptureError Unit}
    (h : transmit sends message o = (result, o')) : o'.sender = o.sender := by
  unfold transmit at h
  rw [Act.bind_apply, Act.change_apply] at h
  dsimp only at h
  rw [Act.bind_apply, Act.read_apply] at h
  cases h
  rfl

theorem sendControl_ok {x : Act SenderError Sender ReliableControlMessage} {o o' : Outbound}
    (h : sendControl sends x o = (.ok (), o')) : ∃ message, x o.sender = (.ok message, o'.sender) := by
  obtain ⟨message, o₁, hx, htransmit⟩ := Act.bind_eq_ok.mp h
  unfold Act.on at hx
  obtain ⟨hresult, rfl⟩ := Prod.mk.inj hx
  have hsender := transmit_sender htransmit
  refine ⟨message, ?_⟩
  rw [hsender]
  exact Prod.ext (Act.mapError_eq_ok.mp hresult) rfl

theorem Valid.beginOutbound {context : SessionContext} {outgoing : Outgoing P}
    (h : Outgoing.beginOutbound sends setup.config context now w.outgoing = (.ok (), outgoing)) :
    Valid ⟨outgoing, [], []⟩ := by
  obtain ⟨_, _, hread, h⟩ := Act.bind_eq_ok.mp h
  cases hread
  by_cases hopen : w.outgoing.sender.isSome = true
  · rw [if_pos hopen] at h
    cases h
  rw [if_neg hopen] at h
  obtain ⟨_, _, hchange, h⟩ := Act.bind_eq_ok.mp h
  cases hchange
  obtain ⟨next, _, hlift, h⟩ := Act.bind_eq_ok.mp h
  obtain ⟨-, rfl⟩ := Act.lift_eq_ok.mp hlift
  dsimp only at h
  split at h
  · rename_i after hsent
    cases h
    apply Valid.fresh rfl
    rintro s ⟨⟩
    obtain ⟨message, henter⟩ := sendControl_ok hsent
    exact enter_ok henter
  · cases h

theorem Valid.endOutbound {reason : SessionCloseReason} {outgoing : Outgoing P}
    (h : Outgoing.endOutbound sends reason now w.outgoing = (.ok (), outgoing)) : Valid ⟨outgoing, [], []⟩ := by
  have hdone : outgoing.merger = .empty ∧ outgoing.sender = none := by
    obtain ⟨_, _, hread, h⟩ := Act.bind_eq_ok.mp h
    cases hread
    obtain ⟨_, _, hchange, h⟩ := Act.bind_eq_ok.mp h
    cases hchange
    cases hsender : w.outgoing.sender with
    | none =>
      rw [hsender] at h
      cases h
      exact ⟨rfl, rfl⟩
    | some active =>
      rw [hsender] at h
      dsimp only at h
      by_cases hremote : active.remote = true
      · rw [if_pos hremote] at h
        obtain ⟨_, o, hleave, h⟩ := Act.bind_eq_ok.mp h
        cases h
        obtain ⟨-, rfl⟩ := Prod.mk.inj hleave
        exact ⟨rfl, rfl⟩
      · rw [if_neg hremote] at h
        cases h
        exact ⟨rfl, rfl⟩
  refine .fresh hdone.1 fun s hs => ?_
  rw [hdone.2] at hs
  cases hs

theorem Valid.acknowledge {session : SessionContext} {ack : SnapshotAck} {outgoing : Outgoing P}
    (hvalid : Valid w) (h : Outgoing.acknowledge session ack w.outgoing = (.ok (), outgoing)) :
    Valid { w with outgoing } := by
  obtain ⟨_, _, hread, h⟩ := Act.bind_eq_ok.mp h
  cases hread
  cases hsender : w.outgoing.sender with
  | none =>
    rw [hsender] at h
    cases h
    exact hvalid
  | some active =>
    rw [hsender] at h
    dsimp only at h
    by_cases hsession : active.session = session
    · rw [if_pos hsession] at h
      obtain ⟨-, rfl⟩ := Prod.mk.inj h
      refine hvalid.kept ?_ ?_
      · rfl
      rintro s' ⟨⟩
      refine ⟨active, hsender, ?_⟩
      dsimp only
      cases hack : Sender.acknowledgeSnapshot ack active with
      | mk result after =>
        rcases Sender.acknowledge_cases hack with ⟨-, rfl, -⟩ | ⟨-, pending, -, rfl⟩ | ⟨-, rfl⟩ <;>
          exact ⟨rfl, rfl⟩
    · rw [if_neg hsession] at h
      cases h
      exact hvalid

theorem Valid.tick {outgoing : Outgoing P} (hvalid : Valid w)
    (h : Outgoing.tick sends now w.outgoing = (.ok (), outgoing)) : Valid { w with outgoing } := by
  obtain ⟨_, _, hread, h⟩ := Act.bind_eq_ok.mp h
  cases hread
  cases hsender : w.outgoing.sender with
  | none =>
    rw [hsender] at h
    cases h
    exact hvalid
  | some active =>
    rw [hsender] at h
    dsimp only at h
    -- a tick that succeeds keeps what is held, or ends the activation
    cases htick : Sender.tick now active with
    | mk result after =>
      rw [htick] at h
      cases result with
      | error error => cases h
      | ok answer =>
        obtain ⟨-, hticked⟩ := Sender.tick_cases htick
        cases hticked with
        | exit reason close sequence pending hpending hdue =>
          obtain ⟨-, houtgoing⟩ := Prod.mk.inj h
          have hmerger : outgoing.merger = w.outgoing.merger := by rw [← houtgoing]
          have hnone : outgoing.sender = none := by rw [← houtgoing]
          refine hvalid.kept hmerger fun s' hs' => ?_
          rw [hnone] at hs'
          cases hs'
        | checkpoint message taken hlive hsequence =>
          obtain ⟨-, rfl⟩ := Prod.mk.inj h
          refine hvalid.kept ?_ ?_
          · rfl
          rintro s' ⟨⟩
          exact ⟨active, hsender, rfl, rfl⟩
        | idle hlive hperiodic =>
          cases h
          refine hvalid.kept ?_ ?_
          · rfl
          rintro s' ⟨⟩
          exact ⟨active, hsender, rfl, rfl⟩

/-- The sender is ready for a frame, at a time no earlier than any it has seen. -/
theorem Valid.ready {s : Sender} (h : Valid w) (hs : w.outgoing.sender = some s) (time : MonotonicTimeMicros) :
    Ready (Agrees (heldByAny w.log)) (max time s.lastObservedTime) s :=
  ⟨(h.sender s hs).1, Nat.le_max_right _ _, (h.sender s hs).2⟩

/-- The changes a frame makes are a legal log of the union. -/
theorem Valid.merge (h : Valid w) (path : P) (transitions : List CaptureTransition) :
    (w.outgoing.merger.merge path transitions).1 = changesAfter w.log (CaptureMerger.grips path transitions) ∧
      (w.outgoing.merger.merge path transitions).2.Follows (w.log ++ CaptureMerger.grips path transitions) ∧
      (toggles CaptureMember).Legal (heldByAny w.log) (w.outgoing.merger.merge path transitions).1 ∧
      (toggles CaptureMember).run (heldByAny w.log) (w.outgoing.merger.merge path transitions).1 =
        heldByAny (w.log ++ CaptureMerger.grips path transitions) := by
  obtain ⟨hpassed, hfollows⟩ := CaptureMerger.merge_eq h.follows path transitions
  refine ⟨hpassed, hfollows, ?_⟩
  rw [hpassed]
  exact legal_changesAfter w.log _

theorem Valid.capture {captured : CapturedDeviceFrame P} {time : MonotonicTimeMicros}
    {outgoing : Outgoing P} {s : Sender} (h : Valid w) (hs : w.outgoing.sender = some s)
    (hcapture : Outgoing.capture sends setup.negotiated setup.takesContacts captured time w.outgoing =
      (.ok (), outgoing)) :
    Valid ⟨outgoing, w.log ++ CaptureMerger.grips captured.devicePath
        (captured.frame.forTarget setup.takesContacts).transitions,
      w.merged ++ (w.outgoing.merger.merge captured.devicePath
        (captured.frame.forTarget setup.takesContacts).transitions).1⟩ := by
  obtain ⟨_, _, hread, hrest⟩ := Act.bind_eq_ok.mp hcapture
  cases hread
  rw [hs] at hrest
  obtain ⟨_, _, hchange, hsent⟩ := Act.bind_eq_ok.mp hrest
  cases hchange
  obtain ⟨hpassed, hfollows, hlegal, hrun⟩ := h.merge captured.devicePath
    (captured.frame.forTarget setup.takesContacts).transitions
  obtain ⟨hresult, houtgoing⟩ := Prod.mk.inj hsent
  have hready := (sends_capture sends setup.negotiated (captured.frame.forTarget setup.takesContacts)
    hlegal).ok (h.ready hs time) (Prod.ext hresult rfl)
  rw [← houtgoing]
  refine ⟨hfollows, ?_, ?_⟩
  · dsimp only
    rw [h.merged, hpassed]
    exact (changesAfter_append [] _ _).symm
  · rintro s' ⟨⟩
    rw [hrun] at hready
    exact ⟨hready.remote, hready.held⟩

/-- **Every call keeps it.** -/
theorem Valid.step {label : OutgoingCall P} {after : Scripted P} (h : Valid w)
    (hstep : step sends setup label w = some after) : Valid after := by
  cases label with
  | beginOutbound context now =>
    simp only [Scripted.step] at hstep
    split at hstep
    · rename_i outgoing hbegin
      cases hstep
      exact Valid.beginOutbound hbegin
    · cases hstep
  | capture captured time =>
    simp only [Scripted.step] at hstep
    split at hstep
    · rename_i outgoing hcapture
      cases hs : w.outgoing.sender with
      | none =>
        rw [hs] at hstep
        cases hstep
        obtain ⟨_, _, hread, hrest⟩ := Act.bind_eq_ok.mp hcapture
        cases hread
        rw [hs] at hrest
        cases hrest
        exact h
      | some s =>
        rw [hs] at hstep
        cases hstep
        exact h.capture hs hcapture
    · cases hstep
  | endOutbound reason now =>
    simp only [Scripted.step] at hstep
    split at hstep
    · rename_i outgoing hend
      cases hstep
      exact Valid.endOutbound hend
    · cases hstep
  | acknowledge session ack =>
    simp only [Scripted.step] at hstep
    split at hstep
    · rename_i outgoing hack
      cases hstep
      exact h.acknowledge hack
    · cases hstep
  | tick now =>
    simp only [Scripted.step] at hstep
    split at hstep
    · rename_i outgoing htick
      cases hstep
      exact h.tick htick
    · cases hstep

theorem valid_start : Valid (start : Scripted P) := by
  refine .fresh rfl fun s hs => ?_
  cases hs

theorem valid_of_reaches (h : System.Reaches (step sends setup) (fun _ _ => True) start w) : Valid w := by
  refine h.invariant valid_start ?_
  intro s label t hs _ hstep
  exact hs.step hstep

/-- **Merged capture is always a valid script.** In every run of a session, whatever the devices send, the
messages of a frame never fail for what is held. What the merger has passed on since the activation began are
the entries at which the union of what the devices hold changes; of each key and button they are a press and a
release in turn, from a press. And what the sender holds pressed is that union. -/
theorem merged_capture_valid (h : System.Reaches (step sends setup) (fun _ _ => True) start w) :
    (∀ (captured : CapturedDeviceFrame P) (time : MonotonicTimeMicros),
      (Outgoing.capture sends setup.negotiated setup.takesContacts captured time w.outgoing).1 ≠
        .error (.sender .invalidTransition)) ∧
    w.merged = changes w.log ∧
    (∀ member, Alternates true ((w.merged.filter (·.1 = member)).map (·.2))) ∧
    ∀ s, w.outgoing.sender = some s →
      (∀ key, key ∈ s.held.pressedKeys ↔ ∃ device, held w.log device (.key key) = true) ∧
      ∀ button, button ∈ s.held.pressedButtons ↔ ∃ device, held w.log device (.button button) = true := by
  have hvalid := valid_of_reaches h
  refine ⟨fun captured time => ?_, hvalid.merged, fun member => ?_, fun s hs => ⟨fun key => ?_, fun button => ?_⟩⟩
  · unfold Outgoing.capture
    rw [Act.bind_apply, Act.read_apply]
    cases hs : w.outgoing.sender with
    | none =>
      intro herror
      dsimp only at herror
      rw [hs] at herror
      cases herror
    | some s =>
      obtain ⟨-, -, hlegal, -⟩ := hvalid.merge captured.devicePath
        (captured.frame.forTarget setup.takesContacts).transitions
      intro herror
      dsimp only at herror
      rw [hs] at herror
      change (sendCapture sends setup.negotiated (captured.frame.forTarget setup.takesContacts)
        (w.outgoing.merger.merge captured.devicePath (captured.frame.forTarget setup.takesContacts).transitions).1
        (max time s.lastObservedTime) ⟨s, w.outgoing.sent⟩).1 = _ at herror
      exact (sends_capture sends setup.negotiated (captured.frame.forTarget setup.takesContacts)
        hlegal).error (hvalid.ready hs time) (Prod.ext herror rfl) rfl
  · rw [hvalid.merged]
    exact alternates_changes w.log member
  · rw [← Std.ExtTreeSet.contains_iff_mem, (hvalid.sender s hs).2.keys, heldByAny_iff]
  · rw [← Std.ExtTreeSet.contains_iff_mem, (hvalid.sender s hs).2.buttons, heldByAny_iff]

/-- Two devices press one key, one of them twice, and one lets go, of another key too. -/
def oneKeyHeldTwice : List (OutgoingCall Nat) :=
  let frame (device : Nat) (transitions : List CaptureTransition) : OutgoingCall Nat :=
    .capture ⟨device, ⟨transitions, 0, none, none⟩, 0⟩ 0
  [.beginOutbound ⟨1, 1, 1⟩ 0, frame 0 [.key ⟨7, 4⟩ .pressed, .key ⟨7, 4⟩ .repeat, .key ⟨7, 4⟩ .pressed],
    frame 1 [.key ⟨7, 4⟩ .pressed], frame 0 [.key ⟨7, 4⟩ .released, .key ⟨7, 5⟩ .released]]

def keyboardOnly : Setup where
  config := ⟨.fromMillis 250, .fromMillis 900⟩
  negotiated := ⟨1200, ∅, none, ⟨false, false, false, false, false, false⟩, 0, 900, 250⟩
  takesContacts := false

theorem merged_capture_valid_held : ∃ w,
    System.Reaches (step (P := Nat) (fun _ => .ok ()) keyboardOnly) (fun _ _ => True) start w ∧
    (∃ s, w.outgoing.sender = some s ∧ s.held.pressedKeys.contains ⟨7, 4⟩ = true) ∧
    Alternates true ((w.merged.filter (·.1 = .key ⟨7, 4⟩)).map (·.2)) := by
  have hrun : ((System.guarded (step (fun _ => .ok ()) keyboardOnly) fun _ _ => True).exec
      oneKeyHeldTwice start).any (fun w => w.outgoing.sender.any fun s =>
        s.held.pressedKeys.contains ⟨7, 4⟩) = true := by
    decide +kernel
  obtain ⟨w, hreaches, hw⟩ := System.exists_reaches_of_exec hrun
  obtain ⟨s, hs, hheld⟩ := Option.any_eq_true _ _ |>.mp hw
  exact ⟨w, hreaches, ⟨s, hs, hheld⟩, (merged_capture_valid hreaches).2.2.1 (.key ⟨7, 4⟩)⟩

end Scripted

end send

end Zflow.Session
