import Zflow.Laws.Core.Receiver
import Zflow.Lib.Replay
import Zflow.Session.Capture

/-!
# What a sender may say

`Transcript` is the contract between the two ends of a connection, stated over everything a sender has sent,
control messages and motion frames, in the order in which it was sent: a machine that follows the log, and
admits an entry only where the activation stands so that it can come next. Nothing here is translated from the
source. That the sender keeps the contract is shown in `Spoken`. What a receiver may rely on is shown here of
every legal log, in whatever order its entries arrive: a number of the motion names one place where the sender
was (`travelled_unique`), and a number of the control stream one set of keys and buttons that it held
(`held_of_control`).
-/

namespace Zflow.Session

open Zflow.Core Lib

/-- What has been said of the open activation. -/
structure Leg where
  session : SessionContext
  control : ControlSequence
  motion : MotionSequence
  totals : CumulativeMotion
  held : HeldState
  /-- The time of the last motion. -/
  captured : MonotonicTimeMicros

namespace Leg

def opened (session : SessionContext) : Leg := ⟨session, 1, 0, .zero, .neutral, 0⟩

/-- A control message that stays within the activation. -/
def follow (leg : Leg) (message : ReliableControlMessage) : Leg :=
  { leg with
    control := message.sequence
    held := Receiver.heldAfter leg.held message.payload }

def move (leg : Leg) (frame : MotionFrame) : Leg :=
  { leg with
    motion := frame.motionSequence
    totals := frame.totals
    held := Receiver.touchAfter leg.held frame.touchSnapshot
    captured := frame.senderCaptureTime }

/-- What is held lets the payload come next. -/
def Allows (held : HeldState) : ReliableControl → Prop
  | .keyDown key => held.pressedKeys.contains key = false
  | .keyUp key => held.pressedKeys.contains key = true
  | .buttonDown button anchor =>
    held.pressedButtons.contains button = false ∧ anchor.kind = .checkpoint
  | .buttonUp button anchor =>
    held.pressedButtons.contains button = true ∧ anchor.kind = .checkpoint
  | .touchBegin initialState => held.activeTouch = ∅ ∧ initialState ≠ ∅
  | .touchEnd anchor | .touchCancel anchor => held.activeTouch ≠ ∅ ∧ anchor.kind = .checkpoint
  | .stateSnapshot snapshot => snapshot.held = held ∧ snapshot.motionAnchor.kind = .checkpoint
  | .sessionClose _ final => ∀ anchor, final = some anchor → anchor.kind = .terminal
  | .enter | .snapshotAck _ => False

/-- The anchor is where the activation stands. -/
structure Anchors (leg : Leg) (anchor : MotionAnchor) : Prop where
  activation : anchor.activationId = leg.session.activationId
  through : anchor.throughMotionSequence = leg.motion
  totals : anchor.totals = leg.totals
  touch : anchor.finalTouchState = leg.held.activeTouch

/-- The message is the next of the activation's stream. -/
structure Speaks (leg : Leg) (message : ReliableControlMessage) : Prop where
  session : message.session = leg.session
  next : message.sequence = leg.control + 1
  bounded : message.sequence ≤ u64Max
  allowed : Allows leg.held message.payload
  anchored : ∀ anchor, message.payload.motionAnchor = some anchor → leg.Anchors anchor

/-- The frame is the next of the activation's motion. -/
structure Moves (leg : Leg) (frame : MotionFrame) : Prop where
  session : frame.session = leg.session
  next : frame.motionSequence = leg.motion + 1
  watermark : frame.controlWatermark = leg.control
  later : leg.captured ≤ frame.senderCaptureTime
  touch : ∀ touch, frame.touchSnapshot = some touch → touch ≠ ∅ ∧ leg.held.activeTouch ≠ ∅

end Leg

def Sent.session : Sent → SessionContext
  | .control message => message.session
  | .motion frame => frame.session

/-- Where a reader of the log is. -/
structure Transcript where
  highest : Option ActivationId
  leg : Option Leg

namespace Transcript

def start : Transcript := ⟨none, none⟩

def apply (t : Transcript) : Sent → Transcript
  | .control message =>
    match message.payload with
    | .enter => ⟨some message.session.activationId, some (.opened message.session)⟩
    | .sessionClose .. => { t with leg := none }
    | _ => { t with leg := t.leg.map (·.follow message) }
  | .motion frame => { t with leg := t.leg.map (·.move frame) }

/-- What may come next, on a connection of one epoch and generation. -/
inductive Admits (context : SessionEpoch × TransportGeneration) (t : Transcript) : Sent → Prop
  | enter (message : ReliableControlMessage) (payload : message.payload = .enter)
      (idle : t.leg = none) (same : Receiver.contextOf message.session = context)
      (first : message.sequence = 1)
      (fresh : ∀ highest, t.highest = some highest → highest < message.session.activationId) :
      Admits context t (.control message)
  | speak (leg : Leg) (message : ReliableControlMessage) (current : t.leg = some leg)
      (speaks : leg.Speaks message) : Admits context t (.control message)
  | move (leg : Leg) (frame : MotionFrame) (current : t.leg = some leg) (moves : leg.Moves frame) :
      Admits context t (.motion frame)

/-- **The contract.** -/
def machine (context : SessionEpoch × TransportGeneration) : Replay Transcript Sent :=
  ⟨apply, Admits context⟩

variable {context : SessionEpoch × TransportGeneration} {t : Transcript}

theorem apply_enter {message : ReliableControlMessage} (h : message.payload = .enter) :
    t.apply (.control message) = ⟨some message.session.activationId, some (.opened message.session)⟩ := by
  unfold apply
  simp only [h]

/-- A message of the stream closes the activation, or moves it on. -/
theorem apply_speak {leg : Leg} {message : ReliableControlMessage} (hleg : t.leg = some leg)
    (hspeaks : leg.Speaks message) : (∃ reason final, message.payload = .sessionClose reason final ∧
      t.apply (.control message) = { t with leg := none }) ∨
    ((∀ reason final, message.payload ≠ .sessionClose reason final) ∧
      t.apply (.control message) = { t with leg := some (leg.follow message) }) := by
  have hallowed := hspeaks.allowed
  unfold apply
  cases hpayload : message.payload with
  | enter =>
    rw [hpayload] at hallowed
    exact hallowed.elim
  | sessionClose reason final => exact .inl ⟨reason, final, rfl, by simp only [hpayload]⟩
  | _ =>
    right
    simp [hleg, hpayload]

theorem apply_move {leg : Leg} {frame : MotionFrame} (hleg : t.leg = some leg) :
    t.apply (.motion frame) = { t with leg := some (leg.move frame) } := by
  simp [apply, hleg]

/-- The open activation is the highest of the connection. -/
def Sane (context : SessionEpoch × TransportGeneration) (t : Transcript) : Prop :=
  ∀ leg, t.leg = some leg →
    t.highest = some leg.session.activationId ∧ Receiver.contextOf leg.session = context

theorem sane_start : start.Sane context := by
  intro leg h
  cases h

theorem Sane.apply {e : Sent} (h : t.Sane context) (hadmits : Admits context t e) : (t.apply e).Sane context := by
  cases hadmits with
  | enter message payload idle same =>
    rw [apply_enter payload]
    rintro leg ⟨⟩
    exact ⟨rfl, same⟩
  | speak leg message current speaks =>
    rcases apply_speak current speaks with ⟨_, _, -, happly⟩ | ⟨-, happly⟩ <;> rw [happly]
    · rintro _ ⟨⟩
    · rintro _ ⟨⟩
      exact h leg current
  | move leg frame current =>
    rw [apply_move current]
    rintro _ ⟨⟩
    exact h leg current

theorem Sane.run {log : List Sent} (h : t.Sane context) (hlegal : (machine context).Legal t log) :
    ((machine context).run t log).Sane context := by
  induction log generalizing t with
  | nil => exact h
  | cons e rest ih => exact ih (h.apply hlegal.1) hlegal.2

/-! ## Activations -/

/-- What was said is of the highest activation, or of an earlier one. -/
theorem le_of_mem {log : List Sent} {e : Sent} (hlegal : (machine context).Legal start log) (hmem : e ∈ log) :
    ∃ highest, ((machine context).run start log).highest = some highest ∧
      e.session.activationId ≤ highest := by
  induction log using List.reverseRecOn with
  | nil => cases hmem
  | append_singleton log last ih =>
    obtain ⟨hlog, hadmits, -⟩ := (Replay.legal_append _ _ _ _).mp hlegal
    have hsane := sane_start.run hlog
    rw [Replay.run_append]
    show ∃ highest, (((machine context).run start log).apply last).highest = some highest ∧ _
    generalize (machine context).run start log = t at hadmits hsane ih
    -- the highest one does not change, and is that of the last entry
    have hsame : ∀ {leg : Leg}, t.leg = some leg → last.session = leg.session → (t.apply last).highest = t.highest →
        ∃ highest, (t.apply last).highest = some highest ∧ e.session.activationId ≤ highest := by
      intro leg hleg hsession hsame
      obtain ⟨htop, -⟩ := hsane leg hleg
      rw [hsame, htop]
      refine ⟨_, rfl, ?_⟩
      rcases List.mem_append.mp hmem with hmem | hmem
      · obtain ⟨highest, hhighest, hle⟩ := ih hlog hmem
        rw [Option.some.inj (htop.symm.trans hhighest)]
        exact hle
      · rw [List.mem_singleton.mp hmem, hsession]
    cases hadmits with
    | enter message payload idle same _ fresh =>
      rw [apply_enter payload]
      refine ⟨_, rfl, ?_⟩
      rcases List.mem_append.mp hmem with hmem | hmem
      · obtain ⟨highest, hhighest, hle⟩ := ih hlog hmem
        exact hle.trans (fresh highest hhighest).le
      · rw [List.mem_singleton.mp hmem]
        exact Nat.le_refl _
    | speak leg message current speaks =>
      refine hsame current speaks.session ?_
      rcases apply_speak current speaks with ⟨_, _, -, happly⟩ | ⟨-, happly⟩ <;> rw [happly]
    | move leg frame current moves =>
      refine hsame current moves.session ?_
      rw [apply_move current]

/-- The highest activation is that of something that was said. -/
theorem exists_highest {log : List Sent} {highest : ActivationId} (hlegal : (machine context).Legal start log)
    (hhighest : ((machine context).run start log).highest = some highest) :
    ∃ e ∈ log, e.session.activationId = highest := by
  induction log using List.reverseRecOn with
  | nil => cases hhighest
  | append_singleton log last ih =>
    obtain ⟨hlog, hadmits, -⟩ := (Replay.legal_append _ _ _ _).mp hlegal
    rw [Replay.run_append] at hhighest
    replace hhighest : (((machine context).run start log).apply last).highest = some highest := hhighest
    have hold : ((machine context).run start log).highest = some highest →
        ∃ e ∈ log ++ [last], e.session.activationId = highest := fun h => by
      obtain ⟨e, hmem, heq⟩ := ih hlog h
      exact ⟨e, List.mem_append_left _ hmem, heq⟩
    generalize (machine context).run start log = t at hadmits hhighest hold
    cases hadmits with
    | enter message payload =>
      rw [apply_enter payload] at hhighest
      cases hhighest
      exact ⟨_, List.mem_append_right _ (List.mem_singleton_self _), rfl⟩
    | speak leg message current speaks =>
      rcases apply_speak current speaks with ⟨_, _, -, happly⟩ | ⟨-, happly⟩ <;> rw [happly] at hhighest <;>
        exact hold hhighest
    | move leg frame current =>
      rw [apply_move current] at hhighest
      exact hold hhighest

end Transcript

/-! ## What a number names -/

/-- How far the sender had moved at that number of its motion. -/
def Travelled (log : List Sent) (session : SessionContext) (sequence : MotionSequence)
    (totals : CumulativeMotion) : Prop :=
  (sequence = 0 ∧ totals = .zero) ∨ ∃ frame, .motion frame ∈ log ∧ frame.session = session ∧
    frame.motionSequence = sequence ∧ frame.totals = totals

theorem Travelled.more {log log' : List Sent} {session : SessionContext} {sequence : MotionSequence}
    {totals : CumulativeMotion} (h : Travelled log session sequence totals) (hmore : ∀ e ∈ log, e ∈ log') :
    Travelled log' session sequence totals := by
  refine h.imp_right fun hframe => ?_
  obtain ⟨frame, hmem, hrest⟩ := hframe
  exact ⟨frame, hmore _ hmem, hrest⟩

/-- The same keys and buttons are held, and a touch here where there is one there. -/
structure HeldAlike (held held' : HeldState) : Prop where
  keys : held'.pressedKeys = held.pressedKeys
  buttons : held'.pressedButtons = held.pressedButtons
  touch : held'.activeTouch = ∅ ↔ held.activeTouch = ∅

namespace HeldAlike

variable {held held' held'' : HeldState}

theorem refl (held : HeldState) : HeldAlike held held := ⟨rfl, rfl, .rfl⟩

theorem symm (h : HeldAlike held held') : HeldAlike held' held := ⟨h.keys.symm, h.buttons.symm, h.touch.symm⟩

theorem trans (h : HeldAlike held held') (h' : HeldAlike held' held'') : HeldAlike held held'' :=
  ⟨h'.keys.trans h.keys, h'.buttons.trans h.buttons, h'.touch.trans h.touch⟩

/-- A touch snapshot replaces a touch that there is, and begins none. -/
theorem touchAfter {snapshot : Option TouchState}
    (h : ∀ touch, snapshot = some touch → touch ≠ ∅ ∧ held.activeTouch ≠ ∅) :
    HeldAlike held (Receiver.touchAfter held snapshot) := by
  unfold Receiver.touchAfter
  cases snapshot with
  | none => exact refl held
  | some touch =>
    obtain ⟨hnew, hold⟩ := h touch rfl
    exact ⟨rfl, rfl, iff_of_false hnew hold⟩

end HeldAlike

namespace Transcript

variable {context : SessionEpoch × TransportGeneration} {t : Transcript} {leg : Leg}

/-! ## Motion -/

/-- The frames of the open activation are behind its motion. -/
theorem motion_of_mem {log : List Sent} {frame : MotionFrame}
    (hlegal : (machine context).Legal start log) (hmem : .motion frame ∈ log)
    (hleg : ((machine context).run start log).leg = some leg) (hsession : frame.session = leg.session) :
    frame.motionSequence ≤ leg.motion := by
  induction log using List.reverseRecOn generalizing leg with
  | nil => cases hmem
  | append_singleton log last ih =>
    obtain ⟨hlog, hadmits, -⟩ := (Replay.legal_append _ _ _ _).mp hlegal
    have hold := le_of_mem (e := .motion frame) hlog
    rw [Replay.run_append] at hleg
    replace hleg : (((machine context).run start log).apply last).leg = some leg := hleg
    generalize (machine context).run start log = t at hadmits ih hleg hold
    cases hadmits with
    | enter message payload idle _ _ fresh =>
      rw [apply_enter payload] at hleg
      cases hleg
      -- a frame of the activation that is only now opened is of an earlier one
      rcases List.mem_append.mp hmem with hmem | hmem
      · obtain ⟨highest, hhighest, hle⟩ := hold hmem
        have hlt := hle.trans_lt (fresh highest hhighest)
        rw [show (Sent.motion frame).session = message.session from hsession] at hlt
        exact absurd hlt (Nat.lt_irrefl _)
      · cases List.mem_singleton.mp hmem
    | speak before message current speaks =>
      have hmem : .motion frame ∈ log := by
        rcases List.mem_append.mp hmem with hmem | hmem
        · exact hmem
        · cases List.mem_singleton.mp hmem
      rcases apply_speak current speaks with ⟨_, _, -, happly⟩ | ⟨-, happly⟩ <;> rw [happly] at hleg <;>
        cases hleg
      have hle := ih hlog hmem current hsession
      exact hle
    | move before last current moves =>
      rw [apply_move current] at hleg
      cases hleg
      show frame.motionSequence ≤ last.motionSequence
      rcases List.mem_append.mp hmem with hmem | hmem
      · rw [moves.next]
        exact Nat.le_succ_of_le (ih hlog hmem current hsession)
      · cases List.mem_singleton.mp hmem
        exact Nat.le_refl _

/-- **A number names one frame** of an activation. -/
theorem frame_unique {log : List Sent} {frame other : MotionFrame}
    (hlegal : (machine context).Legal start log) (hframe : .motion frame ∈ log)
    (hother : .motion other ∈ log) (hsession : other.session = frame.session)
    (hnumber : other.motionSequence = frame.motionSequence) : other = frame := by
  induction log using List.reverseRecOn with
  | nil => cases hframe
  | append_singleton log last ih =>
    obtain ⟨hlog, hadmits, -⟩ := (Replay.legal_append _ _ _ _).mp hlegal
    -- the last frame is numbered past those before it
    have hlast : ∀ {f g : MotionFrame}, .motion f ∈ log → .motion g = last → f.session = g.session →
        f.motionSequence ≠ g.motionSequence := by
      intro f g hmem heq hsame
      subst heq
      cases hadmits with
      | move leg _ current moves =>
        have hle := motion_of_mem hlog hmem current (hsame.trans moves.session)
        rw [moves.next]
        exact (Nat.lt_succ_of_le hle).ne
    rcases List.mem_append.mp hframe with hf | hf <;> rcases List.mem_append.mp hother with ho | ho
    · exact ih hlog hf ho
    · exact absurd hnumber.symm (hlast hf (List.mem_singleton.mp ho) hsession.symm)
    · exact absurd hnumber (hlast ho (List.mem_singleton.mp hf) hsession)
    · exact Sent.motion.inj ((List.mem_singleton.mp ho).trans (List.mem_singleton.mp hf).symm)

/-- The touch of a frame is one that has begun. -/
theorem touch_of_mem {log : List Sent} {frame : MotionFrame} {touch : TouchState}
    (hlegal : (machine context).Legal start log) (hmem : .motion frame ∈ log)
    (htouch : frame.touchSnapshot = some touch) : touch ≠ ∅ := by
  obtain ⟨before, rest, rfl⟩ := List.append_of_mem hmem
  obtain ⟨-, hadmits, -⟩ := (Replay.legal_append _ _ _ _).mp hlegal
  cases hadmits with
  | move leg _ current moves => exact (moves.touch touch htouch).1

/-- The leg has moved as far as its frames say. -/
theorem travelled_of_run {log : List Sent} (hlegal : (machine context).Legal start log)
    (hleg : ((machine context).run start log).leg = some leg) :
    Travelled log leg.session leg.motion leg.totals := by
  induction log using List.reverseRecOn generalizing leg with
  | nil => cases hleg
  | append_singleton log last ih =>
    obtain ⟨hlog, hadmits, -⟩ := (Replay.legal_append _ _ _ _).mp hlegal
    rw [Replay.run_append] at hleg
    replace hleg : (((machine context).run start log).apply last).leg = some leg := hleg
    have hmore : ∀ e ∈ log, e ∈ log ++ [last] := fun _ => List.mem_append_left _
    generalize (machine context).run start log = t at hadmits ih hleg
    cases hadmits with
    | enter message payload =>
      rw [apply_enter payload] at hleg
      cases hleg
      exact .inl ⟨rfl, rfl⟩
    | speak before message current speaks =>
      rcases apply_speak current speaks with ⟨_, _, -, happly⟩ | ⟨-, happly⟩ <;> rw [happly] at hleg <;>
        cases hleg
      exact (ih hlog current).more hmore
    | move before frame current moves =>
      rw [apply_move current] at hleg
      cases hleg
      exact .inr ⟨frame, List.mem_append_right _ (List.mem_singleton_self _), moves.session, rfl, rfl⟩

/-- Motion is numbered from one. -/
theorem motion_pos {log : List Sent} {frame : MotionFrame} (hlegal : (machine context).Legal start log)
    (hmem : .motion frame ∈ log) : frame.motionSequence ≠ 0 := by
  obtain ⟨before, rest, rfl⟩ := List.append_of_mem hmem
  obtain ⟨-, hadmits, -⟩ := (Replay.legal_append _ _ _ _).mp hlegal
  cases hadmits with
  | move leg _ current moves =>
    rw [moves.next]
    exact Nat.succ_ne_zero _

/-- **The sender was at one place at each number.** -/
theorem travelled_unique {log : List Sent} {session : SessionContext} {sequence : MotionSequence}
    {totals totals' : CumulativeMotion} (hlegal : (machine context).Legal start log)
    (h : Travelled log session sequence totals) (h' : Travelled log session sequence totals') :
    totals = totals' := by
  rcases h with ⟨rfl, rfl⟩ | ⟨frame, hmem, hsession, rfl, rfl⟩
  · rcases h' with ⟨-, rfl⟩ | ⟨other, hother, -, hnumber, -⟩
    · rfl
    · exact absurd hnumber (motion_pos hlegal hother)
  · rcases h' with ⟨hnumber, -⟩ | ⟨other, hother, hsession', hnumber, rfl⟩
    · exact absurd hnumber (motion_pos hlegal hmem)
    · rw [frame_unique hlegal hmem hother (hsession'.trans hsession.symm) hnumber]

/-! ## What is held -/

/-- An activation that was open is the highest there is, or an earlier one. -/
theorem le_of_leg {log before : List Sent} (hlegal : (machine context).Legal start log) (hbefore : before <+: log)
    (hleg : ((machine context).run start before).leg = some leg) :
    ∃ highest, ((machine context).run start log).highest = some highest ∧ leg.session.activationId ≤ highest := by
  have hown : (machine context).Legal start before := by
    obtain ⟨rest, rfl⟩ := hbefore
    exact ((Replay.legal_append _ _ _ _).mp hlegal).1
  obtain ⟨htop, -⟩ := sane_start.run hown leg hleg
  obtain ⟨e, hmem, hid⟩ := exists_highest hown htop
  obtain ⟨highest, hhighest, hle⟩ := le_of_mem hlegal (hbefore.subset hmem)
  exact ⟨highest, hhighest, hid ▸ hle⟩

/-- The control numbers of an activation go up, and between two of them the same is held. -/
theorem alike_of_leg {log before : List Sent} {own : Leg} (hlegal : (machine context).Legal start log)
    (hbefore : before <+: log) (hown : ((machine context).run start before).leg = some own)
    (hleg : ((machine context).run start log).leg = some leg) (hsession : own.session = leg.session) :
    own.control ≤ leg.control ∧ (own.control = leg.control → HeldAlike own.held leg.held) := by
  induction log using List.reverseRecOn generalizing leg with
  | nil => cases hleg
  | append_singleton log last ih =>
    rcases List.prefix_concat_iff.mp hbefore with rfl | hwithin
    · cases hown.symm.trans hleg
      exact ⟨Nat.le_refl _, fun _ => .refl _⟩
    obtain ⟨hlog, hadmits, -⟩ := (Replay.legal_append _ _ _ _).mp hlegal
    have htop := le_of_leg hlog hwithin hown
    rw [Replay.run_append] at hleg
    replace hleg : (((machine context).run start log).apply last).leg = some leg := hleg
    generalize (machine context).run start log = t at hadmits ih hleg htop
    cases hadmits with
    | enter message payload idle _ _ fresh =>
      rw [apply_enter payload] at hleg
      cases hleg
      obtain ⟨highest, hhighest, hle⟩ := htop
      have hlt := hle.trans_lt (fresh highest hhighest)
      rw [show own.session = message.session from hsession] at hlt
      exact absurd hlt (Nat.lt_irrefl _)
    | speak latest message current speaks =>
      rcases apply_speak current speaks with ⟨_, _, -, happly⟩ | ⟨-, happly⟩ <;> rw [happly] at hleg <;>
        cases hleg
      have hlt : own.control < message.sequence := by
        rw [speaks.next]
        exact Nat.lt_succ_of_le (ih hlog hwithin current hsession).1
      exact ⟨hlt.le, fun heq => absurd heq hlt.ne⟩
    | move latest frame current moves =>
      rw [apply_move current] at hleg
      cases hleg
      obtain ⟨hle, halike⟩ := ih hlog hwithin current hsession
      exact ⟨hle, fun heq => (halike heq).trans (.touchAfter moves.touch)⟩

/-- **A control number names what is held**: wherever the log has the activation at that number, the same keys and
buttons are held, and a touch or none. -/
theorem held_of_control {log before before' : List Sent} {own : Leg} (hlegal : (machine context).Legal start log)
    (hbefore : before <+: log) (hbefore' : before' <+: log)
    (hown : ((machine context).run start before).leg = some own)
    (hleg : ((machine context).run start before').leg = some leg) (hsession : own.session = leg.session)
    (hcontrol : own.control = leg.control) : HeldAlike own.held leg.held := by
  have hpart : ∀ {part : List Sent}, part <+: log → (machine context).Legal start part := fun h => by
    obtain ⟨rest, rfl⟩ := h
    exact ((Replay.legal_append _ _ _ _).mp hlegal).1
  rcases List.prefix_or_prefix_of_prefix hbefore hbefore' with h | h
  · exact (alike_of_leg (hpart hbefore') h hown hleg hsession).2 hcontrol
  · exact ((alike_of_leg (hpart hbefore) h hleg hown hsession.symm).2 hcontrol.symm).symm

end Transcript

end Zflow.Session
