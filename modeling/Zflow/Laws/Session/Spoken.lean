import Zflow.Laws.Session.Capture
import Zflow.Laws.Session.Transcript

/-!
# The sender keeps the contract

Every message the outbound half of a session sends can come next after what it sent before
(`sent_is_legal`): the log it leaves is legal for `Transcript`, and where it stands is where the sender
stands (`Tells`). Each method of the sender is shown to say what its activation allows, once; what the
session makes of a captured frame is then a sequence of them.
-/

namespace Zflow.Session

open Zflow.Core Lib

/-- The sender stands where its log does. -/
structure Tells (leg : Leg) (s : Sender) : Prop where
  session : leg.session = s.session
  control : leg.control = s.lastControlSequence
  motion : leg.motion = s.lastMotionSequence
  totals : leg.totals = s.totals
  held : leg.held = s.held
  captured : leg.captured ≤ s.lastObservedTime

/-- The message stays within the activation, and the sender goes on from it. -/
structure Goes (leg : Leg) (message : ReliableControlMessage) (s' : Sender) : Prop where
  speaks : leg.Speaks message
  stays : ∀ reason final, message.payload ≠ .sessionClose reason final
  tells : Tells (leg.follow message) s'

/-- What the method sends can come next. -/
def Says (x : Act SenderError Sender ReliableControlMessage) : Prop :=
  ∀ s s' message leg, Tells leg s → x s = (.ok message, s') → Goes leg message s'

/-! ## The methods of the sender -/

theorem observeTime_ok {now : MonotonicTimeMicros} {s s' : Sender} (h : Sender.observeTime now s = (.ok (), s')) :
    s.lastObservedTime ≤ now ∧ s' = { s with lastObservedTime := now } := by
  unfold Sender.observeTime at h
  split at h
  · cases h
  · rename_i hle
    cases h
    exact ⟨Nat.le_of_not_lt hle, rfl⟩

/-- Every method first looks whether it may run, and notes the time. -/
theorem remoteTime_ok {now : MonotonicTimeMicros} {α : Type} {f : Act SenderError Sender α} {s s' : Sender}
    {a : α} (h : (do Sender.requireRemote; Sender.observeTime now; f) s = (.ok a, s')) :
    s.remote = true ∧ s.lastObservedTime ≤ now ∧ f { s with lastObservedTime := now } = (.ok a, s') := by
  obtain ⟨_, s₁, hrequire, hrest⟩ := Act.bind_eq_ok.mp h
  obtain ⟨hremote, hs₁⟩ := Sender.requireRemote_eq_ok hrequire
  subst hs₁
  obtain ⟨_, s₂, hobserve, hrest⟩ := Act.bind_eq_ok.mp hrest
  obtain ⟨hle, hs₂⟩ := observeTime_ok hobserve
  subst hs₂
  exact ⟨hremote, hle, hrest⟩

theorem beforeControl_ok {now : MonotonicTimeMicros} {s s' : Sender} (h : Sender.beforeControl now s = (.ok (), s')) :
    s.lastObservedTime ≤ now ∧ s' = { s with lastObservedTime := now } := by
  obtain ⟨_, s₁, hrequire, hobserve⟩ := Act.bind_eq_ok.mp h
  obtain ⟨-, hs₁⟩ := Sender.requireRemote_eq_ok hrequire
  subst hs₁
  exact observeTime_ok hobserve

/-- A numbered payload. -/
theorem control_ok {payload : ReliableControl} {s s' : Sender} {message : ReliableControlMessage}
    (h : Sender.control payload s = (.ok message, s')) :
    message = ⟨s.session, s.lastControlSequence + 1, payload⟩ ∧ s.lastControlSequence + 1 ≤ u64Max ∧
      s' = { s with lastControlSequence := s.lastControlSequence + 1 } := by
  rw [Sender.control_apply] at h
  split at h
  · rename_i next hnext
    obtain ⟨rfl, hbounded⟩ := checkedAddU64_eq_some.mp hnext
    cases h
    exact ⟨rfl, hbounded, rfl⟩
  · cases h

theorem Tells.observed {leg : Leg} {s : Sender} {now : MonotonicTimeMicros} (h : Tells leg s)
    (hle : s.lastObservedTime ≤ now) : Tells leg { s with lastObservedTime := now } :=
  ⟨h.session, h.control, h.motion, h.totals, h.held, h.captured.trans hle⟩

/-- An anchor is made where the activation stands. -/
theorem Tells.anchors {leg : Leg} {s : Sender} (h : Tells leg s) (now : MonotonicTimeMicros)
    (kind : AnchorKind) : leg.Anchors (s.anchor now kind) where
  activation := by
    rw [h.session]
    rfl
  through := h.motion.symm
  totals := h.totals.symm
  touch := by
    rw [h.held]
    rfl

/-- A payload that what is held allows, with an anchor made here, is the next message. -/
theorem Tells.speaks {leg : Leg} {s : Sender} {payload : ReliableControl} (h : Tells leg s)
    (now : MonotonicTimeMicros) (kind : AnchorKind) (hbounded : s.lastControlSequence + 1 ≤ u64Max)
    (hallowed : Leg.Allows s.held payload)
    (hanchor : ∀ anchor, payload.motionAnchor = some anchor → anchor = s.anchor now kind) :
    leg.Speaks ⟨s.session, s.lastControlSequence + 1, payload⟩ where
  session := h.session.symm
  next := congrArg (· + 1) h.control.symm
  bounded := hbounded
  allowed := h.held ▸ hallowed
  anchored anchor hsome := hanchor anchor hsome ▸ h.anchors now kind

/-- **A message that changes what is held**, where what is held allows it. -/
theorem says_hold {now : MonotonicTimeMicros} {refused : Sender → Bool} {held : Sender → HeldState}
    {payload : Sender → ReliableControl} (h : ∀ s, refused s = false → Leg.Allows s.held (payload s) ∧
      Receiver.heldAfter s.held (payload s) = held s ∧
      ((payload s).motionAnchor = none ∨ (payload s).motionAnchor = some (s.anchor now .checkpoint)) ∧
      ∀ reason final, payload s ≠ .sessionClose reason final) :
    Says (do
      Sender.beforeControl now
      let s ← .read
      if refused s then .fail .invalidTransition
      else
        .change fun s => { s with held := held s }
        Sender.control (payload s)) := by
  intro s s' message leg htells hrun
  obtain ⟨_, s₁, hbefore, hrun⟩ := Act.bind_eq_ok.mp hrun
  obtain ⟨hle, rfl⟩ := beforeControl_ok hbefore
  rw [Act.bind_of_ok (Act.read_apply _)] at hrun
  have hnoted := htells.observed hle
  generalize ({ s with lastObservedTime := now } : Sender) = t at hrun hnoted
  by_cases hrefused : refused t = true
  · rw [if_pos hrefused] at hrun
    cases hrun
  rw [if_neg hrefused] at hrun
  obtain ⟨hallowed, hafter, hanchor, hstays⟩ := h t (Bool.eq_false_of_not_eq_true hrefused)
  obtain ⟨_, t₁, hchange, hcontrol⟩ := Act.bind_eq_ok.mp hrun
  cases hchange
  obtain ⟨rfl, hbounded, rfl⟩ := control_ok hcontrol
  have hspeaks : leg.Speaks ⟨t.session, t.lastControlSequence + 1, payload t⟩ := by
    refine hnoted.speaks now .checkpoint hbounded hallowed fun anchor hsome => ?_
    rcases hanchor with hnone | hmade
    · exact absurd (hnone.symm.trans hsome) (by simp)
    · exact Option.some.inj (hsome.symm.trans hmade)
  refine ⟨hspeaks, hstays, hnoted.session, rfl, hnoted.motion, hnoted.totals, ?_, hnoted.captured⟩
  show Receiver.heldAfter leg.held (payload t) = held t
  rw [hnoted.held, hafter]

theorem says_press (now : MonotonicTimeMicros) (change : CaptureMember × Bool) : Says (press now change) := by
  obtain ⟨member, pressed⟩ := change
  cases member with
  | key usage =>
    cases pressed with
    | true => exact says_hold fun s hs => ⟨hs, rfl, .inl rfl, by simp⟩
    | false => exact says_hold fun s hs => ⟨by simpa [Leg.Allows] using hs, rfl, .inl rfl, by simp⟩
  | button button =>
    cases pressed with
    | true => exact says_hold fun s hs => ⟨⟨hs, rfl⟩, rfl, .inr rfl, by simp⟩
    | false => exact says_hold fun s hs => ⟨⟨by simpa using hs, rfl⟩, rfl, .inr rfl, by simp⟩

theorem says_touchBegin (touch : TouchState) (now : MonotonicTimeMicros) : Says (Sender.touchBegin touch now) := by
  refine says_hold fun s hs => ⟨?_, rfl, .inl rfl, by simp⟩
  obtain ⟨hactive, htouch⟩ := Bool.or_eq_false_iff.mp hs
  exact ⟨by simpa using hactive, by simpa using htouch⟩

theorem says_touchEnd (now : MonotonicTimeMicros) : Says (Sender.touchEnd false now) := by
  refine says_hold fun s hs => ⟨⟨?_, rfl⟩, rfl, .inr rfl, by simp⟩
  simpa using hs

/-- **Captured motion** is next, and its touch is one that has begun. -/
theorem captureMotion_moves {delta : MotionDelta} {touch : Option TouchState} {now : MonotonicTimeMicros}
    {s s' : Sender} {frame : MotionFrame} {leg : Leg} (htells : Tells leg s)
    (htouch : ∀ t, touch = some t → t ≠ ∅ ∧ s.held.activeTouch ≠ ∅)
    (h : Sender.captureMotion delta touch now s = (.ok frame, s')) :
    leg.Moves frame ∧ Tells (leg.move frame) s' := by
  obtain ⟨-, hle, hrun⟩ := remoteTime_ok h
  have hnoted := htells.observed hle
  rw [Act.bind_of_ok (Act.read_apply _)] at hrun
  dsimp only at hrun
  cases htotals : s.totals.checkedAdd delta with
  | error error =>
    rw [htotals] at hrun
    cases hrun
  | ok totals =>
    rw [htotals] at hrun
    obtain ⟨sequence, _, hlift, hrun⟩ := Act.bind_eq_ok.mp hrun
    obtain ⟨hnext, rfl⟩ := Act.lift_eq_ok.mp hlift
    obtain ⟨_, _, hchange, hreturn⟩ := Act.bind_eq_ok.mp hrun
    cases hchange
    cases hreturn
    have hsequence : sequence = s.lastMotionSequence + 1 := by
      unfold Sender.nextSequence at hnext
      split at hnext
      · rename_i next hsome
        cases hnext
        exact (checkedAddU64_eq_some.mp hsome).1.symm
      · cases hnext
    refine ⟨⟨htells.session.symm, ?_, htells.control.symm, htells.captured.trans hle, ?_⟩, ?_⟩
    · show sequence = leg.motion + 1
      rw [hsequence, htells.motion]
    · intro t ht
      rw [htells.held]
      exact htouch t ht
    · refine ⟨htells.session, htells.control, rfl, rfl, ?_, Nat.le_refl _⟩
      show Receiver.touchAfter leg.held touch = _
      rw [htells.held]
      cases touch <;> rfl

/-- The end of the activation. -/
theorem leave_ok {reason : SessionCloseReason} {now : MonotonicTimeMicros} {s s' : Sender}
    {message : ReliableControlMessage} {leg : Leg} (htells : Tells leg s)
    (h : Sender.leave reason now s = (.ok message, s')) :
    leg.Speaks message ∧ ∃ final, message.payload = .sessionClose reason final := by
  obtain ⟨_, s₁, hbefore, hrun⟩ := Act.bind_eq_ok.mp h
  obtain ⟨hle, rfl⟩ := beforeControl_ok hbefore
  rw [Act.bind_of_ok (Act.read_apply _)] at hrun
  have hnoted := htells.observed hle
  generalize ({ s with lastObservedTime := now } : Sender) = t at hrun hnoted
  obtain ⟨closing, t₁, hcontrol, hrun⟩ := Act.bind_eq_ok.mp hrun
  obtain ⟨rfl, hbounded, -⟩ := control_ok hcontrol
  obtain ⟨_, _, hchange, hreturn⟩ := Act.bind_eq_ok.mp hrun
  cases hreturn
  refine ⟨hnoted.speaks now .terminal hbounded ?_ ?_, _, rfl⟩
  · intro anchor hanchor
    cases hanchor
    rfl
  · intro anchor hanchor
    cases hanchor
    rfl

/-- What a tick that succeeds says. -/
inductive TickSays (leg : Leg) (s' : Sender) : SenderTick → Prop
  | idle (tells : Tells leg s') : TickSays leg s' .idle
  | checkpoint (message : ReliableControlMessage) (goes : Goes leg message s') :
      TickSays leg s' (.checkpoint message)
  | exit (reason : SenderExitReason) (message : ReliableControlMessage) (speaks : leg.Speaks message)
      (closes : ∃ reason final, message.payload = .sessionClose reason final) :
      TickSays leg s' (.exitRemote reason message)

theorem says_snapshot (now : MonotonicTimeMicros) : Says (Sender.snapshot now) := by
  intro s s' message leg htells hrun
  obtain ⟨-, hle, hrun⟩ := remoteTime_ok hrun
  have hnoted := htells.observed hle
  rw [Act.bind_of_ok (Act.read_apply _)] at hrun
  generalize ({ s with lastObservedTime := now } : Sender) = t at hrun hnoted
  split at hrun
  · cases hrun
  obtain ⟨numbered, t₁, hcontrol, hrun⟩ := Act.bind_eq_ok.mp hrun
  obtain ⟨rfl, hbounded, rfl⟩ := control_ok hcontrol
  obtain ⟨_, _, hchange, hreturn⟩ := Act.bind_eq_ok.mp hrun
  cases hchange
  cases hreturn
  refine ⟨hnoted.speaks now .checkpoint hbounded ⟨rfl, rfl⟩ ?_, by simp, ?_⟩
  · intro anchor hanchor
    cases hanchor
    rfl
  · exact ⟨hnoted.session, rfl, hnoted.motion, hnoted.totals, rfl, hnoted.captured⟩

theorem tick_says {now : MonotonicTimeMicros} {s s' : Sender} {answer : SenderTick} {leg : Leg}
    (htells : Tells leg s) (h : Sender.tick now s = (.ok answer, s')) : TickSays leg s' answer := by
  obtain ⟨-, hle, hrun⟩ := remoteTime_ok h
  have hnoted := htells.observed hle
  rw [Act.bind_of_ok (Act.read_apply _)] at hrun
  generalize ({ s with lastObservedTime := now } : Sender) = t at hrun hnoted
  split at hrun
  · obtain ⟨close, t₁, hcontrol, hrun⟩ := Act.bind_eq_ok.mp hrun
    obtain ⟨rfl, hbounded, rfl⟩ := control_ok hcontrol
    obtain ⟨_, _, hchange, hreturn⟩ := Act.bind_eq_ok.mp hrun
    cases hreturn
    refine .exit _ _ (hnoted.speaks now .terminal hbounded ?_ ?_) ⟨_, _, rfl⟩
    · intro anchor hanchor
      cases hanchor
    · intro anchor hanchor
      cases hanchor
  · dsimp only at hrun
    split at hrun
    · obtain ⟨message, t₁, hsnapshot, hreturn⟩ := Act.bind_eq_ok.mp hrun
      cases hreturn
      exact .checkpoint message (says_snapshot now t _ message leg hnoted hsnapshot)
    · cases hrun
      exact .idle hnoted

/-- An acknowledgement says nothing. -/
theorem Tells.acknowledged {leg : Leg} {s : Sender} (h : Tells leg s) (ack : SnapshotAck) :
    Tells leg (Sender.acknowledgeSnapshot ack s).2 := by
  cases hack : Sender.acknowledgeSnapshot ack s with
  | mk result after =>
    rcases Sender.acknowledge_cases hack with ⟨-, rfl, -⟩ | ⟨-, pending, -, rfl⟩ | ⟨-, rfl⟩
    · exact h
    · exact ⟨h.session, h.control, h.motion, h.totals, h.held, h.captured⟩
    · exact h

/-- The first message of an activation. -/
theorem enter_says {config : SenderConfig} {context : SessionContext} {time now : MonotonicTimeMicros}
    {s s' : Sender} {message : ReliableControlMessage} (hnew : Sender.new config context time = .ok s)
    (h : Sender.enter now s = (.ok message, s')) :
    message = ⟨context, 1, .enter⟩ ∧ Tells (.opened context) s' := by
  unfold Sender.new at hnew
  obtain ⟨_, -, hnew⟩ := Act.except_bind_eq_ok.mp hnew
  cases hnew
  obtain ⟨_, s₁, hobserve, hrun⟩ := Act.bind_eq_ok.mp h
  obtain ⟨-, rfl⟩ := observeTime_ok hobserve
  rw [Act.bind_of_ok (Act.read_apply _), if_neg Bool.false_ne_true, if_neg Bool.false_ne_true] at hrun
  obtain ⟨_, _, hchange, hcontrol⟩ := Act.bind_eq_ok.mp hrun
  cases hchange
  obtain ⟨rfl, -, rfl⟩ := control_ok hcontrol
  exact ⟨rfl, rfl, rfl, rfl, rfl, rfl, Nat.zero_le _⟩

/-! ## What goes out -/

variable {context : SessionEpoch × TransportGeneration} {base : List Sent}
  {sends : List Sent → Except String Unit} {o o' : Outbound} {now : MonotonicTimeMicros}

theorem transmit_ok {message : Sent} (h : transmit sends message o = (.ok (), o')) :
    o' = { o with sent := o.sent ++ [message] } := by
  obtain ⟨_, _, hchange, h⟩ := Act.bind_eq_ok.mp h
  cases hchange
  rw [Act.bind_of_ok (Act.read_apply _)] at h
  exact (Act.lift_eq_ok.mp h).2.symm

/-- What is made goes out. -/
theorem sends_ok {α : Type} {x : Act SenderError Sender α} {wrap : α → Sent}
    (h : (do
      let a ← Act.on Outbound.sender (fun sender o => { o with sender }) CaptureError.sender x
      transmit sends (wrap a)) o = (.ok (), o')) :
    ∃ a, x o.sender = (.ok a, o'.sender) ∧ o'.sent = o.sent ++ [wrap a] := by
  obtain ⟨a, o₁, hx, htransmit⟩ := Act.bind_eq_ok.mp h
  obtain ⟨s', hs', rfl⟩ := Act.on_eq_ok.mp hx
  rw [transmit_ok htransmit]
  exact ⟨a, hs', rfl⟩

/-- A log that one entry is added to. -/
theorem Transcript.legal_snoc {log : List Sent} {e : Sent} (h : (machine context).Legal start log)
    (hadmits : Admits context ((machine context).run start log) e) : (machine context).Legal start (log ++ [e]) ∧
      (machine context).run start (log ++ [e]) = ((machine context).run start log).apply e :=
  ⟨(Replay.legal_append _ _ _ _).mpr ⟨h, hadmits, trivial⟩, Replay.run_append _ _ _ _⟩

/-- What was sent after `base` keeps the contract, and the sender stands where it does. -/
structure Keeps (context : SessionEpoch × TransportGeneration) (base : List Sent) (o : Outbound) : Prop where
  grown : base <+: o.sent
  legal : (Transcript.machine context).Legal .start o.sent
  stands : ∃ leg, ((Transcript.machine context).run .start o.sent).leg = some leg ∧ Tells leg o.sender

theorem Keeps.goes {message : ReliableControlMessage} {s' : Sender} {leg : Leg} (h : Keeps context base o)
    (hleg : ((Transcript.machine context).run .start o.sent).leg = some leg) (hgoes : Goes leg message s') :
    Keeps context base ⟨s', o.sent ++ [.control message]⟩ := by
  obtain ⟨hspeaks, hstays, hnext⟩ := hgoes
  obtain ⟨hlegal, hrun⟩ := Transcript.legal_snoc h.legal (.speak leg message hleg hspeaks)
  refine ⟨h.grown.trans (List.prefix_append _ _), hlegal, leg.follow message, ?_, hnext⟩
  rw [hrun]
  rcases Transcript.apply_speak hleg hspeaks with ⟨reason, final, hclose, -⟩ | ⟨-, happly⟩
  · exact absurd hclose (hstays reason final)
  · rw [happly]

theorem Keeps.control {x : Act SenderError Sender ReliableControlMessage} (h : Keeps context base o)
    (hsaid : Says x) (hrun : sendControl sends x o = (.ok (), o')) : Keeps context base o' := by
  obtain ⟨message, hx, hsent⟩ := sends_ok hrun
  obtain ⟨leg, hleg, htells⟩ := h.stands
  obtain ⟨s', sent⟩ := o'
  cases hsent
  exact h.goes hleg (hsaid o.sender s' message leg htells hx)

theorem Keeps.motion (h : Keeps context base o) {motion : MotionDelta} {touch : Option TouchState}
    (htouch : ∀ t, touch = some t → t ≠ ∅ ∧ o.sender.held.activeTouch ≠ ∅)
    (hrun : sendMotion sends (Sender.captureMotion motion touch now) o = (.ok (), o')) :
    Keeps context base o' := by
  obtain ⟨frame, hx, hsent⟩ := sends_ok hrun
  obtain ⟨s', sent⟩ := o'
  cases hsent
  obtain ⟨leg, hleg, htells⟩ := h.stands
  obtain ⟨hmoves, hnext⟩ := captureMotion_moves htells htouch hx
  obtain ⟨hlegal, hrun⟩ := Transcript.legal_snoc h.legal (.move leg frame hleg hmoves)
  refine ⟨h.grown.trans (List.prefix_append _ _), hlegal, leg.move frame, ?_, hnext⟩
  show ((Transcript.machine context).run .start (o.sent ++ [.motion frame])).leg = _
  rw [hrun, Transcript.apply_move hleg]

theorem Keeps.transitions (h : Keeps context base o) {transitions : List (CaptureMember × Bool)}
    (hrun : sendTransitions sends now transitions o = (.ok (), o')) : Keeps context base o' := by
  induction transitions generalizing o with
  | nil =>
    cases hrun
    exact h
  | cons change rest ih =>
    obtain ⟨_, o₁, hcontrol, hrest⟩ := Act.bind_eq_ok.mp hrun
    exact ih (h.control (says_press now change) hcontrol) hrest

/-- Motion without a touch. -/
theorem Keeps.plain (h : Keeps context base o) {motion : MotionDelta}
    (hrun : (if motion ≠ 0 then sendMotion sends (Sender.captureMotion motion none now)
      else return ()) o = (.ok (), o')) : Keeps context base o' := by
  split at hrun
  · exact h.motion (fun _ hsome => by cases hsome) hrun
  · cases hrun
    exact h

/-- **A captured frame's motion and touch**, in the order in which the session sends them. -/
theorem Keeps.moved (h : Keeps context base o) {touch : Option TouchState} {motion : MotionDelta}
    (hrun : sendMoved sends touch motion now o = (.ok (), o')) : Keeps context base o' := by
  unfold sendMoved at hrun
  rw [Act.bind_of_ok (Act.read_apply o)] at hrun
  cases touch with
  | none => exact h.plain hrun
  | some state =>
    dsimp only at hrun
    split at hrun
    · obtain ⟨_, o₁, hbegin, hmotion⟩ := Act.bind_eq_ok.mp hrun
      exact (h.control (says_touchBegin state now) hbegin).plain hmotion
    rename_i hbegun
    split at hrun
    · -- the motion goes first, so that the end's anchor covers it
      have hend : ∀ {o₁ : Outbound}, Keeps context base o₁ →
          sendControl sends (Sender.touchEnd false now) o₁ = (.ok (), o') → Keeps context base o' :=
        fun h₁ hrun => h₁.control (says_touchEnd now) hrun
      split at hrun
      · obtain ⟨_, o₁, hmotion, hrun⟩ := Act.bind_eq_ok.mp hrun
        exact hend (h.motion (fun _ hsome => by cases hsome) hmotion) hrun
      · exact hend h hrun
    split at hrun
    · rename_i hstate
      refine h.motion ?_ hrun
      intro t ht
      cases ht
      simp only [Bool.not_eq_true', Std.ExtTreeMap.isEmpty_eq_false_iff] at hstate
      refine ⟨hstate, fun hempty => hbegun ?_⟩
      simp [hempty, hstate]
    · exact h.plain hrun

theorem Keeps.capture (h : Keeps context base o) {negotiated : NegotiatedSession} {frame : CaptureFrame}
    {transitions : List (CaptureMember × Bool)}
    (hrun : sendCapture sends negotiated frame transitions now o = (.ok (), o')) : Keeps context base o' := by
  obtain ⟨_, o₁, hmoved, htransitions⟩ := Act.bind_eq_ok.mp hrun
  exact (h.moved hmoved).transitions htransitions

/-! ## Runs -/

variable {P : Type} [Ord P] [Std.TransOrd P] [Std.LawfulEqOrd P]

/-- A begin uses an id that no message of this connection has named, and the connection's epoch and
generation: the daemon takes ids from a counter. -/
def Scripted.Fresh (context : SessionEpoch × TransportGeneration) (w : Scripted P) : OutgoingCall P → Prop
  | .beginOutbound session _ => Receiver.contextOf session = context ∧
      ∀ e ∈ w.outgoing.sent, e.session.activationId < session.activationId
  | _ => True

instance (context : SessionEpoch × TransportGeneration) (w : Scripted P) (label : OutgoingCall P) :
    Decidable (w.Fresh context label) :=
  match label with
  | .beginOutbound _ _ => inferInstanceAs (Decidable (_ ∧ _))
  | .capture .. | .endOutbound .. | .acknowledge .. | .tick .. => .isTrue trivial

/-- What the outbound half of a session has sent, after `base`, keeps the contract. -/
structure Spoken (context : SessionEpoch × TransportGeneration) (base : List Sent) (w : Outgoing P) : Prop where
  grown : base <+: w.sent
  legal : (Transcript.machine context).Legal .start w.sent
  idle : w.sender = none → ((Transcript.machine context).run .start w.sent).leg = none
  stands : ∀ s, w.sender = some s →
    ∃ leg, ((Transcript.machine context).run .start w.sent).leg = some leg ∧ Tells leg s

namespace Spoken

variable {w w' : Outgoing P}

theorem keeps (h : Spoken context base w) {s : Sender} (hs : w.sender = some s) : Keeps context base ⟨s, w.sent⟩ :=
  ⟨h.grown, h.legal, h.stands s hs⟩

theorem of_keeps {merger : CaptureMerger P} (h : Keeps context base o) :
    Spoken context base ⟨some o.sender, o.sent, merger⟩ where
  grown := h.grown
  legal := h.legal
  idle hnone := by cases hnone
  stands s hs := by
    cases hs
    exact h.stands

theorem closes {leg : Leg} {message : ReliableControlMessage} {merger : CaptureMerger P}
    (h : Spoken context base w) (hleg : ((Transcript.machine context).run .start w.sent).leg = some leg)
    (hspeaks : leg.Speaks message) (hcloses : ∃ reason final, message.payload = .sessionClose reason final) :
    Spoken context base ⟨none, w.sent ++ [.control message], merger⟩ := by
  obtain ⟨reason, final, hpayload⟩ := hcloses
  obtain ⟨hlegal, hrun⟩ := Transcript.legal_snoc h.legal (.speak leg message hleg hspeaks)
  refine ⟨h.grown.trans (List.prefix_append _ _), hlegal, fun _ => ?_, fun s hs => by cases hs⟩
  show ((Transcript.machine context).run .start (w.sent ++ [.control message])).leg = none
  rw [hrun]
  rcases Transcript.apply_speak hleg hspeaks with ⟨_, _, -, happly⟩ | ⟨hstays, -⟩
  · rw [happly]
  · exact absurd hpayload (hstays reason final)

theorem beginOutbound {config : SenderConfig} {session : SessionContext} (h : Spoken context base w)
    (hcontext : Receiver.contextOf session = context)
    (hfresh : ∀ e ∈ w.sent, e.session.activationId < session.activationId)
    (hrun : Outgoing.beginOutbound sends config session now w = (.ok (), w')) : Spoken context base w' := by
  unfold Outgoing.beginOutbound at hrun
  rw [Act.bind_of_ok (Act.read_apply w)] at hrun
  by_cases hopen : w.sender.isSome = true
  · rw [if_pos hopen] at hrun
    cases hrun
  rw [if_neg hopen] at hrun
  obtain ⟨_, _, hchange, hrun⟩ := Act.bind_eq_ok.mp hrun
  cases hchange
  obtain ⟨next, _, hlift, hrun⟩ := Act.bind_eq_ok.mp hrun
  obtain ⟨hnew, rfl⟩ := Act.lift_eq_ok.mp hlift
  obtain hnew : Sender.new config session now = .ok next := hnew
  dsimp only at hrun
  split at hrun
  · rename_i after hsent
    cases hrun
    obtain ⟨message, henter, hlog⟩ := sends_ok hsent
    obtain ⟨rfl, htells⟩ := enter_says hnew henter
    have hidle := h.idle (Option.not_isSome_iff_eq_none.mp hopen)
    have hadmits : Transcript.Admits context ((Transcript.machine context).run .start w.sent)
        (.control ⟨session, 1, .enter⟩) := by
      refine .enter _ rfl hidle hcontext rfl fun highest hhighest => ?_
      obtain ⟨e, hmem, hle⟩ := Transcript.exists_highest h.legal hhighest
      exact hle ▸ hfresh e hmem
    obtain ⟨hlegal, hstate⟩ := Transcript.legal_snoc h.legal hadmits
    have hkeeps : Keeps context base after := by
      refine ⟨hlog ▸ h.grown.trans (List.prefix_append _ _), hlog ▸ hlegal, .opened session, ?_, htells⟩
      rw [hlog]
      show ((Transcript.machine context).run .start (w.sent ++ [.control _])).leg = _
      rw [hstate, Transcript.apply_enter rfl]
    exact of_keeps hkeeps
  · cases hrun

/-- What a call with the sender in hand leaves. -/
theorem withSender_ok {s : Sender} {keep : Sender → Option Sender} {x : Act CaptureError Outbound Unit}
    (hrun : Outgoing.withSender s keep x w = (.ok (), w')) :
    ∃ o', x ⟨s, w.sent⟩ = (.ok (), o') ∧ w' = { w with sender := keep o'.sender, sent := o'.sent } := by
  unfold Outgoing.withSender at hrun
  cases hx : x ⟨s, w.sent⟩ with
  | mk result after =>
    rw [hx] at hrun
    obtain ⟨hresult, hafter⟩ := Prod.mk.inj hrun
    exact ⟨after, by rw [show result = .ok () from hresult], hafter.symm⟩

/-- The call keeps the sender, and what it sends keeps the contract. -/
theorem withSender {s : Sender} {x : Act CaptureError Outbound Unit}
    (hrun : Outgoing.withSender s some x w = (.ok (), w'))
    (hkeeps : ∀ o', x ⟨s, w.sent⟩ = (.ok (), o') → Keeps context base o') : Spoken context base w' := by
  obtain ⟨o', hx, rfl⟩ := withSender_ok hrun
  exact of_keeps (hkeeps o' hx)

theorem capture {negotiated : NegotiatedSession} {takesContacts : Bool} {captured : CapturedDeviceFrame P}
    {time : MonotonicTimeMicros} (h : Spoken context base w)
    (hrun : Outgoing.capture sends negotiated takesContacts captured time w = (.ok (), w')) :
    Spoken context base w' := by
  unfold Outgoing.capture at hrun
  rw [Act.bind_of_ok (Act.read_apply w)] at hrun
  cases hsender : w.sender with
  | none =>
    rw [hsender] at hrun
    cases hrun
    exact h
  | some active =>
    rw [hsender] at hrun
    obtain ⟨_, _, hchange, hrun⟩ := Act.bind_eq_ok.mp hrun
    cases hchange
    exact withSender hrun fun o' hx => (h.keeps hsender).capture hx

theorem endOutbound {reason : SessionCloseReason} (h : Spoken context base w)
    (hremote : ∀ s, w.sender = some s → s.remote = true)
    (hrun : Outgoing.endOutbound sends reason now w = (.ok (), w')) : Spoken context base w' := by
  unfold Outgoing.endOutbound at hrun
  rw [Act.bind_of_ok (Act.read_apply w)] at hrun
  obtain ⟨_, _, hchange, hrun⟩ := Act.bind_eq_ok.mp hrun
  cases hchange
  cases hsender : w.sender with
  | none =>
    rw [hsender] at hrun
    cases hrun
    refine ⟨h.grown, h.legal, fun _ => h.idle hsender, fun s hs => ?_⟩
    cases hs
  | some active =>
    rw [hsender] at hrun
    dsimp only at hrun
    rw [if_pos (hremote active hsender)] at hrun
    obtain ⟨_, w₁, hleave, hchange⟩ := Act.bind_eq_ok.mp hrun
    cases hchange
    obtain ⟨after, hx, rfl⟩ := withSender_ok hleave
    obtain ⟨message, hsaid, hlog⟩ := sends_ok hx
    dsimp only
    rw [hlog]
    obtain ⟨leg, hleg, htells⟩ := h.stands active hsender
    obtain ⟨hspeaks, final, hpayload⟩ := leave_ok htells hsaid
    exact h.closes hleg hspeaks ⟨reason, final, hpayload⟩

theorem acknowledge {session : SessionContext} {ack : SnapshotAck} (h : Spoken context base w)
    (hrun : Outgoing.acknowledge session ack w = (.ok (), w')) : Spoken context base w' := by
  unfold Outgoing.acknowledge at hrun
  rw [Act.bind_of_ok (Act.read_apply w)] at hrun
  cases hsender : w.sender with
  | none =>
    rw [hsender] at hrun
    cases hrun
    exact h
  | some active =>
    rw [hsender] at hrun
    dsimp only at hrun
    by_cases hsession : active.session = session
    · rw [if_pos hsession] at hrun
      refine withSender hrun fun o' hx => ?_
      obtain ⟨s', hack, rfl⟩ := Act.on_eq_ok.mp hx
      obtain ⟨leg, hleg, htells⟩ := h.stands active hsender
      refine ⟨h.grown, h.legal, leg, hleg, ?_⟩
      have hnext := htells.acknowledged ack
      rw [show Sender.acknowledgeSnapshot ack active = (.ok (), s') from hack] at hnext
      exact hnext
    · rw [if_neg hsession] at hrun
      cases hrun
      exact h

theorem tick (h : Spoken context base w) (hrun : Outgoing.tick sends now w = (.ok (), w')) :
    Spoken context base w' := by
  unfold Outgoing.tick at hrun
  rw [Act.bind_of_ok (Act.read_apply w)] at hrun
  cases hsender : w.sender with
  | none =>
    rw [hsender] at hrun
    cases hrun
    exact h
  | some active =>
    rw [hsender] at hrun
    dsimp only at hrun
    cases htick : Sender.tick now active with
    | mk result after =>
      rw [htick] at hrun
      cases result with
      | error error => cases hrun
      | ok answer =>
        obtain ⟨leg, hleg, htells⟩ := h.stands active hsender
        have hsaid := tick_says htells htick
        cases hsaid with
        | idle hnext =>
          cases hrun
          have hkeeps : Keeps context base ⟨after, w.sent⟩ := ⟨h.grown, h.legal, leg, hleg, hnext⟩
          exact of_keeps hkeeps
        | checkpoint message goes =>
          refine withSender hrun fun o' hx => ?_
          rw [transmit_ok hx]
          exact (h.keeps hsender).goes hleg goes
        | exit reason message speaks closes =>
          obtain ⟨last, hx, rfl⟩ := withSender_ok hrun
          rw [transmit_ok hx]
          exact h.closes hleg speaks closes

/-- Nothing that was sent is taken back: what is sent from here on comes after it. -/
theorem onward (h : Spoken context base w) : Spoken context w.sent w :=
  ⟨List.prefix_refl _, h.legal, h.idle, h.stands⟩

theorem start : Spoken context [] (Scripted.start (P := P)).outgoing where
  grown := List.prefix_refl _
  legal := trivial
  idle _ := rfl
  stands s hs := by cases hs

end Spoken

namespace Scripted

variable [DecidableEq P] {setup : Setup} {w : Scripted P}

/-- **Every call keeps the contract.** -/
theorem spoken_step {label : OutgoingCall P} {after : Scripted P} (h : Spoken context base w.outgoing)
    (hvalid : Valid w) (hfresh : Fresh context w label) (hstep : step sends setup label w = some after) :
    Spoken context base after.outgoing := by
  unfold Scripted.step at hstep
  cases label with
  | beginOutbound session now =>
    dsimp only at hstep
    split at hstep
    · rename_i outgoing hrun
      cases hstep
      exact h.beginOutbound hfresh.1 hfresh.2 hrun
    · cases hstep
  | capture captured time =>
    dsimp only at hstep
    split at hstep
    · rename_i outgoing hrun
      have hnext := h.capture hrun
      split at hstep <;> cases hstep <;> exact hnext
    · cases hstep
  | endOutbound reason now =>
    dsimp only at hstep
    split at hstep
    · rename_i outgoing hrun
      cases hstep
      exact h.endOutbound (fun s hs => (hvalid.sender s hs).1) hrun
    · cases hstep
  | acknowledge session ack =>
    dsimp only at hstep
    split at hstep
    · rename_i outgoing hrun
      cases hstep
      exact h.acknowledge hrun
    · cases hstep
  | tick now =>
    dsimp only at hstep
    split at hstep
    · rename_i outgoing hrun
      cases hstep
      exact h.tick hrun
    · cases hstep

/-- Both invariants of the outbound half, along every run that takes fresh ids. -/
theorem spoken_of_reaches (h : System.Reaches (step sends setup) (Fresh context) start w) :
    Valid w ∧ Spoken context [] w.outgoing := by
  refine h.invariant (I := fun w => Valid w ∧ Spoken context [] w.outgoing) ⟨valid_start, Spoken.start⟩ ?_
  intro w label after hw hcalm hstep
  exact ⟨hw.1.step hstep, spoken_step hw.2 hw.1 hcalm hstep⟩

/-- **The sender keeps the contract.** In every run of the outbound half of a session that takes fresh ids, each
message and frame it has sent could come next after those before it; and it has an activation open exactly where
its log has, of the same session, at the same numbers and totals, with the same keys, buttons and touch held. -/
theorem sent_is_legal (h : System.Reaches (step sends setup) (Fresh context) start w) :
    (Transcript.machine context).Legal .start w.outgoing.sent ∧
    (w.outgoing.sender = none ↔ ((Transcript.machine context).run .start w.outgoing.sent).leg = none) ∧
    ∀ s leg, w.outgoing.sender = some s → ((Transcript.machine context).run .start w.outgoing.sent).leg = some leg →
      leg.session = s.session ∧ leg.control = s.lastControlSequence ∧ leg.motion = s.lastMotionSequence ∧
        leg.totals = s.totals ∧ leg.held = s.held := by
  obtain ⟨-, hspoken⟩ := spoken_of_reaches h
  refine ⟨hspoken.legal, ⟨hspoken.idle, fun hnone => ?_⟩, fun s leg hs hleg => ?_⟩
  · cases hs : w.outgoing.sender with
    | none => rfl
    | some s =>
      obtain ⟨leg, hleg, -⟩ := hspoken.stands s hs
      exact absurd (hnone.symm.trans hleg) (by simp)
  · obtain ⟨own, hown, htells⟩ := hspoken.stands s hs
    obtain rfl : own = leg := Option.some.inj (hown.symm.trans hleg)
    exact ⟨htells.session, htells.control, htells.motion, htells.totals, htells.held⟩

theorem sent_is_legal_held : ∃ w : Scripted Nat, (Transcript.machine (1, 1)).Legal .start w.outgoing.sent ∧
    ((Transcript.machine (1, 1)).run .start w.outgoing.sent).leg.any (fun leg =>
      leg.held.pressedKeys.contains ⟨7, 4⟩) = true := by
  have hrun : ((System.guarded (step (fun _ => .ok ()) keyboardOnly) (Fresh (1, 1))).exec oneKeyHeldTwice
      start).any (fun w => ((Transcript.machine (1, 1)).run .start w.outgoing.sent).leg.any fun leg =>
        leg.held.pressedKeys.contains ⟨7, 4⟩) = true := by
    decide +kernel
  obtain ⟨w, hreaches, hheld⟩ := System.exists_reaches_of_exec hrun
  exact ⟨w, (sent_is_legal hreaches).1, hheld⟩

end Scripted

end Zflow.Session
