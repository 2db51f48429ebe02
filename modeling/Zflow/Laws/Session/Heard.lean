import Zflow.Laws.Session.Hearing
import Zflow.Laws.Session.Lockstep
import Zflow.Laws.Session.Transcript

/-!
# What a receiver makes of a legal log

The inbound half of a session that hears entries of one legal log and nothing else, in any order: each of them
may be lost, come more than once, or be overtaken. `Hearing` is the rule for a property of such sessions, and
`Follows` is the property: an open activation stands where the log had one at the same control number, with the
same keys and buttons (`Shown`), and the playout is drawn from the log's frames and heads for a place where the
sender was (`Drawn`).
-/

namespace Zflow.Session

open Zflow.Core Lib

variable {F C : Type} {context : SessionEpoch × TransportGeneration} {log log' : List Sent}

/-! ## The playout -/

/-- **The playout is drawn from the log**: its queue, and the place it heads for. -/
structure Drawn (log : List Sent) (p : ReceiverPlayout F) : Prop where
  queue : ∀ (sequence : MotionSequence) (queued : QueuedFrame), p.queue[sequence]? = some queued →
    .motion queued.frame ∈ log ∧ queued.frame.session = p.session ∧ queued.frame.motionSequence = sequence
  target : Travelled log p.session p.target.sequence p.target.totals

namespace Drawn

variable {p p' : ReceiverPlayout F}

theorem more (h : Drawn log p) (hmore : ∀ e ∈ log, e ∈ log') : Drawn log' p where
  queue sequence queued hq := by
    obtain ⟨hmem, hrest⟩ := h.queue sequence queued hq
    exact ⟨hmore _ hmem, hrest⟩
  target := h.target.more hmore

/-- A playout that queues nothing new, and heads for a place where the sender was. -/
theorem of_queue (h : Drawn log p) (hsession : p'.session = p.session)
    (hqueue : ∀ (sequence : MotionSequence) (queued : QueuedFrame), p'.queue[sequence]? = some queued →
      ∃ old : QueuedFrame, p.queue[sequence]? = some old ∧ old.frame = queued.frame)
    (htarget : Travelled log p.session p'.target.sequence p'.target.totals) : Drawn log p' where
  queue sequence queued hq := by
    obtain ⟨old, hold, hframe⟩ := hqueue sequence queued hq
    rw [← hframe, hsession]
    exact h.queue sequence old hold
  target := hsession ▸ htarget

theorem unmoved (h : Drawn log p) (hmoved : ReceiverPlayout.Unmoved p p') : Drawn log p' := by
  refine h.of_queue hmoved.session (fun sequence queued hq => ⟨queued, hmoved.queue ▸ hq, rfl⟩) ?_
  rw [hmoved.target]
  exact h.target

/-- Frames that were dropped are no longer asked for. -/
theorem dropped {queue : Std.ExtTreeMap MotionSequence QueuedFrame} {keep : MotionSequence → QueuedFrame → Bool}
    {sequence : MotionSequence} {queued : QueuedFrame} (h : (queue.filter keep)[sequence]? = some queued) :
    queue[sequence]? = some queued := by
  rw [Std.ExtTreeMap.getElem?_filter'] at h
  exact (Option.filter_eq_some_iff.mp h).1

theorem ingested [ClockMapper C] [F64 F] {frame : MotionFrame} {receivedAt : MonotonicTimeMicros} {clock : C}
    {outcome : EnqueueOutcome} (h : Drawn log p) (hmem : .motion frame ∈ log)
    (hrun : ReceiverPlayout.ingestFrame frame receivedAt clock p = (.ok outcome, p')) : Drawn log p' := by
  rcases ReceiverPlayout.ingestFrame_ok hrun with hmoved | ⟨mapped, hsession, -, hmoved⟩
  · exact h.unmoved hmoved
  have hqueued : Drawn log { p with queue := p.queue.insert frame.motionSequence ⟨frame, mapped⟩ } := by
    refine ⟨fun sequence queued hq => ?_, h.target⟩
    by_cases hnumber : sequence = frame.motionSequence
    · subst hnumber
      rw [Std.ExtTreeMap.getElem?_insert_self] at hq
      cases hq
      exact ⟨hmem, hsession, rfl⟩
    · have hne : ¬ compare frame.motionSequence sequence = .eq := fun heq =>
        hnumber (Std.LawfulEqCmp.eq_of_compare heq).symm
      rw [Std.ExtTreeMap.getElem?_insert, if_neg hne] at hq
      exact h.queue sequence queued hq
  exact hqueued.unmoved hmoved

theorem remapped [ClockMapper C] [F64 F] {clock : C} (h : Drawn log p)
    (hrun : ReceiverPlayout.remapClock clock p = (.ok (), p')) : Drawn log p' := by
  obtain ⟨-, hsession, -, hframes, ⟨mapped, htarget⟩, -⟩ := ReceiverPlayout.remapClock_ok hrun
  refine h.of_queue hsession (fun sequence queued hq => ?_) (htarget ▸ h.target)
  have hsame := hframes sequence
  rw [hq] at hsame
  exact Option.map_eq_some_iff.mp hsame.symm

/-- A playout that follows a message heads for the anchor, where there is one. -/
theorem followed [F64 F] {message : ReliableControlMessage} (h : Drawn log p)
    (hanchor : ∀ anchor, message.payload.motionAnchor = some anchor →
      Travelled log p.session anchor.throughMotionSequence anchor.totals)
    (hrun : follow message p = (.ok (), p')) : Drawn log p' := by
  obtain ⟨-, hrun⟩ := follow_ok.mp hrun
  cases hsome : message.payload.motionAnchor with
  | none =>
    rw [hsome] at hrun
    exact hrun ▸ ⟨h.queue, h.target⟩
  | some anchor =>
    rw [hsome] at hrun
    obtain ⟨-, -, rfl⟩ := ReceiverPlayout.rebase_ok.mp hrun
    exact h.of_queue rfl (fun sequence queued hq => ⟨queued, dropped hq, rfl⟩) (hanchor anchor hsome)

theorem new [F64 F] {config : PlayoutConfig F} {session : SessionContext}
    (h : ReceiverPlayout.new config session = .ok p) : Drawn log p := by
  obtain ⟨-, minimum, -, rfl⟩ := ReceiverPlayout.new_eq_ok.mp h
  refine ⟨fun sequence queued hq => ?_, .inl ⟨rfl, rfl⟩⟩
  rw [show (ReceiverPlayout.fresh config session minimum).queue = ∅ from rfl, Std.ExtTreeMap.getElem?_empty] at hq
  cases hq

/-- **A poll** heads for a frame of the queue, or goes on, and hands out a touch only where there is one. -/
theorem polled [F64 F] {now : MonotonicTimeMicros} {result : Option PlayoutStep} (h : Drawn log p)
    (hlegal : (Transcript.machine context).Legal .start log) (hsettled : p.Settled)
    (hrun : ReceiverPlayout.poll now p = (.ok result, p')) :
    Drawn log p' ∧ ∀ step touch, result = some step → step.touchSnapshot = some touch → touch ≠ ∅ := by
  obtain ⟨p₁, p₂, elapsed, own, hmoved, hselect, hend⟩ := ReceiverPlayout.poll_ok hrun
  have hselected : Drawn log p₂ ∧ ∀ touch, p₂.target.pendingTouchSnapshot = some touch → touch ≠ ∅ := by
    have hdrawn := h.unmoved hmoved
    rcases ReceiverPlayout.select_ok hselect with ⟨-, rfl, -⟩ | ⟨sequence, queued, hnewest, -, htaken⟩
    · refine ⟨hdrawn, fun touch htouch => ?_⟩
      rw [hmoved.target, hsettled.pending] at htouch
      cases htouch
    · obtain ⟨hmem, hsession, hnumber⟩ := hdrawn.queue sequence queued hnewest.found
      refine ⟨hdrawn.of_queue htaken.session (fun other later hq => ⟨later, ?_, rfl⟩) ?_, fun touch htouch => ?_⟩
      · rw [htaken.queue] at hq
        have hkept := dropped hq
        rw [Std.ExtTreeMap.getElem?_erase] at hkept
        split at hkept
        · cases hkept
        · exact hkept
      · rw [htaken.target]
        exact .inr ⟨queued.frame, hmem, hsession, hnumber, rfl⟩
      · rw [htaken.target] at htouch
        exact Transcript.touch_of_mem hlegal hmem htouch
  obtain ⟨hdrawn, htouches⟩ := hselected
  obtain ⟨_, -, ⟨rfl, -, -, rfl⟩ | ⟨_, _, -, -, -, rfl, hstepped⟩⟩ := ReceiverPlayout.pollTarget_ok hend
  · exact ⟨⟨hdrawn.queue, hdrawn.target⟩, fun step touch hstep => by cases hstep⟩
  · refine ⟨hdrawn.of_queue hstepped.session (fun sequence queued hq => ⟨queued, hstepped.queue ▸ hq, rfl⟩) ?_, ?_⟩
    · rw [hstepped.target]
      exact hdrawn.target
    · intro step touch hstep htouch
      cases hstep
      exact htouches touch htouch

end Drawn

/-! ## The open activation -/

/-- The activation stands where the leg does, but for the motion that has not been played. -/
structure Shows (leg : Leg) (state : ActivationState) : Prop where
  session : leg.session = state.session
  control : leg.control = state.lastControlSequence
  held : HeldAlike leg.held state.held

/-- The log once had the activation where it stands. -/
def Shown (context : SessionEpoch × TransportGeneration) (log : List Sent) (state : ActivationState) : Prop :=
  ∃ before leg, before <+: log ∧ ((Transcript.machine context).run .start before).leg = some leg ∧ Shows leg state

section shown

variable {leg : Leg} {state : ActivationState} {message : ReliableControlMessage} {now : MonotonicTimeMicros}
  {r : Receiver}

theorem Shown.more (h : Shown context log state) (hmore : log <+: log') : Shown context log' state := by
  obtain ⟨before, leg, hbefore, hrest⟩ := h
  exact ⟨before, leg, hbefore.trans hmore, hrest⟩

theorem session_ext {a b : SessionContext} (hcontext : Receiver.contextOf a = Receiver.contextOf b)
    (hid : a.activationId = b.activationId) : a = b := by
  obtain ⟨_, _, _⟩ := a
  obtain ⟨hepoch, hgeneration⟩ := Prod.mk.inj hcontext
  exact (SessionContext.mk.injEq ..).mpr ⟨hepoch, hgeneration, hid⟩

/-- A message of the log stands behind a prefix that admits it. -/
theorem admitted_of_mem (hlegal : (Transcript.machine context).Legal .start log) (hmem : .control message ∈ log) :
    ∃ before, before ++ [.control message] <+: log ∧ (Transcript.machine context).Legal .start before ∧
      Transcript.Admits context ((Transcript.machine context).run .start before) (.control message) := by
  obtain ⟨before, rest, rfl⟩ := List.append_of_mem hmem
  obtain ⟨hbefore, hadmits, -⟩ := (Replay.legal_append _ _ _ _).mp hlegal
  exact ⟨before, ⟨rest, by simp⟩, hbefore, hadmits⟩

/-- **A message of the log**, to an activation that the log once had where it stands: the log had it there when
the message was sent, if it is the next. -/
theorem Shown.speaks (h : Shown context log state) (hlegal : (Transcript.machine context).Legal .start log)
    (hmem : .control message ∈ log) (hspoke : message.payload ≠ .enter)
    (hsame : state.session.activationId = message.session.activationId) :
    ∃ before leg, before ++ [.control message] <+: log ∧
      ((Transcript.machine context).run .start before).leg = some leg ∧ leg.Speaks message ∧
      leg.session = state.session ∧ Travelled log leg.session leg.motion leg.totals ∧
      (message.sequence = state.lastControlSequence + 1 → Shows leg state) := by
  obtain ⟨before, hbefore, hlegalBefore, hadmits⟩ := admitted_of_mem hlegal hmem
  have hwithin : before <+: log := (List.prefix_append _ _).trans hbefore
  cases hadmits with
  | enter _ payload => exact absurd payload hspoke
  | speak leg _ current speaks =>
    obtain ⟨old, own, hold, hown, hshows⟩ := h
    have hlegalOld : (Transcript.machine context).Legal .start old := by
      obtain ⟨rest, rfl⟩ := hold
      exact ((Replay.legal_append _ _ _ _).mp hlegal).1
    have hsession : own.session = leg.session := by
      refine session_ext ?_ ?_
      · rw [(Transcript.sane_start.run hlegalOld own hown).2, (Transcript.sane_start.run hlegalBefore leg current).2]
      · rw [hshows.session, hsame, speaks.session]
    refine ⟨before, leg, hbefore, current, speaks, hsession.symm.trans hshows.session,
      (Transcript.travelled_of_run hlegalBefore current).more fun e he => hwithin.subset he, fun hnext => ?_⟩
    have hcontrol : own.control = leg.control := by
      rw [hshows.control]
      exact Nat.succ.inj (hnext.symm.trans speaks.next)
    have halike := Transcript.held_of_control hlegal hold hwithin hown current hsession hcontrol
    exact ⟨hsession.symm.trans hshows.session, hcontrol.symm.trans hshows.control, halike.symm.trans hshows.held⟩

/-- An `Enter` of the log opens the activation where the log does. -/
theorem shown_entered (hlegal : (Transcript.machine context).Legal .start log) (hmem : .control message ∈ log)
    (hpayload : message.payload = .enter) (lease : Duration) :
    Shown context log (Receiver.entered message now lease) := by
  obtain ⟨before, hbefore, -, hadmits⟩ := admitted_of_mem hlegal hmem
  refine ⟨_, .opened message.session, hbefore, ?_, ?_⟩
  · rw [Replay.run_append]
    show (Transcript.apply _ (.control message)).leg = _
    rw [Transcript.apply_enter hpayload]
  · cases hadmits with
    | enter _ _ _ _ first => exact ⟨rfl, first.symm, .refl _⟩
    | speak leg _ _ speaks =>
      have hallowed := speaks.allowed
      rw [hpayload] at hallowed
      exact hallowed.elim

/-- What a payload that may come next leaves held. -/
theorem HeldAlike.heldAfter {held held' : HeldState} {payload : ReliableControl} (h : HeldAlike held held')
    (hallowed : Leg.Allows held payload) :
    HeldAlike (Receiver.heldAfter held payload) (Receiver.heldAfter held' payload) := by
  cases payload with
  | enter | snapshotAck => exact hallowed.elim
  | keyDown key => exact ⟨congrArg (·.insert key) h.keys, h.buttons, h.touch⟩
  | keyUp key => exact ⟨congrArg (·.erase key) h.keys, h.buttons, h.touch⟩
  | buttonDown button => exact ⟨h.keys, congrArg (·.insert button) h.buttons, h.touch⟩
  | buttonUp button => exact ⟨h.keys, congrArg (·.erase button) h.buttons, h.touch⟩
  | touchBegin | touchEnd | touchCancel => exact ⟨h.keys, h.buttons, .rfl⟩
  | stateSnapshot => exact .refl _
  | sessionClose => exact h

/-- **An accepted message leaves the activation where it leaves the leg.** -/
theorem Shows.accepting {delta : Option MotionDelta} (h : Shows leg state) (hspeaks : leg.Speaks message)
    (hanchored : Receiver.Anchored state message.payload delta) :
    Shows (leg.follow message) (r.accepting message now state delta).2 := by
  have hstate : (r.accepting message now state delta).2 =
      refreshLease { Receiver.anchoredState state message.payload with
        held := Receiver.heldAfter (Receiver.anchoredState state message.payload).held message.payload
        lastControlSequence := message.sequence } now r.config.heldStateLease :=
    Receiver.acceptState_state now r.config.heldStateLease hanchored
  have hheld : HeldAlike leg.held (Receiver.anchoredState state message.payload).held := by
    unfold Receiver.anchoredState
    cases hanchor : message.payload.motionAnchor with
    | none => exact h.held
    | some anchor =>
      refine ⟨h.held.keys, h.held.buttons, ?_⟩
      show anchor.finalTouchState = ∅ ↔ _
      rw [(hspeaks.anchored anchor hanchor).touch]
  rw [hstate]
  exact ⟨h.session.trans (Receiver.anchoredState_session state message.payload).symm, rfl,
    hheld.heldAfter hspeaks.allowed⟩

/-- **A playout step leaves the activation shown.** -/
theorem shown_played {session : SessionContext} {step : PlayoutStep} {result : List ReceiverEffect × Receiver}
    (hshown : ∀ state, r.activation = some state → Shown context log state)
    (htouch : ∀ touch, step.touchSnapshot = some touch → touch ≠ ∅) (h : Receiver.Played session step r result) :
    ∀ state, result.2.activation = some state → Shown context log state := by
  intro after hafter
  cases h with
  | refused => exact hshown after hafter
  | violated | overflowed =>
    rw [Receiver.closeActivation_activation] at hafter
    cases hafter
  | played state totals active same ahead touch sum =>
    obtain ⟨before, leg, hbefore, hleg, hshows⟩ := hshown state active
    obtain rfl := Option.some.inj hafter
    rw [Receiver.playState_state]
    refine ⟨before, leg, hbefore, hleg, hshows.session, hshows.control, hshows.held.trans (.touchAfter ?_)⟩
    exact fun snapshot hsnapshot => ⟨htouch snapshot hsnapshot, fun hempty =>
      htouch snapshot hsnapshot (touch hempty snapshot hsnapshot)⟩

/-- What was let through without an answer was the next message of the open activation. -/
theorem next_of_quiet {r' : Receiver} {effects : List ReceiverEffect}
    (h : Receiver.Controlled message now r effects r') (hquiet : Receiver.Quiet effects) :
    ∃ state, r.activation = some state ∧ state.session.activationId = message.session.activationId ∧
      message.sequence = state.lastControlSequence + 1 ∧ message.payload ≠ .enter ∧
      ∀ after, r'.activation = some after → (∀ reason final, message.payload ≠ .sessionClose reason final) ∧
        ∃ delta, Receiver.Anchored state message.payload delta ∧ after = (r.accepting message now state delta).2 := by
  have hspoke : ∀ {state : ActivationState}, Receiver.validateTransition state message.payload = true →
      message.payload ≠ .enter := by
    intro state hvalid hpayload
    rw [hpayload] at hvalid
    cases hvalid
  cases h with
  | refused reason => exact absurd rfl ((hquiet _ (List.mem_singleton_self _) _).1 reason)
  | late reason => exact absurd rfl ((hquiet _ (List.mem_append_right _ (List.mem_singleton_self _)) _).1 reason)
  | opened => exact absurd rfl (hquiet _ (List.mem_append_right _ (List.mem_singleton_self _)) _).2
  | overflowed state anchor live active same next valid =>
    exact ⟨state, active, same, next, hspoke valid, fun after hafter => by cases hafter⟩
  | ended state delta reason final live active same next valid =>
    exact ⟨state, active, same, next, hspoke valid, fun after hafter => by cases hafter⟩
  | accepted state delta live active same next valid anchored stays =>
    refine ⟨state, active, same, next, hspoke valid, fun after hafter => ⟨stays, delta, anchored, ?_⟩⟩
    exact (Option.some.inj hafter).symm

end shown

/-! ## The invariant -/

/-- **The receiving side has heard the log, and nothing else.** -/
structure Heard (context : SessionEpoch × TransportGeneration) (log : List Sent) (i : Inbound F C) : Prop where
  waits : ∀ front ∈ i.pending, .control front.message ∈ log
  shown : ∀ state, i.receiver.activation = some state → Shown context log state
  drawn : ∀ p, i.playout = some p → Drawn log p

structure Follows (context : SessionEpoch × TransportGeneration) (log : List Sent) (i : Inbound F C) : Prop
    extends Heard context log i where
  lockstep : Lockstep i

theorem Follows.more {i : Inbound F C} (h : Follows context log i) (hmore : log <+: log') :
    Follows context log' i where
  waits front hfront := hmore.subset (h.waits front hfront)
  shown state hstate := (h.shown state hstate).more hmore
  drawn p hp := (h.drawn p hp).more fun _ he => hmore.subset he
  lockstep := h.lockstep

section follows

variable {i : Inbound F C} {message : ReliableControlMessage}

/-- The two halves of the invariant are kept apart. -/
theorem follows_of_heard {α : Type} {x : Act InboundError (Inbound F C) α} {P P' : Inbound F C → Prop}
    (hlockstep : Act.Triple P' x (fun _ => Lockstep) StoppedInOrder)
    (hheard : Act.Triple P x (fun _ => Heard context log) fun _ _ => True) (hP : ∀ i, P i → P' i) :
    Act.Triple P x (fun _ => Follows context log) fun _ _ => True :=
  (hlockstep.and hheard).weaken (fun i hi => ⟨hP i hi, hi⟩) (fun _ _ h => ⟨h.2, h.1⟩) fun _ _ _ => trivial

/-- What goes out was not heard. -/
theorem heard_emit (env : Environment) (effects : List ReceiverEffect) (h : Heard context log i) :
    Act.Triple (· = i) (Inbound.emit env effects) (fun _ => Heard context log) fun _ _ => True := by
  refine Inbound.emit_triple env effects i (fun _ => trivial) (fun i' _ hanswering => ?_) fun _ _ _ _ _ => trivial
  obtain ⟨replies, sequence, rfl⟩ := hanswering
  exact ⟨h.waits, h.shown, h.drawn⟩

/-- With nothing open there is nothing to show. -/
theorem Heard.shut (h : Heard context log i) {i' : Inbound F C} (hpending : i'.pending = i.pending)
    (hactive : i'.receiver.activation = i.receiver.activation ∨ i'.receiver.activation = none)
    (hdrawn : ∀ p, i'.playout = some p → Drawn log p) : Heard context log i' := by
  refine ⟨hpending ▸ h.waits, fun state hstate => ?_, hdrawn⟩
  rcases hactive with hsame | hnone
  · exact h.shown state (hsame.symm.trans hstate)
  · cases hnone.symm.trans hstate

variable [F64 F] [ClockMapper C]

/-- **A message of the log is applied.** -/
theorem applyControl_heard (hlegal : (Transcript.machine context).Legal .start log) (env : Environment)
    (hmem : .control message ∈ log) (now : MonotonicTimeMicros) :
    Act.Triple (Follows (F := F) (C := C) context log) (Inbound.applyControl env message now)
      (fun _ => Heard context log) fun _ _ => True := by
  intro i hi
  rcases Inbound.applyControl_cases env message now i with ⟨e, r, -, -, hrun⟩ | ⟨effects, r, hanswer, hrun⟩
  · rw [hrun]
    trivial
  rw [hrun]
  have hctl := Receiver.receiveControl_ok hanswer
  have hheard := hi.toHeard
  refine Inbound.afterControl_triple (fun hrejected => heard_emit env effects ?_) (fun hquiet hplayout => ?_)
    (fun hquiet p p' hplayout hfollow => heard_emit env effects ?_) (fun _ _ _ _ _ _ _ _ => trivial)
    (fun session hactive hopened clock p p' hnew hfollow => heard_emit env effects ?_)
    (fun _ _ _ _ _ _ _ _ => trivial) ?_ _ rfl
  · exact hheard.shut rfl (Receiver.activation_of_rejected hctl hrejected) hheard.drawn
  · obtain ⟨state, hstate, -⟩ := next_of_quiet hctl hquiet
    obtain ⟨p, hp, -⟩ := hi.lockstep.matched state hstate
    cases hplayout.symm.trans hp
  · -- the next message of the open activation
    obtain ⟨state, hstate, hsame, hnext, hspoke, hafter⟩ := next_of_quiet hctl hquiet
    obtain ⟨own, hown, hmatches⟩ := hi.lockstep.matched state hstate
    obtain rfl := Option.some.inj (hplayout.symm.trans hown)
    obtain ⟨before, leg, hbefore, hleg, hspeaks, hsession, htravelled, hshows⟩ :=
      (hheard.shown state hstate).speaks hlegal hmem hspoke hsame
    refine ⟨hheard.waits, fun after hactive => ?_, fun q hq => ?_⟩
    · obtain ⟨hstays, delta, hanchored, rfl⟩ := hafter after hactive
      refine ⟨_, leg.follow message, hbefore, ?_, (hshows hnext).accepting hspeaks hanchored⟩
      rw [Replay.run_append]
      show (Transcript.apply _ (.control message)).leg = _
      rcases Transcript.apply_speak hleg hspeaks with ⟨reason, final, hclose, -⟩ | ⟨-, happly⟩
      · exact absurd hclose (hstays reason final)
      · rw [happly]
    · cases hq
      refine (hheard.drawn p hplayout).followed (fun anchor hanchor => ?_) hfollow
      have hanchors := hspeaks.anchored anchor hanchor
      rw [hmatches.session, ← hsession, hanchors.through, hanchors.totals]
      exact htravelled
  · obtain ⟨hpayload, hentered⟩ := Receiver.activation_of_opened hctl hopened
    refine ⟨hheard.waits, fun state hstate => ?_, fun q hq => ?_⟩
    · obtain rfl := Option.some.inj (hentered.symm.trans hstate)
      exact shown_entered hlegal hmem hpayload _
    · cases hq
      refine (Drawn.new hnew).followed (fun anchor hanchor => ?_) hfollow
      rw [hpayload] at hanchor
      cases hanchor
  · rcases Receiver.kind_controlled hctl with h | h | ⟨h, h', h''⟩
    · exact .inl h
    · exact .inr (.inl h)
    · exact .inr (.inr ⟨h, h', _, h''⟩)

omit [F64 F] [ClockMapper C] in
/-- A method of the playout that keeps it drawn from the log. -/
theorem onPlayout_follows {α : Type} {p : ReceiverPlayout F} {x : Act PlayoutError (ReceiverPlayout F) α}
    (hlockstep : Act.Triple (fun i : Inbound F C => Lockstep i ∧ i.playout = some p) (Inbound.onPlayout p x)
      (fun _ => Lockstep) StoppedInOrder)
    (hx : ∀ a p', Drawn log p → x p = (.ok a, p') → Drawn log p') :
    Act.Triple (fun i : Inbound F C => Follows context log i ∧ i.playout = some p) (Inbound.onPlayout p x)
      (fun _ => Follows context log) fun _ _ => True := by
  refine follows_of_heard hlockstep (Inbound.onPlayout_triple (fun i a p' hi hrun => ?_) fun _ _ _ _ _ => trivial)
    fun i hi => ⟨hi.1.lockstep, hi.2⟩
  obtain ⟨hi, hplayout⟩ := hi
  refine hi.toHeard.shut rfl (.inl rfl) fun q hq => ?_
  cases hq
  exact hx a p' (hi.drawn p hplayout) hrun

omit [ClockMapper C] in
/-- **A poll plays what was heard.** -/
theorem pollPlayout_heard (hlegal : (Transcript.machine context).Legal .start log) (env : Environment)
    (now : MonotonicTimeMicros) : Act.Triple (Follows (F := F) (C := C) context log) (Inbound.pollPlayout env now)
      (fun _ => Heard context log) fun _ _ => True := by
  intro i hi
  have hheard := hi.toHeard
  rcases Inbound.pollPlayout_cases env now i with ⟨-, hrun⟩ | ⟨p, p', result, hplayout, hpoll, hcases⟩
  · rw [hrun]
    exact hheard
  have hpolled : ∀ step, result = .ok step → Drawn log p' ∧
      ∀ played touch, step = some played → played.touchSnapshot = some touch → touch ≠ ∅ := by
    intro step hstep
    rw [hstep] at hpoll
    exact (hi.drawn p hplayout).polled hlegal (hi.lockstep.settled p hplayout) hpoll
  rcases hcases with ⟨e, -, hrun⟩ | ⟨hnone, hrun⟩ | ⟨step, effects, r, hsome, hstep, hrun⟩
  · rw [hrun]
    trivial
  · rw [hrun]
    refine hheard.shut rfl (.inl rfl) fun q hq => ?_
    cases hq
    exact (hpolled none hnone).1
  · rw [hrun]
    obtain ⟨hdrawn, htouches⟩ := hpolled (some step) hsome
    have hafter : Heard context log
        { i with playout := some p', receiver := r, effects := i.effects ++ effects } := by
      refine ⟨hheard.waits, ?_, fun q hq => ?_⟩
      · rcases Receiver.receivePlayoutStep_ok hstep with ⟨-, hplayed⟩ | ⟨rest, -, hplayed⟩
        · exact shown_played (r := i.receiver.observed now) hheard.shown (fun touch => htouches step touch rfl) hplayed
        · exact shown_played (fun state hstate => by cases hstate) (fun touch => htouches step touch rfl) hplayed
      · cases hq
        exact hdrawn
    exact heard_emit env effects hafter _ rfl

omit [F64 F] [ClockMapper C] in
/-- The end of a lease. -/
theorem expire_heard (env : Environment) (now : MonotonicTimeMicros) :
    Act.Triple (Follows (F := F) (C := C) context log) (Inbound.onReceiver (Receiver.tick now) >>= Inbound.emit env)
      (fun _ => Heard context log) fun _ _ => True := by
  intro i hi
  rcases Receiver.tick_cases now i.receiver with ⟨-, hcall⟩ | ⟨-, hcall⟩
  · rw [Act.bind_of_error (Inbound.onReceiver_error hcall)]
    trivial
  · rw [Act.bind_of_ok (Inbound.onReceiver_ok hcall)]
    have hactive : ((i.receiver.observed now).expireLease now).2.activation = i.receiver.activation ∨
        ((i.receiver.observed now).expireLease now).2.activation = none := by
      by_cases hexp : (i.receiver.observed now).Expired now
      · rw [Receiver.expireLease_of_expired hexp, Receiver.closeActivation_activation]
        exact .inr rfl
      · rw [Receiver.expireLease_of_live hexp]
        exact .inl rfl
    have hafter : Heard context log { i with
        receiver := ((i.receiver.observed now).expireLease now).2
        effects := i.effects ++ ((i.receiver.observed now).expireLease now).1 } :=
      hi.toHeard.shut rfl hactive hi.drawn
    exact heard_emit env _ hafter _ rfl

/-- **The invariant is kept by every call** that brings what the log says. -/
theorem follows_hearing (hlegal : (Transcript.machine context).Legal .start log) (env : Environment) :
    Inbound.Hearing env (fun message => .control message ∈ log) (fun frame => .motion frame ∈ log)
      (Follows (F := F) (C := C) context log) where
  aside i i' h hwaits hi := by
    refine ⟨⟨hwaits, ?_, ?_⟩, hi.lockstep.same h.playout (by rw [h.receiver]) h.effects⟩
    · rw [h.receiver]
      exact hi.shown
    · rw [h.playout]
      exact hi.drawn
  waits i hi := hi.waits
  control message now hmem :=
    follows_of_heard (applyControl_lockstep env message now) (applyControl_heard hlegal env hmem now) fun _ hi =>
      hi.lockstep
  ingest p frame now clock hmem :=
    onPlayout_follows ((lockstep_rule env).ingest p frame now clock) fun _ _ hdrawn hrun =>
      hdrawn.ingested hmem hrun
  remap p clock :=
    onPlayout_follows ((lockstep_rule env).remap p clock) fun _ _ hdrawn hrun => hdrawn.remapped hrun
  poll now :=
    follows_of_heard (pollPlayout_lockstep env now) (pollPlayout_heard hlegal env now) fun _ hi => hi.lockstep
  expire now := follows_of_heard (expire_lockstep env now) (expire_heard env now) fun _ hi => hi.lockstep

omit [F64 F] in
/-- A new session has heard nothing. -/
theorem follows_new {config : ReceiverConfig} {playoutConfig : PlayoutConfig F} {now : MonotonicTimeMicros}
    (h : Inbound.new config playoutConfig now = .ok i) : Follows context [] i := by
  obtain ⟨hreceiver, -, -, hplayout, hpending, -⟩ := Inbound.new_ok h
  refine ⟨⟨?_, ?_, ?_⟩, lockstep_new h⟩
  · rw [hpending]
    exact fun front hfront => by cases hfront
  · rw [(Receiver.new_eq_ok.mp hreceiver).2]
    exact fun state hstate => by cases hstate
  · rw [hplayout]
    exact fun p hp => by cases hp

end follows

end Zflow.Session
