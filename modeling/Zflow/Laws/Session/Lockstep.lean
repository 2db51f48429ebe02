import Zflow.Laws.Core.Rational
import Zflow.Laws.Session.Inbound

/-!
# Receiver and playout in lockstep

Inside an inbound session the receiver and the playout each keep the displacement of the open
activation. `Lockstep` says that they agree between calls: the open activation has a playout, which
stands at the same totals, at or ahead of the last motion the receiver finished. Each of them moves
before the other does (a poll before its step is received, a control before the playout follows it),
so the agreement is shown method by method, from the state the method found to the one it leaves.
-/

namespace Zflow.Session

open Zflow.Core Lib

variable {F C : Type}

/-- The playout stands where the activation does. -/
structure Matches (state : ActivationState) (p : ReceiverPlayout F) : Prop where
  session : p.session = state.session
  injected : p.injectedTotals = state.injectedTotals
  /-- The playout is at or ahead of the last motion that was finished. -/
  target : state.lastInjectedMotion ≤ p.target.sequence
  /-- A finished target is injected. -/
  reached : p.target.sequence = state.lastInjectedMotion → p.injectedTotals = p.target.totals
  watermark : p.appliedControlSequence ≤ state.lastControlSequence

/-- No playout step was rejected as a duplicate or out of order. -/
def InOrder (effects : List ReceiverEffect) : Prop :=
  ∀ session, .rejected session .duplicateOrReorderedMotion ∉ effects

theorem InOrder.append {xs ys : List ReceiverEffect} (hx : InOrder xs) (hy : InOrder ys) :
    InOrder (xs ++ ys) := fun session hmem => (List.mem_append.mp hmem).elim (hx session) (hy session)

/-- **Receiver and playout in lockstep.** -/
structure Lockstep (i : Inbound F C) : Prop where
  settled : ∀ p, i.playout = some p → p.Settled
  matched : ∀ state, i.receiver.activation = some state → ∃ p, i.playout = some p ∧ Matches state p
  inOrder : InOrder i.effects

theorem Lockstep.same {i i' : Inbound F C} (h : Lockstep i) (hplayout : i'.playout = i.playout)
    (hreceiver : i'.receiver.activation = i.receiver.activation) (heffects : i'.effects = i.effects) :
    Lockstep i' where
  settled := hplayout ▸ h.settled
  matched := by
    rw [hplayout, hreceiver]
    exact h.matched
  inOrder := heffects ▸ h.inOrder

/-- With nothing open there is nothing to match. -/
theorem Lockstep.shut {i : Inbound F C} (hsettled : ∀ p, i.playout = some p → p.Settled)
    (hnone : i.receiver.activation = none) (hinOrder : InOrder i.effects) : Lockstep i :=
  ⟨hsettled, fun state h => absurd (hnone.symm.trans h) (by simp), hinOrder⟩

/-- What is handed over and answered is not part of the agreement. -/
theorem Lockstep.answering {i i' : Inbound F C} {handed : List (List ReceiverEffect)}
    (h : Lockstep i) (hanswering : Inbound.Answering { i with handed := handed } i') :
    Lockstep i' := by
  obtain ⟨replies, sequence, rfl⟩ := hanswering
  exact h.same rfl rfl rfl

/-- What a stop leaves of the agreement. -/
def StoppedInOrder (e : InboundError) (i : Inbound F C) : Prop :=
  e ≠ Inbound.noPlayout ∧ InOrder i.effects

theorem emit_lockstep (env : Environment) (effects : List ReceiverEffect) {i : Inbound F C} (h : Lockstep i) :
    Act.Triple (· = i) (Inbound.emit env effects) (fun _ => Lockstep) StoppedInOrder := by
  refine Inbound.emit_triple env effects i (fun _ => ⟨?_, h.inOrder⟩) ?_ ?_
  · simp [Inbound.noPlayout, invalidTransition]
  · exact fun i' _ hanswering => h.answering hanswering
  · exact fun e i' hne _ hanswering => ⟨hne, (h.answering hanswering).inOrder⟩

theorem InOrder.of_quiet {effects : List ReceiverEffect} (h : Receiver.Quiet effects) :
    InOrder effects := fun session hmem => (h _ hmem session).1 _ rfl

variable [F64 F] [ClockMapper C]

/-- The answer of a control message, before anything follows it. -/
theorem inOrder_controlled {message : ReliableControlMessage} {now : MonotonicTimeMicros}
    {r r' : Receiver} {effects : List ReceiverEffect}
    (h : Receiver.Controlled message now r effects r') : InOrder effects := by
  have single : ∀ session (reason : RejectionReason), reason ≠ .duplicateOrReorderedMotion →
      InOrder [.rejected session reason] := by
    intro session reason hne s hmem
    have heq := List.mem_singleton.mp hmem
    cases heq
    exact hne rfl
  cases h with
  | refused reason live control => exact single _ _ control
  | late reason expired kind =>
    refine (InOrder.of_quiet (Receiver.quiet_closeActivation _ _)).append (single _ _ ?_)
    rcases kind with rfl | rfl | rfl | ⟨rfl, -⟩ <;> simp
  | opened reason =>
    refine (InOrder.of_quiet (Receiver.quiet_closeActivation _ _)).append ?_
    intro s hmem
    cases List.mem_singleton.mp hmem
  | overflowed => exact .of_quiet (Receiver.quiet_closeActivation _ _)
  | ended =>
    exact .of_quiet ((Receiver.quiet_accepting _ _ _ _ _).append (Receiver.quiet_closeActivation _ _))
  | accepted => exact .of_quiet (Receiver.quiet_accepting _ _ _ _ _)

/-! ## Controls -/

/-- A playout that follows a message keeps itself settled, and moves to the anchor if there is one. -/
theorem settled_follow {message : ReliableControlMessage} {p p' : ReceiverPlayout F}
    (hsettled : p.Settled) (h : follow message p = (.ok (), p')) :
    p'.Settled ∧ p'.session = p.session ∧ p'.appliedControlSequence = message.sequence ∧
      match message.payload.motionAnchor with
      | none => p'.injectedTotals = p.injectedTotals ∧ p'.target = p.target
      | some anchor => p'.injectedTotals = anchor.totals ∧ p'.target.totals = anchor.totals ∧
          p'.target.sequence = anchor.throughMotionSequence := by
  obtain ⟨-, h⟩ := follow_ok.mp h
  have hwatermark : ReceiverPlayout.Settled { p with appliedControlSequence := message.sequence } :=
    ⟨hsettled.ahead, hsettled.cutoff, hsettled.completed_le, hsettled.completed_eq, hsettled.rebased, hsettled.pending⟩
  cases hanchor : message.payload.motionAnchor with
  | none =>
    rw [hanchor] at h
    obtain rfl := h
    exact ⟨hwatermark, rfl, rfl, rfl, rfl⟩
  | some anchor =>
    rw [hanchor] at h
    have hrebased := (ReceiverPlayout.settled_rebase hwatermark h).1
    obtain ⟨-, -, rfl⟩ := ReceiverPlayout.rebase_ok.mp h
    exact ⟨hrebased, rfl, rfl, rfl, rfl, rfl⟩

/-- **An accepted message moves both to the same place.** -/
theorem matches_follow {message : ReliableControlMessage} {now : MonotonicTimeMicros}
    {state : ActivationState} {delta : Option MotionDelta} {r : Receiver}
    {p p' : ReceiverPlayout F} (hmatches : Matches state p) (hsettled : p.Settled)
    (hanchored : Receiver.Anchored state message.payload delta)
    (h : follow message p = (.ok (), p')) :
    Matches (r.accepting message now state delta).2 p' := by
  obtain ⟨-, hsession, hwatermark, hmoved⟩ := settled_follow hsettled h
  have hstate : (r.accepting message now state delta).2 =
      refreshLease { Receiver.anchoredState state message.payload with
        held := Receiver.heldAfter (Receiver.anchoredState state message.payload).held message.payload
        lastControlSequence := message.sequence } now r.config.heldStateLease :=
    Receiver.acceptState_state now r.config.heldStateLease hanchored
  rw [hstate]
  unfold refreshLease Receiver.anchoredState
  cases hanchor : message.payload.motionAnchor with
  | none =>
    rw [hanchor] at hmoved
    obtain ⟨hinjected, htarget⟩ := hmoved
    refine ⟨hsession.trans hmatches.session, hinjected.trans hmatches.injected, ?_, ?_, ?_⟩
    · rw [htarget]
      exact hmatches.target
    · rw [htarget, hinjected]
      exact hmatches.reached
    · exact Nat.le_of_eq hwatermark
  | some anchor =>
    rw [hanchor] at hmoved
    obtain ⟨hinjected, htotals, hsequence⟩ := hmoved
    refine ⟨hsession.trans hmatches.session, hinjected, ?_, ?_, ?_⟩
    · exact Nat.le_of_eq hsequence.symm
    · exact fun _ => hinjected.trans htotals.symm
    · exact Nat.le_of_eq hwatermark

/-- A new playout that follows an `Enter` matches the activation it opened. -/
theorem matches_new {message : ReliableControlMessage} {now : MonotonicTimeMicros} {lease : Duration}
    {config : PlayoutConfig F} {p p' : ReceiverPlayout F} (hpayload : message.payload = .enter)
    (hnew : ReceiverPlayout.new config message.session = .ok p)
    (h : follow message p = (.ok (), p')) :
    p'.Settled ∧ Matches (Receiver.entered message now lease) p' := by
  obtain ⟨hsettled, -⟩ := ReceiverPlayout.settled_new hnew
  obtain ⟨hsettled', hsession, hwatermark, hmoved⟩ := settled_follow hsettled h
  have hanchor : message.payload.motionAnchor = none := by
    rw [hpayload]
    rfl
  rw [hanchor] at hmoved
  obtain ⟨hinjected, htarget⟩ := hmoved
  obtain ⟨-, minimum, -, rfl⟩ := ReceiverPlayout.new_eq_ok.mp hnew
  refine ⟨hsettled', hsession, hinjected, Nat.zero_le _, fun _ => ?_, Nat.le_of_eq hwatermark⟩
  rw [hinjected, htarget]
  rfl

/-- **A control keeps the lockstep.** -/
theorem applyControl_lockstep (env : Environment) (message : ReliableControlMessage) (now : MonotonicTimeMicros) :
    Act.Triple (Lockstep (F := F) (C := C)) (Inbound.applyControl env message now)
      (fun _ => Lockstep) StoppedInOrder := by
  intro i hi
  rcases Inbound.applyControl_cases env message now i with
    ⟨e, r, hne, -, hrun⟩ | ⟨effects, r, hanswer, hrun⟩
  · rw [hrun]
    exact ⟨hne, hi.inOrder⟩
  rw [hrun]
  have hctl := Receiver.receiveControl_ok hanswer
  have hinOrder : InOrder (i.answered message now effects r).effects :=
    hi.inOrder.append (inOrder_controlled hctl)
  -- a stop after the answer leaves the effects there were
  have hstop : ∀ e i', e ≠ Inbound.noPlayout → (i.answered message now effects r).Reset i' →
      StoppedInOrder e i' := by
    rintro e i' hne ⟨clock, playout, rfl⟩
    exact ⟨hne, hinOrder⟩
  refine Inbound.afterControl_triple ?_ ?_ ?_ ?_ ?_ ?_ ?_ _ rfl
  · intro hrejected
    refine emit_lockstep env effects ?_
    rcases Receiver.activation_of_rejected hctl hrejected with hsame | hnone
    · refine ⟨hi.settled, ?_, hinOrder⟩
      show ∀ state, r.activation = some state → _
      rw [hsame]
      exact hi.matched
    · exact .shut hi.settled hnone hinOrder
  · intro hquiet hplayout
    refine emit_lockstep env effects (.shut hi.settled ?_ hinOrder)
    rcases Receiver.activation_of_quiet hctl hquiet with hnone | ⟨state, delta, active, -, -⟩
    · exact hnone
    · obtain ⟨p, hp, -⟩ := hi.matched state active
      exact absurd (hplayout.symm.trans hp) (by simp)
  · intro hquiet p p' hplayout hfollow
    refine emit_lockstep env effects ?_
    have hsettled := hi.settled p hplayout
    have hsettled' : ∀ q, some p' = some q → q.Settled := by
      rintro q ⟨⟩
      exact (settled_follow hsettled hfollow).1
    rcases Receiver.activation_of_quiet hctl hquiet with hnone | ⟨state, delta, active, anchored, hactive⟩
    · exact .shut hsettled' hnone hinOrder
    · refine ⟨hsettled', fun state' h => ⟨p', rfl, ?_⟩, hinOrder⟩
      obtain rfl := Option.some.inj (hactive.symm.trans h)
      obtain ⟨q, hq, hmatches⟩ := hi.matched state active
      obtain rfl := Option.some.inj (hplayout.symm.trans hq)
      exact matches_follow hmatches hsettled anchored hfollow
  · exact fun _ _ _ _ e i' hne hreset => hstop e i' hne hreset
  · intro session hactive hopened clock p p' hnew hfollow
    refine emit_lockstep env effects ?_
    obtain ⟨hpayload, hentered⟩ := Receiver.activation_of_opened hctl hopened
    obtain rfl : session = message.session := by
      have hsome : r.activeContext = some message.session := by
        unfold Receiver.activeContext
        rw [hentered]
        rfl
      exact Option.some.inj (hactive.symm.trans hsome)
    obtain ⟨hsettled, hmatches⟩ := matches_new hpayload hnew hfollow
    refine ⟨?_, fun state h => ⟨p', rfl, ?_⟩, hinOrder⟩
    · rintro q ⟨⟩
      exact hsettled
    · obtain rfl := Option.some.inj (hentered.symm.trans h)
      exact hmatches
  · exact fun _ _ _ _ e i' hne hreset => hstop e i' hne hreset
  · rcases Receiver.kind_controlled hctl with h | h | ⟨h, h', h''⟩
    · exact .inl h
    · exact .inr (.inl h)
    · exact .inr (.inr ⟨h, h', _, h''⟩)

/-! ## Motion -/

omit [F64 F] in
/-- A playout that moved neither its target nor what is injected still matches. -/
theorem Matches.moved {state : ActivationState} {p p' : ReceiverPlayout F} (h : Matches state p)
    (hsession : p'.session = p.session) (hinjected : p'.injectedTotals = p.injectedTotals)
    (hsequence : p'.target.sequence = p.target.sequence)
    (htotals : p'.target.totals = p.target.totals)
    (happlied : p'.appliedControlSequence = p.appliedControlSequence) : Matches state p' where
  session := hsession.trans h.session
  injected := hinjected.trans h.injected
  target := hsequence ▸ h.target
  reached := by
    rw [hsequence, hinjected, htotals]
    exact h.reached
  watermark := happlied ▸ h.watermark

/-- A playout whose step the receiver has still to take. -/
structure Ahead (state : ActivationState) (p : ReceiverPlayout F) (step : PlayoutStep) : Prop where
  session : p.session = state.session
  later : state.lastInjectedMotion < step.throughSequence
  through : p.target.sequence = step.throughSequence
  injected : state.injectedTotals.checkedAdd step.delta = .ok p.injectedTotals
  reached : step.targetReached = true → p.injectedTotals = p.target.totals
  watermark : p.appliedControlSequence ≤ state.lastControlSequence

/-- **A poll** plays nothing and still matches, or is one step ahead, of a target the receiver has not
finished. -/
theorem poll_matches {state : ActivationState} {now : MonotonicTimeMicros}
    {result : Option PlayoutStep} {p p' : ReceiverPlayout F} (hsettled : p.Settled)
    (hmatches : Matches state p) (h : ReceiverPlayout.poll now p = (.ok result, p')) :
    (result = none ∧ Matches state p') ∨ ∃ step, result = some step ∧ Ahead state p' step := by
  obtain ⟨p₁, p₂, elapsed, own, hmoved, hselect, hend⟩ := ReceiverPlayout.poll_ok h
  have hmatches₁ : Matches state p₁ := hmatches.moved hmoved.session hmoved.injected
    (by rw [hmoved.target]) (by rw [hmoved.target]) hmoved.applied
  -- the target taken is the old one, or one that is not finished
  have htarget : p₂.session = state.session ∧ p₂.injectedTotals = state.injectedTotals ∧
      p₂.appliedControlSequence ≤ state.lastControlSequence ∧
      (p₂ = p₁ ∨ state.lastInjectedMotion < p₂.target.sequence) := by
    rcases ReceiverPlayout.select_ok hselect with ⟨-, rfl, -⟩ | ⟨sequence, queued, hnewest, -, hs⟩
    · exact ⟨hmatches₁.session, hmatches₁.injected, hmatches₁.watermark, .inl rfl⟩
    · refine ⟨hs.session.trans hmatches₁.session, hs.injected.trans hmatches₁.injected, ?_, .inr ?_⟩
      · rw [hs.applied]
        exact hmatches₁.watermark
      · have hahead := (hsettled.of_unmoved hmoved).ahead sequence hnewest.mem
        rw [hs.target]
        exact Nat.lt_of_le_of_lt hmatches₁.target hahead
  obtain ⟨hsession, hinjected, hwatermark, hlater⟩ := htarget
  obtain ⟨remaining, hremaining, ⟨rfl, hzero, -, rfl⟩ | ⟨u, injected, hcatch, hsum, hleft, rfl,
    hstepped⟩⟩ := ReceiverPlayout.pollTarget_ok hend
  · have htotals : p₂.injectedTotals = p₂.target.totals := by
      obtain ⟨hd, -⟩ := CumulativeMotion.checkedDeltaFrom_eq_ok.mp hremaining
      rw [hzero] at hd
      rw [← CumulativeMotion.displacement_inj]
      exact (MotionDelta.sub_eq_zero.mp hd.symm).symm
    refine .inl ⟨rfl, hsession, hinjected, ?_, fun _ => htotals, hwatermark⟩
    rcases hlater with rfl | hlt
    · exact hmatches₁.target
    · exact Nat.le_of_lt hlt
  · refine .inr ⟨_, rfl, hstepped.session.trans hsession, ?_, by rw [hstepped.target]; rfl, ?_, ?_, ?_⟩
    · rcases hlater with rfl | hlt
      · -- something was left of the old target, so it was not finished
        refine Nat.lt_of_le_of_ne hmatches₁.target fun heq => hleft ⟨?_, ?_⟩
        · obtain ⟨hd, -⟩ := CumulativeMotion.checkedDeltaFrom_eq_ok.mp hremaining
          rw [hd, hmatches₁.reached heq.symm]
          exact MotionDelta.sub_self _
        · exact (hsettled.of_unmoved hmoved).pending
      · exact hlt
    · rw [hstepped.injected, ← hinjected]
      exact hsum
    · intro hreached
      rw [hstepped.injected, hstepped.target]
      simpa [ReceiverPlayout.stepOf] using hreached
    · rw [hstepped.applied]
      exact hwatermark

/-- A poll stays with its session. -/
theorem poll_session {now : MonotonicTimeMicros} {result : Option PlayoutStep}
    {p p' : ReceiverPlayout F} (h : ReceiverPlayout.poll now p = (.ok result, p')) :
    p'.session = p.session := by
  obtain ⟨p₁, p₂, elapsed, own, hmoved, hselect, hend⟩ := ReceiverPlayout.poll_ok h
  have hselected : p₂.session = p₁.session := by
    rcases ReceiverPlayout.select_ok hselect with ⟨-, rfl, -⟩ | ⟨_, _, -, -, hs⟩
    · rfl
    · exact hs.session
  obtain ⟨_, -, ⟨-, -, -, rfl⟩ | ⟨_, _, -, -, -, -, hstepped⟩⟩ := ReceiverPlayout.pollTarget_ok hend
  · exact hselected.trans hmoved.session
  · exact (hstepped.session.trans hselected).trans hmoved.session

omit [F64 F] in
/-- **The receiver takes the step**, and stands where the playout does again; or it closes. -/
theorem play_matches {session : SessionContext} {step : PlayoutStep} {r : Receiver}
    {result : List ReceiverEffect × Receiver} {p : ReceiverPlayout F} (hsession : p.session = session)
    (hahead : ∀ state, r.activation = some state → Ahead state p step)
    (h : Receiver.Played session step r result) :
    InOrder result.1 ∧ ∀ state, result.2.activation = some state → Matches state p := by
  cases h with
  | refused reason kind =>
    rcases kind with ⟨rfl, hclosed⟩ | ⟨rfl, hnone⟩ | ⟨rfl, state, active, hother⟩ |
      ⟨rfl, state, active, -, hle⟩
    · refine ⟨fun s hmem => ?_, fun state active => ?_⟩
      · cases List.mem_singleton.mp hmem
      · have hsame := (Receiver.isClosed_iff.mp hclosed).2 state active
        rw [← hsession, (hahead state active).session] at hsame
        exact absurd rfl hsame
    · refine ⟨fun s hmem => ?_, fun state active => ?_⟩
      · cases List.mem_singleton.mp hmem
      · exact absurd (hnone.symm.trans active) (by simp)
    · exact absurd ((hahead state active).session.symm.trans hsession) hother
    · exact absurd hle (Nat.not_le_of_lt (hahead state active).later)
  | violated state active =>
    refine ⟨.of_quiet (Receiver.quiet_closeActivation _ _), fun state' h => ?_⟩
    rw [Receiver.closeActivation_activation] at h
    cases h
  | overflowed state active =>
    refine ⟨.of_quiet (Receiver.quiet_closeActivation _ _), fun state' h => ?_⟩
    rw [Receiver.closeActivation_activation] at h
    cases h
  | played state totals active same ahead touch sum =>
    have hstep := hahead state active
    have htotals : totals = p.injectedTotals := Except.ok.inj (sum.symm.trans hstep.injected)
    refine ⟨fun s hmem => ?_, fun state' h => ?_⟩
    · have hinjection := Receiver.effects_playState hmem
      cases hinjection
    · obtain rfl := Option.some.inj h
      rw [Receiver.playState_state]
      refine ⟨hstep.session, htotals.symm, ?_, ?_, hstep.watermark⟩
      · rw [hstep.through]
        show (if step.targetReached then _ else _) ≤ _
        split
        · exact Nat.le_refl _
        · exact Nat.le_of_lt hstep.later
      · intro heq
        rw [hstep.through] at heq
        by_cases hreached : step.targetReached = true
        · exact hstep.reached hreached
        · simp only [hreached] at heq
          exact absurd heq (Nat.ne_of_gt hstep.later)

omit [F64 F] [ClockMapper C] in
/-- A method of the playout that moves neither its target nor what is injected. -/
theorem onPlayout_lockstep {α : Type} {p : ReceiverPlayout F} {x : Act PlayoutError (ReceiverPlayout F) α}
    (h : ∀ a p', p.Settled → x p = (.ok a, p') → p'.Settled ∧ ∀ state, Matches state p → Matches state p') :
    Act.Triple (fun i : Inbound F C => Lockstep i ∧ i.playout = some p) (Inbound.onPlayout p x)
      (fun _ => Lockstep) StoppedInOrder := by
  refine Inbound.onPlayout_triple ?_ ?_
  · rintro i a p' ⟨hi, hplayout⟩ hx
    obtain ⟨hsettled, hkeeps⟩ := h a p' (hi.settled p hplayout) hx
    refine ⟨?_, fun state active => ⟨p', rfl, ?_⟩, hi.inOrder⟩
    · rintro q ⟨⟩
      exact hsettled
    · obtain ⟨q, hq, hmatches⟩ := hi.matched state active
      obtain rfl := Option.some.inj (hplayout.symm.trans hq)
      exact hkeeps state hmatches
  · rintro i e p' ⟨hi, -⟩ -
    exact ⟨by simp [Inbound.noPlayout], hi.inOrder⟩

omit [ClockMapper C] in
/-- **A poll keeps the lockstep**: its step is received in the same call. -/
theorem pollPlayout_lockstep (env : Environment) (now : MonotonicTimeMicros) :
    Act.Triple (Lockstep (F := F) (C := C)) (Inbound.pollPlayout env now) (fun _ => Lockstep) StoppedInOrder := by
  intro i hi
  rcases Inbound.pollPlayout_cases env now i with ⟨-, hrun⟩ | ⟨p, p', result, hplayout, hpoll, hcases⟩
  · rw [hrun]
    exact hi
  have hsettled := hi.settled p hplayout
  have hmatches : ∀ state, i.receiver.activation = some state → Matches state p := by
    intro state active
    obtain ⟨q, hq, h⟩ := hi.matched state active
    exact Option.some.inj (hplayout.symm.trans hq) ▸ h
  rcases hcases with ⟨e, hne, hrun⟩ | ⟨rfl, hrun⟩ | ⟨step, effects, r, rfl, hstep, hrun⟩
  · rw [hrun]
    exact ⟨hne, hi.inOrder⟩
  · rw [hrun]
    refine ⟨?_, fun state active => ⟨p', rfl, ?_⟩, hi.inOrder⟩
    · rintro q ⟨⟩
      exact (ReceiverPlayout.settled_poll hsettled hpoll).1
    · rcases poll_matches hsettled (hmatches state active) hpoll with ⟨-, h⟩ | ⟨step, h, -⟩
      · exact h
      · cases h
  · rw [hrun]
    have hahead : ∀ state, i.receiver.activation = some state → Ahead state p' step := by
      intro state active
      rcases poll_matches hsettled (hmatches state active) hpoll with ⟨h, -⟩ | ⟨_, h, hahead⟩
      · cases h
      · obtain rfl := Option.some.inj h
        exact hahead
    have hsession := (poll_session hpoll)
    have hreceived : InOrder effects ∧ ∀ state, r.activation = some state → Matches state p' := by
      rcases Receiver.receivePlayoutStep_ok hstep with ⟨-, hplayed⟩ | ⟨rest, rfl, hplayed⟩
      · exact play_matches (r := i.receiver.observed now) hsession hahead hplayed
      · obtain ⟨hrest, hnone⟩ := play_matches hsession (fun state h => by cases h) hplayed
        exact ⟨(InOrder.of_quiet (Receiver.quiet_closeActivation _ _)).append hrest, hnone⟩
    refine emit_lockstep env effects ⟨?_, fun state active => ⟨p', rfl, ?_⟩, ?_⟩ _ rfl
    · rintro q ⟨⟩
      exact (ReceiverPlayout.settled_poll hsettled hpoll).1
    · exact hreceived.2 state active
    · exact hi.inOrder.append hreceived.1

omit [F64 F] [ClockMapper C] in
/-- **The end of a lease keeps the lockstep**: nothing is open after it. -/
theorem expire_lockstep (env : Environment) (now : MonotonicTimeMicros) : Act.Triple (Lockstep (F := F) (C := C))
      (Inbound.onReceiver (Receiver.tick now) >>= Inbound.emit env) (fun _ => Lockstep) StoppedInOrder := by
  intro i hi
  rcases Receiver.tick_cases now i.receiver with ⟨-, hcall⟩ | ⟨-, hcall⟩
  · rw [Act.bind_of_error (Inbound.onReceiver_error hcall)]
    exact ⟨by simp [Inbound.noPlayout], hi.inOrder⟩
  · rw [Act.bind_of_ok (Inbound.onReceiver_ok hcall)]
    refine emit_lockstep env _ ?_ _ rfl
    by_cases hexp : (i.receiver.observed now).Expired now
    · rw [Receiver.expireLease_of_expired hexp]
      refine .shut hi.settled ?_ (hi.inOrder.append (.of_quiet (Receiver.quiet_closeActivation _ _)))
      rw [Receiver.closeActivation_activation]
    · rw [Receiver.expireLease_of_live hexp]
      exact hi.same rfl rfl (List.append_nil _)

/-- **The lockstep is kept by every run**, and no run stops for want of a playout. -/
theorem lockstep_rule (env : Environment) :
    Inbound.Rule env (fun _ => True) (Lockstep (F := F) (C := C)) StoppedInOrder where
  aside i i' h hi := hi.same h.playout (by rw [h.receiver]) h.effects
  stops e i hne hi := ⟨hne, hi.inOrder⟩
  matched i active hi hactive := by
    unfold Receiver.activeContext at hactive
    obtain ⟨state, hstate, rfl⟩ := Option.map_eq_some_iff.mp hactive
    obtain ⟨p, hp, hmatches⟩ := hi.matched state hstate
    exact ⟨p, hp, hmatches.session⟩
  control message now _ := applyControl_lockstep env message now
  ingest p frame now clock := by
    refine onPlayout_lockstep fun outcome p' hsettled h => ?_
    refine ⟨(ReceiverPlayout.settled_ingestFrame hsettled h).1, fun state hmatches => ?_⟩
    rcases ReceiverPlayout.ingestFrame_ok h with hmoved | ⟨mapped, -, -, hmoved⟩
    · exact hmatches.moved hmoved.session hmoved.injected (by rw [hmoved.target])
        (by rw [hmoved.target]) hmoved.applied
    · exact hmatches.moved hmoved.session hmoved.injected (by rw [hmoved.target])
        (by rw [hmoved.target]) hmoved.applied
  remap p clock := by
    refine onPlayout_lockstep fun _ p' hsettled h => ?_
    refine ⟨(ReceiverPlayout.settled_remapClock hsettled h).1, fun state hmatches => ?_⟩
    obtain ⟨-, hsession, happlied, -, ⟨mapped, htarget⟩, -, hinjected, -⟩ :=
      ReceiverPlayout.remapClock_ok h
    exact hmatches.moved hsession hinjected (by rw [htarget]) (by rw [htarget]) happlied
  poll now _ := pollPlayout_lockstep env now
  expire now _ := expire_lockstep env now

omit [F64 F] in
/-- A new session has nothing open and no playout. -/
theorem lockstep_new {config : ReceiverConfig} {playoutConfig : PlayoutConfig F}
    {now : MonotonicTimeMicros} {i : Inbound F C} (h : Inbound.new config playoutConfig now = .ok i) : Lockstep i := by
  obtain ⟨hreceiver, -, -, hplayout, -, -, -, heffects, -⟩ := Inbound.new_ok h
  refine .shut ?_ ?_ ?_
  · rw [hplayout]
    simp
  · rw [(Receiver.new_eq_ok.mp hreceiver).2]
  · rw [heffects]
    exact fun _ => List.not_mem_nil

/-- **Receiver and playout stay in lockstep.** After any calls that succeed on a new session, an open
activation has a playout of its own session, with its totals and a target at or ahead of the last
motion the receiver finished. A call that fails next does not fail for want of a playout, and neither
it nor any call before it has a playout step rejected as a duplicate or out of order. -/
theorem receiver_and_playout_agree (env : Environment) (config : ReceiverConfig)
    (playoutConfig : PlayoutConfig F) (start : MonotonicTimeMicros) (i : Inbound F C)
    (hnew : Inbound.new config playoutConfig start = .ok i) (calls : List InboundCall) :
    (∀ i', Inbound.runCalls env calls i = (.ok (), i') → (∀ state, i'.receiver.activation = some state →
        ∃ p, i'.playout = some p ∧ p.session = state.session ∧ p.injectedTotals = state.injectedTotals ∧
          state.lastInjectedMotion ≤ p.target.sequence) ∧
      ∀ session, .rejected session .duplicateOrReorderedMotion ∉ i'.effects) ∧
    ∀ e i', Inbound.runCalls env calls i = (.error e, i') →
      e ≠ .bail "active receiver has no matching playout scheduler" ∧
      ∀ session, .rejected session .duplicateOrReorderedMotion ∉ i'.effects := by
  have hrun := (lockstep_rule (F := F) (C := C) env).runCalls calls fun _ _ => trivial
  have hi := lockstep_new hnew
  refine ⟨fun i' h => ?_, fun e i' h => hrun.error hi h⟩
  have hi' := hrun.ok hi h
  refine ⟨fun state active => ?_, hi'.inOrder⟩
  obtain ⟨p, hp, hmatches⟩ := hi'.matched state active
  exact ⟨p, hp, hmatches.session, hmatches.injected, hmatches.target⟩

/-! ## A sample session -/

/-- A backend and transports that accept everything. -/
def acceptingEnvironment : Environment where
  supportsKey _ := true
  supportsButton _ := true
  supportsTouch := true
  applies _ := .ok ()
  sendsControl _ := .ok ()
  sendsProbe _ := .ok ()

def sampleInbound : Inbound ℚ OffsetClock where
  playoutConfig := samplePlayoutConfig
  receiver := sampleReceiver
  clock := ⟨none, false⟩
  playout := none
  pending := []
  responseSequence := 0
  probes := ∅
  nextProbeSequence := 1
  probeContext := none
  nextProbeAt := 100000
  handed := []
  replies := []
  datagrams := []
  effects := []
  applied := []

/-- An activation opens, and two ticks play a frame whose predecessor was lost. -/
def sampleInboundCalls : List InboundCall :=
  [.receiveControl (sampleControl 1 .enter) 10,
    .receiveMotion ⟨sampleSession, 2, 1, 10, ⟨100, 0, 0, 0⟩, none⟩ 12, .tick 20 20, .tick 1020 1020]

def sampleInboundRun : Inbound ℚ OffsetClock :=
  (Inbound.runCalls acceptingEnvironment sampleInboundCalls sampleInbound).2

theorem receiver_and_playout_agree_sample : ∃ state p, sampleInboundRun.receiver.activation = some state ∧
      sampleInboundRun.playout = some p ∧ p.session = state.session ∧
      p.injectedTotals = state.injectedTotals ∧ state.lastInjectedMotion ≤ p.target.sequence := by
  have hopen : sampleInboundRun.receiver.activation.isSome = true := by decide +kernel
  obtain ⟨state, hstate⟩ := Option.isSome_iff_exists.mp hopen
  obtain ⟨p, hp⟩ := ((receiver_and_playout_agree acceptingEnvironment sampleConfig
    samplePlayoutConfig 0 sampleInbound (by decide +kernel) sampleInboundCalls).1 sampleInboundRun
    (by decide +kernel)).1 state hstate
  exact ⟨state, p, hstate, hp⟩

end Zflow.Session
