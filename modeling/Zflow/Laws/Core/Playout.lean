import Zflow.Core.Playout

/-!
# What playout's methods do to its motion

The delay estimate, the velocities and the times a `ReceiverPlayout` keeps have no part in what it
injects. `Unmoved` says that two states agree on the rest, and the methods that only touch those
fields are shown to be `Unmoved` once, whatever they answer. Each of the other methods has one lemma
that says what a success leaves.
-/

namespace Zflow.Core

open Lib

variable {F : Type} [F64 F]

/-- Validation answers the configuration it was given. -/
theorem PlayoutConfig.validate_ok {c c' : PlayoutConfig F} (h : c.validate = .ok c') : c' = c := by
  unfold PlayoutConfig.validate at h
  simp only [bind, Except.bind, pure, Except.pure, throw, throwThe, MonadExceptOf.throw] at h
  repeat' split at h
  all_goals first
    | exact (Except.ok.inj h).symm
    | cases h

namespace ReceiverPlayout

/-- The state of a playout before its first frame. -/
def fresh (config : PlayoutConfig F) (session : SessionContext) (minimum : Nat) :
    ReceiverPlayout F where
  config := config
  session := session
  appliedControlSequence := 0
  queue := ∅
  delaySamples := []
  adaptiveDelayMicros := minimum
  delayPercentileMicros := none
  target := ⟨0, .zero, none, 0, none⟩
  completedSequence := 0
  injectedTotals := .zero
  rebaseCutoff := none
  pointerVelocityPerMicro := F64.ofNat 0
  scrollVelocityPerMicro := F64.ofNat 0
  velocitySample := none
  lastObservedTime := none
  lastPollTime := none
  schedulerLateCount := 0
  catchUpStepCount := 0

/-- **A playout starts fresh**, when its configuration is valid, whatever its session. -/
theorem new_eq_ok {config : PlayoutConfig F} {session : SessionContext} {p : ReceiverPlayout F} :
    new config session = .ok p ↔ config.validate = .ok config ∧
      ∃ minimum, durationMicros config.minimumDelay = .ok minimum ∧
        p = fresh config session minimum := by
  unfold new
  cases hvalid : config.validate with
  | error e => simp [bind, Except.bind]
  | ok config' =>
    obtain rfl := PlayoutConfig.validate_ok hvalid
    cases hminimum : durationMicros config'.minimumDelay with
    | error e => simp [hminimum, bind, Except.bind]
    | ok minimum =>
      simp only [hminimum, bind, Except.bind, pure, Except.pure, Except.ok.injEq, true_and, exists_eq_left']
      exact eq_comm

/-- The two states agree on everything that decides what is injected, but for the delay and the
velocities. -/
structure Unmoved (p p' : ReceiverPlayout F) : Prop where
  config : p'.config = p.config
  session : p'.session = p.session
  applied : p'.appliedControlSequence = p.appliedControlSequence
  queue : p'.queue = p.queue
  target : p'.target = p.target
  completed : p'.completedSequence = p.completedSequence
  injected : p'.injectedTotals = p.injectedTotals
  cutoff : p'.rebaseCutoff = p.rebaseCutoff

theorem Unmoved.refl (p : ReceiverPlayout F) : Unmoved p p := ⟨rfl, rfl, rfl, rfl, rfl, rfl, rfl, rfl⟩

theorem Unmoved.trans {a b c : ReceiverPlayout F} (hab : Unmoved a b) (hbc : Unmoved b c) : Unmoved a c where
  config := hbc.config.trans hab.config
  session := hbc.session.trans hab.session
  applied := hbc.applied.trans hab.applied
  queue := hbc.queue.trans hab.queue
  target := hbc.target.trans hab.target
  completed := hbc.completed.trans hab.completed
  injected := hbc.injected.trans hab.injected
  cutoff := hbc.cutoff.trans hab.cutoff

/-- A method that moves nothing, whether it succeeds or fails. -/
abbrev Still {α : Type} (x : Act PlayoutError (ReceiverPlayout F) α) : Prop :=
  ∀ p, Act.Triple (Unmoved p) x (fun _ => Unmoved p) (fun _ => Unmoved p)

theorem Still.of_eq {α : Type} {x : Act PlayoutError (ReceiverPlayout F) α} (h : Still x)
    {p p' : ReceiverPlayout F} {result : Except PlayoutError α} (hx : x p = (result, p')) :
    Unmoved p p' := by
  have hp := h p p (.refl p)
  rw [hx] at hp
  cases result <;> exact hp

theorem Still.pure {α : Type} (a : α) : Still (F := F) (Pure.pure a) :=
  fun _ => .pure fun _ => id

theorem Still.bind {α β : Type} {x : Act PlayoutError (ReceiverPlayout F) α}
    {f : α → Act PlayoutError (ReceiverPlayout F) β} (hx : Still x) (hf : ∀ a, Still (f a)) :
    Still (x >>= f) := fun p => .bind (hx p) fun a => hf a p

theorem Still.read : Still (F := F) Act.read := fun _ _ => id

theorem Still.lift {α ε : Type} {wrap : ε → PlayoutError} (x : Except ε α) : Still (F := F) (Act.lift wrap x) :=
  fun _ => .lift (fun _ _ _ => id) fun _ _ _ => id

theorem Still.change {f : ReceiverPlayout F → ReceiverPlayout F} (h : ∀ p, Unmoved p (f p)) :
    Still (Act.change f) := fun _ => .change fun s hs => hs.trans (h s)

theorem still_observeTime (now : MonotonicTimeMicros) : Still (F := F) (observeTime now) := by
  intro p s hs
  unfold observeTime
  by_cases h : s.lastObservedTime.any (now < ·) = true
  · rw [if_pos h]
    exact hs
  · rw [if_neg h]
    exact hs.trans ⟨rfl, rfl, rfl, rfl, rfl, rfl, rfl, rfl⟩

theorem still_recomputeAdaptiveDelay : Still (F := F) recomputeAdaptiveDelay := by
  refine .bind .read fun p => ?_
  split
  · refine .bind (.change fun _ => ⟨rfl, rfl, rfl, rfl, rfl, rfl, rfl, rfl⟩) fun _ => ?_
    refine .bind (.lift _) fun minimum => ?_
    exact .change fun _ => ⟨rfl, rfl, rfl, rfl, rfl, rfl, rfl, rfl⟩
  · refine .bind (.change fun _ => ⟨rfl, rfl, rfl, rfl, rfl, rfl, rfl, rfl⟩) fun _ => ?_
    refine .bind (.lift _) fun margin => .bind (.lift _) fun minimum => .bind (.lift _) fun _ => ?_
    exact .change fun _ => ⟨rfl, rfl, rfl, rfl, rfl, rfl, rfl, rfl⟩

theorem still_recordDelaySample (receivedAt : MonotonicTimeMicros) (delay : Nat) :
    Still (F := F) (recordDelaySample receivedAt delay) := by
  refine .bind (.change fun _ => ⟨rfl, rfl, rfl, rfl, rfl, rfl, rfl, rfl⟩) fun _ => ?_
  refine .bind .read fun p => .bind (.lift _) fun maximumAge => ?_
  refine .bind (.change fun _ => ⟨rfl, rfl, rfl, rfl, rfl, rfl, rfl, rfl⟩) fun _ => ?_
  exact still_recomputeAdaptiveDelay

theorem still_pollElapsed (now : MonotonicTimeMicros) : Still (F := F) (pollElapsed now) := by
  refine .bind .read fun p => .bind (.lift _) fun nominal => ?_
  refine .bind (.change fun _ => ⟨rfl, rfl, rfl, rfl, rfl, rfl, rfl, rfl⟩) fun _ => ?_
  exact .pure _

theorem still_updateVelocity (newest : VelocitySample) : Still (F := F) (updateVelocity newest) := by
  refine .bind .read fun p => ?_
  split
  · exact .change fun _ => ⟨rfl, rfl, rfl, rfl, rfl, rfl, rfl, rfl⟩
  · split
    · exact fun _ => .fail fun _ => id
    · dsimp only
      split
      · refine .bind (.lift _) fun delta => ?_
        refine .bind (.change fun _ => ⟨rfl, rfl, rfl, rfl, rfl, rfl, rfl, rfl⟩) fun _ => ?_
        exact .change fun _ => ⟨rfl, rfl, rfl, rfl, rfl, rfl, rfl, rfl⟩
      · exact .change fun _ => ⟨rfl, rfl, rfl, rfl, rfl, rfl, rfl, rfl⟩

/-! ## What a success leaves -/

/-- The queue with some mapped times replaced has the frames it had. -/
theorem frame_foldl_alter (times : List (MotionSequence × MonotonicTimeMicros))
    (queue : Std.ExtTreeMap MotionSequence QueuedFrame) (sequence : MotionSequence) :
    ((times.foldl (fun queue entry => queue.alter entry.1
        (Option.map fun queued => { queued with mappedCaptureTime := entry.2 })) queue)[sequence]?).map
      QueuedFrame.frame = (queue[sequence]?).map QueuedFrame.frame := by
  induction times generalizing queue with
  | nil => rfl
  | cons entry times ih =>
    rw [List.foldl_cons, ih, Std.ExtTreeMap.getElem?_alter]
    by_cases h : compare entry.1 sequence = .eq
    · have hsame : entry.1 = sequence := Std.LawfulEqCmp.eq_of_compare h
      rw [if_pos h, hsame]
      cases queue[sequence]? <;> rfl
    · rw [if_neg h]

/-- Two queues with the same frames, at times that may differ. -/
def SameFrames (queue queue' : Std.ExtTreeMap MotionSequence QueuedFrame) : Prop :=
  ∀ sequence : MotionSequence,
    (queue'[sequence]?).map QueuedFrame.frame = (queue[sequence]?).map QueuedFrame.frame

/-- **A remap changes times only.** -/
theorem remapClock_ok {C : Type} [ClockMapper C] {clock : C} {p p' : ReceiverPlayout F}
    (h : remapClock clock p = (.ok (), p')) : p'.config = p.config ∧ p'.session = p.session ∧
      p'.appliedControlSequence = p.appliedControlSequence ∧ SameFrames p.queue p'.queue ∧
      (∃ mapped, p'.target = { p.target with mappedCaptureTime := mapped }) ∧
      p'.completedSequence = p.completedSequence ∧ p'.injectedTotals = p.injectedTotals ∧
      p'.rebaseCutoff = p.rebaseCutoff := by
  unfold remapClock at h
  obtain ⟨_, _, hread, h⟩ := Act.bind_eq_ok.mp h
  cases hread
  obtain ⟨queue, _, hqueue, h⟩ := Act.bind_eq_ok.mp h
  obtain ⟨-, rfl⟩ := Prod.mk.inj hqueue
  obtain ⟨target, _, htarget, h⟩ := Act.bind_eq_ok.mp h
  obtain ⟨-, rfl⟩ := Prod.mk.inj htarget
  obtain ⟨_, _, hchange, h⟩ := Act.bind_eq_ok.mp h
  cases hchange
  obtain ⟨minimum, _, hminimum, h⟩ := Act.bind_eq_ok.mp h
  obtain ⟨-, rfl⟩ := Prod.mk.inj hminimum
  cases h
  exact ⟨rfl, rfl, rfl, frame_foldl_alter queue p.queue, ⟨_, rfl⟩, rfl, rfl, rfl⟩

omit [F64 F] in
theorem advanceControlWatermark_ok {applied : ControlSequence} {p p' : ReceiverPlayout F} :
    advanceControlWatermark applied p = (.ok (), p') ↔
      p.appliedControlSequence ≤ applied ∧ p' = { p with appliedControlSequence := applied } := by
  unfold advanceControlWatermark
  by_cases h : applied < p.appliedControlSequence
  · simp [if_pos h, Nat.not_le_of_lt h]
  · simp [if_neg h, Nat.le_of_not_lt h, eq_comm]

/-- **A rebase moves the target, the baseline and the cutoff to the anchor.** It answers just when
the anchor is not behind the target and its difference is in range. -/
theorem rebase_ok {through : MotionSequence} {totals : CumulativeMotion} {p p' : ReceiverPlayout F} :
    rebase through totals p = (.ok (), p') ↔
      p.target.sequence ≤ through ∧ (∃ d, totals.checkedDeltaFrom p.injectedTotals = .ok d) ∧ p' = { p with
        queue := p.queue.filter fun sequence _ => through < sequence
        target := { p.target with
          sequence := through, totals := totals, pendingTouchSnapshot := none }
        completedSequence := through
        injectedTotals := totals
        rebaseCutoff := some (p.rebaseCutoff.elim through (max · through))
        velocitySample := none
        pointerVelocityPerMicro := F64.ofNat 0
        scrollVelocityPerMicro := F64.ofNat 0 } := by
  unfold rebase
  rw [Act.bind_of_ok (Act.read_apply p)]
  by_cases h : through < p.target.sequence
  · simp [if_pos h, Nat.not_le_of_lt h]
  · rw [if_neg h]
    have hle := Nat.le_of_not_lt h
    cases hdelta : totals.checkedDeltaFrom p.injectedTotals with
    | error e => simp [Act.bind_apply, Act.lift, Except.mapError]
    | ok d =>
      simp only [Act.bind_apply, Act.lift, Except.mapError, Act.change_apply, Prod.mk.injEq,
        true_and, hle, Except.ok.injEq, exists_eq']
      exact eq_comm

/-- What a poll leaves that took `queued`, the frame of `sequence`, as its target. -/
structure Selected (p p' : ReceiverPlayout F) (sequence : MotionSequence) (queued : QueuedFrame) :
    Prop where
  config : p'.config = p.config
  session : p'.session = p.session
  applied : p'.appliedControlSequence = p.appliedControlSequence
  queue : p'.queue = (p.queue.erase sequence).filter fun queuedSequence _ =>
    sequence < queuedSequence
  target : p'.target = ⟨sequence, queued.frame.totals, some queued.frame.senderCaptureTime,
    queued.mappedCaptureTime, queued.frame.touchSnapshot⟩
  completed : p'.completedSequence = p.completedSequence
  injected : p'.injectedTotals = p.injectedTotals
  cutoff : p'.rebaseCutoff = p.rebaseCutoff

/-- The frame is the mature one with the highest number. -/
structure Newest (p : ReceiverPlayout F) (now : MonotonicTimeMicros) (sequence : MotionSequence)
    (queued : QueuedFrame) : Prop where
  found : p.queue[sequence]? = some queued
  mature : p.isMature now queued = true
  newest : ∀ (other : MotionSequence) (later : QueuedFrame), p.queue[other]? = some later →
    p.isMature now later = true → other ≤ sequence

omit [F64 F] in
theorem Newest.mem {p : ReceiverPlayout F} {now : MonotonicTimeMicros} {sequence : MotionSequence}
    {queued : QueuedFrame} (h : Newest p now sequence queued) : sequence ∈ p.queue := by
  rw [Std.ExtTreeMap.mem_iff_isSome_getElem?, h.found]
  rfl

/-- What is found first from the end of an ordered list has the highest key. -/
theorem le_of_find?_reverse {β : Type} {entries : List (Nat × β)} {q : Nat × β → Bool} {e : Nat × β}
    (hordered : entries.Pairwise fun a b => a.1 < b.1) (hfind : entries.reverse.find? q = some e) :
    ∀ other ∈ entries, q other = true → other.1 ≤ e.1 := by
  intro other hother hq
  obtain ⟨-, later, earlier, hsplit, hlater⟩ := List.find?_eq_some_iff_append.mp hfind
  have hreversed : (later ++ e :: earlier).Pairwise fun a b => b.1 < a.1 := by
    rw [← hsplit]
    exact List.pairwise_reverse.mpr hordered
  rcases List.mem_append.mp (hsplit ▸ List.mem_reverse.mpr hother) with hin | hin
  · have hnot := hlater other hin
    rw [hq] at hnot
    cases hnot
  · rcases List.mem_cons.mp hin with rfl | hin
    · exact Nat.le_refl _
    · have hbelow := (List.pairwise_cons.mp (List.pairwise_append.mp hreversed).2.1).1
      exact (hbelow other hin).le

/-- The frame that is found first from the newest end is the newest. -/
theorem newest_of_find? {p : ReceiverPlayout F} {now : MonotonicTimeMicros} {sequence : MotionSequence}
    {queued : QueuedFrame}
    (hfind : (p.queue.toList.reverse.find? fun entry => p.isMature now entry.2) = some (sequence, queued)) :
    Newest p now sequence queued := by
  have hmem := List.mem_reverse.mp (List.mem_of_find?_eq_some hfind)
  have hfound := List.find?_some hfind
  have hordered : p.queue.toList.Pairwise fun a b => a.1 < b.1 :=
    Std.ExtTreeMap.ordered_keys_toList.imp Std.compare_eq_lt.mp
  refine ⟨Std.ExtTreeMap.mem_toList_iff_getElem?_eq_some.mp hmem, hfound, ?_⟩
  intro other later hlater hmature
  have hentry := Std.ExtTreeMap.mem_toList_iff_getElem?_eq_some.mpr hlater
  exact le_of_find?_reverse hordered hfind (other, later) hentry hmature

/-- **Selecting** leaves everything, or takes the newest mature frame of the queue as the target. -/
theorem select_ok {now : MonotonicTimeMicros} {own : Option CumulativeMotion}
    {p p' : ReceiverPlayout F} (h : selectNewestMatureTarget now p = (.ok own, p')) : (own = none ∧ p' = p ∧
      ∀ (sequence : MotionSequence) (queued : QueuedFrame), p.queue[sequence]? = some queued →
        p.isMature now queued = false) ∨
    ∃ sequence queued, Newest p now sequence queued ∧ own = p.ownSampleStart sequence ∧
      Selected p p' sequence queued := by
  unfold selectNewestMatureTarget at h
  rw [Act.bind_of_ok (Act.read_apply p)] at h
  cases hfind : p.queue.toList.reverse.find? fun entry => p.isMature now entry.2 with
  | none =>
    simp only [hfind] at h
    cases h
    refine .inl ⟨rfl, rfl, fun sequence queued hq => ?_⟩
    have hmem := List.mem_reverse.mpr (Std.ExtTreeMap.mem_toList_iff_getElem?_eq_some.mpr hq)
    simpa using List.find?_eq_none.mp hfind (sequence, queued) hmem
  | some entry =>
    obtain ⟨sequence, queued⟩ := entry
    simp only [hfind] at h
    obtain ⟨_, p₁, hdropped, h⟩ := Act.bind_eq_ok.mp h
    obtain ⟨_, p₂, hvelocity, h⟩ := Act.bind_eq_ok.mp h
    obtain ⟨_, p₃, htarget, h⟩ := Act.bind_eq_ok.mp h
    have hstill := (still_updateVelocity _).of_eq hvelocity
    cases hdropped
    cases htarget
    cases h
    refine .inr ⟨sequence, queued, newest_of_find? hfind, rfl, ?_⟩
    exact ⟨hstill.config, hstill.session, hstill.applied, hstill.queue, rfl, hstill.completed,
      hstill.injected, hstill.cutoff⟩

/-- **The step of a poll**: the backlog goes through the limiter, and the newest sample is whole. -/
theorem catchUp_ok {p : ReceiverPlayout F} {own : Option CumulativeMotion} {elapsed : Nat}
    {u : CatchUp} (h : p.catchUp own elapsed = .ok u) : ∃ backlog pointerCap scrollCap,
      (own.getD p.target.totals).checkedDeltaFrom p.injectedTotals = .ok backlog ∧
      p.target.totals.checkedDeltaFrom (own.getD p.target.totals) = .ok u.fresh ∧
      u.limited = ⟨(limitPair F backlog.dx backlog.dy pointerCap).1,
        (limitPair F backlog.dx backlog.dy pointerCap).2.1, (limitPair F backlog.scrollX backlog.scrollY scrollCap).1,
        (limitPair F backlog.scrollX backlog.scrollY scrollCap).2.1⟩ := by
  unfold catchUp at h
  obtain ⟨backlog, hbacklog, h⟩ := Act.except_bind_eq_ok.mp h
  obtain ⟨fresh, hfresh, h⟩ := Act.except_bind_eq_ok.mp h
  obtain ⟨pointerCap, -, h⟩ := Act.except_bind_eq_ok.mp h
  obtain ⟨scrollCap, -, h⟩ := Act.except_bind_eq_ok.mp h
  cases h
  exact ⟨backlog, pointerCap, scrollCap, Act.mapError_eq_ok.mp hbacklog, Act.mapError_eq_ok.mp hfresh, rfl⟩

/-- The step that plays `u` towards the target of `p`. -/
def stepOf (p : ReceiverPlayout F) (u : CatchUp) (injected : CumulativeMotion) : PlayoutStep where
  mappedCaptureTime := p.target.mappedCaptureTime
  throughSequence := p.target.sequence
  delta := u.delta
  touchSnapshot := p.target.pendingTouchSnapshot
  targetReached := injected = p.target.totals
  pointerCatchUpLimited := u.pointerLimited
  scrollCatchUpLimited := u.scrollLimited

/-- What a poll leaves that played a step and stands at `injected`. -/
structure Stepped (p p' : ReceiverPlayout F) (injected : CumulativeMotion) : Prop where
  config : p'.config = p.config
  session : p'.session = p.session
  applied : p'.appliedControlSequence = p.appliedControlSequence
  queue : p'.queue = p.queue
  target : p'.target = { p.target with pendingTouchSnapshot := none }
  completed : p'.completedSequence =
    if injected = p.target.totals then max p.completedSequence p.target.sequence
    else p.completedSequence
  injected : p'.injectedTotals = injected
  cutoff : p'.rebaseCutoff = p.rebaseCutoff

/-- **The end of a poll**: nothing is left of the target, or one step is played towards it. -/
theorem pollTarget_ok {own : Option CumulativeMotion} {elapsed : Nat} {result : Option PlayoutStep}
    {p p' : ReceiverPlayout F} (h : pollTarget own elapsed p = (.ok result, p')) :
    ∃ remaining, p.target.totals.checkedDeltaFrom p.injectedTotals = .ok remaining ∧
      ((result = none ∧ remaining = 0 ∧ p.target.pendingTouchSnapshot = none ∧
        p' = { p with completedSequence := max p.completedSequence p.target.sequence }) ∨
      ∃ u injected, p.catchUp own elapsed = .ok u ∧ p.injectedTotals.checkedAdd u.delta = .ok injected ∧
        ¬ (remaining = 0 ∧ p.target.pendingTouchSnapshot = none) ∧
        result = some (stepOf p u injected) ∧ Stepped p p' injected) := by
  unfold pollTarget at h
  rw [Act.bind_of_ok (Act.read_apply p)] at h
  obtain ⟨remaining, _, hremaining, h⟩ := Act.bind_eq_ok.mp h
  obtain ⟨hdelta, rfl⟩ := Act.lift_eq_ok.mp hremaining
  refine ⟨remaining, hdelta, ?_⟩
  obtain ⟨_, p₁, htaken, h⟩ := Act.bind_eq_ok.mp h
  cases htaken
  by_cases hdone : remaining = 0 ∧ p.target.pendingTouchSnapshot = none
  · rw [if_pos hdone] at h
    cases h
    refine .inl ⟨rfl, hdone.1, hdone.2, ?_⟩
    rw [← hdone.2]
  · rw [if_neg hdone] at h
    obtain ⟨u, _, hu, h⟩ := Act.bind_eq_ok.mp h
    obtain ⟨hcatch, rfl⟩ := Act.lift_eq_ok.mp hu
    obtain ⟨injected, _, hi, h⟩ := Act.bind_eq_ok.mp h
    obtain ⟨hsum, rfl⟩ := Act.lift_eq_ok.mp hi
    refine .inr ⟨u, injected, hcatch, hsum, hdone, ?_⟩
    obtain ⟨_, p₂, hplayed, h⟩ := Act.bind_eq_ok.mp h
    cases hplayed
    cases h
    exact ⟨rfl, rfl, rfl, rfl, rfl, rfl, by simp, rfl, rfl⟩

/-- **A poll** is a selection and a step towards the target, over state that does not move. -/
theorem poll_ok {now : MonotonicTimeMicros} {result : Option PlayoutStep}
    {p p' : ReceiverPlayout F} (h : poll now p = (.ok result, p')) :
    ∃ p₁ p₂ elapsed own, Unmoved p p₁ ∧ selectNewestMatureTarget now p₁ = (.ok own, p₂) ∧
      pollTarget own elapsed p₂ = (.ok result, p') := by
  unfold poll at h
  obtain ⟨_, q, hobserve, h⟩ := Act.bind_eq_ok.mp h
  obtain ⟨elapsed, p₁, helapsed, h⟩ := Act.bind_eq_ok.mp h
  obtain ⟨own, p₂, hselect, h⟩ := Act.bind_eq_ok.mp h
  have hmoved := ((still_observeTime now).of_eq hobserve).trans ((still_pollElapsed now).of_eq helapsed)
  exact ⟨p₁, p₂, elapsed, own, hmoved, hselect, h⟩

/-- **An ingest** moves nothing, or queues the frame, which is of the session and ahead of the
target. -/
theorem ingestFrame_ok {C : Type} [ClockMapper C] {frame : MotionFrame}
    {receivedAt : MonotonicTimeMicros} {clock : C} {outcome : EnqueueOutcome}
    {p p' : ReceiverPlayout F} (h : ingestFrame frame receivedAt clock p = (.ok outcome, p')) :
    Unmoved p p' ∨ ∃ mapped, frame.session = p.session ∧ p.target.sequence < frame.motionSequence ∧
      Unmoved { p with queue := p.queue.insert frame.motionSequence ⟨frame, mapped⟩ } p' := by
  unfold ingestFrame at h
  obtain ⟨_, p₁, hobserve, h⟩ := Act.bind_eq_ok.mp h
  have hmoved := (still_observeTime receivedAt).of_eq hobserve
  rw [Act.bind_of_ok (Act.read_apply p₁)] at h
  by_cases hsession : frame.session ≠ p₁.session
  · rw [if_pos hsession] at h
    cases h
  rw [if_neg hsession] at h
  by_cases hcutoff : p₁.rebaseCutoff.any (frame.motionSequence ≤ ·) = true
  · rw [if_pos hcutoff] at h
    cases h
    exact .inl hmoved
  rw [if_neg hcutoff] at h
  by_cases htarget : frame.motionSequence ≤ p₁.target.sequence
  · rw [if_pos htarget] at h
    obtain ⟨mapped, _, hmap, h⟩ := Act.bind_eq_ok.mp h
    obtain ⟨-, rfl⟩ := Act.lift_eq_ok.mp hmap
    obtain ⟨_, p₂, hrecord, h⟩ := Act.bind_eq_ok.mp h
    cases h
    exact .inl (hmoved.trans ((still_recordDelaySample _ _).of_eq hrecord))
  rw [if_neg htarget] at h
  cases hexisting : p₁.queue[frame.motionSequence]? with
  | some existing =>
    simp only [hexisting] at h
    by_cases hsame : existing.frame = frame
    · rw [if_pos hsame] at h
      cases h
      exact .inl hmoved
    · rw [if_neg hsame] at h
      cases h
  | none =>
    simp only [hexisting] at h
    by_cases hfull : p₁.queue.size = p₁.config.maximumQueuedFrames
    · rw [if_pos hfull] at h
      cases h
    rw [if_neg hfull] at h
    obtain ⟨mapped, _, hmap, h⟩ := Act.bind_eq_ok.mp h
    obtain ⟨-, rfl⟩ := Act.lift_eq_ok.mp hmap
    obtain ⟨_, _, horder, h⟩ := Act.bind_eq_ok.mp h
    obtain ⟨-, rfl⟩ := Act.lift_eq_ok.mp horder
    obtain ⟨_, p₂, hrecord, h⟩ := Act.bind_eq_ok.mp h
    obtain ⟨_, p₃, hqueued, h⟩ := Act.bind_eq_ok.mp h
    have hall := hmoved.trans ((still_recordDelaySample _ _).of_eq hrecord)
    cases hqueued
    cases h
    refine .inr ⟨mapped, ?_, ?_, ?_⟩
    · rw [not_not.mp hsession, hmoved.session]
    · rw [← hmoved.target]
      exact Nat.lt_of_not_le htarget
    · have hqueue := congrArg (·.insert frame.motionSequence (⟨frame, mapped⟩ : QueuedFrame)) hall.queue
      exact ⟨hall.config, hall.session, hall.applied, hqueue, hall.target, hall.completed, hall.injected, hall.cutoff⟩

end ReceiverPlayout

end Zflow.Core
