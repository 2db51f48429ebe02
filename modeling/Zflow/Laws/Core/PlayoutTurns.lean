import Zflow.Laws.Core.Rational

/-!
# When playout takes a frame, and what it drops with it

A poll takes the newest mature frame and drops the ones below it. `next_deadline` is the earliest time at
which some frame is mature, so a caller that sleeps until then finds one, and only then (`turns_exactly`).
The motion of a dropped frame is in the totals of the one taken; its touch snapshot is nowhere else, and is
lost (`touch_kept_iff`).

Nothing here asks how the calls before went: what is shown of the queue and of the target holds after every
call, whether it succeeds or fails.
-/

namespace Zflow.Core

open Lib

variable {F : Type} [F64 F] {C : Type} [ClockMapper C]

namespace ReceiverPlayout

variable {p p' : ReceiverPlayout F} {now : MonotonicTimeMicros} {result : Option PlayoutStep}

/-! ## One poll -/

/-- What a poll finds that is let through: the state it was given, at the time of the poll. -/
theorem poll_eq_ok (h : poll now p = (.ok result, p')) : ∃ p₂ elapsed own, selectNewestMatureTarget now
        { p with lastObservedTime := some now, lastPollTime := some now } = (.ok own, p₂) ∧
      pollTarget own elapsed p₂ = (.ok result, p') := by
  unfold poll at h
  obtain ⟨_, q, hobserve, hrest⟩ := Act.bind_eq_ok.mp h
  obtain ⟨elapsed, p₁, helapsed, hrest⟩ := Act.bind_eq_ok.mp hrest
  obtain ⟨own, p₂, hselect, hend⟩ := Act.bind_eq_ok.mp hrest
  unfold observeTime at hobserve
  split at hobserve
  · cases hobserve
  cases hobserve
  unfold pollElapsed at helapsed
  obtain ⟨_, _, hread, helapsed⟩ := Act.bind_eq_ok.mp helapsed
  cases hread
  obtain ⟨nominal, _, hlift, helapsed⟩ := Act.bind_eq_ok.mp helapsed
  obtain ⟨-, rfl⟩ := Act.lift_eq_ok.mp hlift
  obtain ⟨_, _, hchange, helapsed⟩ := Act.bind_eq_ok.mp helapsed
  cases hchange
  cases helapsed
  exact ⟨p₂, _, own, hselect, hend⟩

/-- The target of a poll's end stays, and its touch snapshot is handed out. -/
theorem pollTarget_turn {own : Option CumulativeMotion} {elapsed : Nat}
    (h : pollTarget own elapsed p = (.ok result, p')) :
    p'.queue = p.queue ∧ p'.target = { p.target with pendingTouchSnapshot := none } ∧
      result.bind (·.touchSnapshot) = p.target.pendingTouchSnapshot := by
  obtain ⟨_, -, ⟨rfl, -, hpending, rfl⟩ | ⟨u, injected, -, -, -, rfl, hstepped⟩⟩ := pollTarget_ok h
  · refine ⟨rfl, ?_, hpending.symm⟩
    rw [← hpending]
  · exact ⟨hstepped.queue, hstepped.target, rfl⟩

/-- What a poll leaves that took `queued`, the frame of `sequence`. -/
structure Took (p : ReceiverPlayout F) (result : Option PlayoutStep) (p' : ReceiverPlayout F)
    (sequence : MotionSequence) (queued : QueuedFrame) : Prop where
  queue : ∀ other : MotionSequence,
    p'.queue[other]? = if sequence < other then p.queue[other]? else none
  target : p'.target = ⟨sequence, queued.frame.totals, some queued.frame.senderCaptureTime,
    queued.mappedCaptureTime, none⟩
  touch : result.bind (·.touchSnapshot) = queued.frame.touchSnapshot

/-- **A poll takes the newest mature frame**, or there is none and the queue stays. -/
theorem poll_turn (h : poll now p = (.ok result, p')) :
    ((∀ (sequence : MotionSequence) (queued : QueuedFrame), p.queue[sequence]? = some queued →
        p.isMature now queued = false) ∧
      p'.queue = p.queue ∧ p'.target = { p.target with pendingTouchSnapshot := none }) ∨
    ∃ sequence queued, Newest p now sequence queued ∧ Took p result p' sequence queued := by
  obtain ⟨p₂, elapsed, own, hselect, hend⟩ := poll_eq_ok h
  obtain ⟨hqueue, htarget, htouch⟩ := pollTarget_turn hend
  rcases select_ok hselect with ⟨-, rfl, hnone⟩ | ⟨sequence, queued, hnewest, -, hselected⟩
  · exact .inl ⟨hnone, hqueue, htarget⟩
  · refine .inr ⟨sequence, queued, ⟨hnewest.found, hnewest.mature, hnewest.newest⟩, ?_, ?_, ?_⟩
    · intro other
      rw [hqueue, hselected.queue, Std.ExtTreeMap.getElem?_filter', Std.ExtTreeMap.getElem?_erase]
      by_cases hlt : sequence < other
      · have hne : ¬ compare sequence other = .eq := by
          rw [Std.compare_eq_iff_eq]
          exact Nat.ne_of_lt hlt
        rw [if_neg hne, if_pos hlt]
        cases p.queue[other]? <;> simp [hlt]
      · rw [if_neg hlt, Option.filter_eq_none_iff]
        simp [hlt]
    · rw [htarget, hselected.target]
    · rw [htouch, hselected.target]

/-- **The deadline is the earliest maturity.** -/
theorem nextDeadline_le_iff : (∃ deadline, p.nextDeadline = some deadline ∧ deadline ≤ now) ↔
      ∃ (sequence : MotionSequence) (queued : QueuedFrame),
        p.queue[sequence]? = some queued ∧ p.isMature now queued = true := by
  unfold nextDeadline
  constructor
  · rintro ⟨deadline, hdeadline, hle⟩
    obtain ⟨entry, hentry, rfl⟩ := List.mem_map.mp (List.min?_eq_some_iff.mp hdeadline).1
    obtain ⟨hmem, happlied⟩ := List.mem_filter.mp hentry
    refine ⟨entry.1, entry.2, Std.ExtTreeMap.mem_toList_iff_getElem?_eq_some.mp hmem, ?_⟩
    exact Bool.and_eq_true_iff.mpr ⟨happlied, decide_eq_true hle⟩
  · rintro ⟨sequence, queued, hqueued, hmature⟩
    obtain ⟨happlied, hdue⟩ := Bool.and_eq_true_iff.mp hmature
    have hentry : (sequence, queued) ∈ p.queue.toList.filter fun entry =>
        entry.2.frame.controlWatermark ≤ p.appliedControlSequence :=
      List.mem_filter.mpr ⟨Std.ExtTreeMap.mem_toList_iff_getElem?_eq_some.mpr hqueued, happlied⟩
    obtain ⟨deadline, hdeadline, hle⟩ := exists_min?_le (List.mem_map_of_mem hentry)
    exact ⟨deadline, hdeadline, hle.trans (of_decide_eq_true hdue)⟩

/-! ## The touch snapshot -/

/-- The touch snapshot of the newest frame in the queue that carries one, at or below `sequence`. -/
def newestTouch (p : ReceiverPlayout F) (sequence : MotionSequence) : Option TouchState :=
  (p.queue.toList.reverse.filter (·.1 ≤ sequence)).findSome? (·.2.frame.touchSnapshot)

omit [F64 F] in
theorem newestTouch_of_some {sequence : MotionSequence} {queued : QueuedFrame} {touch : TouchState}
    (hqueued : p.queue[sequence]? = some queued) (htouch : queued.frame.touchSnapshot = some touch) :
    p.newestTouch sequence = some touch := by
  have hmem : (sequence, queued) ∈ p.queue.toList.reverse.filter (·.1 ≤ sequence) := by
    refine List.mem_filter.mpr ⟨List.mem_reverse.mpr ?_, decide_eq_true (Nat.le_refl _)⟩
    exact Std.ExtTreeMap.mem_toList_iff_getElem?_eq_some.mpr hqueued
  have hordered : (p.queue.toList.reverse.filter (·.1 ≤ sequence)).Pairwise fun a b => b.1 < a.1 :=
    (List.pairwise_reverse.mpr (Std.ExtTreeMap.ordered_keys_toList.imp Std.compare_eq_lt.mp)).filter _
  unfold newestTouch
  generalize hentries : p.queue.toList.reverse.filter (·.1 ≤ sequence) = entries at *
  cases hfound : entries.findSome? (·.2.frame.touchSnapshot) with
  | none =>
    have hnone := List.findSome?_eq_none_iff.mp hfound _ hmem
    rw [htouch] at hnone
    cases hnone
  | some found =>
    obtain ⟨later, entry, earlier, rfl, hentry, hlater⟩ := List.findSome?_eq_some_iff.mp hfound
    have hle : entry.1 ≤ sequence := by
      have hin : entry ∈ p.queue.toList.reverse.filter (·.1 ≤ sequence) := by simp [hentries]
      exact of_decide_eq_true (List.mem_filter.mp hin).2
    rcases List.mem_append.mp hmem with hin | hin
    · cases (hlater _ hin).symm.trans htouch
    · rcases List.mem_cons.mp hin with rfl | hin
      · exact hentry.symm.trans htouch
      · have hlt := (List.pairwise_cons.mp (List.pairwise_append.mp hordered).2.1).1 _ hin
        exact absurd hlt (Nat.not_lt.mpr hle)

omit [F64 F] in
theorem newestTouch_eq_none {sequence : MotionSequence} :
    p.newestTouch sequence = none ↔ ∀ (other : MotionSequence) (queued : QueuedFrame),
      p.queue[other]? = some queued → other ≤ sequence → queued.frame.touchSnapshot = none := by
  unfold newestTouch
  rw [List.findSome?_eq_none_iff]
  constructor
  · intro hall other queued hqueued hle
    apply hall (other, queued)
    exact List.mem_filter.mpr ⟨List.mem_reverse.mpr
      (Std.ExtTreeMap.mem_toList_iff_getElem?_eq_some.mpr hqueued), decide_eq_true hle⟩
  · intro hall entry hentry
    obtain ⟨hmem, hle⟩ := List.mem_filter.mp hentry
    exact hall entry.1 entry.2 (Std.ExtTreeMap.mem_toList_iff_getElem?_eq_some.mp (List.mem_reverse.mp hmem))
      (of_decide_eq_true hle)

/-- **When a poll keeps the touch state.** The step of a poll that takes a frame carries the newest touch
snapshot known at or below it if and only if that frame carries one itself, or no frame dropped with it
does. -/
theorem touch_kept_iff {sequence : MotionSequence} {queued : QueuedFrame}
    (hnewest : Newest p now sequence queued) (hpoll : poll now p = (.ok result, p')) :
    (∀ touch, p.newestTouch sequence = some touch → ∃ step, result = some step ∧ step.touchSnapshot = some touch) ↔
    queued.frame.touchSnapshot ≠ none ∨ ∀ (older : MotionSequence) (dropped : QueuedFrame),
      p.queue[older]? = some dropped → older < sequence → dropped.frame.touchSnapshot = none := by
  have htouch : result.bind (·.touchSnapshot) = queued.frame.touchSnapshot := by
    rcases poll_turn hpoll with ⟨hnone, -⟩ | ⟨other, later, hother, htook⟩
    · cases hnewest.mature.symm.trans (hnone sequence queued hnewest.found)
    · have hsame : other = sequence := Nat.le_antisymm (hnewest.newest other later hother.found hother.mature)
        (hother.newest sequence queued hnewest.found hnewest.mature)
      subst hsame
      cases hnewest.found.symm.trans hother.found
      exact htook.touch
  cases hown : queued.frame.touchSnapshot with
  | some own =>
    refine iff_of_true ?_ (.inl nofun)
    intro touch hknown
    cases (newestTouch_of_some hnewest.found hown).symm.trans hknown
    exact Option.bind_eq_some_iff.mp (htouch.trans hown)
  | none =>
    simp only [ne_eq, not_true_eq_false, false_or]
    constructor
    · intro hkept older dropped hdropped hlt
      have hnone : p.newestTouch sequence = none := by
        cases hknown : p.newestTouch sequence with
        | none => rfl
        | some touch =>
          obtain ⟨step, rfl, hstep⟩ := hkept touch hknown
          cases hstep.symm.trans (htouch.trans hown)
      exact newestTouch_eq_none.mp hnone older dropped hdropped hlt.le
    · intro hnone touch hknown
      have hall : p.newestTouch sequence = none := by
        refine newestTouch_eq_none.mpr fun other later hlater hle => ?_
        rcases Nat.lt_or_eq_of_le hle with hlt | rfl
        · exact hnone other later hlater hlt
        · cases hlater.symm.trans hnewest.found
          exact hown
      cases hall.symm.trans hknown

/-! ## Any run of calls -/

/-- The state after some calls, whether they succeed or fail. -/
def afterCalls (calls : List (PlayoutCall C)) (p : ReceiverPlayout F) : ReceiverPlayout F :=
  calls.foldl (fun p c => (call c p).2) p

/-- What a target came from: an ingested frame whose watermark is applied, an anchor, or nothing yet. -/
inductive Source (calls : List (PlayoutCall C)) (applied : ControlSequence) :
    MotionSequence → CumulativeMotion → Prop
  | start : Source calls applied 0 .zero
  | anchor (through : MotionSequence) (totals : CumulativeMotion)
      (hrebase : PlayoutCall.rebase through totals ∈ calls) : Source calls applied through totals
  | frame (frame : MotionFrame) (receivedAt : MonotonicTimeMicros) (clock : C)
      (hingest : PlayoutCall.ingestFrame frame receivedAt clock ∈ calls)
      (happlied : frame.controlWatermark ≤ applied) :
      Source calls applied frame.motionSequence frame.totals

theorem Source.mono {calls : List (PlayoutCall C)} {applied applied' : ControlSequence}
    {sequence : MotionSequence} {totals : CumulativeMotion} (h : Source calls applied sequence totals)
    (hle : applied ≤ applied') : Source calls applied' sequence totals := by
  cases h with
  | start => exact .start
  | anchor _ _ hrebase => exact .anchor _ _ hrebase
  | frame frame receivedAt clock hingest happlied =>
    exact .frame frame receivedAt clock hingest (happlied.trans hle)

/-- **The invariant** of a run of `calls`: the queue holds ingested frames above the target, and the target
has a source. -/
structure Sourced (calls : List (PlayoutCall C)) (p : ReceiverPlayout F) : Prop where
  ahead : ∀ sequence : MotionSequence, sequence ∈ p.queue → p.target.sequence < sequence
  frames : ∀ (sequence : MotionSequence) (queued : QueuedFrame), p.queue[sequence]? = some queued →
    queued.frame.motionSequence = sequence ∧
      ∃ receivedAt clock, PlayoutCall.ingestFrame queued.frame receivedAt clock ∈ calls
  source : Source calls p.appliedControlSequence p.target.sequence p.target.totals

variable {calls : List (PlayoutCall C)}

/-- Two states that agree on what is queued, applied and played to. -/
theorem Sourced.of_eq (h : Sourced calls p) (hqueue : p'.queue = p.queue)
    (happlied : p'.appliedControlSequence = p.appliedControlSequence)
    (hsequence : p'.target.sequence = p.target.sequence)
    (htotals : p'.target.totals = p.target.totals) : Sourced calls p' where
  ahead := by rw [hqueue, hsequence]; exact h.ahead
  frames := by rw [hqueue]; exact h.frames
  source := by rw [happlied, hsequence, htotals]; exact h.source

theorem Sourced.of_unmoved (h : Sourced calls p) (hmoved : Unmoved p p') : Sourced calls p' :=
  h.of_eq hmoved.queue hmoved.applied (by rw [hmoved.target]) (by rw [hmoved.target])

/-- A method keeps what it finds, whether it succeeds or fails. -/
abbrev Holds {α : Type} (I : ReceiverPlayout F → Prop) (x : Act PlayoutError (ReceiverPlayout F) α) :
    Prop := Act.Triple I x (fun _ => I) fun _ => I

/-- A method that moves nothing keeps what is said of the rest. -/
theorem Still.triple {α : Type} {x : Act PlayoutError (ReceiverPlayout F) α} (h : Still x)
    {I : ReceiverPlayout F → Prop} (hI : ∀ p p', I p → Unmoved p p' → I p') : Holds I x := by
  intro p hp
  have hmoved := h p p (.refl p)
  cases hx : x p with
  | mk result p' =>
    rw [hx] at hmoved
    cases result <;> exact hI p p' hp hmoved

theorem Still.sourced {α : Type} {x : Act PlayoutError (ReceiverPlayout F) α} (h : Still x) :
    Holds (Sourced calls) x := h.triple fun _ _ => Sourced.of_unmoved

/-- What is left when the older frames are dropped, and the old target still stands. -/
structure Dropped (calls : List (PlayoutCall C)) (sequence : MotionSequence) (frame : MotionFrame)
    (p : ReceiverPlayout F) : Prop where
  sourced : Sourced calls p
  above : ∀ other : MotionSequence, other ∈ p.queue → sequence < other
  source : Source calls p.appliedControlSequence sequence frame.totals

theorem sourced_select (now : MonotonicTimeMicros) :
    Holds (F := F) (Sourced calls) (selectNewestMatureTarget now) := by
  apply Act.Triple.read
  intro p
  cases hfind : p.queue.toList.reverse.find? fun entry => p.isMature now entry.2 with
  | none => exact .pure fun _ h => h.1
  | some entry =>
    obtain ⟨sequence, queued⟩ := entry
    have hnewest := newest_of_find? hfind
    obtain ⟨happlied, -⟩ := Bool.and_eq_true_iff.mp hnewest.mature
    refine .bind (Q := fun _ => Dropped calls sequence queued.frame) (.change ?_) fun _ => ?_
    · rintro _ ⟨hsourced, rfl⟩
      obtain ⟨hnumber, receivedAt, clock, hingest⟩ := hsourced.frames sequence queued hnewest.found
      refine ⟨⟨fun other hmem => ?_, fun other later hlater => ?_, hsourced.source⟩, ?_, ?_⟩
      · obtain ⟨hin, -⟩ := Std.ExtTreeMap.mem_filter.mp hmem
        exact hsourced.ahead other (Std.ExtTreeMap.mem_of_mem_erase hin)
      · dsimp only at hlater
        rw [Std.ExtTreeMap.getElem?_filter', Option.filter_eq_some_iff, Std.ExtTreeMap.getElem?_erase] at hlater
        split at hlater
        · cases hlater.1
        · exact hsourced.frames other later hlater.1
      · intro other hmem
        obtain ⟨hin, hlt⟩ := Std.ExtTreeMap.mem_filter.mp hmem
        simpa using hlt
      · rw [← hnumber]
        exact .frame queued.frame receivedAt clock hingest (of_decide_eq_true happlied)
    refine .bind (Q := fun _ => Dropped calls sequence queued.frame) ?_ fun _ => ?_
    · -- the velocities may refuse the frame, when it is already dropped
      apply Act.Triple.weaken (Still.triple (still_updateVelocity _)
        (I := Dropped calls sequence queued.frame) ?_) (fun _ => id) (fun _ _ => id)
        fun _ _ hdropped => hdropped.sourced
      intro p p' h hmoved
      refine ⟨h.sourced.of_unmoved hmoved, ?_, ?_⟩
      · rw [hmoved.queue]
        exact h.above
      · rw [hmoved.applied]
        exact h.source
    · refine .bind (Q := fun _ => Sourced calls) (.change ?_) fun _ => .pure fun _ => id
      exact fun p h => ⟨h.above, h.sourced.frames, h.source⟩

/-- A `?` on what was computed from the state that was read. -/
theorem sourced_lift {ε α : Type} {wrap : ε → PlayoutError} {p : ReceiverPlayout F} (x : Except ε α) :
    Act.Triple (fun s => Sourced calls s ∧ s = p) (Act.lift wrap x) (fun _ s => Sourced calls s ∧ s = p)
      fun _ => Sourced calls :=
  .lift (fun _ _ _ => id) fun _ _ _ => And.left

theorem sourced_pollTarget (own : Option CumulativeMotion) (elapsed : Nat) :
    Holds (F := F) (Sourced calls) (pollTarget own elapsed) := by
  have hpast {α : Type} {wrap : α → PlayoutError} {β : Type} (x : Except α β) :
      Holds (F := F) (Sourced calls) (Act.lift wrap x) :=
    .lift (fun _ _ _ => id) fun _ _ _ => id
  apply Act.Triple.read
  intro p
  refine .bind (Q := fun _ => Sourced calls) ((hpast _).pre fun _ => And.left) fun remaining => ?_
  refine .bind (Q := fun _ => Sourced calls) (.change fun p h => h.of_eq rfl rfl rfl rfl) fun _ => ?_
  split
  · exact .bind (Q := fun _ => Sourced calls) (.change fun p h => h.of_eq rfl rfl rfl rfl)
      fun _ => .pure fun _ => id
  · refine .bind (hpast _) fun u => .bind (hpast _) fun injected => ?_
    exact .bind (Q := fun _ => Sourced calls) (.change fun p h => h.of_eq rfl rfl rfl rfl)
      fun _ => .pure fun _ => id

theorem sourced_poll (now : MonotonicTimeMicros) : Holds (F := F) (Sourced calls) (poll now) :=
  .bind (still_observeTime now).sourced fun _ => .bind (still_pollElapsed now).sourced fun elapsed =>
    .bind (sourced_select now) fun own => sourced_pollTarget own elapsed

theorem sourced_ingestFrame {frame : MotionFrame} {receivedAt : MonotonicTimeMicros} {clock : C}
    (hcall : PlayoutCall.ingestFrame frame receivedAt clock ∈ calls) :
    Holds (F := F) (Sourced calls) (ingestFrame frame receivedAt clock) := by
  refine .bind (still_observeTime receivedAt).sourced fun _ => .read fun p => ?_
  split
  · exact .fail fun _ => And.left
  split
  · exact .pure fun _ => And.left
  split
  · refine .bind (sourced_lift _) fun mapped => ?_
    refine .bind (((still_recordDelaySample _ _).sourced).pre fun _ => And.left) fun _ => .pure fun _ => id
  rename_i hahead
  split
  · split
    · exact .pure fun _ => And.left
    · exact .fail fun _ => And.left
  split
  · exact .fail fun _ => And.left
  refine .bind (sourced_lift _) fun mapped => .bind (sourced_lift _) fun _ => ?_
  refine .bind (Q := fun _ s => Sourced calls s ∧ s.target.sequence < frame.motionSequence) ?_ fun _ => ?_
  · have hstill := (still_recordDelaySample (F := F) receivedAt (receivedAt - mapped)).triple
      (I := fun s => Sourced calls s ∧ s.target.sequence < frame.motionSequence) fun q q' h hmoved =>
        ⟨h.1.of_unmoved hmoved, by rw [hmoved.target]; exact h.2⟩
    refine hstill.weaken ?_ (fun _ _ => id) fun _ _ => And.left
    rintro _ ⟨hsourced, rfl⟩
    exact ⟨hsourced, Nat.lt_of_not_le hahead⟩
  · refine .bind (Q := fun _ => Sourced calls) (.change ?_) fun _ => .pure fun _ => id
    rintro q ⟨hsourced, hlt⟩
    refine ⟨fun other hmem => ?_, fun other later hlater => ?_, hsourced.source⟩
    · rcases Std.ExtTreeMap.mem_insert.mp hmem with hsame | hold
      · rw [← Std.LawfulEqCmp.eq_of_compare hsame]
        exact hlt
      · exact hsourced.ahead other hold
    · dsimp only at hlater
      rw [Std.ExtTreeMap.getElem?_insert] at hlater
      split at hlater
      · rename_i hsame
        cases hlater
        exact ⟨Std.LawfulEqCmp.eq_of_compare hsame, receivedAt, clock, hcall⟩
      · exact hsourced.frames other later hlater

theorem sourced_rebase {through : MotionSequence} {totals : CumulativeMotion}
    (hcall : PlayoutCall.rebase through totals ∈ calls) : Holds (F := F) (Sourced calls) (rebase through totals) := by
  apply Act.Triple.read
  intro p
  split
  · exact .fail fun _ => And.left
  · refine .bind (Q := fun _ => Sourced calls) (.lift (fun _ _ _ => And.left) fun _ _ _ => And.left)
      fun _ => .change fun q hsourced => ⟨fun other hmem => ?_, fun other later hlater => ?_, ?_⟩
    · obtain ⟨_, hlt⟩ := Std.ExtTreeMap.mem_filter.mp hmem
      simpa using hlt
    · dsimp only at hlater
      rw [Std.ExtTreeMap.getElem?_filter', Option.filter_eq_some_iff] at hlater
      exact hsourced.frames other later hlater.1
    · exact .anchor through totals hcall

theorem sourced_remapClock (clock : C) : Holds (F := F) (Sourced calls) (remapClock clock) := by
  refine .read fun p => .bind (sourced_lift _) fun times => .bind (sourced_lift _) fun target => ?_
  refine .bind (Q := fun _ => Sourced calls) (.change ?_) fun _ => ?_
  · rintro q ⟨hsourced, rfl⟩
    have hframes := frame_foldl_alter times q.queue
    refine ⟨fun other hmem => ?_, fun other later hlater => ?_, hsourced.source⟩
    · apply hsourced.ahead other
      rw [Std.ExtTreeMap.mem_iff_isSome_getElem?] at hmem ⊢
      have hsame := congrArg Option.isSome (hframes other)
      rw [Option.isSome_map, Option.isSome_map] at hsame
      rwa [← hsame]
    · have hsame := hframes other
      dsimp only at hlater
      rw [hlater] at hsame
      obtain ⟨before, hbefore, hframe⟩ := Option.map_eq_some_iff.mp hsame.symm
      rw [← hframe]
      exact hsourced.frames other before hbefore
  · refine .bind (Q := fun _ => Sourced calls) (.lift (fun _ _ _ => id) fun _ _ _ => id) fun _ => ?_
    exact .change fun q h => h.of_eq rfl rfl rfl rfl

/-- **Every call keeps it**, whether it succeeds or fails. -/
theorem sourced_call {c : PlayoutCall C} (hcall : c ∈ calls) : Holds (F := F) (Sourced calls) (call c) := by
  cases c with
  | ingestFrame frame receivedAt clock =>
    exact .bind (sourced_ingestFrame hcall) fun _ => .pure fun _ => id
  | poll now => exact .bind (sourced_poll now) fun _ => .pure fun _ => id
  | rebase through totals => exact .bind (sourced_rebase hcall) fun _ => .pure fun _ => id
  | advanceControlWatermark applied =>
    refine .bind (Q := fun _ => Sourced calls) ?_ fun _ => .pure fun _ => id
    intro p h
    unfold advanceControlWatermark
    by_cases hlt : applied < p.appliedControlSequence
    · rw [if_pos hlt]
      exact h
    · rw [if_neg hlt]
      exact ⟨h.ahead, h.frames, h.source.mono (Nat.le_of_not_lt hlt)⟩
  | remapClock clock => exact .bind (sourced_remapClock clock) fun _ => .pure fun _ => id

/-- **Every run keeps it.** -/
theorem sourced_afterCalls {config : PlayoutConfig F} {session : SessionContext}
    {start : ReceiverPlayout F} (calls : List (PlayoutCall C)) (hnew : new config session = .ok start) :
    Sourced calls (afterCalls calls start) := by
  obtain ⟨-, minimum, -, rfl⟩ := new_eq_ok.mp hnew
  have hstart : Sourced calls (fresh config session minimum) :=
    ⟨fun _ hmem => absurd hmem Std.ExtTreeMap.not_mem_empty, fun _ _ h => by simp [fresh] at h, .start⟩
  suffices hrun : ∀ some : List (PlayoutCall C), some ⊆ calls → ∀ p : ReceiverPlayout F,
      Sourced calls p → Sourced calls (afterCalls some p) from hrun calls (List.Subset.refl _) _ hstart
  intro some
  induction some with
  | nil => exact fun _ _ h => h
  | cons c rest ih =>
    intro hsubset p h
    obtain ⟨hc, hrest⟩ := List.cons_subset.mp hsubset
    apply ih hrest
    have hafter := sourced_call hc p h
    show Sourced calls (call c p).2
    cases hresult : call c p with
    | mk result p' =>
      rw [hresult] at hafter
      cases result <;> exact hafter

/-- **The wake-up is exact.** After any calls, whether they succeeded or failed, a poll that is let through
takes a new target if and only if the next deadline has come. It then takes the newest frame whose watermark
is applied and whose mapped time plus the delay has come, and leaves just the frames above it; otherwise the
queue stays. What is played to is an ingested frame whose watermark is applied, an anchor, or nothing yet. -/
theorem turns_exactly {config : PlayoutConfig F} {session : SessionContext} {start : ReceiverPlayout F}
    (hnew : new config session = .ok start) (calls : List (PlayoutCall C))
    (hpoll : poll now (afterCalls calls start) = (.ok result, p')) :
    (p'.target.sequence ≠ (afterCalls calls start).target.sequence ↔
      ∃ deadline, (afterCalls calls start).nextDeadline = some deadline ∧ deadline ≤ now) ∧
    ((∃ deadline, (afterCalls calls start).nextDeadline = some deadline ∧ deadline ≤ now) →
      ∃ sequence queued, Newest (afterCalls calls start) now sequence queued ∧
        Took (afterCalls calls start) result p' sequence queued) ∧
    ((¬ ∃ deadline, (afterCalls calls start).nextDeadline = some deadline ∧ deadline ≤ now) →
      p'.queue = (afterCalls calls start).queue) ∧
    Source calls p'.appliedControlSequence p'.target.sequence p'.target.totals ∧
    ∀ step, result = some step → step.throughSequence = p'.target.sequence := by
  have hsourced := sourced_afterCalls calls hnew
  generalize afterCalls calls start = p at *
  have hafter : Sourced calls p' := (sourced_poll now).ok hsourced hpoll
  have hthrough : ∀ step, result = some step → step.throughSequence = p'.target.sequence := by
    rintro step rfl
    obtain ⟨p₂, elapsed, own, -, hend⟩ := poll_eq_ok hpoll
    obtain ⟨_, -, ⟨hnone, -⟩ | ⟨u, injected, -, -, -, hstep, hstepped⟩⟩ := pollTarget_ok hend
    · cases hnone
    · cases hstep
      rw [hstepped.target]
      rfl
  rw [nextDeadline_le_iff]
  rcases poll_turn hpoll with ⟨hnone, hqueue, htarget⟩ | ⟨sequence, queued, hnewest, htook⟩
  · have hnot : ¬ ∃ (sequence : MotionSequence) (queued : QueuedFrame),
        p.queue[sequence]? = some queued ∧ p.isMature now queued = true := by
      rintro ⟨sequence, queued, hqueued, hmature⟩
      cases hmature.symm.trans (hnone sequence queued hqueued)
    refine ⟨iff_of_false (fun hne => hne ?_) hnot, fun hsome => absurd hsome hnot, fun _ => hqueue,
      hafter.source, hthrough⟩
    rw [htarget]
  · have hsome : ∃ (sequence : MotionSequence) (queued : QueuedFrame),
        p.queue[sequence]? = some queued ∧ p.isMature now queued = true :=
      ⟨sequence, queued, hnewest.found, hnewest.mature⟩
    refine ⟨iff_of_true ?_ hsome, fun _ => ⟨sequence, queued, hnewest, htook⟩,
      fun hnot => absurd hsome hnot, hafter.source, hthrough⟩
    rw [htook.target]
    exact Nat.ne_of_gt (hsourced.ahead sequence hnewest.mem)

/-! ## Two devices -/

/-- One finger on a touchpad. -/
def finger : TouchState := (∅ : TouchState).insert 0 ⟨0, 100, 100, none, none, none, none, .finger, none⟩

/-- Two frames arrive before the first poll. -/
def twoFrames (first second : Option TouchState) (watermark : ControlSequence) :
    List (PlayoutCall OffsetClock) :=
  [.ingestFrame ⟨⟨1, 1, 1⟩, 1, 0, 10, ⟨4, 0, 0, 0⟩, first⟩ 10 ⟨some 0, true⟩,
    .ingestFrame ⟨⟨1, 1, 1⟩, 2, watermark, 11, ⟨9, 0, 0, 0⟩, second⟩ 11 ⟨some 0, true⟩]

/-- The playout of the sample configuration, with the two frames in its queue. -/
def withFrames (first second : Option TouchState) (watermark : ControlSequence) : ReceiverPlayout ℚ :=
  afterCalls (twoFrames first second watermark) (samplePlayout ⟨1, 1, 1⟩)

def polled (p : ReceiverPlayout ℚ) : ReceiverPlayout ℚ := (poll 20 p).2

def polledStep (p : ReceiverPlayout ℚ) : Option PlayoutStep := (poll 20 p).1.toOption.getD none

/-- Both frames carry a snapshot: the step has the newer. -/
theorem touch_kept_iff_newer : ∃ step, (withFrames (some finger) (some ∅) 0).newestTouch 2 = some ∅ ∧
    polledStep (withFrames (some finger) (some ∅) 0) = some step ∧ step.touchSnapshot = some ∅ := by
  have hpoll : poll 20 (withFrames (some finger) (some ∅) 0) =
      (.ok (polledStep (withFrames (some finger) (some ∅) 0)), polled (withFrames (some finger) (some ∅) 0)) := by
    decide +kernel
  have hnewest : Newest (withFrames (some finger) (some ∅) 0) 20 2
      ⟨⟨⟨1, 1, 1⟩, 2, 0, 11, ⟨9, 0, 0, 0⟩, some ∅⟩, 11⟩ := newest_of_find? (by decide +kernel)
  have htouch : (withFrames (some finger) (some ∅) 0).newestTouch 2 = some ∅ := by decide +kernel
  obtain ⟨step, hstep, hsnapshot⟩ := (touch_kept_iff hnewest hpoll).mpr (.inl nofun) ∅ htouch
  exact ⟨step, htouch, hstep, hsnapshot⟩

/-- A finger moves, and the mouse after it: the frame of the mouse plays, and the finger's is lost. -/
theorem touch_lost : ∃ start p' step sequence queued touch, new samplePlayoutConfig ⟨1, 1, 1⟩ = .ok start ∧
    Newest (afterCalls (twoFrames (some finger) none 0) start) 20 sequence queued ∧
    poll 20 (afterCalls (twoFrames (some finger) none 0) start) = (.ok (some step), p') ∧
    (afterCalls (twoFrames (some finger) none 0) start).newestTouch sequence = some touch ∧
    step.touchSnapshot = none := by
  refine ⟨samplePlayout ⟨1, 1, 1⟩, polled (withFrames (some finger) none 0),
    ⟨11, 2, ⟨6, 0, 0, 0⟩, none, false, true, false⟩, 2,
    ⟨⟨⟨1, 1, 1⟩, 2, 0, 11, ⟨9, 0, 0, 0⟩, none⟩, 11⟩, finger, by decide +kernel, ?_, by decide +kernel,
    by decide +kernel, rfl⟩
  exact newest_of_find? (by decide +kernel)

/-- The newer frame waits for a control message, and stays when the older plays. -/
theorem turns_exactly_waiting : (polled (withFrames none none 1)).target.sequence = 1 ∧
    (polled (withFrames none none 1)).target.sequence ≠ (withFrames none none 1).target.sequence ∧
    Source (twoFrames none none 1) 0 1 ⟨4, 0, 0, 0⟩ := by
  have hpoll : poll 20 (withFrames none none 1) =
      (.ok (polledStep (withFrames none none 1)), polled (withFrames none none 1)) := by
    decide +kernel
  have hnew : new samplePlayoutConfig ⟨1, 1, 1⟩ = .ok (samplePlayout ⟨1, 1, 1⟩) := by decide +kernel
  have hafter : (polled (withFrames none none 1)).target.sequence = 1 ∧
      (polled (withFrames none none 1)).appliedControlSequence = 0 ∧
      (polled (withFrames none none 1)).target.totals = ⟨4, 0, 0, 0⟩ := by
    decide +kernel
  obtain ⟨hsequence, happlied, htotals⟩ := hafter
  obtain ⟨hiff, -, -, hsource, -⟩ := turns_exactly hnew (twoFrames none none 1) hpoll
  rw [hsequence, happlied, htotals] at hsource
  exact ⟨hsequence, hiff.mpr ⟨10, by decide +kernel, by decide⟩, hsource⟩

end ReceiverPlayout

end Zflow.Core
