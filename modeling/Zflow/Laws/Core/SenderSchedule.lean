import Mathlib.Data.List.Chain
import Zflow.Laws.Core.SenderAcks

/-!
# Deadlines and ticks

`next_deadline` and `tick` look at four conditions, each on its own. They agree (`tick_idle_iff`), so a
caller that ticks at each deadline is woken when there is something to do, and never for nothing.

`Schedule` is such a caller. Its clock stops at a deadline until a tick has dealt with it, and captures come
at times of their own. What follows is how far apart its snapshots are, and when what it captured is covered
by one (`checkpoints_on_time`).
-/

namespace Zflow.Core

open Lib

namespace Sender

/-! ## The agreement -/

/-- Nothing is due at `now`: no acknowledgement, no periodic checkpoint, none for what was captured, and
none to renew what is held. -/
structure Quiet (s : Sender) (now : MonotonicTimeMicros) : Prop where
  acks : ∀ entry ∈ s.pendingSnapshots.toList, now < entry.2.ackDeadline
  periodic : now < addDuration s.lastSnapshotAt s.config.checkpointInterval
  dirty : ∀ since ∈ s.dirtySince, now < addDuration since s.config.checkpointInterval
  renewal : s.held.isNeutral = false →
    now < addDuration s.lastSnapshotAt (oneThirdRoundedDown s.config.receiverLease)

theorem lt_min?_iff {instants : List MonotonicTimeMicros} {first t : MonotonicTimeMicros}
    (h : instants.min? = some first) : t < first ↔ ∀ instant ∈ instants, t < instant :=
  List.le_min?_iff h

/-- What is due first is the first of the pending acknowledgements, where there is one. -/
theorem lt_acks_iff {s : Sender} {now : MonotonicTimeMicros} :
    (∀ first ∈ (s.pendingSnapshots.toList.map fun entry => entry.2.ackDeadline).min?, now < first) ↔
      ∀ entry ∈ s.pendingSnapshots.toList, now < entry.2.ackDeadline := by
  cases hfirst : (s.pendingSnapshots.toList.map fun entry => entry.2.ackDeadline).min? with
  | none =>
    have hnone := List.map_eq_nil_iff.mp (List.min?_eq_none_iff.mp hfirst)
    simp [hnone]
  | some first =>
    have hall := lt_min?_iff (t := now) hfirst
    simp only [List.mem_map, forall_exists_index, and_imp, forall_apply_eq_imp_iff₂] at hall
    simpa using hall

/-- **The next deadline is the first time at which something is due.** -/
theorem lt_nextDeadline_iff {s : Sender} {now : MonotonicTimeMicros} (hremote : s.remote = true) :
    (∃ next, s.nextDeadline = some next ∧ now < next) ↔ s.Quiet now := by
  obtain ⟨next, hnext, -⟩ := nextDeadline_le_periodic hremote
  have hlt : (∃ next, s.nextDeadline = some next ∧ now < next) ↔ now < next := by simp [hnext]
  rw [hlt]
  simp only [nextDeadline, hremote, Bool.not_true, Bool.false_eq_true, if_false] at hnext
  rw [lt_min?_iff hnext]
  simp only [List.mem_filterMap, id, exists_eq_right, List.mem_cons, List.not_mem_nil, or_false]
  constructor
  · intro hall
    refine ⟨lt_acks_iff.mp fun first hfirst => hall first ?_, hall _ (.inl rfl), ?_, ?_⟩
    · exact .inr (.inr (.inr hfirst.symm))
    · intro since hsince
      have hsome : s.dirtySince = some since := hsince
      exact hall _ (.inr (.inl (by rw [hsome]; rfl)))
    · intro hheld
      exact hall _ (.inr (.inr (.inl (by simp [hheld]))))
  · rintro hquiet instant (hperiodic | hdirty | hrenewal | hack)
    · cases hperiodic
      exact hquiet.periodic
    · obtain ⟨since, hsince, rfl⟩ := Option.map_eq_some_iff.mp hdirty.symm
      exact hquiet.dirty since hsince
    · split at hrenewal
      · rename_i hheld
        cases hrenewal
        exact hquiet.renewal (by simpa using hheld)
      · cases hrenewal
    · exact lt_acks_iff.mpr hquiet.acks instant hack.symm

/-- What a tick does, once it is let through. -/
theorem tick_apply {s : Sender} {now : MonotonicTimeMicros} (hremote : s.remote = true)
    (hobserved : s.lastObservedTime ≤ now) :
    tick now s = (do
      let s ← .read
      if s.pendingSnapshots.toList.any fun entry => entry.2.ackDeadline ≤ now then
        let close ← control (.sessionClose .leaseExpired none)
        .change fun s => { s with remote := false, held := .neutral, pendingSnapshots := ∅ }
        return .exitRemote .snapshotAckTimedOut close
      else
        let periodicDue : Bool := addDuration s.lastSnapshotAt s.config.checkpointInterval ≤ now
        let dirtyDue := s.dirtySince.any fun since =>
          addDuration since s.config.checkpointInterval ≤ now
        let renewalDue : Bool := !s.held.isNeutral &&
          addDuration s.lastSnapshotAt (oneThirdRoundedDown s.config.receiverLease) ≤ now
        if periodicDue || dirtyDue || renewalDue then
          let message ← snapshot now
          return .checkpoint message
        else return .idle : Act SenderError Sender SenderTick) { s with lastObservedTime := now } := by
  unfold tick
  rw [Act.bind_of_ok (requireRemote_of_remote hremote), Act.bind_of_ok (observeTime_of_le hobserved)]

/-- **A tick is idle exactly where nothing is due.** -/
theorem tick_idle {s : Sender} {now : MonotonicTimeMicros} (hremote : s.remote = true)
    (hobserved : s.lastObservedTime ≤ now) : (tick now s).1 = .ok .idle ↔ s.Quiet now := by
  rw [tick_apply hremote hobserved, Act.bind_apply, Act.read_apply]
  dsimp only
  split
  · rename_i hdue
    obtain ⟨entry, hentry, hdue⟩ := List.any_eq_true.mp hdue
    have hnot : ¬ s.Quiet now := fun hquiet =>
      absurd (of_decide_eq_true hdue) (Nat.not_le_of_lt (hquiet.acks entry hentry))
    refine iff_of_false ?_ hnot
    intro hidle
    rw [Act.bind_apply, control_apply] at hidle
    split at hidle <;> cases hidle
  · rename_i hnone
    split
    · rename_i hdue
      refine iff_of_false ?_ ?_
      · intro hidle
        rw [Act.bind_apply] at hidle
        split at hidle <;> cases hidle
      · intro hquiet
        have hperiodic := hquiet.periodic
        have hdirty := hquiet.dirty
        have hrenewal := hquiet.renewal
        simp only [Bool.or_eq_true, decide_eq_true_eq, Option.any_eq_true, Bool.and_eq_true, Bool.not_eq_true'] at hdue
        rcases hdue with (hdue | ⟨since, hsince, hdue⟩) | ⟨hheld, hdue⟩
        · exact absurd hdue (Nat.not_le_of_lt hperiodic)
        · exact absurd hdue (Nat.not_le_of_lt (hdirty since hsince))
        · exact absurd hdue (Nat.not_le_of_lt (hrenewal hheld))
    · rename_i hquiet
      simp only [Bool.or_eq_true, decide_eq_true_eq, Option.any_eq_true, Bool.and_eq_true,
        Bool.not_eq_true', not_or, not_exists, not_and, Nat.not_le] at hquiet
      refine iff_of_true rfl ⟨?_, hquiet.1.1, fun since hsince => hquiet.1.2 since hsince, hquiet.2⟩
      intro entry hentry
      by_contra hle
      apply hnone
      exact List.any_eq_true.mpr ⟨entry, hentry, decide_eq_true (Nat.le_of_not_lt hle)⟩

/-- **A tick is idle exactly before the next deadline.** -/
theorem tick_idle_iff {s : Sender} {now : MonotonicTimeMicros} (hremote : s.remote = true)
    (hobserved : s.lastObservedTime ≤ now) :
    (tick now s).1 = .ok .idle ↔ ∃ next, s.nextDeadline = some next ∧ now < next := by
  rw [tick_idle hremote hobserved, lt_nextDeadline_iff hremote]

/-! ## What a call does to the schedule -/

/-- What a call that sends no snapshot keeps. -/
structure Paced (s s' : Sender) : Prop where
  config : s'.config = s.config
  started : s'.started = s.started
  remote : s'.remote = true → s.remote = true
  snapshotAt : s'.lastSnapshotAt = s.lastSnapshotAt
  observed : s.lastObservedTime ≤ s'.lastObservedTime
  motion : s.lastMotionSequence ≤ s'.lastMotionSequence

theorem Paced.refl (s : Sender) : Paced s s := ⟨rfl, rfl, id, rfl, Nat.le_refl _, Nat.le_refl _⟩

theorem Paced.trans {a b c : Sender} (hab : Paced a b) (hbc : Paced b c) : Paced a c where
  config := hbc.config.trans hab.config
  started := hbc.started.trans hab.started
  remote h := hab.remote (hbc.remote h)
  snapshotAt := hbc.snapshotAt.trans hab.snapshotAt
  observed := hab.observed.trans hbc.observed
  motion := hab.motion.trans hbc.motion

instance : IsPreorder Sender Paced where
  refl := .refl
  trans _ _ _ := .trans

theorem paced_rule : CaptureRule Paced where
  observed _ _ hle := ⟨rfl, rfl, id, rfl, hle, Nat.le_refl _⟩
  numbered _ := ⟨rfl, rfl, id, rfl, Nat.le_refl _, Nat.le_refl _⟩
  held _ _ := ⟨rfl, rfl, id, rfl, Nat.le_refl _, Nat.le_refl _⟩
  moved _ _ _ _ _ := ⟨rfl, rfl, id, rfl, Nat.le_refl _, Nat.le_succ _⟩
  overflowed _ := ⟨rfl, rfl, nofun, rfl, Nat.le_refl _, Nat.le_refl _⟩
  left _ := ⟨rfl, rfl, nofun, rfl, Nat.le_refl _, Nat.le_refl _⟩

/-- A snapshot went out: it shows the sender as it is, and the schedule starts anew. -/
structure Sent (message : ReliableControlMessage) (now : MonotonicTimeMicros) (s s' : Sender) :
    Prop where
  payload : message.payload = .stateSnapshot ⟨s.held, s.anchor now .checkpoint⟩
  config : s'.config = s.config
  started : s'.started = s.started
  remote : s.remote = true
  snapshotAt : s'.lastSnapshotAt = now
  observed : s'.lastObservedTime = now
  motion : s'.lastMotionSequence = s.lastMotionSequence

theorem requireRemote_triple (s : Sender) :
    Act.Triple (fun t => t = s) requireRemote (fun _ t => t = s ∧ s.remote = true) (fun _ t => Paced s t) := by
  intro t ht
  rw [ht]
  unfold requireRemote
  by_cases hremote : s.remote = true
  · rw [if_pos hremote]
    exact ⟨rfl, hremote⟩
  · rw [if_neg hremote]
    exact .refl s

theorem observeTime_triple (now : MonotonicTimeMicros) (s : Sender) :
    Act.Triple (fun t => t = s ∧ s.remote = true) (observeTime now)
      (fun _ t => t = { s with lastObservedTime := now } ∧ s.remote = true ∧ s.lastObservedTime ≤ now)
      (fun _ t => Paced s t) := by
  rintro t ⟨ht, hremote⟩
  rw [ht]
  unfold observeTime
  by_cases hlt : now < s.lastObservedTime
  · rw [if_pos hlt]
    exact .refl s
  · rw [if_neg hlt]
    exact ⟨rfl, hremote, Nat.le_of_not_lt hlt⟩

theorem paced_observed {s : Sender} {now : MonotonicTimeMicros} (h : s.lastObservedTime ≤ now) :
    Paced s { s with lastObservedTime := now } := ⟨rfl, rfl, id, rfl, h, Nat.le_refl _⟩

/-- **A snapshot goes out, or the schedule stays.** -/
theorem snapshot_triple (now : MonotonicTimeMicros) (s : Sender) :
    Act.Triple (fun t => t = s) (snapshot now) (fun message s' => Sent message now s s') (fun _ s' => Paced s s') := by
  apply Act.Triple.bind (requireRemote_triple s)
  intro _
  apply Act.Triple.bind (observeTime_triple now s)
  intro _
  apply Act.Triple.read
  intro t
  split
  · rintro _ ⟨⟨rfl, -, hle⟩, -⟩
    exact paced_observed hle
  · rintro _ ⟨⟨rfl, hremote, hle⟩, rfl⟩
    rw [Act.bind_apply, control_apply]
    cases hnext : checkedAddU64 s.lastControlSequence 1 with
    | none => exact paced_observed hle
    | some next => exact ⟨rfl, rfl, rfl, hremote, rfl, rfl, rfl⟩

/-- **A tick sends a snapshot, or the schedule stays.** -/
theorem tick_triple (now : MonotonicTimeMicros) (s : Sender) : Act.Triple (fun t => t = s) (tick now)
      (fun answer s' => match answer with
        | .checkpoint message => Sent message now s s'
        | _ => Paced s s')
      (fun _ s' => Paced s s') := by
  apply Act.Triple.bind (requireRemote_triple s)
  intro _
  apply Act.Triple.bind (observeTime_triple now s)
  intro _
  apply Act.Triple.read
  intro t
  split
  · rintro _ ⟨⟨rfl, -, hle⟩, rfl⟩
    rw [Act.bind_apply, control_apply]
    cases hnext : checkedAddU64 s.lastControlSequence 1 with
    | none => exact paced_observed hle
    | some next => exact ⟨rfl, rfl, nofun, rfl, hle, Nat.le_refl _⟩
  · dsimp only
    split
    · rintro _ ⟨⟨rfl, hremote, hle⟩, rfl⟩
      have hsnapshot := snapshot_triple now { s with lastObservedTime := now } _ rfl
      rw [Act.bind_apply]
      cases hresult : snapshot now { s with lastObservedTime := now } with
      | mk result s' =>
        rw [hresult] at hsnapshot
        cases result with
        | ok message =>
          obtain ⟨hpayload, hconfig, hstarted, -, hsnapshotAt, hobserved, hmotion⟩ := hsnapshot
          exact ⟨hpayload, hconfig, hstarted, hremote, hsnapshotAt, hobserved, hmotion⟩
        | error error => exact (paced_observed hle).trans hsnapshot
    · rintro _ ⟨⟨rfl, -, hle⟩, -⟩
      exact paced_observed hle

/-- An acknowledgement keeps the schedule. -/
theorem paced_acknowledge (ack : SnapshotAck) (s : Sender) : Paced s (acknowledgeSnapshot ack s).2 := by
  cases hresult : acknowledgeSnapshot ack s with
  | mk result s' =>
    rcases acknowledge_cases hresult with ⟨-, rfl, -⟩ | ⟨-, pending, -, rfl⟩ | ⟨-, rfl⟩
    · exact .refl _
    · exact ⟨rfl, rfl, id, rfl, Nat.le_refl _, Nat.le_refl _⟩
    · exact .refl _

/-- Motion that was captured is numbered last, at a time no earlier than any the sender has seen. -/
theorem captureMotion_eq_ok {delta : MotionDelta} {touchSnapshot : Option TouchState}
    {now : MonotonicTimeMicros} {s s' : Sender} {frame : MotionFrame}
    (h : captureMotion delta touchSnapshot now s = (.ok frame, s')) :
    s.remote = true ∧ s.lastObservedTime ≤ now ∧ frame.motionSequence = s'.lastMotionSequence := by
  obtain ⟨_, s₁, hrequire, hrest⟩ := Act.bind_eq_ok.mp h
  obtain ⟨hremote, hs₁⟩ := requireRemote_eq_ok hrequire
  subst hs₁
  obtain ⟨_, s₂, hobserve, hrest⟩ := Act.bind_eq_ok.mp hrest
  have hobserved := observeTime_triple now s₁ s₁ ⟨rfl, hremote⟩
  rw [hobserve] at hobserved
  obtain ⟨rfl, -, hle⟩ := hobserved
  refine ⟨hremote, hle, ?_⟩
  obtain ⟨t, s₃, hread, hrest⟩ := Act.bind_eq_ok.mp hrest
  cases hread
  cases hsum : s₁.totals.checkedAdd delta with
  | error error =>
    rw [hsum] at hrest
    cases hrest
  | ok totals =>
    rw [hsum] at hrest
    obtain ⟨sequence, s₄, hlift, hrest⟩ := Act.bind_eq_ok.mp hrest
    obtain ⟨_, s₅, hchange, hrest⟩ := Act.bind_eq_ok.mp hrest
    cases hchange
    cases hrest
    rfl

end Sender

/-! ## A caller that keeps the deadlines -/

/-- A snapshot that went out. -/
structure Beat where
  time : MonotonicTimeMicros
  /-- Something was held all the time since the one before it, or since the activation opened. -/
  held : Bool
  message : ReliableControlMessage

/-- How far the motion goes that the snapshot shows. -/
def Beat.through (beat : Beat) : Option MotionSequence :=
  beat.message.payload.motionAnchor.map (·.throughMotionSequence)

/-- Motion that was captured. -/
structure Sample where
  time : MonotonicTimeMicros
  frame : MotionFrame
  /-- How many snapshots had gone out by then. -/
  before : Nat

structure Schedule where
  sender : Sender
  clock : MonotonicTimeMicros
  /-- Something has been held since the last snapshot, or since the activation opened. -/
  held : Bool
  beats : List Beat
  samples : List Sample

inductive ScheduleStep where
  | wait (time : MonotonicTimeMicros)
  | enter
  | capture (call : Capture) (time : MonotonicTimeMicros)
  | snapshot
  | tick
  | acknowledge (ack : SnapshotAck)

/-- The motion a capture gives. -/
def Capture.frame (time : MonotonicTimeMicros) (s : Sender) : Capture → Option MotionFrame
  | motion delta touchSnapshot => (Sender.captureMotion delta touchSnapshot time s).1.toOption
  | _ => none

namespace Schedule

def start (sender : Sender) (now : MonotonicTimeMicros) : Schedule := ⟨sender, now, false, [], []⟩

/-- After a call that sent no snapshot. -/
def goOn (sender : Sender) (w : Schedule) : Schedule :=
  { w with sender, held := w.held && !sender.held.isNeutral }

/-- After a call that sent one. -/
def beat (message : ReliableControlMessage) (sender : Sender) (w : Schedule) : Schedule :=
  { w with
    sender
    held := !sender.held.isNeutral
    beats := w.beats ++ [⟨w.clock, w.held, message⟩] }

/-- A call that fails goes on too, but the clock stays at its deadline. -/
def step : System Schedule ScheduleStep
  | .wait time, w =>
    if w.clock ≤ time ∧ time ≤ u64Max ∧ w.sender.nextDeadline.all (time ≤ ·) then
      some { w with clock := time }
    else none
  | .enter, w => some (w.goOn (Sender.enter w.clock w.sender).2)
  | .capture call time, w =>
    let sampled := (call.frame time w.sender).map fun frame => ⟨time, frame, w.beats.length⟩
    some { w.goOn (call.run time w.sender) with samples := w.samples ++ sampled.toList }
  | .snapshot, w =>
    match Sender.snapshot w.clock w.sender with
    | (.ok message, after) => some (w.beat message after)
    | (.error _, after) => some (w.goOn after)
  | .tick, w =>
    match Sender.tick w.clock w.sender with
    | (.ok (.checkpoint message), after) => some (w.beat message after)
    | (_, after) => some (w.goOn after)
  | .acknowledge ack, w => some (w.goOn (Sender.acknowledgeSnapshot ack w.sender).2)

/-! ## The invariant -/

/-- How far apart two snapshots may be, one right after the other. -/
def Near (config : SenderConfig) (a b : Beat) : Prop :=
  b.time ≤ addDuration a.time config.checkpointInterval ∧
    (b.held = true → b.time ≤ addDuration a.time (oneThirdRoundedDown config.receiverLease))

/-- A snapshot after the sample shows it, in time. -/
def Covered (config : SenderConfig) (w : Schedule) (sample : Sample) : Prop :=
  ∃ beat ∈ w.beats.drop sample.before, beat.time ≤ addDuration sample.time config.checkpointInterval ∧
    ∃ through, beat.through = some through ∧ sample.frame.motionSequence ≤ through

/-- The sample waits for the next snapshot. -/
structure Waiting (w : Schedule) (sample : Sample) : Prop where
  before : w.beats.length = sample.before
  after : w.sender.lastSnapshotAt ≤ sample.time
  motion : sample.frame.motionSequence ≤ w.sender.lastMotionSequence

/-- **The invariant** of a schedule. -/
structure Kept (config : SenderConfig) (w : Schedule) : Prop where
  configured : w.sender.config = config
  bounded : w.clock ≤ u64Max
  unstarted : w.sender.started = false → w.sender.remote = false ∧ w.beats = [] ∧ w.samples = []
  observed : w.sender.remote = true → w.sender.lastSnapshotAt ≤ w.sender.lastObservedTime
  periodic : w.sender.remote = true →
    w.clock ≤ addDuration w.sender.lastSnapshotAt config.checkpointInterval
  renewal : w.sender.remote = true → w.held = true →
    w.clock ≤ addDuration w.sender.lastSnapshotAt (oneThirdRoundedDown config.receiverLease)
  held : w.held = true → w.sender.held.isNeutral = false
  last : ∀ beat ∈ w.beats.getLast?, beat.time = w.sender.lastSnapshotAt
  near : w.beats.IsChain (Near config)
  covered : ∀ sample ∈ w.samples, Covered config w sample ∨ w.sender.remote = false ∨ w.Waiting sample

variable {config : SenderConfig} {w : Schedule}

theorem Covered.append {sample : Sample} {after : Schedule} (h : Covered config w sample)
    {beats : List Beat} (hbeats : after.beats = w.beats ++ beats) : Covered config after sample := by
  obtain ⟨beat, hbeat, hrest⟩ := h
  refine ⟨beat, ?_, hrest⟩
  rw [hbeats, List.drop_append]
  exact List.mem_append_left _ hbeat

/-- A call that keeps the schedule keeps the invariant. -/
theorem Kept.goOn {sender : Sender} (h : Kept config w) (hpaced : Sender.Paced w.sender sender) :
    Kept config (w.goOn sender) where
  configured := hpaced.config.trans h.configured
  bounded := h.bounded
  unstarted hstarted := by
    obtain ⟨hremote, hrest⟩ := h.unstarted (hpaced.started.symm.trans hstarted)
    refine ⟨?_, hrest⟩
    by_contra hne
    rw [hpaced.remote (Bool.eq_true_of_not_eq_false hne)] at hremote
    cases hremote
  observed hremote := by
    have hbefore := h.observed (hpaced.remote hremote)
    have hobserved := hpaced.observed
    simp only [Schedule.goOn, hpaced.snapshotAt]
    exact hbefore.trans hobserved
  periodic hremote := by
    simp only [Schedule.goOn, hpaced.snapshotAt]
    exact h.periodic (hpaced.remote hremote)
  renewal hremote hheld := by
    simp only [Schedule.goOn, hpaced.snapshotAt]
    exact h.renewal (hpaced.remote hremote) (Bool.and_eq_true_iff.mp hheld).1
  held hheld := by
    have hnow := (Bool.and_eq_true_iff.mp hheld).2
    simpa [Schedule.goOn] using hnow
  last beat hbeat := (h.last beat hbeat).trans hpaced.snapshotAt.symm
  near := h.near
  covered sample hsample := by
    rcases h.covered sample hsample with hcovered | hremote | hwaiting
    · exact .inl hcovered
    · refine .inr (.inl ?_)
      by_contra hne
      rw [hpaced.remote (Bool.eq_true_of_not_eq_false hne)] at hremote
      cases hremote
    · refine .inr (.inr ⟨hwaiting.before, ?_, hwaiting.motion.trans hpaced.motion⟩)
      simp only [Schedule.goOn, hpaced.snapshotAt]
      exact hwaiting.after

/-- A snapshot that goes out keeps it. -/
theorem Kept.beat {message : ReliableControlMessage} {sender : Sender} (h : Kept config w)
    (hsent : Sender.Sent message w.clock w.sender sender) : Kept config (w.beat message sender) where
  configured := hsent.config.trans h.configured
  bounded := h.bounded
  unstarted hstarted := by
    have hremote := (h.unstarted (hsent.started.symm.trans hstarted)).1
    rw [hsent.remote] at hremote
    cases hremote
  observed _ := by
    simp only [Schedule.beat, hsent.snapshotAt, hsent.observed, Nat.le_refl]
  periodic _ := by
    simp only [Schedule.beat, hsent.snapshotAt]
    exact Watch.le_addDuration h.bounded _
  renewal _ _ := by
    simp only [Schedule.beat, hsent.snapshotAt]
    exact Watch.le_addDuration h.bounded _
  held hheld := by
    simpa [Schedule.beat] using hheld
  last beat hbeat := by
    simp only [Schedule.beat, List.getLast?_append, List.getLast?_singleton, Option.some_or,
      Option.mem_some_iff] at hbeat
    subst hbeat
    exact hsent.snapshotAt.symm
  near := by
    refine h.near.append (List.isChain_singleton _) ?_
    intro before hbefore next hnext
    simp only [List.head?_cons, Option.mem_some_iff] at hnext
    subst hnext
    have hlast := h.last before hbefore
    refine ⟨?_, fun hheld => ?_⟩
    · rw [hlast]
      exact h.periodic hsent.remote
    · rw [hlast]
      exact h.renewal hsent.remote hheld
  covered sample hsample := by
    rcases h.covered sample hsample with hcovered | hremote | hwaiting
    · exact .inl (hcovered.append rfl)
    · rw [hsent.remote] at hremote
      cases hremote
    · refine .inl ⟨⟨w.clock, w.held, message⟩, ?_, ?_, w.sender.lastMotionSequence, ?_, hwaiting.motion⟩
      · simp [Schedule.beat, ← hwaiting.before]
      · exact (h.periodic hsent.remote).trans (Watch.addDuration_mono hwaiting.after _)
      · simp [Beat.through, hsent.payload, ReliableControl.motionAnchor, Sender.anchor]

/-- An activation that opens. -/
theorem Kept.opened {sender : Sender} (h : Kept config w)
    (hopened : Sender.Opened w.clock w.sender sender) : Kept config (w.goOn sender) := by
  obtain ⟨-, hstarted, -, hafter, hconfig, -, hsnapshot, hobserved, hheld, -, -⟩ := hopened
  obtain ⟨-, hbeats, hsamples⟩ := h.unstarted hstarted
  have hneutral : sender.held.isNeutral = true := HeldState.isNeutral_iff.mpr hheld
  have hnone : (w.goOn sender).held = false := by simp [Schedule.goOn, hneutral]
  exact {
    configured := hconfig.trans h.configured
    bounded := h.bounded
    unstarted := fun hnot => by cases hafter.symm.trans hnot
    observed := fun _ => by simp only [Schedule.goOn, hsnapshot, hobserved, Nat.le_refl]
    periodic := fun _ => by
      simp only [Schedule.goOn, hsnapshot]
      exact Watch.le_addDuration h.bounded _
    renewal := fun _ hcontra => by cases hnone.symm.trans hcontra
    held := fun hcontra => by cases hnone.symm.trans hcontra
    last := fun beat hbeat => by simp [Schedule.goOn, hbeats] at hbeat
    near := h.near
    covered := fun sample hsample => by simp [Schedule.goOn, hsamples] at hsample }

/-- Time that passes up to the next deadline. -/
theorem Kept.waited {time : MonotonicTimeMicros} (h : Kept config w) (hbounded : time ≤ u64Max)
    (hwoken : w.sender.nextDeadline.all (time ≤ ·) = true) : Kept config { w with clock := time } := by
  have hquiet : ∀ t, w.sender.remote = true → t < time → w.sender.Quiet t := by
    intro t hremote hlt
    obtain ⟨next, hnext, -⟩ := Sender.nextDeadline_le_periodic hremote
    rw [hnext] at hwoken
    exact (Sender.lt_nextDeadline_iff hremote).mp ⟨next, hnext, Nat.lt_of_lt_of_le hlt (of_decide_eq_true hwoken)⟩
  refine { h with bounded := hbounded, periodic := ?_, renewal := ?_, covered := ?_ }
  · intro hremote
    by_contra hlt
    have := (hquiet _ hremote (Nat.lt_of_not_le hlt)).periodic
    rw [h.configured] at this
    exact Nat.lt_irrefl _ this
  · intro hremote hheld
    by_contra hlt
    have := (hquiet _ hremote (Nat.lt_of_not_le hlt)).renewal (h.held hheld)
    rw [h.configured] at this
    exact Nat.lt_irrefl _ this
  · intro sample hsample
    rcases h.covered sample hsample with hcovered | hremote | hwaiting
    · exact .inl hcovered
    · exact .inr (.inl hremote)
    · exact .inr (.inr ⟨hwaiting.before, hwaiting.after, hwaiting.motion⟩)

/-- Only a remote sender captures motion. -/
theorem Kept.remote_of_frame {call : Capture} {time : MonotonicTimeMicros} {frame : MotionFrame}
    (hframe : call.frame time w.sender = some frame) : w.sender.remote = true := by
  cases call with
  | motion delta touchSnapshot =>
    cases hcapture : Sender.captureMotion delta touchSnapshot time w.sender with
    | mk result after =>
      simp only [Capture.frame, hcapture] at hframe
      cases result with
      | error error => cases hframe
      | ok other => exact (Sender.captureMotion_eq_ok hcapture).1
  | _ => cases hframe

/-- A sample that was just captured waits. -/
theorem Kept.sampled {call : Capture} {time : MonotonicTimeMicros} {frame : MotionFrame}
    (h : Kept config w) (hframe : call.frame time w.sender = some frame) :
    (w.goOn (call.run time w.sender)).Waiting ⟨time, frame, w.beats.length⟩ := by
  have hpaced := Sender.paced_rule.run call time w.sender
  cases call with
  | motion delta touchSnapshot =>
    cases hcapture : Sender.captureMotion delta touchSnapshot time w.sender with
    | mk result after =>
      simp only [Capture.frame, hcapture] at hframe
      cases result with
      | error error => cases hframe
      | ok other =>
        cases hframe
        obtain ⟨hremote, hobserved, hmotion⟩ := Sender.captureMotion_eq_ok hcapture
        have hafter : Capture.run time w.sender (.motion delta touchSnapshot) = after := by
          simp only [Capture.run, hcapture]
        refine ⟨rfl, ?_, ?_⟩
        · simp only [Schedule.goOn, hpaced.snapshotAt]
          exact (h.observed hremote).trans hobserved
        · simp only [Schedule.goOn, hafter, hmotion, Nat.le_refl]
  | _ => cases hframe

/-- **Every step keeps the invariant.** -/
theorem Kept.step {label : ScheduleStep} {after : Schedule} (h : Kept config w)
    (hstep : step label w = some after) : Kept config after := by
  cases label with
  | wait time =>
    simp only [Schedule.step] at hstep
    split at hstep
    · rename_i hguard
      cases hstep
      exact h.waited hguard.2.1 hguard.2.2
    · cases hstep
  | enter =>
    cases hstep
    rcases Sender.paced_rule.enter w.clock w.sender with hpaced | hopened
    · exact h.goOn hpaced
    · exact h.opened hopened
  | capture call time =>
    cases hstep
    have hkept := h.goOn (Sender.paced_rule.run call time w.sender)
    refine { hkept with unstarted := ?_, covered := ?_ }
    · intro hstarted
      obtain ⟨hremote, hbeats, hsamples⟩ := hkept.unstarted hstarted
      refine ⟨hremote, hbeats, ?_⟩
      cases hframe : call.frame time w.sender with
      | none => simpa [Schedule.goOn] using hsamples
      | some frame =>
        have hbefore := Sender.paced_rule.run call time w.sender
        have hnot := (h.unstarted (hbefore.started.symm.trans hstarted)).1
        have hremote := Kept.remote_of_frame hframe
        cases hnot.symm.trans hremote
    · intro sample hsample
      rcases List.mem_append.mp hsample with hold | hnew
      · rcases hkept.covered sample hold with hcovered | hremote | hwaiting
        · exact .inl (hcovered.append (List.append_nil _).symm)
        · exact .inr (.inl hremote)
        · exact .inr (.inr ⟨hwaiting.before, hwaiting.after, hwaiting.motion⟩)
      · obtain ⟨frame, hframe, rfl⟩ : ∃ frame, call.frame time w.sender = some frame ∧
            ⟨time, frame, w.beats.length⟩ = sample := by
          simpa [Option.mem_toList] using hnew
        have hwaiting := h.sampled hframe
        exact .inr (.inr ⟨hwaiting.before, hwaiting.after, hwaiting.motion⟩)
  | snapshot =>
    have htriple := Sender.snapshot_triple w.clock w.sender w.sender rfl
    simp only [Schedule.step] at hstep
    cases hsnapshot : Sender.snapshot w.clock w.sender with
    | mk result sender =>
      rw [hsnapshot] at hstep htriple
      cases result with
      | ok message =>
        cases hstep
        exact h.beat htriple
      | error error =>
        cases hstep
        exact h.goOn htriple
  | tick =>
    have htriple := Sender.tick_triple w.clock w.sender w.sender rfl
    simp only [Schedule.step] at hstep
    cases htick : Sender.tick w.clock w.sender with
    | mk result sender =>
      rw [htick] at hstep htriple
      cases result with
      | error error =>
        cases hstep
        exact h.goOn htriple
      | ok answer =>
        cases answer with
        | checkpoint message =>
          cases hstep
          exact h.beat htriple
        | idle | exitRemote =>
          cases hstep
          exact h.goOn htriple
  | acknowledge ack =>
    cases hstep
    exact h.goOn (Sender.paced_acknowledge ack w.sender)

/-- A sender that was just made. -/
theorem Kept.start {session : SessionContext} {now : MonotonicTimeMicros} {sender : Sender}
    (hnew : Sender.new config session now = .ok sender) (hnow : now ≤ u64Max) : Kept config (start sender now) := by
  obtain ⟨_, -, hsender⟩ := Act.except_bind_eq_ok.mp hnew
  cases hsender
  exact {
    configured := rfl
    bounded := hnow
    unstarted := fun _ => ⟨rfl, rfl, rfl⟩
    observed := nofun
    periodic := nofun
    renewal := nofun
    held := nofun
    last := nofun
    near := List.isChain_nil
    covered := nofun }

theorem kept_of_reaches {session : SessionContext} {now : MonotonicTimeMicros} {sender : Sender}
    (hnew : Sender.new config session now = .ok sender) (hnow : now ≤ u64Max)
    (h : System.Reaches step (fun _ _ => True) (Schedule.start sender now) w) : Kept config w := by
  apply h.invariant (Kept.start hnew hnow)
  intro s label t hs _ hstep
  exact hs.step hstep

/-! ## The law -/

/-- A third of a lease that a sender takes, in microseconds. -/
theorem asMicros_oneThird {lease : Duration} (h : lease.nanos ≤ maxReceiverLease.nanos) :
    (oneThirdRoundedDown lease).asMicros = max 1 ((lease.asMicros - 1) / 3) := by
  have hmicros : lease.asMicros ≤ 1000000 := by
    have : lease.nanos ≤ 1000000000 := h
    unfold Duration.asMicros
    omega
  have hsmall : (lease.asMicros - 1) / 3 ≤ u64Max := by
    unfold u64Max
    omega
  unfold oneThirdRoundedDown
  rw [Nat.min_eq_left hsmall, Nat.max_comm]
  unfold Duration.fromMicros
  show max 1 ((lease.asMicros - 1) / 3) * 1000 / 1000 = _
  exact Nat.mul_div_cancel _ (by decide)

theorem lease_of_new {session : SessionContext} {now : MonotonicTimeMicros} {sender : Sender}
    (hnew : Sender.new config session now = .ok sender) :
    config.receiverLease.nanos ≤ maxReceiverLease.nanos := by
  obtain ⟨_, hvalid, -⟩ := Act.except_bind_eq_ok.mp hnew
  unfold SenderConfig.validate at hvalid
  by_contra hlt
  have hlease : config.receiverLease.isZero = true ∨
      maxReceiverLease.nanos < config.receiverLease.nanos := .inr (Nat.lt_of_not_le hlt)
  rw [if_pos hlease] at hvalid
  split at hvalid <;> cases hvalid

/-- **Ticks and deadlines agree, and snapshots go out on time.** A tick of a remote sender is idle exactly
before the next deadline. In every run that ticks the sender at each deadline, two snapshots are no further
apart than the checkpoint interval, and no further than a third of the lease while something is held in
between; time does not pass either limit without one. What was captured is shown by a snapshot that goes
out within the interval, or the deadline for it is still to come, unless the activation ended. -/
theorem checkpoints_on_time {session : SessionContext} {now : MonotonicTimeMicros} {sender : Sender}
    (hnew : Sender.new config session now = .ok sender) (hnow : now ≤ u64Max)
    (h : System.Reaches step (fun _ _ => True) (start sender now) w) :
    (∀ time, w.sender.remote = true → w.sender.lastObservedTime ≤ time →
      ((Sender.tick time w.sender).1 = .ok .idle ↔ ∃ next, w.sender.nextDeadline = some next ∧ time < next)) ∧
    (∀ a b, [a, b] <:+: w.beats → b.time ≤ a.time + config.checkpointInterval.asMicros ∧
      (b.held = true → b.time ≤ a.time + max 1 ((config.receiverLease.asMicros - 1) / 3))) ∧
    (w.sender.remote = true → w.clock ≤ w.sender.lastSnapshotAt + config.checkpointInterval.asMicros ∧
      (w.held = true → w.clock ≤ w.sender.lastSnapshotAt + max 1 ((config.receiverLease.asMicros - 1) / 3))) ∧
    ∀ sample ∈ w.samples, w.sender.remote = true → (∃ beat ∈ w.beats.drop sample.before,
        beat.time ≤ sample.time + config.checkpointInterval.asMicros ∧
        ∃ through, beat.through = some through ∧ sample.frame.motionSequence ≤ through) ∨
      w.clock ≤ sample.time + config.checkpointInterval.asMicros ∧ ∃ next, w.sender.nextDeadline = some next ∧
          next ≤ sample.time + config.checkpointInterval.asMicros := by
  have hkept := kept_of_reaches hnew hnow h
  have hthird := asMicros_oneThird (lease_of_new hnew)
  refine ⟨fun time hremote hobserved => Sender.tick_idle_iff hremote hobserved, ?_, ?_, ?_⟩
  · intro a b hinfix
    obtain ⟨earlier, later, hbeats⟩ := hinfix
    have hnear := List.isChain_iff_forall_rel_of_append_cons_cons.mp hkept.near
      (show w.beats = earlier ++ a :: b :: later by simp [← hbeats])
    refine ⟨hnear.1.trans (addDuration_le _ _), fun hheld => ?_⟩
    rw [← hthird]
    exact (hnear.2 hheld).trans (addDuration_le _ _)
  · intro hremote
    refine ⟨(hkept.periodic hremote).trans (addDuration_le _ _), fun hheld => ?_⟩
    rw [← hthird]
    exact (hkept.renewal hremote hheld).trans (addDuration_le _ _)
  · intro sample hsample hremote
    rcases hkept.covered sample hsample with ⟨beat, hbeat, htime, hthrough⟩ | hnot | hwaiting
    · exact .inl ⟨beat, hbeat, htime.trans (addDuration_le _ _), hthrough⟩
    · cases hremote.symm.trans hnot
    · have hlimit := addDuration_le sample.time config.checkpointInterval
      have hmono := Watch.addDuration_mono hwaiting.after config.checkpointInterval
      obtain ⟨next, hnext, hle⟩ := Sender.nextDeadline_le_periodic hremote
      rw [hkept.configured] at hle
      exact .inr ⟨((hkept.periodic hremote).trans hmono).trans hlimit, next, hnext, (hle.trans hmono).trans hlimit⟩

/-- A key is held, and the pointer moves once, under a lease of 300 ms. -/
def heldCalls : List ScheduleStep :=
  [.enter, .capture (.keyDown (.keyboard 4)) 10, .wait 99999, .tick,
    .capture (.motion ⟨3, 0, 0, 0⟩ none) 120000, .wait 199998, .tick]

/-- The snapshot that shows the motion renews the key, a third of the lease after the one before. -/
theorem checkpoints_on_time_held : ∃ w : Schedule, (w.beats.map fun beat => (beat.time, beat.held, beat.through)) =
      [(99999, false, some 0), (199998, true, some 1)] ∧
    (∀ a b, [a, b] <:+: w.beats → b.held = true → b.time ≤ a.time + 99999) ∧
    ((Sender.tick 299996 w.sender).1 = .ok .idle ↔ ∃ next, w.sender.nextDeadline = some next ∧ 299996 < next) := by
  have hrun : ((System.guarded step fun _ _ => True).exec heldCalls (start Watch.silentSender 0)).any
      (fun w => w.sender.remote ∧ w.sender.lastObservedTime = 199998 ∧
        (w.beats.map fun beat => (beat.time, beat.held, beat.through)) =
          [(99999, false, some 0), (199998, true, some 1)]) = true := by
    decide +kernel
  obtain ⟨w, hreaches, hfacts⟩ := System.exists_reaches_of_exec hrun
  obtain ⟨hremote, hobserved, hbeats⟩ := of_decide_eq_true hfacts
  have hnew : Sender.new Watch.silentSender.config ⟨1, 1, 1⟩ 0 = .ok Watch.silentSender := rfl
  obtain ⟨hidle, hnear, -⟩ := checkpoints_on_time hnew (by decide) hreaches
  refine ⟨w, hbeats, fun a b hinfix hheld => (hnear a b hinfix).2 hheld, hidle 299996 hremote ?_⟩
  rw [hobserved]
  decide

end Schedule

end Zflow.Core
