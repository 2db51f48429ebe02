import Zflow.Core.Sender
import Zflow.Lib.System

/-!
# Lost acknowledgements are noticed

A sender is watched: its clock runs, and never past a deadline that has not been ticked; captures
come at any times of their own, and acknowledgements whenever they come. `emitted` and `acknowledged`
record the snapshots that went out and the acknowledgements that were taken.
-/

namespace Zflow.Core

open Lib

/-- One call of the capture path. -/
inductive Capture where
  | motion (delta : MotionDelta) (touchSnapshot : Option TouchState)
  | keyDown (key : HidUsage)
  | keyUp (key : HidUsage)
  | buttonDown (button : PointerButton)
  | buttonUp (button : PointerButton)
  | touchBegin (initialState : TouchState)
  | touchEnd (cancelled : Bool)
  | leave (reason : SessionCloseReason)

/-- The sender a capture leaves, whether it succeeded or not. -/
def Capture.run (time : MonotonicTimeMicros) (s : Sender) : Capture → Sender
  | motion delta touchSnapshot => (Sender.captureMotion delta touchSnapshot time s).2
  | keyDown key => (Sender.keyDown key time s).2
  | keyUp key => (Sender.keyUp key time s).2
  | buttonDown button => (Sender.buttonDown button time s).2
  | buttonUp button => (Sender.buttonUp button time s).2
  | touchBegin initialState => (Sender.touchBegin initialState time s).2
  | touchEnd cancelled => (Sender.touchEnd cancelled time s).2
  | leave reason => (Sender.leave reason time s).2

structure Watch where
  sender : Sender
  clock : MonotonicTimeMicros
  /-- When the sender last became remote. -/
  entered : Option MonotonicTimeMicros
  /-- The snapshots that went out, with their times. -/
  emitted : List (ControlSequence × MonotonicTimeMicros)
  /-- The acknowledgements the sender took. -/
  acknowledged : List ControlSequence

inductive WatchStep where
  | wait (time : MonotonicTimeMicros)
  | enter
  | capture (call : Capture) (time : MonotonicTimeMicros)
  | tick
  | acknowledge (ack : SnapshotAck)

namespace Watch

def start (sender : Sender) (now : MonotonicTimeMicros) : Watch := ⟨sender, now, none, [], []⟩

def step : System Watch WatchStep
  -- the clock stops at a deadline until it has been ticked
  | .wait time, w =>
    if w.clock ≤ time ∧ time ≤ u64Max ∧ w.sender.nextDeadline.all (time ≤ ·) then
      some { w with clock := time }
    else none
  | .enter, w =>
    let after := (Sender.enter w.clock w.sender).2
    some { w with
      sender := after
      entered := if !w.sender.remote && after.remote then some w.clock else w.entered }
  | .capture call time, w => some { w with sender := call.run time w.sender }
  -- a tick that fails ends the run
  | .tick, w =>
    match Sender.tick w.clock w.sender with
    | (.ok (.checkpoint message), after) =>
      some { w with sender := after, emitted := w.emitted ++ [(message.sequence, w.clock)] }
    | (.ok _, after) => some { w with sender := after }
    | (.error _, _) => none
  | .acknowledge ack, w =>
    match Sender.acknowledgeSnapshot ack w.sender with
    | (.ok (), after) =>
      some { w with sender := after, acknowledged := w.acknowledged ++ [ack.snapshotSequence] }
    | (.error _, after) => some { w with sender := after }

end Watch

/-! ## What a capture leaves alone -/

namespace Sender

/-- What every call of the capture path keeps. -/
structure Captured (s s' : Sender) : Prop where
  config : s'.config = s.config
  started : s'.started = s.started
  control : s.lastControlSequence ≤ s'.lastControlSequence
  acknowledged : s'.lastAcknowledged = s.lastAcknowledged
  snapshotAt : s'.lastSnapshotAt = s.lastSnapshotAt
  pending : s'.pendingSnapshots = s.pendingSnapshots ∨
    s'.remote = false ∧ s'.pendingSnapshots = ∅
  remote : s'.remote = true → s.remote = true

theorem Captured.refl (s : Sender) : Captured s s := ⟨rfl, rfl, Nat.le_refl _, rfl, rfl, .inl rfl, id⟩

theorem Captured.trans {a b c : Sender} (hab : Captured a b) (hbc : Captured b c) : Captured a c where
  config := hbc.config.trans hab.config
  started := hbc.started.trans hab.started
  control := hab.control.trans hbc.control
  acknowledged := hbc.acknowledged.trans hab.acknowledged
  snapshotAt := hbc.snapshotAt.trans hab.snapshotAt
  pending := by
    rcases hbc.pending with hsame | hcleared
    · rcases hab.pending with hsame' | ⟨hremote, hcleared⟩
      · exact .inl (hsame.trans hsame')
      · right
        refine ⟨?_, hsame.trans hcleared⟩
        by_contra hremote'
        rw [hbc.remote (Bool.eq_true_of_not_eq_false hremote')] at hremote
        cases hremote
    · exact .inr hcleared
  remote h := hab.remote (hbc.remote h)

instance : IsPreorder Sender Captured where
  refl := .refl
  trans _ _ _ := .trans

/-- The changes the calls of the capture path are made of. A relation that each of them keeps is kept by
every such call. -/
structure CaptureRule (R : Sender → Sender → Prop) : Prop where
  observed : ∀ s now, s.lastObservedTime ≤ now → R s { s with lastObservedTime := now }
  numbered : ∀ s, R s { s with lastControlSequence := s.lastControlSequence + 1 }
  held : ∀ s held, R s { s with held }
  moved : ∀ s totals held dirtySince,
    dirtySince = s.dirtySince ∨ dirtySince = some (s.dirtySince.getD s.lastObservedTime) →
    R s { s with totals, held, dirtySince, lastMotionSequence := s.lastMotionSequence + 1 }
  overflowed : ∀ s, R s { s with remote := false, held := .neutral }
  left : ∀ s, R s { s with remote := false, held := .neutral, pendingSnapshots := ∅ }

/-- A payload gets the next number, where there is one left. -/
theorem control_apply (payload : ReliableControl) (s : Sender) :
    control payload s = match checkedAddU64 s.lastControlSequence 1 with
      | some next => (.ok ⟨s.session, next, payload⟩, { s with lastControlSequence := next })
      | none => (.error .sequenceExhausted, s) := by
  show (Act.lift id (nextSequence s.lastControlSequence) >>= _) s = _
  unfold nextSequence
  cases checkedAddU64 s.lastControlSequence 1 <;> rfl

/-- What numbering a payload does, where it succeeds. -/
theorem control_eq_ok {payload : ReliableControl} {s s' : Sender} {message : ReliableControlMessage}
    (h : control payload s = (.ok message, s')) : message.sequence = s.lastControlSequence + 1 ∧
      s' = { s with lastControlSequence := s.lastControlSequence + 1 } := by
  rw [control_apply] at h
  split at h
  · rename_i next hnext
    obtain ⟨rfl, -⟩ := checkedAddU64_eq_some.mp hnext
    cases h
    exact ⟨rfl, rfl⟩
  · cases h

theorem requireRemote_eq_ok {s s' : Sender} (h : requireRemote s = (.ok (), s')) :
    s.remote = true ∧ s' = s := by
  unfold requireRemote at h
  split at h
  · rename_i hremote
    cases h
    exact ⟨hremote, rfl⟩
  · cases h

theorem observeTime_eq_ok {now : MonotonicTimeMicros} {s s' : Sender}
    (h : observeTime now s = (.ok (), s')) : s' = { s with lastObservedTime := now } := by
  unfold observeTime at h
  split at h
  · cases h
  · cases h
    rfl

theorem requireRemote_of_remote {s : Sender} (h : s.remote = true) : requireRemote s = (.ok (), s) := by
  unfold requireRemote
  rw [if_pos h]

theorem requireRemote_of_not {s : Sender} (h : ¬ s.remote = true) : requireRemote s = (.error .notRemote, s) := by
  unfold requireRemote
  rw [if_neg h]

theorem observeTime_of_le {now : MonotonicTimeMicros} {s : Sender} (h : s.lastObservedTime ≤ now) :
    observeTime now s = (.ok (), { s with lastObservedTime := now }) := by
  unfold observeTime
  rw [if_neg (Nat.not_lt.mpr h)]

theorem observeTime_of_lt {now : MonotonicTimeMicros} {s : Sender} (h : now < s.lastObservedTime) :
    observeTime now s = (.error .clockMovedBackwards, s) := by
  unfold observeTime
  rw [if_pos h]

namespace CaptureRule

variable {R : Sender → Sender → Prop} [IsPreorder Sender R]

theorem requireRemote : Act.Within R requireRemote := by
  intro s
  unfold Sender.requireRemote
  split <;> exact refl_of R s

theorem observeTime (h : CaptureRule R) (now : MonotonicTimeMicros) : Act.Within R (observeTime now) := by
  intro s
  unfold Sender.observeTime
  split
  · exact refl_of R s
  · rename_i hle
    exact h.observed s now (Nat.le_of_not_lt hle)

theorem beforeControl (h : CaptureRule R) (now : MonotonicTimeMicros) : Act.Within R (beforeControl now) :=
  .bind requireRemote fun _ => h.observeTime now

theorem control (h : CaptureRule R) (payload : ReliableControl) : Act.Within R (control payload) := by
  intro s
  rw [control_apply]
  split
  · rename_i next hnext
    obtain ⟨rfl, -⟩ := checkedAddU64_eq_some.mp hnext
    exact h.numbered s
  · exact refl_of R s

/-- A control message: the checks, a change of what is held, and the number. -/
theorem hold (h : CaptureRule R) (now : MonotonicTimeMicros) (refused : Sender → Bool)
    (held : Sender → HeldState) (payload : Sender → ReliableControl) :
    Act.Within R (do
      Sender.beforeControl now
      let s ← .read
      if refused s then .fail .invalidTransition
      else
        .change fun s => { s with held := held s }
        Sender.control (payload s)) := by
  apply Act.Within.bind (h.beforeControl now)
  intro _
  apply Act.Within.read_bind
  intro s
  split
  · exact refl_of R s
  · exact trans_of R (h.held s (held s)) (h.control _ _)

theorem captureMotion (h : CaptureRule R) (delta : MotionDelta) (touchSnapshot : Option TouchState)
    (now : MonotonicTimeMicros) : Act.Within R (captureMotion delta touchSnapshot now) := by
  apply Act.Within.bind (requireRemote (R := R))
  intro _ s
  rw [Act.bind_apply]
  cases hobserve : Sender.observeTime now s with
  | mk result s₁ =>
    have hobserved := h.observeTime now s
    rw [hobserve] at hobserved
    cases result with
    | error error => exact hobserved
    | ok _ =>
      have hs₁ := observeTime_eq_ok hobserve
      subst hs₁
      refine trans_of R hobserved ?_
      dsimp only
      rw [Act.bind_apply, Act.read_apply]
      dsimp only
      cases s.totals.checkedAdd delta with
      | error error => exact h.overflowed _
      | ok totals =>
        unfold nextSequence
        cases hnext : checkedAddU64 s.lastMotionSequence 1 with
        | none => exact refl_of R _
        | some next =>
          obtain ⟨rfl, -⟩ := checkedAddU64_eq_some.mp hnext
          refine h.moved _ _ _ _ ?_
          split
          · exact .inr rfl
          · exact .inl rfl

theorem leave (h : CaptureRule R) (reason : SessionCloseReason) (now : MonotonicTimeMicros) :
    Act.Within R (leave reason now) := by
  apply Act.Within.bind (h.beforeControl now)
  intro _
  apply Act.Within.read_bind
  intro s
  refine Act.Within.bind (h.control _) (fun message => ?_) s
  exact .bind h.left fun _ => .pure _

/-- **The rule of the capture path**, whether a call succeeds or fails. -/
theorem run (h : CaptureRule R) (call : Capture) (time : MonotonicTimeMicros) (s : Sender) :
    R s (call.run time s) := by
  cases call with
  | motion delta touchSnapshot => exact h.captureMotion delta touchSnapshot time s
  | keyDown key =>
    exact h.hold time (fun s => s.held.pressedKeys.contains key)
      (fun s => s.held.pressKey key) (fun _ => .keyDown key) s
  | keyUp key =>
    exact h.hold time (fun s => !s.held.pressedKeys.contains key)
      (fun s => s.held.releaseKey key) (fun _ => .keyUp key) s
  | buttonDown button =>
    exact h.hold time (fun s => s.held.pressedButtons.contains button)
      (fun s => s.held.pressButton button) (fun s => .buttonDown button (s.anchor time .checkpoint)) s
  | buttonUp button =>
    exact h.hold time (fun s => !s.held.pressedButtons.contains button)
      (fun s => s.held.releaseButton button) (fun s => .buttonUp button (s.anchor time .checkpoint)) s
  | touchBegin initialState =>
    exact h.hold time (fun s => !s.held.activeTouch.isEmpty || initialState.isEmpty)
      (fun s => s.held.replaceTouch initialState) (fun _ => .touchBegin initialState) s
  | touchEnd cancelled =>
    exact h.hold time (fun s => s.held.activeTouch.isEmpty) (fun s => s.held.clearTouch)
      (fun s => if cancelled then .touchCancel (s.anchor time .checkpoint)
        else .touchEnd (s.anchor time .checkpoint)) s
  | leave reason => exact h.leave reason time s

end CaptureRule

theorem captured_rule : CaptureRule Captured where
  observed _ _ _ := ⟨rfl, rfl, Nat.le_refl _, rfl, rfl, .inl rfl, id⟩
  numbered _ := ⟨rfl, rfl, Nat.le_succ _, rfl, rfl, .inl rfl, id⟩
  held _ _ := ⟨rfl, rfl, Nat.le_refl _, rfl, rfl, .inl rfl, id⟩
  moved _ _ _ _ _ := ⟨rfl, rfl, Nat.le_refl _, rfl, rfl, .inl rfl, id⟩
  overflowed _ := ⟨rfl, rfl, Nat.le_refl _, rfl, rfl, .inl rfl, nofun⟩
  left _ := ⟨rfl, rfl, Nat.le_refl _, rfl, rfl, .inr ⟨rfl, rfl⟩, nofun⟩

/-- **A capture leaves the checkpoints alone**, whether it succeeds or fails. -/
theorem captured_run (call : Capture) (time : MonotonicTimeMicros) (s : Sender) :
    Captured s (call.run time s) := captured_rule.run call time s

/-! ## What a tick does -/

/-- A snapshot that goes out is the last one, and its acknowledgement is due a lease later. -/
theorem snapshot_eq_ok {now : MonotonicTimeMicros} {s s' : Sender} {message : ReliableControlMessage}
    (h : snapshot now s = (.ok message, s')) : message.sequence = s.lastControlSequence + 1 ∧ ∃ taken, s' = { s with
      lastObservedTime := now
      lastControlSequence := s.lastControlSequence + 1
      pendingSnapshots := s.pendingSnapshots.insert (s.lastControlSequence + 1)
        ⟨taken, addDuration now s.config.receiverLease⟩
      lastSnapshotAt := now
      dirtySince := none } := by
  obtain ⟨_, s₁, hremote, hrest⟩ := Act.bind_eq_ok.mp h
  obtain ⟨-, hs₁⟩ := requireRemote_eq_ok hremote
  subst hs₁
  obtain ⟨_, s₂, hobserve, hrest⟩ := Act.bind_eq_ok.mp hrest
  have hs₂ := observeTime_eq_ok hobserve
  subst hs₂
  obtain ⟨t, s₃, hread, h⟩ := Act.bind_eq_ok.mp hrest
  cases hread
  split at h
  · cases h
  · obtain ⟨numbered, s₄, hcontrol, h⟩ := Act.bind_eq_ok.mp h
    obtain ⟨hsequence, hs₄⟩ := control_eq_ok hcontrol
    subst hs₄
    cases h
    exact ⟨hsequence, _, by rw [hsequence]⟩

/-- What a tick that succeeds finds and leaves. -/
inductive Ticked (s : Sender) (now : MonotonicTimeMicros) : SenderTick → Sender → Prop
  | exit (reason : SenderExitReason) (close : ReliableControlMessage) (sequence : ControlSequence)
      (pending : PendingSnapshot) (hpending : s.pendingSnapshots[sequence]? = some pending)
      (hdue : pending.ackDeadline ≤ now) :
      Ticked s now (.exitRemote reason close)
        { s with
          lastObservedTime := now
          lastControlSequence := s.lastControlSequence + 1
          remote := false
          held := .neutral
          pendingSnapshots := ∅ }
  | checkpoint (message : ReliableControlMessage) (taken : StateSnapshot)
      (hlive : ∀ (sequence : ControlSequence) (pending : PendingSnapshot), s.pendingSnapshots[sequence]? = some pending →
        now < pending.ackDeadline)
      (hsequence : message.sequence = s.lastControlSequence + 1) :
      Ticked s now (.checkpoint message)
        { s with
          lastObservedTime := now
          lastControlSequence := s.lastControlSequence + 1
          pendingSnapshots := s.pendingSnapshots.insert (s.lastControlSequence + 1)
            ⟨taken, addDuration now s.config.receiverLease⟩
          lastSnapshotAt := now
          dirtySince := none }
  | idle (hlive : ∀ (sequence : ControlSequence) (pending : PendingSnapshot), s.pendingSnapshots[sequence]? = some pending →
        now < pending.ackDeadline)
      (hperiodic : now < addDuration s.lastSnapshotAt s.config.checkpointInterval) :
      Ticked s now .idle { s with lastObservedTime := now }

theorem tick_cases {now : MonotonicTimeMicros} {s s' : Sender} {answer : SenderTick}
    (h : tick now s = (.ok answer, s')) : s.remote = true ∧ Ticked s now answer s' := by
  obtain ⟨_, s₁, hrequire, hrest⟩ := Act.bind_eq_ok.mp h
  obtain ⟨hremote, hs₁⟩ := requireRemote_eq_ok hrequire
  subst hs₁
  refine ⟨hremote, ?_⟩
  obtain ⟨_, s₂, hobserve, hrest⟩ := Act.bind_eq_ok.mp hrest
  have hs₂ := observeTime_eq_ok hobserve
  subst hs₂
  obtain ⟨t, s₃, hread, h⟩ := Act.bind_eq_ok.mp hrest
  cases hread
  split at h
  · rename_i hdue
    obtain ⟨entry, hentry, hdue⟩ := List.any_eq_true.mp hdue
    obtain ⟨close, s₄, hcontrol, h⟩ := Act.bind_eq_ok.mp h
    obtain ⟨-, hs₄⟩ := control_eq_ok hcontrol
    subst hs₄
    cases h
    exact .exit _ close entry.1 entry.2
      (Std.ExtTreeMap.mem_toList_iff_getElem?_eq_some.mp hentry) (of_decide_eq_true hdue)
  · rename_i hnone
    have hlive : ∀ (sequence : ControlSequence) (pending : PendingSnapshot), s₁.pendingSnapshots[sequence]? = some pending →
        now < pending.ackDeadline := by
      intro sequence pending hpending
      by_contra hle
      apply hnone
      apply List.any_eq_true.mpr
      exact ⟨(sequence, pending), Std.ExtTreeMap.mem_toList_iff_getElem?_eq_some.mpr hpending,
        decide_eq_true (Nat.le_of_not_lt hle)⟩
    dsimp only at h
    split at h
    · obtain ⟨message, s₄, hsnapshot, h⟩ := Act.bind_eq_ok.mp h
      obtain ⟨hsequence, taken, hs₄⟩ := snapshot_eq_ok hsnapshot
      subst hs₄
      cases h
      exact .checkpoint message taken hlive hsequence
    · rename_i hquiet
      cases h
      apply Ticked.idle hlive
      by_contra hle
      apply hquiet
      rw [Bool.or_eq_true, Bool.or_eq_true]
      exact .inl (.inl (decide_eq_true (Nat.le_of_not_lt hle)))

/-- The caller is woken for the periodic checkpoint, if for nothing earlier. -/
theorem nextDeadline_le_periodic {s : Sender} (hremote : s.remote = true) : ∃ next, s.nextDeadline = some next ∧
      next ≤ addDuration s.lastSnapshotAt s.config.checkpointInterval := by
  simp only [nextDeadline, hremote, Bool.not_true, Bool.false_eq_true, if_false]
  apply exists_min?_le
  exact List.mem_filterMap.mpr ⟨some _, List.mem_cons_self, rfl⟩

/-- The caller is woken for each acknowledgement, if for nothing earlier. -/
theorem nextDeadline_le_ack {s : Sender} {sequence : ControlSequence} {pending : PendingSnapshot}
    (hremote : s.remote = true) (hpending : s.pendingSnapshots[sequence]? = some pending) :
    ∃ next, s.nextDeadline = some next ∧ next ≤ pending.ackDeadline := by
  have hmem : pending.ackDeadline ∈ s.pendingSnapshots.toList.map fun entry => entry.2.ackDeadline :=
    List.mem_map.mpr ⟨(sequence, pending), Std.ExtTreeMap.mem_toList_iff_getElem?_eq_some.mpr hpending, rfl⟩
  obtain ⟨first, hfirst, hle⟩ := exists_min?_le hmem
  simp only [nextDeadline, hremote, Bool.not_true, Bool.false_eq_true, if_false]
  have hwoken : first ∈ [some (addDuration s.lastSnapshotAt s.config.checkpointInterval),
      s.dirtySince.map (addDuration · s.config.checkpointInterval),
      if !s.held.isNeutral then
        some (addDuration s.lastSnapshotAt (oneThirdRoundedDown s.config.receiverLease))
      else none,
      (s.pendingSnapshots.toList.map fun entry => entry.2.ackDeadline).min?].filterMap id :=
    List.mem_filterMap.mpr ⟨some first, by simp [hfirst], rfl⟩
  obtain ⟨next, hnext, hnextle⟩ := exists_min?_le hwoken
  exact ⟨next, hnext, hnextle.trans hle⟩

/-! ## What the other calls do -/

/-- What an activation that opens finds and leaves. -/
structure Opened (now : MonotonicTimeMicros) (s s' : Sender) : Prop where
  remote : s.remote = false
  started : s.started = false
  live : s'.remote = true
  begun : s'.started = true
  config : s'.config = s.config
  acknowledged : s'.lastAcknowledged = s.lastAcknowledged
  snapshotAt : s'.lastSnapshotAt = now
  observed : s'.lastObservedTime = now
  held : s'.held = .neutral
  dirty : s'.dirtySince = none
  pending : s'.pendingSnapshots = ∅

/-- **An activation that opens**, or a call like those of the capture path. -/
theorem CaptureRule.enter {R : Sender → Sender → Prop} [IsPreorder Sender R] (h : CaptureRule R)
    (now : MonotonicTimeMicros) (s : Sender) : R s (enter now s).2 ∨ Opened now s (enter now s).2 := by
  unfold Sender.enter
  rw [Act.bind_apply]
  cases hobserve : Sender.observeTime now s with
  | mk result s₁ =>
    have hobserved := h.observeTime now s
    rw [hobserve] at hobserved
    cases result with
    | error error => exact .inl hobserved
    | ok _ =>
      have hs₁ := observeTime_eq_ok hobserve
      subst hs₁
      dsimp only
      rw [Act.bind_apply, Act.read_apply]
      dsimp only
      by_cases hremote : s.remote = true
      · rw [if_pos hremote]
        exact .inl hobserved
      · rw [if_neg hremote]
        by_cases hstarted : s.started = true
        · rw [if_pos hstarted]
          exact .inl hobserved
        · rw [if_neg hstarted, Act.bind_apply, Act.change_apply]
          right
          dsimp only
          rw [control_apply]
          split <;> exact ⟨Bool.eq_false_of_not_eq_true hremote,
            Bool.eq_false_of_not_eq_true hstarted, rfl, rfl, rfl, rfl, rfl, rfl, rfl, rfl, rfl⟩

theorem acknowledge_cases {ack : SnapshotAck} {s s' : Sender} {result : Except SenderError Unit}
    (h : acknowledgeSnapshot ack s = (result, s')) : (result = .ok () ∧ s' = s ∧
        ∃ last, s.lastAcknowledged = some last ∧ ack.snapshotSequence ≤ last.1) ∨
      (result = .ok () ∧ ∃ pending, s.pendingSnapshots[ack.snapshotSequence]? = some pending ∧ s' = { s with
          lastAcknowledged := some (ack.snapshotSequence, pending.snapshot)
          pendingSnapshots := s.pendingSnapshots.filter fun sequence _ =>
            ack.snapshotSequence < sequence }) ∨
      (∃ error, result = .error error) ∧ s' = s := by
  unfold acknowledgeSnapshot at h
  rw [Act.bind_apply, Act.read_apply] at h
  dsimp only at h
  by_cases hgeneration : ack.acceptedGeneration ≠ s.session.transportGeneration
  · rw [if_pos hgeneration] at h
    cases h
    exact .inr (.inr ⟨⟨_, rfl⟩, rfl⟩)
  · rw [if_neg hgeneration] at h
    cases hpending : s.pendingSnapshots[ack.snapshotSequence]? with
    | some pending =>
      rw [hpending] at h
      cases h
      exact .inr (.inl ⟨rfl, pending, rfl, rfl⟩)
    | none =>
      rw [hpending] at h
      dsimp only at h
      by_cases hstale : (s.lastAcknowledged.any (ack.snapshotSequence ≤ ·.1)) = true
      · rw [if_pos hstale] at h
        cases h
        obtain ⟨last, hlast, hle⟩ := Option.any_eq_true _ _ |>.mp hstale
        exact .inl ⟨rfl, rfl, last, hlast, of_decide_eq_true hle⟩
      · rw [if_neg hstale] at h
        cases h
        exact .inr (.inr ⟨⟨_, rfl⟩, rfl⟩)

end Sender

/-! ## The invariant -/

namespace Watch

/-- **The invariant** of a watched sender: what is pending went out and is not acknowledged, the clock
is past no deadline, and a snapshot goes out within each interval. -/
structure Watched (config : SenderConfig) (w : Watch) : Prop where
  configured : w.sender.config = config
  bounded : w.clock ≤ u64Max
  unstarted : w.sender.started = false → w.sender.remote = false ∧ w.emitted = [] ∧
    w.acknowledged = [] ∧ w.sender.lastAcknowledged = none
  ordered : w.emitted.Pairwise fun a b => a.1 < b.1 ∧ a.2 ≤ b.2
  past : ∀ e ∈ w.emitted, e.1 ≤ w.sender.lastControlSequence ∧ e.2 ≤ w.clock
  pending : ∀ (sequence : ControlSequence) (pending : PendingSnapshot),
    w.sender.pendingSnapshots[sequence]? = some pending →
      (∃ time, (sequence, time) ∈ w.emitted ∧
        pending.ackDeadline = addDuration time config.receiverLease) ∧
      ∀ ack ∈ w.acknowledged, ack < sequence
  latest : ∀ ack ∈ w.acknowledged,
    ∃ last, w.sender.lastAcknowledged = some last ∧ ack ≤ last.1
  last : ∀ last, w.sender.lastAcknowledged = some last →
    last.1 ∈ w.acknowledged ∧ ∃ time, (last.1, time) ∈ w.emitted
  answered : w.sender.remote = true → ∀ e ∈ w.emitted, w.sender.pendingSnapshots[e.1]? = none →
    ∃ ack ∈ w.acknowledged, e.1 ≤ ack ∧ ∃ time, (ack, time) ∈ w.emitted
  waits : w.sender.remote = true →
    w.clock ≤ addDuration w.sender.lastSnapshotAt config.checkpointInterval ∧
      ∀ (sequence : ControlSequence) (pending : PendingSnapshot),
        w.sender.pendingSnapshots[sequence]? = some pending → w.clock ≤ pending.ackDeadline
  covered : w.sender.remote = true → ∃ entered, w.entered = some entered ∧
    ∀ time, entered ≤ time → w.sender.lastSnapshotAt ≤ time ∨
      ∃ e ∈ w.emitted, time ≤ e.2 ∧ e.2 ≤ addDuration time config.checkpointInterval

variable {config : SenderConfig} {w : Watch}

/-- A call that keeps the checkpoints keeps the invariant. -/
theorem Watched.captured {sender : Sender} (h : Watched config w)
    (hcaptured : Sender.Captured w.sender sender) : Watched config { w with sender } where
  configured := hcaptured.config.trans h.configured
  bounded := h.bounded
  unstarted hstarted := by
    obtain ⟨hremote, hrest⟩ := h.unstarted (hcaptured.started.symm.trans hstarted)
    refine ⟨?_, hrest.1, hrest.2.1, hcaptured.acknowledged.trans hrest.2.2⟩
    by_contra hne
    rw [hcaptured.remote (Bool.eq_true_of_not_eq_false hne)] at hremote
    cases hremote
  ordered := h.ordered
  past e he := ⟨(h.past e he).1.trans hcaptured.control, (h.past e he).2⟩
  pending sequence pending hpending := by
    rcases hcaptured.pending with hsame | ⟨-, hcleared⟩
    · rw [hsame] at hpending
      exact h.pending sequence pending hpending
    · dsimp only at hpending
      rw [hcleared] at hpending
      simp at hpending
  latest ack hack := by
    rw [hcaptured.acknowledged]
    exact h.latest ack hack
  last last hlast := h.last last (hcaptured.acknowledged.symm.trans hlast)
  answered hremote e he hnone := by
    rcases hcaptured.pending with hsame | ⟨hgone, -⟩
    · rw [hsame] at hnone
      exact h.answered (hcaptured.remote hremote) e he hnone
    · rw [hgone] at hremote
      cases hremote
  waits hremote := by
    rcases hcaptured.pending with hsame | ⟨hgone, -⟩
    · rw [hsame, hcaptured.snapshotAt]
      exact h.waits (hcaptured.remote hremote)
    · rw [hgone] at hremote
      cases hremote
  covered hremote := by
    rw [hcaptured.snapshotAt]
    exact h.covered (hcaptured.remote hremote)

/-- Time that passes up to the next deadline. -/
theorem Watched.waited {time : MonotonicTimeMicros} (h : Watched config w) (hclock : w.clock ≤ time)
    (hbounded : time ≤ u64Max) (hwoken : w.sender.nextDeadline.all (time ≤ ·) = true) :
    Watched config { w with clock := time } := by
  have hdeadline {next : MonotonicTimeMicros} (hnext : w.sender.nextDeadline = some next) :
      time ≤ next := by
    rw [hnext] at hwoken
    exact of_decide_eq_true hwoken
  refine { h with bounded := hbounded, past := ?_, waits := ?_ }
  · intro e he
    exact ⟨(h.past e he).1, (h.past e he).2.trans hclock⟩
  · intro hremote
    constructor
    · obtain ⟨next, hnext, hle⟩ := Sender.nextDeadline_le_periodic hremote
      rw [h.configured] at hle
      exact (hdeadline hnext).trans hle
    · intro sequence pending hpending
      obtain ⟨next, hnext, hle⟩ := Sender.nextDeadline_le_ack hremote hpending
      exact (hdeadline hnext).trans hle

/-- A time of the clock is before what is a duration later. -/
theorem le_addDuration {time : MonotonicTimeMicros} (h : time ≤ u64Max) (d : Duration) :
    time ≤ addDuration time d := Nat.le_min.mpr ⟨Nat.le_add_right _ _, h⟩

theorem addDuration_mono {a b : MonotonicTimeMicros} (h : a ≤ b) (d : Duration) :
    addDuration a d ≤ addDuration b d := saturatingAdd_mono h

/-- An activation that opens. -/
theorem Watched.opened {sender : Sender} (h : Watched config w) (hopened : Sender.Opened w.clock w.sender sender) :
    Watched config { w with sender, entered := some w.clock } := by
  obtain ⟨-, hstarted, -, hafter, hconfig, hacknowledged, hsnapshot, -, -, -, hpending⟩ := hopened
  obtain ⟨-, hemitted, hacks, hlast⟩ := h.unstarted hstarted
  exact {
    configured := hconfig.trans h.configured
    bounded := h.bounded
    unstarted := fun hnot => by rw [hafter] at hnot; cases hnot
    ordered := h.ordered
    past := fun e he => by rw [hemitted] at he; cases he
    pending := fun sequence pending hmem => by
      dsimp only at hmem
      rw [hpending] at hmem
      simp at hmem
    latest := fun ack hack => by rw [hacks] at hack; cases hack
    last := fun last hsome => by rw [hacknowledged, hlast] at hsome; cases hsome
    answered := fun _ e he => by rw [hemitted] at he; cases he
    waits := fun _ => by
      dsimp only
      rw [hsnapshot, hpending]
      refine ⟨le_addDuration h.bounded _, ?_⟩
      intro sequence pending hmem
      simp at hmem
    covered := fun _ => ⟨w.clock, rfl, fun time htime => .inl (hsnapshot ▸ htime)⟩ }

/-- An activation that ends. -/
theorem Watched.exited {sender : Sender} (h : Watched config w) (hremote : sender.remote = false)
    (hconfig : sender.config = w.sender.config) (hstarted : sender.started = w.sender.started)
    (hcontrol : w.sender.lastControlSequence ≤ sender.lastControlSequence)
    (hacknowledged : sender.lastAcknowledged = w.sender.lastAcknowledged)
    (hsnapshot : sender.lastSnapshotAt = w.sender.lastSnapshotAt)
    (hpending : sender.pendingSnapshots = ∅) : Watched config { w with sender } :=
  h.captured ⟨hconfig, hstarted, hcontrol, hacknowledged, hsnapshot, .inr ⟨hremote, hpending⟩,
    fun hcontra => by rw [hremote] at hcontra; cases hcontra⟩

/-- A snapshot that goes out. -/
theorem Watched.checkpointed {taken : StateSnapshot} {dirtySince : Option MonotonicTimeMicros}
    {observed : MonotonicTimeMicros} (h : Watched config w) (hremote : w.sender.remote = true) :
    Watched config { w with
      sender := { w.sender with
        lastObservedTime := observed
        lastControlSequence := w.sender.lastControlSequence + 1
        pendingSnapshots := w.sender.pendingSnapshots.insert (w.sender.lastControlSequence + 1)
          ⟨taken, addDuration w.clock w.sender.config.receiverLease⟩
        lastSnapshotAt := w.clock
        dirtySince }
      emitted := w.emitted ++ [(w.sender.lastControlSequence + 1, w.clock)] } where
  configured := h.configured
  bounded := h.bounded
  unstarted hnot := by
    rw [(h.unstarted hnot).1] at hremote
    cases hremote
  ordered := by
    rw [List.pairwise_append]
    refine ⟨h.ordered, List.pairwise_singleton _ _, ?_⟩
    intro a ha b hb
    rw [List.mem_singleton] at hb
    subst hb
    exact ⟨Nat.lt_succ_of_le (h.past a ha).1, (h.past a ha).2⟩
  past e he := by
    rcases List.mem_append.mp he with hold | hnew
    · exact ⟨(h.past e hold).1.trans (Nat.le_succ _), (h.past e hold).2⟩
    · rw [List.mem_singleton] at hnew
      subst hnew
      exact ⟨Nat.le_refl _, Nat.le_refl _⟩
  pending sequence pending hpending := by
    simp only [Std.ExtTreeMap.getElem?_insert, Std.compare_eq_iff_eq] at hpending
    split at hpending
    · rename_i heq
      subst heq
      cases hpending
      refine ⟨⟨w.clock, List.mem_append_right _ List.mem_cons_self, by rw [h.configured]⟩, ?_⟩
      intro ack hack
      obtain ⟨last, hlast, hle⟩ := h.latest ack hack
      obtain ⟨-, time, hemitted⟩ := h.last last hlast
      exact Nat.lt_succ_of_le (hle.trans (h.past _ hemitted).1)
    · obtain ⟨⟨time, hemitted, hdeadline⟩, hacks⟩ := h.pending sequence pending hpending
      exact ⟨⟨time, List.mem_append_left _ hemitted, hdeadline⟩, hacks⟩
  latest := h.latest
  last last hlast := by
    obtain ⟨hmem, time, hemitted⟩ := h.last last hlast
    exact ⟨hmem, time, List.mem_append_left _ hemitted⟩
  answered _ e he hnone := by
    simp only [Std.ExtTreeMap.getElem?_insert, Std.compare_eq_iff_eq] at hnone
    split at hnone
    · cases hnone
    · rename_i hne
      rcases List.mem_append.mp he with hold | hnew
      · obtain ⟨ack, hack, hle, time, hemitted⟩ := h.answered hremote e hold hnone
        exact ⟨ack, hack, hle, time, List.mem_append_left _ hemitted⟩
      · rw [List.mem_singleton] at hnew
        exact absurd (by rw [hnew]) hne
  waits _ := by
    refine ⟨le_addDuration h.bounded _, ?_⟩
    intro sequence pending hpending
    simp only [Std.ExtTreeMap.getElem?_insert, Std.compare_eq_iff_eq] at hpending
    split at hpending
    · cases hpending
      exact le_addDuration h.bounded _
    · exact (h.waits hremote).2 sequence pending hpending
  covered _ := by
    obtain ⟨entered, hentered, hcovered⟩ := h.covered hremote
    refine ⟨entered, hentered, fun time htime => ?_⟩
    rcases hcovered time htime with hlast | ⟨e, he, hafter, hwithin⟩
    · rcases Nat.lt_or_ge w.clock time with hbefore | hnow
      · exact .inl hbefore.le
      · right
        refine ⟨_, List.mem_append_right _ List.mem_cons_self, hnow, ?_⟩
        exact (h.waits hremote).1.trans (addDuration_mono hlast _)
    · exact .inr ⟨e, List.mem_append_left _ he, hafter, hwithin⟩

/-- An acknowledgement of an earlier snapshot. -/
theorem Watched.stale {sequence : ControlSequence} {last : ControlSequence × StateSnapshot}
    (h : Watched config w) (hlast : w.sender.lastAcknowledged = some last) (hle : sequence ≤ last.1) :
    Watched config { w with acknowledged := w.acknowledged ++ [sequence] } := by
  obtain ⟨hmem, htime⟩ := h.last last hlast
  refine { h with unstarted := ?_, pending := ?_, latest := ?_, last := ?_, answered := ?_ }
  · intro hnot
    rw [(h.unstarted hnot).2.2.2] at hlast
    cases hlast
  · intro other pending hpending
    obtain ⟨hemitted, hacks⟩ := h.pending other pending hpending
    refine ⟨hemitted, fun ack hack => ?_⟩
    rcases List.mem_append.mp hack with hold | hnew
    · exact hacks ack hold
    · rw [List.mem_singleton] at hnew
      subst hnew
      exact Nat.lt_of_le_of_lt hle (hacks last.1 hmem)
  · intro ack hack
    rcases List.mem_append.mp hack with hold | hnew
    · exact h.latest ack hold
    · rw [List.mem_singleton] at hnew
      subst hnew
      exact ⟨last, hlast, hle⟩
  · intro other hother
    obtain ⟨hmem, htime⟩ := h.last other hother
    exact ⟨List.mem_append_left _ hmem, htime⟩
  · intro hremote e he hnone
    obtain ⟨ack, hack, hle, htime⟩ := h.answered hremote e he hnone
    exact ⟨ack, List.mem_append_left _ hack, hle, htime⟩

/-- An acknowledgement of a snapshot that is pending. -/
theorem Watched.taken {sequence : ControlSequence} {pending : PendingSnapshot}
    (h : Watched config w) (hpending : w.sender.pendingSnapshots[sequence]? = some pending) : Watched config { w with
      sender := { w.sender with
        lastAcknowledged := some (sequence, pending.snapshot)
        pendingSnapshots := w.sender.pendingSnapshots.filter fun other _ => sequence < other }
      acknowledged := w.acknowledged ++ [sequence] } := by
  obtain ⟨⟨time, hemitted, -⟩, hnewer⟩ := h.pending sequence pending hpending
  have hfilter {other : ControlSequence} {entry : PendingSnapshot}
      (hentry : (w.sender.pendingSnapshots.filter fun other _ => sequence < other)[other]? =
        some entry) : w.sender.pendingSnapshots[other]? = some entry ∧ sequence < other := by
    rw [Std.ExtTreeMap.getElem?_filter', Option.filter_eq_some_iff] at hentry
    exact ⟨hentry.1, of_decide_eq_true hentry.2⟩
  exact {
    configured := h.configured
    bounded := h.bounded
    unstarted := fun hnot => by
      obtain ⟨-, hnone, -⟩ := h.unstarted hnot
      rw [hnone] at hemitted
      cases hemitted
    ordered := h.ordered
    past := h.past
    pending := fun other entry hentry => by
      obtain ⟨hold, hlt⟩ := hfilter hentry
      obtain ⟨hwhen, hacks⟩ := h.pending other entry hold
      refine ⟨hwhen, fun ack hack => ?_⟩
      rcases List.mem_append.mp hack with hold | hnew
      · exact hacks ack hold
      · rw [List.mem_singleton] at hnew
        exact hnew ▸ hlt
    latest := fun ack hack => by
      rcases List.mem_append.mp hack with hold | hnew
      · exact ⟨_, rfl, (hnewer ack hold).le⟩
      · exact ⟨_, rfl, (List.mem_singleton.mp hnew).le⟩
    last := fun last hlast => by
      cases hlast
      exact ⟨List.mem_append_right _ List.mem_cons_self, time, hemitted⟩
    answered := fun hremote e he hnone => by
      dsimp only at hnone
      rw [Std.ExtTreeMap.getElem?_filter'] at hnone
      cases hold : w.sender.pendingSnapshots[e.1]? with
      | none =>
        obtain ⟨ack, hack, hle, htime⟩ := h.answered hremote e he hold
        exact ⟨ack, List.mem_append_left _ hack, hle, htime⟩
      | some entry =>
        refine ⟨sequence, List.mem_append_right _ List.mem_cons_self, ?_, time, hemitted⟩
        by_contra hlt
        rw [hold, Option.filter_eq_none_iff] at hnone
        exact hnone entry rfl (decide_eq_true (Nat.lt_of_not_le hlt))
    waits := fun hremote => by
      refine ⟨(h.waits hremote).1, fun other entry hentry => ?_⟩
      exact (h.waits hremote).2 other entry (hfilter hentry).1
    covered := h.covered }

/-- **Every step keeps the invariant.** -/
theorem Watched.step {label : WatchStep} {after : Watch} (h : Watched config w)
    (hstep : step label w = some after) : Watched config after := by
  cases label with
  | wait time =>
    simp only [Watch.step] at hstep
    split at hstep
    · rename_i hguard
      cases hstep
      exact h.waited hguard.1 hguard.2.1 hguard.2.2
    · cases hstep
  | enter =>
    cases hstep
    rcases Sender.captured_rule.enter w.clock w.sender with hcaptured | hopened
    · have hunentered : (!w.sender.remote && (Sender.enter w.clock w.sender).2.remote) = false := by
        cases hafter : (Sender.enter w.clock w.sender).2.remote with
        | false => exact Bool.and_false _
        | true => rw [hcaptured.remote hafter]; rfl
      rw [hunentered]
      exact h.captured hcaptured
    · rw [hopened.remote, hopened.live]
      exact h.opened hopened
  | capture call time =>
    cases hstep
    exact h.captured (Sender.captured_run call time w.sender)
  | tick =>
    simp only [Watch.step] at hstep
    cases htick : Sender.tick w.clock w.sender with
    | mk result sender =>
      rw [htick] at hstep
      cases result with
      | error error => cases hstep
      | ok answer =>
        obtain ⟨hremote, hticked⟩ := Sender.tick_cases htick
        cases hticked with
        | exit reason close sequence pending hpending hdue =>
          cases hstep
          exact h.exited rfl rfl rfl (Nat.le_succ _) rfl rfl rfl
        | checkpoint message taken hlive hsequence =>
          cases hstep
          rw [hsequence]
          exact h.checkpointed hremote
        | idle hlive hperiodic =>
          cases hstep
          exact h.captured ⟨rfl, rfl, Nat.le_refl _, rfl, rfl, .inl rfl, id⟩
  | acknowledge ack =>
    simp only [Watch.step] at hstep
    cases hack : Sender.acknowledgeSnapshot ack w.sender with
    | mk result sender =>
      rw [hack] at hstep
      rcases Sender.acknowledge_cases hack with ⟨rfl, rfl, last, hlast, hle⟩ |
          ⟨rfl, pending, hpending, rfl⟩ | ⟨⟨error, rfl⟩, rfl⟩
      · cases hstep
        exact h.stale hlast hle
      · cases hstep
        exact h.taken hpending
      · cases hstep
        exact h

/-- A sender that was just made. -/
theorem Watched.start {session : SessionContext} {now : MonotonicTimeMicros} {sender : Sender}
    (hnew : Sender.new config session now = .ok sender) (hnow : now ≤ u64Max) : Watched config (start sender now) := by
  obtain ⟨_, -, hsender⟩ := Act.except_bind_eq_ok.mp hnew
  cases hsender
  exact {
    configured := rfl
    bounded := hnow
    unstarted := fun _ => ⟨rfl, rfl, rfl, rfl⟩
    ordered := List.Pairwise.nil
    past := nofun
    pending := fun _ _ hpending => by simp [Watch.start] at hpending
    latest := nofun
    last := nofun
    answered := nofun
    waits := nofun
    covered := nofun }

theorem watched_of_reaches {session : SessionContext} {now : MonotonicTimeMicros} {sender : Sender}
    (hnew : Sender.new config session now = .ok sender) (hnow : now ≤ u64Max)
    (h : System.Reaches step (fun _ _ => True) (Watch.start sender now) w) : Watched config w := by
  apply h.invariant (Watched.start hnew hnow)
  intro s label t hs _ hstep
  exact hs.step hstep

/-- Of two snapshots, the one with the larger number went out no earlier. -/
theorem Watched.emitted_mono (h : Watched config w) {a b : ControlSequence × MonotonicTimeMicros}
    (ha : a ∈ w.emitted) (hb : b ∈ w.emitted) (hle : a.1 ≤ b.1) : a.2 ≤ b.2 := by
  have hpairs := List.Pairwise.forall_of_forall_of_flip
    (R := fun a b : ControlSequence × MonotonicTimeMicros => a.1 ≤ b.1 → a.2 ≤ b.2)
    (fun _ _ _ => Nat.le_refl _) (h.ordered.imp fun hab _ => hab.2)
    (h.ordered.imp fun hab hba => absurd hba (Nat.not_le_of_lt hab.1))
  exact hpairs ha hb hle

/-- Every tick that was due by then has been made. -/
def Past (w : Watch) (time : MonotonicTimeMicros) : Prop :=
  time < w.clock ∨ time ≤ w.clock ∧ w.sender.nextDeadline.all (w.clock < ·) = true

/-- While the sender is remote, the clock is past no deadline of its own. -/
theorem Past.not_le {time deadline : MonotonicTimeMicros} (hpast : w.Past time)
    (hdeadline : ∃ next, w.sender.nextDeadline = some next ∧ next ≤ deadline)
    (hle : deadline ≤ time) : deadline < w.clock := by
  rcases hpast with hlt | ⟨hclock, hticked⟩
  · exact Nat.lt_of_le_of_lt hle hlt
  · obtain ⟨next, hnext, hnextle⟩ := hdeadline
    rw [hnext] at hticked
    have hnow := of_decide_eq_true hticked
    exact absurd (Nat.lt_of_lt_of_le hnow (hnextle.trans (hle.trans hclock))) (Nat.lt_irrefl _)

/-- **Silence ends the activation**: no snapshot from `time` on was acknowledged, and the clock is past
the interval and the lease after it. -/
theorem Watched.silent (h : Watched config w) {entered time : MonotonicTimeMicros}
    (hentered : w.entered = some entered) (hle : entered ≤ time)
    (hsilent : ∀ e ∈ w.emitted, time ≤ e.2 → e.1 ∉ w.acknowledged)
    (hpast : w.Past (addDuration (addDuration time config.checkpointInterval) config.receiverLease)) :
    w.sender.remote = false := by
  by_contra hlive
  have hremote := Bool.eq_true_of_not_eq_false hlive
  obtain ⟨hperiodic, hpending⟩ := h.waits hremote
  obtain ⟨since, hsince, hcovered⟩ := h.covered hremote
  rw [hentered] at hsince
  cases hsince
  rcases hcovered time hle with hlast | ⟨e, he, hafter, hwithin⟩
  · -- nothing went out since: the periodic checkpoint is overdue
    have hdeadline := Sender.nextDeadline_le_periodic hremote
    rw [h.configured] at hdeadline
    have hbefore : addDuration w.sender.lastSnapshotAt config.checkpointInterval ≤
        addDuration (addDuration time config.checkpointInterval) config.receiverLease :=
      (addDuration_mono hlast _).trans (le_addDuration (Nat.min_le_right _ _) _)
    exact absurd hperiodic (Nat.not_le_of_lt (hpast.not_le hdeadline hbefore))
  · cases hstatus : w.sender.pendingSnapshots[e.1]? with
    | none =>
      obtain ⟨ack, hack, hnewer, when_, hemitted⟩ := h.answered hremote e he hstatus
      exact hsilent (ack, when_) hemitted (hafter.trans (h.emitted_mono he hemitted hnewer)) hack
    | some pending =>
      -- its acknowledgement is overdue
      obtain ⟨⟨when_, hemitted, hack⟩, -⟩ := h.pending e.1 pending hstatus
      have hsame : when_ ≤ e.2 := h.emitted_mono hemitted he (Nat.le_refl _)
      have hbefore : pending.ackDeadline ≤
          addDuration (addDuration time config.checkpointInterval) config.receiverLease := by
        rw [hack]
        exact addDuration_mono (hsame.trans hwithin) _
      exact absurd (hpending e.1 pending hstatus)
        (Nat.not_le_of_lt (hpast.not_le (Sender.nextDeadline_le_ack hremote hstatus) hbefore))

/-- **A tick ends no activation whose snapshots are answered.** -/
theorem Watched.stays (h : Watched config w) (hanswered : ∀ e ∈ w.emitted, (∃ ack ∈ w.acknowledged, e.1 ≤ ack) ∨
      w.clock < addDuration e.2 config.receiverLease)
    (reason : SenderExitReason) (close : ReliableControlMessage) :
    (Sender.tick w.clock w.sender).1 ≠ .ok (.exitRemote reason close) := by
  intro hexit
  cases htick : Sender.tick w.clock w.sender with
  | mk result sender =>
    rw [htick] at hexit
    dsimp only at hexit
    subst hexit
    obtain ⟨-, hticked⟩ := Sender.tick_cases htick
    cases hticked with
    | exit _ _ sequence pending hpending hdue =>
      obtain ⟨⟨time, hemitted, hdeadline⟩, hacks⟩ := h.pending sequence pending hpending
      rw [hdeadline] at hdue
      rcases hanswered _ hemitted with ⟨ack, hack, hle⟩ | hrunning
      · exact absurd hle (Nat.not_le_of_lt (hacks ack hack))
      · exact absurd hdue (Nat.not_le_of_lt hrunning)

/-- **Lost acknowledgements are noticed in bounded time**, and only those: in every run that ticks the
sender at each deadline, silence from some time on ends the activation an interval and a lease later;
and no tick ends it while each snapshot that went out is acknowledged, or has its lease still running.
Times are whole microseconds, as the sender's deadlines are. -/
theorem lost_acks_noticed {session : SessionContext} {now : MonotonicTimeMicros} {sender : Sender}
    (hnew : Sender.new config session now = .ok sender) (hnow : now ≤ u64Max)
    (h : System.Reaches step (fun _ _ => True) (start sender now) w) :
    (∀ entered time, w.entered = some entered → entered ≤ time → (∀ e ∈ w.emitted, time ≤ e.2 → e.1 ∉ w.acknowledged) →
      w.Past (addDuration (addDuration time config.checkpointInterval) config.receiverLease) →
      w.sender.remote = false) ∧
    ((∀ e ∈ w.emitted, (∃ ack ∈ w.acknowledged, e.1 ≤ ack) ∨ w.clock < addDuration e.2 config.receiverLease) →
      ∀ reason close, (Sender.tick w.clock w.sender).1 ≠ .ok (.exitRemote reason close)) := by
  have hwatched := watched_of_reaches hnew hnow h
  constructor
  · intro entered time hentered hle hsilent hpast
    exact hwatched.silent hentered hle hsilent hpast
  · exact hwatched.stays

/-- A checkpoint each 250 ms and a lease of 300 ms: the snapshot of 250 ms is never acknowledged. -/
def silentCalls : List WatchStep :=
  [.enter, .capture (.motion ⟨3, 0, 0, 0⟩ none) 10, .wait 250000, .tick, .wait 500000, .tick,
    .wait 550000, .tick]

def silentSender : Sender where
  config := ⟨.fromMillis 250, .fromMillis 300⟩
  session := ⟨1, 1, 1⟩
  started := false
  remote := false
  held := .neutral
  totals := .zero
  lastControlSequence := 0
  lastMotionSequence := 0
  lastObservedTime := 0
  lastSnapshotAt := 0
  dirtySince := none
  pendingSnapshots := ∅
  lastAcknowledged := none

theorem lost_acks_noticed_silent : ∃ w : Watch, w.clock = 550000 ∧ w.emitted = [(2, 250000), (3, 500000)] ∧
      w.sender.remote = false := by
  have hrun : ((System.guarded step fun _ _ => True).exec silentCalls (start silentSender 0)).any
      (fun w => w.clock = 550000 ∧ w.emitted = [(2, 250000), (3, 500000)] ∧
        w.entered = some 0 ∧ w.acknowledged = [] ∧ w.sender.nextDeadline = none) = true := by
    decide +kernel
  obtain ⟨w, hreaches, hfacts⟩ := System.exists_reaches_of_exec hrun
  obtain ⟨hclock, hemitted, hentered, hacks, hdone⟩ := of_decide_eq_true hfacts
  have hnew : Sender.new silentSender.config ⟨1, 1, 1⟩ 0 = .ok silentSender := rfl
  have hlaw := (lost_acks_noticed hnew (by decide) hreaches).1
  refine ⟨w, hclock, hemitted, hlaw 0 0 hentered (Nat.le_refl _) ?_ ?_⟩
  · intro e _ _ hmem
    rw [hacks] at hmem
    cases hmem
  · right
    rw [hclock, hdone]
    exact ⟨by decide, rfl⟩

end Watch

end Zflow.Core
