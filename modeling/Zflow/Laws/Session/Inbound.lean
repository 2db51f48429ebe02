import Zflow.Laws.Core.Playout
import Zflow.Laws.Core.ReceiverControl
import Zflow.Session.Receive

/-!
# The methods of an inbound session

What `emit` hands over and how it can fail, and the rule for runs: a property that the few methods with
a part in it keep, and that bookkeeping does not touch, is kept by every run of calls up to the point
where the session stops (`Rule.runCalls`).
-/

namespace Zflow.Session

open Zflow.Core Lib

variable {F C : Type}

/-! ## Handing over -/

/-- An effect that goes to the backend. -/
def Environment.toBackend (env : Environment) : ReceiverEffect → Bool
  | .snapshotAck .. | .rejected .. => false
  | effect => env.backendSupports effect

/-- What of some effects goes to the backend. -/
def Environment.backendOf (env : Environment) (effects : List ReceiverEffect) :
    List ReceiverEffect := effects.filter env.toBackend

/-- The answers among some effects. -/
def responsesOf (effects : List ReceiverEffect) : List (SessionContext × ReliableControl) :=
  effects.filterMap fun
    | .snapshotAck session ack => some (session, .snapshotAck ack)
    | _ => none

/-- The batch that is handed over, unless it is empty. -/
def Environment.batchesOf (env : Environment) (effects : List ReceiverEffect) :
    List (List ReceiverEffect) :=
  if env.backendOf effects ≠ [] then [env.backendOf effects] else []

/-- Some effect is a rejection that ends the session. -/
def Fatal (effects : List ReceiverEffect) : Prop :=
  ∃ session reason, .rejected session reason ∈ effects ∧ isFatal reason = true

/-- The error of a fatal rejection. -/
def invalidTransition : InboundError := .bail "peer sent an invalid input state transition"

theorem sortEffects_cases (env : Environment) (effects : List ReceiverEffect) :
    (Fatal effects ∧ sortEffects env effects = .error invalidTransition) ∨ (¬ Fatal effects ∧
        sortEffects env effects = .ok (env.backendOf effects, responsesOf effects)) := by
  -- what is not a fatal rejection leaves it to the rest
  have hrest : ∀ {effect rest}, (∀ session reason, effect = .rejected session reason →
      isFatal reason = false) → (Fatal (effect :: rest) ↔ Fatal rest) := by
    intro effect rest hmild
    constructor
    · rintro ⟨session, reason, hmem, hfatal⟩
      rcases List.mem_cons.mp hmem with heq | hmem
      · rw [hmild session reason heq.symm] at hfatal
        cases hfatal
      · exact ⟨session, reason, hmem, hfatal⟩
    · rintro ⟨session, reason, hmem, hfatal⟩
      exact ⟨session, reason, List.mem_cons_of_mem _ hmem, hfatal⟩
  induction effects with
  | nil => exact .inr ⟨by simp [Fatal], rfl⟩
  | cons effect rest ih =>
    cases effect with
    | rejected session reason =>
      unfold sortEffects
      by_cases hfatal : isFatal reason = true
      · rw [if_pos hfatal]
        exact .inl ⟨⟨session, reason, List.mem_cons_self, hfatal⟩, rfl⟩
      · rw [if_neg hfatal, hrest (by
          rintro s r ⟨⟩
          exact Bool.not_eq_true _ ▸ hfatal)]
        exact ih
    | snapshotAck session ack =>
      rw [hrest (by simp)]
      rcases ih with ⟨h, heq⟩ | ⟨h, heq⟩
      · exact .inl ⟨h, by rw [sortEffects, heq]; rfl⟩
      · exact .inr ⟨h, by rw [sortEffects, heq]; rfl⟩
    | _ =>
      rw [hrest (by simp)]
      rcases ih with ⟨h, heq⟩ | ⟨h, heq⟩
      · exact .inl ⟨h, by simp [sortEffects, heq, bind, Except.bind]⟩
      · refine .inr ⟨h, ?_⟩
        simp only [sortEffects, heq, Environment.backendOf, List.filter_cons]
        rfl

namespace Inbound

/-- The error of a control of the open activation that finds no playout. -/
def noPlayout : InboundError := .bail "active receiver has no matching playout scheduler"

/-- The two states differ in what was answered to the peer only. -/
def Answering (i i' : Inbound F C) : Prop :=
  ∃ replies sequence, i' = { i with replies := replies, responseSequence := sequence }

theorem respond_answers (env : Environment) (responses : List (SessionContext × ReliableControl))
    (i : Inbound F C) : Act.Triple (Answering i) (respond env responses) (fun _ => Answering i)
      (fun e i' => Answering i i' ∧ e ≠ noPlayout) := by
  induction responses with
  | nil => exact .pure fun _ h => h
  | cons response rest ih =>
    obtain ⟨session, payload⟩ := response
    unfold respond
    refine .read fun t => ?_
    cases checkedAddU64 t.responseSequence 1 with
    | none => exact .fail fun s hs => ⟨hs.1, by simp [noPlayout]⟩
    | some sequence =>
      refine .bind (Q := fun _ => Answering i) (.change ?_) fun _ => .read fun t' => ?_
      · rintro s ⟨⟨replies, old, rfl⟩, -⟩
        exact ⟨_, _, rfl⟩
      refine .bind (Q := fun _ => Answering i) (.lift ?_ ?_) fun _ => ih
      · exact fun _ _ s hs => hs.1
      · exact fun m _ s hs => ⟨hs.1, by simp [noPlayout]⟩

/-- **What `emit` does**: a fatal rejection stops it before anything is handed over; without one the
batch is handed over, whatever comes of it. -/
theorem emit_cases (env : Environment) (effects : List ReceiverEffect) (i : Inbound F C) :
    (Fatal effects ∧ emit env effects i = (.error invalidTransition, i)) ∨ (¬ Fatal effects ∧
        Answering { i with handed := i.handed ++ env.batchesOf effects } (emit env effects i).2 ∧
        ∀ e, (emit env effects i).1 = .error e → e ≠ noPlayout) := by
  rcases sortEffects_cases env effects with ⟨hfatal, hsort⟩ | ⟨hmild, hsort⟩
  · refine .inl ⟨hfatal, ?_⟩
    unfold emit
    rw [hsort]
    rfl
  refine .inr ⟨hmild, ?_⟩
  obtain ⟨i₁, hi₁⟩ : ∃ i₁, i₁ = { i with handed := i.handed ++ env.batchesOf effects } := ⟨_, rfl⟩
  rw [← hi₁]
  have htriple : Act.Triple (· = i) (emit env effects) (fun _ => Answering i₁)
      (fun e i' => Answering i₁ i' ∧ e ≠ noPlayout) := by
    unfold emit
    rw [hsort]
    refine .bind (Q := fun parts s => s = i ∧ parts = (env.backendOf effects, responsesOf effects)) (.lift ?_ ?_) ?_
    · rintro parts ⟨⟩ s rfl
      exact ⟨rfl, rfl⟩
    · rintro e ⟨⟩
    rintro ⟨backend, responses⟩
    dsimp only
    by_cases hbatch : backend ≠ []
    · rw [if_pos hbatch]
      refine .bind (Q := fun _ => Answering i₁) ?_ fun _ => respond_answers env responses i₁
      rintro s ⟨rfl, hparts⟩
      obtain ⟨rfl, rfl⟩ := Prod.mk.inj hparts
      rw [Environment.batchesOf, if_pos hbatch] at hi₁
      unfold hand
      rw [Act.bind_of_ok (Act.change_apply _ s), Act.bind_of_ok (Act.read_apply _), hi₁]
      cases env.applies (s.handed ++ [env.backendOf effects]) with
      | ok _ =>
        simp only [Act.lift, Except.mapError]
        exact ⟨_, _, rfl⟩
      | error message =>
        simp only [Act.lift, Except.mapError]
        exact ⟨⟨_, _, rfl⟩, by simp [noPlayout]⟩
    · rw [if_neg hbatch]
      refine (respond_answers env responses i₁).pre ?_
      rintro s ⟨rfl, hparts⟩
      obtain ⟨rfl, rfl⟩ := Prod.mk.inj hparts
      rw [Environment.batchesOf, if_neg hbatch, List.append_nil] at hi₁
      rw [hi₁]
      exact ⟨_, _, rfl⟩
  cases hrun : emit env effects i with
  | mk result i' =>
    cases result with
    | ok _ => exact ⟨htriple.ok rfl hrun, by simp⟩
    | error e =>
      obtain ⟨hstate, hne⟩ := htriple.error rfl hrun
      refine ⟨hstate, ?_⟩
      rintro e' ⟨⟩
      exact hne

/-- **The rule of `emit`**: what its two ends leave. -/
theorem emit_triple {I : Inbound F C → Prop} {E : InboundError → Inbound F C → Prop}
    (env : Environment) (effects : List ReceiverEffect) (i : Inbound F C)
    (hfatal : Fatal effects → E invalidTransition i)
    (hok : ∀ i', ¬ Fatal effects →
      Answering { i with handed := i.handed ++ env.batchesOf effects } i' → I i')
    (herror : ∀ e i', e ≠ noPlayout → ¬ Fatal effects →
      Answering { i with handed := i.handed ++ env.batchesOf effects } i' → E e i') :
    Act.Triple (· = i) (emit env effects) (fun _ => I) E := by
  intro s hs
  rw [hs]
  rcases emit_cases env effects i with ⟨h, hrun⟩ | ⟨hmild, hstate, hne⟩
  · rw [hrun]
    exact hfatal h
  · cases hrun : emit env effects i with
    | mk result i' =>
      rw [hrun] at hstate hne
      cases result with
      | ok _ => exact hok i' hmild hstate
      | error e => exact herror e i' (hne e rfl) hmild hstate

/-- The receiver's method on an inbound session that it leaves at `r`. -/
theorem onReceiver_ok {x : Act ReceiverError Receiver (List ReceiverEffect)} {i : Inbound F C}
    {effects : List ReceiverEffect} {r : Receiver} (h : x i.receiver = (.ok effects, r)) :
    onReceiver x i = (.ok effects, { i with receiver := r, effects := i.effects ++ effects }) := by
  have hx : (Act.on (fun i : Inbound F C => i.receiver) (fun r i => { i with receiver := r })
      InboundError.receiver x) i = (.ok effects, { i with receiver := r }) := by
    unfold Act.on
    rw [h]
    rfl
  unfold onReceiver
  rw [Act.bind_of_ok hx]
  rfl

theorem onReceiver_error {x : Act ReceiverError Receiver (List ReceiverEffect)} {i : Inbound F C}
    {e : ReceiverError} {r : Receiver} (h : x i.receiver = (.error e, r)) :
    onReceiver x i = (.error (.receiver e), { i with receiver := r }) := by
  have hx : (Act.on (fun i : Inbound F C => i.receiver) (fun r i => { i with receiver := r })
      InboundError.receiver x) i = (.error (.receiver e), { i with receiver := r }) := by
    unfold Act.on
    rw [h]
    rfl
  unfold onReceiver
  rw [Act.bind_of_error hx]

end Inbound

variable [F64 F] [ClockMapper C]

namespace Inbound

omit [F64 F] [ClockMapper C] in
/-- **The rule of a method of the playout.** -/
theorem onPlayout_triple {α : Type} {p : ReceiverPlayout F}
    {x : Act PlayoutError (ReceiverPlayout F) α} {P : Inbound F C → Prop}
    {Q : α → Inbound F C → Prop} {E : InboundError → Inbound F C → Prop}
    (hok : ∀ i a p', P i → x p = (.ok a, p') → Q a { i with playout := some p' })
    (herror : ∀ i e p', P i → x p = (.error e, p') → E (.playout e) { i with playout := some p' }) :
    Act.Triple P (onPlayout p x) Q E := by
  intro i hi
  unfold onPlayout
  cases hx : x p with
  | mk result p' =>
    cases result with
    | ok a => exact hok i a p' hi hx
    | error e => exact herror i e p' hi hx

/-! ## Applying a control

`applyControl` fails before the receiver has answered, or its answer goes through `afterControl`: a
new activation gets a clock and a playout (`beginActivation`), the playout follows the message
(`ReceiverPlayout.follow`), and only then is anything handed over. -/

/-- The control message and the receiver's answer are on record. -/
def answered (i : Inbound F C) (message : ReliableControlMessage) (now : MonotonicTimeMicros)
    (effects : List ReceiverEffect) (r : Receiver) : Inbound F C :=
  { i with
    receiver := r
    effects := i.effects ++ effects
    applied := i.applied ++ [⟨message, now, i.receiver, i.playout, effects, r⟩] }

/-- What is done with the receiver's answer. -/
def afterControl (env : Environment) (message : ReliableControlMessage)
    (effects : List ReceiverEffect) : Act InboundError (Inbound F C) Unit :=
  if !effects.any isRejected then do
    beginActivation effects
    followControl message
    emit env effects
  else emit env effects

/-- A refused message is answered, and nothing follows it. -/
theorem afterControl_rejected {env : Environment} {message : ReliableControlMessage}
    {effects : List ReceiverEffect} (h : ∃ session reason, .rejected session reason ∈ effects) :
    (afterControl env message effects : Act InboundError (Inbound F C) Unit) =
      emit env effects := by
  obtain ⟨session, reason, hmem⟩ := h
  have hany : effects.any isRejected = true := List.any_eq_true.mpr ⟨_, hmem, rfl⟩
  unfold afterControl
  rw [hany]
  rfl

theorem afterControl_followed {env : Environment} {message : ReliableControlMessage}
    {effects : List ReceiverEffect} (h : ∀ session reason, .rejected session reason ∉ effects) :
    (afterControl env message effects : Act InboundError (Inbound F C) Unit) = (do
      beginActivation effects
      followControl message
      emit env effects) := by
  have hany : effects.any isRejected = false := by
    rw [List.any_eq_false]
    intro effect hmem
    cases effect with
    | rejected session reason => exact absurd hmem (h session reason)
    | _ => simp [isRejected]
  unfold afterControl
  rw [hany]
  rfl

/-- A message that fails changes at most the time the receiver has seen. -/
theorem receiveControl_error {message : ReliableControlMessage} {now : MonotonicTimeMicros}
    {e : ReceiverError} {r r' : Receiver} (h : Receiver.receiveControl message now r = (.error e, r')) :
    r' = r ∨ r' = r.observed now := by
  rcases Receiver.receiveControl_cases message now r with ⟨-, hcall⟩ | ⟨-, -, hcall⟩ | ⟨-, -, hcall⟩
  · cases hcall.symm.trans h
    exact .inl rfl
  · cases hcall.symm.trans h
    exact .inr rfl
  · cases hcall.symm.trans h

theorem applyControl_cases (env : Environment) (message : ReliableControlMessage)
    (now : MonotonicTimeMicros) (i : Inbound F C) :
    (∃ e r, e ≠ noPlayout ∧ (r = i.receiver ∨ r = i.receiver.observed now) ∧
      applyControl env message now i = (.error e, { i with receiver := r })) ∨
    ∃ effects r, Receiver.receiveControl message now i.receiver = (.ok effects, r) ∧
      applyControl env message now i = afterControl env message effects (i.answered message now effects r) := by
  -- what follows the time of the touch
  have hrest : ∀ x : Act InboundError (Inbound F C) Unit,
      x = (do
        let effects ← onReceiver (Receiver.receiveControl message now)
        .change fun after => { after with
          applied := after.applied ++ [⟨message, now, i.receiver, i.playout, effects, after.receiver⟩] }
        afterControl env message effects) →
      (∃ e r, e ≠ noPlayout ∧ (r = i.receiver ∨ r = i.receiver.observed now) ∧
        x i = (.error e, { i with receiver := r })) ∨
      ∃ effects r, Receiver.receiveControl message now i.receiver = (.ok effects, r) ∧
        x i = afterControl env message effects (i.answered message now effects r) := by
    rintro x rfl
    cases hcall : Receiver.receiveControl message now i.receiver with
    | mk result r =>
      cases result with
      | error e =>
        refine .inl ⟨.receiver e, r, by simp [noPlayout], receiveControl_error hcall, ?_⟩
        exact Act.bind_of_error (onReceiver_error hcall)
      | ok effects =>
        refine .inr ⟨effects, r, rfl, ?_⟩
        rw [Act.bind_of_ok (onReceiver_ok hcall), Act.bind_of_ok (Act.change_apply _ _)]
        rfl
  unfold applyControl
  rw [Act.bind_of_ok (Act.read_apply i)]
  cases message.payload.motionAnchor with
  | none => exact hrest _ rfl
  | some anchor =>
    dsimp only
    by_cases htouch : (!anchor.finalTouchState.isEmpty && ClockMapper.isReady i.clock) = true
    · rw [if_pos htouch]
      cases hmap : ClockMapper.map i.clock anchor.senderCaptureTime with
      | error e =>
        refine .inl ⟨.clock e, i.receiver, by simp [noPlayout], .inl rfl, ?_⟩
        exact Act.bind_of_error (by simp [Act.lift, Except.mapError])
      | ok mapped =>
        have hlift : (Act.lift .clock (.ok mapped) : Act InboundError (Inbound F C) _) i = (.ok mapped, i) := rfl
        rw [Act.bind_of_ok hlift]
        exact hrest _ rfl
    · rw [if_neg htouch]
      exact hrest _ rfl

/-- The two states agree on everything but the clock and the playout. -/
def Reset (i i' : Inbound F C) : Prop :=
  ∃ clock playout, i' = { i with clock := clock, playout := playout }

/-- Without an opening nothing begins. -/
theorem beginActivation_none {effects : List ReceiverEffect} (i : Inbound F C)
    (h : ∀ session, .activationOpened session ∉ effects) : beginActivation effects i = (.ok (), i) := by
  unfold beginActivation
  rw [if_neg ?_]
  · rfl
  · rw [Bool.not_eq_true, List.any_eq_false]
    intro effect hmem
    cases effect with
    | activationOpened session => exact absurd hmem (h session)
    | _ => simp

/-- **A new activation** gets a new clock and a new playout; that fails only where one of them cannot
be made. -/
theorem beginActivation_some {effects : List ReceiverEffect} {session : SessionContext}
    {i : Inbound F C} (h : ∃ opened, .activationOpened opened ∈ effects)
    (hactive : i.receiver.activeContext = some session) :
    (∃ e i', beginActivation effects i = (.error e, i') ∧ e ≠ noPlayout ∧ Reset i i' ∧
      ((∃ error, (ClockMapper.new : Except ClockError C) = .error error) ∨
        ∃ error, ReceiverPlayout.new i.playoutConfig session = .error error)) ∨
    ∃ clock p, ReceiverPlayout.new i.playoutConfig session = .ok p ∧
      beginActivation effects i = (.ok (), { i with clock := clock, playout := some p }) := by
  unfold beginActivation
  rw [if_pos ?_]
  · cases hclock : (ClockMapper.new : Except ClockError C) with
    | error error =>
      refine .inl ⟨.clock error, i, ?_, by simp [noPlayout], ⟨i.clock, i.playout, rfl⟩, .inl ⟨_, rfl⟩⟩
      exact Act.bind_of_error (by simp [Act.lift, Except.mapError])
    | ok clock =>
      have hlift : (Act.lift .clock (.ok clock) : Act InboundError (Inbound F C) C) i = (.ok clock, i) := rfl
      rw [Act.bind_of_ok hlift, Act.bind_of_ok (Act.change_apply _ i), Act.bind_of_ok (Act.read_apply _)]
      simp only [hactive]
      cases hnew : ReceiverPlayout.new i.playoutConfig session with
      | error error =>
        refine .inl ⟨.playout error, { i with clock := clock }, ?_, by simp [noPlayout],
          ⟨clock, i.playout, rfl⟩, .inr ⟨_, rfl⟩⟩
        exact Act.bind_of_error (by simp [Act.lift, Except.mapError])
      | ok p => exact .inr ⟨clock, p, rfl, rfl⟩
  · obtain ⟨opened, hmem⟩ := h
    exact List.any_eq_true.mpr ⟨_, hmem, rfl⟩

end Inbound

/-- The playout follows a control message: its watermark, and its baseline if it has an anchor. -/
def follow (message : ReliableControlMessage) : Act PlayoutError (ReceiverPlayout F) Unit := do
  ReceiverPlayout.advanceControlWatermark message.sequence
  match message.payload.motionAnchor with
  | none => return ()
  | some anchor => ReceiverPlayout.rebase anchor.throughMotionSequence anchor.totals

theorem follow_ok {message : ReliableControlMessage} {p p' : ReceiverPlayout F} :
    follow message p = (.ok (), p') ↔ p.appliedControlSequence ≤ message.sequence ∧
      match message.payload.motionAnchor with
      | none => p' = { p with appliedControlSequence := message.sequence }
      | some anchor => ReceiverPlayout.rebase anchor.throughMotionSequence anchor.totals
          { p with appliedControlSequence := message.sequence } = (.ok (), p') := by
  unfold follow
  constructor
  · intro h
    obtain ⟨_, p₁, hadvance, h⟩ := Act.bind_eq_ok.mp h
    obtain ⟨hle, rfl⟩ := ReceiverPlayout.advanceControlWatermark_ok.mp hadvance
    refine ⟨hle, ?_⟩
    cases hanchor : message.payload.motionAnchor with
    | none =>
      rw [hanchor] at h
      cases h
      rfl
    | some anchor =>
      rw [hanchor] at h
      exact h
  · rintro ⟨hle, h⟩
    refine Act.bind_eq_ok.mpr ⟨(), _, ReceiverPlayout.advanceControlWatermark_ok.mpr ⟨hle, rfl⟩, ?_⟩
    cases hanchor : message.payload.motionAnchor with
    | none =>
      rw [hanchor] at h
      exact h ▸ rfl
    | some anchor =>
      rw [hanchor] at h
      exact h

/-- A message without an anchor is followed. -/
theorem follow_of_none {message : ReliableControlMessage} {p : ReceiverPlayout F}
    (hwatermark : p.appliedControlSequence ≤ message.sequence) (hanchor : message.payload.motionAnchor = none) :
    follow message p = (.ok (), { p with appliedControlSequence := message.sequence }) := by
  refine follow_ok.mpr ⟨hwatermark, ?_⟩
  rw [hanchor]

/-- An anchor is followed that is not behind the target and in range of what was injected. -/
theorem follow_of_some {message : ReliableControlMessage} {p : ReceiverPlayout F}
    {anchor : MotionAnchor} (hwatermark : p.appliedControlSequence ≤ message.sequence)
    (hanchor : message.payload.motionAnchor = some anchor)
    (hle : p.target.sequence ≤ anchor.throughMotionSequence)
    (hdelta : ∃ d, anchor.totals.checkedDeltaFrom p.injectedTotals = .ok d) :
    ∃ p', follow message p = (.ok (), p') := by
  obtain ⟨p', hrebase⟩ : ∃ p', ReceiverPlayout.rebase anchor.throughMotionSequence anchor.totals
      { p with appliedControlSequence := message.sequence } = (.ok (), p') :=
    ⟨_, ReceiverPlayout.rebase_ok.mpr ⟨hle, hdelta, rfl⟩⟩
  refine ⟨p', follow_ok.mpr ⟨hwatermark, ?_⟩⟩
  rw [hanchor]
  exact hrebase

namespace Inbound

omit [ClockMapper C] in
theorem followControl_none {message : ReliableControlMessage} {i : Inbound F C}
    (h : i.playout = none) : followControl message i = (.ok (), i) := by
  unfold followControl
  rw [Act.bind_of_ok (Act.read_apply i), h]
  rfl

omit [ClockMapper C] in
theorem followControl_some {message : ReliableControlMessage} {i : Inbound F C}
    {p : ReceiverPlayout F} (h : i.playout = some p) : followControl message i =
      ((follow message p).1.mapError .playout, { i with playout := some (follow message p).2 }) := by
  unfold followControl
  rw [Act.bind_of_ok (Act.read_apply i), h]
  rfl

omit [ClockMapper C] in
/-- Following from a playout that is there. -/
theorem followControl_triple {I : Inbound F C → Prop} {E : InboundError → Inbound F C → Prop}
    {env : Environment} {effects : List ReceiverEffect} {message : ReliableControlMessage}
    {i : Inbound F C} {p : ReceiverPlayout F} (hplayout : i.playout = some p)
    (hfollows : ∀ p', follow message p = (.ok (), p') →
      Act.Triple (· = { i with playout := some p' }) (emit env effects) (fun _ => I) E)
    (hfails : (∀ p', follow message p ≠ (.ok (), p')) → ∀ e i', e ≠ noPlayout → Reset i i' → E e i') :
    Act.Triple (· = i) (do
      followControl message
      emit env effects) (fun _ => I) E := by
  intro s hs
  rw [hs, Act.bind_apply, followControl_some hplayout]
  cases hfollow : follow message p with
  | mk result p' =>
    cases result with
    | ok _ => exact hfollows p' hfollow _ rfl
    | error e =>
      refine hfails (fun p'' h => ?_) _ _ (by simp [noPlayout]) ⟨i.clock, some p', rfl⟩
      rw [hfollow] at h
      cases h

/-- **The rule of `afterControl`**, for the answer `effects` and the state `i` that has it on
record. -/
theorem afterControl_triple {I : Inbound F C → Prop} {E : InboundError → Inbound F C → Prop}
    {env : Environment} {message : ReliableControlMessage} {effects : List ReceiverEffect} {i : Inbound F C}
    (hrefused : (∃ session reason, .rejected session reason ∈ effects) →
      Act.Triple (· = i) (emit env effects) (fun _ => I) E)
    (hidle : Receiver.Quiet effects → i.playout = none → Act.Triple (· = i) (emit env effects) (fun _ => I) E)
    (hfollows : Receiver.Quiet effects → ∀ p p', i.playout = some p → follow message p = (.ok (), p') →
      Act.Triple (· = { i with playout := some p' }) (emit env effects) (fun _ => I) E)
    (hfails : Receiver.Quiet effects → ∀ p, i.playout = some p →
      (∀ p', follow message p ≠ (.ok (), p')) → ∀ e i', e ≠ noPlayout → Reset i i' → E e i')
    (hbegins : ∀ session, i.receiver.activeContext = some session →
      (∃ opened, .activationOpened opened ∈ effects) → ∀ clock p p',
      ReceiverPlayout.new i.playoutConfig session = .ok p → follow message p = (.ok (), p') →
      Act.Triple (· = { i with clock := clock, playout := some p' }) (emit env effects)
        (fun _ => I) E)
    (hstillborn : ∀ session, i.receiver.activeContext = some session → (∃ opened, .activationOpened opened ∈ effects) →
      ((∃ error, (ClockMapper.new : Except ClockError C) = .error error) ∨
        (∃ error, ReceiverPlayout.new i.playoutConfig session = .error error) ∨
        ∃ p, ReceiverPlayout.new i.playoutConfig session = .ok p ∧ ∀ p', follow message p ≠ (.ok (), p')) →
      ∀ e i', e ≠ noPlayout → Reset i i' → E e i')
    (hkind : (∃ session reason, .rejected session reason ∈ effects) ∨ Receiver.Quiet effects ∨
      (∀ session reason, .rejected session reason ∉ effects) ∧ (∃ opened, .activationOpened opened ∈ effects) ∧
        ∃ session, i.receiver.activeContext = some session) :
    Act.Triple (· = i) (afterControl env message effects) (fun _ => I) E := by
  rcases hkind with hrejected | hquiet | ⟨hnone, hopened, session, hactive⟩
  · rw [afterControl_rejected hrejected]
    exact hrefused hrejected
  · rw [afterControl_followed fun session reason hmem => (hquiet _ hmem session).1 reason rfl]
    intro s hs
    rw [hs, Act.bind_of_ok (beginActivation_none i fun session hmem => (hquiet _ hmem session).2 rfl)]
    cases hplayout : i.playout with
    | none =>
      rw [Act.bind_of_ok (followControl_none hplayout)]
      exact hidle hquiet hplayout i rfl
    | some p =>
      exact followControl_triple hplayout (fun p' => hfollows hquiet p p' hplayout) (hfails hquiet p hplayout) i rfl
  · rw [afterControl_followed hnone]
    intro s hs
    rw [hs]
    rcases beginActivation_some hopened hactive with
      ⟨e, i', hbegin, hne, hreset, hwhy⟩ | ⟨clock, p, hnew, hbegin⟩
    · rw [Act.bind_of_error hbegin]
      exact hstillborn session hactive hopened (hwhy.imp_right .inl) e i' hne hreset
    · rw [Act.bind_of_ok hbegin]
      refine followControl_triple (p := p) rfl (fun p' h => ?_) (fun h e i' hne hreset => ?_) _ rfl
      · exact hbegins session hactive hopened clock p p' hnew h
      · refine hstillborn session hactive hopened (.inr (.inr ⟨p, hnew, h⟩)) e i' hne ?_
        obtain ⟨clock', playout', rfl⟩ := hreset
        exact ⟨clock', playout', rfl⟩

/-! ## The rounds of the drain loop -/

/-- The two states differ in the clock only. -/
def Reclocked (i i' : Inbound F C) : Prop := ∃ clock, i' = { i with clock := clock }

omit [F64 F] in
/-- **Looking whether a control is ready** moves nothing but the clock. -/
theorem pendingControlIsReady_reclocks (front : PendingControl) (now : MonotonicTimeMicros) (i : Inbound F C) :
    Act.Triple (Reclocked i) (pendingControlIsReady front now) (fun _ => Reclocked i) (fun _ => Reclocked i) := by
  unfold pendingControlIsReady
  refine .read fun t => ?_
  cases front.message.payload.motionAnchor with
  | none => exact .pure fun _ h => h.1
  | some anchor =>
    cases t.receiver.activeContext with
    | none => exact .pure fun _ h => h.1
    | some active =>
      dsimp only
      by_cases hother : front.message.session ≠ active
      · rw [if_pos hother]
        exact .pure fun _ h => h.1
      rw [if_neg hother]
      cases t.playout.filter (·.session = active) with
      | none => exact .fail fun _ h => h.1
      | some playout =>
        dsimp only
        have hmapped : Act.Triple (Reclocked i) (do
            let i ← Act.read
            let mapped ← .lift InboundError.clock (ClockMapper.map i.clock anchor.senderCaptureTime)
            return decide (addDuration mapped playout.currentDelay ≤ now)) (fun _ => Reclocked i)
            (fun _ => Reclocked i) :=
          .read fun t => .bind (.lift (fun _ _ _ h => h.1) fun _ _ _ h => h.1) fun _ =>
            .pure fun _ h => h
        by_cases hready : (!ClockMapper.isReady t.clock) = true
        · rw [if_pos hready]
          refine .bind (.on ?_ ?_) fun _ => hmapped
          · rintro s _ clock ⟨⟨old, rfl⟩, -⟩ -
            exact ⟨clock, rfl⟩
          · rintro s e clock ⟨⟨old, rfl⟩, -⟩ -
            exact ⟨clock, rfl⟩
        · rw [if_neg hready]
          exact hmapped.pre fun _ h => h.1

omit [F64 F] in
/-- A session starts with an empty state around a new receiver and a new clock. -/
theorem new_ok {config : ReceiverConfig} {playoutConfig : PlayoutConfig F}
    {now : MonotonicTimeMicros} {i : Inbound F C} (h : Inbound.new config playoutConfig now = .ok i) :
    Receiver.new config now = .ok i.receiver ∧ (ClockMapper.new : Except ClockError C) = .ok i.clock ∧
      i.playoutConfig = playoutConfig ∧ i.playout = none ∧ i.pending = [] ∧ i.responseSequence = 0 ∧
      i.handed = [] ∧ i.effects = [] ∧ i.applied = [] := by
  unfold Inbound.new at h
  cases hreceiver : Receiver.new config now with
  | error e => simp [hreceiver, bind, Except.bind, Except.mapError] at h
  | ok receiver =>
    cases hclock : (ClockMapper.new : Except ClockError C) with
    | error e => simp [hreceiver, hclock, bind, Except.bind, Except.mapError] at h
    | ok clock =>
      simp only [hreceiver, hclock, bind, Except.bind, Except.mapError, pure, Except.pure, Except.ok.injEq] at h
      rw [← h]
      exact ⟨rfl, rfl, rfl, rfl, rfl, rfl, rfl, rfl, rfl⟩

/-! ## Polling -/

/-- A playout step that fails changes at most the time the receiver has seen. -/
theorem receivePlayoutStep_error {session : SessionContext} {step : PlayoutStep}
    {now : MonotonicTimeMicros} {e : ReceiverError} {r r' : Receiver}
    (h : Receiver.receivePlayoutStep session step now r = (.error e, r')) : r' = r := by
  rcases Receiver.receivePlayoutStep_cases session step now r with ⟨-, hcall⟩ | ⟨-, hcall⟩
  · cases hcall.symm.trans h
    rfl
  · cases hcall.symm.trans h

omit [ClockMapper C] in
/-- **A poll** plays nothing, or its step goes to the receiver and what that answers is emitted. -/
theorem pollPlayout_cases (env : Environment) (now : MonotonicTimeMicros) (i : Inbound F C) :
    (i.playout = none ∧ pollPlayout env now i = (.ok (), i)) ∨
    ∃ p p' result, i.playout = some p ∧ ReceiverPlayout.poll now p = (result, p') ∧ ((∃ e, e ≠ noPlayout ∧
          pollPlayout env now i = (.error e, { i with playout := some p' })) ∨
        (result = .ok none ∧ pollPlayout env now i = (.ok (), { i with playout := some p' })) ∨
        ∃ step effects r, result = .ok (some step) ∧
          Receiver.receivePlayoutStep p.session step now i.receiver = (.ok effects, r) ∧
          pollPlayout env now i = emit env effects
            { i with playout := some p', receiver := r, effects := i.effects ++ effects }) := by
  unfold pollPlayout
  rw [Act.bind_of_ok (Act.read_apply i)]
  cases hplayout : i.playout with
  | none => exact .inl ⟨rfl, rfl⟩
  | some p =>
    cases hpoll : ReceiverPlayout.poll now p with
    | mk result p' =>
      refine .inr ⟨p, p', result, rfl, hpoll, ?_⟩
      have hrun : onPlayout p (ReceiverPlayout.poll now) i =
          (result.mapError .playout, { i with playout := some p' }) := by
        unfold onPlayout
        rw [hpoll]
      dsimp only
      rcases result with e | _ | step
      · exact .inl ⟨.playout e, by simp [noPlayout], Act.bind_of_error hrun⟩
      · exact .inr (.inl ⟨rfl, Act.bind_of_ok hrun⟩)
      · rw [Act.bind_of_ok hrun]
        cases hstep : Receiver.receivePlayoutStep p.session step now i.receiver with
        | mk answer r =>
          cases answer with
          | error e =>
            obtain rfl := receivePlayoutStep_error hstep
            refine .inl ⟨.receiver e, by simp [noPlayout], ?_⟩
            exact Act.bind_of_error (onReceiver_error hstep)
          | ok effects =>
            refine .inr (.inr ⟨step, effects, r, rfl, hstep, ?_⟩)
            exact Act.bind_of_ok (onReceiver_ok hstep)

end Inbound

/-! ## Runs -/

/-- One call of an inbound session's methods, as the session actor makes them. -/
inductive InboundCall where
  | receiveControl (message : ReliableControlMessage) (now : MonotonicTimeMicros)
  | receiveMotion (frame : MotionFrame) (now : MonotonicTimeMicros)
  | receiveProbe (probe : ProbeMessage) (sender : Option Sender) (now : MonotonicTimeMicros)
  | tick (clockNow now : MonotonicTimeMicros)
  | trackActivation (clockNow : MonotonicTimeMicros)

def InboundCall.time : InboundCall → MonotonicTimeMicros
  | .receiveControl _ now | .receiveMotion _ now | .receiveProbe _ _ now | .tick _ now => now
  | .trackActivation clockNow => clockNow

namespace Inbound

def call (env : Environment) : InboundCall → Act InboundError (Inbound F C) Unit
  | .receiveControl message now => receiveControl env message now
  | .receiveMotion frame now => receiveMotion frame now
  | .receiveProbe probe sender now => receiveProbe env probe sender now
  | .tick clockNow now => tick env clockNow now
  | .trackActivation clockNow => .change (trackActivation clockNow)

/-- The calls of a session, up to the first that fails. -/
def runCalls (env : Environment) : List InboundCall → Act InboundError (Inbound F C) Unit
  | [] => return ()
  | c :: cs => do
    call env c
    runCalls env cs

/-- The two states differ in bookkeeping only: in nothing that has to do with what is injected. -/
structure Aside (i i' : Inbound F C) : Prop where
  receiver : i'.receiver = i.receiver
  playout : i'.playout = i.playout
  config : i'.playoutConfig = i.playoutConfig
  handed : i'.handed = i.handed
  effects : i'.effects = i.effects
  applied : i'.applied = i.applied

/-- **A property of runs** at the times of `T`, with what a stop leaves of it. `control`, `ingest`,
`remap`, `poll` and `expire` are the methods that have a part in what is injected. -/
structure Rule (env : Environment) (T : MonotonicTimeMicros → Prop) (I : Inbound F C → Prop)
    (E : InboundError → Inbound F C → Prop) : Prop where
  aside : ∀ i i', Aside i i' → I i → I i'
  stops : ∀ e i, e ≠ noPlayout → I i → E e i
  matched : ∀ i active, I i → i.receiver.activeContext = some active →
    ∃ p, i.playout = some p ∧ p.session = active
  control : ∀ message now, T now → Act.Triple I (applyControl env message now) (fun _ => I) E
  ingest : ∀ p frame now (clock : C), Act.Triple (fun i => I i ∧ i.playout = some p)
    (onPlayout p (ReceiverPlayout.ingestFrame frame now clock)) (fun _ => I) E
  remap : ∀ p (clock : C), Act.Triple (fun i => I i ∧ i.playout = some p)
    (onPlayout p (ReceiverPlayout.remapClock clock)) (fun _ => I) E
  poll : ∀ now, T now → Act.Triple I (pollPlayout env now) (fun _ => I) E
  expire : ∀ now, T now →
    Act.Triple I (onReceiver (Receiver.tick now) >>= emit env) (fun _ => I) E

namespace Rule

variable {env : Environment} {T : MonotonicTimeMicros → Prop} {I : Inbound F C → Prop}
  {E : InboundError → Inbound F C → Prop}

theorem onClock (h : Rule env T I E) (x : Act ClockError C Unit) :
    Act.Triple I (Inbound.onClock x) (fun _ => I) E := by
  refine .on ?_ ?_
  · exact fun i _ clock hi _ => h.aside i _ ⟨rfl, rfl, rfl, rfl, rfl, rfl⟩ hi
  · intro i e clock hi _
    exact h.stops _ _ (by simp [noPlayout]) (h.aside i _ ⟨rfl, rfl, rfl, rfl, rfl, rfl⟩ hi)

theorem liftClock {α : Type} (h : Rule env T I E) (x : Except ClockError α) :
    Act.Triple I (.lift .clock x) (fun _ => I) E :=
  .lift (fun _ _ _ hi => hi) fun _ _ i hi => h.stops _ i (by simp [noPlayout]) hi

theorem change (h : Rule env T I E) {f : Inbound F C → Inbound F C} (hf : ∀ i, Aside i (f i)) :
    Act.Triple I (.change f) (fun _ => I) E := .change fun i hi => h.aside i _ (hf i) hi

theorem bail (h : Rule env T I E) {α : Type} {message : String} (hne : InboundError.bail message ≠ noPlayout) :
    Act.Triple I (.fail (.bail message) : Act InboundError (Inbound F C) α) (fun _ => I) E :=
  .fail fun i hi => h.stops _ i hne hi

theorem sendProbe (h : Rule env T I E) (probe : ProbeMessage) :
    Act.Triple I (Inbound.sendProbe env probe) (fun _ => I) E := by
  unfold Inbound.sendProbe
  refine .bind (h.change fun _ => ⟨rfl, rfl, rfl, rfl, rfl, rfl⟩) fun _ => .read fun t => ?_
  refine .lift (fun _ _ _ hi => hi.1) fun _ _ i hi => h.stops _ i (by simp [noPlayout]) hi.1

/-- **A waiting control finds the playout of its activation.** -/
theorem pendingControlIsReady (h : Rule env T I E) (pending : PendingControl) (now : MonotonicTimeMicros) :
    Act.Triple I (Inbound.pendingControlIsReady pending now) (fun _ => I) E := by
  unfold Inbound.pendingControlIsReady
  refine .read fun t => ?_
  cases hanchor : pending.message.payload.motionAnchor with
  | none => exact .pure fun _ hi => hi.1
  | some anchor =>
    cases hactive : t.receiver.activeContext with
    | none => exact .pure fun _ hi => hi.1
    | some active =>
      dsimp only
      by_cases hother : pending.message.session ≠ active
      · rw [if_pos hother]
        exact .pure fun _ hi => hi.1
      rw [if_neg hother]
      cases hplayout : t.playout.filter (·.session = active) with
      | none =>
        -- the open activation has a playout, and it is the one looked for
        refine .fail ?_
        rintro i ⟨hi, rfl⟩
        obtain ⟨p, hp, hsession⟩ := h.matched i active hi hactive
        simp [hp, hsession] at hplayout
      | some playout =>
        dsimp only
        have hmapped : Act.Triple I (do
            let i ← Act.read
            let mapped ← .lift .clock (ClockMapper.map i.clock anchor.senderCaptureTime)
            return decide (addDuration mapped playout.currentDelay ≤ now)) (fun _ => I) E :=
          .read fun t => .bind ((h.liftClock _).pre fun _ hi => hi.1) fun _ => .pure fun _ hi => hi
        by_cases hready : (!ClockMapper.isReady t.clock) = true
        · rw [if_pos hready]
          exact .bind ((h.onClock _).pre fun _ hi => hi.1) fun _ => hmapped
        · rw [if_neg hready]
          exact hmapped.pre fun _ hi => hi.1

theorem drainLoop (h : Rule env T I E) {now : MonotonicTimeMicros} (ht : T now) (rounds : Nat) :
    Act.Triple I (Inbound.drainLoop env now rounds) (fun _ => I) E := by
  induction rounds with
  | zero => exact .pure fun _ hi => hi
  | succ rounds ih =>
    unfold Inbound.drainLoop
    refine .read fun t => ?_
    cases t.pending with
    | nil => exact .pure fun _ hi => hi.1
    | cons front rest =>
      refine .bind ((h.pendingControlIsReady front now).pre fun _ hi => hi.1) fun ready => ?_
      by_cases hready : (!ready) = true
      · rw [if_pos hready]
        exact .pure fun _ hi => hi
      rw [if_neg hready]
      refine .bind (h.change fun _ => ⟨rfl, rfl, rfl, rfl, rfl, rfl⟩) fun _ => ?_
      refine .bind (h.control front.message now ht) fun _ => ?_
      exact .bind (h.change fun _ => ⟨rfl, rfl, rfl, rfl, rfl, rfl⟩) fun _ => ih

theorem drainPendingControls (h : Rule env T I E) {now : MonotonicTimeMicros} (ht : T now) :
    Act.Triple I (Inbound.drainPendingControls env now) (fun _ => I) E :=
  .read fun t => (h.drainLoop ht t.pending.length).pre fun _ hi => hi.1

theorem receiveControl (h : Rule env T I E) (message : ReliableControlMessage)
    {now : MonotonicTimeMicros} (ht : T now) :
    Act.Triple I (Inbound.receiveControl env message now) (fun _ => I) E := by
  unfold Inbound.receiveControl
  refine .read fun t => ?_
  by_cases hfull : t.playoutConfig.maximumQueuedFrames ≤ t.pending.length
  · rw [if_pos hfull]
    exact (h.bail (by simp [noPlayout])).pre fun _ hi => hi.1
  · rw [if_neg hfull]
    refine .bind (Act.Triple.pre ?_ fun _ hi => hi.1) fun _ => h.drainPendingControls ht
    exact h.change fun _ => ⟨rfl, rfl, rfl, rfl, rfl, rfl⟩

theorem receiveMotion (h : Rule env T I E) (frame : MotionFrame) (now : MonotonicTimeMicros) :
    Act.Triple I (Inbound.receiveMotion frame now) (fun _ => I) E := by
  unfold Inbound.receiveMotion
  refine .read fun t => ?_
  cases hplayout : t.playout with
  | none => exact .pure fun _ hi => hi.1
  | some playout =>
    dsimp only
    by_cases hother : playout.session ≠ frame.session
    · rw [if_pos hother]
      exact .pure fun _ hi => hi.1
    rw [if_neg hother]
    have hingest : Act.Triple (fun i => I i ∧ i.playout = some playout) (do
        let i ← Act.read
        let _ ← onPlayout playout (ReceiverPlayout.ingestFrame frame now i.clock)
        return ()) (fun _ => I) E :=
      .read fun t => .bind ((h.ingest playout frame now t.clock).pre fun _ hi => hi.1) fun _ =>
        .pure fun _ hi => hi
    by_cases hready : (!ClockMapper.isReady t.clock) = true
    · rw [if_pos hready]
      refine .bind (.on ?_ ?_) fun _ => hingest
      · rintro i _ clock ⟨hi, rfl⟩ _
        exact ⟨h.aside i _ ⟨rfl, rfl, rfl, rfl, rfl, rfl⟩ hi, hplayout⟩
      · rintro i e clock ⟨hi, rfl⟩ _
        exact h.stops _ _ (by simp [noPlayout]) (h.aside i _ ⟨rfl, rfl, rfl, rfl, rfl, rfl⟩ hi)
    · rw [if_neg hready]
      refine hingest.pre ?_
      rintro i ⟨hi, rfl⟩
      exact ⟨hi, hplayout⟩

theorem receiveProbe (h : Rule env T I E) (probe : ProbeMessage) (sender : Option Sender)
    (now : MonotonicTimeMicros) : Act.Triple I (Inbound.receiveProbe env probe sender now) (fun _ => I) E := by
  unfold Inbound.receiveProbe
  refine .read fun t => ?_
  cases probe.payload with
  | probe sequence sentAt =>
    dsimp only
    split
    · exact (h.sendProbe _).pre fun _ hi => hi.1
    · exact .pure fun _ hi => hi.1
  | probeEcho sequence probeSentAt receivedAt echoedAt =>
    dsimp only
    split
    · exact .pure fun _ hi => hi.1
    refine .bind (Q := fun _ => I) (Act.Triple.pre ?_ fun _ hi => hi.1) fun _ => ?_
    · exact h.change fun _ => ⟨rfl, rfl, rfl, rfl, rfl, rfl⟩
    split
    · exact .pure fun _ hi => hi
    refine .bind (h.onClock _) fun _ => .read fun t => ?_
    cases hplayout : t.playout with
    | none => exact .pure fun _ hi => hi.1
    | some playout =>
      dsimp only
      split
      · refine (h.remap playout t.clock).pre ?_
        rintro i ⟨hi, rfl⟩
        exact ⟨hi, hplayout⟩
      · exact .pure fun _ hi => hi.1

theorem probeClock (h : Rule env T I E) (clockNow now : MonotonicTimeMicros) :
    Act.Triple I (Inbound.probeClock env clockNow now) (fun _ => I) E := by
  have hend : Act.Triple I (.change fun i : Inbound F C => { i with
      nextProbeAt := if i.nextProbeAt ≤ now then addDuration now probeInterval else i.nextProbeAt })
      (fun _ => I) E := h.change fun _ => ⟨rfl, rfl, rfl, rfl, rfl, rfl⟩
  unfold Inbound.probeClock
  refine .bind (h.change fun _ => ⟨rfl, rfl, rfl, rfl, rfl, rfl⟩) fun _ => .read fun t => ?_
  cases t.receiver.activeContext with
  | none => exact hend.pre fun _ hi => hi.1
  | some context =>
    dsimp only
    split
    · refine .bind ((h.sendProbe _).pre fun _ hi => hi.1) fun _ => ?_
      refine .bind (h.change fun _ => ⟨rfl, rfl, rfl, rfl, rfl, rfl⟩) fun _ => ?_
      cases checkedAddU64 t.nextProbeSequence 1 with
      | none => exact .bind (h.bail (by simp [noPlayout])) fun _ => hend
      | some next =>
        exact .bind (h.change fun _ => ⟨rfl, rfl, rfl, rfl, rfl, rfl⟩) fun _ => hend
    · exact hend.pre fun _ hi => hi.1

theorem tick (h : Rule env T I E) (clockNow : MonotonicTimeMicros) {now : MonotonicTimeMicros} (ht : T now) :
    Act.Triple I (Inbound.tick env clockNow now) (fun _ => I) E := by
  unfold Inbound.tick
  refine .read fun t => ?_
  rw [← Act.bind_assoc]
  refine .bind ((h.expire now ht).pre fun _ hi => hi.1) fun _ => ?_
  refine .bind (h.change fun _ => ⟨rfl, rfl, rfl, rfl, rfl, rfl⟩) fun _ => ?_
  refine .bind (h.poll now ht) fun _ => .bind (h.drainPendingControls ht) fun _ => ?_
  exact h.probeClock clockNow now

theorem call (h : Rule env T I E) (c : InboundCall) (ht : T c.time) :
    Act.Triple I (Inbound.call env c) (fun _ => I) E := by
  cases c with
  | receiveControl message now => exact h.receiveControl message ht
  | receiveMotion frame now => exact h.receiveMotion frame now
  | receiveProbe probe sender now => exact h.receiveProbe probe sender now
  | tick clockNow now => exact h.tick clockNow ht
  | trackActivation clockNow =>
    refine h.change fun i => ?_
    unfold trackActivation
    split <;> exact ⟨rfl, rfl, rfl, rfl, rfl, rfl⟩

/-- **The rule for runs.** -/
theorem runCalls (h : Rule env T I E) (calls : List InboundCall) (ht : ∀ c ∈ calls, T c.time) :
    Act.Triple I (Inbound.runCalls env calls) (fun _ => I) E := by
  induction calls with
  | nil => exact .pure fun _ hi => hi
  | cons c cs ih =>
    refine .bind (h.call c (ht c List.mem_cons_self)) fun _ => ih fun c' hc' => ?_
    exact ht c' (List.mem_cons_of_mem _ hc')

end Rule

end Inbound

end Zflow.Session
