import Zflow.Laws.Core.ReceiverLog

/-!
# Activations open once and stay closed

Which activations are closed is not stored: it is read off the highest id seen and the one still
open (`Receiver.isClosed`). This file shows that the reading is right over whole runs.

The log of a run is replayed by a ledger that knows the open session and the highest id. It admits
an open only when nothing is open and the id is new, a close only of what is open, and an injection
only while something is open. **Every run of a new receiver is a legal log of the ledger**; an id
whose close is in the log stays closed, so that a call naming it is refused whatever it carries.
-/

namespace Zflow.Core

open Lib

/-! ## The ledger -/

structure Ledger where
  current : Option SessionContext
  highest : Option ActivationId

namespace Ledger

def empty : Ledger := ⟨none, none⟩

def apply (l : Ledger) : ReceiverEffect → Ledger
  | .activationOpened session => ⟨some session, some session.activationId⟩
  | .activationClosed .. => { l with current := none }
  | _ => l

/-- One activation at a time, with a new id; a close names it; nothing is injected outside it. -/
def Admits (l : Ledger) : ReceiverEffect → Prop
  | .activationOpened session =>
    l.current = none ∧ ∀ highest, l.highest = some highest → highest < session.activationId
  | .activationClosed session _ => l.current = some session
  | .motion .. | .key .. | .button .. | .touchReplaced .. => l.current ≠ none
  | .snapshotAck .. | .rejected .. => True

/-- The ledger as a machine that replays a log of effects. -/
def machine : Replay Ledger ReceiverEffect := ⟨apply, Admits⟩

end Ledger

/-- The ids a log opens, in order. -/
def openedIds (log : List ReceiverEffect) : List ActivationId :=
  log.filterMap fun
    | .activationOpened session => some session.activationId
    | _ => none

/-- The ids of a legal log are new, one after the other. -/
theorem openedIds_of_legal (l : Ledger) (log : List ReceiverEffect) (h : Ledger.machine.Legal l log) :
    (openedIds log).Pairwise (· < ·) ∧
      ∀ highest, l.highest = some highest → ∀ id ∈ openedIds log, highest < id := by
  induction log generalizing l with
  | nil => simp [openedIds]
  | cons effect log ih =>
    obtain ⟨hadmits, hlog⟩ := h
    obtain ⟨hpairs, hbound⟩ := ih _ hlog
    cases effect with
    | activationOpened session =>
      -- what follows is above this id, which is above the highest so far
      have hids : openedIds (.activationOpened session :: log) =
        session.activationId :: openedIds log := rfl
      have habove := hbound session.activationId rfl
      rw [hids, List.pairwise_cons]
      refine ⟨⟨habove, hpairs⟩, fun highest hh id hid => ?_⟩
      have hfirst := hadmits.2 highest hh
      rcases List.mem_cons.mp hid with rfl | hid
      · exact hfirst
      · exact Nat.lt_trans hfirst (habove id hid)
    | _ => exact ⟨hpairs, hbound⟩

/-- The session a call names. -/
def ReceiverCall.names : ReceiverCall → Option SessionContext
  | .receiveControl message _ => some message.session
  | .receivePlayoutStep session _ _ => some session
  | .tick _ | .connectionLost _ => none

def ReceiverCall.time : ReceiverCall → MonotonicTimeMicros
  | .receiveControl _ now | .receivePlayoutStep _ _ now | .tick now | .connectionLost now => now

/-! ## What a call keeps -/

namespace Receiver

/-- The open activation is the one with the highest id. -/
def Topmost (r : Receiver) : Prop :=
  ∀ state, r.activation = some state → r.highestActivation = some state.session.activationId

/-- The ledger stands where the receiver does. -/
def Booked (l : Ledger) (r : Receiver) : Prop :=
  l.current = r.activeContext ∧ l.highest = r.highestActivation

theorem isClosed_iff {r : Receiver} {id : ActivationId} :
    r.isClosed id = true ↔ (∃ highest, r.highestActivation = some highest ∧ id ≤ highest) ∧
      ∀ state, r.activation = some state → state.session.activationId ≠ id := by
  unfold isClosed
  cases r.highestActivation <;> cases r.activation <;> simp

/-- **What a call does to the activations**: the open one stays topmost, the log is one the ledger
admits, what was closed stays closed, and what the log closes is closed. -/
structure Orderly (r : Receiver) (log : List ReceiverEffect) (r' : Receiver) : Prop where
  topmost : r'.Topmost
  legal : Ledger.machine.Tracks Booked r log r'
  closed : ∀ id, r.isClosed id = true → r'.isClosed id = true
  closes : ∀ session reason, .activationClosed session reason ∈ log →
    r'.isClosed session.activationId = true
  context : ∀ p, r.context = some p → r'.context = some p

theorem Topmost.same {r r' : Receiver} (h : r.Topmost) (hactive : ∀ state', r'.activation = some state' →
      ∃ state, r.activation = some state ∧ state.session = state'.session)
    (hhighest : r'.highestActivation = r.highestActivation) : r'.Topmost := by
  intro state' hs'
  obtain ⟨state, hs, hsession⟩ := hactive state' hs'
  rw [hhighest, h state hs, hsession]

/-- The activation stays open, or there is none: effects that inject or answer, in any number. -/
theorem orderly_of_same {r r' : Receiver} {log : List ReceiverEffect} (htop : r.Topmost)
    (hactive : r'.activeContext = r.activeContext) (hhighest : r'.highestActivation = r.highestActivation)
    (hcontext : ∀ p, r.context = some p → r'.context = some p)
    (hlog : ∀ effect ∈ log, (∃ session reason, effect = .rejected session reason) ∨
      r.activation ≠ none ∧ (effect.isInjection = true ∨ ∃ s a, effect = .snapshotAck s a)) :
    Orderly r log r' := by
  have hsession : ∀ state', r'.activation = some state' →
      ∃ state, r.activation = some state ∧ state.session = state'.session := by
    intro state' hs'
    have hmap : r.activation.map (·.session) = some state'.session := by
      rw [← show r'.activation.map (·.session) = some state'.session by rw [hs']; rfl]
      exact hactive.symm
    obtain ⟨state, hs, heq⟩ := Option.map_eq_some_iff.mp hmap
    exact ⟨state, hs, heq⟩
  refine ⟨htop.same hsession hhighest, ?_, ?_, ?_, hcontext⟩
  · intro l hl
    have hshow : Booked l r' := ⟨hl.1.trans hactive.symm, hl.2.trans hhighest.symm⟩
    have hcurrent : r.activation ≠ none → l.current ≠ none := by
      intro hne hnone
      rw [hl.1] at hnone
      exact hne (by simpa [activeContext] using hnone)
    -- the ledger ignores each of these effects
    clear hsession
    induction log with
    | nil => exact ⟨trivial, hshow⟩
    | cons effect log ih =>
      have hrest := ih fun e he => hlog e (List.mem_cons_of_mem _ he)
      rcases hlog effect List.mem_cons_self with ⟨s, reason, rfl⟩ | ⟨hopen, hkind⟩
      · exact ⟨⟨trivial, hrest.1⟩, hrest.2⟩
      · have hne := hcurrent hopen
        cases effect with
        | motion | key | button | touchReplaced => exact ⟨⟨hne, hrest.1⟩, hrest.2⟩
        | snapshotAck => exact ⟨⟨trivial, hrest.1⟩, hrest.2⟩
        | activationOpened | activationClosed | rejected => simp [ReceiverEffect.isInjection] at hkind
  · intro id hid
    obtain ⟨habove, hother⟩ := isClosed_iff.mp hid
    refine isClosed_iff.mpr ⟨hhighest ▸ habove, fun state' hs' => ?_⟩
    obtain ⟨state, hs, heq⟩ := hsession state' hs'
    exact heq ▸ hother state hs
  · intro session reason hmem
    rcases hlog _ hmem with ⟨s, why, h⟩ | ⟨-, h⟩
    · cases h
    · simp [ReceiverEffect.isInjection] at h

theorem orderly_append {a b c : Receiver} {xs ys : List ReceiverEffect} (hab : Orderly a xs b)
    (hbc : Orderly b ys c) : Orderly a (xs ++ ys) c := by
  refine ⟨hbc.topmost, hab.legal.append hbc.legal, fun id h => hbc.closed id (hab.closed id h), ?_,
    fun p h => hbc.context p (hab.context p h)⟩
  intro session reason hmem
  rcases List.mem_append.mp hmem with hx | hy
  · exact hbc.closed _ (hab.closes session reason hx)
  · exact hbc.closes session reason hy

/-- The releases of a close are injections. -/
theorem isInjection_reconcileHeld {state : ActivationState} {authoritative : HeldState}
    {effect : ReceiverEffect} (h : effect ∈ (reconcileHeld state authoritative).1) :
    effect.isInjection = true := by
  rw [reconcileHeld_eq] at h
  simp only [List.mem_append, List.mem_map] at h
  rcases h with (((⟨_, -, rfl⟩ | ⟨_, -, rfl⟩) | ⟨_, -, rfl⟩) | ⟨_, -, rfl⟩) | h
  · rfl
  · rfl
  · rfl
  · rfl
  · unfold touchChange at h
    split_ifs at h
    · rw [List.mem_singleton.mp h]
      rfl
    · cases h

/-- **A close is orderly**, and what it closes is closed: its id is the highest. -/
theorem orderly_close {r : Receiver} (htop : r.Topmost) (reason : SessionCloseReason) :
    Orderly r (r.closeActivation reason).1 (r.closeActivation reason).2 := by
  cases hactive : r.activation with
  | none =>
    rw [closeActivation_none hactive]
    exact orderly_of_same htop rfl rfl (fun _ => id) (by simp)
  | some state =>
    rw [closeActivation_some hactive]
    have hreleases : Orderly r (reconcileHeld state .neutral).1 r := by
      refine orderly_of_same htop rfl rfl (fun _ => id) fun effect he => .inr ⟨?_, .inl ?_⟩
      · simp [hactive]
      · exact isInjection_reconcileHeld he
    have hlast : Orderly r [.activationClosed state.session reason]
        { r with activation := none } := by
      refine ⟨by simp [Topmost], .single fun l hl => ?_, ?_, ?_, fun _ => id⟩
      · exact ⟨by simpa [Ledger.machine, Ledger.Admits, activeContext, hactive] using hl.1, rfl, hl.2⟩
      · intro id hid
        exact isClosed_iff.mpr ⟨(isClosed_iff.mp hid).1, by simp⟩
      · intro session why hmem
        cases List.mem_singleton.mp hmem
        exact isClosed_iff.mpr ⟨⟨_, htop state hactive, Nat.le_refl _⟩, by simp⟩
    exact orderly_append hreleases hlast

/-- Every effect of an accepted step injects, or acknowledges a snapshot. -/
theorem effects_acceptState {state : ActivationState} {message : ReliableControlMessage}
    {delta : Option MotionDelta} {now : MonotonicTimeMicros} {lease : Duration}
    {effect : ReceiverEffect} (h : effect ∈ (acceptState state message now delta lease).1) :
    effect.isInjection = true ∨ ∃ s a, effect = .snapshotAck s a := by
  unfold acceptState at h
  rcases List.mem_append.mp h with h | h
  · left
    unfold applyAnchorOf at h
    split at h
    · unfold applyAnchor at h
      simp only at h
      split_ifs at h <;> simp only [List.mem_append, List.mem_cons, List.not_mem_nil, or_false, false_or] at h
      · rcases h with rfl | rfl <;> rfl
      · rw [h]; rfl
      · rw [h]; rfl
    · cases h
  · unfold applyPayload at h
    split at h
    all_goals try (rw [List.mem_singleton.mp h]; exact .inl rfl)
    · rcases List.mem_append.mp h with h | h
      · exact .inl (isInjection_reconcileHeld h)
      · exact .inr ⟨_, _, List.mem_singleton.mp h⟩
    all_goals cases h

/-- Every effect of a playout step injects. -/
theorem effects_playState {state : ActivationState} {step : PlayoutStep} {totals : CumulativeMotion}
    {effect : ReceiverEffect} (h : effect ∈ (playState state step totals).1) :
    effect.isInjection = true := by
  unfold playState at h
  rcases List.mem_append.mp h with h | h
  · split_ifs at h
    · rw [List.mem_singleton.mp h]
      rfl
    · cases h
  · simp only at h
    split at h
    · split_ifs at h
      · rw [List.mem_singleton.mp h]
        rfl
      · cases h
    · cases h

theorem orderly_open {r : Receiver} {message : ReliableControlMessage} (htop : r.Topmost)
    (now : MonotonicTimeMicros) (fresh : ∀ highest, r.highestActivation = some highest →
      highest < message.session.activationId) :
    Orderly r ((r.closeActivation .superseded).1 ++ [.activationOpened message.session])
      { r with
        highestActivation := some message.session.activationId
        activation := some (entered message now r.config.heldStateLease) } := by
  have hclose := orderly_close htop .superseded
  rw [closeActivation_activation] at hclose
  refine orderly_append hclose ⟨?_, .single fun l hl => ?_, ?_, ?_, fun _ => id⟩
  · intro state hs
    cases hs
    rfl
  · exact ⟨⟨hl.1, hl.2 ▸ fresh⟩, rfl, rfl⟩
  · intro id hid
    obtain ⟨⟨highest, hh, hle⟩, -⟩ := isClosed_iff.mp hid
    have hlt := Nat.lt_of_le_of_lt hle (fresh highest hh)
    refine isClosed_iff.mpr ⟨⟨_, rfl, Nat.le_of_lt hlt⟩, fun state hs => ?_⟩
    cases hs
    exact Nat.ne_of_gt hlt
  · intro session reason hmem
    cases List.mem_singleton.mp hmem

theorem orderly_accept {r : Receiver} {state : ActivationState} {message : ReliableControlMessage}
    {delta : Option MotionDelta} (htop : r.Topmost) (now : MonotonicTimeMicros) (active : r.activation = some state)
    (valid : validateTransition state message.payload = true)
    (anchored : Anchored state message.payload delta) :
    Orderly r (r.acceptControl message now state delta).1 (r.acceptControl message now state delta).2 := by
  have hstep : Orderly r (r.accepting message now state delta).1
      { r with activation := some (r.accepting message now state delta).2 } := by
    refine orderly_of_same htop ?_ rfl (fun _ => id) fun effect he => .inr ⟨?_, ?_⟩
    · simp [activeContext, active, accepting, acceptState_state now _ anchored]
    · simp [active]
    · exact effects_acceptState he
  rcases acceptControl_eq now delta r valid with ⟨reason, final, -, h⟩ | ⟨-, h⟩
  · rw [h]
    have hclose := orderly_close hstep.topmost reason
    rw [closeActivation_activation] at hclose
    exact orderly_append hstep hclose
  · rw [h]
    exact hstep

/-- A refusal changes nothing. -/
theorem orderly_refuse {r : Receiver} (htop : r.Topmost) (session : SessionContext)
    (reason : RejectionReason) : Orderly r [.rejected session reason] r := by
  refine orderly_of_same htop rfl rfl (fun _ => id) fun effect he => .inl ?_
  exact ⟨session, reason, List.mem_singleton.mp he⟩

/-- **Each piece of a call is orderly**, where the open activation is topmost. -/
theorem orderly_callRule : CallRule fun r log r' => r.Topmost → Orderly r log r' where
  noted r context now hcontext htop := orderly_of_same htop rfl rfl hcontext (by simp)
  append a xs b ys c hab hbc htop := orderly_append (hab htop) (hbc (hab htop).topmost)
  close r reason htop := orderly_close htop reason
  order r message now _ htop := by
    generalize hresult : r.orderControl message now = result
    have hcases := orderControl_cases message now r
    rw [hresult] at hcases
    cases hcases with
    | refused reason => exact orderly_refuse htop message.session reason
    | enterRefused reason => exact orderly_refuse htop message.session reason
    | opened _ _ fresh => exact orderly_open htop now fresh
    | overflowed => exact orderly_close htop .motionOverflow
    | accepted state delta active _ _ valid anchored =>
      exact orderly_accept htop now active valid anchored
  play r session step htop := by
    generalize hresult : r.playStep session step = result
    have hcases := playStep_cases session step r
    rw [hresult] at hcases
    cases hcases with
    | refused reason => exact orderly_refuse htop session reason
    | violated => exact orderly_close htop .protocolViolation
    | overflowed => exact orderly_close htop .motionOverflow
    | played state totals active =>
      refine orderly_of_same htop ?_ rfl (fun _ => id) fun effect he => .inr ⟨?_, .inl ?_⟩
      · simp [activeContext, active, playState_state]
      · simp [active]
      · exact effects_playState he

/-! ## Runs -/

/-- A run is orderly, from any receiver whose open activation is topmost. -/
theorem orderly_runCalls {r : Receiver} (htop : r.Topmost) (calls : List ReceiverCall) :
    Orderly r (r.runCalls calls).1 (r.runCalls calls).2 := by
  refine Replay.collect_history (fun log r' => Orderly r log r') (fun log r' c h => ?_) ?_ calls
  · exact orderly_append h (orderly_callRule.emit r' c h.topmost)
  · exact orderly_of_same htop rfl rfl (fun _ => id) (by simp)

theorem runCalls_append (r : Receiver) (xs ys : List ReceiverCall) : r.runCalls (xs ++ ys) =
      ((r.runCalls xs).1 ++ ((r.runCalls xs).2.runCalls ys).1,
        ((r.runCalls xs).2.runCalls ys).2) := Replay.collect_append _ r xs ys

theorem topmost_new {config : ReceiverConfig} {now : MonotonicTimeMicros} {r : Receiver}
    (h : Receiver.new config now = .ok r) : r.Topmost ∧ Booked .empty r := by
  rw [(new_eq_ok.mp h).2]
  exact ⟨by simp [Topmost], rfl, rfl⟩

/-- The effects of an expiry are a matter of the open activation. -/
theorem expireLease_effects {r r' : Receiver} (h : r.activation = r'.activation)
    (now : MonotonicTimeMicros) : (r.expireLease now).1 = (r'.expireLease now).1 := by
  unfold expireLease leaseDeadline closeActivation
  rw [h]
  cases r'.activation.bind (·.leaseDeadline) with
  | none => rfl
  | some deadline =>
    simp only
    split
    · split <;> rfl
    · rfl

theorem isClosed_expireLease {r : Receiver} {id : ActivationId} (h : r.isClosed id = true)
    (now : MonotonicTimeMicros) : (r.expireLease now).2.isClosed id = true := by
  by_cases hexp : r.Expired now
  · rw [expireLease_of_expired hexp, closeActivation_activation]
    exact isClosed_iff.mpr ⟨(isClosed_iff.mp h).1, by simp⟩
  · rwa [expireLease_of_live hexp]

theorem orderControl_of_isClosed {r : Receiver} {message : ReliableControlMessage}
    (h : r.isClosed message.session.activationId = true) (now : MonotonicTimeMicros) :
    r.orderControl message now = ([.rejected message.session .closedActivation], r) := by
  unfold orderControl receiveEnter
  rw [if_pos h, if_pos h, ite_self]

theorem playStep_of_isClosed {r : Receiver} {session : SessionContext}
    (h : r.isClosed session.activationId = true) (step : PlayoutStep) :
    r.playStep session step = ([.rejected session .closedActivation], r) := by
  unfold playStep
  rw [if_pos h]

theorem emit_tick {r : Receiver} {now : MonotonicTimeMicros} (h : r.lastObservedTime ≤ now) : r.emit (.tick now) =
      (((r.observed now).expireLease now).1, ((r.observed now).expireLease now).2) := by
  unfold Receiver.emit call
  rcases tick_cases now r with ⟨hlt, -⟩ | ⟨-, hcall⟩
  · exact absurd h (Nat.not_le_of_lt hlt)
  · simp only [hcall]

/-- **A call that names a closed activation** is refused, after the lease of the open one has been
looked at. -/
theorem emit_of_isClosed {r : Receiver} {c : ReceiverCall} {session : SessionContext}
    (hnames : c.names = some session) (hclosed : r.isClosed session.activationId = true) : (r.emit c).1 = [] ∨
      (r.emit c).1 = (r.emit (.tick c.time)).1 ++ [.rejected session .closedActivation] := by
  cases c with
  | receiveControl message now =>
    cases hnames
    unfold Receiver.emit call
    rcases receiveControl_cases message now r with ⟨-, hcall⟩ | ⟨-, -, hcall⟩ | ⟨hle, -, hcall⟩
    · simp only [hcall]
      exact .inl trivial
    · simp only [hcall]
      exact .inl trivial
    · have htick := emit_tick hle
      unfold Receiver.emit call at htick
      simp only [hcall, ReceiverCall.time, htick]
      right
      have hexp := isClosed_expireLease (show (r.pinned message.session now).isClosed _ = true from hclosed) now
      unfold andAlso
      rw [orderControl_of_isClosed hexp]
      rw [expireLease_effects (show (r.pinned message.session now).activation =
        (r.observed now).activation from rfl) now]
  | receivePlayoutStep session' step now =>
    cases hnames
    unfold Receiver.emit call
    rcases receivePlayoutStep_cases session step now r with ⟨-, hcall⟩ | ⟨hle, hcall⟩
    · simp only [hcall]
      exact .inl trivial
    · have htick := emit_tick hle
      unfold Receiver.emit call at htick
      simp only [hcall, ReceiverCall.time, htick]
      right
      have hexp := isClosed_expireLease (show (r.observed now).isClosed _ = true from hclosed) now
      unfold andAlso
      rw [playStep_of_isClosed hexp]
  | tick now => cases hnames
  | connectionLost now => cases hnames

/-- A first control message that is not late pins its context. -/
theorem context_of_first {r : Receiver} (htop : r.Topmost) (message : ReliableControlMessage)
    {now : MonotonicTimeMicros} (hnone : r.context = none) (hle : r.lastObservedTime ≤ now) :
    (r.emit (.receiveControl message now)).2.context = some (contextOf message.session) := by
  unfold Receiver.emit call
  rcases receiveControl_cases message now r with ⟨hlt, -⟩ | ⟨-, ⟨p, hp, -⟩, -⟩ | ⟨-, -, hcall⟩
  · exact absurd hle (Nat.not_le_of_lt hlt)
  · simp [hnone] at hp
  · simp only [hcall]
    have hexpired := orderly_callRule.expire (r.pinned message.session now) now htop
    have hcontext : ((r.pinned message.session now).expireLease now).2.context =
        some (contextOf message.session) := expireLease_context _ _
    exact (orderly_callRule.order _ message now hcontext hexpired.topmost).context _ hcontext

/-- A control message of another context than the pinned one fails and changes at most the time. -/
theorem receiveControl_of_other {r : Receiver} {message : ReliableControlMessage}
    {p : SessionEpoch × TransportGeneration} (hp : r.context = some p)
    (hother : contextOf message.session ≠ p) (now : MonotonicTimeMicros) :
    receiveControl message now r =
      if now < r.lastObservedTime then (.error .clockMovedBackwards, r)
      else (.error .contextChanged, { r with lastObservedTime := now }) := by
  rcases receiveControl_cases message now r with ⟨hlt, hcall⟩ | ⟨hle, -, hcall⟩ | ⟨-, hsame, -⟩
  · rw [if_pos hlt, hcall]
  · rw [if_neg (Nat.not_lt_of_le hle), hcall]
    rfl
  · exact absurd (hsame p hp).symm hother

/-- **Activations open once and stay closed.** After any calls on a new receiver: the log opens one
activation at a time, with growing ids; a call that names an activation the log has closed brings
nothing of it back; and once a first control message has pinned an epoch and a generation, one of
another context fails and changes nothing but the time last observed. -/
theorem closed_activations_stay_closed (config : ReceiverConfig) (now : MonotonicTimeMicros)
    (r : Receiver) (hnew : Receiver.new config now = .ok r) (calls : List ReceiverCall) :
    let log := (r.runCalls calls).1
    let r' := (r.runCalls calls).2
    (∀ before effect after, log = before ++ effect :: after → (Ledger.machine.run .empty before).Admits effect) ∧
      (openedIds log).Pairwise (· < ·) ∧ (∀ session reason, .activationClosed session reason ∈ log →
        ∀ c named, c.names = some named → named.activationId = session.activationId →
          (∀ state, r'.activation = some state → state.session.activationId ≠ session.activationId) ∧
          (∀ state, (r'.emit c).2.activation = some state → state.session.activationId ≠ session.activationId) ∧
          ((r'.emit c).1 = [] ∨ (r'.emit c).1 = (r'.emit (.tick c.time)).1 ++ [.rejected named .closedActivation])) ∧
      ∀ earlier first time later, calls = earlier ++ .receiveControl first time :: later →
        (r.runCalls earlier).2.context = none → (r.runCalls earlier).2.lastObservedTime ≤ time →
        ∀ message time', contextOf message.session ≠ contextOf first.session → receiveControl message time' r' =
            if time' < r'.lastObservedTime then (.error .clockMovedBackwards, r')
            else (.error .contextChanged, { r' with lastObservedTime := time' }) := by
  intro log r'
  obtain ⟨htop, hbooked⟩ := topmost_new hnew
  have hrun : Orderly r log r' := orderly_runCalls htop calls
  obtain ⟨hlegal, -⟩ := hrun.legal .empty hbooked
  refine ⟨(Ledger.machine.legal_iff_forall_split _ _).mp hlegal, (openedIds_of_legal _ _ hlegal).1, ?_, ?_⟩
  · intro session reason hmem c named hnames hid
    have hclosed := hrun.closes session reason hmem
    have hcall := orderly_callRule.emit r' c hrun.topmost
    refine ⟨(isClosed_iff.mp hclosed).2, (isClosed_iff.mp (hcall.closed _ hclosed)).2, ?_⟩
    exact emit_of_isClosed hnames (hid ▸ hclosed)
  · intro earlier first time later hcalls hnone hle message time' hother
    have hsplit : r' = (((r.runCalls earlier).2.emit (.receiveControl first time)).2.runCalls
        later).2 := by
      show (r.runCalls calls).2 = _
      rw [hcalls, runCalls_append]
      rfl
    have hearlier := (orderly_runCalls htop earlier).topmost
    have hfirst := context_of_first hearlier first hnone hle
    have hcall := orderly_callRule.emit _ (.receiveControl first time) hearlier
    have hlater := orderly_runCalls hcall.topmost later
    exact receiveControl_of_other (hsplit ▸ hlater.context _ hfirst) hother time'

/-- The sample activation, closed by its sender. -/
def sampleClosed : List ReceiverCall :=
  sampleCalls ++ [.receiveControl (sampleControl 3 (.sessionClose .localRelease none)) 30]

theorem closed_activations_stay_closed_sample :
    let r' := (sampleReceiver.runCalls sampleClosed).2
    let c := ReceiverCall.receiveControl (sampleControl 4 .enter) 40
    (r'.emit c).1 = [] ∨ (r'.emit c).1 = (r'.emit (.tick 40)).1 ++ [.rejected sampleSession .closedActivation] :=
  ((closed_activations_stay_closed sampleConfig 0 sampleReceiver rfl sampleClosed).2.2.1
    sampleSession .localRelease (by decide +kernel)
    (.receiveControl (sampleControl 4 .enter) 40) sampleSession rfl rfl).2.2

/-- A control of another context whose time is before the last observed one fails for its time, and
not for its context: the time is looked at first. -/
theorem late_control_of_other_context :
    let r' := (sampleReceiver.runCalls sampleCalls).2
    let other : ReliableControlMessage := ⟨⟨2, 1, 1⟩, 3, .keyDown (.keyboard 5)⟩
    r'.context = some (contextOf sampleSession) ∧ contextOf other.session ≠ contextOf sampleSession ∧
      (receiveControl other 15 r').1 = .error .clockMovedBackwards ∧
      (receiveControl other 15 r').1 ≠ .error .contextChanged := by
  decide +kernel

end Receiver

end Zflow.Core
