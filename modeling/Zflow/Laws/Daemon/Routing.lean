import Zflow.Daemon.Sessions

/-!
# What routing a batch comes to

A batch is refused, or it passes with the owner it claimed: then the input thread was handed the
command, or it was not. `Routed` says so, up to what handles were closed with (`Same`), and `Stepped`
is the inversion of a step of the system. The laws about batches come first: what an admission lets
through keeps what the batch makes of its activation.
-/

namespace Zflow.Daemon

open Zflow.Core Lib Linux InputThread

variable {P D : Type}

/-! ## Batches -/

/-- Whether an effect presses something. -/
def presses : ReceiverEffect → Bool
  | .key _ pressed _ | .button _ pressed _ => pressed
  | .touchReplaced state _ => !state.isEmpty
  | _ => false

theorem isRelease_of_safety {effect : ReceiverEffect} (h : isSafetyRelease effect = true) :
    isRelease effect = true := by
  unfold isSafetyRelease at h
  split at h <;> simp_all [isRelease]

theorem presses_of_safety {effect : ReceiverEffect} (h : isSafetyRelease effect = true) :
    presses effect = false := by
  unfold isSafetyRelease at h
  split at h <;> simp_all [presses]

/-- Every admission lets a safety release through. -/
theorem lets_of_safety {effect : ReceiverEffect} (admission : Admission)
    (h : isSafetyRelease effect = true) : admission.lets effect = true := by
  unfold Admission.lets
  cases admission <;> simp [h, isRelease_of_safety h]

theorem admitted_of_safety {effects : List ReceiverEffect} (admission : Admission)
    (h : effects.all isSafetyRelease = true) : admittedEffects effects admission = (effects, false) := by
  have hall : ∀ effect ∈ effects, admission.lets effect = true := fun effect hmem =>
    lets_of_safety admission (List.all_eq_true.mp h effect hmem)
  have hnone : (effects.any fun effect => !admission.lets effect) = false := by
    apply List.any_eq_false.mpr
    intro effect hmem
    simp [hall effect hmem]
  unfold admittedEffects
  rw [List.filter_eq_self.mpr hall, hnone]
  simp

theorem reverseScrolling_of_safety {effects : List ReceiverEffect}
    (h : effects.all isSafetyRelease = true) : reverseScrolling effects = effects := by
  apply (List.map_congr_left _).trans (List.map_id effects)
  intro effect hmem
  have hsafe := List.all_eq_true.mp h effect hmem
  cases effect with
  | motion delta through => cases hsafe
  | _ => rfl

@[simp]
theorem activationAfter_nil (opened : Bool) : activationAfter opened [] = some opened := rfl

theorem activationAfter_cons (opened : Bool) (effect : ReceiverEffect) (rest : List ReceiverEffect) :
    activationAfter opened (effect :: rest) =
      (activationNext opened effect).bind fun next => activationAfter next rest := by
  unfold activationAfter
  rw [List.foldlM_cons]
  rfl

/-- An injection needs an open activation, and keeps it open. -/
theorem activationNext_injection {opened next : Bool} {effect : ReceiverEffect} (hinj : effect.isInjection = true) :
    activationNext opened effect = some next ↔ opened = true ∧ next = true := by
  cases effect <;> cases opened <;> cases next <;> simp_all [activationNext, ReceiverEffect.isInjection]

/-- A batch that is not empty and opens nothing needs an open activation. -/
theorem opened_of_activationAfter {opened after : Bool} {effects : List ReceiverEffect}
    (h : activationAfter opened effects = some after) (hne : effects ≠ [])
    (hopens : opensActivation effects = false) : opened = true := by
  cases effects with
  | nil => exact absurd rfl hne
  | cons effect rest =>
    rw [activationAfter_cons] at h
    obtain ⟨next, hnext, -⟩ := Option.bind_eq_some_iff.mp h
    cases opened with
    | true => rfl
    | false => cases effect <;> simp_all [activationNext, opensActivation]

/-- What the last of a batch's opens and closes was. -/
def lastMark (effects : List ReceiverEffect) : Option Bool :=
  effects.reverse.findSome? fun effect => match effect with
    | .activationOpened _ => some false
    | .activationClosed .. => some true
    | _ => none

theorem lastMark_cons (effect : ReceiverEffect) (rest : List ReceiverEffect) :
    lastMark (effect :: rest) = (lastMark rest).or (lastMark [effect]) := by
  unfold lastMark
  rw [List.reverse_cons, List.findSome?_append]
  rfl

theorem endsClosed_eq (effects : List ReceiverEffect) : endsClosed effects = (lastMark effects).getD false := rfl

/-- One effect's mark says what it makes of the activation. -/
theorem activationNext_eq {opened next : Bool} {effect : ReceiverEffect}
    (h : activationNext opened effect = some next) : next = !(lastMark [effect]).getD (!opened) := by
  cases opened <;> cases effect <;> simp_all [activationNext, lastMark]

/-- **What a batch makes of its activation** is what its last mark says. -/
theorem activationAfter_eq {opened after : Bool} {effects : List ReceiverEffect}
    (h : activationAfter opened effects = some after) : after = !(lastMark effects).getD (!opened) := by
  induction effects generalizing opened with
  | nil =>
    cases h
    simp [lastMark]
  | cons effect rest ih =>
    rw [activationAfter_cons] at h
    obtain ⟨next, hnext, hrest⟩ := Option.bind_eq_some_iff.mp h
    rw [ih hrest, lastMark_cons, activationNext_eq hnext]
    cases lastMark rest <;> simp

/-- A batch whose activation stays open does not end closed. -/
theorem endsClosed_of_open {opened : Bool} {effects : List ReceiverEffect}
    (h : activationAfter opened effects = some true) : endsClosed effects = false := by
  have hmark := activationAfter_eq h
  rw [endsClosed_eq]
  cases hlast : lastMark effects with
  | none => rfl
  | some mark => simp_all

/-- A batch without a mark opens nothing. -/
theorem opensActivation_of_lastMark {effects : List ReceiverEffect} (h : lastMark effects = none) :
    opensActivation effects = false := by
  apply List.any_eq_false.mpr
  intro effect hmem
  have hmark := List.findSome?_eq_none_iff.mp h effect (List.mem_reverse.mpr hmem)
  cases effect <;> simp_all

/-- A batch that leaves its activation closed ends closed. -/
theorem endsClosed_of_closed {effects : List ReceiverEffect} {opened : Bool}
    (h : activationAfter opened effects = some false) (hne : effects ≠ []) :
    endsClosed effects = true := by
  have hmark := activationAfter_eq h
  rw [endsClosed_eq]
  cases hlast : lastMark effects with
  | some mark => simp_all
  | none =>
    rw [opened_of_activationAfter h hne (opensActivation_of_lastMark hlast), hlast] at hmark
    cases hmark

/-- Dropping injections keeps what becomes of the activation. -/
theorem activationAfter_filter {lets : ReceiverEffect → Bool} {opened after : Bool}
    {effects : List ReceiverEffect} (hlets : ∀ effect, effect.isInjection = false → lets effect = true)
    (h : activationAfter opened effects = some after) :
    activationAfter opened (effects.filter lets) = some after := by
  induction effects generalizing opened with
  | nil => exact h
  | cons effect rest ih =>
    rw [activationAfter_cons] at h
    obtain ⟨next, hnext, hrest⟩ := Option.bind_eq_some_iff.mp h
    rw [List.filter_cons]
    split
    · rw [activationAfter_cons, hnext]
      exact ih hrest
    · rename_i hdrop
      have hinj : effect.isInjection = true := by
        by_contra hquiet
        exact hdrop (hlets effect (Bool.eq_false_of_not_eq_true hquiet))
      obtain ⟨hopened, hopen⟩ := (activationNext_injection hinj).mp hnext
      rw [hopened, ← hopen]
      exact ih hrest

theorem activationAfter_reverseScrolling (opened : Bool) (effects : List ReceiverEffect) :
    activationAfter opened (reverseScrolling effects) = activationAfter opened effects := by
  unfold reverseScrolling activationAfter
  rw [List.foldlM_map]
  congr 1
  funext opened effect
  cases effect <;> rfl

theorem lets_of_not_injection (admission : Admission) {effect : ReceiverEffect}
    (h : effect.isInjection = false) : admission.lets effect = true := by
  unfold Admission.lets
  rw [h]
  rfl

theorem presses_reverseScrolling {effects : List ReceiverEffect} (h : ∀ effect ∈ effects, presses effect = false) :
    ∀ effect ∈ reverseScrolling effects, presses effect = false := by
  intro effect hmem
  obtain ⟨original, horiginal, rfl⟩ := List.mem_map.mp hmem
  have hquiet := h original horiginal
  cases original <;> exact hquiet

/-! ## Routing -/

namespace Computer

/-- What an actor is, but for its task and what its handle was closed with. -/
structure Alike (a b : Actor P) : Prop where
  peer : b.peer = a.peer
  stage : b.stage = a.stage
  opened : b.opened = a.opened

theorem Alike.refl (a : Actor P) : Alike a a := ⟨rfl, rfl, rfl⟩

/-- Nothing differs but what handles were closed with. -/
structure Same (d after : Computer P D) : Prop where
  shared : after.shared = d.shared
  receiving : after.receiving = d.receiving
  delivered : after.delivered = d.delivered
  stopped : after.stopped = d.stopped
  actors : ∀ session, Option.Rel Alike (d.actors session) (after.actors session)

theorem Same.refl (d : Computer P D) : d.Same d where
  shared := rfl
  receiving := rfl
  delivered := rfl
  stopped := rfl
  actors session := by
    cases d.actors session with
    | none => exact .none
    | some actor => exact .some (.refl actor)

theorem same_closeHandle (session : SessionId) (reason : SessionCloseReason) (d : Computer P D) :
    d.Same (d.closeHandle session reason) := by
  unfold closeHandle
  cases hactor : d.actors session with
  | none => exact .refl d
  | some actor =>
    refine { Same.refl d with actors := fun other => ?_ }
    show Option.Rel Alike (d.actors other) (Function.update d.actors session _ other)
    by_cases heq : other = session
    · rw [heq, Function.update_self, hactor]
      exact .some ⟨rfl, rfl, rfl⟩
    · rw [Function.update_of_ne heq]
      exact (Same.refl d).actors other

theorem same_closeSession (peer : P) (session : SessionId) (reason : SessionCloseReason)
    (d : Computer P D) : d.Same (d.closeSession peer session reason) := by
  unfold closeSession
  split
  · exact same_closeHandle session reason d
  · exact .refl d

/-- The computer as a batch that passes finds it: a batch that opens has claimed the input. -/
inductive Claimed (peer : P) (session : SessionId) (effects : List ReceiverEffect)
    (d : Computer P D) : Computer P D → Prop
  | follows (hopens : opensActivation effects = false) : Claimed peer session effects d d
  | opens (hopens : opensActivation effects = true)
      (hfree : ∀ owner, d.shared.inboundOwner = some owner → owner = (peer, session)) :
      Claimed peer session effects d (d.setOwner (some (peer, session)))

variable [DecidableEq P] [VirtualInput D]

omit [DecidableEq P] [VirtualInput D] in
/-- The command makes of the activation what the batch does. -/
theorem activationAfter_command (d : Computer P D) (peer : P) (touchCapturedAt : CapturedAt)
    {opened after : Bool} {effects : List ReceiverEffect} (h : activationAfter opened effects = some after) :
    activationAfter opened (d.command peer effects touchCapturedAt).effects = some after := by
  have hadmitted := activationAfter_filter
    (fun _ => lets_of_not_injection (admitPeer d.shared.config peer d.shared.seatGate)) h
  unfold command
  simp only
  split
  · rw [activationAfter_reverseScrolling]
    exact hadmitted
  · exact hadmitted

omit [DecidableEq P] [VirtualInput D] in
/-- The command presses nothing that the batch does not. -/
theorem presses_command (d : Computer P D) (peer : P) (touchCapturedAt : CapturedAt)
    {effects : List ReceiverEffect} (h : ∀ effect ∈ effects, presses effect = false) :
    ∀ effect ∈ (d.command peer effects touchCapturedAt).effects, presses effect = false := by
  have hadmitted : ∀ effect ∈ (admittedEffects effects
      (admitPeer d.shared.config peer d.shared.seatGate)).1, presses effect = false :=
    fun effect hmem => h effect (List.mem_filter.mp hmem).1
  unfold command
  simp only
  split
  · exact presses_reverseScrolling hadmitted
  · exact hadmitted

omit [DecidableEq P] [VirtualInput D] in
/-- A batch of releases goes to the input thread as it is. -/
theorem command_of_safety (d : Computer P D) (peer : P) (touchCapturedAt : CapturedAt)
    {effects : List ReceiverEffect} (h : effects.all isSafetyRelease = true) :
    (d.command peer effects touchCapturedAt).effects = effects := by
  unfold command
  simp only [admitted_of_safety _ h, reverseScrolling_of_safety h, ite_self]

/-- What routing a batch comes to. -/
inductive Routed (answers : Answers) (peer : P) (session : SessionId)
    (effects : List ReceiverEffect) (command : ReceiverCommand) (d : Computer P D) :
    Except String Bool × Computer P D → Prop
  /-- An unregistered session, or an activation that may not open. -/
  | refused (after : Computer P D) (hsame : d.Same after)
      (hwhy : d.shared.sessions peer = some session → opensActivation effects = true) :
      Routed answers peer session effects command d (.ok false, after)
  /-- The daemon ends. -/
  | failed (error : String) (claimed after : Computer P D)
      (hregistered : d.shared.sessions peer = some session)
      (hclaimed : Claimed peer session effects d claimed)
      (hafter : after = claimed ∨
        command.effects ≠ [] ∧ after = claimed.handOver peer session command) :
      Routed answers peer session effects command d (.error error, after)
  /-- The input thread was not handed the batch: it had nothing to do, or the queue was full. -/
  | kept (accepted : Bool) (claimed after : Computer P D)
      (hregistered : d.shared.sessions peer = some session)
      (hclaimed : Claimed peer session effects d claimed)
      (hsame : (claimed.yieldInbound peer session effects).Same after)
      (hwhy : command.effects = [] ∨
        answers.sent ≠ .queued ∧ accepted = false ∧ command.effects.all isSafetyRelease = false) :
      Routed answers peer session effects command d (.ok accepted, after)
  | handed (accepted : Bool) (claimed after : Computer P D)
      (hregistered : d.shared.sessions peer = some session)
      (hclaimed : Claimed peer session effects d claimed)
      (hne : command.effects ≠ [])
      (hsame : ((claimed.handOver peer session command).yieldInbound peer session effects).Same after)
      (happlied : (d.receiving.handle command).1 = true ∨
        accepted = false ∧ command.effects.all isSafetyRelease = false) :
      Routed answers peer session effects command d (.ok accepted, after)

omit [DecidableEq P] [VirtualInput D] in
theorem claimed_receiving {peer : P} {session : SessionId} {effects : List ReceiverEffect}
    {d claimed : Computer P D} (h : Claimed peer session effects d claimed) :
    claimed.receiving = d.receiving := by
  cases h <;> rfl

theorem claimInbound_granted {owner : Option (P × SessionId)} {peer : P} {session : SessionId}
    {authorized : Bool} {ownership : OwnershipPhase}
    (h : (claimInbound owner peer session authorized ownership).2 = true) :
    (claimInbound owner peer session authorized ownership).1 = some (peer, session) ∧
      ∀ current, owner = some current → current = (peer, session) := by
  unfold claimInbound at h ⊢
  split at h
  · cases h
  · rename_i hfree
    rw [if_neg hfree]
    refine ⟨rfl, ?_⟩
    intro current hcurrent
    by_contra hne
    exact hfree (by simp [hcurrent, hne])

omit [VirtualInput D] in
/-- A claim that is not granted closes the session, and changes nothing else. -/
theorem openInbound_cases (answers : Answers) (peer : P) (session : SessionId)
    (effects : List ReceiverEffect) (permitted : Bool) (d : Computer P D) :
    (∃ after, d.openInbound answers peer session effects permitted = (false, after) ∧
      d.Same after ∧ opensActivation effects = true) ∨
    ∃ claimed, d.openInbound answers peer session effects permitted = (true, claimed) ∧
      Claimed peer session effects d claimed := by
  unfold openInbound
  cases hopens : opensActivation effects with
  | false => exact .inr ⟨d, rfl, .follows hopens⟩
  | true =>
    simp only [Bool.not_true, Bool.false_eq_true, if_false]
    split
    · exact .inl ⟨_, rfl, same_closeSession peer session _ d, trivial⟩
    split
    · rename_i hgranted
      obtain ⟨hown, hfree⟩ := claimInbound_granted hgranted
      rw [hown]
      exact .inr ⟨_, rfl, .opens hopens hfree⟩
    · exact .inl ⟨_, rfl, same_closeSession peer session _ d, trivial⟩

omit [DecidableEq P] in
/-- Sending a command fails the daemon, or keeps it from the input thread, or hands it over. Where a
batch of releases does not fail the daemon, it was applied. -/
theorem deliver_cases (answers : Answers) (peer : P) (session : SessionId)
    (command : ReceiverCommand) (d : Computer P D) :
    (∃ error after, d.deliver answers peer session command = (.error error, after) ∧
      (after = d ∨ command.effects ≠ [] ∧ after = d.handOver peer session command)) ∨
    (∃ refused, d.deliver answers peer session command = (.ok refused, d) ∧
      (command.effects = [] ∨ answers.sent ≠ .queued ∧ refused = true ∧ command.effects.all isSafetyRelease = false)) ∨
    ∃ refused, d.deliver answers peer session command =
        (.ok refused, d.handOver peer session command) ∧ command.effects ≠ [] ∧
      ((d.receiving.handle command).1 = true ∨ refused = true ∧ command.effects.all isSafetyRelease = false) := by
  unfold deliver
  split
  · rename_i hempty
    exact .inr (.inl ⟨false, rfl, .inl hempty⟩)
  rename_i hne
  have hafter : ∀ error : String, ∃ error' after, ((Except.error error : Except String Bool),
      if answers.sent.taken then d.handOver peer session command else d) = (.error error', after) ∧
      (after = d ∨ command.effects ≠ [] ∧ after = d.handOver peer session command) := by
    intro error
    refine ⟨error, _, rfl, ?_⟩
    cases answers.sent.taken with
    | true => exact .inr ⟨hne, rfl⟩
    | false => exact .inl rfl
  simp only
  split
  · rename_i hsent
    split
    · exact .inl (hafter _)
    · rename_i hsafety
      cases htaken : answers.sent.taken with
      | true => exact .inr (.inr ⟨true, rfl, hne, .inr ⟨rfl, Bool.eq_false_of_not_eq_true hsafety⟩⟩)
      | false =>
        exact .inr (.inl ⟨true, rfl, .inr ⟨hsent, rfl, Bool.eq_false_of_not_eq_true hsafety⟩⟩)
  · rename_i hsent
    have hqueued : answers.sent = .queued := by
      by_contra hne
      exact hsent hne
    split
    · exact .inl (hafter _)
    rw [hqueued]
    split
    · rename_i happlied
      exact .inr (.inr ⟨false, rfl, hne, .inl happlied⟩)
    split
    · exact .inl ⟨_, _, rfl, .inr ⟨hne, rfl⟩⟩
    · rename_i hsafety
      exact .inr (.inr ⟨true, rfl, hne, .inr ⟨rfl, Bool.eq_false_of_not_eq_true hsafety⟩⟩)

/-- **Every batch comes to one of `Routed`.** -/
theorem routeReceiverEffects_routed (answers : Answers) (peer : P) (session : SessionId)
    (effects : List ReceiverEffect) (touchCapturedAt : CapturedAt) (d : Computer P D) :
    Routed answers peer session effects (d.command peer effects touchCapturedAt) d
      (d.routeReceiverEffects answers peer session effects touchCapturedAt) := by
  unfold routeReceiverEffects
  split
  · rename_i hother
    exact .refused d (.refl d) fun hreg => absurd hreg hother
  rename_i hreg
  have hregistered : d.shared.sessions peer = some session := by
    by_contra hne
    exact hreg hne
  generalize d.command peer effects touchCapturedAt = command
  simp only
  rcases openInbound_cases answers peer session effects
    (decide (admitPeer d.shared.config peer d.shared.seatGate ≠ .refuse)) d with
    ⟨after, hres, hsame, hopens⟩ | ⟨claimed, hres, hclaimed⟩
  · rw [hres]
    exact .refused after hsame fun _ => hopens
  rw [hres]
  simp only [Bool.not_true, Bool.false_eq_true, if_false]
  rcases deliver_cases answers peer session command claimed with
    ⟨error, after, hsent, hafter⟩ | ⟨refused, hsent, hwhy⟩ | ⟨refused, hsent, hne, happlied⟩
  · rw [hsent]
    exact .failed error claimed after hregistered hclaimed hafter
  · rw [hsent]
    simp only
    split
    · refine .kept false claimed _ hregistered hclaimed (same_closeSession peer session _ _) ?_
      exact hwhy.imp_right fun ⟨hqueue, _, hsafety⟩ => ⟨hqueue, rfl, hsafety⟩
    · rename_i haccepted
      refine .kept true claimed _ hregistered hclaimed (.refl _) ?_
      rcases hwhy with hempty | ⟨-, hrefused, -⟩
      · exact .inl hempty
      · exact absurd (by simp [hrefused]) haccepted
  · rw [hsent]
    rw [claimed_receiving hclaimed] at happlied
    simp only
    split
    · refine .handed false claimed _ hregistered hclaimed hne (same_closeSession peer session _ _) ?_
      exact happlied.imp_right fun ⟨_, hsafety⟩ => ⟨rfl, hsafety⟩
    · rename_i haccepted
      refine .handed true claimed _ hregistered hclaimed hne (.refl _) ?_
      rcases happlied with happlied | ⟨hrefused, -⟩
      · exact .inl happlied
      · exact absurd (by simp [hrefused]) haccepted

/-! ## What a routed batch leaves -/

section Routed

variable {answers : Answers} {peer : P} {session : SessionId} {effects : List ReceiverEffect}
  {command : ReceiverCommand} {d claimed after : Computer P D} {answer : Except String Bool}

omit [DecidableEq P] [VirtualInput D] in
theorem Claimed.actors (h : Claimed peer session effects d claimed) : claimed.actors = d.actors := by
  cases h <;> rfl

omit [DecidableEq P] [VirtualInput D] in
theorem Claimed.sessions (h : Claimed peer session effects d claimed) :
    claimed.shared.sessions = d.shared.sessions := by
  cases h <;> rfl

omit [DecidableEq P] [VirtualInput D] in
theorem Claimed.delivered (h : Claimed peer session effects d claimed) :
    claimed.delivered = d.delivered := by
  cases h <;> rfl

omit [DecidableEq P] [VirtualInput D] in
theorem Claimed.stopped (h : Claimed peer session effects d claimed) :
    claimed.stopped = d.stopped := by
  cases h <;> rfl

omit [DecidableEq P] [VirtualInput D] in
/-- A claim never takes the input from another owner. -/
theorem Claimed.other (h : Claimed peer session effects d claimed) {owner : P × SessionId}
    (hother : owner ≠ (peer, session)) (howner : d.shared.inboundOwner = some owner) :
    claimed.shared.inboundOwner = some owner := by
  cases h with
  | follows hopens => exact howner
  | opens hopens hfree => exact absurd (hfree owner howner) hother

/-- What giving the input back leaves alone. -/
structure Yielded (d after : Computer P D) : Prop where
  actors : after.actors = d.actors
  sessions : after.shared.sessions = d.shared.sessions
  delivered : after.delivered = d.delivered
  receiving : after.receiving = d.receiving
  stopped : after.stopped = d.stopped

omit [VirtualInput D] in
theorem releaseInbound_yielded (peer : P) (session : SessionId) (d : Computer P D) :
    Yielded d (d.releaseInbound peer session) := by
  unfold releaseInbound
  split <;> exact ⟨rfl, rfl, rfl, rfl, rfl⟩

omit [VirtualInput D] in
theorem yieldInbound_yielded (peer : P) (session : SessionId) (effects : List ReceiverEffect)
    (d : Computer P D) : Yielded d (d.yieldInbound peer session effects) := by
  unfold yieldInbound
  split
  · exact releaseInbound_yielded peer session d
  · exact ⟨rfl, rfl, rfl, rfl, rfl⟩

omit [VirtualInput D] in
/-- A session gives back only what is its own. -/
theorem releaseInbound_other {peer : P} {session : SessionId} {d : Computer P D}
    {owner : P × SessionId} (hother : owner ≠ (peer, session)) (howner : d.shared.inboundOwner = some owner) :
    (d.releaseInbound peer session).shared.inboundOwner = some owner := by
  unfold releaseInbound
  split
  · rename_i hown
    exact absurd (Option.some.inj (howner.symm.trans hown)) hother
  · exact howner

omit [VirtualInput D] in
theorem yieldInbound_other {peer : P} {session : SessionId} (effects : List ReceiverEffect)
    {d : Computer P D} {owner : P × SessionId} (hother : owner ≠ (peer, session))
    (howner : d.shared.inboundOwner = some owner) :
    (d.yieldInbound peer session effects).shared.inboundOwner = some owner := by
  unfold yieldInbound
  split
  · exact releaseInbound_other hother howner
  · exact howner

/-- A batch changes no actor but for what handles were closed with, and nothing of the registry. -/
theorem Routed.frame (h : Routed answers peer session effects command d (answer, after)) :
    (∀ other, Option.Rel Alike (d.actors other) (after.actors other)) ∧
      after.shared.sessions = d.shared.sessions ∧ after.stopped = d.stopped := by
  cases h with
  | refused _ hsame _ => exact ⟨hsame.actors, by rw [hsame.shared], hsame.stopped⟩
  | failed _ claimed _ _ hclaimed hafter =>
    have hactors : after.actors = d.actors ∧ after.shared.sessions = d.shared.sessions ∧
        after.stopped = d.stopped := by
      rcases hafter with rfl | ⟨-, rfl⟩ <;> exact ⟨hclaimed.actors, hclaimed.sessions, hclaimed.stopped⟩
    rw [hactors.1]
    exact ⟨(Same.refl d).actors, hactors.2⟩
  | kept _ claimed _ _ hclaimed hsame _ =>
    have hyield := yieldInbound_yielded peer session effects claimed
    have hactors := hsame.actors
    rw [hyield.actors, hclaimed.actors] at hactors
    refine ⟨hactors, ?_, ?_⟩
    · rw [hsame.shared, hyield.sessions, hclaimed.sessions]
    · rw [hsame.stopped, hyield.stopped, hclaimed.stopped]
  | handed _ claimed _ _ hclaimed _ hsame _ =>
    have hyield := yieldInbound_yielded peer session effects (claimed.handOver peer session command)
    have hactors := hsame.actors
    rw [hyield.actors, show (claimed.handOver peer session command).actors = d.actors from
      hclaimed.actors] at hactors
    refine ⟨hactors, ?_, ?_⟩
    · rw [hsame.shared, hyield.sessions]
      exact hclaimed.sessions
    · rw [hsame.stopped, hyield.stopped]
      exact hclaimed.stopped

/-- **What the input thread was handed**: nothing, or the command of a registered session, which owns
the input where its batch opened. -/
theorem Routed.log (h : Routed answers peer session effects command d (answer, after)) :
    (after.delivered = d.delivered ∧ after.receiving = d.receiving) ∨
    ∃ claimed : Computer P D, d.shared.sessions peer = some session ∧
      Claimed peer session effects d claimed ∧ command.effects ≠ [] ∧
      after.delivered = d.delivered ++ [⟨peer, session, claimed.shared.inboundOwner, command,
        (d.receiving.handle command).1⟩] ∧
      after.receiving = (d.receiving.handle command).2 := by
  have hhanded : ∀ claimed : Computer P D, Claimed peer session effects d claimed →
      (claimed.handOver peer session command).delivered = d.delivered ++
          [⟨peer, session, claimed.shared.inboundOwner, command, (d.receiving.handle command).1⟩] ∧
        (claimed.handOver peer session command).receiving = (d.receiving.handle command).2 := by
    intro claimed hclaimed
    unfold handOver
    rw [hclaimed.delivered, claimed_receiving hclaimed]
    exact ⟨rfl, rfl⟩
  cases h with
  | refused _ hsame _ => exact .inl ⟨hsame.delivered, hsame.receiving⟩
  | failed _ claimed _ hreg hclaimed hafter =>
    rcases hafter with rfl | ⟨hne, rfl⟩
    · exact .inl ⟨hclaimed.delivered, claimed_receiving hclaimed⟩
    · exact .inr ⟨claimed, hreg, hclaimed, hne, hhanded claimed hclaimed⟩
  | kept _ claimed _ _ hclaimed hsame _ =>
    have hyield := yieldInbound_yielded peer session effects claimed
    refine .inl ⟨?_, ?_⟩
    · rw [hsame.delivered, hyield.delivered, hclaimed.delivered]
    · rw [hsame.receiving, hyield.receiving, claimed_receiving hclaimed]
  | handed _ claimed _ hreg hclaimed hne hsame _ =>
    have hyield := yieldInbound_yielded peer session effects (claimed.handOver peer session command)
    refine .inr ⟨claimed, hreg, hclaimed, hne, ?_⟩
    rw [hsame.delivered, hsame.receiving, hyield.delivered, hyield.receiving]
    exact hhanded claimed hclaimed

/-- No batch takes the input from another owner. -/
theorem Routed.other (h : Routed answers peer session effects command d (answer, after))
    {owner : P × SessionId} (hother : owner ≠ (peer, session))
    (howner : d.shared.inboundOwner = some owner) : after.shared.inboundOwner = some owner := by
  cases h with
  | refused _ hsame _ =>
    rw [hsame.shared]
    exact howner
  | failed _ claimed _ _ hclaimed hafter =>
    rcases hafter with rfl | ⟨-, rfl⟩ <;> exact hclaimed.other hother howner
  | kept _ claimed _ _ hclaimed hsame _ =>
    rw [hsame.shared]
    exact yieldInbound_other effects hother (hclaimed.other hother howner)
  | handed _ claimed _ _ hclaimed _ hsame _ =>
    rw [hsame.shared]
    exact yieldInbound_other effects hother (hclaimed.other hother howner)

/-- A session whose accepted batch leaves its activation open owns the input. -/
theorem Routed.own (h : Routed answers peer session effects command d (.ok true, after))
    (hends : endsClosed effects = false)
    (hown : opensActivation effects = false → d.shared.inboundOwner = some (peer, session)) :
    after.shared.inboundOwner = some (peer, session) := by
  have hclaim : ∀ claimed : Computer P D, Claimed peer session effects d claimed →
      claimed.shared.inboundOwner = some (peer, session) := by
    intro claimed hclaimed
    cases hclaimed with
    | follows hopens => exact hown hopens
    | opens hopens hfree => rfl
  cases h with
  | kept _ claimed _ _ hclaimed hsame _ =>
    rw [hsame.shared]
    unfold yieldInbound
    rw [hends]
    exact hclaim claimed hclaimed
  | handed _ claimed _ _ hclaimed _ hsame _ =>
    rw [hsame.shared]
    unfold yieldInbound
    rw [hends]
    exact hclaim claimed hclaimed

end Routed

/-! ## Steps -/

omit [DecidableEq P] [VirtualInput D] in
theorem setActor_cases {session other : SessionId} {actor b : Actor P} {d : Computer P D}
    (hb : (d.setActor session actor).actors other = some b) :
    (other = session ∧ b = actor) ∨ (other ≠ session ∧ d.actors other = some b) := by
  have hupdate : (d.setActor session actor).actors other = Function.update d.actors session (some actor) other := rfl
  by_cases heq : other = session
  · rw [hupdate, heq, Function.update_self] at hb
    exact .inl ⟨heq, (Option.some.inj hb).symm⟩
  · rw [hupdate, Function.update_of_ne heq] at hb
    exact .inr ⟨heq, hb⟩

omit [DecidableEq P] [VirtualInput D] in
/-- What becomes of a session whose batch was answered: its activation, and whether it goes on. -/
theorem answered_actors {session : SessionId} {actor : Actor P} {opened accepted : Bool}
    {d routed : Computer P D} (hactor : d.actors session = some actor)
    (hsame : ∀ other, Option.Rel Alike (d.actors other) (routed.actors other)) {other : SessionId}
    {b : Actor P} (hb : (answered session actor opened (.ok accepted, routed)).actors other = some b) :
    (other = session ∧ b.peer = actor.peer ∧ b.opened = opened ∧
      b.stage = if accepted then actor.stage else .stopped) ∨
    ∃ a, other ≠ session ∧ d.actors other = some a ∧ Alike a b := by
  rcases setActor_cases hb with ⟨rfl, rfl⟩ | ⟨hne, hrouted⟩
  · have hrel := hsame other
    rw [hactor] at hrel
    cases hrouted : routed.actors other with
    | none =>
      rw [hrouted] at hrel
      cases hrel
    | some routedActor =>
      rw [hrouted] at hrel
      cases hrel with
      | some hlike => exact .inl ⟨rfl, hlike.peer, rfl, rfl⟩
  · have hrel := hsame other
    rw [hrouted] at hrel
    cases ha : d.actors other with
    | none =>
      rw [ha] at hrel
      cases hrel
    | some a =>
      rw [ha] at hrel
      cases hrel with
      | some hlike => exact .inr ⟨a, hne, rfl, hlike⟩

omit [DecidableEq P] [VirtualInput D] in
/-- An answered batch loses no actor. -/
theorem answered_actor_of {session : SessionId} {actor : Actor P} (opened accepted : Bool)
    {d routed : Computer P D} (hactor : d.actors session = some actor)
    (hsame : ∀ other, Option.Rel Alike (d.actors other) (routed.actors other)) {other : SessionId}
    {a : Actor P} (ha : d.actors other = some a) :
    ∃ b, (answered session actor opened (.ok accepted, routed)).actors other = some b ∧
      b.peer = a.peer ∧ (other ≠ session → Alike a b) ∧
      (other = session → b.opened = opened ∧ b.stage = if accepted then actor.stage else .stopped) := by
  have hrel := hsame other
  rw [ha] at hrel
  cases hrouted : routed.actors other with
  | none =>
    rw [hrouted] at hrel
    cases hrel
  | some b =>
    rw [hrouted] at hrel
    cases hrel with
    | some hlike =>
      by_cases heq : other = session
      · subst heq
        refine ⟨_, Function.update_self .., ?_, fun hne => absurd rfl hne, fun _ => ⟨rfl, rfl⟩⟩
        rw [hrouted]
        exact hlike.peer
      · refine ⟨b, (Function.update_of_ne heq ..).trans hrouted, hlike.peer, fun _ => hlike, ?_⟩
        exact fun hsession => absurd hsession heq

/-- What a step is, with its guards. -/
inductive Stepped (d : Computer P D) : Step P → Computer P D → Prop
  | policy (config : Config P) (generation : Nat) (seatGate : SeatGate) :
      Stepped d (.policy config generation seatGate)
        { d with shared := { d.shared with config, policyGeneration := generation, seatGate } }
  | start (peer : P) (session : SessionId) (task : Task) (hfresh : d.actors session = none) :
      Stepped d (.start peer session task)
        (d.setActor session ⟨peer, .running, some task, false, none⟩)
  | batch (session : SessionId) (effects : List ReceiverEffect) (touchCapturedAt : CapturedAt)
      (answers : Answers) (actor : Actor P) (opened : Bool) (answer : Except String Bool)
      (routed : Computer P D) (hactor : d.actors session = some actor)
      (hstage : actor.stage = .running) (hne : effects ≠ [])
      (hafter : activationAfter actor.opened effects = some opened)
      (hopens : opensActivation effects = true → opened = true)
      (hrouted : Routed answers actor.peer session effects
        (d.command actor.peer effects touchCapturedAt) d (answer, routed)) :
      Stepped d (.batch session effects touchCapturedAt answers)
        (answered session actor opened (answer, routed))
  | stop (session : SessionId) (opened : Bool) (actor : Actor P)
      (hactor : d.actors session = some actor) (hstage : actor.stage = .running) :
      Stepped d (.stop session opened) (d.setActor session { actor with stage := .stopped, opened })
  | cleanup (session : SessionId) (effects : List ReceiverEffect) (answers : Answers)
      (actor : Actor P) (answer : Except String Bool) (routed : Computer P D)
      (hactor : d.actors session = some actor) (hstage : actor.stage = .stopped)
      (hopened : actor.opened = true) (hsafety : effects.all isSafetyRelease = true)
      (hclosed : effects.any isActivationClosed = true)
      (hrouted : Routed answers actor.peer session effects (d.command actor.peer effects none) d
        (answer, routed)) :
      Stepped d (.cleanup session effects answers) (answered session actor false (answer, routed))
  | closed (session : SessionId) (actor : Actor P) (hactor : d.actors session = some actor)
      (hstage : actor.stage = .stopped) (hopened : actor.opened = false) :
      Stepped d (.closed session)
        ((d.closed actor.peer session).setActor session { actor with stage := .ended })
  | connect (session : SessionId) (record : PeerConfig) (generation : Nat)
      (now : MonotonicTimeMicros) (actor : Actor P) (hactor : d.actors session = some actor)
      (htask : actor.task = some .connecting) :
      Stepped d (.connect session record generation now)
        ((d.setActor session { actor with task := none }).connect actor.peer session record
          generation now)
  | accept (session : SessionId) (generation : Nat) (known closed : Bool)
      (now : MonotonicTimeMicros) (actor : Actor P) (hactor : d.actors session = some actor)
      (htask : actor.task = some .accepting) (hclosed : closed = true → actor.stage ≠ .running) :
      Stepped d (.accept session generation known closed now)
        (letGo session actor (d.accept actor.peer session generation known closed now))
  | retire (peer : P) : Stepped d (.retire peer) (d.retire peer)

theorem step_cases {label : Step P} {d after : Computer P D} (h : step label d = some after) :
    d.stopped = false ∧ Stepped d label after := by
  unfold step at h
  split at h
  · cases h
  rename_i hstopped
  refine ⟨Bool.eq_false_of_not_eq_true hstopped, ?_⟩
  cases label with
  | policy config generation seatGate =>
    cases h
    exact .policy config generation seatGate
  | start peer session task =>
    simp only at h
    split at h
    · rename_i hfresh
      cases h
      exact .start peer session task hfresh
    · cases h
  | batch session effects touchCapturedAt answers =>
    obtain ⟨actor, hactor, h⟩ := Option.bind_eq_some_iff.mp h
    obtain ⟨opened, hopened, h⟩ := Option.bind_eq_some_iff.mp h
    split at h
    · rename_i hguard
      cases h
      exact .batch session effects touchCapturedAt answers actor opened _ _ hactor hguard.1
        hguard.2.1 hopened hguard.2.2
        (routeReceiverEffects_routed answers actor.peer session effects touchCapturedAt d)
    · cases h
  | stop session opened =>
    obtain ⟨actor, hactor, h⟩ := Option.bind_eq_some_iff.mp h
    split at h
    · rename_i hstage
      cases h
      exact .stop session opened actor hactor hstage
    · cases h
  | cleanup session effects answers =>
    obtain ⟨actor, hactor, h⟩ := Option.bind_eq_some_iff.mp h
    split at h
    · rename_i hguard
      cases h
      exact .cleanup session effects answers actor _ _ hactor hguard.1 hguard.2.1 hguard.2.2.1
        hguard.2.2.2 (routeReceiverEffects_routed answers actor.peer session effects none d)
    · cases h
  | closed session =>
    obtain ⟨actor, hactor, h⟩ := Option.bind_eq_some_iff.mp h
    split at h
    · rename_i hguard
      cases h
      exact .closed session actor hactor hguard.1 (by simpa using hguard.2)
    · cases h
  | connect session record generation now =>
    obtain ⟨actor, hactor, h⟩ := Option.bind_eq_some_iff.mp h
    split at h
    · rename_i htask
      cases h
      exact .connect session record generation now actor hactor htask
    · cases h
  | accept session generation known closed now =>
    obtain ⟨actor, hactor, h⟩ := Option.bind_eq_some_iff.mp h
    split at h
    · rename_i hguard
      cases h
      exact .accept session generation known closed now actor hactor hguard.1 hguard.2.2
    · cases h
  | retire peer =>
    cases h
    exact .retire peer

/-! ## The registry -/

/-- What a step of the registry leaves alone. -/
structure Unmoved (d after : Computer P D) : Prop where
  owner : after.shared.inboundOwner = d.shared.inboundOwner
  receiving : after.receiving = d.receiving
  delivered : after.delivered = d.delivered
  stopped : after.stopped = d.stopped
  actors : ∀ session, Option.Rel Alike (d.actors session) (after.actors session)

omit [DecidableEq P] [VirtualInput D] in
theorem Same.unmoved {d after : Computer P D} (h : d.Same after) : Unmoved d after where
  owner := by rw [h.shared]
  receiving := h.receiving
  delivered := h.delivered
  stopped := h.stopped
  actors := h.actors

omit [DecidableEq P] [VirtualInput D] in
theorem Unmoved.trans {d mid after : Computer P D} (h : Unmoved d mid) (h' : Unmoved mid after) : Unmoved d after where
  owner := h'.owner.trans h.owner
  receiving := h'.receiving.trans h.receiving
  delivered := h'.delivered.trans h.delivered
  stopped := h'.stopped.trans h.stopped
  actors session := by
    have hfirst := h.actors session
    have hnext := h'.actors session
    cases ha : d.actors session <;> cases hb : mid.actors session <;>
      cases hc : after.actors session <;> rw [ha, hb] at hfirst <;> rw [hb, hc] at hnext <;>
      cases hfirst <;> cases hnext
    · exact .none
    · rename_i hab hbc
      exact .some ⟨hbc.peer.trans hab.peer, hbc.stage.trans hab.stage, hbc.opened.trans hab.opened⟩

omit [DecidableEq P] [VirtualInput D] in
/-- An actor that lets go of its task is alike. -/
theorem unmoved_setActor {session : SessionId} {a b : Actor P} {d : Computer P D}
    (ha : d.actors session = some a) (hlike : Alike a b) : Unmoved d (d.setActor session b) := by
  refine { owner := rfl, receiving := rfl, delivered := rfl, stopped := rfl, actors := ?_ }
  intro other
  show Option.Rel Alike (d.actors other) (Function.update d.actors session (some b) other)
  by_cases heq : other = session
  · rw [heq, Function.update_self, ha]
    exact .some hlike
  · rw [Function.update_of_ne heq]
    exact (Same.refl d).actors other

omit [VirtualInput D] in
theorem unmoved_connect (peer : P) (session : SessionId) (record : PeerConfig) (generation : Nat)
    (now : MonotonicTimeMicros) (d : Computer P D) : Unmoved d (d.connect peer session record generation now) := by
  have hregister : ∀ d : Computer P D, Unmoved d ((d.setSession peer (some session)).setDialed session (some now)) :=
    fun d => ⟨rfl, rfl, rfl, rfl, (Same.refl d).actors⟩
  unfold connect
  split
  · exact (same_closeHandle _ _ d).unmoved
  · exact (same_closeHandle _ _ d).unmoved
  · exact (same_closeHandle _ _ d).unmoved.trans (hregister _)
  · exact hregister d

omit [VirtualInput D] in
theorem unmoved_accept (peer : P) (session : SessionId) (generation : Nat) (known closed : Bool)
    (now : MonotonicTimeMicros) (d : Computer P D) :
    Unmoved d (d.accept peer session generation known closed now).2 := by
  unfold accept
  split
  · exact (same_closeHandle _ _ d).unmoved
  split
  · exact (Same.refl d).unmoved
  split
  · exact ⟨rfl, rfl, rfl, rfl, (Same.refl d).actors⟩
  split
  · exact (same_closeHandle _ _ d).unmoved
  · exact (same_closeHandle _ _ d).unmoved

omit [DecidableEq P] [VirtualInput D] in
theorem unmoved_letGo {session : SessionId} {actor : Actor P} {d : Computer P D}
    {round : Bool × Computer P D} (hactor : d.actors session = some actor)
    (h : Unmoved d round.2) : Unmoved d (letGo session actor round) := by
  obtain ⟨done, after⟩ := round
  cases done with
  | false => exact h
  | true =>
    have hrel := h.actors session
    rw [hactor] at hrel
    cases hafter : after.actors session with
    | none =>
      rw [show (true, after).2.actors session = after.actors session from rfl, hafter] at hrel
      cases hrel
    | some b =>
      apply h.trans
      unfold letGo
      simp only [hafter, Option.getD_some]
      exact unmoved_setActor hafter ⟨rfl, rfl, rfl⟩

omit [DecidableEq P] [VirtualInput D] in
theorem unmoved_retire (peer : P) (d : Computer P D) : Unmoved d (d.retire peer) := by
  unfold retire
  split
  · exact (same_closeHandle _ _ d).unmoved
  · exact (Same.refl d).unmoved

omit [VirtualInput D] in
theorem removeSessionIfCurrent_sessions (peer other : P) (session : SessionId) (d : Computer P D) :
    (d.removeSessionIfCurrent peer session).shared.sessions other =
      if other = peer ∧ d.shared.sessions other = some session then none
      else d.shared.sessions other := by
  unfold removeSessionIfCurrent
  by_cases heq : other = peer
  · subst heq
    by_cases hcurrent : d.shared.sessions other = some session
    · rw [if_pos hcurrent, if_pos ⟨rfl, hcurrent⟩]
      exact Function.update_self ..
    · rw [if_neg hcurrent, if_neg (not_and_of_not_right _ hcurrent)]
  · rw [if_neg (not_and_of_not_left _ heq)]
    split
    · exact Function.update_of_ne heq none d.shared.sessions
    · rfl

omit [VirtualInput D] in
/-- A `Closed` event changes the registry and the owner alone. -/
theorem closed_frame (peer : P) (session : SessionId) (d : Computer P D) :
    (d.closed peer session).actors = d.actors ∧ (d.closed peer session).delivered = d.delivered ∧
      (d.closed peer session).receiving = d.receiving ∧ (d.closed peer session).stopped = d.stopped := by
  have hyield := releaseInbound_yielded peer session ((d.removeSessionIfCurrent peer session).setDialed session none)
  have hremove : (d.removeSessionIfCurrent peer session).actors = d.actors ∧
      (d.removeSessionIfCurrent peer session).delivered = d.delivered ∧
      (d.removeSessionIfCurrent peer session).receiving = d.receiving ∧
      (d.removeSessionIfCurrent peer session).stopped = d.stopped := by
    unfold removeSessionIfCurrent
    split <;> exact ⟨rfl, rfl, rfl, rfl⟩
  exact ⟨hyield.actors.trans hremove.1, hyield.delivered.trans hremove.2.1,
    hyield.receiving.trans hremove.2.2.1, hyield.stopped.trans hremove.2.2.2⟩

omit [VirtualInput D] in
/-- A `Closed` event takes the input from its own session alone. -/
theorem closed_other {peer : P} {session : SessionId} {d : Computer P D} {owner : P × SessionId}
    (hother : owner ≠ (peer, session)) (howner : d.shared.inboundOwner = some owner) :
    (d.closed peer session).shared.inboundOwner = some owner := by
  apply releaseInbound_other hother
  show (d.removeSessionIfCurrent peer session).shared.inboundOwner = some owner
  unfold removeSessionIfCurrent
  split <;> exact howner

omit [DecidableEq P] [VirtualInput D] in
theorem closeHandle_sessions (session : SessionId) (reason : SessionCloseReason)
    (d : Computer P D) : (d.closeHandle session reason).shared.sessions = d.shared.sessions := by
  rw [(same_closeHandle session reason d).shared]

omit [VirtualInput D] in
/-- What `connect` makes of the registry. -/
theorem connect_sessions (peer : P) (session : SessionId) (record : PeerConfig) (generation : Nat)
    (now : MonotonicTimeMicros) (d : Computer P D) (other : P) :
    (d.connect peer session record generation now).shared.sessions other = d.shared.sessions other ∨
      (other = peer ∧ (d.connect peer session record generation now).shared.sessions other =
        some session ∧ (d.shared.sessions peer = none ∨
          ∃ existing, d.dialEnds peer record generation = .replaces existing ∧
            d.shared.sessions peer = some existing)) := by
  have hset : ∀ d' : Computer P D, d'.shared.sessions = d.shared.sessions →
      ((d'.setSession peer (some session)).setDialed session (some now)).shared.sessions other =
        d.shared.sessions other ∨
      (other = peer ∧ ((d'.setSession peer (some session)).setDialed session
        (some now)).shared.sessions other = some session) := by
    intro d' hsessions
    show Function.update d'.shared.sessions peer (some session) other = _ ∨
      other = peer ∧ Function.update d'.shared.sessions peer (some session) other = _
    by_cases heq : other = peer
    · rw [heq, Function.update_self]
      exact .inr ⟨rfl, rfl⟩
    · rw [Function.update_of_ne heq, hsessions]
      exact .inl rfl
  have hdial : d.dialEnds peer record generation = .registers → d.shared.sessions peer = none := by
    intro hends
    unfold dialEnds at hends
    split at hends
    · cases hends
    split at hends
    · assumption
    · split at hends <;> cases hends
  have hreplaces : ∀ existing, d.dialEnds peer record generation = .replaces existing →
      d.shared.sessions peer = some existing := by
    intro existing hends
    unfold dialEnds at hends
    split at hends
    · cases hends
    split at hends
    · cases hends
    · split at hends
      · cases hends
      · cases hends
        assumption
  unfold connect
  cases hends : d.dialEnds peer record generation with
  | revoked => exact .inl (by rw [closeHandle_sessions])
  | keeps existing => exact .inl (by rw [closeHandle_sessions])
  | replaces existing =>
    rcases hset (d.closeHandle existing .superseded) (closeHandle_sessions _ _ d) with hsame | hnew
    · exact .inl hsame
    · exact .inr ⟨hnew.1, hnew.2, .inr ⟨existing, rfl, hreplaces existing hends⟩⟩
  | registers =>
    rcases hset d rfl with hsame | hnew
    · exact .inl hsame
    · exact .inr ⟨hnew.1, hnew.2, .inl (hdial hends)⟩

omit [VirtualInput D] in
/-- An accepted connection registers only where no session is. -/
theorem accept_sessions (peer : P) (session : SessionId) (generation : Nat) (known closed : Bool)
    (now : MonotonicTimeMicros) (d : Computer P D) (other : P) :
    (d.accept peer session generation known closed now).2.shared.sessions other = d.shared.sessions other ∨
      (other = peer ∧ d.shared.sessions peer = none ∧
        (d.accept peer session generation known closed now).2.shared.sessions other = some session) := by
  unfold accept
  split
  · exact .inl (by rw [closeHandle_sessions])
  split
  · exact .inl rfl
  split
  · rename_i hnone
    show Function.update d.shared.sessions peer (some session) other = _ ∨
      other = peer ∧ _ ∧ Function.update d.shared.sessions peer (some session) other = _
    by_cases heq : other = peer
    · rw [heq, Function.update_self]
      exact .inr ⟨rfl, hnone, rfl⟩
    · rw [Function.update_of_ne heq]
      exact .inl rfl
  · split <;> exact .inl (by rw [closeHandle_sessions])

omit [DecidableEq P] [VirtualInput D] in
theorem letGo_sessions (session : SessionId) (actor : Actor P) (round : Bool × Computer P D) :
    (letGo session actor round).shared.sessions = round.2.shared.sessions := by
  obtain ⟨done, after⟩ := round
  cases done <;> rfl

omit [VirtualInput D] in
theorem closed_sessions (peer other : P) (session : SessionId) (d : Computer P D) :
    (d.closed peer session).shared.sessions other =
      if other = peer ∧ d.shared.sessions other = some session then none
      else d.shared.sessions other := by
  unfold closed
  rw [(releaseInbound_yielded _ _ _).sessions]
  exact removeSessionIfCurrent_sessions peer other session d

omit [DecidableEq P] [VirtualInput D] in
theorem retire_sessions (peer : P) (d : Computer P D) : (d.retire peer).shared.sessions = d.shared.sessions := by
  unfold retire
  split
  · rw [(same_closeHandle _ _ d).shared]
  · rfl

/-! ## Two peers -/

def firstPeer : Fin 2 := ⟨0, Nat.two_pos⟩

def secondPeer : Fin 2 := ⟨1, Nat.one_lt_two⟩

/-- Nothing is in the way of a batch. -/
def granted : Answers := ⟨true, .idle, .queued, true⟩

end Computer

end Zflow.Daemon
