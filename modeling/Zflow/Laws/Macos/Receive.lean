import Zflow.Laws.Macos.Ownership
import Zflow.Macos.Receive

/-!
# The claim holder of this Mac, undisturbed

While a session holds the claim on this Mac, what the injector is given is that session's own, and it
was told to let go of the session before. What carries it is `Sound`: a session that has a claim holds
this Mac, and so does one whose input was queued since the last release.

A session without a claim still gets its releases through, the activation close of a refused activation
among them, and the injector answers that by letting go of everything (`outsider_releases`). So the law
holds of the runs in which no such batch comes while another session holds the claim.
-/

namespace Zflow.Macos

open Zflow.Core Lib
open Daemon (SessionId isSafetyRelease opensActivation endsClosed reverseScrolling)

variable {P I : Type} [DecidableEq P]

/-! ## What was queued -/

/-- The sender holds the claim. -/
def Sent.own (entry : Sent P) : Prop := entry.claimant = some (entry.peer, entry.session)

instance (entry : Sent P) : Decidable entry.own := inferInstanceAs (Decidable (_ = _))

/-- The session whose input was queued last while it held the claim, until it is let go. -/
def Happened.presses (owner : Option (P × SessionId)) : Happened P → Option (P × SessionId)
  | .sent entry =>
    if entry.own then
      match entry.command with
      | .apply .. => some (entry.peer, entry.session)
      | .releaseAll => none
    else owner
  | .closed peer session => if owner = some (peer, session) then none else owner

def pressing (history : List (Happened P)) : Option (P × SessionId) :=
  history.foldl Happened.presses none

/-- **A claim ends with a release**: where a claim holder's input is queued, the holder before it was let
go, by a release of everything or by an activation close that was applied. -/
def Handed (history : List (Happened P)) : Prop :=
  ∀ before entry, before ++ [.sent entry] <+: history → entry.own →
    ∀ owner, pressing before = some owner → owner = (entry.peer, entry.session)

/-- What the injector ignores. -/
def ignored : ReceiverEffect → Bool
  | .snapshotAck .. | .rejected .. => true
  | _ => false

/-- What leaves the injector as it was. -/
def InjectCommand.inert : InjectCommand → Bool
  | .apply effects keyboard => keyboard.isNone && effects.all ignored
  | .releaseAll => false

def sends (history : List (Happened P)) : List (Sent P) :=
  history.filterMap fun happened => match happened with
    | .sent entry => some entry
    | .closed .. => none

@[simp]
theorem pressing_concat (history : List (Happened P)) (happened : Happened P) :
    pressing (history ++ [happened]) = happened.presses (pressing history) := by
  unfold pressing
  rw [List.foldl_append]
  rfl

omit [DecidableEq P] in
@[simp]
theorem sends_sent (history : List (Happened P)) (entry : Sent P) :
    sends (history ++ [.sent entry]) = sends history ++ [entry] := by
  unfold sends
  rw [List.filterMap_append]
  rfl

omit [DecidableEq P] in
@[simp]
theorem sends_closed (history : List (Happened P)) (peer : P) (session : SessionId) :
    sends (history ++ [.closed peer session]) = sends history := by
  unfold sends
  rw [List.filterMap_append]
  exact List.append_nil _

theorem handed_nil : Handed ([] : List (Happened P)) := by
  intro before entry hprefix
  exact absurd (List.prefix_nil.mp hprefix) (List.append_ne_nil_of_right_ne_nil _ nofun)

theorem Handed.sent {history : List (Happened P)} (h : Handed history) {entry : Sent P}
    (hentry : entry.own → ∀ owner, pressing history = some owner →
      owner = (entry.peer, entry.session)) : Handed (history ++ [.sent entry]) := by
  intro before later hprefix hown
  rcases List.prefix_concat_iff.mp hprefix with heq | hbefore
  · obtain ⟨rfl, hlast⟩ := List.append_inj' heq rfl
    cases hlast
    exact hentry hown
  · exact h before later hbefore hown

theorem Handed.closed {history : List (Happened P)} (h : Handed history) (peer : P)
    (session : SessionId) : Handed (history ++ [.closed peer session]) := by
  intro before later hprefix hown
  rcases List.prefix_concat_iff.mp hprefix with heq | hbefore
  · exact nomatch (List.append_inj' heq rfl).2
  · exact h before later hbefore hown

/-- The injector after the commands it took. -/
def replay [MacInput I] (core : InjectorCore I) (done : List (Sent P × MonotonicTimeMicros)) :
    InjectorCore I :=
  done.foldl (fun core taken => (core.run taken.1.command taken.2).2) core

/-- **The claim holder is undisturbed.** -/
structure Undisturbed [MacInput I] (start : InjectorCore I) (m : Mac P I) : Prop where
  /-- A session that has a claim holds this Mac, with its newest claim. -/
  holds : ∀ session inbound claim, m.inbounds session = some inbound → inbound.claim = some claim →
    m.guarded.ownership.inbound = some (inbound.peer, session, claim)
  handed : Handed m.history
  /-- What is queued while a session holds the claim is its own, or changes nothing. -/
  own : ∀ entry ∈ sends m.history, ∀ owner, entry.claimant = some owner →
    owner = (entry.peer, entry.session) ∨ entry.command.inert = true
  /-- The injector takes everything, in order. -/
  queue : sends m.history = m.done.map Prod.fst ++ m.queue
  core : m.core = replay start m.done

/-! ## What each part keeps -/

variable [MacInput I]

/-- **The invariant.** Only a session that has a claim presses anything. -/
structure Sound (start : InjectorCore I) (m : Mac P I) : Prop extends Undisturbed start m where
  guarded : Guarded.Reaches .default m.guarded
  dropped : ∀ session inbound, m.inbounds session = some inbound → inbound.dropped = true →
    inbound.claim = none
  presses : ∀ owner, pressing m.history = some owner → m.guarded.ownership.claimant = some owner

variable {start : InjectorCore I} {m : Mac P I} {session : SessionId} {inbound : Inbound P}

theorem Sound.exclusive (h : Sound start m) : Exclusive m.guarded := exclusive_default.reaches h.guarded

omit [DecidableEq P] [MacInput I] in
theorem setInbound_self (m : Mac P I) (session : SessionId) (inbound : Inbound P) :
    (m.setInbound session inbound).inbounds session = some inbound := Function.update_self ..

omit [DecidableEq P] [MacInput I] in
theorem setInbound_ne (m : Mac P I) {session other : SessionId} (inbound : Inbound P)
    (h : other ≠ session) : (m.setInbound session inbound).inbounds other = m.inbounds other :=
  Function.update_of_ne h ..

/-- The record of a session may change, but for its claim. -/
theorem Sound.setInbound (h : Sound start (m.setInbound session inbound)) (other : Inbound P)
    (hpeer : other.peer = inbound.peer) (hclaim : other.claim = inbound.claim)
    (hdropped : other.dropped = true → other.claim = none) :
    Sound start (m.setInbound session other) where
  holds other' inbound' claim hinbound hclaim' := by
    by_cases heq : other' = session
    · subst heq
      rw [setInbound_self] at hinbound
      cases hinbound
      have hholds := h.holds other' inbound claim (setInbound_self ..) (hclaim ▸ hclaim')
      rw [hpeer]
      exact hholds
    · rw [setInbound_ne _ _ heq] at hinbound
      exact h.holds other' inbound' claim ((setInbound_ne _ _ heq).trans hinbound) hclaim'
  handed := h.handed
  own := h.own
  queue := h.queue
  core := h.core
  guarded := h.guarded
  dropped other' inbound' hinbound hdropped' := by
    by_cases heq : other' = session
    · subst heq
      rw [setInbound_self] at hinbound
      cases hinbound
      exact hdropped hdropped'
    · rw [setInbound_ne _ _ heq] at hinbound
      exact h.dropped other' inbound' ((setInbound_ne _ _ heq).trans hinbound) hdropped'
  presses := h.presses

/-- A session's record as it is. -/
theorem Sound.set (h : Sound start m) (hinbound : m.inbounds session = some inbound) :
    Sound start (m.setInbound session inbound) := by
  have hself : m.setInbound session inbound = m := by
    show Mac.mk _ (Function.update m.inbounds session (some inbound)) _ _ _ _ = m
    rw [← hinbound, Function.update_eq_self]
  rw [hself]
  exact h

/-- Where a session with a claim stands. -/
theorem Sound.claimant (h : Sound start (m.setInbound session inbound)) {claim : Nat}
    (hclaim : inbound.claim = some claim) : m.guarded.ownership.inbound = some (inbound.peer, session, claim) :=
  h.holds session inbound claim (setInbound_self ..) hclaim

theorem Sound.holder (h : Sound start (m.setInbound session inbound)) {claim : Nat}
    (hclaim : inbound.claim = some claim) : m.guarded.ownership.claimant = some (inbound.peer, session) :=
  Ownership.claimant_of_inbound (h.claimant hclaim)

/-- A session lets go of its claim, once nothing of it is pressed any more. -/
theorem Sound.letGo {claim : Nat} (h : Sound start (m.setInbound session inbound))
    (hclaim : inbound.claim = some claim) (hpressing : pressing m.history = none) :
    Sound start ((m.drop (.claim claim)).setInbound session { inbound with claim := none }) where
  holds other inbound' claim' hinbound hclaim' := by
    by_cases heq : other = session
    · subst heq
      rw [setInbound_self] at hinbound
      cases hinbound
      cases hclaim'
    · rw [setInbound_ne _ _ heq] at hinbound
      have hholds := h.holds other inbound' claim' ((setInbound_ne _ _ heq).trans hinbound) hclaim'
      have hmine := h.claimant hclaim
      have hsame := Prod.mk.inj (Option.some.inj (hholds.symm.trans hmine))
      exact absurd (Prod.mk.inj hsame.2).1 heq
  handed := h.handed
  own := h.own
  queue := h.queue
  core := h.core
  guarded := by
    have hmem : Guard.claim claim ∈ m.guarded.guards :=
      h.exclusive.newest (inbound.peer, session) claim (h.claimant hclaim)
    exact .step (.drop (.claim claim)) h.guarded trivial (if_pos hmem)
  dropped other inbound' hinbound hdropped := by
    by_cases heq : other = session
    · subst heq
      rw [setInbound_self] at hinbound
      cases hinbound
      rfl
    · rw [setInbound_ne _ _ heq] at hinbound
      exact h.dropped other inbound' ((setInbound_ne _ _ heq).trans hinbound) hdropped
  presses owner howner := nomatch hpressing.symm.trans howner

/-- **A command is queued** by the session that holds the claim, or is ignored, or no one holds it. -/
theorem Sound.send (h : Sound start (m.setInbound session inbound)) (command : InjectCommand)
    (hown : ∀ owner, m.guarded.ownership.claimant = some owner →
      owner = (inbound.peer, session) ∨ command.inert = true) :
    Sound start ((m.send inbound.peer session command).setInbound session inbound) where
  holds := h.holds
  handed := by
    apply h.handed.sent
    intro hsent owner howner
    exact Option.some.inj ((h.presses owner howner).symm.trans hsent)
  own entry hmem owner howner := by
    have hmem : entry ∈ sends (m.history ++ [.sent ⟨inbound.peer, session, _, command⟩]) := hmem
    rw [sends_sent] at hmem
    rcases List.mem_append.mp hmem with hbefore | hlast
    · exact h.own entry hbefore owner howner
    · rw [List.mem_singleton.mp hlast] at howner ⊢
      exact hown owner howner
  queue := by
    show sends (m.history ++ [.sent ⟨inbound.peer, session, _, command⟩]) = _ ++ (m.queue ++ [_])
    rw [sends_sent, ← List.append_assoc]
    exact congrArg (· ++ [_]) h.queue
  core := h.core
  guarded := h.guarded
  dropped := h.dropped
  presses owner howner := by
    have howner : pressing (m.history ++ [.sent ⟨inbound.peer, session, _, command⟩]) = some owner :=
      howner
    rw [pressing_concat, Happened.presses] at howner
    split at howner
    · rename_i hsent
      cases command with
      | apply _ _ =>
        cases howner
        exact hsent
      | releaseAll => cases howner
    · exact h.presses owner howner

/-- **Letting go sends the release first.** -/
theorem Sound.release (h : Sound start (m.setInbound session inbound)) : Sound start (m.release session inbound) := by
  unfold Mac.release
  cases hclaim : inbound.claim with
  | none => exact h
  | some claim =>
    have hsent := h.send .releaseAll fun owner howner =>
      .inl (Option.some.inj (howner.symm.trans (h.holder hclaim)))
    apply hsent.letGo hclaim
    show pressing (m.history ++ [.sent ⟨inbound.peer, session, _, .releaseAll⟩]) = none
    rw [pressing_concat]
    exact if_pos (h.holder hclaim)

/-- An activation close that was applied has let go of everything. -/
theorem Sound.yield (h : Sound start (m.setInbound session inbound)) : Sound start (m.yield session inbound) := by
  unfold Mac.yield
  cases hclaim : inbound.claim with
  | none => exact h
  | some claim =>
    have hnone : pressing (m.history ++ [.closed inbound.peer session]) = none := by
      rw [pressing_concat, Happened.presses]
      cases howner : pressing m.history with
      | none => exact ite_self _
      | some owner =>
        have hsame := (h.presses owner howner).symm.trans (h.holder hclaim)
        rw [if_pos hsame]
    have hclosed : Sound start (Mac.setInbound session inbound
        { m with history := m.history ++ [.closed inbound.peer session] }) :=
      { h with
        handed := h.handed.closed inbound.peer session
        own := by
          intro entry hmem
          exact h.own entry ((sends_closed ..).symm ▸ hmem)
        queue := (sends_closed ..).trans h.queue
        presses := fun owner howner => nomatch hnone.symm.trans howner }
    exact hclosed.letGo hclaim hnone

/-- The end of a batch. -/
theorem Sound.finish (h : Sound start (m.setInbound session inbound)) (refused closes : Bool)
    (applied : Except String Unit) : Sound start (m.finish session inbound refused closes applied).2 := by
  unfold Mac.finish
  dsimp only
  split
  · exact h.release
  split
  · exact h.yield
  · exact h

omit [DecidableEq P] [MacInput I] in
theorem ignored_turn {effects : List ReceiverEffect} (h : effects.all ignored = true)
    (admitted : Admitted) : (admitted.turn effects).all ignored = true := by
  unfold Admitted.turn
  split
  · unfold reverseScrolling
    rw [List.all_map]
    apply List.all_eq_true.mpr
    intro effect hmem
    have hignored := List.all_eq_true.mp h effect hmem
    cases effect <;> first | rfl | cases hignored
  · exact h

/-- **A batch is queued** by a session that holds the claim, or as what changes nothing for the one that
does. -/
theorem Sound.deliver (h : Sound start (m.setInbound session inbound)) (effects : List ReceiverEffect)
    (admitted : Admitted) (hown : inbound.claim = none → m.guarded.ownership.claimant.isSome = true →
      opensActivation effects = false ∧ (admittedEffects effects admitted.admission).1.all ignored = true) :
    Sound start (m.deliver session inbound effects admitted).2 := by
  unfold Mac.deliver
  dsimp only
  split
  · exact h.finish _ _ _
  · have hsent := h.send (.apply (admitted.turn (admittedEffects effects admitted.admission).1)
      (if opensActivation effects then some admitted.keyboard else none)) ?_
    · exact hsent.setInbound { inbound with waiting := some ⟨_, _, none⟩ } rfl rfl
        (h.dropped session inbound (setInbound_self ..))
    · intro owner howner
      cases hclaim : inbound.claim with
      | some claim => exact .inl (Option.some.inj (howner.symm.trans (h.holder hclaim)))
      | none =>
        obtain ⟨hopens, hignored⟩ := hown hclaim (by rw [howner]; rfl)
        right
        rw [hopens]
        exact ignored_turn hignored admitted

/-- A claim that is granted is the newest; the older one of its session is dropped. -/
theorem Sound.granted {claim : Nat} {ownership : Ownership P} (h : Sound start (m.setInbound session inbound))
    (hclaimed : m.guarded.ownership.claimInbound inbound.peer session = .ok (claim, ownership))
    (hlive : inbound.dropped = false) :
    Sound start (Mac.setInbound session { inbound with claim := some claim }
      (match inbound.claim with
        | some older => Mac.drop (.claim older)
          { m with guarded := m.guarded.claimInbound inbound.peer session }
        | none => { m with guarded := m.guarded.claimInbound inbound.peer session })) := by
  obtain ⟨hcheck, hclaim, hafter⟩ := Ownership.claimInbound_eq_ok hclaimed
  obtain ⟨-, hmine, -⟩ := Ownership.check_eq_ok hcheck
  have hguarded : m.guarded.claimInbound inbound.peer session = ⟨ownership, .claim claim :: m.guarded.guards⟩ := by
    unfold Guarded.claimInbound
    rw [hclaimed]
  have hreach : Guarded.Reaches .default (m.guarded.claimInbound inbound.peer session) :=
    .step (.claimInbound inbound.peer session) h.guarded trivial rfl
  have hinbound : (m.guarded.claimInbound inbound.peer session).ownership.inbound =
      some (inbound.peer, session, claim) := by
    rw [hguarded, hafter]
  have hfirst : Sound start (Mac.setInbound session { inbound with claim := some claim }
      { m with guarded := m.guarded.claimInbound inbound.peer session }) :=
    { h with
      holds := by
        intro other inbound' claim' hother hclaim'
        by_cases heq : other = session
        · subst heq
          rw [setInbound_self] at hother
          cases hother
          cases hclaim'
          exact hinbound
        · rw [setInbound_ne _ _ heq] at hother
          have hholds := h.holds other inbound' claim' ((setInbound_ne _ _ heq).trans hother) hclaim'
          have hclaimant := hmine _ (Ownership.claimant_of_inbound hholds)
          exact absurd (Prod.mk.inj hclaimant).2 heq
      guarded := hreach
      dropped := by
        intro other inbound' hother hdropped
        by_cases heq : other = session
        · subst heq
          rw [setInbound_self] at hother
          cases hother
          exact nomatch hdropped.symm.trans hlive
        · rw [setInbound_ne _ _ heq] at hother
          exact h.dropped other inbound' ((setInbound_ne _ _ heq).trans hother) hdropped
      presses := by
        intro owner howner
        have hsame := hmine owner (h.presses owner howner)
        rw [hsame]
        exact Ownership.claimant_of_inbound hinbound }
  cases holder : inbound.claim with
  | none => exact hfirst
  | some older =>
    have hmem : Guard.claim older ∈ m.guarded.guards :=
      h.exclusive.newest (inbound.peer, session) older (h.claimant holder)
    have hne : older ≠ claim := by
      have hle := h.exclusive.counted older hmem
      have hle : older ≤ m.guarded.ownership.claims := hle
      omega
    have hkept : ((m.guarded.claimInbound inbound.peer session).drop (.claim older)).ownership =
        (m.guarded.claimInbound inbound.peer session).ownership :=
      Guarded.drop_older (inbound.peer, session) hinbound hne
    have hthere : Guard.claim older ∈ (m.guarded.claimInbound inbound.peer session).guards := by
      rw [hguarded]
      exact List.mem_cons_of_mem _ hmem
    exact { hfirst with
      holds := fun other inbound' claim' hother hclaim' =>
        (congrArg Ownership.inbound hkept).trans (hfirst.holds other inbound' claim' hother hclaim')
      guarded := .step (.drop (.claim older)) hreach trivial (if_pos hthere)
      presses := fun owner howner =>
        (congrArg Ownership.claimant hkept).trans (hfirst.presses owner howner) }

/-- **A claim is the newest**, and its session holds this Mac. -/
theorem Sound.claim (h : Sound start (m.setInbound session inbound)) (again : Admission)
    (hlive : inbound.dropped = false) :
    match m.claim session inbound again with
    | (.ok claimed, after) => Sound start (after.setInbound session claimed) ∧ claimed.claim.isSome = true
    | (.error _, after) => Sound start after := by
  unfold Mac.claim
  cases hclaimed : m.guarded.ownership.claimInbound inbound.peer session with
  | error reason => exact h.release
  | ok granted =>
    obtain ⟨claim, ownership⟩ := granted
    have hgranted := h.granted hclaimed hlive
    dsimp only
    by_cases hagain : again = .refuse
    · rw [if_pos hagain]
      exact hgranted.release
    · rw [if_neg hagain]
      exact ⟨hgranted, rfl⟩

/-- A batch of a session without a claim holds no release while another session has the claim. -/
def NoStray (session : SessionId) (effects : List ReceiverEffect) (m : Mac P I) : Prop :=
  opensActivation effects = false → effects.any isSafetyRelease = true →
    (m.inbounds session).all (·.claim.isNone) = true → m.guarded.ownership.claimant.isNone = true

instance (session : SessionId) (effects : List ReceiverEffect) (m : Mac P I) :
    Decidable (NoStray session effects m) := by
  unfold NoStray
  infer_instance

omit [DecidableEq P] [MacInput I] in
/-- What is admitted of a batch that opens nothing and releases nothing is ignored. -/
theorem ignored_of_refused {effects : List ReceiverEffect} (hopens : opensActivation effects = false)
    (hsafe : effects.any isSafetyRelease = false) : (admittedEffects effects .refuse).1.all ignored = true := by
  apply List.all_eq_true.mpr
  intro effect hmem
  obtain ⟨hmem, hlets⟩ := List.mem_filter.mp hmem
  have hopen := List.any_eq_false.mp hopens effect hmem
  have hsafe := List.any_eq_false.mp hsafe effect hmem
  cases effect <;> simp_all [Admission.lets, ReceiverEffect.isInjection, ignored, isSafetyRelease]

/-- **A batch**, where a stray one brings no release. -/
theorem Sound.effects (h : Sound start m) (hinbound : m.inbounds session = some inbound)
    (hlive : inbound.dropped = false) (effects : List ReceiverEffect) (admitted : Admitted)
    (again : Admission) (hcalm : NoStray session effects m) :
    Sound start (m.effects session inbound effects admitted again).2 := by
  have hset := h.set hinbound
  unfold Mac.effects
  by_cases hopens : opensActivation effects = true
  · rw [if_pos hopens]
    split
    · exact hset.release
    · have hclaim := hset.claim again hlive
      cases hclaimed : m.claim session inbound again with
      | mk result after =>
        rw [hclaimed] at hclaim
        cases result with
        | error reason => exact hclaim
        | ok claimed =>
          obtain ⟨hsound, hclaim⟩ := hclaim
          apply hsound.deliver
          intro hnone
          rw [hnone] at hclaim
          cases hclaim
  · rw [if_neg hopens]
    apply hset.deliver
    intro hnone hclaimant
    have hquiet : opensActivation effects = false := by simpa using hopens
    refine ⟨hquiet, ?_⟩
    rw [hnone]
    apply ignored_of_refused hquiet
    by_contra hsafe
    have hfree := hcalm hquiet (by simpa using hsafe) (by rw [hinbound]; simp [hnone])
    rw [Option.isNone_iff_eq_none.mp hfree] at hclaimant
    cases hclaimant

/-- An answer changes nothing but the record that waits for it. -/
theorem Sound.answer (h : Sound start m) (entry : Sent P) (result : Except String Unit) :
    Sound start (m.answer entry result) := by
  unfold Mac.answer
  cases entry.command with
  | releaseAll => exact h
  | apply effects keyboard =>
    cases hinbound : m.inbounds entry.session with
    | none => exact h
    | some inbound => exact (h.set hinbound).setInbound _ rfl rfl (h.dropped _ inbound hinbound)

/-- The injector takes its next command. -/
theorem Sound.inject {now : MonotonicTimeMicros} {after : Mac P I} (h : Sound start m)
    (hinject : m.inject now = some after) : Sound start after := by
  unfold Mac.inject at hinject
  cases hqueue : m.queue with
  | nil =>
    rw [hqueue] at hinject
    cases hinject
  | cons entry rest =>
    rw [hqueue] at hinject
    have htaken : Sound start { m with
        queue := rest
        core := (m.core.run entry.command now).2
        done := m.done ++ [(entry, now)] } :=
      { h with
        queue := by
          rw [h.queue, hqueue, List.map_append, List.append_assoc]
          rfl
        core := by
          show _ = List.foldl _ _ (m.done ++ [_])
          rw [List.foldl_append, h.core]
          rfl }
    exact Option.some.inj hinject ▸ htaken.answer entry _

/-- A session whose `Inbound` is dropped lets go. -/
theorem Sound.dropInbound (h : Sound start m) (hinbound : m.inbounds session = some inbound) :
    Sound start (m.release session { inbound with dropped := true }) := by
  have hrelease := (h.set hinbound).release
  unfold Mac.release at hrelease ⊢
  cases hclaim : inbound.claim with
  | none =>
    have hset := (h.set hinbound).setInbound { inbound with dropped := true } rfl rfl fun _ => hclaim
    rw [hclaim] at hset
    exact hset
  | some claim =>
    rw [hclaim] at hrelease
    exact Sound.setInbound hrelease { inbound with claim := none, dropped := true } rfl rfl fun _ => rfl

/-- A session that has just begun has no claim. -/
theorem Sound.begin (h : Sound start m) (peer : P) (session : SessionId) :
    Sound start (m.setInbound session ⟨peer, none, none, false⟩) :=
  { h with
    holds := by
      intro other inbound claim hinbound hclaim
      by_cases heq : other = session
      · subst heq
        rw [setInbound_self] at hinbound
        cases hinbound
        cases hclaim
      · rw [setInbound_ne _ _ heq] at hinbound
        exact h.holds other inbound claim hinbound hclaim
    dropped := by
      intro other inbound hinbound hdropped
      by_cases heq : other = session
      · subst heq
        rw [setInbound_self] at hinbound
        cases hinbound
        rfl
      · rw [setInbound_ne _ _ heq] at hinbound
        exact h.dropped other inbound hinbound hdropped }

/-- A crossing or a handoff beside the sessions leaves their claims alone. -/
theorem Sound.beside (h : Sound start m) (label : GuardStep P) {after : Guarded P}
    (hstep : Guarded.step label m.guarded = some after)
    (hinbound : after.ownership.inbound = m.guarded.ownership.inbound) :
    Sound start { m with guarded := after } :=
  { h with
    holds := fun session inbound claim hsession hclaim =>
      hinbound.trans (h.holds session inbound claim hsession hclaim)
    guarded := .step label h.guarded trivial hstep
    presses := fun owner howner => by
      have hclaimant : after.ownership.claimant = m.guarded.ownership.claimant := by
        unfold Ownership.claimant
        rw [hinbound]
      exact hclaimant.trans (h.presses owner howner) }

omit [MacInput I] in
theorem inbound_beginOutbound (g : Guarded P) :
    g.beginOutbound.ownership.inbound = g.ownership.inbound := by
  unfold Guarded.beginOutbound Ownership.beginOutbound
  split
  · rename_i ownership hbegun
    split at hbegun
    · cases hbegun
    · cases hbegun
      rfl
  · rfl

omit [MacInput I] in
theorem inbound_beginLease (g : Guarded P) (peer : P) (session : SessionId) :
    (g.beginLease peer session).ownership.inbound = g.ownership.inbound := by
  unfold Guarded.beginLease
  cases hleased : g.ownership.beginLease peer session with
  | error reason => rfl
  | ok ownership =>
    obtain ⟨-, -, hafter⟩ := Ownership.beginLease_eq_ok hleased
    rw [hafter]

/-- The steps the law is about: no stray release beside another session's claim. -/
def NoStrayRelease (m : Mac P I) : Step P → Prop
  | .effects session effects _ _ => NoStray session effects m
  | _ => True

instance (m : Mac P I) (label : Step P) : Decidable (NoStrayRelease m label) := by
  cases label <;> unfold NoStrayRelease <;> infer_instance

/-- **Every step keeps the invariant**, where no stray release comes. -/
theorem Sound.step {label : Step P} {after : Mac P I} (h : Sound start m)
    (hcalm : NoStrayRelease m label) (hstep : Mac.step label m = some after) : Sound start after := by
  cases label with
  | beginOutbound =>
    cases hstep
    exact h.beside .beginOutbound rfl (inbound_beginOutbound _)
  | beginLease peer session =>
    cases hstep
    exact h.beside (.beginLease peer session) rfl (inbound_beginLease _ _ _)
  | drop guard =>
    cases guard with
    | claim _ => cases hstep
    | outbound =>
      have hstep : (if _ then some (m.drop .outbound) else none) = some after := hstep
      split at hstep
      · rename_i hmem
        cases hstep
        exact h.beside (.drop .outbound) (if_pos hmem) rfl
      · cases hstep
    | lease =>
      have hstep : (if _ then some (m.drop .lease) else none) = some after := hstep
      split at hstep
      · rename_i hmem
        cases hstep
        exact h.beside (.drop .lease) (if_pos hmem) rfl
      · cases hstep
  | inbound peer session =>
    have hstep : (if _ then some (m.setInbound session ⟨peer, none, none, false⟩) else none) =
      some after := hstep
    split at hstep
    · cases hstep
      exact h.begin peer session
    · cases hstep
  | effects session effects admitted again =>
    obtain ⟨inbound, hinbound, hrest⟩ := Option.bind_eq_some_iff.mp hstep
    split at hrest
    · rename_i hready
      obtain ⟨hlive, -⟩ := Bool.and_eq_true_iff.mp hready
      exact Option.some.inj hrest ▸ h.effects hinbound (by simpa using hlive) effects admitted again hcalm
    · cases hrest
  | inject now => exact h.inject hstep
  | resume session =>
    obtain ⟨inbound, hinbound, hrest⟩ := Option.bind_eq_some_iff.mp hstep
    obtain ⟨waiting, hwaiting, hrest⟩ := Option.bind_eq_some_iff.mp hrest
    obtain ⟨answer, hanswer, hrest⟩ := Option.bind_eq_some_iff.mp hrest
    split at hrest
    · have hset := (h.set hinbound).setInbound { inbound with waiting := none } rfl rfl
        (h.dropped _ inbound hinbound)
      exact Option.some.inj hrest ▸ hset.finish _ _ _
    · cases hrest
  | dropInbound session =>
    obtain ⟨inbound, hinbound, hrest⟩ := Option.bind_eq_some_iff.mp hstep
    split at hrest
    · exact Option.some.inj hrest ▸ h.dropInbound hinbound
    · cases hrest

/-- **The claim holder of this Mac is undisturbed.** However calls and drops of its guards interleave,
the ownership of this Mac's input is exclusive. However its sessions' batches, answers and drops
interleave with them, as long as no session without a claim brings a release while another one has the
claim: whatever a claim holder has down is let go before another's input is queued, and what is queued
beside a claim is its holder's own. -/
theorem claim_undisturbed (start : InjectorCore I) : (∀ g : Guarded P, Guarded.Reaches .default g → Exclusive g ∧
      ∀ (owner : P × SessionId) newest, g.ownership.inbound = some (owner.1, owner.2, newest) →
        ∀ claim, claim ≠ newest → (g.drop (.claim claim)).ownership = g.ownership) ∧
      ∀ m : Mac P I, System.Reaches Mac.step NoStrayRelease (Mac.start start) m →
        Exclusive m.guarded ∧ Undisturbed start m := by
  refine ⟨fun g hreach => ⟨exclusive_default.reaches hreach, ?_⟩, fun m hreach => ?_⟩
  · intro owner newest hinbound claim hne
    exact Guarded.drop_older owner hinbound hne
  have hsound : Sound start m := by
    apply hreach.invariant
    · exact
        { holds := fun _ _ _ hinbound => nomatch hinbound
          handed := handed_nil
          own := fun _ hmem => nomatch hmem
          queue := rfl
          core := rfl
          guarded := .start
          dropped := fun _ _ hinbound => nomatch hinbound
          presses := fun _ howner => nomatch howner }
    · exact fun s label t hs hcalm hstep => hs.step hcalm hstep
  exact ⟨hsound.exclusive, hsound.toUndisturbed⟩

/-! ## Two peers -/

def firstPeer : Fin 2 := ⟨0, Nat.two_pos⟩

def secondPeer : Fin 2 := ⟨1, Nat.one_lt_two⟩

def allowed : Admitted := ⟨.inject, .standard, false⟩

def activation (id : ActivationId) : SessionContext := ⟨1, 1, id⟩

/-- Session 10 of peer 0 opens an activation and holds a key; session 20 of peer 1 would open one. Both
batches are applied at once. -/
def rivalCalls : List (Step (Fin 2)) :=
  [.inbound firstPeer 10, .inbound secondPeer 20,
    .effects 10 [.activationOpened (activation 1), .key (HidUsage.keyboard 4) true false] allowed .inject,
    .inject 0, .resume 10,
    .effects 20 [.activationOpened (activation 2)] allowed .inject]

/-- The release batch of a session that was refused. -/
def strayCalls : List (Step (Fin 2)) :=
  rivalCalls ++ [.effects 20 [.activationClosed (activation 2) .leaseExpired] allowed .inject, .inject 1]

/-- A Mac before anything is down. -/
def quietMac : Mac (Fin 2) PlainMac := .start ⟨.atRest, .standard⟩

/-- **A stranger's release reaches the claim holder's keys**: session 10 still has the claim, and its key
is up again. -/
theorem outsider_releases : ∃ m : Mac (Fin 2) PlainMac, System.exec Mac.step strayCalls quietMac = some m ∧
      m.guarded.ownership.claimant = some (0, 10) ∧ m.core.input = .atRest ∧
      ¬ Undisturbed ⟨.atRest, .standard⟩ m := by
  have hrun : (System.exec Mac.step strayCalls quietMac).any (fun m =>
      m.guarded.ownership.claimant = some (0, 10) ∧ m.core.input = .atRest ∧ (sends m.history).any fun entry =>
          entry.claimant = some (0, 10) ∧ entry.session = 20 ∧ !entry.command.inert) = true := by decide
  obtain ⟨m, hm, hfacts⟩ := Option.any_eq_true _ _ |>.mp hrun
  obtain ⟨hclaimant, hrest, hstranger⟩ := of_decide_eq_true hfacts
  refine ⟨m, hm, hclaimant, hrest, ?_⟩
  intro hundisturbed
  obtain ⟨entry, hmem, hentry⟩ := List.any_eq_true.mp hstranger
  obtain ⟨hheld, hsession, hpresses⟩ := of_decide_eq_true hentry
  rcases hundisturbed.own entry hmem _ hheld with hown | hinert
  · rw [hsession] at hown
    exact absurd (Prod.mk.inj hown).2 (by decide)
  · simp [hinert] at hpresses

/-- Session 10 lets go before session 20 opens an activation. -/
def turnCalls : List (Step (Fin 2)) :=
  rivalCalls ++ [.effects 10 [.activationClosed (activation 1) .leaseExpired] allowed .inject,
    .inject 1, .resume 10,
    .effects 20 [.activationOpened (activation 2), .button 1 true false] allowed .inject, .inject 2,
    .dropInbound 20, .beginOutbound]

theorem claim_undisturbed_turns : (Exclusive (Guarded.default (P := Fin 2))) ∧ ∃ m : Mac (Fin 2) PlainMac,
      (m.core.input.buttons = [0] ∧ m.queue.length = 1 ∧ m.guarded.ownership.outbound = true) ∧
        Exclusive m.guarded ∧ Undisturbed ⟨.atRest, .standard⟩ m := by
  have hrun : ((System.guarded Mac.step NoStrayRelease).exec turnCalls quietMac).any (fun m =>
      m.core.input.buttons = [0] ∧ m.queue.length = 1 ∧ m.guarded.ownership.outbound = true) = true := by
    decide
  obtain ⟨m, hreaches, hm⟩ := System.exists_reaches_of_exec hrun
  have hlaw := claim_undisturbed (P := Fin 2) (I := PlainMac) ⟨.atRest, .standard⟩
  exact ⟨(hlaw.1 _ .start).1, m, of_decide_eq_true hm, hlaw.2 m hreaches⟩

end Zflow.Macos
