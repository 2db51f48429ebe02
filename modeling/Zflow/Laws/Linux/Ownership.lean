import Zflow.Linux.Ownership

/-!
# Grab discipline

Calls of `SourceOwnership` in any order: the grabs are taken only between frames with nothing pressed, and
every remote phase gives them back before they are taken again (`grab_discipline`). What carries it is
`Stands`: the flags of an ownership, by its phase, and what the ledger says of the activation there.
-/

namespace Zflow.Linux

open Lib

/-! ## The ledger -/

namespace Ledger

/-- An activation that became remote was released since, and once if nothing was forced. -/
def Repaid (ledger : Ledger) : Prop :=
  ledger.entered = true → 1 ≤ ledger.releases ∧ (ledger.forced = false → ledger.releases = 1)

/-- The activation became remote, and nothing was released since unless something was forced. -/
structure Owing (ledger : Ledger) : Prop where
  entered : ledger.entered = true
  unreleased : ledger.forced = false → ledger.releases = 0

variable {ledger : Ledger}

theorem Repaid.of_fresh (h : ledger.entered = false) : ledger.Repaid := by
  intro hentered
  exact absurd (h.symm.trans hentered) Bool.false_ne_true

/-- One release repays. -/
theorem Owing.repaid (h : ledger.Owing) : ({ ledger with releases := ledger.releases + 1 } : Ledger).Repaid := by
  intro _
  refine ⟨Nat.le_add_left 1 _, ?_⟩
  intro hforced
  have hnone := h.unreleased hforced
  simp only [hnone]

theorem Repaid.forced (h : ledger.Repaid) : ({ ledger with forced := true } : Ledger).Repaid :=
  fun hentered => ⟨(h hentered).1, nofun⟩

/-- A forced release repays too. -/
theorem repaid_of_forced : ({ ledger with releases := ledger.releases + 1, forced := true } : Ledger).Repaid :=
  fun _ => ⟨Nat.le_add_left 1 _, nofun⟩

end Ledger

/-! ## Phases -/

/-- **The invariant**: the flags of an ownership by its phase, and its ledger there. -/
inductive Stands : SourceOwnership → Ledger → Prop
  | idle {last pending ledger} : ledger.Repaid → Stands ⟨.idle, false, false, false, last, pending⟩ ledger
  | arming {last pending ledger} : ledger.Repaid → Stands ⟨.arming, false, false, false, last, pending⟩ ledger
  | grabbing {last pending ledger} : ledger.entered = false → ledger.releases = 0 →
    Stands ⟨.arming, true, false, false, last, pending⟩ ledger
  | remote {last pending ledger} : ledger.Owing → Stands ⟨.remote, false, false, false, last, pending⟩ ledger
  | telling {last pending ledger} : ledger.Owing → Stands ⟨.releasing, false, false, true, last, pending⟩ ledger
  | waiting {last pending ledger} : ledger.Owing → ledger.sent = true ∨ ledger.lost = true →
    Stands ⟨.releasing, false, false, false, last, pending⟩ ledger
  | releasing {last pending ledger} : ledger.entered = true → ledger.Repaid →
    Stands ⟨.releasing, false, true, false, last, pending⟩ ledger

variable {o after : SourceOwnership} {ledger : Ledger} {answer : Except OwnershipError OwnershipEffect}

/-- Where a boundary leads: nothing but the count of boundaries changes, or the grabs are taken, or they
are given back. -/
theorem SourceOwnership.boundary_cases (o : SourceOwnership) (aggregate : AggregateInputState)
    (kernelNeutral : Bool) : (∃ last pending, o.atCompleteBoundary aggregate kernelNeutral =
      (.none, { o with lastCompleteBoundary := last, phaseTransitionPending := pending })) ∨
    (o.phase = .arming ∧ o.grabPending = false ∧ aggregate.allAtBoundary = true ∧
      aggregate.nothingPressed = true ∧ kernelNeutral = true ∧
      o.atCompleteBoundary aggregate kernelNeutral = (.acquireGrabs, { o with
        lastCompleteBoundary := aggregate.boundaryGeneration, phaseTransitionPending := false
        grabPending := true })) ∨
    (o.phase = .releasing ∧ o.terminalPending = false ∧ o.releasePending = false ∧
      o.atCompleteBoundary aggregate kernelNeutral = (.releaseGrabs, { o with
        lastCompleteBoundary := aggregate.boundaryGeneration, phaseTransitionPending := false
        releasePending := true })) := by
  obtain ⟨phase, grab, release, terminal, last, pending⟩ := o
  unfold atCompleteBoundary
  split
  · exact .inl ⟨last, pending, rfl⟩
  rename_i hboundary
  have hboundary : aggregate.allAtBoundary = true := by simpa using hboundary
  split
  · exact .inl ⟨last, pending, rfl⟩
  cases phase with
  | idle | remote => exact .inl ⟨_, _, rfl⟩
  | arming =>
    dsimp only
    split
    · rename_i hclear
      simp only [Bool.and_eq_true, Bool.not_eq_true'] at hclear
      obtain ⟨⟨hgrab, hpressed⟩, hkernel⟩ := hclear
      exact .inr (.inl ⟨rfl, hgrab, hboundary, hpressed, hkernel, rfl⟩)
    · exact .inl ⟨_, _, rfl⟩
  | releasing =>
    dsimp only
    split
    · rename_i hclear
      simp only [Bool.and_eq_true, Bool.not_eq_true'] at hclear
      exact .inr (.inr ⟨rfl, hclear.1, hclear.2, rfl⟩)
    · exact .inl ⟨_, _, rfl⟩

namespace Stands

/-- The count of boundaries does not matter. -/
theorem counted (h : Stands o ledger) (last : Nat) (pending : Bool) :
    Stands { o with lastCompleteBoundary := last, phaseTransitionPending := pending } ledger := by
  cases h with
  | idle hrepaid => exact .idle hrepaid
  | arming hrepaid => exact .arming hrepaid
  | grabbing hentered hnone => exact .grabbing hentered hnone
  | remote howing => exact .remote howing
  | telling howing => exact .telling howing
  | waiting howing hover => exact .waiting howing hover
  | releasing hentered hrepaid => exact .releasing hentered hrepaid

theorem atCompleteBoundary (h : Stands o ledger) (aggregate : AggregateInputState) (kernelNeutral : Bool) :
    Stands (o.call (.atCompleteBoundary aggregate kernelNeutral)).2
      (ledger.note o (.atCompleteBoundary aggregate kernelNeutral)
        (o.call (.atCompleteBoundary aggregate kernelNeutral)).1) := by
  rcases o.boundary_cases aggregate kernelNeutral with
    ⟨last, pending, hsame⟩ | ⟨hphase, hgrab, -, -, -, htaken⟩ | ⟨hphase, hterminal, hrelease, hgiven⟩
  · simp only [SourceOwnership.call, hsame]
    exact h.counted last pending
  · simp only [SourceOwnership.call, htaken]
    cases h with
    | arming => exact .grabbing rfl rfl
    | grabbing => cases hgrab
    | _ => cases hphase
  · simp only [SourceOwnership.call, hgiven]
    cases h with
    | waiting howing => exact .releasing howing.entered howing.repaid
    | telling => cases hterminal
    | releasing => cases hrelease
    | _ => cases hphase

theorem forceRelease (h : Stands o ledger) :
    Stands (o.call .forceRelease).2 (ledger.note o .forceRelease (o.call .forceRelease).1) := by
  cases h with
  | idle hrepaid => exact .idle hrepaid.forced
  | arming hrepaid => exact .idle hrepaid.forced
  | grabbing hentered => exact .idle (.of_fresh hentered)
  | remote howing => exact .releasing howing.entered Ledger.repaid_of_forced
  | telling howing => exact .releasing howing.entered Ledger.repaid_of_forced
  | waiting howing => exact .releasing howing.entered Ledger.repaid_of_forced
  | releasing hentered => exact .releasing hentered Ledger.repaid_of_forced

theorem requestRelease (h : Stands o ledger) (transportLive : Bool) : Stands (o.call (.requestRelease transportLive)).2
      (ledger.note o (.requestRelease transportLive) (o.call (.requestRelease transportLive)).1) := by
  cases h with
  | idle hrepaid =>
    cases transportLive <;> exact .idle hrepaid
  | arming hrepaid =>
    cases transportLive <;> exact .idle hrepaid
  | grabbing hentered =>
    cases transportLive <;> exact .idle (.of_fresh hentered)
  | remote howing =>
    cases transportLive with
    | true => exact .telling howing
    | false => exact .waiting ⟨howing.entered, howing.unreleased⟩ (.inr rfl)
  | telling howing =>
    cases transportLive <;> exact .telling howing
  | waiting howing hover =>
    cases transportLive <;> exact .waiting howing hover
  | releasing hentered hrepaid =>
    cases transportLive <;> exact .releasing hentered hrepaid

theorem requestActivation (h : Stands o ledger) :
    Stands (o.call .requestActivation).2 (ledger.note o .requestActivation (o.call .requestActivation).1) := by
  by_cases hpending : o.phase ≠ .idle
  · have hrefused : o.requestActivation = .error (.cannotArm o.phase) := if_pos hpending
    simp only [SourceOwnership.call, hrefused]
    exact h
  · cases h with
    | idle hrepaid => exact .arming hrepaid
    | _ => simp at hpending

theorem grabSucceeded (h : Stands o ledger) :
    Stands (o.call .grabSucceeded).2 (ledger.note o .grabSucceeded (o.call .grabSucceeded).1) := by
  by_cases hpending : o.phase ≠ .arming ∨ !o.grabPending
  · have hrefused : o.grabSucceeded = .error .noGrabPending := if_pos hpending
    simp only [SourceOwnership.call, hrefused]
    exact h
  · cases h with
    | grabbing _ hnone => exact .remote ⟨rfl, fun _ => hnone⟩
    | _ => simp at hpending

theorem grabFailed (h : Stands o ledger) :
    Stands (o.call .grabFailed).2 (ledger.note o .grabFailed (o.call .grabFailed).1) := by
  by_cases hpending : o.phase ≠ .arming ∨ !o.grabPending
  · have hrefused : o.grabFailed = .error .noGrabPending := if_pos hpending
    simp only [SourceOwnership.call, hrefused]
    exact h
  · cases h with
    | grabbing hentered => exact .idle (.of_fresh hentered)
    | _ => simp at hpending

theorem terminalSent (h : Stands o ledger) :
    Stands (o.call .terminalSent).2 (ledger.note o .terminalSent (o.call .terminalSent).1) := by
  by_cases hpending : o.phase ≠ .releasing ∨ !o.terminalPending
  · have hrefused : o.terminalSent = .error .noTerminalPending := if_pos hpending
    simp only [SourceOwnership.call, hrefused]
    exact h
  · cases h with
    | telling howing => exact .waiting ⟨howing.entered, howing.unreleased⟩ (.inl rfl)
    | _ => simp at hpending

theorem releaseCompleted (h : Stands o ledger) :
    Stands (o.call .releaseCompleted).2 (ledger.note o .releaseCompleted (o.call .releaseCompleted).1) := by
  by_cases hpending : o.phase ≠ .releasing ∨ !o.releasePending
  · have hrefused : o.releaseCompleted = .error .noReleasePending := if_pos hpending
    simp only [SourceOwnership.call, hrefused]
    exact h
  · cases h with
    | releasing _ hrepaid => exact .idle hrepaid
    | _ => simp at hpending

/-- What one call keeps. -/
theorem call (h : Stands o ledger) (call : OwnershipCall) :
    Stands (o.call call).2 (ledger.note o call (o.call call).1) := by
  cases call with
  | requestActivation => exact h.requestActivation
  | atCompleteBoundary aggregate kernelNeutral => exact h.atCompleteBoundary aggregate kernelNeutral
  | grabSucceeded => exact h.grabSucceeded
  | grabFailed => exact h.grabFailed
  | requestRelease transportLive => exact h.requestRelease transportLive
  | terminalSent => exact h.terminalSent
  | releaseCompleted => exact h.releaseCompleted
  | forceRelease => exact h.forceRelease

/-- Every run of calls keeps it. -/
theorem of_reaches {a : Audited} (h : System.Reaches Audited.step (fun _ _ => True) Audited.start a) :
    Stands a.ownership a.ledger := by
  apply h.invariant
  · exact .idle (.of_fresh rfl)
  · intro a call after hstands _ hstep
    cases hstep
    exact hstands.call call

end Stands

/-! ## The discipline -/

namespace SourceOwnership

variable {call : OwnershipCall}

/-- The grabs are asked for, and asked back, by boundaries only. -/
theorem asked_at_boundary {effect : OwnershipEffect} (h : o.call call = (.ok effect, after))
    (heffect : effect = .acquireGrabs ∨ effect = .releaseGrabs) :
    ∃ aggregate kernelNeutral, call = .atCompleteBoundary aggregate kernelNeutral := by
  cases call with
  | atCompleteBoundary aggregate kernelNeutral => exact ⟨aggregate, kernelNeutral, rfl⟩
  | grabSucceeded | grabFailed | terminalSent | releaseCompleted =>
    simp only [SourceOwnership.call, answered] at h
    split at h <;> cases h
    rcases heffect with h | h <;> cases h
  | requestActivation =>
    obtain ⟨phase, grab, release, terminal, last, pending⟩ := o
    cases phase <;> cases h
    simp at heffect
  | requestRelease transportLive =>
    obtain ⟨phase, grab, release, terminal, last, pending⟩ := o
    cases phase <;> cases transportLive <;> cases h <;> simp at heffect
  | forceRelease =>
    obtain ⟨phase, grab, release, terminal, last, pending⟩ := o
    cases phase <;> cases h <;> simp at heffect

/-- The grabs are asked for between frames, while arming, with nothing pressed. -/
theorem acquires (h : o.call call = (.ok .acquireGrabs, after)) : o.phase = .arming ∧
    o.grabPending = false ∧ ∃ aggregate, call = .atCompleteBoundary aggregate true ∧
      aggregate.allAtBoundary = true ∧ aggregate.nothingPressed = true := by
  obtain ⟨aggregate, kernelNeutral, rfl⟩ := asked_at_boundary h (.inl rfl)
  rcases o.boundary_cases aggregate kernelNeutral with
    ⟨last, pending, hsame⟩ | ⟨hphase, hgrab, hboundary, hpressed, rfl, -⟩ | ⟨-, -, -, hgiven⟩
  · simp [SourceOwnership.call, hsame] at h
  · exact ⟨hphase, hgrab, aggregate, rfl, hboundary, hpressed⟩
  · simp [SourceOwnership.call, hgiven] at h

/-- They are asked back while releasing, with no terminal left to send. -/
theorem gives_back (h : o.call call = (.ok .releaseGrabs, after)) :
    o.phase = .releasing ∧ o.terminalPending = false ∧ o.releasePending = false := by
  obtain ⟨aggregate, kernelNeutral, rfl⟩ := asked_at_boundary h (.inr rfl)
  rcases o.boundary_cases aggregate kernelNeutral with
    ⟨last, pending, hsame⟩ | ⟨-, -, -, -, -, htaken⟩ | ⟨hphase, hterminal, hrelease, -⟩
  · simp [SourceOwnership.call, hsame] at h
  · simp [SourceOwnership.call, htaken] at h
  · exact ⟨hphase, hterminal, hrelease⟩

/-- The ownership a forced release that is done with leads to. -/
def forced (o : SourceOwnership) : SourceOwnership :=
  ((o.call .forceRelease).2.call .releaseCompleted).2

theorem forced_idle (o : SourceOwnership) : o.forced.phase = .idle := by
  obtain ⟨phase, grab, release, terminal, last, pending⟩ := o
  cases phase <;> rfl

end SourceOwnership

namespace Stands

theorem repaid_of_acquires (h : Stands o ledger) (hphase : o.phase = .arming)
    (hgrab : o.grabPending = false) : ledger.Repaid := by
  cases h with
  | arming hrepaid => exact hrepaid
  | grabbing => cases hgrab
  | _ => cases hphase

theorem told_of_gives_back (h : Stands o ledger) (hphase : o.phase = .releasing)
    (hterminal : o.terminalPending = false) (hrelease : o.releasePending = false) :
    ledger.sent = true ∨ ledger.lost = true := by
  cases h with
  | waiting _ htold => exact htold
  | telling => cases hterminal
  | releasing => cases hrelease
  | _ => cases hphase

end Stands

namespace Audited

variable {a : Audited} {call : OwnershipCall} {after : SourceOwnership}

/-- **Grab discipline**, in any order of calls. Grabs are asked for between frames, while arming, with
nothing pressed, and after the last activation that became remote was released: once, where nothing was
ever forced. They are asked back once the terminal was sent, or no transport was there for it. A forced
release ends idle. -/
theorem grab_discipline (h : System.Reaches step (fun _ _ => True) start a) :
    (a.ownership.call call = (.ok .acquireGrabs, after) →
      (a.ownership.phase = .arming ∧ ∃ aggregate, call = .atCompleteBoundary aggregate true ∧
        aggregate.allAtBoundary = true ∧ aggregate.nothingPressed = true) ∧
      (a.ledger.entered = true → 1 ≤ a.ledger.releases ∧ (a.ledger.forced = false → a.ledger.releases = 1))) ∧
    (a.ownership.call call = (.ok .releaseGrabs, after) → a.ledger.sent = true ∨ a.ledger.lost = true) ∧
    a.ownership.forced.phase = .idle := by
  have hstands := Stands.of_reaches h
  refine ⟨?_, ?_, a.ownership.forced_idle⟩
  · intro hacquires
    obtain ⟨hphase, hgrab, hboundary⟩ := SourceOwnership.acquires hacquires
    exact ⟨⟨hphase, hboundary⟩, hstands.repaid_of_acquires hphase hgrab⟩
  · intro hgives
    obtain ⟨hphase, hterminal, hrelease⟩ := SourceOwnership.gives_back hgives
    exact hstands.told_of_gives_back hphase hterminal hrelease

/-- Devices between frames with nothing down, after so many boundaries. -/
def resting (generation : Nat) : AggregateInputState :=
  ⟨[("/dev/input/event0", ⟨[0x14a], false⟩)], generation⟩

/-- An activation that became remote and was released, up to the next one. -/
theorem grab_discipline_again : ∃ a : Audited, (System.Reaches step (fun _ _ => True) start a ∧
      a.ledger.entered = true ∧ a.ledger.forced = false ∧
      (a.ownership.call (.atCompleteBoundary (resting 3) true)).1 = .ok .acquireGrabs) ∧
    a.ledger.releases = 1 := by
  have hrun : ((System.guarded step fun _ _ => True).exec
      [.requestActivation, .atCompleteBoundary (resting 1) true, .grabSucceeded, .requestRelease true,
        .terminalSent, .atCompleteBoundary (resting 2) true, .releaseCompleted, .requestActivation]
      start).any (fun a => a.ledger.entered ∧ a.ledger.forced = false ∧
        (a.ownership.call (.atCompleteBoundary (resting 3) true)).1 = .ok .acquireGrabs) = true := by
    decide +kernel
  obtain ⟨a, hreaches, hfacts⟩ := System.exists_reaches_of_exec hrun
  obtain ⟨hentered, hforced, hacquires⟩ := of_decide_eq_true hfacts
  have hrepaid := ((grab_discipline hreaches).1 (Prod.ext hacquires rfl)).2 hentered
  exact ⟨a, ⟨hreaches, hentered, hforced, hacquires⟩, hrepaid.2 hforced⟩

end Audited

end Zflow.Linux
