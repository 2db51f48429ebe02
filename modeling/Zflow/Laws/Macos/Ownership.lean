import Zflow.Macos.Ownership

/-!
# Input goes one way at a time

`Exclusive` is what every order of calls and drops keeps of the ownership of this Mac's input. The
guards say what was given out: the one of a crossing, the one of a handoff, and the claims, of which
the newest holds the input.
-/

namespace Zflow.Macos

open Lib
open Daemon (SessionId)

variable {P : Type}

/-- **Ownership is exclusive.** -/
structure Exclusive (g : Guarded P) : Prop where
  once : g.guards.Nodup
  outbound : .outbound ∈ g.guards ↔ g.ownership.outbound = true
  lease : .lease ∈ g.guards ↔ g.ownership.lease.isSome = true
  newest : ∀ (owner : P × SessionId) claim, g.ownership.inbound = some (owner.1, owner.2, claim) →
    .claim claim ∈ g.guards
  counted : ∀ claim, .claim claim ∈ g.guards → claim ≤ g.ownership.claims
  /-- A crossing's guard never coexists with a claim or a lease. -/
  alone : g.ownership.outbound = true → g.ownership.inbound = none ∧ g.ownership.lease = none
  /-- A claim and a lease that coexist name one session. -/
  same : ∀ claimant owner, g.ownership.claimant = some claimant → g.ownership.lease = some owner →
    claimant = owner

theorem Ownership.claimant_of_inbound {state : Ownership P} {peer : P} {session : SessionId}
    {claim : Nat} (h : state.inbound = some (peer, session, claim)) : state.claimant = some (peer, session) := by
  unfold claimant
  rw [h]
  rfl

/-- Dropping an older claim never frees a newer one. -/
theorem Guarded.drop_older {g : Guarded P} (owner : P × SessionId) {newest : Nat}
    (h : g.ownership.inbound = some (owner.1, owner.2, newest)) {claim : Nat} (hne : claim ≠ newest) :
    (g.drop (.claim claim)).ownership = g.ownership := by
  show g.ownership.dropClaim claim = g.ownership
  unfold Ownership.dropClaim
  rw [h]
  simp [Ne.symm hne]

theorem exclusive_default : Exclusive (P := P) .default where
  once := List.nodup_nil
  outbound := by simp [Guarded.default, Ownership.default]
  lease := by simp [Guarded.default, Ownership.default]
  newest _ _ h := nomatch h
  counted _ h := nomatch h
  alone h := nomatch h
  same _ _ h := nomatch h

section Calls

variable [DecidableEq P]

/-- What a call has checked. -/
theorem Ownership.check_eq_ok {state : Ownership P} {peer : P} {session : SessionId}
    (h : state.check peer session = .ok ()) : state.outbound = false ∧
      (∀ claimant, state.claimant = some claimant → claimant = (peer, session)) ∧
      ∀ owner, state.lease = some owner → owner = (peer, session) := by
  unfold check at h
  split at h
  · cases h
  split at h
  · cases h
  rename_i hout htaken
  unfold taken at htaken
  refine ⟨by simpa using hout, ?_, ?_⟩
  · intro claimant hclaimant
    rw [hclaimant] at htaken
    by_contra hne
    simp [hne] at htaken
  · intro owner howner
    rw [howner] at htaken
    by_contra hne
    simp [hne] at htaken

/-- What a claim has checked, and what it leaves. -/
theorem Ownership.claimInbound_eq_ok {state after : Ownership P} {peer : P} {session : SessionId}
    {claim : Nat} (h : state.claimInbound peer session = .ok (claim, after)) :
    state.check peer session = .ok () ∧ claim = state.claims + 1 ∧
      after = { state with claims := claim, inbound := some (peer, session, claim) } := by
  obtain ⟨_, hcheck, hrest⟩ := Act.except_bind_eq_ok.mp h
  cases hrest
  exact ⟨hcheck, rfl, rfl⟩

theorem Ownership.beginLease_eq_ok {state after : Ownership P} {peer : P} {session : SessionId}
    (h : state.beginLease peer session = .ok after) : state.check peer session = .ok () ∧ state.lease = none ∧
      after = { state with lease := some (peer, session) } := by
  obtain ⟨_, hcheck, hrest⟩ := Act.except_bind_eq_ok.mp h
  split at hrest
  · cases hrest
  · rename_i hfree
    cases hrest
    exact ⟨hcheck, by simpa using hfree, rfl⟩

/-- A crossing begins where no one has or holds anything. -/
theorem Exclusive.beginOutbound {g : Guarded P} (h : Exclusive g) : Exclusive g.beginOutbound := by
  unfold Guarded.beginOutbound Ownership.beginOutbound
  split
  · rename_i ownership hbegun
    split at hbegun
    · cases hbegun
    rename_i hfree
    obtain ⟨⟨hout, hin⟩, hlease⟩ :
        (g.ownership.outbound = false ∧ g.ownership.inbound = none) ∧ g.ownership.lease = none := by
      simpa [not_or] using hfree
    cases hbegun
    constructor
    · exact List.nodup_cons.mpr ⟨fun hmem => by simp [h.outbound.mp hmem] at hout, h.once⟩
    · simp
    · simpa using h.lease
    · intro owner claim hclaim
      exact List.mem_cons_of_mem _ (h.newest owner claim hclaim)
    · intro claim hmem
      exact h.counted claim (by simpa using hmem)
    · exact fun _ => ⟨hin, hlease⟩
    · exact h.same
  · exact h

/-- A claim is the newest one, and its session's alone. -/
theorem Exclusive.claimInbound {g : Guarded P} (h : Exclusive g) (peer : P) (session : SessionId) :
    Exclusive (g.claimInbound peer session) := by
  unfold Guarded.claimInbound
  cases hclaimed : g.ownership.claimInbound peer session with
  | error reason => exact h
  | ok claimed =>
    obtain ⟨hcheck, hclaim, hafter⟩ := Ownership.claimInbound_eq_ok hclaimed
    obtain ⟨hout, -, hlease⟩ := Ownership.check_eq_ok hcheck
    obtain ⟨claim, ownership⟩ := claimed
    dsimp only at hclaim hafter ⊢
    subst hafter
    constructor
    · refine List.nodup_cons.mpr ⟨fun hmem => ?_, h.once⟩
      have hle := h.counted claim hmem
      omega
    · simpa using h.outbound
    · simpa using h.lease
    · intro owner newest hnewest
      cases hnewest
      exact List.mem_cons_self
    · intro older hmem
      rcases List.mem_cons.mp hmem with heq | hmem
      · cases heq
        exact Nat.le_refl _
      · have hle := h.counted older hmem
        show older ≤ claim
        omega
    · intro hout'
      exact absurd (hout'.symm.trans hout) (by decide)
    · intro claimant owner hclaimant howner
      cases hclaimant
      exact (hlease owner howner).symm

theorem Exclusive.beginLease {g : Guarded P} (h : Exclusive g) (peer : P) (session : SessionId) :
    Exclusive (g.beginLease peer session) := by
  unfold Guarded.beginLease
  cases hleased : g.ownership.beginLease peer session with
  | error reason => exact h
  | ok ownership =>
    obtain ⟨hcheck, hfree, hafter⟩ := Ownership.beginLease_eq_ok hleased
    obtain ⟨hout, hclaimant, -⟩ := Ownership.check_eq_ok hcheck
    subst hafter
    constructor
    · refine List.nodup_cons.mpr ⟨fun hmem => ?_, h.once⟩
      have hsome := h.lease.mp hmem
      rw [hfree] at hsome
      cases hsome
    · simpa using h.outbound
    · simp
    · intro owner claim hclaim
      exact List.mem_cons_of_mem _ (h.newest owner claim hclaim)
    · intro claim hmem
      exact h.counted claim (by simpa using hmem)
    · intro hout'
      exact absurd (hout'.symm.trans hout) (by decide)
    · intro claimant owner hclaimant' howner
      cases howner
      exact hclaimant claimant hclaimant'

/-- A guard that is dropped frees what it holds, and nothing else. -/
theorem Exclusive.drop {g : Guarded P} (h : Exclusive g) {guard : Guard} (hmem : guard ∈ g.guards) :
    Exclusive (g.drop guard) := by
  have herase {other : Guard} (hother : other ∈ g.guards.erase guard) : other ∈ g.guards :=
    List.mem_of_mem_erase hother
  have hkeep {other : Guard} (hne : other ≠ guard) : other ∈ g.guards.erase guard ↔ other ∈ g.guards :=
    List.mem_erase_of_ne hne
  have hgone : guard ∉ g.guards.erase guard := fun hmem => (h.once.mem_erase_iff.mp hmem).1 rfl
  have honce : (g.guards.erase guard).Nodup := h.once.erase guard
  cases guard with
  | outbound =>
    constructor
    · exact honce
    · exact ⟨fun hmem => (hgone hmem).elim, fun hout => nomatch hout⟩
    · exact (hkeep (by decide)).trans h.lease
    · exact fun owner claim hclaim => (hkeep (by simp)).mpr (h.newest owner claim hclaim)
    · exact fun claim hclaim => h.counted claim (herase hclaim)
    · exact fun hout => nomatch hout
    · exact h.same
  | lease =>
    constructor
    · exact honce
    · exact (hkeep (by decide)).trans h.outbound
    · exact ⟨fun hmem => (hgone hmem).elim, fun hlease => nomatch hlease⟩
    · exact fun owner claim hclaim => (hkeep (by simp)).mpr (h.newest owner claim hclaim)
    · exact fun claim hclaim => h.counted claim (herase hclaim)
    · exact fun hout => ⟨(h.alone hout).1, rfl⟩
    · exact fun _ _ _ howner => nomatch howner
  | claim claim =>
    by_cases hnewest : g.ownership.inbound.any (·.2.2 = claim) = true
    · have hdrop : g.drop (.claim claim) =
          ⟨{ g.ownership with inbound := none }, g.guards.erase (.claim claim)⟩ := by
        show Guarded.mk (g.ownership.dropClaim claim) _ = _
        rw [Ownership.dropClaim, if_pos hnewest]
      rw [hdrop]
      constructor
      · exact honce
      · exact (hkeep (by simp)).trans h.outbound
      · exact (hkeep (by simp)).trans h.lease
      · exact fun _ _ hclaim => nomatch hclaim
      · exact fun other hother => h.counted other (herase hother)
      · exact fun hout => ⟨rfl, (h.alone hout).2⟩
      · exact fun _ _ hclaimant => nomatch hclaimant
    · have hdrop : g.drop (.claim claim) = ⟨g.ownership, g.guards.erase (.claim claim)⟩ := by
        show Guarded.mk (g.ownership.dropClaim claim) _ = _
        rw [Ownership.dropClaim, if_neg hnewest]
      rw [hdrop]
      constructor
      · exact honce
      · exact (hkeep (by simp)).trans h.outbound
      · exact (hkeep (by simp)).trans h.lease
      · intro owner newest hclaim
        refine (hkeep ?_).mpr (h.newest owner newest hclaim)
        intro heq
        cases heq
        rw [hclaim] at hnewest
        exact hnewest (by simp)
      · exact fun other hother => h.counted other (herase hother)
      · exact h.alone
      · exact h.same

/-- **Every call and every drop keeps ownership exclusive.** -/
theorem Exclusive.step {label : GuardStep P} {g after : Guarded P} (h : Exclusive g)
    (hstep : Guarded.step label g = some after) : Exclusive after := by
  cases label with
  | beginOutbound => exact Option.some.inj hstep ▸ h.beginOutbound
  | claimInbound peer session => exact Option.some.inj hstep ▸ h.claimInbound peer session
  | beginLease peer session => exact Option.some.inj hstep ▸ h.beginLease peer session
  | drop guard =>
    have hstep : (if guard ∈ g.guards then some (g.drop guard) else none) = some after := hstep
    split at hstep
    · rename_i hmem
      cases hstep
      exact h.drop hmem
    · cases hstep

/-- The states of the ownership, over every interleaving. -/
abbrev Guarded.Reaches (g after : Guarded P) : Prop := System.Reaches Guarded.step (fun _ _ => True) g after

theorem Exclusive.reaches {g after : Guarded P} (h : Exclusive g) (hreach : g.Reaches after) : Exclusive after :=
  hreach.invariant h fun _ _ _ hs _ hstep => hs.step hstep

end Calls

end Zflow.Macos
