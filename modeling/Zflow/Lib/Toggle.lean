import Zflow.Lib.Replay

/-!
# Sets watched through their changes

A set of members is told by a log of its changes: each entry names a member and whether it is in the set from
then on, and it is a change (`toggles.Legal`). Of each member such a log tells entries that alternate
(`alternates_of_legal`), beginning with what the set did not have.

`held` is the other side: many holders, each of which has members of its own, and a log of what each picks up
and puts down. The union changes only when the last holder lets go of a member or the first takes it up, and
`changes` are the entries at which it does.
-/

namespace Zflow.Lib

/-! ## One set -/

section Toggle

variable {M : Type} [DecidableEq M]

/-- A set, told by its changes. -/
def toggles (M : Type) [DecidableEq M] : Replay (M → Bool) (M × Bool) where
  apply set change := Function.update set change.1 change.2
  admits set change := set change.1 = !change.2

/-- One value and the other in turn, from `first`. -/
def Alternates : Bool → List Bool → Prop
  | _, [] => True
  | first, value :: rest => value = first ∧ Alternates (!first) rest

/-- **The changes of each member alternate.** -/
theorem alternates_of_legal {set : M → Bool} {log : List (M × Bool)} (h : (toggles M).Legal set log)
    (member : M) : Alternates (!set member) ((log.filter (·.1 = member)).map (·.2)) := by
  induction log generalizing set with
  | nil => trivial
  | cons change rest ih =>
    obtain ⟨hadmits, hrest⟩ := h
    have hlater := ih hrest
    by_cases hmember : change.1 = member
    · subst hmember
      have hchange : change.2 = !set change.1 := by
        rw [show set change.1 = !change.2 from hadmits, Bool.not_not]
      simp only [List.filter_cons, decide_true, if_true, List.map_cons]
      refine ⟨hchange, ?_⟩
      rw [← hchange]
      simpa [toggles] using hlater
    · have hother : (toggles M).apply set change member = set member :=
        Function.update_of_ne (Ne.symm hmember) _ _
      simp only [List.filter_cons, hmember, decide_false]
      rw [hother] at hlater
      exact hlater

/-- A log whose entries alternate for each member tells changes. -/
theorem legal_of_alternates {set : M → Bool} {log : List (M × Bool)}
    (h : ∀ member, Alternates (!set member) ((log.filter (·.1 = member)).map (·.2))) : (toggles M).Legal set log := by
  induction log generalizing set with
  | nil => trivial
  | cons change rest ih =>
    have hchange : change.2 = !set change.1 := by
      have hfirst := h change.1
      simp only [List.filter_cons, decide_true, if_true, List.map_cons] at hfirst
      exact hfirst.1
    have hadmits : set change.1 = !change.2 := by rw [hchange, Bool.not_not]
    refine ⟨hadmits, ih fun member => ?_⟩
    have hmember := h member
    by_cases heq : change.1 = member
    · subst heq
      simp only [List.filter_cons, decide_true, if_true, List.map_cons] at hmember
      rw [show (toggles M).apply set change change.1 = change.2 from Function.update_self _ _ _, hchange]
      exact hmember.2
    · simp only [List.filter_cons, heq, decide_false] at hmember
      rw [show (toggles M).apply set change member = set member from Function.update_of_ne (Ne.symm heq) _ _]
      exact hmember

end Toggle

/-! ## The union of many -/

section Holders

variable {D M : Type} [DecidableEq D] [DecidableEq M]

/-- A holder takes a member up, or puts it down. -/
structure Grip (D M : Type) where
  holder : D
  member : M
  taken : Bool

/-- The holder has the member: the last it did with it was to take it up. -/
def held (log : List (Grip D M)) (holder : D) (member : M) : Bool :=
  log.foldl (fun has grip => if grip.holder = holder ∧ grip.member = member then grip.taken else has) false

/-- Some holder has the member. -/
def heldByAny (log : List (Grip D M)) (member : M) : Bool :=
  log.any fun grip => held log grip.holder member

/-- The entries of `log`, after those `before` it, at which the union changes. -/
def changesAfter (before : List (Grip D M)) : List (Grip D M) → List (M × Bool)
  | [] => []
  | grip :: rest =>
    let after := before ++ [grip]
    (if heldByAny before grip.member ≠ heldByAny after grip.member then
      [(grip.member, grip.taken)] else []) ++ changesAfter after rest

/-- The entries at which the union changes. -/
def changes (log : List (Grip D M)) : List (M × Bool) := changesAfter [] log

theorem held_concat (log : List (Grip D M)) (grip : Grip D M) (holder : D) (member : M) :
    held (log ++ [grip]) holder member =
      if grip.holder = holder ∧ grip.member = member then grip.taken else held log holder member := by
  simp [held, List.foldl_append]

/-- What is held was taken. -/
theorem exists_of_held {log : List (Grip D M)} {holder : D} {member : M}
    (h : held log holder member = true) : ∃ grip ∈ log, grip.holder = holder := by
  induction log using List.reverseRecOn with
  | nil => cases h
  | append_singleton log grip ih =>
    rw [held_concat] at h
    split at h
    · rename_i hsame
      exact ⟨grip, by simp, hsame.1⟩
    · obtain ⟨earlier, hearlier, hholder⟩ := ih h
      exact ⟨earlier, List.mem_append_left _ hearlier, hholder⟩

theorem heldByAny_iff {log : List (Grip D M)} {member : M} :
    heldByAny log member = true ↔ ∃ holder, held log holder member = true := by
  unfold heldByAny
  rw [List.any_eq_true]
  constructor
  · rintro ⟨grip, -, hheld⟩
    exact ⟨grip.holder, hheld⟩
  · rintro ⟨holder, hheld⟩
    obtain ⟨grip, hgrip, rfl⟩ := exists_of_held hheld
    exact ⟨grip, hgrip, hheld⟩

theorem changesAfter_append (before first second : List (Grip D M)) : changesAfter before (first ++ second) =
      changesAfter before first ++ changesAfter (before ++ first) second := by
  induction first generalizing before with
  | nil => simp [changesAfter]
  | cons grip rest ih => simp [changesAfter, ih]

/-- What a grip does to the union, to its own member. -/
theorem heldByAny_concat_self (log : List (Grip D M)) (grip : Grip D M)
    (hchange : heldByAny log grip.member ≠ heldByAny (log ++ [grip]) grip.member) :
    heldByAny log grip.member = !grip.taken ∧ heldByAny (log ++ [grip]) grip.member = grip.taken := by
  cases htaken : grip.taken with
  | true =>
    have hafter : heldByAny (log ++ [grip]) grip.member = true :=
      heldByAny_iff.mpr ⟨grip.holder, by rw [held_concat, if_pos ⟨rfl, rfl⟩, htaken]⟩
    refine ⟨?_, hafter⟩
    rw [hafter] at hchange
    simpa using hchange
  | false =>
    -- what is put down was not in the union's other holders
    have hbefore : heldByAny (log ++ [grip]) grip.member = true → heldByAny log grip.member = true := by
      intro hafter
      obtain ⟨holder, hheld⟩ := heldByAny_iff.mp hafter
      rw [held_concat] at hheld
      split at hheld
      · rw [htaken] at hheld
        cases hheld
      · exact heldByAny_iff.mpr ⟨holder, hheld⟩
    cases hold : heldByAny log grip.member with
    | false =>
      rw [hold] at hchange hbefore
      exact absurd (Bool.eq_false_iff.mpr fun hafter => by cases hbefore hafter).symm hchange
    | true =>
      rw [hold] at hchange
      exact ⟨rfl, Bool.eq_false_iff.mpr fun hafter => hchange hafter.symm⟩

theorem heldByAny_concat_of_ne (log : List (Grip D M)) {grip : Grip D M} {member : M}
    (hne : grip.member ≠ member) : heldByAny (log ++ [grip]) member = heldByAny log member := by
  rw [Bool.eq_iff_iff, heldByAny_iff, heldByAny_iff]
  have hsame : ∀ holder, held (log ++ [grip]) holder member = held log holder member := by
    intro holder
    rw [held_concat, if_neg fun hboth => hne hboth.2]
  simp only [hsame]

/-- **The changes are those of the union**: a legal log of it, up to what is held in the end. -/
theorem legal_changesAfter (before log : List (Grip D M)) :
    (toggles M).Legal (heldByAny before) (changesAfter before log) ∧
      (toggles M).run (heldByAny before) (changesAfter before log) = heldByAny (before ++ log) := by
  induction log generalizing before with
  | nil => simp [changesAfter]
  | cons grip rest ih =>
    obtain ⟨hlegal, hrun⟩ := ih (before ++ [grip])
    unfold changesAfter
    dsimp only
    by_cases hchange : heldByAny before grip.member ≠ heldByAny (before ++ [grip]) grip.member
    · obtain ⟨hbefore, hafter⟩ := heldByAny_concat_self before grip hchange
      have happly : (toggles M).apply (heldByAny before) (grip.member, grip.taken) = heldByAny (before ++ [grip]) := by
        funext member
        by_cases hmember : member = grip.member
        · subst hmember
          exact (Function.update_self _ _ _).trans hafter.symm
        · exact (Function.update_of_ne hmember _ _).trans (heldByAny_concat_of_ne before (Ne.symm hmember)).symm
      rw [if_pos hchange, List.singleton_append]
      refine ⟨⟨hbefore, happly ▸ hlegal⟩, ?_⟩
      rw [Replay.run_cons, happly, hrun, List.append_assoc, List.singleton_append]
    · have hsame : heldByAny (before ++ [grip]) = heldByAny before := by
        funext member
        by_cases hmember : grip.member = member
        · subst hmember
          exact (not_not.mp hchange).symm
        · exact heldByAny_concat_of_ne before hmember
      rw [if_neg hchange, List.nil_append]
      rw [hsame] at hlegal hrun
      refine ⟨hlegal, ?_⟩
      rw [hrun, List.append_assoc, List.singleton_append]

/-- **The changes of each member alternate**, and begin with a press. -/
theorem alternates_changes (log : List (Grip D M)) (member : M) :
    Alternates true (((changes log).filter (·.1 = member)).map (·.2)) := by
  have hlegal := (legal_changesAfter [] log).1
  exact alternates_of_legal hlegal member

end Holders

end Zflow.Lib
