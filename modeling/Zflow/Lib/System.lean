import Mathlib.Tactic.Common

/-!
# Systems that take steps

A `System` says what each label does to a state, where the step can be taken at all. An interleaving
of the components of a program is a list of labels; `exec` runs it.

`Reaches` is the run of a statement "in every run whose steps all meet the condition": `calm s l` is
the condition on the state before a step and on the step. `Reaches.invariant` is the one induction
over such runs.
-/

namespace Zflow.Lib

/-- What each label does to a state; `none` where the step cannot be taken. -/
abbrev System (σ l : Type) := l → σ → Option σ

namespace System

variable {σ l : Type} (m : System σ l) (calm : σ → l → Prop)

/-- The state an interleaving leads to. -/
def exec : List l → σ → Option σ
  | [], s => some s
  | label :: rest, s => (m label s).bind (exec rest)

/-- The states that runs of calm steps lead to. -/
inductive Reaches (start : σ) : σ → Prop
  | start : Reaches start start
  | step {s t : σ} (label : l) : Reaches start s → calm s label → m label s = some t →
    Reaches start t

variable {m calm} {start s t : σ}

theorem Reaches.trans (h : m.Reaches calm start s) (h' : m.Reaches calm s t) :
    m.Reaches calm start t := by
  induction h' with
  | start => exact h
  | step label _ hc hs ih => exact .step label ih hc hs

/-- **The run rule.** What holds at the start and is kept by each calm step holds in every state that
such steps reach. -/
theorem Reaches.invariant {I : σ → Prop} (h : m.Reaches calm start t) (hstart : I start)
    (hstep : ∀ s label t, I s → calm s label → m label s = some t → I t) : I t := by
  induction h with
  | start => exact hstart
  | step label _ hc hs ih => exact hstep _ label _ ih hc hs

/-- The system that takes only calm steps. -/
def guarded (m : System σ l) (calm : σ → l → Prop) [∀ s label, Decidable (calm s label)] :
    System σ l := fun label s => if calm s label then m label s else none

/-- An interleaving of calm steps reaches the state it leads to. -/
theorem reaches_of_exec [∀ s label, Decidable (calm s label)] {labels : List l}
    (h : (m.guarded calm).exec labels s = some t) : m.Reaches calm s t := by
  induction labels generalizing s with
  | nil =>
    cases h
    exact .start
  | cons label rest ih =>
    obtain ⟨u, hu, hrest⟩ := Option.bind_eq_some_iff.mp h
    unfold guarded at hu
    split at hu
    · rename_i hc
      exact (Reaches.step label .start hc hu).trans (ih hrest)
    · cases hu

/-- A calm interleaving, read at what it leads to. -/
theorem exists_reaches_of_exec [∀ s label, Decidable (calm s label)] {labels : List l} {p : σ → Bool}
    (h : ((m.guarded calm).exec labels s).any p = true) : ∃ t, m.Reaches calm s t ∧ p t = true := by
  obtain ⟨t, ht, hp⟩ := Option.any_eq_true _ _ |>.mp h
  exact ⟨t, reaches_of_exec ht, hp⟩

end System

end Zflow.Lib
