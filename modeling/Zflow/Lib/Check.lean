import Zflow.Lib.Act

/-!
# Checks

A check passes or reports an error: it is an `Except ε Unit`, and a sequence of checks is their `do`
block. A sequence passes when each of its checks does, whatever order they stand in.
-/

namespace Zflow.Lib

variable {ε α β : Type}

/-- `if refused { return Err(error) }`. -/
def refuseIf (refused : Bool) (error : ε) : Except ε Unit :=
  if refused then .error error else .ok ()

@[simp]
theorem refuseIf_eq_ok {refused : Bool} {error : ε} : refuseIf refused error = .ok () ↔ refused = false := by
  unfold refuseIf
  cases refused <;> simp

/-- `if applies { check?; }`. -/
def checkIf (applies : Prop) [Decidable applies] (check : Except ε Unit) : Except ε Unit :=
  if applies then check else .ok ()

/-- A check and what follows it. -/
theorem check_bind_eq_ok {check : Except ε Unit} {rest : Unit → Except ε β} {b : β} :
    (check >>= rest) = .ok b ↔ check = .ok () ∧ rest () = .ok b := by
  rw [Act.except_bind_eq_ok]
  exact ⟨fun ⟨_, h, hrest⟩ => ⟨h, hrest⟩, fun ⟨h, hrest⟩ => ⟨(), h, hrest⟩⟩

/-- What is left of a result that may be an error. -/
theorem toOption_eq_some {x : Except ε α} {a : α} : x.toOption = some a ↔ x = .ok a := by
  cases x <;> simp [Except.toOption]

/-- One check for each item. -/
theorem forM_eq_ok {items : List α} {check : α → Except ε Unit} :
    items.forM check = .ok () ↔ ∀ a ∈ items, check a = .ok () := by
  induction items with
  | nil => simp [pure, Except.pure]
  | cons a items ih =>
    show (check a >>= fun _ => items.forM check) = _ ↔ _
    rw [check_bind_eq_ok, ih, List.forall_mem_cons]

end Zflow.Lib
