import Mathlib.Tactic.Common

/-!
# Actions on a state, with errors that keep it

`Act ε σ α` is a Rust method on `&mut self` that returns `Result<α, ε>`: it leaves a state whether it
succeeds or fails. So an error does not undo what the method did before it, which is what the laws
about error paths are about.

`Triple` is the Hoare triple of such an action, with one postcondition for success and one for
failure. Its rules follow the constructors of the `do` notation; `Triple.on` is the rule of a method
called on one field, and carries what the call says of that field to the whole state.
-/

namespace Zflow.Lib

/-- A method on a mutable state `σ` that answers `α` or fails with `ε`. -/
def Act (ε σ α : Type) : Type := σ → Except ε α × σ

namespace Act

variable {ε ε' σ τ α β : Type}

/-- Runs the second action where the first succeeds. -/
def andThen (x : Act ε σ α) (f : α → Act ε σ β) : Act ε σ β := fun s =>
  match x s with
  | (.ok a, s') => f a s'
  | (.error e, s') => (.error e, s')

instance : Monad (Act ε σ) where
  pure a := fun s => (.ok a, s)
  bind := andThen

def fail (e : ε) : Act ε σ α := fun s => (.error e, s)

def read : Act ε σ σ := fun s => (.ok s, s)

def change (f : σ → σ) : Act ε σ Unit := fun s => (.ok (), f s)

/-- A method that cannot fail. -/
def total (f : σ → α × σ) : Act ε σ α := fun s => (.ok (f s).1, (f s).2)

/-- The `?` of a result that does not touch the state. -/
def lift (wrap : ε' → ε) (x : Except ε' α) : Act ε σ α := fun s => (x.mapError wrap, s)

/-- A method of one field, with its errors wrapped. -/
def on (field : τ → σ) (store : σ → τ → τ) (wrap : ε → ε') (x : Act ε σ α) : Act ε' τ α := fun t =>
  ((x (field t)).1.mapError wrap, store (x (field t)).2 t)

@[simp] theorem pure_apply (a : α) (s : σ) : (pure a : Act ε σ α) s = (.ok a, s) := rfl
@[simp] theorem fail_apply (e : ε) (s : σ) : (fail e : Act ε σ α) s = (.error e, s) := rfl
@[simp] theorem read_apply (s : σ) : (read : Act ε σ σ) s = (.ok s, s) := rfl
@[simp] theorem change_apply (f : σ → σ) (s : σ) : (change f : Act ε σ Unit) s = (.ok (), f s) := rfl

theorem bind_apply (x : Act ε σ α) (f : α → Act ε σ β) (s : σ) :
    (x >>= f) s = match x s with
      | (.ok a, s') => f a s'
      | (.error e, s') => (.error e, s') := rfl

/-- A sequence that starts with a success goes on with the rest. -/
theorem bind_of_ok {x : Act ε σ α} {f : α → Act ε σ β} {s s' : σ} {a : α} (h : x s = (.ok a, s')) :
    (x >>= f) s = f a s' := by
  rw [bind_apply, h]

/-- A sequence that starts with a failure is that failure. -/
theorem bind_of_error {x : Act ε σ α} {f : α → Act ε σ β} {s s' : σ} {e : ε}
    (h : x s = (.error e, s')) : (x >>= f) s = (.error e, s') := by
  rw [bind_apply, h]

/-- Two sequences that start alike do alike where their rests do after the start. -/
theorem bind_congr {x : Act ε σ α} {f g : α → Act ε σ β} {s : σ}
    (h : ∀ a s', x s = (.ok a, s') → f a s' = g a s') : (x >>= f) s = (x >>= g) s := by
  rw [bind_apply, bind_apply]
  cases hx : x s with
  | mk result s' =>
    cases result with
    | ok a => exact h a s' hx
    | error e => rfl

/-- Sequencing is associative. -/
theorem bind_assoc {γ : Type} (x : Act ε σ α) (f : α → Act ε σ β) (g : β → Act ε σ γ) :
    ((x >>= f) >>= g) = (x >>= fun a => f a >>= g) := by
  funext s
  simp only [bind_apply]
  rcases x s with ⟨a | e, s'⟩ <;> rfl

/-- A sequence that succeeds is two successes, one after the other. -/
theorem bind_eq_ok {x : Act ε σ α} {f : α → Act ε σ β} {s s'' : σ} {b : β} :
    (x >>= f) s = (.ok b, s'') ↔ ∃ a s', x s = (.ok a, s') ∧ f a s' = (.ok b, s'') := by
  rw [bind_apply]
  split <;> simp_all

theorem lift_eq_ok {wrap : ε' → ε} {x : Except ε' α} {s s' : σ} {a : α} :
    (lift wrap x : Act ε σ α) s = (.ok a, s') ↔ x = .ok a ∧ s = s' := by
  unfold lift
  cases x <;> simp [Except.mapError]

theorem on_eq_ok {field : τ → σ} {store : σ → τ → τ} {wrap : ε → ε'} {x : Act ε σ α} {t t' : τ} {a : α} :
    on field store wrap x t = (.ok a, t') ↔ ∃ s', x (field t) = (.ok a, s') ∧ t' = store s' t := by
  unfold on
  rcases x (field t) with ⟨result | result, s'⟩ <;> simp [Except.mapError, eq_comm]

/-- The `?` of two results, one after the other. -/
theorem except_bind_eq_ok {x : Except ε α} {f : α → Except ε β} {b : β} :
    (x >>= f) = .ok b ↔ ∃ a, x = .ok a ∧ f a = .ok b := by
  cases x <;> simp [bind, Except.bind]

theorem mapError_eq_ok {wrap : ε' → ε} {x : Except ε' α} {a : α} :
    x.mapError wrap = .ok a ↔ x = .ok a := by
  cases x <;> simp [Except.mapError]

/-! ## Triples -/

/-- **The triple of an action**: from a state of `P`, a success leaves `Q` and a failure leaves `E`. -/
def Triple (P : σ → Prop) (x : Act ε σ α) (Q : α → σ → Prop) (E : ε → σ → Prop) : Prop :=
  ∀ s, P s → match x s with
    | (.ok a, s') => Q a s'
    | (.error e, s') => E e s'

variable {P P' : σ → Prop} {Q Q' : α → σ → Prop} {R : β → σ → Prop} {E E' : ε → σ → Prop}

/-- What a triple says of a success. -/
theorem Triple.ok {x : Act ε σ α} (h : Triple P x Q E) {s s' : σ} {a : α} (hs : P s)
    (hx : x s = (.ok a, s')) : Q a s' := by
  have := h s hs
  rw [hx] at this
  exact this

/-- What a triple says of a failure. -/
theorem Triple.error {x : Act ε σ α} (h : Triple P x Q E) {s s' : σ} {e : ε} (hs : P s)
    (hx : x s = (.error e, s')) : E e s' := by
  have := h s hs
  rw [hx] at this
  exact this

theorem Triple.pure {a : α} (h : ∀ s, P s → Q a s) : Triple P (Pure.pure a) Q E := h

theorem Triple.fail {e : ε} (h : ∀ s, P s → E e s) : Triple P (Act.fail e : Act ε σ α) Q E := h

theorem Triple.change {f : σ → σ} {Q : Unit → σ → Prop} (h : ∀ s, P s → Q () (f s)) : Triple P (Act.change f) Q E := h

/-- Reading the state remembers it. -/
theorem Triple.read {f : σ → Act ε σ β}
    (h : ∀ t, Triple (fun s => P s ∧ s = t) (f t) R E) : Triple P (Act.read >>= f) R E :=
  fun s hs => h s s ⟨hs, rfl⟩

/-- The rule of sequencing. -/
theorem Triple.bind {x : Act ε σ α} {f : α → Act ε σ β} (hx : Triple P x Q E)
    (hf : ∀ a, Triple (Q a) (f a) R E) : Triple P (x >>= f) R E := by
  intro s hs
  rw [bind_apply]
  cases hr : x s with
  | mk result s' =>
    cases result with
    | ok a => exact hf a s' (hx.ok hs hr)
    | error e => exact hx.error hs hr

/-- The rule of consequence. -/
theorem Triple.weaken {x : Act ε σ α} (h : Triple P x Q E) (hP : ∀ s, P' s → P s)
    (hQ : ∀ a s, Q a s → Q' a s) (hE : ∀ e s, E e s → E' e s) : Triple P' x Q' E' := by
  intro s hs
  cases hr : x s with
  | mk result s' =>
    cases result with
    | ok a => exact hQ a s' (h.ok (hP s hs) hr)
    | error e => exact hE e s' (h.error (hP s hs) hr)

theorem Triple.pre {x : Act ε σ α} (h : Triple P x Q E) (hP : ∀ s, P' s → P s) : Triple P' x Q E :=
  h.weaken hP (fun _ _ => id) (fun _ _ => id)

/-- A choice that the state has made may be named first. -/
theorem Triple.exists {ι : Type} {P : ι → σ → Prop} {x : Act ε σ α} (h : ∀ i, Triple (P i) x Q E) :
    Triple (fun s => ∃ i, P i s) x Q E := fun s ⟨i, hi⟩ => h i s hi

/-- A fact that the state does not bear on may be taken first. -/
theorem Triple.given {p : Prop} {x : Act ε σ α} (h : p → Triple P x Q E) : Triple (fun s => p ∧ P s) x Q E :=
  fun s ⟨hp, hs⟩ => h hp s hs

/-- Two triples of one action. -/
theorem Triple.and {x : Act ε σ α} (h : Triple P x Q E) (h' : Triple P' x Q' E') :
    Triple (fun s => P s ∧ P' s) x (fun a s => Q a s ∧ Q' a s) (fun e s => E e s ∧ E' e s) := by
  intro s hs
  cases hr : x s with
  | mk result s' =>
    cases result with
    | ok a => exact ⟨h.ok hs.1 hr, h'.ok hs.2 hr⟩
    | error e => exact ⟨h.error hs.1 hr, h'.error hs.2 hr⟩

theorem Triple.lift {wrap : ε' → ε} {x : Except ε' α} (hok : ∀ a, x = .ok a → ∀ s, P s → Q a s)
    (herr : ∀ e, x = .error e → ∀ s, P s → E (wrap e) s) : Triple P (Act.lift wrap x) Q E := by
  intro s hs
  cases x with
  | ok a => exact hok a rfl s hs
  | error e => exact herr e rfl s hs

/-- **The rule of a field's method**: what the call says of the field, read through the store. -/
theorem Triple.on {field : τ → σ} {store : σ → τ → τ} {wrap : ε → ε'} {x : Act ε σ α}
    {P : τ → Prop} {Q : α → τ → Prop} {E : ε' → τ → Prop}
    (hok : ∀ t a s', P t → x (field t) = (.ok a, s') → Q a (store s' t))
    (herr : ∀ t e s', P t → x (field t) = (.error e, s') → E (wrap e) (store s' t)) :
    Triple P (Act.on field store wrap x) Q E := by
  intro t ht
  unfold Act.on
  cases hr : x (field t) with
  | mk result s' =>
    cases result with
    | ok a => exact hok t a s' ht hr
    | error e => exact herr t e s' ht hr

/-! ## Changes within a relation -/

/-- The action moves the state only as `R` allows, whether it succeeds or fails. -/
def Within (R : σ → σ → Prop) (x : Act ε σ α) : Prop := ∀ s, R s (x s).2

theorem Within.of_eq {R : σ → σ → Prop} {x : Act ε σ α} (h : Within R x) {s s' : σ} {result : Except ε α}
    (hx : x s = (result, s')) : R s s' := by
  have hs := h s
  rw [hx] at hs
  exact hs

section Within

variable {R : σ → σ → Prop} [IsPreorder σ R]

theorem Within.pure (a : α) : Within R (Pure.pure a : Act ε σ α) := fun s => refl_of R s

theorem Within.fail (e : ε) : Within R (Act.fail e : Act ε σ α) := fun s => refl_of R s

theorem Within.read : Within R (Act.read : Act ε σ σ) := fun s => refl_of R s

theorem Within.lift {wrap : ε' → ε} (x : Except ε' α) : Within R (Act.lift wrap x : Act ε σ α) :=
  fun s => refl_of R s

theorem Within.bind {x : Act ε σ α} {f : α → Act ε σ β} (hx : Within R x)
    (hf : ∀ a, Within R (f a)) : Within R (x >>= f) := by
  intro s
  have hfirst := hx s
  rw [bind_apply]
  cases hr : x s with
  | mk result s' =>
    rw [hr] at hfirst
    cases result with
    | ok a => exact trans_of R hfirst (hf a s')
    | error e => exact hfirst

/-- Reading the state remembers it. -/
theorem Within.read_bind {f : σ → Act ε σ β} (h : ∀ s, R s (f s s).2) : Within R (Act.read >>= f) := h

end Within

end Act

end Zflow.Lib
