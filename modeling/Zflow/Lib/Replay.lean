import Mathlib.Data.List.Infix

/-!
# Logs and the machines that replay them

A machine reads a log one entry at a time. Its state after a log is a left fold (`Replay.run`), and
it may refuse an entry in a state (`Replay.admits`); a log is **legal** from a state when the machine
refuses none of its entries. Legality composes along concatenation (`legal_append`), and it says of
every entry that the machine admits it in the state the entries before it lead to
(`legal_iff_forall_split`): that is the form a statement about "every effect in the log" takes.

`Replay.Tracks` is the one rule the proofs about programs use: a program whose log keeps an
abstraction of its state in step with the machine, call by call, keeps it in step along every run.
-/

namespace Zflow.Lib

/-- A machine that replays a log of entries `E` over states `S`. -/
structure Replay (S E : Type*) where
  apply : S → E → S
  admits : S → E → Prop

namespace Replay

variable {S E : Type*} (m : Replay S E)

/-- The state a log leads to. -/
def run (s : S) (log : List E) : S := log.foldl m.apply s

/-- No entry of the log is refused. -/
def Legal : S → List E → Prop
  | _, [] => True
  | s, e :: es => m.admits s e ∧ Legal (m.apply s e) es

@[simp]
theorem run_nil (s : S) : m.run s [] = s := rfl

@[simp]
theorem run_cons (s : S) (e : E) (es : List E) : m.run s (e :: es) = m.run (m.apply s e) es := rfl

theorem run_append (s : S) (xs ys : List E) : m.run s (xs ++ ys) = m.run (m.run s xs) ys :=
  List.foldl_append

@[simp]
theorem legal_nil (s : S) : m.Legal s [] := trivial

@[simp]
theorem legal_cons (s : S) (e : E) (es : List E) :
    m.Legal s (e :: es) ↔ m.admits s e ∧ m.Legal (m.apply s e) es := Iff.rfl

/-- A concatenation is legal when its parts are, one after the other. -/
theorem legal_append (s : S) (xs ys : List E) : m.Legal s (xs ++ ys) ↔ m.Legal s xs ∧ m.Legal (m.run s xs) ys := by
  induction xs generalizing s with
  | nil => simp
  | cons x xs ih => simp [ih, and_assoc]

/-- **A legal log admits each of its entries** in the state the entries before it lead to. -/
theorem legal_iff_forall_split (s : S) (log : List E) :
    m.Legal s log ↔ ∀ before e after, log = before ++ e :: after → m.admits (m.run s before) e := by
  induction log generalizing s with
  | nil => simp
  | cons x xs ih =>
    rw [legal_cons, ih]
    constructor
    · rintro ⟨hx, hxs⟩ before e after h
      cases before with
      | nil =>
        obtain ⟨rfl, rfl⟩ := List.cons.inj h
        exact hx
      | cons b bs =>
        obtain ⟨rfl, hrest⟩ := List.cons.inj h
        exact hxs bs e after hrest
    · intro h
      refine ⟨h [] x xs rfl, fun before e after hxs => ?_⟩
      exact h (x :: before) e after (by rw [hxs]; rfl)

/-- **What comes in went out or is still there**: where each admitted entry that counts for `p` raises the level by one
and each that counts for `q` lowers it by one. -/
theorem count_add_level {p q : E → Bool} {level : S → Nat}
    (hstep : ∀ s e, m.admits s e → (p e).toNat + level s = (q e).toNat + level (m.apply s e)) {s : S} {log : List E}
    (h : m.Legal s log) : log.countP p + level s = log.countP q + level (m.run s log) := by
  induction log generalizing s with
  | nil => rfl
  | cons e es ih =>
    have hentry := hstep s e h.1
    have hrest := ih h.2
    rw [run_cons, List.countP_cons, List.countP_cons]
    have htoNat : ∀ b : Bool, (if b = true then 1 else 0) = b.toNat := fun b => by cases b <;> rfl
    rw [htoNat, htoNat]
    omega

/-- **A log keeps an abstraction in step**: it is legal from every machine state that shows `a`, and
leads to one that shows `b`. -/
def Tracks {A : Type*} (shows : S → A → Prop) (a : A) (log : List E) (b : A) : Prop :=
  ∀ s, shows s a → m.Legal s log ∧ shows (m.run s log) b

variable {m} {A : Type*} {shows : S → A → Prop}

theorem Tracks.nil (a : A) : m.Tracks shows a [] a := fun _ h => ⟨trivial, h⟩

theorem Tracks.append {a b c : A} {xs ys : List E} (h : m.Tracks shows a xs b)
    (h' : m.Tracks shows b ys c) : m.Tracks shows a (xs ++ ys) c := by
  intro s hs
  obtain ⟨hx, hb⟩ := h s hs
  obtain ⟨hy, hc⟩ := h' _ hb
  exact ⟨(m.legal_append s xs ys).mpr ⟨hx, hy⟩, m.run_append s xs ys ▸ hc⟩

/-- One entry: admitted, and the state it leads to shows what comes next. -/
theorem Tracks.single {a b : A} {e : E}
    (h : ∀ s, shows s a → m.admits s e ∧ shows (m.apply s e) b) : m.Tracks shows a [e] b :=
  fun s hs => ⟨⟨(h s hs).1, trivial⟩, (h s hs).2⟩

/-- A run of calls: the entries they add to the log, one after the other, and the program state
they leave. -/
def collect {P C : Type*} (step : P → C → List E × P) : P → List C → List E × P
  | p, [] => ([], p)
  | p, c :: cs =>
    ((step p c).1 ++ (collect step (step p c).2 cs).1, (collect step (step p c).2 cs).2)

/-- **The run rule.** Where each call of a program keeps the abstraction of its state in step with
the machine, a run of calls does. -/
theorem Tracks.collect {P C : Type*} {view : P → A} {step : P → C → List E × P}
    (h : ∀ p c, m.Tracks shows (view p) (step p c).1 (view (step p c).2)) (p : P) (calls : List C) :
    m.Tracks shows (view p) (collect step p calls).1 (view (collect step p calls).2) := by
  induction calls generalizing p with
  | nil => exact .nil _
  | cons c cs ih => exact (h p c).append (ih _)

theorem collect_extends {P C : Type*} {step : P → C → List E × P} (I : List E → P → Prop)
    (hstep : ∀ log p c, I log p → I (log ++ (step p c).1) (step p c).2) (log : List E) (p : P)
    (h : I log p) (calls : List C) :
    I (log ++ (Replay.collect step p calls).1) (Replay.collect step p calls).2 := by
  induction calls generalizing log p with
  | nil => simpa [Replay.collect] using h
  | cons c cs ih =>
    have hnext := ih (log ++ (step p c).1) (step p c).2 (hstep log p c h)
    rwa [List.append_assoc] at hnext

/-- **The rule of history.** An invariant of the log so far and the state, which holds at the start
and which each call keeps, holds after every run. -/
theorem collect_history {P C : Type*} {step : P → C → List E × P} (I : List E → P → Prop)
    (hstep : ∀ log p c, I log p → I (log ++ (step p c).1) (step p c).2) {p : P} (h : I [] p)
    (calls : List C) : I (Replay.collect step p calls).1 (Replay.collect step p calls).2 :=
  collect_extends I hstep [] p h calls

/-- A run of calls in two parts. -/
theorem collect_append {P C : Type*} (step : P → C → List E × P) (p : P) (xs ys : List C) :
    Replay.collect step p (xs ++ ys) =
      ((Replay.collect step p xs).1 ++ (Replay.collect step (Replay.collect step p xs).2 ys).1,
        (Replay.collect step (Replay.collect step p xs).2 ys).2) := by
  induction xs generalizing p with
  | nil => rfl
  | cons x xs ih =>
    simp only [List.cons_append, Replay.collect, ih, List.append_assoc]

/-- Two logs of one program leave the same state. -/
theorem collect_state_congr {P C F : Type*} (step : P → C → List E × P)
    (step' : P → C → List F × P) (h : ∀ p c, (step p c).2 = (step' p c).2) (p : P) (calls : List C) :
    (Replay.collect step p calls).2 = (Replay.collect step' p calls).2 := by
  induction calls generalizing p with
  | nil => rfl
  | cons c cs ih =>
    show (Replay.collect step (step p c).2 cs).2 = (Replay.collect step' (step' p c).2 cs).2
    rw [ih, h]

/-- The rule of history for a run that logs its calls themselves. -/
theorem foldl_history {P C : Type*} {step : P → C → P} (I : List C → P → Prop)
    (hstep : ∀ log p c, I log p → I (log ++ [c]) (step p c)) {p : P} (h : I [] p) (calls : List C) :
    I calls (calls.foldl step p) := by
  induction calls using List.reverseRecOn with
  | nil => exact h
  | append_singleton log c ih =>
    rw [List.foldl_append]
    exact hstep log _ c ih

end Replay

/-! ## What has held since an entry -/

/-- Everything in the log is of a kind, from the entry `first` on. -/
def Since {E : Type*} (ok : E → Prop) (first : E) (log : List E) : Prop :=
  ∃ before rest, log = before ++ first :: rest ∧ ∀ e ∈ first :: rest, ok e

section Since

variable {E : Type*} {ok : E → Prop} {first e : E} {log : List E}

theorem Since.start (log : List E) (h : ok e) : Since ok e (log ++ [e]) := ⟨log, [], rfl, by simpa using h⟩

theorem Since.next (h : Since ok first log) (he : ok e) : Since ok first (log ++ [e]) := by
  obtain ⟨before, rest, rfl, hok⟩ := h
  refine ⟨before, rest ++ [e], by rw [List.append_assoc, List.cons_append], ?_⟩
  rw [← List.cons_append]
  exact List.forall_mem_append.mpr ⟨hok, by simpa using he⟩

end Since

end Zflow.Lib
