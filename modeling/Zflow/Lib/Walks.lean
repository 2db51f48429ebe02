import Mathlib.Data.List.Forall2
import Mathlib.Data.List.Pairwise

/-!
# Walks over lists

A loop that looks for the first item of a kind and goes on with what stands before and after it is
`splitFirst`. A loop over each pair of a list once is a walk over its `pairs`. A loop that can give up is
`mapM` or `foldlM` in `Option`: `mapM_eq_some` reads the first item by item, `foldlM_rule` is the induction over
the second, with what was walked so far, and `foldlM_eq_some_iff` reads it as a `Walk` in steps of a relation.
-/

namespace Zflow.Lib

variable {α β : Type}

/-- The first item that passes, with what stands before it and after it. -/
def splitFirst (p : α → Bool) : List α → Option (List α × α × List α)
  | [] => none
  | a :: rest =>
    if p a then some ([], a, rest)
    else (splitFirst p rest).map fun (before, found, after) => (a :: before, found, after)

/-- Each pair once, in order. -/
def pairs : List α → List (α × α)
  | [] => []
  | a :: rest => rest.map (a, ·) ++ pairs rest

section

variable {p : α → Bool} {items before after : List α} {found : α}

theorem splitFirst_cons_pos {a : α} {rest : List α} (h : p a = true) :
    splitFirst p (a :: rest) = some ([], a, rest) := if_pos h

theorem splitFirst_cons_neg {a : α} {rest : List α} (h : ¬ p a = true) : splitFirst p (a :: rest) =
      (splitFirst p rest).map fun (before, found, after) => (a :: before, found, after) := if_neg h

/-- What is found is the first that passes. -/
theorem splitFirst_eq_some (h : splitFirst p items = some (before, found, after)) :
    items = before ++ found :: after ∧ p found = true ∧ ∀ a ∈ before, p a = false := by
  induction items generalizing before with
  | nil => cases h
  | cons a rest ih =>
    by_cases ha : p a = true
    · rw [splitFirst_cons_pos ha] at h
      cases h
      exact ⟨rfl, ha, fun _ hmem => absurd hmem List.not_mem_nil⟩
    · rw [splitFirst_cons_neg ha] at h
      obtain ⟨⟨front, item, back⟩, hrest, heq⟩ := Option.map_eq_some_iff.mp h
      cases heq
      obtain ⟨hitems, hpass, hfront⟩ := ih hrest
      refine ⟨by rw [hitems, List.cons_append], hpass, ?_⟩
      exact List.forall_mem_cons.mpr ⟨by simpa using ha, hfront⟩

theorem splitFirst_eq_none : splitFirst p items = none ↔ ∀ a ∈ items, p a = false := by
  induction items with
  | nil => simp [splitFirst]
  | cons a rest ih =>
    rw [List.forall_mem_cons]
    by_cases ha : p a = true
    · simp [splitFirst_cons_pos ha, ha]
    · simp [splitFirst_cons_neg ha, ih, ha]

/-- Where the first that passes is known, it is found. -/
theorem splitFirst_append (hbefore : ∀ a ∈ before, p a = false) (hfound : p found = true) :
    splitFirst p (before ++ found :: after) = some (before, found, after) := by
  induction before with
  | nil => exact splitFirst_cons_pos hfound
  | cons a rest ih =>
    have ha : ¬ p a = true := by simp [hbefore a (.head _)]
    rw [List.cons_append, splitFirst_cons_neg ha, ih fun b hb => hbefore b (.tail _ hb)]
    rfl

end

/-- What holds of each pair holds pairwise. -/
theorem forall_mem_pairs {items : List α} {R : α → α → Prop} :
    (∀ pair ∈ pairs items, R pair.1 pair.2) ↔ items.Pairwise R := by
  induction items with
  | nil => simp [pairs]
  | cons a rest ih =>
    unfold pairs
    rw [List.forall_mem_append, ih, List.pairwise_cons]
    simp

theorem mem_pairs {items : List α} {a b : α} :
    (a, b) ∈ pairs items ↔ ∃ i j : Nat, i < j ∧ items[i]? = some a ∧ items[j]? = some b := by
  induction items with
  | nil => simp [pairs]
  | cons first rest ih =>
    unfold pairs
    rw [List.mem_append, ih, List.mem_map]
    constructor
    · rintro (⟨b, hb, heq⟩ | ⟨i, j, hij, ha, hb⟩)
      · cases heq
        obtain ⟨j, hj⟩ := List.mem_iff_getElem?.mp hb
        exact ⟨0, j + 1, Nat.succ_pos j, rfl, hj⟩
      · exact ⟨i + 1, j + 1, Nat.succ_lt_succ hij, ha, hb⟩
    · rintro ⟨i, j, hij, ha, hb⟩
      obtain ⟨j, rfl⟩ := Nat.exists_eq_succ_of_ne_zero (Nat.ne_zero_of_lt hij)
      cases i with
      | zero =>
        cases ha
        exact .inl ⟨b, List.mem_of_getElem? hb, rfl⟩
      | succ i => exact .inr ⟨i, j, Nat.lt_of_succ_lt_succ hij, ha, hb⟩

/-- No two of the pairs are of the same items. -/
theorem pairs_pairwise {items : List α} {f : α → β} (h : (items.map f).Nodup) :
    (pairs items).Pairwise fun p q => (f p.1, f p.2) ≠ (f q.1, f q.2) ∧ (f p.1, f p.2) ≠ (f q.2, f q.1) := by
  induction items with
  | nil => exact .nil
  | cons first rest ih =>
    obtain ⟨hfirst, hrest⟩ := List.nodup_cons.mp h
    have hne : ∀ a ∈ rest, f first ≠ f a := fun a ha heq => hfirst (heq ▸ List.mem_map_of_mem ha)
    unfold pairs
    refine List.pairwise_append.mpr ⟨List.pairwise_map.mpr ?_, ih hrest, ?_⟩
    · refine (List.pairwise_map.mp hrest).imp_of_mem fun {a b} _ hb hab => ⟨?_, ?_⟩
      · exact fun heq => hab (congrArg Prod.snd heq)
      · exact fun heq => hne b hb (congrArg Prod.fst heq)
    · rintro _ hp ⟨a, b⟩ hq
      obtain ⟨other, -, rfl⟩ := List.mem_map.mp hp
      obtain ⟨i, j, -, ha, hb⟩ := mem_pairs.mp hq
      exact ⟨fun heq => hne a (List.mem_of_getElem? ha) (congrArg Prod.fst heq),
        fun heq => hne b (List.mem_of_getElem? hb) (congrArg Prod.fst heq)⟩

/-! ## Loops that can give up -/

theorem mapM_eq_some {f : α → Option β} {items : List α} {images : List β} :
    items.mapM f = some images ↔ List.Forall₂ (fun a b => f a = some b) items images := by
  induction items generalizing images with
  | nil =>
    rw [List.mapM_nil, List.forall₂_nil_left_iff]
    exact ⟨fun h => (Option.some.inj h).symm, fun h => congrArg some h.symm⟩
  | cons a rest ih =>
    rw [List.mapM_cons, List.forall₂_cons_left_iff]
    constructor
    · intro h
      obtain ⟨b, hb, h⟩ := Option.bind_eq_some_iff.mp h
      obtain ⟨others, hothers, h⟩ := Option.bind_eq_some_iff.mp h
      cases h
      exact ⟨b, others, hb, ih.mp hothers, rfl⟩
    · rintro ⟨b, others, hb, hothers, rfl⟩
      rw [hb, ih.mpr hothers]
      rfl

/-- **The walk rule.** What holds before the first item and is kept by each holds after the last. -/
theorem foldlM_rule {f : β → α → Option β} {items : List α} {start stop : β} {I : List α → β → Prop}
    (h : items.foldlM f start = some stop) (hstart : I [] start)
    (hstep : ∀ done a rest b b', items = done ++ a :: rest → done.foldlM f start = some b → I done b →
      f b a = some b' → I (done ++ [a]) b') : I items stop := by
  have hwalk : ∀ rest done b, items = done ++ rest → done.foldlM f start = some b → I done b →
      rest.foldlM f b = some stop → I items stop := by
    intro rest
    induction rest with
    | nil =>
      intro done b hitems _ hdone h
      cases h
      rwa [hitems, List.append_nil]
    | cons a rest ih =>
      intro done b hitems hbefore hdone h
      rw [List.foldlM_cons] at h
      obtain ⟨b', hb', h⟩ := Option.bind_eq_some_iff.mp h
      refine ih (done ++ [a]) b' (by rw [hitems, List.append_assoc]; rfl) ?_ ?_ h
      · rw [List.foldlM_append, hbefore]
        simpa using hb'
      · exact hstep done a rest b b' hitems hbefore hdone hb'
  exact hwalk items [] start rfl rfl hstart h

/-- A walk that gives up does so at one of the items. -/
theorem foldlM_eq_none {f : β → α → Option β} {items : List α} {start : β} (h : items.foldlM f start = none) :
    ∃ done a rest b, items = done ++ a :: rest ∧ done.foldlM f start = some b ∧ f b a = none := by
  induction items generalizing start with
  | nil => cases h
  | cons a rest ih =>
    cases hstep : f start a with
    | none => exact ⟨[], a, rest, start, rfl, rfl, hstep⟩
    | some b =>
      rw [List.foldlM_cons, hstep] at h
      obtain ⟨done, a', rest', b', rfl, hdone, hnone⟩ := ih h
      refine ⟨a :: done, a', rest', b', rfl, ?_, hnone⟩
      rw [List.foldlM_cons, hstep]
      exact hdone

/-- A walk over the items in steps of a relation. -/
inductive Walk (R : α → β → β → Prop) : List α → β → β → Prop
  | nil (b : β) : Walk R [] b b
  | cons {a : α} {rest : List α} {b next stop : β} (step : R a b next) (walk : Walk R rest next stop) :
    Walk R (a :: rest) b stop

/-- A loop whose turns are the steps of a relation is a walk. -/
theorem foldlM_eq_some_iff {R : α → β → β → Prop} {f : β → α → Option β}
    (hf : ∀ b a b', f b a = some b' ↔ R a b b') {items : List α} {start stop : β} :
    items.foldlM f start = some stop ↔ Walk R items start stop := by
  induction items generalizing start with
  | nil =>
    refine ⟨fun h => ?_, fun h => ?_⟩
    · cases h
      exact .nil _
    · cases h
      rfl
  | cons a rest ih =>
    rw [List.foldlM_cons, Option.bind_eq_bind, Option.bind_eq_some_iff]
    constructor
    · rintro ⟨next, hstep, hrest⟩
      exact .cons ((hf _ a next).mp hstep) (ih.mp hrest)
    · rintro (_ | ⟨hstep, hwalk⟩)
      exact ⟨_, (hf _ a _).mpr hstep, ih.mpr hwalk⟩

end Zflow.Lib
