import Zflow.Lib.Bytes

/-!
# Byte streams that arrive in stretches

A stream is what its reads bring, however it is cut, and how it ends. Reading so many bytes takes as many
stretches as it needs and leaves the rest of the last one; what is read depends on the bytes alone
(`readExact_of_le`), and a stream too short for it gives none (`readExact_of_lt`).
-/

namespace Zflow.Lib

/-- What the reads of a stream bring, in order, and whether it breaks after that rather than end. -/
structure Arrivals where
  stretches : List (List UInt8)
  breaks : Bool

/-- Why a read gave less than it was asked for. -/
inductive ReadFailure where
  | unexpectedEof
  | other

namespace Arrivals

/-- All bytes that arrive. -/
def bytes (s : Arrivals) : List UInt8 := s.stretches.flatten

/-- How a stream ends. -/
def ending (s : Arrivals) : ReadFailure := if s.breaks then .other else .unexpectedEof

/-- Stretches until so many bytes are there, and what is left of them. -/
def gather : Nat → List (List UInt8) → Option (List UInt8 × List (List UInt8))
  | 0, stretches => some ([], stretches)
  | _ + 1, [] => none
  | n + 1, stretch :: rest =>
    if n + 1 < stretch.length then some (stretch.take (n + 1), stretch.drop (n + 1) :: rest)
    else (gather (n + 1 - stretch.length) rest).map fun (more, left) => (stretch ++ more, left)

/-- Reads exactly so many bytes. -/
def readExact (n : Nat) (s : Arrivals) : Except ReadFailure (List UInt8 × Arrivals) :=
  match gather n s.stretches with
  | none => .error s.ending
  | some (bytes, stretches) => .ok (bytes, { s with stretches })

theorem gather_of_le {n : Nat} {stretches : List (List UInt8)} (h : n ≤ stretches.flatten.length) :
    ∃ left, gather n stretches = some (stretches.flatten.take n, left) ∧ left.flatten = stretches.flatten.drop n := by
  induction stretches generalizing n with
  | nil =>
    obtain rfl := Nat.le_zero.mp h
    exact ⟨[], rfl, rfl⟩
  | cons stretch rest ih =>
    cases n with
    | zero => exact ⟨stretch :: rest, rfl, rfl⟩
    | succ n =>
      rw [gather, List.flatten_cons]
      rw [List.flatten_cons, List.length_append] at h
      split
      · rename_i hshort
        refine ⟨stretch.drop (n + 1) :: rest, ?_, ?_⟩
        · rw [List.take_append_of_le_length (Nat.le_of_lt hshort)]
        · rw [List.flatten_cons, List.drop_append_of_le_length (Nat.le_of_lt hshort)]
      · rename_i hlong
        have hlong := Nat.le_of_not_lt hlong
        obtain ⟨left, hleft, hrest⟩ := ih (n := n + 1 - stretch.length) (by omega)
        refine ⟨left, ?_, ?_⟩
        · rw [hleft, List.take_append, List.take_of_length_le hlong]
          rfl
        · rw [hrest, List.drop_append, List.drop_eq_nil_of_le hlong, List.nil_append]

theorem gather_of_lt {n : Nat} {stretches : List (List UInt8)} (h : stretches.flatten.length < n) :
    gather n stretches = none := by
  induction stretches generalizing n with
  | nil =>
    cases n with
    | zero => exact absurd h (Nat.not_lt_zero _)
    | succ n => rfl
  | cons stretch rest ih =>
    rw [List.flatten_cons, List.length_append] at h
    cases n with
    | zero => exact absurd h (Nat.not_lt_zero _)
    | succ n => rw [gather, if_neg (by omega), ih (by omega), Option.map_none]

/-- **What is read depends on the bytes alone**, however they are cut. -/
theorem readExact_of_le {n : Nat} {s : Arrivals} (h : n ≤ s.bytes.length) :
    ∃ left, s.readExact n = .ok (s.bytes.take n, left) ∧ left.bytes = s.bytes.drop n ∧ left.breaks = s.breaks := by
  obtain ⟨left, hleft, hrest⟩ := gather_of_le h
  exact ⟨{ s with stretches := left }, by rw [readExact, hleft]; rfl, hrest, rfl⟩

/-- A stretch that all arrives is read, and what follows it is left. -/
theorem readExact_append {s : Arrivals} {before after : List UInt8} {n : Nat} (hn : before.length = n)
    (h : s.bytes = before ++ after) :
    ∃ left, s.readExact n = .ok (before, left) ∧ left.bytes = after ∧ left.breaks = s.breaks := by
  subst hn
  obtain ⟨left, hread, hrest, hbreaks⟩ := readExact_of_le (n := before.length) (s := s) (by simp [h])
  refine ⟨left, ?_, ?_, hbreaks⟩
  · rw [hread, h, List.take_left]
  · rw [hrest, h, List.drop_left]

/-- A stream that ends before gives its ending. -/
theorem readExact_of_lt {n : Nat} {s : Arrivals} (h : s.bytes.length < n) : s.readExact n = .error s.ending := by
  rw [readExact, gather_of_lt h]

end Arrivals

end Zflow.Lib
