import Zflow.Daemon.Policy
import Zflow.Daemon.Scrolling
import Zflow.Laws.Core.ReceiverLog
import Zflow.Laws.Linux.Wheel
import Zflow.Laws.Macos.Pointer

/-!
# Scrolling loses nothing

A sequence of displacements scrolls well (`ScrollsWell`) when it can be turned around and back on every platform,
when the clicks of a Linux pointer add up to its high-resolution units, and when the pixels of a Mac are decided by
its total. The last two hold of every sequence. The first does not: an `i64` has no opposite of its least value,
the peer chooses the totals that a displacement is the difference of, and a receiver emits that difference. **A
sequence scrolls well exactly when no scroll of it is the least `i64`** (`scrolls_well_iff`).
-/

namespace Zflow

open Zflow.Core Lib Linux Macos

/-! ## Turning an amount around -/

/-- An `i64` other than the least one. -/
def Turnable (amount : Int) : Prop := InI64 amount ∧ amount ≠ i64Min

theorem turnable_iff {amount : Int} : Turnable amount ↔ InI64 amount ∧ InI64 (-amount) := by
  unfold Turnable InI64 i64Min i64Max
  omega

theorem turnable_neg {amount : Int} : Turnable (-amount) ↔ Turnable amount := by
  rw [turnable_iff, turnable_iff, Int.neg_neg, and_comm]

/-- Windows turns such an amount around as the others do. -/
theorem flip_of_turnable {amount : Int} (h : Turnable amount) : Windows.flip amount = -amount :=
  saturateI64_of_inI64 (turnable_iff.mp h).2

theorem flip_flip {amount : Int} (h : Turnable amount) : Windows.flip (Windows.flip amount) = amount := by
  rw [flip_of_turnable h, flip_of_turnable (turnable_neg.mpr h), Int.neg_neg]

/-! ## Turning effects around -/

/-- The scrolls of a displacement have opposites. -/
def Motion.Turnable (motion : Motion) : Prop :=
  Zflow.Turnable motion.1.scrollX ∧ Zflow.Turnable motion.1.scrollY

/-- A displacement with its scrolling turned around. -/
def Motion.turned (motion : Motion) : Motion :=
  ({ motion.1 with scrollX := -motion.1.scrollX, scrollY := -motion.1.scrollY }, motion.2)

theorem Motion.turned_turned (motion : Motion) : motion.turned.turned = motion := by
  obtain ⟨⟨dx, dy, scrollX, scrollY⟩, through⟩ := motion
  simp [turned]

theorem Motion.turnable_turned {motion : Motion} (h : motion.Turnable) : motion.turned.Turnable :=
  ⟨turnable_neg.mpr h.1, turnable_neg.mpr h.2⟩

theorem negateScroll_eq_some {motion : Motion} {effect : ReceiverEffect} : negateScroll motion.effect = some effect ↔
      InI64 (-motion.1.scrollX) ∧ InI64 (-motion.1.scrollY) ∧ effect = motion.turned.effect := by
  unfold negateScroll Motion.effect Motion.turned checkedI64
  by_cases hx : InI64 (-motion.1.scrollX) <;> by_cases hy : InI64 (-motion.1.scrollY) <;>
    simp [hx, hy, eq_comm]

/-- An effect can be turned around and back exactly when its scrolls have opposites. -/
theorem negateScroll_involutes {motion : Motion} :
    (∃ effect, negateScroll motion.effect = some effect ∧ negateScroll effect = some motion.effect) ↔
      motion.Turnable := by
  constructor
  · rintro ⟨effect, hturn, hback⟩
    obtain ⟨hx, hy, rfl⟩ := negateScroll_eq_some.mp hturn
    obtain ⟨hx', hy', -⟩ := negateScroll_eq_some.mp hback
    simp only [Motion.turned, Int.neg_neg] at hx' hy'
    exact ⟨turnable_iff.mpr ⟨hx', hx⟩, turnable_iff.mpr ⟨hy', hy⟩⟩
  · intro h
    have hback := Motion.turnable_turned h
    refine ⟨motion.turned.effect, negateScroll_eq_some.mpr ?_, negateScroll_eq_some.mpr ?_⟩
    · exact ⟨(turnable_iff.mp h.1).2, (turnable_iff.mp h.2).2, rfl⟩
    · rw [Motion.turned_turned]
      exact ⟨(turnable_iff.mp hback.1).2, (turnable_iff.mp hback.2).2, rfl⟩

/-- A list is mapped there and back exactly when each of its elements is. -/
theorem mapM_involutes {α : Type} {f : α → Option α} {xs : List α} :
    (∃ ys, xs.mapM f = some ys ∧ ys.mapM f = some xs) ↔ ∀ x ∈ xs, ∃ y, f x = some y ∧ f y = some x := by
  induction xs with
  | nil => simp
  | cons x xs ih =>
    rw [List.forall_mem_cons, ← ih]
    constructor
    · rintro ⟨ys, hthere, hback⟩
      simp only [List.mapM_cons, Option.bind_eq_bind, Option.bind_eq_some_iff, Option.pure_def,
        Option.some.injEq] at hthere
      obtain ⟨y, hy, rest, hrest, rfl⟩ := hthere
      simp only [List.mapM_cons, Option.bind_eq_bind, Option.bind_eq_some_iff, Option.pure_def,
        Option.some.injEq, List.cons.injEq] at hback
      obtain ⟨_, hx, _, hxs, rfl, rfl⟩ := hback
      exact ⟨⟨y, hy, hx⟩, rest, hrest, hxs⟩
    · rintro ⟨⟨y, hy, hx⟩, ys, hys, hxs⟩
      exact ⟨y :: ys, by simp [hy, hys], by simp [hx, hxs]⟩

theorem turns_back_iff {stream : List Motion} : (∃ turned, (stream.map Motion.effect).mapM negateScroll = some turned ∧
        turned.mapM negateScroll = some (stream.map Motion.effect)) ↔
      ∀ motion ∈ stream, motion.Turnable := by
  rw [mapM_involutes, List.forall_mem_map]
  exact forall₂_congr fun motion _ => negateScroll_involutes

/-! ## The whole -/

/-- The scrolls of a sequence, on both axes. -/
def scrolls (stream : List Motion) : List (Int × Int) :=
  stream.map fun motion => (motion.1.scrollX, motion.1.scrollY)

/-- On Linux, for both axes: the clicks and the remainder are the high-resolution units, and the remainder is under
a click. -/
def WheelsExact (stream : List Motion) : Prop :=
  ∃ reports w, meter LegacyWheels.motion .new (stream.map Prod.fst) = some (reports, w) ∧ w.Carried ∧
    wheelClickUnits * movedBy .relHwheel reports.flatten + w.legacyHwheelRemainder =
      movedBy .relHwheelHiRes reports.flatten ∧
    wheelClickUnits * movedBy .relWheel reports.flatten + w.legacyWheelRemainder =
      movedBy .relWheelHiRes reports.flatten

/-- On the Mac: no stream overflows. Of two streams in range with one total the pixels add up to the same, and a
stream in range both ways posts its pixels turned around when it is turned around. -/
def PixelsExact (stream : List (Int × Int)) : Prop :=
  ∃ posts last, meter ScrollScale.pixels .default stream = some (posts, last) ∧
    (Steady stream → ∀ other, Steady other → other.sum = stream.sum → ∃ posts' last',
      meter ScrollScale.pixels .default other = some (posts', last') ∧
        (posts'.map posted).sum = (posts.map posted).sum) ∧
    (Steady stream → Steady (stream.map Neg.neg) → ∃ last',
      meter ScrollScale.pixels .default (stream.map Neg.neg) = some (posts.map (Option.map Neg.neg), last'))

theorem pixels_exact (stream : List (Int × Int)) : PixelsExact stream := by
  obtain ⟨posts, last, hrun⟩ := ScrollScale.pixels_total .default stream
  refine ⟨posts, last, hrun, fun h other hother hsum => ?_, fun h hneg => ?_⟩
  · obtain ⟨posts', last', _, _, hrun', hstream, heq⟩ := posted_total hother h hsum
    rw [hrun] at hstream
    cases hstream
    exact ⟨posts', last', hrun', heq⟩
  · obtain ⟨_, _, last', hstream, hrun'⟩ := posted_neg h hneg
    rw [hrun] at hstream
    cases hstream
    exact ⟨last', hrun'⟩

/-- A sequence of displacements scrolls as it should, whichever platform it reaches. -/
structure ScrollsWell (stream : List Motion) : Prop where
  daemon : ∃ turned, Daemon.turnScrolling (stream.map Motion.effect) = some turned ∧
    Daemon.turnScrolling turned = some (stream.map Motion.effect)
  macos : ∃ turned, Macos.turnScrolling (stream.map Motion.effect) = some turned ∧
    Macos.turnScrolling turned = some (stream.map Motion.effect)
  windows : ∀ motion ∈ stream, Windows.flip (Windows.flip motion.1.scrollX) = motion.1.scrollX ∧
    Windows.flip (Windows.flip motion.1.scrollY) = motion.1.scrollY
  wheels : WheelsExact stream
  pixels : PixelsExact (scrolls stream)

/-- **A sequence scrolls well exactly when no scroll of it is the least `i64`.** -/
theorem scrolls_well_iff (stream : List Motion) :
    ScrollsWell stream ↔ ∀ motion ∈ stream, motion.Turnable := by
  constructor
  · intro h
    exact turns_back_iff.mp h.daemon
  · intro h
    exact {
      daemon := turns_back_iff.mpr h
      macos := turns_back_iff.mpr h
      windows := fun motion hmem => ⟨flip_flip (h motion hmem).1, flip_flip (h motion hmem).2⟩
      wheels := LegacyWheels.motion_exact (stream.map Prod.fst)
      pixels := pixels_exact (scrolls stream) }

/-! ## What a receiver emits -/

/-- An anchor that moves the wheel to the least `i64` at once. -/
def farAnchor : MotionAnchor := ⟨1, 1, 0, ⟨0, 0, 0, i64Min⟩, ∅, .checkpoint⟩

/-- A peer that opens an activation and sends a snapshot with that anchor. -/
def farCalls : List ReceiverCall :=
  [.receiveControl (sampleControl 1 .enter) 10,
    .receiveControl (sampleControl 2 (.stateSnapshot ⟨.neutral, farAnchor⟩)) 20]

/-- A receiver emits a scroll of the least `i64`, and the daemon cannot turn it around. -/
theorem not_scrolls_well :
    ¬ ∀ (config : ReceiverConfig) (now : MonotonicTimeMicros) (r : Receiver), Receiver.new config now = .ok r →
      ∀ calls : List ReceiverCall, ScrollsWell (motions (r.runCalls calls).1) := by
  intro h
  have hwell := h sampleConfig 0 sampleReceiver rfl farCalls
  have hemitted : (⟨0, 0, 0, i64Min⟩, 1) ∈ motions (sampleReceiver.runCalls farCalls).1 := by decide +kernel
  have hturn := (turns_back_iff.mp hwell.daemon) _ hemitted
  exact hturn.2.2 rfl

end Zflow
