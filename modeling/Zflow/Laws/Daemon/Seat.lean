import Zflow.Daemon.Seat
import Zflow.Laws.Daemon.Routing

/-!
# An unknown seat lets no input through

Only the watch moves the gate, so between two steps it is the one of what was observed last. `Judged` reads
that against the answers themselves: since when they have been Unknown, and which was the last definite one.
A batch is then taken apart to the admission it was routed under.
-/

namespace Zflow.Daemon

open Zflow.Core Lib Linux InputThread

variable {P D : Type}

/-! ## The gate is the watch's alone -/

namespace Computer

variable {d after : Computer P D}

theorem Same.seatGate (h : d.Same after) : after.shared.seatGate = d.shared.seatGate := by rw [h.shared]

theorem Claimed.seatGate {peer : P} {session : SessionId} {effects : List ReceiverEffect}
    (h : Claimed peer session effects d after) : after.shared.seatGate = d.shared.seatGate := by
  cases h <;> rfl

theorem answered_seatGate (session : SessionId) (actor : Actor P) (opened : Bool)
    (answer : Except String Bool) (d : Computer P D) :
    (answered session actor opened (answer, d)).shared.seatGate = d.shared.seatGate := by
  cases answer <;> rfl

theorem letGo_seatGate (session : SessionId) (actor : Actor P) (round : Bool × Computer P D) :
    (letGo session actor round).shared.seatGate = round.2.shared.seatGate := by
  obtain ⟨done, d⟩ := round
  cases done <;> rfl

theorem retire_seatGate (peer : P) (d : Computer P D) : (d.retire peer).shared.seatGate = d.shared.seatGate := by
  unfold retire
  split
  · exact (same_closeHandle _ _ d).seatGate
  · rfl

theorem updateSeatGate_seatGate (gate : SeatGate) (d : Computer P D) :
    (d.updateSeatGate gate).shared.seatGate = gate := by
  unfold updateSeatGate
  split
  · assumption
  split
  · rfl
  split
  · exact (same_closeSession _ _ _ (d.setSeatGate gate)).seatGate
  · rfl

variable [DecidableEq P]

theorem releaseInbound_seatGate (peer : P) (session : SessionId) (d : Computer P D) :
    (d.releaseInbound peer session).shared.seatGate = d.shared.seatGate := by
  unfold releaseInbound
  split <;> rfl

theorem yieldInbound_seatGate (peer : P) (session : SessionId) (effects : List ReceiverEffect)
    (d : Computer P D) : (d.yieldInbound peer session effects).shared.seatGate = d.shared.seatGate := by
  unfold yieldInbound
  split
  · exact releaseInbound_seatGate peer session d
  · rfl

theorem connect_seatGate (peer : P) (session : SessionId) (record : PeerConfig) (generation : Nat)
    (now : MonotonicTimeMicros) (d : Computer P D) :
    (d.connect peer session record generation now).shared.seatGate = d.shared.seatGate := by
  unfold connect
  split
  · exact (same_closeHandle _ _ d).seatGate
  · exact (same_closeHandle _ _ d).seatGate
  · exact (same_closeHandle _ _ d).seatGate
  · rfl

theorem accept_seatGate (peer : P) (session : SessionId) (generation : Nat) (known closed : Bool)
    (now : MonotonicTimeMicros) (d : Computer P D) :
    (d.accept peer session generation known closed now).2.shared.seatGate = d.shared.seatGate := by
  unfold accept
  split
  · exact (same_closeHandle _ _ d).seatGate
  split
  · rfl
  split
  · rfl
  split
  · exact (same_closeHandle _ _ d).seatGate
  · exact (same_closeHandle _ _ d).seatGate

theorem closed_seatGate (peer : P) (session : SessionId) (d : Computer P D) :
    (d.closed peer session).shared.seatGate = d.shared.seatGate := by
  unfold closed
  rw [releaseInbound_seatGate]
  show (d.removeSessionIfCurrent peer session).shared.seatGate = _
  unfold removeSessionIfCurrent
  split <;> rfl

variable [VirtualInput D]

theorem Routed.seatGate {answers : Answers} {peer : P} {session : SessionId} {effects : List ReceiverEffect}
    {command : ReceiverCommand} {answer : Except String Bool}
    (h : Routed answers peer session effects command d (answer, after)) :
    after.shared.seatGate = d.shared.seatGate := by
  cases h with
  | refused _ hsame _ => exact hsame.seatGate
  | failed _ claimed _ _ hclaimed hafter =>
    rcases hafter with rfl | ⟨-, rfl⟩ <;> exact hclaimed.seatGate
  | kept _ claimed _ _ hclaimed hsame _ =>
    rw [hsame.seatGate, yieldInbound_seatGate, hclaimed.seatGate]
  | handed _ claimed _ _ hclaimed _ hsame _ =>
    rw [hsame.seatGate, yieldInbound_seatGate]
    exact hclaimed.seatGate

/-- A step of the daemon leaves the gate where it was, but for a change of policy. -/
theorem step_seatGate {label : Step P} (h : step label d = some after) :
    after.shared.seatGate = match label with
      | .policy _ _ seatGate => seatGate
      | _ => d.shared.seatGate := by
  cases (step_cases h).2 with
  | policy config generation seatGate => rfl
  | start peer session task _ => rfl
  | batch session effects _ _ actor opened answer routed _ _ _ _ _ hrouted =>
    exact (answered_seatGate session actor opened answer routed).trans hrouted.seatGate
  | stop session opened actor _ _ => rfl
  | cleanup session effects _ actor answer routed _ _ _ _ _ hrouted =>
    exact (answered_seatGate session actor false answer routed).trans hrouted.seatGate
  | closed session actor _ _ _ => exact closed_seatGate actor.peer session d
  | connect session record generation now actor _ _ => exact connect_seatGate ..
  | accept session generation known closed now actor _ _ _ =>
    exact (letGo_seatGate session actor _).trans (accept_seatGate ..)
  | retire peer => exact retire_seatGate peer d

end Computer

/-! ## The grace, read against the answers -/

/-- Since when the answers have all been Unknown, if the latest is. The latest comes first. -/
def unknownFrom : List (SeatState × MonotonicTimeMicros) → Option MonotonicTimeMicros
  | [] => none
  | (answer, at_) :: earlier => if answer.isUnknown then some ((unknownFrom earlier).getD at_) else none

/-- The last definite answer. -/
def definite (answers : List (SeatState × MonotonicTimeMicros)) : Option SeatState :=
  (answers.map Prod.fst).find? (!·.isUnknown)

theorem definite_known {answers : List (SeatState × MonotonicTimeMicros)} {state : SeatState}
    (h : definite answers = some state) : state.isUnknown = false := by
  simpa using List.find?_some h

theorem SeatState.injectionGate_of_unknown {state : SeatState} (h : state.isUnknown = true) :
    state.injectionGate = .denied := by
  cases state with
  | unknown reason => rfl
  | unlocked session => cases h
  | restricted state => cases h

section Answers

variable {answers : List (SeatState × MonotonicTimeMicros)} {next : SeatState} {at_ now : MonotonicTimeMicros}

theorem unknownFrom_of_definite (h : next.isUnknown = false) : unknownFrom ((next, at_) :: answers) = none := by
  simp [unknownFrom, h]

theorem unknownFrom_of_unknown (h : next.isUnknown = true) :
    unknownFrom ((next, at_) :: answers) = some ((unknownFrom answers).getD at_) := by
  simp [unknownFrom, h]

theorem definite_of_definite (h : next.isUnknown = false) : definite ((next, at_) :: answers) = some next := by
  simp [definite, h]

theorem definite_of_unknown (h : next.isUnknown = true) : definite ((next, at_) :: answers) = definite answers := by
  simp [definite, h]

end Answers

namespace SeatGrace

variable {g : SeatGrace} {next : SeatState} {now : MonotonicTimeMicros}

theorem observe_definite (h : next.isUnknown = false) : g.observe next now = ⟨next, none⟩ := by
  simp [observe, h]

theorem observe_unknownSince (h : next.isUnknown = true) :
    (g.observe next now).unknownSince = some (g.unknownSince.getD now) := by
  simp [observe, h]

theorem grace_over_iff {since now : Nat} :
    now - since ≥ seatUnknownGrace.asMicros ↔ since + seatUnknownGrace.asMicros ≤ now := by
  have hpositive : 0 < seatUnknownGrace.asMicros := by decide
  omega

/-- An Unknown that finds no definite state, or has lasted, takes over. -/
theorem observe_takes (h : next.isUnknown = true)
    (hover : g.state.isUnknown = true ∨ g.unknownSince.getD now + seatUnknownGrace.asMicros ≤ now) :
    (g.observe next now).state = next := by
  have htakes : g.state.isUnknown || decide (now - g.unknownSince.getD now ≥ seatUnknownGrace.asMicros) := by
    rcases hover with hstate | hlong
    · rw [hstate]; rfl
    · rw [decide_eq_true (grace_over_iff.mpr hlong), Bool.or_true]
  simp only [observe, h, Bool.not_true, Bool.false_eq_true, if_false]
  exact if_pos htakes

/-- A short one does not. -/
theorem observe_rides (h : next.isUnknown = true) (hstate : g.state.isUnknown = false)
    (hshort : now < g.unknownSince.getD now + seatUnknownGrace.asMicros) : (g.observe next now).state = g.state := by
  simp only [observe, h, Bool.not_true, Bool.false_eq_true, if_false, hstate, Bool.false_or]
  exact if_neg fun hover => Nat.not_le.mpr hshort (grace_over_iff.mp (of_decide_eq_true hover))

end SeatGrace

/-- **How the grace judges the answers**, at a time when every deadline up to it was observed. -/
structure Judged (g : SeatGrace) (answers : List (SeatState × MonotonicTimeMicros))
    (now : MonotonicTimeMicros) : Prop where
  since : g.unknownSince = unknownFrom answers
  sure : ∀ state, unknownFrom answers = none → definite answers = some state → g.state = state
  unsure : definite answers = none → g.state.isUnknown = true
  /-- A definite state rides out an Unknown for the grace. -/
  rides : ∀ since state, unknownFrom answers = some since → definite answers = some state →
    now < since + seatUnknownGrace.asMicros → g.state = state
  /-- An Unknown that has lasted takes over. -/
  lasts : ∀ since, unknownFrom answers = some since → since + seatUnknownGrace.asMicros ≤ now →
    g.state.isUnknown = true

namespace Judged

variable {g : SeatGrace} {answers : List (SeatState × MonotonicTimeMicros)} {next : SeatState}
  {now later since : MonotonicTimeMicros}

theorem answer_definite (h : next.isUnknown = false) :
    Judged (g.observe next later) ((next, later) :: answers) later := by
  have hnone : unknownFrom ((next, later) :: answers) = none := unknownFrom_of_definite h
  have hsome : definite ((next, later) :: answers) = some next := definite_of_definite h
  rw [SeatGrace.observe_definite h]
  refine ⟨hnone.symm, fun state _ hdefinite => ?_, fun hdefinite => ?_, fun since state hsince => ?_,
    fun since hsince => ?_⟩
  · rw [hsome] at hdefinite
    exact Option.some.inj hdefinite
  · rw [hsome] at hdefinite
    cases hdefinite
  · rw [hnone] at hsince
    cases hsince
  · rw [hnone] at hsince
    cases hsince

theorem answer_unknown (hjudged : Judged g answers now) (h : next.isUnknown = true) (hlater : now ≤ later) :
    Judged (g.observe next later) ((next, later) :: answers) later := by
  have hfrom : unknownFrom ((next, later) :: answers) = some (g.unknownSince.getD later) := by
    rw [unknownFrom_of_unknown h, hjudged.since]
  have hdefinite : definite ((next, later) :: answers) = definite answers := definite_of_unknown h
  refine ⟨?_, fun state hnone => ?_, fun hnone => ?_, fun since state hsince hstate hshort => ?_,
    fun since hsince hlong => ?_⟩
  · rw [hfrom, SeatGrace.observe_unknownSince h]
  · rw [hfrom] at hnone
    cases hnone
  · rw [hdefinite] at hnone
    rw [SeatGrace.observe_takes h (.inl (hjudged.unsure hnone))]
    exact h
  · rw [hfrom] at hsince
    cases hsince
    rw [hdefinite] at hstate
    -- Within the grace the state is still the last definite one.
    have hkept : g.state = state := by
      cases hsince : unknownFrom answers with
      | none => exact hjudged.sure state hsince hstate
      | some since =>
        rw [hjudged.since, hsince] at hshort
        exact hjudged.rides since state hsince hstate (lt_of_le_of_lt hlater hshort)
    rw [← hkept]
    exact SeatGrace.observe_rides h (hkept ▸ definite_known hstate) hshort
  · rw [hfrom] at hsince
    cases hsince
    rw [SeatGrace.observe_takes h (.inr hlong)]
    exact h

theorem answer (hjudged : Judged g answers now) (hlater : now ≤ later) :
    Judged (g.observe next later) ((next, later) :: answers) later := by
  cases h : next.isUnknown with
  | false => exact answer_definite h
  | true => exact hjudged.answer_unknown h hlater

theorem start (current : SeatState) (now : MonotonicTimeMicros) : Judged (.new current now) [(current, now)] now := by
  cases h : current.isUnknown with
  | false => exact answer_definite h
  | true =>
    have hnothing : Judged ⟨current, none⟩ [] now := ⟨rfl, nofun, fun _ => h, nofun, nofun⟩
    exact hnothing.answer_unknown h le_rfl

end Judged

theorem SeatGrace.deadline_eq_some {g : SeatGrace} {deadline : MonotonicTimeMicros} :
    g.deadline = some deadline ↔ g.state.isUnknown = false ∧
      ∃ since, g.unknownSince = some since ∧ since + seatUnknownGrace.asMicros = deadline := by
  unfold SeatGrace.deadline
  cases g.state.isUnknown with
  | true => simp
  | false => simp

namespace Judged

variable {g : SeatGrace} {answers : List (SeatState × MonotonicTimeMicros)} {latest : SeatState}
  {now later deadline : MonotonicTimeMicros}

/-- At its deadline a short Unknown is one that has lasted. -/
theorem expires (hjudged : Judged g answers now) (hdeadline : g.deadline = some deadline)
    (hlatest : latest.isUnknown = true) : Judged (g.observe latest deadline) answers deadline := by
  obtain ⟨-, since, hsince, rfl⟩ := SeatGrace.deadline_eq_some.mp hdeadline
  have hfrom : unknownFrom answers = some since := hjudged.since ▸ hsince
  have hover : (g.observe latest (since + seatUnknownGrace.asMicros)).state = latest := by
    apply SeatGrace.observe_takes hlatest (.inr _)
    rw [hsince]
    exact le_rfl
  refine ⟨?_, fun state hnone => ?_, fun _ => ?_, fun other state hother _ hshort => ?_, fun other _ _ => ?_⟩
  · rw [SeatGrace.observe_unknownSince hlatest, hsince, hfrom]
    rfl
  · rw [hfrom] at hnone
    cases hnone
  · rw [hover]
    exact hlatest
  · rw [hfrom] at hother
    cases hother
    exact absurd hshort (lt_irrefl _)
  · rw [hover]
    exact hlatest

/-- Until the next deadline nothing is judged otherwise. -/
theorem nothing (hjudged : Judged g answers now) (hlater : now ≤ later)
    (hdeadline : ∀ deadline, g.deadline = some deadline → later < deadline) : Judged g answers later where
  since := hjudged.since
  sure := hjudged.sure
  unsure := hjudged.unsure
  rides since state hsince hstate hshort :=
    hjudged.rides since state hsince hstate (lt_of_le_of_lt hlater hshort)
  lasts since hsince hlong := by
    cases hstate : g.state.isUnknown with
    | true => rfl
    | false =>
      have hpending := SeatGrace.deadline_eq_some.mpr ⟨hstate, since, hjudged.since.trans hsince, rfl⟩
      exact absurd hlong (Nat.not_le.mpr (hdeadline _ hpending))

end Judged

/-! ## Batches under a gate -/

theorem admitPeer_of_held {config : Config P} {peer : P} {gate : SeatGate} (h : gate.held = true) :
    admitPeer config peer gate ≠ .inject := by
  unfold admitPeer
  rw [h]
  split <;> exact nofun

theorem receiverAuthorized_denied (config : Config P) (peer : P) :
    receiverAuthorized config peer .denied = false := by
  unfold receiverAuthorized
  split
  · rfl
  split
  · rfl
  split <;> rfl

theorem admitPeer_of_denied {config : Config P} {peer : P} {gate : SeatGate} (h : gate.gate = .denied) :
    admitPeer config peer gate = .refuse := by
  unfold admitPeer
  rw [h, receiverAuthorized_denied]
  rfl

theorem admitPeer_eq_inject {config : Config P} {peer : P} {gate : SeatGate}
    (h : admitPeer config peer gate = .inject) :
    gate.held = false ∧ receiverAuthorized config peer gate.gate = true := by
  unfold admitPeer at h
  split at h
  next => cases h
  next hauthorized =>
    split at h
    next => cases h
    next hheld => exact ⟨Bool.eq_false_of_not_eq_true hheld, by simpa using hauthorized⟩

/-- What only an admission to inject lets through. -/
def injects (effect : ReceiverEffect) : Bool := effect.isInjection && !isRelease effect

theorem lets_injects {admission : Admission} {effect : ReceiverEffect} (h : injects effect = true)
    (hlets : admission.lets effect = true) : admission = .inject := by
  obtain ⟨hinjection, hpresses⟩ := Bool.and_eq_true_iff.mp h
  have hnot : isRelease effect = false := by simpa using hpresses
  unfold Admission.lets at hlets
  rw [hinjection] at hlets
  cases admission with
  | inject => rfl
  | hold => exact absurd hlets (by simp [hnot])
  | refuse =>
    have hsafety : isSafetyRelease effect = true := hlets
    exact absurd (isRelease_of_safety hsafety) (by simp [hnot])

theorem injects_reverseScrolling {effects : List ReceiverEffect} {effect : ReceiverEffect}
    (hmem : effect ∈ reverseScrolling effects) (h : injects effect = true) :
    ∃ original ∈ effects, injects original = true := by
  obtain ⟨original, horiginal, rfl⟩ := List.mem_map.mp hmem
  refine ⟨original, horiginal, ?_⟩
  cases original <;> exact h

namespace Computer

/-- What a batch gave the input thread. -/
def handed (d after : Computer P D) : List (Delivery P) := after.delivered.drop d.delivered.length

theorem injects_command {d : Computer P D} {peer : P} {effects : List ReceiverEffect}
    {touchCapturedAt : CapturedAt} {effect : ReceiverEffect}
    (hmem : effect ∈ (d.command peer effects touchCapturedAt).effects) (h : injects effect = true) :
    admitPeer d.shared.config peer d.shared.seatGate = .inject := by
  have hfiltered : ∃ original ∈ (admittedEffects effects
      (admitPeer d.shared.config peer d.shared.seatGate)).1, injects original = true := by
    simp only [command] at hmem
    split at hmem
    · exact injects_reverseScrolling hmem h
    · exact ⟨effect, hmem, h⟩
  obtain ⟨original, horiginal, hinjects⟩ := hfiltered
  exact lets_injects hinjects (List.mem_filter.mp horiginal).2

variable [DecidableEq P] [VirtualInput D]

/-- What a batch gives the input thread is what its admission lets through. -/
theorem handed_injects (answers : Answers) (peer : P) (session : SessionId) (effects : List ReceiverEffect)
    (touchCapturedAt : CapturedAt) (d : Computer P D) :
    ∀ delivery ∈ d.handed (d.routeReceiverEffects answers peer session effects touchCapturedAt).2,
      ∀ effect ∈ delivery.command.effects, injects effect = true →
        admitPeer d.shared.config peer d.shared.seatGate = .inject := by
  intro delivery hdelivery effect hmem hinjects
  have hrouted := routeReceiverEffects_routed answers peer session effects touchCapturedAt d
  generalize d.routeReceiverEffects answers peer session effects touchCapturedAt = result at hdelivery hrouted
  obtain ⟨answer, after⟩ := result
  rcases hrouted.log with ⟨hsame, -⟩ | ⟨claimed, -, -, -, hlog, -⟩
  · simp [handed, hsame] at hdelivery
  · simp only [handed, hlog, List.drop_left, List.mem_singleton] at hdelivery
    subst hdelivery
    exact injects_command hmem hinjects

end Computer

/-! ## Runs -/

namespace Watch

variable [DecidableEq P] [VirtualInput D]

/-- **What holds between two steps.** -/
structure Kept (w : Watch P D) : Prop where
  gate : w.computer.shared.seatGate = if w.watching then w.grace.gate else .refusing
  judged : w.watching = true → Judged w.grace w.answers w.now
  latest : ∃ at_ earlier, w.answers = (w.latest, at_) :: earlier

variable {w after : Watch P D}

omit [VirtualInput D] [DecidableEq P] in
theorem Kept.start (current : SeatState) (now : MonotonicTimeMicros) (computer : Computer P D) :
    (Watch.start current now computer).Kept where
  gate := Computer.updateSeatGate_seatGate _ computer
  judged _ := .start current now
  latest := ⟨now, [], rfl⟩

omit [VirtualInput D] [DecidableEq P] in
/-- What Unknown answers come to, read at the latest. -/
theorem Kept.unknownFrom_eq_none (h : w.Kept) : unknownFrom w.answers = none ↔ w.latest.isUnknown = false := by
  obtain ⟨at_, earlier, hanswers⟩ := h.latest
  rw [hanswers]
  cases hlatest : w.latest.isUnknown with
  | false => simp [unknownFrom_of_definite hlatest]
  | true => simp [unknownFrom_of_unknown hlatest]

omit [VirtualInput D] [DecidableEq P] in
theorem Kept.work (h : w.Kept) {computer : Computer P D}
    (hgate : computer.shared.seatGate = w.computer.shared.seatGate) : ({ w with computer } : Watch P D).Kept where
  gate := hgate.trans h.gate
  judged := h.judged
  latest := h.latest

theorem Kept.step (h : w.Kept) {label : Seen P} (hstep : Watch.step label w = some after) : after.Kept := by
  cases label with
  | answer next now =>
    simp only [Watch.step] at hstep
    split at hstep
    next hguard =>
      cases hstep
      obtain ⟨hwatching, htime⟩ := Bool.and_eq_true_iff.mp hguard
      have hlater : w.now ≤ now := of_decide_eq_true (Bool.and_eq_true_iff.mp htime).1
      refine ⟨?_, fun _ => (h.judged hwatching).answer hlater, ⟨now, w.answers, rfl⟩⟩
      exact (Computer.updateSeatGate_seatGate _ w.computer).trans (if_pos hwatching).symm
    next => cases hstep
  | deadline =>
    simp only [Watch.step] at hstep
    split at hstep
    next deadline hdeadline =>
      split at hstep
      next hwatching =>
        cases hstep
        refine ⟨?_, fun _ => ?_, h.latest⟩
        · exact (Computer.updateSeatGate_seatGate _ w.computer).trans (if_pos hwatching).symm
        · have hjudged := h.judged hwatching
          obtain ⟨-, since, hsince, -⟩ := SeatGrace.deadline_eq_some.mp hdeadline
          have hlatest : w.latest.isUnknown = true := by
            rw [← Bool.not_eq_false, ← h.unknownFrom_eq_none, ← hjudged.since, hsince]
            exact nofun
          exact hjudged.expires hdeadline hlatest
      next => cases hstep
    next => cases hstep
  | nothing now =>
    simp only [Watch.step] at hstep
    split at hstep
    next hguard =>
      cases hstep
      refine ⟨h.gate, fun hwatching => ?_, h.latest⟩
      simp only [inTime, show w.watching = true from hwatching, Bool.not_true, Bool.false_or, Bool.and_eq_true,
        decide_eq_true_eq, Option.all_eq_true] at hguard
      obtain ⟨⟨hlater, hbefore⟩, hnot⟩ := hguard
      refine (h.judged hwatching).nothing hlater fun deadline hdeadline => ?_
      exact lt_of_le_of_ne (hbefore deadline hdeadline) fun heq =>
        hnot (hdeadline.trans (congrArg some heq.symm))
    next => cases hstep
  | gone =>
    cases hstep
    exact ⟨Computer.updateSeatGate_seatGate .refusing w.computer, nofun, h.latest⟩
  | work label =>
    cases label with
    | policy config generation seatGate =>
      obtain ⟨computer, hcomputer, rfl⟩ := Option.map_eq_some_iff.mp hstep
      exact h.work (Computer.step_seatGate hcomputer)
    | _ =>
      obtain ⟨computer, hcomputer, rfl⟩ := Option.map_eq_some_iff.mp hstep
      exact h.work (Computer.step_seatGate hcomputer)

theorem kept_of_reaches {current : SeatState} {now : MonotonicTimeMicros} {computer : Computer P D}
    (h : System.Reaches Watch.step (fun _ _ => True) (start current now computer) w) : w.Kept :=
  h.invariant (.start current now computer) fun _ _ _ hkept _ hstep => hkept.step hstep

omit [VirtualInput D] [DecidableEq P] in
theorem Kept.gate_of_definite (h : w.Kept) (hwatching : w.watching = true) (hlatest : w.latest.isUnknown = false) :
    w.computer.shared.seatGate = ⟨w.latest.injectionGate, false⟩ := by
  obtain ⟨at_, earlier, hanswers⟩ := h.latest
  have hjudged := h.judged hwatching
  have hnone : unknownFrom w.answers = none := h.unknownFrom_eq_none.mpr hlatest
  have hdefinite : definite w.answers = some w.latest := by
    rw [hanswers]
    exact definite_of_definite hlatest
  rw [h.gate, if_pos hwatching, SeatGrace.gate, hjudged.since, hnone, hjudged.sure _ hnone hdefinite]
  rfl

omit [VirtualInput D] [DecidableEq P] in
theorem Kept.gate_of_unknown (h : w.Kept) (hwatching : w.watching = true) (hlatest : w.latest.isUnknown = true) :
    w.computer.shared.seatGate = ⟨w.grace.state.injectionGate, true⟩ := by
  have hsince : (unknownFrom w.answers).isSome = true := by
    rw [Option.isSome_iff_ne_none, ne_eq, h.unknownFrom_eq_none, hlatest]
    exact nofun
  rw [h.gate, if_pos hwatching, SeatGrace.gate, (h.judged hwatching).since, hsince]

omit [VirtualInput D] [DecidableEq P] in
theorem Kept.held_eq (h : w.Kept) (hwatching : w.watching = true) :
    w.computer.shared.seatGate.held = w.latest.isUnknown := by
  cases hlatest : w.latest.isUnknown with
  | false => rw [h.gate_of_definite hwatching hlatest]
  | true => rw [h.gate_of_unknown hwatching hlatest]

omit [VirtualInput D] [DecidableEq P] in
/-- An Unknown that rides on nothing, or has lasted, is the gate. -/
theorem Kept.gate_of_lasting (h : w.Kept) (hwatching : w.watching = true) {since : MonotonicTimeMicros}
    (hsince : unknownFrom w.answers = some since)
    (hover : since + seatUnknownGrace.asMicros ≤ w.now ∨ definite w.answers = none) :
    w.computer.shared.seatGate = ⟨w.latest.injectionGate, true⟩ := by
  have hjudged := h.judged hwatching
  have hlatest : w.latest.isUnknown = true := by
    rw [← Bool.not_eq_false, ← h.unknownFrom_eq_none, hsince]
    exact nofun
  have hstate : w.grace.state.isUnknown = true := hover.elim (hjudged.lasts since hsince) hjudged.unsure
  rw [h.gate_of_unknown hwatching hlatest, SeatState.injectionGate_of_unknown hstate,
    SeatState.injectionGate_of_unknown hlatest]

omit [VirtualInput D] [DecidableEq P] in
/-- Only a definite answer that authorizes the peer has it inject. -/
theorem Kept.authorized (h : w.Kept) {peer : P}
    (hinject : admitPeer w.computer.shared.config peer w.computer.shared.seatGate = .inject) :
    w.latest.isUnknown = false ∧ receiverAuthorized w.computer.shared.config peer w.latest.injectionGate = true := by
  obtain ⟨hheld, hauthorized⟩ := admitPeer_eq_inject hinject
  cases hwatching : w.watching with
  | true =>
    have hlatest : w.latest.isUnknown = false := (h.held_eq hwatching).symm.trans hheld
    rw [h.gate_of_definite hwatching hlatest] at hauthorized
    exact ⟨hlatest, hauthorized⟩
  | false =>
    rw [h.gate, hwatching] at hauthorized
    exact absurd hauthorized (by simp [SeatGate.refusing, receiverAuthorized_denied])

/-- While the seat is watched, the gate is held exactly while the latest answer is Unknown, an Unknown that
has lasted or finds no definite answer refuses the peer, and a definite one takes effect at once. Held, the
gate admits no injection, and what a batch gives the input thread, but for releases and for what only marks
an activation, was admitted under a definite answer that authorizes the peer. -/
theorem unknown_seat_injects_nothing {current : SeatState} {now : MonotonicTimeMicros} {computer : Computer P D}
    (h : System.Reaches Watch.step (fun _ _ => True) (start current now computer) w) : (w.watching = true →
      w.computer.shared.seatGate.held = w.latest.isUnknown ∧ (∀ since, unknownFrom w.answers = some since →
        since + seatUnknownGrace.asMicros ≤ w.now ∨ definite w.answers = none →
          w.computer.shared.seatGate = ⟨w.latest.injectionGate, true⟩ ∧
            ∀ peer, admitPeer w.computer.shared.config peer w.computer.shared.seatGate = .refuse) ∧
      (w.latest.isUnknown = false → w.computer.shared.seatGate = ⟨w.latest.injectionGate, false⟩)) ∧
    (w.computer.shared.seatGate.held = true →
      ∀ peer, admitPeer w.computer.shared.config peer w.computer.shared.seatGate ≠ .inject) ∧
    ∀ (answers : Answers) (peer : P) (session : SessionId) (effects : List ReceiverEffect)
      (touchCapturedAt : CapturedAt), ∀ delivery ∈ w.computer.handed
        (w.computer.routeReceiverEffects answers peer session effects touchCapturedAt).2,
      ∀ effect ∈ delivery.command.effects, effect.isInjection = true → isRelease effect = false →
        w.latest.isUnknown = false ∧
          receiverAuthorized w.computer.shared.config peer w.latest.injectionGate = true := by
  have hkept := kept_of_reaches h
  refine ⟨fun hwatching => ⟨hkept.held_eq hwatching, fun since hsince hover => ?_,
    hkept.gate_of_definite hwatching⟩, fun hheld peer => admitPeer_of_held hheld, ?_⟩
  · have hgate := hkept.gate_of_lasting hwatching hsince hover
    have hlatest : w.latest.isUnknown = true := by
      rw [← hkept.held_eq hwatching, hgate]
    refine ⟨hgate, fun peer => admitPeer_of_denied ?_⟩
    rw [hgate]
    exact SeatState.injectionGate_of_unknown hlatest
  · intro answers peer session effects touchCapturedAt delivery hdelivery effect hmem hinjection hpresses
    have hinjects : injects effect = true := by rw [injects, hinjection, hpresses]; rfl
    exact hkept.authorized (Computer.handed_injects answers peer session effects touchCapturedAt
      w.computer delivery hdelivery effect hmem hinjects)

/-! A desk whose peer has a session, and whose seat logind does not answer for. -/

def unlockedSeat : SeatState := .unlocked ⟨"2", 1000, .wayland⟩

def sendingPeer : PeerConfig := ⟨some 1, ⟨true, true, false, false⟩, .standard, false⟩

def seatedDesk : Computer Unit PlainInput :=
  .start ⟨true, false, fun _ => some sendingPeer⟩ 0 .refusing .atRest

def routedFreely : Answers := ⟨true, .idle, .queued, true⟩

/-- The session is registered, and at 5 the seat is Unknown. -/
def seatHeld : List (Seen Unit) :=
  [.work (.start () 1 .accepting), .work (.accept 1 0 true false 0), .answer (.unknown "slow") 5]

/-- The grace of the seat runs out at its deadline. -/
def seatLost : List (Seen Unit) := seatHeld ++ [.nothing 600000, .deadline, .nothing 2000000]

theorem unknown_seat_injects_nothing_lost : ∃ w : Watch Unit PlainInput,
      System.Reaches Watch.step (fun _ _ => True) (start unlockedSeat 0 seatedDesk) w ∧
        w.now = 2000000 ∧ w.computer.shared.seatGate = ⟨.denied, true⟩ ∧
        admitPeer w.computer.shared.config () w.computer.shared.seatGate = .refuse := by
  have hrun : ((System.guarded Watch.step fun _ _ => True).exec seatLost
      (start unlockedSeat 0 seatedDesk)).any (fun w => w.watching = true ∧ w.now = 2000000 ∧
        w.latest = .unknown "slow" ∧ unknownFrom w.answers = some 5) = true := by decide +kernel
  obtain ⟨w, hreaches, hfacts⟩ := System.exists_reaches_of_exec hrun
  obtain ⟨hwatching, hnow, hlatest, hsince⟩ := of_decide_eq_true hfacts
  have hlong : 5 + seatUnknownGrace.asMicros ≤ w.now := by rw [hnow]; decide
  obtain ⟨hgate, hrefused⟩ := ((unknown_seat_injects_nothing hreaches).1 hwatching).2.1 5 hsince (.inl hlong)
  rw [hlatest] at hgate
  exact ⟨w, hreaches, hnow, hgate, hrefused ()⟩

/-- A hold lets an activation open, which sets up the keyboard for it. -/
theorem unknown_seat_opens_activation :
    ¬ ∀ (current : SeatState) (now : MonotonicTimeMicros) (computer : Computer Unit PlainInput)
      (w : Watch Unit PlainInput), System.Reaches Watch.step (fun _ _ => True) (start current now computer) w →
        ∀ (answers : Answers) (peer : Unit) (session : SessionId) (effects : List ReceiverEffect)
          (touchCapturedAt : CapturedAt), ∀ delivery ∈ w.computer.handed
            (w.computer.routeReceiverEffects answers peer session effects touchCapturedAt).2,
          ∀ effect ∈ delivery.command.effects, isRelease effect = false → w.latest.isUnknown = false ∧
              receiverAuthorized w.computer.shared.config peer w.latest.injectionGate = true := by
  intro h
  have hrun : ((System.guarded Watch.step fun _ _ => True).exec seatHeld
      (start unlockedSeat 0 seatedDesk)).any (fun w => w.latest.isUnknown = true ∧
        (w.computer.handed (w.computer.routeReceiverEffects routedFreely () 1
          [.activationOpened ⟨1, 1, 1⟩] none).2).any fun delivery =>
            delivery.command.effects.any fun effect => !isRelease effect) = true := by decide +kernel
  obtain ⟨w, hreaches, hfacts⟩ := System.exists_reaches_of_exec hrun
  obtain ⟨hunknown, hhanded⟩ := of_decide_eq_true hfacts
  obtain ⟨delivery, hdelivery, heffects⟩ := List.any_eq_true.mp hhanded
  obtain ⟨effect, heffect, hrelease⟩ := List.any_eq_true.mp heffects
  have hdefinite := (h unlockedSeat 0 seatedDesk w hreaches routedFreely () 1 [.activationOpened ⟨1, 1, 1⟩]
    none delivery hdelivery effect heffect (by simpa using hrelease)).1
  rw [hunknown] at hdefinite
  cases hdefinite

end Watch

end Zflow.Daemon
