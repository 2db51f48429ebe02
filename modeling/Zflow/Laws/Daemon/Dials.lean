import Zflow.Daemon.Dials
import Zflow.Laws.Daemon.Routing

/-!
# Simultaneous dials agree on one connection

The side whose dial is to be kept (`winner`) registers it in any case, and the other side keeps it once
it has it. What can go wrong is the winner's own `retire_session`: it closes whatever is registered when
it looks, and the own dial may have been registered since the task looked for it (`both_closed`). So the
law is about the runs in which it never finds that (`Spares`).
-/

namespace Zflow.Daemon.Dials

open Zflow.Core Linux InputThread Lib

variable {P D : Type} [DecidableEq P] [VirtualInput D] {p : Pairing P}

/-! ## The winner -/

omit [DecidableEq P] in
theorem Pairing.wins_eq (p : Pairing P) (side : Bool) : winsDial (p.config side) (p.fingerprint side) (p.name side) =
      decide (p.fingerprint side < p.fingerprint (!side)) := by
  unfold winsDial
  rw [p.trusts side, Option.bind_some, p.knows side, Option.any_some]

omit [DecidableEq P] in
/-- Exactly one side wins. -/
theorem Pairing.wins_iff (p : Pairing P) (side : Bool) :
    winsDial (p.config side) (p.fingerprint side) (p.name side) = true ↔ side = p.winner := by
  have hdistinct : p.fingerprint false ≠ p.fingerprint true := p.distinct
  unfold winner
  rw [p.wins_eq, p.wins_eq, decide_eq_true_iff]
  cases side with
  | true =>
    rw [eq_comm, decide_eq_true_iff]
  | false =>
    rw [eq_comm, decide_eq_false_iff_not]
    show p.fingerprint false < p.fingerprint true ↔ ¬ p.fingerprint true < p.fingerprint false
    constructor
    · exact fun hlt => Nat.lt_asymm hlt
    · exact fun hge => Nat.lt_of_le_of_ne (Nat.le_of_not_lt hge) hdistinct

omit [DecidableEq P] in
theorem Pairing.session_ne (p : Pairing P) (side : Bool) {origin other : Bool} (h : origin ≠ other) :
    p.session side origin ≠ p.session side other := by
  have hfresh := p.fresh side
  cases origin <;> cases other
  · exact absurd rfl h
  · exact hfresh
  · exact hfresh.symm
  · exact absurd rfl h

omit [DecidableEq P] in
theorem Pairing.session_inj (p : Pairing P) {side origin other : Bool}
    (h : p.session side origin = p.session side other) : origin = other :=
  Decidable.byContradiction fun hne => p.session_ne side hne h

/-! ## What holds on each side -/

/-- **What holds of a daemon**: its session on the winner's connection runs and is not closed, and is
registered from the moment its task is done. -/
structure Kept (p : Pairing P) (side : Bool) (arrival : Arrival) (d : Computer P D) : Prop where
  config : d.shared.config = p.config side
  fingerprint : d.shared.identityFingerprint = p.fingerprint side
  generation : d.shared.policyGeneration = 0
  named : ∀ peer, peer ≠ p.name side → d.shared.sessions peer = none
  registered : ∀ session, d.shared.sessions (p.name side) = some session →
    ∃ origin a, session = p.session side origin ∧ d.actors session = some a
  peers : ∀ session a, d.actors session = some a → a.peer = p.name side
  tasks : ∀ origin a task, d.actors (p.session side origin) = some a → a.task = some task →
    task = if origin = side then .connecting else .accepting
  accepted : ∀ a, d.actors (p.session side (!side)) = some a → arrival = .welcomed
  dialed : d.shared.dialed (p.session side (!side)) = none
  timed : d.shared.sessions (p.name side) = some (p.session side side) →
    (d.shared.dialed (p.session side side)).isSome = true
  winner : ∀ a, d.actors (p.session side p.winner) = some a →
    a.stage = .running ∧ a.closing = none ∧
      (a.task = none ↔ d.shared.sessions (p.name side) = some (p.session side p.winner))

namespace Kept

variable {side origin : Bool} {arrival : Arrival} {d : Computer P D} {session : SessionId}
  {a b : Actor P} {now : MonotonicTimeMicros}

omit [VirtualInput D] in
theorem of_arrival (h : Kept p side arrival d) {after : Arrival}
    (hafter : arrival = .welcomed → after = .welcomed) : Kept p side after d :=
  { h with accepted := fun a ha => hafter (h.accepted a ha) }

omit [VirtualInput D] in
/-- Another session's actor changes, but for what it is of. -/
theorem setActor (h : Kept p side arrival d) (ha : d.actors session = some a) (hpeer : b.peer = a.peer)
    (htask : b.task = a.task ∨ b.task = none) (hne : session ≠ p.session side p.winner) :
    Kept p side arrival (d.setActor session b) := by
  refine { h with registered := ?_, peers := ?_, tasks := ?_, accepted := ?_, winner := ?_ }
  · intro other hother
    obtain ⟨origin, c, rfl, hc⟩ := h.registered other hother
    by_cases heq : p.session side origin = session
    · exact ⟨origin, b, rfl, by rw [heq]; exact Function.update_self ..⟩
    · exact ⟨origin, c, rfl, (Function.update_of_ne heq ..).trans hc⟩
  · intro other c hc
    rcases Computer.setActor_cases hc with ⟨-, rfl⟩ | ⟨-, hc⟩
    · exact hpeer.trans (h.peers session a ha)
    · exact h.peers other c hc
  · intro origin c task hc htasks
    rcases Computer.setActor_cases hc with ⟨heq, rfl⟩ | ⟨-, hc⟩
    · rcases htask with hsame | hnone
      · exact h.tasks origin a task (heq ▸ ha) (hsame ▸ htasks)
      · rw [hnone] at htasks
        cases htasks
    · exact h.tasks origin c task hc htasks
  · intro c hc
    rcases Computer.setActor_cases hc with ⟨heq, -⟩ | ⟨-, hc⟩
    · exact h.accepted a (heq ▸ ha)
    · exact h.accepted c hc
  · intro c hc
    rcases Computer.setActor_cases hc with ⟨heq, -⟩ | ⟨-, hc⟩
    · exact absurd heq.symm hne
    · exact h.winner c hc

omit [VirtualInput D] in
theorem closeHandle (h : Kept p side arrival d) (reason : SessionCloseReason)
    (hne : session ≠ p.session side p.winner) : Kept p side arrival (d.closeHandle session reason) := by
  unfold Computer.closeHandle
  cases ha : d.actors session with
  | none => exact h
  | some a => exact h.setActor ha rfl (.inl rfl) hne

omit [VirtualInput D] in
/-- A new session starts. -/
theorem start (h : Kept p side arrival d) (hfresh : d.actors (p.session side origin) = none)
    (harrival : origin ≠ side → arrival = .welcomed) : Kept p side arrival (d.setActor (p.session side origin)
      ⟨p.name side, .running, some (if origin = side then .connecting else .accepting), false, none⟩) := by
  refine { h with registered := ?_, peers := ?_, tasks := ?_, accepted := ?_, winner := ?_ }
  · intro other hother
    obtain ⟨other', c, rfl, hc⟩ := h.registered other hother
    have hne : p.session side other' ≠ p.session side origin := by
      intro heq
      rw [heq, hfresh] at hc
      cases hc
    exact ⟨other', c, rfl, (Function.update_of_ne hne ..).trans hc⟩
  · intro other c hc
    rcases Computer.setActor_cases hc with ⟨-, rfl⟩ | ⟨-, hc⟩
    · rfl
    · exact h.peers other c hc
  · intro other c task hc htask
    rcases Computer.setActor_cases hc with ⟨heq, rfl⟩ | ⟨-, hc⟩
    · cases htask
      rw [p.session_inj heq]
    · exact h.tasks other c task hc htask
  · intro c hc
    rcases Computer.setActor_cases hc with ⟨heq, -⟩ | ⟨-, hc⟩
    · apply harrival
      rw [← p.session_inj heq]
      cases side <;> decide
    · exact h.accepted c hc
  · intro c hc
    rcases Computer.setActor_cases hc with ⟨heq, rfl⟩ | ⟨-, hc⟩
    · refine ⟨rfl, rfl, ?_⟩
      constructor
      · intro htask
        cases htask
      · intro hsession
        obtain ⟨other, a, hother, ha⟩ := h.registered _ hsession
        rw [heq, hfresh] at ha
        cases ha
    · exact h.winner c hc

omit [VirtualInput D] in
/-- A session whose task is done is registered, where none is or another than the winner's was. -/
theorem register (h : Kept p side arrival d) (ha : d.actors (p.session side origin) = some a)
    (hfree : d.shared.sessions (p.name side) ≠ some (p.session side p.winner))
    (htimed : origin = side → (d.shared.dialed (p.session side side)).isSome = true) :
    Kept p side arrival ((d.setSession (p.name side) (some (p.session side origin))).setActor
      (p.session side origin) { a with task := none }) := by
  have hsessions : ∀ peer, Function.update d.shared.sessions (p.name side) (some (p.session side origin)) peer =
        if peer = p.name side then some (p.session side origin) else d.shared.sessions peer :=
    fun peer => Function.update_apply ..
  refine { h with
    named := ?_, registered := ?_, peers := ?_, tasks := ?_, accepted := ?_, timed := ?_, winner := ?_ }
  · intro peer hpeer
    exact (Function.update_of_ne hpeer ..).trans (h.named peer hpeer)
  · intro session hsession
    have hsession : Function.update d.shared.sessions (p.name side) (some (p.session side origin))
      (p.name side) = some session := hsession
    rw [Function.update_self] at hsession
    cases hsession
    exact ⟨origin, _, rfl, Function.update_self ..⟩
  · intro session b hb
    rcases Computer.setActor_cases hb with ⟨-, rfl⟩ | ⟨-, hb⟩
    · exact h.peers _ a ha
    · exact h.peers session b hb
  · intro other b task hb htask
    rcases Computer.setActor_cases hb with ⟨-, rfl⟩ | ⟨-, hb⟩
    · cases htask
    · exact h.tasks other b task hb htask
  · intro b hb
    rcases Computer.setActor_cases hb with ⟨heq, -⟩ | ⟨-, hb⟩
    · exact h.accepted a (heq ▸ ha)
    · exact h.accepted b hb
  · intro hsession
    have hsession : Function.update d.shared.sessions (p.name side) (some (p.session side origin))
      (p.name side) = some (p.session side side) := hsession
    rw [Function.update_self] at hsession
    exact htimed (p.session_inj (Option.some.inj hsession))
  · intro b hb
    show _ ∧ _ ∧ (_ ↔ Function.update d.shared.sessions (p.name side) (some (p.session side origin))
      (p.name side) = some (p.session side p.winner))
    rw [Function.update_self]
    rcases Computer.setActor_cases hb with ⟨heq, rfl⟩ | ⟨hne, hb⟩
    · obtain ⟨hstage, hclosing, -⟩ := h.winner a (heq ▸ ha)
      exact ⟨hstage, hclosing, fun _ => congrArg some heq.symm, fun _ => rfl⟩
    · obtain ⟨hstage, hclosing, htask⟩ := h.winner b hb
      refine ⟨hstage, hclosing, fun hnone => absurd (htask.mp hnone) hfree, fun hsession => ?_⟩
      exact absurd (Option.some.inj hsession).symm hne

omit [VirtualInput D] in
theorem setDialed (h : Kept p side arrival d) (session : SessionId) (at_ : Option MonotonicTimeMicros)
    (hother : session = p.session side (!side) → at_ = none) (howns : session = p.session side side → at_ = none →
      d.shared.sessions (p.name side) ≠ some (p.session side side)) :
    Kept p side arrival (d.setDialed session at_) := by
  have hdialed : ∀ other, (d.setDialed session at_).shared.dialed other =
      if other = session then at_ else d.shared.dialed other := fun other => Function.update_apply ..
  refine { h with dialed := ?_, timed := ?_ }
  · rw [hdialed]
    split
    · rename_i heq
      exact hother heq.symm
    · exact h.dialed
  · intro hsession
    rw [hdialed]
    split
    · rename_i heq
      cases at_ with
      | none => exact absurd hsession (howns heq.symm rfl)
      | some at_ => rfl
    · exact h.timed hsession

omit [VirtualInput D] in
/-- A registered session that is not the winner's leaves the registry. -/
theorem remove (h : Kept p side arrival d) (hne : session ≠ p.session side p.winner) :
    Kept p side arrival (d.removeSessionIfCurrent (p.name side) session) := by
  unfold Computer.removeSessionIfCurrent
  split
  · rename_i hcurrent
    have hsessions : ∀ peer, (d.setSession (p.name side) none).shared.sessions peer =
        if peer = p.name side then none else d.shared.sessions peer :=
      fun peer => Function.update_apply ..
    refine { h with named := ?_, registered := ?_, timed := ?_, winner := ?_ }
    · intro peer hpeer
      rw [hsessions, if_neg hpeer]
      exact h.named peer hpeer
    · intro other hother
      rw [hsessions, if_pos rfl] at hother
      cases hother
    · intro hother
      rw [hsessions, if_pos rfl] at hother
      cases hother
    · intro a ha
      obtain ⟨hstage, hclosing, htask⟩ := h.winner a ha
      rw [hsessions, if_pos rfl]
      refine ⟨hstage, hclosing, fun hnone => ?_, fun hsession => nomatch hsession⟩
      have hsession := htask.mp hnone
      rw [hcurrent] at hsession
      exact absurd (Option.some.inj hsession) hne
  · exact h

/-! ### The steps of one daemon -/

omit [VirtualInput D] in
theorem wins (h : Kept p side arrival d) :
    winsDial d.shared.config d.shared.identityFingerprint (p.name side) = true ↔ side = p.winner := by
  rw [h.config, h.fingerprint]
  exact p.wins_iff side

omit [VirtualInput D] in
/-- What is registered, but for the own dial, was accepted and not dialed. -/
theorem eq_accepted (h : Kept p side arrival d) (hsession : d.shared.sessions (p.name side) = some session)
    (hne : session ≠ p.session side side) : session = p.session side (!side) ∧ d.shared.dialed session = none := by
  obtain ⟨origin, a, rfl, -⟩ := h.registered session hsession
  have horigin : origin = !side := by
    cases origin <;> cases side <;> first | rfl | exact absurd rfl hne
  subst horigin
  exact ⟨rfl, h.dialed⟩

omit [VirtualInput D] in
theorem not_revoked (h : Kept p side arrival d) :
    ¬ (d.shared.policyGeneration ≠ 0 ∨ d.shared.config.peers (p.name side) ≠ some (p.record side) ∨
      !outboundPermitted d.shared.config (p.record side)) := by
  rw [h.generation, h.config, p.trusts, p.permitted]
  simp

omit [DecidableEq P] [VirtualInput D] in
theorem closeHandle_setActor {other : SessionId} (h : other ≠ session) (reason : SessionCloseReason) :
    (d.setActor session b).closeHandle other reason = (d.closeHandle other reason).setActor session b := by
  have hactors : (d.setActor session b).actors other = d.actors other := Function.update_of_ne h ..
  unfold Computer.closeHandle
  rw [hactors]
  cases d.actors other with
  | none => rfl
  | some a =>
    exact congrArg (fun actors => { d with actors }) (Function.update_comm h.symm _ _ _)

omit [VirtualInput D] in
/-- The winner's dial takes the place of what is registered; another does where nothing is. -/
theorem connect (h : Kept p side arrival d) (ha : d.actors (p.session side side) = some a)
    (htask : a.task = some .connecting) :
    Kept p side arrival ((d.setActor (p.session side side) { a with task := none }).connect (p.name side)
      (p.session side side) (p.record side) 0 now) := by
  have hends : (d.setActor (p.session side side) { a with task := none }).dialEnds (p.name side)
      (p.record side) 0 = d.dialEnds (p.name side) (p.record side) 0 := rfl
  have hother : p.session side side ≠ p.session side (!side) :=
    p.session_ne side (by cases side <;> decide)
  -- Registered as the own dial, in whatever state the rest is left.
  have hregister : ∀ d' : Computer P D, Kept p side arrival d' → d'.actors (p.session side side) = some a →
      d'.shared.sessions (p.name side) ≠ some (p.session side p.winner) →
      Kept p side arrival ((((d'.setActor (p.session side side) { a with task := none }).setSession
        (p.name side) (some (p.session side side)))).setDialed (p.session side side) (some now)) := by
    intro d' h' ha' hfree
    have hdialed := h'.setDialed (p.session side side) (some now)
      (fun heq => absurd heq hother) (fun _ hnone => nomatch hnone)
    exact hdialed.register ha' hfree fun _ => by
      show (Function.update d'.shared.dialed (p.session side side) (some now) (p.session side side)).isSome = true
      rw [Function.update_self]
      rfl
  unfold Computer.connect
  rw [hends]
  unfold Computer.dialEnds
  rw [if_neg h.not_revoked]
  cases hsession : d.shared.sessions (p.name side) with
  | none => exact hregister d h ha (by rw [hsession]; exact nofun)
  | some existing =>
    dsimp only
    by_cases hwinner : side = p.winner
    · have hwins := h.wins.mpr hwinner
      have howns : existing ≠ p.session side side := by
        intro heq
        have hnone := (h.winner a (hwinner ▸ ha)).2.2.mpr (by rw [hsession, heq, ← hwinner])
        rw [hnone] at htask
        cases htask
      obtain ⟨hfar, hdialed⟩ := h.eq_accepted hsession howns
      have hnew : existing ≠ p.session side p.winner := by
        rw [hfar, ← hwinner]
        exact hother.symm
      rw [hdialed, hwins]
      show Kept p side arrival (((((d.setActor _ _).closeHandle existing _).setSession _ _)).setDialed
        _ _)
      rw [closeHandle_setActor howns]
      apply hregister _ (h.closeHandle .superseded hnew)
      · unfold Computer.closeHandle
        cases hexisting : d.actors existing with
        | none => exact ha
        | some b => exact (Function.update_of_ne howns.symm ..).trans ha
      · rw [Computer.closeHandle_sessions, hsession]
        exact fun heq => hnew (Option.some.inj heq)
    · have hwins : winsDial d.shared.config d.shared.identityFingerprint (p.name side) = false :=
        Bool.eq_false_of_not_eq_true fun hwins => hwinner (h.wins.mp hwins)
      have hnew : p.session side side ≠ p.session side p.winner := p.session_ne side hwinner
      rw [hwins, Bool.not_false, Bool.or_true, if_pos rfl]
      have hdone : Kept p side arrival
        (d.setActor (p.session side side) { a with task := none }) := h.setActor ha rfl (.inr rfl) hnew
      exact hdone.closeHandle .superseded hnew

omit [VirtualInput D] in
/-- An accepted connection gives way to the winner's dial, and closes what else is registered. -/
theorem accept {closed : Bool} (h : Kept p side arrival d)
    (ha : d.actors (p.session side (!side)) = some a) (htask : a.task = some .accepting)
    (hclosed : closed = true → a.stage ≠ .running)
    (hprompt : (d.shared.dialed (p.session side side)).all
      (fun at_ => decide (now - at_ < connectTimeout.asMicros)) = true) :
    Kept p side arrival (Computer.letGo (p.session side (!side)) a
      (d.accept (p.name side) (p.session side (!side)) 0 true closed now)) := by
  have hother : p.session side (!side) ≠ p.session side side :=
    p.session_ne side (by cases side <;> decide)
  unfold Computer.accept
  rw [h.generation, if_neg (by simp)]
  split
  · rename_i hover
    have hnew : p.session side (!side) ≠ p.session side p.winner := by
      intro heq
      exact hclosed hover (h.winner a (heq ▸ ha)).1
    show Kept p side arrival (d.setActor _ { (d.actors (p.session side (!side))).getD a with task := none })
    rw [ha]
    exact h.setActor ha rfl (.inr rfl) hnew
  cases hsession : d.shared.sessions (p.name side) with
  | none =>
    show Kept p side arrival ((d.setSession _ _).setActor _
      { (d.actors (p.session side (!side))).getD a with task := none })
    rw [ha]
    apply h.register ha
    · rw [hsession]
      exact nofun
    · intro heq
      cases side <;> cases heq
  | some old =>
    dsimp only
    split
    · rename_i hkeeps
      have hwinner : side = p.winner := h.wins.mp (Bool.and_eq_true_iff.mp hkeeps).2
      have hnew : p.session side (!side) ≠ p.session side p.winner := hwinner ▸ hother
      have hclosing : (d.closeHandle (p.session side (!side)) .superseded).actors
          (p.session side (!side)) = some { a with closing := a.closing.or (some .superseded) } := by
        unfold Computer.closeHandle
        rw [ha]
        exact Function.update_self ..
      show Kept p side arrival ((d.closeHandle _ _).setActor _
        { ((d.closeHandle (p.session side (!side)) .superseded).actors
          (p.session side (!side))).getD a with task := none })
      rw [hclosing]
      exact (h.closeHandle .superseded hnew).setActor hclosing rfl (.inr rfl) hnew
    · rename_i hkeeps
      apply h.closeHandle
      intro heq
      by_cases hwinner : side = p.winner
      · -- The own dial is registered, and young.
        apply hkeeps
        have howns : d.shared.sessions (p.name side) = some (p.session side side) := by
          rw [hsession, heq, ← hwinner]
        unfold Computer.keepsOwnDial keepsOwnDial
        rw [howns, h.wins.mpr hwinner, Bool.and_true, Option.bind_some]
        obtain ⟨at_, hat⟩ := Option.isSome_iff_exists.mp (h.timed howns)
        rw [hat] at hprompt ⊢
        exact hprompt
      · have hfar : (!side) = p.winner := by
          cases side <;> cases hw : p.winner <;> simp_all
        have hnone := (h.winner a (hfar ▸ ha)).2.2.mpr (by rw [hsession, heq])
        rw [hnone] at htask
        cases htask

omit [VirtualInput D] in
theorem closed (h : Kept p side arrival d) (ha : d.actors session = some a) (hne : session ≠ p.session side p.winner) :
    Kept p side arrival ((d.closed (p.name side) session).setActor session { a with stage := .ended }) := by
  have hremoved := h.remove hne
  have hdialed : Kept p side arrival ((d.removeSessionIfCurrent (p.name side) session).setDialed session none) := by
    apply hremoved.setDialed
    · exact fun _ => rfl
    · rintro rfl -
      rw [Computer.removeSessionIfCurrent_sessions]
      split
      · exact nofun
      · rename_i hnot
        exact fun heq => hnot ⟨rfl, heq⟩
  have hreleased : Kept p side arrival (d.closed (p.name side) session) := by
    unfold Computer.closed Computer.releaseInbound
    split
    · exact { hdialed with }
    · exact hdialed
  have hactor : (d.closed (p.name side) session).actors session = some a := by
    rw [(Computer.closed_frame (p.name side) session d).1]
    exact ha
  exact hreleased.setActor hactor rfl (.inl rfl) hne

end Kept

/-! ## What holds of both -/

/-- **The invariant of the two**: each side is as above, and the winner's connection was not refused. -/
structure Agreeing (p : Pairing P) (s : Pair P D) : Prop where
  kept : ∀ side, Kept p side (s.arrival side) (s.computer side)
  welcome : s.arrival (!p.winner) ≠ .refused

/-- The winner's `retire_session` does not find the own dial, which another task may just have
registered. -/
def Spares (p : Pairing P) (s : Pair P D) (label : Label) : Prop :=
  label = .retire p.winner →
    (s.computer p.winner).shared.sessions (p.name p.winner) ≠ some (p.session p.winner p.winner)

instance (s : Pair P D) (label : Label) : Decidable (Spares p s label) :=
  inferInstanceAs (Decidable (_ → _))

theorem Pair.run_eq_some {s t : Pair P D} {side : Bool} {label : Step P}
    (hrun : s.run side label = some t) : ∃ computer,
      Computer.Stepped (s.computer side) label computer ∧ t = s.setComputer side computer := by
  obtain ⟨computer, hcomputer, rfl⟩ := Option.map_eq_some_iff.mp hrun
  exact ⟨computer, (Computer.step_cases hcomputer).2, rfl⟩

namespace Agreeing

variable {s t : Pair P D} {side origin : Bool} {a : Actor P}

omit [VirtualInput D] in
theorem setComputer (h : Agreeing p s) {computer : Computer P D}
    (hkept : Kept p side (s.arrival side) computer) : Agreeing p (s.setComputer side computer) where
  kept other := by
    show Kept p other (s.arrival other) (Function.update s.computer side computer other)
    by_cases heq : other = side
    · subst heq
      rwa [Function.update_self]
    · rw [Function.update_of_ne heq]
      exact h.kept other
  welcome := h.welcome

omit [VirtualInput D] in
theorem setArrival (h : Agreeing p s) {arrival : Arrival} (hkept : Kept p side arrival (s.computer side))
    (hwelcome : side = !p.winner → arrival ≠ .refused) : Agreeing p (s.setArrival side arrival) where
  kept other := by
    show Kept p other (Function.update s.arrival side arrival other) (s.computer other)
    by_cases heq : other = side
    · subst heq
      rwa [Function.update_self]
    · rw [Function.update_of_ne heq]
      exact h.kept other
  welcome := by
    show Function.update s.arrival side arrival (!p.winner) ≠ .refused
    by_cases heq : (!p.winner) = side
    · rw [heq, Function.update_self]
      exact hwelcome heq.symm
    · rw [Function.update_of_ne heq]
      exact h.welcome

omit [VirtualInput D] in
/-- A session that does not run, or is closed, is not on the winner's connection. -/
theorem session_ne (h : Agreeing p s) (ha : s.actor p side origin = some a)
    (hover : a.stage ≠ .running ∨ a.closing ≠ none) :
    p.session side origin ≠ p.session side p.winner := by
  intro heq
  obtain ⟨hstage, hclosing, -⟩ := (h.kept side).winner a (heq ▸ ha)
  rcases hover with hstopped | hclosed
  · exact hstopped hstage
  · exact hclosed hclosing

omit [VirtualInput D] in
theorem not_broken (h : Agreeing p s) : s.broken p p.winner = false := by
  have hactors : ∀ side, (s.actor p side p.winner).any
      (fun actor => actor.closing.isSome || actor.stage ≠ .running) = false := by
    intro side
    cases ha : s.actor p side p.winner with
    | none => rfl
    | some a =>
      obtain ⟨hstage, hclosing, -⟩ := (h.kept side).winner a ha
      rw [Option.any_some, hclosing, hstage]
      rfl
  unfold Pair.broken
  rw [List.any_cons, List.any_cons, List.any_nil, hactors, hactors, decide_eq_false h.welcome]
  rfl

/-- The first look finds no dial to keep on the side whose dial loses. -/
theorem check (h : Agreeing p s) {now : MonotonicTimeMicros} (harrival : s.arrival side = .awaited) :
    Agreeing p (s.check p side now) := by
  unfold Pair.check
  apply h.setArrival
  · apply (h.kept side).of_arrival
    rw [harrival]
    exact nofun
  · rintro rfl
    have hloses : (s.computer (!p.winner)).keepsOwnDial (p.name (!p.winner)) now = false := by
      apply Bool.eq_false_of_not_eq_true
      intro hkeeps
      have hwins := (h.kept (!p.winner)).wins.mp (Bool.and_eq_true_iff.mp hkeeps).2
      exact Bool.not_ne_self _ hwins
    rw [hloses]
    exact nofun

theorem retire (h : Agreeing p s) (harrival : s.arrival side = .checked)
    (hspares : Spares p s (.retire side)) (hstep : s.retire p side = some t) : Agreeing p t := by
  unfold Pair.retire at hstep
  cases hsession : (s.computer side).shared.sessions (p.name side) with
  | none =>
    rw [hsession] at hstep
    cases hstep
    refine h.setArrival ((h.kept side).of_arrival ?_) fun _ => nofun
    rw [harrival]
    exact nofun
  | some old =>
    rw [hsession] at hstep
    obtain ⟨computer, hstepped, rfl⟩ := Pair.run_eq_some hstep
    cases hstepped
    apply h.setComputer
    unfold Computer.retire
    rw [hsession]
    apply (h.kept side).closeHandle
    rintro rfl
    by_cases hwinner : side = p.winner
    · subst hwinner
      exact hspares rfl hsession
    · -- The losing side has not started its session on the winner's connection yet.
      have hfar : p.winner = !side := by
        cases side <;> cases hw : p.winner <;> simp_all
      obtain ⟨origin, a, heq, ha⟩ := (h.kept side).registered _ hsession
      rw [hfar] at ha
      have hwelcomed := (h.kept side).accepted a ha
      rw [harrival] at hwelcomed
      cases hwelcomed

theorem fail (h : Agreeing p s) (hstep : s.fail p side origin = some t) : Agreeing p t := by
  obtain ⟨a, ha, hrest⟩ := Option.bind_eq_some_iff.mp hstep
  split at hrest
  · rename_i hover
    cases hrest
    apply h.setComputer
    have hne := h.session_ne ha (.inl hover.2.1)
    have ha : (s.computer side).actors (p.session side origin) = some a := ha
    show Kept p side _ ((s.computer side).setActor _
      { ((s.computer side).actors (p.session side origin)).getD a with task := none })
    rw [ha]
    exact (h.kept side).setActor ha rfl (.inr rfl) hne
  · cases hrest

/-- **Every step keeps the invariant**, where `retire_session` of the winner spares its own dial. -/
theorem step {label : Label} (h : Agreeing p s) (hspares : Spares p s label)
    (hstep : step p label s = some t) : Agreeing p t := by
  cases label with
  | dial side =>
    obtain ⟨computer, hstepped, rfl⟩ := Pair.run_eq_some hstep
    cases hstepped with
    | start _ _ _ hfresh =>
      apply h.setComputer
      have hkept := (h.kept side).start hfresh fun hne => absurd rfl hne
      rwa [if_pos rfl] at hkept
  | check side now =>
    have hstep : (if _ then some (s.check p side now) else none) = some t := hstep
    split at hstep
    · rename_i hguard
      cases hstep
      exact h.check hguard.1
    · cases hstep
  | retire side =>
    have hstep : (if _ then s.retire p side else none) = some t := hstep
    split at hstep
    · rename_i harrival
      exact h.retire harrival hspares hstep
    · cases hstep
  | welcome side =>
    unfold Dials.step at hstep
    dsimp only at hstep
    split at hstep
    · rename_i harrival
      obtain ⟨started, hrun, rfl⟩ := Option.map_eq_some_iff.mp hstep
      obtain ⟨computer, hstepped, rfl⟩ := Pair.run_eq_some hrun
      cases hstepped with
      | start _ _ _ hfresh =>
        have hwelcomed : Kept p side .welcomed (s.computer side) := (h.kept side).of_arrival fun _ => rfl
        have hne : (!side) ≠ side := Bool.not_ne_self side
        have hkept := hwelcomed.start hfresh fun _ => rfl
        rw [if_neg hne] at hkept
        have harrived : Agreeing p (s.setArrival side .welcomed) :=
          h.setArrival hwelcomed fun _ => nofun
        apply harrived.setComputer
        rwa [show (s.setArrival side .welcomed).arrival side = .welcomed from Function.update_self ..]
    · cases hstep
  | agree side origin =>
    unfold Dials.step at hstep
    dsimp only at hstep
    split at hstep
    · cases hstep
      exact ⟨h.kept, h.welcome⟩
    · cases hstep
  | fail side origin => exact h.fail hstep
  | connect side now =>
    unfold Dials.step at hstep
    dsimp only at hstep
    split at hstep
    · obtain ⟨computer, hstepped, rfl⟩ := Pair.run_eq_some hstep
      cases hstepped with
      | connect _ _ _ _ actor hactor htask =>
        apply h.setComputer
        obtain ⟨peer, stage, task, opened, closing⟩ := actor
        obtain rfl : peer = p.name side := (h.kept side).peers _ _ hactor
        exact (h.kept side).connect hactor htask
    · cases hstep
  | accept side closed now =>
    unfold Dials.step at hstep
    dsimp only at hstep
    split at hstep
    · rename_i hguard
      obtain ⟨computer, hstepped, rfl⟩ := Pair.run_eq_some hstep
      cases hstepped with
      | accept _ _ _ _ _ actor hactor htask hclosed =>
        apply h.setComputer
        rw [(h.kept side).peers _ actor hactor]
        exact (h.kept side).accept hactor htask hclosed hguard.2
    · cases hstep
  | stop side origin =>
    unfold Dials.step at hstep
    dsimp only at hstep
    split at hstep
    · rename_i hbroken
      obtain ⟨computer, hstepped, rfl⟩ := Pair.run_eq_some hstep
      cases hstepped with
      | stop _ _ actor hactor =>
        apply h.setComputer
        have hne : origin ≠ p.winner := by
          rintro rfl
          rw [h.not_broken] at hbroken
          cases hbroken
        exact (h.kept side).setActor hactor rfl (.inl rfl) (p.session_ne side hne)
    · cases hstep
  | closed side origin =>
    obtain ⟨computer, hstepped, rfl⟩ := Pair.run_eq_some hstep
    cases hstepped with
    | closed _ actor hactor hstage =>
      apply h.setComputer
      have hne := h.session_ne hactor (.inl (by rw [hstage]; exact nofun))
      obtain ⟨peer, stage, task, opened, closing⟩ := actor
      obtain rfl : peer = p.name side := (h.kept side).peers _ _ hactor
      exact (h.kept side).closed hactor hne

omit [VirtualInput D] in
theorem start (seatGate : Bool → SeatGate) (devices : Bool → D) : Agreeing p (start p seatGate devices) where
  kept side :=
    { config := rfl
      fingerprint := rfl
      generation := rfl
      named := fun _ _ => rfl
      registered := fun _ h => nomatch h
      peers := fun _ _ h => nomatch h
      tasks := fun _ _ _ h => nomatch h
      accepted := fun _ h => nomatch h
      dialed := rfl
      timed := fun h => nomatch h
      winner := fun _ h => nomatch h }
  welcome := nofun

end Agreeing

/-! ## When everything has settled -/

/-- Every task is done, and every session of a closed connection has had its `Closed` event. -/
structure Settled (p : Pairing P) (s : Pair P D) : Prop where
  dialed : ∀ side, ∃ a, s.actor p side side = some a ∧ a.task = none
  accepted : ∀ side, s.arrival side = .refused ∨ ∃ a, s.actor p side (!side) = some a ∧ a.task = none
  ended : ∀ side origin a, s.broken p origin = true → s.actor p side origin = some a → a.stage = .ended

theorem Agreeing.registered {s : Pair P D} (h : Agreeing p s) (hsettled : Settled p s) (side : Bool) :
    (s.computer side).shared.sessions (p.name side) = some (p.session side p.winner) := by
  obtain ⟨a, ha, htask⟩ : ∃ a, s.actor p side p.winner = some a ∧ a.task = none := by
    by_cases hwinner : side = p.winner
    · exact hwinner ▸ hsettled.dialed side
    · have hfar : side = !p.winner := by
        cases side <;> cases hw : p.winner <;> simp_all
      rcases hsettled.accepted side with hrefused | hdone
      · exact absurd (hfar ▸ hrefused) h.welcome
      · rwa [show (!side) = p.winner by rw [hfar, Bool.not_not]] at hdone
  exact ((h.kept side).winner a ha).2.2.mp htask

/-- **Simultaneous dials agree on one connection.** In every run in which the winner's `retire_session`
never finds the own dial registered, both sides end up with one session, on the connection of the side
that `wins_simultaneous_dial` names, and it is open. -/
theorem dials_agree (p : Pairing P) (seatGate : Bool → SeatGate) (devices : Bool → D) (s : Pair P D)
    (h : (step p).Reaches (Spares p) (start p seatGate devices) s) (hsettled : Settled p s) :
    winsDial (p.config p.winner) (p.fingerprint p.winner) (p.name p.winner) = true ∧
    s.broken p p.winner = false ∧
    ∀ side, (s.computer side).shared.sessions (p.name side) = some (p.session side p.winner) ∧
      ∀ peer, peer ≠ p.name side → (s.computer side).shared.sessions peer = none := by
  have hagreeing : Agreeing p s :=
    h.invariant (.start seatGate devices) fun _ _ _ h hspares hstep => h.step hspares hstep
  refine ⟨(p.wins_iff p.winner).mpr rfl, hagreeing.not_broken, fun side => ?_⟩
  exact ⟨hagreeing.registered hsettled side, (hagreeing.kept side).named⟩

/-! ### Two runs -/

/-- Two computers, of which the first one's fingerprint is smaller. -/
def twins : Pairing Unit where
  config side := ⟨true, false, fun _ => some ⟨some (!side).toNat, ⟨true, true, true, true⟩, .standard, false⟩⟩
  fingerprint side := side.toNat
  name _ := ()
  record side := ⟨some (!side).toNat, ⟨true, true, true, true⟩, .standard, false⟩
  session side origin := 10 + 2 * side.toNat + origin.toNat
  trusts _ := rfl
  knows _ := rfl
  distinct := by decide
  permitted side := by cases side <;> rfl
  fresh side := by cases side <;> decide

def quietTwins : Pair Unit PlainInput := start twins (fun _ => ⟨.normal 1000, false⟩) fun _ => .atRest

/-- The second computer's dial is refused, as the first one's is done. -/
def firstDials : List Label :=
  [.dial false, .dial true, .check true 0, .retire true, .welcome true, .agree false false,
    .agree true false, .connect false 0, .check false 0, .stop true true, .fail true true,
    .closed true true, .accept true false 0]

/-- The first computer's dial is done between the first look for it and `retire_session`. By the time the
second computer learns that this connection is closed, it has given up its own for it. -/
def crossingDials : List Label :=
  [.dial false, .dial true, .check true 0, .retire true, .welcome true, .agree false false,
    .agree true false, .check false 0, .connect false 0, .retire false, .stop false false,
    .closed false false, .retire false, .welcome false, .agree false true, .agree true true,
    .accept true false 0, .connect true 0, .stop true false, .closed true false, .stop true true,
    .closed true true, .stop false true, .accept false true 0, .closed false true]

def settled (s : Pair Unit PlainInput) : Bool :=
  [false, true].all fun side =>
    (s.actor twins side side).any (·.task = none) &&
    (s.arrival side = .refused || (s.actor twins side (!side)).any (·.task = none)) &&
    [false, true].all fun origin =>
      !s.broken twins origin || (s.actor twins side origin).all (·.stage = .ended)

theorem of_settled {s : Pair Unit PlainInput} (h : settled s = true) : Settled twins s := by
  have hside : ∀ side, _ := fun side => List.all_eq_true.mp h side (by cases side <;> decide)
  constructor
  · intro side
    have hdialed := (Bool.and_eq_true_iff.mp (Bool.and_eq_true_iff.mp (hside side)).1).1
    obtain ⟨a, ha, htask⟩ := (Option.any_eq_true _ _).mp hdialed
    exact ⟨a, ha, of_decide_eq_true htask⟩
  · intro side
    have haccepted := (Bool.and_eq_true_iff.mp (Bool.and_eq_true_iff.mp (hside side)).1).2
    rcases Bool.or_eq_true_iff.mp haccepted with hrefused | hdone
    · exact .inl (of_decide_eq_true hrefused)
    · obtain ⟨a, ha, htask⟩ := (Option.any_eq_true _ _).mp hdone
      exact .inr ⟨a, ha, of_decide_eq_true htask⟩
  · intro side origin a hbroken ha
    have hended := List.all_eq_true.mp (Bool.and_eq_true_iff.mp (hside side)).2 origin (by cases origin <;> decide)
    rw [hbroken, ha] at hended
    exact of_decide_eq_true hended

theorem dials_agree_twins : ∃ s : Pair Unit PlainInput, Settled twins s ∧
    ∀ side, (s.computer side).shared.sessions () = some (twins.session side false) := by
  have hrun : (((step twins).guarded (Spares twins)).exec firstDials quietTwins).any settled = true := by
    decide +kernel
  obtain ⟨s, hs, hsettled⟩ := System.exists_reaches_of_exec hrun
  obtain ⟨-, -, hsessions⟩ := dials_agree twins _ _ s hs (of_settled hsettled)
  exact ⟨s, of_settled hsettled, fun side => (hsessions side).1⟩

/-- **Both connections are closed**: the winner's by its own `retire_session`, the other one for it. -/
theorem both_closed : ∃ s : Pair Unit PlainInput,
    (step twins).Reaches (fun _ _ => True) quietTwins s ∧ Settled twins s ∧
      (∀ side, (s.computer side).shared.sessions () = none) ∧
      s.broken twins false = true ∧ s.broken twins true = true := by
  have hrun : (((step twins).guarded fun _ _ => True).exec crossingDials quietTwins).any (fun s =>
      settled s && decide ((∀ side, (s.computer side).shared.sessions () = none) ∧
        s.broken twins false = true ∧ s.broken twins true = true)) = true := by decide +kernel
  obtain ⟨s, hs, h⟩ := System.exists_reaches_of_exec hrun
  obtain ⟨hsettled, hrest⟩ := Bool.and_eq_true_iff.mp h
  exact ⟨s, hs, of_settled hsettled, of_decide_eq_true hrest⟩

end Zflow.Daemon.Dials
