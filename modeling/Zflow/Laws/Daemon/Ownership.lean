import Zflow.Laws.Daemon.Routing

/-!
# The owner of the input, undisturbed

While a session owns the input, the input thread is handed its batches alone, so what the devices hold
down is what its batches made of them (`owner_undisturbed`). What carries it is `Owned.own`: a running
session with an open activation is the owner, because its opening batch claimed the input and nothing
else takes it away.

A session whose opening batch is refused still has its activation open, and says so to the devices
when it cleans up (`stranger_releases`). So the law holds of the runs in which no session cleans up
while another one owns the input.
-/

namespace Zflow.Daemon

open Zflow.Core Lib Linux InputThread

variable {P D : Type} [DecidableEq P] [VirtualInput D]

namespace Computer

/-- The devices as the batches of a log leave them. -/
def replay (receiving : Receiving D) (log : List (Delivery P)) : Receiving D :=
  log.foldl (fun receiving delivery => (receiving.handle delivery.command).2) receiving

omit [DecidableEq P] in
theorem replay_concat (receiving : Receiving D) (log : List (Delivery P)) (delivery : Delivery P) :
    replay receiving (log ++ [delivery]) = ((replay receiving log).handle delivery.command).2 := by
  unfold replay
  rw [List.foldl_append]
  rfl

/-- What was handed over while a session owned the input was its own, and the devices are what the
batches handed over made of them. -/
structure Undisturbed (start : Receiving D) (d : Computer P D) : Prop where
  own : ∀ delivery ∈ d.delivered, ∀ owner, delivery.owner = some owner →
    owner = (delivery.peer, delivery.session)
  devices : d.receiving = replay start d.delivered

/-- No other session owns the input while this one is registered. -/
def unrivalled (session : SessionId) (d : Computer P D) : Bool :=
  match d.actors session with
  | none => true
  | some actor =>
    d.shared.sessions actor.peer ≠ some session ||
      d.shared.inboundOwner.all fun owner => owner = (actor.peer, session)

/-- The steps the law is about: none where a session cleans up beside another's ownership. -/
def CleansUpAlone (d : Computer P D) : Step P → Prop
  | .cleanup session _ _ => d.unrivalled session = true
  | _ => True

instance (d : Computer P D) : (label : Step P) → Decidable (CleansUpAlone d label)
  | .cleanup session _ _ => inferInstanceAs (Decidable (d.unrivalled session = true))
  | .policy .. | .start .. | .batch .. | .stop .. | .closed .. | .connect .. | .accept .. | .retire .. =>
    inferInstanceAs (Decidable True)

/-- **The invariant**: a running session with an open activation owns the input. -/
structure Owned (start : Receiving D) (d : Computer P D) : Prop extends Undisturbed start d where
  running : d.stopped = false → ∀ session actor, d.actors session = some actor →
    actor.stage = .running → actor.opened = true →
    d.shared.inboundOwner = some (actor.peer, session)

omit [DecidableEq P] in
/-- What was handed over before stays the owner's. -/
theorem Undisturbed.unmoved {start : Receiving D} {d after : Computer P D}
    (h : Undisturbed start d) (hdelivered : after.delivered = d.delivered)
    (hreceiving : after.receiving = d.receiving) : Undisturbed start after where
  own := by
    rw [hdelivered]
    exact h.own
  devices := by
    rw [hdelivered, hreceiving]
    exact h.devices

omit [DecidableEq P] in
theorem Owned.unmoved {start : Receiving D} {d after : Computer P D} (h : Owned start d)
    (hmoved : Unmoved d after) : Owned start after where
  toUndisturbed := h.toUndisturbed.unmoved hmoved.delivered hmoved.receiving
  running hlive session b hb hstage hopened := by
    have hrel := hmoved.actors session
    rw [hb] at hrel
    cases ha : d.actors session with
    | none =>
      rw [ha] at hrel
      cases hrel
    | some a =>
      rw [ha] at hrel
      cases hrel with
      | some hlike =>
        rw [hmoved.owner, hlike.peer]
        exact h.running (hmoved.stopped ▸ hlive) session a ha (hlike.stage ▸ hstage) (hlike.opened ▸ hopened)

/-- A routed batch is handed over as the owner's, where a batch that opens nothing comes from a
session without a rival. -/
theorem Undisturbed.routed {start : Receiving D} {answers : Answers} {peer : P}
    {session : SessionId} {effects : List ReceiverEffect} {command : ReceiverCommand}
    {d after : Computer P D} {answer : Except String Bool} (h : Undisturbed start d)
    (hrouted : Routed answers peer session effects command d (answer, after))
    (hown : d.shared.sessions peer = some session → opensActivation effects = false →
      ∀ owner, d.shared.inboundOwner = some owner → owner = (peer, session)) :
    Undisturbed start after := by
  rcases hrouted.log with ⟨hdelivered, hreceiving⟩ |
    ⟨claimed, hregistered, hclaimed, -, hdelivered, hreceiving⟩
  · exact h.unmoved hdelivered hreceiving
  constructor
  · intro delivery hmem owner howner
    rw [hdelivered] at hmem
    rcases List.mem_append.mp hmem with hbefore | hnew
    · exact h.own delivery hbefore owner howner
    · obtain rfl := List.mem_singleton.mp hnew
      cases hclaimed with
      | follows hopens => exact hown hregistered hopens owner howner
      | opens hopens hfree => exact (Option.some.inj howner).symm
  · rw [hdelivered, hreceiving, replay_concat, ← h.devices]

omit [DecidableEq P] [VirtualInput D] in
/-- A step about one session: the others are as they were, and keep what they own. -/
theorem running_step (session : SessionId) {d after : Computer P D}
    (hrunning : ∀ session actor, d.actors session = some actor → actor.stage = .running →
      actor.opened = true → d.shared.inboundOwner = some (actor.peer, session))
    (howner : ∀ peer other, other ≠ session → d.shared.inboundOwner = some (peer, other) →
      after.shared.inboundOwner = some (peer, other))
    (hactors : ∀ other b, after.actors other = some b → (other = session ∧ (b.stage = .running → b.opened = true →
        after.shared.inboundOwner = some (b.peer, session))) ∨
      ∃ a, other ≠ session ∧ d.actors other = some a ∧ Alike a b)
    (other : SessionId) (b : Actor P) (hb : after.actors other = some b)
    (hstage : b.stage = .running) (hopened : b.opened = true) :
    after.shared.inboundOwner = some (b.peer, other) := by
  rcases hactors other b hb with ⟨rfl, hown⟩ | ⟨a, hne, ha, hlike⟩
  · exact hown hstage hopened
  · rw [hlike.peer]
    apply howner _ _ hne
    exact hrunning other a ha (hlike.stage ▸ hstage) (hlike.opened ▸ hopened)

omit [DecidableEq P] [VirtualInput D] in
theorem owner_ne {peer peer' : P} {session other : SessionId} (h : other ≠ session) :
    (peer', other) ≠ (peer, session) := fun heq => h (Prod.mk.inj heq).2

/-- **A calm step keeps the invariant.** -/
theorem Owned.step {start : Receiving D} {label : Step P} {d after : Computer P D}
    (h : Owned start d) (hcalm : CleansUpAlone d label) (hstep : step label d = some after) :
    Owned start after := by
  obtain ⟨hlive, hstep⟩ := step_cases hstep
  have hrunning := h.running hlive
  cases hstep with
  | policy config generation seatGate => exact ⟨⟨h.own, h.devices⟩, h.running⟩
  | start peer session task hfresh =>
    refine ⟨⟨h.own, h.devices⟩, fun _ => running_step session hrunning ?_ ?_⟩
    · exact fun _ _ _ howner => howner
    · intro other b hb
      rcases setActor_cases hb with ⟨rfl, rfl⟩ | ⟨hne, hb⟩
      · exact .inl ⟨rfl, fun _ hopened => nomatch hopened⟩
      · exact .inr ⟨b, hne, hb, .refl b⟩
  | stop session opened actor hactor hstage =>
    refine ⟨⟨h.own, h.devices⟩, fun _ => running_step session hrunning ?_ ?_⟩
    · exact fun _ _ _ howner => howner
    · intro other b hb
      rcases setActor_cases hb with ⟨rfl, rfl⟩ | ⟨hne, hb⟩
      · exact .inl ⟨rfl, fun hrunning => nomatch hrunning⟩
      · exact .inr ⟨b, hne, hb, .refl b⟩
  | connect session record generation now actor hactor htask =>
    apply h.unmoved
    exact (unmoved_setActor (b := { actor with task := none }) hactor ⟨rfl, rfl, rfl⟩).trans
      (unmoved_connect _ _ _ _ _ _)
  | accept session generation known closed now actor hactor htask =>
    exact h.unmoved (unmoved_letGo hactor (unmoved_accept _ _ _ _ _ _ _))
  | retire peer => exact h.unmoved (unmoved_retire peer d)
  | batch session effects touchCapturedAt answers actor opened answer routed hactor hstage hne
      hafter hopens hrouted =>
    have hown : opensActivation effects = false → d.shared.inboundOwner = some (actor.peer, session) := by
      intro hquiet
      exact hrunning session actor hactor hstage (opened_of_activationAfter hafter hne hquiet)
    have hlog : Undisturbed start routed := by
      apply h.toUndisturbed.routed hrouted
      intro _ hquiet owner howner
      exact Option.some.inj (howner.symm.trans (hown hquiet))
    cases answer with
    | error error => exact ⟨hlog.unmoved rfl rfl, fun hlive => nomatch hlive⟩
    | ok accepted =>
      refine ⟨hlog.unmoved rfl rfl, fun _ => running_step session hrunning ?_ ?_⟩
      · intro peer other hother howner
        exact hrouted.other (owner_ne hother) howner
      · intro other b hb
        rcases answered_actors hactor hrouted.frame.1 hb with
          ⟨rfl, hpeer, hbopened, hbstage⟩ | ⟨a, hother, ha, hlike⟩
        · refine .inl ⟨rfl, fun hrunning hopenb => ?_⟩
          cases accepted with
          | false =>
            rw [hbstage] at hrunning
            cases hrunning
          | true =>
            rw [hpeer]
            rw [← hbopened, hopenb] at hafter
            exact hrouted.own (endsClosed_of_open hafter) hown
        · exact .inr ⟨a, hother, ha, hlike⟩
  | cleanup session effects answers actor answer routed hactor hstage hopened hsafety hclosed
      hrouted =>
    have hlog : Undisturbed start routed := by
      apply h.toUndisturbed.routed hrouted
      intro hregistered _ owner howner
      have hcalm : d.unrivalled session = true := hcalm
      simpa [unrivalled, hactor, hregistered, howner] using hcalm
    cases answer with
    | error error => exact ⟨hlog.unmoved rfl rfl, fun hlive => nomatch hlive⟩
    | ok accepted =>
      refine ⟨hlog.unmoved rfl rfl, fun _ => running_step session hrunning ?_ ?_⟩
      · intro peer other hother howner
        exact hrouted.other (owner_ne hother) howner
      · intro other b hb
        rcases answered_actors hactor hrouted.frame.1 hb with
          ⟨rfl, hpeer, hbopened, hbstage⟩ | ⟨a, hother, ha, hlike⟩
        · exact .inl ⟨rfl, fun _ hopenb => nomatch hbopened.symm.trans hopenb⟩
        · exact .inr ⟨a, hother, ha, hlike⟩
  | closed session actor hactor hstage hopened =>
    obtain ⟨hactors, hdelivered, hreceiving, -⟩ := closed_frame actor.peer session d
    refine ⟨h.toUndisturbed.unmoved hdelivered hreceiving,
      fun _ => running_step session hrunning ?_ ?_⟩
    · intro peer other hother howner
      exact closed_other (owner_ne hother) howner
    · intro other b hb
      rcases setActor_cases hb with ⟨rfl, rfl⟩ | ⟨hne, hb⟩
      · exact .inl ⟨rfl, fun hrunning => nomatch hrunning⟩
      · rw [hactors] at hb
        exact .inr ⟨b, hne, hb, .refl b⟩

/-- **The owner is undisturbed**: in every interleaving in which no session cleans up while another
one owns the input, what was handed to the input thread while a session owned it was that session's
own, and the devices are what those batches made of them. -/
theorem owner_undisturbed (config : Config P) (identityFingerprint : Fingerprint)
    (seatGate : SeatGate) (devices : D) {d : Computer P D}
    (h : System.Reaches step CleansUpAlone (start config identityFingerprint seatGate devices) d) :
    Undisturbed ⟨devices, .standard, false⟩ d := by
  have hinv : Owned ⟨devices, .standard, false⟩ d := by
    apply h.invariant
    · exact ⟨⟨nofun, rfl⟩, fun _ _ _ hactor => nomatch hactor⟩
    · intro s label t hs hcalm hstep
      exact hs.step hcalm hstep
  exact hinv.toUndisturbed

/-! ## Two peers -/

/-- Each peer may send input, and neither dial wins. -/
def twoPeers : Config (Fin 2) where
  sharing := true
  allowPreloginInput := false
  peers _ := some ⟨some 0, ⟨true, true, true, false⟩, .standard, false⟩

/-- A daemon with an unlocked seat, before anything is down. -/
def quietDesk : Computer (Fin 2) PlainInput := start twoPeers 0 ⟨.normal 1000, false⟩ .atRest

def activation (id : ActivationId) : SessionContext := ⟨1, 1, id⟩

/-- Session 10 of peer 0 opens an activation and holds a key, then session 20 of peer 1 would open
one: it is refused, stops, and cleans up. -/
def rivalCalls : List (Step (Fin 2)) :=
  [.start firstPeer 10 .accepting, .accept 10 0 true false 0, .start secondPeer 20 .accepting,
    .accept 20 0 true false 0,
    .batch 10 [.activationOpened (activation 1)] none granted,
    .batch 10 [.key (HidUsage.keyboard 4) true false] none granted,
    .batch 20 [.activationOpened (activation 2)] none granted,
    .cleanup 20 [.activationClosed (activation 2) .leaseExpired] granted]

/-- **A stranger's cleanup reaches the owner's devices**: the input still belongs to session 10, whose
key session 20 has released. -/
theorem stranger_releases : ∃ d : Computer (Fin 2) PlainInput, System.exec step rivalCalls quietDesk = some d ∧
      d.shared.inboundOwner = some (0, 10) ∧ d.receiving.devices = .atRest ∧
      ¬ Undisturbed ⟨.atRest, .standard, false⟩ d := by
  have hrun : (System.exec step rivalCalls quietDesk).any (fun d =>
      d.shared.inboundOwner = some (0, 10) ∧ d.receiving.devices = .atRest ∧
        d.delivered.any fun delivery => delivery.owner = some (0, 10) ∧ delivery.session = 20) =
      true := by decide
  obtain ⟨d, hd, hfacts⟩ := Option.any_eq_true _ _ |>.mp hrun
  obtain ⟨howner, hrest, hstranger⟩ := of_decide_eq_true hfacts
  refine ⟨d, hd, howner, hrest, ?_⟩
  intro hundisturbed
  obtain ⟨delivery, hmem, hdelivery⟩ := List.any_eq_true.mp hstranger
  obtain ⟨hsession, hown⟩ := of_decide_eq_true hdelivery |>.symm
  have hpair := hundisturbed.own delivery hmem _ hown
  rw [hsession] at hpair
  exact absurd (Prod.mk.inj hpair).2 (by decide)

/-- Session 10 is through before session 20 opens an activation. -/
def turnCalls : List (Step (Fin 2)) :=
  [.start firstPeer 10 .accepting, .accept 10 0 true false 0, .start secondPeer 20 .accepting,
    .accept 20 0 true false 0,
    .batch 10 [.activationOpened (activation 1)] none granted,
    .batch 10 [.key (HidUsage.keyboard 4) true false] none granted,
    .stop 10 true,
    .cleanup 10 [.key (HidUsage.keyboard 4) false true,
      .activationClosed (activation 1) .leaseExpired] granted,
    .closed 10,
    .batch 20 [.activationOpened (activation 2)] none granted,
    .batch 20 [.button 1 true false] none granted]

theorem owner_undisturbed_turns : ∃ d : Computer (Fin 2) PlainInput,
      (d.shared.inboundOwner = some (1, 20) ∧ d.delivered.length = 5) ∧
      Undisturbed ⟨.atRest, .standard, false⟩ d := by
  have hrun : ((System.guarded step CleansUpAlone).exec turnCalls quietDesk).any (fun d =>
      d.shared.inboundOwner = some (1, 20) ∧ d.delivered.length = 5) = true := by decide
  obtain ⟨d, hreaches, hd⟩ := System.exists_reaches_of_exec hrun
  exact ⟨d, of_decide_eq_true hd, owner_undisturbed _ _ _ _ hreaches⟩

end Computer

end Zflow.Daemon
