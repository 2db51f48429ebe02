import Zflow.Laws.Session.Heard
import Zflow.Laws.Session.Spoken
import Zflow.Session.Negotiate

/-!
# One direction of a connection

The outbound half of one computer's session and the inbound half of its peer's. The two take their steps in any
order, and what was sent arrives at any time, as often as it likes, or never: the control stream promises more
than that, so nothing here rests on it. In every run an open activation of the receiver holds what the sender
held at some point of what it has sent (`receiver_holds_what_was_held`), what the sender's devices hold once it
has heard the last message (`receiver_holds_what_devices_hold`), and its displacement is the sender's
(`displacement_exact`).
-/

namespace Zflow.Session

open Zflow.Core Lib

/-- The sending side with all it has sent, and the receiving side. -/
structure Connection (P F C : Type) [Ord P] [Std.TransOrd P] [Std.LawfulEqOrd P] where
  script : Scripted P
  inbound : Inbound F C

inductive ConnectionStep (P : Type) where
  | send (call : OutgoingCall P)
  /-- What stands at that place of all that was sent arrives. -/
  | arrive (place : Nat) (now : MonotonicTimeMicros)
  | probe (probe : ProbeMessage) (sender : Option Sender) (now : MonotonicTimeMicros)
  | tick (clockNow now : MonotonicTimeMicros)
  | trackActivation (clockNow : MonotonicTimeMicros)

def Sent.arrival (now : MonotonicTimeMicros) : Sent → InboundCall
  | .control message => .receiveControl message now
  | .motion frame => .receiveMotion frame now

/-- What a session checks of an arrival before it takes it. -/
def InboundCall.validate (negotiated : NegotiatedSession) : InboundCall → Except NegotiateError Unit
  | .receiveControl message _ => validateNegotiatedControl message.payload negotiated
  | .receiveMotion frame _ => validateNegotiatedMotion frame negotiated
  | .receiveProbe .. | .tick .. | .trackActivation _ => .ok ()

namespace Connection

variable {P F C : Type} [Ord P] [Std.TransOrd P] [Std.LawfulEqOrd P]

def sent (c : Connection P F C) : List Sent := c.script.outgoing.sent

/-- What of the receiving side the step calls. -/
def arrival (c : Connection P F C) : ConnectionStep P → Option InboundCall
  | .send _ => none
  | .arrive place now => c.sent[place]?.map (·.arrival now)
  | .probe probe sender now => some (.receiveProbe probe sender now)
  | .tick clockNow now => some (.tick clockNow now)
  | .trackActivation clockNow => some (.trackActivation clockNow)

variable [F64 F] [ClockMapper C] [DecidableEq P]

/-- The receiving side takes a call, unless it fails: that ends the session on its side. -/
def take (negotiated : NegotiatedSession) (env : Environment) (c : Connection P F C) (call : InboundCall) :
    Option (Connection P F C) :=
  match call.validate negotiated, Inbound.call env call c.inbound with
  | .ok (), (.ok (), inbound) => some { c with inbound }
  | _, _ => none

/-- A call of the sender that fails ends the session too. -/
def step (sends : List Sent → Except String Unit) (setup : Scripted.Setup) (env : Environment) :
    System (Connection P F C) (ConnectionStep P)
  | .send call, c => (Scripted.step sends setup call c.script).map fun script => { c with script }
  | label, c => (c.arrival label).bind (c.take setup.negotiated env)

/-- An activation opens with the connection's epoch and generation, and an id that no message has named: the
daemon takes ids from a counter. -/
def Fresh (context : SessionEpoch × TransportGeneration) (c : Connection P F C) : ConnectionStep P → Prop
  | .send call => c.script.Fresh context call
  | _ => True

instance (context : SessionEpoch × TransportGeneration) (c : Connection P F C) (label : ConnectionStep P) :
    Decidable (c.Fresh context label) :=
  match label with
  | .send call => inferInstanceAs (Decidable (c.script.Fresh context call))
  | .arrive .. | .probe .. | .tick .. | .trackActivation .. => .isTrue trivial

def start (inbound : Inbound F C) : Connection P F C := ⟨.start, inbound⟩

/-- **The invariant**: the sender keeps the contract, and the receiver has heard what was sent. -/
structure Sound (context : SessionEpoch × TransportGeneration) (c : Connection P F C) : Prop where
  valid : c.script.Valid
  spoken : Spoken context [] c.script.outgoing
  follows : Follows context c.sent c.inbound

variable {sends : List Sent → Except String Unit} {setup : Scripted.Setup} {env : Environment}
  {context : SessionEpoch × TransportGeneration} {c c' : Connection P F C}

omit [DecidableEq P] [F64 F] [ClockMapper C] in
/-- What arrives was sent. -/
theorem among_of_arrival {label : ConnectionStep P} {call : InboundCall} (h : c.arrival label = some call) :
    call.Among (fun message => .control message ∈ c.sent) fun frame => .motion frame ∈ c.sent := by
  cases label with
  | send => cases h
  | arrive place now =>
    obtain ⟨e, he, rfl⟩ := Option.map_eq_some_iff.mp h
    cases e <;> exact List.mem_of_getElem? he
  | probe | tick | trackActivation =>
    cases h
    trivial

omit [DecidableEq P] in
theorem take_some {negotiated : NegotiatedSession} {call : InboundCall} (h : c.take negotiated env call = some c') :
    ∃ inbound, Inbound.call env call c.inbound = (.ok (), inbound) ∧ c' = { c with inbound } := by
  unfold take at h
  split at h
  · rename_i inbound _ hrun
    cases h
    exact ⟨inbound, hrun, rfl⟩
  · cases h

theorem step_cases {label : ConnectionStep P} (h : step sends setup env label c = some c') :
    (∃ call script, label = .send call ∧ Scripted.step sends setup call c.script = some script ∧
      c' = { c with script }) ∨
    ∃ call inbound, c.arrival label = some call ∧ Inbound.call env call c.inbound = (.ok (), inbound) ∧
      c' = { c with inbound } := by
  have harrives : ∀ {label : ConnectionStep P}, (c.arrival label).bind (c.take setup.negotiated env) = some c' →
      ∃ call inbound, c.arrival label = some call ∧ Inbound.call env call c.inbound = (.ok (), inbound) ∧
        c' = { c with inbound } := by
    intro label h
    obtain ⟨call, harrival, htake⟩ := Option.bind_eq_some_iff.mp h
    obtain ⟨inbound, hrun, heq⟩ := take_some htake
    exact ⟨call, inbound, harrival, hrun, heq⟩
  cases label with
  | send call =>
    obtain ⟨script, hscript, rfl⟩ := Option.map_eq_some_iff.mp h
    exact .inl ⟨call, script, rfl, hscript, rfl⟩
  | arrive | probe | tick | trackActivation => exact .inr (harrives h)

/-- **Every step keeps the invariant.** -/
theorem Sound.step {label : ConnectionStep P} (h : c.Sound context) (hfresh : c.Fresh context label)
    (hstep : step sends setup env label c = some c') : c'.Sound context := by
  rcases step_cases hstep with ⟨call, script, rfl, hscript, rfl⟩ | ⟨call, inbound, harrival, hrun, rfl⟩
  · -- more is sent, behind what there is
    have hgrown := (Scripted.spoken_step h.spoken.onward h.valid hfresh hscript).grown
    exact ⟨h.valid.step hscript, Scripted.spoken_step h.spoken h.valid hfresh hscript, h.follows.more hgrown⟩
  · have hcall := (follows_hearing (F := F) (C := C) h.spoken.legal env).call (among_of_arrival harrival)
    exact ⟨h.valid, h.spoken, hcall.ok h.follows hrun⟩

section

variable {config : ReceiverConfig} {playoutConfig : PlayoutConfig F} {now : MonotonicTimeMicros} {i : Inbound F C}

omit [F64 F] in
theorem sound_start (hnew : Inbound.new config playoutConfig now = .ok i) :
    (start i : Connection P F C).Sound context :=
  ⟨Scripted.valid_start, Spoken.start, follows_new hnew⟩

/-- **The invariant of the connection.** -/
theorem sound_of_reaches (hnew : Inbound.new config playoutConfig now = .ok i)
    (h : System.Reaches (step sends setup env) (Fresh context) (start i) c) : c.Sound context :=
  h.invariant (sound_start hnew) fun _ _ _ hc hfresh hstep => hc.step hfresh hstep

/-! ## What it comes to -/

/-- A key is pressed while the pointer moves. The frame arrives before the activation is open, then twice, after
the key; the key arrives twice too. -/
def movedAndPressed : List (ConnectionStep Nat) :=
  [.send (.beginOutbound ⟨1, 1, 1⟩ 0),
    .send (.capture ⟨0, ⟨[.key ⟨7, 4⟩ .pressed], ⟨100, 0, 0, 0⟩, none, none⟩, 12⟩ 12), .arrive 1 9, .arrive 0 10,
    .trackActivation 10, .arrive 2 14, .arrive 1 15, .arrive 1 16, .arrive 2 17, .tick 20 20, .tick 1020 1020]

def keysAndPointer : Scripted.Setup :=
  { Scripted.keyboardOnly with
    negotiated := ⟨1200, .ofList [InputCapability.keyboard, .pointer], none, ⟨false, false, false, false, false, false⟩, 0, 900, 250⟩ }

/-- The runs of a connection whose receiving side starts at the sample session. -/
abbrev Sampled : Connection Nat ℚ OffsetClock → Prop :=
  System.Reaches (step (fun _ => .ok ()) keysAndPointer acceptingEnvironment) (Fresh (1, 1))
    (start sampleInbound)

theorem sampleInbound_new : Inbound.new sampleConfig samplePlayoutConfig 0 = .ok sampleInbound := by
  decide +kernel

/-- All of it was heard and played. -/
theorem sampled_played : ∃ c state s, Sampled c ∧ c.inbound.receiver.activation = some state ∧
    c.script.outgoing.sender = some s ∧ s.session = state.session ∧
    state.lastControlSequence = s.lastControlSequence ∧ state.lastInjectedMotion = s.lastMotionSequence := by
  have hrun : ((System.guarded (step (fun _ => .ok ()) keysAndPointer acceptingEnvironment)
      (Fresh (1, 1))).exec movedAndPressed (start sampleInbound : Connection Nat ℚ OffsetClock)).any (fun c =>
        c.inbound.receiver.activation.any fun state => c.script.outgoing.sender.any fun s =>
          s.session = state.session ∧ state.lastControlSequence = s.lastControlSequence ∧
            state.lastInjectedMotion = s.lastMotionSequence) = true := by
    decide +kernel
  obtain ⟨c, hreaches, hplayed⟩ := System.exists_reaches_of_exec hrun
  obtain ⟨state, hstate, hplayed⟩ := (Option.any_eq_true _ _).mp hplayed
  obtain ⟨s, hs, hplayed⟩ := (Option.any_eq_true _ _).mp hplayed
  exact ⟨c, state, s, hreaches, hstate, hs, of_decide_eq_true hplayed⟩

/-- **The receiver holds what the sender held.** In every run, whatever was lost, repeated or overtaken, an open
activation of the receiver is where the sender had it at the same control number: the same keys and buttons are
held, and a touch or none. -/
theorem receiver_holds_what_was_held (hnew : Inbound.new config playoutConfig now = .ok i)
    (h : System.Reaches (step sends setup env) (Fresh context) (start i : Connection P F C) c) :
    ∀ state, c.inbound.receiver.activation = some state →
      ∃ before leg, before <+: c.sent ∧ ((Transcript.machine context).run .start before).leg = some leg ∧
        leg.session = state.session ∧ leg.control = state.lastControlSequence ∧
        state.held.pressedKeys = leg.held.pressedKeys ∧ state.held.pressedButtons = leg.held.pressedButtons ∧
        (state.held.activeTouch = ∅ ↔ leg.held.activeTouch = ∅) := by
  intro state hstate
  obtain ⟨before, leg, hbefore, hleg, hshows⟩ := (sound_of_reaches hnew h).follows.shown state hstate
  exact ⟨before, leg, hbefore, hleg, hshows.session, hshows.control, hshows.held.keys, hshows.held.buttons,
    hshows.held.touch⟩

theorem receiver_holds_what_was_held_sample : ∃ c state, Sampled c ∧ c.inbound.receiver.activation = some state ∧
    ∃ before leg, before <+: c.sent ∧ ((Transcript.machine (1, 1)).run .start before).leg = some leg ∧
      state.held.pressedKeys = leg.held.pressedKeys := by
  obtain ⟨c, state, _, hreaches, hstate, -⟩ := sampled_played
  obtain ⟨before, leg, hbefore, hleg, -, -, hkeys, -⟩ :=
    receiver_holds_what_was_held sampleInbound_new hreaches state hstate
  exact ⟨c, state, hreaches, hstate, before, leg, hbefore, hleg, hkeys⟩

/-- **The receiver holds what the sender's devices hold**, once it has taken the last message the sender sent: a
key or a button exactly where some device of the sender's computer does, and a touch where the sender does. -/
theorem receiver_holds_what_devices_hold (hnew : Inbound.new config playoutConfig now = .ok i)
    (h : System.Reaches (step sends setup env) (Fresh context) (start i : Connection P F C) c) :
    ∀ state s, c.inbound.receiver.activation = some state → c.script.outgoing.sender = some s →
      s.session = state.session → state.lastControlSequence = s.lastControlSequence →
      (∀ key, key ∈ state.held.pressedKeys ↔ ∃ device, held c.script.log device (.key key) = true) ∧
      (∀ button, button ∈ state.held.pressedButtons ↔ ∃ device, held c.script.log device (.button button) = true) ∧
      (state.held.activeTouch = ∅ ↔ s.held.activeTouch = ∅) := by
  intro state s hstate hs hsession hlast
  have hsound := sound_of_reaches hnew h
  obtain ⟨before, leg, hbefore, hleg, hshows⟩ := hsound.follows.shown state hstate
  obtain ⟨own, hown, htells⟩ := hsound.spoken.stands s hs
  obtain ⟨-, hagrees⟩ := hsound.valid.sender s hs
  have halike : HeldAlike leg.held own.held := by
    refine Transcript.held_of_control hsound.spoken.legal hbefore (List.prefix_refl _) hleg hown ?_ ?_
    · rw [hshows.session, ← hsession, htells.session]
    · rw [hshows.control, hlast, htells.control]
  have hheld : HeldAlike s.held state.held := by
    rw [← htells.held]
    exact halike.symm.trans hshows.held
  refine ⟨fun key => ?_, fun button => ?_, hheld.touch⟩
  · rw [hheld.keys, ← Std.ExtTreeSet.contains_iff_mem, hagrees.keys, heldByAny_iff]
  · rw [hheld.buttons, ← Std.ExtTreeSet.contains_iff_mem, hagrees.buttons, heldByAny_iff]

theorem receiver_holds_what_devices_hold_sample : ∃ c state, Sampled c ∧ c.inbound.receiver.activation = some state ∧
    ∀ key, key ∈ state.held.pressedKeys ↔ ∃ device, held c.script.log device (.key key) = true := by
  obtain ⟨c, state, s, hreaches, hstate, hs, hsession, hlast, -⟩ := sampled_played
  exact ⟨c, state, hreaches, hstate,
    (receiver_holds_what_devices_hold sampleInbound_new hreaches state s hstate hs hsession hlast).1⟩

/-- **Displacement is exact.** In every run, whatever was lost, repeated or overtaken, the playout of an open
activation heads for a place where the sender was, with the number and the totals of one of its frames; when it
gets there the receiver has injected just those totals. While the sender is in the same activation that is no
later than its last motion, and once the last motion is finished the receiver has injected all that the sender
captured. -/
theorem displacement_exact (hnew : Inbound.new config playoutConfig now = .ok i)
    (h : System.Reaches (step sends setup env) (Fresh context) (start i : Connection P F C) c) :
    ∀ state, c.inbound.receiver.activation = some state → ∃ p, c.inbound.playout = some p ∧
      Travelled c.sent state.session p.target.sequence p.target.totals ∧
      (state.lastInjectedMotion = p.target.sequence → state.injectedTotals = p.target.totals) ∧
      ∀ s, c.script.outgoing.sender = some s → s.session = state.session → p.target.sequence ≤ s.lastMotionSequence ∧
        (state.lastInjectedMotion = s.lastMotionSequence → state.injectedTotals = s.totals) := by
  intro state hstate
  have hsound := sound_of_reaches hnew h
  obtain ⟨p, hp, hmatches⟩ := hsound.follows.lockstep.matched state hstate
  have htravelled := (hsound.follows.drawn p hp).target
  rw [hmatches.session] at htravelled
  have hexact : state.lastInjectedMotion = p.target.sequence → state.injectedTotals = p.target.totals := by
    intro heq
    rw [← hmatches.injected]
    exact hmatches.reached heq.symm
  refine ⟨p, hp, htravelled, hexact, fun s hs hsession => ?_⟩
  obtain ⟨own, hown, htells⟩ := hsound.spoken.stands s hs
  have hlast : p.target.sequence ≤ s.lastMotionSequence := by
    rcases htravelled with ⟨hzero, -⟩ | ⟨frame, hmem, hframe, hnumber, -⟩
    · rw [hzero]
      exact Nat.zero_le _
    · rw [← hnumber, ← htells.motion]
      refine Transcript.motion_of_mem hsound.spoken.legal hmem hown ?_
      rw [hframe, ← hsession, htells.session]
  refine ⟨hlast, fun heq => ?_⟩
  have hfinished : state.lastInjectedMotion = p.target.sequence :=
    Nat.le_antisymm hmatches.target (heq ▸ hlast)
  rw [hexact hfinished]
  refine Transcript.travelled_unique hsound.spoken.legal htravelled ?_
  rw [← hfinished, heq, ← htells.motion, ← htells.totals, ← hsession, ← htells.session]
  exact Transcript.travelled_of_run hsound.spoken.legal hown

theorem displacement_exact_sample : ∃ c state s, Sampled c ∧ c.inbound.receiver.activation = some state ∧
    c.script.outgoing.sender = some s ∧ state.lastInjectedMotion = s.lastMotionSequence ∧
    state.injectedTotals = s.totals := by
  obtain ⟨c, state, s, hreaches, hstate, hs, hsession, -, hlast⟩ := sampled_played
  obtain ⟨p, -, -, -, hsender⟩ := displacement_exact sampleInbound_new hreaches state hstate
  exact ⟨c, state, s, hreaches, hstate, hs, hlast, (hsender s hs hsession).2 hlast⟩

end

end Connection

end Zflow.Session
