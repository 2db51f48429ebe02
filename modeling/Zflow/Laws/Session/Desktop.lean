import Zflow.Session.Desktop

/-!
# The order of desktop requests

What the relay of a session says is a legal exchange (`sound_run`): one request at a time in each direction, and each
response to the one who asked for it. A Finish of the peer is handed over in a round that finds no deferred control and no
open activation (`finishes_idle`). What does not fit is turned away (`ordersDesktop`); a response that answers nothing
costs the open request its waiter all the same, and the session ends there (`not_keeps_waiter`).
-/

namespace Zflow.Session

open Zflow.Core Desktop Lib Pairing Wire

namespace DesktopRelay

variable {W : Type} {hearing : Hearing W}

/-- The exchange whose open requests the relay holds. -/
def exchange (relay : DesktopRelay W) : Exchange Nat DesktopRequest W where
  ours := relay.waiter
  theirs := match relay.incoming, relay.reply with
    | some (id, request, _), _ => .waiting id request
    | none, some (id, _) => .handed id
    | none, none => .none

/-- What the relay has said keeps to the exchange. -/
def Lawful (relay : DesktopRelay W) : Prop := Exchange.machine.Legal .empty relay.said

/-- What the relay has said leads to what it holds. -/
structure Sound (relay : DesktopRelay W) : Prop where
  lawful : relay.Lawful
  shows : Exchange.machine.run .empty relay.said = relay.exchange
  apart : relay.incoming = none ∨ relay.reply = none

theorem sound_new : (new : DesktopRelay W).Sound := ⟨trivial, rfl, .inl rfl⟩

/-- A relay that said one thing more. -/
def saying (relay : DesktopRelay W) (event : Said W) : DesktopRelay W := { relay with said := relay.said ++ [event] }

theorem lawful_saying {relay : DesktopRelay W} (event : Said W) (h : relay.Sound)
    (hadmits : relay.exchange.Admits event) : Exchange.machine.Legal .empty (relay.said ++ [event]) := by
  refine (Exchange.machine.legal_append _ _ _).mpr ⟨h.lawful, ?_, trivial⟩
  rw [h.shows]
  exact hadmits

/-- The relay `after` holds what the event makes of what the relay held. -/
theorem sound_saying {relay after : DesktopRelay W} (event : Said W) (h : relay.Sound)
    (hadmits : relay.exchange.Admits event) (hsaid : after.said = relay.said ++ [event])
    (hshows : relay.exchange.apply event = after.exchange) (hapart : after.incoming = none ∨ after.reply = none) :
    after.Sound := by
  have hlawful := lawful_saying event h hadmits
  refine ⟨?_, ?_, hapart⟩
  · unfold Lawful
    rw [hsaid]
    exact hlawful
  · rw [hsaid, Replay.run_append, h.shows]
    exact hshows

/-- Saying something leaves it said, heard or not. -/
theorem say_triple (hearing : Hearing W) (relay : DesktopRelay W) (event : Said W) :
    Act.Triple (· = relay) (say hearing event) (fun _ after => after = relay.saying event)
      (fun _ after => after = relay.saying event) := by
  rintro relay rfl
  unfold say
  rw [Act.bind_of_ok (Act.change_apply _ relay), Act.bind_of_ok (Act.read_apply _)]
  unfold Act.lift
  cases hearing (relay.said ++ [event]) <;> rfl

/-- The rule of a method that says one thing: it is lawful to say it, and what follows leaves a sound relay. -/
theorem say_bind {relay : DesktopRelay W} {event : Said W} {rest : Unit → Act InboundError (DesktopRelay W) Unit}
    (hlawful : (relay.saying event).Lawful)
    (hrest : Act.Triple (· = relay.saying event) (rest ()) (fun _ => Sound) fun _ => Lawful) :
    Act.Triple (· = relay) (say hearing event >>= rest) (fun _ => Sound) fun _ => Lawful := by
  refine .bind (Q := fun _ after => after = relay.saying event) ?_ fun _ => hrest
  refine (say_triple hearing relay event).weaken (fun _ => id) (fun _ _ => id) ?_
  rintro _ _ rfl
  exact hlawful

/-- A layout changes nothing. -/
theorem pass_triple (layout : PassedLayout) :
    Act.Triple Sound (say hearing (.passed layout)) (fun _ => Sound) fun _ => Lawful := by
  intro relay h
  refine (say_triple hearing relay (.passed layout)).weaken (fun _ => id) ?_ ?_ relay rfl
  · rintro _ _ rfl
    exact sound_saying (.passed layout) h trivial rfl rfl h.apart
  · rintro _ _ rfl
    exact lawful_saying (.passed layout) h trivial

theorem request_triple (id : Nat) (asked : DesktopRequest) (reply : W) :
    Act.Triple Sound (request hearing id asked reply) (fun _ => Sound) fun _ => Lawful := by
  unfold request
  refine .read fun relay => ?_
  split
  · refine .change ?_
    rintro relay ⟨h, rfl⟩
    exact sound_saying (.refused reply _) h trivial rfl rfl h.apart
  · rename_i hfree
    have hours : relay.waiter = none := Option.not_isSome_iff_eq_none.mp hfree
    rintro relay ⟨h, rfl⟩
    refine say_bind (lawful_saying (.asked id reply asked) h hours) (.change ?_) _ rfl
    rintro _ rfl
    exact sound_saying (.asked id reply asked) h hours rfl rfl h.apart

theorem receive_triple (message : DesktopMessage) (now : Instant) :
    Act.Triple Sound (receive hearing message now) (fun _ => Sound) fun _ => Lawful := by
  unfold receive
  refine .read fun relay => ?_
  cases message with
  | request id asked =>
    dsimp only
    split
    · exact .fail fun s hs => hs.1.lawful
    · rename_i hfree
      rw [Bool.or_eq_true, not_or, Option.not_isSome_iff_eq_none, Option.not_isSome_iff_eq_none] at hfree
      have htheirs : relay.exchange.theirs = .none := by
        unfold exchange
        rw [hfree.1, hfree.2]
      rintro relay ⟨h, rfl⟩
      exact sound_saying (.accepted id asked) h htheirs rfl rfl (.inr hfree.2)
  | response id response =>
    dsimp only
    cases hwaiter : relay.waiter with
    | none => exact .fail fun s hs => hs.1.lawful
    | some waiting =>
      obtain ⟨expected, reply⟩ := waiting
      dsimp only
      refine .bind (Q := fun _ after => relay.Sound ∧ after = { relay with waiter := none }) (.change ?_) fun _ => ?_
      · rintro _ ⟨h, rfl⟩
        exact ⟨h, rfl⟩
      split
      · refine .fail ?_
        rintro _ ⟨h, rfl⟩
        exact h.lawful
      · rename_i hid
        obtain rfl := Decidable.of_not_not hid
        refine .change ?_
        rintro _ ⟨h, rfl⟩
        exact sound_saying (.delivered id reply response) h hwaiter rfl rfl h.apart
  | layout layout =>
    exact (pass_triple _).pre fun s hs => hs.1

theorem dispatch_triple (controlsPending activationOpen : Bool) (now : Instant) :
    Act.Triple Sound (dispatch hearing controlsPending activationOpen now) (fun _ => Sound) fun _ => Lawful := by
  unfold dispatch
  refine .read fun relay => ?_
  cases hincoming : relay.incoming with
  | none => exact .pure fun _ hs => hs.1
  | some request =>
    obtain ⟨id, request, started⟩ := request
    dsimp only
    split
    · exact .fail fun s hs => hs.1.lawful
    split
    · have htheirs : relay.exchange.theirs = .waiting id request := by
        unfold exchange
        rw [hincoming]
      refine .bind (Q := fun _ after => relay.Sound ∧ after = { relay with incoming := none }) (.change ?_) fun _ => ?_
      · rintro relay ⟨h, rfl⟩
        exact ⟨h, rfl⟩
      rintro _ ⟨h, rfl⟩
      have hlegal := lawful_saying (.handedOver id request) h htheirs
      have hlawful : ({ relay with incoming := none }.saying (.handedOver id request)).Lawful := hlegal
      refine say_bind hlawful (.change ?_) _ rfl
      rintro _ rfl
      exact sound_saying (.handedOver id request) h htheirs rfl rfl (.inl rfl)
    · exact .pure fun _ hs => hs.1

theorem sendReply_triple (id : Nat) (response : DesktopResponse) :
    Act.Triple (fun relay => Sound relay ∧ ∃ started, relay.reply = some (id, started))
      (sendReply hearing id response) (fun _ => Sound) fun _ => Lawful := by
  rintro relay ⟨h, started, hreply⟩
  have hincoming : relay.incoming = none := h.apart.resolve_right (by simp [hreply])
  have htheirs : relay.exchange.theirs = .handed id := by
    unfold exchange
    rw [hincoming, hreply]
  have hshows : relay.exchange.apply (.replied id response : Said W) = exchange { relay with reply := none } := by
    unfold exchange
    rw [hincoming]
    rfl
  have hlegal := lawful_saying (.replied id response) h htheirs
  unfold sendReply
  rw [Act.bind_of_ok (Act.change_apply _ relay)]
  refine (say_triple hearing _ (.replied id response)).weaken (fun _ hs => hs) ?_ ?_ _ rfl
  · rintro _ _ rfl
    exact sound_saying (.replied id response) h htheirs rfl hshows (.inr rfl)
  · rintro _ _ rfl
    exact hlegal

/-! ## What is turned away -/

/-- A second request of the peer is an error, and changes nothing. -/
theorem receive_overlapping {relay : DesktopRelay W} (h : relay.incoming.isSome ∨ relay.reply.isSome) (id : Nat)
    (asked : DesktopRequest) (now : Instant) :
    receive hearing (.request id asked) now relay = (.error (.bail "Overlapping desktop requests"), relay) := by
  have hopen : (relay.incoming.isSome || relay.reply.isSome) = true := by simpa using h
  unfold receive
  rw [Act.bind_of_ok (Act.read_apply relay)]
  dsimp only
  rw [if_pos hopen]
  rfl

/-- A second request of ours is refused, and the first one goes on. -/
theorem request_overlapping {relay : DesktopRelay W} (h : relay.waiter.isSome) (id : Nat) (asked : DesktopRequest)
    (reply : W) : request hearing id asked reply relay =
      (.ok (), relay.saying (.refused reply (.unavailable "A desktop request is already pending"))) := by
  unfold request
  rw [Act.bind_of_ok (Act.read_apply relay), if_pos h]
  rfl

/-- A response to a request that is not open is an error: it reaches nobody, and whoever waited is gone. -/
theorem receive_unmatched {relay : DesktopRelay W} {id : Nat} (h : ∀ reply, relay.waiter ≠ some (id, reply))
    (response : DesktopResponse) (now : Instant) : ∃ message, receive hearing (.response id response) now relay =
      (.error (.bail message), { relay with waiter := none }) := by
  unfold receive
  rw [Act.bind_of_ok (Act.read_apply relay)]
  dsimp only
  cases hwaiter : relay.waiter with
  | none =>
    have hsame : { relay with waiter := none } = relay := hwaiter ▸ rfl
    refine ⟨"Unexpected desktop response", ?_⟩
    rw [hsame]
    rfl
  | some waiting =>
    obtain ⟨expected, reply⟩ := waiting
    have hid : id ≠ expected := fun heq => h reply (heq ▸ hwaiter)
    refine ⟨"Desktop response ID does not match request", ?_⟩
    dsimp only
    rw [Act.bind_of_ok (Act.change_apply _ relay), if_pos hid]
    rfl

/-- A response of the peer that answers nothing costs the request that is open its waiter. -/
theorem not_keeps_waiter :
    ¬ ∀ (id other : Nat) (asked : DesktopRequest) (reply : Unit) (response : DesktopResponse) (now : Instant)
      (relay after : DesktopRelay Unit) (e : InboundError),
      request (fun _ => .ok ()) id asked reply new = (.ok (), relay) →
      receive (fun _ => .ok ()) (.response other response) now relay = (.error e, after) →
      after.waiter = relay.waiter := by
  intro h
  cases h 1 2 .snapshot () .active 0 _ _ _ rfl rfl

/-! ## What a method adds -/

def isHandedOver : Said W → Bool
  | .handedOver .. => true
  | _ => false

/-- Nothing is handed over from one relay to the other. -/
def Keeps (relay after : DesktopRelay W) : Prop :=
  ∃ more, after.said = relay.said ++ more ∧ ∀ e ∈ more, isHandedOver e = false

instance : IsPreorder (DesktopRelay W) Keeps where
  refl relay := ⟨[], (List.append_nil _).symm, fun _ h => nomatch h⟩
  trans := by
    rintro a b c ⟨xs, hxs, hx⟩ ⟨ys, hys, hy⟩
    refine ⟨xs ++ ys, by rw [hys, hxs, List.append_assoc], ?_⟩
    exact List.forall_mem_append.mpr ⟨hx, hy⟩

theorem keeps_change {f : DesktopRelay W → DesktopRelay W} (h : ∀ relay, (f relay).said = relay.said) :
    Act.Within Keeps (Act.change f : Act InboundError (DesktopRelay W) Unit) := fun relay =>
  ⟨[], by rw [List.append_nil]; exact h relay, fun _ hmem => nomatch hmem⟩

theorem keeps_mention {event : Said W} (h : isHandedOver event = false) :
    Act.Within Keeps (mention event : Act InboundError (DesktopRelay W) Unit) := fun _ =>
  ⟨[event], rfl, by simpa using h⟩

theorem keeps_say {event : Said W} (h : isHandedOver event = false) : Act.Within Keeps (say hearing event) :=
  .bind (keeps_mention h) fun _ => .bind .read fun _ => .lift _

theorem keeps_request (id : Nat) (asked : DesktopRequest) (reply : W) :
    Act.Within Keeps (request hearing id asked reply) := by
  unfold request
  refine .bind .read fun relay => ?_
  split
  · exact keeps_mention rfl
  · exact .bind (keeps_say rfl) fun _ => keeps_change fun _ => rfl

theorem keeps_receive (message : DesktopMessage) (now : Instant) : Act.Within Keeps (receive hearing message now) := by
  unfold receive
  refine .bind .read fun relay => ?_
  cases message with
  | request id asked =>
    dsimp only
    split
    · exact .fail _
    · exact .bind (keeps_mention rfl) fun _ => keeps_change fun _ => rfl
  | response id response =>
    dsimp only
    cases relay.waiter with
    | none => exact .fail _
    | some waiting =>
      refine .bind (keeps_change fun _ => rfl) fun _ => ?_
      split
      · exact .fail _
      · exact keeps_mention rfl
  | layout layout => exact keeps_say rfl

theorem keeps_sendReply (id : Nat) (response : DesktopResponse) : Act.Within Keeps (sendReply hearing id response) :=
  .bind (keeps_change fun _ => rfl) fun _ => keeps_say rfl

/-- **What `dispatch` hands over**: the request that waits, where it may run. -/
theorem dispatch_said (hearing : Hearing W) (controlsPending activationOpen : Bool) (now : Instant) (relay : DesktopRelay W) :
    (dispatch hearing controlsPending activationOpen now relay).2.said = relay.said ∨
      ∃ id request, (dispatch hearing controlsPending activationOpen now relay).2.said =
          relay.said ++ [.handedOver id request] ∧
        controlsPending = false ∧ (isFinish request = true → activationOpen = false) := by
  unfold dispatch
  rw [Act.bind_of_ok (Act.read_apply relay)]
  cases relay.incoming with
  | none => exact .inl rfl
  | some request =>
    obtain ⟨id, request, started⟩ := request
    dsimp only
    split
    · exact .inl rfl
    split
    · rename_i hready
      simp only [Bool.and_eq_true, Bool.or_eq_true, Bool.not_eq_true'] at hready
      obtain ⟨⟨hcontrols, hfinish⟩, -⟩ := hready
      refine .inr ⟨id, request, ?_, hcontrols, fun h => hfinish.resolve_left (by simp [h])⟩
      rw [Act.bind_of_ok (Act.change_apply _ relay)]
      have hsay := say_triple hearing { relay with incoming := none } (.handedOver id request) _ rfl
      cases hrun : say hearing (.handedOver id request) { relay with incoming := none } with
      | mk result after =>
        rw [hrun] at hsay
        cases result with
        | ok _ =>
          rw [Act.bind_of_ok hrun]
          exact congrArg said hsay
        | error e =>
          rw [Act.bind_of_error hrun]
          exact congrArg said hsay
    · exact .inl rfl

end DesktopRelay

/-! ## Runs of the loop -/

namespace SessionLoop

variable {F : Type} [F64 F] {C : Type} [ClockMapper C] {W : Type} {env : Environment} {hearing : Hearing W}

omit [F64 F] [ClockMapper C] in
theorem onDesktop_triple {P : DesktopRelay W → Prop} {x : Act InboundError (DesktopRelay W) Unit}
    (h : Act.Triple P x (fun _ => DesktopRelay.Sound) fun _ => DesktopRelay.Lawful) :
    Act.Triple (fun s : SessionLoop F C W => P s.desktop) (onDesktop x) (fun _ s => s.desktop.Sound)
      fun _ s => s.desktop.Lawful :=
  .on (fun _ _ _ hs hx => h.ok hs hx) fun _ _ _ hs hx => h.error hs hx

omit [F64 F] [ClockMapper C] in
theorem onInbound_triple (x : Act InboundError (Inbound F C) Unit) :
    Act.Triple (fun s : SessionLoop F C W => s.desktop.Sound) (onInbound x) (fun _ s => s.desktop.Sound)
      fun _ s => s.desktop.Lawful :=
  .on (fun _ _ _ hs _ => hs) fun _ _ _ hs _ => hs.lawful

omit [F64 F] [ClockMapper C] in
theorem takeReply_triple (receipt : Receipt) :
    Act.Triple (fun s : SessionLoop F C W => s.desktop.Sound) (takeReply hearing receipt) (fun _ s => s.desktop.Sound)
      fun _ s => s.desktop.Lawful := by
  unfold takeReply
  refine .read fun s => ?_
  unfold DesktopRelay.nextReply
  cases hreply : s.desktop.reply with
  | none => exact .pure fun _ hs => hs.1
  | some waiting =>
    obtain ⟨id, started⟩ := waiting
    dsimp only [Option.map_some]
    refine .bind (Q := fun answer t => answer.1 = id ∧ t = s ∧ s.desktop.Sound) (.lift ?_ ?_) fun answer => ?_
    · rintro answer hanswer t ⟨h, rfl⟩
      cases receipt with
      | answered response =>
        cases hanswer
        exact ⟨rfl, rfl, h⟩
      | stopped => cases hanswer
      | timedOut => cases hanswer
    · rintro e - t ⟨h, -⟩
      exact h.lawful
    · refine (onDesktop_triple (DesktopRelay.sendReply_triple answer.1 answer.2)).pre ?_
      rintro t ⟨rfl, rfl, h⟩
      exact ⟨h, started, hreply⟩

theorem take_triple (taken : Taken W) :
    Act.Triple (fun s : SessionLoop F C W => s.desktop.Sound) (take env hearing taken) (fun _ s => s.desktop.Sound)
      fun _ s => s.desktop.Lawful := by
  cases taken with
  | reply receipt => exact takeReply_triple receipt
  | request id asked reply => exact onDesktop_triple (DesktopRelay.request_triple id asked reply)
  | layout layout => exact onDesktop_triple (DesktopRelay.pass_triple (.sent layout))
  | desktop message now => exact onDesktop_triple (DesktopRelay.receive_triple message now)
  | other result => exact .lift (fun _ _ _ hs => hs) fun _ _ _ hs => hs.lawful
  | _ => exact onInbound_triple _

theorem round_triple (r : Round W) :
    Act.Triple (fun s : SessionLoop F C W => s.desktop.Sound) (round env hearing r) (fun _ s => s.desktop.Sound)
      fun _ s => s.desktop.Lawful := by
  refine .bind (Q := fun _ s => s.desktop.Sound) (.read fun s => ?_) fun _ => .bind (onInbound_triple _) fun _ =>
    take_triple r.taken
  exact (onDesktop_triple (DesktopRelay.dispatch_triple _ _ _)).pre fun _ hs => hs.1

/-- **What a session says is a legal exchange**, up to its end. -/
theorem sound_run (rounds : List (Round W)) :
    Act.Triple (fun s : SessionLoop F C W => s.desktop.Sound) (run env hearing rounds) (fun _ s => s.desktop.Sound)
      fun _ s => s.desktop.Lawful := by
  induction rounds with
  | nil => exact .pure fun _ hs => hs
  | cons r rest ih => exact .bind (round_triple r) fun _ => ih

/-! ## When a Finish is handed over -/

omit [F64 F] [ClockMapper C] in
theorem onDesktop_keeps {x : Act InboundError (DesktopRelay W) Unit} (h : Act.Within DesktopRelay.Keeps x)
    (s : SessionLoop F C W) : s.desktop.Keeps (onDesktop x s).2.desktop := h s.desktop

omit [F64 F] [ClockMapper C] in
theorem takeReply_keeps (receipt : Receipt) (s : SessionLoop F C W) :
    s.desktop.Keeps (takeReply hearing receipt s).2.desktop := by
  have hsame : s.desktop.Keeps s.desktop := refl_of DesktopRelay.Keeps s.desktop
  unfold takeReply
  rw [Act.bind_of_ok (Act.read_apply s)]
  cases s.desktop.nextReply receipt with
  | none => exact hsame
  | some response =>
    cases response with
    | error e => exact hsame
    | ok answer => exact onDesktop_keeps (DesktopRelay.keeps_sendReply answer.1 answer.2) s

theorem take_keeps (taken : Taken W) (s : SessionLoop F C W) :
    s.desktop.Keeps (take env hearing taken s).2.desktop := by
  have hsame : s.desktop.Keeps s.desktop := refl_of DesktopRelay.Keeps s.desktop
  cases taken with
  | reply receipt => exact takeReply_keeps receipt s
  | request id asked reply => exact onDesktop_keeps (DesktopRelay.keeps_request id asked reply) s
  | layout layout => exact onDesktop_keeps (DesktopRelay.keeps_say rfl) s
  | desktop message now => exact onDesktop_keeps (DesktopRelay.keeps_receive message now) s
  | _ => exact hsame

/-- No deferred control is pending and no activation of the peer is open. -/
def Idle (s : SessionLoop F C W) : Prop := s.inbound.pending = [] ∧ s.inbound.activeContext = none

omit [F64 F] [ClockMapper C] in
/-- **The start of a round**: what it hands over, and what it finds when that is a Finish. -/
theorem dispatch_said (hearing : Hearing W) (now : Instant) (s : SessionLoop F C W) :
    (dispatch hearing now s).2.desktop.said = s.desktop.said ∨
      ∃ id request, (dispatch hearing now s).2.desktop.said = s.desktop.said ++ [.handedOver id request] ∧
        (isFinish request = true → s.Idle) := by
  rcases DesktopRelay.dispatch_said hearing s.inbound.hasPendingControls
    s.inbound.activeContext.isSome now s.desktop with hsame | ⟨id, request, hsaid, hpending, hopen⟩
  · exact .inl hsame
  · refine .inr ⟨id, request, hsaid, fun hfinish => ⟨?_, ?_⟩⟩
    · simpa [Inbound.hasPendingControls] using hpending
    · simpa using hopen hfinish

/-- What a round adds: a Finish comes first in it, and finds the session idle. -/
theorem round_said (env : Environment) (hearing : Hearing W) (r : Round W) (s : SessionLoop F C W) :
    ∃ added, (round env hearing r s).2.desktop.said = s.desktop.said ++ added ∧
      ∀ before id token after, added = before ++ .handedOver id (.finish token) :: after → before = [] ∧ s.Idle := by
  -- the rest of the round hands nothing over
  have hrest : ∀ t : SessionLoop F C W, t.desktop.Keeps
      ((onInbound (.change (Inbound.trackActivation r.trackedAt)) >>= fun _ => take env hearing r.taken) t).2.desktop :=
    fun t => take_keeps r.taken { t with inbound := Inbound.trackActivation r.trackedAt t.inbound }
  have hround : ∃ more, (round env hearing r s).2.desktop.said =
      (dispatch hearing r.dispatchedAt s).2.desktop.said ++ more ∧
        ∀ e ∈ more, DesktopRelay.isHandedOver e = false := by
    unfold round
    cases hdispatch : dispatch hearing r.dispatchedAt s with
    | mk result s' =>
      cases result with
      | ok _ =>
        rw [Act.bind_of_ok hdispatch]
        exact hrest s'
      | error e =>
        rw [Act.bind_of_error hdispatch]
        exact refl_of DesktopRelay.Keeps s'.desktop
  obtain ⟨more, hsaid, hquiet⟩ := hround
  have hnone : ∀ before id token after, more ≠ before ++ .handedOver id (.finish token) :: after := by
    rintro before id token after rfl
    cases hquiet (.handedOver id (.finish token)) (by simp)
  rcases dispatch_said hearing r.dispatchedAt s with hsame | ⟨id, request, hhanded, hidle⟩
  · exact ⟨more, by rw [hsaid, hsame], fun before id token after h => absurd h (hnone before id token after)⟩
  · refine ⟨.handedOver id request :: more, by rw [hsaid, hhanded, List.append_assoc]; rfl, ?_⟩
    intro before id' token after h
    cases before with
    | nil =>
      obtain ⟨hfirst, -⟩ := List.cons.inj h
      cases hfirst
      exact ⟨rfl, hidle rfl⟩
    | cons first before => exact absurd (List.cons.inj h).2 (hnone before id' token after)

theorem finishes_idle_from (env : Environment) (hearing : Hearing W) (rounds : List (Round W)) (s : SessionLoop F C W) :
    ∃ added, (run env hearing rounds s).2.desktop.said = s.desktop.said ++ added ∧
      ∀ before id token after, added = before ++ .handedOver id (.finish token) :: after →
        ∃ done r rest t, rounds = done ++ r :: rest ∧ run env hearing done s = (.ok (), t) ∧
          t.desktop.said = s.desktop.said ++ before ∧ t.Idle := by
  induction rounds generalizing s with
  | nil => exact ⟨[], (List.append_nil _).symm, fun _ _ _ _ h => by simp at h⟩
  | cons r rest ih =>
    obtain ⟨first, hfirst, hidle⟩ := round_said env hearing r s
    cases hround : round env hearing r s with
    | mk result s' =>
      rw [hround] at hfirst
      -- a Finish of this round
      have hhere : ∀ before id token after, first = before ++ .handedOver id (.finish token) :: after →
          ∃ done r' rest' t, r :: rest = done ++ r' :: rest' ∧ run env hearing done s = (.ok (), t) ∧
            t.desktop.said = s.desktop.said ++ before ∧ t.Idle := by
        intro before id token after h
        obtain ⟨rfl, hs⟩ := hidle before id token after h
        exact ⟨[], r, rest, s, rfl, rfl, (List.append_nil _).symm, hs⟩
      cases result with
      | error e =>
        refine ⟨first, ?_, hhere⟩
        unfold run
        rw [Act.bind_of_error hround]
        exact hfirst
      | ok _ =>
        obtain ⟨later, hlater, hafter⟩ := ih s'
        have hrun : ∀ rounds, run env hearing (r :: rounds) s = run env hearing rounds s' :=
          fun rounds => Act.bind_of_ok hround
        -- a Finish of the rounds after it
        have hthere : ∀ before id token after, later = before ++ .handedOver id (.finish token) :: after →
            ∃ done r' rest' t, r :: rest = done ++ r' :: rest' ∧ run env hearing done s = (.ok (), t) ∧
              t.desktop.said = s.desktop.said ++ (first ++ before) ∧ t.Idle := by
          intro before id token after h
          obtain ⟨done, r', rest', t, rfl, hdone, hsaid, ht⟩ := hafter before id token after h
          refine ⟨r :: done, r', rest', t, rfl, by rw [hrun, hdone], ?_, ht⟩
          rw [hsaid, hfirst, List.append_assoc]
        refine ⟨first ++ later, by rw [hrun, hlater, hfirst, List.append_assoc], ?_⟩
        intro before id token after h
        rcases List.append_eq_append_iff.mp h with ⟨between, rfl, hrest⟩ | ⟨between, hfirst', hrest⟩
        · exact hthere between id token after hrest
        · cases between with
          | nil =>
            rw [List.append_nil] at hfirst'
            have hlast := hthere [] id token after hrest.symm
            rwa [List.append_nil, hfirst'] at hlast
          | cons e between =>
            obtain ⟨rfl, -⟩ := List.cons.inj hrest
            exact hhere before id token between hfirst'

/-- A session as it starts. -/
def fresh (inbound : Inbound F C) : SessionLoop F C W := ⟨.new, inbound⟩

/-- **A Finish is handed over in a round that finds the session idle.** -/
theorem finishes_idle (inbound : Inbound F C) (rounds : List (Round W)) {before after : List (Said W)} {id token : Nat}
    (h : (run env hearing rounds (fresh inbound)).2.desktop.said = before ++ .handedOver id (.finish token) :: after) :
    ∃ done r rest t, rounds = done ++ r :: rest ∧ run env hearing done (fresh inbound) = (.ok (), t) ∧
      t.desktop.said = before ∧ t.Idle := by
  obtain ⟨added, hsaid, hadded⟩ := finishes_idle_from env hearing rounds (fresh inbound)
  exact hadded before id token after (hsaid.symm.trans h)

/-- How a session of some surroundings orders desktop requests. -/
structure OrdersDesktop (env : Environment) (hearing : Hearing W) (inbound : Inbound F C) : Prop where
  /-- At every moment of every run, one request is open in each direction at most. -/
  one_each_way : ∀ rounds before, before <+: (run env hearing rounds (fresh inbound)).2.desktop.said →
    before.countP Exchange.isAsked ≤ before.countP Exchange.isDelivered + 1 ∧
      before.countP Exchange.isAccepted ≤ before.countP Exchange.isReplied + 1
  /-- A response goes to whoever sent the last request, which has its id and no response yet. -/
  delivered : ∀ rounds before id reply response after,
    (run env hearing rounds (fresh inbound)).2.desktop.said = before ++ .delivered id reply response :: after →
      ∃ earlier asked since, before = earlier ++ .asked id reply asked :: since ∧
        ∀ e ∈ since, Exchange.isAsked e = false ∧ Exchange.isDelivered e = false
  /-- A Finish is handed over in a round that finds no deferred control and no open activation. -/
  finish : ∀ rounds before id token after,
    (run env hearing rounds (fresh inbound)).2.desktop.said = before ++ .handedOver id (.finish token) :: after →
      ∃ done r rest t, rounds = done ++ r :: rest ∧ run env hearing done (fresh inbound) = (.ok (), t) ∧
        t.desktop.said = before ∧ t.Idle
  overlapping_theirs : ∀ (relay : DesktopRelay W) id asked now, relay.incoming.isSome ∨ relay.reply.isSome →
    relay.receive hearing (.request id asked) now = (.error (.bail "Overlapping desktop requests"), relay)
  overlapping_ours : ∀ (relay : DesktopRelay W) id asked reply, relay.waiter.isSome →
    relay.request hearing id asked reply =
      (.ok (), relay.saying (.refused reply (.unavailable "A desktop request is already pending")))
  /-- A response that answers nothing is an error: it reaches nobody, and the request that is open, if any, ends with
  the session. -/
  unmatched : ∀ (relay : DesktopRelay W) id response now, (∀ reply, relay.waiter ≠ some (id, reply)) →
    ∃ message, relay.receive hearing (.response id response) now =
      (.error (.bail message), { relay with waiter := none })

theorem lawful_run (env : Environment) (hearing : Hearing W) (inbound : Inbound F C) (rounds : List (Round W)) :
    (run env hearing rounds (fresh inbound)).2.desktop.Lawful := by
  have hsound : (fresh inbound : SessionLoop F C W).desktop.Sound := DesktopRelay.sound_new
  cases hrun : run env hearing rounds (fresh inbound) with
  | mk result s =>
    cases result with
    | ok _ => exact ((sound_run rounds).ok hsound hrun).lawful
    | error e => exact (sound_run rounds).error hsound hrun

/-- **The order of desktop requests**, whatever the peer, the local desktop and the input of the peer do in between. -/
theorem ordersDesktop (env : Environment) (hearing : Hearing W) (inbound : Inbound F C) :
    OrdersDesktop env hearing inbound where
  one_each_way := by
    rintro rounds before ⟨after, hsaid⟩
    have hlawful := lawful_run env hearing inbound rounds
    unfold DesktopRelay.Lawful at hlawful
    rw [← hsaid, Replay.legal_append] at hlawful
    exact ⟨Exchange.asked_le hlawful.1, Exchange.accepted_le hlawful.1⟩
  delivered := fun rounds _ _ _ _ _ hsaid => Exchange.delivered_to_caller (lawful_run env hearing inbound rounds) hsaid
  finish := fun rounds _ _ _ _ hsaid => finishes_idle inbound rounds hsaid
  overlapping_theirs := fun _ id asked now h => DesktopRelay.receive_overlapping h id asked now
  overlapping_ours := fun _ id asked reply h => DesktopRelay.request_overlapping h id asked reply
  unmatched := fun _ _ response now h => DesktopRelay.receive_unmatched h response now

end SessionLoop

end Zflow.Session
