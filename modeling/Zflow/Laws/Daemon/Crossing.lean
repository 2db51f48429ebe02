import Mathlib.Data.List.Perm.Basic
import Zflow.Daemon.Crossing

/-!
# Crossing leases are conserved

What a crossing asked is read as a ledger: the desktops it prepared, those it let go, and where its
input went. `Standing` says how the ledger stands between two questions, and each part of the task has
one triple that says what it makes of it; a question that is not answered yet leaves a ledger too, so
the triples speak of every moment.
-/

namespace Zflow.Daemon.Crossing

open Lib Desktop App Linux
open Act (Triple)

variable {P X : Type}

/-! ## The ledger -/

/-- A desktop that is held: the session its Prepare went to, and its token. -/
abbrev Hold : Type := SessionId × Nat

/-- The desktop an event prepares. -/
def prepared : Event (Call.Answer P X) → Option Hold
  | ⟨.desktop session (.prepare request), _⟩ => some (session, request.token)
  | _ => none

/-- The desktop an event lets go. -/
def letGo : Event (Call.Answer P X) → Option Hold
  | ⟨.desktop session (.finish token), _⟩ => some (session, token)
  | _ => none

def prepares (log : Log P X) : List Hold := log.filterMap prepared

def finishes (log : Log P X) : List Hold := log.filterMap letGo

/-- Where a crossing is: the desktop prepared last, that of the leg input went to, that of the leg it
left for it, the computer input went to, and whether the pointer was put back. -/
structure Legs (P : Type) where
  entering : Option Hold
  current : Option Hold
  left : Option Hold
  inputAt : Option P
  home : Bool

def Legs.none : Legs P := ⟨.none, .none, .none, .none, false⟩

/-- Input goes to the computer that was prepared last. -/
def Legs.moveTo (legs : Legs P) (peer : P) : Legs P :=
  ⟨legs.entering, legs.entering, legs.current, some peer, legs.home⟩

def Legs.after (legs : Legs P) : Event (Call.Answer P X) → Legs P
  | ⟨.desktop session (.prepare request), _⟩ =>
    { legs with entering := some (session, request.token) }
  | ⟨.activate peer, some (.ok ())⟩ => legs.moveTo peer
  | ⟨.setActiveOutbound peer _, some _⟩ => legs.moveTo peer
  | ⟨.warp _, _⟩ => { legs with home := true }
  | _ => legs

def legs (log : Log P X) : Legs P := log.foldl Legs.after .none

/-- Only the desktops of the current leg and of a hop in progress are held: of the hop, the one it
enters or the one it left. -/
def Legs.Holding (legs : Legs P) (held : List Hold) : Prop :=
  ∃ hop, (hop = legs.entering ∨ hop = legs.left) ∧
    held.Subperm (legs.current.toList ++ hop.toList)

theorem Legs.Holding.length_le_two {legs : Legs P} {held : List Hold} (h : legs.Holding held) :
    held.length ≤ 2 := by
  obtain ⟨hop, -, hheld⟩ := h
  have hlength := hheld.length_le
  rw [List.length_append] at hlength
  have hcurrent : legs.current.toList.length ≤ 1 := by cases legs.current <;> simp
  have hhop : hop.toList.length ≤ 1 := by cases hop <;> simp
  omega

/-- The session was registered as the peer's. -/
def Belongs (log : Log P X) (peer : P) (session : SessionId) : Prop :=
  ⟨.ensureSession peer, some (.ok session)⟩ ∈ log ∨
    ∃ sessions closed, ⟨.sessions, some sessions⟩ ∈ log ∧ sessions peer = some (session, closed)

/-- **The ledger is tidy**: at most two desktops are held, the current leg's and that of a hop in
progress, and everything else that was prepared was let go, once. -/
def Tidy (log : Log P X) : Prop :=
  ∃ held : List Hold, (prepares log).Perm (held ++ finishes log) ∧ held.length ≤ 2 ∧
    (legs log).Holding held

/-- At every moment so far. -/
def Always (log : Log P X) : Prop := ∀ before, before <+: log → Tidy before

/-- **How the ledger stands**: what is held, where the crossing is, and the sessions it knows as their
peers'. -/
structure Standing (known : List (P × SessionId)) (at_ : Legs P) (held : List Hold) (log : Log P X) :
    Prop where
  always : Always log
  balance : (prepares log).Perm (held ++ finishes log)
  place : legs log = at_
  holding : at_.Holding held
  belongs : ∀ entry ∈ known, Belongs log entry.1 entry.2

variable {known : List (P × SessionId)} {at_ : Legs P} {held : List Hold} {log : Log P X}

@[simp]
theorem prepares_concat (log : Log P X) (event : Event (Call.Answer P X)) :
    prepares (log ++ [event]) = prepares log ++ (prepared event).toList := by
  unfold prepares
  rw [List.filterMap_append]
  cases h : prepared event <;> simp [h]

@[simp]
theorem finishes_concat (log : Log P X) (event : Event (Call.Answer P X)) :
    finishes (log ++ [event]) = finishes log ++ (letGo event).toList := by
  unfold finishes
  rw [List.filterMap_append]
  cases h : letGo event <;> simp [h]

@[simp]
theorem legs_concat (log : Log P X) (event : Event (Call.Answer P X)) :
    legs (log ++ [event]) = (legs log).after event := by
  unfold legs
  rw [List.foldl_append]
  rfl

theorem Belongs.append {log rest : Log P X} {peer : P} {session : SessionId}
    (h : Belongs log peer session) : Belongs (log ++ rest) peer session := by
  rcases h with h | ⟨sessions, closed, h, hpeer⟩
  · exact .inl (List.mem_append_left _ h)
  · exact .inr ⟨sessions, closed, List.mem_append_left _ h, hpeer⟩

/-- An event after which the ledger stands otherwise. -/
theorem Standing.event (h : Standing known at_ held log) (event : Event (Call.Answer P X)) (held' : List Hold)
    (hbalance : (held ++ (prepared event).toList).Perm (held' ++ (letGo event).toList))
    (hholding : (at_.after event).Holding held') :
    Standing known (at_.after event) held' (log ++ [event]) := by
  have hplace : legs (log ++ [event]) = at_.after event := by
    rw [legs_concat, h.place]
  have hperm : (prepares (log ++ [event])).Perm (held' ++ finishes (log ++ [event])) := by
    rw [prepares_concat, finishes_concat]
    calc (prepares log ++ (prepared event).toList).Perm
          (held ++ finishes log ++ (prepared event).toList) := h.balance.append_right _
      _ |>.Perm (held ++ (prepared event).toList ++ finishes log) := by
        rw [List.append_assoc, List.append_assoc]
        exact List.perm_append_comm.append_left _
      _ |>.Perm (held' ++ (letGo event).toList ++ finishes log) := hbalance.append_right _
      _ |>.Perm (held' ++ (finishes log ++ (letGo event).toList)) := by
        rw [List.append_assoc]
        exact List.perm_append_comm.append_left _
  refine ⟨?_, hperm, hplace, hholding, fun entry hentry => (h.belongs entry hentry).append⟩
  intro before hbefore
  rcases List.prefix_concat_iff.mp hbefore with heq | hold
  · rw [heq]
    exact ⟨held', hperm, hholding.length_le_two, hplace ▸ hholding⟩
  · exact h.always before hold

theorem Standing.perm {held' : List Hold} (h : Standing known at_ held log)
    (hperm : held.Perm held') : Standing known at_ held' log where
  always := h.always
  balance := h.balance.trans (hperm.append_right _)
  place := h.place
  holding := by
    obtain ⟨hop, hhop, hheld⟩ := h.holding
    exact ⟨hop, hhop, hperm.symm.subperm.trans hheld⟩
  belongs := h.belongs

/-- What is known of a session once more, or no longer. -/
theorem Standing.knowing {known' : List (P × SessionId)} (h : Standing known at_ held log)
    (hknown : ∀ entry ∈ known', Belongs log entry.1 entry.2) : Standing known' at_ held log :=
  { h with belongs := hknown }

theorem Standing.learn {peer : P} {session : SessionId} (h : Standing known at_ held log)
    (hbelongs : Belongs log peer session) : Standing ((peer, session) :: known) at_ held log :=
  h.knowing (List.forall_mem_cons.mpr ⟨hbelongs, h.belongs⟩)

/-! ## Questions that leave the ledger alone -/

/-- Where a part that moves nothing stops: in any tidy place, or where it started. -/
def Unharmed (known : List (P × SessionId)) (at_ : Legs P) (held : List Hold) :
    Stop String → Log P X → Prop
  | .waiting, log => Always log
  | .failed _, log => Standing known at_ held log

/-- **A part that moves nothing**, whatever it is answered. -/
def Keeps {α : Type} (task : Task P X α) : Prop :=
  ∀ known at_ held, Triple (Standing known at_ held) task (fun _ => Standing known at_ held)
    (Unharmed known at_ held)

/-- The event neither prepares nor finishes, and moves no input. -/
structure Quiet (event : Event (Call.Answer P X)) : Prop where
  prepared : prepared event = none
  letGo : letGo event = none
  after : ∀ at_ : Legs P, at_.after event = at_

theorem Standing.quiet {event : Event (Call.Answer P X)} (h : Standing known at_ held log)
    (hquiet : Quiet event) : Standing known at_ held (log ++ [event]) := by
  have hstanding := h.event event held (by rw [hquiet.prepared, hquiet.letGo])
    (by rw [hquiet.after]; exact h.holding)
  rw [hquiet.after] at hstanding
  exact hstanding

section Keeps

variable {world : World P X} {α β : Type}

theorem Keeps.ask {call : Call P} (h : ∀ answer : Option (Call.Answer P X call), Quiet ⟨call, answer⟩) :
    Keeps (Act.ask world call) := by
  intro known at_ held
  apply Triple.ask
  · intro answer log hstanding
    exact hstanding.quiet (h (some answer))
  · intro log hstanding
    exact (hstanding.quiet (h none)).always

theorem Keeps.pure (a : α) : Keeps (Pure.pure a : Task P X α) := fun _ _ _ => .pure fun _ => id

theorem Keeps.bail (error : String) : Keeps (Act.bail error : Task P X α) :=
  fun _ _ _ => .bail fun _ => id

theorem Keeps.bind {x : Task P X α} {f : α → Task P X β} (hx : Keeps x) (hf : ∀ a, Keeps (f a)) : Keeps (x >>= f) :=
  fun known at_ held => .bind (hx known at_ held) fun a => hf a known at_ held

theorem Keeps.ensure (holds : Bool) (error : String) : Keeps (Act.ensure holds error : Task P X Unit) :=
  fun _ _ _ => .ensure (fun _ _ => id) fun _ _ => id

theorem Keeps.orFail (x : Except String α) : Keeps (Act.orFail x : Task P X α) :=
  fun _ _ _ => .orFail (fun _ _ _ => id) fun _ _ _ => id

theorem Keeps.orBail (error : String) (x : Option α) : Keeps (Act.orBail error x : Task P X α) :=
  fun _ _ _ => .orBail (fun _ _ _ => id) fun _ => id

end Keeps

variable (world : World P X)

theorem keeps_requireNotControlled [ToString P] : Keeps (requireNotControlled world) := by
  apply Keeps.bind (.ask fun _ => ⟨rfl, rfl, fun _ => rfl⟩)
  intro owner
  cases owner with
  | none => exact .pure ()
  | some owner => exact .bail _

theorem keeps_leaveOutbound (left : Option SessionId) : Keeps (leaveOutbound world left) := by
  cases left with
  | none => exact .pure ()
  | some left =>
    apply Keeps.bind (.ask fun _ => ⟨rfl, rfl, fun _ => rfl⟩)
    intro inTime
    cases inTime with
    | true => exact .pure ()
    | false => exact .bind (.ask fun _ => ⟨rfl, rfl, fun _ => rfl⟩) fun _ => .pure ()

/-- The routes that are kept are another handoff of the same peer. -/
theorem keepReachable_spec [ToString P] (handoff : Handoff P X) :
    Triple (Standing known at_ held) (keepReachable world handoff)
      (fun kept log => kept.peer = handoff.peer ∧ Standing known at_ held log) (Unharmed known at_ held) := by
  have hconfig : Keeps (Act.ask world .config) := .ask fun _ => ⟨rfl, rfl, fun _ => rfl⟩
  have hsessions : Keeps (Act.ask world .sessions) := .ask fun _ => ⟨rfl, rfl, fun _ => rfl⟩
  apply Triple.bind (hconfig known at_ held)
  intro config
  apply Triple.bind (hsessions known at_ held)
  intro sessions
  exact .pure fun log hstanding => ⟨rfl, hstanding⟩

/-! ## Prepare, Finish, and where input goes -/

/-- Only an answer that has not come stops a part. -/
def Waits (stop : Stop String) (log : Log P X) : Prop := stop = .waiting ∧ Always log

theorem Waits.unharmed {stop : Stop String} (h : Waits stop log) : Unharmed known at_ held stop log := by
  obtain ⟨hstop, h⟩ := h
  subst hstop
  exact h

/-- Input that goes to the computer prepared last. -/
theorem moveTo_event {peer : P} {event : Event (Call.Answer P X)}
    (h : Standing known at_ held log) (hprepared : prepared event = none)
    (hletGo : letGo event = none) (hafter : at_.after event = at_.moveTo peer)
    (hholding : (at_.moveTo peer).Holding held) :
    Standing known (at_.moveTo peer) held (log ++ [event]) := by
  have hstanding := h.event event held (by rw [hprepared, hletGo]) (by rwa [hafter])
  rwa [hafter] at hstanding

/-- A Prepare enters another desktop. -/
theorem prepare_spec (session : SessionId) (handoff : Handoff P X) (token : Nat)
    (hheld : held.Subperm at_.current.toList) : Triple (Standing known at_ held)
      (Act.ask world (.desktop session (handoff.prepare token)) : Task P X _)
      (fun _ => Standing known { at_ with entering := some (session, token) }
        ((session, token) :: held)) Waits := by
  have hevent (answer : Option (Except String DesktopResponse)) (log : Log P X) (h : Standing known at_ held log) :
      Standing known { at_ with entering := some (session, token) } ((session, token) :: held)
        (log ++ [⟨.desktop session (handoff.prepare token), answer⟩]) := by
    refine h.event ⟨.desktop session (handoff.prepare token), answer⟩ _ ?_ ?_
    · show (held ++ [(session, token)]).Perm ((session, token) :: held ++ [])
      rw [List.append_nil]
      exact List.perm_append_singleton _ _
    · have hcons := (List.subperm_cons (session, token)).mpr hheld
      exact ⟨some (session, token), .inl rfl, hcons.trans (List.perm_append_singleton _ _).symm.subperm⟩
  apply Triple.ask
  · exact fun answer log h => hevent (some answer) log h
  · exact fun log h => ⟨rfl, (hevent none log h).always⟩

/-- A Finish lets its desktop go, whatever is answered. -/
theorem Standing.letGo {session : SessionId} {token : Nat} (h : Standing known at_ ((session, token) :: held) log)
    (answer : Option (Except String DesktopResponse)) :
    Standing known at_ held (log ++ [⟨.desktop session (.finish token), answer⟩]) := by
  refine h.event ⟨.desktop session (.finish token), answer⟩ held ?_ ?_
  · show ((session, token) :: held ++ []).Perm (held ++ [(session, token)])
    rw [List.append_nil]
    exact (List.perm_append_singleton _ _).symm
  · obtain ⟨hop, hhop, hheld⟩ := h.holding
    exact ⟨hop, hhop, (List.sublist_cons_self _ _).subperm.trans hheld⟩

theorem askFinish_spec (session : SessionId) (token : Nat) : Triple (Standing known at_ ((session, token) :: held))
      (Act.ask world (.desktop session (.finish token)) : Task P X _) (fun _ => Standing known at_ held) Waits := by
  apply Triple.ask
  · exact fun answer log h => h.letGo (some answer)
  · exact fun log h => ⟨rfl, (h.letGo none).always⟩

theorem finish_spec (session : SessionId) (token : Nat) :
    Triple (Standing known at_ ((session, token) :: held)) (finish world session token)
      (fun _ => Standing known at_ held) (Unharmed known at_ held) := by
  apply Triple.bind ((askFinish_spec world session token).weaken (fun _ => id) (fun _ _ => id)
    fun _ _ => Waits.unharmed)
  intro answer
  exact .orFail (fun _ _ _ => id) fun _ _ _ => id

/-- A Finish whose failure is kept. -/
theorem attemptFinish_spec (session : SessionId) (token : Nat) :
    Triple (Standing known at_ ((session, token) :: held)) (Act.attempt (finish world session token))
      (fun _ => Standing known at_ held) Waits := by
  apply Triple.attempt
  apply (finish_spec world session token).weaken (fun _ => id) (fun _ _ => id)
  intro stop log h
  cases stop with
  | waiting => exact ⟨rfl, h⟩
  | failed error => exact h

/-- **A switch moves input to the computer prepared last**, or leaves it where it was. -/
theorem switchOutbound_spec [ToString P] (peer : P) (hholding : (at_.moveTo peer).Holding held) :
    Triple (Standing known at_ held) (switchOutbound world peer)
      (fun _ => Standing known (at_.moveTo peer) held) (Unharmed known at_ held) := by
  have hask (call : Call P) (h : ∀ answer : Option (Call.Answer P X call), Quiet ⟨call, answer⟩) :
      Triple (Standing known at_ held) (Act.ask world call : Task P X _)
        (fun _ => Standing known at_ held) (Unharmed known at_ held) :=
    Keeps.ask h known at_ held
  apply Triple.bind (hask .lockPolicy fun _ => ⟨rfl, rfl, fun _ => rfl⟩)
  intro _
  apply Triple.bind (hask .config fun _ => ⟨rfl, rfl, fun _ => rfl⟩)
  intro config
  apply Triple.bind (Keeps.orBail _ _ known at_ held)
  intro record
  apply Triple.bind (hask .config fun _ => ⟨rfl, rfl, fun _ => rfl⟩)
  intro config
  apply Triple.bind (Keeps.orFail _ known at_ held)
  intro _
  apply Triple.bind (hask .status fun _ => ⟨rfl, rfl, fun _ => rfl⟩)
  intro runtime
  apply Triple.bind (Keeps.ensure _ _ known at_ held)
  intro _
  apply Triple.bind (Keeps.ensure _ _ known at_ held)
  intro _
  apply Triple.bind (hask .sessions fun _ => ⟨rfl, rfl, fun _ => rfl⟩)
  intro sessions
  apply Triple.bind (Keeps.orBail _ _ known at_ held)
  intro session
  apply Triple.bind (hask .allocateActivation fun _ => ⟨rfl, rfl, fun _ => rfl⟩)
  intro allocated
  apply Triple.bind (Keeps.orFail _ known at_ held)
  intro activation
  apply Triple.bind (hask .takeActiveOutbound fun _ => ⟨rfl, rfl, fun _ => rfl⟩)
  intro active
  apply Triple.bind (Keeps.orBail _ _ known at_ held)
  intro previous
  apply Triple.bind (hask .sessions fun _ => ⟨rfl, rfl, fun _ => rfl⟩)
  intro sessions
  apply Triple.bind (keeps_leaveOutbound world _ known at_ held)
  intro _
  apply Triple.bind (hask (.beginOutbound session.1 activation) fun _ => ⟨rfl, rfl, fun _ => rfl⟩)
  intro begun
  cases begun with
  | error error =>
    apply Triple.bind (hask (.release false) fun _ => ⟨rfl, rfl, fun _ => rfl⟩)
    intro _
    exact .bail fun _ => id
  | ok _ =>
    apply Triple.ask
    · exact fun _ log h => moveTo_event h rfl rfl rfl hholding
    · exact fun log h => (h.quiet ⟨rfl, rfl, fun _ => rfl⟩).always

/-! ## With a leg -/

/-- A statement about the log, with this leg. -/
def OnLeg (leg : Leg P X) (S : Log P X → Prop) (way : Way P X) : Prop := way.leg = leg ∧ S way.log

/-- A task that leaves the leg alone. -/
theorem along_spec {α : Type} {task : Task P X α} {S : Log P X → Prop} {Q : α → Log P X → Prop}
    {E : Stop String → Log P X → Prop} (h : Triple S task Q E) (leg : Leg P X) :
    Triple (OnLeg leg S) task.along (fun a => OnLeg leg (Q a)) (fun stop => OnLeg leg (E stop)) := by
  apply Triple.on
  · intro way a log hway hrun
    exact ⟨hway.1, h.ok hway.2 hrun⟩
  · intro way stop log hway hrun
    exact ⟨hway.1, h.error hway.2 hrun⟩

def Leg.hold (leg : Leg P X) : Hold := (leg.session, leg.token)

/-- Where a crossing with this leg is, on its way. -/
def Leg.place (leg : Leg P X) (entering left : Option Hold) : Legs P :=
  ⟨entering, some leg.hold, left, some leg.handoff.peer, false⟩

/-- The ledger of a crossing under way with this leg. -/
def Riding (leg : Leg P X) (entering left : Option Hold) (held : List Hold) : Log P X → Prop :=
  Standing [(leg.handoff.peer, leg.session)] (leg.place entering left) held

/-- **A crossing is under way**: its leg's desktop alone is held, and input went to its computer. -/
def Underway (way : Way P X) : Prop :=
  ∃ entering left, Riding way.leg entering left [way.leg.hold] way.log

/-- Where a crossing under way stops: in any tidy place, or still under way. -/
def Stopped : Stop String → Way P X → Prop
  | .waiting, way => Always way.log
  | .failed _, way => Underway way

/-- The leg a part starts with has a name. -/
theorem triple_leg {α : Type} {x : Travel P X α} {S : Leg P X → Log P X → Prop}
    {Q : α → Way P X → Prop} {E : Stop String → Way P X → Prop}
    (h : ∀ leg, Triple (OnLeg leg (S leg)) x Q E) : Triple (fun way => S way.leg way.log) x Q E :=
  fun way hway => h way.leg way ⟨rfl, hway⟩

theorem triple_underway {α : Type} {x : Travel P X α} {Q : α → Way P X → Prop} {E : Stop String → Way P X → Prop}
    (h : ∀ leg entering left, Triple (OnLeg leg (Riding leg entering left [leg.hold])) x Q E) :
    Triple Underway x Q E := by
  apply Triple.exists
  intro entering
  apply Triple.exists
  intro left
  exact triple_leg fun leg => h leg entering left

/-- A fact that a part has established beside what it says of the log. -/
theorem onLeg_fact {α : Type} {x : Travel P X α} {fact : Prop} {leg : Leg P X} {S : Log P X → Prop}
    {Q : α → Way P X → Prop} {E : Stop String → Way P X → Prop}
    (h : fact → Triple (OnLeg leg S) x Q E) : Triple (OnLeg leg fun log => fact ∧ S log) x Q E :=
  fun way hway => h hway.2.1 way ⟨hway.1, hway.2.2⟩

/-- What stops a task that moves nothing stops the crossing under way. -/
theorem stopped_of_unharmed {leg : Leg P X} {entering left : Option Hold}
    (hknown : (leg.handoff.peer, leg.session) ∈ known) (stop : Stop String) (way : Way P X)
    (h : OnLeg leg (Unharmed known (leg.place entering left) [leg.hold]
      stop) way) : Stopped stop way := by
  obtain ⟨hleg, h⟩ := h
  cases stop with
  | waiting => exact h
  | failed error =>
    subst hleg
    refine ⟨entering, left, h.knowing ?_⟩
    intro entry hentry
    rw [List.mem_singleton.mp hentry]
    exact h.belongs _ hknown

theorem stopped_of_waits {leg : Leg P X} (stop : Stop String) (way : Way P X)
    (h : OnLeg leg (Waits stop) way) : Stopped stop way := by
  obtain ⟨-, hstop, halways⟩ := h
  subst hstop
  exact halways

/-- A task that moves nothing, on a crossing under way. -/
theorem keeps_along {α : Type} {task : Task P X α} (h : Keeps task) (leg : Leg P X) (entering left : Option Hold) :
    Triple (OnLeg leg (Riding leg entering left [leg.hold])) task.along
      (fun _ => OnLeg leg (Riding leg entering left [leg.hold])) Stopped :=
  (along_spec (h _ _ _) leg).weaken (fun _ => id) (fun _ _ => id) (stopped_of_unharmed List.mem_cons_self)

/-- What a hop has asked before its Prepare. -/
theorem sessions_spec : Triple (Standing known at_ held) (Act.ask world .sessions : Task P X _)
      (fun sessions log => Standing known at_ held log ∧
        ∀ peer session closed, sessions peer = some (session, closed) → Belongs log peer session)
      (Unharmed known at_ held) := by
  apply Triple.ask
  · intro sessions log h
    refine ⟨h.quiet ⟨rfl, rfl, fun _ => rfl⟩, fun peer session closed hpeer => ?_⟩
    exact .inr ⟨sessions, closed, List.mem_append_right _ List.mem_cons_self, hpeer⟩
  · intro log h
    exact (h.quiet ⟨rfl, rfl, fun _ => rfl⟩).always

/-- A handoff is entered: its answer is checked, and input moves on to it. -/
theorem enter_spec [ToString P] (next : Handoff P X) (prepared : Except String DesktopResponse)
    (hholding : (at_.moveTo next.peer).Holding held) : Triple (Standing known at_ held)
      (Act.attempt do
        Act.orFail (next.checkPrepared (← Act.orFail prepared))
        switchOutbound world next.peer)
      (fun result => match result with
        | .ok _ => Standing known (at_.moveTo next.peer) held
        | .error _ => Standing known at_ held) Waits := by
  apply Triple.attempt
  refine Triple.weaken ?_ (fun _ => id) (fun _ _ => id) (E := Unharmed known at_ held) ?_
  · apply Triple.bind (Keeps.orFail _ known at_ held)
    intro response
    apply Triple.bind (Keeps.orFail _ known at_ held)
    intro _
    exact switchOutbound_spec world next.peer hholding
  · intro stop log h
    cases stop with
    | waiting => exact ⟨rfl, h⟩
    | failed error => exact h

/-- A hop to a connected computer moves the crossing to another leg. -/
theorem hopTo_spec [ToString P] (session : SessionId) (next : Handoff P X) (leg : Leg P X)
    (entering left : Option Hold) : Triple (OnLeg leg (Standing [(next.peer, session), (leg.handoff.peer, leg.session)]
        (leg.place entering left) [leg.hold])) (hopTo world session next)
      (fun old way => ∃ entering, Riding way.leg entering (some old.hold) [old.hold, way.leg.hold]
        way.log) Stopped := by
  have hknown (peer : P) : (leg.handoff.peer, leg.session) ∈
      [(peer, session), (leg.handoff.peer, leg.session)] := List.mem_cons_of_mem _ List.mem_cons_self
  apply Triple.bind ((along_spec (keepReachable_spec world next) leg).weaken (fun _ => id)
    (fun _ _ => id) (stopped_of_unharmed (hknown next.peer)))
  intro kept
  apply onLeg_fact
  intro hpeer
  rw [← hpeer]
  have htoken : Keeps (Act.ask world .token) := .ask fun _ => ⟨rfl, rfl, fun _ => rfl⟩
  apply Triple.bind ((along_spec (htoken _ _ _) leg).weaken (fun _ => id) (fun _ _ => id)
    (stopped_of_unharmed (hknown kept.peer)))
  intro drawn
  cases drawn with
  | error error =>
    apply Triple.bind (Q := fun _ _ => False)
    · exact .bail fun way h => stopped_of_unharmed (hknown kept.peer) (.failed error) way h
    · exact fun _ way h => h.elim
  | ok token =>
    have hasked : Triple (Standing [(kept.peer, session), (leg.handoff.peer, leg.session)]
        (leg.place entering left) [leg.hold]) (Act.ask world (.desktop session (kept.prepare token)) : Task P X _)
        (fun _ => Standing [(kept.peer, session), (leg.handoff.peer, leg.session)]
          (leg.place (some (session, token)) left) [(session, token), leg.hold]) Waits :=
      prepare_spec world session kept token (.refl _)
    apply Triple.bind ((along_spec hasked leg).weaken (fun _ => id) (fun _ _ => id) stopped_of_waits)
    intro prepared
    apply Triple.bind ((along_spec (enter_spec world kept prepared
      ⟨some leg.hold, .inr rfl, .refl _⟩) leg).weaken (fun _ => id) (fun _ _ => id) stopped_of_waits)
    intro switched
    cases switched with
    | error error =>
      apply Triple.bind ((along_spec (askFinish_spec world session token) leg).weaken (fun _ => id) (fun _ _ => id) stopped_of_waits)
      intro _
      exact .bail fun way h => stopped_of_unharmed (hknown kept.peer) (.failed error) way h
    | ok _ =>
      intro way h
      obtain ⟨hleg, h⟩ := h
      subst hleg
      refine ⟨some (session, token), (h.perm (.swap _ _ _)).knowing ?_⟩
      intro entry hentry
      rw [List.mem_singleton.mp hentry]
      exact h.belongs _ List.mem_cons_self

/-- **A hop** moves the crossing to another leg and answers the one it left, whose desktop is still
held; where it fails, the crossing stays as it was. -/
theorem hop_spec [ToString P] (next : Handoff P X) : Triple Underway (hop world next)
      (fun old way => ∃ entering, Riding way.leg entering (some old.hold) [old.hold, way.leg.hold]
        way.log) Stopped := by
  apply triple_underway
  intro leg entering left
  apply Triple.bind ((along_spec (sessions_spec world) leg).weaken (fun _ => id) (fun _ _ => id)
    (stopped_of_unharmed List.mem_cons_self))
  intro sessions
  cases hsession : (sessions next.peer).filter fun session => !session.2 with
  | none =>
    apply Triple.bind (Q := fun _ _ => False)
    · exact .bail fun way h => ⟨entering, left, h.1 ▸ h.2.1⟩
    · exact fun _ way h => h.elim
  | some session =>
    have hpeer : sessions next.peer = some session := (Option.filter_eq_some_iff.mp hsession).1
    refine Triple.pre (hopTo_spec world session.1 next leg entering left) ?_
    intro way h
    exact ⟨h.1, h.2.1.learn (h.2.2 _ _ session.2 hpeer)⟩

/-! ## Until the pointer or the input is back -/

/-- A task that moves nothing leaves the crossing under way. -/
theorem keeps_underway {α : Type} {task : Task P X α} (h : Keeps task) :
    Triple Underway task.along (fun _ => Underway) Stopped := by
  apply triple_underway
  intro leg entering left
  apply (keeps_along h leg entering left).weaken (fun _ => id) ?_ fun _ _ => id
  intro _ way ⟨hleg, hriding⟩
  subst hleg
  exact ⟨entering, left, hriding⟩

/-- What a hop leaves: the leg it came from is still held, unless it failed. -/
def Hopped (result : Except String (Leg P X)) (way : Way P X) : Prop :=
  match result with
  | .ok old => ∃ entering, Riding way.leg entering (some old.hold) [old.hold, way.leg.hold] way.log
  | .error _ => Underway way

/-- **A hop, or none**: the computer that was left is let go. -/
theorem moveOn_spec [ToString P] (next : Handoff P X) :
    Triple Underway (moveOn world next) (fun _ => Underway) Stopped := by
  apply Triple.bind (Q := Hopped)
  · apply Triple.attempt
    apply (hop_spec world next).weaken (fun _ => id) (fun _ _ => id)
    intro stop way h
    cases stop <;> exact h
  · intro result
    cases result with
    | error error => exact .pure fun _ => id
    | ok old =>
      apply Triple.exists
      intro entering
      apply triple_leg (S := fun leg => Riding leg entering (some old.hold) [old.hold, leg.hold])
      intro leg
      apply Triple.bind (Q := fun _ => Underway) _ fun _ => .pure fun _ => id
      apply (along_spec (attemptFinish_spec world old.session old.token) leg).weaken (fun _ => id) _ stopped_of_waits
      intro _ way hway
      obtain ⟨hleg, hriding⟩ := hway
      subst hleg
      exact ⟨entering, some old.hold, hriding⟩

/-- Local input was asked to be released, last of all. -/
def Released (log : Log P X) : Prop := ∃ before answer, log = before ++ [⟨.release true, some answer⟩]

/-- Local input was found to be back, last of all. -/
def FoundIdle (log : Log P X) : Prop :=
  ∃ before neutral, log = before ++ [⟨.status, some ⟨.idle, neutral⟩⟩]

theorem releaseOwnInput_spec : Triple (Standing known at_ held) (releaseOwnInput world)
      (fun _ log => Standing known at_ held log ∧ Released log) Waits := by
  apply Triple.bind (Q := fun _ log => Standing known at_ held log ∧ Released log)
  · apply Triple.ask
    · exact fun answer log h => ⟨h.quiet ⟨rfl, rfl, fun _ => rfl⟩, log, answer, rfl⟩
    · exact fun log h => ⟨rfl, (h.quiet ⟨rfl, rfl, fun _ => rfl⟩).always⟩
  · exact fun _ => .pure fun _ => id

/-- The pointer was put back, and input was asked to be. -/
def PutBack (way : Way P X) : Prop :=
  (∃ entering left, Standing [(way.leg.handoff.peer, way.leg.session)]
    { way.leg.place entering left with home := true } [way.leg.hold] way.log) ∧ Released way.log

/-- Putting the pointer back is followed by giving input back. -/
theorem putBack_spec (point : Point) : Triple Underway
      (do
        let _ ← Task.along (Act.ask world (.warp point))
        Task.along (releaseOwnInput world)
        return false : Travel P X Bool) (fun goes way => goes = false ∧ PutBack way) Stopped := by
  apply triple_underway
  intro leg entering left
  have hwarp : Triple (Riding leg entering left [leg.hold]) (Act.ask world (.warp point) : Task P X _)
      (fun _ => Standing [(leg.handoff.peer, leg.session)]
        { leg.place entering left with home := true } [leg.hold]) Waits := by
    have hevent (answer : Option DesktopResponse) (log : Log P X) (h : Riding leg entering left [leg.hold] log) :=
      h.event ⟨.warp point, answer⟩ [leg.hold] (.refl _) h.holding
    apply Triple.ask
    · exact fun answer log h => hevent (some answer) log h
    · exact fun log h => ⟨rfl, (hevent none log h).always⟩
  apply Triple.bind ((along_spec hwarp leg).weaken (fun _ => id) (fun _ _ => id) stopped_of_waits)
  intro _
  apply Triple.bind ((along_spec (releaseOwnInput_spec world) leg).weaken (fun _ => id)
    (fun _ _ => id) stopped_of_waits)
  intro _
  apply Triple.pure
  intro way ⟨hleg, hstanding, hreleased⟩
  subst hleg
  exact ⟨rfl, ⟨entering, left, hstanding⟩, hreleased⟩

/-- Whether the crossing goes on after an answer: it is still under way then, and else put back. -/
def Followed (goes : Bool) (way : Way P X) : Prop :=
  (goes = true ∧ Underway way) ∨ (goes = false ∧ PutBack way)

/-- **An answer to a poll.** -/
theorem followPoll_spec [ToString P] [Landing P X] (response : DesktopResponse) :
    Triple Underway (followPoll world response) Followed Stopped := by
  have hgoes : Triple (Underway (P := P) (X := X)) (pure true) Followed Stopped :=
    .pure fun way h => .inl ⟨rfl, h⟩
  have hbail (error : String) : Triple (Underway (P := P) (X := X)) (Act.bail error) Followed Stopped :=
    .bail fun way h => h
  cases response with
  | active =>
    apply Triple.bind (keeps_underway (.ask fun _ => ⟨rfl, rfl, fun _ => rfl⟩))
    exact fun _ => hgoes
  | exited exit_ position =>
    apply Triple.read
    intro start
    apply Triple.pre _ fun way h => h.1
    apply Triple.bind (Triple.orFail (fun _ _ _ => id) fun _ _ _ => id)
    intro next
    cases next with
    | home point => exact (putBack_spec world point).weaken (fun _ => id) (fun _ _ => .inr) fun _ _ => id
    | hop next =>
      apply Triple.bind (keeps_underway (.ask fun _ => ⟨rfl, rfl, fun _ => rfl⟩))
      intro runtime
      show Triple Underway (if !runtime.neutral then _ else _) _ _
      split
      · exact hgoes
      · exact .bind (moveOn_spec world next) fun _ => hgoes
  | unavailable reason => exact hbail _
  | snapshot geometry pointer => exact hbail _
  | prepared geometry cursor => exact hbail _
  | finished => exact hbail _

/-- The status is what it was just answered. -/
theorem status_spec : Triple (Standing known at_ held) (Act.ask world .status : Task P X _)
      (fun runtime log => Standing known at_ held log ∧
        ∃ before, log = before ++ [⟨.status, some runtime⟩]) (Unharmed known at_ held) := by
  apply Triple.ask
  · exact fun runtime log h => ⟨h.quiet ⟨rfl, rfl, fun _ => rfl⟩, log, rfl⟩
  · exact fun log h => (h.quiet ⟨rfl, rfl, fun _ => rfl⟩).always

/-- Watching ownership moves nothing, and says input is back only where it was found back. -/
theorem watchOwnership_spec (armed : Bool) : Triple (Standing known at_ held) (watchOwnership world armed)
      (fun armed log => Standing known at_ held log ∧ (armed = none → FoundIdle log)) (Unharmed known at_ held) := by
  have hgoes (holds : Bool) (error : String) (armed : Bool) : Triple (Standing known at_ held)
        (do
          Act.ensure holds error
          return some armed : Task P X (Option Bool))
        (fun armed log => Standing known at_ held log ∧ (armed = none → FoundIdle log))
        (Unharmed known at_ held) :=
    .bind (Keeps.ensure holds error known at_ held) fun _ => .pure fun log h => ⟨h, nofun⟩
  have helapsed : Triple (Standing known at_ held) (Act.ask world .elapsed : Task P X _)
      (fun _ => Standing known at_ held) (Unharmed known at_ held) :=
    Keeps.ask (fun _ => ⟨rfl, rfl, fun _ => rfl⟩) known at_ held
  apply Triple.bind (status_spec world)
  intro ⟨ownership, neutral⟩
  cases ownership with
  | idle =>
    cases armed with
    | true =>
      apply Triple.pure
      intro log ⟨h, before, hlog⟩
      exact ⟨h, fun _ => ⟨before, neutral, hlog⟩⟩
    | false => exact .bind (helapsed.pre fun log h => h.1) fun elapsed => hgoes _ _ _
  | arming => exact .bind (helapsed.pre fun log h => h.1) fun elapsed => hgoes _ _ _
  | remote => exact .pure fun log h => ⟨h.1, nofun⟩
  | releasing => exact .pure fun log h => ⟨h.1, nofun⟩

/-- The end of a crossing under way: put back, or found back. -/
def Returned (way : Way P X) : Prop := PutBack way ∨ (Underway way ∧ FoundIdle way.log)

/-- **One turn of the loop.** -/
theorem untilReturnedTurn_spec [ToString P] [Landing P X] (armed : Bool) :
    Triple Underway (untilReturnedTurn world armed) (Sum.elim (fun _ => Underway) fun _ => Returned) Stopped := by
  apply Triple.bind (Q := fun armed way => Underway way ∧ (armed = none → FoundIdle way.log))
  · apply triple_underway
    intro leg entering left
    apply (along_spec (watchOwnership_spec world armed) leg).weaken (fun _ => id) _
      (stopped_of_unharmed List.mem_cons_self)
    intro armed way ⟨hleg, hriding, hidle⟩
    subst hleg
    exact ⟨⟨entering, left, hriding⟩, hidle⟩
  · intro armed
    cases armed with
    | none => exact .pure fun way h => .inr ⟨h.1, h.2 rfl⟩
    | some armed =>
      apply Triple.read
      intro start
      apply Triple.pre _ fun way h => h.1.1
      apply Triple.bind (keeps_underway (.ask fun _ => ⟨rfl, rfl, fun _ => rfl⟩))
      intro answer
      apply Triple.bind (Triple.orFail (fun _ _ _ => id) fun _ _ _ => id)
      intro response
      apply Triple.bind (followPoll_spec world response)
      intro goes
      cases goes with
      | true => exact .pure fun way h => h.elim (·.2) fun h => nomatch h.1
      | false => exact .pure fun way h => h.elim (fun h => nomatch h.1) fun h => .inl h.2

/-- **The whole loop.** -/
theorem untilReturned_spec [ToString P] [Landing P X] (fuel : Nat) :
    Triple Underway (untilReturned world fuel) (fun _ => Returned) Stopped := by
  apply Triple.loop (I := fun _ => Underway) (untilReturnedTurn_spec world)
  intro _ way ⟨entering, left, hriding⟩
  exact hriding.always

/-! ## The whole crossing -/

theorem startingAt_spec {α : Type} {travel : Travel P X α} {S : Way P X → Prop}
    {Q : α → Way P X → Prop} (h : Triple S travel Q Stopped) (leg : Leg P X) :
    Triple (fun log => S ⟨leg, log⟩) (travel.startingAt leg)
      (fun answer log => match answer.1 with
        | .ok a => Q a ⟨answer.2, log⟩
        | .error _ => Underway ⟨answer.2, log⟩) Waits := by
  intro log hlog
  have hrun := h ⟨leg, log⟩ hlog
  unfold Travel.startingAt Act.attempt
  cases hr : travel ⟨leg, log⟩ with
  | mk result way =>
    rw [hr] at hrun
    cases result with
    | ok a => exact hrun
    | error stop =>
      cases stop with
      | waiting => exact ⟨rfl, hrun⟩
      | failed error => exact hrun

/-- **A crossing is over** that input went along with, and its leg's desktop alone is still held. Local
input was asked to be released last of all, or nothing failed, the pointer was not put back, and input
was found to be back. -/
structure Over (result : Except String Unit) (leg : Leg P X) (log : Log P X) : Prop where
  standing : ∃ entering left home, Standing [(leg.handoff.peer, leg.session)]
    { leg.place entering left with home := home } [leg.hold] log
  back : Released log ∨ (result = .ok () ∧ FoundIdle log ∧ (legs log).home = false)

/-- **The journey** ends with input back. -/
theorem journey_spec [ToString P] [Landing P X] (fuel : Nat) (leg : Leg P X) (entering left : Option Hold) :
    Triple (Riding leg entering left [leg.hold]) (journey world fuel leg)
      (fun answer => Over answer.1 answer.2) Waits := by
  apply Triple.bind ((startingAt_spec (untilReturned_spec world fuel) leg).pre ?_)
  · intro ⟨result, leg⟩
    cases result with
    | ok _ =>
      apply Triple.pure
      intro log h
      rcases h with ⟨⟨entering, left, hstanding⟩, hreleased⟩ | ⟨⟨entering, left, hriding⟩, hidle⟩
      · exact ⟨⟨entering, left, true, hstanding⟩, .inl hreleased⟩
      · exact ⟨⟨entering, left, false, hriding⟩, .inr ⟨rfl, hidle, by rw [hriding.place]; rfl⟩⟩
    | error error =>
      apply Triple.exists
      intro entering
      apply Triple.exists
      intro left
      show Triple (Riding leg entering left [leg.hold])
        (releaseOwnInput world >>= fun _ => pure ((.error error : Except String Unit), leg)) _ _
      apply Triple.bind (releaseOwnInput_spec world)
      intro _
      exact .pure fun log h => ⟨⟨entering, left, false, h.1⟩, .inl h.2⟩
  · exact fun log h => ⟨entering, left, h⟩

/-- **How a crossing concluded** that sent input to `peer` last: its last question was the Finish of
that computer's leg, and before it local input was asked to be released; or input was found to be back
with the pointer not put back, and only the Finish decides the result. -/
def Concluded (result : Except String Unit) (peer : P) (log : Log P X) : Prop :=
  ∃ before session token answer,
    log = before ++ [⟨.desktop session (.finish token), some answer⟩] ∧
    (legs log).current = some (session, token) ∧ Belongs log peer session ∧
    (Released before ∨
      (FoundIdle before ∧ (legs before).home = false ∧ result = checkFinished answer))

/-- A crossing has returned: the ledger is even, and where input went anywhere, it concluded. -/
structure Settled (result : Except String Unit) (log : Log P X) : Prop where
  always : Always log
  even : (prepares log).Perm (finishes log)
  concluded : ∀ peer, (legs log).inputAt = some peer → Concluded result peer log

/-- How a crossing stops. -/
def Ends : Stop String → Log P X → Prop
  | .waiting, log => Always log
  | .failed error, log => Settled (.error error) log

theorem Waits.ends {stop : Stop String} (h : Waits stop log) : Ends stop log := by
  obtain ⟨hstop, halways⟩ := h
  subst hstop
  exact halways

theorem settled_spec (result : Except String Unit) :
    Triple (Settled result) (Act.orFail result : Task P X Unit) (fun _ => Settled (.ok ())) Ends := by
  apply Triple.orFail
  · intro _ hresult log h
    exact hresult ▸ h
  · intro error hresult log h
    show Settled (.error error) log
    exact hresult ▸ h

/-- A crossing that sent no input anywhere is even once it lets go what it held. -/
theorem Standing.settled {result : Except String Unit} (h : Standing known at_ [] log)
    (hnowhere : at_.inputAt = none) : Settled result log where
  always := h.always
  even := h.balance
  concluded peer hpeer := by
    rw [h.place, hnowhere] at hpeer
    exact nomatch hpeer

/-- The last Finish, and what held before it. -/
theorem lastFinish_spec {S : Log P X → Prop} (leg : Leg P X) (h : ∀ log, S log → Standing known at_ [leg.hold] log) :
    Triple S (Act.attempt (finish world leg.session leg.token))
      (fun finished log => Standing known at_ [] log ∧ ∃ before answer, S before ∧
        log = before ++ [⟨.desktop leg.session (.finish leg.token), some answer⟩] ∧
        finished = checkFinished answer) Waits := by
  have hevent (answer : Option (Except String DesktopResponse)) (log : Log P X) (hlog : S log) :
      Standing known at_ [] (log ++ [⟨.desktop leg.session (.finish leg.token), answer⟩]) :=
    (h log hlog).letGo answer
  apply Triple.attempt
  apply Triple.bind (Q := fun answer log => Standing known at_ [] log ∧ ∃ before, S before ∧
    log = before ++ [⟨.desktop leg.session (.finish leg.token), some answer⟩])
  · apply Triple.ask
    · exact fun answer log hlog => ⟨hevent (some answer) log hlog, log, hlog, rfl⟩
    · exact fun log hlog => ⟨rfl, (hevent none log hlog).always⟩
  · intro answer
    apply Triple.orFail
    · intro _ hfinished log ⟨hstanding, before, hbefore, hlog⟩
      exact ⟨hstanding, before, answer, hbefore, hlog, hfinished.symm⟩
    · intro error hfinished log ⟨hstanding, before, hbefore, hlog⟩
      exact ⟨hstanding, before, answer, hbefore, hlog, hfinished.symm⟩

/-- **The conclusion of a journey.** -/
theorem conclude_spec (result : Except String Unit) (leg : Leg P X) :
    Triple (Over result leg) (conclude world result leg) (fun _ => Settled (.ok ())) Ends := by
  have hconclude (entering left : Option Hold) (home : Bool) :
      Triple (fun log => Standing [(leg.handoff.peer, leg.session)]
          { leg.place entering left with home := home } [leg.hold] log ∧
          (Released log ∨ (result = .ok () ∧ FoundIdle log ∧ (legs log).home = false)))
        (conclude world result leg) (fun _ => Settled (.ok ())) Ends := by
    apply Triple.bind (Q := fun finished => Settled (resultAnd result finished))
    · apply (lastFinish_spec world leg fun log h => h.1).weaken (fun _ => id)
      · intro finished log ⟨hover, before, answer, ⟨hbefore, hback⟩, hlog, hfinished⟩
        refine ⟨hover.always, hover.balance, ?_⟩
        intro peer hpeer
        have hat : leg.handoff.peer = peer := by
          rw [hover.place] at hpeer
          exact Option.some.inj hpeer
        refine ⟨before, leg.session, leg.token, answer, hlog, ?_, ?_, ?_⟩
        · rw [hover.place]
          rfl
        · rw [← hat]
          exact hover.belongs _ List.mem_cons_self
        · apply hback.imp_right
          intro ⟨hok, hidle, hhome⟩
          rw [hok, hfinished]
          exact ⟨hidle, hhome, rfl⟩
      · exact fun _ _ => Waits.ends
    · exact fun finished => settled_spec _
  intro log hlog
  obtain ⟨entering, left, home, hstanding⟩ := hlog.standing
  exact hconclude entering left home log ⟨hstanding, hlog.back⟩

/-- A crossing that could not enter lets go what it prepared. -/
theorem concludeUnentered_spec (error : String) (leg : Leg P X) (hnowhere : at_.inputAt = none) :
    Triple (Standing known at_ [leg.hold]) (conclude world (.error error) leg) (fun _ => Settled (.ok ())) Ends := by
  apply Triple.bind (Q := fun finished => Settled (resultAnd (.error error) finished))
  · apply (lastFinish_spec world leg fun log h => h).weaken (fun _ => id)
    · exact fun finished log h => h.1.settled hnowhere
    · exact fun _ _ => Waits.ends
  · exact fun finished => settled_spec _

/-- What follows the first Prepare: the answer is checked, and input is sent. -/
theorem activate_spec [ToString P] (leg : Leg P X) (prepared : Except String DesktopResponse)
    (hholding : (at_.moveTo leg.handoff.peer).Holding held) : Triple (Standing known at_ held)
      (Act.attempt do
        Act.orFail (leg.handoff.checkPrepared (← Act.orFail prepared))
        Act.orFail (← Act.ask world (.activate leg.handoff.peer)))
      (fun entered => match entered with
        | .ok _ => Standing known (at_.moveTo leg.handoff.peer) held
        | .error _ => Standing known at_ held) Waits := by
  apply Triple.attempt
  apply Triple.weaken _ (fun _ => id) (fun _ _ => id) (E := Unharmed known at_ held)
  · intro stop log h
    cases stop with
    | waiting => exact ⟨rfl, h⟩
    | failed error => exact h
  · apply Triple.bind (Keeps.orFail _ known at_ held)
    intro response
    apply Triple.bind (Keeps.orFail _ known at_ held)
    intro _
    apply Triple.bind (Q := fun activated => match activated with
      | .ok _ => Standing known (at_.moveTo leg.handoff.peer) held
      | .error _ => Standing known at_ held)
    · apply Triple.ask
      · intro activated log h
        cases activated with
        | ok _ => exact moveTo_event h rfl rfl rfl hholding
        | error error => exact h.quiet ⟨rfl, rfl, fun _ => rfl⟩
      · exact fun log h => (h.quiet ⟨rfl, rfl, fun _ => rfl⟩).always
    · intro activated
      cases activated with
      | ok _ => exact .pure fun _ => id
      | error error => exact .bail fun _ => id

/-- **Once the handoff is under way**, the crossing settles. -/
theorem travel_spec [ToString P] [Landing P X] (fuel : Nat) (leg : Leg P X) :
    Triple (Standing [(leg.handoff.peer, leg.session)] Legs.none [])
      (travel world fuel leg) (fun _ => Settled (.ok ())) Ends := by
  have hprepare : Triple (Standing [(leg.handoff.peer, leg.session)] Legs.none [])
      (Act.ask world (.desktop leg.session (leg.handoff.prepare leg.token)) : Task P X _)
      (fun _ => Standing [(leg.handoff.peer, leg.session)]
        { Legs.none with entering := some leg.hold } [leg.hold]) Ends :=
    (prepare_spec world leg.session leg.handoff leg.token List.nil_subperm).weaken
      (fun _ => id) (fun _ _ => id) fun _ _ => Waits.ends
  apply Triple.bind hprepare
  intro prepared
  apply Triple.bind ((activate_spec world leg prepared
    ⟨none, .inr rfl, .refl _⟩).weaken (fun _ => id) (fun _ _ => id) fun _ _ => Waits.ends)
  intro entered
  cases entered with
  | error error => exact concludeUnentered_spec world error leg rfl
  | ok _ =>
    apply Triple.bind ((journey_spec world fuel leg (some leg.hold) none).weaken (fun _ => id)
      (fun _ _ => id) fun _ _ => Waits.ends)
    exact fun answer => conclude_spec world answer.1 answer.2

/-- A crossing that has asked nothing yet. -/
theorem standing_nil : Standing ([] : List (P × SessionId)) Legs.none [] ([] : Log P X) where
  always before hbefore := by
    rw [List.prefix_nil.mp hbefore]
    exact ⟨[], .refl _, Nat.zero_le _, none, .inl rfl, List.nil_subperm⟩
  balance := .refl _
  place := rfl
  holding := ⟨none, .inl rfl, List.nil_subperm⟩
  belongs := List.forall_mem_nil _

/-- A task that moves nothing, before the first Prepare. -/
theorem keeps_ends {α : Type} {task : Task P X α} (h : Keeps task) :
    Triple (Standing known Legs.none []) task (fun _ => Standing known Legs.none []) Ends := by
  apply (h known Legs.none []).weaken (fun _ => id) (fun _ _ => id)
  intro stop log hlog
  cases stop with
  | waiting => exact hlog
  | failed error => exact hlog.settled rfl

theorem ask_ends {call : Call P} (h : ∀ answer : Option (Call.Answer P X call), Quiet ⟨call, answer⟩) :
    Triple (Standing known Legs.none []) (Act.ask world call : Task P X _)
      (fun _ => Standing known Legs.none []) Ends := keeps_ends (.ask h)

/-- The session a crossing goes on with is its computer's. -/
theorem ensureSession_spec (peer : P) : Triple (Standing [] Legs.none [])
      (do Act.orFail (← Act.ask world (.ensureSession peer)) : Task P X SessionId)
      (fun session => Standing [(peer, session)] Legs.none []) Ends := by
  apply Triple.bind (Q := fun answer log => Standing [] Legs.none [] log ∧
    ∀ session, answer = .ok session → Belongs log peer session)
  · apply Triple.ask
    · intro answer log h
      refine ⟨h.quiet ⟨rfl, rfl, fun _ => rfl⟩, fun session hsession => .inl ?_⟩
      rw [hsession]
      exact List.mem_append_right _ List.mem_cons_self
    · exact fun log h => (h.quiet ⟨rfl, rfl, fun _ => rfl⟩).always
  · intro answer
    apply Triple.orFail
    · exact fun session hsession log h => h.1.learn (h.2 session hsession)
    · exact fun error _ log h => h.1.settled rfl

theorem crossAlone_spec [ToString P] [Landing P X] (fuel : Nat) (monitor : Option String)
    (edge : Edge) (position : Nat) : Triple (Standing [] Legs.none []) (crossAlone world fuel monitor edge position)
      (fun _ => Settled (.ok ())) Ends := by
  apply Triple.bind (keeps_ends (keeps_requireNotControlled world))
  intro _
  apply Triple.bind (ask_ends world fun _ => ⟨rfl, rfl, fun _ => rfl⟩)
  intro runtime
  apply Triple.bind (keeps_ends (.ensure _ _))
  intro _
  apply Triple.bind (ask_ends world fun _ => ⟨rfl, rfl, fun _ => rfl⟩)
  intro described
  apply Triple.bind (keeps_ends (.orFail _))
  intro geometry
  apply Triple.bind (ask_ends world fun _ => ⟨rfl, rfl, fun _ => rfl⟩)
  intro _
  apply Triple.bind (ask_ends world fun _ => ⟨rfl, rfl, fun _ => rfl⟩)
  intro layout
  apply Triple.bind (keeps_ends (.orBail _ _))
  intro layout
  apply Triple.bind (keeps_ends (.orBail _ _))
  intro handoff
  apply Triple.bind (ask_ends world fun _ => ⟨rfl, rfl, fun _ => rfl⟩)
  intro config
  apply Triple.bind (keeps_ends (.orBail _ _))
  intro record
  apply Triple.bind (ask_ends world fun _ => ⟨rfl, rfl, fun _ => rfl⟩)
  intro config
  apply Triple.bind (keeps_ends (.orFail _))
  intro _
  rw [← Act.bind_assoc]
  apply Triple.bind (ensureSession_spec world handoff.peer)
  intro session
  apply Triple.bind ((keepReachable_spec world handoff).weaken (fun _ => id) (fun _ _ => id) _)
  · intro kept log ⟨hpeer, hstanding⟩
    rw [← hpeer] at hstanding
    refine Triple.bind (ask_ends world fun _ => ⟨rfl, rfl, fun _ => rfl⟩) ?_ log hstanding
    intro drawn
    apply Triple.bind (keeps_ends (.orFail _))
    intro token
    exact travel_spec world fuel ⟨session, kept, token⟩
  · intro stop log h
    cases stop with
    | waiting => exact h
    | failed error => exact h.settled rfl

theorem cross_spec [ToString P] [Landing P X] (fuel : Nat) (monitor : Option String) (edge : Edge)
    (position : Nat) : Triple (Standing [] Legs.none []) (cross world fuel monitor edge position)
      (fun _ => Settled (.ok ())) Ends := by
  apply Triple.bind (ask_ends world fun _ => ⟨rfl, rfl, fun _ => rfl⟩)
  intro free
  cases free with
  | true => exact crossAlone_spec world fuel monitor edge position
  | false => exact .pure fun log h => h.settled rfl

/-- **Crossing leases are conserved.** For every way the rest of the world answers, at every moment of
the crossing: at most two desktops are held, those of the current leg and of a hop in progress, and
every other one that was prepared was let go once, on its session. When the crossing has returned, none
is held. Where it sent input to a computer, the one it sent it to last got the last Finish, and before
that local input was asked to be released; the exception is a crossing without a failure whose pointer
was not put back, and that found its input back. -/
theorem leases_conserved [ToString P] [Landing P X] (fuel : Nat) (monitor : Option String)
    (edge : Edge) (position : Nat) :
    let run := cross world fuel monitor edge position []
    (∀ before, before <+: run.2 → Tidy before) ∧ ∀ result, run.1 = result.mapError .failed →
        (prepares run.2).Perm (finishes run.2) ∧
          ∀ peer, (legs run.2).inputAt = some peer → Concluded result peer run.2 := by
  intro run
  have hspec := cross_spec world fuel monitor edge position
  cases hrun : cross world fuel monitor edge position [] with
  | mk outcome log =>
    have heq : run = (outcome, log) := hrun
    rw [heq]
    cases outcome with
    | ok _ =>
      have hsettled : Settled (.ok ()) log := hspec.ok standing_nil hrun
      refine ⟨hsettled.always, fun result hresult => ?_⟩
      cases result with
      | ok _ => exact ⟨hsettled.even, hsettled.concluded⟩
      | error error => exact nomatch hresult
    | error stop =>
      have hends : Ends stop log := hspec.error standing_nil hrun
      cases stop with
      | waiting =>
        refine ⟨hends, fun result hresult => ?_⟩
        cases result <;> exact nomatch hresult
      | failed reason =>
        refine ⟨Settled.always hends, fun result hresult => ?_⟩
        cases result with
        | ok _ => exact nomatch hresult
        | error error =>
          cases hresult
          exact ⟨Settled.even hends, Settled.concluded hends⟩

/-! ## A crossing with a hop -/

section Sample

/-- A handoff to a computer of one way off its desktop. -/
def sampleHandoff (peer : Fin 3) (onward : Onward (Fin 3) Unit) : Handoff (Fin 3) Unit where
  peer := peer
  monitor := none
  edge := .right
  start := 0
  stop := fractionMax
  position := 0
  expectedWidth := 100
  expectedHeight := 100
  routes := [⟨⟨none, .left, 0, fractionMax⟩, onward⟩]
  plan := ()

/-- A row of three computers: the second leads to the third, and that one home. -/
instance sampleLanding : Landing (Fin 3) Unit where
  fromEdge _ _ _ _ _ := some (sampleHandoff 1 (.peer 2 ()))
  homePosition _ _ := .ok ⟨99, 0⟩
  entering _ _ _ := some (sampleHandoff 2 (.home ()))

def sampleGeometry : Geometry := ⟨[⟨0, 0, 100, 100⟩], []⟩

/-- A world where everything goes well; each poll finds the pointer gone. -/
def sampleWorld : World (Fin 3) Unit := fun log call => match call with
  | .tryLock => some true
  | .inboundOwner => some none
  | .status => some ⟨if (legs log).inputAt.isSome then .remote else .idle, true⟩
  | .snapshot => some (.snapshot sampleGeometry ⟨0, 0⟩)
  | .fitOwnTile _ => some ()
  | .localLayout => some (some ())
  | .config => some ⟨true, false, fun _ => some ⟨none, ⟨true, true, true, false⟩, .standard, false⟩⟩
  | .ensureSession peer => some (.ok peer.val)
  | .sessions => some fun peer => some (peer.val, false)
  | .token => some (.ok ((prepares log).length + 1))
  | .desktop _ (.prepare _) => some (.ok (.prepared sampleGeometry ⟨0, 0⟩))
  | .desktop _ (.poll _) => some (.ok (.exited 0 0))
  | .desktop _ _ => some (.ok .finished)
  | .activate _ => some (.ok ())
  | .warp _ => some .finished
  | .release _ => some (.ok ())
  | .elapsed => some 0
  | .sleep => some ()
  | .lockPolicy => some ()
  | .allocateActivation => some (.ok 2)
  | .takeActiveOutbound => some (some (1, 1))
  | .endOutbound _ => some true
  | .closeSession _ => some ()
  | .beginOutbound _ _ => some (.ok ())
  | .setActiveOutbound _ _ => some ()

theorem leases_conserved_hop :
    let run := cross sampleWorld 3 none .right 0 []
    run.1 = .ok () ∧ prepares run.2 = [(1, 1), (2, 2)] ∧ (prepares run.2).Perm (finishes run.2) ∧
      Concluded (.ok ()) 2 run.2 := by
  have hrun : (cross sampleWorld 3 none .right 0 []).1 = .ok () ∧
      prepares (cross sampleWorld 3 none .right 0 []).2 = [(1, 1), (2, 2)] ∧
      (legs (cross sampleWorld 3 none .right 0 []).2).inputAt = some 2 := by
    decide +kernel
  have hconserved := (leases_conserved sampleWorld 3 none .right 0).2 (.ok ()) hrun.1
  exact ⟨hrun.1, hrun.2.1, hconserved.1, hconserved.2 2 hrun.2.2⟩

end Sample

end Zflow.Daemon.Crossing
