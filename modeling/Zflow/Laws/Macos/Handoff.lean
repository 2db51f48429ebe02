import Zflow.Laws.Macos.Ownership
import Zflow.Macos.Handoff

/-!
# How a Mac's handoff tells its exits

Three flags of a lease say where the pointer is (`exited`, `delivered`) and what a cursor at rest means
(`resting`). `Sound` ties them to what was reported and answered: at most one report waits at a time, it
is answered once, and the peer's moves are dropped from the report to the Poll after its answer.
-/

namespace Zflow.Macos

open Zflow.Core Desktop Lib
open Daemon (SessionId)

variable {P : Type}

/-! ## One lease -/

/-- A position on the exit of that index, of those a Prepare gave. -/
def Lies (given : List Exit) (exit_ : Nat × Nat) : Prop :=
  ∃ exit, given[exit_.1]? = some exit ∧ exit.start ≤ exit_.2 ∧ exit_.2 ≤ exit.stop

/-- The edges watched are exits that were given. -/
def Watches (given : List Exit) (exits : List (Nat × ArmedEdge)) : Prop :=
  ∀ index edge, (index, edge) ∈ exits → ∃ exit_, given[index]? = some exit_ ∧
    edge.start = exit_.start ∧ edge.stop = exit_.stop ∧ exit_.start ≤ exit_.stop

namespace Lease

variable {lease after : Lease P} {given : List Exit} {exit_ : Nat × Nat}
  {start stop cursor : CursorPosition}

theorem lies_crossing (h : Watches given lease.exits) (hcrossing : lease.crossing start stop = some exit_) :
    Lies given exit_ := by
  obtain ⟨⟨index, edge⟩, hmem, hedge⟩ := List.exists_of_findSome?_eq_some hcrossing
  obtain ⟨position, hposition, rfl⟩ := Option.map_eq_some_iff.mp hedge
  obtain ⟨exit_, hgiven, hstart, hstop, hle⟩ := h index edge hmem
  have hrange := ArmedEdge.crossing_range (hstart ▸ hstop ▸ hle) hposition
  exact ⟨exit_, hgiven, hstart ▸ hrange.1, hstop ▸ hrange.2⟩

theorem lies_atEdge (h : Watches given lease.exits) (hedge : lease.atEdge cursor = some exit_) :
    Lies given exit_ := by
  obtain ⟨⟨index, edge⟩, hmem, hedge⟩ := List.exists_of_findSome?_eq_some hedge
  obtain ⟨position, hposition, rfl⟩ := Option.map_eq_some_iff.mp hedge
  obtain ⟨exit_, hgiven, hstart, hstop, hle⟩ := h index edge hmem
  have hrange := ArmedEdge.atEdge_range (hstart ▸ hstop ▸ hle) hposition
  exact ⟨exit_, hgiven, hstart ▸ hrange.1, hstop ▸ hrange.2⟩

/-- A cursor sample changes only what it saw. -/
structure Seen (lease after : Lease P) : Prop where
  holder : after.holder = lease.holder
  renewed : after.renewed = lease.renewed
  exits : after.exits = lease.exits
  exited : after.exited = lease.exited
  delivered : after.delivered = lease.delivered

theorem sample_seen (cursor : CursorPosition) (lease : Lease P) : Seen lease (lease.sample cursor).2 := by
  unfold sample
  dsimp only
  split <;> exact ⟨rfl, rfl, rfl, rfl, rfl⟩

theorem moved_eq_some (h : (lease.moved start stop).2 = some exit_) :
    lease.exited = none ∧ lease.crossing start stop = some exit_ := by
  unfold moved at h
  cases hexited : lease.exited with
  | some exited =>
    rw [hexited] at h
    cases h
  | none =>
    rw [hexited, Option.isSome_none, if_neg Bool.false_ne_true] at h
    cases hcrossing : lease.crossing start stop with
    | none =>
      rw [hcrossing] at h
      cases h
    | some crossed =>
      rw [hcrossing] at h
      exact ⟨rfl, h⟩

theorem sample_eq_some (h : (lease.sample cursor).1 = some exit_) : lease.exited = none ∧
    (lease.crossing lease.sampled cursor = some exit_ ∨ lease.atEdge cursor = some exit_) := by
  unfold sample at h
  dsimp only at h
  cases hexited : lease.exited with
  | some exited =>
    rw [hexited] at h
    cases h
  | none =>
    rw [hexited, Option.isSome_none, if_neg Bool.false_ne_true] at h
    rcases Option.or_eq_some_iff.mp h with hcrossing | ⟨-, hedge⟩
    · exact ⟨rfl, .inl hcrossing⟩
    · refine ⟨rfl, .inr ?_⟩
      split at hedge
      · cases hedge
      · exact hedge

theorem sample_of_inside (h : lease.exited = none) : lease.sample cursor = ((lease.crossing lease.sampled cursor).or
      (if lease.resting && (lease.atEdge cursor).isSome then none else lease.atEdge cursor),
      { lease with sampled := cursor, resting := lease.resting && (lease.atEdge cursor).isSome }) := by
  unfold sample
  dsimp only
  rw [if_neg (by rw [h]; exact Bool.false_ne_true)]
  rfl

/-- **A cursor at rest** on an exit's edge is not reported. -/
theorem sample_resting (hexited : lease.exited = none) (hresting : lease.resting = true) {edge : Nat × Nat}
    (hedge : lease.atEdge cursor = some edge) (hcrossing : lease.crossing lease.sampled cursor = none) :
    (lease.sample cursor).1 = none := by
  rw [sample_of_inside hexited, hresting, hedge, hcrossing]
  rfl

end Lease

/-! ## The invariant -/

/-- What the flags of a lease say. -/
inductive Flags : Pointer → Option (Nat × Nat) → Bool → Prop
  | here : Flags .here none false
  | left (exit_ : Nat × Nat) : Flags .left (some exit_) false
  | told (exit_ : Nat × Nat) : Flags .told (some exit_) true

theorem Flags.of_here {exited : Option (Nat × Nat)} {delivered : Bool} (h : Flags .here exited delivered) :
    exited = none ∧ delivered = false := by
  cases h
  exact ⟨rfl, rfl⟩

theorem Flags.delivered {pointer : Pointer} {exited : Option (Nat × Nat)} {delivered : Bool}
    (h : Flags pointer exited delivered) : delivered = true ↔ pointer = .told := by
  cases h <;> simp

/-- Whether a call that ends a handoff has its lease still. -/
def Ending.has (ending : Ending P) : Bool := ending.done = 0

/-- Whose leases there are: the server's, and those of calls that have just taken it out. -/
def Server.holders (s : Server P) : List (P × SessionId) :=
  (s.lease.map Lease.holder).toList ++ (s.endings.filter Ending.has).map Ending.holder

/-- **The invariant of the server.** -/
structure Server.Sound (s : Server P) : Prop where
  held : s.holders = s.guarded.ownership.lease.toList
  absent : s.lease = none → s.story.pointer = .here
  flags : ∀ lease, s.lease = some lease → Flags s.story.pointer lease.exited lease.delivered
  kept : s.story.kept = true → s.story.pointer = .here ∧ s.lease.any Lease.resting = true
  watches : ∀ lease, s.lease = some lease → Watches s.story.given lease.exits
  lies : ∀ lease exit_, s.lease = some lease → lease.exited = some exit_ → Lies s.story.given exit_
  polled : ∀ lease, s.lease = some lease → lease.renewed = s.story.polled
  answers : ∀ answer ∈ s.story.answers, answer.push ≤ s.story.pushes ∧
    (s.story.pointer = .left → answer.push < s.story.pushes) ∧
    Lies answer.given (answer.exit, answer.position)
  once : (s.story.answers.map Answer.push).Nodup

namespace Server

variable {s after : Server P} {lease next : Lease P} {exit_ : Nat × Nat}

/-! ### Steps -/

/-- A lease of the same holder is the same lease for its desktop's ownership. -/
theorem Sound.held_of_holder (h : s.Sound) (hlease : s.lease = some lease) (hholder : next.holder = lease.holder) :
    [next.holder] ++ (s.endings.filter Ending.has).map Ending.holder = s.guarded.ownership.lease.toList := by
  rw [← h.held, holders, hlease, hholder]
  rfl

/-- An exit that is reported lies on one that was given, and none was reported before it. -/
theorem Sound.report (h : s.Sound) (hlease : s.lease = some lease) (hseen : Lease.Seen lease next)
    (hlies : Lies s.story.given exit_) : (s.report exit_ next).Sound where
  held := h.held_of_holder hlease hseen.holder
  absent := nofun
  flags := by
    rintro _ ⟨⟩
    exact .left exit_
  kept := nofun
  watches := by
    rintro _ ⟨⟩
    show Watches s.story.given next.exits
    exact hseen.exits ▸ h.watches lease hlease
  lies := by
    rintro _ _ ⟨⟩ ⟨⟩
    exact hlies
  polled := by
    rintro _ ⟨⟩
    exact hseen.renewed.trans (h.polled lease hlease)
  answers := by
    intro answer hmem
    obtain ⟨hle, -, hgiven⟩ := h.answers answer hmem
    exact ⟨Nat.le_succ_of_le hle, fun _ => Nat.lt_succ_of_le hle, hgiven⟩
  once := h.once

theorem Sound.moved (h : s.Sound) (start stop : CursorPosition) : (s.moved start stop).Sound := by
  unfold Server.moved
  cases hlease : s.lease with
  | none => exact h
  | some lease =>
    dsimp only
    split
    · rename_i exit_ hmoved
      obtain ⟨-, hcrossing⟩ := Lease.moved_eq_some hmoved
      exact h.report hlease ⟨rfl, rfl, rfl, rfl, rfl⟩ (Lease.lies_crossing (h.watches lease hlease) hcrossing)
    · exact h

/-- A lease that was looked at and reports nothing. -/
theorem Sound.seen (h : s.Sound) (hlease : s.lease = some lease) (hseen : Lease.Seen lease next) {kept : Bool}
    (hkept : kept = true → s.story.pointer = .here ∧ next.resting = true) :
    Sound { s with lease := some next, story := { s.story with kept } } where
  held := h.held_of_holder hlease hseen.holder
  absent := nofun
  flags := by
    rintro _ ⟨⟩
    show Flags s.story.pointer next.exited next.delivered
    rw [hseen.exited, hseen.delivered]
    exact h.flags lease hlease
  kept := hkept
  watches := by
    rintro _ ⟨⟩
    show Watches s.story.given next.exits
    exact hseen.exits ▸ h.watches lease hlease
  lies := by
    rintro _ exit_ ⟨⟩ hexit
    exact h.lies lease exit_ hlease (hseen.exited ▸ hexit)
  polled := by
    rintro _ ⟨⟩
    exact hseen.renewed.trans (h.polled lease hlease)
  answers := h.answers
  once := h.once

theorem Sound.sample (h : s.Sound) (cursor : CursorPosition) : (s.sample cursor).Sound := by
  unfold Server.sample
  cases hlease : s.lease with
  | none => exact h
  | some lease =>
    have hseen := Lease.sample_seen cursor lease
    dsimp only
    split
    · rename_i exit_ next hsample
      rw [hsample] at hseen
      obtain ⟨-, hfound⟩ := Lease.sample_eq_some (congrArg Prod.fst hsample)
      apply h.report hlease hseen
      rcases hfound with hcrossing | hedge
      · exact Lease.lies_crossing (h.watches lease hlease) hcrossing
      · exact Lease.lies_atEdge (h.watches lease hlease) hedge
    · rename_i next hsample
      rw [hsample] at hseen
      refine h.seen hlease hseen fun hkept => ?_
      obtain ⟨hkept, hedge⟩ := Bool.and_eq_true_iff.mp hkept
      obtain ⟨hhere, hresting⟩ := h.kept hkept
      refine ⟨hhere, ?_⟩
      rw [hlease, Option.any_some] at hresting
      have hexited : lease.exited = none := (hhere ▸ h.flags lease hlease).of_here.1
      rw [Lease.sample_of_inside hexited] at hsample
      rw [← (Prod.mk.inj hsample).2]
      show (lease.resting && (lease.atEdge cursor).isSome) = true
      rw [hresting, hedge]
      rfl

/-- A lease that is taken out goes with the call that ends its handoff. -/
theorem Sound.takeOut (h : s.Sound) (hlease : s.lease = some lease) (cause : Cause)
    (hsame : next.holder = lease.holder) : (s.takeOut cause next).Sound where
  held := by
    have hheld := h.held
    unfold holders at hheld ⊢
    rw [hlease] at hheld
    show [] ++ ((s.endings ++ [(⟨next.holder, cause, 0⟩ : Ending P)]).filter Ending.has).map Ending.holder =
      s.guarded.ownership.lease.toList
    have hnone : (s.endings.filter Ending.has).map Ending.holder = [] := by
      apply List.eq_nil_of_length_eq_zero
      have hlength := congrArg List.length hheld
      have hle := Option.length_toList_le (o := s.guarded.ownership.lease)
      simp only [Option.map_some, Option.toList_some, List.length_append, List.length_singleton] at hlength
      omega
    rw [List.filter_append, List.map_append, hnone]
    rw [hnone] at hheld
    rw [← hheld, hsame]
    rfl
  absent _ := rfl
  flags := nofun
  kept := nofun
  watches := nofun
  lies := nofun
  polled := nofun
  answers answer hmem := by
    obtain ⟨hle, -, hgiven⟩ := h.answers answer hmem
    exact ⟨hle, (fun hleft => nomatch hleft), hgiven⟩
  once := h.once

theorem Sound.expire (h : s.Sound) (now : MonotonicTimeMicros) (generation : Nat)
    (geometry : Option Geometry) : (s.expire now generation geometry).Sound := by
  unfold Server.expire
  cases hlease : s.lease with
  | none => exact h
  | some lease =>
    have hseen : Lease.Seen lease (lease.expire now generation geometry).2 := by
      unfold Lease.expire
      split
      · split <;> exact ⟨rfl, rfl, rfl, rfl, rfl⟩
      · exact ⟨rfl, rfl, rfl, rfl, rfl⟩
    have hresting : (lease.expire now generation geometry).2.resting = lease.resting := by
      unfold Lease.expire
      split
      · split <;> rfl
      · rfl
    dsimp only
    split
    · rename_i next hexpire
      rw [hexpire] at hseen
      exact h.takeOut hlease .expired hseen.holder
    · rename_i next hexpire
      rw [hexpire] at hseen hresting
      refine h.seen hlease hseen fun hkept => ?_
      obtain ⟨hhere, hrests⟩ := h.kept hkept
      rw [hlease, Option.any_some] at hrests
      exact ⟨hhere, hresting.trans hrests⟩

/-- Where one of a list is replaced. -/
theorem exists_set_eq {α : Type} {l : List α} {index : Nat} {a : α} (h : l[index]? = some a) (b : α) :
    ∃ front back, l = front ++ a :: back ∧ l.set index b = front ++ b :: back := by
  induction l generalizing index with
  | nil => cases h
  | cons head tail ih =>
    cases index with
    | zero =>
      cases h
      exact ⟨[], tail, rfl, rfl⟩
    | succ index =>
      obtain ⟨front, back, htail, hset⟩ := ih h
      exact ⟨head :: front, back, congrArg (head :: ·) htail, congrArg (head :: ·) hset⟩

/-- Giving up the lease comes first. -/
theorem deeds_drop {cause : Cause} {done : Nat} {deed : Deed} (h : cause.deeds[done]? = some deed) :
    deed = .drop ↔ done = 0 := by
  match cause, done with
  | .finished, 0 | .closed, 0 | .expired, 0 | .abandoned, 0 => cases h; simp
  | .finished, 1 | .closed, 1 | .expired, 1 | .expired, 2 => cases h; simp
  | .finished, done + 2 | .closed, done + 2 | .expired, done + 3 | .abandoned, done + 1 => cases h

/-- A call that goes on ending its handoff gives up the lease first. -/
theorem Sound.proceed {index : Nat} (h : s.Sound) (hstep : s.proceed index = some after) :
    after.Sound := by
  obtain ⟨ending, hending, hrest⟩ := Option.bind_eq_some_iff.mp hstep
  obtain ⟨deed, hdeed, hrest⟩ := Option.bind_eq_some_iff.mp hrest
  obtain ⟨front, back, hsplit, hset⟩ :=
    exists_set_eq hending { ending with done := ending.done + 1 }
  have hover : Ending.has { ending with done := ending.done + 1 } = false :=
    decide_eq_false (Nat.succ_ne_zero _)
  have hheld := h.held
  unfold holders at hheld
  rw [hsplit, List.filter_append, List.filter_cons] at hheld
  have hfirst := deeds_drop hdeed
  have hpart : ∀ ownership : List (P × SessionId), ownership = (s.lease.map Lease.holder).toList ++
        ((front ++ { ending with done := ending.done + 1 } :: back).filter Ending.has).map
          Ending.holder →
      (s.lease.map Lease.holder).toList ++ ((s.endings.set index
        { ending with done := ending.done + 1 }).filter Ending.has).map Ending.holder = ownership :=
    fun ownership heq => by rw [hset, heq]
  -- what comes after the lease is given up leaves it alone
  have hlater (hnot : deed ≠ .drop) : (s.lease.map Lease.holder).toList ++ ((s.endings.set index
      { ending with done := ending.done + 1 }).filter Ending.has).map Ending.holder =
      s.guarded.ownership.lease.toList := by
    have hhas : ending.has = false := decide_eq_false fun hzero => hnot (hfirst.mpr hzero)
    rw [hhas] at hheld
    refine hpart _ ?_
    rw [List.filter_append, List.filter_cons, hover]
    exact hheld.symm
  cases deed with
  | drop =>
    cases hrest
    have hhas : ending.has = true := decide_eq_true (hfirst.mp rfl)
    rw [hhas, if_pos rfl] at hheld
    refine { h with held := hpart _ ?_ }
    have hlength := congrArg List.length hheld
    have hle := Option.length_toList_le (o := s.guarded.ownership.lease)
    simp only [List.length_append, List.length_map, List.length_cons] at hlength
    have hlease := List.eq_nil_of_length_eq_zero (show (s.lease.map Lease.holder).toList.length = 0 by omega)
    have hfront := List.eq_nil_of_length_eq_zero (show (front.filter Ending.has).length = 0 by omega)
    have hback := List.eq_nil_of_length_eq_zero (show (back.filter Ending.has).length = 0 by omega)
    rw [hlease, List.filter_append, List.filter_cons, hover, hfront, hback]
    rfl
  | releaseAll =>
    cases hrest
    exact { h with held := hlater nofun }
  | close =>
    cases hrest
    exact { h with held := hlater nofun }

theorem Lease.answer_eq_some (h : lease.answer = (some exit_, next)) :
    lease.exited = some exit_ ∧ lease.delivered = false ∧ next = { lease with delivered := true } := by
  unfold Lease.answer at h
  split at h
  · cases h
  · rename_i hdelivered
    cases hexited : lease.exited with
    | none =>
      rw [hexited] at h
      cases h
    | some exited =>
      rw [hexited] at h
      cases h
      exact ⟨rfl, Bool.eq_false_of_not_eq_true hdelivered, rfl⟩

theorem Lease.answer_eq_none (h : lease.answer = (none, next)) : next = lease := by
  obtain ⟨peer, session, token, renewed, generation, geometry, exits, sampled, exited, delivered, resting⟩ := lease
  unfold Lease.answer at h
  cases delivered <;> cases exited <;> cases h <;> rfl

/-- What a Poll that waits does: it is over, it goes on waiting, or it answers. -/
theorem answer_cases {index : Nat} (hstep : s.answer index = some after) :
    after = { s with polls := s.polls.eraseIdx index } ∨ after = s ∨
    ∃ lease exit_, s.lease = some lease ∧ lease.exited = some exit_ ∧ lease.delivered = false ∧ after = { s with
        polls := s.polls.eraseIdx index
        lease := some { lease with delivered := true }
        story := { s.story with
          pointer := .told
          answers := s.story.answers ++ [⟨s.story.pushes, s.story.given, exit_.1, exit_.2⟩] } } := by
  obtain ⟨guarded, lease, polls, endings, desk, story⟩ := s
  obtain ⟨⟨session, token⟩, -, hrest⟩ := Option.bind_eq_some_iff.mp hstep
  cases lease with
  | none =>
    cases hrest
    exact .inl rfl
  | some lease =>
    dsimp only at hrest
    split at hrest
    · cases hrest
      exact .inl rfl
    split at hrest
    · rename_i next hanswer
      cases hrest
      rw [Lease.answer_eq_none hanswer]
      exact .inr (.inl rfl)
    · rename_i exit_ next hanswer
      cases hrest
      obtain ⟨hexited, hdelivered, rfl⟩ := Lease.answer_eq_some hanswer
      exact .inr (.inr ⟨lease, exit_, rfl, hexited, hdelivered, rfl⟩)

theorem Sound.polls (h : s.Sound) (polls : List (SessionId × Nat)) : Sound { s with polls } := { h with }

/-- A Poll answers a report that no Poll has answered. -/
theorem Sound.answer {index : Nat} (h : s.Sound) (hstep : s.answer index = some after) :
    after.Sound := by
  rcases answer_cases hstep with rfl | rfl | ⟨lease, exit_, hlease, hexited, hdelivered, rfl⟩
  · exact h.polls _
  · exact h
  have hflags := h.flags lease hlease
  rw [hexited, hdelivered] at hflags
  have hleft : s.story.pointer = .left := by
    generalize s.story.pointer = pointer at hflags
    cases hflags
    rfl
  constructor
  · exact h.held_of_holder hlease rfl
  · exact nofun
  · rintro _ ⟨⟩
    show Flags .told lease.exited true
    rw [hexited]
    exact .told exit_
  · intro hkept
    have hhere := (h.kept hkept).1
    rw [hleft] at hhere
    cases hhere
  · rintro _ ⟨⟩
    exact h.watches lease hlease
  · rintro _ other ⟨⟩ hother
    exact h.lies lease other hlease hother
  · rintro _ ⟨⟩
    exact h.polled lease hlease
  · intro answer hmem
    refine ⟨?_, nofun, ?_⟩
    · rcases List.mem_append.mp hmem with hold | hnew
      · exact (h.answers answer hold).1
      · rw [List.mem_singleton.mp hnew]
    · rcases List.mem_append.mp hmem with hold | hnew
      · exact (h.answers answer hold).2.2
      · rw [List.mem_singleton.mp hnew]
        exact h.lies lease exit_ hlease hexited
  · show ((s.story.answers ++ [_]).map Answer.push).Nodup
    rw [List.map_append]
    refine List.nodup_append.mpr ⟨h.once, by simp, ?_⟩
    intro push hpush new hnew
    obtain ⟨answer, hmem, rfl⟩ := List.mem_map.mp hpush
    rw [List.mem_singleton.mp hnew]
    exact Nat.ne_of_lt ((h.answers answer hmem).2.1 hleft)

/-- A call for anything but a desktop handoff leaves that alone. -/
theorem Sound.own [DecidableEq P] (h : s.Sound) {call : GuardStep P} (hbeside : call.beside = true)
    {guarded : Guarded P} (hstep : Guarded.step call s.guarded = some guarded) : Sound { s with guarded } := by
  have hlease : guarded.ownership.lease = s.guarded.ownership.lease := by
    cases call with
    | beginOutbound =>
      cases hstep
      unfold Guarded.beginOutbound Ownership.beginOutbound
      split
      · rename_i hbegin
        split at hbegin
        · cases hbegin
        · cases hbegin
          rfl
      · rfl
    | claimInbound peer session =>
      cases hstep
      unfold Guarded.claimInbound
      split
      · rename_i hclaim
        obtain ⟨_, -, hafter⟩ := Act.except_bind_eq_ok.mp hclaim
        cases hafter
        rfl
      · rfl
    | beginLease => cases hbeside
    | drop guard =>
      have hstep : (if _ then some (s.guarded.drop guard) else none) = some guarded := hstep
      split at hstep
      · cases hstep
        cases guard with
        | outbound => rfl
        | claim claim =>
          show (s.guarded.ownership.dropClaim claim).lease = _
          unfold Ownership.dropClaim
          split <;> rfl
        | lease => cases hbeside
      · cases hstep
  exact { h with held := by rw [hlease]; exact h.held }

/-- The exits a valid Prepare gave. -/
theorem watches_armedExits {geometry : Geometry} {exits : List Exit}
    (hvalid : ∀ exit_ ∈ exits, exit_.start ≤ exit_.stop) : Watches exits (armedExits geometry exits) := by
  intro index edge hmem
  obtain ⟨⟨exit_, position⟩, hexit, hedge⟩ := List.mem_filterMap.mp hmem
  obtain ⟨armed, harmed, heq⟩ := Option.map_eq_some_iff.mp hedge
  cases heq
  have hgiven : exits[index]? = some exit_ := List.mem_zipIdx_iff_getElem?.mp hexit
  refine ⟨exit_, hgiven, ?_⟩
  cases hselected : geometry.forMonitor exit_.monitor with
  | error error =>
    rw [hselected] at harmed
    cases harmed
  | ok selected =>
    rw [hselected] at harmed
    cases hnew : ArmedEdge.new selected exit_.edge exit_.start exit_.stop with
    | error error =>
      have harmed : (ArmedEdge.new selected exit_.edge exit_.start exit_.stop).toOption = some edge := harmed
      rw [hnew] at harmed
      cases harmed
    | ok armed =>
      have harmed : (ArmedEdge.new selected exit_.edge exit_.start exit_.stop).toOption = some edge := harmed
      rw [hnew] at harmed
      cases harmed
      obtain ⟨hstart, hstop⟩ := ArmedEdge.new_range hnew
      exact ⟨hstart, hstop, hvalid exit_ (List.mem_of_getElem? hgiven)⟩

theorem exits_of_valid {request : Prepare} (h : (DesktopRequest.prepare request).validate.isOk = true) :
    ∀ exit_ ∈ request.exits, exit_.start ≤ exit_.stop := by
  cases hvalid : (DesktopRequest.prepare request).validate with
  | error error =>
    rw [hvalid] at h
    cases h
  | ok _ =>
    obtain ⟨-, hrest⟩ := check_bind_eq_ok.mp hvalid
    obtain ⟨-, hrest⟩ := check_bind_eq_ok.mp hrest
    obtain ⟨-, hrest⟩ := check_bind_eq_ok.mp hrest
    obtain ⟨-, hexits⟩ := check_bind_eq_ok.mp hrest
    intro exit_ hmem
    have hexit := forM_eq_ok.mp hexits exit_ hmem
    rw [refuseIf_eq_ok] at hexit
    simp at hexit
    exact Nat.le_of_lt hexit.1.2

section Peers

variable [DecidableEq P]

theorem Sound.prepare (h : s.Sound) {peer : P} {session : SessionId} {request : Prepare} {generation : Nat}
    {geometry : Except String Geometry} {current : Bool} {now : MonotonicTimeMicros}
    (hvalid : (DesktopRequest.prepare request).validate.isOk = true) :
    (s.prepare peer session request generation geometry current now).Sound := by
  unfold Server.prepare
  split
  · exact h
  rename_i displays entry exits hplanned
  split
  · exact h
  split
  · exact h
  rename_i ownership hbegin
  obtain ⟨-, hfree, rfl⟩ := Ownership.beginLease_eq_ok hbegin
  have hheld := h.held
  rw [hfree] at hheld
  obtain ⟨hnone, hendings⟩ := List.append_eq_nil_iff.mp hheld
  have hlease : s.lease = none := by
    cases hlease : s.lease with
    | none => rfl
    | some lease =>
      rw [hlease] at hnone
      cases hnone
  have hguarded : (s.guarded.beginLease peer session).ownership.lease = some (peer, session) := by
    unfold Guarded.beginLease
    rw [hbegin]
  have hexits : exits = armedExits displays request.exits := by
    obtain ⟨displays', -, hrest⟩ := Act.except_bind_eq_ok.mp hplanned
    obtain ⟨selected, -, hrest⟩ := Act.except_bind_eq_ok.mp hrest
    obtain ⟨armed, -, hrest⟩ := Act.except_bind_eq_ok.mp hrest
    obtain ⟨entry', -, hrest⟩ := Act.except_bind_eq_ok.mp hrest
    cases hrest
    rfl
  constructor
  · show _ = (if s.lease.isSome then _ else s.guarded.beginLease peer session : Guarded P).ownership.lease.toList
    rw [hlease, Option.isSome_none, if_neg Bool.false_ne_true, hguarded]
    show [(peer, session)] ++ (s.endings.filter Ending.has).map Ending.holder = _
    rw [hendings]
    rfl
  · exact nofun
  · rintro _ ⟨⟩
    exact .here
  · exact nofun
  · rintro _ ⟨⟩
    show Watches request.exits exits
    rw [hexits]
    exact watches_armedExits (exits_of_valid hvalid)
  · rintro _ _ ⟨⟩ hexit
    cases hexit
  · rintro _ ⟨⟩
    rfl
  · intro answer hmem
    obtain ⟨hle, -, hgiven⟩ := h.answers answer hmem
    exact ⟨hle, (fun hleft => nomatch hleft), hgiven⟩
  · exact h.once

/-- A Poll after an answer keeps the pointer here. -/
theorem Sound.poll (h : s.Sound) (peer : P) (session : SessionId) (token : Nat)
    (now : MonotonicTimeMicros) : (s.poll peer session token now).Sound := by
  unfold Server.poll
  cases hlease : s.lease with
  | none => exact h
  | some lease =>
    dsimp only
    split
    · exact h
    have hflags := h.flags lease hlease
    by_cases htold : s.story.pointer = .told
    · have hpoll : lease.poll now =
          { lease with renewed := now, exited := none, delivered := false, resting := true } :=
        if_pos (hflags.delivered.mpr htold)
      rw [hpoll, htold]
      constructor
      · exact h.held_of_holder hlease rfl
      · exact nofun
      · rintro _ ⟨⟩
        exact .here
      · exact fun _ => ⟨rfl, rfl⟩
      · rintro _ ⟨⟩
        exact h.watches lease hlease
      · rintro _ _ ⟨⟩ hexit
        cases hexit
      · rintro _ ⟨⟩
        rfl
      · intro answer hmem
        obtain ⟨hle, -, hgiven⟩ := h.answers answer hmem
        exact ⟨hle, (fun hleft => nomatch hleft), hgiven⟩
      · exact h.once
    · have hpoll : lease.poll now = { lease with renewed := now } :=
        if_neg fun hdelivered => htold (hflags.delivered.mp hdelivered)
      rw [hpoll, if_neg htold, decide_eq_false htold, Bool.or_false]
      constructor
      · exact h.held_of_holder hlease rfl
      · exact nofun
      · rintro _ ⟨⟩
        exact hflags
      · intro hkept
        obtain ⟨hhere, hresting⟩ := h.kept hkept
        rw [hlease] at hresting
        exact ⟨hhere, hresting⟩
      · rintro _ ⟨⟩
        exact h.watches lease hlease
      · rintro _ exit_ ⟨⟩ hexit
        exact h.lies lease exit_ hlease hexit
      · rintro _ ⟨⟩
        rfl
      · exact h.answers
      · exact h.once

theorem Sound.finish (h : s.Sound) (peer : P) (session : SessionId) (token : Nat) :
    (s.finish peer session token).Sound := by
  unfold Server.finish
  cases hlease : s.lease with
  | none => exact h
  | some lease =>
    dsimp only
    split
    · exact h.takeOut hlease .finished rfl
    · exact h

theorem Sound.abandon (h : s.Sound) (session : SessionId) (token : Nat) : (s.abandon session token).Sound := by
  unfold Server.abandon
  cases hlease : s.lease with
  | none => exact h
  | some lease =>
    dsimp only
    split
    · exact h.takeOut hlease .abandoned rfl
    · exact h

theorem Sound.closed (h : s.Sound) (peer : P) (session : SessionId) : (s.closed peer session).Sound := by
  unfold Server.closed
  cases hlease : s.lease with
  | none => exact h
  | some lease =>
    dsimp only
    split
    · exact h.takeOut hlease .closed rfl
    · exact h

/-- **The step rule.** -/
theorem Sound.step (h : s.Sound) (label : HandoffStep P) (hstep : Server.step label s = some after) :
    after.Sound := by
  cases label with
  | own call =>
    have hstep : (if call.beside = true then _ else none) = some after := hstep
    split at hstep
    · rename_i hbeside
      obtain ⟨guarded, hguarded, rfl⟩ := Option.map_eq_some_iff.mp hstep
      exact h.own hbeside hguarded
    · cases hstep
  | prepare peer session request generation geometry current now =>
    have hstep : (if (DesktopRequest.prepare request).validate.isOk = true then some _ else none) =
      some after := hstep
    split at hstep
    · rename_i hvalid
      cases hstep
      exact h.prepare hvalid
    · cases hstep
  | abandon session token =>
    cases hstep
    exact h.abandon session token
  | poll peer session token now =>
    cases hstep
    exact h.poll peer session token now
  | sample cursor =>
    cases hstep
    exact h.sample cursor
  | answer index => exact h.answer hstep
  | leave index =>
    cases hstep
    exact h.polls _
  | finish peer session token =>
    cases hstep
    exact h.finish peer session token
  | closed peer session =>
    cases hstep
    exact h.closed peer session
  | expire now generation geometry =>
    cases hstep
    exact h.expire now generation geometry
  | moved start stop =>
    cases hstep
    exact h.moved start stop
  | proceed index => exact h.proceed hstep

theorem Sound.start : (Server.start : Server P).Sound where
  held := rfl
  absent _ := rfl
  flags := nofun
  kept := nofun
  watches := nofun
  lies := nofun
  polled := nofun
  answers := nofun
  once := List.nodup_nil

end Peers

/-! ## What the invariant says -/

/-- Ownership records the server's handoff, or one that a call has taken out and not dropped. -/
theorem Sound.recorded (h : s.Sound) (holder : P × SessionId) :
    s.guarded.ownership.lease = some holder ↔ s.lease.map Lease.holder = some holder ∨
      ∃ ending ∈ s.endings, ending.has ∧ ending.holder = holder := by
  have hmem : s.guarded.ownership.lease = some holder ↔ holder ∈ s.holders := by
    rw [h.held]
    exact Option.mem_toList.symm
  rw [hmem, holders, List.mem_append, Option.mem_toList, List.mem_map]
  simp only [List.mem_filter, and_assoc]

theorem Sound.settled (h : s.Sound) (hover : ∀ ending ∈ s.endings, ending.has = false) :
    s.guarded.ownership.lease = s.lease.map Lease.holder := by
  have hnone : s.endings.filter Ending.has = [] := by
    rw [List.filter_eq_nil_iff]
    intro ending hmem
    rw [hover ending hmem]
    exact Bool.false_ne_true
  have hheld := h.held
  rw [holders, hnone, List.map_nil, List.append_nil] at hheld
  cases hlease : s.lease.map Lease.holder <;> cases howner : s.guarded.ownership.lease <;> simp_all

/-- **A move is dropped** while the pointer is away, and when it leaves itself. -/
theorem Sound.dropped (h : s.Sound) (hlease : s.lease = some lease) (start stop : CursorPosition) :
    s.drops start stop = true ↔ s.story.pointer ≠ .here ∨ (lease.crossing start stop).isSome = true := by
  have hflags := h.flags lease hlease
  unfold drops
  rw [hlease, Option.any_some]
  unfold Lease.moved
  by_cases hhere : s.story.pointer = .here
  · rw [hhere] at hflags ⊢
    rw [hflags.of_here.1, Option.isSome_none, if_neg Bool.false_ne_true]
    cases lease.crossing start stop <;> simp
  · have hexited : lease.exited.isSome = true := by
      generalize s.story.pointer = pointer at hflags hhere
      generalize lease.exited = exited at hflags
      generalize lease.delivered = delivered at hflags
      cases hflags with
      | here => exact absurd rfl hhere
      | left | told => rfl
    rw [if_pos hexited]
    simp [hhere]

/-- **A cursor at rest** after the peer kept the pointer is not reported, and stays kept. -/
theorem Sound.rests (h : s.Sound) (hlease : s.lease = some lease) (hkept : s.story.kept = true)
    {cursor : CursorPosition} (hedge : (lease.atEdge cursor).isSome = true)
    (hcrossing : lease.crossing lease.sampled cursor = none) :
    (s.sample cursor).story = s.story := by
  obtain ⟨hhere, hresting⟩ := h.kept hkept
  rw [hlease, Option.any_some] at hresting
  have hexited := (hhere ▸ h.flags lease hlease).of_here.1
  obtain ⟨edge, hedge⟩ := Option.isSome_iff_exists.mp hedge
  have hnone := Lease.sample_resting hexited hresting hedge hcrossing
  unfold Server.sample
  rw [hlease]
  dsimp only
  split
  · rename_i exit_ next hsample
    rw [hsample] at hnone
    cases hnone
  · show { s.story with kept := s.story.kept && (lease.atEdge cursor).isSome } = s.story
    rw [hedge, Option.isSome_some, Bool.and_true]

section Peers

variable [DecidableEq P]

/-- While a handoff is recorded, none begins. -/
theorem Sound.refused (h : s.Sound) (hlease : s.lease.isSome = true) (peer : P) (session : SessionId)
    (request : Prepare) (generation : Nat) (geometry : Except String Geometry) (current : Bool)
    (now : MonotonicTimeMicros) :
    s.prepare peer session request generation geometry current now = s := by
  obtain ⟨lease, hlease⟩ := Option.isSome_iff_exists.mp hlease
  have hrecorded := (h.recorded lease.holder).mpr (.inl (by rw [hlease]; rfl))
  unfold Server.prepare
  split
  · rfl
  split
  · rfl
  split
  · rfl
  · rename_i hbegin
    obtain ⟨-, hfree, -⟩ := Ownership.beginLease_eq_ok hbegin
    rw [hfree] at hrecorded
    cases hrecorded

/-- **A handoff that is not polled ends**: its check takes it out, and the call's three deeds give up the
lease, let go of everything and close the session. -/
theorem Sound.expires (h : s.Sound) (hlease : s.lease = some lease) {now : MonotonicTimeMicros}
    (hlate : now - s.story.polled ≥ Macos.lease.asMicros) (generation : Nat)
    (geometry : Option Geometry) : ∃ after : Server P, System.exec Server.step (.expire now generation geometry ::
        List.replicate 3 (.proceed s.endings.length)) s = some after ∧
      after.lease = none ∧ after.guarded.ownership.lease = none ∧
      after.desk = s.desk ++ [.releaseAll, .close lease.peer lease.session] := by
  have hexpire : ∃ next, lease.expire now generation geometry = (true, next) ∧
      next.holder = lease.holder := by
    have hlate : decide (now - lease.renewed ≥ Macos.lease.asMicros) = true := by
      rw [h.polled lease hlease]
      exact decide_eq_true hlate
    unfold Lease.expire
    rw [hlate]
    split
    · split <;> exact ⟨_, rfl, rfl⟩
    · exact ⟨_, rfl, rfl⟩
  obtain ⟨next, hexpire, hholder⟩ := hexpire
  have htaken : s.expire now generation geometry = s.takeOut .expired next := by
    unfold Server.expire
    rw [hlease]
    dsimp only
    rw [hexpire]
  obtain ⟨hpeer, hsession⟩ := Prod.mk.inj hholder
  refine ⟨{ s.takeOut .expired next with
    guarded := s.guarded.drop .lease
    endings := s.endings ++ [⟨next.holder, .expired, 3⟩]
    desk := s.desk ++ [.releaseAll, .close next.peer next.session] }, ?_, rfl, rfl, ?_⟩
  · show (some (s.expire now generation geometry)).bind (fun t => (t.proceed s.endings.length).bind
      fun t => (t.proceed s.endings.length).bind fun t => (t.proceed s.endings.length).bind some) = _
    rw [htaken]
    simp [Server.takeOut, Server.proceed, Cause.deeds, Lease.holder]
  · rw [hpeer, hsession]

/-! ## The exit protocol -/

/-- What the server keeps to, at any state. A call that ends a handoff takes it out before it drops its
lease, and `recorded` counts both. -/
structure Obeys (s : Server P) : Prop where
  recorded : ∀ holder, s.guarded.ownership.lease = some holder ↔
    s.lease.map Lease.holder = some holder ∨ ∃ ending ∈ s.endings, ending.has ∧ ending.holder = holder
  /-- Between the calls that end a handoff there is only the server's. -/
  settled : (∀ ending ∈ s.endings, ending.has = false) →
    s.guarded.ownership.lease = s.lease.map Lease.holder
  once : (s.story.answers.map Answer.push).Nodup
  /-- Until the Poll after the answer a move is dropped, and then only one that leaves. -/
  dropped : ∀ lease, s.lease = some lease → ∀ start stop, s.drops start stop = true ↔
    s.story.pointer ≠ .here ∨ (lease.crossing start stop).isSome = true
  rests : ∀ lease cursor, s.lease = some lease → s.story.kept = true →
    (lease.atEdge cursor).isSome = true → lease.crossing lease.sampled cursor = none →
    (s.sample cursor).story = s.story
  reported : ∀ lease exit_, s.lease = some lease → lease.exited = some exit_ → Lies s.story.given exit_
  answered : ∀ answer ∈ s.story.answers, Lies answer.given (answer.exit, answer.position)
  /-- A request by no one that the handoff permits. -/
  stale : ∀ peer session token, s.lease.all (fun lease => !lease.permits peer session token) = true →
    s.finish peer session token = s ∧ ∀ now, s.poll peer session token now = s
  /-- Another Prepare, of this session or of another. -/
  refused : s.lease.isSome = true → ∀ peer session request generation geometry current now,
    s.prepare peer session request generation geometry current now = s
  /-- A Poll that waited past its handoff. -/
  outlived : ∀ (index : Nat) session token, s.polls[index]? = some (session, token) →
    s.lease.all (fun lease => lease.session ≠ session ∨ lease.token ≠ token) = true →
    s.answer index = some { s with polls := s.polls.eraseIdx index }
  expires : ∀ lease now generation geometry, s.lease = some lease →
    now - s.story.polled ≥ Macos.lease.asMicros → ∃ after : Server P,
      System.exec Server.step (.expire now generation geometry ::
        List.replicate 3 (.proceed s.endings.length)) s = some after ∧
      after.lease = none ∧ after.guarded.ownership.lease = none ∧
      after.desk = s.desk ++ [.releaseAll, .close lease.peer lease.session]

theorem stale_unchanged {peer : P} {session : SessionId} {token : Nat}
    (h : s.lease.all (fun lease => !lease.permits peer session token) = true) :
    s.finish peer session token = s ∧ ∀ now, s.poll peer session token now = s := by
  unfold Server.finish Server.poll
  cases hlease : s.lease with
  | none => exact ⟨rfl, fun _ => rfl⟩
  | some lease =>
    rw [hlease, Option.all_some, Bool.not_eq_true'] at h
    dsimp only
    rw [h]
    exact ⟨rfl, fun _ => rfl⟩

theorem answer_outlived {index : Nat} {session : SessionId} {token : Nat}
    (hpoll : s.polls[index]? = some (session, token))
    (h : s.lease.all (fun lease => lease.session ≠ session ∨ lease.token ≠ token) = true) :
    s.answer index = some { s with polls := s.polls.eraseIdx index } := by
  unfold Server.answer
  rw [hpoll]
  cases hlease : s.lease with
  | none => simp
  | some lease =>
    rw [hlease, Option.all_some, decide_eq_true_iff] at h
    simp [h]

/-- **Exits are told once.** Every state of the server, from its start on and whatever calls interleave,
keeps to the exit protocol. -/
theorem exits_told (s : Server P) (h : Server.step.Reaches (fun _ _ => True) Server.start s) : s.Obeys := by
  have hsound : s.Sound := h.invariant Sound.start fun _ label _ hs _ hstep => hs.step label hstep
  constructor
  · exact hsound.recorded
  · exact hsound.settled
  · exact hsound.once
  · intro lease hlease start stop
    exact hsound.dropped hlease start stop
  · intro lease cursor hlease hkept hedge hcrossing
    exact hsound.rests hlease hkept hedge hcrossing
  · exact hsound.lies
  · intro answer hmem
    exact (hsound.answers answer hmem).2.2
  · intro peer session token hstale
    exact stale_unchanged hstale
  · intro hlease peer session request generation geometry current now
    exact hsound.refused hlease peer session request generation geometry current now
  · intro index session token hpoll houtlived
    exact answer_outlived hpoll houtlived
  · intro lease now generation geometry hlease hlate
    exact hsound.expires hlease hlate generation geometry

end Peers

/-! ### A handoff -/

/-- One display, with a way off to the right. -/
def oneDisplay : Geometry := ⟨[⟨0, 0, 100, 100⟩], []⟩

def enters : HandoffStep (Fin 2) :=
  .prepare 0 10 ⟨none, 1, .left, 0, 1000000, 500000, [⟨none, .right, 0, 1000000⟩]⟩ 0 (.ok oneDisplay) true 0

/-- The peer pushes the pointer out, a Poll answers that, and the peer polls again. -/
def keptSteps : List (HandoffStep (Fin 2)) :=
  [enters, .poll 0 10 1 100, .moved ⟨98, 50⟩ ⟨101, 50⟩, .answer 0, .poll 0 10 1 200, .sample ⟨99, 50⟩]

/-- In that handoff the pointer was told out once, and rests on the exit's edge. -/
theorem exits_told_kept : ∃ s : Server (Fin 2), s.story.kept = true ∧ s.story.answers.length = 1 ∧
    s.Obeys := by
  have hrun : ((Server.step.guarded fun _ _ => True).exec keptSteps Server.start).any (fun s =>
      s.story.kept = true ∧ s.story.answers.length = 1) = true := by decide +kernel
  obtain ⟨s, hreaches, hfacts⟩ := System.exists_reaches_of_exec hrun
  obtain ⟨hkept, hanswers⟩ := of_decide_eq_true hfacts
  exact ⟨s, hkept, hanswers, exits_told s hreaches⟩

/-- **A handoff that is over drops nothing**, though its exit was never answered, and until the call that
ended it goes on Ownership records it still. -/
theorem finish_between : ∃ s : Server (Fin 2),
    System.exec Server.step [enters, .moved ⟨98, 50⟩ ⟨101, 50⟩, .finish 0 10 1] Server.start = some s ∧
    s.lease = none ∧ s.guarded.ownership.lease = some (0, 10) ∧
    s.story.pushes = 1 ∧ s.story.answers = [] ∧ s.drops ⟨97, 50⟩ ⟨98, 50⟩ = false := by
  have hrun : (System.exec Server.step [enters, .moved ⟨98, 50⟩ ⟨101, 50⟩, .finish 0 10 1]
      Server.start).any (fun s => s.lease.isNone ∧ s.guarded.ownership.lease = some (0, 10) ∧
        s.story.pushes = 1 ∧ s.story.answers.isEmpty ∧ s.drops ⟨97, 50⟩ ⟨98, 50⟩ = false) = true := by
    decide +kernel
  obtain ⟨s, hs, hfacts⟩ := Option.any_eq_true _ _ |>.mp hrun
  obtain ⟨hlease, howner, hpushes, hanswers, hdrops⟩ := of_decide_eq_true hfacts
  exact ⟨s, hs, Option.isNone_iff_eq_none.mp hlease, howner, hpushes, List.isEmpty_iff.mp hanswers, hdrops⟩

end Server

end Zflow.Macos
