import Mathlib.Data.Finset.Card
import Zflow.Pairing.Neighbors

/-!
# A stranger's key is proven where it is said to be

What the tables of the computers around this one say of a record, how full they get, and how many
hellos are answered. A record's key comes from a reply to a hello that this computer sent; the reply is
from an address the record still lists as long as no other addresses came under the record's name since
(`Keeps`).
-/

namespace Zflow.Pairing

open Lib

namespace Neighbors

variable {around : Neighbors} {now : Instant}

/-! ## What each operation does to a record -/

/-- What an event can do to a record: `old` is the record before it, `puts` the addresses that the event
lists under its name, `proves` the key of a reply to it. -/
inductive Becomes (old : Option Instance) (puts : Option (List SocketAddr)) (proves : Option String)
    (known : Instance) : Prop
  | kept (was : Instance) (hold : old = some was) (haddresses : known.addresses = was.addresses)
    (hkey : known.key = was.key) : Becomes old puts proves known
  | listed (hputs : puts = some known.addresses)
    (hkey : known.key = none ∨ ∃ was, old = some was ∧ known.key = was.key) :
    Becomes old puts proves known
  | proved (was : Instance) (hold : old = some was) (haddresses : known.addresses = was.addresses)
    (hkey : known.key = proves) (hsome : proves.isSome) : Becomes old puts proves known

variable {puts : Option (List SocketAddr)} {proves : Option String} {id : String} {known : Instance}

theorem Becomes.same (h : around.instances[id]? = some known) : Becomes around.instances[id]? puts proves known :=
  .kept known h rfl rfl

/-- A record's addresses are those it had, or those that the event lists. -/
theorem Becomes.addresses {old : Option Instance} (h : Becomes old puts proves known) :
    (∃ was, old = some was ∧ known.addresses = was.addresses) ∨ puts = some known.addresses := by
  cases h with
  | kept was hold haddresses _ => exact .inl ⟨was, hold, haddresses⟩
  | listed hputs _ => exact .inr hputs
  | proved was hold haddresses _ _ => exact .inl ⟨was, hold, haddresses⟩

theorem Becomes.of_erase {gone : String} (h : (around.instances.erase gone)[id]? = some known) :
    Becomes around.instances[id]? puts proves known := by
  rw [Std.ExtTreeMap.getElem?_erase] at h
  split at h
  · cases h
  · exact .same h

theorem setOwnRecord_becomes (instance_ : Option String)
    (h : (around.setOwnRecord instance_).instances[id]? = some known) :
    Becomes around.instances[id]? puts proves known := by
  cases instance_ with
  | none => exact .same h
  | some own => exact .of_erase h

theorem instanceSeen_becomes (seen : String) (addresses : List SocketAddr) (compatible : Bool)
    (name : Option String) (h : (around.instanceSeen seen addresses compatible name).instances[id]? = some known) :
    Becomes around.instances[id]? (if seen = id then some addresses else none) proves known := by
  unfold instanceSeen at h
  split at h
  · exact .same h
  · split at h
    · rename_i was hwas
      rw [Std.ExtTreeMap.getElem?_insert] at h
      split at h
      · rename_i hid
        obtain rfl := Std.compare_eq_iff_eq.mp hid
        cases h
        exact .listed (if_pos rfl) (.inr ⟨was, hwas, rfl⟩)
      · exact .same h
    · split at h
      · exact .same h
      · rw [Std.ExtTreeMap.getElem?_insert] at h
        split at h
        · rename_i hid
          obtain rfl := Std.compare_eq_iff_eq.mp hid
          cases h
          exact .listed (if_pos rfl) (.inl rfl)
        · exact .same h

theorem instanceGone_becomes (gone : String) (h : (around.instanceGone gone now).instances[id]? = some known) :
    Becomes around.instances[id]? puts proves known :=
  .of_erase h

theorem addAddress_becomes (address : SocketAddr) (h : (around.addAddress address).instances[id]? = some known) :
    Becomes around.instances[id]? (if addressId address = id then some [address] else none) proves
      known := by
  simp only [addAddress] at h
  rw [Std.ExtTreeMap.getElem?_insert] at h
  split at h
  · rename_i hid
    obtain rfl := Std.compare_eq_iff_eq.mp hid
    cases h
    exact .listed (if_pos rfl) (.inl rfl)
  · split at h
    · cases hhead : (around.added.filter (· ≠ addressId address) ++ [addressId address]).head? with
      | none =>
        rw [hhead] at h
        exact .same h
      | some oldest =>
        rw [hhead] at h
        exact .of_erase h
    · exact .same h

theorem keepFresh_becomes (h : (around.keepFresh now).instances[id]? = some known) :
    Becomes around.instances[id]? puts proves known := by
  simp only [keepFresh, Std.ExtTreeMap.getElem?_map, Option.map_eq_some_iff] at h
  obtain ⟨was, hwas, rfl⟩ := h
  refine .kept was hwas ?_ ?_
  · split
    · split <;> rfl
    · rfl
  · split
    · split <;> rfl
    · rfl

/-! ### Taking the hellos that are due -/

/-- What taking hellos leaves as it was: each record keeps its key and its addresses, and what is asked
is what some record lists. -/
structure Took (around : Neighbors) (room : Nat)
    (taken : Std.ExtTreeMap String Instance × List Asked) : Prop where
  kept : ∀ (id : String) (known : Instance), taken.1[id]? = some known →
    ∃ was, around.instances[id]? = some was ∧ known.addresses = was.addresses ∧ known.key = was.key
  listed : ∀ asked ∈ taken.2, ∃ was, around.instances[asked.id]? = some was ∧
    asked.addresses = was.addresses
  room : taken.2.length ≤ room

variable {room : Nat}

theorem Took.takeDue {taken : Std.ExtTreeMap String Instance × List Asked} (h : Took around room taken)
    {entry : String × Instance} (hentry : around.instances[entry.1]? = some entry.2) :
    Took around room (takeDue room now taken entry) := by
  unfold Neighbors.takeDue
  by_cases hroom : taken.2.length = room
  · simp only [hroom, if_true]
    exact h
  · simp only [hroom, if_false]
    cases Asking.due? now entry.2.asking with
    | none => exact h
    | some unanswered =>
      by_cases hcompatible : entry.2.compatible = true
      · simp only [hcompatible, if_true]
        refine ⟨fun id known hknown => ?_, fun asked hasked => ?_, ?_⟩
        · rw [Std.ExtTreeMap.getElem?_insert] at hknown
          split at hknown
          · rename_i hid
            obtain rfl := Std.compare_eq_iff_eq.mp hid
            cases hknown
            exact ⟨entry.2, hentry, rfl, rfl⟩
          · exact h.kept id known hknown
        · rcases List.mem_append.mp hasked with hbefore | hnew
          · exact h.listed asked hbefore
          · rw [List.mem_singleton.mp hnew]
            exact ⟨entry.2, hentry, rfl⟩
        · have hle := h.room
          rw [List.length_append, List.length_singleton]
          omega
      · simp only [hcompatible]
        exact h

theorem took_foldl {entries : List (String × Instance)}
    (hentries : ∀ entry ∈ entries, around.instances[entry.1]? = some entry.2)
    {taken : Std.ExtTreeMap String Instance × List Asked} (h : Took around room taken) :
    Took around room (entries.foldl (Neighbors.takeDue room now) taken) := by
  induction entries generalizing taken with
  | nil => exact h
  | cons entry rest ih =>
    rw [List.foldl_cons]
    exact ih (fun other hother => hentries other (List.mem_cons_of_mem _ hother))
      (h.takeDue (hentries entry List.mem_cons_self))

theorem took_takeDueHellos (around : Neighbors) (room : Nat) (now : Instant) : Took around room
      ((around.takeDueHellos room now).1.instances, (around.takeDueHellos room now).2) := by
  refine took_foldl (fun entry hentry => Std.ExtTreeMap.mem_toList_iff_getElem?_eq_some.mp hentry) ?_
  exact ⟨fun _ known hknown => ⟨known, hknown, rfl, rfl⟩,
    fun _ hasked => absurd hasked List.not_mem_nil, Nat.zero_le room⟩

theorem takeDueHellos_becomes (h : (around.takeDueHellos room now).1.instances[id]? = some known) :
    Becomes around.instances[id]? puts proves known := by
  obtain ⟨was, hwas, haddresses, hkey⟩ := (took_takeDueHellos around room now).kept id known h
  exact .kept was hwas haddresses hkey

/-! ### Answers -/

theorem noAnswer_becomes (asked : String) (h : (around.noAnswer asked now).instances[id]? = some known) :
    Becomes around.instances[id]? puts proves known := by
  unfold noAnswer at h
  split at h
  · exact .same h
  · rename_i was hwas
    split at h
    · rw [Std.ExtTreeMap.getElem?_insert] at h
      split at h
      · rename_i hid
        obtain rfl := Std.compare_eq_iff_eq.mp hid
        cases h
        exact .kept was hwas rfl rfl
      · exact .same h
    · exact .same h

theorem mapKey_becomes (replied : Option String) (key : String)
    (h : (around.mapKey replied key now).instances[id]? = some known) :
    Becomes around.instances[id]? puts (if replied = some id then some key else none) known := by
  cases replied with
  | none => exact .same h
  | some replied =>
    simp only [mapKey, Std.ExtTreeMap.getElem?_alter] at h
    split at h
    · rename_i hid
      obtain rfl := Std.compare_eq_iff_eq.mp hid
      obtain ⟨was, hwas, rfl⟩ := Option.map_eq_some_iff.mp h
      exact .proved was hwas rfl (by simp) (by simp)
    · exact .same h

/-- **What a hello does** once its key is mapped: it is this computer's own, it finds no room, or its
computer is written down. -/
inductive Hears (mapped : Neighbors) (key : String) (now : Instant) : Neighbors → Prop
  | own (hown : key = mapped.own) : Hears mapped key now mapped
  | full (hcrowded : Around.crowded mapped key now = true) :
    Hears mapped key now (mapped.expire now).turnedOneAway
  | learned (neighbor : Neighbor) (hother : key ≠ mapped.own)
    (hroom : Around.crowded mapped key now = false) :
    Hears mapped key now
      { mapped.expire now with neighbors := (mapped.expire now).neighbors.insert key neighbor }

theorem hello_hears (sha256 : List (BitVec 8) → List (BitVec 8)) (spki : List (BitVec 8))
    (remote : SocketAddr) (said : Hello) (replied : Option String) :
    Hears (around.mapKey replied (fingerprint sha256 spki) now) (fingerprint sha256 spki) now
      (around.hello sha256 spki remote said replied now).1 := by
  simp only [hello]
  split
  · rename_i hown
    exact .own hown
  · rename_i hown
    split
    · rename_i hfull
      exact .full (by simpa [Around.crowded, hown] using hfull)
    · rename_i hroom
      exact .learned _ hown (by simpa [Around.crowded, hown] using hroom)

namespace Hears

variable {mapped heard : Neighbors} {key : String}

theorem instances (h : Hears mapped key now heard) : heard.instances = mapped.instances := by
  cases h <;> rfl

theorem hellos (h : Hears mapped key now heard) : heard.hellos = mapped.hellos := by cases h <;> rfl

end Hears

/-! ## How full the tables get -/

/-- The records that nobody added by hand. -/
def found (around : Neighbors) : Finset String :=
  around.instances.keys.toFinset \ around.added.toFinset

theorem mem_found {id : String} : id ∈ around.found ↔ id ∈ around.instances ∧ id ∉ around.added := by
  simp [found, Std.ExtTreeMap.mem_keys]

theorem card_found_le : around.found.card ≤ around.instances.size :=
  calc around.found.card ≤ around.instances.keys.toFinset.card := Finset.card_le_card Finset.sdiff_subset
    _ ≤ around.instances.keys.length := List.toFinset_card_le _
    _ = around.instances.size := Std.ExtTreeMap.length_keys

/-- The tables keep to their bounds; the records of added addresses come on top of the found ones. -/
structure Bounded (around : Neighbors) : Prop where
  neighbors : around.neighbors.size ≤ maxNeighbors
  added : around.added.length ≤ maxAdded
  found : around.found.card ≤ maxInstances
  hellos : around.hellos.size ≤ maxTrackedIps

namespace Bounded

theorem instances (h : Bounded around) : around.instances.size ≤ maxInstances + maxAdded := by
  have hsubset : around.instances.keys.toFinset ⊆ around.found ∪ around.added.toFinset := by
    intro id hid
    rw [Finset.mem_union, mem_found, List.mem_toFinset]
    rw [List.mem_toFinset, Std.ExtTreeMap.mem_keys] at hid
    tauto
  calc around.instances.size = around.instances.keys.length := Std.ExtTreeMap.length_keys.symm
    _ = around.instances.keys.toFinset.card :=
      (List.toFinset_card_of_nodup Std.ExtTreeMap.nodup_keys).symm
    _ ≤ (around.found ∪ around.added.toFinset).card := Finset.card_le_card hsubset
    _ ≤ around.found.card + around.added.toFinset.card := Finset.card_union_le _ _
    _ ≤ maxInstances + maxAdded :=
      Nat.add_le_add h.found ((List.toFinset_card_le _).trans h.added)

variable {after : Neighbors}

/-- An event that lists no record and changes no other table. -/
theorem of_instances (h : Bounded around) (hneighbors : after.neighbors.size ≤ around.neighbors.size)
    (hadded : after.added = around.added) (hhellos : after.hellos = around.hellos)
    (hinstances : ∀ id ∈ after.instances, id ∈ around.instances) : Bounded after where
  neighbors := hneighbors.trans h.neighbors
  added := hadded ▸ h.added
  hellos := hhellos ▸ h.hellos
  found := by
    refine (Finset.card_le_card fun id hid => ?_).trans h.found
    rw [mem_found, hadded] at hid
    exact mem_found.mpr ⟨hinstances id hid.1, hid.2⟩

theorem of_becomes (h : Bounded around) (hneighbors : after.neighbors.size ≤ around.neighbors.size)
    (hadded : after.added = around.added) (hhellos : after.hellos = around.hellos)
    (hbecomes : ∀ (id : String) (known : Instance), after.instances[id]? = some known →
      ∃ proves, Becomes around.instances[id]? none proves known) : Bounded after := by
  refine h.of_instances hneighbors hadded hhellos fun id hid => ?_
  obtain ⟨known, hknown⟩ := Option.isSome_iff_exists.mp (Std.ExtTreeMap.mem_iff_isSome_getElem?.mp hid)
  rw [Std.ExtTreeMap.mem_iff_isSome_getElem?]
  obtain ⟨proves, hbecomes⟩ := hbecomes id known hknown
  cases hbecomes with
  | kept was hold _ _ => exact hold ▸ rfl
  | listed hputs _ => cases hputs
  | proved was hold _ _ _ => exact hold ▸ rfl

theorem instanceSeen (h : Bounded around) (id : String) (addresses : List SocketAddr)
    (compatible : Bool) (name : Option String) : Bounded (around.instanceSeen id addresses compatible name) := by
  unfold Neighbors.instanceSeen
  split
  · exact h
  · split
    · rename_i known hknown
      refine h.of_instances le_rfl rfl rfl fun other hother => ?_
      rcases Std.ExtTreeMap.mem_insert.mp hother with hsame | hother
      · rw [← Std.compare_eq_iff_eq.mp hsame, Std.ExtTreeMap.mem_iff_isSome_getElem?, hknown]
        rfl
      · exact hother
    · split
      · exact ⟨h.neighbors, h.added, h.found, h.hellos⟩
      · rename_i hroom
        refine ⟨h.neighbors, h.added, card_found_le.trans ?_, h.hellos⟩
        refine Std.ExtTreeMap.size_insert_le.trans ?_
        omega

theorem instanceGone (h : Bounded around) (id : String) (now : Instant) : Bounded (around.instanceGone id now) := by
  refine h.of_instances ?_ rfl rfl fun other hother => Std.ExtTreeMap.mem_of_mem_erase hother
  simp only [Neighbors.instanceGone]
  split
  · rename_i key _
    rw [Std.ExtTreeMap.size_alter]
    split
    · omega
    · split
      · rename_i hnew
        rw [Std.ExtTreeMap.getElem?_eq_none hnew.1] at hnew
        exact absurd hnew.2 Bool.false_ne_true
      · exact le_rfl
  · exact le_rfl

/-- With the ninth address the oldest goes, and so does its record. -/
theorem addAddress (h : Bounded around) (address : SocketAddr) : Bounded (around.addAddress address) := by
  simp only [Neighbors.addAddress]
  have hlen : (around.added.filter (· ≠ addressId address)).length ≤ maxAdded :=
    (List.length_filter_le _ _).trans h.added
  split
  · rename_i hfull
    cases hkept : around.added.filter (· ≠ addressId address) with
    | nil =>
      rw [hkept] at hfull
      simp [maxAdded] at hfull
    | cons oldest rest =>
      rw [hkept] at hlen
      simp only [List.cons_append, List.tail_cons, List.head?_cons, Option.elim]
      refine ⟨h.neighbors, by simpa using hlen, ?_, h.hellos⟩
      refine (Finset.card_le_card fun id hid => ?_).trans h.found
      rw [mem_found] at hid ⊢
      obtain ⟨hin, hout⟩ := hid
      simp only [List.mem_append, List.mem_singleton, not_or] at hout
      rcases Std.ExtTreeMap.mem_insert.mp hin with hsame | hin
      · exact absurd (Std.compare_eq_iff_eq.mp hsame).symm hout.2
      · obtain ⟨hne, hin⟩ := Std.ExtTreeMap.mem_erase.mp hin
        refine ⟨hin, fun hadded => ?_⟩
        have hmem : id ∈ around.added.filter (· ≠ addressId address) :=
          List.mem_filter.mpr ⟨hadded, by simpa using hout.2⟩
        rw [hkept, List.mem_cons] at hmem
        exact hmem.elim (fun heq => hne (Std.compare_eq_iff_eq.mpr heq.symm)) hout.1
  · rename_i hroom
    refine ⟨h.neighbors, Nat.not_lt.mp hroom, ?_, h.hellos⟩
    refine (Finset.card_le_card fun id hid => ?_).trans h.found
    rw [mem_found] at hid ⊢
    obtain ⟨hin, hout⟩ := hid
    simp only [List.mem_append, List.mem_singleton, not_or] at hout
    rcases Std.ExtTreeMap.mem_insert.mp hin with hsame | hin
    · exact absurd (Std.compare_eq_iff_eq.mp hsame).symm hout.2
    · exact ⟨hin, fun hadded => hout.1 (List.mem_filter.mpr ⟨hadded, by simpa using hout.2⟩)⟩

theorem allowHello (h : Bounded around) (ip : IpAddr) (local_ : List IpAddr) (now : Instant) :
    Bounded (around.allowHello ip local_ now).1 := by
  have htracked : (around.tracked now).size ≤ maxTrackedIps :=
    Std.ExtTreeMap.size_filter_le_size.trans h.hellos
  simp only [Neighbors.allowHello]
  split
  · exact h
  · split
    · exact ⟨h.neighbors, h.added, h.found, htracked⟩
    · rename_i hroom
      refine ⟨h.neighbors, h.added, h.found, ?_⟩
      rw [Std.ExtTreeMap.size_insert]
      split
      · exact htracked
      · rename_i hnew
        simp [hnew] at hroom
        omega

theorem expire (h : Bounded around) (now : Instant) : Bounded (around.expire now) :=
  ⟨Std.ExtTreeMap.size_filter_le_size.trans h.neighbors, h.added, h.found, h.hellos⟩

theorem hears {heard : Neighbors} {key : String} {now : Instant} (h : Bounded around)
    (hhears : Hears around key now heard) : Bounded heard := by
  cases hhears with
  | own _ => exact h
  | full _ => exact ⟨(h.expire now).neighbors, h.added, h.found, h.hellos⟩
  | learned neighbor hother hroom =>
    refine ⟨?_, h.added, h.found, h.hellos⟩
    rw [Std.ExtTreeMap.size_insert]
    split
    · exact (h.expire now).neighbors
    · rename_i hnew
      simp [Around.crowded, hother, hnew] at hroom
      omega

end Bounded

/-! ## Being turned away -/

theorem instanceSeen_turnedAway (id : String) (addresses : List SocketAddr) (compatible : Bool)
    (name : Option String) : (around.instanceSeen id addresses compatible name).turnedAway = (around.turnedAway ||
      (around.ownRecord ≠ some id && !around.instances.contains id && maxInstances ≤ around.instances.size)) := by
  unfold instanceSeen
  by_cases hown : around.ownRecord = some id
  · simp [hown]
  · rw [if_neg hown]
    split
    · rename_i known hknown
      have hin : around.instances.contains id = true := by
        rw [Std.ExtTreeMap.contains_eq_isSome_getElem?, hknown]
        rfl
      simp [hin]
    · rename_i hnew
      have hout : around.instances.contains id = false := by
        rw [Std.ExtTreeMap.contains_eq_isSome_getElem?, hnew]
        rfl
      split
      · rename_i hfull
        simp [turnedOneAway, hown, hout, hfull]
      · rename_i hroom
        simp [hroom]

theorem allowHello_turnedAway (ip : IpAddr) (local_ : List IpAddr) :
    (around.allowHello ip local_ now).1.turnedAway = (around.turnedAway ||
      (!(ip.toCanonical.isLoopback || local_.contains ip.toCanonical) &&
        (!(around.tracked now).contains ip.toCanonical && maxTrackedIps ≤ (around.tracked now).size))) := by
  simp only [allowHello]
  split
  · rename_i hhere
    simp only [hhere, Bool.not_true, Bool.false_and, Bool.or_false]
  · rename_i hhere
    simp only [Bool.not_eq_true] at hhere
    split
    · rename_i hfull
      rw [hfull, hhere]
      simp [turnedOneAway]
    · rename_i hroom
      simp [hroom]

theorem Hears.turnedAway {mapped heard : Neighbors} {key : String} (h : Hears mapped key now heard) :
    heard.turnedAway = (mapped.turnedAway || Around.crowded mapped key now) := by
  cases h with
  | own hown => simp [Around.crowded, hown]
  | full hcrowded => simp [turnedOneAway, hcrowded]
  | learned neighbor _ hroom => simp [expire, hroom]

end Neighbors

/-! ## What an event does -/

namespace Around

open Neighbors

/-- The addresses that an event lists under a record's name. -/
def puts (id : String) : Event → Option (List SocketAddr)
  | .instanceSeen seen addresses _ _ => if seen = id then some addresses else none
  | .addAddress address => if addressId address = id then some [address] else none
  | _ => none

/-- The key that an event proves for a record. -/
def proves (sha256 : List (BitVec 8) → List (BitVec 8)) (id : String) : Event → Option String
  | .reply asked _ spki _ => if asked.id = id then some (fingerprint sha256 spki) else none
  | _ => none

section Act

variable (sha256 : List (BitVec 8) → List (BitVec 8)) {tables : Neighbors} {now : Nat}

theorem act_becomes {event : Event} {id : String} {known : Instance}
    (h : (act sha256 tables now event).instances[id]? = some known) :
    Becomes tables.instances[id]? (puts id event) (proves sha256 id event) known := by
  cases event with
  | ownRecord instance_ => exact setOwnRecord_becomes instance_ h
  | turnedOneAway => exact .same h
  | instanceSeen seen addresses compatible name =>
    exact instanceSeen_becomes seen addresses compatible name h
  | instanceGone gone => exact instanceGone_becomes gone h
  | addAddress address => exact addAddress_becomes address h
  | keepFresh => exact keepFresh_becomes h
  | takeDueHellos room => exact takeDueHellos_becomes h
  | reply asked remote spki said =>
    simp only [act] at h
    rw [(hello_hears sha256 spki remote said (some asked.id)).instances] at h
    simpa only [puts, proves, Option.some.injEq] using mapKey_becomes (some asked.id) (fingerprint sha256 spki) h
  | noAnswer asked => exact noAnswer_becomes asked.id h
  | lost asked => exact .same h
  | allowHello ip local_ =>
    simp only [act, allowHello] at h
    split at h
    · exact .same h
    · split at h
      · exact .same h
      · exact .same h
  | heard remote spki said =>
    simp only [act] at h
    rw [(hello_hears sha256 spki remote said none).instances] at h
    exact .same h
  | expire => exact .same h

theorem act_bounded (h : Bounded tables) (event : Event) : Bounded (act sha256 tables now event) := by
  cases event with
  | ownRecord instance_ =>
    refine h.of_becomes le_rfl rfl rfl fun id known hknown => ⟨none, ?_⟩
    exact setOwnRecord_becomes instance_ hknown
  | turnedOneAway => exact ⟨h.neighbors, h.added, h.found, h.hellos⟩
  | instanceSeen seen addresses compatible name => exact h.instanceSeen seen addresses compatible name
  | instanceGone gone => exact h.instanceGone gone now
  | addAddress address => exact h.addAddress address
  | keepFresh => exact h.of_becomes le_rfl rfl rfl fun id known hknown => ⟨none, keepFresh_becomes hknown⟩
  | takeDueHellos room =>
    refine h.of_becomes le_rfl rfl rfl fun id known hknown => ⟨none, ?_⟩
    exact takeDueHellos_becomes hknown
  | reply asked remote spki said =>
    refine Bounded.hears ?_ (hello_hears sha256 spki remote said (some asked.id))
    exact h.of_becomes le_rfl rfl rfl fun id known hknown =>
      ⟨_, mapKey_becomes (some asked.id) (fingerprint sha256 spki) hknown⟩
  | noAnswer asked =>
    have hkeeps : (tables.noAnswer asked.id now).neighbors = tables.neighbors ∧
        (tables.noAnswer asked.id now).added = tables.added ∧
        (tables.noAnswer asked.id now).hellos = tables.hellos := by
      unfold noAnswer
      split
      · exact ⟨rfl, rfl, rfl⟩
      · split <;> exact ⟨rfl, rfl, rfl⟩
    refine h.of_becomes (hkeeps.1 ▸ le_rfl) hkeeps.2.1 hkeeps.2.2 fun id known hknown => ⟨none, ?_⟩
    exact noAnswer_becomes asked.id hknown
  | lost asked => exact h
  | allowHello ip local_ => exact h.allowHello ip local_ now
  | heard remote spki said =>
    exact h.hears (hello_hears sha256 spki remote said none)
  | expire => exact h.expire now

/-- Something is turned away exactly when an event finds a table full. -/
theorem act_turnedAway (event : Event) :
    (act sha256 tables now event).turnedAway = (tables.turnedAway || drops sha256 tables now event) := by
  cases event with
  | turnedOneAway => simp [act, drops, Neighbors.turnedOneAway]
  | instanceSeen seen addresses compatible name =>
    exact instanceSeen_turnedAway seen addresses compatible name
  | reply asked remote spki said => exact (hello_hears sha256 spki remote said (some asked.id)).turnedAway
  | noAnswer asked =>
    simp only [act, drops, Bool.or_false, Neighbors.noAnswer]
    split
    · rfl
    · split <;> rfl
  | allowHello ip local_ => exact allowHello_turnedAway ip local_
  | heard remote spki said => exact (hello_hears sha256 spki remote said none).turnedAway
  | _ => exact (Bool.or_false _).symm

end Act

/-! ## How many hellos are answered

A counter of 32 bits, so the bound grows by what it answers when it wraps. -/

/-- How many hellos came in from an address, from some moment on. -/
def asked (world : Around) (ip : IpAddr) (since : Nat) : Nat :=
  world.cameIn.countP fun came => came.ip = ip && since ≤ came.now

/-- How many of them were answered. -/
def answered (world : Around) (ip : IpAddr) (since : Nat) : Nat :=
  world.cameIn.countP fun came => came.ip = ip && since ≤ came.now && came.answered

/-- What a counter says of the hellos that came in and of those answered. -/
def Counts (asked answered : Nat) (count : UInt32) : Prop :=
  ∃ n ≤ asked, count.toNat = n % 2 ^ 32 ∧ answered ≤ 6 * (n / 2 ^ 32) + min (n % 2 ^ 32) 5

namespace Counts

variable {asked answered : Nat} {count : UInt32}

theorem none : Counts asked 0 0 := ⟨0, Nat.zero_le _, rfl, Nat.zero_le _⟩

theorem more {asked' : Nat} (h : Counts asked answered count) (hle : asked ≤ asked') :
    Counts asked' answered count := by
  obtain ⟨n, hn, hcount, hanswered⟩ := h
  exact ⟨n, hn.trans hle, hcount, hanswered⟩

/-- One more hello, which is answered while the counter is at most five. -/
theorem next (h : Counts asked answered count) :
    Counts (asked + 1) (answered + (decide (count + 1 ≤ hellosPerIp)).toNat) (count + 1) := by
  obtain ⟨n, hn, hcount, hanswered⟩ := h
  have hnext : (count + 1).toNat = (n + 1) % 2 ^ 32 := by
    rw [UInt32.toNat_add, hcount]
    simp
  refine ⟨n + 1, by omega, hnext, ?_⟩
  by_cases hfew : count + 1 ≤ hellosPerIp
  · have hfive : (n + 1) % 2 ^ 32 ≤ 5 := hnext ▸ UInt32.le_iff_toNat_le.mp hfew
    rw [decide_eq_true hfew, Bool.toNat_true]
    omega
  · have hmany : 5 < (n + 1) % 2 ^ 32 := by
      rw [← hnext]
      exact Nat.not_le.mp fun hle => hfew (UInt32.le_iff_toNat_le.mpr hle)
    rw [decide_eq_false hfew, Bool.toNat_false]
    omega

theorem bound (h : Counts asked answered count) : answered ≤ 5 + 6 * (asked / 2 ^ 32) := by
  obtain ⟨n, hn, hcount, hanswered⟩ := h
  have hdiv : n / 2 ^ 32 ≤ asked / 2 ^ 32 := Nat.div_le_div_right hn
  omega

end Counts

/-- The windows in which hellos are counted: each counts what came in since it began, and a hello
answered at this very moment is in a window that still runs. -/
structure Rated (world : Around) : Prop where
  past : ∀ came ∈ world.cameIn, came.now ≤ world.now
  began : ∀ (ip : IpAddr) (start : Nat) (count : UInt32),
    world.tables.hellos[ip]? = some (start, count) → start ≤ world.now
  counts : ∀ (ip : IpAddr) (start : Nat) (count : UInt32),
    world.tables.hellos[ip]? = some (start, count) →
      Counts (world.asked ip start) (world.answered ip start) count
  recent : ∀ came ∈ world.cameIn, came.answered = true → came.now < world.now ∨
    ∃ (start : Nat) (count : UInt32), world.tables.hellos[came.ip]? = some (start, count) ∧
      came.now - start < helloWindow

theorem tracked_eq_some {tables : Neighbors} {ip : IpAddr} {start now : Nat} {count : UInt32} :
    (tables.tracked now)[ip]? = some (start, count) ↔
      tables.hellos[ip]? = some (start, count) ∧ now - start < helloWindow := by
  simp [Neighbors.tracked, Option.filter_eq_some_iff]

namespace Rated

variable {world after : Around}

/-- Nothing came in. -/
theorem of_hellos (h : Rated world) (hnow : world.now ≤ after.now) (hcame : after.cameIn = world.cameIn)
    (hhellos : after.tables.hellos = world.tables.hellos) : Rated after where
  past came hin := (h.past came (hcame ▸ hin)).trans hnow
  began ip start count hip := (h.began ip start count (hhellos ▸ hip)).trans hnow
  counts ip start count hip := by
    have hcounts := h.counts ip start count (hhellos ▸ hip)
    unfold asked answered at hcounts ⊢
    rwa [hcame]
  recent came hin hanswered := by
    rw [hhellos]
    exact (h.recent came (hcame ▸ hin) hanswered).imp (fun hlt => hlt.trans_le hnow) id

theorem asked_append (came : CameIn) (hcame : after.cameIn = world.cameIn ++ [came]) (ip : IpAddr)
    (since : Nat) : after.asked ip since =
      world.asked ip since + (decide (came.ip = ip) && decide (since ≤ came.now)).toNat := by
  rw [asked, hcame, List.countP_append, List.countP_singleton]
  rcases (decide (came.ip = ip) && decide (since ≤ came.now)).eq_false_or_eq_true with hit | hit
  · rw [hit]
    rfl
  · rw [hit]
    rfl

theorem answered_append (came : CameIn) (hcame : after.cameIn = world.cameIn ++ [came]) (ip : IpAddr)
    (since : Nat) : after.answered ip since = world.answered ip since +
      (decide (came.ip = ip) && decide (since ≤ came.now) && came.answered).toNat := by
  rw [answered, hcame, List.countP_append, List.countP_singleton]
  rcases (decide (came.ip = ip) && decide (since ≤ came.now) && came.answered).eq_false_or_eq_true
    with hit | hit
  · rw [hit]
    rfl
  · rw [hit]
    rfl

/-- A hello came in and was turned away; the windows that ended may be gone. -/
theorem turned (h : Rated world) (came : CameIn) (hcame : after.cameIn = world.cameIn ++ [came])
    (hanswered : came.answered = false) (hthen : came.now = world.now) (hnow : after.now = world.now)
    (hold : ∀ (ip : IpAddr) (start : Nat) (count : UInt32),
      after.tables.hellos[ip]? = some (start, count) → world.tables.hellos[ip]? = some (start, count))
    (hrun : ∀ (ip : IpAddr) (start : Nat) (count : UInt32),
      world.tables.hellos[ip]? = some (start, count) → world.now - start < helloWindow →
        after.tables.hellos[ip]? = some (start, count)) : Rated after where
  past other hin := by
    rw [hcame, List.mem_append, List.mem_singleton] at hin
    rw [hnow]
    exact hin.elim (h.past other) fun heq => heq ▸ hthen.le
  began ip start count hip := hnow ▸ h.began ip start count (hold ip start count hip)
  counts ip start count hip := by
    rw [answered_append came hcame, asked_append came hcame, hanswered, Bool.and_false, Bool.toNat_false]
    exact (h.counts ip start count (hold ip start count hip)).more (Nat.le_add_right _ _)
  recent other hin hother := by
    rw [hcame, List.mem_append, List.mem_singleton] at hin
    rcases hin with hin | rfl
    · rw [hnow]
      rcases h.recent other hin hother with hlt | ⟨start, count, hip, hwindow⟩
      · exact .inl hlt
      · rcases Nat.lt_or_eq_of_le (h.past other hin) with hlt | heq
        · exact .inl hlt
        · exact .inr ⟨start, count, hrun other.ip start count hip (heq ▸ hwindow), hwindow⟩
    · exact absurd (hanswered.symm.trans hother) Bool.false_ne_true

/-- The window of an address, or a new one, as it is before one more hello. -/
theorem window (h : Rated world) (ip : IpAddr) {start : Nat} {count : UInt32}
    (hwindow : (world.tables.tracked world.now)[ip]?.getD (world.now, 0) = (start, count)) :
    start ≤ world.now ∧ world.now - start < helloWindow ∧
      Counts (world.asked ip start) (world.answered ip start) count := by
  cases htracked : (world.tables.tracked world.now)[ip]? with
  | some known =>
    obtain ⟨start', count'⟩ := known
    rw [htracked] at hwindow
    cases hwindow
    obtain ⟨hip, hruns⟩ := tracked_eq_some.mp htracked
    exact ⟨h.began ip _ _ hip, hruns, h.counts ip _ _ hip⟩
  | none =>
    rw [htracked] at hwindow
    cases hwindow
    refine ⟨le_rfl, by rw [Nat.sub_self]; decide, ?_⟩
    -- what was answered at this moment is in a window that runs, and none does
    have hnone : world.answered ip world.now = 0 := by
      rw [answered, List.countP_eq_zero]
      intro came hin hcounted
      simp only [Bool.and_eq_true, decide_eq_true_eq] at hcounted
      obtain ⟨⟨rfl, hsince⟩, hanswered⟩ := hcounted
      rcases h.recent came hin hanswered with hlt | ⟨start, count, hip, hruns⟩
      · exact absurd hlt (Nat.not_lt.mpr hsince)
      · have heq : came.now = world.now := le_antisymm (h.past came hin) hsince
        rw [tracked_eq_some.mpr ⟨hip, heq ▸ hruns⟩] at htracked
        cases htracked
    rw [hnone]
    exact .none

/-- A hello came in and was counted. -/
theorem counted (h : Rated world) (came : CameIn) (hcame : after.cameIn = world.cameIn ++ [came])
    (hthen : came.now = world.now) (hnow : after.now = world.now) {start : Nat} {count : UInt32}
    (hwindow : (world.tables.tracked world.now)[came.ip]?.getD (world.now, 0) = (start, count))
    (hanswered : came.answered = decide (count + 1 ≤ hellosPerIp))
    (hhellos : after.tables.hellos = (world.tables.tracked world.now).insert came.ip (start, count + 1)) :
    Rated after := by
  obtain ⟨hbegan, hruns, hcounts⟩ := h.window came.ip hwindow
  have hlookup (ip : IpAddr) : after.tables.hellos[ip]? =
      if came.ip = ip then some (start, count + 1) else (world.tables.tracked world.now)[ip]? := by
    rw [hhellos, Std.ExtTreeMap.getElem?_insert]
    simp only [Std.compare_eq_iff_eq]
  refine ⟨fun other hin => ?_, fun ip begin_ number hip => ?_, fun ip begin_ number hip => ?_,
    fun other hin hother => ?_⟩
  · rw [hcame, List.mem_append, List.mem_singleton] at hin
    rw [hnow]
    exact hin.elim (h.past other) fun heq => heq ▸ hthen.le
  · rw [hlookup] at hip
    rw [hnow]
    split at hip
    · cases hip
      exact hbegan
    · exact h.began ip begin_ number (tracked_eq_some.mp hip).1
  · rw [hlookup] at hip
    rw [answered_append came hcame, asked_append came hcame]
    split at hip
    · rename_i hsame
      subst hsame
      cases hip
      have hsince : start ≤ came.now := hthen ▸ hbegan
      simp only [hsince, decide_true, Bool.true_and, Bool.toNat_true, hanswered]
      exact hcounts.next
    · rename_i hother
      simp only [hother, decide_false, Bool.false_and, Bool.toNat_false, Nat.add_zero]
      exact h.counts ip begin_ number (tracked_eq_some.mp hip).1
  · rw [hcame, List.mem_append, List.mem_singleton] at hin
    rw [hnow]
    rcases hin with hin | rfl
    · rcases h.recent other hin hother with hlt | ⟨begin_, number, hip, hstill⟩
      · exact .inl hlt
      · rcases Nat.lt_or_eq_of_le (h.past other hin) with hlt | heq
        · exact .inl hlt
        · have htracked := tracked_eq_some.mpr ⟨hip, heq ▸ hstill⟩
          refine .inr ?_
          rw [hlookup]
          split
          · rename_i hsame
            rw [hsame, htracked] at hwindow
            cases hwindow
            exact ⟨_, _, rfl, hstill⟩
          · exact ⟨begin_, number, htracked, hstill⟩
    · refine .inr ⟨start, count + 1, ?_, hthen ▸ hruns⟩
      rw [hlookup, if_pos rfl]

end Rated

/-! ## What a step does -/

section Step

variable {sha256 : List (BitVec 8) → List (BitVec 8)} {world after : Around} {moment : Moment}

/-- A step that is taken: time goes on, and each part of the world has its own effect. -/
theorem of_step (h : step sha256 moment world = some after) :
    world.now ≤ moment.now ∧ world.fits moment.event = true ∧ after =
      { tables := act sha256 world.tables moment.now moment.event
        now := moment.now
        sent := world.sent ++ asks world.tables moment.now moment.event
        out := world.out.diff (settles moment.event) ++ asks world.tables moment.now moment.event
        replies := world.replies ++ answers sha256 moment.event
        cameIn := world.cameIn ++ comesIn world.tables moment.now moment.event
        dropped := world.dropped || drops sha256 world.tables moment.now moment.event } := by
  unfold step at h
  split at h
  · cases h
  · rename_i hgo
    simp only [Bool.or_eq_true, decide_eq_true_eq, Bool.not_eq_true', not_or, Bool.not_eq_false] at hgo
    exact ⟨Nat.not_lt.mp hgo.1, hgo.2, (Option.some.inj h).symm⟩

/-- Only a hello that comes in touches the windows. -/
theorem act_hellos {tables : Neighbors} {now : Nat} {event : Event}
    (hevent : comesIn tables now event = []) : (act sha256 tables now event).hellos = tables.hellos := by
  cases event with
  | instanceSeen seen addresses compatible name =>
    simp only [act, Neighbors.instanceSeen]
    split
    · rfl
    · split
      · rfl
      · split <;> rfl
  | reply asked remote spki said => exact (hello_hears sha256 spki remote said (some asked.id)).hellos
  | noAnswer asked =>
    simp only [act, Neighbors.noAnswer]
    split
    · rfl
    · split <;> rfl
  | allowHello ip local_ => cases hevent
  | heard remote spki said => exact (hello_hears sha256 spki remote said none).hellos
  | _ => rfl

theorem Rated.step (h : Rated world) (hstep : Around.step sha256 moment world = some after) :
    Rated after := by
  obtain ⟨hnow, hfits, rfl⟩ := of_step hstep
  obtain ⟨now, event⟩ := moment
  by_cases hquiet : comesIn world.tables now event = []
  · exact h.of_hellos hnow (by rw [hquiet, List.append_nil]) (act_hellos hquiet)
  · cases event with
    | allowHello ip local_ =>
      -- the moment comes first, so that the hello comes in at the present
      have hpresent : Rated { world with now } := h.of_hellos hnow rfl rfl
      simp only [act, comesIn, Neighbors.allowHello]
      split
      · exact hpresent.turned _ rfl rfl rfl rfl (fun _ _ _ hip => hip) fun _ _ _ hip _ => hip
      · split
        · refine hpresent.turned _ rfl rfl rfl rfl (fun _ _ _ hip => (tracked_eq_some.mp hip).1) ?_
          exact fun _ _ _ hip hruns => tracked_eq_some.mpr ⟨hip, hruns⟩
        · exact hpresent.counted ⟨ip.toCanonical, now, _⟩ rfl rfl rfl rfl rfl rfl
    | _ => exact absurd rfl hquiet

/-- The hellos an event sends ask what some record lists, and it lists none itself. -/
theorem listed_of_asks {tables : Neighbors} {now : Nat} {event : Event} {asked : Asked}
    (h : asked ∈ asks tables now event) :
    (∃ was, tables.instances[asked.id]? = some was ∧ asked.addresses = was.addresses) ∧
      ∀ id, puts id event = none := by
  cases event with
  | takeDueHellos room =>
    exact ⟨(took_takeDueHellos tables room now).listed asked h, fun _ => rfl⟩
  | _ => exact absurd h List.not_mem_nil

/-- An event that proves a key is the reply to a hello still out. -/
theorem reply_of_proves {id key : String} (hfits : world.fits moment.event = true)
    (h : proves sha256 id moment.event = some key) : ∃ (asked : Asked) (remote : SocketAddr),
      asked.id = id ∧ asked ∈ world.out ∧ remote ∈ asked.addresses ∧
        answers sha256 moment.event = [⟨asked, remote, key⟩] := by
  obtain ⟨now, event⟩ := moment
  cases event with
  | reply asked remote spki said =>
    simp only [proves] at h
    split at h
    · rename_i hid
      cases h
      simp only [fits, Bool.and_eq_true, decide_eq_true_eq, List.contains_iff_mem] at hfits
      exact ⟨asked, remote, hid, hfits.1, hfits.2, rfl⟩
    · cases h
  | _ => cases h

/-! ## Whose key a record has -/

/-- A hello that this computer sent to a record, at these addresses, was answered from one of them with
this key. -/
def AnsweredFrom (world : Around) (id : String) (addresses : List SocketAddr) (key : String) : Prop :=
  ∃ reply ∈ world.replies, reply.asked = ⟨id, addresses⟩ ∧ reply.key = key ∧
    reply.remote ∈ addresses ∧ reply.asked ∈ world.sent

theorem AnsweredFrom.step {id key : String} {addresses : List SocketAddr}
    (h : world.AnsweredFrom id addresses key) (hstep : Around.step sha256 moment world = some after) :
    after.AnsweredFrom id addresses key := by
  obtain ⟨-, -, rfl⟩ := of_step hstep
  obtain ⟨reply, hreply, hasked, hkey, hremote, hsent⟩ := h
  exact ⟨reply, List.mem_append_left _ hreply, hasked, hkey, hremote, List.mem_append_left _ hsent⟩

/-- What is out was sent, and each key comes from a reply. -/
structure Logged (world : Around) : Prop where
  sent : ∀ asked ∈ world.out, asked ∈ world.sent
  keys : ∀ (id : String) (known : Instance) (key : String), world.tables.instances[id]? = some known →
    known.key = some key → ∃ addresses, world.AnsweredFrom id addresses key

/-- The reply that a step logs. -/
theorem Logged.reply (h : Logged world) (hstep : Around.step sha256 moment world = some after)
    {id key : String} (hproves : proves sha256 id moment.event = some key) :
    ∃ addresses, (⟨id, addresses⟩ : Asked) ∈ world.out ∧ after.AnsweredFrom id addresses key := by
  obtain ⟨-, hfits, rfl⟩ := of_step hstep
  obtain ⟨⟨_, addresses⟩, remote, rfl, hout, hremote, hanswers⟩ := reply_of_proves hfits hproves
  refine ⟨addresses, hout, ⟨⟨_, addresses⟩, remote, key⟩, ?_, rfl, rfl, hremote, ?_⟩
  · rw [hanswers]
    exact List.mem_append_right _ List.mem_cons_self
  · exact List.mem_append_left _ (h.sent _ hout)

theorem Logged.step (h : Logged world) (hstep : Around.step sha256 moment world = some after) :
    Logged after := by
  obtain ⟨-, -, hafter⟩ := of_step hstep
  refine ⟨fun asked hasked => ?_, fun id known key hknown hkey => ?_⟩
  · subst hafter
    rcases List.mem_append.mp hasked with hout | hnew
    · exact List.mem_append_left _ (h.sent asked (List.diff_subset _ _ hout))
    · exact List.mem_append_right _ hnew
  · have hbecomes : Becomes world.tables.instances[id]? (puts id moment.event)
        (proves sha256 id moment.event) known := act_becomes sha256 (hafter ▸ hknown)
    cases hbecomes with
    | kept was hold _ hsame =>
      obtain ⟨addresses, hfrom⟩ := h.keys id was key hold (hsame ▸ hkey)
      exact ⟨addresses, hfrom.step hstep⟩
    | listed _ hwas =>
      rcases hwas with hnone | ⟨was, hold, hsame⟩
      · rw [hnone] at hkey
        cases hkey
      · obtain ⟨addresses, hfrom⟩ := h.keys id was key hold (hsame ▸ hkey)
        exact ⟨addresses, hfrom.step hstep⟩
    | proved was _ _ hproves _ =>
      obtain ⟨addresses, -, hfrom⟩ := h.reply hstep (hproves ▸ hkey)
      exact ⟨addresses, hfrom⟩

/-- **The condition.** No other addresses come under a record's name while the record has a key or a
hello to it is out. -/
def Keeps (id : String) (world : Around) (moment : Moment) : Prop :=
  ∀ addresses ∈ puts id moment.event,
    (∀ known ∈ world.tables.instances[id]?, known.key.isSome = true → known.addresses = addresses) ∧
      ∀ asked ∈ world.out, asked.id = id → asked.addresses = addresses

instance (id : String) (world : Around) (moment : Moment) : Decidable (Keeps id world moment) :=
  inferInstanceAs (Decidable (∀ addresses ∈ puts id moment.event,
    (∀ known ∈ world.tables.instances[id]?, known.key.isSome = true → known.addresses = addresses) ∧
      ∀ asked ∈ world.out, asked.id = id → asked.addresses = addresses))

/-- A record's key was answered from the addresses it lists, and hellos to it ask these. -/
structure Proven (id : String) (world : Around) : Prop where
  key : ∀ (known : Instance) (key : String), world.tables.instances[id]? = some known →
    known.key = some key → world.AnsweredFrom id known.addresses key
  out : ∀ asked ∈ world.out, asked.id = id → ∀ known : Instance,
    world.tables.instances[id]? = some known → asked.addresses = known.addresses

theorem Proven.step {id : String} (h : Proven id world) (hlogged : Logged world)
    (hkeeps : Keeps id world moment) (hstep : Around.step sha256 moment world = some after) :
    Proven id after := by
  obtain ⟨-, -, hafter⟩ := of_step hstep
  have hbecomes (known : Instance) (hknown : after.tables.instances[id]? = some known) :
      Becomes world.tables.instances[id]? (puts id moment.event) (proves sha256 id moment.event) known :=
    act_becomes sha256 (hafter ▸ hknown)
  refine ⟨fun known key hknown hkey => ?_, fun asked hasked hid known hknown => ?_⟩
  · cases hbecomes known hknown with
    | kept was hold haddresses hsame =>
      rw [haddresses]
      exact (h.key was key hold (hsame ▸ hkey)).step hstep
    | listed hputs hwas =>
      rcases hwas with hnone | ⟨was, hold, hsame⟩
      · rw [hnone] at hkey
        cases hkey
      · have hwas : was.key = some key := hsame ▸ hkey
        rw [← (hkeeps _ hputs).1 was hold (hwas ▸ rfl)]
        exact (h.key was key hold hwas).step hstep
    | proved was hold haddresses hproves _ =>
      obtain ⟨addresses, hout, hfrom⟩ := hlogged.reply hstep (hproves ▸ hkey)
      have hsame : addresses = was.addresses := h.out _ hout rfl was hold
      rwa [haddresses, ← hsame]
  · subst hafter
    rcases List.mem_append.mp hasked with hout | hnew
    · have hout := List.diff_subset _ _ hout
      rcases (hbecomes known hknown).addresses with ⟨was, hold, haddresses⟩ | hputs
      · exact (h.out asked hout hid was hold).trans haddresses.symm
      · exact (hkeeps _ hputs).2 asked hout hid
    · obtain ⟨⟨was, hwas, haddresses⟩, hquiet⟩ := listed_of_asks hnew
      rw [hid] at hwas
      rcases (hbecomes known hknown).addresses with ⟨other, hold, hsame⟩ | hputs
      · rw [hwas] at hold
        cases hold
        exact haddresses.trans hsame.symm
      · rw [hquiet id] at hputs
        cases hputs

end Step

/-! ## In every run -/

section Runs

variable {sha256 : List (BitVec 8) → List (BitVec 8)} {own : String} {world : Around}

theorem bounded_of_reaches (h : (step sha256).Reaches (fun _ _ => True) (start own) world) :
    Bounded world.tables := by
  refine h.invariant (I := fun world => Bounded world.tables) ?_ ?_
  · exact ⟨Nat.zero_le _, Nat.zero_le _, card_found_le.trans (Nat.zero_le _), Nat.zero_le _⟩
  · intro before moment after hbounded _ hstep
    obtain ⟨-, -, rfl⟩ := of_step hstep
    exact act_bounded sha256 hbounded moment.event

theorem rated_of_reaches (h : (step sha256).Reaches (fun _ _ => True) (start own) world) :
    Rated world := by
  refine h.invariant ?_ fun _ _ _ hrated _ hstep => hrated.step hstep
  exact ⟨fun _ hin => absurd hin List.not_mem_nil, fun _ _ _ hip => by simp [start, Neighbors.new] at hip,
    fun _ _ _ hip => by simp [start, Neighbors.new] at hip, fun _ hin => absurd hin List.not_mem_nil⟩

theorem turnedAway_of_reaches (h : (step sha256).Reaches (fun _ _ => True) (start own) world) :
    world.tables.turnedAway = world.dropped := by
  refine h.invariant (I := fun world => world.tables.turnedAway = world.dropped) rfl ?_
  intro before moment after hsame _ hstep
  obtain ⟨-, -, rfl⟩ := of_step hstep
  exact (act_turnedAway sha256 moment.event).trans (congrArg (· || _) hsame)

theorem logged_start : Logged (start own) :=
  ⟨fun _ hin => absurd hin List.not_mem_nil, fun _ _ _ hknown => by simp [start, Neighbors.new] at hknown⟩

theorem logged_of_reaches (h : (step sha256).Reaches (fun _ _ => True) (start own) world) : Logged world :=
  h.invariant logged_start fun _ _ _ hlogged _ hstep => hlogged.step hstep

theorem proven_of_reaches {id : String} (h : (step sha256).Reaches (Keeps id) (start own) world) :
    Proven id world := by
  have hboth : Logged world ∧ Proven id world := by
    refine h.invariant (I := fun world => Logged world ∧ Proven id world) ⟨logged_start, ?_⟩ ?_
    · exact ⟨fun _ _ hknown => by simp [start, Neighbors.new] at hknown,
        fun _ hin => absurd hin List.not_mem_nil⟩
    · exact fun _ _ _ hboth hkeeps hstep => ⟨hboth.1.step hstep, hboth.2.step hboth.1 hkeeps hstep⟩
  exact hboth.2

/-- Where a caller asks only for as many hellos as it has free slots, no more than its slots are out. -/
theorem out_le_of_reaches {slots : Nat} (h : (step sha256).Reaches (fun world moment =>
      ∀ room, moment.event = .takeDueHellos room → room + world.out.length ≤ slots) (start own) world) :
    world.out.length ≤ slots := by
  refine h.invariant (I := fun world => world.out.length ≤ slots) (Nat.zero_le _) ?_
  intro before moment after hslots hroom hstep
  obtain ⟨-, -, rfl⟩ := of_step hstep
  have hfewer : (before.out.diff (settles moment.event)).length ≤ before.out.length :=
    (List.diff_sublist _ _).length_le
  rw [List.length_append]
  obtain ⟨now, event⟩ := moment
  cases event with
  | takeDueHellos room =>
    have htaken := (took_takeDueHellos before.tables room now).room
    have hfree := hroom room rfl
    simp only [asks] at hfewer htaken ⊢
    omega
  | _ => simpa only [asks, List.length_nil, Nat.add_zero] using hfewer.trans hslots

theorem mapped_iff {tables : Neighbors} {key : String} : tables.mapped key = true ↔
    ∃ (id : String) (known : Instance), tables.instances[id]? = some known ∧ known.key = some key := by
  simp only [mapped, records, List.any_map, List.any_eq_true, Function.comp_apply, decide_eq_true_eq,
    Prod.exists, Std.ExtTreeMap.mem_toList_iff_getElem?_eq_some]

/-- A stranger counts as answered when some record maps to its key. -/
theorem answered_of_mem_strangersOf {tables : Neighbors} {peers : Peers} {now : Option Instant}
    {stranger : Stranger} (h : stranger ∈ tables.strangersOf peers now) :
    stranger.answered = tables.mapped stranger.key := by
  obtain ⟨entry, -, rfl⟩ := List.mem_map.mp h
  rfl

/-- A record without a key is unidentified where it is compatible. -/
theorem key_of_unidentified {tables : Neighbors} {peers : Peers} {now : Instant}
    (h : (tables.strangers peers now).unidentified = 0) {id : String} {known : Instance}
    (hknown : tables.instances[id]? = some known) (hcompatible : known.compatible = true) :
    ∃ key, known.key = some key := by
  have hin : known ∈ tables.records :=
    List.mem_map.mpr ⟨(id, known), Std.ExtTreeMap.mem_toList_iff_getElem?_eq_some.mpr hknown, rfl⟩
  have hidentified := List.countP_eq_zero.mp h known hin
  rw [hcompatible, Bool.true_and, Option.isNone_iff_eq_none] at hidentified
  exact Option.ne_none_iff_exists'.mp hidentified

end Runs

/-- **A stranger's key is proven.** In every run the tables keep to their bounds, few hellos of an
address are answered in a window, something was turned away exactly where a table was full, and the key
of a record, of a stranger that answered and of an introduced computer came in a reply to a hello this
computer sent, from an address that hello asked. Where no other addresses come under a record's name
while it has a key or a hello to it is out, these are the addresses it lists, and with no record
unidentified each compatible one was asked there and answered. -/
theorem keys_proven_where_listed (sha256 : List (BitVec 8) → List (BitVec 8)) (own : String) :
    (∀ world, (step sha256).Reaches (fun _ _ => True) (start own) world →
      Bounded world.tables ∧ world.tables.instances.size ≤ maxInstances + maxAdded ∧
      (∀ (ip : IpAddr) (start : Nat) (count : UInt32), world.tables.hellos[ip]? = some (start, count) →
          world.answered ip start ≤ 5 + 6 * (world.asked ip start / 2 ^ 32)) ∧
      world.tables.turnedAway = world.dropped ∧
      (∀ (id : String) (known : Instance) (key : String), world.tables.instances[id]? = some known →
        known.key = some key → ∃ addresses, world.AnsweredFrom id addresses key) ∧
      (∀ (peers : Peers) (now : Instant), ∀ stranger ∈ (world.tables.strangers peers now).present,
        stranger.answered = true → ∃ id addresses, world.AnsweredFrom id addresses stranger.key) ∧
      ∀ (peers : Peers) (tiles forgotten : List String), ∀ key ∈ world.tables.introduced peers tiles forgotten,
          ∃ id addresses, world.AnsweredFrom id addresses key) ∧
    (∀ id world, (step sha256).Reaches (Keeps id) (start own) world →
      ∀ known : Instance, world.tables.instances[id]? = some known →
        (∀ key, known.key = some key → world.AnsweredFrom id known.addresses key) ∧
        ∀ (peers : Peers) (now : Instant), (world.tables.strangers peers now).unidentified = 0 →
          known.compatible = true → ∃ key, known.key = some key ∧ world.AnsweredFrom id known.addresses key) ∧
    (∀ slots world, (step sha256).Reaches (fun world moment =>
        ∀ room, moment.event = .takeDueHellos room → room + world.out.length ≤ slots)
      (start own) world → world.out.length ≤ slots) := by
  refine ⟨fun world h => ?_, fun id world h known hknown => ?_, fun slots world => out_le_of_reaches⟩
  · have hbounded := bounded_of_reaches h
    have hlogged := logged_of_reaches h
    have hmapped (key : String) (hkey : world.tables.mapped key = true) :
        ∃ id addresses, world.AnsweredFrom id addresses key := by
      obtain ⟨id, known, hknown, hkey⟩ := mapped_iff.mp hkey
      exact ⟨id, hlogged.keys id known key hknown hkey⟩
    refine ⟨hbounded, hbounded.instances, fun ip start count hip => ?_, turnedAway_of_reaches h,
      hlogged.keys, fun peers now stranger hin hanswered => ?_, fun peers tiles forgotten key hin => ?_⟩
    · exact ((rated_of_reaches h).counts ip start count hip).bound
    · exact hmapped _ ((answered_of_mem_strangersOf hin).symm.trans hanswered)
    · obtain ⟨stranger, hstranger, rfl⟩ := List.mem_map.mp hin
      obtain ⟨hpresent, hmay⟩ := List.mem_filter.mp hstranger
      simp only [Bool.and_eq_true] at hmay
      exact hmapped _ ((answered_of_mem_strangersOf hpresent).symm.trans hmay.1.1)
  · have hproven := proven_of_reaches h
    refine ⟨fun key hkey => hproven.key known key hknown hkey, fun peers now hnone hcompatible => ?_⟩
    obtain ⟨key, hkey⟩ := key_of_unidentified hnone hknown hcompatible
    exact ⟨key, hkey, hproven.key known key hknown hkey⟩

/-- A desk is found, asked and answers; its hello comes from the address it lists. -/
def deskAnswers : List Moment :=
  let desk : SocketAddr := .v4 0xc0000207 43119
  let said : Hello := ⟨"desk", .linux, "1", 43119, []⟩
  [⟨0, .instanceSeen "zf-desk" [desk] true (some "desk")⟩, ⟨1, .takeDueHellos 4⟩,
    ⟨2, .reply ⟨"zf-desk", [desk]⟩ desk [1] said⟩]

theorem keys_proven_where_listed_desk : ∃ world, (step id).Reaches (Keeps "zf-desk") (start "00") world ∧
      ∃ known, world.tables.instances["zf-desk"]? = some known ∧
        world.AnsweredFrom "zf-desk" known.addresses "01" := by
  have hrun : (((step id).guarded (Keeps "zf-desk")).exec deskAnswers (start "00")).any (fun world =>
      (world.tables.instances["zf-desk"]?.bind (·.key)) = some "01") = true := by
    decide +kernel
  obtain ⟨world, hreach, hworld⟩ := System.exists_reaches_of_exec hrun
  obtain ⟨known, hknown, hkey⟩ := Option.bind_eq_some_iff.mp (of_decide_eq_true hworld)
  exact ⟨world, hreach, known, hknown,
    ((keys_proven_where_listed id "00").2.1 "zf-desk" world hreach known hknown).1 "01" hkey⟩

/-- As many records as there is room for, and one more address than is kept. -/
def nineAddresses : List Moment :=
  (List.range 64).map (fun i => ⟨0, .instanceSeen s!"zf-{i}" [.v4 (BitVec.ofNat 32 i) 43119] true none⟩) ++
    (List.range 9).map fun i => ⟨0, .addAddress (.v4 (BitVec.ofNat 32 i) 43119)⟩

/-- **The tables outgrow their bounds unsaid**: added addresses come on top of the records found, and the
ninth drops the first with its record, yet nothing was turned away. -/
theorem added_address_dropped : ∃ world, (step id).Reaches (fun _ _ => True) (start "00") world ∧
    maxInstances < world.tables.instances.size ∧ world.tables.instances.contains "address:0.0.0.0:43119" = false ∧
    world.tables.turnedAway = false := by
  have hrun : (((step id).guarded fun _ _ => True).exec nineAddresses (start "00")).any (fun world =>
      maxInstances < world.tables.instances.size ∧
      world.tables.instances.contains "address:0.0.0.0:43119" = false ∧
      world.tables.turnedAway = false) = true := by
    decide +kernel
  obtain ⟨world, hreach, hworld⟩ := System.exists_reaches_of_exec hrun
  exact ⟨world, hreach, of_decide_eq_true hworld⟩

end Around

end Zflow.Pairing
