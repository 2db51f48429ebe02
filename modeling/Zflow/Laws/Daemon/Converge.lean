import Mathlib.Algebra.GroupWithZero.Nat
import Mathlib.Algebra.Order.BigOperators.Group.Finset
import Mathlib.Data.Fintype.BigOperators
import Mathlib.Data.Set.Finite.Lattice
import Zflow.Laws.Daemon.Layouts

/-!
# Shared layouts converge

Every daemon has told each of its peers what it keeps or still will, so where nothing is on its way,
peers keep layouts of one version and editor. That these are one layout rests on where layouts come
from (`Traced`): each is one a daemon started with, or one its editor made, which makes none twice. Two
daemons may start with different layouts of one version and editor, and then keep both
(`started_apart`).

The exchange ends (`acc_of_within`) because tiles run out: a layout that is made in it has one version
more and at least one tile more, so versions are bounded. Each daemon keeps finitely many layouts, and
between two of these every message is answered, if at all, with a newer one.
-/

namespace Zflow.Daemon.Layouts

open Lib Desktop

variable {D : Type} [DecidableEq D]

/-! ## Where layouts come from -/

/-- A layout some daemon started with. -/
def Started (layouts : D → Option SharedLayout) (layout : SharedLayout) : Prop :=
  ∃ d, layouts d = some layout

/-- The layouts the daemons started with could have come from one exchange: one for each version and
editor, and none that its editor was not up to. -/
structure Consistent (computers : Computers D) (layouts : D → Option SharedLayout) : Prop where
  same : ∀ d e layout other, layouts d = some layout → layouts e = some other →
    layout.rank = other.rank → layout = other
  own : ∀ d e layout, layouts e = some layout → layout.editor = computers.key d →
    (layout.rank : WithBot (Nat ×ₗ Key)) ≤ reached (layouts d)

structure Traced (computers : Computers D) (layouts : D → Option SharedLayout) (n : Net D) : Prop where
  own : ∀ d layout, .keep layout none ∈ (n.keepers d).errands → layout.editor = computers.key d
  asked : ∀ d layout peer, .keep layout (some peer) ∈ (n.keepers d).errands → ∃ e, layout ∈ n.kept e
  sent : ∀ d e, ∀ layout ∈ n.channels d e, ∃ a, layout ∈ n.kept a
  current : ∀ d layout, (n.keepers d).layout = some layout → layout ∈ n.kept d
  risen : ∀ d, reached (layouts d) ≤ n.top d
  kept : ∀ d, ∀ layout ∈ n.kept d, Started layouts layout ∨ ∃ e, layout ∈ n.made e
  made : ∀ d, ∀ layout ∈ n.made d, layout.editor = computers.key d ∧
    reached (layouts d) < (layout.rank : WithBot (Nat ×ₗ Key)) ∧
    (layout.rank : WithBot (Nat ×ₗ Key)) ≤ n.top d
  once : ∀ d, ∀ layout ∈ n.made d, ∀ other ∈ n.made d, layout.rank = other.rank → layout = other

section Traced

variable {computers : Computers D} {layouts : D → Option SharedLayout} {label : Step D}
  {n after : Net D} {d e : D} {layout other : SharedLayout}

theorem News.mem_kept (h : News computers label n after) (hmem : layout ∈ n.kept d) :
    layout ∈ after.kept d := by
  rcases h.keeps d with hsame | ⟨next, origin, hkeeps⟩
  · exact hsame.kept ▸ hmem
  · exact hkeeps.kept ▸ List.mem_append_left _ hmem

theorem News.mem_made (h : News computers label n after) (hmem : layout ∈ n.made d) :
    layout ∈ after.made d := by
  rcases h.keeps d with hsame | ⟨next, origin, hkeeps⟩
  · exact hsame.made ▸ hmem
  · rw [hkeeps.made]
    split
    · exact List.mem_append_left _ hmem
    · exact hmem

/-- What a daemon makes is newer than what it kept. -/
theorem News.of_mem_made (h : News computers label n after) (hmem : layout ∈ after.made d) :
    layout ∈ n.made d ∨ (.keep layout none ∈ (n.keepers d).errands ∧
      n.top d < (layout.rank : WithBot (Nat ×ₗ Key)) ∧ (after.keepers d).layout = some layout) := by
  rcases h.keeps d with hsame | ⟨next, origin, hkeeps⟩
  · exact .inl (hsame.made ▸ hmem)
  · rw [hkeeps.made] at hmem
    cases origin with
    | none =>
      rcases List.mem_append.mp hmem with hold | hnew
      · exact .inl hold
      · cases List.mem_singleton.mp hnew
        exact .inr ⟨hkeeps.asked, replaces_iff.mp hkeeps.newer, hkeeps.current⟩
    | some peer => exact .inl hmem

theorem Traced.step (h : Traced computers layouts n) (hnews : News computers label n after) :
    Traced computers layouts after := by
  have horigin : ∀ layout, (Started layouts layout ∨ ∃ e, layout ∈ n.made e) →
      Started layouts layout ∨ ∃ e, layout ∈ after.made e := by
    rintro layout (hstarted | ⟨e, hmade⟩)
    · exact .inl hstarted
    · exact .inr ⟨e, hnews.mem_made hmade⟩
  have hkept : ∀ layout, (∃ e, layout ∈ n.kept e) → ∃ e, layout ∈ after.kept e :=
    fun layout ⟨e, hmem⟩ => ⟨e, hnews.mem_kept hmem⟩
  constructor
  · intro d layout hmem
    rcases hnews.asked d layout none hmem with hold | hdue
    · exact h.own d layout hold
    · cases hdue with
      | edited _ heditor _ => exact heditor
      | placed current _ hplaced => exact (SharedLayout.withTilesFor_eq_some hplaced).2.1
  · intro d layout peer hmem
    rcases hnews.asked d layout (some peer) hmem with hold | hdue
    · exact hkept layout (h.asked d layout peer hold)
    · cases hdue with
      | received _ hsent => exact hkept layout (h.sent peer d layout hsent)
  · intro d e layout hmem
    rcases hnews.sent d e layout hmem with hold | hlayout
    · exact hkept layout (h.sent d e layout hold)
    · exact hkept layout ⟨d, h.current d layout hlayout⟩
  · intro d layout hlayout
    rcases hnews.keeps d with hsame | ⟨next, origin, hkeeps⟩
    · exact hnews.mem_kept (h.current d layout (hsame.layout ▸ hlayout))
    · cases hkeeps.current.symm.trans hlayout
      exact hkeeps.kept ▸ List.mem_append_right _ (List.mem_singleton_self _)
  · exact fun d => (h.risen d).trans (hnews.top_le d)
  · intro d layout hmem
    rcases hnews.keeps d with hsame | ⟨next, origin, hkeeps⟩
    · exact horigin layout (h.kept d layout (hsame.kept ▸ hmem))
    · rcases List.mem_append.mp (hkeeps.kept ▸ hmem) with hold | hnew
      · exact horigin layout (h.kept d layout hold)
      · cases List.mem_singleton.mp hnew
        cases origin with
        | none =>
          right
          exact ⟨d, hkeeps.made ▸ List.mem_append_right _ (List.mem_singleton_self _)⟩
        | some peer =>
          obtain ⟨e, he⟩ := h.asked d layout peer hkeeps.asked
          exact horigin layout (h.kept e layout he)
  · intro d layout hmem
    rcases hnews.of_mem_made hmem with hold | ⟨hasked, hnewer, hcurrent⟩
    · obtain ⟨heditor, hlater, hle⟩ := h.made d layout hold
      exact ⟨heditor, hlater, hle.trans (hnews.top_le d)⟩
    · refine ⟨h.own d layout hasked, (h.risen d).trans_lt hnewer, ?_⟩
      rw [Net.top, hcurrent]
      exact le_rfl
  · intro d layout hmem other hother hrank
    rcases hnews.of_mem_made hmem with hold | ⟨-, hnewer, hcurrent⟩
    · rcases hnews.of_mem_made hother with hold' | ⟨-, hnewer, -⟩
      · exact h.once d layout hold other hold' hrank
      · have hle := (h.made d layout hold).2.2
        rw [hrank] at hle
        exact absurd hle hnewer.not_ge
    · rcases hnews.of_mem_made hother with hold' | ⟨-, -, hcurrent'⟩
      · have hle := (h.made d other hold').2.2
        rw [← hrank] at hle
        exact absurd hle hnewer.not_ge
      · exact Option.some.inj (hcurrent.symm.trans hcurrent')

theorem Traced.start : Traced computers layouts (start layouts) where
  own _ _ hmem := (List.not_mem_nil hmem).elim
  asked _ _ _ hmem := (List.not_mem_nil hmem).elim
  sent _ _ _ hmem := (List.not_mem_nil hmem).elim
  current _ _ hlayout := Option.mem_toList.mpr hlayout
  risen _ := le_rfl
  kept d _ hmem := .inl ⟨d, Option.mem_toList.mp hmem⟩
  made _ _ hmem := (List.not_mem_nil hmem).elim
  once _ _ hmem := (List.not_mem_nil hmem).elim

/-- Two layouts of one version and editor that no daemon started with are one. -/
theorem Traced.eq_of_made (h : Traced computers layouts n) (hlayout : layout ∈ n.made d)
    (hother : other ∈ n.made e) (hrank : layout.rank = other.rank) : layout = other := by
  have heditor : layout.editor = other.editor := congrArg (fun rank => (ofLex rank).2) hrank
  have hkey : computers.key d = computers.key e :=
    ((h.made d layout hlayout).1.symm.trans heditor).trans (h.made e other hother).1
  cases computers.distinct hkey
  exact h.once d layout hlayout other hother hrank

theorem Traced.eq_or_started (h : Traced computers layouts n) (hlayout : layout ∈ n.kept d)
    (hother : other ∈ n.kept e) (hrank : layout.rank = other.rank) :
    layout = other ∨ Started layouts layout ∨ Started layouts other := by
  rcases h.kept d layout hlayout with hstarted | ⟨a, hmade⟩
  · exact .inr (.inl hstarted)
  rcases h.kept e other hother with hstarted | ⟨b, hmade'⟩
  · exact .inr (.inr hstarted)
  · exact .inl (h.eq_of_made hmade hmade' hrank)

/-- A layout a daemon makes is not one of those a consistent start had. -/
theorem Traced.not_made (h : Traced computers layouts n) (hconsistent : Consistent computers layouts)
    (hstarted : Started layouts layout) (hmade : other ∈ n.made e) : layout.rank ≠ other.rank := by
  intro hrank
  obtain ⟨d, hd⟩ := hstarted
  obtain ⟨heditor, hlater, -⟩ := h.made e other hmade
  have hsame : layout.editor = other.editor := congrArg (fun rank => (ofLex rank).2) hrank
  have hle := hconsistent.own e d layout hd (hsame.trans heditor)
  rw [hrank] at hle
  exact hlater.not_ge hle

theorem Traced.eq_of_consistent (h : Traced computers layouts n)
    (hconsistent : Consistent computers layouts) (hlayout : layout ∈ n.kept d)
    (hother : other ∈ n.kept e) (hrank : layout.rank = other.rank) : layout = other := by
  rcases h.kept d layout hlayout with hstarted | ⟨a, hmade⟩
  · rcases h.kept e other hother with hstarted' | ⟨b, hmade'⟩
    · obtain ⟨a, ha⟩ := hstarted
      obtain ⟨b, hb⟩ := hstarted'
      exact hconsistent.same a b layout other ha hb hrank
    · exact absurd hrank (h.not_made hconsistent hstarted hmade')
  · rcases h.kept e other hother with hstarted' | ⟨b, hmade'⟩
    · exact absurd hrank.symm (h.not_made hconsistent hstarted' hmade)
    · exact h.eq_of_made hmade hmade' hrank

end Traced

/-! ## Where nothing is on its way -/

/-- No message is on its way, and no daemon has anything left to do. -/
structure Quiet (n : Net D) : Prop where
  errands : ∀ d, (n.keepers d).errands = []
  channels : ∀ d e, n.channels d e = []

/-- Both have registered the session between them. -/
def Linked (n : Net D) (d e : D) : Prop := e ∈ (n.keepers d).sessions ∧ d ∈ (n.keepers e).sessions

/-- Linked through others, or not at all apart. -/
def Connected (n : Net D) : D → D → Prop := Relation.ReflTransGen (Linked n)

section Quiet

variable {n : Net D} {d e : D}

theorem Sound.top_le (h : Sound n) (hquiet : Quiet n) (hsession : e ∈ (n.keepers d).sessions) :
    n.top d ≤ n.top e := by
  cases h.told d e hsession with
  | level hle => exact hle
  | sent layout hmem => exact (List.not_mem_nil (hquiet.channels d e ▸ hmem)).elim
  | asked layout hmem => exact (List.not_mem_nil (hquiet.errands e ▸ hmem)).elim
  | offered hmem => exact (List.not_mem_nil (hquiet.errands d ▸ hmem)).elim
  | sharing origin _ hmem => exact (List.not_mem_nil (hquiet.errands d ▸ hmem)).elim

theorem Sound.top_eq (h : Sound n) (hquiet : Quiet n) (hconnected : Connected n d e) :
    n.top d = n.top e := by
  induction hconnected with
  | refl => rfl
  | tail _ hlinked ih =>
    exact ih.trans (le_antisymm (h.top_le hquiet hlinked.1) (h.top_le hquiet hlinked.2))

end Quiet

/-! ## The exchange ends -/

/-- A step of the exchange leads from one state to another. -/
def Exchanges (computers : Computers D) (after n : Net D) : Prop :=
  ∃ label : Step D, label.exchanges = true ∧ step computers label n = some after

/-- How far versions can get by adding tiles. -/
def horizon (layout : SharedLayout) : Nat :=
  layout.version + (maxSharedTiles - layout.tiles.length)

def Within (bound : Nat) (layout : SharedLayout) : Prop :=
  horizon layout ≤ bound ∧ layout.editor ≤ bound

/-- A layout's place in the order, as one number. -/
def number (bound : Nat) (layout : SharedLayout) : Nat :=
  layout.version * (bound + 1) + layout.editor + 1

def last (bound : Nat) : Nat := (bound + 1) * (bound + 1)

def farthest (bound : Nat) (current : Option SharedLayout) : Nat := current.elim 0 (number bound)

/-- How many newer layouts there could be. -/
def room (bound : Nat) (current : Option SharedLayout) : Nat := last bound - farthest bound current

/-- What a message may still cause. -/
def messageWork (bound : Nat) (layout : SharedLayout) : Nat := 3 * room bound (some layout) + 2

def offerWork (bound : Nat) (keeper : Keeper D) : Nat := 3 * room bound keeper.layout + 3

def errandWork (bound : Nat) (keeper : Keeper D) : Errand D → Nat
  | .share _ => keeper.sessions.length * offerWork bound keeper + 1
  | .offer _ => offerWork bound keeper
  | .keep .. => 1
  | .place => 2

def errandsWork (bound : Nat) (keeper : Keeper D) : Nat :=
  (keeper.errands.map (errandWork bound keeper)).sum

def channelWork (bound : Nat) (layouts : List SharedLayout) : Nat :=
  (layouts.map (messageWork bound)).sum

section Exchange

variable [Fintype D]

/-- How many newer layouts the daemons could keep. -/
def rooms (bound : Nat) (n : Net D) : Nat := ∑ d, room bound (n.keepers d).layout

/-- What the daemons may still do before one keeps a newer layout. -/
def work (bound : Nat) (n : Net D) : Nat :=
  ∑ d, errandsWork bound (n.keepers d) + ∑ d, ∑ e, channelWork bound (n.channels d e)

def measure (bound : Nat) (n : Net D) : Nat ×ₗ Nat := toLex (rooms bound n, work bound n)

variable {computers : Computers D} {label : Step D} {n after : Net D} {d peer : D} {bound : Nat}
  {layout other next : SharedLayout} {errand : Errand D}

/-- A sum over the computers changes by what changes at one of them. -/
theorem sum_update {β : Type} (weight : β → Nat) (f : D → β) (d : D) (value : β) :
    ∑ e, weight (Function.update f d value e) + weight (f d) = ∑ e, weight (f e) + weight value := by
  have hbefore := Finset.add_sum_erase Finset.univ (fun e => weight (f e)) (Finset.mem_univ d)
  have hafter := Finset.add_sum_erase Finset.univ (fun e => weight (Function.update f d value e)) (Finset.mem_univ d)
  have hothers : ∑ e ∈ Finset.univ.erase d, weight (Function.update f d value e)
      = ∑ e ∈ Finset.univ.erase d, weight (f e) := by
    apply Finset.sum_congr rfl
    intro e he
    rw [Function.update_of_ne (Finset.ne_of_mem_erase he)]
  simp only [Function.update_self] at hafter
  omega

theorem work_setKeeper (bound : Nat) (keeper : Keeper D) :
    work bound (n.setKeeper d keeper) + errandsWork bound (n.keepers d) =
      work bound n + errandsWork bound keeper := by
  have hsum := sum_update (errandsWork bound) n.keepers d keeper
  have hkeepers : (n.setKeeper d keeper).keepers = Function.update n.keepers d keeper := rfl
  have hchannels : (n.setKeeper d keeper).channels = n.channels := rfl
  unfold work
  rw [hkeepers, hchannels]
  omega

theorem work_setChannel (bound : Nat) (d peer : D) (layouts : List SharedLayout) :
    work bound (n.setChannel d peer layouts) + channelWork bound (n.channels d peer) =
      work bound n + channelWork bound layouts := by
  have hrow := sum_update (channelWork bound) (n.channels d) peer layouts
  have hsum := sum_update (fun row : D → List SharedLayout => ∑ e, channelWork bound (row e))
    n.channels d (Function.update (n.channels d) peer layouts)
  have hchannels : (n.setChannel d peer layouts).channels =
      Function.update n.channels d (Function.update (n.channels d) peer layouts) := rfl
  have hkeepers : (n.setChannel d peer layouts).keepers = n.keepers := rfl
  unfold work
  rw [hkeepers, hchannels]
  omega

theorem work_add (errands : List (Errand D)) : work bound (n.add d errands) =
      work bound n + (errands.map (errandWork bound (n.keepers d))).sum := by
  have hset := work_setKeeper (n := n) (d := d) bound
    { n.keepers d with errands := (n.keepers d).errands ++ errands }
  have hmore : errandsWork bound { n.keepers d with errands := (n.keepers d).errands ++ errands } =
      errandsWork bound (n.keepers d) + (errands.map (errandWork bound (n.keepers d))).sum := by
    unfold errandsWork
    rw [List.map_append, List.sum_append]
    rfl
  unfold Net.add
  omega

/-- Taking up an errand leaves the work it stands for. -/
theorem work_take (bound : Nat) {index : Nat} (hindex : (n.keepers d).errands[index]? = some errand) :
    work bound (n.take d index) + errandWork bound (n.keepers d) errand = work bound n := by
  have hset := work_setKeeper (n := n) (d := d) bound
    { n.keepers d with errands := (n.keepers d).errands.eraseIdx index }
  have hless : errandWork bound (n.keepers d) errand +
      errandsWork bound { n.keepers d with errands := (n.keepers d).errands.eraseIdx index } =
        errandsWork bound (n.keepers d) := by
    obtain ⟨hlt, hget⟩ := List.getElem?_eq_some_iff.mp hindex
    have hperm := List.getElem_cons_eraseIdx_perm hlt
    rw [hget] at hperm
    exact (hperm.map (errandWork bound (n.keepers d))).sum_eq
  unfold Net.take
  omega

@[simp]
theorem rooms_add (errands : List (Errand D)) : rooms bound (n.add d errands) = rooms bound n := by
  simp only [rooms, Net.layout_add]

@[simp]
theorem rooms_take (index : Nat) : rooms bound (n.take d index) = rooms bound n := by
  simp only [rooms, Net.layout_take]

theorem number_le_last (h : Within bound layout) : number bound layout ≤ last bound := by
  have heditor : bound ≥ layout.editor := h.2
  have hhorizon := h.1
  have hversion : layout.version ≤ bound := (Nat.le_add_right _ _).trans hhorizon
  have hmul := Nat.mul_le_mul_right (bound + 1) hversion
  have hsquare : (bound + 1) * (bound + 1) = bound * (bound + 1) + (bound + 1) := Nat.succ_mul _ _
  unfold number last
  omega

theorem number_lt (hlayout : Within bound layout) (h : layout.rank < other.rank) :
    number bound layout < number bound other := by
  rw [SharedLayout.rank, SharedLayout.rank, Prod.Lex.lt_iff] at h
  have heditor : bound ≥ layout.editor := hlayout.2
  unfold number
  rcases h with hversion | ⟨hversion, heditors⟩
  · have hversion : layout.version + 1 ≤ other.version := hversion
    have hmul := Nat.mul_le_mul_right (bound + 1) hversion
    rw [Nat.succ_mul] at hmul
    omega
  · have hversion : layout.version = other.version := hversion
    rw [hversion]
    exact Nat.succ_lt_succ (Nat.add_lt_add_left heditors _)

/-- A newer layout leaves less room. -/
theorem room_lt (hlayout : Within bound layout) {current : Option SharedLayout}
    (hcurrent : ∀ other, current = some other → Within bound other)
    (h : replaces layout current = true) : room bound (some layout) < room bound current := by
  have hlast := number_le_last hlayout
  unfold room
  cases current with
  | none =>
    show last bound - number bound layout < last bound - 0
    unfold number at *
    omega
  | some other =>
    have hlt : number bound other < number bound layout :=
      number_lt (hcurrent other rfl) (WithBot.coe_lt_coe.mp (replaces_iff.mp h))
    show last bound - number bound layout < last bound - number bound other
    omega

/-! ### Each step of it leaves less -/

/-- One more version and one more tile get no further. -/
theorem within_place (hkey : ∀ d, computers.key d ≤ bound) (h : Within bound layout)
    (hplaced : computers.place d (some layout) = some next) : Within bound next := by
  obtain ⟨hversion, heditor, hvalid, hmore⟩ := SharedLayout.withTilesFor_eq_some hplaced
  have hlength := SharedLayout.length_of_valid hvalid
  have hhorizon := h.1
  constructor
  · unfold horizon at *
    omega
  · rw [heditor]
    exact hkey d

theorem work_merge {rest : List SharedLayout} (h : Everywhere (Within bound) n)
    (hchannel : n.channels peer d = layout :: rest) :
    work bound ((n.setChannel peer d rest).merge d peer layout) < work bound n := by
  have hset := work_setChannel (n := n) bound peer d rest
  have hpop : work bound (n.setChannel peer d rest) + messageWork bound layout = work bound n := by
    rw [hchannel] at hset
    have hcons : channelWork bound (layout :: rest) = messageWork bound layout + channelWork bound rest :=
      List.sum_cons
    omega
  have hmessage : 2 ≤ messageWork bound layout := Nat.le_add_left _ _
  unfold Net.merge
  split
  · rw [work_add]
    show _ + (1 + 0) < _
    omega
  split
  · rename_i hback
    rw [work_add]
    show _ + (offerWork bound (n.keepers d) + 0) < _
    have hroom : room bound (n.keepers d).layout < room bound (some layout) := by
      cases hcurrent : (n.keepers d).layout with
      | none =>
        have hback : (n.keepers d).layout.any (·.isNewerThan layout) = true := hback.1
        rw [hcurrent] at hback
        cases hback
      | some current =>
        have hback : (n.keepers d).layout.any (·.isNewerThan layout) = true := hback.1
        rw [hcurrent] at hback
        apply room_lt (h.kept d current hcurrent)
        · intro other hother
          cases hother
          exact h.sent peer d layout (hchannel ▸ List.mem_cons_self)
        · exact hback
    unfold offerWork
    unfold messageWork at hpop
    omega
  · omega

theorem work_offer {index : Nat} (h : Everywhere (Within bound) n)
    (hindex : (n.keepers d).errands[index]? = some (.offer peer)) :
    work bound ((n.take d index).offer d peer) < work bound n := by
  have htake := work_take bound hindex
  have hwork : errandWork bound (n.keepers d) (.offer peer) = offerWork bound (n.keepers d) := rfl
  unfold offerWork at hwork
  unfold Net.offer Net.send
  rw [Net.layout_take]
  cases hlayout : (n.keepers d).layout with
  | none =>
    dsimp only
    omega
  | some layout =>
    dsimp only
    split
    · have hset := work_setChannel (n := n.take d index) bound d peer ((n.take d index).channels d peer ++ [layout])
      have hsnoc : channelWork bound ((n.take d index).channels d peer ++ [layout]) =
          channelWork bound ((n.take d index).channels d peer) + messageWork bound layout := by
        unfold channelWork
        rw [List.map_append, List.sum_append]
        rfl
      rw [hlayout] at hwork
      unfold messageWork at hsnoc
      omega
    · omega

theorem work_share {origin : Option D} {index : Nat} (hindex : (n.keepers d).errands[index]? = some (.share origin)) :
    work bound ((n.take d index).share d origin) < work bound n := by
  have htake := work_take bound hindex
  have hwork : errandWork bound (n.keepers d) (.share origin) =
      (n.keepers d).sessions.length * offerWork bound (n.keepers d) + 1 := rfl
  have hoffer : offerWork bound ((n.take d index).keepers d) = offerWork bound (n.keepers d) := by
    unfold offerWork
    rw [Net.layout_take]
  have hoffers : ∀ peers : List D, ((peers.map Errand.offer).map
      (errandWork bound ((n.take d index).keepers d))).sum = peers.length * offerWork bound (n.keepers d) := by
    intro peers
    induction peers with
    | nil => exact (Nat.zero_mul _).symm
    | cons peer rest ih =>
      have hpeer : errandWork bound ((n.take d index).keepers d) (.offer peer) =
        offerWork bound (n.keepers d) := hoffer
      rw [List.map_cons, List.map_cons, List.sum_cons, ih, hpeer, List.length_cons, Nat.succ_mul, Nat.add_comm]
  unfold Net.share
  rw [work_add, hoffers, Net.sessions_take]
  have hfew := Nat.mul_le_mul_right (offerWork bound (n.keepers d))
    (List.length_filter_le (fun peer => decide (some peer ≠ origin)) (n.keepers d).sessions)
  omega

theorem work_place {index : Nat} (hindex : (n.keepers d).errands[index]? = some .place) :
    work bound ((n.take d index).place computers d) < work bound n := by
  have htake := work_take bound hindex
  have hwork : errandWork bound (n.keepers d) .place = 2 := rfl
  unfold Net.place
  split
  · rw [work_add]
    show _ + (1 + 0) < _
    omega
  · omega

theorem measure_lt_of_work (hrooms : rooms bound after = rooms bound n)
    (hwork : work bound after < work bound n) : measure bound after < measure bound n :=
  Prod.Lex.toLex_lt_toLex.mpr (.inr ⟨hrooms, hwork⟩)

theorem measure_keep {origin : Option D} {index : Nat} (h : Everywhere (Within bound) n)
    (hindex : (n.keepers d).errands[index]? = some (.keep layout origin)) :
    measure bound ((n.take d index).keep d layout origin) < measure bound n := by
  unfold Net.keep
  split
  · rename_i hnewer
    rw [Net.layout_take] at hnewer
    apply Prod.Lex.toLex_lt_toLex.mpr
    left
    show rooms _ _ < rooms _ _
    rw [rooms_add]
    have hroom := room_lt (h.asked d layout origin (List.mem_of_getElem? hindex))
      (fun other hother => h.kept d other hother) hnewer
    have hlayout : ∀ e, (((n.take d index).setLayout d layout origin.isNone).keepers e).layout =
        if e = d then some layout else (n.keepers e).layout := fun e => by
      unfold Net.setLayout
      rw [Net.keepers_setKeeper]
      split
      · rfl
      · exact Net.layout_take index
    unfold rooms
    apply Finset.sum_lt_sum
    · intro e _
      rw [hlayout]
      split
      · rename_i heq
        exact heq ▸ hroom.le
      · exact le_rfl
    · refine ⟨d, Finset.mem_univ d, ?_⟩
      rw [hlayout, if_pos rfl]
      exact hroom
  · have htake := work_take bound hindex
    have hwork : errandWork bound (n.keepers d) (.keep layout origin) = 1 := rfl
    apply measure_lt_of_work (rooms_take index)
    omega

/-- **Every step of the exchange** has a daemon keep a newer layout, or leaves less to do. -/
theorem measure_exchange (h : Everywhere (Within bound) n) (hexchange : Exchanges computers after n) :
    measure bound after < measure bound n := by
  obtain ⟨label, hlabel, hstep⟩ := hexchange
  cases label with
  | connect => cases hlabel
  | edit => cases hlabel
  | receive d peer =>
    unfold step at hstep
    dsimp only at hstep
    split at hstep
    · cases hstep
    · rename_i layout rest hchannel
      cases hstep
      obtain ⟨errands, hmerge⟩ := (n.setChannel peer d rest).merge_eq (d := d)
      apply measure_lt_of_work
      · rw [hmerge, rooms_add]
        rfl
      · exact work_merge h hchannel
  | run d index =>
    unfold step at hstep
    dsimp only at hstep
    split at hstep
    · rename_i errand hindex
      cases hstep
      cases errand with
      | share origin =>
        apply measure_lt_of_work _ (work_share hindex)
        exact (rooms_add _).trans (rooms_take index)
      | offer peer =>
        apply measure_lt_of_work _ (work_offer h hindex)
        show rooms bound ((n.take d index).offer d peer) = _
        unfold rooms
        rw [Net.keepers_offer]
        exact rooms_take index
      | keep layout origin => exact measure_keep h hindex
      | place =>
        obtain ⟨errands, hplace⟩ := (n.take d index).place_eq (d := d) computers
        apply measure_lt_of_work _ (work_place hindex)
        show rooms bound ((n.take d index).place computers d) = _
        rw [hplace, rooms_add, rooms_take]
    · cases hstep

theorem Everywhere.exchange (hkey : ∀ d, computers.key d ≤ bound) (h : Everywhere (Within bound) n)
    (hexchange : Exchanges computers after n) : Everywhere (Within bound) after := by
  obtain ⟨label, hlabel, hstep⟩ := hexchange
  apply h.step _ _ (step_news hstep)
  · exact fun d layout next hlayout hplaced => within_place hkey hlayout hplaced
  · intro d layout heq
    subst heq
    cases hlabel

theorem acc_of_within (hkey : ∀ d, computers.key d ≤ bound) (h : Everywhere (Within bound) n) :
    Acc (Exchanges computers) n := by
  generalize hmeasure : measure bound n = left
  induction left using WellFoundedLT.induction generalizing n with
  | ind left ih =>
    apply Acc.intro
    intro after hexchange
    exact ih _ (hmeasure ▸ measure_exchange h hexchange) (h.exchange hkey hexchange) rfl

/-! ### Versions are bounded -/

theorem Within.mono {more : Nat} (h : Within bound layout) (hle : bound ≤ more) : Within more layout :=
  ⟨h.1.trans hle, h.2.trans hle⟩

theorem Everywhere.imp {p q : SharedLayout → Prop} (h : Everywhere p n) (himp : ∀ layout, p layout → q layout) :
    Everywhere q n where
  kept d layout hlayout := himp layout (h.kept d layout hlayout)
  asked d layout origin hmem := himp layout (h.asked d layout origin hmem)
  sent d e layout hmem := himp layout (h.sent d e layout hmem)

/-- In any state there is a bound on how far versions can get. -/
theorem exists_within {layouts : D → Option SharedLayout}
    (h : (step computers).Reaches (fun _ _ => True) (start layouts) n) :
    ∃ bound, (∀ d, computers.key d ≤ bound) ∧ Everywhere (Within bound) n := by
  apply h.invariant (I := fun n => ∃ bound, (∀ d, computers.key d ≤ bound) ∧ Everywhere (Within bound) n)
  · obtain ⟨keys, hkeys⟩ := (Set.finite_range computers.key).bddAbove
    obtain ⟨most, hmost⟩ := (Set.finite_range fun d =>
      (layouts d).elim 0 fun layout => horizon layout + layout.editor).bddAbove
    refine ⟨keys + most, fun d => ?_, ?_⟩
    · exact (hkeys ⟨d, rfl⟩).trans (Nat.le_add_right _ _)
    · refine ⟨fun d layout hlayout => ?_, fun _ _ _ hmem => (List.not_mem_nil hmem).elim,
        fun _ _ _ hmem => (List.not_mem_nil hmem).elim⟩
      have hle := hmost ⟨d, rfl⟩
      have hlayout : layouts d = some layout := hlayout
      simp only [hlayout, Option.elim_some] at hle
      have hboth : horizon layout + layout.editor ≤ keys + most :=
        hle.trans (Nat.le_add_left _ _)
      exact ⟨(Nat.le_add_right _ _).trans hboth, (Nat.le_add_left _ _).trans hboth⟩
  · rintro n label after ⟨bound, hkey, hwithin⟩ - hstep
    obtain ⟨more, hmore⟩ : ∃ more, ∀ d layout, label = .edit d layout →
        horizon layout + layout.editor ≤ more := by
      cases label with
      | edit d layout => exact ⟨_, fun _ _ heq => by cases heq; exact le_rfl⟩
      | connect | receive | run => exact ⟨0, fun _ _ heq => by cases heq⟩
    have hkey : ∀ d, computers.key d ≤ bound + more := fun d => (hkey d).trans (Nat.le_add_right _ _)
    refine ⟨bound + more, hkey, ?_⟩
    apply (hwithin.imp fun layout h => h.mono (Nat.le_add_right bound more)).step _ _ (step_news hstep)
    · exact fun d layout next hlayout hplaced => within_place hkey hlayout hplaced
    · intro d layout heq _
      have hboth : horizon layout + layout.editor ≤ bound + more :=
        (hmore d layout heq).trans (Nat.le_add_left _ _)
      exact ⟨(Nat.le_add_right _ _).trans hboth, (Nat.le_add_left _ _).trans hboth⟩

end Exchange

/-! ## Convergence -/

section Converge

variable {computers : Computers D} {layouts : D → Option SharedLayout} {n : Net D} {d e : D}

theorem Reaches.sound (hvalid : ∀ d layout, layouts d = some layout → layout.validate.isOk = true)
    (h : (step computers).Reaches (fun _ _ => True) (start layouts) n) : Sound n :=
  h.invariant (Sound.start hvalid) fun _ _ _ hsound _ hstep => hsound.step hstep

theorem Reaches.traced (h : (step computers).Reaches (fun _ _ => True) (start layouts) n) :
    Traced computers layouts n :=
  h.invariant Traced.start fun _ _ _ htraced _ hstep => htraced.step (step_news hstep)

/-- An exchange that has ended has nothing left to do. -/
theorem quiet_of_ended (h : ∀ after, ¬ Exchanges computers after n) : Quiet n := by
  constructor
  · intro d
    cases herrands : (n.keepers d).errands with
    | nil => rfl
    | cons errand rest =>
      refine absurd ⟨.run d 0, rfl, ?_⟩ (h ((n.take d 0).run computers d errand))
      unfold step
      dsimp only
      rw [herrands]
      rfl
  · intro d e
    cases hchannel : n.channels d e with
    | nil => rfl
    | cons layout rest =>
      refine absurd ⟨.receive e d, rfl, ?_⟩ (h ((n.setChannel d e rest).merge e d layout))
      unfold step
      dsimp only
      rw [hchannel]

/-- Where nothing is on its way, connected daemons keep the same layout, or two of one version and editor
one of which a daemon started with. -/
theorem same_or_started (hsound : Sound n) (htraced : Traced computers layouts n) (hquiet : Quiet n)
    (hconnected : Connected n d e) : (n.keepers d).layout = (n.keepers e).layout ∨ ∃ layout other,
      (n.keepers d).layout = some layout ∧ (n.keepers e).layout = some other ∧
      layout.rank = other.rank ∧ (Started layouts layout ∨ Started layouts other) := by
  have htop : reached (n.keepers d).layout = reached (n.keepers e).layout :=
    hsound.top_eq hquiet hconnected
  cases hlayout : (n.keepers d).layout with
  | none =>
    rw [hlayout] at htop
    exact .inl (Option.map_eq_none_iff.mp htop.symm).symm
  | some layout =>
    rw [hlayout] at htop
    obtain ⟨other, hother, hrank⟩ := Option.map_eq_some_iff.mp htop.symm
    rw [hother]
    rcases htraced.eq_or_started (htraced.current d layout hlayout) (htraced.current e other hother)
      hrank.symm with heq | hstarted
    · exact .inl (congrArg some heq)
    · exact .inr ⟨layout, other, rfl, rfl, hrank.symm, hstarted⟩

theorem same_of_consistent (htraced : Traced computers layouts n) (hconsistent : Consistent computers layouts)
    (h : (n.keepers d).layout = (n.keepers e).layout ∨ ∃ layout other,
      (n.keepers d).layout = some layout ∧ (n.keepers e).layout = some other ∧
      layout.rank = other.rank ∧ (Started layouts layout ∨ Started layouts other)) :
    (n.keepers d).layout = (n.keepers e).layout := by
  rcases h with heq | ⟨layout, other, hlayout, hother, hrank, -⟩
  · exact heq
  · rw [hlayout, hother]
    exact congrArg some (htraced.eq_of_consistent hconsistent (htraced.current d layout hlayout)
      (htraced.current e other hother) hrank)

/-- **Shared layouts converge.** For any computers that start with any valid layouts or none, in every
state of every run: a step leaves each daemon's layout or makes it newer; two layouts of one version and
editor that any daemons ever kept are one, unless a daemon started with one of them; the exchange ends,
and where it has ended nothing is left to do; and where nothing is on its way, connected daemons keep
layouts of one version and editor, which are one unless a daemon started with one of them, and are one
always where the layouts they started with were consistent. -/
theorem layouts_converge [Fintype D] (computers : Computers D) (layouts : D → Option SharedLayout)
    (hvalid : ∀ d layout, layouts d = some layout → layout.validate.isOk = true) (n : Net D)
    (h : (step computers).Reaches (fun _ _ => True) (start layouts) n) :
    (∀ label after, step computers label n = some after → ∀ d,
      (after.keepers d).layout = (n.keepers d).layout ∨ ∃ layout,
        (after.keepers d).layout = some layout ∧ replaces layout (n.keepers d).layout = true) ∧
    (∀ d e, ∀ layout ∈ n.kept d, ∀ other ∈ n.kept e, layout.version = other.version → layout.editor = other.editor →
      layout = other ∨ Started layouts layout ∨ Started layouts other) ∧
    Acc (Exchanges computers) n ∧
    ((∀ after, ¬ Exchanges computers after n) → Quiet n) ∧
    (Quiet n → ∀ d e, Connected n d e → ((n.keepers d).layout = (n.keepers e).layout ∨ ∃ layout other,
        (n.keepers d).layout = some layout ∧ (n.keepers e).layout = some other ∧
        layout.rank = other.rank ∧ (Started layouts layout ∨ Started layouts other)) ∧
      (Consistent computers layouts → (n.keepers d).layout = (n.keepers e).layout)) := by
  have hsound := Reaches.sound hvalid h
  have htraced := Reaches.traced h
  refine ⟨?_, ?_, ?_, quiet_of_ended, ?_⟩
  · intro label after hstep d
    rcases (step_news hstep).keeps d with hsame | ⟨layout, origin, hkeeps⟩
    · exact .inl hsame.layout
    · exact .inr ⟨layout, hkeeps.current, hkeeps.newer⟩
  · intro d e layout hlayout other hother hversion heditor
    apply htraced.eq_or_started hlayout hother
    rw [SharedLayout.rank, SharedLayout.rank, hversion, heditor]
  · obtain ⟨bound, hkey, hwithin⟩ := exists_within h
    exact acc_of_within hkey hwithin
  · intro hquiet d e hconnected
    have hsame := same_or_started hsound htraced hquiet hconnected
    exact ⟨hsame, fun hconsistent => same_of_consistent htraced hconsistent hsame⟩

/-! ### Two computers -/

/-- Two computers that have paired each other. -/
def pair : Computers Bool where
  key d := d.toNat
  paired d := [(!d).toNat]
  distinct a b h := by revert a b; decide

def tileAt (key : Key) (x : Int) : Tile := ⟨key, none, x, 0, 1920, 1080⟩

/-- The first computer has both tiles and the second one has no layout. -/
def arranged (d : Bool) : Option SharedLayout :=
  if d then none else some ⟨1, 0, [tileAt 0 0, tileAt 1 1920]⟩

/-- Each computer has its own first version of a third one. -/
def rivals (d : Bool) : Option SharedLayout :=
  some ⟨1, 7, [tileAt 0 0, tileAt 1 (if d then 1920 else -1920)]⟩

/-- Both register their session. -/
def link : List (Step Bool) := [.connect false true, .connect true false]

/-- Both offer what they have, and the second one takes what the first one sent, and keeps it. -/
def handOver : List (Step Bool) :=
  link ++ [.run false 0, .run true 0, .receive true false, .run true 0, .run true 0, .run true 0]

/-- Both offer what they have and take what the other sent. -/
def trade : List (Step Bool) :=
  link ++ [.run false 0, .run true 0, .receive true false, .receive false true]

def settled (n : Net Bool) : Bool :=
  decide ((∀ d, (n.keepers d).errands.length = 0) ∧ (∀ d e, (n.channels d e).length = 0) ∧
    true ∈ (n.keepers false).sessions ∧ false ∈ (n.keepers true).sessions)

theorem of_settled {n : Net Bool} (h : settled n = true) : Quiet n ∧ Connected n false true := by
  obtain ⟨herrands, hchannels, hlinked⟩ := of_decide_eq_true h
  constructor
  · exact ⟨fun d => List.length_eq_zero_iff.mp (herrands d),
      fun d e => List.length_eq_zero_iff.mp (hchannels d e)⟩
  · exact .single hlinked

theorem arranged_consistent : Consistent pair arranged where
  same d e layout other hd he _ := by
    cases d <;> cases e <;> cases hd <;> cases he <;> rfl
  own d e layout he heditor := by
    cases e with
    | true => cases he
    | false =>
      cases he
      cases d with
      | false => exact le_rfl
      | true => cases heditor

theorem layouts_converge_arranged : ∃ n : Net Bool,
    (step pair).Reaches (fun _ _ => True) (start arranged) n ∧ Quiet n ∧
      (n.keepers false).layout = (n.keepers true).layout := by
  have hrun : (((step pair).guarded fun _ _ => True).exec handOver (start arranged)).any settled =
      true := by decide +kernel
  obtain ⟨n, hn, hsettled⟩ := System.exists_reaches_of_exec hrun
  obtain ⟨hquiet, hconnected⟩ := of_settled hsettled
  have hvalid : ∀ d layout, arranged d = some layout → layout.validate.isOk = true := by
    intro d layout h
    cases d <;> cases h
    decide +kernel
  obtain ⟨-, -, -, -, hsame⟩ := layouts_converge pair arranged hvalid n hn
  exact ⟨n, hn, hquiet, (hsame hquiet false true hconnected).2 arranged_consistent⟩

/-- **What started apart stays apart**: two connected daemons that started with valid layouts keep
different ones when nothing is on its way, as neither is newer than the other. -/
theorem started_apart : ∃ n : Net Bool, (∀ d layout, rivals d = some layout → layout.validate.isOk = true) ∧
    (step pair).Reaches (fun _ _ => True) (start rivals) n ∧ Quiet n ∧ Connected n false true ∧
      (n.keepers false).layout ≠ (n.keepers true).layout := by
  have hrun : (((step pair).guarded fun _ _ => True).exec trade (start rivals)).any
      (fun n => settled n && decide ((n.keepers false).layout ≠ (n.keepers true).layout)) = true := by
    decide +kernel
  obtain ⟨n, hn, h⟩ := System.exists_reaches_of_exec hrun
  obtain ⟨hsettled, hapart⟩ := Bool.and_eq_true_iff.mp h
  obtain ⟨hquiet, hconnected⟩ := of_settled hsettled
  refine ⟨n, ?_, hn, hquiet, hconnected, of_decide_eq_true hapart⟩
  intro d layout h
  cases d <;> cases h <;> decide +kernel

end Converge

end Zflow.Daemon.Layouts
