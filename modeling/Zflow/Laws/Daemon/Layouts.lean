import Mathlib.Data.List.Perm.Basic
import Mathlib.Order.WithBot
import Zflow.Daemon.Layouts

/-!
# What daemons tell each other of layouts

What a daemon keeps is ordered by version and editor, with no layout below any (`top`). A daemon's top
only rises (`News.newer`), and every daemon has told each of its peers what it keeps or still will
(`Told`, `Sound.step`).
-/

namespace Zflow.Daemon.Layouts

open Lib Desktop

variable {D : Type}

/-! ## Reading the parts -/

/-- How far a layout is, if there is one. -/
def reached (layout : Option SharedLayout) : WithBot (Nat ×ₗ Key) := layout.map SharedLayout.rank

/-- How far a daemon is. -/
def Net.top (n : Net D) (d : D) : WithBot (Nat ×ₗ Key) := reached (n.keepers d).layout

theorem replaces_iff {layout : SharedLayout} {current : Option SharedLayout} :
    replaces layout current = true ↔ reached current < (layout.rank : WithBot (Nat ×ₗ Key)) := by
  unfold replaces reached
  cases current with
  | none => exact ⟨fun _ => WithBot.bot_lt_coe _, fun _ => rfl⟩
  | some current =>
    rw [Option.all_some, SharedLayout.isNewerThan_iff]
    exact WithBot.coe_lt_coe.symm

theorem not_replaces_iff {layout : SharedLayout} {current : Option SharedLayout} :
    ¬ replaces layout current = true ↔ (layout.rank : WithBot (Nat ×ₗ Key)) ≤ reached current := by
  rw [replaces_iff, not_lt]

variable [DecidableEq D]

namespace Net

variable {n : Net D} {d e peer : D} {errand x : Errand D} {layout : SharedLayout}

theorem keepers_setKeeper (keeper : Keeper D) :
    (n.setKeeper d keeper).keepers e = if e = d then keeper else n.keepers e :=
  Function.update_apply ..

@[simp]
theorem layout_add (errands : List (Errand D)) : ((n.add d errands).keepers e).layout = (n.keepers e).layout := by
  rw [add, keepers_setKeeper]
  split <;> simp_all

@[simp]
theorem sessions_add (errands : List (Errand D)) :
    ((n.add d errands).keepers e).sessions = (n.keepers e).sessions := by
  rw [add, keepers_setKeeper]
  split <;> simp_all

@[simp]
theorem mem_errands_add {errands : List (Errand D)} : x ∈ ((n.add d errands).keepers e).errands ↔
      x ∈ (n.keepers e).errands ∨ (e = d ∧ x ∈ errands) := by
  rw [add, keepers_setKeeper]
  split <;> simp_all

@[simp]
theorem layout_take (index : Nat) : ((n.take d index).keepers e).layout = (n.keepers e).layout := by
  rw [take, keepers_setKeeper]
  split <;> simp_all

@[simp]
theorem sessions_take (index : Nat) : ((n.take d index).keepers e).sessions = (n.keepers e).sessions := by
  rw [take, keepers_setKeeper]
  split <;> simp_all

@[simp]
theorem layout_register : ((n.register d peer).keepers e).layout = (n.keepers e).layout := by
  rw [register, keepers_setKeeper]
  split <;> simp_all

theorem mem_errands_register : x ∈ ((n.register d peer).keepers e).errands ↔
      x ∈ (n.keepers e).errands ∨ (e = d ∧ x = .offer peer) := by
  rw [register, keepers_setKeeper]
  split <;> simp_all

theorem mem_sessions_register {other : D} : other ∈ ((n.register d peer).keepers e).sessions ↔
      other ∈ (n.keepers e).sessions ∨ (e = d ∧ other = peer) := by
  rw [register, keepers_setKeeper]
  split <;> simp_all

theorem mem_of_mem_take {index : Nat} (h : x ∈ ((n.take d index).keepers e).errands) : x ∈ (n.keepers e).errands := by
  rw [take, keepers_setKeeper] at h
  split at h
  · rename_i heq
    exact heq ▸ List.mem_of_mem_eraseIdx h
  · exact h

/-- Taking up an errand leaves every other one. -/
theorem mem_take {index : Nat} (hindex : (n.keepers d).errands[index]? = some errand)
    (h : x ∈ (n.keepers e).errands) : x ∈ ((n.take d index).keepers e).errands ∨ (e = d ∧ x = errand) := by
  rw [take, keepers_setKeeper]
  split
  · rename_i heq
    subst heq
    obtain ⟨hlt, hget⟩ := List.getElem?_eq_some_iff.mp hindex
    have hperm := List.getElem_cons_eraseIdx_perm hlt
    rw [hget] at hperm
    rcases List.mem_cons.mp (hperm.mem_iff.mpr h) with hx | hx
    · exact .inr ⟨rfl, hx⟩
    · exact .inl hx
  · exact .inl h

@[simp]
theorem top_add (errands : List (Errand D)) : (n.add d errands).top e = n.top e :=
  congrArg reached (layout_add errands)

@[simp]
theorem top_take (index : Nat) : (n.take d index).top e = n.top e := congrArg reached (layout_take index)

@[simp]
theorem top_register : (n.register d peer).top e = n.top e := congrArg reached layout_register

theorem top_setLayout (own : Bool) : (n.setLayout d layout own).top e =
      if e = d then (layout.rank : WithBot (Nat ×ₗ Key)) else n.top e := by
  unfold top setLayout
  rw [keepers_setKeeper]
  split <;> rfl

@[simp]
theorem errands_setLayout (own : Bool) : ((n.setLayout d layout own).keepers e).errands = (n.keepers e).errands := by
  unfold setLayout
  rw [keepers_setKeeper]
  split <;> simp_all

@[simp]
theorem sessions_setLayout (own : Bool) :
    ((n.setLayout d layout own).keepers e).sessions = (n.keepers e).sessions := by
  unfold setLayout
  rw [keepers_setKeeper]
  split <;> simp_all

theorem channels_setChannel (layouts : List SharedLayout) (a b : D) : (n.setChannel d peer layouts).channels a b =
      if a = d ∧ b = peer then layouts else n.channels a b := by
  unfold setChannel
  dsimp only
  by_cases ha : a = d
  · subst ha
    rw [Function.update_self]
    by_cases hb : b = peer
    · subst hb
      simp
    · rw [Function.update_of_ne hb]
      simp [hb]
  · rw [Function.update_of_ne ha]
    simp [ha]

theorem mem_channels_send (a b : D) (l : SharedLayout) (hvalid : layout.validate.isOk = true) :
    l ∈ (n.send d peer layout).channels a b ↔ l ∈ n.channels a b ∨ (a = d ∧ b = peer ∧ l = layout) := by
  unfold send
  rw [if_pos hvalid, channels_setChannel]
  split
  · rename_i h
    obtain ⟨rfl, rfl⟩ := h
    simp
  · rename_i h
    constructor
    · exact .inl
    · rintro (hl | ⟨ha, hb, -⟩)
      · exact hl
      · exact absurd ⟨ha, hb⟩ h

theorem add_nil : n.add d [] = n := by
  unfold add setKeeper
  rw [List.append_nil]
  exact congrArg (fun keepers => { n with keepers := keepers }) (Function.update_eq_self d n.keepers)

@[simp]
theorem sessions_keep {origin : Option D} :
    ((n.keep d layout origin).keepers e).sessions = (n.keepers e).sessions := by
  unfold keep
  split
  · rw [sessions_add, sessions_setLayout]
  · rfl

theorem merge_eq : ∃ errands, n.merge d peer layout = n.add d errands := by
  unfold merge
  split
  · exact ⟨_, rfl⟩
  split
  · exact ⟨_, rfl⟩
  · exact ⟨[], add_nil.symm⟩

theorem place_eq (computers : Computers D) : ∃ errands, n.place computers d = n.add d errands := by
  unfold place
  split
  · exact ⟨_, rfl⟩
  · exact ⟨[], add_nil.symm⟩

@[simp]
theorem keepers_offer : (n.offer d peer).keepers = n.keepers := by
  unfold offer send
  split
  · split <;> rfl
  · rfl

theorem channels_offer {a b : D} (h : layout ∈ n.channels a b) : layout ∈ (n.offer d peer).channels a b := by
  unfold offer send
  split
  · split
    · rw [channels_setChannel]
      split
      · rename_i heq
        obtain ⟨rfl, rfl⟩ := heq
        exact List.mem_append_left _ h
      · exact h
    · exact h
  · exact h

end Net

/-! ## What one step does -/

/-- A layout that a step asks a daemon to keep: one a peer sent, or a valid one of the daemon's own. -/
inductive Due (computers : Computers D) (label : Step D) (n : Net D) (d : D) (layout : SharedLayout) :
    Option D → Prop
  | received (peer : D) (hmem : layout ∈ n.channels peer d) : Due computers label n d layout (some peer)
  | edited (hlabel : label = .edit d layout) (heditor : layout.editor = computers.key d)
    (hvalid : layout.validate.isOk = true) : Due computers label n d layout none
  | placed (current : SharedLayout) (hcurrent : (n.keepers d).layout = some current)
    (hplaced : computers.place d (some current) = some layout) : Due computers label n d layout none

/-- A daemon keeps a layout it was asked to keep, over an older one or none. -/
structure Keeps (n after : Net D) (d : D) (layout : SharedLayout) (origin : Option D) : Prop where
  asked : .keep layout origin ∈ (n.keepers d).errands
  newer : replaces layout (n.keepers d).layout = true
  current : (after.keepers d).layout = some layout
  kept : after.kept d = n.kept d ++ [layout]
  made : after.made d = if origin.isNone then n.made d ++ [layout] else n.made d

/-- A daemon keeps what it kept. -/
structure Stays (n after : Net D) (d : D) : Prop where
  layout : (after.keepers d).layout = (n.keepers d).layout
  kept : after.kept d = n.kept d
  made : after.made d = n.made d

/-- **What a step does** to layouts. -/
structure News (computers : Computers D) (label : Step D) (n after : Net D) : Prop where
  keeps : ∀ d, Stays n after d ∨ ∃ layout origin, Keeps n after d layout origin
  asked : ∀ d layout origin, .keep layout origin ∈ (after.keepers d).errands →
    .keep layout origin ∈ (n.keepers d).errands ∨ Due computers label n d layout origin
  sent : ∀ d e, ∀ layout ∈ after.channels d e,
    layout ∈ n.channels d e ∨ (n.keepers d).layout = some layout

section News

variable {computers : Computers D} {label : Step D} {n after : Net D} {d peer : D}

theorem News.refl : News computers label n n where
  keeps _ := .inl ⟨rfl, rfl, rfl⟩
  asked _ _ _ hmem := .inl hmem
  sent _ _ _ hmem := .inl hmem

/-- More errands, where every layout they would keep is due. -/
theorem News.add (h : News computers label n after) {errands : List (Errand D)}
    (hdue : ∀ layout origin, .keep layout origin ∈ errands → Due computers label n d layout origin) :
    News computers label n (after.add d errands) where
  keeps e := by
    rcases h.keeps e with hsame | ⟨layout, origin, hkeeps⟩
    · exact .inl { hsame with layout := (Net.layout_add errands).trans hsame.layout }
    · exact .inr ⟨layout, origin,
        { hkeeps with current := (Net.layout_add errands).trans hkeeps.current }⟩
  asked e layout origin hmem := by
    rcases Net.mem_errands_add.mp hmem with hold | ⟨rfl, hnew⟩
    · exact h.asked e layout origin hold
    · exact .inr (hdue layout origin hnew)
  sent := h.sent

theorem News.take (index : Nat) : News computers label n (n.take d index) where
  keeps _ := .inl ⟨Net.layout_take index, rfl, rfl⟩
  asked _ _ _ hmem := .inl (Net.mem_of_mem_take hmem)
  sent _ _ _ hmem := .inl hmem

theorem News.offer (h : News computers label n after) (hlayout : (after.keepers d).layout = (n.keepers d).layout) :
    News computers label n (after.offer d peer) := by
  unfold Net.offer Net.send
  cases hcurrent : (after.keepers d).layout with
  | none => exact h
  | some layout =>
    dsimp only
    split
    · refine ⟨fun e => ?_, h.asked, ?_⟩
      · rcases h.keeps e with hsame | ⟨other, origin, hkeeps⟩
        · exact .inl ⟨hsame.layout, hsame.kept, hsame.made⟩
        · exact .inr ⟨other, origin, hkeeps.asked, hkeeps.newer, hkeeps.current, hkeeps.kept, hkeeps.made⟩
      intro a b other hmem
      rw [Net.channels_setChannel] at hmem
      split at hmem
      · rename_i heq
        obtain ⟨rfl, rfl⟩ := heq
        rcases List.mem_append.mp hmem with hold | hnew
        · exact h.sent a b other hold
        · rw [List.mem_singleton.mp hnew, ← hcurrent]
          exact .inr hlayout.symm
      · exact h.sent a b other hmem
    · exact h

theorem News.keep {layout : SharedLayout} {origin : Option D} (index : Nat)
    (hmem : .keep layout origin ∈ (n.keepers d).errands) :
    News computers label n ((n.take d index).keep d layout origin) := by
  have htaken : News computers label n (n.take d index) := News.take index
  unfold Net.keep
  split
  · rename_i hnewer
    rw [Net.layout_take] at hnewer
    apply News.add (d := d)
    · constructor
      · intro e
        by_cases heq : e = d
        · subst heq
          refine .inr ⟨layout, origin, hmem, hnewer, ?_, ?_, ?_⟩
          · unfold Net.setLayout
            rw [Net.keepers_setKeeper, if_pos rfl]
          · exact Function.update_self ..
          · unfold Net.setLayout
            dsimp only
            split
            · exact Function.update_self ..
            · rfl
        · refine .inl ⟨?_, ?_, ?_⟩
          · unfold Net.setLayout
            rw [Net.keepers_setKeeper, if_neg heq, Net.layout_take]
          · exact Function.update_of_ne heq ..
          · unfold Net.setLayout
            dsimp only
            split
            · exact Function.update_of_ne heq ..
            · rfl
      · intro e other origin' hother
        rw [Net.errands_setLayout] at hother
        exact htaken.asked e other origin' hother
      · exact htaken.sent
    · intro other origin' hother
      cases origin <;> simp at hother
  · exact htaken

theorem News.merge {rest : List SharedLayout} {layout : SharedLayout} (hchannel : n.channels peer d = layout :: rest) :
    News computers label n ((n.setChannel peer d rest).merge d peer layout) := by
  have hpopped : News computers label n (n.setChannel peer d rest) := by
    refine ⟨fun _ => .inl ⟨rfl, rfl, rfl⟩, fun _ _ _ hmem => .inl hmem, ?_⟩
    intro a b other hmem
    rw [Net.channels_setChannel] at hmem
    split at hmem
    · rename_i heq
      obtain ⟨rfl, rfl⟩ := heq
      exact .inl (hchannel ▸ List.mem_cons_of_mem _ hmem)
    · exact .inl hmem
  unfold Net.merge
  split
  · apply hpopped.add
    intro other origin hmem
    cases List.mem_singleton.mp hmem
    exact .received peer (hchannel ▸ List.mem_cons_self)
  split
  · apply hpopped.add
    intro other origin hmem
    cases List.mem_singleton.mp hmem
  · exact hpopped

/-- **Every step** does one of these. -/
theorem step_news (hstep : step computers label n = some after) : News computers label n after := by
  cases label with
  | connect d peer =>
    have hstep : (if _ then none else some (n.register d peer)) = some after := hstep
    split at hstep
    · cases hstep
    cases hstep
    refine ⟨fun e => .inl ⟨Net.layout_register, rfl, rfl⟩, ?_, fun _ _ _ hmem => .inl hmem⟩
    intro e layout origin hmem
    rcases Net.mem_errands_register.mp hmem with hold | ⟨-, hnew⟩
    · exact .inl hold
    · cases hnew
  | edit d layout =>
    have hstep : (if _ then some (n.add d [.keep layout none]) else none) = some after := hstep
    split at hstep
    · rename_i hvalid
      cases hstep
      apply News.refl.add
      intro other origin hmem
      cases List.mem_singleton.mp hmem
      exact .edited rfl hvalid.1 hvalid.2
    · cases hstep
  | receive d peer =>
    unfold step at hstep
    dsimp only at hstep
    split at hstep
    · cases hstep
    · rename_i hchannel
      cases hstep
      exact News.merge hchannel
  | run d index =>
    unfold step at hstep
    dsimp only at hstep
    split at hstep
    · rename_i errand herrand
      cases hstep
      cases errand with
      | share origin =>
        apply (News.take index).add
        intro layout origin hmem
        obtain ⟨peer, -, hoffer⟩ := List.mem_map.mp hmem
        cases hoffer
      | offer peer => exact (News.take index).offer (Net.layout_take index)
      | keep layout origin => exact News.keep index (List.mem_of_getElem? herrand)
      | place =>
        show News computers _ n ((n.take d index).place computers d)
        unfold Net.place
        rw [Net.layout_take]
        cases hplaced : computers.place d (n.keepers d).layout with
        | none => exact News.take index
        | some placed =>
          apply (News.take index).add
          intro layout origin hmem
          cases List.mem_singleton.mp hmem
          cases hlayout : (n.keepers d).layout with
          | none =>
            rw [hlayout] at hplaced
            cases hplaced
          | some current => exact .placed current hlayout (hlayout ▸ hplaced)
    · cases hstep

/-- **A layout only gets newer.** -/
theorem News.newer (h : News computers label n after) (d : D) :
    (after.keepers d).layout = (n.keepers d).layout ∨ n.top d < after.top d := by
  rcases h.keeps d with hsame | ⟨layout, origin, hkeeps⟩
  · exact .inl hsame.layout
  · right
    have hup := replaces_iff.mp hkeeps.newer
    unfold Net.top
    rwa [hkeeps.current]

theorem News.top_le (h : News computers label n after) (d : D) : n.top d ≤ after.top d := by
  rcases h.newer d with hsame | hup
  · exact (congrArg reached hsame).ge
  · exact hup.le

end News

/-! ## What holds of every layout -/

/-- Every layout that is kept, on its way, or to be kept has the property. -/
structure Everywhere (p : SharedLayout → Prop) (n : Net D) : Prop where
  kept : ∀ d layout, (n.keepers d).layout = some layout → p layout
  asked : ∀ d layout origin, .keep layout origin ∈ (n.keepers d).errands → p layout
  sent : ∀ d e, ∀ layout ∈ n.channels d e, p layout

/-- **A property of every layout is kept**, where new tiles and edits have it. -/
theorem Everywhere.step {p : SharedLayout → Prop} {n after : Net D} {computers : Computers D}
    {label : Step D} (h : Everywhere p n)
    (hplace : ∀ d layout next, p layout → computers.place d (some layout) = some next → p next)
    (hedit : ∀ d layout, label = .edit d layout → layout.validate.isOk = true → p layout)
    (hnews : News computers label n after) : Everywhere p after where
  kept d layout hlayout := by
    rcases hnews.keeps d with hsame | ⟨other, origin, hkeeps⟩
    · exact h.kept d layout (hsame.layout ▸ hlayout)
    · cases hkeeps.current.symm.trans hlayout
      exact h.asked d layout origin hkeeps.asked
  asked d layout origin hmem := by
    rcases hnews.asked d layout origin hmem with hold | hdue
    · exact h.asked d layout origin hold
    · cases hdue with
      | received peer hsent => exact h.sent peer d layout hsent
      | edited hlabel _ hvalid => exact hedit d layout hlabel hvalid
      | placed current hcurrent hplaced =>
        exact hplace d current layout (h.kept d current hcurrent) hplaced
  sent d e layout hmem := by
    rcases hnews.sent d e layout hmem with hold | hlayout
    · exact h.sent d e layout hold
    · exact h.kept d layout hlayout

/-! ## Told, or to be told -/

/-- **A daemon has told a peer what it keeps**, or will: the peer is as far, a layout that is as far is on
its way or to be kept, or the daemon has an offer to make. -/
inductive Told (n : Net D) (d e : D) : Prop where
  | level (h : n.top d ≤ n.top e)
  | sent (layout : SharedLayout) (hmem : layout ∈ n.channels d e)
    (h : n.top d ≤ (layout.rank : WithBot (Nat ×ₗ Key)))
  | asked (layout : SharedLayout) (hmem : .keep layout (some d) ∈ (n.keepers e).errands)
    (h : n.top d ≤ (layout.rank : WithBot (Nat ×ₗ Key)))
  | offered (hmem : .offer e ∈ (n.keepers d).errands)
  | sharing (origin : Option D) (hne : origin ≠ some e) (hmem : .share origin ∈ (n.keepers d).errands)

/-- **The invariant of the exchange.** -/
structure Sound (n : Net D) : Prop where
  valid : Everywhere (fun layout => layout.validate.isOk = true) n
  sent : ∀ d e, ∀ layout ∈ n.channels d e, (layout.rank : WithBot (Nat ×ₗ Key)) ≤ n.top d
  asked : ∀ d layout origin, .keep layout (some origin) ∈ (n.keepers d).errands →
    (layout.rank : WithBot (Nat ×ₗ Key)) ≤ n.top origin
  told : ∀ d, ∀ e ∈ (n.keepers d).sessions, Told n d e

section Sound

variable {computers : Computers D} {label : Step D} {n after : Net D} {a b d peer : D}
  {errand : Errand D} {index : Nat}

/-- What was told stays told, where a daemon keeps its layout and what it says is not lost. -/
theorem Told.mono (h : Told n a b) (htop : after.top a = n.top a) (hup : n.top b ≤ after.top b)
    (hsent : ∀ layout ∈ n.channels a b, n.top a ≤ (layout.rank : WithBot (Nat ×ₗ Key)) →
      layout ∈ after.channels a b ∨ Told after a b)
    (hasked : ∀ layout, .keep layout (some a) ∈ (n.keepers b).errands →
      n.top a ≤ (layout.rank : WithBot (Nat ×ₗ Key)) →
      .keep layout (some a) ∈ (after.keepers b).errands ∨ Told after a b)
    (hoffer : .offer b ∈ (n.keepers a).errands → .offer b ∈ (after.keepers a).errands ∨ Told after a b)
    (hshare : ∀ origin, origin ≠ some b → .share origin ∈ (n.keepers a).errands →
      .share origin ∈ (after.keepers a).errands ∨ Told after a b) : Told after a b := by
  cases h with
  | level h => exact .level (htop.symm ▸ h.trans hup)
  | sent layout hmem h => exact (hsent layout hmem h).elim (.sent layout · (htop.symm ▸ h)) id
  | asked layout hmem h => exact (hasked layout hmem h).elim (.asked layout · (htop.symm ▸ h)) id
  | offered hmem => exact (hoffer hmem).elim .offered id
  | sharing origin hne hmem => exact (hshare origin hne hmem).elim (.sharing origin hne) id

/-- More errands lose nothing. -/
theorem Told.add (h : Told n a b) (d : D) (errands : List (Errand D)) : Told (n.add d errands) a b := by
  apply h.mono (Net.top_add errands) (Net.top_add errands).ge
  · exact fun layout hmem _ => .inl hmem
  · exact fun layout hmem _ => .inl (Net.mem_errands_add.mpr (.inl hmem))
  · exact fun hmem => .inl (Net.mem_errands_add.mpr (.inl hmem))
  · exact fun origin _ hmem => .inl (Net.mem_errands_add.mpr (.inl hmem))

/-- Where an errand was taken up, it is the one thing that can be lost. -/
theorem Told.run (h : Told n a b) (hindex : (n.keepers d).errands[index]? = some errand)
    (htop : after.top a = n.top a) (hup : n.top b ≤ after.top b)
    (hsent : ∀ layout ∈ n.channels a b, layout ∈ after.channels a b)
    (herrands : ∀ e, ∀ x ∈ ((n.take d index).keepers e).errands, x ∈ (after.keepers e).errands)
    (hasked : ∀ layout, errand = .keep layout (some a) → d = b →
      n.top a ≤ (layout.rank : WithBot (Nat ×ₗ Key)) → Told after a b)
    (hoffer : errand = .offer b → d = a → Told after a b)
    (hshare : ∀ origin, errand = .share origin → d = a → origin ≠ some b → Told after a b) :
    Told after a b := by
  apply h.mono htop hup
  · exact fun layout hmem _ => .inl (hsent layout hmem)
  · intro layout hmem hlevel
    rcases Net.mem_take hindex hmem with hkept | ⟨heq, herrand⟩
    · exact .inl (herrands b _ hkept)
    · exact .inr (hasked layout herrand.symm heq.symm hlevel)
  · intro hmem
    rcases Net.mem_take hindex hmem with hkept | ⟨heq, herrand⟩
    · exact .inl (herrands a _ hkept)
    · exact .inr (hoffer herrand.symm heq.symm)
  · intro origin hne hmem
    rcases Net.mem_take hindex hmem with hkept | ⟨heq, herrand⟩
    · exact .inl (herrands a _ hkept)
    · exact .inr (hshare origin herrand.symm heq.symm hne)

theorem told_connect (h : Sound n) (hsession : b ∈ ((n.register d peer).keepers a).sessions) :
    Told (n.register d peer) a b := by
  rcases Net.mem_sessions_register.mp hsession with hold | ⟨rfl, rfl⟩
  · apply (h.told a b hold).mono Net.top_register Net.top_register.ge
    · exact fun layout hmem _ => .inl hmem
    · exact fun layout hmem _ => .inl (Net.mem_errands_register.mpr (.inl hmem))
    · exact fun hmem => .inl (Net.mem_errands_register.mpr (.inl hmem))
    · exact fun origin _ hmem => .inl (Net.mem_errands_register.mpr (.inl hmem))
  · exact .offered (Net.mem_errands_register.mpr (.inr ⟨rfl, rfl⟩))

/-- A layout that arrives is to be kept, or the daemon is as far. -/
theorem told_merge {layout : SharedLayout} (h : n.top peer ≤ (layout.rank : WithBot (Nat ×ₗ Key))) :
    Told (n.merge d peer layout) peer d := by
  unfold Net.merge
  split
  · apply Told.asked layout
    · exact Net.mem_errands_add.mpr (.inr ⟨rfl, List.mem_singleton_self _⟩)
    · rwa [Net.top_add]
  rename_i hold
  have hlevel : n.top peer ≤ n.top d := h.trans (not_replaces_iff.mp hold)
  split
  · exact (Told.level hlevel).add d _
  · exact .level hlevel

theorem told_receive {layout : SharedLayout} {rest : List SharedLayout} (h : Told n a b)
    (hchannel : n.channels peer d = layout :: rest) : Told ((n.setChannel peer d rest).merge d peer layout) a b := by
  obtain ⟨errands, hmerge⟩ := (n.setChannel peer d rest).merge_eq (d := d)
  apply h.mono
  · rw [hmerge, Net.top_add]
    rfl
  · rw [hmerge, Net.top_add]
    rfl
  · intro other hmem hlevel
    by_cases heq : a = peer ∧ b = d
    · obtain ⟨rfl, rfl⟩ := heq
      rw [hchannel] at hmem
      rcases List.mem_cons.mp hmem with rfl | hrest
      · exact .inr (told_merge hlevel)
      · rw [hmerge]
        refine .inl ?_
        show other ∈ (n.setChannel a b rest).channels a b
        rwa [Net.channels_setChannel, if_pos ⟨rfl, rfl⟩]
    · rw [hmerge]
      refine .inl ?_
      show other ∈ (n.setChannel peer d rest).channels a b
      rwa [Net.channels_setChannel, if_neg heq]
  · exact fun other hmem _ => .inl (hmerge ▸ Net.mem_errands_add.mpr (.inl hmem))
  · exact fun hmem => .inl (hmerge ▸ Net.mem_errands_add.mpr (.inl hmem))
  · exact fun origin _ hmem => .inl (hmerge ▸ Net.mem_errands_add.mpr (.inl hmem))

theorem told_share {origin : Option D} (h : Told n a b) (hindex : (n.keepers d).errands[index]? = some (.share origin))
    (hsession : b ∈ (n.keepers a).sessions) : Told ((n.take d index).share d origin) a b := by
  unfold Net.share
  apply h.run hindex
  · rw [Net.top_add, Net.top_take]
  · rw [Net.top_add, Net.top_take]
  · exact fun layout hmem => hmem
  · exact fun e x hmem => Net.mem_errands_add.mpr (.inl hmem)
  · intro layout heq
    cases heq
  · intro heq
    cases heq
  · intro origin heq hd hne
    cases heq
    subst hd
    refine .offered (Net.mem_errands_add.mpr (.inr ⟨rfl, List.mem_map.mpr ⟨b, ?_, rfl⟩⟩))
    rw [List.mem_filter, Net.sessions_take]
    exact ⟨hsession, decide_eq_true fun heq => hne heq.symm⟩

theorem told_offer {e : D} (hsound : Sound n) (h : Told n a b)
    (hindex : (n.keepers d).errands[index]? = some (.offer e)) : Told ((n.take d index).offer d e) a b := by
  have htop : ∀ c, ((n.take d index).offer d e).top c = n.top c := fun c => by
    unfold Net.top
    rw [Net.keepers_offer, Net.layout_take]
  apply h.run hindex (htop a) (htop b).ge
  · exact fun layout hmem => Net.channels_offer hmem
  · exact fun c x hmem => by rwa [Net.keepers_offer]
  · intro layout heq
    cases heq
  · intro heq hd
    cases heq
    subst hd
    cases hlayout : (n.keepers d).layout with
    | none =>
      apply Told.level
      rw [htop, Net.top, hlayout]
      exact bot_le
    | some layout =>
      apply Told.sent layout
      · unfold Net.offer
        rw [Net.layout_take, hlayout]
        exact (Net.mem_channels_send d b layout (hsound.valid.kept d layout hlayout)).mpr (.inr ⟨rfl, rfl, rfl⟩)
      · rw [htop, Net.top, hlayout]
        exact le_rfl
  · intro origin heq
    cases heq

/-- A layout that is kept is shared with every peer, but for the one it came from, which is as far. -/
theorem told_keep {layout : SharedLayout} {origin : Option D} (hsound : Sound n) (h : Told n a b)
    (hindex : (n.keepers d).errands[index]? = some (.keep layout origin)) :
    Told ((n.take d index).keep d layout origin) a b := by
  have hmem := List.mem_of_getElem? hindex
  unfold Net.keep
  split
  · rename_i hnewer
    have htop : ∀ errands : List (Errand D), ∀ c,
        (((n.take d index).setLayout d layout origin.isNone).add d errands).top c =
          if c = d then (layout.rank : WithBot (Nat ×ₗ Key)) else n.top c := fun errands c => by
      rw [Net.top_add, Net.top_setLayout, Net.top_take]
    have hnewer : n.top d < (layout.rank : WithBot (Nat ×ₗ Key)) := by
      rw [Net.layout_take] at hnewer
      exact replaces_iff.mp hnewer
    have hup : ∀ errands : List (Errand D), ∀ c, n.top c ≤
        (((n.take d index).setLayout d layout origin.isNone).add d errands).top c :=
      fun errands c => by
        rw [htop]
        split
        · rename_i heq
          exact heq ▸ hnewer.le
        · exact le_rfl
    by_cases ha : a = d
    · subst ha
      by_cases horigin : origin = some b
      · subst horigin
        apply Told.level
        rw [htop, if_pos rfl]
        exact (hsound.asked a layout b hmem).trans (hup _ b)
      · exact .sharing origin horigin (Net.mem_errands_add.mpr (.inr ⟨rfl, List.mem_cons_self⟩))
    · apply h.run hindex
      · rw [htop, if_neg ha]
      · exact hup _ b
      · exact fun layout hmem => hmem
      · intro e x hx
        rw [Net.mem_errands_add, Net.errands_setLayout]
        exact .inl hx
      · intro other heq hd hlevel
        cases heq
        apply Told.level
        rw [htop, htop, if_neg ha, if_pos hd.symm]
        exact hlevel
      · intro heq
        cases heq
      · intro other heq
        cases heq
  · rename_i hold
    have hold : (layout.rank : WithBot (Nat ×ₗ Key)) ≤ n.top d := by
      rw [Net.layout_take] at hold
      exact not_replaces_iff.mp hold
    apply h.run hindex
    · exact Net.top_take index
    · exact (Net.top_take index).ge
    · exact fun layout hmem => hmem
    · exact fun e x hx => hx
    · intro other heq hd hlevel
      cases heq
      apply Told.level
      rw [Net.top_take, Net.top_take, ← hd]
      exact hlevel.trans hold
    · intro heq
      cases heq
    · intro other heq
      cases heq

theorem told_place (h : Told n a b) (hindex : (n.keepers d).errands[index]? = some .place) :
    Told ((n.take d index).place computers d) a b := by
  obtain ⟨errands, hplace⟩ := (n.take d index).place_eq (d := d) computers
  rw [hplace]
  refine Told.add ?_ d errands
  apply h.run hindex
  · exact Net.top_take index
  · exact (Net.top_take index).ge
  · exact fun layout hmem => hmem
  · exact fun e x hx => hx
  · intro layout heq
    cases heq
  · intro heq
    cases heq
  · intro origin heq
    cases heq

/-- Every session's peer is told, or to be told, after each step. -/
theorem step_told (h : Sound n) (hstep : step computers label n = some after)
    (hsession : b ∈ (after.keepers a).sessions) : Told after a b := by
  cases label with
  | connect d peer =>
    have hstep : (if _ then none else some (n.register d peer)) = some after := hstep
    split at hstep
    · cases hstep
    · cases hstep
      exact told_connect h hsession
  | edit d layout =>
    have hstep : (if _ then some (n.add d [.keep layout none]) else none) = some after := hstep
    split at hstep
    · cases hstep
      rw [Net.sessions_add] at hsession
      exact (h.told a b hsession).add d _
    · cases hstep
  | receive d peer =>
    unfold step at hstep
    dsimp only at hstep
    split at hstep
    · cases hstep
    · rename_i layout rest hchannel
      cases hstep
      obtain ⟨errands, hmerge⟩ := (n.setChannel peer d rest).merge_eq (d := d)
      rw [hmerge, Net.sessions_add] at hsession
      exact told_receive (h.told a b hsession) hchannel
  | run d index =>
    unfold step at hstep
    dsimp only at hstep
    split at hstep
    · rename_i errand hindex
      cases hstep
      cases errand with
      | share origin =>
        have hsession : b ∈ (((n.take d index).share d origin).keepers a).sessions := hsession
        rw [Net.share, Net.sessions_add, Net.sessions_take] at hsession
        exact told_share (h.told a b hsession) hindex hsession
      | offer e =>
        have hsession : b ∈ (((n.take d index).offer d e).keepers a).sessions := hsession
        rw [Net.keepers_offer, Net.sessions_take] at hsession
        exact told_offer h (h.told a b hsession) hindex
      | keep layout origin =>
        have hsession : b ∈ (((n.take d index).keep d layout origin).keepers a).sessions := hsession
        rw [Net.sessions_keep, Net.sessions_take] at hsession
        exact told_keep h (h.told a b hsession) hindex
      | place =>
        obtain ⟨errands, hplace⟩ := (n.take d index).place_eq (d := d) computers
        have hsession : b ∈ (((n.take d index).place computers d).keepers a).sessions := hsession
        rw [hplace, Net.sessions_add, Net.sessions_take] at hsession
        exact told_place (h.told a b hsession) hindex
    · cases hstep

theorem Sound.step (h : Sound n) (hstep : step computers label n = some after) : Sound after := by
  have hnews := step_news hstep
  constructor
  · apply h.valid.step _ _ hnews
    · intro d layout next _ hplaced
      exact (SharedLayout.withTilesFor_eq_some hplaced).2.2.1
    · exact fun d layout _ hvalid => hvalid
  · intro d e layout hmem
    refine le_trans ?_ (hnews.top_le d)
    rcases hnews.sent d e layout hmem with hold | hlayout
    · exact h.sent d e layout hold
    · rw [Net.top, hlayout]
      exact le_rfl
  · intro d layout origin hmem
    refine le_trans ?_ (hnews.top_le origin)
    rcases hnews.asked d layout (some origin) hmem with hold | hdue
    · exact h.asked d layout origin hold
    · cases hdue with
      | received _ hsent => exact h.sent origin d layout hsent
  · exact fun a b hsession => step_told h hstep hsession

theorem Sound.start {layouts : D → Option SharedLayout}
    (hvalid : ∀ d layout, layouts d = some layout → layout.validate.isOk = true) : Sound (start layouts) where
  valid := ⟨hvalid, fun _ _ _ hmem => (List.not_mem_nil hmem).elim, fun _ _ _ hmem =>
    (List.not_mem_nil hmem).elim⟩
  sent _ _ _ hmem := (List.not_mem_nil hmem).elim
  asked _ _ _ hmem := (List.not_mem_nil hmem).elim
  told _ _ hmem := (List.not_mem_nil hmem).elim

end Sound

end Zflow.Daemon.Layouts
