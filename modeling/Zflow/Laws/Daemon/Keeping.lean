import Zflow.Daemon.Keeping

/-!
# The newest layout is the one in use

However calls of `keep_layout` interleave, the layout in memory only gets newer. The file and the edges
follow it with the lock released, so a call whose layout was overtaken can save it, or place the edges it
read before, last. `Calm` is that none does, and `Current` says how the file and the edges then stand
between two steps: each either fits the layout in memory, or a call that is still under way will make it.
-/

namespace Zflow.Daemon.Keeping

open Lib Desktop App Layouts

variable (settings : Settings)

/-- A layout gave way to a newer one, or to none. -/
def NotOlder (old new : Option SharedLayout) : Prop :=
  new = old ∨ ∃ layout, new = some layout ∧ ∀ kept, old = some kept → layout.isNewerThan kept = true

/-- The call will place the edges of the layout. -/
def Call.WillPlace (layout : Option SharedLayout) : Call → Prop
  | .save _ | .read => True
  | .place other => outboundEdges settings other = outboundEdges settings layout
  | .keep _ | .returned _ => False

/-- The call does not come too late: the layout in memory is saved when it is its turn, and neither the
file nor the edges turn from it to another. -/
def Call.OnTime (k : Keeper) (saved : Bool) : Call → Prop
  | .save layout =>
    (k.layout = some layout → saved = true) ∧
      (k.layout ≠ some layout → saved = true → k.file ≠ k.layout)
  | .place layout =>
    k.edges = outboundEdges settings k.layout →
      outboundEdges settings layout = outboundEdges settings k.layout
  | .keep _ | .read | .returned _ => True

instance (k : Keeper) (saved : Bool) : ∀ call : Call, Decidable (call.OnTime settings k saved)
  | .save _ => inferInstanceAs (Decidable (_ ∧ _))
  | .place _ => inferInstanceAs (Decidable (_ → _))
  | .keep _ | .read | .returned _ => .isTrue trivial

/-- No call that is run comes too late. -/
def Calm (k : Keeper) : Step → Prop
  | .call _ => True
  | .run index saved => ∀ call ∈ k.calls[index]?, call.OnTime settings k saved

instance (k : Keeper) : ∀ label, Decidable (Calm settings k label)
  | .call _ => .isTrue trivial
  | .run index saved => inferInstanceAs (Decidable (∀ call ∈ k.calls[index]?, call.OnTime settings k saved))

/-- **How the file and the edges stand.** -/
structure Current (k : Keeper) : Prop where
  saves : k.file = k.layout ∨ ∃ layout, k.layout = some layout ∧ .save layout ∈ k.calls
  places : k.edges = outboundEdges settings k.layout ∨
    ∃ call ∈ k.calls, call.WillPlace settings k.layout

variable {settings} {k k' : Keeper} {index : Nat} {call at_ next : Call}

/-! ## The calls -/

namespace Keeper

theorem mem_setCall (hat : k.calls[index]? = some at_) : next ∈ (k.setCall index next).calls :=
  List.mem_set (List.getElem?_eq_some_iff.mp hat).1 next

/-- The other calls are where they were. -/
theorem mem_setCall_of_ne (hat : k.calls[index]? = some at_) (hcall : call ∈ k.calls) (hne : call ≠ at_) :
    call ∈ (k.setCall index next).calls := by
  obtain ⟨other, hother⟩ := List.mem_iff_getElem?.mp hcall
  have hindex : index ≠ other := by
    rintro rfl
    exact hne (Option.some.inj (hother.symm.trans hat))
  refine List.mem_iff_getElem?.mpr ⟨other, ?_⟩
  show (k.calls.set index next)[other]? = some call
  rw [List.getElem?_set_ne hindex, hother]

end Keeper

/-! ## The layout in memory -/

theorem NotOlder.trans {old mid new : Option SharedLayout} (h : NotOlder old mid) (h' : NotOlder mid new) :
    NotOlder old new := by
  rcases h' with rfl | ⟨layout, rfl, hnewer⟩
  · exact h
  rcases h with rfl | ⟨between, rfl, hbetween⟩
  · exact .inr ⟨layout, rfl, hnewer⟩
  · refine .inr ⟨layout, rfl, fun kept hkept => ?_⟩
    have hfirst := SharedLayout.isNewerThan_iff.mp (hbetween kept hkept)
    have hsecond := SharedLayout.isNewerThan_iff.mp (hnewer between rfl)
    exact SharedLayout.isNewerThan_iff.mpr (hfirst.trans hsecond)

theorem run_layout {saved : Bool} (hrun : k.run settings index saved call = some k') :
    NotOlder k.layout k'.layout := by
  cases call with
  | keep layout =>
    simp only [Keeper.run] at hrun
    split at hrun
    next hreplaces =>
      cases hrun
      refine .inr ⟨layout, rfl, fun kept hkept => ?_⟩
      rw [hkept] at hreplaces
      exact hreplaces
    next => cases hrun; exact .inl rfl
  | save layout => cases hrun; exact .inl rfl
  | read => cases hrun; exact .inl rfl
  | place layout => cases hrun; exact .inl rfl
  | returned kept => cases hrun

theorem step_layout {label : Step} (hstep : step settings label k = some k') :
    NotOlder k.layout k'.layout := by
  cases label with
  | call layout => cases hstep; exact .inl rfl
  | run index saved =>
    obtain ⟨call, -, hrun⟩ := Option.bind_eq_some_iff.mp hstep
    exact run_layout hrun

/-- **The layout in memory only gets newer**, whatever is run. -/
theorem layout_only_newer {calm : Keeper → Step → Prop} (h : (step settings).Reaches calm k k') :
    NotOlder k.layout k'.layout :=
  h.invariant (I := fun reached => NotOlder k.layout reached.layout) (.inl rfl)
    fun _ _ _ hnewer _ hstep => hnewer.trans (step_layout hstep)

/-! ## The file and the edges -/

theorem Current.called (h : Current settings k) (layout : SharedLayout) :
    Current settings { k with calls := k.calls ++ [.keep layout] } where
  saves := h.saves.imp_right fun ⟨kept, hkept, hcall⟩ => ⟨kept, hkept, List.mem_append_left _ hcall⟩
  places := h.places.imp_right fun ⟨call, hcall, hwill⟩ => ⟨call, List.mem_append_left _ hcall, hwill⟩

/-- A call that goes on leaves what it was not to do to the others. -/
theorem Current.saves_of_ne (h : Current settings k) (hat : k.calls[index]? = some at_)
    (hne : ∀ layout, k.layout = some layout → k.file ≠ k.layout → .save layout ≠ at_) : k.file = k.layout ∨
      ∃ layout, k.layout = some layout ∧ .save layout ∈ (k.setCall index next).calls := by
  by_cases hfile : k.file = k.layout
  · exact .inl hfile
  obtain ⟨layout, hlayout, hcall⟩ := h.saves.resolve_left hfile
  exact .inr ⟨layout, hlayout, Keeper.mem_setCall_of_ne hat hcall (hne layout hlayout hfile)⟩

theorem Current.places_of_not (h : Current settings k) (hat : k.calls[index]? = some at_)
    (hnot : ¬ at_.WillPlace settings k.layout) : k.edges = outboundEdges settings k.layout ∨
      ∃ call ∈ (k.setCall index next).calls, call.WillPlace settings k.layout :=
  h.places.imp_right fun ⟨call, hcall, hwill⟩ =>
    ⟨call, Keeper.mem_setCall_of_ne hat hcall (by rintro rfl; exact hnot hwill), hwill⟩

/-- **A calm step keeps how the file and the edges stand.** -/
theorem Current.run {saved : Bool} (h : Current settings k) (hat : k.calls[index]? = some call)
    (htime : call.OnTime settings k saved) (hrun : k.run settings index saved call = some k') :
    Current settings k' := by
  cases call with
  | keep layout =>
    simp only [Keeper.run] at hrun
    split at hrun
    next =>
      -- A layout that is kept brings the call that will save it and place its edges.
      cases hrun
      have hcall : Call.save layout ∈ (k.setCall index (.save layout)).calls := Keeper.mem_setCall hat
      exact ⟨.inr ⟨layout, rfl, hcall⟩, .inr ⟨_, hcall, trivial⟩⟩
    next =>
      cases hrun
      exact ⟨h.saves_of_ne hat (fun _ _ _ => nofun), h.places_of_not hat id⟩
  | save layout =>
    cases hrun
    refine ⟨?_, .inr ⟨.read, Keeper.mem_setCall hat, trivial⟩⟩
    by_cases hlayout : k.layout = some layout
    · rw [if_pos (htime.1 hlayout)]
      exact .inl hlayout.symm
    · have hother : ∀ kept, k.layout = some kept → k.file ≠ k.layout → Call.save kept ≠ .save layout := by
        rintro kept hkept - heq
        cases heq
        exact hlayout hkept
      cases saved with
      | false => exact h.saves_of_ne hat hother
      | true => exact .inr ((h.saves_of_ne hat hother).resolve_left (htime.2 hlayout rfl))
  | read =>
    cases hrun
    exact ⟨h.saves_of_ne hat (fun _ _ _ => nofun), .inr ⟨_, Keeper.mem_setCall hat, rfl⟩⟩
  | place layout =>
    cases hrun
    refine ⟨h.saves_of_ne hat (fun _ _ _ => nofun), ?_⟩
    by_cases hfits : outboundEdges settings layout = outboundEdges settings k.layout
    · exact .inl hfits
    · exact .inr ((h.places_of_not hat hfits).resolve_left (mt htime hfits))
  | returned kept => cases hrun

theorem Current.step {label : Step} (h : Current settings k) (hcalm : Calm settings k label)
    (hstep : step settings label k = some k') : Current settings k' := by
  cases label with
  | call layout => cases hstep; exact h.called layout
  | run index saved =>
    obtain ⟨call, hat, hrun⟩ := Option.bind_eq_some_iff.mp hstep
    exact h.run hat (hcalm call hat) hrun

theorem current_of_reaches {kept : Option SharedLayout}
    (h : (Keeping.step settings).Reaches (Calm settings) (start settings kept) k) : Current settings k :=
  h.invariant ⟨.inl rfl, .inl rfl⟩ fun _ _ _ hcurrent hcalm hstep => hcurrent.step hcalm hstep

/-- When all calls have returned, none is left to save or to place. -/
theorem Current.finished (h : Current settings k) (hfinished : k.finished = true) :
    k.file = k.layout ∧ k.edges = outboundEdges settings k.layout := by
  have hreturned : ∀ call ∈ k.calls, call.hasReturned = true := List.all_eq_true.mp hfinished
  refine ⟨h.saves.resolve_right ?_, h.places.resolve_right ?_⟩
  · rintro ⟨layout, -, hcall⟩
    cases hreturned _ hcall
  · rintro ⟨call, hcall, hwill⟩
    have hlast := hreturned call hcall
    cases call with
    | returned kept => exact hwill
    | keep layout => cases hlast
    | save layout => cases hlast
    | read => cases hlast
    | place layout => cases hlast

/-- The layout in memory only gets newer in any run. Where no call comes too late, it is the one saved and
the one at the edges when all calls have returned. -/
theorem newest_layout_in_use (settings : Settings) (kept : Option SharedLayout) :
    (∀ {calm : Keeper → Step → Prop} {k k' : Keeper}, (step settings).Reaches calm k k' →
        NotOlder k.layout k'.layout) ∧
      ∀ {k : Keeper}, (step settings).Reaches (Calm settings) (start settings kept) k →
        k.finished = true → k.file = k.layout ∧ k.edges = outboundEdges settings k.layout :=
  ⟨layout_only_newer, fun h hfinished => (current_of_reaches h).finished hfinished⟩

/-! A computer that adopts a layout of the peer at its right, while a person moves the peer to its left. -/

def settingsOfNine : Settings := ⟨9, .ofList [("b", 8)], false⟩

def adoptedLayout : SharedLayout := ⟨1, 8, [⟨9, none, 0, 0, 1000, 800⟩, ⟨8, none, 1000, 0, 1000, 800⟩]⟩

def movedLayout : SharedLayout := ⟨2, 9, [⟨9, none, 0, 0, 1000, 800⟩, ⟨8, none, -1000, 0, 1000, 800⟩]⟩

def bothCalls : List Step := [.call adoptedLayout, .run 0 true, .call movedLayout]

/-- The calls by turns, the first ahead of the second. -/
def byTurns : List Step :=
  bothCalls ++ [.run 0 true, .run 1 true, .run 1 true, .run 0 true, .run 0 true, .run 1 true, .run 1 true]

/-- The second call keeps its layout and saves it before the first has saved its own. -/
def savedLate : List Step :=
  bothCalls ++ [.run 1 true, .run 1 true, .run 0 true, .run 0 true, .run 0 true, .run 1 true, .run 1 true]

/-- The first call has read the layout when the second keeps its own, and places the edges last. -/
def placedLate : List Step :=
  [.call adoptedLayout, .run 0 true, .run 0 true, .run 0 true, .call movedLayout, .run 1 true, .run 1 true,
    .run 1 true, .run 1 true, .run 0 true]

theorem newest_layout_in_use_byTurns :
    ∃ k, (step settingsOfNine).Reaches (Calm settingsOfNine) (start settingsOfNine none) k ∧
      NotOlder none k.layout ∧ k.file = some movedLayout ∧
        k.edges = outboundEdges settingsOfNine (some movedLayout) := by
  have hrun : (((step settingsOfNine).guarded (Calm settingsOfNine)).exec byTurns
      (start settingsOfNine none)).any (fun k => k.finished ∧ k.layout = some movedLayout) = true := by
    decide +kernel
  obtain ⟨k, hreaches, hfacts⟩ := System.exists_reaches_of_exec hrun
  obtain ⟨hfinished, hlayout⟩ := of_decide_eq_true hfacts
  obtain ⟨hnewer, huse⟩ := newest_layout_in_use settingsOfNine none
  obtain ⟨hfile, hedges⟩ := huse hreaches hfinished
  rw [hlayout] at hfile hedges
  exact ⟨k, hreaches, hnewer hreaches, hfile, hedges⟩

/-- The layout a restart would read is not the newest, and neither are the edges. -/
theorem not_newest_layout_in_use : ¬ (∀ (settings : Settings) (kept : Option SharedLayout) (k : Keeper),
        (step settings).Reaches (fun _ _ => True) (start settings kept) k → k.finished = true → k.file = k.layout) ∧
      ¬ ∀ (settings : Settings) (kept : Option SharedLayout) (k : Keeper),
        (step settings).Reaches (fun _ _ => True) (start settings kept) k → k.finished = true →
          k.edges = outboundEdges settings k.layout := by
  constructor
  · intro h
    have hrun : (((step settingsOfNine).guarded fun _ _ => True).exec savedLate
        (start settingsOfNine none)).any (fun k => k.finished ∧ k.file ≠ k.layout) = true := by
      decide +kernel
    obtain ⟨k, hreaches, hfacts⟩ := System.exists_reaches_of_exec hrun
    obtain ⟨hfinished, hfile⟩ := of_decide_eq_true hfacts
    exact hfile (h settingsOfNine none k hreaches hfinished)
  · intro h
    have hrun : (((step settingsOfNine).guarded fun _ _ => True).exec placedLate (start settingsOfNine none)).any
        (fun k => k.finished ∧ k.edges ≠ outboundEdges settingsOfNine k.layout) = true := by
      decide +kernel
    obtain ⟨k, hreaches, hfacts⟩ := System.exists_reaches_of_exec hrun
    obtain ⟨hfinished, hedges⟩ := of_decide_eq_true hfacts
    exact hedges (h settingsOfNine none k hreaches hfinished)

end Zflow.Daemon.Keeping
