import Zflow.Laws.Linux.Ownership
import Zflow.Runtime.Boundary

/-!
# Grabs are all or none

The nodes of a capture set are followed by a device that writes down the answers to its grabs and ungrabs
(`Logged`); a law of every device is then a law of what was asked of it. Where `grab_all` succeeds, each node is
taken or was left to the program that holds it, and where it fails, each node it took was asked back once and no
other was (`grabAll_spec`). Asking the kernel for keys changes none of this (`neutralFrom_standings`), so the
walk over the nodes (`grabFrom_spec`) carries the result.

The input thread is remote only after a success; after a failure it holds no descriptor
(`acquireGrabs_spec`).
-/

namespace Zflow.Linux

open Lib

/-! ## Devices that write down their answers -/

structure Logged (D : Type) where
  device : D
  /-- What its grabs answered, in order. -/
  grabs : List (Except IoError Unit)
  /-- What its ungrabs answered, in order. -/
  ungrabs : List (Except IoError Unit)

variable {D : Type} [CaptureDevice D]

instance : CaptureDevice (Logged D) where
  getKeyState d :=
    ((CaptureDevice.getKeyState d.device).1, { d with device := (CaptureDevice.getKeyState d.device).2 })
  grab d :=
    ((CaptureDevice.grab d.device).1,
      { d with
        device := (CaptureDevice.grab d.device).2, grabs := d.grabs ++ [(CaptureDevice.grab d.device).1] })
  ungrab d :=
    ((CaptureDevice.ungrab d.device).1,
      { d with
        device := (CaptureDevice.ungrab d.device).2
        ungrabs := d.ungrabs ++ [(CaptureDevice.ungrab d.device).1] })
  isGrabbed d := CaptureDevice.isGrabbed d.device

/-- What is known of a node: whether this process has it, and what it answered. -/
structure Standing where
  path : String
  grabbed : Bool
  grabs : List (Except IoError Unit)
  ungrabs : List (Except IoError Unit)

def CaptureNode.standing (node : CaptureNode (Logged D)) : Standing :=
  ⟨node.path, CaptureDevice.isGrabbed node.device, node.device.grabs, node.device.ungrabs⟩

namespace Standing

/-- Nothing was asked of the node. -/
def Untouched (s : Standing) : Prop := s.grabbed = false ∧ s.grabs = [] ∧ s.ungrabs = []

def Taken (s : Standing) : Prop := s.grabbed = true ∧ s.grabs = [.ok ()] ∧ s.ungrabs = []

/-- The grab was refused. -/
def Refused (s : Standing) : Prop := s.grabbed = false ∧ (∃ error, s.grabs = [.error error]) ∧ s.ungrabs = []

/-- Another program holds the node. -/
def Busy (s : Standing) : Prop :=
  s.grabbed = false ∧ (∃ error, error.rawOsError = some ebusy ∧ s.grabs = [.error error]) ∧ s.ungrabs = []

/-- Taken, and asked back once: it is still held only where that failed. -/
def Returned (s : Standing) : Prop :=
  s.grabs = [.ok ()] ∧ ((s.grabbed = false ∧ s.ungrabs = [.ok ()]) ∨ ∃ error, s.ungrabs = [.error error])

/-- What a failed transaction leaves. -/
def GivenBack (s : Standing) : Prop := s.Untouched ∨ s.Refused ∨ s.Returned

theorem Busy.refused {s : Standing} (h : s.Busy) : s.Refused := by
  obtain ⟨hheld, ⟨error, -, hgrabs⟩, hungrabs⟩ := h
  exact ⟨hheld, ⟨error, hgrabs⟩, hungrabs⟩

/-- What was taken was asked back once, and nothing else ever was. -/
theorem GivenBack.asked {s : Standing} (h : s.GivenBack) :
    (.ok () ∈ s.grabs → s.ungrabs.length = 1) ∧ (.ok () ∉ s.grabs → s.ungrabs = []) := by
  rcases h with ⟨-, hgrabs, hungrabs⟩ | ⟨-, ⟨error, hgrabs⟩, hungrabs⟩ | ⟨hgrabs, hback⟩
  · simp [hgrabs, hungrabs]
  · simp [hgrabs, hungrabs]
  · rcases hback with ⟨-, hungrabs⟩ | ⟨error, hungrabs⟩ <;> simp [hgrabs, hungrabs]

/-- What is still held answered its ungrab with an error. -/
theorem GivenBack.stuck {s : Standing} (h : s.GivenBack) (hheld : s.grabbed = true) :
    ∃ error, .error error ∈ s.ungrabs := by
  rcases h with ⟨hfree, -⟩ | ⟨hfree, -⟩ | ⟨-, ⟨hfree, -⟩ | ⟨error, hungrabs⟩⟩
  · simp [hfree] at hheld
  · simp [hfree] at hheld
  · simp [hfree] at hheld
  · exact ⟨error, by simp [hungrabs]⟩

end Standing

open Standing

/-! ## One node -/

/-- Asking for keys changes nothing that is known. -/
theorem standing_getKeyState [LawfulCaptureDevice D] (node : CaptureNode (Logged D)) :
    CaptureNode.standing { node with device := (CaptureDevice.getKeyState node.device).2 } = node.standing := by
  simp only [CaptureNode.standing, CaptureDevice.getKeyState, CaptureDevice.isGrabbed, LawfulCaptureDevice.getKeyState]

theorem taken_of_grab [LawfulCaptureDevice D] {node : CaptureNode (Logged D)} {device : Logged D} (h : node.standing.Untouched)
    (hgrab : CaptureDevice.grab node.device = (.ok (), device)) :
    CaptureNode.standing { node with device } |>.Taken := by
  obtain ⟨-, hgrabs, hungrabs⟩ := h
  obtain ⟨hanswer, rfl⟩ := Prod.mk.inj hgrab
  simp only [CaptureNode.standing] at hgrabs hungrabs
  refine ⟨LawfulCaptureDevice.grabbed node.device.device _ (Prod.ext hanswer rfl), ?_, hungrabs⟩
  simp only [CaptureNode.standing, hgrabs, hanswer, List.nil_append]

theorem refused_of_grab [LawfulCaptureDevice D] {node : CaptureNode (Logged D)} {device : Logged D} {error : IoError}
    (h : node.standing.Untouched) (hgrab : CaptureDevice.grab node.device = (.error error, device)) :
    let s := CaptureNode.standing { node with device }
    s.grabbed = false ∧ s.grabs = [.error error] ∧ s.ungrabs = [] := by
  obtain ⟨hfree, hgrabs, hungrabs⟩ := h
  obtain ⟨hanswer, rfl⟩ := Prod.mk.inj hgrab
  simp only [CaptureNode.standing, CaptureDevice.isGrabbed] at hfree hgrabs hungrabs
  have hkept := LawfulCaptureDevice.refused node.device.device _ error (Prod.ext hanswer rfl)
  refine ⟨hkept.trans hfree, ?_, hungrabs⟩
  simp only [CaptureNode.standing, hgrabs, hanswer, List.nil_append]

theorem path_ungrab (node : CaptureNode (Logged D)) : node.ungrab.2.path = node.path := by
  unfold CaptureNode.ungrab
  rcases CaptureDevice.ungrab node.device with ⟨answer | answer, device⟩ <;> rfl

/-- A taken node that is asked back is returned. -/
theorem returned_of_ungrab [LawfulCaptureDevice D] {node : CaptureNode (Logged D)} (h : node.standing.Taken) :
    node.ungrab.2.standing.Returned := by
  obtain ⟨-, hgrabs, hungrabs⟩ := h
  simp only [CaptureNode.standing] at hgrabs hungrabs
  have hlog : (CaptureDevice.ungrab node.device).2.ungrabs = [(CaptureDevice.ungrab node.device.device).1] := by
    show node.device.ungrabs ++ _ = _
    rw [hungrabs, List.nil_append]
  have hkeep : (CaptureDevice.ungrab node.device).2.grabs = node.device.grabs := rfl
  unfold CaptureNode.ungrab
  cases hanswer : CaptureDevice.ungrab node.device with
  | mk answer device =>
    rw [hanswer] at hlog hkeep
    obtain ⟨hfirst, hdevice⟩ := Prod.mk.inj hanswer
    refine ⟨by cases answer <;> exact hkeep.trans hgrabs, ?_⟩
    cases answer with
    | ok answered =>
      have hfree := LawfulCaptureDevice.ungrabbed node.device.device _ (Prod.ext hfirst rfl)
      refine .inl ⟨?_, hlog.trans (congrArg (fun a => [a]) hfirst)⟩
      rw [← hdevice]
      exact hfree
    | error error => exact .inr ⟨error, hlog.trans (congrArg (fun a => [a]) hfirst)⟩

/-! ## The transaction -/

/-- The nodes that were walked are taken where they are marked, and busy elsewhere. -/
def Walked.Sound (walked : Walked (Logged D)) : Prop :=
  ∀ entry ∈ walked, if entry.2 then entry.1.standing.Taken else entry.1.standing.Busy

theorem Walked.sound_cons {node : CaptureNode (Logged D)} {grabbed : Bool} {walked : Walked (Logged D)} :
    Walked.Sound ((node, grabbed) :: walked) ↔
      (if grabbed then node.standing.Taken else node.standing.Busy) ∧ walked.Sound :=
  List.forall_mem_cons

theorem rollBack_cons (node : CaptureNode (Logged D)) (grabbed : Bool) (older : Walked (Logged D)) :
    (rollBack ((node, grabbed) :: older)).2 = (if grabbed then node.ungrab.2 else node) :: (rollBack older).2 := by
  cases grabbed <;> rfl

theorem rollBack_spec [LawfulCaptureDevice D] {walked : Walked (Logged D)} (h : walked.Sound) :
    (∀ node ∈ (rollBack walked).2, node.standing.GivenBack) ∧
      (rollBack walked).2.map CaptureNode.path = walked.map fun entry => entry.1.path := by
  induction walked with
  | nil => exact ⟨fun _ hmem => (nomatch hmem), rfl⟩
  | cons entry older ih =>
    obtain ⟨node, grabbed⟩ := entry
    obtain ⟨hnode, holder⟩ := Walked.sound_cons.mp h
    obtain ⟨hback, hpaths⟩ := ih holder
    rw [rollBack_cons, List.forall_mem_cons, List.map_cons, List.map_cons, hpaths]
    cases grabbed with
    | true =>
      exact ⟨⟨.inr (.inr (returned_of_ungrab hnode)), hback⟩, congrArg (· :: _) (path_ungrab node)⟩
    | false => exact ⟨⟨.inr (.inl (Busy.refused hnode)), hback⟩, rfl⟩

/-- Every node is taken, or is one of those another program holds, and one at least is taken. -/
structure AllTaken (nodes : List Standing) (skipped : List String) : Prop where
  each : ∀ s ∈ nodes, s.Taken ∨ s.Busy
  skipped_eq : skipped = (nodes.filter fun s => !s.grabbed).map Standing.path
  one : ∃ s ∈ nodes, s.Taken

/-- The nodes that were walked, in order, and what the walk may answer of them. -/
theorem allTaken_of_walked {walked : Walked (Logged D)} {skipped : List String} (h : walked.Sound)
    (hskipped : skipped = ((walked.reverse.filter fun entry => !entry.2).map fun entry => entry.1.path))
    (hany : walked.any Prod.snd = true) :
    AllTaken (((walked.map Prod.fst).reverse).map CaptureNode.standing) skipped where
  each := by
    intro s hs
    simp only [List.map_reverse, List.map_map, List.mem_reverse, List.mem_map, Function.comp_apply] at hs
    obtain ⟨⟨node, grabbed⟩, hmem, rfl⟩ := hs
    cases grabbed with
    | true => exact .inl (h _ hmem)
    | false => exact .inr (h _ hmem)
  skipped_eq := by
    have hmark : ∀ entry ∈ walked.reverse, (!entry.2) = !entry.1.standing.grabbed := by
      rintro ⟨node, grabbed⟩ hmem
      have hnode := h _ (List.mem_reverse.mp hmem)
      cases grabbed with
      | true =>
        have hheld : node.standing.grabbed = true := hnode.1
        simp [hheld]
      | false =>
        have hfree : node.standing.grabbed = false := hnode.1
        simp [hfree]
    rw [hskipped, List.filter_congr hmark, ← List.map_reverse, List.map_map, List.filter_map, List.map_map]
    rfl
  one := by
    obtain ⟨⟨node, grabbed⟩, hmem, hgrabbed⟩ := List.any_eq_true.mp hany
    have hnode := h _ hmem
    cases (show grabbed = true from hgrabbed)
    refine ⟨node.standing, ?_, hnode⟩
    simp only [List.map_reverse, List.map_map, List.mem_reverse, List.mem_map]
    exact ⟨(node, true), hmem, rfl⟩

/-- What a transaction over some nodes leaves of them. -/
structure Transacted (paths : List String) (result : Except GrabError (List String))
    (nodes : List (CaptureNode (Logged D))) : Prop where
  paths_eq : nodes.map CaptureNode.path = paths
  taken : ∀ skipped, result = .ok skipped → nodes ≠ [] → AllTaken (nodes.map CaptureNode.standing) skipped
  givenBack : ∀ error, result = .error error → ∀ node ∈ nodes, node.standing.GivenBack

theorem grabFrom_spec [LawfulCaptureDevice D] (skipBusy : Bool) (walked : Walked (Logged D)) (skipped : List String)
    (rest : List (CaptureNode (Logged D))) (h : walked.Sound)
    (hskipped : skipped = ((walked.reverse.filter fun entry => !entry.2).map fun entry => entry.1.path))
    (hrest : ∀ node ∈ rest, node.standing.Untouched) :
    Transacted ((walked.reverse.map fun entry => entry.1.path) ++ rest.map CaptureNode.path)
      (grabFrom skipBusy walked skipped rest).1 (grabFrom skipBusy walked skipped rest).2 := by
  induction rest generalizing walked skipped with
  | nil =>
    have hpaths : (walked.map Prod.fst).reverse.map CaptureNode.path =
        (walked.reverse.map fun entry => entry.1.path) ++ [] := by
      simp [List.map_reverse, Function.comp_def]
    unfold grabFrom
    by_cases hany : walked.any Prod.snd = true
    · simp only [if_pos hany]
      refine ⟨hpaths, fun skipped' heq _ => ?_, fun error heq => nomatch heq⟩
      cases heq
      exact allTaken_of_walked h hskipped hany
    · -- nothing was taken: every node that was walked was skipped, and the last of them is the error
      simp only [if_neg hany]
      have hbusy : ∀ entry ∈ walked, entry.2 = false := by simpa using hany
      cases hlast : skipped.getLast? with
      | some path =>
        refine ⟨hpaths, fun _ heq => (nomatch heq), fun error _ node hmem => ?_⟩
        simp only [List.mem_reverse, List.mem_map] at hmem
        obtain ⟨⟨node, grabbed⟩, hmem, rfl⟩ := hmem
        have hnode := h _ hmem
        cases (show grabbed = false from hbusy _ hmem)
        exact .inr (.inl (Busy.refused hnode))
      | none =>
        refine ⟨hpaths, fun _ _ hne => ?_, fun error heq => (nomatch heq)⟩
        have hnone := List.getLast?_eq_none_iff.mp hlast
        rw [hnone, eq_comm, List.map_eq_nil_iff, List.filter_eq_nil_iff] at hskipped
        have hempty : walked = [] := by
          rw [List.eq_nil_iff_forall_not_mem]
          intro entry hmem
          have hmark := hskipped entry (List.mem_reverse.mpr hmem)
          simp [hbusy entry hmem] at hmark
        simp [hempty] at hne
  | cons node rest ih =>
    obtain ⟨hnode, hrest⟩ := List.forall_mem_cons.mp hrest
    unfold grabFrom
    cases hgrab : CaptureDevice.grab node.device with
    | mk answer device =>
      cases answer with
      | ok answered =>
        have htaken := taken_of_grab hnode hgrab
        have hnext := ih (({ node with device }, true) :: walked) skipped
          (Walked.sound_cons.mpr ⟨htaken, h⟩) (by simp [hskipped, List.filter_append]) hrest
        simpa using hnext
      | error source =>
        obtain ⟨hfree, hgrabs, hungrabs⟩ := refused_of_grab hnode hgrab
        simp only
        split
        · rename_i hskip
          have hbusy : (CaptureNode.standing { node with device }).Busy :=
            ⟨hfree, ⟨source, hskip.2, hgrabs⟩, hungrabs⟩
          have hnext := ih (({ node with device }, false) :: walked) (skipped ++ [node.path])
            (Walked.sound_cons.mpr ⟨hbusy, h⟩) (by simp [hskipped, List.filter_append]) hrest
          simpa using hnext
        · obtain ⟨hback, hpaths⟩ := rollBack_spec h
          refine ⟨?_, fun _ heq => (nomatch heq), fun error _ other hmem => ?_⟩
          · simp [List.map_reverse, hpaths]
          · rcases List.mem_append.mp hmem with hmem | hmem
            · exact hback other (List.mem_reverse.mp hmem)
            · rcases List.mem_cons.mp hmem with rfl | hmem
              · exact .inr (.inl ⟨hfree, ⟨source, hgrabs⟩, hungrabs⟩)
              · exact .inl (hrest other hmem)

/-! ## The set -/

namespace CaptureSet

/-- What is known of each node. -/
def standings (set : CaptureSet (Logged D)) : List Standing := set.nodes.map CaptureNode.standing

/-- A set that holds nothing, and of which nothing was asked. -/
structure Ungrabbed (set : CaptureSet (Logged D)) : Prop where
  flag : set.grabbed = false
  untouched : ∀ s ∈ set.standings, s.Untouched

/-- Asking for keys changes nothing that is known. -/
theorem neutralFrom_standings [LawfulCaptureDevice D] (nodes : List (CaptureNode (Logged D))) :
    (neutralFrom nodes).2.map CaptureNode.standing = nodes.map CaptureNode.standing := by
  induction nodes with
  | nil => rfl
  | cons node rest ih =>
    have hnode := standing_getKeyState node
    unfold neutralFrom
    cases hanswer : CaptureDevice.getKeyState node.device with
    | mk answer device =>
      rw [hanswer] at hnode
      cases answer with
      | error source => exact congrArg (· :: _) hnode
      | ok held =>
        simp only
        split
        · exact congrArg₂ List.cons hnode ih
        · exact congrArg (· :: _) hnode

theorem kernelIsNeutral_keeps [LawfulCaptureDevice D] {set after : CaptureSet (Logged D)}
    {answer : Except CaptureSetError Bool} (h : kernelIsNeutral set = (answer, after)) :
    after.standings = set.standings ∧ after.grabbed = set.grabbed := by
  obtain ⟨-, rfl⟩ := Prod.mk.inj h
  exact ⟨neutralFrom_standings set.nodes, rfl⟩

/-- **A set whose nodes are taken or busy is given back**: the taken ones are asked once, and the set counts as
grabbed only while one of them is. -/
theorem ungrabAll_spec [LawfulCaptureDevice D] {set : CaptureSet (Logged D)}
    (h : ∀ s ∈ set.standings, s.Taken ∨ s.Busy) : (∀ s ∈ set.ungrabAll.2.standings, s.GivenBack) ∧
      set.ungrabAll.2.standings.map Standing.path = set.standings.map Standing.path ∧
      (set.ungrabAll.2.grabbed = true → ∃ s ∈ set.ungrabAll.2.standings, s.grabbed = true) := by
  have hnodes : set.ungrabAll.2.nodes = set.nodes.map fun node => (ungrabOne node).2 := by
    simp [ungrabAll, List.map_reverse, Function.comp_def]
  have hone : ∀ node ∈ set.nodes, (ungrabOne node).2.standing.GivenBack ∧ (ungrabOne node).2.path = node.path := by
    intro node hmem
    unfold ungrabOne
    rcases h node.standing (List.mem_map_of_mem hmem) with htaken | hbusy
    · have hheld : CaptureDevice.isGrabbed node.device = true := htaken.1
      rw [if_pos hheld]
      exact ⟨.inr (.inr (returned_of_ungrab htaken)), path_ungrab node⟩
    · have hfree : ¬ CaptureDevice.isGrabbed node.device = true := Bool.eq_false_iff.mp hbusy.1
      rw [if_neg hfree]
      exact ⟨.inr (.inl hbusy.refused), rfl⟩
  refine ⟨?_, ?_, fun hgrabbed => ?_⟩
  · intro s hs
    simp only [standings, hnodes, List.map_map, List.mem_map, Function.comp_apply] at hs
    obtain ⟨node, hmem, rfl⟩ := hs
    exact (hone node hmem).1
  · simp only [standings, hnodes, List.map_map]
    exact List.map_congr_left fun node hmem => (hone node hmem).2
  · obtain ⟨node, hmem, hheld⟩ := List.any_eq_true.mp hgrabbed
    exact ⟨node.standing, List.mem_map_of_mem hmem, hheld⟩

/-! ## The grab of a set -/

/-- Every node was given back, and the set counts as grabbed only where an ungrab failed. -/
structure NoneKept (set : CaptureSet (Logged D)) : Prop where
  asked : ∀ s ∈ set.standings,
    (.ok () ∈ s.grabs → s.ungrabs.length = 1) ∧ (.ok () ∉ s.grabs → s.ungrabs = [])
  stuck : ∀ s ∈ set.standings, s.grabbed = true → ∃ error, .error error ∈ s.ungrabs
  flag : set.grabbed = true → ∃ s ∈ set.standings, ∃ error, .error error ∈ s.ungrabs

theorem noneKept_of_givenBack {set : CaptureSet (Logged D)} (h : ∀ s ∈ set.standings, s.GivenBack)
    (hflag : set.grabbed = true → ∃ s ∈ set.standings, s.grabbed = true) : NoneKept set where
  asked s hs := (h s hs).asked
  stuck s hs := (h s hs).stuck
  flag hgrabbed := by
    obtain ⟨s, hs, hheld⟩ := hflag hgrabbed
    exact ⟨s, hs, (h s hs).stuck hheld⟩

theorem noneKept_of_ungrabbed {set : CaptureSet (Logged D)} (h : set.Ungrabbed) : NoneKept set :=
  noneKept_of_givenBack (fun s hs => .inl (h.untouched s hs)) fun hflag => by simp [h.flag] at hflag

/-- What a grab of an ungrabbed set leaves. -/
def Grabs (before : CaptureSet (Logged D)) : Except CaptureSetError (List String) → CaptureSet (Logged D) → Prop
  | .ok skipped, after =>
    AllTaken after.standings skipped ∧ after.standings.map Standing.path = before.standings.map Standing.path
  | .error _, after =>
    NoneKept after ∧ after.standings.map Standing.path = before.standings.map Standing.path

theorem Grabs.of_paths {before checked after : CaptureSet (Logged D)} {result : Except CaptureSetError (List String)}
    (h : Grabs checked result after)
    (hpaths : checked.standings.map Standing.path = before.standings.map Standing.path) :
    Grabs before result after := by
  cases result <;> exact ⟨h.1, h.2.trans hpaths⟩

/-- The last check gives everything back or nothing. -/
theorem confirm_spec [LawfulCaptureDevice D] {set : CaptureSet (Logged D)} {skipped : List String}
    (h : AllTaken set.standings skipped) : Grabs set (confirm skipped set).1 (confirm skipped set).2 := by
  unfold confirm
  cases hneutral : kernelIsNeutral set with
  | mk answer after =>
    obtain ⟨hstandings, -⟩ := kernelIsNeutral_keeps hneutral
    rw [← hstandings] at h
    have hpaths := congrArg (List.map Standing.path) hstandings
    obtain ⟨hback, hpaths', hflag⟩ := ungrabAll_spec h.each
    match answer with
    | .ok true => exact ⟨h, hpaths⟩
    | .ok false => exact ⟨noneKept_of_givenBack hback hflag, hpaths'.trans hpaths⟩
    | .error error => exact ⟨noneKept_of_givenBack hback hflag, hpaths'.trans hpaths⟩

/-- The transaction over the nodes of an ungrabbed set that is not empty. -/
theorem grabNodes_spec [LawfulCaptureDevice D] {set : CaptureSet (Logged D)} (skipBusy : Bool)
    (h : set.Ungrabbed) (hne : set.nodes ≠ []) : Grabs set (grabNodes skipBusy set).1 (grabNodes skipBusy set).2 := by
  have hwalk := grabFrom_spec skipBusy [] [] set.nodes (fun _ hmem => nomatch hmem) rfl
    fun node hmem => h.untouched _ (List.mem_map_of_mem hmem)
  unfold grabNodes Act.on grabTransaction
  cases hresult : grabFrom skipBusy [] [] set.nodes with
  | mk result nodes =>
    rw [hresult] at hwalk
    have hpaths : (nodes.map CaptureNode.standing).map Standing.path = set.standings.map Standing.path := by
      rw [standings, List.map_map, List.map_map]
      exact hwalk.paths_eq
    have hnodes : nodes ≠ [] := by
      rintro rfl
      simp [standings] at hpaths
      exact hne hpaths
    cases result with
    | ok skipped => exact ⟨hwalk.taken skipped rfl hnodes, hpaths⟩
    | error error =>
      refine ⟨noneKept_of_givenBack (fun s hs => ?_) fun hflag => ?_, hpaths⟩
      · obtain ⟨node, hmem, rfl⟩ := List.mem_map.mp hs
        exact hwalk.givenBack error rfl node hmem
      · exact absurd (h.flag.symm.trans hflag) Bool.false_ne_true

/-- **A grab takes every node or none.** -/
theorem grabAll_spec [LawfulCaptureDevice D] {set : CaptureSet (Logged D)} (skipBusy : Bool)
    (h : set.Ungrabbed) : Grabs set (grabAll skipBusy set).1 (grabAll skipBusy set).2 := by
  have hkept : NoneKept set := noneKept_of_ungrabbed h
  unfold grabAll
  rw [Act.bind_of_ok (Act.read_apply set), h.flag]
  by_cases hempty : set.nodes.isEmpty = true
  · rw [if_pos hempty]
    exact ⟨hkept, rfl⟩
  rw [if_neg hempty, if_neg Bool.false_ne_true]
  by_cases hpressed : (!set.aggregate.nothingPressed || !set.aggregate.allAtBoundary) = true
  · rw [if_pos hpressed]
    exact ⟨hkept, rfl⟩
  rw [if_neg hpressed, Act.bind_apply]
  cases hneutral : kernelIsNeutral set with
  | mk answer checked =>
    obtain ⟨hstandings, hflag⟩ := kernelIsNeutral_keeps hneutral
    have hpaths := congrArg (List.map Standing.path) hstandings
    have hchecked : checked.Ungrabbed := ⟨hflag.trans h.flag, fun s hs => h.untouched s (hstandings ▸ hs)⟩
    match answer with
    | .error error => exact ⟨noneKept_of_ungrabbed hchecked, hpaths⟩
    | .ok false => exact ⟨noneKept_of_ungrabbed hchecked, hpaths⟩
    | .ok true =>
      have hne : checked.nodes ≠ [] := by
        intro hnil
        have hlength := congrArg List.length hstandings
        simp only [standings, hnil, List.length_map, List.map_nil, List.length_nil] at hlength
        exact hempty (List.isEmpty_iff.mpr (List.length_eq_zero_iff.mp hlength.symm))
      have hnodes := grabNodes_spec skipBusy hchecked hne
      show Grabs set ((grabNodes skipBusy >>= _) checked).1 ((grabNodes skipBusy >>= _) checked).2
      rw [Act.bind_apply]
      cases hgrab : grabNodes skipBusy checked with
      | mk result after =>
        rw [hgrab] at hnodes
        cases result with
        | error error => exact hnodes.of_paths hpaths
        | ok skipped =>
          have hall : AllTaken (standings { after with grabbed := true }) skipped := hnodes.1
          have hconfirm := confirm_spec hall
          exact (hconfirm.of_paths hnodes.2).of_paths hpaths

end CaptureSet

end Zflow.Linux

/-! ## The input thread -/

namespace Zflow.InputThread

open Linux Lib

variable {D : Type} [CaptureDevice D]

namespace Sending

/-- The devices are asked for by an ownership that waits for them. -/
theorem pending_of_acquireGrabs {o : SourceOwnership} {aggregate : AggregateInputState} {neutral : Bool}
    (h : (o.atCompleteBoundary aggregate neutral).1 = .acquireGrabs) :
    (o.atCompleteBoundary aggregate neutral).2.phase = .arming ∧
      (o.atCompleteBoundary aggregate neutral).2.grabPending = true := by
  rcases o.boundary_cases aggregate neutral with
    ⟨last, pending, hsame⟩ | ⟨hphase, -, -, -, -, htaken⟩ | ⟨-, -, -, hgiven⟩
  · rw [hsame] at h
    cases h
  · rw [htaken]
    exact ⟨hphase, rfl⟩
  · rw [hgiven] at h
    cases h

/-- **The thread is remote after a success, and holds no descriptor after a failure.** -/
theorem acquireGrabs_spec {t : Sending D} (hphase : t.ownership.phase = .arming)
    (hpending : t.ownership.grabPending = true) :
    match CaptureSet.grabAll t.captureDevices.isEmpty t.capture with
    | (.ok _, grabbed) => t.acquireGrabs.ownership.phase = .remote ∧ t.acquireGrabs.capture = grabbed
    | (.error _, _) => t.acquireGrabs.ownership.phase = .idle ∧ t.acquireGrabs.capture.nodes = [] ∧
        t.acquireGrabs.registrations = [] := by
  have hsucceeds : t.ownership.grabSucceeded = .ok { t.ownership with grabPending := false, phase := .remote } := by
    simp [SourceOwnership.grabSucceeded, hphase, hpending]
  have hfails : t.ownership.grabFailed = .ok { t.ownership with grabPending := false, phase := .idle } := by
    simp [SourceOwnership.grabFailed, hphase, hpending]
  unfold acquireGrabs
  cases CaptureSet.grabAll t.captureDevices.isEmpty t.capture with
  | mk result after =>
    cases result with
    | ok skipped => exact ⟨congrArg (fun result => (t.ownership.orKeep result).phase) hsucceeds, rfl⟩
    | error error =>
      exact ⟨congrArg (fun result => (t.ownership.orKeep result).phase) hfails, rfl, rfl⟩

end Sending

/-- **Grabs are all or none**, for every device that keeps its flag: a grab of an ungrabbed set takes every node
but those that another program holds, or gives back once each node it took. When the input thread asks for the
devices, it is remote where that succeeded, and holds no descriptor where it did not. -/
theorem grabs_all_or_none (D : Type) [CaptureDevice D] [LawfulCaptureDevice D] :
    (∀ (set : CaptureSet (Logged D)) (skipBusy : Bool), set.Ungrabbed →
      CaptureSet.Grabs set (CaptureSet.grabAll skipBusy set).1 (CaptureSet.grabAll skipBusy set).2) ∧
    ∀ (t : Sending D) (neutral : Bool) (asked : CaptureSet D), t.ownership.phase = .arming →
      CaptureSet.kernelIsNeutral t.capture = (.ok neutral, asked) →
      (t.ownership.atCompleteBoundary asked.aggregate neutral).1 = .acquireGrabs →
      match CaptureSet.grabAll t.captureDevices.isEmpty asked with
      | (.ok _, grabbed) => t.advanceOwnershipBoundary.ownership.phase = .remote ∧
          t.advanceOwnershipBoundary.capture = grabbed
      | (.error _, _) => t.advanceOwnershipBoundary.ownership.phase = .idle ∧
          t.advanceOwnershipBoundary.capture.nodes = [] ∧ t.advanceOwnershipBoundary.registrations = [] := by
  refine ⟨fun set skipBusy h => CaptureSet.grabAll_spec skipBusy h, ?_⟩
  intro t neutral asked hphase hasked heffect
  obtain ⟨harming, hpending⟩ := Sending.pending_of_acquireGrabs heffect
  have hstep : t.advanceOwnershipBoundary = Sending.acquireGrabs { t with
        capture := asked, ownership := (t.ownership.atCompleteBoundary asked.aggregate neutral).2 } := by
    unfold Sending.advanceOwnershipBoundary
    rw [if_pos hphase, hasked]
    show Sending.carryOut _ (t.ownership.atCompleteBoundary asked.aggregate neutral).1 = _
    rw [heffect]
    rfl
  rw [hstep]
  exact Sending.acquireGrabs_spec (t := { t with
    capture := asked, ownership := (t.ownership.atCompleteBoundary asked.aggregate neutral).2 }) harming hpending

/-! ## A keyboard another program holds -/

/-- A device that answers as the kernel does while nothing else changes. -/
structure SteadyDevice where
  keys : List KeyCode
  /-- Another program has it. -/
  busy : Bool
  grabbed : Bool

instance : CaptureDevice SteadyDevice where
  getKeyState d := (.ok d.keys, d)
  grab d := if d.busy then (.error .busy, d) else (.ok (), { d with grabbed := true })
  ungrab d := (.ok (), { d with grabbed := false })
  isGrabbed d := d.grabbed

instance : LawfulCaptureDevice SteadyDevice where
  getKeyState _ := rfl
  grabbed d d' h := by
    simp only [CaptureDevice.grab] at h
    split at h
    · cases h
    · cases h
      rfl
  refused d d' error h := by
    simp only [CaptureDevice.grab] at h
    split at h <;> cases h
    rfl
  ungrabbed d d' h := by
    cases h
    rfl
  stuck d d' error h := nomatch h

/-- A keyboard that a remapper holds, and a mouse. -/
def sampleSet : CaptureSet (Logged SteadyDevice) where
  nodes := [⟨"keyboard", ⟨⟨[], true, false⟩, [], []⟩⟩, ⟨"mouse", ⟨⟨[], false, false⟩, [], []⟩⟩]
  aggregate := .default
  grabbed := false

/-- A thread that was asked for both devices and is about to take them. -/
def sampleThread : Sending SteadyDevice :=
  ⟨["mouse", "keyboard"],
    ⟨[⟨"mouse", ⟨[], false, false⟩⟩, ⟨"keyboard", ⟨[], true, false⟩⟩], .default, false⟩,
    { SourceOwnership.default with phase := .arming, phaseTransitionPending := true }, some "desk", ["mouse"], false, []⟩

theorem grabs_all_or_none_sample : (CaptureSet.grabAll true sampleSet).1 = .ok ["keyboard"] ∧
      CaptureSet.Grabs sampleSet (CaptureSet.grabAll true sampleSet).1 (CaptureSet.grabAll true sampleSet).2 ∧
      sampleThread.advanceOwnershipBoundary.ownership.phase = .idle ∧
      sampleThread.advanceOwnershipBoundary.capture.nodes = [] ∧
      sampleThread.advanceOwnershipBoundary.registrations = [] := by
  have hungrabbed : sampleSet.Ungrabbed := ⟨rfl, fun s hs => by
    rcases List.mem_cons.mp hs with rfl | hs
    · exact ⟨rfl, rfl, rfl⟩
    · rw [List.mem_singleton.mp hs]
      exact ⟨rfl, rfl, rfl⟩⟩
  exact ⟨rfl, (grabs_all_or_none SteadyDevice).1 sampleSet true hungrabbed,
    (grabs_all_or_none SteadyDevice).2 sampleThread true sampleThread.capture rfl rfl rfl⟩

end Zflow.InputThread
