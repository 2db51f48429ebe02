import Zflow.Laws.Lens.Exact
import Zflow.Lens.Budget

/-!
# The lens has no hole, whatever the budget

A tile under the lens that the other side has nothing of is work, work of that kind is always chosen, at
some level, and no move takes a level away: so a decoder that takes the packet covers the lens. What the
round spends stays in the range of a `usize`, as long as the compressor keeps its bound and the floating
point rounds in order (`Rounds`): then the ratio is that of an estimate (`Rated`), a preview is estimated no
dearer than the exact tile, and the whole desktop fits.
-/

namespace Zflow.Lens

open Lib Zflow.Core Encoder Decoder

variable {F : Type} {e e' start : Encoder F} {capture : Capture} {now every : UInt64}

/-! ## What is missing is sent -/

section Covers

variable [LensF64 F] {r r' : Round F} {view : Option (View F)}

omit [LensF64 F] in
/-- No move takes from the other side what it has. -/
theorem Moves.level_ne_zero (hmoves : Moves capture now Sent r r') {id : Nat}
    (h : (r.encoder.tiles id).level ≠ 0) : (r'.encoder.tiles id).level ≠ 0 := by
  induction hmoves with
  | refl => exact h
  | tail _ hmove ih =>
    cases hmove with
    | need other every _ _ _ =>
      rw [Round.need_encoder, (alike_need _ other capture now every).level]
      exact ih
    | put other level _ _ hlevel =>
      by_cases hsame : id = other
      · subst hsame
        have hpos := hlevel.pos
        simp only [Round.put_encoder, put_tiles_same]
        omega
      · rw [Round.put_encoder, put_tiles_of_ne hsame]
        exact ih
    | note _ _ _ _ _ _ => exact ih

/-- The lens after some of its tiles: each is work that is missing, or the other side has it. -/
structure Missing (done : List Nat) (state : Round F × List (F × Nat × Need)) : Prop where
  listed : ∀ id ∈ done, (state.1.encoder.tiles id).level ≠ 0 ∨ (id, Need.missing) ∈ state.2.map Prod.snd

theorem Missing.lookAt {done : List Nat} {state : Round F × List (F × Nat × Need)} (h : Missing done state)
    (entry : F × Nat) : Missing (done ++ [entry.2]) (lookAt view capture now state entry) := by
  obtain ⟨at_, work⟩ := state
  have hlevel (id : Nat) : ((at_.need entry.2 capture now 0).2.encoder.tiles id).level =
      (at_.encoder.tiles id).level := (alike_need at_.encoder entry.2 capture now 0).level id
  have hlast : (at_.encoder.tiles entry.2).level ≠ 0 ∨ (at_.need entry.2 capture now 0).1 = .missing := by
    by_cases hzero : (at_.encoder.tiles entry.2).level = 0
    · right
      simp only [Round.need, Encoder.need, if_pos hzero]
    · exact .inl hzero
  refine ⟨fun id hid => ?_⟩
  simp only [Encoder.lookAt]
  rcases List.mem_append.mp hid with hbefore | heq
  · have hlisted := h.listed id hbefore
    split
    · rw [hlevel]
      exact hlisted
    · rw [hlevel, List.map_append]
      exact hlisted.imp_right (List.mem_append_left _)
  · obtain rfl := List.mem_singleton.mp heq
    split
    · rename_i hcurrent
      rw [hlevel]
      refine .inl (hlast.resolve_right fun hmissing => ?_)
      rw [hcurrent] at hmissing
      cases hmissing
    · rw [hlevel, List.map_append]
      refine hlast.imp_right fun hmissing => List.mem_append_right _ ?_
      rw [List.map_singleton, hmissing]
      exact List.mem_singleton_self _

theorem Missing.foldl (view : Option (View F)) (capture : Capture) (now : UInt64)
    (entries : List (F × Nat)) {done : List Nat} {state : Round F × List (F × Nat × Need)}
    (h : Missing done state) : Missing (done ++ entries.map Prod.snd)
      (entries.foldl (Encoder.lookAt view capture now) state) := by
  induction entries generalizing done state with
  | nil => simpa using h
  | cons entry rest ih =>
    rw [List.map_cons, List.append_cons]
    exact ih (h.lookAt entry)

/-- What the work of the lens leaves out the other side has. -/
theorem missing_work (e : Encoder F) (view : Option (View F)) (capture : Capture) (now : UInt64) {id : Nat}
    (hid : id ∈ (e.lens view).map Prod.snd) : ((e.lensWork view capture now).1.encoder.tiles id).level ≠ 0 ∨
      (id, Need.missing) ∈ (e.lensWork view capture now).2 := by
  have hmissing : Missing [] ((⟨e, 0, 0, 0, []⟩ : Round F), ([] : List (F × Nat × Need))) :=
    ⟨fun _ hin => absurd hin List.not_mem_nil⟩
  have hlisted := (hmissing.foldl view capture now (e.lens view)).listed id (by simpa using hid)
  refine hlisted.imp_right fun hin => ?_
  exact ((List.perm_insertionSort _ _).map Prod.snd).mem_iff.mpr hin

/-- What is missing is chosen, at some level. -/
theorem chosen_missing (work : List (Nat × Need)) (budget : Nat) {id : Nat} (hid : (id, Need.missing) ∈ work) :
    id ∈ (e.choose work budget).chosen.map Prod.fst := by
  unfold choose
  simp only
  split
  · rw [List.map_map]
    exact List.mem_map_of_mem (f := Prod.fst) hid
  · -- a tile of the work keeps what was chosen, and adds itself where it is missing
    have hone (level : Nat) (stale : Bool) (choice : Choice) (w : Nat × Need)
        (h : id ∈ choice.chosen.map Prod.fst ∨ w = (id, .missing)) :
        id ∈ (e.chooseOne level stale choice w).chosen.map Prod.fst := by
      simp only [Encoder.chooseOne]
      generalize e.cost w.1 1 - _ = extra
      split
      · rw [List.map_append, List.mem_append]
        refine h.imp_right fun heq => ?_
        simp [heq]
      · rcases h with hin | heq
        · split
          · rw [List.map_append]
            exact List.mem_append_left _ hin
          · exact hin
        · simp [heq]
    have hfold (level : Nat) (stale : Bool) (rest : List (Nat × Need)) (choice : Choice)
        (h : id ∈ choice.chosen.map Prod.fst ∨ (id, Need.missing) ∈ rest) :
        id ∈ (rest.foldl (e.chooseOne level stale) choice).chosen.map Prod.fst := by
      induction rest generalizing choice with
      | nil => exact h.resolve_right List.not_mem_nil
      | cons w rest ih =>
        refine ih _ ?_
        rcases h with hin | hin
        · exact .inl (hone level stale choice w (.inl hin))
        · rcases List.mem_cons.mp hin with rfl | hin
          · exact .inl (hone level stale choice _ (.inr rfl))
          · exact .inr hin
    exact hfold _ _ work _ (.inr hid)

omit [LensF64 F] in
/-- What is sent the other side has. -/
theorem level_putAll {chosen : List (Nat × Nat)} (hsent : ∀ c ∈ chosen, Sent c.2) {id : Nat}
    (h : id ∈ chosen.map Prod.fst ∨ (r.encoder.tiles id).level ≠ 0) :
    ((putAll capture now r chosen).encoder.tiles id).level ≠ 0 := by
  induction chosen generalizing r with
  | nil => exact h.resolve_left List.not_mem_nil
  | cons c rest ih =>
    refine ih (fun other hother => hsent other (List.mem_cons_of_mem _ hother)) ?_
    have hpos := (hsent c List.mem_cons_self).pos
    by_cases hsame : id = c.1
    · right
      subst hsame
      simp only [Round.put_encoder, put_tiles_same]
      omega
    · rw [Round.put_encoder, put_tiles_of_ne hsame]
      exact h.imp_left fun hin => (List.mem_cons.mp hin).resolve_left hsame

/-- **Nothing under the lens is missing** after a round, whatever its budget. -/
theorem level_round (hsound : Sound e now) (capture : Capture) (view : Option (View F)) (budget : Budget) {id : Nat}
    (hid : id ∈ (e.lens view).map Prod.snd) : ((e.round_ capture view budget now).1.encoder.tiles id).level ≠ 0 := by
  rw [← lens_begin e now] at hid
  have hwork := missing_work (e.begin_ now) view capture now hid
  have hsent : ((e.sendLens capture view budget.lens now).1.encoder.tiles id).level ≠ 0 := by
    refine level_putAll (chooses_choose _ _).sent ?_
    rcases hwork with hlevel | hmissing
    · exact .inr hlevel
    · exact .inl (chosen_missing _ _ hmissing)
  have hplaced : Placed (e.sendLens capture view budget.lens now).1 :=
    (placed_fresh hsound.placed now).moves (moves_sendLens capture view budget.lens hsound.picked hsound.time).1
  unfold round_
  generalize e.sendLens capture view budget.lens now = sent at hsent hplaced ⊢
  obtain ⟨after, choice⟩ := sent
  cases view with
  | none => exact hsent
  | some view =>
    have hspread : Moves capture now (· = 1) { after with fill := min budget.fill choice.left }
        (spread view capture now { after with fill := min budget.fill choice.left }) :=
      moves_spread view hplaced
    exact (hspread.mono fun level hone => .inl hone).level_ne_zero hsent

end Covers

/-! ## What a round spends -/

/-- **What is relied on** of `f64`: an operation keeps the order of finite numbers, and is exact on small
integers. The last is what the two weights of the estimate come to. -/
structure Rounds (F : Type) [LensF64 F] : Prop where
  refl : ∀ a : F, F64.isFinite a = true → F64.le a a = true
  trans : ∀ a b c : F, F64.le a b = true → F64.le b c = true → F64.le a c = true
  finite_of_le : ∀ a b : F, F64.le (F64.ofNat 0) a = true → F64.le a b = true → F64.isFinite b = true →
    F64.isFinite a = true
  finite_ofNat : ∀ n ≤ u64Max, F64.isFinite (F64.ofNat n : F) = true
  ofNat_le : ∀ m n, m ≤ n → F64.le (F64.ofNat m : F) (F64.ofNat n) = true
  add_le : ∀ a b c d : F, F64.le a b = true → F64.isFinite b = true → F64.le c d = true →
    F64.isFinite d = true → F64.le (F64.add a c) (F64.add b d) = true
  mul_le : ∀ a b c d : F, F64.le (F64.ofNat 0) a = true → F64.le a b = true → F64.isFinite b = true →
    F64.le (F64.ofNat 0) c = true → F64.le c d = true → F64.isFinite d = true →
      F64.le (F64.mul a c) (F64.mul b d) = true
  add_ofNat : ∀ m n, m + n ≤ 2 ^ 53 → F64.add (F64.ofNat m : F) (F64.ofNat n) = F64.ofNat (m + n)
  mul_ofNat : ∀ m n, m * n ≤ 2 ^ 53 → F64.mul (F64.ofNat m : F) (F64.ofNat n) = F64.ofNat (m * n)
  div_nonneg : ∀ m n, 0 < n → F64.le (F64.ofNat 0 : F) (F64.div (F64.ofNat m) (F64.ofNat n)) = true
  div_le : ∀ m n k, 0 < n → m ≤ k * n → k * n ≤ 2 ^ 53 →
    F64.le (F64.div (F64.ofNat m) (F64.ofNat n) : F) (F64.ofNat k) = true
  toUsize_le : ∀ a b : F, F64.le a b = true → LensF64.toUsize a ≤ LensF64.toUsize b
  toUsize_ofNat : ∀ n ≤ 2 ^ 53, LensF64.toUsize (F64.ofNat n : F) = n
  blend : F64.le
    (F64.add (F64.mul (F64.div (F64.ofNat 8) (F64.ofNat 10)) (F64.ofNat 128))
      (F64.mul (F64.div (F64.ofNat 2) (F64.ofNat 10)) (F64.ofNat 128)))
    (F64.ofNat 128 : F) = true

/-- **What is relied on** of the compressor's output: `ZSTD_compressBound`. -/
def Zstd.Bounded (zstd : Zstd) : Prop :=
  ∀ raw, (zstd.compress raw).length ≤ raw.length + raw.length / 256 + 64

section Budget

variable [LensF64 F] {id level : Nat}

/-- A ratio of an estimate. -/
structure IsRatio (ratio : F) : Prop where
  nonneg : F64.le (F64.ofNat 0) ratio = true
  most : F64.le ratio (F64.ofNat 128) = true

namespace IsRatio

variable {ratio next weight : F}

theorem finite (hrounds : Rounds F) (h : IsRatio ratio) : F64.isFinite ratio = true :=
  hrounds.finite_of_le _ _ h.nonneg h.most (hrounds.finite_ofNat 128 (by decide))

theorem of_div (hrounds : Rounds F) {m n : Nat} (hn : 0 < n) (hle : m ≤ 128 * n) (hsmall : n ≤ 2 ^ 46) :
    IsRatio (F64.div (F64.ofNat m) (F64.ofNat n) : F) :=
  ⟨hrounds.div_nonneg m n hn, hrounds.div_le m n 128 hn hle (by omega)⟩

theorem most_self (hrounds : Rounds F) : IsRatio (F64.ofNat 128 : F) :=
  ⟨hrounds.ofNat_le 0 128 (by decide), hrounds.ofNat_le 128 128 le_rfl⟩

/-- A product of two ratios is not negative, and is at most that of the largest. -/
theorem mul_nonneg (hrounds : Rounds F) (hweight : IsRatio weight) (h : IsRatio ratio) :
    F64.le (F64.ofNat 0) (F64.mul weight ratio) = true := by
  have hzero : F64.le (F64.ofNat 0 : F) (F64.ofNat 0) = true := hrounds.ofNat_le 0 0 le_rfl
  have hmul := hrounds.mul_le (F64.ofNat 0) weight (F64.ofNat 0) ratio hzero hweight.nonneg
    (hweight.finite hrounds) hzero h.nonneg (h.finite hrounds)
  rwa [hrounds.mul_ofNat 0 0 (by decide)] at hmul

theorem mul_finite (hrounds : Rounds F) (hweight : IsRatio weight) (h : IsRatio ratio) :
    F64.isFinite (F64.mul weight ratio) = true := by
  have hmost := most_self hrounds
  have hmul := hrounds.mul_le _ _ _ _ hweight.nonneg hweight.most (hmost.finite hrounds) h.nonneg h.most
    (hmost.finite hrounds)
  rw [hrounds.mul_ofNat 128 128 (by decide)] at hmul
  exact hrounds.finite_of_le _ _ (mul_nonneg hrounds hweight h) hmul (hrounds.finite_ofNat _ (by decide))

/-- The estimate moves a fifth of the way, and stays a ratio. -/
theorem blend (hrounds : Rounds F) (h : IsRatio ratio) (hnext : IsRatio next) :
    IsRatio (F64.add (F64.mul (F64.div (F64.ofNat 8) (F64.ofNat 10)) ratio)
      (F64.mul (F64.div (F64.ofNat 2) (F64.ofNat 10)) next)) := by
  have hmost := most_self hrounds
  have hold : IsRatio (F64.div (F64.ofNat 8) (F64.ofNat 10) : F) := of_div hrounds (by decide) (by decide) (by decide)
  have hnew : IsRatio (F64.div (F64.ofNat 2) (F64.ofNat 10) : F) := of_div hrounds (by decide) (by decide) (by decide)
  have hle {weight a : F} (hweight : IsRatio weight) (ha : IsRatio a) :
      F64.le (F64.mul weight a) (F64.mul weight (F64.ofNat 128)) = true :=
    hrounds.mul_le _ _ _ _ hweight.nonneg (hrounds.refl _ (hweight.finite hrounds)) (hweight.finite hrounds)
      ha.nonneg ha.most (hmost.finite hrounds)
  refine ⟨?_, ?_⟩
  · have hadd := hrounds.add_le _ _ _ _ (mul_nonneg hrounds hold h) (mul_finite hrounds hold h)
      (mul_nonneg hrounds hnew hnext) (mul_finite hrounds hnew hnext)
    rwa [hrounds.add_ofNat 0 0 (by decide)] at hadd
  · refine hrounds.trans _ _ _ ?_ hrounds.blend
    exact hrounds.add_le _ _ _ _ (hle hold h) (mul_finite hrounds hold hmost) (hle hnew hnext)
      (mul_finite hrounds hnew hmost)

end IsRatio

/-! ### The estimate of a tile -/

theorem recordSize_le (width height : Nat) (hlevel : Sent level) :
    recordSize width height level ≤ recordSize width height 1 := by
  unfold recordSize
  rw [divCeil_one, divCeil_one]
  exact Nat.mul_le_mul_right 4 (Nat.mul_le_mul (divCeil_le_self hlevel.pos) (divCeil_le_self hlevel.pos))

/-- The estimate of a record of some size. -/
theorem toUsize_estimate (hrounds : Rounds F) {ratio : F} (h : IsRatio ratio) {m n : Nat} (hle : m ≤ n)
    (hn : n ≤ 16384) : LensF64.toUsize (F64.mul (F64.ofNat m) ratio) ≤
      LensF64.toUsize (F64.mul (F64.ofNat n) ratio) ∧ LensF64.toUsize (F64.mul (F64.ofNat n) ratio) ≤ 2097152 := by
  have hmost := IsRatio.most_self hrounds
  have hfinite (k : Nat) (hk : k ≤ 16384) : F64.isFinite (F64.ofNat k : F) = true :=
    hrounds.finite_ofNat k (hk.trans (by decide))
  refine ⟨hrounds.toUsize_le _ _ ?_, ?_⟩
  · exact hrounds.mul_le _ _ _ _ (hrounds.ofNat_le 0 m (Nat.zero_le m)) (hrounds.ofNat_le m n hle) (hfinite n hn)
      h.nonneg (hrounds.refl _ (h.finite hrounds)) (h.finite hrounds)
  · have hmul := hrounds.mul_le _ _ _ _ (hrounds.ofNat_le 0 n (Nat.zero_le n)) (hrounds.ofNat_le n 16384 hn)
      (hfinite 16384 le_rfl) h.nonneg h.most (hmost.finite hrounds)
    rw [hrounds.mul_ofNat 16384 128 (by decide)] at hmul
    have hall := hrounds.toUsize_le _ _ hmul
    rwa [hrounds.toUsize_ofNat _ (by decide)] at hall

variable (hrounds : Rounds F) (hratio : IsRatio e.ratio)

include hrounds hratio

/-- A preview is estimated no dearer than the exact tile. -/
theorem cost_le (id : Nat) (hlevel : Sent level) : e.cost id level ≤ e.cost id 1 :=
  Nat.add_le_add_right (toUsize_estimate hrounds hratio (recordSize_le _ _ hlevel)
    (recordSize_tile_le id (.inl rfl))).1 5

theorem cost_most (id : Nat) (hlevel : Sent level) : e.cost id level ≤ 2097157 :=
  Nat.add_le_add_right (toUsize_estimate hrounds hratio le_rfl (recordSize_tile_le id hlevel)).2 5

theorem costUsize_eq (id : Nat) (hlevel : Sent level) : e.costUsize id level = some (e.cost id level) :=
  checkedAddU64_eq_some.mpr ⟨rfl, (cost_most hrounds hratio id hlevel).trans (by decide)⟩

/-- So many tiles come to a sum in range. -/
theorem sum_cost_le {work : List (Nat × Need)} (hlength : work.length ≤ 2176) (hlevel : Sent level) :
    (work.map fun w => e.cost w.1 level).sum ≤ u64Max / 2 := by
  have hsum := List.sum_le_card_nsmul (work.map fun w => e.cost w.1 level) 2097157 fun cost hcost => by
    obtain ⟨w, -, rfl⟩ := List.mem_map.mp hcost
    exact cost_most hrounds hratio w.1 hlevel
  rw [List.length_map, nsmul_eq_mul, Nat.cast_id] at hsum
  exact hsum.trans ((Nat.mul_le_mul_right _ hlength).trans (by decide))

theorem previewCostUsize_eq {work : List (Nat × Need)} (hlength : work.length ≤ 2176) (hlevel : Sent level)
    (of : Need) : e.previewCostUsize work level of = some (e.previewCost work level of) ∧
      e.previewCost work level of ≤ u64Max / 2 := by
  have hless : (work.filter fun w => w.2 = of).length ≤ 2176 := (List.length_filter_le _ _).trans hlength
  have hle := sum_cost_le hrounds hratio hless hlevel
  refine ⟨?_, hle⟩
  have hsum := checkedSumU64_map 0 (fun w (_ : w ∈ work.filter fun w => w.2 = of) =>
    costUsize_eq hrounds hratio w.1 hlevel) (by omega)
  rwa [Nat.zero_add] at hsum

theorem chooseOneUsize_eq (hlevel : Sent level) (stale : Bool) (choice : Choice) (w : Nat × Need) :
    e.chooseOneUsize level stale choice w = some (e.chooseOne level stale choice w) := by
  obtain ⟨id, need⟩ := w
  have hless : (if (decide (need = .missing) || (stale && decide (need = .stale))) = true then
      e.costUsize id level else some 0) =
        some (if (decide (need = .missing) || (stale && decide (need = .stale))) = true then
          e.cost id level else 0) := by
    split
    · exact costUsize_eq hrounds hratio id hlevel
    · rfl
  have hle : (if (decide (need = .missing) || (stale && decide (need = .stale))) = true then
      e.cost id level else 0) ≤ e.cost id 1 := by
    split
    · exact cost_le hrounds hratio id hlevel
    · exact Nat.zero_le _
  unfold chooseOneUsize chooseOne
  simp only [costUsize_eq hrounds hratio id (.inl rfl), hless, Option.bind_eq_bind, Option.bind_some,
    checkedSubU64_of_le hle]
  generalize e.cost id 1 - _ = extra
  by_cases hfits : extra ≤ choice.left
  · rw [if_pos hfits, if_pos hfits, checkedSubU64_of_le hfits]
    rfl
  · rw [if_neg hfits, if_neg hfits]
    rfl

theorem chooseUsize_eq {work : List (Nat × Need)} (hlength : work.length ≤ 2176) (budget : Nat) :
    e.chooseUsize work budget = some (e.choose work budget) := by
  have hexact := checkedSumU64_map 0 (fun w (_ : w ∈ work) =>
    costUsize_eq hrounds hratio w.1 (.inl rfl)) (by
      have := sum_cost_le hrounds hratio hlength (.inl rfl)
      omega)
  rw [Nat.zero_add] at hexact
  have hpreview (level : Nat) (hlevel : Sent level) (of : Need) :=
    previewCostUsize_eq hrounds hratio hlength hlevel of
  have htwo : Sent 2 := .inr (.inl rfl)
  have hfour : Sent 4 := .inr (.inr rfl)
  have hfold (level : Nat) (hlevel : Sent level) (stale : Bool) (rest : List (Nat × Need)) (choice : Choice) :
      rest.foldlM (e.chooseOneUsize level stale) choice = some (rest.foldl (e.chooseOne level stale) choice) := by
    induction rest generalizing choice with
    | nil => rfl
    | cons w rest ih =>
      rw [List.foldlM_cons, chooseOneUsize_eq hrounds hratio hlevel, Option.bind_eq_bind, Option.bind_some, ih]
      rfl
  have hboth : checkedAddU64 (e.previewCost work 2 .missing) (e.previewCost work 2 .stale) =
      some (e.previewCost work 2 .missing + e.previewCost work 2 .stale) := by
    have hmissing := (hpreview 2 htwo .missing).2
    have hstale := (hpreview 2 htwo .stale).2
    exact checkedAddU64_eq_some.mpr ⟨rfl, by omega⟩
  unfold chooseUsize choose
  simp only [hexact, Option.bind_eq_bind, Option.bind_some, (hpreview 2 htwo _).1, hboth]
  split
  · rename_i hfits
    rw [checkedSubU64_of_le hfits]
    rfl
  · generalize hlevel : (if e.previewCost work 2 .missing + e.previewCost work 2 .stale ≤ budget then 2 else 4) = level
    have hsent : Sent level := by
      rw [← hlevel]
      split
      · exact htwo
      · exact hfour
    simp only [(hpreview level hsent _).1, Option.bind_some]
    split
    · rename_i hstale
      rw [decide_eq_true_eq] at hstale
      rw [checkedSubU64_of_le hstale, Option.bind_some, hfold level hsent]
    · rw [Option.bind_some, hfold level hsent]

/-! ### The rest of the desktop -/

omit hrounds hratio in
/-- Nothing in a round moves the estimate. -/
theorem Moves.ratio {r r' : Round F} {sends : Nat → Prop} (hmoves : Moves capture now sends r r') :
    r'.encoder.ratio = r.encoder.ratio := by
  induction hmoves with
  | refl => rfl
  | tail _ hmove ih =>
    cases hmove with
    | need other every _ _ _ =>
      rw [← ih, Round.need_encoder, need_encoder]
      split <;> rfl
    | put _ _ _ _ _ => exact ih
    | note _ _ _ _ _ _ => exact ih

omit hrounds hratio in
theorem ratio_fresh (e : Encoder F) (now : UInt64) : (Round.fresh e now).encoder.ratio = e.ratio := by
  unfold Round.fresh begin_
  simp only
  split <;> rfl

omit hratio in
theorem sendSpare_eq {r : Round F} (hratio : IsRatio r.encoder.ratio) {id : Nat}
    (hfits : r.encoder.cost id 1 ≤ r.fill) : sendSpare capture now r id =
      some ({ r with fill := r.fill - r.encoder.cost id 1 }.put id 1 capture now) := by
  unfold sendSpare
  rw [costUsize_eq hrounds hratio id (.inl rfl), Option.bind_eq_bind, Option.bind_some, checkedSubU64_of_le hfits]
  rfl

omit hrounds hratio in
theorem ratio_need (r : Round F) (id : Nat) (capture : Capture) (now every : UInt64) :
    (r.need id capture now every).2.encoder.ratio = r.encoder.ratio := by
  rw [Round.need_encoder, need_encoder]
  split <;> rfl

omit hratio in
theorem ringOneUsize_eq {r : Round F} (hratio : IsRatio r.encoder.ratio) (id : Nat) :
    ringOneUsize capture now r id = some (ringOne capture now r id) := by
  have hlooked := ratio_need r id capture now ringRefreshNs
  unfold ringOneUsize ringOne
  simp only
  generalize r.need id capture now ringRefreshNs = outcome at hlooked ⊢
  obtain ⟨need, after⟩ := outcome
  have hratio' : IsRatio after.encoder.ratio := hlooked ▸ hratio
  split
  · rfl
  split
  · rfl
  by_cases hcurrent : need = .current
  · simp [hcurrent]
  · simp only [hcurrent, if_false, costUsize_eq hrounds hratio' id (.inl rfl), Option.bind_eq_bind,
      Option.bind_some, ne_eq, not_false_eq_true, true_and]
    split
    · rename_i hfits
      exact sendSpare_eq hrounds hratio' hfits
    · rfl

omit hrounds hratio in
theorem ratio_ringOne (r : Round F) (id : Nat) : (ringOne capture now r id).encoder.ratio = r.encoder.ratio := by
  unfold ringOne
  split
  · rfl
  split
  · rfl
  have hlooked := ratio_need r id capture now ringRefreshNs
  simp only
  generalize (r.need id capture now ringRefreshNs).2 = after at hlooked ⊢
  split <;> exact hlooked

omit hratio in
theorem ringUsize_eq (ids : List Nat) {r : Round F} (hratio : IsRatio r.encoder.ratio) :
    ids.foldlM (ringOneUsize capture now) r = some (ids.foldl (ringOne capture now) r) ∧
      IsRatio (ids.foldl (ringOne capture now) r).encoder.ratio := by
  induction ids generalizing r with
  | nil => exact ⟨rfl, hratio⟩
  | cons id rest ih =>
    rw [List.foldlM_cons, ringOneUsize_eq hrounds hratio, Option.bind_eq_bind, Option.bind_some, List.foldl_cons]
    refine ih ?_
    rw [ratio_ringOne]
    exact hratio

omit hratio in
theorem scanOneUsize_eq {r : Round F} (hratio : IsRatio r.encoder.ratio) :
    scanOneUsize capture now r = some (scanOne capture now r) := by
  have hlooked := ratio_need r r.encoder.cursor capture now refreshNs
  unfold scanOneUsize scanOne
  simp only
  generalize r.need r.encoder.cursor capture now refreshNs = outcome at hlooked ⊢
  obtain ⟨need, after⟩ := outcome
  have hnoted : (after.putOff r.encoder.cursor).encoder.ratio = after.encoder.ratio := by
    unfold Round.putOff
    simp only
    split <;> rfl
  have hratio' : IsRatio (after.putOff r.encoder.cursor).encoder.ratio := by
    rw [hnoted, hlooked]
    exact hratio
  generalize after.putOff r.encoder.cursor = noted at hratio' ⊢
  split
  · rfl
  by_cases hcurrent : need = .current
  · simp [hcurrent]
  · simp only [hcurrent, if_false, costUsize_eq hrounds hratio' _ (.inl rfl), Option.bind_eq_bind,
      Option.bind_some, ne_eq, not_false_eq_true, true_and]
    split
    · rfl
    · rename_i hfits
      rw [sendSpare_eq hrounds hratio' (Nat.le_of_not_lt hfits), Option.bind_some]
      rfl

omit hratio in
theorem scanUsize_eq (n : Nat) {r : Round F} (hplaced : Placed r) (hratio : IsRatio r.encoder.ratio) :
    scanUsize capture now n r = some (scan capture now n r) := by
  induction n generalizing r with
  | zero => rfl
  | succ n ih =>
    rw [scanUsize, scan]
    split
    · obtain ⟨hone, hplaced', hcount⟩ := moves_scanOne capture now hplaced
      have hnext := hone.ratio
      rw [scanOneUsize_eq hrounds hratio, Option.bind_eq_bind, Option.bind_some]
      generalize scanOne capture now r = outcome at hnext hplaced' hcount ⊢
      obtain ⟨next, goesOn⟩ := outcome
      simp only
      split
      · refine ih ?_ ?_
        · exact (Nat.mod_lt _ (Nat.zero_lt_of_lt hplaced)).trans_le (Eq.ge hcount)
        · rw [← hnext] at hratio
          exact hratio
      · rfl
    · rfl

omit hratio in
theorem spreadUsize_eq (view : View F) {r : Round F} (hplaced : Placed r) (hratio : IsRatio r.encoder.ratio) :
    spreadUsize view capture now r = some (spread view capture now r) := by
  unfold spreadUsize spread
  simp only
  generalize hids : (r.encoder.near { view with radius := F64.add view.radius (F64.ofNat 256) }).map Prod.snd = ids
  have hbound : ∀ id ∈ ids, id < r.encoder.count := fun id hid => (mem_near.mp (hids ▸ hid)).1
  obtain ⟨hring, hafter⟩ := ringUsize_eq hrounds ids hratio
  rw [hring, Option.bind_eq_bind, Option.bind_some]
  exact scanUsize_eq hrounds scanMost (moves_ring capture now ids hplaced hbound).2 hafter

omit hrounds hratio in
/-- The lens has no more tiles than the desktop. -/
theorem length_lens_le (e : Encoder F) (view : Option (View F)) : ((e.lens view).map Prod.snd).length ≤ e.count := by
  have hsub : (e.lens view).map Prod.snd ⊆ List.range e.count := fun id hid =>
    List.mem_range.mpr (mem_lens.mp hid).1
  simpa using (nodup_lens.subperm hsub).length_le

/-- **A round stays in range.** What it spends is what it would with unbounded numbers. -/
theorem roundUsize_eq (hsound : Sound e now) (capture : Capture) (view : Option (View F)) (budget : Budget) :
    e.roundUsize capture view budget now = some (e.round_ capture view budget now) := by
  have hlooking := looking_lens capture view hsound.picked hsound.time
  have hlens := moves_sendLens capture view budget.lens hsound.picked hsound.time
  have hbegun : (Round.fresh e now).encoder.ratio = e.ratio := ratio_fresh e now
  have hlooked : ((e.begin_ now).lensWork view capture now).1.encoder.ratio = e.ratio :=
    hlooking.moves.ratio.trans hbegun
  have hlength : ((e.begin_ now).lensWork view capture now).2.length ≤ 2176 := by
    have hwork : _ ≤ (List.map Prod.snd (e.lens view)).length := hlooking.work.length_le
    rw [List.length_map] at hwork
    unfold lensWork sortByFirst
    simp only [List.length_map, List.length_insertionSort]
    exact hwork.trans ((length_lens_le e view).trans hsound.fits.count_le)
  have hratio' : IsRatio ((e.begin_ now).lensWork view capture now).1.encoder.ratio := hlooked ▸ hratio
  have hplaced := (placed_fresh hsound.placed now).moves hlens.1
  have hsent : IsRatio (e.sendLens capture view budget.lens now).1.encoder.ratio := by
    rw [hlens.1.ratio, hbegun]
    exact hratio
  unfold roundUsize round_
  unfold sendLens at hplaced hsent ⊢
  generalize (e.begin_ now).lensWork view capture now = looked at hratio' hlength hplaced hsent ⊢
  obtain ⟨after, work⟩ := looked
  simp only [chooseUsize_eq hrounds hratio' hlength, Option.bind_eq_bind, Option.bind_some]
  cases view with
  | none => rfl
  | some view =>
    simp only [spreadUsize_eq hrounds view
      (show Placed { putAll capture now after (after.encoder.choose work budget.lens).chosen with
        fill := min budget.fill (after.encoder.choose work budget.lens).left } from hplaced) hsent,
      Option.bind_some]
    rfl

end Budget

/-! ## Runs -/

section Runs

variable [LensF64 F] {zstd : Zstd} {encoded : Encoded F} {view : Option (View F)} {budget : Budget}

omit [LensF64 F] in
/-- The records of a round are a whole desktop of exact tiles, and their headers, at the most. -/
theorem Batch.raw_length_le {entries : List (Nat × Nat)} (h : Batch start entries e)
    (hfits : Fits start.width start.height) : e.raw.length ≤ 4096 * 2160 * 4 + 2176 * 5 := by
  rw [← h.width, ← h.height] at hfits
  have hle : e.raw.length ≤ e.width * e.height * 4 + tileCount e.width e.height * 5 := by
    rw [h.raw]
    exact h.listed.written_le hfits
  have harea : e.width * e.height ≤ 4096 * 2160 := Nat.mul_le_mul hfits.width_le hfits.height_le
  have hcount : tileCount e.width e.height ≤ 2176 := hfits.count_le
  omega

/-- What was sent is not empty, and is small. -/
theorem IsRatio.finish (hrounds : Rounds F) (hbounded : zstd.Bounded) (hfits : Fits start.width start.height)
    {entries : List (Nat × Nat)} (hbatch : Batch start entries e) (h : IsRatio e.ratio) :
    IsRatio (e.finish zstd entries.length).1.ratio := by
  unfold Encoder.finish
  split
  · exact h
  · rename_i hsome
    have hpos : 0 < e.raw.length := by
      rw [hbatch.raw, length_written]
      omega
    have hsmall : e.raw.length ≤ 2 ^ 46 := (hbatch.raw_length_le hfits).trans (by decide)
    have hcompressed := hbounded e.raw
    exact h.blend hrounds (.of_div hrounds hpos (by omega) hsmall)

/-- A round and its packet leave the estimate a ratio. -/
theorem IsRatio.encode (hrounds : Rounds F) (hbounded : zstd.Bounded) (hsound : Sound e now)
    (h : IsRatio e.ratio) (hencode : e.encode zstd capture view budget now = .ok encoded) :
    IsRatio encoded.encoder.ratio := by
  obtain ⟨-, rfl⟩ := encode_eq_ok hencode
  obtain ⟨entries, hbatch, hrecords⟩ := exists_batch hsound capture view budget
  have hmoves := (moves_round capture view budget hsound.placed hsound.picked hsound.time).1
  have hbegun : (Round.fresh e now).encoder.ratio = e.ratio := ratio_fresh e now
  rw [hrecords]
  refine IsRatio.finish hrounds hbounded hsound.begin_.fits hbatch ?_
  rw [hmoves.ratio, hbegun]
  exact h

/-- Two sides in step, and the estimate is a ratio. -/
structure Estimates (sides : Sides F) : Prop where
  inStep : InStep sides
  ratio : IsRatio sides.encoder.ratio

namespace Estimates

variable {sides next : Sides F} {event : Event F}

theorem of_new (hrounds : Rounds F) {width height : Nat} {encoder : Encoder F} {decoder : Decoder}
    (hencoder : Encoder.new F width height = .ok encoder) (hdecoder : Decoder.new width height = .ok decoder)
    (picture : Buffer) (now : UInt64) : Estimates ⟨encoder, decoder, picture, now⟩ := by
  refine ⟨.of_new hencoder hdecoder picture now, ?_⟩
  obtain ⟨-, rfl⟩ := Encoder.new_eq_ok hencoder
  exact .of_div hrounds (by decide) (by decide) (by decide)

theorem step (hrounds : Rounds F) (hzstd : zstd.RoundTrips) (hbounded : zstd.Bounded) (h : Estimates sides)
    (hstep : Sides.step zstd event sides = some next) : Estimates next := by
  refine ⟨h.inStep.step hzstd hstep, ?_⟩
  cases event with
  | changed after damage =>
    cases hstep
    exact h.ratio
  | encode capture view budget later =>
    obtain ⟨hlater, -, hleft⟩ := Honest.encode_step hstep
    rw [hleft]
    split
    · rename_i encoded hencode
      exact h.ratio.encode hrounds hbounded (h.inStep.sound.mono hlater) hencode
    · exact h.ratio

end Estimates

theorem tiles_finish (e : Encoder F) (records : Nat) : (e.finish zstd records).1.tiles = e.tiles := by
  unfold Encoder.finish
  split <;> rfl

/-- A packet is taken. -/
theorem exists_step (hzstd : zstd.RoundTrips) {sides : Sides F} (h : InStep sides) {later : UInt64}
    (hlater : sides.now ≤ later) (hencode : sides.encoder.encode zstd capture view budget later = .ok encoded) :
    ∃ next, Sides.step zstd (.encode capture view budget later) sides = some next ∧
      Mirror encoded.encoder next.decoder := by
  have hdelivers := delivers_encode hzstd h.mirror (h.sound.mono hlater) hencode
  have hnot : ¬later < sides.now := UInt64.not_lt.mpr hlater
  unfold Delivers at hdelivers
  cases hbody : encoded.packet.body with
  | none =>
    rw [hbody] at hdelivers
    refine ⟨{ sides with encoder := encoded.encoder, now := later }, ?_, hdelivers⟩
    simp only [Sides.step, if_neg hnot, hencode, hbody]
  | some body =>
    rw [hbody] at hdelivers
    obtain ⟨_, _, _, decoder, rects, -, -, happly, hmirror⟩ := hdelivers
    refine ⟨{ sides with encoder := encoded.encoder, decoder, now := later }, ?_, hmirror⟩
    simp only [Sides.step, if_neg hnot, hencode, hbody, happly]

/-- What is mirrored covers a lens that nothing is missing of. -/
theorem Mirror.covers {d : Decoder} (h : Mirror e d) {view : View F}
    (hlevel : ∀ id ∈ (e.lens (some view)).map Prod.snd, (e.tiles id).level ≠ 0) : d.covers view = true := by
  unfold Decoder.covers
  rw [List.all_eq_true]
  intro id hid
  have hcount : id < e.count := by
    rw [Encoder.count, ← h.width, ← h.height]
    exact List.mem_range.mp hid
  cases hin : view.includes (Lens.rect d.width d.height id) with
  | false => rw [Bool.not_false, Bool.or_true]
  | true =>
    have hlens : id ∈ (e.lens (some view)).map Prod.snd := by
      refine mem_lens.mpr ⟨hcount, fun v hv => ?_⟩
      rw [← Option.some.inj (Option.mem_def.mp hv), Encoder.rect, ← h.width, ← h.height]
      exact hin
    rw [(h.valid id hcount).mpr (hlevel id hlens), Bool.true_or]

/-- **The lens never shows a hole.** In every run of two sides, a packet for a lens is taken, and what the
decoder shows afterwards covers it, whatever the capture, the lens and the budget; and the sums and
differences of the budget stay in the range of a `usize`. -/
theorem lens_covered (hrounds : Rounds F) (hzstd : zstd.RoundTrips) (hbounded : zstd.Bounded)
    {width height : Nat} {encoder : Encoder F} {decoder : Decoder}
    (hencoder : Encoder.new F width height = .ok encoder) (hdecoder : Decoder.new width height = .ok decoder)
    {picture : Buffer} {now : UInt64} {sides : Sides F}
    (hrun : (Sides.step zstd).Reaches (fun _ _ => True) ⟨encoder, decoder, picture, now⟩ sides)
    (capture : Capture) (budget : Budget) {later : UInt64} (hlater : sides.now ≤ later) :
    (∀ view encoded, sides.encoder.encode zstd capture (some view) budget later = .ok encoded →
      ∃ next, Sides.step zstd (.encode capture (some view) budget later) sides = some next ∧
        next.decoder.covers view = true) ∧
    ∀ view, sides.encoder.roundUsize capture view budget later =
      some (sides.encoder.round_ capture view budget later) := by
  have h : Estimates sides := hrun.invariant (Estimates.of_new hrounds hencoder hdecoder picture now)
    fun _ _ _ h _ hstep => h.step hrounds hzstd hbounded hstep
  have hsound := h.inStep.sound.mono hlater
  refine ⟨fun view encoded hencode => ?_, fun view => roundUsize_eq hrounds h.ratio hsound capture view budget⟩
  obtain ⟨next, hstep, hmirror⟩ := exists_step hzstd h.inStep hlater hencode
  refine ⟨next, hstep, ?_⟩
  refine hmirror.covers fun id hid => ?_
  obtain ⟨hwidth, hheight⟩ := encode_size hsound hencode
  have hlens : id ∈ (sides.encoder.lens (some view)).map Prod.snd := by
    rw [mem_lens] at hid ⊢
    rwa [Encoder.count, Encoder.rect, hwidth, hheight] at hid
  obtain ⟨-, rfl⟩ := encode_eq_ok hencode
  rw [tiles_finish]
  exact level_round hsound capture (some view) budget hlens

end Runs

/-! ## On the small desktop -/

theorem rounds_rat : Rounds ℚ where
  refl a _ := decide_eq_true (le_refl a)
  trans a b c hab hbc := decide_eq_true ((of_decide_eq_true hab).trans (of_decide_eq_true hbc))
  finite_of_le _ _ _ _ _ := rfl
  finite_ofNat _ _ := rfl
  ofNat_le m n hle := decide_eq_true (Nat.cast_le.mpr hle)
  add_le a b c d hab _ hcd _ := decide_eq_true (add_le_add (of_decide_eq_true hab) (of_decide_eq_true hcd))
  mul_le a b c d ha hab _ hc hcd _ := by
    have ha : (0 : ℚ) ≤ a := by simpa [F64.le, F64.ofNat] using ha
    have hc : (0 : ℚ) ≤ c := by simpa [F64.le, F64.ofNat] using hc
    have hab : a ≤ b := of_decide_eq_true hab
    exact decide_eq_true (mul_le_mul hab (of_decide_eq_true hcd) hc (ha.trans hab))
  add_ofNat m n _ := (Nat.cast_add m n).symm
  mul_ofNat m n _ := (Nat.cast_mul m n).symm
  div_nonneg m n _ := by
    have hle : (0 : ℚ) ≤ (m : ℚ) / n := by positivity
    simpa [F64.le, F64.ofNat, F64.div] using hle
  div_le m n k hn hle _ := by
    have hn : (0 : ℚ) < n := by exact_mod_cast hn
    have hle : (m : ℚ) ≤ k * n := by exact_mod_cast hle
    exact decide_eq_true ((div_le_iff₀ hn).mpr hle)
  toUsize_le a b hab := Int.toNat_le_toNat (Int.floor_le_floor (of_decide_eq_true hab))
  toUsize_ofNat n _ := by simp [LensF64.toUsize, F64.ofNat]
  blend := by decide +kernel

theorem Zstd.stored_bounded : Zstd.stored.Bounded := by
  intro raw
  simp only [Zstd.stored, List.length_append, List.length_cons, List.length_nil]
  omega

/-- With nothing to spend, the lens is sent all the same. -/
theorem lens_covered_desk : ∃ encoded next,
    desk.encoder.encode .stored (shade 1) (some nearby) ⟨0, 0⟩ 0 = .ok encoded ∧ encoded.packet.exact = false ∧
      Sides.step .stored (.encode (shade 1) (some nearby) ⟨0, 0⟩ 0) desk = some next ∧
        next.decoder.covers nearby = true := by
  have hencoded : (match desk.encoder.encode .stored (shade 1) (some nearby) ⟨0, 0⟩ 0 with
      | .ok encoded => !encoded.packet.exact
      | .error _ => false) = true := by decide +kernel
  split at hencoded
  · rename_i encoded hencode
    have hrun : (Sides.step .stored).Reaches (fun _ _ => True) desk desk := .start
    obtain ⟨hcovered, -⟩ := lens_covered rounds_rat Zstd.stored_roundTrips Zstd.stored_bounded
      (rfl : Encoder.new ℚ 65 1 = _) rfl hrun (shade 1) ⟨0, 0⟩ (UInt64.le_refl 0)
    obtain ⟨next, hstep, hcovers⟩ := hcovered nearby encoded hencode
    exact ⟨encoded, next, hencode, by simpa using hencoded, hstep, hcovers⟩
  · cases hencoded

end Zflow.Lens
