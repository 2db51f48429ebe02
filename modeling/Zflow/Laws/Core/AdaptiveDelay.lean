import Mathlib.Algebra.Order.Floor.Div
import Mathlib.Data.List.TakeWhile
import Zflow.Laws.Core.Rational

/-!
# The adaptive delay

A delay sample moves the adaptive delay towards a target that is within the configured bounds, by one microsecond at
least, and never past it (`approaches`). So it stays within the bounds after every history of samples and calls
(`adaptive_delay_bounds`), and the window a sample leaves has a minimum to subtract and a percentile to read.
-/

namespace Zflow.Core

open Lib

variable {F : Type}

/-! ## What validation accepts -/

/-- What an accepted configuration says of the adaptive delay. -/
structure PlayoutConfig.Accepted (c : PlayoutConfig F) : Prop where
  percentile : c.adaptivePercentile ≤ 100
  ordered : c.minimumDelay.nanos ≤ c.maximumDelay.nanos
  window : 0 < c.delaySampleWindow
  growth : 0 < c.growthDivisor
  contraction : 0 < c.contractionDivisor
  minimum : durationMicros c.minimumDelay = .ok c.minimumDelay.asMicros
  maximum : durationMicros c.maximumDelay = .ok c.maximumDelay.asMicros
  margin : durationMicros c.schedulerMargin = .ok c.schedulerMargin.asMicros
  age : durationMicros c.delaySampleMaxAge = .ok c.delaySampleMaxAge.asMicros

theorem durationMicros_eq_ok {d : Duration} {micros : Nat} :
    durationMicros d = .ok micros ↔ d.asMicros ≤ u64Max ∧ d.asMicros = micros := by
  unfold durationMicros
  split
  · rename_i h
    simp [h]
  · rename_i h
    simp [h]

theorem durationMicros_self {d : Duration} {micros : Nat} (h : durationMicros d = .ok micros) :
    durationMicros d = .ok d.asMicros :=
  durationMicros_eq_ok.mpr ⟨(durationMicros_eq_ok.mp h).1, rfl⟩

theorem PlayoutConfig.validate_accepted [F64 F] {c c' : PlayoutConfig F} (h : c.validate = .ok c') : c.Accepted := by
  unfold PlayoutConfig.validate at h
  simp only [bind, Except.bind, pure, Except.pure, throw, throwThe, MonadExceptOf.throw] at h
  repeat' split at h
  all_goals first
    | (cases h; done)
    | skip
  rename_i hpercentile hordered hwindow hage hdivisors _ _ _ _ _ _ _ _ hminimum _ _ hmaximum _ _ hmargin _ _ hmaxAge
    _ _ _
  exact {
    percentile := (not_not.mp hpercentile).2
    ordered := Nat.not_lt.mp hordered
    window := Nat.pos_of_ne_zero (not_or.mp hwindow).1
    growth := Nat.pos_of_ne_zero (not_or.mp hdivisors).1
    contraction := Nat.pos_of_ne_zero (not_or.mp hdivisors).2
    minimum := durationMicros_self hminimum
    maximum := durationMicros_self hmaximum
    margin := durationMicros_self hmargin
    age := durationMicros_self hmaxAge }

theorem PlayoutConfig.Accepted.min_le_max {c : PlayoutConfig F} (h : c.Accepted) :
    c.minimumDelay.asMicros ≤ c.maximumDelay.asMicros :=
  Nat.div_le_div_right h.ordered

/-! ## One step of the approach -/

theorem divCeil_pos {a b : Nat} (ha : 0 < a) (hb : 0 < b) : 0 < divCeil a b :=
  Nat.div_pos (by omega) hb

theorem divCeil_le {a b : Nat} (hb : 0 < b) : divCeil a b ≤ a :=
  (ceilDiv_le_iff_le_mul hb).mpr (Nat.le_mul_of_pos_left a hb)

/-- The next value is nearer to the target, and not past it. -/
structure Approaches (current target next : Nat) : Prop where
  grows : current < target → current < next ∧ next ≤ target
  contracts : target < current → target ≤ next ∧ next < current
  stays : current = target → next = target

/-- **The approach moves by one at least, and never past its target**, whatever the divisors. -/
theorem approaches {current target growth contraction : Nat} (hgrowth : 0 < growth) (hcontraction : 0 < contraction)
    (htarget : target ≤ u64Max) :
    Approaches current target (approachAsymmetrically current target growth contraction) := by
  unfold approachAsymmetrically
  split
  · rename_i hlt
    have hpos := divCeil_pos (Nat.sub_pos_of_lt hlt) hgrowth
    have hle : divCeil (target - current) growth ≤ target - current := divCeil_le hgrowth
    have hfits : saturatingAdd current (divCeil (target - current) growth) =
        current + divCeil (target - current) growth := Nat.min_eq_left (by omega)
    rw [hfits]
    exact ⟨fun _ => by omega, fun hgt => absurd hlt (Nat.lt_asymm hgt), fun heq => absurd heq hlt.ne⟩
  · rename_i hge
    have hle : divCeil (current - target) contraction ≤ current - target := divCeil_le hcontraction
    refine ⟨fun hlt => absurd hlt hge, fun hgt => ?_, fun heq => by omega⟩
    have hpos := divCeil_pos (Nat.sub_pos_of_lt hgt) hcontraction
    omega

namespace ReceiverPlayout

/-! ## What a sample does -/

/-- The samples that are kept with a new one: none too old, and no more than the window holds. -/
def keptSamples (p : ReceiverPlayout F) (receivedAt : MonotonicTimeMicros) (packetDelayMicros : Nat) :
    List DelaySample :=
  let samples : List DelaySample := p.delaySamples ++ [⟨receivedAt, packetDelayMicros⟩]
  let fresh := samples.dropWhile fun sample =>
    p.config.delaySampleMaxAge.asMicros < receivedAt - sample.receivedAt
  fresh.drop (fresh.length - p.config.delaySampleWindow)

/-- The least delay in a window, where it holds one. -/
def windowMinimum (samples : List DelaySample) : Nat := ((samples.map (·.packetDelayMicros)).min?).getD 0

def variations (samples : List DelaySample) : List Nat :=
  (samples.map fun sample => sample.packetDelayMicros - windowMinimum samples).insertionSort (· ≤ ·)

def percentileRank (config : PlayoutConfig F) (length : Nat) : Nat :=
  divCeil (min (length * config.adaptivePercentile) u64Max) 100 - 1

def delayPercentile (config : PlayoutConfig F) (samples : List DelaySample) : Nat :=
  (variations samples).getD (percentileRank config (variations samples).length) 0

/-- The percentile with the scheduler's margin, clamped. -/
def delayTarget (config : PlayoutConfig F) (samples : List DelaySample) : Nat :=
  max config.minimumDelay.asMicros
    (min (saturatingAdd (delayPercentile config samples) config.schedulerMargin.asMicros) config.maximumDelay.asMicros)

variable {config : PlayoutConfig F} {p : ReceiverPlayout F}

/-- The new sample is kept. -/
theorem keptSamples_ne_nil (hwindow : 0 < p.config.delaySampleWindow) (receivedAt : MonotonicTimeMicros)
    (packetDelayMicros : Nat) : p.keptSamples receivedAt packetDelayMicros ≠ [] := by
  intro hnil
  have hdropped := List.drop_eq_nil_iff.mp hnil
  have hempty := List.length_eq_zero_iff.mp (Nat.eq_zero_of_not_pos fun hpos =>
    Nat.not_lt_of_le hdropped (Nat.sub_lt hpos hwindow))
  have hold := List.dropWhile_eq_nil_iff.mp hempty ⟨receivedAt, packetDelayMicros⟩ (by simp)
  simp at hold

theorem min?_of_ne_nil {samples : List DelaySample} (h : samples ≠ []) :
    (samples.map (·.packetDelayMicros)).min? = some (windowMinimum samples) := by
  unfold windowMinimum
  cases hmin : (samples.map (·.packetDelayMicros)).min? with
  | none => exact absurd (List.map_eq_nil_iff.mp (List.min?_eq_none_iff.mp hmin)) h
  | some minimum => rfl

theorem windowMinimum_le {samples : List DelaySample} {sample : DelaySample} (h : sample ∈ samples) :
    windowMinimum samples ≤ sample.packetDelayMicros := by
  have hmin := min?_of_ne_nil (List.ne_nil_of_mem h)
  exact (List.min?_eq_some_iff.mp hmin).2 _ (List.mem_map_of_mem h)

theorem length_variations (samples : List DelaySample) : (variations samples).length = samples.length := by
  unfold variations
  rw [List.length_insertionSort, List.length_map]

/-- **The rank indexes the variations**: a percentile is at most 100. -/
theorem percentileRank_lt (hpercentile : config.adaptivePercentile ≤ 100) {length : Nat} (hlength : 0 < length) :
    percentileRank config length < length := by
  have hscaled : min (length * config.adaptivePercentile) u64Max ≤ 100 * length :=
    (Nat.min_le_left _ _).trans (Nat.mul_comm 100 length ▸ Nat.mul_le_mul_left length hpercentile)
  have hrank : divCeil (min (length * config.adaptivePercentile) u64Max) 100 ≤ length :=
    (ceilDiv_le_iff_le_mul (by omega)).mpr hscaled
  unfold percentileRank
  omega

/-- What `recompute_adaptive_delay` makes of a window that holds a sample. -/
theorem recomputeAdaptiveDelay_eq (h : p.config.Accepted) (hkept : p.delaySamples ≠ []) :
    recomputeAdaptiveDelay p = (.ok (), { p with
      delayPercentileMicros := some (delayPercentile p.config p.delaySamples)
      adaptiveDelayMicros := approachAsymmetrically p.adaptiveDelayMicros (delayTarget p.config p.delaySamples)
        p.config.growthDivisor p.config.contractionDivisor }) := by
  unfold recomputeAdaptiveDelay
  rw [Act.bind_of_ok (Act.read_apply p), min?_of_ne_nil hkept]
  simp only [Act.bind_apply, Act.change_apply, Act.lift, h.margin, h.minimum, h.maximum, Except.mapError]
  rfl

theorem recordDelaySample_eq (h : p.config.Accepted) (receivedAt : MonotonicTimeMicros) (packetDelayMicros : Nat) :
    recordDelaySample receivedAt packetDelayMicros p = (.ok (), { p with
      delaySamples := p.keptSamples receivedAt packetDelayMicros
      delayPercentileMicros := some (delayPercentile p.config (p.keptSamples receivedAt packetDelayMicros))
      adaptiveDelayMicros := approachAsymmetrically p.adaptiveDelayMicros
        (delayTarget p.config (p.keptSamples receivedAt packetDelayMicros))
        p.config.growthDivisor p.config.contractionDivisor }) := by
  have hkept := keptSamples_ne_nil h.window receivedAt packetDelayMicros
  let kept : ReceiverPlayout F := { p with delaySamples := p.keptSamples receivedAt packetDelayMicros }
  have hrecompute : recomputeAdaptiveDelay kept = _ := recomputeAdaptiveDelay_eq h hkept
  unfold recordDelaySample
  simp only [Act.bind_apply, Act.change_apply, Act.read_apply, Act.lift, h.age, Except.mapError]
  exact hrecompute

/-- What the window of a new sample is good for, and where the sample moves the delay. -/
structure SampleStep (config : PlayoutConfig F) (p : ReceiverPlayout F) (samples : List DelaySample)
    (next : Nat) : Prop where
  kept : samples ≠ []
  no_underflow : ∀ sample ∈ samples, windowMinimum samples ≤ sample.packetDelayMicros
  rank : percentileRank config (variations samples).length < (variations samples).length
  clamped : config.minimumDelay.asMicros ≤ delayTarget config samples ∧
    delayTarget config samples ≤ config.maximumDelay.asMicros
  approaches : Approaches p.adaptiveDelayMicros (delayTarget config samples) next

theorem sampleStep (h : p.config.Accepted) (receivedAt : MonotonicTimeMicros) (packetDelayMicros : Nat) :
    SampleStep p.config p (p.keptSamples receivedAt packetDelayMicros)
      (recordDelaySample receivedAt packetDelayMicros p).2.adaptiveDelayMicros := by
  have hkept := keptSamples_ne_nil h.window receivedAt packetDelayMicros
  have hlength : 0 < (variations (p.keptSamples receivedAt packetDelayMicros)).length := by
    rw [length_variations]
    exact List.length_pos_iff.mpr hkept
  have hmaximum : delayTarget p.config (p.keptSamples receivedAt packetDelayMicros) ≤ p.config.maximumDelay.asMicros :=
    max_le h.min_le_max (min_le_right _ _)
  have hfits := hmaximum.trans (durationMicros_eq_ok.mp h.maximum).1
  rw [recordDelaySample_eq h]
  exact {
    kept := hkept
    no_underflow := fun _ hmem => windowMinimum_le hmem
    rank := percentileRank_lt h.percentile hlength
    clamped := ⟨le_max_left _ _, hmaximum⟩
    approaches := Core.approaches h.growth h.contraction hfits }

/-! ## Every history -/

/-- The playout has the configuration, and its delay is within the bounds. -/
structure InBounds (config : PlayoutConfig F) (p : ReceiverPlayout F) : Prop where
  config_eq : p.config = config
  minimum : config.minimumDelay.asMicros ≤ p.adaptiveDelayMicros
  maximum : p.adaptiveDelayMicros ≤ config.maximumDelay.asMicros

/-- What is within the bounds stays there. -/
def KeepsBounds (config : PlayoutConfig F) (p p' : ReceiverPlayout F) : Prop := InBounds config p → InBounds config p'

instance (config : PlayoutConfig F) : IsPreorder (ReceiverPlayout F) (KeepsBounds config) where
  refl _ := id
  trans _ _ _ h h' := h' ∘ h

theorem KeepsBounds.of_eq {p' : ReceiverPlayout F} (hconfig : p'.config = p.config)
    (hdelay : p'.adaptiveDelayMicros = p.adaptiveDelayMicros) : KeepsBounds config p p' := fun h =>
  ⟨hconfig.trans h.config_eq, hdelay ▸ h.minimum, hdelay ▸ h.maximum⟩

/-- A target within the bounds keeps what approaches it there. -/
theorem SampleStep.inBounds {samples : List DelaySample} {next : Nat} (h : SampleStep config p samples next)
    (hp : InBounds config p) : config.minimumDelay.asMicros ≤ next ∧ next ≤ config.maximumDelay.asMicros := by
  obtain ⟨hlow, hhigh⟩ := h.clamped
  rcases Nat.lt_trichotomy p.adaptiveDelayMicros (delayTarget config samples) with hlt | heq | hgt
  · have hnext := h.approaches.grows hlt
    exact ⟨hp.minimum.trans hnext.1.le, hnext.2.trans hhigh⟩
  · have hnext := h.approaches.stays heq
    exact ⟨hnext ▸ hlow, hnext ▸ hhigh⟩
  · have hnext := h.approaches.contracts hgt
    exact ⟨hlow.trans hnext.1, hnext.2.le.trans hp.maximum⟩

theorem keepsBounds_recordDelaySample (h : config.Accepted) (receivedAt : MonotonicTimeMicros)
    (packetDelayMicros : Nat) :
    Act.Within (KeepsBounds config) (recordDelaySample (F := F) receivedAt packetDelayMicros) := by
  intro p hp
  obtain rfl := hp.config_eq
  obtain ⟨hlow, hhigh⟩ := (sampleStep h receivedAt packetDelayMicros).inBounds hp
  exact ⟨by rw [recordDelaySample_eq h], hlow, hhigh⟩

theorem keepsBounds_change {f : ReceiverPlayout F → ReceiverPlayout F}
    (h : ∀ p, (f p).config = p.config ∧ (f p).adaptiveDelayMicros = p.adaptiveDelayMicros) :
    Act.Within (ε := PlayoutError) (KeepsBounds config) (Act.change f) := fun p => .of_eq (h p).1 (h p).2

theorem keepsBounds_observeTime (now : MonotonicTimeMicros) :
    Act.Within (KeepsBounds config) (observeTime (F := F) now) := by
  intro p
  unfold observeTime
  split
  · exact id
  · exact .of_eq rfl rfl

theorem keepsBounds_advanceControlWatermark (applied : ControlSequence) :
    Act.Within (KeepsBounds config) (advanceControlWatermark (F := F) applied) := by
  intro p
  unfold advanceControlWatermark
  split
  · exact id
  · exact .of_eq rfl rfl

theorem keepsBounds_remapClock {C : Type} [ClockMapper C] [F64 F] (h : config.Accepted) (clock : C) :
    Act.Within (KeepsBounds config) (remapClock (F := F) clock) := by
  intro p hp
  obtain rfl := hp.config_eq
  unfold remapClock
  rw [Act.bind_of_ok (Act.read_apply p), h.minimum]
  refine Act.Within.bind (R := KeepsBounds p.config) (.lift _) (fun queue => ?_) p hp
  refine .bind (.lift _) fun target => ?_
  refine .bind (keepsBounds_change fun _ => ⟨rfl, rfl⟩) fun _ => ?_
  intro remapped hremapped
  exact ⟨hremapped.config_eq, Nat.le_refl _, h.min_le_max⟩

theorem keepsBounds_ingestFrame {C : Type} [ClockMapper C] (h : config.Accepted) (frame : MotionFrame)
    (receivedAt : MonotonicTimeMicros) (clock : C) :
    Act.Within (KeepsBounds config) (ingestFrame (F := F) frame receivedAt clock) := by
  refine .bind (keepsBounds_observeTime receivedAt) fun _ => .bind .read fun p => ?_
  split
  · exact .fail _
  split
  · exact .pure _
  split
  · refine .bind (.lift _) fun mapped => ?_
    exact .bind (keepsBounds_recordDelaySample h _ _) fun _ => .pure _
  split
  · split
    · exact .pure _
    · exact .fail _
  split
  · exact .fail _
  refine .bind (.lift _) fun mapped => .bind (.lift _) fun _ => ?_
  refine .bind (keepsBounds_recordDelaySample h _ _) fun _ => ?_
  exact .bind (keepsBounds_change fun _ => ⟨rfl, rfl⟩) fun _ => .pure _

variable [F64 F]

theorem keepsBounds_updateVelocity (newest : VelocitySample) :
    Act.Within (KeepsBounds config) (updateVelocity (F := F) newest) := by
  refine .bind .read fun p => ?_
  split
  · exact keepsBounds_change fun _ => ⟨rfl, rfl⟩
  split
  · exact .fail _
  dsimp only
  split
  · refine .bind (.lift _) fun delta => ?_
    exact .bind (keepsBounds_change fun _ => ⟨rfl, rfl⟩) fun _ => keepsBounds_change fun _ => ⟨rfl, rfl⟩
  · exact keepsBounds_change fun _ => ⟨rfl, rfl⟩

theorem keepsBounds_selectNewestMatureTarget (now : MonotonicTimeMicros) :
    Act.Within (KeepsBounds config) (selectNewestMatureTarget (F := F) now) := by
  refine .bind .read fun p => ?_
  split
  · exact .pure _
  refine .bind (keepsBounds_change fun _ => ⟨rfl, rfl⟩) fun _ => ?_
  refine .bind (keepsBounds_updateVelocity _) fun _ => ?_
  exact .bind (keepsBounds_change fun _ => ⟨rfl, rfl⟩) fun _ => .pure _

theorem keepsBounds_pollTarget (ownSampleStart : Option CumulativeMotion) (elapsed : Nat) :
    Act.Within (KeepsBounds config) (pollTarget (F := F) ownSampleStart elapsed) := by
  refine .bind .read fun p => .bind (.lift _) fun remaining => ?_
  refine .bind (keepsBounds_change fun _ => ⟨rfl, rfl⟩) fun _ => ?_
  split
  · exact .bind (keepsBounds_change fun _ => ⟨rfl, rfl⟩) fun _ => .pure _
  · refine .bind (.lift _) fun u => .bind (.lift _) fun injected => ?_
    exact .bind (keepsBounds_change fun _ => ⟨rfl, rfl⟩) fun _ => .pure _

theorem keepsBounds_poll (now : MonotonicTimeMicros) : Act.Within (KeepsBounds config) (poll (F := F) now) := by
  refine .bind (keepsBounds_observeTime now) fun _ => .bind ?_ fun elapsed => ?_
  · refine .bind .read fun p => .bind (.lift _) fun nominal => ?_
    exact .bind (keepsBounds_change fun _ => ⟨rfl, rfl⟩) fun _ => .pure _
  · exact .bind (keepsBounds_selectNewestMatureTarget now) fun own => keepsBounds_pollTarget own elapsed

theorem keepsBounds_rebase (through : MotionSequence) (totals : CumulativeMotion) :
    Act.Within (KeepsBounds config) (rebase (F := F) through totals) := by
  refine .bind .read fun p => ?_
  split
  · exact .fail _
  · exact .bind (.lift _) fun _ => keepsBounds_change fun _ => ⟨rfl, rfl⟩

theorem keepsBounds_call {C : Type} [ClockMapper C] (h : config.Accepted) (c : PlayoutCall C) :
    Act.Within (KeepsBounds config) (call (F := F) c) := by
  cases c with
  | ingestFrame frame receivedAt clock => exact .bind (keepsBounds_ingestFrame h frame receivedAt clock) fun _ => .pure _
  | poll now => exact .bind (keepsBounds_poll now) fun _ => .pure _
  | rebase through totals => exact .bind (keepsBounds_rebase through totals) fun _ => .pure _
  | advanceControlWatermark applied => exact .bind (keepsBounds_advanceControlWatermark applied) fun _ => .pure _
  | remapClock clock => exact .bind (keepsBounds_remapClock h clock) fun _ => .pure _

/-- A delay sample, with any time and delay, or a call of a public method. -/
inductive DelayEvent (C : Type) where
  | sample (receivedAt : MonotonicTimeMicros) (packetDelayMicros : Nat)
  | call (c : PlayoutCall C)

/-- The state after an event, whether it succeeds or fails. -/
def afterEvent {C : Type} [ClockMapper C] (p : ReceiverPlayout F) : DelayEvent C → ReceiverPlayout F
  | .sample receivedAt packetDelayMicros => (recordDelaySample receivedAt packetDelayMicros p).2
  | .call c => (call c p).2

theorem inBounds_history {C : Type} [ClockMapper C] (h : config.Accepted) (history : List (DelayEvent C))
    (hp : InBounds config p) : InBounds config (history.foldl afterEvent p) := by
  induction history generalizing p with
  | nil => exact hp
  | cons event history ih =>
    refine ih ?_
    cases event with
    | sample receivedAt packetDelayMicros => exact keepsBounds_recordDelaySample h receivedAt packetDelayMicros p hp
    | call c => exact keepsBounds_call h c p hp

/-- **The adaptive delay stays within its bounds** after every history of samples and calls, and one more sample has a
window to read and moves the delay towards the clamped target, by one microsecond at least and not past it. -/
theorem adaptive_delay_bounds {C : Type} [ClockMapper C] {session : SessionContext} (hnew : new config session = .ok p)
    (history : List (DelayEvent C)) : InBounds config (history.foldl afterEvent p) ∧ ∀ receivedAt packetDelayMicros,
      SampleStep config (history.foldl afterEvent p)
        ((history.foldl afterEvent p).keptSamples receivedAt packetDelayMicros)
        (recordDelaySample receivedAt packetDelayMicros (history.foldl afterEvent p)).2.adaptiveDelayMicros := by
  obtain ⟨hvalid, minimum, hminimum, rfl⟩ := new_eq_ok.mp hnew
  have haccepted := PlayoutConfig.validate_accepted hvalid
  have hstart : InBounds config (fresh config session minimum) := by
    obtain ⟨-, rfl⟩ := durationMicros_eq_ok.mp hminimum
    exact ⟨rfl, Nat.le_refl _, haccepted.min_le_max⟩
  have hbounds := inBounds_history haccepted history hstart
  refine ⟨hbounds, fun receivedAt packetDelayMicros => ?_⟩
  have hstep := sampleStep (hbounds.config_eq ▸ haccepted) receivedAt packetDelayMicros
  rwa [hbounds.config_eq] at hstep

/-- A configuration whose delay grows at once and contracts slowly. -/
def slowContraction : PlayoutConfig ℚ :=
  { samplePlayoutConfig with
    delayMode := .adaptive
    maximumDelay := .fromMillis 35
    schedulerMargin := .fromMillis 2
    contractionDivisor := 16 }

theorem adaptive_delay_bounds_sample :
    InBounds slowContraction ([DelayEvent.sample 10 0, .sample 20 9000, .call (.remapClock ⟨some 0, true⟩)].foldl
      (afterEvent (C := OffsetClock)) (fresh slowContraction ⟨1, 1, 1⟩ 0)) :=
  (adaptive_delay_bounds (new_eq_ok.mpr ⟨by decide +kernel, 0, rfl, rfl⟩) _).1

end ReceiverPlayout

end Zflow.Core
