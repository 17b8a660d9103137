import WindSight.Backend.ErrorJoin
import WindSight.Backend.IntervalText

/-! # Order in the horizon

What a larger horizon changes in the answers. Every forecast eligible at the larger horizon is
eligible at the smaller one (`ForecastRow.Eligible.mono`), so a slot answered at the larger horizon
is answered at the smaller one, by a forecast that was published no earlier; and the metrics count
no more samples at the larger horizon. The queries as they are executed keep that order exactly as
far as DuckDB reads the two horizons (`monotoneAt_iff`). -/

namespace WindSight

variable {conn : Conn} {start stop : Datetime} {h h₁ h₂ : ℚ}

theorem hours_mono (hle : h₁ ≤ h₂) : hours h₁ ≤ hours h₂ :=
  mul_le_mul_of_nonneg_right hle (by exact_mod_cast microsPerHour_pos.le)

/-- A forecast published `h₂` hours ahead was published `h₁` hours ahead, if `h₁` is not larger. -/
theorem ForecastRow.Eligible.mono (hle : h₁ ≤ h₂) {f : ForecastRow} (hf : f.Eligible h₂) :
    f.Eligible h₁ := by
  -- the latest publish time moves back with the horizon
  have hhours : hours h₁ ≤ hours h₂ := hours_mono hle
  unfold Eligible at hf ⊢
  linarith

/-- A forecast published earlier reports a larger horizon for the same slot. -/
theorem horizonHours_le {f f' : ForecastRow} (hslot : f.startTime = f'.startTime)
    (hpub : f'.publishTime ≤ f.publishTime) :
    f.toHorizonForecast.horizonHours ≤ f'.toHorizonForecast.horizonHours := by
  have hpub' : (f'.publishTime : ℚ) ≤ f.publishTime := by exact_mod_cast hpub
  have hpos : (0 : ℚ) < microsPerSecond := by exact_mod_cast microsPerSecond_pos
  show ((f.startTime : ℚ) - f.publishTime) / microsPerSecond / 3600
    ≤ ((f'.startTime : ℚ) - f'.publishTime) / microsPerSecond / 3600
  rw [hslot]
  gcongr

/-- Every slot answered at the larger horizon is answered at the smaller one. -/
theorem exists_horizonForecast_of_le (hle : h₁ ≤ h₂) {t : Instant}
    (ht : ∃ q ∈ getHorizonForecast conn start stop h₂, q.timestamp = t) :
    ∃ p ∈ getHorizonForecast conn start stop h₁, p.timestamp = t := by
  rw [exists_horizonForecast_iff] at ht ⊢
  obtain ⟨hwin, f, hf, hslot, hel⟩ := ht
  subst hslot
  exact ⟨hwin, f, hf, rfl, ForecastRow.Eligible.mono hle hel⟩

/-- The forecast that answers a slot at the smaller horizon was published no earlier, and reports no
larger horizon, than the one that answers it at the larger horizon. -/
theorem publishTime_le_of_le (hle : h₁ ≤ h₂) {p q : HorizonForecast}
    (hp : p ∈ getHorizonForecast conn start stop h₁)
    (hq : q ∈ getHorizonForecast conn start stop h₂) (hpq : p.timestamp = q.timestamp) :
    q.publishTime ≤ p.publishTime ∧ p.horizonHours ≤ q.horizonHours := by
  obtain ⟨f, -, hf, rfl⟩ := mem_getHorizonForecast.mp hp
  obtain ⟨g, -, hg, rfl⟩ := mem_getHorizonForecast.mp hq
  have hpub : g.publishTime ≤ f.publishTime :=
    hf.time_le_of_imp hg (fun _ hx => hx.mono hle) hpq.symm
  exact ⟨hpub, horizonHours_le hpq hpub⟩

/-- A forecast that answers a slot at the smaller horizon and was published early enough answers it
at the larger one. -/
theorem mem_getHorizonForecast_of_le (hle : h₁ ≤ h₂) {p : HorizonForecast}
    (hp : p ∈ getHorizonForecast conn start stop h₁)
    (hearly : (p.publishTime : ℚ) ≤ p.timestamp - hours h₂) :
    p ∈ getHorizonForecast conn start stop h₂ := by
  obtain ⟨f, hwin, hf, rfl⟩ := mem_getHorizonForecast.mp hp
  exact mem_getHorizonForecast.mpr ⟨f, hwin, hf.of_imp (fun _ hx => hx.mono hle) hearly, rfl⟩

/-- The metrics count no more samples at the larger horizon. -/
theorem sampleCount_le_of_le (hle : h₁ ≤ h₂) :
    (computeErrorMetrics (getForecastErrors conn start stop h₂)).sampleCount ≤
      (computeErrorMetrics (getForecastErrors conn start stop h₁)).sampleCount := by
  rw [sampleCount_eq, sampleCount_eq, length_getForecastErrors, length_getForecastErrors]
  -- both count the answered slots that have an actual
  refine Finset.card_le_card (Finset.inter_subset_inter_left ?_)
  intro t ht
  rw [List.mem_toFinset, List.mem_map] at ht ⊢
  exact exists_horizonForecast_of_le hle ht

/-- A forecast that answers a slot at the smaller horizon and was published early enough is the only
answer for the slot at the larger one. -/
theorem eq_of_le (hle : h₁ ≤ h₂) {p q : HorizonForecast}
    (hp : p ∈ getHorizonForecast conn start stop h₁)
    (hearly : (p.publishTime : ℚ) ≤ p.timestamp - hours h₂)
    (hq : q ∈ getHorizonForecast conn start stop h₂) (hqp : q.timestamp = p.timestamp) : q = p := by
  -- the timestamps of the answers at the larger horizon are distinct
  have hnd : ((getHorizonForecast conn start stop h₂).map HorizonForecast.timestamp).Nodup :=
    List.pairwise_map.mpr ((getHorizonForecast_pairwise conn start stop h₂).imp ne_of_lt)
  exact List.inj_on_of_nodup_map hnd hq (mem_getHorizonForecast_of_le hle hp hearly) hqp

/-! ## The queries as executed -/

section Executed

variable {reader : IntervalReader}

/-- Horizon monotonicity at two horizons, for the queries as they are executed: every slot answered
at `h₂` is answered at `h₁`; the answer at `h₁` was published no earlier and reports no larger
horizon; an answer at `h₁` that was published `h₂` hours ahead is the answer at `h₂`; and the
metrics count no more samples at `h₂`. -/
structure MonotoneAt (reader : IntervalReader) (conn : Conn) (start stop : Datetime) (h₁ h₂ : ℚ) :
    Prop where
  slots : ∀ qs, executeHorizonForecast reader conn start stop h₂ = some qs → ∀ q ∈ qs,
    ∃ ps, executeHorizonForecast reader conn start stop h₁ = some ps ∧
      ∃ p ∈ ps, p.timestamp = q.timestamp
  publishes : ∀ ps qs, executeHorizonForecast reader conn start stop h₁ = some ps →
    executeHorizonForecast reader conn start stop h₂ = some qs → ∀ p ∈ ps, ∀ q ∈ qs,
      p.timestamp = q.timestamp → q.publishTime ≤ p.publishTime ∧ p.horizonHours ≤ q.horizonHours
  same : ∀ ps, executeHorizonForecast reader conn start stop h₁ = some ps → ∀ p ∈ ps,
    (p.publishTime : ℚ) ≤ p.timestamp - hours h₂ →
      ∃ qs, executeHorizonForecast reader conn start stop h₂ = some qs ∧ p ∈ qs ∧
        ∀ q ∈ qs, q.timestamp = p.timestamp → q = p
  samples : ∀ es es', executeForecastErrors reader conn start stop h₁ = some es →
    executeForecastErrors reader conn start stop h₂ = some es' →
      (computeErrorMetrics es').sampleCount ≤ (computeErrorMetrics es).sampleCount

theorem mem_windowForecasts {f : ForecastRow} :
    f ∈ windowForecasts conn start stop ↔ f ∈ conn.db.windForecast ∧
      conn.bind start ≤ f.startTime ∧ f.startTime ≤ conn.bind stop := by
  rw [windowForecasts, List.mem_filter, decide_eq_true_eq, KeyedTable.mem_rows]

/-- The answers are made of the forecasts of the window. -/
theorem exists_windowForecast {h : ℚ} {p : HorizonForecast}
    (hp : p ∈ getHorizonForecast conn start stop h) :
    ∃ f ∈ windowForecasts conn start stop, IsSelected conn.db.windForecast h f ∧
      f.toHorizonForecast = p := by
  obtain ⟨f, hwin, hsel, rfl⟩ := mem_getHorizonForecast.mp hp
  exact ⟨f, mem_windowForecasts.mpr ⟨hsel.mem, hwin⟩, hsel, rfl⟩

/-- A window with an eligible forecast has an answer. -/
theorem exists_answer {h : ℚ} {f : ForecastRow} (hf : f ∈ windowForecasts conn start stop)
    (hel : f.Eligible h) : ∃ p, p ∈ getHorizonForecast conn start stop h := by
  obtain ⟨hmem, hwin⟩ := mem_windowForecasts.mp hf
  obtain ⟨g, hsel, hslot⟩ := exists_isSelected hmem hel
  exact ⟨_, mem_getHorizonForecast.mpr ⟨g, hslot ▸ hwin, hsel, rfl⟩⟩

/-- A window without forecasts has no errors. -/
theorem getForecastErrors_eq_nil (h : ℚ) (hnil : windowForecasts conn start stop = []) :
    getForecastErrors conn start stop h = [] := by
  refine List.eq_nil_iff_forall_not_mem.mpr fun e he => ?_
  obtain ⟨a, -, hwin, f, hsel, hslot, -⟩ := mem_getForecastErrors.mp he
  have hf : f ∈ windowForecasts conn start stop :=
    mem_windowForecasts.mpr ⟨hsel.mem, hslot.symm ▸ hwin⟩
  rw [hnil] at hf
  exact absurd hf List.not_mem_nil

/-- The metrics of the executed queries count no more samples at the larger horizon. -/
theorem executed_sampleCount_le (h0 : 0 ≤ h₁) (hle : h₁ ≤ h₂) (h48 : h₂ ≤ 48)
    {es es' : List ForecastError}
    (hes : executeForecastErrors reader conn start stop h₁ = some es)
    (hes' : executeForecastErrors reader conn start stop h₂ = some es') :
    (computeErrorMetrics es').sampleCount ≤ (computeErrorMetrics es).sampleCount := by
  rcases es' with _ | ⟨e, es'⟩
  · rw [sampleCount_eq]
    exact Nat.zero_le _
  · obtain ⟨k₂, hk₂, heq⟩ := Conn.exists_read_of_execute hes' List.mem_cons_self
    rw [executeForecastErrors, Conn.execute] at hes
    cases hk₁ : reader.read h₁ with
    | some k₁ =>
      rw [hk₁] at hes
      obtain rfl := Option.some.inj hes
      rw [heq]
      exact sampleCount_le_of_le (reader.mono h0 hle h48 hk₁ hk₂)
    | none =>
      rw [hk₁] at hes
      -- the window has no forecasts, so it has no errors at the larger horizon either
      have hnil : windowForecasts conn start stop = [] := by
        by_contra hne
        dsimp only at hes
        rw [if_neg hne] at hes
        cases hes
      rw [getForecastErrors_eq_nil k₂ hnil] at heq
      cases heq

/-- **Horizon monotonicity.** The queries are monotone from `h₁` to `h₂` exactly if a horizon that
DuckDB does not read makes no difference to the window: where `h₁` is not read, no forecast was
published as many hours ahead as are read for `h₂`; and where `h₁` is zero and `h₂` is not read, no
forecast that is the latest by its slot was published `h₂` hours ahead. -/
theorem monotoneAt_iff (reader : IntervalReader) (conn : Conn) (start stop : Datetime)
    (h0 : 0 ≤ h₁) (hle : h₁ ≤ h₂) (h48 : h₂ ≤ 48) :
    MonotoneAt reader conn start stop h₁ h₂ ↔
      (¬ PlainlyWritten h₁ → ∀ k, reader.read h₂ = some k →
        ∀ f ∈ windowForecasts conn start stop, ¬ f.Eligible k) ∧
      (h₁ = 0 → ¬ PlainlyWritten h₂ → ∀ f ∈ windowForecasts conn start stop,
        IsSelected conn.db.windForecast 0 f → ¬ f.Eligible h₂) := by
  have h48' : h₁ ≤ 48 := hle.trans h48
  have h0' : 0 ≤ h₂ := h0.trans hle
  constructor
  · intro hmono
    constructor
    · intro hplain k hk f hf hel
      obtain ⟨q, hq⟩ := exists_answer hf hel
      obtain ⟨ps, hps, p, hp, -⟩ := hmono.slots _ (Conn.execute_of_read hk) q hq
      obtain ⟨k₁, hk₁, -⟩ := Conn.exists_read_of_execute hps hp
      exact hplain (reader.plainlyWritten_of_read h0 h48' hk₁)
    · rintro rfl hplain f hf hsel hel
      obtain ⟨hmem, hwin⟩ := mem_windowForecasts.mp hf
      obtain ⟨qs, hqs, hq, -⟩ := hmono.same _ (Conn.execute_of_read reader.read_zero)
        f.toHorizonForecast (mem_getHorizonForecast.mpr ⟨f, hwin, hsel, rfl⟩) hel
      obtain ⟨k₂, hk₂, -⟩ := Conn.exists_read_of_execute hqs hq
      exact hplain (reader.plainlyWritten_of_read hle h48 hk₂)
  · rintro ⟨hunread, hzero⟩
    refine ⟨?_, ?_, ?_, fun es es' hes hes' => executed_sampleCount_le h0 hle h48 hes hes'⟩
    · intro qs hqs q hq
      obtain ⟨k₂, hk₂, rfl⟩ := Conn.exists_read_of_execute hqs hq
      by_cases hplain : PlainlyWritten h₁
      · obtain ⟨k₁, hk₁⟩ := reader.exists_read h0 h48' hplain
        exact ⟨_, Conn.execute_of_read hk₁,
          exists_horizonForecast_of_le (reader.mono h0 hle h48 hk₁ hk₂) ⟨q, hq, rfl⟩⟩
      · obtain ⟨f, hf, hsel, -⟩ := exists_windowForecast hq
        exact absurd hsel.eligible (hunread hplain k₂ hk₂ f hf)
    · intro ps qs hps hqs p hp q hq hpq
      obtain ⟨k₁, hk₁, rfl⟩ := Conn.exists_read_of_execute hps hp
      obtain ⟨k₂, hk₂, rfl⟩ := Conn.exists_read_of_execute hqs hq
      exact publishTime_le_of_le (reader.mono h0 hle h48 hk₁ hk₂) hp hq hpq
    · intro ps hps p hp hearly
      obtain ⟨k₁, hk₁, rfl⟩ := Conn.exists_read_of_execute hps hp
      by_cases hplain : PlainlyWritten h₂
      · obtain ⟨k₂, hk₂⟩ := reader.exists_read h0' h48 hplain
        have hk : k₁ ≤ k₂ := reader.mono h0 hle h48 hk₁ hk₂
        have hearly' : (p.publishTime : ℚ) ≤ p.timestamp - hours k₂ :=
          hearly.trans (sub_le_sub_left (hours_mono (reader.le h0' h48 hk₂)) _)
        exact ⟨_, Conn.execute_of_read hk₂, mem_getHorizonForecast_of_le hk hp hearly',
          fun q hq hqp => eq_of_le hk hp hearly' hq hqp⟩
      · -- a horizon that is read and not above one that is not read is zero
        obtain rfl : h₁ = 0 := by
          refine (reader.plainlyWritten_of_read h0 h48' hk₁).resolve_right fun hlarge => ?_
          exact hplain (Or.inr (hlarge.trans hle))
        obtain rfl := Option.some.inj (hk₁.symm.trans reader.read_zero)
        obtain ⟨f, hf, hsel, rfl⟩ := exists_windowForecast hp
        exact absurd hearly (hzero rfl hplain f hf hsel)

end Executed

/-! ### A slot with two publishes -/

/-- 2024-01-01T06:30:00, as the session reads it. -/
def morningSlot : Datetime := .ofFields 2024 1 1 6 30 0 0 none (by decide)

/-- A forecast of 2024-01-01T06:30Z published five hours ahead, and one published two hours ahead.
-/
def twoPublishes : WindForecast :=
  ⟨[⟨1704090600000000, 1704072600000000, 90⟩, ⟨1704090600000000, 1704083400000000, 100⟩],
    by decide⟩

/-- Both publishes are answers at one hour or at four, and the queries are monotone. -/
theorem monotoneAt_iff_twoPublishes :
    MonotoneAt duckDbReader ⟨⟨.empty, twoPublishes⟩, 0⟩ morningSlot morningSlot 1 4 := by
  refine (monotoneAt_iff duckDbReader ⟨⟨.empty, twoPublishes⟩, 0⟩ morningSlot morningSlot
    zero_le_one (by norm_num) (by norm_num)).mpr ⟨fun hplain => ?_, fun hzero => ?_⟩
  · exact absurd (Or.inr (by norm_num)) hplain
  · exact absurd hzero one_ne_zero

/-- At 0.00005 hours the query raises, and at three hours it returns the slot. -/
theorem not_monotoneAt_twoPublishes :
    ¬ MonotoneAt duckDbReader ⟨⟨.empty, twoPublishes⟩, 0⟩ morningSlot morningSlot (1 / 20000)
      3 := by
  intro hmono
  have hlarge : executeHorizonForecast duckDbReader ⟨⟨.empty, twoPublishes⟩, 0⟩ morningSlot
      morningSlot 3 = some [⟨1704090600000000, 90, 1704072600000000, 5⟩] := by
    decide +kernel
  have hsmall : executeHorizonForecast duckDbReader ⟨⟨.empty, twoPublishes⟩, 0⟩ morningSlot
      morningSlot (1 / 20000) = none := by
    decide +kernel
  obtain ⟨ps, hps, -⟩ := hmono.slots _ hlarge _ List.mem_cons_self
  rw [hsmall] at hps
  cases hps

end WindSight
