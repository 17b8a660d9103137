import WindSight.Backend.ForecastProcessor
import WindSight.Library.AsOf

/-! # Correctness of the horizon selection

What `get_horizon_forecast` returns, in terms of the table alone: the rows of the window that are
*selected* at the horizon, `IsSelected`, i.e. the latest ones of their slot among those published at
least `h` hours ahead. The primary key makes the selected row of a slot unique, so ordering by
timestamp is strict and the tie-break of the ranking never matters. -/

namespace WindSight

open ListQuery

/-- A row is the forecast of its slot at horizon `h`: the latest among the eligible ones. -/
abbrev IsSelected (t : WindForecast) (h : ℚ) (f : ForecastRow) : Prop :=
  IsLatest ForecastRow.startTime ForecastRow.publishTime t.rowSet (ForecastRow.Eligible h) f

/-- The rows the CTE `best_forecast` keeps: those numbered one. -/
def bestForecasts (conn : Conn) (start stop : Datetime) (h : ℚ) : List ForecastRow :=
  ((rankedForecasts conn start stop h).filter (·.2 = 1)).map Prod.fst

variable {conn : Conn} {start stop : Datetime} {h : ℚ}

theorem isSelected_unique {t : WindForecast} {f f' : ForecastRow} (hf : IsSelected t h f)
    (hf' : IsSelected t h f') (hslot : f.startTime = f'.startTime) : f = f' :=
  hf.unique t.rowSet_injOn hf' hslot

/-- A slot with an eligible forecast has a selected one. -/
theorem exists_isSelected {t : WindForecast} {f : ForecastRow} (hf : f ∈ t) (he : f.Eligible h) :
    ∃ f', IsSelected t h f' ∧ f'.startTime = f.startTime :=
  IsLatest.exists_of_finite (List.finite_toSet t.rows) hf he

/-- The rows numbered one are the selected rows of the window. -/
theorem mem_bestForecasts {f : ForecastRow} :
    f ∈ bestForecasts conn start stop h ↔
      (conn.bind start ≤ f.startTime ∧ f.startTime ≤ conn.bind stop) ∧
        IsSelected conn.db.windForecast h f := by
  rw [bestForecasts, rankedForecasts]
  change f ∈ rankedFirst _ _ _ ↔ _
  rw [mem_rankedFirst]
  · simp only [List.mem_filter, decide_eq_true_eq, KeyedTable.mem_rows]
    constructor
    · -- the first in the ranking has the latest publish time
      rintro ⟨⟨hmem, hlo, hhi, hel⟩, hmax⟩
      refine ⟨⟨hlo, hhi⟩, hmem, hel, fun f' hf' hslot hel' => ?_⟩
      have hle := hmax f' ⟨hf', hslot ▸ hlo, hslot ▸ hhi, hel'⟩ hslot
      rw [Prod.Lex.toLex_le_toLex] at hle
      rcases hle with hlt | ⟨heq, -⟩
      exacts [hlt.le, heq.le]
    · rintro ⟨⟨hlo, hhi⟩, hmem, hel, hmax⟩
      refine ⟨⟨hmem, hlo, hhi, hel⟩, ?_⟩
      rintro f' ⟨hf', -, -, hel'⟩ hslot
      rw [Prod.Lex.toLex_le_toLex]
      rcases (hmax f' hf' hslot hel').lt_or_eq with hlt | heq
      · exact Or.inl hlt
      · -- one publish per slot and time: the tie-break compares a row with itself
        rw [WindForecast.eq_of_times hf' hmem hslot heq]
        exact Or.inr ⟨rfl, le_rfl⟩
  · intro a ha b hb hslot hord
    have hpub : a.publishTime = b.publishTime := congrArg (fun p => (ofLex p).1) hord
    exact WindForecast.eq_of_times (List.mem_of_mem_filter ha) (List.mem_of_mem_filter hb) hslot
      hpub

/-- No slot is numbered one twice. -/
theorem bestForecasts_nodup (conn : Conn) (start stop : Datetime) (h : ℚ) :
    ((bestForecasts conn start stop h).map ForecastRow.startTime).Nodup :=
  rankedFirst_nodup

theorem getHorizonForecast_eq :
    getHorizonForecast conn start stop h = orderBy HorizonForecast.timestamp
      ((bestForecasts conn start stop h).map ForecastRow.toHorizonForecast) := by
  rw [getHorizonForecast, bestForecasts, List.map_map]
  rfl

/-- The result rows are those of the selected forecasts of the window. -/
theorem mem_getHorizonForecast {p : HorizonForecast} :
    p ∈ getHorizonForecast conn start stop h ↔
      ∃ f, (conn.bind start ≤ f.startTime ∧ f.startTime ≤ conn.bind stop) ∧
        IsSelected conn.db.windForecast h f ∧ f.toHorizonForecast = p := by
  rw [getHorizonForecast_eq, mem_orderBy, List.mem_map]
  simp only [mem_bestForecasts, and_assoc]

/-- The result is strictly increasing in its timestamps. -/
theorem getHorizonForecast_pairwise (conn : Conn) (start stop : Datetime) (h : ℚ) :
    (getHorizonForecast conn start stop h).Pairwise fun p q => p.timestamp < q.timestamp := by
  rw [getHorizonForecast_eq]
  apply orderBy_pairwise_lt
  rw [List.map_map]
  exact bestForecasts_nodup conn start stop h

/-- A slot has a result row exactly when it lies in the window and has an eligible forecast. -/
theorem exists_horizonForecast_iff (t : Instant) :
    (∃ p ∈ getHorizonForecast conn start stop h, p.timestamp = t) ↔
      (conn.bind start ≤ t ∧ t ≤ conn.bind stop) ∧
        ∃ f ∈ conn.db.windForecast, f.startTime = t ∧ (f.publishTime : ℚ) ≤ t - hours h := by
  simp only [mem_getHorizonForecast]
  constructor
  · rintro ⟨p, ⟨f, hwin, hsel, rfl⟩, rfl⟩
    exact ⟨hwin, f, hsel.mem, rfl, hsel.eligible⟩
  · rintro ⟨hwin, f, hf, rfl, hel⟩
    obtain ⟨f', hsel, hslot⟩ := exists_isSelected hf hel
    exact ⟨_, ⟨f', hslot ▸ hwin, hsel, rfl⟩, hslot⟩

/-- An eligible forecast's reported horizon is at least the requested one. -/
theorem ForecastRow.Eligible.le_horizonHours {f : ForecastRow} (hf : f.Eligible h) :
    h ≤ f.toHorizonForecast.horizonHours := by
  have hle : h * ((3600 * 1000000 : ℤ) : ℚ) ≤ (f.startTime : ℚ) - f.publishTime := by
    have := hf
    rw [Eligible, hours, microsPerHour, microsPerSecond] at this
    linarith
  rw [toHorizonForecast, microsPerSecond, div_div, le_div_iff₀ (by norm_num)]
  push_cast at hle ⊢
  linarith

/-- **Horizon selection.** For every table with its primary key, window and horizon, the result is
strictly increasing in time; it has a row for a slot exactly when the slot lies in the closed window
and some forecast of it was published at least `h` hours before; and each row reports, from one and
the same table row, the latest such forecast with its exact lead time. -/
theorem getHorizonForecast_selects (conn : Conn) (start stop : Datetime) (h : ℚ) :
    ((getHorizonForecast conn start stop h).Pairwise fun p q => p.timestamp < q.timestamp) ∧
    (∀ t : Instant, (∃ p ∈ getHorizonForecast conn start stop h, p.timestamp = t) ↔
      (conn.bind start ≤ t ∧ t ≤ conn.bind stop) ∧
        ∃ f ∈ conn.db.windForecast, f.startTime = t ∧ (f.publishTime : ℚ) ≤ t - hours h) ∧
    ∀ p ∈ getHorizonForecast conn start stop h, ∃ f ∈ conn.db.windForecast,
      f.startTime = p.timestamp ∧ f.publishTime = p.publishTime ∧
      f.generationMw = p.generationMw ∧
      (f.publishTime : ℚ) ≤ p.timestamp - hours h ∧
      (∀ f' ∈ conn.db.windForecast, f'.startTime = p.timestamp →
        (f'.publishTime : ℚ) ≤ p.timestamp - hours h → f'.publishTime ≤ f.publishTime) ∧
      p.horizonHours = ((p.timestamp : ℚ) - p.publishTime) / microsPerHour ∧
      h ≤ p.horizonHours := by
  refine ⟨getHorizonForecast_pairwise conn start stop h, exists_horizonForecast_iff, fun p hp => ?_⟩
  obtain ⟨f, -, hsel, rfl⟩ := mem_getHorizonForecast.mp hp
  refine ⟨f, hsel.mem, rfl, rfl, rfl, hsel.eligible, fun f' hf' hslot hel => ?_, ?_,
    hsel.eligible.le_horizonHours⟩
  · refine hsel.latest f' hf' hslot ?_
    rw [ForecastRow.Eligible, hslot]
    exact hel
  · simp only [ForecastRow.toHorizonForecast, microsPerHour, microsPerSecond, div_div]
    norm_num

end WindSight
