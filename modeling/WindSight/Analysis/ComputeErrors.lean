import WindSight.Backend.ErrorJoin

/-! # The error query of the notebook

`compute_errors` of the analysis notebook selects and joins like `get_forecast_errors`, over the
whole table and without a tie-break. Restricted to a window the two agree
(`getForecastErrors_eq_computeErrors`): the ranking is partitioned by target slot, so filtering
slots commutes with it, and with the primary key no two forecasts of a slot tie. -/

namespace WindSight

open ListQuery

/-! ## The query -/

/-- The common table expression `ranked_forecasts` of the notebook: all eligible forecasts, numbered
in each target slot from the latest publish on. -/
def notebookRankedForecasts (conn : Conn) (h : ℚ) : List (ForecastRow × ℕ) :=
  -- `PARTITION BY start_time ORDER BY publish_time DESC`
  rowNumber ForecastRow.startTime ForecastRow.publishTime
    (conn.db.windForecast.rows.filter fun f => f.Eligible h)

/-- Forecast errors at a given horizon, over the whole table. -/
def computeErrors (conn : Conn) (h : ℚ) : List ForecastError :=
  let bestForecast := ((notebookRankedForecasts conn h).filter (·.2 = 1)).map Prod.fst
  let joined := innerJoin ActualRow.startTime ForecastRow.startTime
    conn.db.actualGeneration.rows bestForecast
  orderBy ForecastError.timestamp
    (joined.map fun p =>
      { timestamp := p.1.startTime
        actualMw := p.1.generationMw
        forecastMw := p.2.generationMw
        errorMw := p.2.generationMw - p.1.generationMw
        absErrorMw := |p.2.generationMw - p.1.generationMw|
        hourOfDay := conn.extractHour p.1.startTime })

/-! ## Its rows -/

section Rows

variable {conn : Conn} {h : ℚ}

/-- The rows the CTE `best_forecast` of the notebook keeps. -/
def notebookBestForecasts (conn : Conn) (h : ℚ) : List ForecastRow :=
  ((notebookRankedForecasts conn h).filter (·.2 = 1)).map Prod.fst

/-- The rows numbered one are the selected rows. -/
theorem mem_notebookBestForecasts {f : ForecastRow} :
    f ∈ notebookBestForecasts conn h ↔ IsSelected conn.db.windForecast h f := by
  unfold notebookBestForecasts notebookRankedForecasts
  change f ∈ rankedFirst _ _ _ ↔ _
  rw [mem_rankedFirst]
  · simp only [List.mem_filter, decide_eq_true_eq, KeyedTable.mem_rows]
    constructor
    · rintro ⟨⟨hmem, hel⟩, hmax⟩
      exact ⟨hmem, hel, fun f' hf' hslot hel' => hmax f' ⟨hf', hel'⟩ hslot⟩
    · intro hsel
      exact ⟨⟨hsel.mem, hsel.eligible⟩, fun f' hf' hslot => hsel.latest f' hf'.1 hslot hf'.2⟩
  · -- the primary key leaves no ties in a slot
    intro a ha b hb hslot hpub
    exact WindForecast.eq_of_times (List.mem_of_mem_filter ha) (List.mem_of_mem_filter hb) hslot
      hpub

/-- No slot is numbered one twice. -/
theorem notebookBestForecasts_nodup (conn : Conn) (h : ℚ) :
    ((notebookBestForecasts conn h).map ForecastRow.startTime).Nodup :=
  rankedFirst_nodup

/-- The errors are the rows of the actuals that have a selected forecast. -/
theorem mem_computeErrors {e : ForecastError} :
    e ∈ computeErrors conn h ↔
      ∃ a ∈ conn.db.actualGeneration, ∃ f, IsSelected conn.db.windForecast h f ∧
        f.startTime = a.startTime ∧ e = forecastErrorOf conn a f := by
  unfold computeErrors
  rw [mem_orderBy, List.mem_map, ← notebookBestForecasts]
  constructor
  · rintro ⟨⟨a, f⟩, hmem, rfl⟩
    obtain ⟨ha, hf, hslot⟩ := mem_innerJoin.mp hmem
    exact ⟨a, ha, f, mem_notebookBestForecasts.mp hf, hslot.symm, rfl⟩
  · rintro ⟨a, ha, f, hf, hslot, rfl⟩
    exact ⟨(a, f), mem_innerJoin.mpr ⟨ha, mem_notebookBestForecasts.mpr hf, hslot.symm⟩, rfl⟩

/-- The errors are strictly increasing in time. -/
theorem computeErrors_pairwise (conn : Conn) (h : ℚ) :
    (computeErrors conn h).Pairwise fun e e' => e.timestamp < e'.timestamp := by
  unfold computeErrors
  rw [← notebookBestForecasts]
  apply orderBy_pairwise_lt
  rw [List.map_map]
  exact innerJoin_nodup conn.db.actualGeneration.nodup (notebookBestForecasts_nodup conn h)

end Rows

/-! ## Agreement -/

private instance timestampIrrefl :
    Std.Irrefl fun e e' : ForecastError => e.timestamp < e'.timestamp :=
  ⟨fun e => lt_irrefl e.timestamp⟩

/-- **The two error queries agree.** The backend's errors of a window are the notebook's errors with
a timestamp in the window, row by row and in the same order. -/
theorem getForecastErrors_eq_computeErrors (conn : Conn) (start stop : Datetime) (h : ℚ) :
    getForecastErrors conn start stop h =
      (computeErrors conn h).filter fun e =>
        conn.bind start ≤ e.timestamp ∧ e.timestamp ≤ conn.bind stop := by
  -- both sides increase strictly in time, so their rows decide
  refine (getForecastErrors_pairwise conn start stop h).eq_of_mem_iff
    ((computeErrors_pairwise conn h).filter _) ?_
  intro e
  rw [mem_getForecastErrors, List.mem_filter, mem_computeErrors, decide_eq_true_eq]
  constructor
  · rintro ⟨a, ha, hwin, f, hf, hslot, rfl⟩
    exact ⟨⟨a, ha, f, hf, hslot, rfl⟩, hwin⟩
  · rintro ⟨⟨a, ha, f, hf, hslot, rfl⟩, hwin⟩
    exact ⟨a, ha, hwin, f, hf, hslot, rfl⟩

end WindSight
