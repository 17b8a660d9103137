import WindSight.EndToEnd.Screen
import WindSight.Pipeline.CrashSafety

/-! # From the records of the API to the chart

The pipeline, the API and the dashboard in a row. After a run of `main` that exits with 0 over a
consistent snapshot of the BMRS API, whatever happened on the way there, every series the dashboard
draws is the one its request asks for of the snapshot itself: the wind records of the window, and
of each slot the latest forecast published early enough (`chart_shows_records`). -/

namespace WindSight

/-! ## The series of a snapshot -/

namespace ApiSnapshot

variable (api : ApiSnapshot) (days : Set Date) (zone : ℤ) (start stop : Datetime)

/-- An instant of the window. -/
def InRange (zone : ℤ) (start stop : Datetime) (t : Instant) : Prop :=
  start.instantIn zone ≤ t ∧ t ≤ stop.instantIn zone

/-- The points of the actuals of a window. -/
def actualPoints : Set (Instant × ℚ) :=
  {p | ∃ x ∈ api.actualOf days, InRange zone start stop x.startTime ∧
    p = (x.startTime, x.generationMw)}

/-- The points of the forecasts of a window at a horizon: for each slot the latest one that was
published at least that long before. -/
def forecastPoints (h : ℚ) : Set (Instant × ℚ) :=
  {p | ∃ f, InRange zone start stop f.startTime ∧
    IsLatest ForecastRow.startTime ForecastRow.publishTime (api.forecastOf days)
      (ForecastRow.Eligible h) f ∧
    p = (f.startTime, f.generationMw)}

end ApiSnapshot

/-- A series draws a set of points: these, in strictly increasing time order. -/
def Draws (series : List (Instant × ℚ)) (points : Set (Instant × ℚ)) : Prop :=
  series.Pairwise (·.1 < ·.1) ∧ ∀ p, p ∈ series ↔ p ∈ points

/-! ## The series of a response -/

section Draws

variable {api : ApiSnapshot} {days : Set Date} {db : Database} {zone : ℤ} {start stop : Datetime}

/-- Over a table of the rows of the snapshot, `/generation` draws its actuals. -/
theorem draws_generation (hdb : db.actualGeneration.rowSet = api.actualOf days) :
    Draws (Request.generation start stop |>.compute ⟨db, zone⟩).points
      (api.actualPoints days zone start stop) := by
  refine ⟨List.pairwise_map.mpr (generationQuery_pairwise _ start stop), fun p => ?_⟩
  show p ∈ (generationQuery ⟨db, zone⟩ start stop).map _ ↔ _
  rw [List.mem_map]
  constructor
  · rintro ⟨g, hg, rfl⟩
    obtain ⟨x, hx, hwin, rfl⟩ := mem_generationQuery.mp hg
    exact ⟨x, hdb ▸ hx, hwin, rfl⟩
  · rintro ⟨x, hx, hwin, rfl⟩
    rw [← hdb] at hx
    exact ⟨_, mem_generationQuery.mpr ⟨x, hx, hwin, rfl⟩, rfl⟩

/-- Over a table of the rows of the snapshot, `/forecast` draws its forecasts. -/
theorem draws_forecast (hdb : db.windForecast.rowSet = api.forecastOf days) (h : Horizon) :
    Draws (Request.forecast start stop h |>.compute ⟨db, zone⟩).points
      (api.forecastPoints days zone start stop h.value) := by
  have hsel : ∀ f, IsSelected db.windForecast h.value f ↔
      IsLatest ForecastRow.startTime ForecastRow.publishTime (api.forecastOf days)
        (ForecastRow.Eligible h.value) f := fun f => by rw [IsSelected, hdb]
  constructor
  · refine List.pairwise_map.mpr (List.pairwise_map.mpr ?_)
    exact getHorizonForecast_pairwise _ start stop h.value
  · intro p
    show p ∈ ((getHorizonForecast ⟨db, zone⟩ start stop h.value).map _).map _ ↔ _
    rw [List.map_map, List.mem_map]
    constructor
    · rintro ⟨g, hg, rfl⟩
      obtain ⟨f, hwin, hf, rfl⟩ := mem_getHorizonForecast.mp hg
      exact ⟨f, hwin, (hsel f).mp hf, rfl⟩
    · rintro ⟨f, hwin, hf, rfl⟩
      exact ⟨_, mem_getHorizonForecast.mpr ⟨f, hwin, (hsel f).mpr hf, rfl⟩, rfl⟩

end Draws

/-! ## The chain -/

/-- **The chart shows the records.** Take any history of the pipeline over a consistent snapshot of
the API, with failures and kills, that ends with a run of `main` which exits with 0; and then any
run of the server and the dashboard over files with the contents it left. If the truncated digest
confuses no parameter texts, then in every state each series the dashboard holds is, for some
controls that were selected, the series of the snapshot for the window and the horizon these
controls are read as. -/
theorem chart_shows_records {api : ApiSnapshot} (hapi : api.Consistent) {m : MainRun}
    (hserves : api.Serves m.run.world) (hdry : m.run.dryRun = false) {commands : List Command}
    (hcommands : ∀ c ∈ commands, c.Over api m.days)
    (hexit : m.exitCode (Storage.fresh.after commands).database = 0) (app : App) (q : QueryReader)
    (trace : List SystemEvent)
    (hfiles : FilesIn {db | SameContents db
      (Storage.fresh.after (commands ++ [.main m none])).database} trace)
    (hhash : NoCollision app.hexdigest (requestsIn q trace)) :
    let s := (Machine.finalState (System.step app q) System.init trace).dashboard
    (∀ r ∈ s.generation, ∃ c ∈ selectedIn trace, r.request = c.request .generation ∧
      ∃ start stop, q.datetime c.start = some start ∧ q.datetime c.stop = some stop ∧
        Draws r.body.points (api.actualPoints m.days app.timeZone start stop)) ∧
    ∀ r ∈ s.forecast, ∃ c ∈ selectedIn trace, r.request = c.request .forecast ∧
      ∃ start stop h, q.datetime c.start = some start ∧ q.datetime c.stop = some stop ∧
        q.horizon (some (toString c.horizonHours)) = some h ∧
        Draws r.body.points (api.forecastPoints m.days app.timeZone start stop h.value) := by
  obtain ⟨⟨t, ht, hactual⟩, t', ht', hforecast⟩ := tables_of_exit_zero hapi hserves hdry
    (mem_tables_after hcommands).1 (mem_tables_after hcommands).2 hexit
  -- every file has the rows of the snapshot
  have hdbs : ∀ db, SameContents db (Storage.fresh.after (commands ++ [.main m none])).database →
      db.actualGeneration.rowSet = api.actualOf m.days ∧
        db.windForecast.rowSet = api.forecastOf m.days := by
    rintro db ⟨hdb, hdb'⟩
    rw [Storage.after_main] at hdb hdb'
    rw [hdb, hdb', Storage.database, ht, ht']
    exact ⟨hactual, hforecast⟩
  have hbodies := (sound_finalState app q hhash
    (fun c hc endpoint req hread => Or.inr ⟨c, hc, endpoint, hread⟩) trace hfiles subset_rfl
    subset_rfl).carries.bodies
  dsimp only
  generalize (Machine.finalState (System.step app q) System.init trace).dashboard = s at *
  constructor
  · intro r hr
    obtain ⟨c, hc, hrequest, req, hread, -, db, hdb, hbody⟩ := hbodies.generation r hr
    rw [hrequest] at hread
    obtain ⟨start, stop, hstart, hstop, rfl⟩ := eq_generation_of_read hread
    refine ⟨c, hc, hrequest, start, stop, hstart, hstop, ?_⟩
    rw [hbody]
    exact draws_generation (hdbs db hdb).1
  · intro r hr
    obtain ⟨c, hc, hrequest, req, hread, -, db, hdb, hbody⟩ := hbodies.forecast r hr
    rw [hrequest] at hread
    obtain ⟨start, stop, h, hstart, hstop, hh, rfl⟩ := eq_forecast_of_read hread
    refine ⟨c, hc, hrequest, start, stop, h, hstart, hstop, hh, ?_⟩
    rw [hbody]
    exact draws_forecast (hdbs db hdb).2 h

/-! ### An eventful history, and the first call after it -/

/-- The file the eventful history leaves once its last run succeeds. -/
def ingestedEnv : Env where
  file := some
    (Storage.fresh.after (eventfulHistory ++ [.main (flakyRun none false) none])).database
  connectRaises := false
  queryRaises := false
  lookupTime := 1
  storeTime := 1

/-- The first call, with the metrics lost. -/
def ingestedCall : List SystemEvent :=
  [.arrive 0 .generation ingestedEnv, .arrive 0 .forecast ingestedEnv, .deliver 1, .deliver 0,
    .lose 0 .metrics, .complete 0]

/-- The first call shows the records of the snapshot. -/
theorem chart_shows_records_ingestedCall :
    let s := (Machine.finalState (System.step ⟨initialDigest, 0⟩ initialReader) System.init
      ingestedCall).dashboard
    let days := (flakyRun none false).days
    s.generation.isSome ∧ s.forecast.isSome ∧
    (∀ r ∈ s.generation, ∃ c ∈ selectedIn ingestedCall, r.request = c.request .generation ∧
      ∃ start stop, initialReader.datetime c.start = some start ∧
        initialReader.datetime c.stop = some stop ∧
        Draws r.body.points (exampleApi.actualPoints days 0 start stop)) ∧
    ∀ r ∈ s.forecast, ∃ c ∈ selectedIn ingestedCall, r.request = c.request .forecast ∧
      ∃ start stop h, initialReader.datetime c.start = some start ∧
        initialReader.datetime c.stop = some stop ∧
        initialReader.horizon (some (toString c.horizonHours)) = some h ∧
        Draws r.body.points (exampleApi.forecastPoints days 0 start stop h.value) := by
  refine ⟨by decide +kernel, by decide +kernel, ?_⟩
  refine chart_shows_records consistent_exampleApi (serves_flakyWorld none) rfl
    over_eventfulHistory (by decide +kernel) ⟨initialDigest, 0⟩ initialReader ingestedCall ?_
    (noCollision_initial (by simp [ingestedCall]) (by simp [ingestedCall]))
  intro event hevent env henv db hdb
  have henv : env = ingestedEnv := by
    simp only [ingestedCall, List.mem_cons, List.not_mem_nil, or_false] at hevent
    rcases hevent with rfl | rfl | rfl | rfl | rfl | rfl <;> cases henv <;> rfl
  rw [henv] at hdb
  rw [← Option.some.inj hdb]
  exact ⟨rfl, rfl⟩

end WindSight
