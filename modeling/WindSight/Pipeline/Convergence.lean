import WindSight.Library.Machine
import WindSight.Pipeline.IngestLog

/-! # Convergence of repeated ingestion

Any number of runs over one API snapshot, each with its own failures. The database after them is the
replay of the frames loaded in them (`finalState_ingestStep`). Since rows of the snapshot agree on
their keys, that replay is the overlay of the initial contents by the set of loaded rows
(`ingestion_converges`): neither order nor repetition matters, and a repeated run adds nothing. -/

namespace WindSight

open Machine (finalState transcript)

/-! ## Snapshots of the API -/

/-- An API snapshot: the records each request is answered with. -/
structure ApiSnapshot where
  fuelhh : FuelhhParams → List FuelhhRecord
  windfor : WindforParams → List WindforRecord

namespace ApiSnapshot

/-- The rows of actuals of a snapshot. -/
def actualRows (api : ApiSnapshot) : Set ActualRow :=
  {x | ∃ params, x ∈ actualFrame (api.fuelhh params)}

/-- The rows of forecasts of a snapshot. -/
def forecastRows (api : ApiSnapshot) : Set ForecastRow :=
  {x | ∃ params, x ∈ forecastFrame (api.windfor params)}

/-- Rows of a snapshot with the same primary key are the same row. -/
structure Consistent (api : ApiSnapshot) : Prop where
  actual : Set.InjOn ActualRow.startTime api.actualRows
  forecast : Set.InjOn ForecastRow.key api.forecastRows

/-- Every request is answered from the snapshot, unless it fails. -/
structure Serves (api : ApiSnapshot) (world : Date → BatchEnv) : Prop where
  fuelhh : ∀ {d params records}, (world d).fuelhh params = .ok records → records = api.fuelhh params
  windfor : ∀ {d params records},
    (world d).windfor params = .ok records → records = api.windfor params

end ApiSnapshot

/-! ## Sequences of runs -/

/-- A run of `run_ingestion`: its configuration, what its batches meet, and whether it is dry. -/
structure IngestRun where
  cfg : IngestConfig
  world : Date → BatchEnv
  dryRun : Bool

/-- One run on the database. Without batches it never reaches the tables. -/
def ingestStep (db : Database) (run : IngestRun) :
    Except BatchError (IngestStats × IngestState) × Database :=
  match runIngestion run.cfg run.world run.dryRun db with
  | .ok (stats, s) => (.ok (stats, s), s.db)
  | .error e => (.error e, db)

/-- The log of a run that has one. -/
def eventsOf : Except BatchError (IngestStats × IngestState) → List IngestEvent
  | .ok (_, s) => s.log
  | .error _ => []

/-- The logs of a sequence of runs. -/
def runsLog (db : Database) (runs : List IngestRun) : List IngestEvent :=
  (transcript ingestStep db runs).flatMap fun x => eventsOf x.2

/-- One run leaves the replay of its log. -/
theorem ingestStep_db (db : Database) (run : IngestRun) :
    (ingestStep db run).2 = db.replay (eventsOf (ingestStep db run).1) := by
  rw [ingestStep]
  cases h : runIngestion run.cfg run.world run.dryRun db with
  | error e => rfl
  | ok result =>
    obtain ⟨-, -, hdb, -⟩ := runIngestion_log h
    exact hdb

/-- **Runs one after the other leave the replay of their logs.** -/
theorem finalState_ingestStep (db : Database) (runs : List IngestRun) :
    finalState ingestStep db runs = db.replay (runsLog db runs) := by
  induction runs generalizing db with
  | nil => rfl
  | cons run runs ih =>
    have hlog : runsLog db (run :: runs)
        = eventsOf (ingestStep db run).1 ++ runsLog (ingestStep db run).2 runs := List.flatMap_cons
    rw [Machine.finalState_cons, ih, hlog, Database.replay_append, ← ingestStep_db]

/-- The events of a run are those of its batches. -/
theorem mem_eventsOf_ingestStep {db : Database} {run : IngestRun} {event : IngestEvent}
    (h : event ∈ eventsOf (ingestStep db run).1) :
    ∃ d, IsBatchDay run.cfg d ∧ event ∈ (batchOutcome run.world run.dryRun d).events := by
  rw [ingestStep] at h
  cases hrun : runIngestion run.cfg run.world run.dryRun db with
  | error e =>
    rw [hrun] at h
    exact absurd h List.not_mem_nil
  | ok result =>
    rw [hrun] at h
    exact (mem_log_iff hrun event).mp h

/-- A result in the transcript is that of a run on some database. -/
theorem run_of_mem_transcript {db : Database} {runs : List IngestRun} {run : IngestRun}
    {stats : IngestStats} {s : IngestState}
    (h : (run, .ok (stats, s)) ∈ transcript ingestStep db runs) :
    run ∈ runs ∧ ∃ db', runIngestion run.cfg run.world run.dryRun db' = .ok (stats, s) := by
  obtain ⟨hmem, db', hout⟩ := Machine.mem_transcript h
  refine ⟨hmem, db', ?_⟩
  rw [ingestStep] at hout
  cases hrun : runIngestion run.cfg run.world run.dryRun db' with
  | error e => simp [hrun] at hout
  | ok result =>
    simp only [hrun] at hout
    exact hout.symm

/-! ## Loaded rows -/

section Loaded

variable {api : ApiSnapshot} {db : Database} {runs : List IngestRun}

/-- A batch of a served run loads rows of the snapshot. -/
theorem ApiSnapshot.Serves.loadActual {world : Date → BatchEnv} (hworld : api.Serves world)
    {dryRun : Bool} {d : Date} {df : List ActualRow}
    (h : .loadActual df ∈ (batchOutcome world dryRun d).events) :
    df = actualFrame (api.fuelhh (fuelhhParams d)) := by
  obtain ⟨records, hfetch, rfl⟩ := loadActual_of_mem_batch h
  rw [hworld.fuelhh hfetch]

theorem ApiSnapshot.Serves.loadForecast {world : Date → BatchEnv} (hworld : api.Serves world)
    {dryRun : Bool} {d : Date} {df : List ForecastRow}
    (h : .loadForecast df ∈ (batchOutcome world dryRun d).events) :
    df = forecastFrame (api.windfor (windforParams d)) := by
  obtain ⟨-, records, hfetch, rfl⟩ := loadForecast_of_mem_batch h
  rw [hworld.windfor hfetch]

/-- An event of a sequence of runs is one of a batch of one of them. -/
theorem mem_runsLog {event : IngestEvent} (h : event ∈ runsLog db runs) :
    ∃ run ∈ runs, ∃ d, IsBatchDay run.cfg d ∧
      event ∈ (batchOutcome run.world run.dryRun d).events := by
  obtain ⟨x, hmem, hevent⟩ := List.mem_flatMap.mp h
  obtain ⟨hrun, db', hout⟩ := Machine.mem_transcript hmem
  rw [hout] at hevent
  exact ⟨x.1, hrun, mem_eventsOf_ingestStep hevent⟩

theorem loadedActual_subset (hserves : ∀ run ∈ runs, api.Serves run.world) :
    {x | x ∈ loadedActual (runsLog db runs)} ⊆ api.actualRows := by
  intro x hx
  obtain ⟨df, hmem, hxdf⟩ := mem_loadedActual.mp hx
  obtain ⟨run, hrun, d, -, hevent⟩ := mem_runsLog hmem
  obtain rfl := (hserves run hrun).loadActual hevent
  exact ⟨_, hxdf⟩

theorem loadedForecast_subset (hserves : ∀ run ∈ runs, api.Serves run.world) :
    {x | x ∈ loadedForecast (runsLog db runs)} ⊆ api.forecastRows := by
  intro x hx
  obtain ⟨df, hmem, hxdf⟩ := mem_loadedForecast.mp hx
  obtain ⟨run, hrun, d, -, hevent⟩ := mem_runsLog hmem
  obtain rfl := (hserves run hrun).loadForecast hevent
  exact ⟨_, hxdf⟩

/-- The tables after a sequence of runs are those before, upserted with the loaded rows. -/
theorem rowSet_finalState (hapi : api.Consistent) (db : Database)
    (hserves : ∀ run ∈ runs, api.Serves run.world) :
    (finalState ingestStep db runs).actualGeneration.rowSet =
        overlay ActualRow.startTime db.actualGeneration.rowSet
          {x | x ∈ loadedActual (runsLog db runs)} ∧
      (finalState ingestStep db runs).windForecast.rowSet =
        overlay ForecastRow.key db.windForecast.rowSet
          {x | x ∈ loadedForecast (runsLog db runs)} := by
  rw [finalState_ingestStep, (replay_tables db _).1, (replay_tables db _).2]
  exact ⟨KeyedTable.rowSet_upsertAll _ (hapi.actual.mono (loadedActual_subset hserves)),
    KeyedTable.rowSet_upsertAll _ (hapi.forecast.mono (loadedForecast_subset hserves))⟩

/-- A batch without an exception has loaded the rows the snapshot has for it. -/
theorem loaded_of_success (hserves : ∀ run ∈ runs, api.Serves run.world) {run : IngestRun}
    {stats : IngestStats} {s : IngestState}
    (h : (run, .ok (stats, s)) ∈ transcript ingestStep db runs) (hdry : run.dryRun = false)
    {d : Date} (hday : IsBatchDay run.cfg d) (hfail : ¬ Failed s d) :
    (∀ x ∈ actualFrame (api.fuelhh (fuelhhParams d)), x ∈ loadedActual (runsLog db runs)) ∧
      ∀ x ∈ forecastFrame (api.windfor (windforParams d)),
        x ∈ loadedForecast (runsLog db runs) := by
  obtain ⟨hmem, db', hrun⟩ := run_of_mem_transcript h
  have hlog : ∀ event ∈ (batchOutcome run.world run.dryRun d).events, event ∈ runsLog db runs :=
    fun event hevent =>
      List.mem_flatMap.mpr ⟨_, h, (mem_log_iff hrun event).mpr ⟨d, hday, hevent⟩⟩
  have hsuccess : (batchOutcome run.world run.dryRun d).failure = none := by
    by_contra hne
    exact hfail ((mem_errors_iff hrun d).mpr ⟨hday, hne⟩)
  rw [hdry] at hlog hsuccess
  obtain ⟨⟨arecords, hafetch, hload⟩, frecords, hffetch, hload'⟩ := loads_of_success hsuccess
  rw [← (hserves run hmem).fuelhh hafetch, ← (hserves run hmem).windfor hffetch]
  exact ⟨fun x hx => mem_loadedActual.mpr ⟨_, hlog _ (hload (List.ne_nil_of_mem hx)), hx⟩,
    fun x hx => mem_loadedForecast.mpr ⟨_, hlog _ (hload' (List.ne_nil_of_mem hx)), hx⟩⟩

/-- A run loads nothing that a run of the same configuration without exceptions has not loaded. -/
theorem loaded_subset_of_rerun (hserves : ∀ run ∈ runs, api.Serves run.world) {run : IngestRun}
    {stats : IngestStats} {s : IngestState}
    (h : (run, .ok (stats, s)) ∈ transcript ingestStep db runs) (hdry : run.dryRun = false)
    (hok : s.errors = []) {run' : IngestRun} (hcfg : run'.cfg = run.cfg)
    (hserves' : api.Serves run'.world) (db' : Database) :
    (∀ x ∈ loadedActual (eventsOf (ingestStep db' run').1), x ∈ loadedActual (runsLog db runs)) ∧
      ∀ x ∈ loadedForecast (eventsOf (ingestStep db' run').1),
        x ∈ loadedForecast (runsLog db runs) := by
  have hfail : ∀ d, ¬ Failed s d := by
    rintro d ⟨e, he⟩
    rw [hok] at he
    cases he
  constructor
  · intro x hx
    obtain ⟨df, hmem, hxdf⟩ := mem_loadedActual.mp hx
    obtain ⟨d, hday, hevent⟩ := mem_eventsOf_ingestStep hmem
    obtain rfl := hserves'.loadActual hevent
    exact (loaded_of_success hserves h hdry (hcfg ▸ hday) (hfail d)).1 x hxdf
  · intro x hx
    obtain ⟨df, hmem, hxdf⟩ := mem_loadedForecast.mp hx
    obtain ⟨d, hday, hevent⟩ := mem_eventsOf_ingestStep hmem
    obtain rfl := hserves'.loadForecast hevent
    exact (loaded_of_success hserves h hdry (hcfg ▸ hday) (hfail d)).2 x hxdf

end Loaded

/-! ## Convergence -/

/-- The tables of two databases hold the same rows. -/
def SameContents (db db' : Database) : Prop :=
  db.actualGeneration.rowSet = db'.actualGeneration.rowSet ∧
    db.windForecast.rowSet = db'.windForecast.rowSet

/-- **Ingestion converges.** After any sequence of runs over one consistent snapshot, with any
failures, each table holds its initial contents upserted with the rows of the frames loaded, one row
per key. So the contents depend on nothing but the set of these rows; the rows of a batch that ended
without an exception are there, whatever happened to other batches; and after a run without
exceptions, repeating it changes nothing, even if the repetition fails in places. -/
theorem ingestion_converges {api : ApiSnapshot} (hapi : api.Consistent) (db : Database)
    (runs : List IngestRun) (hserves : ∀ run ∈ runs, api.Serves run.world) :
    ((finalState ingestStep db runs).actualGeneration.rowSet =
        overlay ActualRow.startTime db.actualGeneration.rowSet
          {x | ∃ df, .loadActual df ∈ runsLog db runs ∧ x ∈ df} ∧
      (finalState ingestStep db runs).windForecast.rowSet =
        overlay ForecastRow.key db.windForecast.rowSet
          {x | ∃ df, .loadForecast df ∈ runsLog db runs ∧ x ∈ df}) ∧
    (Set.InjOn ActualRow.startTime (finalState ingestStep db runs).actualGeneration.rowSet ∧
      Set.InjOn ForecastRow.key (finalState ingestStep db runs).windForecast.rowSet) ∧
    (∀ runs', (∀ run ∈ runs', api.Serves run.world) →
      (∀ x, x ∈ loadedActual (runsLog db runs') ↔ x ∈ loadedActual (runsLog db runs)) →
      (∀ x, x ∈ loadedForecast (runsLog db runs') ↔ x ∈ loadedForecast (runsLog db runs)) →
      SameContents (finalState ingestStep db runs') (finalState ingestStep db runs)) ∧
    (∀ run stats s, (run, .ok (stats, s)) ∈ transcript ingestStep db runs → run.dryRun = false →
      ∀ d, IsBatchDay run.cfg d → ¬ Failed s d →
        (∀ x ∈ actualFrame (api.fuelhh (fuelhhParams d)),
          x ∈ (finalState ingestStep db runs).actualGeneration) ∧
        ∀ x ∈ forecastFrame (api.windfor (windforParams d)),
          x ∈ (finalState ingestStep db runs).windForecast) ∧
    ∀ run stats s, (run, .ok (stats, s)) ∈ transcript ingestStep db runs → run.dryRun = false →
      s.errors = [] → ∀ run' : IngestRun, run'.cfg = run.cfg → api.Serves run'.world →
        SameContents (ingestStep (finalState ingestStep db runs) run').2
          (finalState ingestStep db runs) := by
  obtain ⟨hactual, hforecast⟩ := rowSet_finalState hapi db hserves
  have hmemActual : ∀ x ∈ loadedActual (runsLog db runs),
      x ∈ (finalState ingestStep db runs).actualGeneration := fun x hx => by
    rw [← KeyedTable.mem_rowSet, hactual]
    exact Or.inl hx
  have hmemForecast : ∀ x ∈ loadedForecast (runsLog db runs),
      x ∈ (finalState ingestStep db runs).windForecast := fun x hx => by
    rw [← KeyedTable.mem_rowSet, hforecast]
    exact Or.inl hx
  refine ⟨?_, ⟨KeyedTable.rowSet_injOn _, KeyedTable.rowSet_injOn _⟩, ?_, ?_, ?_⟩
  · simpa only [mem_loadedActual, mem_loadedForecast] using And.intro hactual hforecast
  · intro runs' hserves' hsameActual hsameForecast
    obtain ⟨hactual', hforecast'⟩ := rowSet_finalState hapi db hserves'
    rw [SameContents, hactual, hforecast, hactual', hforecast']
    exact ⟨congrArg _ (Set.ext hsameActual), congrArg _ (Set.ext hsameForecast)⟩
  · intro run stats s h hdry d hday hfail
    obtain ⟨hloaded, hloaded'⟩ := loaded_of_success hserves h hdry hday hfail
    exact ⟨fun x hx => hmemActual x (hloaded x hx), fun x hx => hmemForecast x (hloaded' x hx)⟩
  · -- the repetition loads rows that are already there
    intro run stats s h hdry hok run' hcfg hserves'
    obtain ⟨hsub, hsub'⟩ := loaded_subset_of_rerun hserves h hdry hok hcfg hserves'
      (finalState ingestStep db runs)
    rw [SameContents, ingestStep_db, (replay_tables _ _).1, (replay_tables _ _).2]
    exact ⟨KeyedTable.rowSet_upsertAll_of_subset fun x hx => hmemActual x (hsub x hx),
      KeyedTable.rowSet_upsertAll_of_subset fun x hx => hmemForecast x (hsub' x hx)⟩

/-! ### A run that fails, and its repetition -/

/-- A snapshot of one actual and one forecast, of 2024-01-01T00:00Z. -/
def exampleApi : ApiSnapshot where
  fuelhh := fun _ => [⟨midnight 19723, 19723, 1, 100, "WIND"⟩]
  windfor := fun _ => [⟨midnight 19723, midnight 19722, 90⟩]

/-- A world that serves the example snapshot, except for the actuals of one day. -/
def flakyWorld (down : Option Date) (d : Date) : BatchEnv where
  fuelhh := fun params =>
    if down = some d then .error "ConnectError" else .ok (exampleApi.fuelhh params)
  windfor := fun params => .ok (exampleApi.windfor params)
  saveParquet := fun _ _ => .ok ()
  insertActual := .ok ()
  insertForecast := .ok ()

/-- The first four days of 2024, in daily batches. -/
def exampleDays : IngestConfig := ⟨19723, 19726, 1, by decide⟩

/-- A run in which the first day fails, then one in which nothing does. -/
def exampleRuns : List IngestRun :=
  [⟨exampleDays, flakyWorld (some 19723), false⟩, ⟨exampleDays, flakyWorld none, false⟩]

theorem serves_flakyWorld (down : Option Date) : exampleApi.Serves (flakyWorld down) where
  fuelhh := by
    intro d params records h
    rw [flakyWorld] at h
    split at h
    · cases h
    · exact (Except.ok.inj h).symm
  windfor := fun h => (Except.ok.inj h).symm

/-- Running once more, with the second day down, changes nothing. -/
theorem ingestion_converges_exampleRuns :
    SameContents
      (ingestStep (finalState ingestStep .empty exampleRuns)
        ⟨exampleDays, flakyWorld (some 19724), false⟩).2
      (finalState ingestStep .empty exampleRuns) := by
  have hapi : exampleApi.Consistent := by
    constructor
    · rintro x ⟨_, hx⟩ y ⟨_, hy⟩ -
      exact (List.mem_singleton.mp hx).trans (List.mem_singleton.mp hy).symm
    · rintro x ⟨_, hx⟩ y ⟨_, hy⟩ -
      exact (List.mem_singleton.mp hx).trans (List.mem_singleton.mp hy).symm
  have hserves : ∀ run ∈ exampleRuns, exampleApi.Serves run.world := by
    intro run hrun
    rcases List.mem_pair.mp hrun with rfl | rfl <;> exact serves_flakyWorld _
  obtain ⟨stats, s, hmem, hok⟩ : ∃ stats s,
      ((⟨exampleDays, flakyWorld none, false⟩ : IngestRun), .ok (stats, s)) ∈
        transcript ingestStep .empty exampleRuns ∧ s.errors = [] :=
    ⟨_, _, List.mem_cons_of_mem _ List.mem_cons_self, rfl⟩
  exact (ingestion_converges hapi .empty exampleRuns hserves).2.2.2.2 _ stats s hmem rfl hok _ rfl
    (serves_flakyWorld _)

end WindSight
