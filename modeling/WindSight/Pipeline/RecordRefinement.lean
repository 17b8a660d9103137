import WindSight.Pipeline.IngestLog
import WindSight.Pipeline.RecordLoad

/-! # Records behind typed responses

The pipeline over typed records takes the outcome of a request after its conversion. Here a run over
the records as they are is compared with it: whatever the records are, there are typed responses
with which `run_ingestion` leaves the same tables and meets the same exceptions
(`runIngestion_refines`). So what is proved of its runs holds of runs over the records. -/

namespace WindSight.Records

/-! ## A run over records -/

/-- What a batch meets: the outcome of each request after its retries, with the records as they are,
and that of saving a frame under a name and a date. -/
structure RecordEnv (D : Type) where
  fuelhh : FuelhhParams → Except String (List Record)
  windfor : WindforParams → Except String (List Record)
  saveParquet : String → Date → Frame D → Except String Unit

/-- The tables and the exceptions of `run_ingestion`. -/
structure RunState (D : Type) where
  actual : ActualTable D
  forecast : ForecastTable D
  errors : List (Date × RecordError)

/-- One round of the loop over the batches of `run_ingestion`. -/
def runBatch {D : Type} (pandas : Pandas D) (duck : DuckDb D) (world : Date → RecordEnv D)
    (s : RunState D) (batch : Date × Date) : RunState D :=
  let d := batch.1
  let env := world d
  match exec (ingestActual pandas duck (env.saveParquet "actual" d)
      (env.fuelhh (fuelhhParams d))) s.actual with
  | (.error e, actual) => { s with actual := actual, errors := s.errors ++ [(d, e)] }
  | (.ok _, actual) =>
    match exec (ingestForecast pandas duck (env.saveParquet "forecast" d)
        (env.windfor (windforParams d))) s.forecast with
    | (.error e, forecast) => ⟨actual, forecast, s.errors ++ [(d, e)]⟩
    | (.ok _, forecast) => ⟨actual, forecast, s.errors⟩

/-- `run_ingestion` over two tables. -/
def runIngestion {D : Type} (cfg : IngestConfig) (pandas : Pandas D) (duck : DuckDb D)
    (world : Date → RecordEnv D) (actual : ActualTable D) (forecast : ForecastTable D) :
    Except BatchError (RunState D) := do
  let batches ← generateDateBatches cfg.dataStartDate cfg.dataEndDate cfg.batchSizeDays
  return batches.foldl (runBatch pandas duck world) ⟨actual, forecast, []⟩

/-! ## Typed rows -/

/-- A stored row as a typed record. -/
def StoredActual.toRecord (r : StoredActual ℚ) : FuelhhRecord :=
  ⟨r.startTime, r.settlementDate, r.settlementPeriod, r.generationMw, r.fuelType⟩

/-- A stored row as a typed record. -/
def StoredForecast.toRecord (r : StoredForecast ℚ) : WindforRecord :=
  ⟨r.startTime, r.publishTime, r.generationMw⟩

/-- A stored row as a row of the database. -/
def StoredActual.toRow (r : StoredActual ℚ) : ActualRow := r.toRecord.toRow

/-- A stored row as a row of the database. -/
def StoredForecast.toRow (r : StoredForecast ℚ) : ForecastRow := r.toRecord.toRow

theorem StoredActual.startTime_toRow (r : StoredActual ℚ) : r.toRow.startTime = r.startTime := rfl

theorem StoredForecast.key_toRow (r : StoredForecast ℚ) : r.toRow.key = r.key := rfl

/-- The tables of a run as a database. -/
def RunState.toDatabase (s : RunState ℚ) : Database where
  actualGeneration := s.actual.map StoredActual.toRow StoredActual.startTime_toRow
  windForecast := s.forecast.map StoredForecast.toRow StoredForecast.key_toRow

/-- Loading rows commutes with reading the tables as a database. -/
theorem RunState.apply_loadActual (s : RunState ℚ) (rows : List (StoredActual ℚ)) :
    s.toDatabase.apply (.loadActual (rows.map StoredActual.toRow))
      = { s with actual := s.actual.upsertAll rows }.toDatabase := by
  unfold toDatabase
  rw [KeyedTable.map_upsertAll]
  rfl

theorem RunState.apply_loadForecast (s : RunState ℚ) (rows : List (StoredForecast ℚ)) :
    s.toDatabase.apply (.loadForecast (rows.map StoredForecast.toRow))
      = { s with forecast := s.forecast.upsertAll rows }.toDatabase := by
  unfold toDatabase
  rw [KeyedTable.map_upsertAll]
  rfl

/-- Rows of wind generation are the frame of their typed records. -/
theorem actualFrame_toRecord {rows : List (StoredActual ℚ)}
    (hwind : ∀ r ∈ rows, isWind r.fuelType = true) :
    actualFrame (rows.map StoredActual.toRecord) = rows.map StoredActual.toRow := by
  unfold actualFrame
  rw [List.map_map]
  apply List.filter_eq_self.mpr
  intro row hrow
  obtain ⟨r, hr, rfl⟩ := List.mem_map.mp hrow
  exact hwind r hr

theorem forecastFrame_toRecord (rows : List (StoredForecast ℚ)) :
    forecastFrame (rows.map StoredForecast.toRecord) = rows.map StoredForecast.toRow :=
  List.map_map

/-- The rows stored for wind records are rows of wind. -/
theorem StoresActual.isWind {pandas : Pandas ℚ} {duck : DuckDb ℚ} {records : List Record}
    {rows : List (StoredActual ℚ)}
    (h : StoresActual pandas duck records (records.filter isWindRecord) rows)
    {row : StoredActual ℚ} (hrow : row ∈ rows) : WindSight.isWind row.fuelType = true := by
  have hmem : some (.str row.fuelType)
      ∈ (records.filter isWindRecord).map (value "fuelType" "fuel_type") := by
    rw [h.fuelType]
    exact List.mem_map_of_mem hrow
  obtain ⟨r, hr, hvalue⟩ := List.mem_map.mp hmem
  have hwind := (List.mem_filter.mp hr).2
  unfold isWindRecord at hwind
  rwa [hvalue] at hwind

/-! ## A day -/

section Day

variable (pandas : Pandas ℚ) (duck : DuckDb ℚ) (saveParquet : Frame ℚ → Except String Unit)

/-- The actuals of a day end with an exception, or store rows of wind, whatever the table holds. -/
theorem ingestActual_cases (hsave : ∀ df, saveParquet df = .ok () → df.names.Nodup)
    (response : Except String (List Record)) :
    (∃ e, ∀ table, exec (ingestActual pandas duck saveParquet response) table
      = (.error e, table)) ∨
    ∃ rows, (∀ r ∈ rows, isWind r.fuelType = true) ∧
      ∀ table, exec (ingestActual pandas duck saveParquet response) table
        = (.ok rows.length, table.upsertAll rows) := by
  cases response with
  | error e => exact Or.inl ⟨.raised e, fun _ => rfl⟩
  | ok records =>
    rcases @exec_ingestActual ℚ records pandas duck saveParquet (Or.inl hsave) with
      herr | ⟨rows, hexec, hlength, hstores⟩
    · exact Or.inl herr
    · refine Or.inr ⟨rows, fun r hr => ?_, hexec⟩
      -- a row is stored for a kept record
      have hkept : records.filter isWindRecord ≠ [] := by
        intro hnil
        rw [hnil, List.length_nil, List.length_eq_zero_iff] at hlength
        exact absurd (hlength ▸ hr) List.not_mem_nil
      exact (hstores hkept).isWind hr

/-- The forecasts of a day end with an exception, or store rows, whatever the table holds. -/
theorem ingestForecast_cases (response : Except String (List Record)) :
    (∃ e, ∀ table, exec (ingestForecast pandas duck saveParquet response) table
      = (.error e, table)) ∨
    ∃ rows, ∀ table, exec (ingestForecast pandas duck saveParquet response) table
      = (.ok rows.length, table.upsertAll rows) := by
  cases response with
  | error e => exact Or.inl ⟨.raised e, fun _ => rfl⟩
  | ok records =>
    exact (exec_ingestForecast pandas duck saveParquet).imp id
      fun ⟨rows, hexec, _⟩ => ⟨rows, hexec⟩

end Day

/-! ## Refinement -/

/-- The surroundings of a batch whose requests have the given outcomes; saving and inserting do not
raise. -/
def responding (fuelhh : Except String (List FuelhhRecord))
    (windfor : Except String (List WindforRecord)) : BatchEnv where
  fuelhh _ := fuelhh
  windfor _ := windfor
  saveParquet _ _ := .ok ()
  insertActual := .ok ()
  insertForecast := .ok ()

/-- A part of a batch in which nothing raises applies the load of its frame. -/
theorem phaseOutcome_ok {ρ : Type} {request : IngestEvent} {load : List ρ → IngestEvent}
    (df : List ρ) {db : Database} (hrequest : db.apply request = db)
    (hload : db.apply (load []) = db) :
    (phaseOutcome request load (.ok df) (.ok ()) (.ok ()) false).failure = none ∧
      db.replay (phaseOutcome request load (.ok df) (.ok ()) (.ok ()) false).events
        = db.apply (load df) := by
  cases df with
  | nil => exact ⟨rfl, hrequest.trans hload.symm⟩
  | cons row df =>
    refine ⟨rfl, ?_⟩
    show (db.apply request).apply (load (row :: df)) = _
    rw [hrequest]

theorem actualOutcome_responding (windfor : Except String (List WindforRecord)) (d : Date)
    {rows : List (StoredActual ℚ)} (hwind : ∀ r ∈ rows, isWind r.fuelType = true)
    (db : Database) :
    (actualOutcome (responding (.ok (rows.map StoredActual.toRecord)) windfor) false d).failure
        = none ∧
      db.replay (actualOutcome (responding (.ok (rows.map StoredActual.toRecord)) windfor) false
        d).events = db.apply (.loadActual (rows.map StoredActual.toRow)) := by
  unfold actualOutcome responding
  simp only [Except.map, actualFrame_toRecord hwind]
  exact phaseOutcome_ok _ rfl rfl

theorem forecastOutcome_responding (fuelhh : Except String (List FuelhhRecord)) (d : Date)
    (rows : List (StoredForecast ℚ)) (db : Database) :
    (forecastOutcome (responding fuelhh (.ok (rows.map StoredForecast.toRecord))) false d).failure
        = none ∧
      db.replay (forecastOutcome (responding fuelhh (.ok (rows.map StoredForecast.toRecord))) false
        d).events = db.apply (.loadForecast (rows.map StoredForecast.toRow)) := by
  unfold forecastOutcome responding
  simp only [Except.map, forecastFrame_toRecord]
  exact phaseOutcome_ok _ rfl rfl

/-- Typed states simulate states over records: they hold the same rows, and the same exceptions as
texts. -/
def Simulates (text : RecordError → String) (s : RunState ℚ) (t : IngestState) : Prop :=
  t.db = s.toDatabase ∧ t.errors = s.errors.map (Prod.map id text)

section Refinement

variable (pandas : Pandas ℚ) (duck : DuckDb ℚ) {world : Date → RecordEnv ℚ}
  (text : RecordError → String)

/-- A batch simulates that over the records, if its outcome leaves the same rows and ends with the
same exception. -/
theorem simulates_runBatch {text : RecordError → String} {world' : Date → BatchEnv}
    {batch : Date × Date} {s s' : RunState ℚ} {t : IngestState} (h : Simulates text s t)
    (hdb : s.toDatabase.replay (batchOutcome world' false batch.1).events = s'.toDatabase)
    (herrors : s'.errors.map (Prod.map id text) = s.errors.map (Prod.map id text)
      ++ (batchOutcome world' false batch.1).failure.toList.map (batch.1, ·)) :
    Simulates text s' (WindSight.runBatch world' false t batch) := by
  obtain ⟨hdb', -, herrors'⟩ := runBatch_outcome world' false t batch
  constructor
  · rw [hdb', h.1, hdb]
  · rw [herrors', h.2, herrors]

/-- For each day there are typed responses with which its batch simulates that over the records. -/
theorem exists_batchEnv (d : Date)
    (hsave : ∀ name df, (world d).saveParquet name d df = .ok () → df.names.Nodup) :
    ∃ env : BatchEnv, ∀ (world' : Date → BatchEnv) (batch : Date × Date) (s : RunState ℚ)
      (t : IngestState), batch.1 = d → world' d = env → Simulates text s t →
        Simulates text (runBatch pandas duck world s batch)
          (WindSight.runBatch world' false t batch) := by
  rcases ingestActual_cases pandas duck _ (hsave "actual") ((world d).fuelhh (fuelhhParams d)) with
    ⟨e, herr⟩ | ⟨rows, hwind, hexec⟩
  · -- the actuals raise, and the forecasts are not requested
    refine ⟨responding (.error (text e)) (.error (text e)), ?_⟩
    rintro world' batch s t rfl henv h
    apply simulates_runBatch h <;> unfold batchOutcome runBatch <;> rw [henv] <;> simp only [herr]
    · rfl
    · exact List.map_append
  · rcases ingestForecast_cases pandas duck ((world d).saveParquet "forecast" d)
        ((world d).windfor (windforParams d)) with ⟨e, herr⟩ | ⟨rows', hexec'⟩
    · -- the forecasts raise, and the actuals stay
      refine ⟨responding (.ok (rows.map StoredActual.toRecord)) (.error (text e)), ?_⟩
      rintro world' batch s t rfl henv h
      obtain ⟨hok, hreplay⟩ :=
        actualOutcome_responding (.error (text e)) batch.1 hwind s.toDatabase
      apply simulates_runBatch h <;> unfold batchOutcome runBatch <;>
        rw [henv, BatchOutcome.andThen, hok] <;> simp only [hexec, herr]
      · rw [Database.replay_append, hreplay, RunState.apply_loadActual]
        rfl
      · exact List.map_append
    · refine ⟨responding (.ok (rows.map StoredActual.toRecord))
        (.ok (rows'.map StoredForecast.toRecord)), ?_⟩
      rintro world' batch s t rfl henv h
      obtain ⟨hok, hreplay⟩ := actualOutcome_responding
        (.ok (rows'.map StoredForecast.toRecord)) batch.1 hwind s.toDatabase
      obtain ⟨hok', hreplay'⟩ := forecastOutcome_responding
        (.ok (rows.map StoredActual.toRecord)) batch.1 rows'
        (s.toDatabase.apply (.loadActual (rows.map StoredActual.toRow)))
      apply simulates_runBatch h <;> unfold batchOutcome runBatch <;>
        rw [henv, BatchOutcome.andThen, hok] <;> simp only [hexec, hexec', hok']
      · rw [Database.replay_append, hreplay, hreplay', RunState.apply_loadActual,
          RunState.apply_loadForecast]
      · simp

/-- A run whose batches simulate each other simulates the run over the records. -/
theorem Simulates.foldl {text : RecordError → String} {world' : Date → BatchEnv}
    (hstep : ∀ batch s t, Simulates text s t →
      Simulates text (runBatch pandas duck world s batch)
        (WindSight.runBatch world' false t batch))
    (batches : List (Date × Date)) {s : RunState ℚ} {t : IngestState} (h : Simulates text s t) :
    Simulates text (batches.foldl (runBatch pandas duck world) s)
      (batches.foldl (WindSight.runBatch world' false) t) := by
  induction batches generalizing s t with
  | nil => exact h
  | cons batch batches ih => exact ih (hstep batch s t h)

/-- **Runs over records are runs over typed responses.** There are responses with which
`run_ingestion` ends as it does over the records: with the same rows in both tables and the same
exceptions, if saving rejects frames with repeated names. -/
theorem runIngestion_refines
    (hsave : ∀ d name df, (world d).saveParquet name d df = .ok () → df.names.Nodup) :
    ∃ world' : Date → BatchEnv, ∀ (cfg : IngestConfig) (actual : ActualTable ℚ)
      (forecast : ForecastTable ℚ),
      (WindSight.runIngestion cfg world' false (RunState.toDatabase ⟨actual, forecast, []⟩)).map
          (fun r => (r.2.db, r.2.errors))
        = (runIngestion cfg pandas duck world actual forecast).map fun s =>
            (s.toDatabase, s.errors.map (Prod.map id text)) := by
  choose world' hworld using fun d => exists_batchEnv pandas duck text d (hsave d)
  refine ⟨world', fun cfg actual forecast => ?_⟩
  unfold WindSight.runIngestion runIngestion
  cases generateDateBatches cfg.dataStartDate cfg.dataEndDate cfg.batchSizeDays with
  | error e => rfl
  | ok batches =>
    have hstart : Simulates text ⟨actual, forecast, []⟩
        ⟨RunState.toDatabase ⟨actual, forecast, []⟩, 0, 0, [], []⟩ := ⟨rfl, rfl⟩
    obtain ⟨hdb, herrors⟩ := Simulates.foldl pandas duck
      (fun batch s t h => hworld batch.1 world' batch s t rfl rfl h) batches hstart
    exact congrArg Except.ok (Prod.ext hdb herrors)

end Refinement

end WindSight.Records
