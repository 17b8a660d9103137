import WindSight.Pipeline.Schema

/-! # Ingestion pipeline

Day by day, `run_ingestion` requests the actuals and the forecasts of a batch and loads them into
the database. An exception inside a batch is recorded and ends the batch; what the batch did before
the exception stays done. Next to its own variables the state logs the requests sent and the frames
loaded, in order. What is outside the program (the API, the file system, the inserts of the
database) enters as the outcomes a batch meets, `BatchEnv`. -/

namespace WindSight

/-! ## Configuration and date batches -/

/-- The configured range, `DATA_START_DATE` to `DATA_END_DATE`, and `BATCH_SIZE_DAYS`. -/
structure IngestConfig where
  dataStartDate : Date
  dataEndDate : Date
  batchSizeDays : ℕ
  calendar : minDate ≤ dataStartDate ∧ dataEndDate ≤ maxDate

/-- Why `generate_date_batches` gives no batches: a date beyond the calendar (`OverflowError`), or a
loop that never ends. -/
inductive BatchError where
  | overflow
  | nonterminating
  deriving DecidableEq, Repr

/-- `d + timedelta(days=k)`, for a sum that is not below the calendar. -/
def addDays (d : Date) (k : ℤ) : Except BatchError Date :=
  if d + k ≤ maxDate then .ok (d + k) else .error .overflow

/-- The loop of `generate_date_batches`, for at most `fuel` rounds. -/
def batchLoop (stop : Date) (batchDays : ℕ) : ℕ → Date → Except BatchError (List (Date × Date))
  | 0, current => if current ≤ stop then .error .nonterminating else .ok []
  | fuel + 1, current =>
    if current ≤ stop then do
      -- `min(current + timedelta(days=batch_days - 1), end)`
      let last ← addDays current (batchDays - 1)
      let batchEnd := min last stop
      let next ← addDays batchEnd 1
      let batches ← batchLoop stop batchDays fuel next
      return (current, batchEnd) :: batches
    else .ok []

/-- `generate_date_batches`. A loop that advances ends within as many rounds as there are days. -/
def generateDateBatches (start stop : Date) (batchDays : ℕ) :
    Except BatchError (List (Date × Date)) :=
  batchLoop stop batchDays (stop - start + 1).toNat start

/-! ## Records and requests -/

/-- A record of the FUELHH dataset. -/
structure FuelhhRecord where
  startTime : Instant
  settlementDate : Date
  settlementPeriod : ℤ
  generation : ℚ
  fuelType : String
  deriving DecidableEq, Repr

/-- A record of the WINDFOR dataset. -/
structure WindforRecord where
  startTime : Instant
  publishTime : Instant
  generation : ℚ
  deriving DecidableEq, Repr

/-- The row of a FUELHH record, its columns renamed. -/
def FuelhhRecord.toRow (r : FuelhhRecord) : ActualRow :=
  ⟨r.startTime, r.settlementDate, r.settlementPeriod, r.generation, r.fuelType⟩

/-- The row of a WINDFOR record, its columns renamed. -/
def WindforRecord.toRow (r : WindforRecord) : ForecastRow :=
  ⟨r.startTime, r.publishTime, r.generation⟩

/-- The query parameters of a FUELHH request. -/
structure FuelhhParams where
  settlementDateFrom : Date
  settlementDateTo : Date
  fuelType : String
  deriving DecidableEq, Repr

/-- The query parameters of a WINDFOR request. -/
structure WindforParams where
  publishDateTimeFrom : Instant
  publishDateTimeTo : Instant
  deriving DecidableEq, Repr

/-- The parameters of the request for the actuals of a day. -/
def fuelhhParams (settlementDate : Date) : FuelhhParams := ⟨settlementDate, settlementDate, "WIND"⟩

/-- The parameters of the request for the forecasts of a day: those published from two days before
the day to its last whole second. -/
def windforParams (settlementDate : Date) : WindforParams where
  publishDateTimeFrom := midnight (settlementDate - 2)
  publishDateTimeTo := midnight settlementDate + (23 * 3600 + 59 * 60 + 59) * microsPerSecond

/-- `str.upper` of a character, on those whose upper case is one of W, I, N, D: the ASCII letters
and the dotless i. -/
def upperChar (c : Char) : Char := if c = Char.ofNat 0x131 then 'I' else c.toUpper

/-- `fuel_type.str.upper() == "WIND"`. -/
def isWind (fuelType : String) : Bool := fuelType.toList.map upperChar = ['W', 'I', 'N', 'D']

/-! ## State and environment -/

/-- What a batch did outside the program: a request, or a frame loaded into the database. -/
inductive IngestEvent where
  | requestFuelhh (params : FuelhhParams)
  | requestWindfor (params : WindforParams)
  | loadActual (df : List ActualRow)
  | loadForecast (df : List ForecastRow)
  deriving DecidableEq

/-- The state of `run_ingestion`. An error message is kept as the day of the batch and the text of
the exception. -/
structure IngestState where
  db : Database
  totalActual : ℕ
  totalForecast : ℕ
  errors : List (Date × String)
  log : List IngestEvent

/-- What a batch meets: the outcome of each request after its retries, of saving a Parquet file
under a name and a date, and of the two inserts. An outcome is a result or the text of an exception;
a response that cannot be converted to the columns counts as an exception. -/
structure BatchEnv where
  fuelhh : FuelhhParams → Except String (List FuelhhRecord)
  windfor : WindforParams → Except String (List WindforRecord)
  saveParquet : String → Date → Except String Unit
  insertActual : Except String Unit
  insertForecast : Except String Unit

/-- A step of a batch: an exception keeps the state it left. -/
abbrev Ingest := ExceptT String (StateM IngestState)

/-- Log an event. -/
def emit (event : IngestEvent) : Ingest Unit :=
  modify fun s => { s with log := s.log ++ [event] }

/-- Go on with an outcome, or raise. -/
def attempt {α : Type} (outcome : Except String α) : Ingest α := ExceptT.mk (pure outcome)

/-! ## Fetching and loading -/

/-- `fetch_actual_generation`. -/
def fetchActualGeneration (env : BatchEnv) (settlementDate : Date) : Ingest (List ActualRow) := do
  let params := fuelhhParams settlementDate
  emit (.requestFuelhh params)
  let records ← attempt (env.fuelhh params)
  if records.isEmpty then
    return []
  else
    return (records.map FuelhhRecord.toRow).filter fun row => isWind row.fuelType

/-- `fetch_wind_forecast`. -/
def fetchWindForecast (env : BatchEnv) (settlementDate : Date) : Ingest (List ForecastRow) := do
  let params := windforParams settlementDate
  emit (.requestWindfor params)
  let records ← attempt (env.windfor params)
  if records.isEmpty then
    return []
  else
    return records.map WindforRecord.toRow

/-- `load_actual_generation`: the number of rows of the frame. -/
def loadActualGeneration (env : BatchEnv) (df : List ActualRow) : Ingest ℕ := do
  if df.isEmpty then
    return 0
  else
    attempt env.insertActual
    modify fun s =>
      { s with db := { s.db with actualGeneration := s.db.actualGeneration.upsertAll df } }
    emit (.loadActual df)
    return df.length

/-- `load_wind_forecast`: the number of rows of the frame. -/
def loadWindForecast (env : BatchEnv) (df : List ForecastRow) : Ingest ℕ := do
  if df.isEmpty then
    return 0
  else
    attempt env.insertForecast
    modify fun s => { s with db := { s.db with windForecast := s.db.windForecast.upsertAll df } }
    emit (.loadForecast df)
    return df.length

/-! ## The main loop -/

/-- The actuals of a batch. -/
def ingestActual (env : BatchEnv) (dryRun : Bool) (batchStart : Date) : Ingest Unit := do
  let actualDf ← fetchActualGeneration env batchStart
  if !actualDf.isEmpty then
    attempt (env.saveParquet "actual" batchStart)
    if !dryRun then
      let n ← loadActualGeneration env actualDf
      modify fun s => { s with totalActual := s.totalActual + n }

/-- The forecasts of a batch. -/
def ingestForecast (env : BatchEnv) (dryRun : Bool) (batchStart : Date) : Ingest Unit := do
  let forecastDf ← fetchWindForecast env batchStart
  if !forecastDf.isEmpty then
    attempt (env.saveParquet "forecast" batchStart)
    if !dryRun then
      let n ← loadWindForecast env forecastDf
      modify fun s => { s with totalForecast := s.totalForecast + n }

/-- One round of the loop over the batches: both fetches use the first day of the batch only. -/
def runBatch (world : Date → BatchEnv) (dryRun : Bool) (s : IngestState) (batch : Date × Date) :
    IngestState :=
  -- `batch_end` is unpacked and not used
  let batchStart := batch.1
  let env := world batchStart
  match (do ingestActual env dryRun batchStart; ingestForecast env dryRun batchStart : Ingest Unit)
      |>.run.run s with
  | (.ok (), s) => s
  -- what the batch did before the exception stays done
  | (.error e, s) => { s with errors := s.errors ++ [(batchStart, e)] }

/-- The statistics `run_ingestion` returns. -/
structure IngestStats where
  actualRecords : ℕ
  forecastRecords : ℕ
  batchesProcessed : ℤ
  errors : ℕ
  deriving DecidableEq, Repr

/-- `run_ingestion` over a database, with the statistics and the state it ends in. -/
def runIngestion (cfg : IngestConfig) (world : Date → BatchEnv) (dryRun : Bool) (db : Database) :
    Except BatchError (IngestStats × IngestState) := do
  let batches ← generateDateBatches cfg.dataStartDate cfg.dataEndDate cfg.batchSizeDays
  let s := batches.foldl (runBatch world dryRun)
    { db := db, totalActual := 0, totalForecast := 0, errors := [], log := [] }
  return ({ actualRecords := s.totalActual
            forecastRecords := s.totalForecast
            batchesProcessed := batches.length - s.errors.length
            errors := s.errors.length }, s)

end WindSight
