import WindSight.Pipeline.DateBatches

/-! # Ingestion as a log

A batch is determined by what it meets: `batchOutcome` lists its events and the exception that ended
it, if any. A run of the pipeline logs the events of its batches one after the other, and the
database it leaves is the replay of that log (`runIngestion_log`). So what a run requests and stores
is read off the outcomes of its batches. -/

namespace WindSight

/-! ## Replaying events -/

/-- The effect of an event on the database. -/
def Database.apply (db : Database) : IngestEvent → Database
  | .loadActual df => { db with actualGeneration := db.actualGeneration.upsertAll df }
  | .loadForecast df => { db with windForecast := db.windForecast.upsertAll df }
  | .requestFuelhh _ | .requestWindfor _ => db

/-- The database after a log. -/
def Database.replay (db : Database) (log : List IngestEvent) : Database :=
  log.foldl Database.apply db

theorem Database.replay_append (db : Database) (log log' : List IngestEvent) :
    db.replay (log ++ log') = (db.replay log).replay log' := List.foldl_append

/-! ## The outcome of a batch -/

/-- What a part of a batch does: its events in order, and the exception it ends with. -/
structure BatchOutcome where
  events : List IngestEvent
  failure : Option String

/-- One part after the other, unless the first ends with an exception. -/
def BatchOutcome.andThen (a b : BatchOutcome) : BatchOutcome :=
  match a.failure with
  | some e => ⟨a.events, some e⟩
  | none => ⟨a.events ++ b.events, b.failure⟩

/-- The shape of both parts of a batch: a request, and, for a frame with rows, a Parquet file and an
insert. -/
def phaseOutcome {ρ : Type} (request : IngestEvent) (load : List ρ → IngestEvent)
    (fetched : Except String (List ρ)) (save insert : Except String Unit) (dryRun : Bool) :
    BatchOutcome :=
  match fetched with
  | .error e => ⟨[request], some e⟩
  | .ok df =>
    -- an empty frame is neither saved nor loaded
    if df.isEmpty then ⟨[request], none⟩
    else
      match save with
      | .error e => ⟨[request], some e⟩
      | .ok _ =>
        if dryRun then ⟨[request], none⟩
        else
          match insert with
          | .error e => ⟨[request], some e⟩
          | .ok _ => ⟨[request, load df], none⟩

/-- The frame of a FUELHH response: the rows of wind. -/
def actualFrame (records : List FuelhhRecord) : List ActualRow :=
  (records.map FuelhhRecord.toRow).filter fun row => isWind row.fuelType

/-- The frame of a WINDFOR response. -/
def forecastFrame (records : List WindforRecord) : List ForecastRow :=
  records.map WindforRecord.toRow

/-- What the actuals of a batch do. -/
def actualOutcome (env : BatchEnv) (dryRun : Bool) (d : Date) : BatchOutcome :=
  phaseOutcome (.requestFuelhh (fuelhhParams d)) .loadActual
    ((env.fuelhh (fuelhhParams d)).map actualFrame) (env.saveParquet "actual" d) env.insertActual
    dryRun

/-- What the forecasts of a batch do. -/
def forecastOutcome (env : BatchEnv) (dryRun : Bool) (d : Date) : BatchOutcome :=
  phaseOutcome (.requestWindfor (windforParams d)) .loadForecast
    ((env.windfor (windforParams d)).map forecastFrame) (env.saveParquet "forecast" d)
    env.insertForecast dryRun

/-- What the batch of a day does. -/
def batchOutcome (world : Date → BatchEnv) (dryRun : Bool) (d : Date) : BatchOutcome :=
  (actualOutcome (world d) dryRun d).andThen (forecastOutcome (world d) dryRun d)

/-! ### The steps of a batch have their outcomes -/

section Exec

variable {α β : Type} (s : IngestState)

/-- A step run from a state. -/
def exec (x : Ingest α) (s : IngestState) : Except String α × IngestState := x.run.run s

/-- The next step is taken unless an exception was raised. -/
theorem exec_bind (x : Ingest α) (f : α → Ingest β) :
    exec (x >>= f) s =
      match exec x s with
      | (.ok a, s') => exec (f a) s'
      | (.error e, s') => (.error e, s') := by
  show StateT.run (ExceptT.run (x >>= f)) s = _
  rw [ExceptT.run_bind, StateT.run_bind, exec]
  rcases x.run.run s with ⟨_ | a, s'⟩ <;> rfl

@[simp] theorem exec_pure (a : α) : exec (pure a) s = (.ok a, s) := rfl

@[simp] theorem exec_modify (f : IngestState → IngestState) :
    exec (modify f) s = (.ok (), f s) := rfl

@[simp] theorem exec_emit (event : IngestEvent) :
    exec (emit event) s = (.ok (), { s with log := s.log ++ [event] }) := rfl

@[simp] theorem exec_attempt (outcome : Except String α) :
    exec (attempt outcome) s = (outcome, s) := rfl

end Exec

/-- A fetch logs its request and yields the frame of the response. -/
theorem exec_fetchActualGeneration (env : BatchEnv) (d : Date) (s : IngestState) :
    exec (fetchActualGeneration env d) s =
      ((env.fuelhh (fuelhhParams d)).map actualFrame,
        { s with log := s.log ++ [.requestFuelhh (fuelhhParams d)] }) := by
  rw [fetchActualGeneration]
  simp only [exec_bind, exec_emit, exec_attempt]
  cases env.fuelhh (fuelhhParams d) with
  | error e => rfl
  | ok records => cases records <;> rfl

theorem exec_fetchWindForecast (env : BatchEnv) (d : Date) (s : IngestState) :
    exec (fetchWindForecast env d) s =
      ((env.windfor (windforParams d)).map forecastFrame,
        { s with log := s.log ++ [.requestWindfor (windforParams d)] }) := by
  rw [fetchWindForecast]
  simp only [exec_bind, exec_emit, exec_attempt]
  cases env.windfor (windforParams d) with
  | error e => rfl
  | ok records => cases records <;> rfl

/-- A load of rows applies and logs them, unless the insert raises. -/
theorem exec_loadActualGeneration (env : BatchEnv) {df : List ActualRow} (hdf : df ≠ [])
    (s : IngestState) :
    exec (loadActualGeneration env df) s =
      match env.insertActual with
      | .error e => (.error e, s)
      | .ok _ =>
        (.ok df.length,
          { s with db := s.db.apply (.loadActual df), log := s.log ++ [.loadActual df] }) := by
  rw [loadActualGeneration, if_neg (by simpa using hdf)]
  simp only [exec_bind, exec_attempt]
  cases env.insertActual <;> rfl

theorem exec_loadWindForecast (env : BatchEnv) {df : List ForecastRow} (hdf : df ≠ [])
    (s : IngestState) :
    exec (loadWindForecast env df) s =
      match env.insertForecast with
      | .error e => (.error e, s)
      | .ok _ =>
        (.ok df.length,
          { s with db := s.db.apply (.loadForecast df), log := s.log ++ [.loadForecast df] }) := by
  rw [loadWindForecast, if_neg (by simpa using hdf)]
  simp only [exec_bind, exec_attempt]
  cases env.insertForecast <;> rfl

/-- A step has an outcome: from every state it ends as the outcome says, logs its events, and leaves
the database to which they have been applied. -/
def HasOutcome (x : Ingest Unit) (o : BatchOutcome) : Prop :=
  ∀ s : IngestState, ∃ s', exec x s = (o.failure.elim (.ok ()) .error, s') ∧
    s'.db = s.db.replay o.events ∧ s'.log = s.log ++ o.events ∧ s'.errors = s.errors

theorem HasOutcome.andThen {x y : Ingest Unit} {a b : BatchOutcome} (hx : HasOutcome x a)
    (hy : HasOutcome y b) : HasOutcome (do x; y) (a.andThen b) := by
  intro s
  obtain ⟨s₁, hexec₁, hdb₁, hlog₁, herr₁⟩ := hx s
  rw [exec_bind, hexec₁, BatchOutcome.andThen]
  cases ha : a.failure with
  -- an exception of the first part ends the batch
  | some e => exact ⟨s₁, rfl, hdb₁, hlog₁, herr₁⟩
  | none =>
    obtain ⟨s₂, hexec₂, hdb₂, hlog₂, herr₂⟩ := hy s₁
    exact ⟨s₂, hexec₂, by rw [hdb₂, hdb₁, Database.replay_append],
      by rw [hlog₂, hlog₁, List.append_assoc], herr₂.trans herr₁⟩

/-- The shape of the code of both parts of a batch: fetch a frame, and save, load and count one that
has rows. -/
def ingestPhase {ρ : Type} (fetch : Ingest (List ρ)) (save : Except String Unit)
    (load : List ρ → Ingest ℕ) (count : ℕ → IngestState → IngestState) (dryRun : Bool) :
    Ingest Unit := do
  let df ← fetch
  if !df.isEmpty then
    attempt save
    if !dryRun then
      let n ← load df
      modify (count n)

theorem ingestActual_eq (env : BatchEnv) (dryRun : Bool) (d : Date) :
    ingestActual env dryRun d =
      ingestPhase (fetchActualGeneration env d) (env.saveParquet "actual" d)
        (loadActualGeneration env) (fun n s => { s with totalActual := s.totalActual + n })
        dryRun := rfl

theorem ingestForecast_eq (env : BatchEnv) (dryRun : Bool) (d : Date) :
    ingestForecast env dryRun d =
      ingestPhase (fetchWindForecast env d) (env.saveParquet "forecast" d)
        (loadWindForecast env) (fun n s => { s with totalForecast := s.totalForecast + n })
        dryRun := rfl

section Phase

variable {ρ : Type} {fetch : Ingest (List ρ)} {load : List ρ → Ingest ℕ}
  {count : ℕ → IngestState → IngestState} {request : IngestEvent} {loaded : List ρ → IngestEvent}
  {fetched : Except String (List ρ)} {save insert : Except String Unit} (dryRun : Bool)
  (hfetch : ∀ s, exec fetch s = (fetched, { s with log := s.log ++ [request] }))
  (hload : ∀ df, df ≠ [] → ∀ s, exec (load df) s =
    match insert with
    | .error e => (.error e, s)
    | .ok _ =>
      (.ok df.length, { s with db := s.db.apply (loaded df), log := s.log ++ [loaded df] }))

include hfetch hload

/-- A part of a batch logs its request. Beyond that it may only load the frame it fetched: then it
applies, logs and counts the rows of the frame. -/
theorem exec_ingestPhase (s : IngestState) :
    ∃ s', exec (ingestPhase fetch save load count dryRun) s =
        ((phaseOutcome request loaded fetched save insert dryRun).failure.elim (.ok ()) .error,
          s') ∧
      (((phaseOutcome request loaded fetched save insert dryRun).events = [request] ∧
          s' = { s with log := s.log ++ [request] }) ∨
        ∃ df, (phaseOutcome request loaded fetched save insert dryRun).events
            = [request, loaded df] ∧
          s' = count df.length
            { s with db := s.db.apply (loaded df), log := s.log ++ [request] ++ [loaded df] }) := by
  rw [ingestPhase, exec_bind, hfetch]
  rcases fetched with e | _ | ⟨row, df⟩
  · exact ⟨_, rfl, Or.inl ⟨rfl, rfl⟩⟩
  · exact ⟨_, rfl, Or.inl ⟨rfl, rfl⟩⟩
  · simp only [phaseOutcome, List.isEmpty_cons, Bool.not_false, if_true, exec_bind, exec_attempt]
    cases save with
    | error e => exact ⟨_, rfl, Or.inl ⟨rfl, rfl⟩⟩
    | ok _ =>
      cases dryRun with
      | true => exact ⟨_, rfl, Or.inl ⟨rfl, rfl⟩⟩
      | false =>
        simp only [Bool.not_false, if_true, exec_bind, hload _ (List.cons_ne_nil row df)]
        cases insert with
        | error e => exact ⟨_, rfl, Or.inl ⟨rfl, rfl⟩⟩
        | ok _ => exact ⟨_, rfl, Or.inr ⟨row :: df, rfl, rfl⟩⟩

/-- A part of a batch ends in a state with a property, if the states after its request and after a
load have it. -/
theorem ingestPhase_property {P : IngestState → Prop} {s : IngestState}
    (hrequest : P { s with log := s.log ++ [request] })
    (hloaded : ∀ df : List ρ, P (count df.length
      { s with db := s.db.apply (loaded df), log := s.log ++ [request] ++ [loaded df] })) :
    P (exec (ingestPhase fetch save load count dryRun) s).2 := by
  obtain ⟨s', hexec, ⟨-, rfl⟩ | ⟨df, -, rfl⟩⟩ := exec_ingestPhase dryRun hfetch hload s
  · rw [hexec]
    exact hrequest
  · rw [hexec]
    exact hloaded df

/-- A part of a batch has the outcome of its shape. -/
theorem hasOutcome_ingestPhase (hrequest : ∀ db : Database, db.apply request = db)
    (hcount : ∀ n s, (count n s).db = s.db ∧ (count n s).log = s.log ∧
      (count n s).errors = s.errors) :
    HasOutcome (ingestPhase fetch save load count dryRun)
      (phaseOutcome request loaded fetched save insert dryRun) := by
  intro s
  obtain ⟨s', hexec, ⟨hevents, rfl⟩ | ⟨df, hevents, rfl⟩⟩ :=
    exec_ingestPhase dryRun hfetch hload s
  · refine ⟨_, hexec, ?_⟩
    rw [hevents]
    exact ⟨(hrequest s.db).symm, rfl, rfl⟩
  · -- counting the rows leaves the rest of the state
    obtain ⟨hdb, hlog, herr⟩ := hcount df.length
      { s with db := s.db.apply (loaded df), log := s.log ++ [request] ++ [loaded df] }
    refine ⟨_, hexec, ?_⟩
    rw [hevents]
    refine ⟨hdb.trans ?_, hlog.trans (List.append_assoc _ _ _), herr⟩
    show _ = (s.db.apply request).apply _
    rw [hrequest]

end Phase

theorem ingestActual_outcome (env : BatchEnv) (dryRun : Bool) (d : Date) :
    HasOutcome (ingestActual env dryRun d) (actualOutcome env dryRun d) := by
  rw [ingestActual_eq, actualOutcome]
  exact hasOutcome_ingestPhase dryRun (exec_fetchActualGeneration env d)
    (fun _ hdf => exec_loadActualGeneration env hdf) (fun _ => rfl) fun _ _ => ⟨rfl, rfl, rfl⟩

theorem ingestForecast_outcome (env : BatchEnv) (dryRun : Bool) (d : Date) :
    HasOutcome (ingestForecast env dryRun d) (forecastOutcome env dryRun d) := by
  rw [ingestForecast_eq, forecastOutcome]
  exact hasOutcome_ingestPhase dryRun (exec_fetchWindForecast env d)
    (fun _ hdf => exec_loadWindForecast env hdf) (fun _ => rfl) fun _ _ => ⟨rfl, rfl, rfl⟩

/-! ## The log of a run -/

/-- One round of the loop: the events of the batch are logged and applied, an exception is recorded.
-/
theorem runBatch_outcome (world : Date → BatchEnv) (dryRun : Bool) (s : IngestState)
    (batch : Date × Date) :
    (runBatch world dryRun s batch).db = s.db.replay (batchOutcome world dryRun batch.1).events ∧
    (runBatch world dryRun s batch).log = s.log ++ (batchOutcome world dryRun batch.1).events ∧
    (runBatch world dryRun s batch).errors =
      s.errors ++ (batchOutcome world dryRun batch.1).failure.toList.map (batch.1, ·) := by
  obtain ⟨s', hexec, hdb, hlog, herr⟩ :=
    (ingestActual_outcome (world batch.1) dryRun batch.1).andThen
      (ingestForecast_outcome (world batch.1) dryRun batch.1) s
  rw [← batchOutcome] at hexec hdb hlog
  rw [exec] at hexec
  rw [runBatch]
  simp only [hexec]
  cases (batchOutcome world dryRun batch.1).failure with
  | none => exact ⟨hdb, hlog, by simpa using herr⟩
  | some e => exact ⟨hdb, hlog, by simp [herr]⟩

/-- The loop over the batches. -/
theorem foldl_runBatch (world : Date → BatchEnv) (dryRun : Bool) (batches : List (Date × Date))
    (s : IngestState) :
    (batches.foldl (runBatch world dryRun) s).db
      = s.db.replay (batches.flatMap fun b => (batchOutcome world dryRun b.1).events) ∧
    (batches.foldl (runBatch world dryRun) s).log
      = s.log ++ (batches.flatMap fun b => (batchOutcome world dryRun b.1).events) ∧
    (batches.foldl (runBatch world dryRun) s).errors
      = s.errors ++ batches.flatMap fun b =>
          (batchOutcome world dryRun b.1).failure.toList.map (b.1, ·) := by
  induction batches generalizing s with
  | nil => simp [Database.replay]
  | cons b batches ih =>
    obtain ⟨hdb, hlog, herr⟩ := runBatch_outcome world dryRun s b
    obtain ⟨hdb', hlog', herr'⟩ := ih (runBatch world dryRun s b)
    rw [List.foldl_cons]
    refine ⟨?_, ?_, ?_⟩
    · rw [hdb', hdb, List.flatMap_cons, Database.replay_append]
    · rw [hlog', hlog, List.flatMap_cons, List.append_assoc]
    · rw [herr', herr, List.flatMap_cons, List.append_assoc]

/-- What a run that ends did: it went over the batches, and reports what it counted. -/
theorem runIngestion_eq_ok {cfg : IngestConfig} {world : Date → BatchEnv} {dryRun : Bool}
    {db : Database} {stats : IngestStats} {s : IngestState}
    (h : runIngestion cfg world dryRun db = .ok (stats, s)) :
    ∃ batches,
      generateDateBatches cfg.dataStartDate cfg.dataEndDate cfg.batchSizeDays = .ok batches ∧
      s = batches.foldl (runBatch world dryRun) ⟨db, 0, 0, [], []⟩ ∧
      stats = ⟨s.totalActual, s.totalForecast, batches.length - s.errors.length,
        s.errors.length⟩ := by
  rw [runIngestion] at h
  cases hb : generateDateBatches cfg.dataStartDate cfg.dataEndDate cfg.batchSizeDays with
  | error e =>
    rw [hb] at h
    exact absurd h (by simp [bind, Except.bind])
  | ok batches =>
    rw [hb] at h
    obtain ⟨rfl, rfl⟩ := Prod.mk.inj (Except.ok.inj h)
    exact ⟨batches, rfl, rfl, rfl⟩

/-- **A run is the log of its batches.** The run logs their events one after the other, leaves the
replay of that log, and records the exceptions of the batches that failed. -/
theorem runIngestion_log {cfg : IngestConfig} {world : Date → BatchEnv} {dryRun : Bool}
    {db : Database} {stats : IngestStats} {s : IngestState}
    (h : runIngestion cfg world dryRun db = .ok (stats, s)) :
    ∃ batches,
      generateDateBatches cfg.dataStartDate cfg.dataEndDate cfg.batchSizeDays = .ok batches ∧
      s.db = db.replay s.log ∧
      s.log = (batches.flatMap fun b => (batchOutcome world dryRun b.1).events) ∧
      s.errors = batches.flatMap fun b =>
        (batchOutcome world dryRun b.1).failure.toList.map (b.1, ·) := by
  obtain ⟨batches, hbatches, rfl, -⟩ := runIngestion_eq_ok h
  obtain ⟨hdb, hlog, herr⟩ := foldl_runBatch world dryRun batches ⟨db, 0, 0, [], []⟩
  rw [List.nil_append] at hlog herr
  exact ⟨batches, hbatches, by rw [hdb, hlog], hlog, herr⟩

/-! ## What a batch requests and loads -/

section Phase

variable {ρ : Type} {request : IngestEvent} {load : List ρ → IngestEvent}
  {fetched : Except String (List ρ)} {save insert : Except String Unit} {dryRun : Bool}

/-- A part of a batch ends with an exception, or has nothing to load, or loads the frame it
fetched. -/
theorem phaseOutcome_cases (request : IngestEvent) (load : List ρ → IngestEvent)
    (fetched : Except String (List ρ)) (save insert : Except String Unit) (dryRun : Bool) :
    (∃ e, phaseOutcome request load fetched save insert dryRun = ⟨[request], some e⟩) ∨
    (∃ df, fetched = .ok df ∧ (df = [] ∨ dryRun = true) ∧
      phaseOutcome request load fetched save insert dryRun = ⟨[request], none⟩) ∨
    ∃ df, fetched = .ok df ∧
      phaseOutcome request load fetched save insert dryRun = ⟨[request, load df], none⟩ := by
  rcases fetched with e | _ | ⟨row, df⟩
  · exact Or.inl ⟨e, rfl⟩
  · exact Or.inr (Or.inl ⟨[], rfl, Or.inl rfl, rfl⟩)
  · cases save with
    | error e => exact Or.inl ⟨e, rfl⟩
    | ok _ =>
      cases dryRun with
      | true => exact Or.inr (Or.inl ⟨row :: df, rfl, Or.inr rfl, rfl⟩)
      | false =>
        cases insert with
        | error e => exact Or.inl ⟨e, rfl⟩
        | ok _ => exact Or.inr (Or.inr ⟨row :: df, rfl, rfl⟩)

/-- A part of a batch makes its request. -/
theorem request_mem_phaseOutcome :
    request ∈ (phaseOutcome request load fetched save insert dryRun).events := by
  rcases phaseOutcome_cases request load fetched save insert dryRun with
    ⟨e, h⟩ | ⟨df, -, -, h⟩ | ⟨df, -, h⟩ <;> rw [h] <;> exact List.mem_cons_self

/-- Beyond its request, a part of a batch only loads the frame it fetched, and then ends without an
exception. -/
theorem mem_phaseOutcome {event : IngestEvent}
    (hevent : event ∈ (phaseOutcome request load fetched save insert dryRun).events) :
    event = request ∨ ∃ df, fetched = .ok df ∧ event = load df ∧
      (phaseOutcome request load fetched save insert dryRun).failure = none := by
  rcases phaseOutcome_cases request load fetched save insert dryRun with
    ⟨e, h⟩ | ⟨df, -, -, h⟩ | ⟨df, hfetch, h⟩ <;> rw [h] at hevent ⊢
  · exact Or.inl (List.mem_singleton.mp hevent)
  · exact Or.inl (List.mem_singleton.mp hevent)
  · exact (List.mem_pair.mp hevent).imp id fun hload => ⟨df, hfetch, hload, rfl⟩

/-- A part that ends without an exception fetched a frame, and, unless it is a dry run, loaded the
rows of the frame if there are any. -/
theorem phaseOutcome_of_success
    (hsuccess : (phaseOutcome request load fetched save insert false).failure = none) :
    ∃ df, fetched = .ok df ∧
      (df ≠ [] → (phaseOutcome request load fetched save insert false).events
        = [request, load df]) := by
  rcases phaseOutcome_cases request load fetched save insert false with
    ⟨e, h⟩ | ⟨df, hfetch, hempty, h⟩ | ⟨df, hfetch, h⟩ <;> rw [h] at hsuccess ⊢
  · cases hsuccess
  · exact ⟨df, hfetch, fun hne => absurd (hempty.resolve_right Bool.false_ne_true) hne⟩
  · exact ⟨df, hfetch, fun _ => rfl⟩

end Phase

section Batch

variable {world : Date → BatchEnv} {dryRun : Bool} {d : Date}

theorem BatchOutcome.mem_andThen {a b : BatchOutcome} {event : IngestEvent} :
    event ∈ (a.andThen b).events ↔ event ∈ a.events ∨ (a.failure = none ∧ event ∈ b.events) := by
  rw [andThen]
  cases a.failure <;> simp

theorem BatchOutcome.andThen_success {a b : BatchOutcome} :
    (a.andThen b).failure = none ↔ a.failure = none ∧ b.failure = none := by
  rw [andThen]
  cases ha : a.failure <;> simp

/-- A converted outcome is a result exactly when the outcome is. -/
theorem map_eq_ok {ε α β : Type} {x : Except ε α} {f : α → β} {b : β} :
    x.map f = .ok b ↔ ∃ a, x = .ok a ∧ f a = b := by
  cases x <;> simp [Except.map]

/-- The requests for actuals of a batch. -/
theorem requestFuelhh_mem_batch {params : FuelhhParams} :
    .requestFuelhh params ∈ (batchOutcome world dryRun d).events ↔ params = fuelhhParams d := by
  rw [batchOutcome, BatchOutcome.mem_andThen]
  constructor
  · rintro (h | ⟨-, h⟩)
    · rcases mem_phaseOutcome h with heq | ⟨df, -, heq, -⟩
      · exact IngestEvent.requestFuelhh.inj heq
      · cases heq
    · rcases mem_phaseOutcome h with heq | ⟨df, -, heq, -⟩ <;> cases heq
  · rintro rfl
    exact Or.inl request_mem_phaseOutcome

/-- The requests for forecasts of a batch: none after the actuals failed. -/
theorem requestWindfor_mem_batch {params : WindforParams} :
    .requestWindfor params ∈ (batchOutcome world dryRun d).events ↔
      (actualOutcome (world d) dryRun d).failure = none ∧ params = windforParams d := by
  rw [batchOutcome, BatchOutcome.mem_andThen]
  constructor
  · rintro (h | ⟨hok, h⟩)
    · rcases mem_phaseOutcome h with heq | ⟨df, -, heq, -⟩ <;> cases heq
    · rcases mem_phaseOutcome h with heq | ⟨df, -, heq, -⟩
      · exact ⟨hok, IngestEvent.requestWindfor.inj heq⟩
      · cases heq
  · rintro ⟨hok, rfl⟩
    exact Or.inr ⟨hok, request_mem_phaseOutcome⟩

/-- A frame of actuals a batch loads is that of its response. -/
theorem loadActual_of_mem_batch {df : List ActualRow}
    (h : .loadActual df ∈ (batchOutcome world dryRun d).events) :
    ∃ records, (world d).fuelhh (fuelhhParams d) = .ok records ∧ actualFrame records = df := by
  rw [batchOutcome, BatchOutcome.mem_andThen] at h
  rcases h with h | ⟨-, h⟩
  · rcases mem_phaseOutcome h with heq | ⟨df', hfetch, heq, -⟩
    · cases heq
    · obtain rfl := IngestEvent.loadActual.inj heq
      exact map_eq_ok.mp hfetch
  · rcases mem_phaseOutcome h with heq | ⟨df', -, heq, -⟩ <;> cases heq

/-- A frame of forecasts a batch loads is that of its response, and the batch ends without an
exception. -/
theorem loadForecast_of_mem_batch {df : List ForecastRow}
    (h : .loadForecast df ∈ (batchOutcome world dryRun d).events) :
    (batchOutcome world dryRun d).failure = none ∧
      ∃ records, (world d).windfor (windforParams d) = .ok records ∧
        forecastFrame records = df := by
  rw [batchOutcome, BatchOutcome.mem_andThen] at h
  rcases h with h | ⟨hok, h⟩
  · rcases mem_phaseOutcome h with heq | ⟨df', -, heq, -⟩ <;> cases heq
  · rcases mem_phaseOutcome h with heq | ⟨df', hfetch, heq, hok'⟩
    · cases heq
    · obtain rfl := IngestEvent.loadForecast.inj heq
      exact ⟨BatchOutcome.andThen_success.mpr ⟨hok, hok'⟩, map_eq_ok.mp hfetch⟩

/-- A batch that ends without an exception loads the rows it fetched. -/
theorem loads_of_success (h : (batchOutcome world false d).failure = none) :
    (∃ records, (world d).fuelhh (fuelhhParams d) = .ok records ∧ (actualFrame records ≠ [] →
      .loadActual (actualFrame records) ∈ (batchOutcome world false d).events)) ∧
    ∃ records, (world d).windfor (windforParams d) = .ok records ∧ (forecastFrame records ≠ [] →
      .loadForecast (forecastFrame records) ∈ (batchOutcome world false d).events) := by
  obtain ⟨ha, hf⟩ := BatchOutcome.andThen_success.mp h
  obtain ⟨adf, hafetch, hload⟩ := phaseOutcome_of_success ha
  obtain ⟨fdf, hffetch, hload'⟩ := phaseOutcome_of_success hf
  obtain ⟨arecords, harec, rfl⟩ := map_eq_ok.mp hafetch
  obtain ⟨frecords, hfrec, rfl⟩ := map_eq_ok.mp hffetch
  refine ⟨⟨arecords, harec, fun hne => ?_⟩, frecords, hfrec, fun hne => ?_⟩
  · rw [batchOutcome, BatchOutcome.mem_andThen, actualOutcome, hload hne]
    exact Or.inl (List.mem_pair.mpr (Or.inr rfl))
  · rw [batchOutcome, BatchOutcome.mem_andThen, forecastOutcome, hload' hne]
    exact Or.inr ⟨ha, List.mem_pair.mpr (Or.inr rfl)⟩

end Batch

/-! ## Events and exceptions of a run -/

/-- A day a batch of the configuration starts at. -/
def IsBatchDay (cfg : IngestConfig) (d : Date) : Prop :=
  ∃ k : ℕ, d = cfg.dataStartDate + k * cfg.batchSizeDays ∧ d ≤ cfg.dataEndDate

/-- In daily batches, every day of the range is a batch day. -/
theorem isBatchDay_iff {cfg : IngestConfig} (hb : cfg.batchSizeDays = 1) (d : Date) :
    IsBatchDay cfg d ↔ cfg.dataStartDate ≤ d ∧ d ≤ cfg.dataEndDate := by
  rw [IsBatchDay, hb]
  constructor
  · rintro ⟨k, rfl, hle⟩
    exact ⟨by lia, hle⟩
  · rintro ⟨hlo, hhi⟩
    exact ⟨(d - cfg.dataStartDate).toNat, by lia, hhi⟩

/-- A batch day whose processing raised. -/
def Failed (s : IngestState) (d : Date) : Prop := ∃ e, (d, e) ∈ s.errors

section Run

variable {cfg : IngestConfig} {world : Date → BatchEnv} {dryRun : Bool} {db : Database}
  {stats : IngestStats} {s : IngestState}

/-- The events of a run are those of its batches. -/
theorem mem_log_iff (h : runIngestion cfg world dryRun db = .ok (stats, s)) (event : IngestEvent) :
    event ∈ s.log ↔ ∃ d, IsBatchDay cfg d ∧ event ∈ (batchOutcome world dryRun d).events := by
  obtain ⟨batches, hbatches, -, hlog, -⟩ := runIngestion_log h
  rw [hlog, List.mem_flatMap]
  constructor
  · rintro ⟨b, hmem, hevent⟩
    exact ⟨b.1, (mem_generateDateBatches hbatches b.1).mp (List.mem_map_of_mem hmem), hevent⟩
  · rintro ⟨d, hday, hevent⟩
    obtain ⟨b, hmem, rfl⟩ := List.mem_map.mp ((mem_generateDateBatches hbatches d).mpr hday)
    exact ⟨b, hmem, hevent⟩

/-- The exceptions of a run are those of its batches. -/
theorem mem_errors_iff (h : runIngestion cfg world dryRun db = .ok (stats, s)) (d : Date) :
    Failed s d ↔ IsBatchDay cfg d ∧ (batchOutcome world dryRun d).failure ≠ none := by
  obtain ⟨batches, hbatches, -, -, herr⟩ := runIngestion_log h
  rw [Failed, herr, IsBatchDay, ← mem_generateDateBatches hbatches d]
  simp only [List.mem_flatMap, List.mem_map, Option.mem_toList, Prod.mk.injEq]
  constructor
  · rintro ⟨e, b, hmem, e', he', rfl, rfl⟩
    refine ⟨⟨b, hmem, rfl⟩, fun hnone => ?_⟩
    rw [hnone] at he'
    cases he'
  · rintro ⟨⟨b, hmem, rfl⟩, hfail⟩
    obtain ⟨e, he⟩ := Option.ne_none_iff_exists'.mp hfail
    exact ⟨e, b, hmem, e, he, rfl, rfl⟩

/-- In a run without exceptions, every batch ends without one. -/
theorem success_of_errors_nil (h : runIngestion cfg world dryRun db = .ok (stats, s))
    (hok : s.errors = []) {d : Date} (hd : IsBatchDay cfg d) :
    (batchOutcome world dryRun d).failure = none := by
  by_contra hfail
  obtain ⟨e, he⟩ := (mem_errors_iff h d).mpr ⟨hd, hfail⟩
  rw [hok] at he
  cases he

/-- A run ends, if no date it computes leaves the calendar. -/
theorem exists_runIngestion (world : Date → BatchEnv) (dryRun : Bool) (db : Database)
    (hb : 1 ≤ cfg.batchSizeDays) (hcal : cfg.dataEndDate + cfg.batchSizeDays ≤ maxDate) :
    ∃ stats s, runIngestion cfg world dryRun db = .ok (stats, s) := by
  obtain ⟨batches, hbatches⟩ := exists_generateDateBatches hb hcal
  rw [runIngestion, hbatches]
  exact ⟨_, _, rfl⟩

end Run

/-! ## The tables after a log -/

/-- The rows of the frames of actuals loaded in a log. -/
def loadedActual (log : List IngestEvent) : List ActualRow :=
  log.flatMap fun
    | .loadActual df => df
    | _ => []

/-- The rows of the frames of forecasts loaded in a log. -/
def loadedForecast (log : List IngestEvent) : List ForecastRow :=
  log.flatMap fun
    | .loadForecast df => df
    | _ => []

theorem mem_loadedActual {log : List IngestEvent} {x : ActualRow} :
    x ∈ loadedActual log ↔ ∃ df, .loadActual df ∈ log ∧ x ∈ df := by
  rw [loadedActual, List.mem_flatMap]
  constructor
  · rintro ⟨event, hmem, hx⟩
    cases event with
    | loadActual df => exact ⟨df, hmem, hx⟩
    | _ => exact absurd hx List.not_mem_nil
  · rintro ⟨df, hmem, hx⟩
    exact ⟨_, hmem, hx⟩

theorem mem_loadedForecast {log : List IngestEvent} {x : ForecastRow} :
    x ∈ loadedForecast log ↔ ∃ df, .loadForecast df ∈ log ∧ x ∈ df := by
  rw [loadedForecast, List.mem_flatMap]
  constructor
  · rintro ⟨event, hmem, hx⟩
    cases event with
    | loadForecast df => exact ⟨df, hmem, hx⟩
    | _ => exact absurd hx List.not_mem_nil
  · rintro ⟨df, hmem, hx⟩
    exact ⟨_, hmem, hx⟩

/-- **Replaying a log upserts the rows loaded in it.** -/
theorem replay_tables (db : Database) (log : List IngestEvent) :
    (db.replay log).actualGeneration = db.actualGeneration.upsertAll (loadedActual log) ∧
      (db.replay log).windForecast = db.windForecast.upsertAll (loadedForecast log) := by
  induction log generalizing db with
  | nil => exact ⟨rfl, rfl⟩
  | cons event log ih =>
    obtain ⟨hactual, hforecast⟩ := ih (db.apply event)
    show ((db.apply event).replay log).actualGeneration = _ ∧
      ((db.apply event).replay log).windForecast = _
    rw [hactual, hforecast]
    cases event with
    | loadActual df => exact ⟨(KeyedTable.upsertAll_append _ df (loadedActual log)).symm, rfl⟩
    | loadForecast df => exact ⟨rfl, (KeyedTable.upsertAll_append _ df (loadedForecast log)).symm⟩
    | _ => exact ⟨rfl, rfl⟩

end WindSight
