import WindSight.Library.Interruption
import WindSight.Pipeline.BatchPartition
import WindSight.Pipeline.Convergence

/-! # The command line of the pipeline

What `main`, `init_database` and `drop_tables` leave on the disk: the tables of the database file
and the Parquet files. Every statement and every save is an effect, a command is the list of its
effects, and a process that is killed has performed a prefix of it. `perform_mainEffects` connects
the effects to `run_ingestion`: performed to the end they leave the database it returns. -/

namespace WindSight

open Interruption (perform perform_append)

/-! ## The disk -/

/-- A frame of one of the two datasets. -/
inductive Frame where
  | actual (df : List ActualRow)
  | forecast (df : List ForecastRow)
  deriving DecidableEq

/-- A Parquet file: it does not exist, or was opened and not closed, or holds a frame. -/
inductive ParquetFile where
  | absent
  | torn
  | complete (frame : Frame)
  deriving DecidableEq

/-- What survives the process: the tables, unless they were not created or dropped, and the file
`{name}_{date}.parquet` for each name and date. -/
structure Storage where
  actualGeneration : Option ActualGeneration
  windForecast : Option WindForecast
  parquet : String → Date → ParquetFile

namespace Storage

/-- Before the first command. -/
def fresh : Storage := ⟨none, none, fun _ _ => .absent⟩

/-- The database that `init_database` opens: what is there, and empty tables for the rest. -/
def database (s : Storage) : Database :=
  ⟨s.actualGeneration.getD .empty, s.windForecast.getD .empty⟩

/-- Write a Parquet file. -/
def setParquet (s : Storage) (name : String) (d : Date) (file : ParquetFile) : Storage :=
  { s with parquet := fun name' d' => if name' = name ∧ d' = d then file else s.parquet name' d' }

@[simp] theorem setParquet_parquet (s : Storage) (name name' : String) (d d' : Date)
    (file : ParquetFile) : (s.setParquet name d file).parquet name' d' =
      if name' = name ∧ d' = d then file else s.parquet name' d' := rfl

@[simp] theorem setParquet_actualGeneration (s : Storage) (name : String) (d : Date)
    (file : ParquetFile) : (s.setParquet name d file).actualGeneration = s.actualGeneration := rfl

@[simp] theorem setParquet_windForecast (s : Storage) (name : String) (d : Date)
    (file : ParquetFile) : (s.setParquet name d file).windForecast = s.windForecast := rfl

end Storage

/-! ## Effects -/

/-- A change of the disk. -/
inductive Effect where
  | createActual
  | createForecast
  | dropActual
  | dropForecast
  | openParquet (name : String) (d : Date)
  | closeParquet (name : String) (d : Date) (frame : Frame)
  | removeParquet (name : String) (d : Date)
  | insertActual (df : List ActualRow)
  | insertForecast (df : List ForecastRow)

/-- The disk after an effect. An insert finds its table, since the command has created it. -/
def Storage.apply (s : Storage) : Effect → Storage
  | .createActual => { s with actualGeneration := some (s.actualGeneration.getD .empty) }
  | .createForecast => { s with windForecast := some (s.windForecast.getD .empty) }
  | .dropActual => { s with actualGeneration := none }
  | .dropForecast => { s with windForecast := none }
  | .openParquet name d => s.setParquet name d .torn
  | .closeParquet name d frame => s.setParquet name d (.complete frame)
  | .removeParquet name d => s.setParquet name d .absent
  | .insertActual df => { s with actualGeneration := s.actualGeneration.map (·.upsertAll df) }
  | .insertForecast df => { s with windForecast := s.windForecast.map (·.upsertAll df) }

/-- `save_parquet`. One that raises may have opened the file before; pyarrow removes the file then.
-/
def saveParquet (opened : Bool) (outcome : Except String Unit) (name : String) (d : Date)
    (frame : Frame) : List Effect :=
  match outcome with
  | .ok _ => [.openParquet name d, .closeParquet name d frame]
  | .error _ => if opened then [.openParquet name d, .removeParquet name d] else []

/-- The effects of one part of a batch. -/
def phaseEffects {ρ : Type} (name : String) (frame : List ρ → Frame) (insert : List ρ → Effect)
    (fetched : Except String (List ρ)) (opened : Bool) (save inserted : Except String Unit)
    (dryRun : Bool) (d : Date) : List Effect :=
  match fetched with
  | .error _ => []
  | .ok df =>
    if df.isEmpty then []
    else
      saveParquet opened save name d (frame df) ++
        match save, inserted with
        | .ok _, .ok _ => if dryRun then [] else [insert df]
        | _, _ => []

/-- The effects of the actuals of a batch. -/
def actualEffects (env : BatchEnv) (opened : String → Date → Bool) (dryRun : Bool) (d : Date) :
    List Effect :=
  phaseEffects "actual" .actual .insertActual ((env.fuelhh (fuelhhParams d)).map actualFrame)
    (opened "actual" d) (env.saveParquet "actual" d) env.insertActual dryRun d

/-- The effects of the forecasts of a batch. -/
def forecastEffects (env : BatchEnv) (opened : String → Date → Bool) (dryRun : Bool) (d : Date) :
    List Effect :=
  phaseEffects "forecast" .forecast .insertForecast
    ((env.windfor (windforParams d)).map forecastFrame) (opened "forecast" d)
    (env.saveParquet "forecast" d) env.insertForecast dryRun d

/-- The effects of a batch: the forecasts are not reached after an exception. -/
def batchEffects (world : Date → BatchEnv) (opened : String → Date → Bool) (dryRun : Bool)
    (d : Date) : List Effect :=
  actualEffects (world d) opened dryRun d ++
    match (actualOutcome (world d) dryRun d).failure with
    | some _ => []
    | none => forecastEffects (world d) opened dryRun d

/-! ## Commands -/

/-- A run of `main`: what `run_ingestion` gets and meets, and which saves that raise have opened
their file. -/
structure MainRun where
  run : IngestRun
  opened : String → Date → Bool

namespace MainRun

/-- `init_database`: the indexes hold nothing of their own. A dry run does not call it. -/
def initEffects (m : MainRun) : List Effect :=
  if m.run.dryRun then [] else [.createActual, .createForecast]

/-- The effects of the batches. -/
def loopEffects (m : MainRun) : List Effect :=
  match generateDateBatches m.run.cfg.dataStartDate m.run.cfg.dataEndDate
    m.run.cfg.batchSizeDays with
  | .ok batches => batches.flatMap fun b => batchEffects m.run.world m.opened m.run.dryRun b.1
  | .error _ => []

/-- The effects of `main` when it is not killed. -/
def effects (m : MainRun) : List Effect := m.initEffects ++ m.loopEffects

/-- The exit code of `main` over a database. -/
def exitCode (m : MainRun) (db : Database) : ℕ :=
  match runIngestion m.run.cfg m.run.world m.run.dryRun db with
  | .ok (stats, _) => if stats.errors > 0 then 1 else 0
  | .error _ => 1

end MainRun

/-- A command of an operator, killed after so many effects, if it is: `main`, or `drop_tables`. -/
inductive Command where
  | main (m : MainRun) (killed : Option ℕ)
  | dropTables (killed : Option ℕ)

namespace Command

/-- The effects of the command when it is not killed. -/
def allEffects : Command → List Effect
  | .main m _ => m.effects
  | .dropTables _ => [.dropActual, .dropForecast]

/-- After how many effects it is killed. -/
def killed : Command → Option ℕ
  | .main _ killed => killed
  | .dropTables killed => killed

/-- The effects of the command. -/
def effects (c : Command) : List Effect :=
  match c.killed with
  | some n => c.allEffects.take n
  | none => c.allEffects

/-- The effects of a sequence of commands. -/
def history (commands : List Command) : List Effect := commands.flatMap effects

end Command

/-- The disk after a sequence of commands. -/
def Storage.after (s : Storage) (commands : List Command) : Storage :=
  perform Storage.apply s (Command.history commands)

/-! ## The effects and the run -/

section Refines

variable {world : Date → BatchEnv} {opened : String → Date → Bool} {d : Date}

/-- The tables after the effects of a part of a batch are those after its events. -/
theorem perform_phaseEffects {ρ : Type} {name : String} {frame : List ρ → Frame}
    {insert : List ρ → Effect} {request : IngestEvent} {load : List ρ → IngestEvent}
    (fetched : Except String (List ρ)) (o : Bool) (save inserted : Except String Unit)
    (dryRun : Bool) (d : Date) {P : Storage → Database → Prop}
    (hparquet : ∀ s db name d file, P s db → P (s.setParquet name d file) db)
    (hrequest : ∀ db : Database, db.apply request = db)
    (hload : ∀ s db df, P s db → P (s.apply (insert df)) (db.apply (load df)))
    {s : Storage} {db : Database} (h : P s db) :
    P (perform Storage.apply s (phaseEffects name frame insert fetched o save inserted dryRun d))
      (db.replay (phaseOutcome request load fetched save inserted dryRun).events) := by
  have hreplay : db.replay [request] = db := hrequest db
  rcases fetched with e | _ | ⟨row, df⟩
  · exact hreplay.symm ▸ h
  · exact hreplay.symm ▸ h
  · cases save with
    | error e =>
      cases o with
      | true => exact hreplay.symm ▸ hparquet _ db name d .absent (hparquet s db name d .torn h)
      | false => exact hreplay.symm ▸ h
    | ok _ =>
      have hsaved := hparquet _ db name d (.complete (frame (row :: df)))
        (hparquet s db name d .torn h)
      cases inserted with
      | error e => cases dryRun <;> exact hreplay.symm ▸ hsaved
      | ok _ =>
        cases dryRun with
        | true => exact hreplay.symm ▸ hsaved
        | false =>
          show P _ ((db.apply request).apply (load (row :: df)))
          rw [hrequest]
          exact hload _ db (row :: df) hsaved

/-- The tables exist, and are those of a database. -/
def Storage.Holds (s : Storage) (db : Database) : Prop :=
  s.actualGeneration = some db.actualGeneration ∧ s.windForecast = some db.windForecast

/-- The tables after the effects of a batch are those after its events. -/
theorem Storage.Holds.batch {s : Storage} {db : Database} (h : s.Holds db) (world : Date → BatchEnv)
    (opened : String → Date → Bool) (dryRun : Bool) (d : Date) :
    (perform Storage.apply s (batchEffects world opened dryRun d)).Holds
      (db.replay (batchOutcome world dryRun d).events) := by
  have hactual : (perform Storage.apply s (actualEffects (world d) opened dryRun d)).Holds
      (db.replay (actualOutcome (world d) dryRun d).events) := by
    refine perform_phaseEffects (P := Storage.Holds) _ _ _ _ _ _ (fun _ _ _ _ _ h => h)
      (fun _ => rfl) (fun s db df h => ?_) h
    exact ⟨by simp only [Storage.apply, h.1]; rfl, h.2⟩
  rw [batchEffects, batchOutcome, BatchOutcome.andThen, perform_append]
  cases (actualOutcome (world d) dryRun d).failure with
  | some e => exact hactual
  | none =>
    rw [Database.replay_append]
    refine perform_phaseEffects (P := Storage.Holds) _ _ _ _ _ _ (fun _ _ _ _ _ h => h)
      (fun _ => rfl) (fun s db df h => ?_) hactual
    exact ⟨h.1, by simp only [Storage.apply, h.2]; rfl⟩

/-- The effects of a run with batches. -/
theorem MainRun.effects_of_batches {m : MainRun} {batches : List (Date × Date)}
    (h : generateDateBatches m.run.cfg.dataStartDate m.run.cfg.dataEndDate
      m.run.cfg.batchSizeDays = .ok batches) :
    m.effects = m.initEffects ++
      batches.flatMap fun b => batchEffects m.run.world m.opened m.run.dryRun b.1 := by
  rw [MainRun.effects, MainRun.loopEffects, h]

/-- The tables after the effects of batches are those after their events. -/
theorem Storage.Holds.batches (world : Date → BatchEnv) (opened : String → Date → Bool)
    (dryRun : Bool) (batches : List (Date × Date)) {s : Storage} {db : Database} (h : s.Holds db) :
    (perform Storage.apply s
        (batches.flatMap fun b => batchEffects world opened dryRun b.1)).Holds
      (db.replay (batches.flatMap fun b => (batchOutcome world dryRun b.1).events)) := by
  induction batches generalizing s db with
  | nil => exact h
  | cons b batches ih =>
    rw [List.flatMap_cons, List.flatMap_cons, perform_append, Database.replay_append]
    exact ih (h.batch world opened dryRun b.1)

/-- **The effects leave what the run returns.** -/
theorem perform_mainEffects {m : MainRun} (hdry : m.run.dryRun = false) {s : Storage}
    {stats : IngestStats} {state : IngestState}
    (h : runIngestion m.run.cfg m.run.world m.run.dryRun s.database = .ok (stats, state)) :
    (perform Storage.apply s m.effects).Holds state.db := by
  obtain ⟨batches, hbatches, hdb, hlog, -⟩ := runIngestion_log h
  rw [hdb, hlog, MainRun.effects_of_batches hbatches, MainRun.initEffects, hdry,
    if_neg Bool.false_ne_true, perform_append]
  exact Storage.Holds.batches _ _ _ batches ⟨rfl, rfl⟩

end Refines

end WindSight
