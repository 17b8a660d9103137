import WindSight.Pipeline.BatchPartition
import WindSight.Pipeline.Redundancy

/-! # Counters of a run

`run_ingestion` reports, for each table, the sum of the lengths of the frames it loaded
(`stats_eq_length_loaded`), while a load replaces the rows already present. So after a run on an
empty database the reported numbers are those of the rows in the tables exactly when the frames
loaded share no primary key (`reportsRows_iff`). -/

namespace WindSight

/-! ## The counters count the rows loaded -/

/-- The counters of a state are the numbers of rows loaded in its log. -/
def Counted (s : IngestState) : Prop :=
  s.totalActual = (loadedActual s.log).length ∧ s.totalForecast = (loadedForecast s.log).length

/-- A step keeps the counters right, also one that raises. -/
def KeepsCount (x : Ingest Unit) : Prop := ∀ s, Counted s → Counted (exec x s).2

theorem KeepsCount.andThen {x y : Ingest Unit} (hx : KeepsCount x) (hy : KeepsCount y) :
    KeepsCount (do x; y) := by
  intro s hs
  have hs' := hx s hs
  rw [exec_bind]
  cases hexec : exec x s with
  | mk r s' =>
    rw [hexec] at hs'
    cases r with
    -- an exception keeps the state it left
    | error e => exact hs'
    | ok _ => exact hy s' hs'

theorem ingestActual_keepsCount (env : BatchEnv) (dryRun : Bool) (d : Date) :
    KeepsCount (ingestActual env dryRun d) := by
  rintro s ⟨hactual, hforecast⟩
  rw [ingestActual_eq]
  refine ingestPhase_property dryRun (exec_fetchActualGeneration env d)
    (fun _ hdf => exec_loadActualGeneration env hdf) ?_ fun df => ?_
  · simp [Counted, loadedActual, loadedForecast, hactual, hforecast]
  · simp [Counted, loadedActual, loadedForecast, hactual, hforecast]

theorem ingestForecast_keepsCount (env : BatchEnv) (dryRun : Bool) (d : Date) :
    KeepsCount (ingestForecast env dryRun d) := by
  rintro s ⟨hactual, hforecast⟩
  rw [ingestForecast_eq]
  refine ingestPhase_property dryRun (exec_fetchWindForecast env d)
    (fun _ hdf => exec_loadWindForecast env hdf) ?_ fun df => ?_
  · simp [Counted, loadedActual, loadedForecast, hactual, hforecast]
  · simp [Counted, loadedActual, loadedForecast, hactual, hforecast]

/-- One round of the loop keeps the counters right. -/
theorem runBatch_counted {world : Date → BatchEnv} {dryRun : Bool} {s : IngestState}
    (hs : Counted s) (batch : Date × Date) : Counted (runBatch world dryRun s batch) := by
  have hexec := (ingestActual_keepsCount (world batch.1) dryRun batch.1).andThen
    (ingestForecast_keepsCount (world batch.1) dryRun batch.1) s hs
  rw [exec] at hexec
  rw [runBatch]
  split
  · next hrun => rwa [hrun] at hexec
  · next hrun => rwa [hrun] at hexec

theorem foldl_runBatch_counted {world : Date → BatchEnv} {dryRun : Bool}
    (batches : List (Date × Date)) {s : IngestState} (hs : Counted s) :
    Counted (batches.foldl (runBatch world dryRun) s) := by
  induction batches generalizing s with
  | nil => exact hs
  | cons b batches ih => exact ih (runBatch_counted hs b)

/-- **A run reports the numbers of rows it loaded.** -/
theorem stats_eq_length_loaded {cfg : IngestConfig} {world : Date → BatchEnv} {dryRun : Bool}
    {db : Database} {stats : IngestStats} {s : IngestState}
    (h : runIngestion cfg world dryRun db = .ok (stats, s)) :
    stats.actualRecords = (loadedActual s.log).length ∧
      stats.forecastRecords = (loadedForecast s.log).length := by
  obtain ⟨batches, -, rfl, rfl⟩ := runIngestion_eq_ok h
  exact foldl_runBatch_counted batches ⟨rfl, rfl⟩

/-! ## The rows a batch loads -/

section Phase

variable {ρ : Type} {request : IngestEvent} {load : List ρ → IngestEvent}

/-- The rows a part of a batch loads: those of a frame that is fetched, saved and inserted. -/
def phaseRows (fetched : Except String (List ρ)) (save insert : Except String Unit) : List ρ :=
  match fetched, save, insert with
  | .ok df, .ok _, .ok _ => df
  | _, _, _ => []

/-- A part of a batch raises no exception: it fetches a frame, and saves and inserts one that has
rows. -/
def phasePasses (fetched : Except String (List ρ)) (save insert : Except String Unit) : Bool :=
  match fetched, save, insert with
  | .ok _, .ok _, .ok _ => true
  | .ok df, _, _ => df.isEmpty
  | .error _, _, _ => false

theorem phaseOutcome_failure_eq_none_iff (fetched : Except String (List ρ))
    (save insert : Except String Unit) :
    (phaseOutcome request load fetched save insert false).failure = none ↔
      phasePasses fetched save insert = true := by
  rcases fetched with _ | _ | _ <;> rcases save with _ | _ <;> rcases insert with _ | _ <;>
    simp [phaseOutcome, phasePasses]

/-- Read off the events of a part of a batch, the rows loaded are those of its inputs. -/
theorem flatMap_phaseOutcome {rows : IngestEvent → List ρ} (hrequest : rows request = [])
    (hload : ∀ df, rows (load df) = df) (fetched : Except String (List ρ))
    (save insert : Except String Unit) :
    (phaseOutcome request load fetched save insert false).events.flatMap rows =
      phaseRows fetched save insert := by
  rcases fetched with _ | _ | _ <;> rcases save with _ | _ <;> rcases insert with _ | _ <;>
    simp [phaseOutcome, phaseRows, hrequest, hload]

/-- A part of a batch loads no rows of the other table. -/
theorem flatMap_phaseOutcome_eq_nil {σ : Type} {rows : IngestEvent → List σ}
    (hrequest : rows request = []) (hload : ∀ df, rows (load df) = [])
    (fetched : Except String (List ρ)) (save insert : Except String Unit) (dryRun : Bool) :
    (phaseOutcome request load fetched save insert dryRun).events.flatMap rows = [] := by
  rcases phaseOutcome_cases request load fetched save insert dryRun with
    ⟨e, h⟩ | ⟨df, -, -, h⟩ | ⟨df, -, h⟩ <;> simp [h, hrequest, hload]

end Phase

/-- The rows of actuals the batch of a day loads. -/
def loadedActualRows (env : BatchEnv) (d : Date) : List ActualRow :=
  phaseRows ((env.fuelhh (fuelhhParams d)).map actualFrame) (env.saveParquet "actual" d)
    env.insertActual

/-- The rows of forecasts the batch of a day loads: none if its actuals raise an exception. -/
def loadedForecastRows (env : BatchEnv) (d : Date) : List ForecastRow :=
  if phasePasses ((env.fuelhh (fuelhhParams d)).map actualFrame) (env.saveParquet "actual" d)
      env.insertActual then
    phaseRows ((env.windfor (windforParams d)).map forecastFrame) (env.saveParquet "forecast" d)
      env.insertForecast
  else []

/-- The rows a batch loads are those of its inputs. -/
theorem loaded_batchOutcome (world : Date → BatchEnv) (d : Date) :
    loadedActual (batchOutcome world false d).events = loadedActualRows (world d) d ∧
      loadedForecast (batchOutcome world false d).events = loadedForecastRows (world d) d := by
  have hactual : loadedActual (actualOutcome (world d) false d).events
      = loadedActualRows (world d) d := flatMap_phaseOutcome rfl (fun _ => rfl) _ _ _
  have hnoForecast : loadedForecast (actualOutcome (world d) false d).events = [] :=
    flatMap_phaseOutcome_eq_nil rfl (fun _ => rfl) _ _ _ _
  have hnoActual : loadedActual (forecastOutcome (world d) false d).events = [] :=
    flatMap_phaseOutcome_eq_nil rfl (fun _ => rfl) _ _ _ _
  have hforecast : loadedForecast (forecastOutcome (world d) false d).events
      = phaseRows (((world d).windfor (windforParams d)).map forecastFrame)
        ((world d).saveParquet "forecast" d) (world d).insertForecast :=
    flatMap_phaseOutcome rfl (fun _ => rfl) _ _ _
  have hpasses : (actualOutcome (world d) false d).failure = none ↔
      phasePasses (((world d).fuelhh (fuelhhParams d)).map actualFrame)
        ((world d).saveParquet "actual" d) (world d).insertActual = true :=
    phaseOutcome_failure_eq_none_iff _ _ _
  rw [batchOutcome, BatchOutcome.andThen, loadedForecastRows]
  cases hfail : (actualOutcome (world d) false d).failure with
  | some e =>
    rw [hfail] at hpasses
    exact ⟨hactual, by simpa [← hpasses] using hnoForecast⟩
  | none =>
    rw [if_pos (hpasses.mp hfail), ← hactual, ← hforecast]
    simp only [loadedActual, loadedForecast, List.flatMap_append] at hnoActual hnoForecast ⊢
    rw [hnoActual, hnoForecast, List.append_nil, List.nil_append]
    exact ⟨rfl, rfl⟩

/-- The rows a run loads are those its batches load, one batch after the other. -/
theorem loaded_runIngestion {cfg : IngestConfig} {world : Date → BatchEnv} {db : Database}
    {stats : IngestStats} {s : IngestState}
    (h : runIngestion cfg world false db = .ok (stats, s)) :
    ∃ batches,
      generateDateBatches cfg.dataStartDate cfg.dataEndDate cfg.batchSizeDays = .ok batches ∧
      loadedActual s.log = (batches.map Prod.fst).flatMap (fun d => loadedActualRows (world d) d) ∧
      loadedForecast s.log
        = (batches.map Prod.fst).flatMap fun d => loadedForecastRows (world d) d := by
  obtain ⟨batches, hbatches, -, hlog, -⟩ := runIngestion_log h
  refine ⟨batches, hbatches, ?_, ?_⟩
  · rw [hlog, loadedActual, List.flatMap_assoc, List.flatMap_map]
    exact congrArg batches.flatMap (funext fun b => (loaded_batchOutcome world b.1).1)
  · rw [hlog, loadedForecast, List.flatMap_assoc, List.flatMap_map]
    exact congrArg batches.flatMap (funext fun b => (loaded_batchOutcome world b.1).2)

/-! ## The reported numbers and the tables -/

/-- The reported numbers are those of the rows in the tables. -/
def ReportsRows (stats : IngestStats) (db : Database) : Prop :=
  stats.actualRecords = db.actualGeneration.rows.length ∧
    stats.forecastRecords = db.windForecast.rows.length

/-- No two rows that the batches load have the same key. -/
structure DistinctKeys {ρ κ : Type} (cfg : IngestConfig) (key : ρ → κ) (loaded : Date → List ρ) :
    Prop where
  /-- The rows of one batch have distinct keys. -/
  within : ∀ d, IsBatchDay cfg d → ((loaded d).map key).Nodup
  /-- The rows of two batches have distinct keys. -/
  between : ∀ d d', IsBatchDay cfg d → IsBatchDay cfg d' → d ≠ d' →
    ∀ x ∈ loaded d, ∀ y ∈ loaded d', key x ≠ key y

/-- Lists of keys are disjoint when no two rows of them share a key. -/
theorem disjoint_keys_iff {ρ κ : Type} {key : ρ → κ} {xs ys : List ρ} :
    List.Disjoint (xs.map key) (ys.map key) ↔ ∀ x ∈ xs, ∀ y ∈ ys, key x ≠ key y := by
  constructor
  · intro h x hx y hy heq
    exact h (List.mem_map_of_mem hx) (heq ▸ List.mem_map_of_mem hy)
  · intro h k hk hk'
    obtain ⟨x, hx, rfl⟩ := List.mem_map.mp hk
    obtain ⟨y, hy, heq⟩ := List.mem_map.mp hk'
    exact h x hx y hy heq.symm

/-- The keys of the rows of all batches are distinct when those within a batch and between two
batches are. -/
theorem nodup_keys_iff {ρ κ : Type} {cfg : IngestConfig} {batches : List (Date × Date)}
    (h : generateDateBatches cfg.dataStartDate cfg.dataEndDate cfg.batchSizeDays = .ok batches)
    (key : ρ → κ) (loaded : Date → List ρ) :
    (((batches.map Prod.fst).flatMap loaded).map key).Nodup ↔ DistinctKeys cfg key loaded := by
  have hdays : ∀ d, d ∈ batches.map Prod.fst ↔ IsBatchDay cfg d := mem_generateDateBatches h
  -- two batches start on different days
  have hnodup := (tiles_generateDateBatches h).nodup_fst
  have hsymm : Std.Symm fun d d' => List.Disjoint ((loaded d).map key) ((loaded d').map key) :=
    ⟨fun _ _ => List.Disjoint.symm⟩
  rw [List.map_flatMap, List.nodup_flatMap]
  constructor
  · rintro ⟨hwithin, hbetween⟩
    refine ⟨fun d hd => hwithin d ((hdays d).mpr hd), fun d d' hd hd' hne => ?_⟩
    exact disjoint_keys_iff.mp (List.Pairwise.forall hbetween ((hdays d).mpr hd)
      ((hdays d').mpr hd') hne)
  · rintro ⟨hwithin, hbetween⟩
    refine ⟨fun d hd => hwithin d ((hdays d).mp hd), ?_⟩
    refine hnodup.pairwise_of_forall_ne fun d hd d' hd' hne => ?_
    exact disjoint_keys_iff.mpr (hbetween d d' ((hdays d).mp hd) ((hdays d').mp hd') hne)

/-- **Reported numbers.** A run on an empty database reports the numbers of rows in the tables
exactly when no two rows it loads have the same primary key. -/
theorem reportsRows_iff {cfg : IngestConfig} {world : Date → BatchEnv} {stats : IngestStats}
    {s : IngestState} (h : runIngestion cfg world false .empty = .ok (stats, s)) :
    ReportsRows stats s.db ↔
      DistinctKeys cfg ActualRow.startTime (fun d => loadedActualRows (world d) d) ∧
        DistinctKeys cfg ForecastRow.key (fun d => loadedForecastRows (world d) d) := by
  obtain ⟨batches, hbatches, hactual, hforecast⟩ := loaded_runIngestion h
  obtain ⟨-, -, hdb, -⟩ := runIngestion_log h
  obtain ⟨hstatsActual, hstatsForecast⟩ := stats_eq_length_loaded h
  obtain ⟨hrowsActual, hrowsForecast⟩ := replay_tables .empty s.log
  rw [ReportsRows, hdb, hrowsActual, hrowsForecast, hstatsActual, hstatsForecast, Database.empty,
    KeyedTable.length_eq_length_upsertAll_iff, KeyedTable.length_eq_length_upsertAll_iff, hactual,
    hforecast, nodup_keys_iff hbatches, nodup_keys_iff hbatches]

theorem reportsRows_iff_exampleWorld :
    ∃ stats s, runIngestion exampleConfig exampleWorld false .empty = .ok (stats, s) ∧
      (ReportsRows stats s.db ↔
        DistinctKeys exampleConfig ActualRow.startTime
            (fun d => loadedActualRows (exampleWorld d) d) ∧
          DistinctKeys exampleConfig ForecastRow.key
            (fun d => loadedForecastRows (exampleWorld d) d)) := by
  obtain ⟨stats, s, hrun⟩ :=
    exists_runIngestion exampleWorld false .empty (by decide : 1 ≤ exampleConfig.batchSizeDays)
      (by decide)
  exact ⟨stats, s, hrun, reportsRows_iff hrun⟩

/-- The forecast that two overlapping windows offer is one row, and is counted twice. -/
theorem not_reportsRows_exampleWorld :
    ¬ ∀ cfg world stats s, runIngestion cfg world false .empty = .ok (stats, s) →
      ReportsRows stats s.db := by
  intro hall
  obtain ⟨stats, s, hrun⟩ :=
    exists_runIngestion exampleWorld false .empty (by decide : 1 ≤ exampleConfig.batchSizeDays)
      (by decide)
  have hreports := (hall _ _ _ _ hrun).2
  have hvalues : (runIngestion exampleConfig exampleWorld false .empty).map
      (fun r => (r.1.forecastRecords, r.2.db.windForecast.rows.length)) = .ok (2, 1) := by
    decide +kernel
  rw [hrun] at hvalues
  obtain ⟨hcount, hrows⟩ := Prod.mk.inj (Except.ok.inj hvalues)
  rw [hcount, hrows] at hreports
  exact absurd hreports (by decide)

end WindSight
