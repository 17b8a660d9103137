import WindSight.Pipeline.Command
import WindSight.Pipeline.IngestCounts

/-! # Dry runs

What a dry run tells about the run it rehearses. Over the same answers of the API it requests what
the run requests, as long as no insert raises, and writes the same Parquet files; and a day fails in
the run exactly if it fails in the rehearsal, or its insert raises (`dryRun_predicts`). -/

namespace WindSight

open Interruption (perform perform_append)

/-! ## Inserts that raise -/

/-- An insert raises on the frame it is given. -/
def InsertRaises {ρ : Type} (fetched : Except String (List ρ)) (inserted : Except String Unit) :
    Prop :=
  ∃ df e, fetched = .ok df ∧ df ≠ [] ∧ inserted = .error e

/-- An insert of the batch of a day raises on the frame fetched for it. -/
def BatchEnv.LoadRaises (env : BatchEnv) (d : Date) : Prop :=
  InsertRaises ((env.fuelhh (fuelhhParams d)).map actualFrame) env.insertActual ∨
    InsertRaises ((env.windfor (windforParams d)).map forecastFrame) env.insertForecast

/-- The event is a request. -/
def IngestEvent.isRequest : IngestEvent → Bool
  | .requestFuelhh _ | .requestWindfor _ => true
  | .loadActual _ | .loadForecast _ => false

/-! ## One part of a batch -/

section Phase

variable {ρ : Type} {request : IngestEvent} {load : List ρ → IngestEvent}
  {fetched : Except String (List ρ)} {save inserted : Except String Unit}

/-- A rehearsed part makes its request and nothing else. -/
theorem events_phaseOutcome_dry :
    (phaseOutcome request load fetched save inserted true).events = [request] := by
  rcases fetched with e | _ | ⟨row, df⟩
  · rfl
  · rfl
  · cases save <;> rfl

/-- A part ends without an exception if its rehearsal does, and its insert does not raise. -/
theorem phaseOutcome_success_iff :
    (phaseOutcome request load fetched save inserted false).failure = none ↔
      (phaseOutcome request load fetched save inserted true).failure = none ∧
        ¬ InsertRaises fetched inserted := by
  rcases fetched with e | _ | ⟨row, df⟩
  · constructor
    · intro h
      cases h
    · rintro ⟨h, -⟩
      cases h
  · refine ⟨fun _ => ⟨rfl, ?_⟩, fun _ => rfl⟩
    rintro ⟨df, e, hdf, hne, -⟩
    exact hne (Except.ok.inj hdf).symm
  · cases save with
    | error e =>
      constructor
      · intro h
        cases h
      · rintro ⟨h, -⟩
        cases h
    | ok _ =>
      cases inserted with
      | error e =>
        constructor
        · intro h
          cases h
        · rintro ⟨-, h⟩
          exact absurd ⟨row :: df, e, rfl, List.cons_ne_nil _ _, rfl⟩ h
      | ok _ =>
        refine ⟨fun _ => ⟨rfl, ?_⟩, fun _ => rfl⟩
        rintro ⟨df, e, -, -, h⟩
        cases h

/-- A part whose insert does not raise ends as its rehearsal, and makes the same request. -/
theorem phaseOutcome_rehearsed (hrequest : request.isRequest = true)
    (hload : ∀ df, (load df).isRequest = false) (hinsert : ¬ InsertRaises fetched inserted) :
    (phaseOutcome request load fetched save inserted true).failure
        = (phaseOutcome request load fetched save inserted false).failure ∧
      (phaseOutcome request load fetched save inserted true).events
        = (phaseOutcome request load fetched save inserted false).events.filter
          IngestEvent.isRequest := by
  have hfilter : [request].filter IngestEvent.isRequest = [request] := by
    rw [List.filter_cons_of_pos hrequest, List.filter_nil]
  rw [events_phaseOutcome_dry]
  rcases fetched with e | _ | ⟨row, df⟩
  · exact ⟨rfl, hfilter.symm⟩
  · exact ⟨rfl, hfilter.symm⟩
  · cases save with
    | error e => exact ⟨rfl, hfilter.symm⟩
    | ok _ =>
      cases inserted with
      | error e => exact absurd ⟨row :: df, e, rfl, List.cons_ne_nil _ _, rfl⟩ hinsert
      | ok _ =>
        refine ⟨rfl, ?_⟩
        show [request] = [request, load (row :: df)].filter IngestEvent.isRequest
        rw [List.filter_cons_of_pos hrequest, List.filter_cons_of_neg (by simp [hload]),
          List.filter_nil]

end Phase

/-! ## One batch -/

section Batch

variable {world : Date → BatchEnv} {d : Date}

/-- A day fails if its rehearsal does, or one of its inserts raises. -/
theorem batch_success_iff :
    (batchOutcome world false d).failure = none ↔
      (batchOutcome world true d).failure = none ∧ ¬ (world d).LoadRaises d := by
  rw [batchOutcome, batchOutcome, BatchOutcome.andThen_success, BatchOutcome.andThen_success,
    actualOutcome, actualOutcome, forecastOutcome, forecastOutcome, phaseOutcome_success_iff,
    phaseOutcome_success_iff, BatchEnv.LoadRaises, not_or]
  exact and_and_and_comm

/-- Without an insert that raises, a batch ends as its rehearsal, and makes the same requests. -/
theorem batch_rehearsed (h : ¬ (world d).LoadRaises d) :
    (batchOutcome world true d).failure = (batchOutcome world false d).failure ∧
      (batchOutcome world true d).events
        = (batchOutcome world false d).events.filter IngestEvent.isRequest := by
  rw [BatchEnv.LoadRaises, not_or] at h
  obtain ⟨hactual, hactual'⟩ : (actualOutcome (world d) true d).failure
        = (actualOutcome (world d) false d).failure ∧
      (actualOutcome (world d) true d).events
        = (actualOutcome (world d) false d).events.filter IngestEvent.isRequest :=
    phaseOutcome_rehearsed rfl (fun _ => rfl) h.1
  obtain ⟨hforecast, hforecast'⟩ : (forecastOutcome (world d) true d).failure
        = (forecastOutcome (world d) false d).failure ∧
      (forecastOutcome (world d) true d).events
        = (forecastOutcome (world d) false d).events.filter IngestEvent.isRequest :=
    phaseOutcome_rehearsed rfl (fun _ => rfl) h.2
  rw [batchOutcome, batchOutcome, BatchOutcome.andThen, BatchOutcome.andThen, hactual]
  cases (actualOutcome (world d) false d).failure with
  | some e => exact ⟨rfl, hactual'⟩
  | none => exact ⟨hforecast, by rw [hactual', hforecast', List.filter_append]⟩

/-- A rehearsed batch makes requests only. -/
theorem isRequest_of_mem_dry {event : IngestEvent}
    (h : event ∈ (batchOutcome world true d).events) : event.isRequest = true := by
  rw [batchOutcome, BatchOutcome.mem_andThen, actualOutcome, forecastOutcome,
    events_phaseOutcome_dry, events_phaseOutcome_dry, List.mem_singleton, List.mem_singleton] at h
  rcases h with rfl | ⟨-, rfl⟩ <;> rfl

end Batch

/-! ## The disk -/

section Disk

variable {world : Date → BatchEnv} {opened : String → Date → Bool} {d : Date} {s s' : Storage}

/-- The tables are the same. -/
def Storage.SameTables (s s' : Storage) : Prop :=
  s.actualGeneration = s'.actualGeneration ∧ s.windForecast = s'.windForecast

/-- A rehearsed part does not touch the tables. -/
theorem sameTables_phaseEffects {ρ : Type} {name : String} {frame : List ρ → Frame}
    {insert : List ρ → Effect} {fetched : Except String (List ρ)} {o : Bool}
    {save inserted : Except String Unit} (s : Storage) :
    (perform Storage.apply s
      (phaseEffects name frame insert fetched o save inserted true d)).SameTables s := by
  rcases fetched with e | _ | ⟨row, df⟩
  · exact ⟨rfl, rfl⟩
  · exact ⟨rfl, rfl⟩
  · cases save with
    | error e => cases o <;> exact ⟨rfl, rfl⟩
    | ok _ => cases inserted <;> exact ⟨rfl, rfl⟩

/-- A rehearsed batch does not touch the tables. -/
theorem sameTables_batchEffects (s : Storage) :
    (perform Storage.apply s (batchEffects world opened true d)).SameTables s := by
  have hactual : (perform Storage.apply s (actualEffects (world d) opened true d)).SameTables s :=
    sameTables_phaseEffects s
  rw [batchEffects, perform_append]
  cases (actualOutcome (world d) true d).failure with
  | some e => exact hactual
  | none =>
    have hforecast : ∀ s' : Storage, (perform Storage.apply s'
        (forecastEffects (world d) opened true d)).SameTables s' := fun s' =>
      sameTables_phaseEffects s'
    exact ⟨(hforecast _).1.trans hactual.1, (hforecast _).2.trans hactual.2⟩

/-- Disks with the same files still have them after the same write. -/
theorem setParquet_congr (h : s.parquet = s'.parquet) (name : String) (d : Date)
    (file : ParquetFile) :
    (s.setParquet name d file).parquet = (s'.setParquet name d file).parquet := by
  funext name' d'
  rw [Storage.setParquet_parquet, Storage.setParquet_parquet, h]

/-- A part writes the files its rehearsal does. -/
theorem parquet_phase_rehearsed {ρ : Type} {name : String} {frame : List ρ → Frame}
    {insert : List ρ → Effect}
    (hinsert : ∀ (s : Storage) df, (s.apply (insert df)).parquet = s.parquet)
    {fetched : Except String (List ρ)} {o : Bool} {save inserted : Except String Unit}
    (h : s.parquet = s'.parquet) :
    (perform Storage.apply s
        (phaseEffects name frame insert fetched o save inserted true d)).parquet
      = (perform Storage.apply s'
          (phaseEffects name frame insert fetched o save inserted false d)).parquet := by
  rcases fetched with e | _ | ⟨row, df⟩
  · exact h
  · exact h
  · cases save with
    | error e =>
      cases o with
      | true => exact setParquet_congr (setParquet_congr h name d .torn) name d .absent
      | false => exact h
    | ok _ =>
      have hsaved := setParquet_congr (setParquet_congr h name d .torn) name d
        (.complete (frame (row :: df)))
      cases inserted with
      | error e => exact hsaved
      | ok _ => exact hsaved.trans (hinsert _ _).symm

/-- A batch without an insert that raises writes the files its rehearsal does. -/
theorem parquet_batch_rehearsed (hload : ¬ (world d).LoadRaises d) (h : s.parquet = s'.parquet) :
    (perform Storage.apply s (batchEffects world opened true d)).parquet
      = (perform Storage.apply s' (batchEffects world opened false d)).parquet := by
  have hactual : (perform Storage.apply s (actualEffects (world d) opened true d)).parquet
      = (perform Storage.apply s' (actualEffects (world d) opened false d)).parquet :=
    parquet_phase_rehearsed (fun _ _ => rfl) h
  have hfailure : (actualOutcome (world d) true d).failure
      = (actualOutcome (world d) false d).failure :=
    (phaseOutcome_rehearsed rfl (fun _ => rfl) (not_or.mp hload).1).1
  rw [batchEffects, batchEffects, perform_append, perform_append, hfailure]
  cases (actualOutcome (world d) false d).failure with
  | some e => exact hactual
  | none => exact parquet_phase_rehearsed (fun _ _ => rfl) hactual

end Disk

/-! ## Runs -/

/-- The same run, dry or not. -/
def MainRun.withDry (m : MainRun) (dryRun : Bool) : MainRun :=
  { m with run := { m.run with dryRun := dryRun } }

/-- The effects of a dry run are those of its batches. -/
theorem MainRun.effects_dry (m : MainRun) :
    (m.withDry true).effects = (m.withDry true).loopEffects := rfl

theorem MainRun.effects_real (m : MainRun) :
    (m.withDry false).effects
      = [.createActual, .createForecast] ++ (m.withDry false).loopEffects := rfl

/-- The batches are the same, dry or not. -/
theorem MainRun.loopEffects_withDry (m : MainRun) (dryRun : Bool) :
    (m.withDry dryRun).loopEffects =
      match generateDateBatches m.run.cfg.dataStartDate m.run.cfg.dataEndDate
        m.run.cfg.batchSizeDays with
      | .ok batches => batches.flatMap fun b => batchEffects m.run.world m.opened dryRun b.1
      | .error _ => [] := rfl

/-- A dry run leaves the tables alone. -/
theorem sameTables_effects (m : MainRun) (s : Storage) :
    (perform Storage.apply s (m.withDry true).effects).SameTables s := by
  rw [MainRun.effects_dry, MainRun.loopEffects_withDry]
  cases generateDateBatches m.run.cfg.dataStartDate m.run.cfg.dataEndDate
    m.run.cfg.batchSizeDays with
  | error e => exact ⟨rfl, rfl⟩
  | ok batches =>
    dsimp only
    induction batches generalizing s with
    | nil => exact ⟨rfl, rfl⟩
    | cons b batches ih =>
      rw [List.flatMap_cons, perform_append]
      obtain ⟨h, h'⟩ := ih (perform Storage.apply s (batchEffects m.run.world m.opened true b.1))
      obtain ⟨hb, hb'⟩ := sameTables_batchEffects s
      exact ⟨h.trans hb, h'.trans hb'⟩

/-- A run without inserts that raise writes the files its rehearsal does. -/
theorem parquet_effects_rehearsed {m : MainRun} (s : Storage)
    (hload : ∀ d, IsBatchDay m.run.cfg d → ¬ (m.run.world d).LoadRaises d) :
    (perform Storage.apply s (m.withDry true).effects).parquet
      = (perform Storage.apply s (m.withDry false).effects).parquet := by
  rw [MainRun.effects_dry, MainRun.effects_real, perform_append, MainRun.loopEffects_withDry,
    MainRun.loopEffects_withDry]
  cases hbatches : generateDateBatches m.run.cfg.dataStartDate m.run.cfg.dataEndDate
    m.run.cfg.batchSizeDays with
  | error e => rfl
  | ok batches =>
    have hday : ∀ b ∈ batches, ¬ (m.run.world b.1).LoadRaises b.1 := fun b hb =>
      hload _ ((mem_generateDateBatches hbatches b.1).mp (List.mem_map_of_mem hb))
    have hall : ∀ (batches : List (Date × Date)) (s s' : Storage),
        (∀ b ∈ batches, ¬ (m.run.world b.1).LoadRaises b.1) → s.parquet = s'.parquet →
        (perform Storage.apply s
            (batches.flatMap fun b => batchEffects m.run.world m.opened true b.1)).parquet
          = (perform Storage.apply s'
              (batches.flatMap fun b => batchEffects m.run.world m.opened false b.1)).parquet := by
      intro batches
      induction batches with
      | nil => exact fun s s' _ h => h
      | cons b batches ih =>
        intro s s' hday h
        rw [List.flatMap_cons, List.flatMap_cons, perform_append, perform_append]
        exact ih _ _ (fun b' hb' => hday b' (List.mem_cons_of_mem _ hb'))
          (parquet_batch_rehearsed (hday b List.mem_cons_self) h)
    exact hall batches _ _ hday rfl

/-- **A dry run is a rehearsal.** Take a dry run and a run over the same answers of the API and the
same disk. The dry run counts nothing and leaves the tables as they are. A day fails in the run
exactly if it fails in the dry run, or an insert raises on the frame fetched for it. So unless an
insert raises, the two report the same exceptions and the same number of batches, the dry run
requests, in the same order, what the run does, and writes the same Parquet files. -/
theorem dryRun_predicts (m : MainRun) (disk : Storage) {stats stats' : IngestStats}
    {s s' : IngestState}
    (hdry : runIngestion m.run.cfg m.run.world true disk.database = .ok (stats, s))
    (hreal : runIngestion m.run.cfg m.run.world false disk.database = .ok (stats', s')) :
    (stats.actualRecords = 0 ∧ stats.forecastRecords = 0 ∧ s.db = disk.database ∧
      (perform Storage.apply disk (m.withDry true).effects).SameTables disk) ∧
    (∀ d, Failed s' d ↔
      Failed s d ∨ (IsBatchDay m.run.cfg d ∧ (m.run.world d).LoadRaises d)) ∧
    ((∀ d, IsBatchDay m.run.cfg d → ¬ (m.run.world d).LoadRaises d) →
      s.errors = s'.errors ∧ stats.batchesProcessed = stats'.batchesProcessed ∧
      s.log = s'.log.filter IngestEvent.isRequest ∧
      (perform Storage.apply disk (m.withDry true).effects).parquet
        = (perform Storage.apply disk (m.withDry false).effects).parquet) := by
  refine ⟨?_, fun d => ?_, fun hload => ?_⟩
  · have hrequests : ∀ event ∈ s.log, event.isRequest = true := by
      intro event hevent
      obtain ⟨d, -, hevent⟩ := (mem_log_iff hdry event).mp hevent
      exact isRequest_of_mem_dry hevent
    have hactual : loadedActual s.log = [] := by
      refine List.flatMap_eq_nil_iff.mpr fun event hevent => ?_
      have h := hrequests event hevent
      cases event <;> first | rfl | cases h
    have hforecast : loadedForecast s.log = [] := by
      refine List.flatMap_eq_nil_iff.mpr fun event hevent => ?_
      have h := hrequests event hevent
      cases event <;> first | rfl | cases h
    obtain ⟨hcount, hcount'⟩ := stats_eq_length_loaded hdry
    obtain ⟨-, -, hdb, -, -⟩ := runIngestion_log hdry
    rw [hactual] at hcount
    rw [hforecast] at hcount'
    refine ⟨hcount, hcount', ?_, sameTables_effects m disk⟩
    obtain ⟨htable, htable'⟩ := replay_tables disk.database s.log
    rw [hactual] at htable
    rw [hforecast] at htable'
    rw [hdb]
    exact congrArg₂ Database.mk htable htable'
  · rw [mem_errors_iff hreal, mem_errors_iff hdry, ← and_or_left, and_congr_right_iff]
    intro _
    rw [Ne, batch_success_iff, not_and_or, not_not]
  · obtain ⟨batches, hbatches, hs, hstats⟩ := runIngestion_eq_ok hdry
    obtain ⟨batches', hbatches', hs', hstats'⟩ := runIngestion_eq_ok hreal
    obtain rfl : batches = batches' := Except.ok.inj (hbatches.symm.trans hbatches')
    have hday : ∀ b ∈ batches, ¬ (m.run.world b.1).LoadRaises b.1 := fun b hb =>
      hload _ ((mem_generateDateBatches hbatches b.1).mp (List.mem_map_of_mem hb))
    obtain ⟨_, hb, -, hlog, herrors⟩ := runIngestion_log hdry
    obtain rfl := Except.ok.inj (hb.symm.trans hbatches)
    obtain ⟨_, hb', -, hlog', herrors'⟩ := runIngestion_log hreal
    obtain rfl := Except.ok.inj (hb'.symm.trans hbatches)
    have hsame : s.errors = s'.errors := by
      rw [herrors, herrors']
      exact List.flatMap_congr fun b hb => by rw [(batch_rehearsed (hday b hb)).1]
    refine ⟨hsame, by rw [hstats, hstats', hsame], ?_, parquet_effects_rehearsed disk hload⟩
    rw [hlog, hlog', List.filter_flatMap]
    exact List.flatMap_congr fun b hb => (batch_rehearsed (hday b hb)).2

/-- Four days on an empty disk, with the API down for the second. -/
theorem dryRun_predicts_flakyWorld :
    ∃ stats s stats' s',
      runIngestion exampleDays (flakyWorld (some 19724)) true Storage.fresh.database
          = .ok (stats, s) ∧
        runIngestion exampleDays (flakyWorld (some 19724)) false Storage.fresh.database
          = .ok (stats', s') ∧
        s.errors = s'.errors ∧ stats.batchesProcessed = stats'.batchesProcessed ∧
        s.log = s'.log.filter IngestEvent.isRequest := by
  have hcal : exampleDays.dataEndDate + exampleDays.batchSizeDays ≤ maxDate := by decide
  obtain ⟨stats, s, hdry⟩ := exists_runIngestion (flakyWorld (some 19724)) true
    Storage.fresh.database le_rfl hcal
  obtain ⟨stats', s', hreal⟩ := exists_runIngestion (flakyWorld (some 19724)) false
    Storage.fresh.database le_rfl hcal
  obtain ⟨-, -, hsame⟩ := dryRun_predicts
    ⟨⟨exampleDays, flakyWorld (some 19724), true⟩, fun _ _ => true⟩ Storage.fresh hdry hreal
  obtain ⟨herrors, hbatches, hlog, -⟩ := hsame fun d _ h => by
    rcases h with ⟨df, e, -, -, h⟩ | ⟨df, e, -, -, h⟩ <;> cases h
  exact ⟨stats, s, stats', s', hdry, hreal, herrors, hbatches, hlog⟩

end WindSight
