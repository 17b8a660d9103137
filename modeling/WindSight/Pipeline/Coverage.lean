import WindSight.Pipeline.IngestLog

/-! # Days covered by a run

The batches of a run are day ranges, but both fetches take the first day of the batch. So a run
without exceptions covers its whole range of days exactly when every day starts a batch
(`covers_iff`). -/

namespace WindSight

/-- A log covers a day: its actuals are requested, and every whole second of it lies in a requested
publish window. -/
def CoversDay (log : List IngestEvent) (d : Date) : Prop :=
  (∃ params, .requestFuelhh params ∈ log ∧
    params.settlementDateFrom ≤ d ∧ d ≤ params.settlementDateTo) ∧
  ∀ t : Instant, dateOf t = d → t % microsPerSecond = 0 →
    ∃ params, .requestWindfor params ∈ log ∧
      params.publishDateTimeFrom ≤ t ∧ t ≤ params.publishDateTimeTo

/-- The publish window of a day contains the whole seconds of the day and of the two days before. -/
theorem mem_windforParams_iff {t : Instant} {d : Date} (ht : t % microsPerSecond = 0) :
    ((windforParams d).publishDateTimeFrom ≤ t ∧ t ≤ (windforParams d).publishDateTimeTo) ↔
      d - 2 ≤ dateOf t ∧ dateOf t ≤ d := by
  simp only [windforParams, midnight, dateOf, microsPerDay, microsPerHour, microsPerSecond] at ht ⊢
  lia

section Run

variable {cfg : IngestConfig} {world : Date → BatchEnv} {dryRun : Bool} {db : Database}
  {stats : IngestStats} {s : IngestState}

/-- A run without exceptions covers the days its batches start at. -/
theorem coversDay_of_isBatchDay (h : runIngestion cfg world dryRun db = .ok (stats, s))
    (hok : s.errors = []) {d : Date} (hd : IsBatchDay cfg d) : CoversDay s.log d := by
  have hsuccess := BatchOutcome.andThen_success.mp (success_of_errors_nil h hok hd)
  refine ⟨⟨fuelhhParams d, ?_, le_rfl, le_rfl⟩, fun t ht hsecond => ⟨windforParams d, ?_, ?_⟩⟩
  · exact (mem_log_iff h _).mpr ⟨d, hd, requestFuelhh_mem_batch.mpr rfl⟩
  · exact (mem_log_iff h _).mpr ⟨d, hd, requestWindfor_mem_batch.mpr ⟨hsuccess.1, rfl⟩⟩
  · exact (mem_windforParams_iff hsecond).mpr ⟨by lia, ht.le⟩

/-- A run requests the actuals of no day but those its batches start at. -/
theorem isBatchDay_of_coversDay (h : runIngestion cfg world dryRun db = .ok (stats, s))
    {d : Date} (hd : CoversDay s.log d) : IsBatchDay cfg d := by
  obtain ⟨⟨params, hmem, hlo, hhi⟩, -⟩ := hd
  obtain ⟨d', hday, hevent⟩ := (mem_log_iff h _).mp hmem
  obtain rfl := requestFuelhh_mem_batch.mp hevent
  obtain rfl : d' = d := le_antisymm hlo hhi
  exact hday

/-- **When no day of the range is left out.** A run without exceptions covers every day from the
start date to the end date exactly when the batch size is one day or the range is a single day. -/
theorem covers_iff (hrange : cfg.dataStartDate ≤ cfg.dataEndDate)
    (h : runIngestion cfg world dryRun db = .ok (stats, s)) (hok : s.errors = []) :
    (∀ d, cfg.dataStartDate ≤ d → d ≤ cfg.dataEndDate → CoversDay s.log d) ↔
      cfg.batchSizeDays = 1 ∨ cfg.dataStartDate = cfg.dataEndDate := by
  constructor
  · intro hcovers
    by_contra hcond
    rw [not_or] at hcond
    -- the day after the start date starts no batch of two days or more
    obtain ⟨k, hk, -⟩ := isBatchDay_of_coversDay h
      (hcovers (cfg.dataStartDate + 1) (by lia) (by lia))
    have hone : (k : ℤ) * cfg.batchSizeDays = 1 := by lia
    have hdvd : (cfg.batchSizeDays : ℤ) ∣ 1 := ⟨k, by rw [mul_comm, hone]⟩
    exact hcond.1 (by exact_mod_cast Int.eq_one_of_dvd_one (by positivity) hdvd)
  · rintro (hone | hsingle) d hlo hhi
    · exact coversDay_of_isBatchDay h hok ((isBatchDay_iff hone d).mpr ⟨hlo, hhi⟩)
    · exact coversDay_of_isBatchDay h hok ⟨0, by lia, hhi⟩

end Run

/-- A world in which every request is answered by no records. -/
def quietWorld (_ : Date) : BatchEnv where
  fuelhh := fun _ => .ok []
  windfor := fun _ => .ok []
  saveParquet := fun _ _ => .ok ()
  insertActual := .ok ()
  insertForecast := .ok ()

/-- The first two days of 2024 in one batch. -/
def twoDayBatch : IngestConfig := ⟨19723, 19724, 2, by decide⟩

/-- The run of the two-day batch in the quiet world. -/
theorem runIngestion_twoDayBatch :
    ∃ stats s, runIngestion twoDayBatch quietWorld false .empty = .ok (stats, s) ∧ s.errors = [] :=
  ⟨_, _, rfl, rfl⟩

theorem covers_iff_twoDayBatch :
    ∃ stats s, runIngestion twoDayBatch quietWorld false .empty = .ok (stats, s) ∧
      ((∀ d, 19723 ≤ d → d ≤ 19724 → CoversDay s.log d) ↔ 2 = 1 ∨ (19723 : Date) = 19724) := by
  obtain ⟨stats, s, hrun, hok⟩ := runIngestion_twoDayBatch
  exact ⟨stats, s, hrun, covers_iff (by decide) hrun hok⟩

/-- In one batch of two days, the second day is left out although nothing fails. -/
theorem not_covers_twoDayBatch :
    ∃ stats s, runIngestion twoDayBatch quietWorld false .empty = .ok (stats, s) ∧
      s.errors = [] ∧ ¬ CoversDay s.log 19724 := by
  obtain ⟨stats, s, hrun, hok⟩ := runIngestion_twoDayBatch
  refine ⟨stats, s, hrun, hok, fun hcovers => ?_⟩
  obtain ⟨k, hk, -⟩ := isBatchDay_of_coversDay hrun hcovers
  simp only [twoDayBatch] at hk
  lia

end WindSight
