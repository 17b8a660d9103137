import WindSight.Pipeline.Coverage

/-! # Overlap of the forecast windows

Each daily batch requests the forecasts published on its day and on the two days before, so a
forecast is offered to three batches. `mem_loadedForecast_iff` says which forecasts a run loads, and
`forecast_stored_iff` that one is lost only if each of its batches failed or lies outside the range.
-/

namespace WindSight

/-- The WINDFOR endpoint serves a history: a request that succeeds returns exactly the records
published in the requested window. -/
def ServesHistory (world : Date → BatchEnv) (history : Set WindforRecord) : Prop :=
  ∀ d params records, (world d).windfor params = .ok records →
    ∀ r, r ∈ records ↔
      r ∈ history ∧ params.publishDateTimeFrom ≤ r.publishTime ∧
        r.publishTime ≤ params.publishDateTimeTo

variable {cfg : IngestConfig} {world : Date → BatchEnv} {db : Database} {stats : IngestStats}
  {s : IngestState} {history : Set WindforRecord}

/-- A run loads the records of the windows of the batches that did not fail. -/
theorem mem_loadedForecast_iff (hserves : ServesHistory world history)
    (h : runIngestion cfg world false db = .ok (stats, s)) (x : ForecastRow) :
    x ∈ loadedForecast s.log ↔
      ∃ r ∈ history, r.toRow = x ∧
        ∃ d, IsBatchDay cfg d ∧ ¬ Failed s d ∧
          (windforParams d).publishDateTimeFrom ≤ r.publishTime ∧
            r.publishTime ≤ (windforParams d).publishDateTimeTo := by
  rw [mem_loadedForecast]
  constructor
  · -- a frame in the log was loaded by a batch, which then ended without an exception
    rintro ⟨df, hmem, hx⟩
    obtain ⟨d, hday, hevent⟩ := (mem_log_iff h _).mp hmem
    obtain ⟨hsuccess, records, hfetch, rfl⟩ := loadForecast_of_mem_batch hevent
    obtain ⟨r, hr, rfl⟩ := List.mem_map.mp hx
    obtain ⟨hhist, hwin⟩ := (hserves d _ records hfetch r).mp hr
    refine ⟨r, hhist, rfl, d, hday, fun hfail => ?_, hwin⟩
    exact ((mem_errors_iff h d).mp hfail).2 hsuccess
  · rintro ⟨r, hr, rfl, d, hday, hfail, hwin⟩
    have hsuccess : (batchOutcome world false d).failure = none := by
      by_contra hne
      exact hfail ((mem_errors_iff h d).mpr ⟨hday, hne⟩)
    obtain ⟨-, records, hfetch, hload⟩ := loads_of_success hsuccess
    have hmem : r.toRow ∈ forecastFrame records :=
      List.mem_map_of_mem ((hserves d _ records hfetch r).mpr ⟨hr, hwin⟩)
    exact ⟨_, (mem_log_iff h _).mpr ⟨d, hday, hload (List.ne_nil_of_mem hmem)⟩, hmem⟩

/-- The rows loaded from a history with distinct keys have distinct keys. -/
theorem loadedForecast_injOn (hserves : ServesHistory world history)
    (h : runIngestion cfg world false db = .ok (stats, s))
    (hinj : Set.InjOn (fun r => r.toRow.key) history) :
    Set.InjOn ForecastRow.key {x | x ∈ loadedForecast s.log} := by
  intro x hx y hy hxy
  obtain ⟨r, hr, rfl, -⟩ := (mem_loadedForecast_iff hserves h x).mp hx
  obtain ⟨r', hr', rfl, -⟩ := (mem_loadedForecast_iff hserves h y).mp hy
  rw [hinj hr hr' hxy]

/-- Some batch that offers the record ends without an exception: that of the day it was published or
of one of the next two days. -/
def Offered (cfg : IngestConfig) (s : IngestState) (r : WindforRecord) : Prop :=
  ∃ d, (d = dateOf r.publishTime ∨ d = dateOf r.publishTime + 1 ∨ d = dateOf r.publishTime + 2) ∧
    (cfg.dataStartDate ≤ d ∧ d ≤ cfg.dataEndDate) ∧ ¬ Failed s d

/-- A record published at a whole second is offered when a window of a day that did not fail
contains its publish time. -/
theorem offered_iff (hb : cfg.batchSizeDays = 1) {r : WindforRecord}
    (hsecond : r.publishTime % microsPerSecond = 0) :
    Offered cfg s r ↔
      ∃ d, IsBatchDay cfg d ∧ ¬ Failed s d ∧
        (windforParams d).publishDateTimeFrom ≤ r.publishTime ∧
          r.publishTime ≤ (windforParams d).publishDateTimeTo := by
  simp only [mem_windforParams_iff hsecond, isBatchDay_iff hb, Offered]
  constructor
  · rintro ⟨d, hnear, hrange, hfail⟩
    exact ⟨d, hrange, hfail, by lia, by lia⟩
  · rintro ⟨d, hrange, hfail, hlo, hhi⟩
    exact ⟨d, by lia, hrange, hfail⟩

/-- **What survives a run.** After a run in daily batches from an empty table, a record published at
a whole second of day `p` is in the table, with its key, or as its own row when the keys of the
history are distinct, exactly when the batch of `p`, `p + 1` or `p + 2` lies in the range and did
not fail. So a record published on a day from the start date to two days before the end date
survives unless all three of its batches fail. -/
theorem forecast_stored_iff (hb : cfg.batchSizeDays = 1) (hserves : ServesHistory world history)
    (hempty : db.windForecast.rows = []) (h : runIngestion cfg world false db = .ok (stats, s))
    {r : WindforRecord} (hr : r ∈ history) (hsecond : r.publishTime % microsPerSecond = 0) :
    ((∃ x ∈ s.db.windForecast, x.key = r.toRow.key) ↔ Offered cfg s r) ∧
    (Set.InjOn (fun r => r.toRow.key) history →
      (r.toRow ∈ s.db.windForecast ↔ Offered cfg s r)) ∧
    (cfg.dataStartDate ≤ dateOf r.publishTime → dateOf r.publishTime ≤ cfg.dataEndDate - 2 →
      ¬ (Failed s (dateOf r.publishTime) ∧ Failed s (dateOf r.publishTime + 1) ∧
        Failed s (dateOf r.publishTime + 2)) →
      ∃ x ∈ s.db.windForecast, x.key = r.toRow.key) := by
  obtain ⟨-, -, hdb, -⟩ := runIngestion_log h
  have hnew : ∀ k, (∃ x ∈ s.db.windForecast, x.key = k) ↔
      ∃ x ∈ loadedForecast s.log, x.key = k := by
    intro k
    rw [hdb, (replay_tables db s.log).2, KeyedTable.exists_key_upsertAll]
    refine or_iff_left ?_
    rintro ⟨x, hx, -⟩
    rw [← KeyedTable.mem_rows, hempty] at hx
    exact absurd hx List.not_mem_nil
  have hkey : (∃ x ∈ s.db.windForecast, x.key = r.toRow.key) ↔ Offered cfg s r := by
    rw [hnew, offered_iff hb hsecond]
    constructor
    · rintro ⟨x, hx, hxr⟩
      obtain ⟨r', -, rfl, hwin⟩ := (mem_loadedForecast_iff hserves h x).mp hx
      have hpub : r'.publishTime = r.publishTime := congrArg Prod.snd hxr
      rwa [hpub] at hwin
    · intro hwin
      exact ⟨r.toRow, (mem_loadedForecast_iff hserves h _).mpr ⟨r, hr, rfl, hwin⟩, rfl⟩
  -- the keys decide which records survive; with distinct keys the rows do
  refine ⟨hkey, fun hinj => ⟨fun hmem => hkey.mp ⟨_, hmem, rfl⟩, fun hoff => ?_⟩, ?_⟩
  · rw [hdb, (replay_tables db s.log).2]
    refine KeyedTable.mem_upsertAll_of_mem _ (loadedForecast_injOn hserves h hinj) ?_
    exact (mem_loadedForecast_iff hserves h _).mpr ⟨r, hr, rfl, (offered_iff hb hsecond).mp hoff⟩
  · intro hlo hhi hfail
    refine hkey.mpr ?_
    by_contra hlost
    refine hfail ⟨?_, ?_, ?_⟩ <;> by_contra hd
    · exact hlost ⟨_, Or.inl rfl, ⟨by lia, by lia⟩, hd⟩
    · exact hlost ⟨_, Or.inr (Or.inl rfl), ⟨by lia, by lia⟩, hd⟩
    · exact hlost ⟨_, Or.inr (Or.inr rfl), ⟨by lia, by lia⟩, hd⟩

/-! ### A run with a failing day -/

/-- A forecast of 2024-01-02T00:00Z, published at noon of the day before. -/
def exampleRecord : WindforRecord := ⟨1704153600000000, 1704110400000000, 5⟩

/-- A world that serves the example record, and in which the actuals of 2024-01-01 cannot be
fetched. -/
def exampleWorld (d : Date) : BatchEnv where
  fuelhh := fun _ => if d = 19723 then .error "ConnectError" else .ok []
  windfor := fun params => .ok ([exampleRecord].filter fun r =>
    params.publishDateTimeFrom ≤ r.publishTime ∧ r.publishTime ≤ params.publishDateTimeTo)
  saveParquet := fun _ _ => .ok ()
  insertActual := .ok ()
  insertForecast := .ok ()

/-- The first three days of 2024, in daily batches. -/
def exampleConfig : IngestConfig := ⟨19723, 19725, 1, by decide⟩

theorem forecast_stored_iff_exampleRecord :
    ∃ stats s, runIngestion exampleConfig exampleWorld false .empty = .ok (stats, s) ∧
      Failed s 19723 ∧ ∃ x ∈ s.db.windForecast, x.key = exampleRecord.toRow.key := by
  obtain ⟨stats, s, hrun⟩ :=
    exists_runIngestion exampleWorld false .empty (by decide : 1 ≤ exampleConfig.batchSizeDays)
      (by decide)
  have hserves : ServesHistory exampleWorld {exampleRecord} := by
    intro d params records hfetch r
    rw [← Except.ok.inj hfetch, List.mem_filter, List.mem_singleton, decide_eq_true_eq]
    rfl
  have hfail : ¬ Failed s 19724 := fun hfail => ((mem_errors_iff hrun _).mp hfail).2 rfl
  refine ⟨stats, s, hrun, (mem_errors_iff hrun _).mpr ⟨⟨0, rfl, by decide⟩, nofun⟩, ?_⟩
  exact (forecast_stored_iff rfl hserves rfl hrun rfl rfl).2.2 (by decide) (by decide)
    fun hall => hfail hall.2.1

end WindSight
