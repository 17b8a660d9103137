import WindSight.Backend.HorizonSelection
import WindSight.Pipeline.Redundancy

/-! # Completeness of ingestion for the horizon queries

What the API answers from an ingested table, compared with what it would answer from the whole
history of publishes. A run stores the publishes its windows contain; in daily batches, those from
two days before the start date on. The answers are the same exactly when every publish outside the
windows is followed by one that hides it at every horizon (`answersAsHistory_iff`). -/

namespace WindSight

/-! ## The answer for a slot -/

/-- The row `get_horizon_forecast` returns for a slot. -/
def forecastAt (conn : Conn) (start stop : Datetime) (h : ℚ) (t : Instant) :
    Option HorizonForecast :=
  (getHorizonForecast conn start stop h).find? (·.timestamp = t)

/-- The row for a slot of the window is that of the selected forecast. -/
theorem forecastAt_eq_some {conn : Conn} {start stop : Datetime} {h : ℚ} {t : Instant}
    {p : HorizonForecast} :
    forecastAt conn start stop h t = some p ↔
      (conn.bind start ≤ t ∧ t ≤ conn.bind stop) ∧
        ∃ f, IsSelected conn.db.windForecast h f ∧ f.startTime = t ∧ f.toHorizonForecast = p := by
  have hnd : ((getHorizonForecast conn start stop h).map HorizonForecast.timestamp).Nodup :=
    List.pairwise_map.mpr ((getHorizonForecast_pairwise conn start stop h).imp ne_of_lt)
  have hfind : forecastAt conn start stop h t = some p ↔
      p ∈ getHorizonForecast conn start stop h ∧ p.timestamp = t := by
    rw [forecastAt]
    constructor
    · intro hp
      exact ⟨List.mem_of_find?_eq_some hp, by simpa using List.find?_some hp⟩
    · rintro ⟨hp, rfl⟩
      cases hq : (getHorizonForecast conn start stop h).find? (·.timestamp = p.timestamp) with
      | none => simpa using List.find?_eq_none.mp hq p hp
      | some q =>
        have hqt : q.timestamp = p.timestamp := by simpa using List.find?_some hq
        rw [List.inj_on_of_nodup_map hnd (List.mem_of_find?_eq_some hq) hp hqt]
  rw [hfind, mem_getHorizonForecast]
  constructor
  · rintro ⟨⟨f, hwin, hsel, rfl⟩, rfl⟩
    exact ⟨hwin, f, hsel, rfl, rfl⟩
  · rintro ⟨hwin, f, hsel, rfl, rfl⟩
    exact ⟨⟨f, hwin, hsel, rfl⟩, rfl⟩

/-! ## Slots and histories -/

/-- A half-hour slot of the configured range, from the start date 00:00 to the end date 23:30. -/
def IsSlot (cfg : IngestConfig) (t : Instant) : Prop :=
  ∃ k : ℕ, t = midnight cfg.dataStartDate + k * (1800 * microsPerSecond) ∧
    t ≤ midnight cfg.dataEndDate + 47 * (1800 * microsPerSecond)

/-- The API answers every slot of the range from the ingested table as it would from the history, at
every horizon it accepts and whatever the window. -/
def AnswersAsHistory (cfg : IngestConfig) (ingested history : WindForecast) : Prop :=
  ∀ t, IsSlot cfg t → ∀ h : ℚ, 0 ≤ h → h ≤ 48 → ∀ conn conn' : Conn,
    conn.db.windForecast = ingested → conn'.db.windForecast = history →
    conn.timeZone = conn'.timeZone → ∀ start stop,
      forecastAt conn start stop h t = forecastAt conn' start stop h t

/-- A publish time in the window of some batch. -/
def InWindow (cfg : IngestConfig) (p : Instant) : Prop :=
  ∃ d, IsBatchDay cfg d ∧ (windforParams d).publishDateTimeFrom ≤ p ∧
    p ≤ (windforParams d).publishDateTimeTo

/-- Every forecast of a slot published by the time of the slot but in no window is followed by a
later one of the slot, published at least 48 hours ahead. -/
def MissedAreSuperseded (cfg : IngestConfig) (history : WindForecast) : Prop :=
  ∀ f ∈ history, IsSlot cfg f.startTime → f.publishTime ≤ f.startTime →
    ¬ InWindow cfg f.publishTime →
    ∃ f' ∈ history, f'.startTime = f.startTime ∧ f.publishTime < f'.publishTime ∧
      f'.publishTime ≤ f.startTime - 48 * microsPerHour

variable {cfg : IngestConfig} {t : Instant} {h : ℚ}

/-- In daily batches, the windows contain what was published from two days before the start date on,
up to any slot. -/
theorem inWindow_iff_of_daily (hb : cfg.batchSizeDays = 1) (ht : IsSlot cfg t) {p : Instant}
    (hp : p ≤ t) : InWindow cfg p ↔ midnight (cfg.dataStartDate - 2) ≤ p := by
  obtain ⟨k, hk, hlast⟩ := ht
  simp only [InWindow, isBatchDay_iff hb, windforParams, midnight, microsPerDay, microsPerHour,
    microsPerSecond] at hk hlast ⊢
  constructor
  · rintro ⟨d, ⟨hlo, -⟩, hfrom, -⟩
    lia
  · intro hfrom
    -- the day after the publish, kept inside the range
    refine ⟨max cfg.dataStartDate (min cfg.dataEndDate (p / 86400000000 + 1)), ?_, ?_, ?_⟩ <;> lia

/-- A publish 48 hours ahead is eligible at every horizon the API accepts. -/
theorem eligible_of_le (hh : h ≤ 48) {f : ForecastRow}
    (hf : f.publishTime ≤ f.startTime - 48 * microsPerHour) : f.Eligible h := by
  have hf' : (f.publishTime : ℚ) ≤ f.startTime - 48 * microsPerHour := by exact_mod_cast hf
  have hpos : (0 : ℚ) < microsPerHour := by exact_mod_cast microsPerHour_pos
  rw [ForecastRow.Eligible, hours]
  nlinarith

/-- An eligible publish is not after its slot. -/
theorem ForecastRow.Eligible.le_startTime (hh : 0 ≤ h) {f : ForecastRow} (hf : f.Eligible h) :
    f.publishTime ≤ f.startTime := by
  have hpos : (0 : ℚ) < microsPerHour := by exact_mod_cast microsPerHour_pos
  rw [Eligible, hours] at hf
  have hle : (f.publishTime : ℚ) ≤ f.startTime := by nlinarith
  exact_mod_cast hle

/-- The lead time of a forecast, in hours, is a horizon it is eligible at, and the only publishes
eligible there are not later. -/
theorem le_publishTime_iff_eligible {f f' : ForecastRow} (hslot : f'.startTime = f.startTime) :
    f'.Eligible (((f.startTime : ℚ) - f.publishTime) / microsPerHour) ↔
      f'.publishTime ≤ f.publishTime := by
  have hpos : (0 : ℚ) < microsPerHour := by exact_mod_cast microsPerHour_pos
  rw [ForecastRow.Eligible, hours, div_mul_cancel₀ _ hpos.ne', hslot, sub_sub_cancel]
  exact_mod_cast Iff.rfl

/-! ## The ingested part of a history -/

/-- The table holds the rows of the history that the windows of the run contain. -/
def IngestedFrom (cfg : IngestConfig) (ingested history : WindForecast) : Prop :=
  ∀ f, f ∈ ingested ↔ f ∈ history ∧ InWindow cfg f.publishTime

/-- A run without exceptions ingests what its windows contain. -/
theorem ingestedFrom_of_run {world : Date → BatchEnv} {db : Database} {stats : IngestStats}
    {s : IngestState} {history : WindForecast}
    (hserves : ServesHistory world {r | r.toRow ∈ history}) (hempty : db.windForecast.rows = [])
    (hrun : runIngestion cfg world false db = .ok (stats, s)) (hok : s.errors = []) :
    IngestedFrom cfg s.db.windForecast history := by
  have hinj : Set.InjOn (fun r : WindforRecord => r.toRow.key) {r | r.toRow ∈ history} := by
    rintro ⟨t, p, g⟩ hr ⟨t', p', g'⟩ hr' hkey
    have := KeyedTable.eq_of_key_eq hr hr' hkey
    simpa [WindforRecord.toRow] using this
  have hagree := loadedForecast_injOn hserves hrun hinj
  obtain ⟨-, -, hdb, -⟩ := runIngestion_log hrun
  have hnone : db.windForecast.rowSet = ∅ := by
    ext x
    rw [KeyedTable.mem_rowSet, ← KeyedTable.mem_rows, hempty]
    simp
  intro f
  rw [hdb, (replay_tables db s.log).2, ← KeyedTable.mem_rowSet,
    KeyedTable.rowSet_upsertAll _ hagree, hnone, mem_overlay]
  simp only [Set.mem_empty_iff_false, false_and, or_false]
  refine (mem_loadedForecast_iff hserves hrun f).trans ?_
  constructor
  · rintro ⟨r, hr, rfl, d, hday, -, hwin⟩
    exact ⟨hr, d, hday, hwin⟩
  · rintro ⟨hf, d, hday, hwin⟩
    have hfail : ¬ Failed s d := by
      rintro ⟨e, he⟩
      rw [hok] at he
      cases he
    exact ⟨⟨f.startTime, f.publishTime, f.generationMw⟩, hf, rfl, d, hday, hfail, hwin⟩

section Selection

variable {ingested history : WindForecast}

/-- What is selected in the history lies in a window, if the publishes outside are superseded. -/
theorem MissedAreSuperseded.inWindow (hsup : MissedAreSuperseded cfg history) (hh : 0 ≤ h)
    (hh48 : h ≤ 48) {f : ForecastRow} (ht : IsSlot cfg f.startTime)
    (hsel : IsSelected history h f) :
    InWindow cfg f.publishTime := by
  by_contra hout
  obtain ⟨f', hf', hslot, hlt, hle⟩ :=
    hsup f hsel.mem ht (hsel.eligible.le_startTime hh) hout
  have hel : f'.Eligible h := eligible_of_le hh48 (by rwa [hslot])
  exact (hsel.latest f' hf' hslot hel).not_gt hlt

/-- If the publishes missed are superseded, the same forecasts are selected in the ingested table
and in the history. -/
theorem IngestedFrom.isSelected_iff (hing : IngestedFrom cfg ingested history)
    (hsup : MissedAreSuperseded cfg history) (hh : 0 ≤ h) (hh48 : h ≤ 48) {f : ForecastRow}
    (ht : IsSlot cfg f.startTime) : IsSelected ingested h f ↔ IsSelected history h f := by
  have hsub : ingested.rowSet ⊆ history.rowSet := fun f' hf' => ((hing f').mp hf').1
  have hkeep : ∀ g, IsSlot cfg g.startTime → IsSelected history h g → IsSelected ingested h g :=
    fun g hg hsel => hsel.of_subset hsub
      ((hing g).mpr ⟨hsel.mem, hsup.inWindow hh hh48 hg hsel⟩)
  refine ⟨fun hsel => ?_, hkeep f ht⟩
  obtain ⟨g, hg, hslot⟩ := exists_isSelected (hsub hsel.mem) hsel.eligible
  rwa [isSelected_unique hsel (hkeep g (hslot ▸ ht) hg) hslot.symm]

/-- If the publishes missed are superseded, the API answers as from the history. -/
theorem IngestedFrom.answersAsHistory (hing : IngestedFrom cfg ingested history)
    (hsup : MissedAreSuperseded cfg history) : AnswersAsHistory cfg ingested history := by
  rintro t ht h hh hh48 conn conn' rfl rfl hzone start stop
  have hbind : ∀ x : Datetime, conn.bind x = conn'.bind x := fun x => by
    rw [Conn.bind, Conn.bind, hzone]
  ext p
  rw [forecastAt_eq_some, forecastAt_eq_some, hbind, hbind]
  refine and_congr_right fun _ => exists_congr fun f => and_congr_left fun hf => ?_
  exact hing.isSelected_iff hsup hh hh48 (hf.1.symm ▸ ht)

end Selection

/-- 0001-01-01T00:00:00+00:00. -/
def earliest : Datetime := .ofFields 1 1 1 0 0 0 0 (some 0) (by decide)

/-- 9999-12-31T23:59:59.999999+00:00. -/
def latest : Datetime := .ofFields 9999 12 31 23 59 59 999999 (some 0) (by decide)

/-- The widest window contains every slot. -/
theorem slot_mem_window (ht : IsSlot cfg t) (conn : Conn) :
    conn.bind earliest ≤ t ∧ t ≤ conn.bind latest := by
  have hlo : conn.bind earliest = -719162 * 86400000000 := by
    show earliest.instantIn conn.timeZone = _
    rw [Datetime.instantIn_aware rfl _ 0]
    decide
  have hhi : conn.bind latest = 2932897 * 86400000000 - 1 := by
    show latest.instantIn conn.timeZone = _
    rw [Datetime.instantIn_aware rfl _ 0]
    decide
  have hcal := cfg.calendar
  obtain ⟨k, hk, hlast⟩ := ht
  rw [hlo, hhi]
  simp only [minDate, maxDate] at hcal
  simp only [midnight, microsPerDay, microsPerHour, microsPerSecond] at hk hlast
  constructor <;> lia

section Necessity

variable {ingested history : WindForecast}

/-- When the API answers as from the history, a publish selected there was published at the time of
one of the ingested table. -/
theorem AnswersAsHistory.exists_mem (hans : AnswersAsHistory cfg ingested history) (hh : 0 ≤ h)
    (hh48 : h ≤ 48) {g : ForecastRow} (ht : IsSlot cfg g.startTime)
    (hsel : IsSelected history h g) :
    ∃ g' ∈ ingested, g'.publishTime = g.publishTime := by
  have hanswer := hans g.startTime ht h hh hh48 ⟨⟨.empty, ingested⟩, 0⟩ ⟨⟨.empty, history⟩, 0⟩ rfl
    rfl rfl earliest latest
  have hhist : forecastAt ⟨⟨.empty, history⟩, 0⟩ earliest latest h g.startTime
      = some g.toHorizonForecast :=
    forecastAt_eq_some.mpr ⟨slot_mem_window ht _, g, hsel, rfl, rfl⟩
  obtain ⟨-, g', hsel', -, heq⟩ := forecastAt_eq_some.mp (hanswer.trans hhist)
  exact ⟨g', hsel'.mem, congrArg HorizonForecast.publishTime heq⟩

/-- If the API answers as from the history, every publish outside the windows is superseded: at the
horizon of its own lead time, or of 48 hours if that is shorter, the history would answer with it.
-/
theorem IngestedFrom.missedAreSuperseded (hing : IngestedFrom cfg ingested history)
    (hans : AnswersAsHistory cfg ingested history) : MissedAreSuperseded cfg history := by
  intro f hf ht hpast hout
  have hinside : ∀ {h : ℚ} {g : ForecastRow}, 0 ≤ h → h ≤ 48 → IsSelected history h g →
      g.startTime = f.startTime → InWindow cfg g.publishTime := by
    intro h g hh hh48 hsel hslot
    obtain ⟨g', hmem, hpub⟩ := hans.exists_mem hh hh48 (hslot ▸ ht) hsel
    exact hpub ▸ ((hing g').mp hmem).2
  by_cases hlead : f.publishTime ≤ f.startTime - 48 * microsPerHour
  · -- at 48 hours the history answers with a publish inside the windows, so with a later one
    have hel : f.Eligible 48 := eligible_of_le le_rfl hlead
    obtain ⟨g, hsel, hslot⟩ := exists_isSelected hf hel
    refine ⟨g, hsel.mem, hslot, lt_of_le_of_ne (hsel.latest f hf hslot.symm hel) ?_, ?_⟩
    · rintro heq
      exact hout (heq ▸ hinside (by norm_num) le_rfl hsel hslot)
    · have := hsel.eligible
      rw [ForecastRow.Eligible, hours, hslot] at this
      exact_mod_cast this
  · -- at its own lead time the history answers with this very publish
    have hpos : (0 : ℚ) < microsPerHour := by exact_mod_cast microsPerHour_pos
    have hel : f.Eligible (((f.startTime : ℚ) - f.publishTime) / microsPerHour) :=
      (le_publishTime_iff_eligible rfl).mpr le_rfl
    obtain ⟨g, hsel, hslot⟩ := exists_isSelected hf hel
    have heq : g.publishTime = f.publishTime :=
      le_antisymm ((le_publishTime_iff_eligible hslot).mp hsel.eligible)
        (hsel.latest f hf hslot.symm hel)
    refine absurd (heq ▸ hinside ?_ ?_ hsel hslot) hout
    · have : (f.publishTime : ℚ) ≤ f.startTime := by exact_mod_cast hpast
      exact div_nonneg (by linarith) hpos.le
    · have : (f.startTime : ℚ) - 48 * microsPerHour < f.publishTime := by
        exact_mod_cast not_le.mp hlead
      rw [div_le_iff₀ hpos]
      linarith

end Necessity

/-- **When ingestion is complete for the API.** After a run without exceptions from an empty table,
the API answers every slot of the range, at every horizon from 0 to 48 hours, as it would from the
whole history of publishes, exactly when every publish in no window of the run is superseded. -/
theorem answersAsHistory_iff {world : Date → BatchEnv} {db : Database} {stats : IngestStats}
    {s : IngestState} {history : WindForecast}
    (hserves : ServesHistory world {r | r.toRow ∈ history}) (hempty : db.windForecast.rows = [])
    (hrun : runIngestion cfg world false db = .ok (stats, s)) (hok : s.errors = []) :
    AnswersAsHistory cfg s.db.windForecast history ↔ MissedAreSuperseded cfg history := by
  have hing := ingestedFrom_of_run hserves hempty hrun hok
  exact ⟨hing.missedAreSuperseded, hing.answersAsHistory⟩

/-! ### Two histories of one forecast -/

/-- A world that serves a history of forecasts and no actuals. -/
def historyWorld (history : WindForecast) (_ : Date) : BatchEnv where
  fuelhh := fun _ => .ok []
  windfor := fun params => .ok ((history.rows.filter fun f =>
      params.publishDateTimeFrom ≤ f.publishTime ∧ f.publishTime ≤ params.publishDateTimeTo).map
    fun f => ⟨f.startTime, f.publishTime, f.generationMw⟩)
  saveParquet := fun _ _ => .ok ()
  insertActual := .ok ()
  insertForecast := .ok ()

theorem servesHistory_historyWorld (history : WindForecast) :
    ServesHistory (historyWorld history) {r | r.toRow ∈ history} := by
  intro d params records hfetch r
  obtain rfl := Except.ok.inj hfetch
  simp only [List.mem_map, List.mem_filter, decide_eq_true_eq, KeyedTable.mem_rows]
  constructor
  · rintro ⟨f, ⟨hf, hwin⟩, rfl⟩
    exact ⟨hf, hwin⟩
  · rintro ⟨hr, hwin⟩
    exact ⟨r.toRow, ⟨hr, hwin⟩, rfl⟩

/-- The history of one forecast of 2024-01-01T00:00Z. -/
def singleForecast (publishTime : Instant) : WindForecast :=
  ⟨[⟨midnight 19723, publishTime, 5⟩], List.nodup_singleton _⟩

/-- The forecast published on 2023-12-31 is answered. -/
theorem answersAsHistory_iff_singleForecast :
    ∃ stats s, runIngestion exampleConfig (historyWorld (singleForecast (midnight 19722))) false
        .empty = .ok (stats, s) ∧
      AnswersAsHistory exampleConfig s.db.windForecast (singleForecast (midnight 19722)) := by
  refine ⟨_, _, rfl, (answersAsHistory_iff (servesHistory_historyWorld _) rfl rfl rfl).mpr ?_⟩
  intro f hf ht hpast hout
  rw [inWindow_iff_of_daily rfl ht hpast, List.mem_singleton.mp hf] at hout
  exact absurd (by decide) hout

/-- The forecast published on 2023-12-29, three days before its slot, is lost although nothing
fails. -/
theorem not_answersAsHistory_singleForecast :
    ServesHistory (historyWorld (singleForecast (midnight 19720)))
        {r | r.toRow ∈ singleForecast (midnight 19720)} ∧
      ∃ stats s, runIngestion exampleConfig (historyWorld (singleForecast (midnight 19720))) false
          .empty = .ok (stats, s) ∧ s.errors = [] ∧
        ¬ AnswersAsHistory exampleConfig s.db.windForecast (singleForecast (midnight 19720)) := by
  obtain ⟨stats, s, hrun, hok⟩ : ∃ stats s, runIngestion exampleConfig
      (historyWorld (singleForecast (midnight 19720))) false .empty = .ok (stats, s) ∧
        s.errors = [] := ⟨_, _, rfl, rfl⟩
  refine ⟨servesHistory_historyWorld _, stats, s, hrun, hok, fun hans => ?_⟩
  have hing := ingestedFrom_of_run (servesHistory_historyWorld _) rfl hrun hok
  have hslot : IsSlot exampleConfig (midnight 19723) := ⟨0, by decide, by decide⟩
  -- the forecast is outside the windows, and nothing supersedes it
  obtain ⟨f', hf', -, hlt, -⟩ := hing.missedAreSuperseded hans _ List.mem_cons_self hslot
    (by decide) (by rw [inWindow_iff_of_daily rfl hslot (by decide)]; decide)
  rw [List.mem_singleton.mp hf'] at hlt
  exact lt_irrefl _ hlt

end WindSight
