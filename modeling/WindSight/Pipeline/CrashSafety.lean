import WindSight.Pipeline.Command

/-! # Crash safety

The commands of an operator over one consistent snapshot of the API: runs of `main` that fail in
places, that are killed at any moment, and `drop_tables`. At every moment every row of the tables
comes from the snapshot, and was loaded after its Parquet file had been completed
(`archived_before_loaded`); the invariant is one of the log of effects, since a later save may cut
the file off again. A run of `main` that is not dry and exits with 0 leaves exactly the rows of the
snapshot, and all their files, whatever was there before (`main_exit_zero`). -/

namespace WindSight

open Interruption (perform perform_append record perform_record perform_record_eq Throughout
  throughout_nil throughout_cons throughout_append throughout_flatMap)

/-! ## What a snapshot has for a day -/

namespace ApiSnapshot

/-- The frame of actuals of a day. -/
def actualDay (api : ApiSnapshot) (d : Date) : List ActualRow :=
  actualFrame (api.fuelhh (fuelhhParams d))

/-- The frame of forecasts of a day. -/
def forecastDay (api : ApiSnapshot) (d : Date) : List ForecastRow :=
  forecastFrame (api.windfor (windforParams d))

/-- The rows of actuals of a set of days. -/
def actualOf (api : ApiSnapshot) (days : Set Date) : Set ActualRow :=
  {x | ∃ d ∈ days, x ∈ api.actualDay d}

/-- The rows of forecasts of a set of days. -/
def forecastOf (api : ApiSnapshot) (days : Set Date) : Set ForecastRow :=
  {x | ∃ d ∈ days, x ∈ api.forecastDay d}

theorem actualOf_subset (api : ApiSnapshot) (days : Set Date) :
    api.actualOf days ⊆ api.actualRows := fun _ ⟨_, _, hx⟩ => ⟨_, hx⟩

theorem forecastOf_subset (api : ApiSnapshot) (days : Set Date) :
    api.forecastOf days ⊆ api.forecastRows := fun _ ⟨_, _, hx⟩ => ⟨_, hx⟩

/-- What a served batch fetches. -/
theorem Serves.fetched_actual {api : ApiSnapshot} {world : Date → BatchEnv} (h : api.Serves world)
    {d : Date} {df : List ActualRow}
    (hfetch : ((world d).fuelhh (fuelhhParams d)).map actualFrame = .ok df) :
    df = api.actualDay d := by
  obtain ⟨records, hrecords, rfl⟩ := map_eq_ok.mp hfetch
  rw [h.fuelhh hrecords, actualDay]

theorem Serves.fetched_forecast {api : ApiSnapshot} {world : Date → BatchEnv} (h : api.Serves world)
    {d : Date} {df : List ForecastRow}
    (hfetch : ((world d).windfor (windforParams d)).map forecastFrame = .ok df) :
    df = api.forecastDay d := by
  obtain ⟨records, hrecords, rfl⟩ := map_eq_ok.mp hfetch
  rw [h.windfor hrecords, forecastDay]

end ApiSnapshot

/-- The days the batches of a run start at. -/
def MainRun.days (m : MainRun) : Set Date := {d | IsBatchDay m.run.cfg d}

/-- A command of a history over a snapshot and a set of days. -/
def Command.Over (api : ApiSnapshot) (days : Set Date) : Command → Prop
  | .main m _ => api.Serves m.run.world ∧ m.days ⊆ days
  | .dropTables _ => True

/-! ## Every moment of a batch -/

/-- A part of a batch keeps what its writes keep, and what an insert keeps after a complete write.
The states are disks, or logs of effects. -/
theorem throughout_phaseEffects {σ ρ : Type} {apply : σ → Effect → σ} {name : String}
    {frame : List ρ → Frame} {insert : List ρ → Effect} {fetched : Except String (List ρ)}
    {save inserted : Except String Unit} {d : Date} {P : σ → Prop}
    (hopen : ∀ s, P s → P (apply s (.openParquet name d)))
    (hremove : ∀ s, P s → P (apply s (.removeParquet name d)))
    (hclose : ∀ s df, fetched = .ok df → P s → P (apply s (.closeParquet name d (frame df))))
    (hinsert : ∀ s df, fetched = .ok df → P (apply s (.closeParquet name d (frame df))) →
      P (apply (apply s (.closeParquet name d (frame df))) (insert df)))
    (opened dryRun : Bool) {s : σ} (h : P s) :
    Throughout apply P s
      (phaseEffects name frame insert fetched opened save inserted dryRun d) := by
  rcases fetched with e | _ | ⟨row, df⟩
  · exact throughout_nil.mpr h
  · exact throughout_nil.mpr h
  · have htorn := hopen s h
    cases save with
    | error e =>
      cases opened with
      | true =>
        refine throughout_cons.mpr ⟨h, throughout_cons.mpr ⟨htorn, ?_⟩⟩
        exact throughout_nil.mpr (hremove _ htorn)
      | false => exact throughout_nil.mpr h
    | ok _ =>
      have hsaved := hclose _ (row :: df) rfl htorn
      have hloaded := hinsert _ (row :: df) rfl hsaved
      have hsave : Throughout apply P s
          [.openParquet name d, .closeParquet name d (frame (row :: df))] :=
        throughout_cons.mpr ⟨h, throughout_cons.mpr ⟨htorn, throughout_nil.mpr hsaved⟩⟩
      cases inserted with
      | error e => exact hsave
      | ok _ =>
        cases dryRun with
        | true => exact hsave
        | false =>
          refine throughout_append.mpr ⟨hsave, ?_⟩
          exact throughout_cons.mpr ⟨hsaved, throughout_nil.mpr hloaded⟩

/-! ## Files over a log of effects -/

/-- The disk after a log of effects. -/
def diskAfter (log : List Effect) : Storage := perform Storage.apply .fresh log

/-- What an effect does to a file: nothing, or it opens, removes or closes this file. -/
theorem parquet_apply (s : Storage) (e : Effect) (name : String) (d : Date) :
    (s.apply e).parquet name d = s.parquet name d ∨
      (e = .openParquet name d ∧ (s.apply e).parquet name d = .torn) ∨
      (e = .removeParquet name d ∧ (s.apply e).parquet name d = .absent) ∨
      ∃ frame, e = .closeParquet name d frame ∧
        (s.apply e).parquet name d = .complete frame := by
  by_cases hfile : ∃ name' d', (e = .openParquet name' d' ∨ e = .removeParquet name' d' ∨
      ∃ frame, e = .closeParquet name' d' frame) ∧ name = name' ∧ d = d'
  · obtain ⟨_, _, rfl | rfl | ⟨frame, rfl⟩, rfl, rfl⟩ := hfile
    · exact Or.inr (Or.inl ⟨rfl, by simp [Storage.apply]⟩)
    · exact Or.inr (Or.inr (Or.inl ⟨rfl, by simp [Storage.apply]⟩))
    · exact Or.inr (Or.inr (Or.inr ⟨frame, rfl, by simp [Storage.apply]⟩))
  · left
    cases e with
    | createActual | createForecast | dropActual | dropForecast | insertActual | insertForecast =>
      rfl
    | openParquet name' d' | removeParquet name' d' | closeParquet name' d' frame =>
      exact if_neg fun h => hfile ⟨name', d', by simp, h⟩

/-- In a log, the frame of a day is inserted while its file is complete. The file is complete at the
end, unless a later save has been killed or has raised while it wrote the file. -/
def ArchivedBefore (log : List Effect) (insert : Effect) (name : String) (d : Date)
    (frame : Frame) : Prop :=
  ∃ before later, log = before ++ insert :: later ∧
    (diskAfter before).parquet name d = .complete frame ∧
    ((diskAfter log).parquet name d = .complete frame ∨
      (.openParquet name d ∈ later ∧ (diskAfter log).parquet name d = .torn) ∨
      (.removeParquet name d ∈ later ∧ (diskAfter log).parquet name d = .absent))

section ArchivedBefore

variable {log : List Effect} {insert : Effect} {name : String} {d : Date} {frame : Frame}

/-- An insert over a complete file. -/
theorem archivedBefore_record (hfile : (diskAfter log).parquet name d = .complete frame)
    (hinsert : ((diskAfter log).apply insert).parquet = (diskAfter log).parquet) :
    ArchivedBefore (record log insert) insert name d frame := by
  refine ⟨log, [], rfl, hfile, Or.inl ?_⟩
  rw [diskAfter, perform_record_eq]
  exact (congrFun (congrFun hinsert name) d).trans hfile

/-- An effect after the insert, which writes no other frame. -/
theorem ArchivedBefore.step (h : ArchivedBefore log insert name d frame) (e : Effect)
    (hframe : ∀ frame', e = .closeParquet name d frame' → frame' = frame) :
    ArchivedBefore (record log e) insert name d frame := by
  obtain ⟨before, later, rfl, hbefore, hfile⟩ := h
  refine ⟨before, later ++ [e], by simp [Interruption.record], hbefore, ?_⟩
  rw [diskAfter, perform_record_eq]
  rcases parquet_apply (diskAfter (before ++ insert :: later)) e name d with
    hsame | ⟨rfl, htorn⟩ | ⟨rfl, habsent⟩ | ⟨frame', rfl, hcomplete⟩
  · rw [← diskAfter, hsame]
    refine hfile.imp id (Or.imp (And.imp ?_ id) (And.imp ?_ id)) <;>
      exact List.mem_append_left [e]
  · exact Or.inr (Or.inl ⟨by simp, htorn⟩)
  · exact Or.inr (Or.inr ⟨by simp, habsent⟩)
  · obtain rfl := hframe frame' rfl
    exact Or.inl hcomplete

end ArchivedBefore

/-! ## Archived rows -/

/-- A Parquet file of a snapshot holds the frame of its day. -/
def Effect.Writes (api : ApiSnapshot) (e : Effect) : Prop :=
  ∀ name d frame, e = .closeParquet name d frame →
    (name = "actual" ∧ frame = .actual (api.actualDay d)) ∨
      (name = "forecast" ∧ frame = .forecast (api.forecastDay d))

/-- Every row of the tables is one of the snapshot for a day whose frame has been inserted while its
file was complete. -/
structure Archived (api : ApiSnapshot) (days : Set Date) (log : List Effect) : Prop where
  actual : ∀ t ∈ (diskAfter log).actualGeneration, ∀ x ∈ t, ∃ d ∈ days, x ∈ api.actualDay d ∧
    ArchivedBefore log (.insertActual (api.actualDay d)) "actual" d (.actual (api.actualDay d))
  forecast : ∀ t ∈ (diskAfter log).windForecast, ∀ x ∈ t, ∃ d ∈ days, x ∈ api.forecastDay d ∧
    ArchivedBefore log (.insertForecast (api.forecastDay d)) "forecast" d
      (.forecast (api.forecastDay d))

namespace Archived

variable {api : ApiSnapshot} {days : Set Date} {log : List Effect}

/-- **One effect.** A row of the tables was there before, or is inserted over the complete file of
its day. -/
theorem step (h : Archived api days log) {e : Effect} (hwrites : e.Writes api)
    (hactual : ∀ t ∈ ((diskAfter log).apply e).actualGeneration, ∀ x ∈ t,
      (∃ t' ∈ (diskAfter log).actualGeneration, x ∈ t') ∨ ∃ d ∈ days, x ∈ api.actualDay d ∧
        e = .insertActual (api.actualDay d) ∧
        (diskAfter log).parquet "actual" d = .complete (.actual (api.actualDay d)))
    (hforecast : ∀ t ∈ ((diskAfter log).apply e).windForecast, ∀ x ∈ t,
      (∃ t' ∈ (diskAfter log).windForecast, x ∈ t') ∨ ∃ d ∈ days, x ∈ api.forecastDay d ∧
        e = .insertForecast (api.forecastDay d) ∧
        (diskAfter log).parquet "forecast" d = .complete (.forecast (api.forecastDay d))) :
    Archived api days (record log e) := by
  constructor
  · intro t ht x hx
    rw [diskAfter, perform_record_eq] at ht
    rcases hactual t ht x hx with ⟨t', ht', hx'⟩ | ⟨d, hd, hxd, rfl, hfile⟩
    · obtain ⟨d, hd, hxd, harchived⟩ := h.actual t' ht' x hx'
      refine ⟨d, hd, hxd, harchived.step e fun frame he => ?_⟩
      rcases hwrites _ _ _ he with ⟨-, hframe⟩ | ⟨hname, -⟩
      · exact hframe
      · exact absurd hname (by decide)
    · exact ⟨d, hd, hxd, archivedBefore_record hfile rfl⟩
  · intro t ht x hx
    rw [diskAfter, perform_record_eq] at ht
    rcases hforecast t ht x hx with ⟨t', ht', hx'⟩ | ⟨d, hd, hxd, rfl, hfile⟩
    · obtain ⟨d, hd, hxd, harchived⟩ := h.forecast t' ht' x hx'
      refine ⟨d, hd, hxd, harchived.step e fun frame he => ?_⟩
      rcases hwrites _ _ _ he with ⟨hname, -⟩ | ⟨-, hframe⟩
      · exact absurd hname (by decide)
      · exact hframe
    · exact ⟨d, hd, hxd, archivedBefore_record hfile rfl⟩

/-- An effect that adds no rows. -/
theorem step_of_subset (h : Archived api days log) {e : Effect} (hwrites : e.Writes api)
    (hactual : ∀ t ∈ ((diskAfter log).apply e).actualGeneration, ∀ x ∈ t,
      ∃ t' ∈ (diskAfter log).actualGeneration, x ∈ t')
    (hforecast : ∀ t ∈ ((diskAfter log).apply e).windForecast, ∀ x ∈ t,
      ∃ t' ∈ (diskAfter log).windForecast, x ∈ t') : Archived api days (record log e) :=
  h.step hwrites (fun t ht x hx => Or.inl (hactual t ht x hx))
    fun t ht x hx => Or.inl (hforecast t ht x hx)

/-- An effect that leaves the tables as they are. -/
theorem step_of_sameTables (h : Archived api days log) {e : Effect} (hwrites : e.Writes api)
    (hactual : ((diskAfter log).apply e).actualGeneration = (diskAfter log).actualGeneration)
    (hforecast : ((diskAfter log).apply e).windForecast = (diskAfter log).windForecast) :
    Archived api days (record log e) :=
  h.step_of_subset hwrites (fun t ht _ hx => ⟨t, hactual ▸ ht, hx⟩)
    fun t ht _ hx => ⟨t, hforecast ▸ ht, hx⟩

/-- The writes of the file of the actuals of a day. -/
theorem writes_actual (api : ApiSnapshot) (d : Date) :
    (Effect.closeParquet "actual" d (.actual (api.actualDay d))).Writes api := by
  rintro name d' frame h
  obtain ⟨rfl, rfl, rfl⟩ := Effect.closeParquet.inj h
  exact Or.inl ⟨rfl, rfl⟩

theorem writes_forecast (api : ApiSnapshot) (d : Date) :
    (Effect.closeParquet "forecast" d (.forecast (api.forecastDay d))).Writes api := by
  rintro name d' frame h
  obtain ⟨rfl, rfl, rfl⟩ := Effect.closeParquet.inj h
  exact Or.inr ⟨rfl, rfl⟩

/-- The moments of the actuals of a day. -/
theorem actualEffects (h : Archived api days log) {world : Date → BatchEnv}
    (hserves : api.Serves world) (opened : String → Date → Bool) (dryRun : Bool) {d : Date}
    (hd : d ∈ days) :
    Throughout record (Archived api days) log
      (WindSight.actualEffects (world d) opened dryRun d) := by
  refine throughout_phaseEffects (fun l h => ?_) (fun l h => ?_) (fun l df hfetch h => ?_)
    (fun l df hfetch h => ?_) _ _ h
  · exact h.step_of_sameTables (fun _ _ _ he => by cases he) rfl rfl
  · exact h.step_of_sameTables (fun _ _ _ he => by cases he) rfl rfl
  · obtain rfl := hserves.fetched_actual hfetch
    exact h.step_of_sameTables (writes_actual api d) rfl rfl
  · obtain rfl := hserves.fetched_actual hfetch
    refine h.step (fun _ _ _ he => by cases he) (fun t ht x hx => ?_)
      fun t ht x hx => Or.inl ⟨t, ht, hx⟩
    obtain ⟨t', ht', rfl⟩ := Option.map_eq_some_iff.mp ht
    refine (KeyedTable.mem_or_mem_of_mem_upsertAll hx).imp (fun hx => ⟨t', ht', hx⟩) fun hx => ?_
    exact ⟨d, hd, hx, rfl, by simp [diskAfter, Storage.apply]⟩

/-- The moments of the forecasts of a day. -/
theorem forecastEffects (h : Archived api days log) {world : Date → BatchEnv}
    (hserves : api.Serves world) (opened : String → Date → Bool) (dryRun : Bool) {d : Date}
    (hd : d ∈ days) :
    Throughout record (Archived api days) log
      (WindSight.forecastEffects (world d) opened dryRun d) := by
  refine throughout_phaseEffects (fun l h => ?_) (fun l h => ?_) (fun l df hfetch h => ?_)
    (fun l df hfetch h => ?_) _ _ h
  · exact h.step_of_sameTables (fun _ _ _ he => by cases he) rfl rfl
  · exact h.step_of_sameTables (fun _ _ _ he => by cases he) rfl rfl
  · obtain rfl := hserves.fetched_forecast hfetch
    exact h.step_of_sameTables (writes_forecast api d) rfl rfl
  · obtain rfl := hserves.fetched_forecast hfetch
    refine h.step (fun _ _ _ he => by cases he) (fun t ht x hx => Or.inl ⟨t, ht, hx⟩)
      fun t ht x hx => ?_
    obtain ⟨t', ht', rfl⟩ := Option.map_eq_some_iff.mp ht
    refine (KeyedTable.mem_or_mem_of_mem_upsertAll hx).imp (fun hx => ⟨t', ht', hx⟩) fun hx => ?_
    exact ⟨d, hd, hx, rfl, by simp [diskAfter, Storage.apply]⟩

/-- The moments of a batch. -/
theorem batchEffects (h : Archived api days log) {world : Date → BatchEnv}
    (hserves : api.Serves world) (opened : String → Date → Bool) (dryRun : Bool) {d : Date}
    (hd : d ∈ days) :
    Throughout record (Archived api days) log (WindSight.batchEffects world opened dryRun d) := by
  rw [WindSight.batchEffects, throughout_append]
  have hactual := h.actualEffects hserves opened dryRun hd
  refine ⟨hactual, ?_⟩
  cases (actualOutcome (world d) dryRun d).failure with
  | some e => exact throughout_nil.mpr hactual.perform
  | none => exact hactual.perform.forecastEffects hserves opened dryRun hd

/-- A row of a table that may have to be created is in the table there was. -/
theorem mem_getD_empty {ρ κ : Type} {key : ρ → κ} {table : Option (KeyedTable key)} {x : ρ}
    (h : x ∈ table.getD .empty) : ∃ t ∈ table, x ∈ t := by
  cases table with
  | none => exact absurd h (KeyedTable.notMem_empty x)
  | some t => exact ⟨t, rfl, h⟩

/-- The moments of `init_database`: new tables are empty. -/
theorem initEffects (h : Archived api days log) (m : MainRun) :
    Throughout record (Archived api days) log m.initEffects := by
  have hactual : Archived api days (record log .createActual) := by
    refine h.step_of_subset (fun _ _ _ he => by cases he) (fun t ht x hx => ?_)
      fun t ht x hx => ⟨t, ht, hx⟩
    obtain rfl := Option.some.inj ht
    exact mem_getD_empty hx
  have hforecast : Archived api days (record (record log .createActual) .createForecast) := by
    refine hactual.step_of_subset (fun _ _ _ he => by cases he) (fun t ht x hx => ⟨t, ht, hx⟩)
      fun t ht x hx => ?_
    obtain rfl := Option.some.inj ht
    exact mem_getD_empty hx
  rw [MainRun.initEffects]
  split
  · exact throughout_nil.mpr h
  · exact throughout_cons.mpr ⟨h, throughout_cons.mpr ⟨hactual, throughout_nil.mpr hforecast⟩⟩

/-- The moments of `main`. -/
theorem mainEffects (h : Archived api days log) {m : MainRun} (hserves : api.Serves m.run.world)
    (hdays : m.days ⊆ days) : Throughout record (Archived api days) log m.effects := by
  have hinit := h.initEffects m
  rw [MainRun.effects, MainRun.loopEffects, throughout_append]
  refine ⟨hinit, ?_⟩
  cases hbatches : generateDateBatches m.run.cfg.dataStartDate m.run.cfg.dataEndDate
    m.run.cfg.batchSizeDays with
  | error e => exact throughout_nil.mpr hinit.perform
  | ok batches =>
    refine throughout_flatMap (fun b hb l hl => ?_) hinit.perform
    refine hl.batchEffects hserves m.opened m.run.dryRun (hdays ?_)
    exact (mem_generateDateBatches hbatches b.1).mp (List.mem_map_of_mem hb)

/-- The moments of `drop_tables`. -/
theorem dropEffects (h : Archived api days log) :
    Throughout record (Archived api days) log [.dropActual, .dropForecast] := by
  have hactual : Archived api days (record log .dropActual) :=
    h.step_of_subset (fun _ _ _ he => by cases he) (fun t ht => by cases ht)
      fun t ht x hx => ⟨t, ht, hx⟩
  have hforecast : Archived api days (record (record log .dropActual) .dropForecast) :=
    hactual.step_of_subset (fun _ _ _ he => by cases he) (fun t ht x hx => ⟨t, ht, hx⟩)
      fun t ht => by cases ht
  exact throughout_cons.mpr ⟨h, throughout_cons.mpr ⟨hactual, throughout_nil.mpr hforecast⟩⟩

/-- A command, killed or not. -/
theorem command (h : Archived api days log) {c : Command} (hc : c.Over api days) :
    Archived api days (log ++ c.effects) := by
  have hall : Throughout record (Archived api days) log c.allEffects := by
    cases c with
    | main m killed => exact h.mainEffects hc.1 hc.2
    | dropTables killed => exact h.dropEffects
  rw [Command.effects, ← perform_record]
  cases c.killed with
  | some n => exact hall n
  | none => exact hall.perform

/-- A history of commands. -/
theorem history (h : Archived api days log) {commands : List Command}
    (hcommands : ∀ c ∈ commands, c.Over api days) :
    Archived api days (log ++ Command.history commands) := by
  induction commands generalizing log with
  | nil => rwa [Command.history, List.flatMap_nil, List.append_nil]
  | cons c commands ih =>
    rw [Command.history, List.flatMap_cons, ← List.append_assoc]
    exact ih (h.command (hcommands c List.mem_cons_self))
      fun c' hc' => hcommands c' (List.mem_cons_of_mem _ hc')

end Archived

/-- Before the first command there is nothing to archive. -/
theorem archived_nil (api : ApiSnapshot) (days : Set Date) : Archived api days [] where
  actual := fun t ht => by cases ht
  forecast := fun t ht => by cases ht

/-! ### Torn files -/

/-- The disk has no torn file. -/
def Storage.Whole (s : Storage) : Prop := ∀ name d, s.parquet name d ≠ .torn

namespace Storage.Whole

variable {s : Storage}

/-- A part of a batch that is not killed closes or removes the file it opens. -/
theorem phaseEffects (h : s.Whole) {ρ : Type} (name : String) (frame : List ρ → Frame)
    {insert : List ρ → Effect}
    (hinsert : ∀ (s : Storage) df, (s.apply (insert df)).parquet = s.parquet)
    (fetched : Except String (List ρ)) (opened : Bool) (save inserted : Except String Unit)
    (dryRun : Bool) (d : Date) : (perform Storage.apply s
      (WindSight.phaseEffects name frame insert fetched opened save inserted dryRun d)).Whole := by
  have hset : ∀ file, file ≠ .torn →
      ((s.setParquet name d .torn).setParquet name d file).Whole := by
    intro file hfile name' d'
    rw [setParquet_parquet, setParquet_parquet]
    split
    · exact hfile
    · exact h name' d'
  rcases fetched with e | _ | ⟨row, df⟩
  · exact h
  · exact h
  · cases save with
    | error e =>
      cases opened with
      | true => exact hset .absent (by simp)
      | false => exact h
    | ok _ =>
      have hsaved := hset (.complete (frame (row :: df))) (by simp)
      cases inserted with
      | error e => exact hsaved
      | ok _ =>
        cases dryRun with
        | true => exact hsaved
        | false =>
          intro name' d'
          exact (congrFun (congrFun (hinsert _ _) name') d').trans_ne (hsaved name' d')

theorem batchEffects (h : s.Whole) (world : Date → BatchEnv) (opened : String → Date → Bool)
    (dryRun : Bool) (d : Date) :
    (perform Storage.apply s (WindSight.batchEffects world opened dryRun d)).Whole := by
  have hactual : (perform Storage.apply s
      (WindSight.actualEffects (world d) opened dryRun d)).Whole :=
    h.phaseEffects _ _ (fun _ _ => rfl) _ _ _ _ _ _
  rw [WindSight.batchEffects, perform_append]
  cases (actualOutcome (world d) dryRun d).failure with
  | some e => exact hactual
  | none => exact hactual.phaseEffects _ _ (fun _ _ => rfl) _ _ _ _ _ _

theorem mainEffects (h : s.Whole) (m : MainRun) : (perform Storage.apply s m.effects).Whole := by
  have hinit : (perform Storage.apply s m.initEffects).Whole := by
    rw [MainRun.initEffects]
    split
    · exact h
    · exact h
  rw [MainRun.effects, MainRun.loopEffects, perform_append]
  cases generateDateBatches m.run.cfg.dataStartDate m.run.cfg.dataEndDate
    m.run.cfg.batchSizeDays with
  | error e => exact hinit
  | ok batches =>
    generalize perform Storage.apply s m.initEffects = s' at hinit
    dsimp only
    induction batches generalizing s' with
    | nil => exact hinit
    | cons b batches ih =>
      rw [List.flatMap_cons, perform_append]
      exact ih _ (hinit.batchEffects _ _ _ _)

/-- Commands that are not killed tear no file. -/
theorem after (h : s.Whole) {commands : List Command} (hkilled : ∀ c ∈ commands, c.killed = none) :
    (s.after commands).Whole := by
  induction commands generalizing s with
  | nil => exact h
  | cons c commands ih =>
    rw [Storage.after, Command.history, List.flatMap_cons, perform_append, Command.effects,
      hkilled c List.mem_cons_self]
    refine ih ?_ fun c' hc' => hkilled c' (List.mem_cons_of_mem _ hc')
    cases c with
    | main m killed => exact h.mainEffects m
    | dropTables killed => exact h

end Storage.Whole

/-- **Archived before loaded.** Take any history of commands over a snapshot, each of which may fail
in places or be killed at any moment. Every row of the tables is one the snapshot has for a day
whose frame was inserted while the Parquet file of the day held it. The file holds it still, unless
a later save of the day was killed while it wrote the file, or raised then and removed it. Without
commands that are killed no file is torn. -/
theorem archived_before_loaded {api : ApiSnapshot} {days : Set Date} {commands : List Command}
    (h : ∀ c ∈ commands, c.Over api days) :
    let log := Command.history commands
    let s := Storage.fresh.after commands
    (∀ t ∈ s.actualGeneration, ∀ x ∈ t, ∃ d ∈ days, x ∈ api.actualDay d ∧
        ArchivedBefore log (.insertActual (api.actualDay d)) "actual" d
          (.actual (api.actualDay d))) ∧
      (∀ t ∈ s.windForecast, ∀ x ∈ t, ∃ d ∈ days, x ∈ api.forecastDay d ∧
        ArchivedBefore log (.insertForecast (api.forecastDay d)) "forecast" d
          (.forecast (api.forecastDay d))) ∧
      ((∀ c ∈ commands, c.killed = none) → ∀ name d, s.parquet name d ≠ .torn) := by
  have harchived : Archived api days (Command.history commands) := (archived_nil api days).history h
  have hfresh : Storage.fresh.Whole := fun _ _ h => by cases h
  exact ⟨harchived.actual, harchived.forecast, hfresh.after⟩

/-! ## A run that exits with 0 -/

section ExitZero

variable {api : ApiSnapshot} {m : MainRun} {db : Database}

/-- Exit code 0 means that the loop was reached and no batch raised. -/
theorem exitCode_eq_zero_iff :
    m.exitCode db = 0 ↔ ∃ stats state,
      runIngestion m.run.cfg m.run.world m.run.dryRun db = .ok (stats, state) ∧
        state.errors = [] := by
  rw [MainRun.exitCode]
  cases h : runIngestion m.run.cfg m.run.world m.run.dryRun db with
  | error e => simp
  | ok result =>
    obtain ⟨stats, state⟩ := result
    obtain ⟨batches, -, -, hstats⟩ := runIngestion_eq_ok h
    have herrors : stats.errors = state.errors.length := by rw [hstats]
    simp only [herrors, Nat.pos_iff_ne_zero, ne_eq, List.length_eq_zero_iff, gt_iff_lt]
    split
    · next hne => exact ⟨fun h => absurd h one_ne_zero, fun ⟨_, _, heq, hnil⟩ => by
        obtain ⟨-, rfl⟩ := Prod.mk.inj (Except.ok.inj heq)
        exact absurd hnil hne⟩
    · next hnil => exact ⟨fun _ => ⟨stats, state, rfl, not_not.mp hnil⟩, fun _ => rfl⟩

/-- A run without exceptions loads the rows the snapshot has for its days. -/
theorem mem_loaded_iff {stats : IngestStats} {state : IngestState}
    (hserves : api.Serves m.run.world) (hdry : m.run.dryRun = false)
    (h : runIngestion m.run.cfg m.run.world m.run.dryRun db = .ok (stats, state))
    (hok : state.errors = []) :
    (∀ x, x ∈ loadedActual state.log ↔ x ∈ api.actualOf m.days) ∧
      ∀ x, x ∈ loadedForecast state.log ↔ x ∈ api.forecastOf m.days := by
  have hsuccess : ∀ d ∈ m.days, (batchOutcome m.run.world false d).failure = none := fun d hd =>
    hdry ▸ success_of_errors_nil h hok hd
  have hlog : ∀ event, event ∈ state.log ↔
      ∃ d ∈ m.days, event ∈ (batchOutcome m.run.world false d).events := fun event =>
    hdry ▸ mem_log_iff h event
  constructor
  · intro x
    rw [mem_loadedActual]
    constructor
    · rintro ⟨df, hmem, hx⟩
      obtain ⟨d, hd, hevent⟩ := (hlog _).mp hmem
      obtain rfl := hserves.loadActual hevent
      exact ⟨d, hd, hx⟩
    · rintro ⟨d, hd, hx⟩
      obtain ⟨⟨records, hfetch, hload⟩, -⟩ := loads_of_success (hsuccess d hd)
      obtain rfl := hserves.fuelhh hfetch
      exact ⟨_, (hlog _).mpr ⟨d, hd, hload (List.ne_nil_of_mem hx)⟩, hx⟩
  · intro x
    rw [mem_loadedForecast]
    constructor
    · rintro ⟨df, hmem, hx⟩
      obtain ⟨d, hd, hevent⟩ := (hlog _).mp hmem
      obtain rfl := hserves.loadForecast hevent
      exact ⟨d, hd, hx⟩
    · rintro ⟨d, hd, hx⟩
      obtain ⟨-, records, hfetch, hload⟩ := loads_of_success (hsuccess d hd)
      obtain rfl := hserves.windfor hfetch
      exact ⟨_, (hlog _).mpr ⟨d, hd, hload (List.ne_nil_of_mem hx)⟩, hx⟩

/-- A table whose rows all come from a set of agreeing rows, upserted with just these rows. -/
theorem rowSet_upsertAll_eq {ρ κ : Type} [DecidableEq κ] {key : ρ → κ} {t : KeyedTable key}
    {rs : List ρ} {R : Set ρ} (hR : Set.InjOn key R) (hrs : ∀ x, x ∈ rs ↔ x ∈ R)
    (ht : ∀ x ∈ t, x ∈ R) : (t.upsertAll rs).rowSet = R := by
  have hset : {x | x ∈ rs} = R := Set.ext hrs
  rw [KeyedTable.rowSet_upsertAll t (hset ▸ hR), hset, overlay_of_subset]
  exact ht

end ExitZero

/-! ### The files of a run that exits with 0 -/

section Files

variable {world : Date → BatchEnv} {opened : String → Date → Bool} {dryRun : Bool} {d d' : Date}

/-- A part of a batch touches its own file only. -/
theorem parquet_phaseEffects {ρ : Type} {name name' : String} {frame : List ρ → Frame}
    {insert : List ρ → Effect}
    (hinsert : ∀ (s : Storage) df, (s.apply (insert df)).parquet = s.parquet)
    (fetched : Except String (List ρ)) (o : Bool) (save inserted : Except String Unit)
    (hne : ¬ (name' = name ∧ d' = d)) (s : Storage) :
    (perform Storage.apply s
      (phaseEffects name frame insert fetched o save inserted dryRun d)).parquet name' d'
        = s.parquet name' d' := by
  have hall : Throughout Storage.apply (fun s' => s'.parquet name' d' = s.parquet name' d') s
      (phaseEffects name frame insert fetched o save inserted dryRun d) := by
    refine throughout_phaseEffects (fun s' h => ?_) (fun s' h => ?_) (fun s' df _ h => ?_)
      (fun s' df _ h => ?_) o dryRun rfl
    · rw [Storage.apply, Storage.setParquet_parquet, if_neg hne, h]
    · rw [Storage.apply, Storage.setParquet_parquet, if_neg hne, h]
    · rw [Storage.apply, Storage.setParquet_parquet, if_neg hne, h]
    · rw [hinsert, h]
  exact hall.perform

/-- A part that ends without an exception leaves the frame it fetched, if it has rows. -/
theorem parquet_of_success {ρ : Type} {name : String} {frame : List ρ → Frame}
    {insert : List ρ → Effect} {request : IngestEvent} {load : List ρ → IngestEvent}
    (hinsert : ∀ (s : Storage) df, (s.apply (insert df)).parquet = s.parquet) {df : List ρ}
    (hdf : df ≠ []) (o : Bool) {save inserted : Except String Unit}
    (hsuccess : (phaseOutcome request load (.ok df) save inserted dryRun).failure = none)
    (s : Storage) :
    (perform Storage.apply s
      (phaseEffects name frame insert (.ok df) o save inserted dryRun d)).parquet name d
        = .complete (frame df) := by
  obtain ⟨row, df, rfl⟩ := List.exists_cons_of_ne_nil hdf
  cases save with
  | error e => cases hsuccess
  | ok _ =>
    have hfile : ∀ s : Storage, (s.setParquet name d (.complete (frame (row :: df)))).parquet name d
        = .complete (frame (row :: df)) := fun s => by simp
    cases dryRun with
    | true => cases inserted <;> exact hfile _
    | false =>
      cases inserted with
      | error e => cases hsuccess
      | ok _ => exact (congrFun (congrFun (hinsert _ _) name) d).trans (hfile _)

/-- A batch touches the files of its own day only. -/
theorem parquet_batchEffects (hne : d' ≠ d) (name : String) (s : Storage) :
    (perform Storage.apply s (batchEffects world opened dryRun d)).parquet name d'
      = s.parquet name d' := by
  have hne' : ∀ name', ¬ (name = name' ∧ d' = d) := fun _ h => hne h.2
  have hactual : (perform Storage.apply s (actualEffects (world d) opened dryRun d)).parquet name d'
      = s.parquet name d' := parquet_phaseEffects (fun _ _ => rfl) _ _ _ _ (hne' _) s
  rw [batchEffects, perform_append]
  cases (actualOutcome (world d) dryRun d).failure with
  | some e => exact hactual
  | none => exact (parquet_phaseEffects (fun _ _ => rfl) _ _ _ _ (hne' _) _).trans hactual

/-- Batches of other days leave the files of a day alone. -/
theorem parquet_batches {batches : List (Date × Date)} (hd : d ∉ batches.map Prod.fst)
    (name : String) (s : Storage) :
    (perform Storage.apply s
      (batches.flatMap fun b => batchEffects world opened dryRun b.1)).parquet name d
        = s.parquet name d := by
  induction batches generalizing s with
  | nil => rfl
  | cons b batches ih =>
    rw [List.map_cons, List.mem_cons, not_or] at hd
    rw [List.flatMap_cons, perform_append, ih hd.2, parquet_batchEffects hd.1]

/-- The files of a day are those of a snapshot, as far as it has rows. -/
def Storage.Files (api : ApiSnapshot) (s : Storage) (d : Date) : Prop :=
  (api.actualDay d ≠ [] → s.parquet "actual" d = .complete (.actual (api.actualDay d))) ∧
    (api.forecastDay d ≠ [] → s.parquet "forecast" d = .complete (.forecast (api.forecastDay d)))

/-- A batch that ends without an exception leaves the files of its day. -/
theorem files_batchEffects {api : ApiSnapshot} (hserves : api.Serves world)
    (hsuccess : (batchOutcome world dryRun d).failure = none) (s : Storage) :
    (perform Storage.apply s (batchEffects world opened dryRun d)).Files api d := by
  obtain ⟨ha, hf⟩ := BatchOutcome.andThen_success.mp hsuccess
  rw [batchEffects, ha, perform_append]
  constructor
  · intro hne
    -- the forecasts leave the file of the actuals alone
    refine (parquet_phaseEffects (fun _ _ => rfl) _ _ _ _ (by simp) _).trans ?_
    rw [actualOutcome] at ha
    rw [actualEffects]
    cases hfetch : ((world d).fuelhh (fuelhhParams d)).map actualFrame with
    | error e => rw [hfetch] at ha; cases ha
    | ok df =>
      obtain rfl := hserves.fetched_actual hfetch
      rw [hfetch] at ha
      exact parquet_of_success (fun _ _ => rfl) hne _ ha s
  · intro hne
    rw [forecastOutcome] at hf
    dsimp only
    rw [forecastEffects]
    cases hfetch : ((world d).windfor (windforParams d)).map forecastFrame with
    | error e => rw [hfetch] at hf; cases hf
    | ok df =>
      obtain rfl := hserves.fetched_forecast hfetch
      rw [hfetch] at hf
      exact parquet_of_success (fun _ _ => rfl) hne _ hf _

/-- Batches that end without an exception leave the files of their days: each day has one batch. -/
theorem files_batches {api : ApiSnapshot} (hserves : api.Serves world)
    {batches : List (Date × Date)}
    (hnodup : (batches.map Prod.fst).Nodup)
    (hsuccess : ∀ b ∈ batches, (batchOutcome world dryRun b.1).failure = none) (s : Storage) :
    ∀ b ∈ batches, (perform Storage.apply s
      (batches.flatMap fun b => batchEffects world opened dryRun b.1)).Files api b.1 := by
  induction batches generalizing s with
  | nil => exact fun b hb => absurd hb List.not_mem_nil
  | cons b batches ih =>
    obtain ⟨hnotMem, hnodup⟩ := List.nodup_cons.mp hnodup
    intro b' hb'
    rw [List.flatMap_cons, perform_append]
    rcases List.mem_cons.mp hb' with rfl | hb'
    · rw [Storage.Files, parquet_batches hnotMem, parquet_batches hnotMem]
      exact files_batchEffects hserves (hsuccess b' List.mem_cons_self) s
    · exact ih hnodup (fun b hb => hsuccess b (List.mem_cons_of_mem _ hb)) _ b' hb'

end Files

/-- The tables after a run of `main` that exits with 0, over a disk whose rows come from the
snapshot. -/
theorem tables_of_exit_zero {api : ApiSnapshot} (hapi : api.Consistent) {m : MainRun}
    (hserves : api.Serves m.run.world) (hdry : m.run.dryRun = false) {s : Storage}
    (hactual : ∀ t ∈ s.actualGeneration, ∀ x ∈ t, x ∈ api.actualOf m.days)
    (hforecast : ∀ t ∈ s.windForecast, ∀ x ∈ t, x ∈ api.forecastOf m.days)
    (hexit : m.exitCode s.database = 0) :
    (∃ t ∈ (perform Storage.apply s m.effects).actualGeneration,
        t.rowSet = api.actualOf m.days) ∧
      ∃ t ∈ (perform Storage.apply s m.effects).windForecast,
        t.rowSet = api.forecastOf m.days := by
  obtain ⟨stats, state, hrun, hok⟩ := exitCode_eq_zero_iff.mp hexit
  obtain ⟨hactual', hforecast'⟩ := perform_mainEffects hdry hrun
  obtain ⟨-, -, hdb, -, -⟩ := runIngestion_log hrun
  obtain ⟨hloaded, hloaded'⟩ := mem_loaded_iff hserves hdry hrun hok
  refine ⟨⟨_, hactual', ?_⟩, ⟨_, hforecast', ?_⟩⟩
  · rw [hdb, (replay_tables _ _).1]
    refine rowSet_upsertAll_eq (hapi.actual.mono (api.actualOf_subset _)) hloaded fun x hx => ?_
    obtain ⟨t, ht, hx⟩ := Archived.mem_getD_empty hx
    exact hactual t ht x hx
  · rw [hdb, (replay_tables _ _).2]
    refine rowSet_upsertAll_eq (hapi.forecast.mono (api.forecastOf_subset _)) hloaded'
      fun x hx => ?_
    obtain ⟨t, ht, hx⟩ := Archived.mem_getD_empty hx
    exact hforecast t ht x hx

/-- The files after a run of `main` that exits with 0, over any disk. -/
theorem files_of_exit_zero {api : ApiSnapshot} {m : MainRun} (hserves : api.Serves m.run.world)
    {s : Storage} (hexit : m.exitCode s.database = 0) :
    ∀ d ∈ m.days, (perform Storage.apply s m.effects).Files api d := by
  intro d hd
  obtain ⟨stats, state, hrun, hok⟩ := exitCode_eq_zero_iff.mp hexit
  obtain ⟨batches, hbatches, -⟩ := runIngestion_log hrun
  obtain ⟨b, hb, rfl⟩ := List.mem_map.mp ((mem_generateDateBatches hbatches d).mpr hd)
  rw [MainRun.effects_of_batches hbatches, perform_append]
  refine files_batches hserves (tiles_generateDateBatches hbatches).nodup_fst
    (fun b' hb' => success_of_errors_nil hrun hok ?_) _ b hb
  exact (mem_generateDateBatches hbatches b'.1).mp (List.mem_map_of_mem hb')

/-- A history that ends with a run of `main` which is not killed. -/
theorem Storage.after_main (s : Storage) (commands : List Command) (m : MainRun) :
    s.after (commands ++ [.main m none]) = perform Storage.apply (s.after commands) m.effects := by
  rw [Storage.after, Command.history, List.flatMap_append, perform_append, List.flatMap_singleton]
  rfl

/-- The rows of the tables, at the end of any history, come from the snapshot. -/
theorem mem_tables_after {api : ApiSnapshot} {days : Set Date} {commands : List Command}
    (h : ∀ c ∈ commands, c.Over api days) :
    (∀ t ∈ (Storage.fresh.after commands).actualGeneration, ∀ x ∈ t, x ∈ api.actualOf days) ∧
      ∀ t ∈ (Storage.fresh.after commands).windForecast, ∀ x ∈ t, x ∈ api.forecastOf days := by
  have harchived : Archived api days (Command.history commands) := (archived_nil api days).history h
  constructor
  · intro t ht x hx
    obtain ⟨d, hd, hxd, -⟩ := harchived.actual t ht x hx
    exact ⟨d, hd, hxd⟩
  · intro t ht x hx
    obtain ⟨d, hd, hxd, -⟩ := harchived.forecast t ht x hx
    exact ⟨d, hd, hxd⟩

/-- **Exit code 0.** Take any history of commands over one consistent snapshot, runs of `main` with
any failures, dry or not, killed at any moment, and `drop_tables`, and then a run of `main` that
is not dry, covers the days of the others, and exits with 0. It leaves exactly the rows the
snapshot has for these days, in both tables, and a complete Parquet file for each frame of them. -/
theorem main_exit_zero {api : ApiSnapshot} (hapi : api.Consistent) {m : MainRun}
    (hserves : api.Serves m.run.world) (hdry : m.run.dryRun = false) {commands : List Command}
    (h : ∀ c ∈ commands, c.Over api m.days)
    (hexit : m.exitCode (Storage.fresh.after commands).database = 0) :
    let s := Storage.fresh.after (commands ++ [.main m none])
    (∃ t ∈ s.actualGeneration, t.rowSet = api.actualOf m.days) ∧
      (∃ t ∈ s.windForecast, t.rowSet = api.forecastOf m.days) ∧
      ∀ d ∈ m.days, s.Files api d := by
  obtain ⟨hactual, hforecast⟩ := tables_of_exit_zero hapi hserves hdry
    (mem_tables_after h).1 (mem_tables_after h).2 hexit
  rw [Storage.after_main]
  exact ⟨hactual, hforecast, files_of_exit_zero hserves hexit⟩

/-! ### An eventful history -/

theorem consistent_exampleApi : exampleApi.Consistent := by
  constructor
  · rintro x ⟨_, hx⟩ y ⟨_, hy⟩ -
    exact (List.mem_singleton.mp hx).trans (List.mem_singleton.mp hy).symm
  · rintro x ⟨_, hx⟩ y ⟨_, hy⟩ -
    exact (List.mem_singleton.mp hx).trans (List.mem_singleton.mp hy).symm

/-- A run over the first four days of 2024, in which the API is down on one of them, or on none. -/
def flakyRun (down : Option Date) (dryRun : Bool) : MainRun :=
  ⟨⟨exampleDays, flakyWorld down, dryRun⟩, fun _ _ => true⟩

/-- A run over the same days, in which the actuals of one of them cannot be written. -/
def fullDiskRun (full : Date) : MainRun :=
  ⟨⟨exampleDays, fun d => { flakyWorld none d with
      saveParquet := fun name date =>
        if name = "actual" ∧ date = full then .error "No space left on device" else .ok () },
    false⟩, fun _ _ => true⟩

/-- A run, a `drop_tables` that is killed between the tables, a dry run with a failure, a run in
which a save raises, and one that is killed while it writes a file. -/
def eventfulHistory : List Command :=
  [.main (flakyRun none false) none, .dropTables (some 1), .main (flakyRun (some 19724) true) none,
    .main (fullDiskRun 19725) none, .main (flakyRun none false) (some 9)]

theorem over_eventfulHistory :
    ∀ c ∈ eventfulHistory, c.Over exampleApi (flakyRun none false).days := by
  have hserves := serves_flakyWorld none
  intro c hc
  simp only [eventfulHistory, List.mem_cons, List.not_mem_nil, or_false] at hc
  rcases hc with rfl | rfl | rfl | rfl | rfl
  exacts [⟨hserves, subset_rfl⟩, trivial, ⟨serves_flakyWorld _, subset_rfl⟩,
    ⟨⟨@fun d => @hserves.fuelhh d, @fun d => @hserves.windfor d⟩, subset_rfl⟩,
    ⟨hserves, subset_rfl⟩]

/-- The rows are archived, and two of the files have been cut off by later saves. -/
theorem archived_before_loaded_eventfulHistory :
    let log := Command.history eventfulHistory
    let s := Storage.fresh.after eventfulHistory
    let days := (flakyRun none false).days
    (s.actualGeneration.map (·.rows.length) = some 1 ∧ s.windForecast.isSome ∧
      s.parquet "actual" 19724 = .torn ∧ s.parquet "actual" 19725 = .absent) ∧
    (∀ t ∈ s.actualGeneration, ∀ x ∈ t, ∃ d ∈ days, x ∈ exampleApi.actualDay d ∧
      ArchivedBefore log (.insertActual (exampleApi.actualDay d)) "actual" d
        (.actual (exampleApi.actualDay d))) ∧
    ∀ t ∈ s.windForecast, ∀ x ∈ t, ∃ d ∈ days, x ∈ exampleApi.forecastDay d ∧
      ArchivedBefore log (.insertForecast (exampleApi.forecastDay d)) "forecast" d
        (.forecast (exampleApi.forecastDay d)) := by
  obtain ⟨hactual, hforecast, -⟩ := archived_before_loaded over_eventfulHistory
  exact ⟨by decide +kernel, hactual, hforecast⟩

/-- After a last run without failures the disk has what the snapshot has. -/
theorem main_exit_zero_eventfulHistory :
    let m := flakyRun none false
    let s := Storage.fresh.after (eventfulHistory ++ [.main m none])
    (∃ t ∈ s.actualGeneration, t.rowSet = exampleApi.actualOf m.days) ∧
      (∃ t ∈ s.windForecast, t.rowSet = exampleApi.forecastOf m.days) ∧
      ∀ d ∈ m.days, s.Files exampleApi d :=
  main_exit_zero consistent_exampleApi (serves_flakyWorld none) rfl over_eventfulHistory
    (by decide +kernel)

end WindSight
