import WindSight.Pipeline.RecordFrames

/-! # Loading records

What fetching and loading a day stores, for records with any keys and values: each stored row takes
every one of its values from one kept record, under the name the API or the table has for the column
(`load_records`). A missing column, a missing value and a value that cannot be converted all end in
an exception, and so does a column given under both names. -/

namespace WindSight.Records

open DataFrame

variable {D : Type} {records : List Record}

/-! ## Inserting -/

theorem mapM_eq_some_iff {α β : Type} {f : α → Option β} {l : List α} {l' : List β} :
    l.mapM f = some l' ↔ l.map f = l'.map some := by
  induction l generalizing l' with
  | nil => cases l' <;> simp
  | cons a l ih =>
    rw [List.mapM_cons]
    cases hfa : f a with
    | none => cases l' <;> simp [hfa]
    | some b =>
      cases hl : l.mapM f with
      | none =>
        cases l' with
        | nil => simp
        | cons b' l' => simpa [hfa, hl] using fun _ h => by simp [ih.mpr h] at hl
      | some bs => cases l' <;> simp [hfa, ih.mp hl, List.map_inj_right]

theorem readColumn_eq_ok {α : Type} {conv : Conversion D α} {xs : List (Cell D)}
    {ys : List (Option α)} :
    readColumn conv xs = .ok ys ↔ ∃ f, conv.convert xs = .ok f ∧ xs.map f = ys := by
  unfold readColumn
  simp only [bind_eq_ok, raised_eq_ok, pure, Except.pure, Except.ok.injEq]

theorem notNull_eq_ok {α β : Type} {row : α → Option β} {values : List α} {rows : List β} :
    notNull row values = .ok rows ↔ values.map row = rows.map some := by
  rw [← mapM_eq_some_iff]
  unfold notNull
  cases values.mapM row <;> simp

/-- DuckDB reads the column `g` of the rows `kept` as the values `column`, none of them `NULL`. -/
def Reads {α : Type} (conv : Conversion D α) (kept : List Record) (g : Record → Cell D)
    (column : List α) : Prop :=
  ∃ f, conv.convert (kept.map g) = .ok f ∧ (kept.map fun r => f (g r)) = column.map some

section Reads

variable {α : Type} {conv : Conversion D α} {kept : List Record} {g g' : Record → Cell D}
  {column : List α}

theorem Reads.congr (h : Reads conv kept g column) (hg : ∀ r ∈ kept, g r = g' r) :
    Reads conv kept g' column := by
  obtain ⟨f, hf, hcolumn⟩ := h
  refine ⟨f, ?_, ?_⟩
  · rw [← List.map_congr_left hg, hf]
  · rw [← hcolumn]
    exact List.map_congr_left fun r hr => by rw [hg r hr]

/-- Each of the records is a row. -/
theorem Reads.length_rows {ρ : Type} {field : ρ → α} {rows : List ρ}
    (h : Reads conv kept g (rows.map field)) : rows.length = kept.length := by
  obtain ⟨f, -, hcolumn⟩ := h
  simpa using (congrArg List.length hcolumn).symm

/-- A cell that is read has a value. -/
theorem Reads.isNull_eq_false (h : Reads conv kept g column) {r : Record} (hr : r ∈ kept) :
    (g r).isNull = false := by
  obtain ⟨f, hf, hcolumn⟩ := h
  have hmem : f (g r) ∈ column.map some := by
    rw [← hcolumn]
    exact List.mem_map_of_mem hr
  obtain ⟨a, -, ha⟩ := List.mem_map.mp hmem
  by_contra hnull
  rw [conv.null hf (by simpa using hnull)] at ha
  cases ha

end Reads

/-- The columns of complete rows. -/
theorem map_of_rows {α β γ : Type} {φ : α → Option β} {ψ : α → Option γ} {χ : β → γ} {l : List α}
    {rows : List β} (h : l.map φ = rows.map some)
    (hrow : ∀ a row, φ a = some row → ψ a = some (χ row)) : l.map ψ = (rows.map χ).map some := by
  induction l generalizing rows with
  | nil =>
    obtain rfl : rows = [] := by simpa using h.symm
    rfl
  | cons a l ih =>
    cases rows with
    | nil => simp at h
    | cons row rows =>
      obtain ⟨hhead, htail⟩ := List.cons.inj h
      rw [List.map_cons, hrow a row hhead, ih htail]
      rfl

section Insert

variable {duck : DuckDb D} {kept : List Record} {cols : List (String × (Record → Cell D))}

/-- An insert into `actual_generation` that succeeds reads five columns by their position. -/
theorem insertActual_tabulate {table table' : ActualTable D}
    (h : insertActual duck (tabulate kept cols) table = .ok table') :
    ∃ g₁ g₂ g₃ g₄ g₅ rows, cols.map Prod.snd = [g₁, g₂, g₃, g₄, g₅] ∧
      (∀ t : ActualTable D, insertActual duck (tabulate kept cols) t = .ok (t.upsertAll rows)) ∧
      Reads duck.timestamptz kept g₁ (rows.map StoredActual.startTime) ∧
      Reads duck.date kept g₂ (rows.map StoredActual.settlementDate) ∧
      Reads duck.integer kept g₃ (rows.map StoredActual.settlementPeriod) ∧
      Reads duck.double kept g₄ (rows.map StoredActual.generationMw) ∧
      Reads duck.varchar kept g₅ (rows.map StoredActual.fuelType) := by
  unfold insertActual at h
  rw [columns_tabulate] at h
  generalize hcols : cols.map Prod.snd = gs at h ⊢
  rcases gs with _ | ⟨g₁, _ | ⟨g₂, _ | ⟨g₃, _ | ⟨g₄, _ | ⟨g₅, _ | ⟨g₆, gs⟩⟩⟩⟩⟩⟩ <;> try cases h
  simp only [List.map_cons, List.map_nil, bind_eq_ok, readColumn_eq_ok, notNull_eq_ok] at h
  obtain ⟨_, ⟨f₁, hf₁, rfl⟩, _, ⟨f₂, hf₂, rfl⟩, _, ⟨f₃, hf₃, rfl⟩, _, ⟨f₄, hf₄, rfl⟩,
    _, ⟨f₅, hf₅, rfl⟩, rows, hrows, -⟩ := h
  refine ⟨g₁, g₂, g₃, g₄, g₅, rows, rfl, ?_, ⟨f₁, hf₁, ?_⟩, ⟨f₂, hf₂, ?_⟩,
    ⟨f₃, hf₃, ?_⟩, ⟨f₄, hf₄, ?_⟩, ⟨f₅, hf₅, ?_⟩⟩
  · -- the reads do not depend on the table
    intro t
    unfold insertActual
    rw [columns_tabulate, hcols]
    simp only [List.map_cons, List.map_nil, bind_eq_ok, readColumn_eq_ok, notNull_eq_ok]
    exact ⟨_, ⟨f₁, hf₁, rfl⟩, _, ⟨f₂, hf₂, rfl⟩, _, ⟨f₃, hf₃, rfl⟩, _, ⟨f₄, hf₄, rfl⟩,
      _, ⟨f₅, hf₅, rfl⟩, rows, hrows, rfl⟩
  -- a complete row has the value of each of its columns
  all_goals
    simp only [List.map_map, List.zip_map'] at hrows
    refine map_of_rows hrows ?_
    intro r row hrow
    simp only [Function.comp_apply, Option.bind_eq_bind, Option.bind_eq_some_iff, Option.pure_def,
      Option.some.injEq] at hrow
    obtain ⟨t, ht, d, hd, p, hp, x, hx, f, hf, rfl⟩ := hrow
    assumption

/-- An insert into `wind_forecast` that succeeds reads three columns by their position. -/
theorem insertForecast_tabulate {table table' : ForecastTable D}
    (h : insertForecast duck (tabulate kept cols) table = .ok table') :
    ∃ g₁ g₂ g₃ rows, cols.map Prod.snd = [g₁, g₂, g₃] ∧
      (∀ t : ForecastTable D, insertForecast duck (tabulate kept cols) t = .ok (t.upsertAll rows)) ∧
      Reads duck.timestamptz kept g₁ (rows.map StoredForecast.startTime) ∧
      Reads duck.timestamptz kept g₂ (rows.map StoredForecast.publishTime) ∧
      Reads duck.double kept g₃ (rows.map StoredForecast.generationMw) := by
  unfold insertForecast at h
  rw [columns_tabulate] at h
  generalize hcols : cols.map Prod.snd = gs at h ⊢
  rcases gs with _ | ⟨g₁, _ | ⟨g₂, _ | ⟨g₃, _ | ⟨g₄, gs⟩⟩⟩⟩ <;> try cases h
  simp only [List.map_cons, List.map_nil, bind_eq_ok, readColumn_eq_ok, notNull_eq_ok] at h
  obtain ⟨_, ⟨f₁, hf₁, rfl⟩, _, ⟨f₂, hf₂, rfl⟩, _, ⟨f₃, hf₃, rfl⟩, rows, hrows, -⟩ := h
  refine ⟨g₁, g₂, g₃, rows, rfl, ?_, ⟨f₁, hf₁, ?_⟩, ⟨f₂, hf₂, ?_⟩, ⟨f₃, hf₃, ?_⟩⟩
  · intro t
    unfold insertForecast
    rw [columns_tabulate, hcols]
    simp only [List.map_cons, List.map_nil, bind_eq_ok, readColumn_eq_ok, notNull_eq_ok]
    exact ⟨_, ⟨f₁, hf₁, rfl⟩, _, ⟨f₂, hf₂, rfl⟩, _, ⟨f₃, hf₃, rfl⟩, rows, hrows, rfl⟩
  all_goals
    simp only [List.map_map, List.zip_map'] at hrows
    refine map_of_rows hrows ?_
    intro r row hrow
    simp only [Function.comp_apply, Option.bind_eq_bind, Option.bind_eq_some_iff, Option.pure_def,
      Option.some.injEq] at hrow
    obtain ⟨t, ht, p, hp, x, hx, rfl⟩ := hrow
    assumption

/-- Whether an insert raises does not depend on the table. -/
theorem insertActual_error (df : Frame D) (table table' : ActualTable D) (e : RecordError)
    (h : insertActual duck df table = .error e) : insertActual duck df table' = .error e := by
  unfold insertActual at h ⊢
  split at h
  · simpa only [bind_eq_error, pure, Except.pure, reduceCtorEq, and_false, exists_false] using h
  · exact h

theorem insertForecast_error (df : Frame D) (table table' : ForecastTable D) (e : RecordError)
    (h : insertForecast duck df table = .error e) : insertForecast duck df table' = .error e := by
  unfold insertForecast at h ⊢
  split at h
  · simpa only [bind_eq_error, pure, Except.pure, reduceCtorEq, and_false, exists_false] using h
  · exact h

end Insert

/-! ## A day -/

/-- The end of a step over a table: its result or the exception, and the table it leaves. -/
def exec {T α : Type} (x : Load T α) (table : T) : Except RecordError α × T := x.run.run table

section Exec

variable {T α β : Type} {table : T}

theorem exec_bind (x : Load T α) (f : α → Load T β) :
    exec (x >>= f) table =
      match exec x table with
      | (.ok a, table') => exec (f a) table'
      | (.error e, table') => (.error e, table') := by
  show StateT.run (ExceptT.run (x >>= f)) table = _
  rw [ExceptT.run_bind, StateT.run_bind, exec]
  rcases x.run.run table with ⟨_ | a, table'⟩ <;> rfl

@[simp] theorem exec_outcome (x : Except RecordError α) :
    exec (ExceptT.mk (pure x) : Load T α) table = (x, table) := rfl

@[simp] theorem exec_pure (a : α) : exec (pure a : Load T α) table = (.ok a, table) := rfl

/-- A load of a frame with rows inserts them, or raises and leaves the table. -/
theorem exec_load {insert : Frame D → T → Except RecordError T} {df : Frame D}
    (hdf : df.isEmpty = false) :
    exec (load insert df) table =
      match insert df table with
      | .ok table' => (.ok df.height, table')
      | .error e => (.error e, table) := by
  have hget : exec (get : Load T T) table = (.ok table, table) := rfl
  have hset : ∀ table' : T, exec (set table' : Load T PUnit) table = (.ok ⟨⟩, table') :=
    fun _ => rfl
  rw [load, hdf, if_neg Bool.false_ne_true, exec_bind, hget]
  dsimp only
  rw [exec_bind, exec_outcome]
  cases insert df table with
  | error e => rfl
  | ok table' =>
    dsimp only
    rw [exec_bind, hset]
    rfl

end Exec

/-- A day: an exception, an empty frame, or a saved frame with rows to insert. -/
theorem exec_ingestDay {T : Type} (fetched : Except RecordError (Frame D))
    (saveParquet : Frame D → Except String Unit) (insert : Frame D → T → Except RecordError T)
    (table : T) :
    exec (ingestDay fetched saveParquet (load insert)) table =
      match fetched with
      | .error e => (.error e, table)
      | .ok df =>
        if df.isEmpty then (.ok 0, table)
        else
          match saveParquet df with
          | .error e => (.error (.raised e), table)
          | .ok _ =>
            match insert df table with
            | .ok table' => (.ok df.height, table')
            | .error e => (.error e, table) := by
  unfold ingestDay
  rw [exec_bind, exec_outcome]
  cases fetched with
  | error e => rfl
  | ok df =>
    cases hempty : df.isEmpty with
    | true => simp [hempty]
    | false =>
      simp only [hempty, Bool.false_eq_true, if_false, exec_bind, exec_outcome]
      cases saveParquet df with
      | error e => rfl
      | ok u => exact exec_load hempty

/-- A day ends the same way over every table: with an exception that leaves the table as it was,
with an empty frame, or with an insert. -/
theorem exec_ingestDay_cases {T : Type} [Inhabited T] (fetched : Except RecordError (Frame D))
    (saveParquet : Frame D → Except String Unit) {insert : Frame D → T → Except RecordError T}
    (herror : ∀ df t t' e, insert df t = .error e → insert df t' = .error e) :
    (∃ e, ∀ t, exec (ingestDay fetched saveParquet (load insert)) t = (.error e, t)) ∨
    (∃ df, fetched = .ok df ∧ df.isEmpty = true ∧
      ∀ t, exec (ingestDay fetched saveParquet (load insert)) t = (.ok 0, t)) ∨
    ∃ df t₀ t₀', fetched = .ok df ∧ df.isEmpty = false ∧ saveParquet df = .ok () ∧
      insert df t₀ = .ok t₀' ∧ ∀ t t', insert df t = .ok t' →
        exec (ingestDay fetched saveParquet (load insert)) t = (.ok df.height, t') := by
  simp only [exec_ingestDay]
  cases fetched with
  | error e => exact Or.inl ⟨e, fun _ => rfl⟩
  | ok df =>
    cases hempty : df.isEmpty with
    | true => exact Or.inr (Or.inl ⟨df, rfl, hempty, fun _ => by simp [hempty]⟩)
    | false =>
      simp only [hempty, Bool.false_eq_true, if_false]
      cases hsave : saveParquet df with
      | error e => exact Or.inl ⟨.raised e, fun _ => rfl⟩
      | ok u =>
        cases hinsert : insert df default with
        | error e => exact Or.inl ⟨e, fun t => by rw [herror df _ t e hinsert]⟩
        | ok t₀' =>
          refine Or.inr (Or.inr ⟨df, default, t₀', rfl, hempty, hsave, hinsert, ?_⟩)
          intro t t' h
          rw [h]

/-! ## What is stored -/

/-- A stored column is that of the kept records' own values: converted by pandas along all records,
and read by DuckDB along the kept ones. -/
def Stores {α β : Type} (conv : Conversion D α) (cell : Option α → Cell D) (read : Conversion D β)
    (api column : String) (records kept : List Record) (values : List β) : Prop :=
  ∃ f, conv.convert (records.map (cellOf api column)) = .ok f ∧
    Reads read kept (fun r => cell (f (cellOf api column r))) values

/-- The rows stored for the kept ones of some FUELHH records: row by row, each value is that of the
record for the same column, and no value is missing. -/
structure StoresActual (pandas : Pandas D) (duck : DuckDb D) (records kept : List Record)
    (rows : List (StoredActual D)) : Prop where
  startTime : Stores pandas.toDatetimeUtc .timestamp duck.timestamptz "startTime" "start_time"
    records kept (rows.map StoredActual.startTime)
  settlementDate : Stores pandas.toDate .date duck.date "settlementDate" "settlement_date"
    records kept (rows.map StoredActual.settlementDate)
  settlementPeriod : Reads duck.integer kept (cellOf "settlementPeriod" "settlement_period")
    (rows.map StoredActual.settlementPeriod)
  generationMw : Stores pandas.toNumeric .double duck.double "generation" "generation_mw"
    records kept (rows.map StoredActual.generationMw)
  fuelType : kept.map (value "fuelType" "fuel_type")
    = rows.map fun row => some (.str row.fuelType)
  complete : ∀ r ∈ kept, ∀ e ∈ fuelhhColumnMap, (cellOf e.1 e.2 r : Cell D).isNull = false

/-- The rows stored for some WINDFOR records. -/
structure StoresForecast (pandas : Pandas D) (duck : DuckDb D) (records : List Record)
    (rows : List (StoredForecast D)) : Prop where
  startTime : Stores pandas.toDatetimeUtc .timestamp duck.timestamptz "startTime" "start_time"
    records records (rows.map StoredForecast.startTime)
  publishTime : Stores pandas.toDatetimeUtc .timestamp duck.timestamptz "publishTime" "publish_time"
    records records (rows.map StoredForecast.publishTime)
  generationMw : Stores pandas.toNumeric .double duck.double "generation" "generation_mw"
    records records (rows.map StoredForecast.generationMw)
  complete : ∀ r ∈ records, ∀ e ∈ windforColumnMap, (cellOf e.1 e.2 r : Cell D).isNull = false

section Stores

variable {α β : Type} {conv : Conversion D α} {cell : Option α → Cell D} {read : Conversion D β}
  {api column : String} {kept : List Record} {values : List β}

/-- A converted column that is read is stored. -/
theorem Converted.stores {g : Record → Cell D} (hg : Converted conv cell api column records g)
    (hread : Reads read kept g values) (hkept : kept ⊆ records) :
    Stores conv cell read api column records kept values := by
  obtain ⟨f, hf, hvalue⟩ := hg
  exact ⟨f, hf, hread.congr fun r hr => hvalue r (hkept hr)⟩

/-- A stored value is not missing in the record, if a missing one stays missing as a cell. -/
theorem Stores.isNull_eq_false (h : Stores conv cell read api column records kept values)
    (hcell : (cell none).isNull = true) {r : Record} (hr : r ∈ kept) :
    (cellOf api column r : Cell D).isNull = false := by
  obtain ⟨f, hf, hread⟩ := h
  have hvalue := hread.isNull_eq_false hr
  by_contra hnull
  rw [conv.null hf (by simpa using hnull), hcell] at hvalue
  cases hvalue

end Stores

theorem isWindRecord_eq_true {r : Record} (h : isWindRecord r = true) :
    ∃ s, value "fuelType" "fuel_type" r = some (.str s) := by
  unfold isWindRecord at h
  split at h
  · exact ⟨_, ‹_›⟩
  · cases h

/-- A column of strings is read as these strings. -/
theorem Reads.map_value {duck : DuckDb D} {api column : String} {kept : List Record}
    {values : List String} (h : Reads duck.varchar kept (cellOf api column) values)
    (hstr : ∀ r ∈ kept, ∃ s, value api column r = some (.str s)) :
    kept.map (value api column) = values.map fun s => some (.str s) := by
  obtain ⟨f, hf, hvalues⟩ := h
  calc kept.map (value api column)
      = (kept.map fun r => f (cellOf api column r)).map (Option.map PyValue.str) := by
        rw [List.map_map]
        refine List.map_congr_left fun r hr => ?_
        obtain ⟨s, hs⟩ := hstr r hr
        rw [Function.comp_apply, cellOf, hs, duck.varchar_str hf]
        rfl
    _ = values.map fun s => some (.str s) := by
        rw [hvalues, List.map_map]
        rfl

/-- The records spell the settlement period in both ways and have no fuel type: their frame has as
many columns as the table, but not the same. -/
def Displaced (records : List Record) : Prop :=
  ("settlementPeriod" ∈ unionKeys records ∧ "settlement_period" ∈ unionKeys records) ∧
    "fuelType" ∉ unionKeys records ∧ "fuel_type" ∉ unionKeys records

/-- A frame of FUELHH records that is saved and has as many columns as the table has each of them
once. -/
theorem exists_single_columns {saveParquet : Frame D → Except String Unit}
    (hsave : (∀ df, saveParquet df = .ok () → df.names.Nodup) ∨ ¬ Displaced records)
    {g₁ g₂ g₄ h₁ h₂ h₃ h₄ h₅ : Record → Cell D} {kept : List Record}
    (hsaved : saveParquet (tabulate kept (actualColumns records g₁ g₂ g₄)) = .ok ())
    (hcolumns : (actualColumns records g₁ g₂ g₄).map Prod.snd = [h₁, h₂, h₃, h₄, h₅])
    (hfuel : spellings fuelhhColumnMap records "fuel_type" = [] ∨
      ∃ k, spellings fuelhhColumnMap records "fuel_type" = [k]) :
    (h₁ = g₁ ∧ h₂ = g₂ ∧ h₄ = g₄) ∧
      objectColumns fuelhhColumnMap records "settlement_period" = [h₃] ∧
      objectColumns fuelhhColumnMap records "fuel_type" = [h₅] := by
  rcases hfuel with hnone | ⟨k, hk⟩
  · -- without a fuel type, the settlement period has two columns
    exfalso
    rcases hperiod : spellings fuelhhColumnMap records "settlement_period" with
      _ | ⟨p, _ | ⟨p', _ | ⟨p'', ps⟩⟩⟩ <;>
      simp [actualColumns, objectColumns, hperiod, hnone] at hcolumns
    rcases hsave with hdistinct | hdisplaced
    · -- a frame with two of a name is not saved
      have hnames := hdistinct _ hsaved
      rw [names_tabulate] at hnames
      simp [actualColumns, objectColumns, hperiod, hnone] at hnames
    · apply hdisplaced
      have hnofuel : ∀ j, j = "fuelType" ∨ j = "fuel_type" → j ∉ unionKeys records := by
        intro j hj hmem
        have hspelled : j ∈ spellings fuelhhColumnMap records "fuel_type" :=
          (mem_spellings unambiguous_fuelhh (by decide : ("fuelType", _) ∈ _)).mpr ⟨hmem, hj⟩
        rw [hnone] at hspelled
        exact absurd hspelled List.not_mem_nil
      refine ⟨?_, hnofuel _ (Or.inl rfl), hnofuel _ (Or.inr rfl)⟩
      exact mem_unionKeys_of_spellings unambiguous_fuelhh
        (by decide : ("settlementPeriod", _) ∈ _) hperiod
  · -- with one fuel type, five columns leave one for the settlement period
    have hlength := congrArg List.length hcolumns
    rcases hperiod : spellings fuelhhColumnMap records "settlement_period" with
      _ | ⟨p, _ | ⟨p', ps⟩⟩
    · simp [actualColumns, objectColumns, hperiod, hk] at hlength
    · simp only [actualColumns, objectColumns, hperiod, hk, List.map_cons, List.map_nil,
        List.cons_append, List.nil_append, List.cons.injEq, and_true] at hcolumns
      obtain ⟨rfl, rfl, rfl, rfl, rfl⟩ := hcolumns
      exact ⟨⟨rfl, rfl, rfl⟩, by rw [objectColumns, hperiod]; rfl, by rw [objectColumns, hk]; rfl⟩
    · simp [actualColumns, objectColumns, hperiod, hk] at hlength

/-- Columns that are converted and read are stored, in complete rows. -/
theorem storesActual_of_reads {pandas : Pandas D} {duck : DuckDb D}
    {g₁ g₂ g₃ g₄ g₅ : Record → Cell D} {rows : List (StoredActual D)}
    (hg₁ : Converted pandas.toDatetimeUtc .timestamp "startTime" "start_time" records g₁)
    (hg₂ : Converted pandas.toDate .date "settlementDate" "settlement_date" records g₂)
    (hg₃ : objectColumns fuelhhColumnMap records "settlement_period" = [g₃])
    (hg₄ : Converted pandas.toNumeric .double "generation" "generation_mw" records g₄)
    (hg₅ : objectColumns fuelhhColumnMap records "fuel_type" = [g₅])
    (hread₁ : Reads duck.timestamptz (records.filter isWindRecord) g₁
      (rows.map StoredActual.startTime))
    (hread₂ : Reads duck.date (records.filter isWindRecord) g₂
      (rows.map StoredActual.settlementDate))
    (hread₃ : Reads duck.integer (records.filter isWindRecord) g₃
      (rows.map StoredActual.settlementPeriod))
    (hread₄ : Reads duck.double (records.filter isWindRecord) g₄
      (rows.map StoredActual.generationMw))
    (hread₅ : Reads duck.varchar (records.filter isWindRecord) g₅
      (rows.map StoredActual.fuelType)) :
    StoresActual pandas duck records (records.filter isWindRecord) rows := by
  have hkept : records.filter isWindRecord ⊆ records := fun r hr => List.mem_of_mem_filter hr
  have hstart := hg₁.stores hread₁ hkept
  have hdate := hg₂.stores hread₂ hkept
  have hperiod := hread₃.congr fun r hr =>
    eq_cellOf_of_objectColumns unambiguous_fuelhh (by decide : ("settlementPeriod", _) ∈ _) hg₃
      (hkept hr)
  have hmw := hg₄.stores hread₄ hkept
  have hfuel := hread₅.congr fun r hr =>
    eq_cellOf_of_objectColumns unambiguous_fuelhh (by decide : ("fuelType", _) ∈ _) hg₅ (hkept hr)
  refine ⟨hstart, hdate, hperiod, hmw, ?_, ?_⟩
  · -- kept records have a string as their fuel type
    rw [hfuel.map_value fun r hr => isWindRecord_eq_true (List.mem_filter.mp hr).2, List.map_map]
    rfl
  · intro r hr e he
    simp only [fuelhhColumnMap, List.mem_cons, List.not_mem_nil, or_false] at he
    rcases he with rfl | rfl | rfl | rfl | rfl
    exacts [hstart.isNull_eq_false rfl hr, hdate.isNull_eq_false rfl hr,
      hperiod.isNull_eq_false hr, hmw.isNull_eq_false rfl hr, hfuel.isNull_eq_false hr]

theorem storesForecast_of_reads {pandas : Pandas D} {duck : DuckDb D}
    {g₁ g₂ g₃ : Record → Cell D} {rows : List (StoredForecast D)}
    (hg₁ : Converted pandas.toDatetimeUtc .timestamp "startTime" "start_time" records g₁)
    (hg₂ : Converted pandas.toDatetimeUtc .timestamp "publishTime" "publish_time" records g₂)
    (hg₃ : Converted pandas.toNumeric .double "generation" "generation_mw" records g₃)
    (hread₁ : Reads duck.timestamptz records g₁ (rows.map StoredForecast.startTime))
    (hread₂ : Reads duck.timestamptz records g₂ (rows.map StoredForecast.publishTime))
    (hread₃ : Reads duck.double records g₃ (rows.map StoredForecast.generationMw)) :
    StoresForecast pandas duck records rows := by
  have hstart := hg₁.stores hread₁ (List.Subset.refl _)
  have hpublish := hg₂.stores hread₂ (List.Subset.refl _)
  have hmw := hg₃.stores hread₃ (List.Subset.refl _)
  refine ⟨hstart, hpublish, hmw, ?_⟩
  intro r hr e he
  simp only [windforColumnMap, List.mem_cons, List.not_mem_nil, or_false] at he
  rcases he with rfl | rfl | rfl
  exacts [hstart.isNull_eq_false rfl hr, hpublish.isNull_eq_false rfl hr,
    hmw.isNull_eq_false rfl hr]

/-- What a load of FUELHH records stores. -/
theorem exec_ingestActual (pandas : Pandas D) (duck : DuckDb D)
    (saveParquet : Frame D → Except String Unit)
    (hsave : (∀ df, saveParquet df = .ok () → df.names.Nodup) ∨ ¬ Displaced records) :
    (∃ e, ∀ table, exec (ingestActual pandas duck saveParquet (.ok records)) table
      = (.error e, table)) ∨
    ∃ rows, (∀ table, exec (ingestActual pandas duck saveParquet (.ok records)) table
        = (.ok rows.length, table.upsertAll rows)) ∧
      rows.length = (records.filter isWindRecord).length ∧
      (records.filter isWindRecord ≠ [] →
        StoresActual pandas duck records (records.filter isWindRecord) rows) := by
  rcases eq_or_ne records [] with rfl | hne
  · exact Or.inr ⟨[], fun _ => rfl, rfl, fun h => absurd rfl h⟩
  rcases exec_ingestDay_cases (fetchActualGeneration pandas (.ok records)) saveParquet
    insertActual_error with herr | ⟨df, hfetch, hempty, hexec⟩ |
    ⟨df, t₀, t₀', hfetch, -, hsaved, hinsert, hexec⟩
  · exact Or.inl herr
  · -- an empty frame has no rows
    refine Or.inr ⟨[], hexec, ?_⟩
    obtain ⟨g₁, g₂, g₄, -, -, -, ⟨-, rfl⟩ | ⟨-, rfl⟩⟩ := fetchActualGeneration_eq_ok hne hfetch
    · rw [isEmpty_tabulate, or_iff_left (by simp [actualColumns])] at hempty
      exact absurd hempty hne
    · rw [isEmpty_tabulate, or_iff_left (by simp [actualColumns])] at hempty
      rw [hempty]
      exact ⟨rfl, fun h => absurd rfl h⟩
  · right
    obtain ⟨g₁, g₂, g₄, hg₁, hg₂, hg₄, ⟨hfuel, rfl⟩ | ⟨hfuel, rfl⟩⟩ :=
      fetchActualGeneration_eq_ok hne hfetch
    · -- the columns of the table do not make up for the missing fuel type
      obtain ⟨h₁, h₂, h₃, h₄, h₅, rows, hcolumns, -⟩ := insertActual_tabulate hinsert
      obtain ⟨-, -, hfuel'⟩ := exists_single_columns hsave hsaved hcolumns (Or.inl hfuel)
      rw [objectColumns, hfuel] at hfuel'
      cases hfuel'
    · obtain ⟨h₁, h₂, h₃, h₄, h₅, rows, hcolumns, hrows, hread₁, hread₂, hread₃, hread₄, hread₅⟩ :=
        insertActual_tabulate hinsert
      obtain ⟨⟨rfl, rfl, rfl⟩, hperiod, hfuel'⟩ :=
        exists_single_columns hsave hsaved hcolumns (Or.inr hfuel)
      have hlength := hread₁.length_rows
      refine ⟨rows, fun table => ?_, hlength, fun _ => ?_⟩
      · rw [hlength]
        exact hexec _ _ (hrows table)
      · exact storesActual_of_reads hg₁ hg₂ hperiod hg₄ hfuel' hread₁ hread₂ hread₃ hread₄ hread₅

/-- What a load of WINDFOR records stores. -/
theorem exec_ingestForecast (pandas : Pandas D) (duck : DuckDb D)
    (saveParquet : Frame D → Except String Unit) :
    (∃ e, ∀ table, exec (ingestForecast pandas duck saveParquet (.ok records)) table
      = (.error e, table)) ∨
    ∃ rows, (∀ table, exec (ingestForecast pandas duck saveParquet (.ok records)) table
        = (.ok rows.length, table.upsertAll rows)) ∧
      rows.length = records.length ∧
      (records ≠ [] → StoresForecast pandas duck records rows) := by
  rcases eq_or_ne records [] with rfl | hne
  · exact Or.inr ⟨[], fun _ => rfl, rfl, fun h => absurd rfl h⟩
  rcases exec_ingestDay_cases (fetchWindForecast pandas (.ok records)) saveParquet
    insertForecast_error with herr | ⟨df, hfetch, hempty, hexec⟩ |
    ⟨df, t₀, t₀', hfetch, -, hsaved, hinsert, hexec⟩
  · exact Or.inl herr
  · obtain ⟨g₁, g₂, g₃, -, -, -, rfl⟩ := fetchWindForecast_eq_ok hne hfetch
    rw [isEmpty_tabulate, or_iff_left (by simp)] at hempty
    exact absurd hempty hne
  · right
    obtain ⟨g₁, g₂, g₃, hg₁, hg₂, hg₃, rfl⟩ := fetchWindForecast_eq_ok hne hfetch
    obtain ⟨h₁, h₂, h₃, rows, hcolumns, hrows, hread₁, hread₂, hread₃⟩ :=
      insertForecast_tabulate hinsert
    simp only [List.map_cons, List.map_nil, List.cons.injEq, and_true] at hcolumns
    obtain ⟨rfl, rfl, rfl⟩ := hcolumns
    have hlength := hread₁.length_rows
    refine ⟨rows, fun table => ?_, hlength, fun _ => ?_⟩
    · rw [hlength]
      exact hexec _ _ (hrows table)
    · exact storesForecast_of_reads hg₁ hg₂ hg₃ hread₁ hread₂ hread₃

/-- Without records there are no rows to share a key. -/
theorem nodup_map_of_ne_nil {ρ κ : Type} {key : ρ → κ} {kept : List Record} {rows : List ρ}
    (hlength : rows.length = kept.length) (h : kept ≠ [] → (rows.map key).Nodup) :
    (rows.map key).Nodup := by
  rcases eq_or_ne kept [] with rfl | hne
  · obtain rfl : rows = [] := List.eq_nil_of_length_eq_zero hlength
    exact List.nodup_nil
  · exact h hne

/-- The kept ones of some FUELHH records have distinct start times, as converted. -/
def DistinctActual (pandas : Pandas D) (duck : DuckDb D) (records : List Record) : Prop :=
  ∀ rows, StoresActual pandas duck records (records.filter isWindRecord) rows →
    (rows.map StoredActual.startTime).Nodup

/-- Some WINDFOR records have distinct pairs of start time and publish time, as converted. -/
def DistinctForecast (pandas : Pandas D) (duck : DuckDb D) (records : List Record) : Prop :=
  ∀ rows, StoresForecast pandas duck records rows → (rows.map StoredForecast.key).Nodup

/-- **Loading a day of records** whose kept ones have distinct primary keys. Fetching, saving and
loading the day raises and leaves the table as it was, or stores one row for each kept record, each
of whose values is the record's own for that column. Saving has to reject frames with repeated
names, or the records not to be displaced. -/
theorem load_records (pandas : Pandas D) (duck : DuckDb D)
    (saveParquet : Frame D → Except String Unit) (response : Except String (List Record))
    (hsave : (∀ df, saveParquet df = .ok () → df.names.Nodup) ∨
      ∀ records, response = .ok records → ¬ Displaced records) :
    ((∀ records, response = .ok records → DistinctActual pandas duck records) →
      ∀ table : ActualTable D,
        (∃ e, exec (ingestActual pandas duck saveParquet response) table = (.error e, table)) ∨
        ∃ records rows, response = .ok records ∧
          exec (ingestActual pandas duck saveParquet response) table
            = (.ok rows.length, table.upsertAll rows) ∧
          rows.length = (records.filter isWindRecord).length ∧
          (records.filter isWindRecord ≠ [] →
            StoresActual pandas duck records (records.filter isWindRecord) rows) ∧
          ∀ x, x ∈ table.upsertAll rows ↔
            x ∈ rows ∨ (x ∈ table ∧ ∀ row ∈ rows, row.startTime ≠ x.startTime)) ∧
    ((∀ records, response = .ok records → DistinctForecast pandas duck records) →
      ∀ table : ForecastTable D,
        (∃ e, exec (ingestForecast pandas duck saveParquet response) table = (.error e, table)) ∨
        ∃ records rows, response = .ok records ∧
          exec (ingestForecast pandas duck saveParquet response) table
            = (.ok rows.length, table.upsertAll rows) ∧
          rows.length = records.length ∧
          (records ≠ [] → StoresForecast pandas duck records rows) ∧
          ∀ x, x ∈ table.upsertAll rows ↔
            x ∈ rows ∨ (x ∈ table ∧ ∀ row ∈ rows, row.key ≠ x.key)) := by
  cases response with
  | error e => exact ⟨fun _ _ => Or.inl ⟨_, rfl⟩, fun _ _ => Or.inl ⟨_, rfl⟩⟩
  | ok records =>
    constructor
    · intro hdistinct table
      have hsave' := hsave.imp id fun h => h records rfl
      rcases exec_ingestActual pandas duck saveParquet hsave' with
        ⟨e, herr⟩ | ⟨rows, hexec, hlength, hstores⟩
      · exact Or.inl ⟨e, herr table⟩
      · have hkeys : (rows.map StoredActual.startTime).Nodup :=
          nodup_map_of_ne_nil hlength fun hne => hdistinct records rfl rows (hstores hne)
        exact Or.inr ⟨records, rows, rfl, hexec table, hlength, hstores,
          table.mem_upsertAll_iff hkeys⟩
    · intro hdistinct table
      rcases exec_ingestForecast pandas duck saveParquet with
        ⟨e, herr⟩ | ⟨rows, hexec, hlength, hstores⟩
      · exact Or.inl ⟨e, herr table⟩
      · have hkeys : (rows.map StoredForecast.key).Nodup :=
          nodup_map_of_ne_nil hlength fun hne => hdistinct records rfl rows (hstores hne)
        exact Or.inr ⟨records, rows, rfl, hexec table, hlength, hstores,
          table.mem_upsertAll_iff hkeys⟩

/-! ### Two spellings -/

theorem isNull_cases {c : Cell D} (h : c.isNull = true) :
    (c = .object none ∨ c = .object (some .null) ∨ c = .object (some .nan)) ∨
      c = .timestamp none ∨ c = .date none ∨ c = .double none := by
  rcases c with (_ | _ | _) | (_ | _) | (_ | _) | (_ | _) <;> simp_all [Cell.isNull]

/-- A conversion that converts every cell by itself. -/
def cellwise {α : Type} (f : Cell ℚ → Option α)
    (h : f (.object none) = none ∧ f (.object (some .null)) = none ∧
      f (.object (some .nan)) = none ∧ f (.timestamp none) = none ∧ f (.date none) = none ∧
      f (.double none) = none) : Conversion ℚ α where
  convert _ := .ok f
  null := by
    intro xs g c hg hc
    obtain rfl := Except.ok.inj hg
    rcases isNull_cases hc with (rfl | rfl | rfl) | rfl | rfl | rfl
    exacts [h.1, h.2.1, h.2.2.1, h.2.2.2.1, h.2.2.2.2.1, h.2.2.2.2.2]

/-- The strings that are read, with what they are read as. -/
def parsed {α : Type} (texts : List (String × α)) : Cell ℚ → Option α
  | .object (some (.str s)) => texts.lookup s
  | _ => none

/-- Pandas, on the strings of two settlement periods. -/
def examplePandas : Pandas ℚ where
  toDatetimeUtc := cellwise (parsed [("2024-01-01T06:00:00Z", 1704088800000000),
    ("2024-01-01T06:30:00Z", 1704090600000000)]) (by decide)
  toDate := cellwise (parsed [("2024-01-01", 19723)]) (by decide)
  toNumeric := cellwise (fun c => match c with
    | .object (some (.int n)) => some n
    | _ => none) (by decide)
  strAccessor _ := .ok ()

/-- DuckDB, on numbers that are whole. -/
def exampleDuckDb : DuckDb ℚ where
  timestamptz := cellwise (fun c => match c with
    | .timestamp t => t
    | _ => none) (by decide)
  date := cellwise (fun c => match c with
    | .date d => d
    | _ => none) (by decide)
  integer := cellwise (fun c => match c with
    | .object (some (.int n)) => some n
    | _ => none) (by decide)
  double := cellwise (fun c => match c with
    | .double x => x
    | .object (some (.int n)) => some n
    | _ => none) (by decide)
  varchar := cellwise (fun c => match c with
    | .object (some (.str s)) => some s
    | .double x => x.map fun x => toString x.num
    | _ => none) (by decide)
  varchar_str := by
    intro xs f s hf
    obtain rfl := Except.ok.inj hf
    rfl

/-- A record that has the columns' own names, and none of the API's. -/
def renamedRecord : Record where
  entries := [("start_time", .str "2024-01-01T06:00:00Z"), ("settlement_date", .str "2024-01-01"),
    ("settlement_period", .int 13), ("generation_mw", .int 5), ("fuel_type", .str "WIND")]
  nodup := by decide

/-- A record that spells the settlement period in both ways and has no fuel type. -/
def displacedRecord : Record where
  entries := [("startTime", .str "2024-01-01T06:00:00Z"), ("settlementDate", .str "2024-01-01"),
    ("settlementPeriod", .int 13), ("settlement_period", .int 14), ("generation", .int 5)]
  nodup := by decide

/-- `save_parquet`, which rejects frames with repeated names. -/
def exampleParquet (df : Frame ℚ) : Except String Unit :=
  if df.names.Nodup then .ok () else .error "Duplicate column names found"

/-- A record without any of the API's names is stored as wind generation; and without a Parquet file
that rejects the frame, the second period of a displaced record is stored as its generation. -/
theorem exec_ingestActual_spellings :
    (renamedRecord.keys.all fun k => k ∉ fuelhhColumnMap.map Prod.fst) = true ∧
    (exec (ingestActual examplePandas exampleDuckDb exampleParquet
        (.ok [renamedRecord])) .empty).2.rows
      = [⟨1704088800000000, 19723, 13, 5, "WIND"⟩] ∧
    (exec (ingestActual examplePandas exampleDuckDb (fun _ => .ok ())
        (.ok [displacedRecord])) .empty).2.rows
      = [⟨1704088800000000, 19723, 13, 14, "5"⟩] := by
  decide +kernel

/-! ### Two periods -/

/-- Two wind records with their keys in different orders, and one of another fuel for the first's
period. -/
def twoPeriods : List Record :=
  [{ entries := [("startTime", .str "2024-01-01T06:00:00Z"), ("settlementDate", .str "2024-01-01"),
      ("settlementPeriod", .int 13), ("generation", .int 5), ("fuelType", .str "WIND")]
     nodup := by decide },
   { entries := [("startTime", .str "2024-01-01T06:00:00Z"), ("settlementDate", .str "2024-01-01"),
      ("settlementPeriod", .int 13), ("generation", .int 900), ("fuelType", .str "CCGT")]
     nodup := by decide },
   { entries := [("publishTime", .str "2024-01-01T07:00:00Z"), ("fuelType", .str "wind"),
      ("generation", .int 7), ("settlementPeriod", .int 14), ("settlementDate", .str "2024-01-01"),
      ("startTime", .str "2024-01-01T06:30:00Z")]
     nodup := by decide }]

/-- The two wind records have two start times. -/
theorem distinctActual_twoPeriods : DistinctActual examplePandas exampleDuckDb twoPeriods := by
  intro rows hstores
  obtain ⟨f, hf, g, hg, hcolumn⟩ := hstores.startTime
  obtain rfl := Except.ok.inj hf
  obtain rfl := Except.ok.inj hg
  have hstart : rows.map StoredActual.startTime = [1704088800000000, 1704090600000000] := by
    refine List.map_injective_iff.mpr (Option.some_injective Instant) ?_
    rw [← hcolumn]
    decide +kernel
  rw [hstart]
  decide

/-- A table with the row of the period before. -/
def earlierTable : ActualTable ℚ :=
  KeyedTable.empty.upsert ⟨1704087000000000, 19723, 12, 3, "WIND"⟩

/-- The two wind records are loaded, and the row of an earlier period is kept. -/
theorem load_records_twoPeriods :
    ∃ rows, (earlierTable.upsertAll rows).rows = [⟨1704087000000000, 19723, 12, 3, "WIND"⟩,
        ⟨1704088800000000, 19723, 13, 5, "WIND"⟩, ⟨1704090600000000, 19723, 14, 7, "wind"⟩] ∧
      StoresActual examplePandas exampleDuckDb twoPeriods (twoPeriods.filter isWindRecord)
        rows := by
  have hend : (exec (ingestActual examplePandas exampleDuckDb exampleParquet (.ok twoPeriods))
      earlierTable).2.rows = [⟨1704087000000000, 19723, 12, 3, "WIND"⟩,
        ⟨1704088800000000, 19723, 13, 5, "WIND"⟩, ⟨1704090600000000, 19723, 14, 7, "wind"⟩] := by
    decide +kernel
  have hrepeated : ∀ df, exampleParquet df = .ok () → df.names.Nodup := by
    intro df hdf
    by_contra hrepeated
    rw [exampleParquet, if_neg hrepeated] at hdf
    cases hdf
  have hdistinct : ∀ records, .ok twoPeriods = (.ok records : Except String (List Record)) →
      DistinctActual examplePandas exampleDuckDb records := by
    intro records hrecords
    obtain rfl := Except.ok.inj hrecords
    exact distinctActual_twoPeriods
  have hkept : twoPeriods.filter isWindRecord ≠ [] := by
    rw [ne_eq, List.filter_eq_nil_iff]
    decide +kernel
  rcases (load_records examplePandas exampleDuckDb exampleParquet (.ok twoPeriods)
    (Or.inl hrepeated)).1 hdistinct earlierTable with
    ⟨e, he⟩ | ⟨records, rows, hrecords, hexec, -, hstores, -⟩
  · rw [he] at hend
    have hlength : earlierTable.rows.length = 3 := congrArg List.length hend
    exact absurd hlength (by decide)
  · obtain rfl := Except.ok.inj hrecords
    rw [hexec] at hend
    exact ⟨rows, hend, hstores hkept⟩

end WindSight.Records
