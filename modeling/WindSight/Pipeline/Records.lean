import WindSight.Library.DataFrame
import WindSight.Pipeline.Ingest

/-! # Records and frames

Fetching and loading a day, on the records as the API sends them: dictionaries with any keys, whose
values may be missing or of any kind. A frame is made of the records, its columns are renamed, cut
to the required ones and converted, and its rows are inserted by position. The converters of pandas
and the casts of DuckDB are parameters, as is the type `D` of the numbers of a `DOUBLE` column. -/

namespace WindSight.Records

/-! ## Records and cells -/

/-- A value of a record, as `json.loads` reads it. -/
inductive PyValue where
  | null
  | bool (b : Bool)
  | int (n : ℤ)
  | float (x : ℚ)
  | nan
  | infinity (negative : Bool)
  | str (s : String)
  | list (items : List PyValue)
  | dict (items : List (String × PyValue))

/-- A record of the API. -/
abbrev Record := OrderedDict String PyValue

/-- A cell of a frame: the value of a record under a key, if it has the key, or the result of a
conversion, where `none` is `NaT` or `NaN`. -/
inductive Cell (D : Type) where
  | object (v : Option PyValue)
  | timestamp (t : Option Instant)
  | date (d : Option Date)
  | double (x : Option D)

/-- A cell without a value, which DuckDB reads as `NULL`. -/
def Cell.isNull {D : Type} : Cell D → Bool
  | .object none | .object (some .null) | .object (some .nan) => true
  | .object (some _) => false
  | .timestamp t => t.isNone
  | .date d => d.isNone
  | .double x => x.isNone

/-- A frame of the pipeline. -/
abbrev Frame (D : Type) := DataFrame String (Cell D)

/-- Why a day is not loaded: a column is missing (`KeyError`); a converter or `.str` is given the
frame of all columns of a repeated name; something outside the program raises; the frame has the
wrong number of columns for the table; or a row has a `NULL`. -/
inductive RecordError where
  | keyError (column : String)
  | notSeries (column : String)
  | raised (message : String)
  | columnCount (expected supplied : ℕ)
  | notNull
  deriving DecidableEq, Repr

/-! ## Pandas and DuckDB -/

/-- How a column is converted: the column as a whole decides whether it is, and how each cell is; a
cell without a value stays one. -/
structure Conversion (D α : Type) where
  convert : List (Cell D) → Except String (Cell D → Option α)
  null : ∀ {xs f c}, convert xs = .ok f → c.isNull = true → f c = none

/-- The converters of pandas: `pd.to_datetime(column, utc=True)`, `pd.to_datetime(column).dt.date`
and `pd.to_numeric(column, errors="coerce")`, and whether `column.str` raises. -/
structure Pandas (D : Type) where
  toDatetimeUtc : Conversion D Instant
  toDate : Conversion D Date
  toNumeric : Conversion D D
  strAccessor : List (Cell D) → Except String Unit

/-- How DuckDB reads the columns of a frame into columns of a table. -/
structure DuckDb (D : Type) where
  timestamptz : Conversion D Instant
  date : Conversion D Date
  integer : Conversion D ℤ
  double : Conversion D D
  varchar : Conversion D String
  varchar_str : ∀ {xs f} {s : String}, varchar.convert xs = .ok f →
    f (.object (some (.str s))) = some s

variable {D : Type}

/-- Go on with an outcome from outside the program, or raise. -/
def raised {α : Type} : Except String α → Except RecordError α
  | .ok a => .ok a
  | .error e => .error (.raised e)

/-- `df[c]`, where a column is needed. -/
def series (df : Frame D) (c : String) : Except RecordError (List (Cell D)) :=
  match df.getColumns c with
  | [] => .error (.keyError c)
  | [xs] => .ok xs
  | _ => .error (.notSeries c)

/-- `df[c] = conv(df[c])`. -/
def convertColumn {α : Type} (conv : Conversion D α) (cell : Option α → Cell D) (c : String)
    (df : Frame D) : Except RecordError (Frame D) := do
  let xs ← series df c
  let f ← raised (conv.convert xs)
  return df.mapColumn c fun x => cell (f x)

/-- A column of a frame, as DuckDB reads it. -/
def readColumn {α : Type} (conv : Conversion D α) (xs : List (Cell D)) :
    Except RecordError (List (Option α)) := do
  let f ← raised (conv.convert xs)
  return xs.map f

/-! ## Fetching -/

/-- The `column_map` of FUELHH. -/
def fuelhhColumnMap : List (String × String) :=
  [("startTime", "start_time"), ("settlementDate", "settlement_date"),
    ("settlementPeriod", "settlement_period"), ("generation", "generation_mw"),
    ("fuelType", "fuel_type")]

/-- The `column_map` of WINDFOR. -/
def windforColumnMap : List (String × String) :=
  [("startTime", "start_time"), ("publishTime", "publish_time"), ("generation", "generation_mw")]

/-- The name a column is given by a `column_map`: names it does not list stay. -/
def columnName (columnMap : List (String × String)) (k : String) : String :=
  (columnMap.lookup k).getD k

/-- The `keep_cols` of a dataset, in the order of its `column_map`. -/
def keepCols (columnMap : List (String × String)) : List String := columnMap.map Prod.snd

/-- The frame of some records, with its columns renamed and cut to the required ones. -/
def normalize (columnMap : List (String × String)) (records : List Record) : Frame D :=
  let df := (DataFrame.ofRecords Cell.object records).rename (columnName columnMap)
  let available := (keepCols columnMap).filter fun c => c ∈ df.names
  df.select available

/-- `fuel_type.str.upper() == "WIND"` of a cell; a cell that is no string does not compare. -/
def isWindCell : Cell D → Bool
  | .object (some (.str s)) => isWind s
  | _ => false

/-- `fetch_actual_generation`, with the outcome of its request. -/
def fetchActualGeneration (pandas : Pandas D) (response : Except String (List Record)) :
    Except RecordError (Frame D) := do
  let records ← raised response
  if records.isEmpty then
    -- a frame without columns
    return .empty
  else
    let df := normalize fuelhhColumnMap records
    -- the first two raise on a value they cannot read, the third makes it a NaN
    let df ← convertColumn pandas.toDatetimeUtc .timestamp "start_time" df
    let df ← convertColumn pandas.toDate .date "settlement_date" df
    let df ← convertColumn pandas.toNumeric .double "generation_mw" df
    -- the safety check: without the column, nothing is filtered
    if "fuel_type" ∈ df.names then
      let fuelType ← series df "fuel_type"
      raised (pandas.strAccessor fuelType)
      return df.filterRows (fuelType.map isWindCell)
    else
      return df

/-- `fetch_wind_forecast`, with the outcome of its request. -/
def fetchWindForecast (pandas : Pandas D) (response : Except String (List Record)) :
    Except RecordError (Frame D) := do
  let records ← raised response
  if records.isEmpty then
    return .empty
  else
    let df := normalize windforColumnMap records
    let df ← convertColumn pandas.toDatetimeUtc .timestamp "start_time" df
    let df ← convertColumn pandas.toDatetimeUtc .timestamp "publish_time" df
    convertColumn pandas.toNumeric .double "generation_mw" df

/-! ## Loading -/

/-- A row of `actual_generation`: every column is `NOT NULL`. -/
structure StoredActual (D : Type) where
  startTime : Instant
  settlementDate : Date
  settlementPeriod : ℤ
  generationMw : D
  fuelType : String
  deriving DecidableEq

/-- A row of `wind_forecast`. -/
structure StoredForecast (D : Type) where
  startTime : Instant
  publishTime : Instant
  generationMw : D
  deriving DecidableEq

/-- `PRIMARY KEY (start_time, publish_time)`. -/
def StoredForecast.key (r : StoredForecast D) : Instant × Instant := (r.startTime, r.publishTime)

/-- The table `actual_generation`, with `PRIMARY KEY (start_time)`. -/
abbrev ActualTable (D : Type) := KeyedTable (StoredActual.startTime (D := D))

/-- The table `wind_forecast`. -/
abbrev ForecastTable (D : Type) := KeyedTable (StoredForecast.key (D := D))

/-- The rows of a table, if no value of them is `NULL`. -/
def notNull {α β : Type} (row : α → Option β) (values : List α) : Except RecordError (List β) :=
  match values.mapM row with
  | none => .error .notNull
  | some rows => .ok rows

/-- `INSERT OR REPLACE INTO actual_generation SELECT * FROM df`: the columns of the frame are those
of the table by their position. The rows are meant to have distinct keys: of two rows of one key in
one statement DuckDB keeps the first, and the model keeps the last. -/
def insertActual (duck : DuckDb D) (df : Frame D) (table : ActualTable D) :
    Except RecordError (ActualTable D) :=
  -- the names of the columns are not used
  match df.columns.map Prod.snd with
  | [c₁, c₂, c₃, c₄, c₅] => do
    let startTime ← readColumn duck.timestamptz c₁
    let settlementDate ← readColumn duck.date c₂
    let settlementPeriod ← readColumn duck.integer c₃
    let generationMw ← readColumn duck.double c₄
    let fuelType ← readColumn duck.varchar c₅
    let rows ← notNull (fun (t, d, p, g, f) => do return ⟨← t, ← d, ← p, ← g, ← f⟩)
      (startTime.zip (settlementDate.zip (settlementPeriod.zip (generationMw.zip fuelType))))
    return table.upsertAll rows
  | columns => .error (.columnCount 5 columns.length)

/-- `INSERT OR REPLACE INTO wind_forecast SELECT * FROM df`, for rows of distinct keys as well. -/
def insertForecast (duck : DuckDb D) (df : Frame D) (table : ForecastTable D) :
    Except RecordError (ForecastTable D) :=
  match df.columns.map Prod.snd with
  | [c₁, c₂, c₃] => do
    let startTime ← readColumn duck.timestamptz c₁
    let publishTime ← readColumn duck.timestamptz c₂
    let generationMw ← readColumn duck.double c₃
    let rows ← notNull (fun (t, p, g) => do return ⟨← t, ← p, ← g⟩)
      (startTime.zip (publishTime.zip generationMw))
    return table.upsertAll rows
  | columns => .error (.columnCount 3 columns.length)

/-- A step over a table `T`: an exception keeps the table it left. -/
abbrev Load (T : Type) := ExceptT RecordError (StateM T)

/-- A load function: the number of rows of the frame, whose rows it inserts. -/
def load {T : Type} (insert : Frame D → T → Except RecordError T) (df : Frame D) : Load T ℕ := do
  if df.isEmpty then
    return 0
  else
    let table ← get
    let table ← ExceptT.mk (pure (insert df table))
    set table
    return df.height

/-- `load_actual_generation`. -/
def loadActualGeneration (duck : DuckDb D) : Frame D → Load (ActualTable D) ℕ :=
  load (insertActual duck)

/-- `load_wind_forecast`. -/
def loadWindForecast (duck : DuckDb D) : Frame D → Load (ForecastTable D) ℕ :=
  load (insertForecast duck)

/-- A day of a dataset: fetch the frame, and if it is not empty, save it and load it. -/
def ingestDay {T : Type} (fetched : Except RecordError (Frame D))
    (saveParquet : Frame D → Except String Unit) (load : Frame D → Load T ℕ) : Load T ℕ := do
  let df ← ExceptT.mk (pure fetched)
  -- an empty frame is neither saved nor loaded
  if df.isEmpty then
    return 0
  else
    ExceptT.mk (pure (raised (saveParquet df)))
    load df

/-- The actuals of a day. -/
def ingestActual (pandas : Pandas D) (duck : DuckDb D) (saveParquet : Frame D → Except String Unit)
    (response : Except String (List Record)) : Load (ActualTable D) ℕ :=
  ingestDay (fetchActualGeneration pandas response) saveParquet (loadActualGeneration duck)

/-- The forecasts of a day. -/
def ingestForecast (pandas : Pandas D) (duck : DuckDb D)
    (saveParquet : Frame D → Except String Unit) (response : Except String (List Record)) :
    Load (ForecastTable D) ℕ :=
  ingestDay (fetchWindForecast pandas response) saveParquet (loadWindForecast duck)

end WindSight.Records
