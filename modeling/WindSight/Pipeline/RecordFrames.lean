import WindSight.Pipeline.Records

/-! # The fetched frames

What the fetch functions return for records with any keys and values, as columns over the records.
A column is found under the API's name or under its own (`value`); where the records use both, the
frame has it twice, and every conversion of such a column raises. -/

namespace WindSight.Records

open DataFrame

variable {D : Type} {records : List Record}

/-! ## Names of columns -/

/-- The value of a record for a column: under the API's name, or under the column's own. -/
def value (api column : String) (r : Record) : Option PyValue := (r.get? api).or (r.get? column)

/-- The cell of a record for a column. -/
def cellOf (api column : String) (r : Record) : Cell D := .object (value api column r)

/-- All names in a `column_map` are distinct. -/
abbrev Unambiguous (columnMap : List (String × String)) : Prop :=
  (columnMap.map Prod.fst ++ columnMap.map Prod.snd).Nodup

theorem unambiguous_fuelhh : Unambiguous fuelhhColumnMap := by decide

theorem unambiguous_windfor : Unambiguous windforColumnMap := by decide

/-- The keys of the records that are renamed to a column. -/
def spellings (columnMap : List (String × String)) (records : List Record) (column : String) :
    List String :=
  (unionKeys records).filter fun k => columnName columnMap k = column

/-- The columns of the normalized frame under a name, as cells of the records. -/
def objectColumns (columnMap : List (String × String)) (records : List Record) (column : String) :
    List (Record → Cell D) :=
  (spellings columnMap records column).map fun k r => .object (r.get? k)

section ColumnMap

variable {columnMap : List (String × String)} {api column : String}

theorem lookup_eq_some (hmap : (columnMap.map Prod.fst).Nodup)
    (hc : (api, column) ∈ columnMap) : columnMap.lookup api = some column := by
  induction columnMap with
  | nil => exact absurd hc List.not_mem_nil
  | cons e columnMap ih =>
    obtain ⟨he, hmap⟩ := List.nodup_cons.mp hmap
    rcases List.mem_cons.mp hc with rfl | hc
    · exact List.lookup_cons_self
    · have hne : api ≠ e.1 := fun h => he (h ▸ List.mem_map_of_mem hc)
      rw [List.lookup_cons, beq_false_of_ne hne]
      exact ih hmap hc

/-- A column has two spellings: the API's and its own. -/
theorem columnName_eq_iff (hmap : Unambiguous columnMap) (hc : (api, column) ∈ columnMap)
    {k : String} : columnName columnMap k = column ↔ k = api ∨ k = column := by
  obtain ⟨hapi, hcolumn, hdisjoint⟩ := List.nodup_append'.mp hmap
  unfold columnName
  constructor
  · intro h
    cases hk : columnMap.lookup k with
    | none =>
      rw [hk] at h
      exact Or.inr h
    | some c =>
      rw [hk] at h
      obtain rfl : c = column := h
      have hmem : (k, c) ∈ columnMap := by
        obtain ⟨l, l', rfl, -⟩ := List.lookup_eq_some_iff.mp hk
        simp
      exact Or.inl (congrArg Prod.fst (List.inj_on_of_nodup_map hcolumn hmem hc rfl))
  · rintro (rfl | rfl)
    · rw [lookup_eq_some hapi hc]
      rfl
    · -- the column's own name is not one of the API's
      have hnone : columnMap.lookup k = none := by
        rw [List.lookup_eq_none_iff]
        intro e he
        rw [bne_iff_ne]
        rintro rfl
        exact hdisjoint (List.mem_map_of_mem he) (List.mem_map_of_mem (f := Prod.snd) hc)
      rw [hnone]
      rfl

theorem mem_spellings (hmap : Unambiguous columnMap) (hc : (api, column) ∈ columnMap) {k : String} :
    k ∈ spellings columnMap records column ↔ k ∈ unionKeys records ∧ (k = api ∨ k = column) := by
  rw [spellings, List.mem_filter, decide_eq_true_eq, columnName_eq_iff hmap hc]

/-- A column that is spelled in one way holds the values of the records for the column. -/
theorem get?_of_spellings (hmap : Unambiguous columnMap) (hc : (api, column) ∈ columnMap)
    {k : String} (hk : spellings columnMap records column = [k]) {r : Record} (hr : r ∈ records) :
    r.get? k = value api column r := by
  -- a name under which a record has a value is a spelling
  have hspell : ∀ j, r.get? j ≠ none → j = api ∨ j = column → j = k := by
    intro j hj hname
    have hkey : j ∈ r.keys := OrderedDict.mem_keys.mpr (Option.ne_none_iff_exists'.mp hj)
    have hmem := (mem_spellings hmap hc).mpr ⟨mem_unionKeys.mpr ⟨r, hr, hkey⟩, hname⟩
    rw [hk] at hmem
    exact List.mem_singleton.mp hmem
  have hkname : k = api ∨ k = column := by
    have hmem : k ∈ spellings columnMap records column := hk ▸ List.mem_singleton_self k
    exact ((mem_spellings hmap hc).mp hmem).2
  unfold value
  cases hapi : r.get? api with
  | some v =>
    obtain rfl := hspell api (by simp [hapi]) (Or.inl rfl)
    exact hapi
  | none =>
    rw [Option.none_or]
    cases hcol : r.get? column with
    | some v =>
      obtain rfl := hspell column (by simp [hcol]) (Or.inr rfl)
      exact hcol
    | none =>
      rcases hkname with rfl | rfl
      exacts [hapi, hcol]

/-- A column that is spelled in more than one way has both names. -/
theorem mem_unionKeys_of_spellings (hmap : Unambiguous columnMap) (hc : (api, column) ∈ columnMap)
    {k k' : String} {ks : List String} (hk : spellings columnMap records column = k :: k' :: ks) :
    api ∈ unionKeys records ∧ column ∈ unionKeys records := by
  have hnodup : (k :: k' :: ks).Nodup := hk ▸ (unionKeys_nodup records).filter _
  have hne : k ≠ k' := by
    rintro rfl
    simp at hnodup
  have h : ∀ j ∈ k :: k' :: ks, j ∈ unionKeys records ∧ (j = api ∨ j = column) := by
    intro j hj
    rw [← hk] at hj
    exact (mem_spellings hmap hc).mp hj
  obtain ⟨hmem, hname⟩ := h k (by simp)
  obtain ⟨hmem', hname'⟩ := h k' (by simp)
  -- two distinct spellings are the API's and the column's own
  rcases hname with rfl | rfl <;> rcases hname' with rfl | rfl
  · exact absurd rfl hne
  · exact ⟨hmem, hmem'⟩
  · exact ⟨hmem', hmem⟩
  · exact absurd rfl hne

/-- The normalized frame: for each column, a column of cells for each of its spellings. -/
theorem normalize_eq (columnMap : List (String × String)) (records : List Record) :
    (normalize columnMap records : Frame D)
      = grouped records (keepCols columnMap) (objectColumns columnMap records) := by
  unfold normalize ofRecords
  rw [rename_tabulate, select_tabulate]
  have hcols : ∀ c, ((((unionKeys records).map fun k =>
      (k, fun r : Record => (Cell.object (r.get? k) : Cell D))).map fun e =>
        (columnName columnMap e.1, e.2)).filter (·.1 = c)).map Prod.snd
      = objectColumns columnMap records c := by
    intro c
    unfold objectColumns spellings
    rw [List.map_map, List.filter_map, List.map_map]
    rfl
  simp only [hcols]
  refine grouped_filter fun c _ hc => ?_
  -- a column that is not available has no spelling
  rw [decide_eq_false_iff_not] at hc
  rw [objectColumns, List.map_eq_nil_iff, spellings, List.filter_eq_nil_iff]
  intro k hk hkc
  apply hc
  unfold names tabulate
  simp only [List.mem_map, exists_exists_and_eq_and]
  exact ⟨k, hk, of_decide_eq_true hkc⟩

/-- A name that has a single column has the values for it. -/
theorem eq_cellOf_of_objectColumns {api column : String} (hmap : Unambiguous columnMap)
    (hc : (api, column) ∈ columnMap) {g : Record → Cell D}
    (hg : objectColumns columnMap records column = [g]) {r : Record} (hr : r ∈ records) :
    g r = cellOf api column r := by
  obtain ⟨k, hk, rfl⟩ := List.map_eq_singleton_iff.mp hg
  exact congrArg Cell.object (get?_of_spellings hmap hc hk hr)

end ColumnMap

/-! ## Conversions -/

theorem bind_eq_ok {ε α β : Type} {x : Except ε α} {f : α → Except ε β} {b : β} :
    (x >>= f) = .ok b ↔ ∃ a, x = .ok a ∧ f a = .ok b := by
  cases x <;> simp [bind, Except.bind]

theorem bind_eq_error {ε α β : Type} {x : Except ε α} {f : α → Except ε β} {e : ε} :
    (x >>= f) = .error e ↔ x = .error e ∨ ∃ a, x = .ok a ∧ f a = .error e := by
  cases x <;> simp [bind, Except.bind]

theorem raised_eq_ok {α : Type} {x : Except String α} {a : α} : raised x = .ok a ↔ x = .ok a := by
  cases x <;> simp [raised]

section Grouped

variable {ns : List String} {F : String → List (Record → Cell D)} {c : String}

theorem series_grouped (hns : ns.Nodup) (hc : c ∈ ns) {xs : List (Cell D)} :
    series (grouped records ns F) c = .ok xs ↔ ∃ g, F c = [g] ∧ xs = records.map g := by
  unfold series
  rw [getColumns_grouped hns hc]
  rcases F c with _ | ⟨g, _ | ⟨g', gs⟩⟩ <;> simp [eq_comm]

/-- A conversion succeeds on a column of one spelling only. -/
theorem convertColumn_grouped {α : Type} {conv : Conversion D α} {cell : Option α → Cell D}
    (hns : ns.Nodup) (hc : c ∈ ns) {df : Frame D} :
    convertColumn conv cell c (grouped records ns F) = .ok df ↔
      ∃ g f, F c = [g] ∧ conv.convert (records.map g) = .ok f ∧
        df = grouped records ns (Function.update F c [fun r => cell (f (g r))]) := by
  unfold convertColumn
  rw [bind_eq_ok]
  simp only [series_grouped hns hc, bind_eq_ok, raised_eq_ok, mapColumn_grouped]
  constructor
  · rintro ⟨xs, ⟨g, hg, rfl⟩, f, hf, hdf⟩
    obtain rfl := Except.ok.inj hdf
    refine ⟨g, f, hg, hf, ?_⟩
    rw [hg]
    rfl
  · rintro ⟨g, f, hg, hf, rfl⟩
    refine ⟨_, ⟨g, hg, rfl⟩, f, hf, ?_⟩
    rw [hg]
    rfl

end Grouped

/-- A record of wind generation. -/
def isWindRecord (r : Record) : Bool :=
  match value "fuelType" "fuel_type" r with
  | some (.str s) => isWind s
  | _ => false

theorem isWindCell_cellOf (r : Record) :
    isWindCell (cellOf "fuelType" "fuel_type" r : Cell D) = isWindRecord r := by
  unfold isWindCell cellOf isWindRecord
  cases value "fuelType" "fuel_type" r with
  | none => rfl
  | some v => cases v <;> rfl

/-! ## The fetched frames -/

section Fetch

variable {columnMap : List (String × String)} {pandas : Pandas D} {df : Frame D}

/-- A column `g` of the frame is that of the records' values, converted. -/
def Converted {α : Type} (conv : Conversion D α) (cell : Option α → Cell D) (api column : String)
    (records : List Record) (g : Record → Cell D) : Prop :=
  ∃ f, conv.convert (records.map (cellOf api column)) = .ok f ∧
    ∀ r ∈ records, g r = cell (f (cellOf api column r))

/-- A conversion of a column of the normalized frame. -/
theorem converted_of_convertColumn {α : Type} {conv : Conversion D α} {cell : Option α → Cell D}
    {api column : String} (hmap : Unambiguous columnMap) (hc : (api, column) ∈ columnMap)
    {F : String → List (Record → Cell D)} (hF : F column = objectColumns columnMap records column)
    (h : convertColumn conv cell column (grouped records (keepCols columnMap) F) = .ok df) :
    ∃ g, Converted conv cell api column records g ∧
      df = grouped records (keepCols columnMap) (Function.update F column [g]) := by
  have hns : (keepCols columnMap).Nodup := (List.nodup_append'.mp hmap).2.1
  obtain ⟨g, f, hg, hf, rfl⟩ :=
    (convertColumn_grouped hns (List.mem_map_of_mem (f := Prod.snd) hc)).mp h
  -- a column that is converted has one spelling, and holds the values under it
  have hvalue : ∀ r ∈ records, g r = cellOf api column r := fun r hr =>
    eq_cellOf_of_objectColumns hmap hc (hF ▸ hg) hr
  refine ⟨_, ⟨f, ?_, ?_⟩, rfl⟩
  · rw [← List.map_congr_left hvalue, hf]
  · intro r hr
    rw [hvalue r hr]

/-- The columns of the frame of FUELHH records. -/
def actualColumns (records : List Record) (g₁ g₂ g₄ : Record → Cell D) :
    List (String × (Record → Cell D)) :=
  [("start_time", g₁), ("settlement_date", g₂)]
    ++ (objectColumns fuelhhColumnMap records "settlement_period").map ("settlement_period", ·)
    ++ [("generation_mw", g₄)]
    ++ (objectColumns fuelhhColumnMap records "fuel_type").map ("fuel_type", ·)

/-- The frame after its three conversions. -/
theorem grouped_converted (records : List Record) (g₁ g₂ g₄ : Record → Cell D) :
    grouped records (keepCols fuelhhColumnMap)
        (Function.update (Function.update (Function.update (objectColumns fuelhhColumnMap records)
          "start_time" [g₁]) "settlement_date" [g₂]) "generation_mw" [g₄])
      = tabulate records (actualColumns records g₁ g₂ g₄) := by
  unfold grouped
  apply congrArg (tabulate records)
  simp [keepCols, fuelhhColumnMap, actualColumns]

/-- The mask of the column of fuel types is that of the wind records. -/
theorem map_isWindCell {g : Record → Cell D}
    (hg : objectColumns fuelhhColumnMap records "fuel_type" = [g]) :
    (records.map g).map isWindCell = records.map isWindRecord := by
  rw [List.map_map]
  apply List.map_congr_left
  intro r hr
  rw [Function.comp_apply, ← isWindCell_cellOf (D := D),
    eq_cellOf_of_objectColumns unambiguous_fuelhh (by decide : ("fuelType", _) ∈ _) hg hr]

/-- What `fetch_actual_generation` returns: three converted columns, the settlement period under
each of its spellings, and the fuel type, by which the records are filtered if there is one. -/
theorem fetchActualGeneration_eq_ok (hne : records ≠ [])
    (h : fetchActualGeneration pandas (.ok records) = .ok df) :
    ∃ g₁ g₂ g₄,
      Converted pandas.toDatetimeUtc .timestamp "startTime" "start_time" records g₁ ∧
      Converted pandas.toDate .date "settlementDate" "settlement_date" records g₂ ∧
      Converted pandas.toNumeric .double "generation" "generation_mw" records g₄ ∧
      ((spellings fuelhhColumnMap records "fuel_type" = [] ∧
          df = tabulate records (actualColumns records g₁ g₂ g₄)) ∨
        ((∃ k, spellings fuelhhColumnMap records "fuel_type" = [k]) ∧
          df = tabulate (records.filter isWindRecord) (actualColumns records g₁ g₂ g₄))) := by
  unfold fetchActualGeneration at h
  simp only [raised, bind_eq_ok, Except.ok.injEq, exists_eq_left', normalize_eq,
    List.isEmpty_iff, hne, if_false] at h
  obtain ⟨df₁, h₁, df₂, h₂, df₃, h₃, h⟩ := h
  obtain ⟨g₁, hg₁, rfl⟩ :=
    converted_of_convertColumn unambiguous_fuelhh (by decide : ("startTime", _) ∈ _) rfl h₁
  obtain ⟨g₂, hg₂, rfl⟩ :=
    converted_of_convertColumn unambiguous_fuelhh (by decide : ("settlementDate", _) ∈ _)
      (by simp) h₂
  obtain ⟨g₄, hg₄, rfl⟩ :=
    converted_of_convertColumn unambiguous_fuelhh (by decide : ("generation", _) ∈ _) (by simp) h₃
  refine ⟨g₁, g₂, g₄, hg₁, hg₂, hg₄, ?_⟩
  have hfuel : Function.update (Function.update (Function.update
      (objectColumns fuelhhColumnMap records) "start_time" [g₁]) "settlement_date" [g₂])
        "generation_mw" [g₄] "fuel_type"
      = objectColumns fuelhhColumnMap records "fuel_type" := by simp
  have hns : (keepCols fuelhhColumnMap).Nodup := by decide
  have hmem : "fuel_type" ∈ keepCols fuelhhColumnMap := by decide
  split at h
  · -- with a fuel type, the frame is cut to the wind records
    right
    simp only [bind_eq_ok, series_grouped hns hmem] at h
    obtain ⟨xs, ⟨g, hg, rfl⟩, -, -, h⟩ := h
    rw [hfuel] at hg
    obtain ⟨k, hk, -⟩ := List.map_eq_singleton_iff.mp hg
    rw [grouped_converted, map_isWindCell hg, filterRows_tabulate] at h
    exact ⟨⟨k, hk⟩, (Except.ok.inj h).symm⟩
  · next hnames =>
    -- without one, all records stay
    left
    rw [mem_names_grouped, not_and_not_right, hfuel] at hnames
    rw [grouped_converted] at h
    exact ⟨List.map_eq_nil_iff.mp (hnames hmem), (Except.ok.inj h).symm⟩

/-- What `fetch_wind_forecast` returns: three converted columns. -/
theorem fetchWindForecast_eq_ok (hne : records ≠ [])
    (h : fetchWindForecast pandas (.ok records) = .ok df) :
    ∃ g₁ g₂ g₃,
      Converted pandas.toDatetimeUtc .timestamp "startTime" "start_time" records g₁ ∧
      Converted pandas.toDatetimeUtc .timestamp "publishTime" "publish_time" records g₂ ∧
      Converted pandas.toNumeric .double "generation" "generation_mw" records g₃ ∧
      df = tabulate records
        [("start_time", g₁), ("publish_time", g₂), ("generation_mw", g₃)] := by
  unfold fetchWindForecast at h
  simp only [raised, bind_eq_ok, Except.ok.injEq, exists_eq_left', normalize_eq,
    List.isEmpty_iff, hne, if_false] at h
  obtain ⟨df₁, h₁, df₂, h₂, h₃⟩ := h
  obtain ⟨g₁, hg₁, rfl⟩ :=
    converted_of_convertColumn unambiguous_windfor (by decide : ("startTime", _) ∈ _) rfl h₁
  obtain ⟨g₂, hg₂, rfl⟩ :=
    converted_of_convertColumn unambiguous_windfor (by decide : ("publishTime", _) ∈ _)
      (by simp) h₂
  obtain ⟨g₃, hg₃, rfl⟩ :=
    converted_of_convertColumn unambiguous_windfor (by decide : ("generation", _) ∈ _) (by simp) h₃
  refine ⟨g₁, g₂, g₃, hg₁, hg₂, hg₃, ?_⟩
  unfold grouped
  refine congrArg (tabulate records) ?_
  simp [keepCols, windforColumnMap]

end Fetch

end WindSight.Records
