import WindSight.Library.OrderedDict
import Mathlib.Data.List.Induction
import Mathlib.Logic.Function.Basic

/-! # Data frames

Tables of named columns, in the shape of pandas: built from records, renamed, cut to some columns,
converted column by column and filtered by a mask. Column names may repeat, and a selection by name
then takes every column of that name. A frame whose columns are functions of one list of rows is a
`tabulate`, and `grouped` lists such columns name by name; each operation comes with its effect on
frames of this form. -/

/-- A table of named columns of one height. -/
@[ext] structure DataFrame (κ α : Type*) where
  columns : List (κ × List α)
  height : ℕ
  length_eq : ∀ c ∈ columns, c.2.length = height

namespace DataFrame

variable {κ α ρ : Type*}

/-- `pd.DataFrame()`. -/
def empty : DataFrame κ α := ⟨[], 0, nofun⟩

/-- `df.columns`. -/
def names (df : DataFrame κ α) : List κ := df.columns.map Prod.fst

/-- `df.empty`: there are no rows or no columns. -/
def isEmpty (df : DataFrame κ α) : Bool := df.height = 0 || df.columns.isEmpty

/-- The frame of the columns `cols` over the rows `rows`. -/
def tabulate (rows : List ρ) (cols : List (κ × (ρ → α))) : DataFrame κ α where
  columns := cols.map fun c => (c.1, rows.map c.2)
  height := rows.length
  length_eq := by
    intro c hc
    obtain ⟨c, -, rfl⟩ := List.mem_map.mp hc
    exact List.length_map _

/-- `df.rename(columns=f)`. -/
def rename (f : κ → κ) (df : DataFrame κ α) : DataFrame κ α where
  columns := df.columns.map fun c => (f c.1, c.2)
  height := df.height
  length_eq := by
    intro c hc
    obtain ⟨c', hc', rfl⟩ := List.mem_map.mp hc
    exact df.length_eq c' hc'

variable [DecidableEq κ]

/-- `df[ns]`, for a list `ns` of names: for each name, the columns of that name in their order. -/
def select (ns : List κ) (df : DataFrame κ α) : DataFrame κ α where
  columns := ns.flatMap fun n => df.columns.filter (·.1 = n)
  height := df.height
  length_eq := by
    intro c hc
    obtain ⟨n, -, hc⟩ := List.mem_flatMap.mp hc
    exact df.length_eq c (List.mem_of_mem_filter hc)

/-- The columns of a name. -/
def getColumns (n : κ) (df : DataFrame κ α) : List (List α) :=
  (df.columns.filter (·.1 = n)).map Prod.snd

/-- `df[n] = …` of a column computed cell by cell. -/
def mapColumn (n : κ) (f : α → α) (df : DataFrame κ α) : DataFrame κ α where
  columns := df.columns.map fun c => if c.1 = n then (c.1, c.2.map f) else c
  height := df.height
  length_eq := by
    intro c hc
    obtain ⟨c', hc', rfl⟩ := List.mem_map.mp hc
    split_ifs
    · rw [List.length_map]
      exact df.length_eq c' hc'
    · exact df.length_eq c' hc'

/-- The members of a list at which a mask is true. -/
def applyMask (mask : List Bool) (xs : List α) : List α :=
  ((xs.zip mask).filter Prod.snd).map Prod.fst

theorem applyMask_map (rows : List ρ) (p : ρ → Bool) (f : ρ → α) :
    applyMask (rows.map p) (rows.map f) = (rows.filter p).map f := by
  induction rows with
  | nil => rfl
  | cons r rows ih =>
    unfold applyMask at ih ⊢
    cases hp : p r <;> simp [hp, ih]

/-- The number of members kept depends on the length of the list only. -/
theorem length_applyMask (mask : List Bool) (xs : List α) :
    (applyMask mask xs).length = (mask.take xs.length).countP id := by
  induction xs generalizing mask with
  | nil => simp [applyMask]
  | cons x xs ih =>
    cases mask with
    | nil => simp [applyMask]
    | cons b mask =>
      have htail := ih mask
      unfold applyMask at htail ⊢
      cases b <;> simp_all

/-- `df[mask]`. -/
def filterRows (mask : List Bool) (df : DataFrame κ α) : DataFrame κ α where
  columns := df.columns.map fun c => (c.1, applyMask mask c.2)
  height := (mask.take df.height).countP id
  length_eq := by
    intro c hc
    obtain ⟨c', hc', rfl⟩ := List.mem_map.mp hc
    rw [length_applyMask, df.length_eq c' hc']

/-! ## Frames of columns over one list of rows -/

section Tabulate

variable {rows : List ρ} {cols : List (κ × (ρ → α))}

/-- The frame that has, for each of the names `ns` in turn, the columns `F n` over the rows. -/
def grouped (rows : List ρ) (ns : List κ) (F : κ → List (ρ → α)) : DataFrame κ α :=
  tabulate rows (ns.flatMap fun n => (F n).map fun g => (n, g))

omit [DecidableEq κ] in
theorem columns_tabulate :
    (tabulate rows cols).columns.map Prod.snd = (cols.map Prod.snd).map fun g => rows.map g := by
  unfold tabulate
  rw [List.map_map, List.map_map]
  rfl

omit [DecidableEq κ] in
theorem names_tabulate : (tabulate rows cols).names = cols.map Prod.fst := by
  unfold names tabulate
  rw [List.map_map]
  rfl

omit [DecidableEq κ] in
theorem isEmpty_tabulate :
    (tabulate rows cols).isEmpty = true ↔ rows = [] ∨ cols = [] := by
  simp [isEmpty, tabulate]

omit [DecidableEq κ] in
theorem rename_tabulate (f : κ → κ) :
    (tabulate rows cols).rename f = tabulate rows (cols.map fun c => (f c.1, c.2)) := by
  ext1
  · simp [tabulate, rename]
  · rfl

theorem select_tabulate (ns : List κ) :
    (tabulate rows cols).select ns
      = grouped rows ns fun n => (cols.filter (·.1 = n)).map Prod.snd := by
  ext1
  · simp only [select, tabulate, grouped, List.map_flatMap, List.filter_map, List.map_map]
    refine congrArg (fun f => ns.flatMap f) (funext fun n => ?_)
    refine List.map_congr_left fun c hc => ?_
    have hn : c.1 = n := by simpa using List.of_mem_filter hc
    simp [hn]
  · rfl

omit [DecidableEq κ] in
theorem filterRows_tabulate (p : ρ → Bool) :
    (tabulate rows cols).filterRows (rows.map p) = tabulate (rows.filter p) cols := by
  ext1
  · simp only [filterRows, tabulate, List.map_map]
    exact List.map_congr_left fun c _ => Prod.ext rfl (applyMask_map rows p c.2)
  · show ((rows.map p).take rows.length).countP id = (rows.filter p).length
    rw [List.take_of_length_le (List.length_map p).le, List.countP_map,
      List.countP_eq_length_filter]
    rfl

variable {ns : List κ} {F : κ → List (ρ → α)} {n : κ}

omit [DecidableEq κ] in
theorem mem_names_grouped : n ∈ (grouped rows ns F).names ↔ n ∈ ns ∧ F n ≠ [] := by
  unfold names grouped tabulate
  rw [List.map_map, List.mem_map]
  simp only [List.mem_flatMap, List.mem_map]
  constructor
  · rintro ⟨-, ⟨m, hm, g, hg, rfl⟩, rfl⟩
    exact ⟨hm, List.ne_nil_of_mem hg⟩
  · rintro ⟨hn, hne⟩
    obtain ⟨g, hg⟩ := List.exists_mem_of_ne_nil _ hne
    exact ⟨(n, g), ⟨n, hn, g, hg, rfl⟩, rfl⟩

omit [DecidableEq κ] in
/-- Names without columns may be left out. -/
theorem grouped_filter {p : κ → Bool} (hp : ∀ m ∈ ns, p m = false → F m = []) :
    grouped rows (ns.filter p) F = grouped rows ns F := by
  unfold grouped
  refine congrArg (tabulate rows) ?_
  induction ns with
  | nil => rfl
  | cons m ns ih =>
    have htail := ih fun k hk => hp k (List.mem_cons_of_mem m hk)
    cases hm : p m with
    | true => rw [List.filter_cons_of_pos hm, List.flatMap_cons, List.flatMap_cons, htail]
    | false =>
      rw [List.filter_cons_of_neg (by simp [hm]), List.flatMap_cons,
        hp m List.mem_cons_self hm, htail]
      rfl

/-- The columns of a name, where no name is listed twice. -/
theorem getColumns_grouped (hns : ns.Nodup) (hn : n ∈ ns) :
    (grouped rows ns F).getColumns n = (F n).map fun g => rows.map g := by
  have hnone : ∀ ms : List κ, n ∉ ms →
      ((grouped rows ms F).columns.filter (·.1 = n)) = [] := by
    intro ms hms
    rw [List.filter_eq_nil_iff]
    intro c hc hcn
    have hmem : n ∈ (grouped rows ms F).names := by
      rw [← of_decide_eq_true hcn]
      exact List.mem_map_of_mem hc
    exact hms (mem_names_grouped.mp hmem).1
  have happ : ∀ m ms, (grouped rows (m :: ms) F).columns
      = (F m).map (fun g => (m, rows.map g)) ++ (grouped rows ms F).columns := by
    intro m ms
    simp [grouped, tabulate]
  unfold getColumns
  induction ns with
  | nil => exact absurd hn List.not_mem_nil
  | cons m ns ih =>
    obtain ⟨hm, hns⟩ := List.nodup_cons.mp hns
    rw [happ, List.filter_append, List.map_append]
    rcases List.mem_cons.mp hn with rfl | hn
    · rw [hnone ns hm]
      simp [List.filter_map, Function.comp_def]
    · have hne : m ≠ n := fun h => hm (h ▸ hn)
      rw [ih hns hn]
      simp [List.filter_map, Function.comp_def, hne]

theorem mapColumn_grouped (f : α → α) :
    (grouped rows ns F).mapColumn n f
      = grouped rows ns (Function.update F n ((F n).map fun g => f ∘ g)) := by
  ext1
  · unfold mapColumn grouped tabulate
    simp only [List.map_flatMap, List.map_map]
    refine congrArg (fun h => ns.flatMap h) (funext fun m => ?_)
    by_cases hm : m = n
    · subst hm
      simp [Function.comp_def]
    · simp [hm, Function.comp_def]
  · rfl

end Tabulate

/-! ## Records -/

section Records

variable {ν : Type*}

/-- The keys of some records, in the order of their first appearance. -/
def unionKeys (records : List (OrderedDict κ ν)) : List κ :=
  records.foldl (fun keys r => keys ++ r.keys.filter (· ∉ keys)) []

theorem unionKeys_append_singleton (records : List (OrderedDict κ ν)) (r : OrderedDict κ ν) :
    unionKeys (records ++ [r])
      = unionKeys records ++ r.keys.filter (· ∉ unionKeys records) := by
  unfold unionKeys
  rw [List.foldl_append, List.foldl_cons, List.foldl_nil]

theorem mem_unionKeys {records : List (OrderedDict κ ν)} {k : κ} :
    k ∈ unionKeys records ↔ ∃ r ∈ records, k ∈ r.keys := by
  induction records using List.reverseRecOn with
  | nil => simp [unionKeys]
  | append_singleton records r ih =>
    rw [unionKeys_append_singleton, List.mem_append, List.mem_filter, decide_eq_true_eq, ih]
    simp only [List.mem_append, List.mem_singleton, or_and_right, exists_or, exists_eq_left]
    by_cases hk : ∃ r ∈ records, k ∈ r.keys
    · exact iff_of_true (Or.inl hk) (Or.inl hk)
    · rw [and_iff_left hk]

theorem unionKeys_nodup (records : List (OrderedDict κ ν)) : (unionKeys records).Nodup := by
  induction records using List.reverseRecOn with
  | nil => exact List.nodup_nil
  | append_singleton records r ih =>
    rw [unionKeys_append_singleton, List.nodup_append']
    refine ⟨ih, r.nodup_keys.filter _, ?_⟩
    intro k hk hk'
    rw [List.mem_filter, decide_eq_true_eq] at hk'
    exact hk'.2 hk

/-- `pd.DataFrame(records)`: a column for each key, whose cells are made of the values of the
records under it, if any. -/
def ofRecords (cell : Option ν → α) (records : List (OrderedDict κ ν)) : DataFrame κ α :=
  tabulate records ((unionKeys records).map fun k => (k, fun r => cell (r.get? k)))

end Records

end DataFrame
