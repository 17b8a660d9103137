import Mathlib.Data.List.Dedup
import Mathlib.Data.Set.Function

/-! # Keyed tables and upserts

A table with a primary key is a list of rows whose keys are duplicate-free; `upsert` inserts a row,
replacing the row of the same key (`INSERT OR REPLACE`). The abstract side is the set-level
`overlay key T S`, "`T` upserted with `S`": on rows that agree whenever their keys do, a sequence of
upserts computes the overlay with the *set* of upserted rows, so neither their order nor their
repetition matters. -/

variable {ρ κ : Type*}

/-- A table with primary key `key`: no two rows share a key. -/
structure KeyedTable (key : ρ → κ) where
  /-- The rows, in no meaningful order. -/
  rows : List ρ
  /-- The primary key constraint. -/
  nodup : (rows.map key).Nodup

/-! ## Overlays of sets of rows -/

/-- The rows of `T` upserted with the rows of `S`: those of `S`, and those of `T` whose key `S` does
not mention. -/
def overlay (key : ρ → κ) (T S : Set ρ) : Set ρ := S ∪ {x ∈ T | key x ∉ key '' S}

section Overlay

variable {key : ρ → κ} {T S S' : Set ρ}

theorem mem_overlay {x : ρ} : x ∈ overlay key T S ↔ x ∈ S ∨ (x ∈ T ∧ key x ∉ key '' S) := Iff.rfl

/-- Upserting nothing changes nothing. -/
@[simp] theorem overlay_empty : overlay key T ∅ = T := by
  ext x
  simp [mem_overlay]

/-- Successive overlays by agreeing sets are the overlay by their union. -/
theorem overlay_overlay (h : Set.InjOn key (S ∪ S')) :
    overlay key (overlay key T S) S' = overlay key T (S ∪ S') := by
  ext x
  simp only [mem_overlay, Set.mem_union, Set.image_union]
  constructor
  · rintro (hx | ⟨hx | ⟨hx, hS⟩, hS'⟩)
    · exact Or.inl (Or.inr hx)
    · exact Or.inl (Or.inl hx)
    · exact Or.inr ⟨hx, not_or.mpr ⟨hS, hS'⟩⟩
  · rintro ((hx | hx) | ⟨hx, hSS'⟩)
    · -- a row of `S` is kept by `S'` unless `S'` has its key, and then `S'` has the row itself
      by_cases hk : key x ∈ key '' S'
      · obtain ⟨y, hy, hyx⟩ := hk
        exact Or.inl (h (Or.inr hy) (Or.inl hx) hyx ▸ hy)
      · exact Or.inr ⟨Or.inl hx, hk⟩
    · exact Or.inl hx
    · exact Or.inr ⟨Or.inr ⟨hx, (not_or.mp hSS').1⟩, (not_or.mp hSS').2⟩

/-- Upserting all the rows there are, and more, leaves what is upserted. -/
theorem overlay_of_subset (h : T ⊆ S) : overlay key T S = S := by
  ext x
  rw [mem_overlay]
  constructor
  · rintro (hx | ⟨hx, -⟩)
    exacts [hx, h hx]
  · exact Or.inl

/-- Upserting rows a keyed set already has changes nothing. -/
theorem overlay_eq_self (hT : Set.InjOn key T) (h : S ⊆ T) : overlay key T S = T := by
  ext x
  rw [mem_overlay]
  constructor
  · rintro (hx | ⟨hx, -⟩)
    exacts [h hx, hx]
  · intro hx
    -- a row whose key is upserted is the row upserted
    by_cases hk : key x ∈ key '' S
    · obtain ⟨y, hy, hyx⟩ := hk
      exact Or.inl (hT (h hy) hx hyx ▸ hy)
    · exact Or.inr ⟨hx, hk⟩

end Overlay

namespace KeyedTable

variable {key : ρ → κ}

/-- The set of rows of a table. -/
def rowSet (t : KeyedTable key) : Set ρ := {x | x ∈ t.rows}

instance : Membership ρ (KeyedTable key) := ⟨fun t x => x ∈ t.rows⟩

@[simp] theorem mem_rows {t : KeyedTable key} {x : ρ} : x ∈ t.rows ↔ x ∈ t := Iff.rfl

@[simp] theorem mem_rowSet {t : KeyedTable key} {x : ρ} : x ∈ t.rowSet ↔ x ∈ t := Iff.rfl

/-- The empty table. -/
def empty : KeyedTable key := ⟨[], List.nodup_nil⟩

instance : Inhabited (KeyedTable key) := ⟨empty⟩

@[simp] theorem notMem_empty (x : ρ) : x ∉ (empty : KeyedTable key) := List.not_mem_nil

@[simp] theorem rowSet_empty : (empty : KeyedTable key).rowSet = ∅ := by
  ext x
  simp

/-- Rows of a table with the same key are the same row. -/
theorem eq_of_key_eq {t : KeyedTable key} {x y : ρ} (hx : x ∈ t) (hy : y ∈ t)
    (h : key x = key y) : x = y :=
  List.inj_on_of_nodup_map t.nodup hx hy h

theorem rowSet_injOn (t : KeyedTable key) : Set.InjOn key t.rowSet :=
  fun _ hx _ hy h => eq_of_key_eq hx hy h

/-- A selection of the rows of a table. -/
def filter (p : ρ → Bool) (t : KeyedTable key) : KeyedTable key :=
  ⟨t.rows.filter p, t.nodup.sublist (List.filter_sublist.map key)⟩

@[simp] theorem mem_filter {t : KeyedTable key} {p : ρ → Bool} {x : ρ} :
    x ∈ t.filter p ↔ x ∈ t ∧ p x = true := by
  rw [← mem_rows, filter, List.mem_filter, mem_rows]

section Map

variable {ρ' : Type*} {key' : ρ' → κ} {f : ρ → ρ'}

/-- The rows of a table in another form, with the same keys. -/
def map (f : ρ → ρ') (hf : ∀ x, key' (f x) = key x) (t : KeyedTable key) : KeyedTable key' where
  rows := t.rows.map f
  nodup := by
    have hkeys : key' ∘ f = key := funext hf
    rw [List.map_map, hkeys]
    exact t.nodup

end Map

section Upsert

variable [DecidableEq κ]

/-- Insert a row, replacing the row of the same key. -/
def upsert (t : KeyedTable key) (r : ρ) : KeyedTable key where
  rows := t.rows.filter (fun x => key x ≠ key r) ++ [r]
  nodup := by
    rw [List.map_append, List.map_singleton, List.nodup_append]
    refine ⟨t.nodup.sublist (List.filter_sublist.map key), List.nodup_singleton _, ?_⟩
    rintro k hk k' hk' rfl
    obtain ⟨x, hx, rfl⟩ := List.mem_map.mp hk
    exact absurd (List.mem_singleton.mp hk') (by simpa using (List.mem_filter.mp hx).2)

/-- Insert the rows of a list one after the other. It is `INSERT OR REPLACE … SELECT * FROM rs` for
rows that agree whenever their keys do; of other rows, which one stays depends on the database. -/
def upsertAll (t : KeyedTable key) (rs : List ρ) : KeyedTable key := rs.foldl upsert t

@[simp] theorem upsertAll_nil (t : KeyedTable key) : t.upsertAll [] = t := rfl

@[simp] theorem upsertAll_cons (t : KeyedTable key) (r : ρ) (rs : List ρ) :
    t.upsertAll (r :: rs) = (t.upsert r).upsertAll rs := rfl

theorem upsertAll_append (t : KeyedTable key) (rs rs' : List ρ) :
    t.upsertAll (rs ++ rs') = (t.upsertAll rs).upsertAll rs' := List.foldl_append

theorem mem_upsert {t : KeyedTable key} {r x : ρ} :
    x ∈ t.upsert r ↔ x = r ∨ (x ∈ t ∧ key x ≠ key r) := by
  rw [← mem_rows, upsert, List.mem_append, List.mem_filter, List.mem_singleton, mem_rows]
  simp [or_comm]

/-- One upsert is the overlay by one row. -/
theorem rowSet_upsert (t : KeyedTable key) (r : ρ) :
    (t.upsert r).rowSet = overlay key t.rowSet {r} := by
  ext x
  rw [mem_rowSet, mem_upsert, mem_overlay]
  simp

/-- **Upserting a list of agreeing rows computes the overlay by its set of rows.** -/
theorem rowSet_upsertAll (t : KeyedTable key) {rs : List ρ} (h : Set.InjOn key {x | x ∈ rs}) :
    (t.upsertAll rs).rowSet = overlay key t.rowSet {x | x ∈ rs} := by
  induction rs generalizing t with
  | nil => simp
  | cons r rs ih =>
    have hset : {x | x ∈ r :: rs} = ({r} ∪ {x | x ∈ rs} : Set ρ) := by
      ext x
      simp
    rw [hset] at h ⊢
    rw [upsertAll_cons, ih (t.upsert r) (h.mono Set.subset_union_right), rowSet_upsert,
      overlay_overlay h]

/-- Upserted rows are in the table, if they agree on their keys. -/
theorem mem_upsertAll_of_mem (t : KeyedTable key) {rs : List ρ} (h : Set.InjOn key {x | x ∈ rs})
    {x : ρ} (hx : x ∈ rs) : x ∈ t.upsertAll rs := by
  rw [← mem_rowSet, rowSet_upsertAll t h]
  exact Or.inl hx

/-- A row after upserts was there before, or was upserted. -/
theorem mem_or_mem_of_mem_upsertAll {t : KeyedTable key} {rs : List ρ} {x : ρ}
    (h : x ∈ t.upsertAll rs) : x ∈ t ∨ x ∈ rs := by
  induction rs generalizing t with
  | nil => exact Or.inl h
  | cons r rs ih =>
    rcases ih h with hx | hx
    · rcases mem_upsert.mp hx with rfl | ⟨hx, -⟩
      · exact Or.inr List.mem_cons_self
      · exact Or.inl hx
    · exact Or.inr (List.mem_cons_of_mem _ hx)

/-- Upserting rows a table already has changes nothing. -/
theorem rowSet_upsertAll_of_subset {t : KeyedTable key} {rs : List ρ} (h : ∀ x ∈ rs, x ∈ t) :
    (t.upsertAll rs).rowSet = t.rowSet := by
  rw [rowSet_upsertAll t (t.rowSet_injOn.mono h)]
  exact overlay_eq_self t.rowSet_injOn h

/-- Upserting rows of distinct keys replaces the rows of their keys and keeps the others. -/
theorem mem_upsertAll_iff (t : KeyedTable key) {rs : List ρ} (h : (rs.map key).Nodup) (x : ρ) :
    x ∈ t.upsertAll rs ↔ x ∈ rs ∨ (x ∈ t ∧ ∀ r ∈ rs, key r ≠ key x) := by
  have hinj : Set.InjOn key {r | r ∈ rs} := List.inj_on_of_nodup_map h
  rw [← mem_rowSet, rowSet_upsertAll t hinj, mem_overlay]
  simp

/-- Upserting commutes with a change of the rows' form. -/
theorem map_upsert {ρ' : Type*} {key' : ρ' → κ} {f : ρ → ρ'} {hf : ∀ x, key' (f x) = key x}
    (t : KeyedTable key) (r : ρ) : (t.upsert r).map f hf = (t.map f hf).upsert (f r) := by
  unfold upsert map
  congr 1
  rw [List.map_append, List.map_singleton, List.filter_map]
  simp only [Function.comp_def, hf]

theorem map_upsertAll {ρ' : Type*} {key' : ρ' → κ} {f : ρ → ρ'} {hf : ∀ x, key' (f x) = key x}
    (t : KeyedTable key) (rs : List ρ) :
    (t.upsertAll rs).map f hf = (t.map f hf).upsertAll (rs.map f) := by
  induction rs generalizing t with
  | nil => rfl
  | cons r rs ih => rw [List.map_cons, upsertAll_cons, upsertAll_cons, ih, map_upsert]

/-- The keys after upserting a list are the keys of the table and of the list. -/
theorem exists_key_upsertAll (t : KeyedTable key) (rs : List ρ) (k : κ) :
    (∃ x ∈ t.upsertAll rs, key x = k) ↔ (∃ x ∈ rs, key x = k) ∨ ∃ x ∈ t, key x = k := by
  induction rs generalizing t with
  | nil => simp
  | cons r rs ih =>
    rw [upsertAll_cons, ih]
    simp only [mem_upsert, List.exists_mem_cons_iff]
    constructor
    · rintro (h | ⟨x, rfl | ⟨hx, -⟩, hk⟩)
      · exact Or.inl (Or.inr h)
      · exact Or.inl (Or.inl hk)
      · exact Or.inr ⟨x, hx, hk⟩
    · rintro ((hk | h) | ⟨x, hx, hk⟩)
      · exact Or.inr ⟨r, Or.inl rfl, hk⟩
      · exact Or.inl h
      · by_cases hr : key r = k
        · exact Or.inr ⟨r, Or.inl rfl, hr⟩
        · exact Or.inr ⟨x, Or.inr ⟨hx, fun h => hr (h.symm.trans hk)⟩, hk⟩

/-- A table filled by upserts has one row for each key upserted. -/
theorem length_upsertAll_empty (rs : List ρ) :
    ((empty : KeyedTable key).upsertAll rs).rows.length = (rs.map key).dedup.length := by
  have hperm : (((empty : KeyedTable key).upsertAll rs).rows.map key).Perm (rs.map key).dedup := by
    rw [List.perm_ext_iff_of_nodup (nodup _) (List.nodup_dedup _)]
    intro k
    rw [List.mem_dedup, List.mem_map, List.mem_map]
    simpa using exists_key_upsertAll (empty : KeyedTable key) rs k
  simpa using hperm.length_eq

/-- A table filled by upserts has as many rows as were upserted exactly when their keys were
distinct. -/
theorem length_eq_length_upsertAll_iff (rs : List ρ) :
    rs.length = ((empty : KeyedTable key).upsertAll rs).rows.length ↔ (rs.map key).Nodup := by
  rw [length_upsertAll_empty, ← List.dedup_eq_self, ← List.length_map key]
  constructor
  · intro h
    exact (List.dedup_sublist _).eq_of_length h.symm
  · intro h
    rw [h]

end Upsert

end KeyedTable
