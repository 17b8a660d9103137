import Mathlib.Data.List.Nodup
import Mathlib.Tactic.Linarith

/-! # Insertion-ordered dictionaries

Python's `OrderedDict`: a dictionary whose entries keep an order, from the oldest to the newest. An
assignment to a present key keeps its place, `move_to_end` makes it the newest, and
`popitem(last=False)` removes the oldest. Each operation comes with its effect on the keys and on
the value stored under a key. -/

/-- A dictionary with an order on its entries, oldest first. -/
@[ext] structure OrderedDict (κ ν : Type*) where
  entries : List (κ × ν)
  nodup : (entries.map Prod.fst).Nodup

namespace OrderedDict

variable {κ ν : Type*}

/-- The keys, oldest first. -/
def keys (d : OrderedDict κ ν) : List κ := d.entries.map Prod.fst

theorem nodup_keys (d : OrderedDict κ ν) : d.keys.Nodup := d.nodup

/-- `len(d)`. -/
def length (d : OrderedDict κ ν) : ℕ := d.entries.length

@[simp] theorem length_keys (d : OrderedDict κ ν) : d.keys.length = d.length :=
  List.length_map _

/-- `OrderedDict()`. -/
def empty : OrderedDict κ ν := ⟨[], List.nodup_nil⟩

/-- The entries whose keys satisfy `p`, in their order. -/
def filterKeys (p : κ → Bool) (d : OrderedDict κ ν) : OrderedDict κ ν :=
  ⟨d.entries.filter fun e => p e.1, d.nodup.sublist (List.filter_sublist.map Prod.fst)⟩

@[simp] theorem keys_filterKeys (p : κ → Bool) (d : OrderedDict κ ν) :
    (d.filterKeys p).keys = d.keys.filter p := by
  rw [keys, keys, List.filter_map]
  rfl

/-- `popitem(last=False)`: the dictionary without its oldest entry, `none` if it is empty
(`KeyError`). -/
def popOldest (d : OrderedDict κ ν) : Option (OrderedDict κ ν) :=
  match h : d.entries with
  | [] => none
  | _ :: tl => some ⟨tl, by
      have := d.nodup
      rw [h, List.map_cons] at this
      exact this.of_cons⟩

/-- Popping succeeds on a non-empty dictionary. -/
theorem exists_popOldest {d : OrderedDict κ ν} (h : 0 < d.length) :
    ∃ d', d.popOldest = some d' := by
  obtain ⟨_ | ⟨e, tl⟩, hnd⟩ := d
  · simp [length] at h
  · exact ⟨_, rfl⟩

/-- Popping drops the oldest entry. -/
theorem entries_popOldest {d d' : OrderedDict κ ν} (h : d.popOldest = some d') :
    d'.entries = d.entries.tail := by
  obtain ⟨_ | ⟨e, tl⟩, hnd⟩ := d
  · simp [popOldest] at h
  · simp only [popOldest, Option.some.injEq] at h
    rw [← h, List.tail_cons]

theorem length_popOldest {d d' : OrderedDict κ ν} (h : d.popOldest = some d') :
    d'.length = d.length - 1 := by
  rw [length, length, entries_popOldest h, List.length_tail]

theorem keys_popOldest {d d' : OrderedDict κ ν} (h : d.popOldest = some d') :
    d'.keys = d.keys.tail := by
  rw [keys, keys, entries_popOldest h, List.map_tail]

variable [DecidableEq κ]

/-- `d.get(k)`. -/
def get? (d : OrderedDict κ ν) (k : κ) : Option ν := (d.entries.find? (·.1 = k)).map Prod.snd

theorem get?_eq_some {d : OrderedDict κ ν} {k : κ} {v : ν} :
    d.get? k = some v ↔ (k, v) ∈ d.entries := by
  rw [get?, Option.map_eq_some_iff]
  constructor
  · rintro ⟨⟨k', v'⟩, hfind, rfl⟩
    obtain rfl : k' = k := by simpa using List.find?_some hfind
    exact List.mem_of_find?_eq_some hfind
  · intro hmem
    cases hfind : d.entries.find? (·.1 = k) with
    | none => simpa using List.find?_eq_none.mp hfind (k, v) hmem
    | some e =>
      have hk : e.1 = k := by simpa using List.find?_some hfind
      have he : e = (k, v) :=
        List.inj_on_of_nodup_map d.nodup (List.mem_of_find?_eq_some hfind) hmem hk
      exact ⟨e, rfl, by rw [he]⟩

theorem mem_keys {d : OrderedDict κ ν} {k : κ} : k ∈ d.keys ↔ ∃ v, d.get? k = some v := by
  simp only [get?_eq_some, keys, List.mem_map, Prod.exists, exists_and_right, exists_eq_right]

/-- Filtering keys hides exactly the filtered-out ones. -/
theorem get?_filterKeys {d : OrderedDict κ ν} {p : κ → Bool} {k : κ} {v : ν} :
    (d.filterKeys p).get? k = some v ↔ d.get? k = some v ∧ p k = true := by
  rw [get?_eq_some, get?_eq_some, filterKeys, List.mem_filter]

/-- `del d[k]`. -/
def erase (d : OrderedDict κ ν) (k : κ) : OrderedDict κ ν := d.filterKeys (· ≠ k)

@[simp] theorem keys_erase (d : OrderedDict κ ν) (k : κ) :
    (d.erase k).keys = d.keys.filter (· ≠ k) := keys_filterKeys _ _

theorem get?_erase {d : OrderedDict κ ν} {j k : κ} {v : ν} :
    (d.erase k).get? j = some v ↔ d.get? j = some v ∧ j ≠ k := by
  rw [erase, get?_filterKeys, decide_eq_true_eq]

/-- Deleting a list of keys keeps the entries under other keys. -/
theorem foldl_erase (ks : List κ) (d : OrderedDict κ ν) :
    ks.foldl erase d = d.filterKeys (· ∉ ks) := by
  induction ks generalizing d with
  | nil =>
    ext1
    simp [filterKeys]
  | cons k ks ih =>
    rw [List.foldl_cons, ih]
    ext1
    simp [erase, filterKeys, Bool.and_comm]

/-- The entries without those under `k`, followed by an entry under `k`. -/
def withNewest (d : OrderedDict κ ν) (k : κ) (v : ν) : OrderedDict κ ν where
  entries := (d.erase k).entries ++ [(k, v)]
  nodup := by
    rw [List.map_append, List.nodup_append]
    refine ⟨(d.erase k).nodup, List.nodup_singleton _, ?_⟩
    rintro a ha b hb rfl
    obtain rfl : a = k := by simpa using hb
    have ha' : a ∈ (d.erase a).keys := ha
    rw [keys_erase] at ha'
    simpa using (List.mem_filter.mp ha').2

@[simp] theorem keys_withNewest (d : OrderedDict κ ν) (k : κ) (v : ν) :
    (d.withNewest k v).keys = d.keys.filter (· ≠ k) ++ [k] := by
  rw [keys, withNewest, List.map_append, ← keys, keys_erase]
  rfl

/-- An entry left by popping was there before. -/
theorem get?_of_popOldest {d d' : OrderedDict κ ν} (h : d.popOldest = some d') {k : κ} {v : ν}
    (hk : d'.get? k = some v) : d.get? k = some v := by
  rw [get?_eq_some, entries_popOldest h] at hk
  exact get?_eq_some.mpr (List.mem_of_mem_tail hk)

theorem get?_withNewest {d : OrderedDict κ ν} {j k : κ} {v w : ν} :
    (d.withNewest k v).get? j = some w
      ↔ (j = k ∧ w = v) ∨ (j ≠ k ∧ d.get? j = some w) := by
  rw [get?_eq_some, withNewest, List.mem_append, ← get?_eq_some, get?_erase, List.mem_singleton,
    Prod.mk.injEq, or_comm, and_comm (a := j ≠ k)]

/-- A newest entry adds at most one entry. -/
theorem length_withNewest_le (d : OrderedDict κ ν) (k : κ) (v : ν) :
    (d.withNewest k v).length ≤ d.length + 1 := by
  rw [← length_keys, keys_withNewest, List.length_append, ← length_keys d]
  exact Nat.add_le_add_right (List.length_filter_le _ _) 1

/-- A newest entry under a present key adds none. -/
theorem length_withNewest_le_of_mem {d : OrderedDict κ ν} {k : κ} (h : k ∈ d.keys) (v : ν) :
    (d.withNewest k v).length ≤ d.length := by
  rw [← length_keys, keys_withNewest, List.length_append, ← length_keys d]
  exact List.length_filter_lt_length_iff_exists.mpr ⟨k, h, by simp⟩

/-- `d.move_to_end(k)`: an entry under `k` becomes the newest. -/
def moveToEnd (d : OrderedDict κ ν) (k : κ) : OrderedDict κ ν :=
  match d.get? k with
  | none => d
  | some v => d.withNewest k v

theorem moveToEnd_of_get? {d : OrderedDict κ ν} {k : κ} {v : ν} (h : d.get? k = some v) :
    d.moveToEnd k = d.withNewest k v := by
  rw [moveToEnd, h]

/-- `d[k] = v`: the value under a present key is replaced in place, a new key becomes the newest. -/
def setItem (d : OrderedDict κ ν) (k : κ) (v : ν) : OrderedDict κ ν :=
  if k ∈ d.keys then
    -- the entry keeps its place
    { entries := d.entries.map fun e => if e.1 = k then (k, v) else e
      nodup := by
        have hkeys : (d.entries.map fun e => if e.1 = k then (k, v) else e).map Prod.fst
            = d.entries.map Prod.fst := by
          rw [List.map_map]
          refine List.map_congr_left fun e _ => ?_
          by_cases h : e.1 = k <;> simp [h]
        rw [hkeys]
        exact d.nodup }
  else d.withNewest k v

theorem setItem_of_notMem {d : OrderedDict κ ν} {k : κ} (h : k ∉ d.keys) (v : ν) :
    d.setItem k v = d.withNewest k v := if_neg h

/-- Assigning to a key just moved to the end makes the new value the newest entry. -/
theorem setItem_moveToEnd {d : OrderedDict κ ν} {k : κ} (h : k ∈ d.keys) (v : ν) :
    (d.moveToEnd k).setItem k v = d.withNewest k v := by
  obtain ⟨w, hw⟩ := mem_keys.mp h
  rw [moveToEnd_of_get? hw, setItem, if_pos (by simp)]
  ext1
  have hkeep : (d.erase k).entries.map (fun e => if e.1 = k then (k, v) else e)
      = (d.erase k).entries := by
    refine (List.map_congr_left fun e he => ?_).trans (List.map_id _)
    have hne : e.1 ≠ k := by simpa [erase, filterKeys] using (List.mem_filter.mp he).2
    rw [if_neg hne, id]
  simp only [withNewest, List.map_append, List.map_cons, List.map_nil, if_true, hkeep]

end OrderedDict
