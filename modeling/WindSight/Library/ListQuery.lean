import Mathlib.Algebra.BigOperators.Group.List.Basic
import Mathlib.Data.List.Sort
import Mathlib.Data.List.Dedup
import Mathlib.Order.Lattice

/-! # Queries over lists of rows

Selections, orderings, partitioned rankings and equality joins on plain lists, with the facts that
pin their results down: an ordering by a duplicate-free key is strictly increasing, the row ranked
first in a partition is a greatest one, an equality join of two keyed lists is keyed again, the sums
of the groups of a grouping add up to the sum of all rows, and a selection that stops at its first
gap is an initial part. -/

namespace ListQuery

variable {ρ σ κ ω : Type*}

/-! ## `ORDER BY` -/

section OrderBy

variable [LinearOrder κ]

/-- The rows in increasing order of `key` (`ORDER BY key`). -/
def orderBy (key : ρ → κ) (rows : List ρ) : List ρ :=
  rows.insertionSort fun a b => key a ≤ key b

private instance orderByTotal (key : ρ → κ) : Std.Total fun a b : ρ => key a ≤ key b :=
  ⟨fun a b => le_total (key a) (key b)⟩

private instance orderByTrans (key : ρ → κ) : IsTrans ρ fun a b => key a ≤ key b :=
  ⟨fun _ _ _ hab hbc => le_trans hab hbc⟩

/-- Ordering a list keeps exactly its rows. -/
@[simp] theorem mem_orderBy {key : ρ → κ} {rows : List ρ} {r : ρ} :
    r ∈ orderBy key rows ↔ r ∈ rows :=
  List.mem_insertionSort _

/-- Ordering a list permutes it. -/
theorem orderBy_perm (key : ρ → κ) (rows : List ρ) : (orderBy key rows).Perm rows :=
  List.perm_insertionSort _ rows

/-- An ordered list is weakly increasing in its key. -/
theorem orderBy_pairwise_le (key : ρ → κ) (rows : List ρ) :
    (orderBy key rows).Pairwise fun a b => key a ≤ key b :=
  List.pairwise_insertionSort _ rows

/-- Ordering rows made from others orders the others by the key of what is made of them. -/
theorem orderBy_map (key : σ → κ) (f : ρ → σ) (rows : List ρ) :
    orderBy key (rows.map f) = (orderBy (key ∘ f) rows).map f :=
  (List.map_insertionSort _ _ f rows fun _ _ _ _ => Iff.rfl).symm

/-- Ordering by a duplicate-free key is strictly increasing. -/
theorem orderBy_pairwise_lt {key : ρ → κ} {rows : List ρ} (h : (rows.map key).Nodup) :
    (orderBy key rows).Pairwise fun a b => key a < key b := by
  have hnd : ((orderBy key rows).map key).Nodup := ((orderBy_perm key rows).map key).nodup_iff.mpr h
  have hne : (orderBy key rows).Pairwise fun a b => key a ≠ key b := List.pairwise_map.mp hnd
  exact (orderBy_pairwise_le key rows).imp₂ (fun _ _ hle hne => lt_of_le_of_ne hle hne) hne

end OrderBy

/-! ## `ROW_NUMBER() OVER (PARTITION BY … ORDER BY … DESC)` -/

section Ranking

variable [DecidableEq κ] [LinearOrder ω]

/-- The rows of one partition, in decreasing order of `ord`. -/
def rankedPartition (part : ρ → κ) (ord : ρ → ω) (rows : List ρ) (k : κ) : List ρ :=
  (rows.filter (part · = k)).insertionSort fun a b => ord b ≤ ord a

/-- Each row with its position, counted from one, in its partition sorted by decreasing `ord`
(`ROW_NUMBER() OVER (PARTITION BY part ORDER BY ord DESC)`). -/
def rowNumber (part : ρ → κ) (ord : ρ → ω) (rows : List ρ) : List (ρ × ℕ) :=
  (rows.map part).dedup.flatMap fun k => (rankedPartition part ord rows k).zipIdx 1

/-- The rows ranked first in their partition (`WHERE rn = 1`). -/
def rankedFirst (part : ρ → κ) (ord : ρ → ω) (rows : List ρ) : List ρ :=
  ((rowNumber part ord rows).filter (·.2 = 1)).map Prod.fst

private instance rankTotal (ord : ρ → ω) : Std.Total fun a b : ρ => ord b ≤ ord a :=
  ⟨fun a b => le_total (ord b) (ord a)⟩

private instance rankTrans (ord : ρ → ω) : IsTrans ρ fun a b => ord b ≤ ord a :=
  ⟨fun _ _ _ hab hbc => le_trans hbc hab⟩

variable {part : ρ → κ} {ord : ρ → ω} {rows : List ρ}

theorem mem_rankedPartition {k : κ} {r : ρ} :
    r ∈ rankedPartition part ord rows k ↔ r ∈ rows ∧ part r = k := by
  simp [rankedPartition, List.mem_insertionSort]

theorem rankedPartition_pairwise (part : ρ → κ) (ord : ρ → ω) (rows : List ρ) (k : κ) :
    (rankedPartition part ord rows k).Pairwise fun a b => ord b ≤ ord a :=
  List.pairwise_insertionSort _ _

/-- Keeping the row numbered one of a list keeps its head. -/
theorem filter_zipIdx_one (l : List ρ) :
    ((l.zipIdx 1).filter (·.2 = 1)).map Prod.fst = l.head?.toList := by
  cases l with
  | nil => rfl
  | cons r tl =>
    -- the rows after the head are numbered from two on
    have hnil : (tl.zipIdx 2).filter (·.2 = 1) = [] := by
      rw [List.filter_eq_nil_iff]
      intro x hx
      have := List.le_snd_of_mem_zipIdx hx
      simp only [decide_eq_true_eq]
      omega
    simp [List.zipIdx_cons, hnil]

/-- The rows ranked first are the heads of the sorted partitions. -/
theorem rankedFirst_eq_flatMap :
    rankedFirst part ord rows
      = (rows.map part).dedup.flatMap fun k => (rankedPartition part ord rows k).head?.toList := by
  simp only [rankedFirst, rowNumber, List.filter_flatMap, List.map_flatMap, filter_zipIdx_one]

/-- A row is ranked first iff it heads its sorted partition. -/
theorem mem_rankedFirst_iff_head {r : ρ} :
    r ∈ rankedFirst part ord rows ↔ (rankedPartition part ord rows (part r)).head? = some r := by
  simp only [rankedFirst_eq_flatMap, List.mem_flatMap, List.mem_dedup, Option.mem_toList]
  constructor
  · rintro ⟨k, -, hhead⟩
    obtain ⟨-, rfl⟩ := mem_rankedPartition.mp (List.mem_of_mem_head? hhead)
    exact hhead
  · intro hhead
    have hmem := mem_rankedPartition.mp (List.mem_of_mem_head? hhead)
    exact ⟨part r, List.mem_map_of_mem hmem.1, hhead⟩

/-- A row ranked first is a row of the list and is greatest in its partition. -/
theorem rankedFirst_greatest {r : ρ} (h : r ∈ rankedFirst part ord rows) :
    r ∈ rows ∧ ∀ r' ∈ rows, part r' = part r → ord r' ≤ ord r := by
  rw [mem_rankedFirst_iff_head] at h
  refine ⟨(mem_rankedPartition.mp (List.mem_of_mem_head? h)).1, fun r' hr' hpart => ?_⟩
  obtain ⟨tl, htl⟩ := List.head?_eq_some_iff.mp h
  have hmem : r' ∈ rankedPartition part ord rows (part r) := mem_rankedPartition.mpr ⟨hr', hpart⟩
  rw [htl] at hmem
  -- the head of a decreasing list is at least every row after it
  have hpw := rankedPartition_pairwise part ord rows (part r)
  rw [htl, List.pairwise_cons] at hpw
  rcases List.mem_cons.mp hmem with rfl | hmem
  · exact le_rfl
  · exact hpw.1 r' hmem

/-- Every inhabited partition has a row ranked first. -/
theorem exists_rankedFirst (part : ρ → κ) (ord : ρ → ω) {r : ρ} (h : r ∈ rows) :
    ∃ r' ∈ rankedFirst part ord rows, part r' = part r := by
  have hmem : r ∈ rankedPartition part ord rows (part r) := mem_rankedPartition.mpr ⟨h, rfl⟩
  obtain ⟨r', hr'⟩ := Option.isSome_iff_exists.mp
    (List.isSome_head?.mpr (List.ne_nil_of_mem hmem))
  have hpart : part r' = part r := (mem_rankedPartition.mp (List.mem_of_mem_head? hr')).2
  exact ⟨r', mem_rankedFirst_iff_head.mpr (hpart ▸ hr'), hpart⟩

/-- When `ord` separates the rows of a partition, the row ranked first is the greatest one. -/
theorem mem_rankedFirst
    (hinj : ∀ a ∈ rows, ∀ b ∈ rows, part a = part b → ord a = ord b → a = b) {r : ρ} :
    r ∈ rankedFirst part ord rows ↔
      r ∈ rows ∧ ∀ r' ∈ rows, part r' = part r → ord r' ≤ ord r := by
  refine ⟨rankedFirst_greatest, fun ⟨hr, hmax⟩ => ?_⟩
  obtain ⟨r', hr', hpart⟩ := exists_rankedFirst part ord hr
  obtain ⟨hmem, hmax'⟩ := rankedFirst_greatest hr'
  -- the row ranked first ties with `r`, so it is `r`
  have heq : ord r' = ord r := le_antisymm (hmax r' hmem hpart) (hmax' r hr hpart.symm)
  exact hinj r' hmem r hr hpart heq ▸ hr'

/-- At most one row of a partition is ranked first. -/
theorem rankedFirst_nodup : ((rankedFirst part ord rows).map part).Nodup := by
  -- each partition contributes its own key at most once
  have hparts : ((rankedFirst part ord rows).map part).Sublist (rows.map part).dedup := by
    rw [rankedFirst_eq_flatMap]
    generalize (rows.map part).dedup = ks
    induction ks with
    | nil => simp
    | cons k ks ih =>
      rw [List.flatMap_cons, List.map_append]
      cases hh : (rankedPartition part ord rows k).head? with
      | none => simpa using ih.cons k
      | some r =>
        have hk : part r = k := (mem_rankedPartition.mp (List.mem_of_mem_head? hh)).2
        simpa [hk] using ih
  exact hparts.nodup (List.nodup_dedup _)

end Ranking

/-! ## `INNER JOIN` -/

section Join

variable [DecidableEq κ]

/-- The pairs of rows whose keys agree (`INNER JOIN … ON left = right`). -/
def innerJoin (left : ρ → κ) (right : σ → κ) (rows : List ρ) (rows' : List σ) : List (ρ × σ) :=
  rows.flatMap fun a => (rows'.filter fun b => left a = right b).map (Prod.mk a)

variable {left : ρ → κ} {right : σ → κ} {rows : List ρ} {rows' : List σ}

@[simp] theorem mem_innerJoin {a : ρ} {b : σ} :
    (a, b) ∈ innerJoin left right rows rows' ↔ a ∈ rows ∧ b ∈ rows' ∧ left a = right b := by
  simp [innerJoin]

/-- A keyed list has at most one row of a given key. -/
theorem filter_key_eq_nil_or_singleton (hr : (rows'.map right).Nodup) (k : κ) :
    (rows'.filter fun b => k = right b) = []
      ∨ ∃ b, (rows'.filter fun b => k = right b) = [b] := by
  have hnd : ((rows'.filter fun b => k = right b).map right).Nodup :=
    hr.sublist (List.filter_sublist.map right)
  have hkey : ∀ x ∈ rows'.filter fun b => k = right b, k = right x := by
    intro x hx
    simpa using (List.mem_filter.mp hx).2
  generalize rows'.filter (fun b => k = right b) = l at hnd hkey
  match l with
  | [] => exact Or.inl rfl
  | [b] => exact Or.inr ⟨b, rfl⟩
  | b :: c :: tl =>
    -- two rows of one key contradict the key constraint
    have hbc : right b = right c := (hkey b (by simp)).symm.trans (hkey c (by simp))
    simp [hbc] at hnd

/-- An equality join of two keyed lists does not fan out: its keys are duplicate-free. -/
theorem innerJoin_nodup (hl : (rows.map left).Nodup) (hr : (rows'.map right).Nodup) :
    ((innerJoin left right rows rows').map fun p => left p.1).Nodup := by
  have hsub : ((innerJoin left right rows rows').map fun p => left p.1).Sublist
      (rows.map left) := by
    clear hl
    induction rows with
    | nil => simp [innerJoin]
    | cons a rows ih =>
      simp only [innerJoin, List.flatMap_cons, List.map_append, List.map_cons] at ih ⊢
      -- `a` has no partner, or one
      rcases filter_key_eq_nil_or_singleton hr (left a) with hf | ⟨b, hf⟩
      · rw [hf]
        simpa using ih.cons (left a)
      · rw [hf]
        simpa using ih
  exact hsub.nodup hl

end Join

/-! ## `GROUP BY` -/

section Groups

variable [DecidableEq κ] {M : Type*} [AddCommMonoid M]

/-- A summand under one key of a duplicate-free list is counted once. -/
theorem sum_map_ite_key {keys : List κ} (hkeys : keys.Nodup) {k : κ} (hk : k ∈ keys) (x : M) :
    (keys.map fun k' => if k = k' then x else 0).sum = x := by
  induction keys with
  | nil => exact absurd hk List.not_mem_nil
  | cons k' keys ih =>
    obtain ⟨hnotMem, hrest⟩ := List.nodup_cons.mp hkeys
    rw [List.map_cons, List.sum_cons]
    by_cases heq : k = k'
    · subst heq
      have hzero : (keys.map fun k' => if k = k' then x else 0).sum = 0 := by
        apply List.sum_eq_zero
        intro y hy
        obtain ⟨k', hk', rfl⟩ := List.mem_map.mp hy
        have hne : k ≠ k' := by
          rintro rfl
          exact hnotMem hk'
        exact if_neg hne
      rw [if_pos rfl, hzero, add_zero]
    · rw [if_neg heq, zero_add]
      exact ih hrest ((List.mem_cons.mp hk).resolve_left heq)

/-- **Grouping loses no row and repeats none.** Where every row's key is listed, and no key is
listed twice, the sums of the groups add up to the sum of the rows. -/
theorem sum_map_groups {keys : List κ} (hkeys : keys.Nodup) (key : ρ → κ) (f : ρ → M)
    {rows : List ρ} (hrows : ∀ r ∈ rows, key r ∈ keys) :
    (keys.map fun k => ((rows.filter (key · = k)).map f).sum).sum = (rows.map f).sum := by
  induction rows with
  | nil => simp
  | cons r rows ih =>
    have hgroup : ∀ k, (((r :: rows).filter (key · = k)).map f).sum
        = (if key r = k then f r else 0) + ((rows.filter (key · = k)).map f).sum := by
      intro k
      by_cases hk : key r = k <;> simp [hk]
    simp only [hgroup]
    rw [List.sum_map_add, sum_map_ite_key hkeys (hrows r List.mem_cons_self),
      ih fun r' hr' => hrows r' (List.mem_cons_of_mem r hr'), List.map_cons, List.sum_cons]

end Groups

/-! ## Selections of an initial part -/

/-- Where a row is selected only after selected rows, the selection is an initial part. -/
theorem filter_isPrefix {p : ρ → Prop} [DecidablePred p] {rows : List ρ}
    (h : rows.Pairwise fun r r' => p r' → p r) : rows.filter (fun r => p r) <+: rows := by
  induction rows with
  | nil => exact List.prefix_rfl
  | cons r rows ih =>
    obtain ⟨hhead, hrest⟩ := List.pairwise_cons.mp h
    by_cases hr : p r
    · rw [List.filter_cons_of_pos (by simpa using hr), List.cons_prefix_cons]
      exact ⟨rfl, ih hrest⟩
    · -- nothing is selected after it
      rw [List.filter_eq_nil_iff.mpr]
      · exact List.nil_prefix
      · intro r' hr'
        rw [decide_eq_true_eq]
        rcases List.mem_cons.mp hr' with rfl | hmem
        · exact hr
        · exact fun hp => hr (hhead r' hmem hp)

end ListQuery
