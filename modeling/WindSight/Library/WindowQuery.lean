import Mathlib.Algebra.Ring.Nat
import Mathlib.Data.List.Sort
import Mathlib.Data.Set.Basic

/-! # Window queries

A window query returns the rows with a key between two bounds, in increasing order of the key, where
bounds of any kind are compared as keys through `bind`. A window is cut by leaving out an open
interval that no row has its key in. Its query is then the concatenation of the queries of the
parts, for any number of cuts (`IsWindowQuery.eq_flatMap`). -/

variable {ρ β κ : Type*} [LinearOrder κ]

/-- For all bounds, `query` returns the members of `rows` whose key lies between them, in strictly
increasing order of the key. -/
structure IsWindowQuery (bind : β → κ) (key : ρ → κ) (rows : Set ρ) (query : β → β → List ρ) :
    Prop where
  pairwise : ∀ lo hi, (query lo hi).Pairwise fun r r' => key r < key r'
  mem_iff : ∀ {lo hi r}, r ∈ query lo hi ↔ (bind lo ≤ key r ∧ key r ≤ bind hi) ∧ r ∈ rows

/-- The parts of a window: each cut ends a part at its first bound and starts the next one at its
second. -/
def windowParts (lo : β) : List (β × β) → β → List (β × β)
  | [], hi => [(lo, hi)]
  | (stop, next) :: cuts, hi => (lo, stop) :: windowParts next cuts hi

@[simp] theorem windowParts_nil (lo hi : β) : windowParts lo [] hi = [(lo, hi)] := rfl

@[simp] theorem windowParts_cons (lo stop next hi : β) (cuts : List (β × β)) :
    windowParts lo ((stop, next) :: cuts) hi = (lo, stop) :: windowParts next cuts hi := rfl

/-- The cuts follow one another within the window, and none of `keys` lies inside a cut. -/
inductive IsCut (bind : β → κ) (keys : Set κ) (hi : β) : β → List (β × β) → Prop
  | nil {lo : β} : IsCut bind keys hi lo []
  | cons {lo stop next : β} {cuts : List (β × β)} (hlo : bind lo ≤ bind next)
      (hcut : bind stop < bind next) (hhi : bind stop ≤ bind hi)
      (hgap : ∀ k ∈ keys, k ≤ bind stop ∨ bind next ≤ k) (hcuts : IsCut bind keys hi next cuts) :
      IsCut bind keys hi lo ((stop, next) :: cuts)

namespace IsWindowQuery

variable {bind : β → κ} {key : ρ → κ} {rows : Set ρ} {query : β → β → List ρ} {keys : Set κ}
  {lo stop next hi : β} {cuts : List (β × β)}

/-- A window query is determined by its rows. -/
theorem eq_of_mem_iff {l : List ρ} (hquery : IsWindowQuery bind key rows query)
    (hl : l.Pairwise fun r r' => key r < key r')
    (hmem : ∀ r, r ∈ l ↔ (bind lo ≤ key r ∧ key r ≤ bind hi) ∧ r ∈ rows) : query lo hi = l := by
  have hirrefl : Std.Irrefl fun r r' : ρ => key r < key r' := ⟨fun r => lt_irrefl (key r)⟩
  have hasymm : Std.Antisymm fun r r' : ρ => key r < key r' :=
    ⟨fun r r' hlt hlt' => absurd hlt' hlt.asymm⟩
  exact (hquery.pairwise lo hi).eq_of_mem_iff hl fun r => hquery.mem_iff.trans (hmem r).symm

/-- A window with one cut: the rows up to the cut, then the rows after it. -/
theorem eq_append (hquery : IsWindowQuery bind key rows query) (hlo : bind lo ≤ bind next)
    (hcut : bind stop < bind next) (hhi : bind stop ≤ bind hi)
    (hgap : ∀ r ∈ rows, key r ≤ bind stop ∨ bind next ≤ key r) :
    query lo hi = query lo stop ++ query next hi := by
  apply hquery.eq_of_mem_iff
  · refine List.pairwise_append.mpr ⟨hquery.pairwise lo stop, hquery.pairwise next hi, ?_⟩
    intro r hr r' hr'
    calc key r ≤ bind stop := (hquery.mem_iff.mp hr).1.2
      _ < bind next := hcut
      _ ≤ key r' := (hquery.mem_iff.mp hr').1.1
  · intro r
    rw [List.mem_append, hquery.mem_iff, hquery.mem_iff]
    constructor
    · rintro (⟨⟨hge, hle⟩, hr⟩ | ⟨⟨hge, hle⟩, hr⟩)
      · exact ⟨⟨hge, hle.trans hhi⟩, hr⟩
      · exact ⟨⟨hlo.trans hge, hle⟩, hr⟩
    · rintro ⟨⟨hge, hle⟩, hr⟩
      rcases hgap r hr with hbefore | hafter
      · exact Or.inl ⟨⟨hge, hbefore⟩, hr⟩
      · exact Or.inr ⟨⟨hafter, hle⟩, hr⟩

/-- **A window is queried part by part.** -/
theorem eq_flatMap (hquery : IsWindowQuery bind key rows query) (hkeys : ∀ r ∈ rows, key r ∈ keys)
    (hcuts : IsCut bind keys hi lo cuts) :
    query lo hi = (windowParts lo cuts hi).flatMap fun w => query w.1 w.2 := by
  induction hcuts with
  | nil => simp
  | cons hlo hcut hhi hgap _ ih =>
    rw [windowParts_cons, List.flatMap_cons, ← ih]
    exact hquery.eq_append hlo hcut hhi fun r hr => hgap (key r) (hkeys r hr)

/-- The lengths of the parts add up. -/
theorem length_eq_sum (hquery : IsWindowQuery bind key rows query)
    (hkeys : ∀ r ∈ rows, key r ∈ keys) (hcuts : IsCut bind keys hi lo cuts) :
    (query lo hi).length = ((windowParts lo cuts hi).map fun w => (query w.1 w.2).length).sum := by
  rw [hquery.eq_flatMap hkeys hcuts, List.length_flatMap]

end IsWindowQuery
