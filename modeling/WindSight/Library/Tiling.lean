import Mathlib.Algebra.Order.SuccPred
import Mathlib.Data.List.Chain

/-! # Tilings of a range

Closed intervals that follow one another without gap or overlap, from the first point of a range to
its last. A tiling is built interval by interval, `Tiles stop start l`; what is usually asked of one
(the intervals increase, they meet end to end, every point of the range lies in exactly one of them)
is derived from that. -/

variable {α : Type*} [LinearOrder α] [One α] [Add α]

/-- The intervals of a list, each a first and a last point, tile the points from `start` to `stop`.
-/
inductive Tiles (stop : α) : α → List (α × α) → Prop
  | nil {start : α} (hpast : stop < start) : Tiles stop start []
  | cons {start last : α} {rest : List (α × α)} (hle : start ≤ last) (hlast : last ≤ stop)
      (hrest : Tiles stop (last + 1) rest) : Tiles stop start ((start, last) :: rest)

namespace Tiles

variable {stop start : α} {l : List (α × α)}

/-- Only a range without points is tiled by no interval. -/
theorem eq_nil_iff (h : Tiles stop start l) : l = [] ↔ stop < start := by
  cases h with
  | nil hpast => exact iff_of_true rfl hpast
  | cons hle hlast _ => exact iff_of_false (List.cons_ne_nil _ _) (hle.trans hlast).not_gt

/-- The first interval starts at the start of the range. -/
theorem fst_head (h : Tiles stop start l) : ∀ b ∈ l.head?, b.1 = start := by
  cases h with
  | nil _ => simp
  | cons _ _ _ =>
    rintro b ⟨⟩
    rfl

/-- Each interval starts right after the one before ends. -/
theorem isChain (h : Tiles stop start l) : l.IsChain fun b b' => b'.1 = b.2 + 1 := by
  induction h with
  | nil _ => exact List.isChain_nil
  | @cons start last rest _ _ hrest ih =>
    exact List.isChain_cons.mpr ⟨hrest.fst_head, ih⟩

variable [SuccAddOrder α] [NoMaxOrder α]

/-- The last interval ends at the end of the range. -/
theorem snd_getLast (h : Tiles stop start l) : ∀ b ∈ l.getLast?, b.2 = stop := by
  induction h with
  | nil _ => simp
  | @cons start last rest _ hlast hrest ih =>
    rcases eq_or_ne rest [] with rfl | hne
    · -- nothing is left after the last interval
      rintro b ⟨⟩
      exact hlast.antisymm (Order.lt_add_one_iff.mp (hrest.eq_nil_iff.mp rfl))
    · rw [List.getLast?_cons_of_ne_nil hne]
      exact ih

/-- The intervals lie in the range and have points. -/
theorem bounds (h : Tiles stop start l) : ∀ b ∈ l, start ≤ b.1 ∧ b.1 ≤ b.2 ∧ b.2 ≤ stop := by
  induction h with
  | nil _ => simp
  | @cons start last rest hle hlast _ ih =>
    intro b hb
    rcases List.mem_cons.mp hb with rfl | hb
    · exact ⟨le_rfl, hle, hlast⟩
    · obtain ⟨hfrom, hb⟩ := ih b hb
      exact ⟨hle.trans (Order.add_one_le_iff.mp hfrom).le, hb⟩

/-- The intervals are in increasing order. -/
theorem pairwise (h : Tiles stop start l) : l.Pairwise fun b b' => b.2 < b'.1 := by
  induction h with
  | nil _ => exact List.Pairwise.nil
  | @cons start last rest _ _ hrest ih =>
    refine List.pairwise_cons.mpr ⟨fun b hb => ?_, ih⟩
    exact Order.add_one_le_iff.mp (hrest.bounds b hb).1

/-- The first points of the intervals are distinct. -/
theorem nodup_fst (h : Tiles stop start l) : (l.map Prod.fst).Nodup := by
  rw [List.Nodup, List.pairwise_map]
  refine h.pairwise.imp_of_mem fun {b b'} hb _ hlt => ?_
  exact ((h.bounds b hb).2.1.trans_lt hlt).ne

/-- Every point of the range lies in an interval. -/
theorem exists_mem (h : Tiles stop start l) {x : α} (hstart : start ≤ x) (hstop : x ≤ stop) :
    ∃ b ∈ l, b.1 ≤ x ∧ x ≤ b.2 := by
  induction h with
  | nil hpast => exact absurd (hstart.trans hstop) hpast.not_ge
  | @cons start last rest _ _ _ ih =>
    by_cases hx : x ≤ last
    · exact ⟨_, List.mem_cons_self, hstart, hx⟩
    · obtain ⟨b, hb, hin⟩ := ih (Order.add_one_le_iff.mpr (not_le.mp hx))
      exact ⟨b, List.mem_cons_of_mem _ hb, hin⟩

/-- No point lies in two intervals. -/
theorem eq_of_mem (h : Tiles stop start l) {x : α} {b b' : α × α} (hb : b ∈ l) (hb' : b' ∈ l)
    (hx : b.1 ≤ x ∧ x ≤ b.2) (hx' : b'.1 ≤ x ∧ x ≤ b'.2) : b = b' := by
  induction h with
  | nil _ => exact absurd hb List.not_mem_nil
  | @cons start last rest _ _ hrest ih =>
    -- an interval of the rest starts past the first one
    have hpast : ∀ c ∈ rest, c.1 ≤ x → last < x := fun c hc hcx =>
      (Order.add_one_le_iff.mp (hrest.bounds c hc).1).trans_le hcx
    rcases List.mem_cons.mp hb with rfl | hmem <;> rcases List.mem_cons.mp hb' with rfl | hmem'
    · rfl
    · exact absurd hx.2 (hpast b' hmem' hx'.1).not_ge
    · exact absurd hx'.2 (hpast b hmem hx.1).not_ge
    · exact ih hmem hmem'

/-- **The intervals partition the range**: its points are those that lie in an interval, and each
lies in exactly one. -/
theorem existsUnique_mem_iff (h : Tiles stop start l) (x : α) :
    (∃! b, b ∈ l ∧ b.1 ≤ x ∧ x ≤ b.2) ↔ start ≤ x ∧ x ≤ stop := by
  constructor
  · rintro ⟨b, ⟨hb, hfrom, hto⟩, -⟩
    obtain ⟨hstart, -, hstop⟩ := h.bounds b hb
    exact ⟨hstart.trans hfrom, hto.trans hstop⟩
  · rintro ⟨hstart, hstop⟩
    obtain ⟨b, hb, hx⟩ := h.exists_mem hstart hstop
    exact ⟨b, ⟨hb, hx⟩, fun b' hb' => h.eq_of_mem hb'.1 hb hb'.2 hx⟩

end Tiles
