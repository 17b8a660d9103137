import Mathlib.Algebra.BigOperators.Fin
import Mathlib.Algebra.Order.Chebyshev
import Mathlib.Algebra.Order.Floor.Ring
import Mathlib.Data.List.GetD
import Mathlib.Data.List.Sort
import Mathlib.Data.Rat.Floor
import Mathlib.Tactic.FieldSimp
import Mathlib.Tactic.Linarith
import Mathlib.Tactic.LinearCombination
import Mathlib.Tactic.Ring

/-! # Order statistics

Values of a sorted list by their rank, the number of values that reach a bound, and quantiles by
linear interpolation between two ranks. The number of values that reach a quantile at position
`(n - 1) / d` is determined by `n % d` and by whether the two neighbours of the position tie. -/

namespace OrderStatistics

section Sorted

variable {α : Type*} [LinearOrder α] {xs : List α}

/-- Sorting forgets the order of the list. -/
theorem insertionSort_congr {ys : List α} (h : xs.Perm ys) :
    xs.insertionSort (· ≤ ·) = ys.insertionSort (· ≤ ·) :=
  List.Perm.eq_of_sortedLE List.sortedLE_insertionSort List.sortedLE_insertionSort
    (((List.perm_insertionSort _ xs).trans h).trans (List.perm_insertionSort _ ys).symm)

/-- A larger rank has a larger value. -/
theorem getD_mono (hxs : xs.Pairwise (· ≤ ·)) {i j : ℕ} (hij : i ≤ j) (hj : j < xs.length) (a : α) :
    xs.getD i a ≤ xs.getD j a := by
  rw [List.getD_eq_getElem _ _ hj, List.getD_eq_getElem _ _ (hij.trans_lt hj)]
  rcases hij.lt_or_eq with hlt | rfl
  · exact List.pairwise_iff_getElem.mp hxs i j _ hj hlt
  · exact le_refl _

/-- A bound that is not above rank `k` is reached from rank `k` on. -/
theorem sub_le_countP (hxs : xs.Pairwise (· ≤ ·)) {k : ℕ} (hk : k < xs.length) {a x : α}
    (hx : x ≤ xs.getD k a) : xs.length - k ≤ xs.countP (x ≤ ·) := by
  -- all values from rank `k` on reach the bound
  have hall : ∀ y ∈ xs.drop k, x ≤ y := by
    intro y hy
    obtain ⟨i, hi, rfl⟩ := List.mem_iff_getElem.mp hy
    rw [List.length_drop] at hi
    rw [List.getElem_drop, ← List.getD_eq_getElem _ a]
    exact hx.trans (getD_mono hxs (by omega) (by omega) a)
  calc xs.length - k = (xs.drop k).length := (List.length_drop ..).symm
    _ = (xs.drop k).countP (x ≤ ·) :=
      (List.countP_eq_length.mpr fun y hy => decide_eq_true (hall y hy)).symm
    _ ≤ xs.countP (x ≤ ·) := (List.drop_sublist k xs).countP_le

/-- A bound above rank `k` is not reached up to rank `k`. -/
theorem countP_le_sub (hxs : xs.Pairwise (· ≤ ·)) {k : ℕ} (hk : k < xs.length) {a x : α}
    (hx : xs.getD k a < x) : xs.countP (x ≤ ·) ≤ xs.length - (k + 1) := by
  -- no value up to rank `k` reaches the bound
  have hnone : (xs.take (k + 1)).countP (x ≤ ·) = 0 := by
    rw [List.countP_eq_zero]
    intro y hy
    obtain ⟨i, hi, rfl⟩ := List.mem_iff_getElem.mp hy
    rw [List.length_take] at hi
    rw [decide_eq_true_eq, not_le, List.getElem_take, ← List.getD_eq_getElem _ a]
    exact (getD_mono hxs (by omega) hk a).trans_lt hx
  calc xs.countP (x ≤ ·)
      = (xs.take (k + 1)).countP (x ≤ ·) + (xs.drop (k + 1)).countP (x ≤ ·) := by
        rw [← List.countP_append, List.take_append_drop]
    _ = (xs.drop (k + 1)).countP (x ≤ ·) := by rw [hnone, Nat.zero_add]
    _ ≤ (xs.drop (k + 1)).length := List.countP_le_length
    _ = xs.length - (k + 1) := List.length_drop ..

/-- A bound that is not below rank `k` is kept up to rank `k`. -/
theorem succ_le_countP (hxs : xs.Pairwise (· ≤ ·)) {k : ℕ} (hk : k < xs.length) {a x : α}
    (hx : xs.getD k a ≤ x) : k + 1 ≤ xs.countP (· ≤ x) := by
  -- all values up to rank `k` keep the bound
  have hall : ∀ y ∈ xs.take (k + 1), y ≤ x := by
    intro y hy
    obtain ⟨i, hi, rfl⟩ := List.mem_iff_getElem.mp hy
    rw [List.length_take] at hi
    rw [List.getElem_take, ← List.getD_eq_getElem _ a]
    exact (getD_mono hxs (by omega) hk a).trans hx
  calc k + 1 = (xs.take (k + 1)).length := by
        rw [List.length_take]
        omega
    _ = (xs.take (k + 1)).countP (· ≤ x) :=
      (List.countP_eq_length.mpr fun y hy => decide_eq_true (hall y hy)).symm
    _ ≤ xs.countP (· ≤ x) := (List.take_sublist (k + 1) xs).countP_le

/-- The values below a bound are those that do not reach it. -/
theorem countP_lt_add_countP_le (xs : List α) (x : α) :
    xs.countP (· < x) + xs.countP (x ≤ ·) = xs.length := by
  rw [List.length_eq_countP_add_countP (fun y => decide (y < x)) (l := xs)]
  congr 2
  funext y
  simp

/-- At most `k` values are below a bound that is not above rank `k`. -/
theorem countP_lt_le (hxs : xs.Pairwise (· ≤ ·)) {k : ℕ} (hk : k < xs.length) {a x : α}
    (hx : x ≤ xs.getD k a) : xs.countP (· < x) ≤ k := by
  have hreach := sub_le_countP hxs hk hx
  have hsplit := countP_lt_add_countP_le xs x
  omega

end Sorted

section Field

variable {K : Type*} [Field K] [LinearOrder K] [IsStrictOrderedRing K]

/-- The square of a sum is at most the number of summands times the sum of their squares. -/
theorem sq_sum_le_length_mul (xs : List K) :
    xs.sum ^ 2 ≤ xs.length * (xs.map (· ^ 2)).sum := by
  have h := sq_sum_le_card_mul_sum_sq (s := Finset.univ) (f := fun i : Fin xs.length => xs[i])
  have hsum : ∑ i : Fin xs.length, xs[i] = xs.sum := Fin.sum_univ_getElem xs
  have hsq : ∑ i : Fin xs.length, xs[i] ^ 2 = (xs.map (· ^ 2)).sum :=
    Fin.sum_univ_fun_getElem xs (· ^ 2)
  rwa [hsum, hsq, Finset.card_univ, Fintype.card_fin] at h

/-- The square of a mean is at most the mean of the squares. -/
theorem sq_mean_le (xs : List K) :
    (xs.sum / xs.length) ^ 2 ≤ (xs.map (· ^ 2)).sum / xs.length := by
  rcases Nat.eq_zero_or_pos xs.length with hlen | hlen
  · simp [hlen]
  · have hpos : (0 : K) < xs.length := by exact_mod_cast hlen
    rw [div_pow, div_le_div_iff₀ (by positivity) hpos]
    calc xs.sum ^ 2 * xs.length
        ≤ xs.length * (xs.map (· ^ 2)).sum * xs.length := by
          gcongr
          exact sq_sum_le_length_mul xs
      _ = (xs.map (· ^ 2)).sum * (xs.length : K) ^ 2 := by ring

/-- A mean is at most a bound of the values. -/
theorem mean_le {xs : List K} (hne : xs ≠ []) {m : K} (hm : ∀ x ∈ xs, x ≤ m) :
    xs.sum / xs.length ≤ m := by
  have hpos : (0 : K) < xs.length := by exact_mod_cast List.length_pos_iff.mpr hne
  rw [div_le_iff₀ hpos, mul_comm, ← nsmul_eq_mul]
  exact List.sum_le_card_nsmul xs m hm

/-- A mean is at least a lower bound of the values. -/
theorem le_mean {xs : List K} (hne : xs ≠ []) {m : K} (hm : ∀ x ∈ xs, m ≤ x) :
    m ≤ xs.sum / xs.length := by
  have hpos : (0 : K) < xs.length := by exact_mod_cast List.length_pos_iff.mpr hne
  rw [le_div_iff₀ hpos, mul_comm, ← nsmul_eq_mul]
  exact List.card_nsmul_le_sum xs m hm

variable [FloorRing K]

/-- The value at a position of a list, by linear interpolation between the neighbouring ranks. -/
def valueAt (xs : List K) (position : K) : K :=
  let lower := xs.getD ⌊position⌋.toNat 0
  let upper := xs.getD ⌈position⌉.toNat 0
  lower + (position - ⌊position⌋) * (upper - lower)

/-- At a rank, `valueAt` is the value of that rank. -/
theorem valueAt_natCast (xs : List K) (k : ℕ) : valueAt xs (k : K) = xs.getD k 0 := by
  simp [valueAt]

/-- Between two ranks, `valueAt` lies on the line between their values. -/
theorem valueAt_between (xs : List K) {k : ℕ} {p : K} (hlo : (k : K) < p) (hhi : p < k + 1) :
    valueAt xs p = xs.getD k 0 + (p - k) * (xs.getD (k + 1) 0 - xs.getD k 0) := by
  have hfloor : ⌊p⌋ = k := Int.floor_eq_iff.mpr ⟨by exact_mod_cast hlo.le, by exact_mod_cast hhi⟩
  have hceil : ⌈p⌉ = (k + 1 : ℕ) := by
    rw [Int.ceil_eq_iff]
    push_cast
    exact ⟨by linarith, hhi.le⟩
  rw [valueAt, hfloor, hceil]
  simp

/-- From a rank on and before the next one, it lies on the line between their values. -/
theorem valueAt_from (xs : List K) {k : ℕ} {p : K} (hlo : (k : K) ≤ p) (hhi : p < k + 1) :
    valueAt xs p = xs.getD k 0 + (p - k) * (xs.getD (k + 1) 0 - xs.getD k 0) := by
  rcases hlo.eq_or_lt with rfl | hlt
  · rw [valueAt_natCast, sub_self, zero_mul, add_zero]
  · exact valueAt_between xs hlt hhi

/-- From a rank on, `valueAt` is at least the value of the rank. -/
theorem getD_le_valueAt {xs : List K} (hxs : xs.Pairwise (· ≤ ·)) {k : ℕ} {p : K}
    (hlo : (k : K) ≤ p) (hhi : p < k + 1) (hp : p ≤ xs.length - 1) :
    xs.getD k 0 ≤ valueAt xs p := by
  rcases hlo.eq_or_lt with rfl | hlt
  · rw [valueAt_natCast]
  · have hk : k + 1 < xs.length := by
      have hcast : (k : K) + 1 < xs.length := by linarith
      exact_mod_cast hcast
    rw [valueAt_between xs hlt hhi]
    have hstep := sub_nonneg.mpr (getD_mono hxs k.le_succ hk 0)
    have hmul := mul_nonneg (sub_nonneg.mpr hlo) hstep
    linarith

/-- Before a rank, `valueAt` is at most the value of the rank. -/
theorem valueAt_le_getD {xs : List K} (hxs : xs.Pairwise (· ≤ ·)) {k : ℕ} {p : K}
    (hk : k + 1 < xs.length) (hlo : (k : K) ≤ p) (hhi : p < k + 1) :
    valueAt xs p ≤ xs.getD (k + 1) 0 := by
  rw [valueAt_from xs hlo hhi]
  have hstep := sub_nonneg.mpr (getD_mono hxs k.le_succ hk 0)
  have hfrac : p - k ≤ 1 := by linarith
  have hmul := mul_le_of_le_one_left hstep hfrac
  linarith

/-- **Interpolation is monotone.** A later position of a sorted list has a larger value. -/
theorem valueAt_mono {xs : List K} (hxs : xs.Pairwise (· ≤ ·)) {p q : K} (hp : 0 ≤ p)
    (hpq : p ≤ q) (hq : q ≤ xs.length - 1) : valueAt xs p ≤ valueAt xs q := by
  -- the ranks at or before the two positions
  obtain ⟨k, hk⟩ := Int.eq_ofNat_of_zero_le (Int.floor_nonneg.mpr hp)
  obtain ⟨l, hl⟩ := Int.eq_ofNat_of_zero_le (Int.floor_nonneg.mpr (hp.trans hpq))
  obtain ⟨hklo, hkhi⟩ := Int.floor_eq_iff.mp hk
  obtain ⟨hllo, hlhi⟩ := Int.floor_eq_iff.mp hl
  rw [Int.cast_natCast] at hklo hkhi hllo hlhi
  have hkl : k ≤ l := by
    have hfloor := Int.floor_mono hpq
    rw [hk, hl] at hfloor
    exact Int.ofNat_le.mp hfloor
  have hlen : l < xs.length := by
    have hcast : (l : K) < xs.length := by linarith
    exact_mod_cast hcast
  rcases hkl.lt_or_eq with hlt | rfl
  · -- a sample lies between them
    calc valueAt xs p ≤ xs.getD (k + 1) 0 := valueAt_le_getD hxs (by omega) hklo hkhi
      _ ≤ xs.getD l 0 := getD_mono hxs hlt hlen 0
      _ ≤ valueAt xs q := getD_le_valueAt hxs hllo hlhi hq
  · -- both lie in one gap
    rcases (by omega : k + 1 < xs.length ∨ k + 1 = xs.length) with hgap | hlast
    · rw [valueAt_from xs hklo hkhi, valueAt_from xs hllo hlhi]
      have hstep := sub_nonneg.mpr (getD_mono hxs k.le_succ hgap 0)
      gcongr
    · have hend : (xs.length : K) - 1 = k := by
        rw [← hlast]
        push_cast
        ring
      rw [hend] at hq
      rw [le_antisymm hpq (hq.trans hklo)]

/-- Between two ranks that tie, `valueAt` is their value. -/
theorem valueAt_of_tie {xs : List K} {k : ℕ} {p : K} (hlo : (k : K) < p) (hhi : p < k + 1)
    (htie : xs.getD k 0 = xs.getD (k + 1) 0) : valueAt xs p = xs.getD k 0 := by
  rw [valueAt_between xs hlo hhi, ← htie, sub_self, mul_zero, add_zero]

/-- Between two ranks, `valueAt` is the value of the upper one only if they tie. -/
theorem valueAt_eq_getD_succ_iff (xs : List K) {k : ℕ} {p : K} (hlo : (k : K) < p)
    (hhi : p < k + 1) : valueAt xs p = xs.getD (k + 1) 0 ↔ xs.getD k 0 = xs.getD (k + 1) 0 := by
  rw [valueAt_between xs hlo hhi]
  constructor
  · intro heq
    -- what is left of the way to the upper rank is not zero
    have hrest : (k + 1 - p) * (xs.getD (k + 1) 0 - xs.getD k 0) = 0 := by linear_combination -heq
    rcases mul_eq_zero.mp hrest with hzero | hzero
    · linarith
    · exact (sub_eq_zero.mp hzero).symm
  · intro htie
    rw [← htie, sub_self, mul_zero, add_zero]

/-- Between two ranks that do not tie, `valueAt` is reached after the lower rank exactly. -/
theorem countP_valueAt {xs : List K} (hxs : xs.Pairwise (· ≤ ·)) {k : ℕ} (hk : k + 1 < xs.length)
    {p : K} (hlo : (k : K) < p) (hhi : p < k + 1) (hlt : xs.getD k 0 < xs.getD (k + 1) 0) :
    xs.countP (valueAt xs p ≤ ·) = xs.length - (k + 1) := by
  rw [valueAt_between xs hlo hhi]
  set x := xs.getD k 0
  set y := xs.getD (k + 1) 0
  have hxy : 0 < y - x := sub_pos.mpr hlt
  -- the value lies above the lower neighbour, and not above the upper one
  have hlower : x < x + (p - k) * (y - x) :=
    lt_add_of_pos_right x (mul_pos (sub_pos.mpr hlo) hxy)
  have hupper : x + (p - k) * (y - x) ≤ y := by
    have hfrac : p - k ≤ 1 := by linarith
    have hmul := mul_le_of_le_one_left hxy.le hfrac
    linarith
  exact le_antisymm (countP_le_sub hxs (by omega) hlower) (sub_le_countP hxs hk hupper)

/-- The share `(d - 1) / d` of `d * k + r + 1` values is reached by the values from rank `k` on. -/
theorem share_le_of_rank {n d k r c : ℕ} (hd : 0 < d) (hn : n = d * k + r + 1) (hr : r < d)
    (hc : n - k ≤ c) : n * (d - 1) ≤ c * d := by
  obtain ⟨e, rfl⟩ : ∃ e, d = e + 1 := ⟨d - 1, by omega⟩
  have hck : e * k + r + 1 ≤ c := by
    rw [hn, Nat.succ_mul] at hc
    omega
  have hmul := Nat.mul_le_mul_right (e + 1) hck
  rw [hn, Nat.add_sub_cancel]
  linarith

/-- The values after rank `k` are `d - 1` in `d` of all `n` exactly if the remainder `r` is the
largest. -/
theorem share_le_iff {n d k r : ℕ} (hd : 0 < d) (hn : n = d * k + r + 1) (hr : r < d) :
    n * (d - 1) ≤ (n - (k + 1)) * d ↔ r + 1 = d := by
  obtain ⟨e, rfl⟩ : ∃ e, d = e + 1 := ⟨d - 1, by omega⟩
  have hrank : n - (k + 1) = e * k + r := by
    rw [hn, Nat.succ_mul]
    omega
  rw [hrank, hn, Nat.add_sub_cancel]
  constructor <;> intro h <;> linarith

/-- **Exceedance of a quantile.** With `n` values, the quantile at position `(n - 1) / d` is reached
by `n * (d - 1) / d` of them exactly when `n` leaves the remainder zero or one by `d`, or the two
neighbours of the position tie. -/
theorem exceeds_valueAt_iff {xs : List K} (hxs : xs.Pairwise (· ≤ ·)) (hne : xs ≠ []) {d : ℕ}
    (hd : 2 ≤ d) :
    xs.length * (d - 1) ≤ xs.countP (valueAt xs (((xs.length : K) - 1) / d) ≤ ·) * d ↔
      xs.length % d ≤ 1 ∨
        xs.getD ((xs.length - 1) / d) 0 = xs.getD ((xs.length - 1) / d + 1) 0 := by
  have hlen : 0 < xs.length := List.length_pos_iff.mpr hne
  generalize hk : (xs.length - 1) / d = k
  generalize hr : (xs.length - 1) % d = r
  have hrd : r < d := hr ▸ Nat.mod_lt _ (by omega)
  -- the position is rank `k` and `r / d` of the way to the next one
  have hn : xs.length = d * k + r + 1 := by
    have hdiv := Nat.div_add_mod (xs.length - 1) d
    rw [hk, hr] at hdiv
    omega
  have hdpos : (0 : K) < d := by exact_mod_cast (by omega : 0 < d)
  have hposition : ((xs.length : K) - 1) / d = k + r / d := by
    rw [hn]
    push_cast
    field_simp
    ring
  have hkn : k < xs.length := by
    have hle := Nat.le_mul_of_pos_left k (by omega : 0 < d)
    omega
  have hmod : xs.length % d = (r + 1) % d := by rw [hn, Nat.add_assoc, Nat.mul_add_mod]
  rw [hposition]
  rcases Nat.eq_zero_or_pos r with rfl | hr0
  · -- the position is a rank
    rw [Nat.cast_zero, zero_div, add_zero, valueAt_natCast]
    have hcount := sub_le_countP hxs hkn (le_refl (xs.getD k 0))
    have hrest : xs.length % d ≤ 1 := hmod ▸ Nat.mod_le _ _
    exact iff_of_true (share_le_of_rank (by omega) hn hrd hcount) (Or.inl hrest)
  · have hlo : (k : K) < k + r / d := lt_add_of_pos_right _ (div_pos (by exact_mod_cast hr0) hdpos)
    have hhi : (k : K) + r / d < k + 1 := by
      have hfrac : (r : K) / d < 1 := (div_lt_one hdpos).mpr (by exact_mod_cast hrd)
      linarith
    have hk1 : k + 1 < xs.length := by
      have hle := Nat.le_mul_of_pos_left k (by omega : 0 < d)
      omega
    rcases (getD_mono hxs k.le_succ hk1 0).eq_or_lt with htie | hlt
    · -- a tie is reached by the lower neighbour as well
      rw [valueAt_of_tie hlo hhi htie]
      have hcount := sub_le_countP hxs hkn (le_refl (xs.getD k 0))
      exact iff_of_true (share_le_of_rank (by omega) hn hrd hcount) (Or.inr htie)
    · rw [countP_valueAt hxs hk1 hlo hhi hlt, share_le_iff (by omega) hn hrd,
        or_iff_left hlt.ne, hmod]
      rcases (by omega : r + 1 = d ∨ r + 1 < d) with rfl | hlast
      · simp
      · rw [Nat.mod_eq_of_lt hlast]
        omega

end Field

end OrderStatistics
