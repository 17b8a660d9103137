import WindSight.Pipeline.Ingest

/-! # First days of the batches

The loop of `generate_date_batches` advances by the batch size: the batches start at the start date
and every `batch_days` days after it, up to the end date. -/

namespace WindSight

/-- A date that can be computed. -/
theorem addDays_eq_ok {d d' : Date} {k : ℤ} (h : addDays d k = .ok d') : d' = d + k := by
  rw [addDays] at h
  split at h
  · exact (Except.ok.inj h).symm
  · exact absurd h (by simp)

/-- One round of the loop. -/
theorem batchLoop_succ {stop current : Date} {batchDays fuel : ℕ} {batches : List (Date × Date)}
    (hle : current ≤ stop) (h : batchLoop stop batchDays (fuel + 1) current = .ok batches) :
    ∃ rest, batches = (current, min (current + (batchDays - 1)) stop) :: rest ∧
      batchLoop stop batchDays fuel (min (current + (batchDays - 1)) stop + 1) = .ok rest := by
  rw [batchLoop, if_pos hle] at h
  simp only [bind, Except.bind] at h
  cases hlast : addDays current (batchDays - 1) with
  | error e => simp [hlast] at h
  | ok last =>
    obtain rfl := addDays_eq_ok hlast
    simp only [hlast] at h
    cases hnext : addDays (min (current + (batchDays - 1)) stop) 1 with
    | error e => simp [hnext] at h
    | ok next =>
      obtain rfl := addDays_eq_ok hnext
      simp only [hnext] at h
      cases hrest : batchLoop stop batchDays fuel (min (current + (batchDays - 1)) stop + 1) with
      | error e => simp [hrest] at h
      | ok rest =>
        simp only [hrest] at h
        exact ⟨rest, (Except.ok.inj h).symm, rfl⟩

/-- **Induction along the loop.** What holds of no batches past the end, and is kept when a batch is
put before those of the next rounds, holds of the batches the loop gives. -/
@[elab_as_elim]
theorem batchLoop_induction {stop : Date} {batchDays : ℕ} {P : Date → List (Date × Date) → Prop}
    (past : ∀ current, stop < current → P current [])
    (round : ∀ current rest, current ≤ stop → P (min (current + (batchDays - 1)) stop + 1) rest →
      P current ((current, min (current + (batchDays - 1)) stop) :: rest))
    {fuel : ℕ} {current : Date} {batches : List (Date × Date)}
    (h : batchLoop stop batchDays fuel current = .ok batches) : P current batches := by
  induction fuel generalizing current batches with
  | zero =>
    rw [batchLoop] at h
    split at h
    · exact absurd h (by simp)
    · next hgt =>
      obtain rfl := Except.ok.inj h
      exact past current (not_le.mp hgt)
  | succ fuel ih =>
    by_cases hle : current ≤ stop
    · obtain ⟨rest, rfl, hrest⟩ := batchLoop_succ hle h
      exact round current rest hle (ih hrest)
    · rw [batchLoop, if_neg hle] at h
      obtain rfl := Except.ok.inj h
      exact past current (not_le.mp hle)

/-- From a day past the end, no batch starts. -/
theorem not_exists_batch {stop current : Date} (hgt : ¬ current ≤ stop) (batchDays : ℕ) (d : Date) :
    ¬ ∃ k : ℕ, d = current + k * batchDays ∧ d ≤ stop := by
  rintro ⟨k, rfl, hk⟩
  have : (0 : ℤ) ≤ k * batchDays := by positivity
  lia

/-- The days the batches of the loop start at. -/
theorem mem_batchLoop {stop : Date} {batchDays fuel : ℕ} (hb : 1 ≤ batchDays) {current : Date}
    {batches : List (Date × Date)} (h : batchLoop stop batchDays fuel current = .ok batches)
    (d : Date) :
    d ∈ batches.map Prod.fst ↔ ∃ k : ℕ, d = current + k * batchDays ∧ d ≤ stop := by
  refine batchLoop_induction ?_ ?_ h
  · intro current hpast
    exact iff_of_false List.not_mem_nil (not_exists_batch hpast.not_ge batchDays d)
  · intro current rest hle ih
    rw [List.map_cons, List.mem_cons, ih]
    constructor
    · rintro (rfl | ⟨k, rfl, hk⟩)
      · -- the first batch starts where the loop does
        exact ⟨0, by simp, hle⟩
      · -- the next batch starts a batch size later, or past the end
        have : (0 : ℤ) ≤ k * batchDays := by positivity
        refine ⟨k + 1, ?_, hk⟩
        push_cast
        rw [add_mul]
        lia
    · rintro ⟨k, rfl, hk⟩
      cases k with
      | zero => exact Or.inl (by simp)
      | succ k =>
        have : (0 : ℤ) ≤ k * batchDays := by positivity
        push_cast at hk ⊢
        rw [add_mul] at hk ⊢
        exact Or.inr ⟨k, by lia, hk⟩

/-- With batches of no days, the loop stays at its first day. -/
theorem batchLoop_zero {stop current : Date} (hle : current ≤ stop) (fuel : ℕ)
    (batches : List (Date × Date)) : batchLoop stop 0 fuel current ≠ .ok batches := by
  induction fuel generalizing batches with
  | zero =>
    rw [batchLoop, if_pos hle]
    simp
  | succ fuel ih =>
    intro h
    obtain ⟨rest, -, hrest⟩ := batchLoop_succ hle h
    have hback : min (current + (((0 : ℕ) : ℤ) - 1)) stop + 1 = current := by lia
    rw [hback] at hrest
    exact ih rest hrest

/-- Batches of no days are given only for a range of no days. -/
theorem generateDateBatches_zero {start stop : Date} {batches : List (Date × Date)}
    (h : generateDateBatches start stop 0 = .ok batches) : stop < start ∧ batches = [] := by
  by_cases hrange : start ≤ stop
  · exact absurd h (batchLoop_zero hrange _ batches)
  · have hrounds : (stop - start + 1).toNat = 0 := by lia
    rw [generateDateBatches, hrounds, batchLoop, if_neg hrange] at h
    exact ⟨not_le.mp hrange, (Except.ok.inj h).symm⟩

/-- **The batches start every `batch_days` days from the start date to the end date.** -/
theorem mem_generateDateBatches {start stop : Date} {batchDays : ℕ}
    {batches : List (Date × Date)} (h : generateDateBatches start stop batchDays = .ok batches)
    (d : Date) :
    d ∈ batches.map Prod.fst ↔ ∃ k : ℕ, d = start + k * batchDays ∧ d ≤ stop := by
  rcases Nat.eq_zero_or_pos batchDays with rfl | hb
  · obtain ⟨hrange, rfl⟩ := generateDateBatches_zero h
    exact iff_of_false List.not_mem_nil (not_exists_batch hrange.not_ge 0 d)
  · exact mem_batchLoop hb h d

/-- Enough rounds: the loop ends, if no date it computes leaves the calendar. -/
theorem exists_batchLoop {stop : Date} {batchDays : ℕ} (hb : 1 ≤ batchDays)
    (hcal : stop + batchDays ≤ maxDate) (fuel : ℕ) (current : Date)
    (hfuel : stop - current + 1 ≤ fuel) :
    ∃ batches, batchLoop stop batchDays fuel current = .ok batches := by
  induction fuel generalizing current with
  | zero => exact ⟨[], by rw [batchLoop, if_neg (by lia)]⟩
  | succ fuel ih =>
    by_cases hle : current ≤ stop
    · obtain ⟨rest, hrest⟩ := ih (min (current + (batchDays - 1)) stop + 1) (by lia)
      refine ⟨(current, min (current + (batchDays - 1)) stop) :: rest, ?_⟩
      rw [batchLoop, if_pos hle, addDays, if_pos (by lia)]
      simp only [bind, Except.bind]
      rw [addDays, if_pos (by lia)]
      simp only [hrest]
      rfl
    · exact ⟨[], by rw [batchLoop, if_neg hle]⟩

/-- `generate_date_batches` ends, if no date it computes leaves the calendar. -/
theorem exists_generateDateBatches {start stop : Date} {batchDays : ℕ} (hb : 1 ≤ batchDays)
    (hcal : stop + batchDays ≤ maxDate) :
    ∃ batches, generateDateBatches start stop batchDays = .ok batches :=
  exists_batchLoop hb hcal _ start (by lia)

end WindSight
