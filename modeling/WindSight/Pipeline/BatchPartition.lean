import Mathlib.Data.Int.SuccPred
import WindSight.Library.Tiling
import WindSight.Pipeline.DateBatches

/-! # The batches partition the range

The loop of `generate_date_batches` produces a tiling of the days from the start date to the end
date. Every batch has at most `batch_days` days, and every batch but the last has that many. -/

namespace WindSight

/-- The number of days of a batch. -/
def batchLength (b : Date × Date) : ℤ := b.2 - b.1 + 1

/-- The batches of the loop tile the days from where it starts to the end date. -/
theorem tiles_batchLoop {stop : Date} {batchDays fuel : ℕ} (hb : 1 ≤ batchDays) {current : Date}
    {batches : List (Date × Date)} (h : batchLoop stop batchDays fuel current = .ok batches) :
    Tiles stop current batches := by
  refine batchLoop_induction (fun _ hpast => Tiles.nil hpast) ?_ h
  intro current rest hle hrest
  exact Tiles.cons (by lia) (min_le_right _ _) hrest

/-- A batch of the loop has at most `batch_days` days. -/
theorem batchLength_le {stop : Date} {batchDays fuel : ℕ} {current : Date}
    {batches : List (Date × Date)} (h : batchLoop stop batchDays fuel current = .ok batches) :
    ∀ b ∈ batches, batchLength b ≤ batchDays := by
  refine batchLoop_induction (fun _ _ => nofun) ?_ h
  intro current rest _ ih
  refine List.forall_mem_cons.mpr ⟨?_, ih⟩
  rw [batchLength]
  lia

/-- A batch of the loop that another one follows has `batch_days` days. -/
theorem batchLength_dropLast {stop : Date} {batchDays fuel : ℕ} (hb : 1 ≤ batchDays)
    {current : Date} {batches : List (Date × Date)}
    (h : batchLoop stop batchDays fuel current = .ok batches) :
    ∀ b ∈ batches.dropLast, batchLength b = batchDays := by
  -- what is left to tile after a batch tells whether another one follows
  suffices hboth : Tiles stop current batches ∧ ∀ b ∈ batches.dropLast, batchLength b = batchDays
    from hboth.2
  refine batchLoop_induction (fun _ hpast => ⟨Tiles.nil hpast, nofun⟩) ?_ h
  rintro current rest hle ⟨htiles, hfull⟩
  refine ⟨Tiles.cons (by lia) (min_le_right _ _) htiles, ?_⟩
  rcases eq_or_ne rest [] with rfl | hne
  · exact nofun
  · rw [List.dropLast_cons_of_ne_nil hne]
    refine List.forall_mem_cons.mpr ⟨?_, hfull⟩
    have hmore := mt htiles.eq_nil_iff.mpr hne
    rw [batchLength]
    lia

/-- Batches of at most `batchDays` days partition the days from a start date to an end date. -/
structure PartitionsRange (start stop : Date) (batchDays : ℕ) (batches : List (Date × Date)) :
    Prop where
  /-- The batches are in increasing order. -/
  increasing : batches.Pairwise fun b b' => b.2 < b'.1
  first : ∀ b ∈ batches.head?, b.1 = start
  last : ∀ b ∈ batches.getLast?, b.2 = stop
  /-- Each next batch starts the day after the previous one ends. -/
  chained : batches.IsChain fun b b' => b'.1 = b.2 + 1
  length : ∀ b ∈ batches, 1 ≤ batchLength b ∧ batchLength b ≤ batchDays
  /-- Only the last batch may be shorter. -/
  full : ∀ b ∈ batches.dropLast, batchLength b = batchDays
  /-- The days of the range, and no others, lie in exactly one batch. -/
  covers : ∀ d, (∃! b, b ∈ batches ∧ b.1 ≤ d ∧ d ≤ b.2) ↔ start ≤ d ∧ d ≤ stop
  empty_iff : batches = [] ↔ stop < start

/-- The batches tile the range. -/
theorem tiles_generateDateBatches {start stop : Date} {batchDays : ℕ}
    {batches : List (Date × Date)} (h : generateDateBatches start stop batchDays = .ok batches) :
    Tiles stop start batches := by
  rcases Nat.eq_zero_or_pos batchDays with rfl | hb
  · obtain ⟨hrange, rfl⟩ := generateDateBatches_zero h
    exact Tiles.nil hrange
  · exact tiles_batchLoop hb h

/-- **The batches partition the range.** -/
theorem partitionsRange_generateDateBatches {start stop : Date} {batchDays : ℕ} (hb : 1 ≤ batchDays)
    {batches : List (Date × Date)} (h : generateDateBatches start stop batchDays = .ok batches) :
    PartitionsRange start stop batchDays batches := by
  have htiles := tiles_generateDateBatches h
  refine ⟨htiles.pairwise, htiles.fst_head, htiles.snd_getLast, htiles.isChain, ?_,
    batchLength_dropLast hb h, htiles.existsUnique_mem_iff, htiles.eq_nil_iff⟩
  intro b hmem
  refine ⟨?_, batchLength_le h b hmem⟩
  have hdays := (htiles.bounds b hmem).2.1
  rw [batchLength]
  lia

end WindSight
