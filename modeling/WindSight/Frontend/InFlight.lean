import WindSight.Frontend.StaleResponses

/-! # Calls in flight

Which calls of `loadData` have not ended, and how a step changes that: a change of the controls
starts a call, a request that settles ends none, and the end of a call leaves the others as they
are. -/

namespace WindSight

variable {G F M : Type}

namespace Dashboard

/-- No call is in flight, except possibly the one with index `i`. -/
def OnlyInFlight (s : Dashboard G F M) (i : ℕ) : Prop :=
  ∀ j l, s.loads[j]? = some l → l.done = false → j = i

variable {s : Dashboard G F M} {i : ℕ} {f : Load G F M → Load G F M}

theorem idle_iff : s.Idle ↔ ∀ (j : ℕ) (l : Load G F M), s.loads[j]? = some l → l.done = true := by
  constructor
  · intro h j l hl
    exact h l (List.mem_of_getElem? hl)
  · intro h l hl
    obtain ⟨j, hj⟩ := List.mem_iff_getElem?.mp hl
    exact h j l hj

/-- A call is in flight right after it was started. -/
theorem not_idle_loadData (s : Dashboard G F M) : ¬ (loadData s).2.Idle := by
  intro h
  have := h (Load.start s.controls) (List.mem_append_right _ (List.mem_singleton.mpr rfl))
  cases this

/-- A call of the list after one of them made progress, and the same call before. -/
theorem getElem?_modify_done (hf : ∀ l, (f l).done = l.done) {j : ℕ} {l : Load G F M}
    (hl : (s.loads.modify i f)[j]? = some l) : ∃ l', s.loads[j]? = some l' ∧ l'.done = l.done := by
  rw [List.getElem?_modify] at hl
  obtain ⟨l', hl', rfl⟩ := Option.map_eq_some_iff.mp hl
  refine ⟨l', hl', ?_⟩
  split_ifs
  · exact (hf l').symm
  · rfl

/-- A request that settles ends no call. -/
theorem idle_modify (hf : ∀ l, (f l).done = l.done) :
    ({ s with loads := s.loads.modify i f } : Dashboard G F M).Idle ↔ s.Idle := by
  rw [idle_iff, idle_iff]
  constructor
  · intro h j l hl
    have hmod : (s.loads.modify i f)[j]? = some (if i = j then f l else l) := by
      rw [List.getElem?_modify, hl]
      rfl
    have hdone := h j _ hmod
    split_ifs at hdone
    · rwa [hf] at hdone
    · exact hdone
  · intro h j l hl
    obtain ⟨l', hl', hdone⟩ := getElem?_modify_done hf hl
    rw [← hdone]
    exact h j l' hl'

/-- A call that has not ended after the end of a call is another one, and had not ended before. -/
theorem getElem?_completeLoad {l l' : Load G F M} {j : ℕ} (hdone : l'.done = false) :
    (s.completeLoad i l).loads[j]? = some l' ↔ j ≠ i ∧ s.loads[j]? = some l' := by
  unfold completeLoad
  rw [List.getElem?_modify]
  by_cases hij : i = j
  · subst hij
    simp only [if_true]
    constructor
    · intro hl
      obtain ⟨l'', -, rfl⟩ := Option.map_eq_some_iff.mp hl
      cases hdone
    · rintro ⟨hne, -⟩
      exact absurd rfl hne
  · simp [hij, Ne.symm hij]

/-- When a call ends, nothing is in flight any more exactly if nothing else was. -/
theorem idle_completeLoad {l : Load G F M} : (s.completeLoad i l).Idle ↔ s.OnlyInFlight i := by
  rw [idle_iff]
  constructor
  · intro h j l' hl' hdone
    by_contra hne
    rw [h j l' ((getElem?_completeLoad hdone).mpr ⟨hne, hl'⟩)] at hdone
    cases hdone
  · intro h j l' hl'
    by_contra hdone
    rw [Bool.not_eq_true] at hdone
    obtain ⟨hne, hl⟩ := (getElem?_completeLoad hdone).mp hl'
    exact hne (h j l' hl hdone)

/-- The last call of the list is the current one. -/
theorem current_eq_of_last {l : Load G F M} (hl : s.loads[i]? = some l)
    (hi : i + 1 = s.loads.length) : s.current = some l := by
  unfold current
  rw [List.getLast?_eq_getElem?, ← hi, Nat.add_sub_cancel, hl]

end Dashboard

end WindSight
