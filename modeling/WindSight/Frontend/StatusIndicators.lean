import WindSight.Frontend.InFlight

/-! # Status indicators

`isLoading` and `error` are single flags shared by all calls of `loadData`. The end of any call
clears the first, and an older call that fails sets the second after a newer one has started.
`truthful_iff` shows that both are truthful in every state of a run exactly when no call ends while
another is in flight. -/

namespace WindSight

variable {G F M : Type}

namespace Dashboard

/-- The call for the selected controls had all three requests rejected. -/
def SelectedFailed (s : Dashboard G F M) : Prop := ∃ c ∈ s.current, c.allFailed = true

/-- The indicators tell the truth: `isLoading` is set while a call is in flight, and while none is,
`error` is set exactly if all requests for the selected controls were rejected. -/
structure Truthful (s : Dashboard G F M) : Prop where
  isLoading : ∀ l ∈ s.loads, l.done = false → s.isLoading = true
  error : s.Idle → (s.error ≠ none ↔ s.SelectedFailed)

/-- An event does not end a call while another call is in flight. -/
def EndsAlone (s : Dashboard G F M) : Event G F M → Prop
  | .complete i => ∀ l, s.loads[i]? = some l → l.allSettled = true → l.done = false →
      s.OnlyInFlight i
  | _ => True

/-- What holds along a run in which calls end alone: while a call is in flight, the last one is,
`isLoading` is set and `error` is not; while none is, `error` tells whether the last one failed. -/
structure StatusInv (s : Dashboard G F M) : Prop where
  inv : s.Inv
  loading : ¬ s.Idle → s.isLoading = true ∧ s.error = none ∧ ∃ c ∈ s.current, c.done = false
  idle : s.Idle → (s.error ≠ none ↔ s.SelectedFailed)

/-- The invariant makes the indicators truthful. -/
theorem StatusInv.truthful {s : Dashboard G F M} (h : s.StatusInv) : s.Truthful where
  isLoading l hl hdone := by
    refine (h.loading fun hidle => ?_).1
    rw [hidle l hl] at hdone
    cases hdone
  error := h.idle

/-- The invariant holds right after a call was started. -/
theorem StatusInv.loadData {s : Dashboard G F M} (h : (loadData s).2.Inv) :
    (Dashboard.loadData s).2.StatusInv where
  inv := h
  loading _ := ⟨rfl, rfl, _, current_loadData s, rfl⟩
  idle hidle := absurd hidle (not_idle_loadData s)

/-- The current call when a request of some call settles. -/
theorem current_modify {s : Dashboard G F M} {i : ℕ} {f : Load G F M → Load G F M}
    {c : Load G F M} (hc : s.current = some c) :
    ({ s with loads := s.loads.modify i f } : Dashboard G F M).current
      = some (if i + 1 = s.loads.length then f c else c) := by
  show (s.loads.modify i f).getLast? = _
  rw [getLast?_modify, show s.loads.getLast? = some c from hc]
  split_ifs <;> rfl

/-- The current call is the last one. -/
theorem getElem?_of_current {s : Dashboard G F M} {c : Load G F M} (hc : s.current = some c) :
    ∃ k, s.loads[k]? = some c ∧ k + 1 = s.loads.length := by
  have hlast : s.loads.getLast? = some c := hc
  rw [List.getLast?_eq_getElem?] at hlast
  have hlt := (List.getElem?_eq_some_iff.mp hlast).1
  exact ⟨_, hlast, by omega⟩

/-- The invariant is preserved when a request of a call settles. -/
theorem StatusInv.settle {s : Dashboard G F M} (h : s.StatusInv) {i : ℕ}
    {f : Load G F M → Load G F M} (hf : Load.Progress f)
    (hinv : ({ s with loads := s.loads.modify i f } : Dashboard G F M).Inv) :
    ({ s with loads := s.loads.modify i f } : Dashboard G F M).StatusInv := by
  obtain ⟨c, hc, -⟩ := h.inv.current
  refine ⟨hinv, ?_, ?_⟩
  · intro hbusy
    obtain ⟨hloading, herror, c', hc', hdone⟩ :=
      h.loading fun hidle => hbusy ((idle_modify hf.done).mpr hidle)
    obtain rfl := Option.some.inj (hc.symm.trans hc')
    refine ⟨hloading, herror, _, current_modify hc, ?_⟩
    split_ifs
    · rw [hf.done, hdone]
    · exact hdone
  · intro hidle
    have hidle' := (idle_modify hf.done).mp hidle
    -- the current call has ended, so its requests are settled and it makes no progress
    have hsame : (if i + 1 = s.loads.length then f c else c) = c := by
      have hmem := List.mem_of_getLast? hc
      rw [hf.settled c (h.inv.settled c hmem (hidle' c hmem)), ite_self]
    have hfailed := h.idle hidle'
    unfold SelectedFailed at hfailed ⊢
    rwa [current_modify hc, hsame, ← hc]

/-- The invariant is preserved when the only call in flight ends. -/
theorem StatusInv.complete {s : Dashboard G F M} (h : s.StatusInv) {i : ℕ} {l : Load G F M}
    (hl : s.loads[i]? = some l) (hdone : l.done = false) (honly : s.OnlyInFlight i)
    (hinv : (s.completeLoad i l).Inv) : (s.completeLoad i l).StatusInv := by
  have hbusy : ¬ s.Idle := by
    intro hidle
    rw [idle_iff.mp hidle i l hl] at hdone
    cases hdone
  -- the only call in flight is the current one
  obtain ⟨-, herror, c, hc, hcdone⟩ := h.loading hbusy
  obtain ⟨k, hk, hlast⟩ := getElem?_of_current hc
  obtain rfl := honly k c hk hcdone
  obtain rfl := Option.some.inj (hl.symm.trans hk)
  have hcur : (s.completeLoad k l).current = some { l with done := true } := by
    show (s.loads.modify k _).getLast? = _
    rw [getLast?_modify, if_pos hlast, show s.loads.getLast? = some l from hc]
    rfl
  refine ⟨hinv, fun hbusy' => absurd (idle_completeLoad.mpr honly) hbusy', ?_⟩
  intro _
  unfold SelectedFailed
  rw [hcur]
  show (if l.allFailed then some allFailedMessage else s.error) ≠ none ↔ _
  rw [herror]
  by_cases hall : l.allFailed
  · rw [if_pos hall]
    exact iff_of_true nofun ⟨_, rfl, hall⟩
  · rw [if_neg hall]
    refine iff_of_false (fun hne => hne rfl) ?_
    rintro ⟨c', hc', hfail⟩
    obtain rfl := Option.some.inj hc'
    exact hall hfail

/-- **Step lemma.** -/
theorem StatusInv.step {s : Dashboard G F M} (h : s.StatusInv) {e : Event G F M}
    (halone : s.EndsAlone e) : (step s e).2.StatusInv := by
  have hinv := h.inv.step e
  rcases step_cases s e with heq | ⟨c, -, -, heq⟩ | ⟨i, f, hf, heq⟩ |
      ⟨i, l, rfl, hl, hsettled, hdone, heq⟩ <;>
    rw [heq] at hinv ⊢
  · exact h
  · -- the controls change, and a call starts
    exact StatusInv.loadData hinv
  · exact h.settle hf hinv
  · exact h.complete hl hdone (halone l hl hsettled hdone) hinv

/-- **An end beside another call shows at once.** The end clears `isLoading` while the other call is
in flight. -/
theorem not_truthful_of_not_alone {s : Dashboard G F M} {e : Event G F M}
    (halone : ¬ s.EndsAlone e) : ¬ (step s e).2.Truthful := by
  intro htruth
  cases e with
  | complete i =>
    refine halone fun l hl hsettled hdone => ?_
    have hstep : (Dashboard.step s (.complete i)).2 = s.completeLoad i l := by
      simp [Dashboard.step, hl, hsettled, hdone]
    rw [hstep] at htruth
    intro j l' hl' hdone'
    by_contra hne
    -- the other call is still in flight, and `isLoading` has been cleared
    have hmem : l' ∈ (s.completeLoad i l).loads :=
      List.mem_of_getElem? ((getElem?_completeLoad hdone').mpr ⟨hne, hl'⟩)
    cases htruth.isLoading l' hmem hdone'
  | _ => exact halone trivial

/-- **When the status indicators are truthful.** In every state of a run, `isLoading` is set while a
call is in flight, and `error` is set without calls in flight exactly if all requests for the
selected controls were rejected, exactly when no call of the run ends while another is in flight. -/
theorem truthful_iff (events : List (Event G F M)) :
    (∀ pre, pre <+: events → (Machine.finalState step mount pre).Truthful) ↔
      Machine.EveryStep step EndsAlone mount events :=
  Machine.everyStep_iff_forall_prefix (P := StatusInv) (Machine.everyStep_true step mount events)
    (fun _ _ h _ halone => h.step halone)
    (fun _ _ _ _ halone => not_truthful_of_not_alone halone)
    (fun _ h => h.truthful) (StatusInv.loadData Inv.mount)

/-! ### Runs with two calls -/

/-- The three requests of a call are rejected. -/
def reject (i : ℕ) : List (Event Unit Unit Unit) :=
  [.settleGeneration i none, .settleForecast i none, .settleMetrics i none]

/-- When the first of two calls ends, `isLoading` is cleared although the second is in flight; and
when the first ends last and fails, `error` is set although the second had all its requests
fulfilled. -/
theorem not_truthful_twoCalls :
    (∃ events : List (Event Unit Unit Unit),
      ∃ l ∈ (Machine.finalState step mount events).loads, l.done = false ∧
        (Machine.finalState step mount events).isLoading = false) ∧
    ∃ events : List (Event Unit Unit Unit),
      (Machine.finalState step mount events).Idle ∧
      (Machine.finalState step mount events).error ≠ none ∧
      ∃ c ∈ (Machine.finalState step mount events).current, c.Fulfilled := by
  constructor
  · exact ⟨.change eightHours :: fulfil 0 ++ [.complete 0], _,
      List.mem_cons_of_mem _ List.mem_cons_self, rfl, rfl⟩
  · refine ⟨.change eightHours :: fulfil 1 ++ [.complete 1] ++ reject 0 ++ [.complete 0], ?_,
      nofun, _, rfl, rfl, rfl, rfl⟩
    intro l hl
    rcases List.mem_pair.mp hl with rfl | rfl <;> rfl

end Dashboard

end WindSight
