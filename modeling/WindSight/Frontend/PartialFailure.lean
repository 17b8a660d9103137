import WindSight.Frontend.InFlight

/-! # Data after partial failures

What the dashboard holds when calls of `loadData` do not overlap but any of their requests may be
rejected. A rejected request leaves what was held for it, also when that was fetched for other
controls. `heldSelected_iff` shows that the data held are those of the selected controls, in every
state without calls in flight, exactly when no rejected request leaves such data behind. -/

namespace WindSight

variable {G F M : Type}

namespace Dashboard

/-! ## The property and the guards -/

/-- What the dashboard holds answers the requests for the selected controls. -/
structure HeldSelected (s : Dashboard G F M) : Prop where
  generation : ∀ r ∈ s.generation, r.request = s.controls.generationRequest
  forecast : ∀ r ∈ s.forecast, r.request = s.controls.forecastRequest
  metrics : ∀ r ∈ s.metrics, r.request = s.controls.metricsRequest

/-- An event that does not make calls overlap: the controls change only while no call is in flight.
-/
def Serial (s : Dashboard G F M) : Event G F M → Prop
  | .change controls => controls ≠ s.controls → s.Idle
  | _ => True

/-- Where a request of a call was rejected, the dashboard holds nothing or a response to the request
for the selected controls. -/
structure LeavesSelected (s : Dashboard G F M) (l : Load G F M) : Prop where
  generation : l.generation.isRejected → ∀ r ∈ s.generation,
    r.request = s.controls.generationRequest
  forecast : l.forecast.isRejected → ∀ r ∈ s.forecast, r.request = s.controls.forecastRequest
  metrics : l.metrics.isRejected → ∀ r ∈ s.metrics, r.request = s.controls.metricsRequest

/-- An event does not leave stale data behind: no call ends that would. -/
def LeavesNoStale (s : Dashboard G F M) : Event G F M → Prop
  | .complete i => ∀ l, s.loads[i]? = some l → l.allSettled = true → l.done = false →
      s.LeavesSelected l
  | _ => True

/-! ## Storing -/

/-- What is held after a settled promise is stored: its value, or what was held if it was rejected.
-/
theorem store_answers {α : Type} {x : Settlement (ApiResponse α)} {held : Option (ApiResponse α)}
    {request : ApiRequest} (hsettled : x.isSettled)
    (hx : ∀ r ∈ x.value?, r.request = request) :
    (∀ r ∈ x.store held, r.request = request) ↔
      (x.isRejected → ∀ r ∈ held, r.request = request) := by
  cases x with
  | pending => cases hsettled
  | fulfilled value =>
    refine iff_of_true ?_ nofun
    rintro r ⟨⟩
    exact hx value rfl
  | rejected => exact ⟨fun h _ => h, fun h => h rfl⟩

/-- A call for the selected controls leaves data for these exactly if its rejected requests do. -/
theorem heldSelected_completeLoad {s : Dashboard G F M} {i : ℕ} {l : Load G F M}
    (hsettled : l.allSettled = true) (hanswers : l.Answers s.controls) :
    (s.completeLoad i l).HeldSelected ↔ s.LeavesSelected l := by
  obtain ⟨hgen, hfc, hmet⟩ := Load.allSettled_iff.mp hsettled
  constructor
  · rintro ⟨hg, hf, hm⟩
    exact ⟨(store_answers hgen hanswers.generation).mp hg,
      (store_answers hfc hanswers.forecast).mp hf,
      (store_answers hmet hanswers.metrics).mp hm⟩
  · rintro ⟨hg, hf, hm⟩
    exact ⟨(store_answers hgen hanswers.generation).mpr hg,
      (store_answers hfc hanswers.forecast).mpr hf,
      (store_answers hmet hanswers.metrics).mpr hm⟩

/-! ## Runs without overlap -/

/-- What holds along a run without overlap that leaves no stale data: only the last call is in
flight, and while none is, the data held are those of the selected controls. -/
structure SerialInv (s : Dashboard G F M) : Prop where
  inv : s.Inv
  last : ∀ j l, s.loads[j]? = some l → l.done = false → j + 1 = s.loads.length
  held : s.Idle → s.HeldSelected

/-- A call that has not ended is the current one, and nothing else is in flight. -/
theorem SerialInv.current {s : Dashboard G F M} (h : s.SerialInv) {i : ℕ} {l : Load G F M}
    (hl : s.loads[i]? = some l) (hdone : l.done = false) :
    l.Answers s.controls ∧ s.OnlyInFlight i := by
  have hi := h.last i l hl hdone
  constructor
  · obtain ⟨c, hc, hcc⟩ := h.inv.current
    obtain rfl := Option.some.inj ((current_eq_of_last hl hi).symm.trans hc)
    exact hcc ▸ h.inv.answers l (List.mem_of_getElem? hl)
  · intro j l' hl' hdone'
    have hj := h.last j l' hl' hdone'
    omega

theorem SerialInv.mount : (mount : Dashboard G F M).SerialInv where
  inv := Inv.mount
  last j l hl _ := by
    obtain ⟨hj, -⟩ := List.getElem?_eq_some_iff.mp hl
    have hlen : (Dashboard.mount : Dashboard G F M).loads.length = 1 := rfl
    omega
  held h := absurd h (not_idle_loadData _)

/-- **Step lemma.** -/
theorem SerialInv.step {s : Dashboard G F M} (h : s.SerialInv) {e : Event G F M}
    (hserial : s.Serial e) (hstale : s.LeavesNoStale e) : (step s e).2.SerialInv := by
  have hinv := h.inv.step e
  rcases step_cases s e with heq | ⟨c, rfl, hc, heq⟩ | ⟨i, f, hf, heq⟩ |
      ⟨i, l, rfl, hl, hsettled, hdone, heq⟩ <;>
    rw [heq] at hinv ⊢
  · exact h
  · -- nothing was in flight, so the new call is the only one that is
    have hidle := idle_iff.mp (hserial hc)
    refine ⟨hinv, ?_, fun hi => absurd hi (not_idle_loadData _)⟩
    intro j l hl hdone
    have hloads : (s.loads ++ [Load.start c])[j]? = some l := hl
    have hlt : j < s.loads.length + 1 := by
      simpa using (List.getElem?_eq_some_iff.mp hloads).1
    show j + 1 = (s.loads ++ [Load.start c]).length
    rw [List.length_append, List.length_singleton]
    by_contra hne
    rw [List.getElem?_append_left (by omega)] at hloads
    rw [hidle j l hloads] at hdone
    cases hdone
  · -- a request settles, which starts and ends no call
    refine ⟨hinv, ?_, ?_⟩
    · intro j l hl hdone
      obtain ⟨l', hl', hdone'⟩ := getElem?_modify_done hf.done hl
      rw [List.length_modify]
      exact h.last j l' hl' (hdone'.trans hdone)
    · intro hidle
      have hheld := h.held ((idle_modify hf.done).mp hidle)
      exact ⟨hheld.generation, hheld.forecast, hheld.metrics⟩
  · -- the only call in flight ends, and it was started for the selected controls
    refine ⟨hinv, ?_, ?_⟩
    · intro j l' hl' hdone'
      obtain ⟨-, hl''⟩ := (getElem?_completeLoad hdone').mp hl'
      unfold Dashboard.completeLoad
      rw [List.length_modify]
      exact h.last j l' hl'' hdone'
    · intro _
      exact (heldSelected_completeLoad hsettled (h.current hl hdone).1).mpr
        (hstale l hl hsettled hdone)

/-- **Stale data show at once.** In a run without overlap, an event that leaves stale data behind
ends the only call in flight, and what is held then does not answer the requests for the selected
controls. -/
theorem not_heldSelected_of_stale {s : Dashboard G F M} (h : s.SerialInv) {e : Event G F M}
    (hstale : ¬ s.LeavesNoStale e) :
    ¬ ((step s e).2.Idle → (step s e).2.HeldSelected) := by
  intro hheld
  cases e with
  | complete i =>
    refine hstale fun l hl hsettled hdone => ?_
    obtain ⟨hanswers, honly⟩ := h.current hl hdone
    have hstep : (Dashboard.step s (.complete i)).2 = s.completeLoad i l := by
      simp [Dashboard.step, hl, hsettled, hdone]
    rw [hstep] at hheld
    exact (heldSelected_completeLoad hsettled hanswers).mp (hheld (idle_completeLoad.mpr honly))
  | _ => exact hstale trivial

/-- **When the data held are those selected, despite rejected requests.** In a run without
overlapping calls, the data held answer the requests for the selected controls in every state
without calls in flight exactly when no call ends with a rejected request for which the dashboard
holds a response to another request. -/
theorem heldSelected_iff {events : List (Event G F M)}
    (hserial : Machine.EveryStep step Serial mount events) :
    (∀ pre, pre <+: events → (Machine.finalState step mount pre).Idle →
        (Machine.finalState step mount pre).HeldSelected) ↔
      Machine.EveryStep step LeavesNoStale mount events :=
  Machine.everyStep_iff_forall_prefix (P := SerialInv) hserial
    (fun _ _ h hserial hstale => h.step hserial hstale)
    (fun _ _ h _ hstale => not_heldSelected_of_stale h hstale)
    (fun _ h => h.held) SerialInv.mount

/-! ### Runs with a rejected forecast request -/

/-- The forecast request of a call is rejected, and the two others are fulfilled. -/
def rejectForecast (i : ℕ) : List (Event Unit Unit Unit) :=
  [.settleGeneration i (some ()), .settleForecast i none, .settleMetrics i (some ()), .complete i]

/-- A forecast request rejected on the first call leaves nothing held. -/
theorem heldSelected_iff_firstRejected :
    (Machine.finalState step (mount : Dashboard Unit Unit Unit) (rejectForecast 0)).HeldSelected
    := by
  have hserial : Machine.EveryStep step Serial mount (rejectForecast 0) :=
    ⟨trivial, trivial, trivial, trivial, trivial⟩
  refine (heldSelected_iff hserial).mpr ⟨trivial, trivial, trivial, ?_, trivial⟩ _
    (List.prefix_refl _) ?_
  · intro l hl _ _
    obtain rfl := Option.some.inj hl
    exact ⟨nofun, fun _ => nofun, nofun⟩
  · intro l hl
    rw [List.mem_singleton.mp hl]

/-- Rejected after the horizon was changed to eight hours, it leaves the forecast for four. -/
theorem not_heldSelected_eightHours :
    ∃ events : List (Event Unit Unit Unit),
      Machine.EveryStep step Serial mount events ∧
      (Machine.finalState step mount events).Idle ∧
      ¬ (Machine.finalState step mount events).HeldSelected := by
  refine ⟨fulfil 0 ++ [.complete 0, .change eightHours] ++ rejectForecast 1, ?_, ?_, ?_⟩
  · refine ⟨trivial, trivial, trivial, trivial, fun _ => ?_, trivial, trivial, trivial, trivial,
      trivial⟩
    intro l hl
    rw [List.mem_singleton.mp hl]
  · intro l hl
    rcases List.mem_pair.mp hl with rfl | rfl <;> rfl
  · intro hheld
    have hparams : Controls.initial.forecastRequest.params = eightHours.forecastRequest.params :=
      congrArg ApiRequest.params (hheld.forecast _ rfl)
    simp only [Controls.forecastRequest, fetchForecast, List.cons.injEq, Prod.mk.injEq] at hparams
    exact absurd hparams.2.2.1.2 (by decide)

end Dashboard

end WindSight
