import WindSight.Frontend.Dashboard

/-! # Stale responses

Whose responses the dashboard holds when calls of `loadData` overlap. A call that ends after the one
for the selected controls overwrites what that one stored. `showsSelected_of_timely` shows that the
data are those of the selected controls in every run without such a late end, and
`not_showsSelected_of_late` that each late end breaks this at once. -/

namespace WindSight

variable {G F M : Type}

/-! ## Settling -/

namespace Settlement

variable {α : Type}

/-- The value of a fulfilled promise. -/
def value? : Settlement α → Option α
  | fulfilled value => some value
  | _ => none

theorem store_eq (x : Settlement α) (held : Option α) : x.store held = x.value?.or held := by
  cases x <;> rfl

/-- A settled promise stays as it is. -/
theorem settle_of_isSettled {x : Settlement α} (h : x.isSettled) (outcome : Option α) :
    x.settle outcome = x := by
  cases x with
  | pending => cases h
  | _ => rfl

/-- The value of a promise was there before it settled, or is the one it settles with. -/
theorem value?_settle {x : Settlement α} {outcome : Option α} {value : α}
    (h : (x.settle outcome).value? = some value) :
    x.value? = some value ∨ outcome = some value := by
  cases x with
  | pending => cases outcome <;> simp_all [settle, value?]
  | _ => exact Or.inl h

end Settlement

namespace Load

/-- The responses of a call were requested as the three requests for some controls. -/
structure Answers (l : Load G F M) (c : Controls) : Prop where
  generation : ∀ r ∈ l.generation.value?, r.request = c.generationRequest
  forecast : ∀ r ∈ l.forecast.value?, r.request = c.forecastRequest
  metrics : ∀ r ∈ l.metrics.value?, r.request = c.metricsRequest

/-- All three requests of a call were fulfilled. -/
def Fulfilled (l : Load G F M) : Prop :=
  l.generation.value?.isSome ∧ l.forecast.value?.isSome ∧ l.metrics.value?.isSome

/-- A step of a call before it ends: it keeps its controls, and does nothing once all of its
requests are settled. -/
structure Progress (f : Load G F M → Load G F M) : Prop where
  controls : ∀ l, (f l).controls = l.controls
  done : ∀ l, (f l).done = l.done
  settled : ∀ l, l.allSettled → f l = l
  answers : ∀ l, l.Answers l.controls → (f l).Answers l.controls

theorem allSettled_iff {l : Load G F M} :
    l.allSettled ↔ l.generation.isSettled ∧ l.forecast.isSettled ∧ l.metrics.isSettled := by
  simp [allSettled, and_assoc]

/-- A request that settles answers the request it was. -/
theorem request_of_value?_settle {α : Type} {x : Settlement (ApiResponse α)} {request : ApiRequest}
    {outcome : Option α} (h : ∀ r ∈ x.value?, r.request = request) :
    ∀ r ∈ (x.settle (outcome.map (⟨request, ·⟩))).value?, r.request = request := by
  intro r hr
  rcases Settlement.value?_settle hr with hr | hr
  · exact h r hr
  · obtain ⟨body, -, rfl⟩ := Option.map_eq_some_iff.mp hr
    rfl

theorem progress_settleGeneration (outcome : Option G) :
    Progress (settleGeneration outcome : Load G F M → Load G F M) where
  controls _ := rfl
  done _ := rfl
  settled l h := by
    rw [settleGeneration, Settlement.settle_of_isSettled (allSettled_iff.mp h).1]
  answers _ h := ⟨request_of_value?_settle h.generation, h.forecast, h.metrics⟩

theorem progress_settleForecast (outcome : Option F) :
    Progress (settleForecast outcome : Load G F M → Load G F M) where
  controls _ := rfl
  done _ := rfl
  settled l h := by
    rw [settleForecast, Settlement.settle_of_isSettled (allSettled_iff.mp h).2.1]
  answers _ h := ⟨h.generation, request_of_value?_settle h.forecast, h.metrics⟩

theorem progress_settleMetrics (outcome : Option M) :
    Progress (settleMetrics outcome : Load G F M → Load G F M) where
  controls _ := rfl
  done _ := rfl
  settled l h := by
    rw [settleMetrics, Settlement.settle_of_isSettled (allSettled_iff.mp h).2.2]
  answers _ h := ⟨h.generation, h.forecast, request_of_value?_settle h.metrics⟩

end Load

namespace Dashboard

/-! ## One step -/

/-- The call that was started last, which is the one for the selected controls. -/
def current (s : Dashboard G F M) : Option (Load G F M) := s.loads.getLast?

/-- Everything a step can do: nothing, start a call, let a request of a call settle, or end a call
whose requests are all settled. -/
theorem step_cases (s : Dashboard G F M) (e : Event G F M) :
    (step s e).2 = s ∨
    (∃ c, e = .change c ∧ c ≠ s.controls ∧
      (step s e).2 = (loadData { s with controls := c }).2) ∨
    (∃ i f, Load.Progress f ∧ (step s e).2 = { s with loads := s.loads.modify i f }) ∨
    ∃ i l, e = .complete i ∧ s.loads[i]? = some l ∧ l.allSettled ∧ l.done = false ∧
      (step s e).2 = s.completeLoad i l := by
  cases e with
  | change c =>
    by_cases hc : c = s.controls
    · exact Or.inl (by rw [step, if_pos hc])
    · exact Or.inr (Or.inl ⟨c, rfl, hc, by rw [step, if_neg hc]⟩)
  | settleGeneration i outcome =>
    exact Or.inr (Or.inr (Or.inl ⟨i, _, Load.progress_settleGeneration outcome, rfl⟩))
  | settleForecast i outcome =>
    exact Or.inr (Or.inr (Or.inl ⟨i, _, Load.progress_settleForecast outcome, rfl⟩))
  | settleMetrics i outcome =>
    exact Or.inr (Or.inr (Or.inl ⟨i, _, Load.progress_settleMetrics outcome, rfl⟩))
  | complete i =>
    cases hl : s.loads[i]? with
    | none => exact Or.inl (by simp only [step, hl])
    | some l =>
      by_cases hend : l.allSettled && !l.done
      · have hend' : l.allSettled = true ∧ l.done = false := by simpa using hend
        exact Or.inr (Or.inr (Or.inr ⟨i, l, rfl, hl, hend'.1, hend'.2, by
          simp only [step, hl, if_pos hend]⟩))
      · exact Or.inl (by simp only [step, hl, if_neg hend])

/-! ## The list of calls -/

section Modify

variable {α : Type} {xs : List α} {i : ℕ} {f : α → α}

/-- The last call when one of the calls changes. -/
theorem getLast?_modify :
    (xs.modify i f).getLast? = xs.getLast?.map (if i + 1 = xs.length then f else id) := by
  rw [List.getLast?_eq_getElem?, List.getElem?_modify, List.length_modify,
    List.getLast?_eq_getElem?]
  rcases Nat.eq_zero_or_pos xs.length with hzero | hpos
  · simp [List.length_eq_zero_iff.mp hzero]
  · have hlast : i = xs.length - 1 ↔ i + 1 = xs.length := by omega
    simp only [hlast]
    split_ifs <;> simp

/-- The calls when one of the calls changes. -/
theorem mem_of_mem_modify {y : α} (h : y ∈ xs.modify i f) :
    y ∈ xs ∨ ∃ x, xs[i]? = some x ∧ y = f x := by
  obtain ⟨j, hj⟩ := List.mem_iff_getElem?.mp h
  rw [List.getElem?_modify] at hj
  split_ifs at hj with hij
  · obtain ⟨x, hx, rfl⟩ := Option.map_eq_some_iff.mp hj
    exact Or.inr ⟨x, hij ▸ hx, rfl⟩
  · exact Or.inl (List.mem_of_getElem? (by simpa using hj))

end Modify

/-! ## The data shown -/

/-- The data held answer the requests for the selected controls. -/
def ShowsSelected (s : Dashboard G F M) : Prop :=
  (∃ r, s.generation = some r ∧ r.request = s.controls.generationRequest) ∧
  (∃ r, s.forecast = some r ∧ r.request = s.controls.forecastRequest) ∧
  ∃ r, s.metrics = some r ∧ r.request = s.controls.metricsRequest

/-- No call is in flight. -/
def Idle (s : Dashboard G F M) : Prop := ∀ l ∈ s.loads, l.done = true

/-- The call for the selected controls has ended with all its requests fulfilled. -/
def SelectedLoaded (s : Dashboard G F M) : Prop := ∃ c ∈ s.current, c.done = true ∧ c.Fulfilled

/-- An event is timely unless it ends a call with a response to another request than those for the
selected controls, after the call for these has ended with all its requests fulfilled. -/
def Timely (s : Dashboard G F M) : Event G F M → Prop
  | .complete i => s.SelectedLoaded → ∀ l, s.loads[i]? = some l → l.Answers s.controls
  | _ => True

/-- What holds in every state: the last call is for the selected controls, a call has ended only if
its requests are settled, and its responses answer its own requests. -/
structure Inv (s : Dashboard G F M) : Prop where
  current : ∃ c ∈ s.current, c.controls = s.controls
  settled : ∀ l ∈ s.loads, l.done = true → l.allSettled
  answers : ∀ l ∈ s.loads, l.Answers l.controls

/-! ### The invariant -/

/-- A call that has just been started has no responses. -/
theorem answers_start (c c' : Controls) : (Load.start c : Load G F M).Answers c' := by
  constructor <;> exact fun r hr => nomatch hr

theorem current_loadData (s : Dashboard G F M) :
    (loadData s).2.current = some (Load.start s.controls) := by
  simp [current, loadData]

theorem Inv.loadData {s : Dashboard G F M} (h : ∀ l ∈ s.loads, l.done = true → l.allSettled)
    (h' : ∀ l ∈ s.loads, l.Answers l.controls) : (loadData s).2.Inv where
  current := ⟨_, current_loadData s, rfl⟩
  settled l hl hdone := by
    rcases List.mem_append.mp hl with hl | hl
    · exact h l hl hdone
    · rw [List.mem_singleton.mp hl] at hdone
      cases hdone
  answers l hl := by
    rcases List.mem_append.mp hl with hl | hl
    · exact h' l hl
    · rw [List.mem_singleton.mp hl]
      exact answers_start _ _

theorem Inv.mount : (mount : Dashboard G F M).Inv := Inv.loadData nofun nofun

/-- What a step does to one call keeps the invariant, if an ended call has its requests settled. -/
theorem Inv.modify {s s' : Dashboard G F M} (h : s.Inv) {i : ℕ} {f : Load G F M → Load G F M}
    (hcontrols : s'.controls = s.controls) (hloads : s'.loads = s.loads.modify i f)
    (hkeep : ∀ l, (f l).controls = l.controls)
    (hf : ∀ l, s.loads[i]? = some l →
      ((f l).done = true → (f l).allSettled) ∧ (f l).Answers l.controls) : s'.Inv where
  current := by
    obtain ⟨c, hc, hcc⟩ := h.current
    rw [Dashboard.current, hloads, getLast?_modify, hcontrols]
    split_ifs
    · exact ⟨f c, Option.mem_map_of_mem f hc, (hkeep c).trans hcc⟩
    · exact ⟨c, by simpa [Dashboard.current] using hc, hcc⟩
  settled l hl hdone := by
    rw [hloads] at hl
    rcases mem_of_mem_modify hl with hl | ⟨x, hx, rfl⟩
    · exact h.settled l hl hdone
    · exact (hf x hx).1 hdone
  answers l hl := by
    rw [hloads] at hl
    rcases mem_of_mem_modify hl with hl | ⟨x, hx, rfl⟩
    · exact h.answers l hl
    · rw [hkeep]
      exact (hf x hx).2

/-- **Step lemma.** -/
theorem Inv.step {s : Dashboard G F M} (h : s.Inv) (e : Event G F M) : (step s e).2.Inv := by
  rcases step_cases s e with heq | ⟨c, -, -, heq⟩ | ⟨i, f, hf, heq⟩ |
      ⟨i, l, -, hl, hsettled, -, heq⟩ <;>
    rw [heq]
  · exact h
  · exact Inv.loadData h.settled h.answers
  · refine h.modify rfl rfl hf.controls fun l hl => ⟨fun hdone => ?_, ?_⟩
    · rw [hf.done] at hdone
      have hall := h.settled l (List.mem_of_getElem? hl) hdone
      rwa [hf.settled l hall]
    · exact hf.controls l ▸ hf.answers l (h.answers l (List.mem_of_getElem? hl))
  · refine h.modify rfl rfl (fun _ => rfl) fun l' hl' => ⟨fun _ => ?_, ?_⟩
    · obtain rfl := Option.some.inj (hl.symm.trans hl')
      exact hsettled
    · have hans := h.answers l' (List.mem_of_getElem? hl')
      exact ⟨hans.generation, hans.forecast, hans.metrics⟩

/-! ### Timely runs -/

/-- What is held after a promise is stored answers a request, if its value does, and what was held
before unless there is a value. -/
theorem exists_store {α : Type} {x : Settlement (ApiResponse α)} {held : Option (ApiResponse α)}
    {request : ApiRequest} (hx : ∀ r ∈ x.value?, r.request = request)
    (hheld : x.value?.isSome ∨ ∃ r, held = some r ∧ r.request = request) :
    ∃ r, x.store held = some r ∧ r.request = request := by
  rw [Settlement.store_eq]
  cases hv : x.value? with
  | some r => exact ⟨r, rfl, hx r hv⟩
  | none =>
    rcases hheld with hsome | ⟨r, rfl, hr⟩
    · simp [hv] at hsome
    · exact ⟨r, rfl, hr⟩

/-- A call that answers the requests for the selected controls keeps, or establishes, that they are
shown. -/
theorem ShowsSelected.completeLoad {s : Dashboard G F M} {i : ℕ} {l : Load G F M}
    (hl : l.Answers s.controls) (h : l.Fulfilled ∨ s.ShowsSelected) :
    (s.completeLoad i l).ShowsSelected :=
  ⟨exists_store hl.generation (h.imp (·.1) (·.1)),
    exists_store hl.forecast (h.imp (·.2.1) (·.2.1)),
    exists_store hl.metrics (h.imp (·.2.2) (·.2.2))⟩

/-- The call that ends is the last one, or the last one stays as it is. -/
theorem current_completeLoad {s : Dashboard G F M} {i : ℕ} {l : Load G F M}
    (hl : s.loads[i]? = some l) :
    (s.current = some l ∧ (s.completeLoad i l).current = some { l with done := true }) ∨
      (s.completeLoad i l).current = s.current := by
  simp only [current, Dashboard.completeLoad, getLast?_modify]
  split_ifs with hi
  · have hlast : s.loads.getLast? = some l := by
      rw [List.getLast?_eq_getElem?, ← hi, Nat.add_sub_cancel, hl]
    exact Or.inl ⟨hlast, by rw [hlast]; rfl⟩
  · exact Or.inr (by simp)

/-- **Step lemma.** A timely step keeps that the data of the call for the selected controls are
shown once it has ended with all its requests fulfilled. -/
theorem showsSelected_step {s : Dashboard G F M} (hinv : s.Inv) {e : Event G F M}
    (htimely : s.Timely e) (h : s.SelectedLoaded → s.ShowsSelected) :
    (step s e).2.SelectedLoaded → (step s e).2.ShowsSelected := by
  rcases step_cases s e with heq | ⟨c, -, -, heq⟩ | ⟨i, f, hf, heq⟩ |
      ⟨i, l, rfl, hl, -, -, heq⟩ <;>
    rw [heq]
  · exact h
  · -- a call that has just been started has not ended
    rintro ⟨c', hc', hdone, -⟩
    rw [current_loadData] at hc'
    obtain rfl := Option.some.inj hc'
    cases hdone
  · rintro ⟨c', hc', hdone, hful⟩
    -- a call that has ended has its requests settled, so it makes no progress
    refine h ?_
    obtain ⟨c, hc, -⟩ := hinv.current
    rw [current, getLast?_modify] at hc'
    obtain rfl : c' = (if i + 1 = s.loads.length then f else id) c := by
      rw [← current, hc] at hc'
      exact (Option.some.inj hc').symm
    refine ⟨c, hc, ?_⟩
    split_ifs at hdone hful
    · rw [hf.done] at hdone
      rw [hf.settled c (hinv.settled c (List.mem_of_getLast? hc) hdone)] at hful
      exact ⟨hdone, hful⟩
    · exact ⟨hdone, hful⟩
  · rintro ⟨c', hc', hdone, hful⟩
    rcases current_completeLoad hl with ⟨hcur, hcur'⟩ | hcur
    · -- the call that ends is the one for the selected controls
      rw [hcur'] at hc'
      obtain rfl := Option.some.inj hc'
      obtain ⟨c, hc, hcc⟩ := hinv.current
      obtain rfl := Option.some.inj (hcur.symm.trans hc)
      exact ShowsSelected.completeLoad (hcc ▸ hinv.answers l (List.mem_of_getElem? hl))
        (Or.inl hful)
    · -- an older call ends, after that one
      have hloaded : s.SelectedLoaded := ⟨c', hcur ▸ hc', hdone, hful⟩
      exact ShowsSelected.completeLoad (htimely hloaded l hl) (Or.inr (h hloaded))

/-- **When the dashboard shows what is selected.** In every state without calls in flight that a run
of timely events reaches, if the call for the selected controls had all its requests fulfilled, then
the data held are the responses to the requests for these controls. -/
theorem showsSelected_of_timely {events : List (Event G F M)}
    (hrun : Machine.EveryStep step Timely mount events)
    (hidle : (Machine.finalState step mount events).Idle)
    (hful : ∃ c ∈ (Machine.finalState step mount events).current, c.Fulfilled) :
    (Machine.finalState step mount events).ShowsSelected := by
  have hinv : (Machine.finalState step mount events).Inv ∧
      ((Machine.finalState step mount events).SelectedLoaded →
        (Machine.finalState step mount events).ShowsSelected) := by
    refine hrun.invariant (P := fun s => s.Inv ∧ (s.SelectedLoaded → s.ShowsSelected))
      (fun s e htimely h => ⟨h.1.step e, showsSelected_step h.1 htimely h.2⟩) ⟨Inv.mount, ?_⟩
    rintro ⟨c, hc, hdone, -⟩
    rw [Dashboard.mount, current_loadData] at hc
    obtain rfl := Option.some.inj hc
    cases hdone
  obtain ⟨c, hc, hful⟩ := hful
  exact hinv.2 ⟨c, hc, hidle c (List.mem_of_getLast? hc), hful⟩

/-- A late end stores a response to another request. -/
theorem request_of_exists_store {α : Type} {x : Settlement (ApiResponse α)}
    {held : Option (ApiResponse α)} {request : ApiRequest}
    (h : ∃ r, x.store held = some r ∧ r.request = request) :
    ∀ r ∈ x.value?, r.request = request := by
  intro r hr
  obtain ⟨r', hstore, rfl⟩ := h
  rw [Settlement.store_eq, hr] at hstore
  rw [Option.some.inj hstore]

/-- **Each late end shows at once.** An event that ends a call and is not timely leaves data that do
not answer the requests for the selected controls, whose call has ended with all its requests
fulfilled. -/
theorem not_showsSelected_of_late {s : Dashboard G F M} {i : ℕ} {l : Load G F M}
    (hl : s.loads[i]? = some l) (hsettled : l.allSettled = true) (hdone : l.done = false)
    (hlate : ¬ s.Timely (.complete i)) :
    (step s (.complete i)).2.SelectedLoaded ∧ ¬ (step s (.complete i)).2.ShowsSelected := by
  rw [Timely, Classical.not_imp] at hlate
  obtain ⟨⟨c, hc, hcdone, hful⟩, hanswers⟩ := hlate
  have hstep : (step s (.complete i)).2 = s.completeLoad i l := by
    simp [step, hl, hsettled, hdone]
  rw [hstep]
  constructor
  · rcases current_completeLoad hl with ⟨hcur, -⟩ | hcur
    · obtain rfl := Option.some.inj (hcur.symm.trans hc)
      rw [hdone] at hcdone
      cases hcdone
    · exact ⟨c, hcur ▸ hc, hcdone, hful⟩
  · rintro ⟨hgeneration, hforecast, hmetrics⟩
    refine hanswers fun l' hl' => ?_
    obtain rfl := Option.some.inj (hl.symm.trans hl')
    exact ⟨request_of_exists_store hgeneration, request_of_exists_store hforecast,
      request_of_exists_store hmetrics⟩

/-! ### A run with two calls -/

/-- The first controls with a horizon of eight hours. -/
def eightHours : Controls := ⟨"2024-01-01T00:00", "2024-01-07T23:30", 8⟩

/-- The three requests of a call are fulfilled. -/
def fulfil (i : ℕ) : List (Event Unit Unit Unit) :=
  [.settleGeneration i (some ()), .settleForecast i (some ()), .settleMetrics i (some ())]

theorem showsSelected_of_timely_eightHours :
    (Machine.finalState step mount
        (.change eightHours :: fulfil 0 ++ fulfil 1 ++ [.complete 0, .complete 1])).ShowsSelected
    := by
  refine showsSelected_of_timely ?_ ?_ ?_
  · refine ⟨trivial, trivial, trivial, trivial, trivial, trivial, trivial, ?_, ?_, trivial⟩ <;>
    · rintro ⟨c, hc, hdone, -⟩
      obtain rfl := Option.some.inj hc
      cases hdone
  · intro l hl
    rcases List.mem_pair.mp hl with rfl | rfl <;> rfl
  · exact ⟨_, rfl, rfl, rfl, rfl⟩

/-- When the first call ends after the second, the forecast held is for a horizon of four hours. -/
theorem not_showsSelected_eightHours :
    ∃ events : List (Event Unit Unit Unit),
      (Machine.finalState step mount events).Idle ∧
      (∃ c ∈ (Machine.finalState step mount events).current, c.Fulfilled) ∧
      ¬ (Machine.finalState step mount events).ShowsSelected := by
  refine ⟨.change eightHours :: fulfil 1 ++ [.complete 1] ++ fulfil 0 ++ [.complete 0], ?_, ?_, ?_⟩
  · intro l hl
    rcases List.mem_pair.mp hl with rfl | rfl <;> rfl
  · exact ⟨_, rfl, rfl, rfl, rfl⟩
  · rintro ⟨-, ⟨r, hr, hrequest⟩, -⟩
    obtain rfl := Option.some.inj hr
    have hparams : Controls.initial.forecastRequest.params = eightHours.forecastRequest.params :=
      congrArg ApiRequest.params hrequest
    simp only [Controls.forecastRequest, fetchForecast, List.cons.injEq, Prod.mk.injEq] at hparams
    exact absurd hparams.2.2.1.2 (by decide)

end Dashboard

end WindSight
