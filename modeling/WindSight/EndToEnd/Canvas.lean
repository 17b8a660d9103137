import WindSight.EndToEnd.Screen
import WindSight.Frontend.TimeSeriesChart

/-! # The canvas

A tab with the dashboard, its theme and its chart. State changes as requests end, when the import of
ECharts is fulfilled and when the theme is toggled; rendering follows at any later time, and runs
the effects of the chart whose dependencies have changed. In every run the calls to ECharts are
served: no chart is used after its disposal, none is made twice, and none is left behind
(`canvas_served`). After a rendering the canvas shows the data the dashboard holds, in the colours
of the document (`canvas_current`). Reloading the tab keeps those colours
(`reload_keeps_theme`). -/

namespace WindSight

namespace Dashboard

variable {s : Dashboard Response Response Response}

/-- A chart shows the data held. -/
theorem eq_of_chartArea_eq_chart {actualData forecastData : List (Instant × ℚ)}
    (h : s.chartArea = .chart actualData forecastData) :
    actualData = s.generation.elim [] (·.body.points) ∧
      forecastData = s.forecast.elim [] (·.body.points) := by
  unfold chartArea ChartArea.drawn at h
  split_ifs at h
  cases h
  exact ⟨rfl, rfl⟩

/-- The step calls `setGeneration` or `setForecast`, with a new object. -/
def setsData {G F M : Type} (s : Dashboard G F M) : Event G F M → Bool
  | .complete i =>
    match s.loads[i]? with
    | some l =>
      l.allSettled && !l.done && (l.generation.value?.isSome || l.forecast.value?.isSome)
    | none => false
  | _ => false

/-- A step without a new object leaves the data held as they are. -/
theorem step_of_setsData_eq_false {G F M : Type} {s : Dashboard G F M} {event : Event G F M}
    (h : s.setsData event = false) :
    (s.step event).2.generation = s.generation ∧ (s.step event).2.forecast = s.forecast := by
  rcases step_cases s event with heq | ⟨c, -, -, heq⟩ | ⟨i, f, -, heq⟩ |
    ⟨i, l, rfl, hl, hsettled, hdone, heq⟩ <;> rw [heq]
  · exact ⟨rfl, rfl⟩
  · exact ⟨rfl, rfl⟩
  · exact ⟨rfl, rfl⟩
  · simp only [setsData, hl, hsettled, hdone, Bool.not_false, Bool.true_and, Bool.or_eq_false_iff,
      Option.isSome_eq_false_iff, Option.isNone_iff_eq_none] at h
    simp only [completeLoad, Settlement.store_eq, h.1, h.2]
    exact ⟨rfl, rfl⟩

end Dashboard

/-! ## A tab -/

/-- A tab: the state of the dashboard and of the theme, the chart component if it is mounted,
whether the data were set since the last rendering, what is on the page, and the next number for a
new element, chart or listener. -/
structure Page where
  dashboard : Dashboard Response Response Response
  storage : LocalStorage
  provider : ThemeProvider
  chart : Option ChartComponent
  dataSet : Bool
  window : Window
  ids : ℕ

/-- What can happen to a tab: the dashboard takes a step, the user toggles the theme, the import of
a mounted chart is fulfilled, React renders, the window is resized, another tab writes the stored
theme, or the tab is reloaded. -/
inductive PageEvent where
  | dashboard (event : Dashboard.Event Response Response Response)
  | toggle (writes : Bool)
  | imported (element : ℕ)
  | render
  | resize
  | otherTab (value : Option String)
  | reload (prefersLight : Bool)

namespace Page

/-- A tab whose document was just loaded: the dashboard has sent its first requests. -/
def load (storage : LocalStorage) (prefersLight : Bool) (ids : ℕ) : Page :=
  ⟨.mount, storage, .mount storage prefersLight, none, false, .blank, ids⟩

/-- A rendering, as far as the chart goes: its calls, and the component after it. A component stays
mounted as long as the chart is shown; its drawing effect runs again when the library, the data or
the theme is another one. -/
def commit (styles : Option String → String → String) (p : Page) :
    List ChartCall × ℕ × Option ChartComponent :=
  match p.dashboard.chartArea, p.chart with
  | .chart _ _, none => ([], p.ids + 1, some (.mount p.ids p.provider.theme))
  | .chart actualData forecastData, some c =>
    if p.dataSet || c.deps ≠ (c.echartsLib, p.provider.theme) then
      let r := c.draw p.ids p.provider.theme
        (chartOption (styles p.provider.dataTheme) actualData forecastData)
      (c.cleanupCalls ++ r.1, r.2.1, some r.2.2)
    else ([], p.ids, some c)
  | _, some c => (c.unmountCalls, p.ids, none)
  | _, none => ([], p.ids, none)

/-- A rendering. -/
def render (styles : Option String → String → String) (p : Page) : List ChartCall × Page :=
  let r := p.commit styles
  (r.1, { p with
    chart := r.2.2, dataSet := false, window := p.window.after r.1, ids := r.2.1 })

/-- A click on `ThemeToggle`, before it is rendered. -/
def clickToggle (writes : Bool) (p : Page) : Page :=
  let r := p.provider.toggle writes p.storage
  { p with storage := r.1, provider := r.2 }

/-- One step: the calls to ECharts and the window, and the next state. A click is rendered at once;
`setEchartsLib` of a component that is no longer mounted does nothing. -/
def step (styles : Option String → String → String) (p : Page) :
    PageEvent → List ChartCall × Page
  | .dashboard event =>
    ([], { p with
      dashboard := (p.dashboard.step event).2
      dataSet := p.dataSet || p.dashboard.setsData event })
  | .toggle writes => (p.clickToggle writes).render styles
  | .imported element =>
    ([], { p with chart := p.chart.map (·.imported element) })
  | .render => p.render styles
  | .resize =>
    let calls := p.window.listeners.map fun x => .resize x.2
    (calls, { p with window := p.window.after calls })
  | .otherTab value => ([], { p with storage := Function.update p.storage themeKey value })
  | .reload prefersLight => ([], load p.storage prefersLight p.ids)

end Page

/-! ## What is on the page -/

namespace Page

/-- Everything on the page belongs to the mounted component. -/
inductive Owned (ids : ℕ) : Option ChartComponent → Window → Option ChartOption → Prop
  | unmounted : Owned ids none .blank none
  | mounted {c : ChartComponent} {w : Window} {drawn : Option ChartOption}
    (h : c.Owns ids w drawn) : Owned ids (some c) w drawn

section Owned

variable {ids : ℕ} {chart : Option ChartComponent} {w : Window} {drawn : Option ChartOption}

theorem Owned.imported (h : Owned ids chart w drawn) (element : ℕ) :
    Owned ids (chart.map (·.imported element)) w drawn := by
  cases h with
  | unmounted => exact .unmounted
  | mounted howns => exact .mounted (howns.imported element)

theorem Owned.resize (h : Owned ids chart w drawn) :
    w.Serves (w.listeners.map fun x => .resize x.2) := by
  cases h with
  | unmounted => trivial
  | mounted howns => exact howns.resize

theorem Owned.window (h : Owned ids chart w drawn) :
    w.charts.map (·.option) = drawn.toList.map some ∧
      (∀ x ∈ w.charts, ∃ c ∈ chart, c.element = x.element) ∧
      w.listeners.map Prod.snd = w.charts.map (·.chart) := by
  cases h with
  | unmounted => exact ⟨rfl, fun x hx => absurd hx List.not_mem_nil, rfl⟩
  | mounted howns =>
    obtain ⟨hoption, helement, hlisteners⟩ := howns.window
    exact ⟨hoption, fun x hx => ⟨_, rfl, helement x hx⟩, hlisteners⟩

end Owned

/-- What the drawing effect would set now. -/
def option (styles : Option String → String → String) (p : Page) : ChartOption :=
  chartOption (styles p.provider.dataTheme) (p.dashboard.generation.elim [] (·.body.points))
    (p.dashboard.forecast.elim [] (·.body.points))

variable {styles : Option String → String → String} {p : Page} {drawn : Option ChartOption}

/-- `drawn` is on the page, and it is current unless the drawing effect is due. -/
structure Drawn (styles : Option String → String → String) (p : Page)
    (drawn : Option ChartOption) : Prop where
  owned : Owned p.ids p.chart p.window drawn
  current : p.dataSet = false → ∀ c ∈ p.chart, c.deps.2 = p.provider.theme →
    ∀ o ∈ drawn, o = p.option styles

/-- A chart is drawn as soon as it is shown and ECharts is there. -/
structure Shows (styles : Option String → String → String) (p : Page)
    (drawn : Option ChartOption) : Prop where
  shown : ∀ actualData forecastData, p.dashboard.chartArea = .chart actualData forecastData →
    ∃ c, p.chart = some c ∧ drawn = if c.echartsLib then some (p.option styles) else none
  hidden : (∀ actualData forecastData, p.dashboard.chartArea ≠ .chart actualData forecastData) →
    p.chart = none ∧ drawn = none

/-- A chart whose effect is not due shows what the effect would set. -/
theorem Drawn.eq_option {c : ChartComponent} (h : p.Drawn styles drawn) (hc : p.chart = some c)
    (hdata : p.dataSet = false) (hdeps : c.deps = (c.echartsLib, p.provider.theme)) :
    drawn = if c.echartsLib then some (p.option styles) else none := by
  have howned := h.owned
  rw [hc] at howned
  cases howned with
  | mounted howns =>
    have hsome : drawn.isSome = c.echartsLib := by rw [howns.drawn_isSome, hdeps]
    have hcurrent := h.current hdata c hc (by rw [hdeps])
    cases drawn with
    | none => rw [← hsome]; rfl
    | some o => rw [← hsome, hcurrent o rfl]; rfl

/-! ### A rendering -/

section Commit

variable {c : ChartComponent} {actualData forecastData : List (Instant × ℚ)}

/-- The chart appears. -/
theorem commit_mount (harea : p.dashboard.chartArea = .chart actualData forecastData)
    (hc : p.chart = none) :
    p.commit styles = ([], p.ids + 1, some (.mount p.ids p.provider.theme)) := by
  rw [commit, harea, hc]

/-- A commit in which an effect is due draws the chart again. -/
theorem commit_draw (harea : p.dashboard.chartArea = .chart actualData forecastData)
    (hc : p.chart = some c) (hdue : p.dataSet = true ∨ c.deps ≠ (c.echartsLib, p.provider.theme)) :
    p.commit styles =
      let r := c.draw p.ids p.provider.theme (p.option styles)
      (c.cleanupCalls ++ r.1, r.2.1, some r.2.2) := by
  obtain ⟨rfl, rfl⟩ := Dashboard.eq_of_chartArea_eq_chart harea
  rw [commit, harea, hc]
  exact if_pos (by simpa using hdue)

/-- A commit in which no effect is due leaves the chart as it is. -/
theorem commit_keep (harea : p.dashboard.chartArea = .chart actualData forecastData)
    (hc : p.chart = some c)
    (hdue : ¬ (p.dataSet = true ∨ c.deps ≠ (c.echartsLib, p.provider.theme))) :
    p.commit styles = ([], p.ids, some c) := by
  rw [commit, harea, hc]
  exact if_neg (by simpa using hdue)

/-- The chart disappears. -/
theorem commit_unmount
    (harea : ∀ actualData forecastData, p.dashboard.chartArea ≠ .chart actualData forecastData)
    (hc : p.chart = some c) : p.commit styles = (c.unmountCalls, p.ids, none) := by
  rw [commit, hc]
  cases h : p.dashboard.chartArea with
  | chart actualData forecastData => exact absurd h (harea _ _)
  | loading => rfl
  | empty => rfl

/-- A commit without a chart, before and after, calls nothing. -/
theorem commit_absent
    (harea : ∀ actualData forecastData, p.dashboard.chartArea ≠ .chart actualData forecastData)
    (hc : p.chart = none) : p.commit styles = ([], p.ids, none) := by
  rw [commit, hc]
  cases h : p.dashboard.chartArea with
  | chart actualData forecastData => exact absurd h (harea _ _)
  | loading => rfl
  | empty => rfl

end Commit

/-- The calls of a rendering are served, and after it the page shows what it should, with its
component in the current theme. -/
def Rendered (styles : Option String → String → String) (p : Page)
    (r : List ChartCall × Page) : Prop :=
  p.window.Serves r.1 ∧ (∀ c ∈ r.2.chart, c.deps.2 = p.provider.theme) ∧
    ∃ drawn, r.2.Drawn styles drawn ∧ r.2.Shows styles drawn

section Rendered

variable {c : ChartComponent} {actualData forecastData : List (Instant × ℚ)}

/-- The chart appears. -/
theorem Drawn.rendered_mount (h : p.Drawn styles drawn)
    (harea : p.dashboard.chartArea = .chart actualData forecastData) (hc : p.chart = none) :
    p.Rendered styles (p.render styles) := by
  have howned := h.owned
  rw [Page.render, commit_mount harea hc]
  rw [hc] at howned
  generalize hw : p.window = w at howned
  cases howned
  refine ⟨trivial, ?_, none, ⟨.mounted (.nothing rfl rfl rfl), ?_⟩, ⟨?_, ?_⟩⟩
  · rintro c ⟨⟩
    rfl
  · rintro - c - - o ⟨⟩
  · intro _ _ _
    exact ⟨_, rfl, rfl⟩
  · intro hne
    exact absurd harea (hne _ _)

/-- A rendering in which an effect is due draws the chart again. -/
theorem Drawn.rendered_draw (h : p.Drawn styles drawn)
    (harea : p.dashboard.chartArea = .chart actualData forecastData) (hc : p.chart = some c)
    (hdue : p.dataSet = true ∨ c.deps ≠ (c.echartsLib, p.provider.theme)) :
    p.Rendered styles (p.render styles) := by
  have howned := h.owned
  rw [Page.render, commit_draw harea hc hdue]
  rw [hc] at howned
  cases howned with
  | mounted howns =>
    obtain ⟨hserves, howns'⟩ := howns.draw p.provider.theme (p.option styles)
    refine ⟨hserves, ?_, _, ⟨.mounted howns', ?_⟩, ⟨?_, ?_⟩⟩
    · rintro _ ⟨⟩
      rw [ChartComponent.deps_draw]
    · intro _ _ _ _ o ho
      split_ifs at ho
      · exact (Option.some.inj ho).symm
      · cases ho
    · intro _ _ _
      exact ⟨_, rfl, by rw [ChartComponent.echartsLib_draw]; rfl⟩
    · intro hne
      exact absurd harea (hne _ _)

/-- A rendering in which no effect is due leaves the chart as it is. -/
theorem Drawn.rendered_keep (h : p.Drawn styles drawn)
    (harea : p.dashboard.chartArea = .chart actualData forecastData) (hc : p.chart = some c)
    (hdue : ¬ (p.dataSet = true ∨ c.deps ≠ (c.echartsLib, p.provider.theme))) :
    p.Rendered styles (p.render styles) := by
  have howned := h.owned
  rw [Page.render, commit_keep harea hc hdue]
  rw [not_or, Bool.not_eq_true, not_not] at hdue
  obtain ⟨hdata, hdeps⟩ := hdue
  rw [hc] at howned
  refine ⟨trivial, ?_, drawn, ⟨howned, ?_⟩, ⟨?_, ?_⟩⟩
  · rintro _ ⟨⟩
    rw [hdeps]
  · intro _ c' hc' htheme
    exact h.current hdata c' (hc.trans hc') htheme
  · intro _ _ _
    exact ⟨c, rfl, h.eq_option hc hdata hdeps⟩
  · intro hne
    exact absurd harea (hne _ _)

/-- The chart disappears. -/
theorem Drawn.rendered_unmount (h : p.Drawn styles drawn)
    (harea : ∀ actualData forecastData, p.dashboard.chartArea ≠ .chart actualData forecastData)
    (hc : p.chart = some c) : p.Rendered styles (p.render styles) := by
  have howned := h.owned
  rw [Page.render, commit_unmount harea hc]
  rw [hc] at howned
  cases howned with
  | mounted howns =>
    obtain ⟨hserves, hafter⟩ := howns.unmount
    refine ⟨hserves, ?_, none, ⟨?_, ?_⟩, ⟨?_, ?_⟩⟩
    · rintro _ ⟨⟩
    · show Owned p.ids none (p.window.after c.unmountCalls) none
      rw [hafter]
      exact .unmounted
    · rintro - _ ⟨⟩
    · intro _ _ h
      exact absurd h (harea _ _)
    · exact fun _ => ⟨rfl, rfl⟩

/-- A rendering without a chart, before and after. -/
theorem Drawn.rendered_absent (h : p.Drawn styles drawn)
    (harea : ∀ actualData forecastData, p.dashboard.chartArea ≠ .chart actualData forecastData)
    (hc : p.chart = none) : p.Rendered styles (p.render styles) := by
  have howned := h.owned
  rw [Page.render, commit_absent harea hc]
  rw [hc] at howned
  generalize hw : p.window = w at howned
  cases howned
  refine ⟨trivial, ?_, none, ⟨.unmounted, ?_⟩, ⟨?_, ?_⟩⟩
  · rintro c ⟨⟩
  · rintro - c ⟨⟩
  · intro _ _ h
    exact absurd h (harea _ _)
  · exact fun _ => ⟨rfl, rfl⟩

/-- **Rendering.** Every rendering mounts the chart, draws it again, keeps it, unmounts it or has
none. -/
theorem Drawn.rendered (h : p.Drawn styles drawn) : p.Rendered styles (p.render styles) := by
  by_cases harea : ∃ actualData forecastData, p.dashboard.chartArea = .chart actualData forecastData
  · obtain ⟨actualData, forecastData, harea⟩ := harea
    cases hc : p.chart with
    | none => exact h.rendered_mount harea hc
    | some c =>
      by_cases hdue : p.dataSet = true ∨ c.deps ≠ (c.echartsLib, p.provider.theme)
      · exact h.rendered_draw harea hc hdue
      · exact h.rendered_keep harea hc hdue
  · push Not at harea
    cases hc : p.chart with
    | none => exact h.rendered_absent harea hc
    | some c => exact h.rendered_unmount harea hc

end Rendered

/-! ## Runs -/

/-- The invariant of a tab between two steps. -/
def Sound (styles : Option String → String → String) (p : Page) : Prop :=
  (∃ drawn, p.Drawn styles drawn) ∧ ∀ c ∈ p.chart, c.deps.2 = p.provider.theme

theorem Sound.load (styles : Option String → String → String) (storage : LocalStorage)
    (prefersLight : Bool) (ids : ℕ) : (load storage prefersLight ids).Sound styles := by
  refine ⟨⟨none, .unmounted, ?_⟩, ?_⟩
  · rintro - _ ⟨⟩
  · rintro _ ⟨⟩

/-- A click makes the effect of a mounted chart due. -/
theorem Sound.clickToggle (h : p.Sound styles) (writes : Bool) :
    ∃ drawn, (p.clickToggle writes).Drawn styles drawn := by
  obtain ⟨⟨drawn, hdrawn⟩, htheme⟩ := h
  refine ⟨drawn, hdrawn.owned, ?_⟩
  intro _ c hc hdeps
  have hother : c.deps.2 = p.provider.theme.other :=
    hdeps.trans (ThemeProvider.theme_toggle writes p.storage p.provider)
  rw [htheme c hc] at hother
  exact absurd hother.symm (Theme.other_ne _)

/-- The import of the library is fulfilled. -/
theorem Drawn.imported (h : p.Drawn styles drawn) (element : ℕ) :
    Drawn styles { p with chart := p.chart.map (·.imported element) } drawn := by
  refine ⟨h.owned.imported element, ?_⟩
  intro hdata c hc htheme
  obtain ⟨c', hc', rfl⟩ := Option.map_eq_some_iff.mp hc
  rw [ChartComponent.deps_imported] at htheme
  exact h.current hdata c' hc' htheme

/-- **Step lemma.** The calls of a step are served, and the invariant is kept. -/
theorem Sound.step (h : p.Sound styles) (event : PageEvent) :
    p.window.Serves (p.step styles event).1 ∧ (p.step styles event).2.Sound styles := by
  obtain ⟨⟨drawn, hdrawn⟩, htheme⟩ := h
  cases event with
  | dashboard event =>
    refine ⟨trivial, ⟨drawn, hdrawn.owned, ?_⟩, htheme⟩
    intro hdata c hc hdeps o ho
    obtain ⟨hdata, hsets⟩ := Bool.or_eq_false_iff.mp hdata
    obtain ⟨hgeneration, hforecast⟩ := Dashboard.step_of_setsData_eq_false hsets
    rw [hdrawn.current hdata c hc hdeps o ho]
    show chartOption _ _ _ = chartOption _ ((p.dashboard.step event).2.generation.elim _ _)
      ((p.dashboard.step event).2.forecast.elim _ _)
    rw [hgeneration, hforecast]
    rfl
  | toggle writes =>
    obtain ⟨drawn', hdrawn'⟩ := Sound.clickToggle ⟨⟨drawn, hdrawn⟩, htheme⟩ writes
    obtain ⟨hserves, htheme', drawn'', hdrawn'', -⟩ := hdrawn'.rendered
    exact ⟨hserves, ⟨drawn'', hdrawn''⟩, htheme'⟩
  | imported element =>
    refine ⟨trivial, ⟨drawn, hdrawn.imported element⟩, ?_⟩
    intro c hc
    obtain ⟨c', hc', rfl⟩ := Option.map_eq_some_iff.mp hc
    rw [ChartComponent.deps_imported]
    exact htheme c' hc'
  | render =>
    obtain ⟨hserves, htheme', drawn', hdrawn', -⟩ := hdrawn.rendered
    exact ⟨hserves, ⟨drawn', hdrawn'⟩, htheme'⟩
  | resize =>
    have hwindow : (p.step styles .resize).2 = p := by
      show { p with window := p.window.after _ } = p
      rw [Window.after_resize]
    rw [hwindow]
    exact ⟨hdrawn.owned.resize, ⟨drawn, hdrawn⟩, htheme⟩
  | otherTab value => exact ⟨trivial, ⟨drawn, hdrawn.owned, hdrawn.current⟩, htheme⟩
  | reload prefersLight => exact ⟨trivial, Sound.load styles p.storage prefersLight p.ids⟩

/-- The invariant holds after every run. -/
theorem sound_finalState (styles : Option String → String → String) (storage : LocalStorage)
    (prefersLight : Bool) (trace : List PageEvent) :
    (Machine.finalState (step styles) (Page.load storage prefersLight 0) trace).Sound styles :=
  Machine.finalState_invariant (P := Sound styles) (fun _ event _ h => (h.step event).2)
    (Sound.load styles storage prefersLight 0)

end Page

variable (styles : Option String → String → String) (storage : LocalStorage) (prefersLight : Bool)

/-- **Charts are used properly.** In every run of a tab, through changes of the controls, requests
that end in any order, imports, renderings at any time, toggles of the theme, resizes and reloads,
every call to ECharts and to the window is served when it is made: no element gets a second chart,
no chart is drawn on, resized or disposed of after its disposal, and no listener is removed twice.
There is never more than one chart on the page, it is on the element of the mounted component, and
exactly one listener resizes it. -/
theorem canvas_served (trace : List PageEvent) (event : PageEvent) :
    let p := Machine.finalState (Page.step styles) (Page.load storage prefersLight 0) trace
    p.window.Serves (p.step styles event).1 ∧ p.window.charts.length ≤ 1 ∧
      (∀ x ∈ p.window.charts, ∃ c ∈ p.chart, c.element = x.element) ∧
      p.window.listeners.map Prod.snd = p.window.charts.map (·.chart) := by
  have hsound := Page.sound_finalState styles storage prefersLight trace
  obtain ⟨drawn, hdrawn⟩ := hsound.1
  obtain ⟨hoption, helement, hlisteners⟩ := hdrawn.owned.window
  refine ⟨(hsound.step event).1, ?_, helement, hlisteners⟩
  have hlength := congrArg List.length hoption
  rw [List.length_map, List.length_map] at hlength
  rw [hlength]
  exact Option.length_toList_le

/-- **The canvas is current.** In every run of a tab, once React has rendered what happened, the
chart is on the page exactly if the dashboard shows one and its import of ECharts is fulfilled. It
then shows the two series the dashboard holds, whatever was drawn before, in the colours that the
style sheet gives the document, also when the theme could not be stored. Otherwise no chart and no
listener is left. -/
theorem canvas_current (trace : List PageEvent) :
    let p := Machine.finalState (Page.step styles) (Page.load storage prefersLight 0)
      (trace ++ [.render])
    (∀ actualData forecastData, p.dashboard.chartArea = .chart actualData forecastData →
      ∃ c, p.chart = some c ∧ p.window.charts.map (·.option) = if c.echartsLib then
        [some (chartOption (styles p.provider.dataTheme) actualData forecastData)] else []) ∧
    ((∀ actualData forecastData, p.dashboard.chartArea ≠ .chart actualData forecastData) →
      p.chart = none ∧ p.window = .blank) := by
  obtain ⟨⟨drawn, hdrawn⟩, -⟩ := Page.sound_finalState styles storage prefersLight trace
  rw [Machine.finalState_append]
  generalize Machine.finalState (Page.step styles) (Page.load storage prefersLight 0) trace = p at *
  obtain ⟨-, -, drawn', ⟨howned, -⟩, hshows⟩ := hdrawn.rendered
  dsimp only [Machine.finalState_cons, Machine.finalState_nil, Page.step]
  constructor
  · intro actualData forecastData harea
    obtain ⟨c, hc, rfl⟩ := hshows.shown actualData forecastData harea
    obtain ⟨rfl, rfl⟩ := Dashboard.eq_of_chartArea_eq_chart harea
    refine ⟨c, hc, ?_⟩
    rw [howned.window.1]
    split_ifs <;> rfl
  · intro harea
    obtain ⟨hc, rfl⟩ := hshows.hidden harea
    refine ⟨hc, ?_⟩
    rw [hc] at howned
    generalize ((p.render styles).2).window = w at howned ⊢
    cases howned
    rfl

/-! ## Reloading -/

/-- A reload would show the theme that the document shows. -/
def Page.Stored (prefersLight : Bool) (p : Page) : Prop :=
  p.provider.dataTheme = some (getPreferredTheme p.storage prefersLight).text

/-- The theme of the document stays the one a reload would show, as long as no other tab stores a
theme. When a theme cannot be stored, the document does not take it on either. -/
theorem Page.Stored.step {prefersLight : Bool} {p : Page} (h : p.Stored prefersLight)
    {event : PageEvent} (htab : ∀ value, event ≠ .otherTab value)
    (hreload : ∀ b, event = .reload b → b = prefersLight) :
    (p.step styles event).2.Stored prefersLight := by
  cases event with
  | dashboard event => exact h
  | toggle writes =>
    cases writes with
    | false => exact h
    | true =>
      show some p.provider.theme.other.text
        = some (getPreferredTheme (Function.update _ _ _) _).text
      rw [getPreferredTheme_update]
  | imported element => exact h
  | render => exact h
  | resize => exact h
  | otherTab value => exact absurd rfl (htab value)
  | reload b => rw [hreload b rfl]; rfl

/-- **Reloading keeps the colours.** In every run of a tab, with any toggles, stored or not, and any
reloads, a reload shows the theme the document has, if the system's preference stays and no other
tab stores a theme. -/
theorem reload_keeps_theme {trace : List PageEvent} (htabs : ∀ value, .otherTab value ∉ trace)
    (hreloads : ∀ b, .reload b ∈ trace → b = prefersLight) :
    let p := Machine.finalState (Page.step styles) (Page.load storage prefersLight 0) trace
    (p.step styles (.reload prefersLight)).2.provider.dataTheme = p.provider.dataTheme := by
  have hstored : (Machine.finalState (Page.step styles) (Page.load storage prefersLight 0)
      trace).Stored prefersLight := by
    refine Machine.finalState_invariant (P := Page.Stored prefersLight) ?_ rfl
    intro p event hevent h
    exact h.step styles (fun value heq => htabs value (heq ▸ hevent))
      (fun b heq => hreloads b (heq ▸ hevent))
  exact hstored.symm

/-- A click that is stored, one that is not, and a reload. -/
theorem reload_keeps_theme_clicks :
    let p := Machine.finalState (Page.step fun _ _ => "") (Page.load (fun _ => none) true 0)
      [.toggle true, .toggle false]
    p.provider = ⟨.light, some "dark"⟩ ∧
      (p.step (fun _ _ => "") (.reload true)).2.provider.dataTheme = p.provider.dataTheme :=
  ⟨rfl, reload_keeps_theme (fun _ _ => "") (fun _ => none) true (by simp) (by simp)⟩

end WindSight
