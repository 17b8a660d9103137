import WindSight.Clock
import WindSight.Library.Machine
import WindSight.Library.TextLines

/-! # Theme and chart

`ThemeProvider` and `TimeSeriesChart`, as far as they act on the browser. The provider keeps the
theme in its state, in `localStorage` and in the document. The component of the chart owns at most
one ECharts instance, on its own element, and one listener for `resize`; its effects create them,
redraw and clean up. -/

namespace WindSight

/-! ## Theme -/

/-- `Theme`. -/
inductive Theme where
  | light
  | dark
  deriving DecidableEq, Repr

namespace Theme

/-- The text of a theme. -/
def text : Theme → String
  | light => "light"
  | dark => "dark"

/-- `theme === 'dark' ? 'light' : 'dark'`. -/
def other (t : Theme) : Theme := if t = dark then light else dark

theorem other_ne (t : Theme) : t.other ≠ t := by cases t <;> decide

end Theme

/-- `window.localStorage`: the texts stored under keys. -/
abbrev LocalStorage := String → Option String

/-- `THEME_KEY`. -/
def themeKey : String := "windsight-theme"

/-- `getPreferredTheme`, in a browser that prefers a light scheme or does not. -/
def getPreferredTheme (storage : LocalStorage) (prefersLight : Bool) : Theme :=
  match storage themeKey with
  | some "light" => .light
  | some "dark" => .dark
  | _ => if prefersLight then .light else .dark

/-- A stored theme is preferred to what the browser prefers. -/
theorem getPreferredTheme_update (storage : LocalStorage) (t : Theme) (prefersLight : Bool) :
    getPreferredTheme (Function.update storage themeKey (some t.text)) prefersLight = t := by
  rw [getPreferredTheme, Function.update_self]
  cases t <;> rfl

/-- The state of `ThemeProvider`, and `data-theme` of the document. -/
structure ThemeProvider where
  theme : Theme
  dataTheme : Option String
  deriving DecidableEq, Repr

namespace ThemeProvider

/-- After the effect of the first render, which replaces the initial `'dark'`. -/
def mount (storage : LocalStorage) (prefersLight : Bool) : ThemeProvider :=
  let initial := getPreferredTheme storage prefersLight
  ⟨initial, some initial.text⟩

/-- `setTheme`. When `setItem` throws, the state is set and `applyTheme` is not reached. -/
def setTheme (t : Theme) (writes : Bool) (storage : LocalStorage) (p : ThemeProvider) :
    LocalStorage × ThemeProvider :=
  if writes then (Function.update storage themeKey (some t.text), ⟨t, some t.text⟩)
  else (storage, { p with theme := t })

/-- `toggle`. -/
def toggle (writes : Bool) (storage : LocalStorage) (p : ThemeProvider) :
    LocalStorage × ThemeProvider :=
  setTheme p.theme.other writes storage p

/-- A click on the toggle changes the theme, whether or not it is stored. -/
@[simp] theorem theme_toggle (writes : Bool) (storage : LocalStorage) (p : ThemeProvider) :
    (p.toggle writes storage).2.theme = p.theme.other := by
  cases writes <;> rfl

end ThemeProvider

/-! ## Options of the chart -/

/-- White space to `trim()`. -/
def isJsSpace (c : Char) : Bool :=
  (0x2000 ≤ c.val && c.val ≤ 0x200A) || [0x9, 0xA, 0xB, 0xC, 0xD, 0x20, 0xA0, 0x1680, 0x2028,
    0x2029, 0x202F, 0x205F, 0x3000, 0xFEFF].contains c.val

/-- `styles.getPropertyValue(name).trim() || fallback`. -/
def propertyOr (styles : String → String) (name fallback : String) : String :=
  let value := String.ofList (TextLines.strip isJsSpace (styles name).toList)
  if value = "" then fallback else value

/-- The colours of the chart. -/
structure Palette where
  colorActual : String
  colorForecast : String
  colorAxis : String
  colorGrid : String
  colorTooltipBg : String
  colorTooltipBorder : String
  colorBg : String
  colorZoomTrack : String
  colorZoomHandle : String
  textPrimary : String
  textMuted : String
  deriving DecidableEq, Repr

/-- The colours read from the computed style of the document. -/
def Palette.read (styles : String → String) : Palette :=
  let colorActual := propertyOr styles "--chart-actual" "#4da3ff"
  { colorActual
    colorForecast := propertyOr styles "--chart-forecast" "#5ad6a0"
    colorAxis := propertyOr styles "--chart-axis" "#7a8ca3"
    colorGrid := propertyOr styles "--chart-grid" "rgba(122,140,163,0.25)"
    colorTooltipBg := propertyOr styles "--chart-tooltip-bg" "rgba(16,20,32,0.95)"
    colorTooltipBorder := propertyOr styles "--chart-tooltip-border" "rgba(122,140,163,0.35)"
    colorBg := propertyOr styles "--chart-surface" "transparent"
    colorZoomTrack := propertyOr styles "--chart-zoom-track" "rgba(122,140,163,0.25)"
    colorZoomHandle := propertyOr styles "--chart-zoom-handle" colorActual
    textPrimary := propertyOr styles "--text-primary" "#e8edf5"
    textMuted := propertyOr styles "--text-muted" "#6b768a" }

/-- A series of the chart. -/
structure Series where
  name : String
  color : String
  data : List (Instant × ℚ)
  deriving DecidableEq, Repr

/-- What varies in `option`: its colours and its series. -/
structure ChartOption where
  palette : Palette
  series : List Series
  deriving DecidableEq, Repr

/-- `option`, in the colours of the document. -/
def chartOption (styles : String → String) (actualData forecastData : List (Instant × ℚ)) :
    ChartOption :=
  let palette := Palette.read styles
  ⟨palette, [⟨"Actual Generation", palette.colorActual, actualData⟩,
    ⟨"Forecast", palette.colorForecast, forecastData⟩]⟩

/-! ## The window -/

/-- An ECharts instance that has not been disposed of, its element, and the option set last. -/
structure ChartInstance where
  chart : ℕ
  element : ℕ
  option : Option ChartOption
  deriving DecidableEq, Repr

/-- The instances on the page, and the listeners for `resize`, each with the chart it resizes. -/
structure Window where
  charts : List ChartInstance
  listeners : List (ℕ × ℕ)
  deriving DecidableEq, Repr

/-- The calls of the component to ECharts and to the window. -/
inductive ChartCall where
  | init (chart element : ℕ)
  | setOption (chart : ℕ) (option : ChartOption)
  | resize (chart : ℕ)
  | dispose (chart : ℕ)
  | addListener (listener chart : ℕ)
  | removeListener (listener : ℕ)
  deriving DecidableEq, Repr

namespace Window

/-- The window of a new document. -/
def blank : Window := ⟨[], []⟩

/-- What a call does. With `notMerge`, the new option replaces the old one. -/
def step (w : Window) : ChartCall → Unit × Window
  | .init chart element => ((), { w with charts := w.charts ++ [⟨chart, element, none⟩] })
  | .setOption chart option =>
    ((), { w with
      charts := w.charts.map fun x =>
        if x.chart = chart then { x with option := some option } else x })
  | .resize _ => ((), w)
  | .dispose chart => ((), { w with charts := w.charts.filter fun x => x.chart ≠ chart })
  | .addListener listener chart =>
    ((), { w with listeners := w.listeners ++ [(listener, chart)] })
  | .removeListener listener =>
    ((), { w with listeners := w.listeners.filter fun x => x.1 ≠ listener })

/-- ECharts and the window serve the call: one instance on an element, none that was disposed of, a
listener that is there. -/
def Permits (w : Window) : ChartCall → Prop
  | .init chart element => ∀ x ∈ w.charts, x.chart ≠ chart ∧ x.element ≠ element
  | .setOption chart _ | .resize chart | .dispose chart => ∃ x ∈ w.charts, x.chart = chart
  | .addListener listener chart =>
    (∀ x ∈ w.listeners, x.1 ≠ listener) ∧ ∃ x ∈ w.charts, x.chart = chart
  | .removeListener listener => ∃ x ∈ w.listeners, x.1 = listener

/-- The window after some calls. -/
def after (w : Window) (calls : List ChartCall) : Window := Machine.finalState step w calls

/-- Every call is served when it is made. -/
def Serves (w : Window) (calls : List ChartCall) : Prop := Machine.EveryStep step Permits w calls

/-- Charts stay on the page when the listeners resize them. -/
theorem after_resize (w : Window) (listeners : List (ℕ × ℕ)) :
    w.after (listeners.map fun x => .resize x.2) = w := by
  induction listeners with
  | nil => rfl
  | cons x listeners ih => exact ih

end Window

/-! ## The component -/

/-- A mounted `TimeSeriesChart`: its element, the state `echartsLib`, the ref `chartInstance`, the
dependencies of the drawing effect when it last ran, other than the data, and the listener that the
clean-up of that run removes. -/
structure ChartComponent where
  element : ℕ
  echartsLib : Bool
  chartInstance : Option ℕ
  deps : Bool × Theme
  cleanup : Option ℕ
  deriving DecidableEq, Repr

namespace ChartComponent

/-- A component right after it was mounted: the library is being imported, so that the drawing
effect has returned at once. -/
def mount (element : ℕ) (theme : Theme) : ChartComponent :=
  ⟨element, false, none, (false, theme), none⟩

/-- The import of the component on `element` is fulfilled: `setEchartsLib`. -/
def imported (element : ℕ) (c : ChartComponent) : ChartComponent :=
  if c.element = element then { c with echartsLib := true } else c

/-- The clean-up of the drawing effect. -/
def cleanupCalls (c : ChartComponent) : List ChartCall :=
  c.cleanup.toList.map .removeListener

/-- The drawing effect, with numbers from `ids` on for what it creates. -/
def draw (ids : ℕ) (theme : Theme) (option : ChartOption) (c : ChartComponent) :
    List ChartCall × ℕ × ChartComponent :=
  let deps := (c.echartsLib, theme)
  if c.echartsLib then
    match c.chartInstance with
    | none =>
      ([.init ids c.element, .setOption ids option, .addListener (ids + 1) ids], ids + 2,
        { c with chartInstance := some ids, deps, cleanup := some (ids + 1) })
    | some chart =>
      ([.setOption chart option, .addListener ids chart], ids + 1,
        { c with deps, cleanup := some ids })
  else ([], ids, { c with deps, cleanup := none })

/-- The clean-ups when the component is unmounted. -/
def unmountCalls (c : ChartComponent) : List ChartCall :=
  c.cleanupCalls ++ c.chartInstance.toList.map .dispose

/-! ## What the component owns -/

/-- What a component owns on the page, and the option of its chart: nothing before the first
drawing, and then one chart on its element with one listener. -/
inductive Owns (ids : ℕ) : ChartComponent → Window → Option ChartOption → Prop
  | nothing {c : ChartComponent} (hinstance : c.chartInstance = none) (hcleanup : c.cleanup = none)
    (hdeps : c.deps.1 = false) : Owns ids c .blank none
  | chart {c : ChartComponent} {chart listener : ℕ} (option : ChartOption)
    (hinstance : c.chartInstance = some chart) (hcleanup : c.cleanup = some listener)
    (hlib : c.echartsLib = true) (hdeps : c.deps.1 = true) (hlistener : listener < ids) :
    Owns ids c ⟨[⟨chart, c.element, some option⟩], [(listener, chart)]⟩ (some option)

variable {ids : ℕ} {c : ChartComponent} {w : Window} {drawn : Option ChartOption}

@[simp] theorem deps_draw (theme : Theme) (option : ChartOption) :
    (c.draw ids theme option).2.2.deps = (c.echartsLib, theme) := by
  unfold draw
  split_ifs
  · cases c.chartInstance <;> rfl
  · rfl

@[simp] theorem echartsLib_draw (theme : Theme) (option : ChartOption) :
    (c.draw ids theme option).2.2.echartsLib = c.echartsLib := by
  unfold draw
  split_ifs
  · cases c.chartInstance <;> rfl
  · rfl

/-- Without the library the effect does nothing. -/
theorem draw_of_waiting (hlib : c.echartsLib = false) (theme : Theme) (option : ChartOption) :
    c.draw ids theme option = ([], ids, { c with deps := (false, theme), cleanup := none }) := by
  simp [draw, hlib]

/-- The first drawing. -/
theorem draw_of_new (hlib : c.echartsLib = true) (hinstance : c.chartInstance = none)
    (theme : Theme) (option : ChartOption) :
    c.draw ids theme option =
      ([.init ids c.element, .setOption ids option, .addListener (ids + 1) ids], ids + 2,
        { c with
          chartInstance := some ids, deps := (true, theme), cleanup := some (ids + 1) }) := by
  simp [draw, hlib, hinstance]

/-- A later drawing. -/
theorem draw_of_drawn {chart : ℕ} (hlib : c.echartsLib = true)
    (hinstance : c.chartInstance = some chart) (theme : Theme) (option : ChartOption) :
    c.draw ids theme option =
      ([.setOption chart option, .addListener ids chart], ids + 1,
        { c with deps := (true, theme), cleanup := some ids }) := by
  simp [draw, hlib, hinstance]

/-- **Drawing.** When the drawing effect runs again, its calls are served, and the component owns
one chart with the new option, if the library is there. -/
theorem Owns.draw (h : c.Owns ids w drawn) (theme : Theme) (option : ChartOption) :
    let r := c.draw ids theme option
    w.Serves (c.cleanupCalls ++ r.1) ∧
      r.2.2.Owns r.2.1 (w.after (c.cleanupCalls ++ r.1))
        (if c.echartsLib then some option else none) := by
  cases h with
  | nothing hinstance hcleanup hdeps =>
    rw [cleanupCalls, hcleanup]
    cases hlib : c.echartsLib with
    | false =>
      rw [draw_of_waiting hlib]
      exact ⟨trivial, .nothing hinstance rfl rfl⟩
    | true =>
      rw [draw_of_new hlib hinstance]
      have hafter : Window.blank.after [.init ids c.element, .setOption ids option,
          .addListener (ids + 1) ids] = ⟨[⟨ids, c.element, some option⟩], [(ids + 1, ids)]⟩ := by
        simp [Window.after, Window.step, Window.blank]
      constructor
      · simp [Window.Serves, Machine.EveryStep, Window.Permits, Window.step, Window.blank]
      · show Owns _ _ (Window.blank.after [_, _, _]) _
        rw [hafter]
        exact .chart option rfl rfl hlib rfl (Nat.lt_succ_self _)
  | @chart chart listener old hinstance hcleanup hlib hdeps hlistener =>
    rw [cleanupCalls, hcleanup, draw_of_drawn hlib hinstance, if_pos hlib]
    have hafter : Window.after ⟨[⟨chart, c.element, some old⟩], [(listener, chart)]⟩
        [.removeListener listener, .setOption chart option, .addListener ids chart] =
          ⟨[⟨chart, c.element, some option⟩], [(ids, chart)]⟩ := by
      simp [Window.after, Window.step]
    constructor
    · simp [Window.Serves, Machine.EveryStep, Window.Permits, Window.step]
    · show Owns _ _ (Window.after _ [_, _, _]) _
      rw [hafter]
      exact .chart option hinstance rfl hlib rfl (Nat.lt_succ_self _)

/-- **Unmounting.** The clean-ups leave nothing on the page. -/
theorem Owns.unmount (h : c.Owns ids w drawn) :
    w.Serves c.unmountCalls ∧ w.after c.unmountCalls = .blank := by
  cases h with
  | nothing hinstance hcleanup hdeps =>
    rw [unmountCalls, cleanupCalls, hinstance, hcleanup]
    exact ⟨trivial, rfl⟩
  | @chart chart listener old hinstance hcleanup hlib hdeps hlistener =>
    rw [unmountCalls, cleanupCalls, hinstance, hcleanup]
    simp [Window.Serves, Machine.EveryStep, Window.Permits, Window.step, Window.after, Window.blank]

@[simp] theorem deps_imported (element : ℕ) (c : ChartComponent) :
    (c.imported element).deps = c.deps := by
  unfold imported
  split_ifs <;> rfl

/-- The import of the library, for this component or another, draws nothing. -/
theorem Owns.imported (h : c.Owns ids w drawn) (element : ℕ) :
    (c.imported element).Owns ids w drawn := by
  unfold ChartComponent.imported
  split_ifs
  · cases h with
    | nothing hinstance hcleanup hdeps => exact .nothing hinstance hcleanup hdeps
    | chart option hinstance hcleanup hlib hdeps hlistener =>
      exact .chart option hinstance hcleanup rfl hdeps hlistener
  · exact h

/-- A component that owns nothing has not drawn, and its library was not there when it last ran. -/
theorem Owns.drawn_isSome (h : c.Owns ids w drawn) : drawn.isSome = c.deps.1 := by
  cases h with
  | nothing hinstance hcleanup hdeps => rw [hdeps]; rfl
  | chart option hinstance hcleanup hlib hdeps hlistener => rw [hdeps]; rfl

/-- The charts on the page: what was drawn, on the element of the component, each with one
listener. -/
theorem Owns.window (h : c.Owns ids w drawn) :
    w.charts.map (·.option) = drawn.toList.map some ∧ (∀ x ∈ w.charts, c.element = x.element) ∧
      w.listeners.map Prod.snd = w.charts.map (·.chart) := by
  cases h with
  | nothing => exact ⟨rfl, fun x hx => absurd hx List.not_mem_nil, rfl⟩
  | chart => exact ⟨rfl, fun x hx => by rw [List.mem_singleton.mp hx], rfl⟩

/-- A `resize` event makes calls that are served, and change nothing. -/
theorem Owns.resize (h : c.Owns ids w drawn) :
    w.Serves (w.listeners.map fun x => .resize x.2) := by
  cases h <;> simp [Window.Serves, Machine.EveryStep, Window.Permits, Window.blank]

end ChartComponent

end WindSight
