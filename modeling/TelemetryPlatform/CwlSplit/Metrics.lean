import TelemetryPlatform.CwlSplit.Rows
import TelemetryPlatform.Library.Dict

/-!
# The metrics an EMF event declares

`declaredMetrics` lists the usable declarations of an event, those of an object
with a non-empty string name, through both levels of nesting. The source collects
them with `setdefault`, so that its dictionary has one entry per name, in the
order of the first declarations and with the first declaration of each name
(`metricByName_eq_ok`). Collecting them raises when a `Metrics` member is neither
false nor something that can be iterated over.
-/

namespace CwlSplit

open Python

variable {rt : Runtime}

section Declarations

/-- `for item in value or []` runs. -/
def Listable (rt : Runtime) : rt.Value → Prop
  | .str _ | .arr _ | .obj _ => True
  | value => rt.truth value = false

/-- The metrics of an entry of `CloudWatchMetrics` can be run through. -/
def ReadableMetrics (rt : Runtime) : rt.Value → Prop
  | .obj entries => Listable rt ((dictGet? entries (str "Metrics")).getD .null)
  | _ => True

/-- The usable declarations in an entry of `CloudWatchMetrics`. -/
def usableMetrics (rt : Runtime) : rt.Value → List (Str × List (Str × rt.Value))
  | .obj entries =>
      match dictGet? entries (str "Metrics") with
      | some (.arr items) => items.filterMap (metricName? rt)
      | _ => []
  | _ => []

def declaredMetrics (rt : Runtime) (declarations : List rt.Value) :
    List (Str × List (Str × rt.Value)) :=
  declarations.flatMap (usableMetrics rt)

theorem metricName?_eq_some {item : rt.Value} {metric : Str × List (Str × rt.Value)} :
    metricName? rt item = some metric ↔
      item = .obj metric.2 ∧ dictGet? metric.2 (str "Name") = some (.str metric.1) ∧
        metric.1 ≠ [] := by
  rcases metric with ⟨name, entries⟩
  constructor
  · intro named
    simp only [metricName?] at named
    split at named
    · next found =>
        split at named
        · next c rest nameFound =>
            cases named
            exact ⟨rfl, nameFound, by simp⟩
        · cases named
    · cases named
  · rintro ⟨rfl, found, nonempty⟩
    rcases List.exists_cons_of_ne_nil nonempty with ⟨c, rest, rfl⟩
    simp [metricName?, found]

/-- A `Metrics` member that is not a list declares nothing, or cannot be run through. -/
theorem itemsOrEmpty_cases (value : rt.Value) :
    (∃ listed, itemsOrEmpty rt value = .ok listed ∧ Listable rt value ∧
        listed.filterMap (metricName? rt) =
          match value with
          | .arr items => items.filterMap (metricName? rt)
          | _ => []) ∨
      itemsOrEmpty rt value = .error .typeError ∧ ¬Listable rt value := by
  have strings (texts : List Str) :
      (texts.map (Json.str : Str → rt.Value)).filterMap (metricName? rt) = [] := by
    induction texts with
    | nil => rfl
    | cons text texts ih => simp [metricName?]
  by_cases isTrue : rt.truth value = true
  · cases value with
    | arr items =>
        left
        exact ⟨items, by rw [itemsOrEmpty, if_pos isTrue]; rfl, trivial, rfl⟩
    | obj entries =>
        left
        refine ⟨entries.map fun entry => .str entry.1, by rw [itemsOrEmpty, if_pos isTrue]; rfl,
          trivial, ?_⟩
        simpa [List.map_map, Function.comp_def] using strings (entries.map Prod.fst)
    | str text =>
        left
        refine ⟨text.map fun c => .str [c], by rw [itemsOrEmpty, if_pos isTrue]; rfl,
          trivial, ?_⟩
        simpa [List.map_map, Function.comp_def] using strings (text.map fun c => [c])
    | null => cases isTrue
    | bool value =>
        right
        exact ⟨by rw [itemsOrEmpty, if_pos isTrue]; rfl, by simpa [Listable] using isTrue⟩
    | int value =>
        right
        exact ⟨by rw [itemsOrEmpty, if_pos isTrue]; rfl, by simpa [Listable] using isTrue⟩
    | float value =>
        right
        exact ⟨by rw [itemsOrEmpty, if_pos isTrue]; rfl, by simpa [Listable] using isTrue⟩
  · left
    refine ⟨[], by rw [itemsOrEmpty, if_neg isTrue], ?_, ?_⟩
    · cases value with
      | null => rfl
      | bool value => simpa [Listable] using isTrue
      | int value => simpa [Listable] using isTrue
      | float value => simpa [Listable] using isTrue
      | str text => trivial
      | arr items => trivial
      | obj entries => trivial
    · cases value with
      | arr items =>
          have empty : items = [] := by simpa [Runtime.truth] using isTrue
          simp [empty]
      | null => rfl
      | bool value => rfl
      | int value => rfl
      | float value => rfl
      | str text => rfl
      | obj entries => rfl

theorem addMetrics_of_readable {declaration : rt.Value} (readable : ReadableMetrics rt declaration)
    (metrics : List (Str × List (Str × rt.Value))) :
    addMetrics rt metrics declaration = .ok ((usableMetrics rt declaration).foldl
      (fun metrics metric => dictSetDefault metrics metric.1 metric.2) metrics) := by
  cases declaration with
  | obj entries =>
      simp only [addMetrics, usableMetrics]
      rcases itemsOrEmpty_cases ((dictGet? entries (str "Metrics")).getD .null) with
        ⟨listed, items_eq, _, usable⟩ | ⟨_, notListable⟩
      · rw [items_eq, ok_bind, usable]
        cases dictGet? entries (str "Metrics") with
        | none => rfl
        | some value => cases value <;> rfl
      · exact absurd readable notListable
  | null => rfl
  | bool value => rfl
  | int value => rfl
  | float value => rfl
  | str text => rfl
  | arr items => rfl

theorem addMetrics_of_not_readable {declaration : rt.Value}
    (notReadable : ¬ReadableMetrics rt declaration)
    (metrics : List (Str × List (Str × rt.Value))) :
    addMetrics rt metrics declaration = .error .typeError := by
  cases declaration with
  | obj entries =>
      rcases itemsOrEmpty_cases ((dictGet? entries (str "Metrics")).getD .null) with
        ⟨_, _, listable, _⟩ | ⟨raised, _⟩
      · exact absurd listable notReadable
      · simp only [addMetrics, raised]
        rfl
  | null => exact absurd trivial notReadable
  | bool value => exact absurd trivial notReadable
  | int value => exact absurd trivial notReadable
  | float value => exact absurd trivial notReadable
  | str text => exact absurd trivial notReadable
  | arr items => exact absurd trivial notReadable

theorem foldlM_addMetrics_eq_ok {declarations : List rt.Value}
    {metrics found : List (Str × List (Str × rt.Value))} :
    declarations.foldlM (addMetrics rt) metrics = .ok found ↔
      (∀ declaration ∈ declarations, ReadableMetrics rt declaration) ∧
        found = (declaredMetrics rt declarations).foldl
          (fun metrics metric => dictSetDefault metrics metric.1 metric.2) metrics := by
  induction declarations generalizing metrics with
  | nil => simp [declaredMetrics, pure, Except.pure, eq_comm]
  | cons declaration declarations ih =>
      rw [List.foldlM_cons]
      by_cases readable : ReadableMetrics rt declaration
      · rw [addMetrics_of_readable readable, ok_bind, ih]
        simp [declaredMetrics, readable]
      · rw [addMetrics_of_not_readable readable, error_bind]
        simp [readable]

/-- The metrics of an event are the first declarations of their names. -/
theorem metricByName_eq_ok {declarations : List rt.Value}
    {metrics : List (Str × List (Str × rt.Value))} :
    metricByName rt declarations = .ok metrics ↔
      (∀ declaration ∈ declarations, ReadableMetrics rt declaration) ∧
        metrics = dictDefaults (declaredMetrics rt declarations) := by
  simp only [metricByName, foldlM_addMetrics_eq_ok, dictDefaults]

/-- Metrics that cannot be run through raise a `TypeError`. -/
theorem metricByName_of_not_readable {declarations : List rt.Value}
    (notReadable : ¬∀ declaration ∈ declarations, ReadableMetrics rt declaration) :
    metricByName rt declarations = .error .typeError := by
  rw [metricByName]
  generalize ([] : List (Str × List (Str × rt.Value))) = metrics
  induction declarations generalizing metrics with
  | nil => simp at notReadable
  | cons declaration declarations ih =>
      rw [List.foldlM_cons]
      by_cases readable : ReadableMetrics rt declaration
      · rw [addMetrics_of_readable readable, ok_bind]
        apply ih
        intro rest
        apply notReadable
        simpa [readable] using rest
      · rw [addMetrics_of_not_readable readable, error_bind]

end Declarations

section Event

/-- The entries of `_aws.CloudWatchMetrics` of an EMF event. -/
def declarationsOf (rt : Runtime) (obj : List (Str × rt.Value)) : List rt.Value :=
  match dictGet? (awsBlock rt obj) (str "CloudWatchMetrics") with
  | some (.arr declarations) => declarations
  | _ => []

/-- The metrics of an EMF event, by the first declaration of each name. -/
def metricsOf (rt : Runtime) (obj : List (Str × rt.Value)) : List (Str × List (Str × rt.Value)) :=
  dictDefaults (declaredMetrics rt (declarationsOf rt obj))

/-- Every list of metrics in the event can be run through. -/
def MetricsReadable (rt : Runtime) (obj : List (Str × rt.Value)) : Prop :=
  ∀ declaration ∈ declarationsOf rt obj, ReadableMetrics rt declaration

theorem itemsOrEmpty_declarationsOf {obj : List (Str × rt.Value)} (emf : isEmf rt obj = true) :
    itemsOrEmpty rt ((dictGet? (awsBlock rt obj) (str "CloudWatchMetrics")).getD .null) =
      .ok (declarationsOf rt obj) := by
  rcases declarations_of_isEmf emf with ⟨declarations, listed⟩
  simp only [declarationsOf, listed, Option.getD_some, itemsOrEmpty_arr]

end Event

end CwlSplit
