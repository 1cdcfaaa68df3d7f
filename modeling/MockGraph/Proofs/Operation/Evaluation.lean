import MockGraph.Operation.Lowering
set_option autoImplicit false

namespace MockGraph

namespace Syntax

namespace Literal

mutual

/-- What a literal means as JSON. A variable means what it is bound to, and nothing if it is not.
Whole numbers of 64 bits stay whole, and all other numbers are read as doubles. -/
inductive Means (bindings : Ordered String Json) : Literal → Json → Prop
  | null : Means bindings .null .null
  | bool {value} : Means bindings (.bool value) (.bool value)
  | whole {text} : -Int.pow 2 63 ≤ intValue text → intValue text < Int.pow 2 63 →
      Means bindings (.int text) (.ofInt (intValue text))
  | wide {text} : ¬ (-Int.pow 2 63 ≤ intValue text ∧ intValue text < Int.pow 2 63) →
      Means bindings (.int text) (doubleValue text)
  | float {text} : Means bindings (.float text) (doubleValue text)
  | string {value} : Means bindings (.string value) (.string value)
  | enum {name} : Means bindings (.enum name) (.string name)
  | variable {name value} : Ordered.get? bindings name = some value →
      Means bindings (.variable name) value
  | list {items values} : ItemsMean bindings items values →
      Means bindings (.list items) (.array values)
  | object {fields members} : FieldsMean bindings fields members →
      Means bindings (.object fields) (.object (Ordered.ofList members))

/-- Inside a list or an object, a variable that is not bound means `null`. -/
inductive MeansInside (bindings : Ordered String Json) : Literal → Json → Prop
  | bound {literal value} : Means bindings literal value → MeansInside bindings literal value
  | unbound {name} : Ordered.get? bindings name = none → MeansInside bindings (.variable name) .null

inductive ItemsMean (bindings : Ordered String Json) : List Literal → List Json → Prop
  | nil : ItemsMean bindings [] []
  | cons {item value items values} : MeansInside bindings item value →
      ItemsMean bindings items values → ItemsMean bindings (item :: items) (value :: values)

inductive FieldsMean (bindings : Ordered String Json) :
    List (String × Literal) → List (String × Json) → Prop
  | nil : FieldsMean bindings [] []
  | cons {name literal value fields members} : MeansInside bindings literal value →
      FieldsMean bindings fields members →
      FieldsMean bindings ((name, literal) :: fields) ((name, value) :: members)

end

variable {bindings : Ordered String Json}

theorem fieldValues_eq_foldl (fields : List (String × Literal)) (read : Ordered String Json) :
    fieldValues bindings fields read =
      (fields.map fun field => (field.1, field.2.valueOrNull bindings)).foldl
        (fun entries pair => entries.insert pair.1 pair.2) read := by
  induction fields generalizing read with
  | nil => rw [fieldValues, List.map_nil, List.foldl_nil]
  | cons field fields ih => rw [fieldValues, ih, List.map_cons, List.foldl_cons]

theorem valueOrNull_object (fields : List (String × Literal)) :
    (object fields).valueOrNull bindings =
      .object (Ordered.ofList
        (fields.map fun field => (field.1, field.2.valueOrNull bindings))) := by
  rw [valueOrNull, fieldValues_eq_foldl]
  rfl

theorem numberValue_of_whole {text : String} (low : -Int.pow 2 63 ≤ intValue text)
    (high : intValue text < Int.pow 2 63) : numberValue text = .ofInt (intValue text) :=
  if_pos ⟨low, high⟩

theorem numberValue_of_wide {text : String}
    (wide : ¬ (-Int.pow 2 63 ≤ intValue text ∧ intValue text < Int.pow 2 63)) :
    numberValue text = doubleValue text :=
  if_neg wide

theorem means_int (text : String) : Means bindings (.int text) (numberValue text) := by
  by_cases fits : -Int.pow 2 63 ≤ intValue text ∧ intValue text < Int.pow 2 63
  · rw [numberValue_of_whole fits.1 fits.2]
    exact .whole fits.1 fits.2
  · rw [numberValue_of_wide fits]
    exact .wide fits

mutual

theorem meansInside_valueOrNull : ∀ literal : Literal,
    MeansInside bindings literal (literal.valueOrNull bindings)
  | null => by
    rw [valueOrNull]
    exact .bound .null
  | bool value => by
    rw [valueOrNull]
    exact .bound .bool
  | int text => by
    rw [valueOrNull]
    exact .bound (means_int text)
  | float text => by
    rw [valueOrNull]
    exact .bound .float
  | string value => by
    rw [valueOrNull]
    exact .bound .string
  | enum name => by
    rw [valueOrNull]
    exact .bound .enum
  | .variable name => by
    rw [valueOrNull]
    cases found : Ordered.get? bindings name with
    | none => exact .unbound found
    | some value => exact .bound (.variable found)
  | list items => by
    rw [valueOrNull]
    exact .bound (.list (itemsMean_itemValues items))
  | object fields => by
    rw [valueOrNull_object]
    exact .bound (.object (fieldsMean_map fields))

theorem itemsMean_itemValues : ∀ items : List Literal,
    ItemsMean bindings items (itemValues bindings items)
  | [] => by
    rw [itemValues]
    exact .nil
  | item :: items => by
    rw [itemValues]
    exact .cons (meansInside_valueOrNull item) (itemsMean_itemValues items)

theorem fieldsMean_map : ∀ fields : List (String × Literal),
    FieldsMean bindings fields (fields.map fun field => (field.1, field.2.valueOrNull bindings))
  | [] => .nil
  | (_, literal) :: fields => .cons (meansInside_valueOrNull literal) (fieldsMean_map fields)

end

mutual

theorem Means.eq_valueOrNull : ∀ {literal : Literal} {value : Json},
    Means bindings literal value → value = literal.valueOrNull bindings
  | _, _, .null | _, _, .bool | _, _, .float | _, _, .string | _, _, .enum => by rw [valueOrNull]
  | _, _, .whole low high => by rw [valueOrNull, numberValue_of_whole low high]
  | _, _, .wide wide => by rw [valueOrNull, numberValue_of_wide wide]
  | _, _, .variable bound => by rw [valueOrNull, bound, Option.getD_some]
  | _, _, .list means => by rw [valueOrNull, means.eq_itemValues]
  | _, _, .object means => by rw [valueOrNull_object, means.eq_map]

theorem MeansInside.eq_valueOrNull : ∀ {literal : Literal} {value : Json},
    MeansInside bindings literal value → value = literal.valueOrNull bindings
  | _, _, .bound means => means.eq_valueOrNull
  | _, _, .unbound absent => by rw [valueOrNull, absent, Option.getD_none]

theorem ItemsMean.eq_itemValues : ∀ {items : List Literal} {values : List Json},
    ItemsMean bindings items values → values = itemValues bindings items
  | _, _, .nil => by rw [itemValues]
  | _, _, .cons first rest => by rw [itemValues, first.eq_valueOrNull, rest.eq_itemValues]

theorem FieldsMean.eq_map : ∀ {fields : List (String × Literal)} {members : List (String × Json)},
    FieldsMean bindings fields members →
      members = fields.map fun field => (field.1, field.2.valueOrNull bindings)
  | _, _, .nil => rfl
  | _, _, .cons first rest => by rw [List.map_cons, ← first.eq_valueOrNull, ← rest.eq_map]

end

theorem MeansInside.means {literal : Literal} {value : Json}
    (inside : MeansInside bindings literal value) (other : ∀ name, literal ≠ .variable name) :
    Means bindings literal value := by
  cases inside with
  | bound means => exact means
  | unbound => exact absurd rfl (other _)

/-- A literal has the value that it means, and none if it means nothing. -/
theorem means_iff {literal : Literal} {value : Json} :
    Means bindings literal value ↔ literal.value? bindings = some value := by
  cases literal with
  | «variable» name =>
    refine ⟨fun means => ?_, .variable⟩
    cases means with
    | «variable» bound => exact bound
  | _ =>
    refine ⟨fun means => congrArg some means.eq_valueOrNull.symm, fun read => ?_⟩
    rw [← Option.some.inj read]
    exact (meansInside_valueOrNull _).means nofun

theorem Means.unique {literal : Literal} {one other : Json} (means : Means bindings literal one)
    (again : Means bindings literal other) : one = other :=
  means.eq_valueOrNull.trans again.eq_valueOrNull.symm

theorem value?_eq_none_iff {literal : Literal} : literal.value? bindings = none ↔
    ∃ name, literal = .variable name ∧ Ordered.get? bindings name = none := by
  cases literal with
  | «variable» name =>
    exact ⟨fun absent => ⟨name, rfl, absent⟩, fun ⟨_, same, absent⟩ => by cases same; exact absent⟩
  | _ => exact ⟨nofun, fun ⟨_, same, _⟩ => by cases same⟩

end Literal

/-- The first directive of a name says that its condition is `holds`. Documents cannot give it
twice, unless the schema declares it repeatable. -/
def Says (bindings : Ordered String Json) (directives : List Directive) (name : String)
    (holds : Bool) : Prop :=
  ∃ directive condition, directives.find? (·.name = name) = some directive ∧
    directive.arguments.lookup "if" = some condition ∧ condition.Means bindings (.bool holds)

/-- What drops a selection: `@skip` whose condition is true, or `@include` whose condition is
false. -/
def Drops (bindings : Ordered String Json) (directives : List Directive) : Prop :=
  Says bindings directives "skip" true ∨ Says bindings directives "include" false

/-- What the arguments of a document mean, without those that mean nothing. -/
inductive Gives (bindings : Ordered String Json) :
    List (String × Literal) → List (String × Json) → Prop
  | nil : Gives bindings [] []
  | value {name literal value arguments given} : literal.Means bindings value →
      Gives bindings arguments given →
      Gives bindings ((name, literal) :: arguments) ((name, value) :: given)
  | unbound {name other arguments given} : Ordered.get? bindings other = none →
      Gives bindings arguments given →
      Gives bindings ((name, .variable other) :: arguments) given

/-- The default of every argument that is not given follows those that are, in the order of the
schema. -/
inductive Completes : Ordered String InputDef → Ordered String Json → Ordered String Json → Prop
  | nil {values} : Completes [] values values
  | given {name input inputs given values} : name ∈ given.keys → Completes inputs given values →
      Completes ((name, input) :: inputs) given values
  | plain {name input inputs given values} : input.default = none → Completes inputs given values →
      Completes ((name, input) :: inputs) given values
  | defaulted {name input default inputs given values} : name ∉ given.keys →
      input.default = some default → Completes inputs (given ++ [(name, default)]) values →
      Completes ((name, input) :: inputs) given values

end Syntax

section

open Syntax

variable {bindings : Ordered String Json} {directives : List Directive}

theorem says_iff {name : String} {holds : Bool} :
    Says bindings directives name holds ↔ conditionOf? bindings directives name = some holds := by
  have bool (value : Json) : value.asBool? = some holds ↔ value = .bool holds := by
    cases value <;> simp [Json.asBool?]
  simp only [Says, conditionOf?, Option.bind_eq_bind, Option.bind_eq_some_iff, bool,
    Literal.means_iff]
  constructor
  · rintro ⟨directive, condition, found, given, means⟩
    exact ⟨directive, found, condition, given, _, means, rfl⟩
  · rintro ⟨directive, found, condition, given, _, means, rfl⟩
    exact ⟨directive, condition, found, given, means⟩

theorem included_eq_false_iff :
    included bindings directives = false ↔ Drops bindings directives := by
  rw [Drops, says_iff, says_iff, included, Bool.and_eq_false_iff, bne_eq_false_iff_eq,
    bne_eq_false_iff_eq]

theorem included_eq_true_iff :
    included bindings directives = true ↔ ¬ Drops bindings directives := by
  rw [← included_eq_false_iff, Bool.not_eq_false]

theorem not_drops_nil : ¬ Drops bindings [] := included_eq_true_iff.mp rfl

instance : Decidable (Drops bindings directives) := decidable_of_iff _ included_eq_false_iff

theorem gives_iff {arguments : List (String × Literal)} {given : List (String × Json)} :
    Gives bindings arguments given ↔
      given =
        arguments.filterMap fun argument => (argument.2.value? bindings).map (argument.1, ·) := by
  constructor
  · intro gives
    induction gives with
    | nil => rfl
    | value means _ ih =>
      rw [List.filterMap_cons_some (by rw [Literal.means_iff.mp means, Option.map_some]), ih]
    | unbound absent _ ih =>
      rw [List.filterMap_cons_none (by rw [Literal.value?, absent, Option.map_none]), ih]
  · rintro rfl
    induction arguments with
    | nil => exact .nil
    | cons argument arguments ih =>
      obtain ⟨name, literal⟩ := argument
      cases read : literal.value? bindings with
      | none =>
        obtain ⟨other, rfl, absent⟩ := Literal.value?_eq_none_iff.mp read
        rw [List.filterMap_cons_none (by rw [read, Option.map_none])]
        exact .unbound absent ih
      | some value =>
        rw [List.filterMap_cons_some (by rw [read, Option.map_some])]
        exact .value (Literal.means_iff.mpr read) ih

theorem givenArguments_eq_ofList (arguments : List (String × Literal)) :
    givenArguments bindings arguments =
      Ordered.ofList
        (arguments.filterMap fun argument => (argument.2.value? bindings).map (argument.1, ·)) := by
  rw [Ordered.ofList, List.foldl_filterMap, givenArguments]
  congr 1
  funext given argument
  cases argument.2.value? bindings <;> rfl

theorem withDefaults_cons (key : String) (input : InputDef) (rest : Ordered String InputDef)
    (given : Ordered String Json) : withDefaults ((key, input) :: rest) given =
      withDefaults rest (if Ordered.contains given key then given
        else (input.default.map (Ordered.insert given key)).getD given) := by
  cases defaulted : input.default <;> simp [withDefaults, defaulted]

theorem completes_iff {inputs : Ordered String InputDef} {given values : Ordered String Json} :
    Completes inputs given values ↔ values = withDefaults inputs given := by
  constructor
  · intro completes
    induction completes with
    | nil => rfl
    | given present _ ih =>
      rw [withDefaults_cons, if_pos (Ordered.contains_iff_mem_keys.mpr present), ih]
    | plain default _ ih =>
      rw [withDefaults_cons, default, Option.map_none, Option.getD_none, ite_self, ih]
    | defaulted absent default _ ih =>
      rw [withDefaults_cons, if_neg (mt Ordered.contains_iff_mem_keys.mp absent), default,
        Option.map_some, Option.getD_some, Ordered.insert_of_notMem _ _ _ absent, ih]
  · rintro rfl
    induction inputs generalizing given with
    | nil => exact .nil
    | cons entry rest ih =>
      obtain ⟨key, input⟩ := entry
      rw [withDefaults_cons]
      by_cases present : key ∈ given.keys
      · rw [if_pos (Ordered.contains_iff_mem_keys.mpr present)]
        exact .given present ih
      · rw [if_neg (mt Ordered.contains_iff_mem_keys.mp present)]
        cases default : input.default with
        | none => exact .plain default ih
        | some value =>
          rw [Option.map_some, Option.getD_some, Ordered.insert_of_notMem _ _ _ present]
          exact .defaulted present default ih

end

end MockGraph
