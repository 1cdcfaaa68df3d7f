import MockGraph.Proofs.Mock.Checks
import MockGraph.Proofs.SkiDay.Announcements
set_option autoImplicit false

namespace MockGraph

namespace TypeSystem

/-- Each scalar has a formatter of its own. -/
def Formatted (schema : TypeSystem) : Prop :=
  ∀ entry ∈ schema.types, ∀ name description, entry.2 = .scalar name description →
    name ∈ MockRules.standardFormatters.keys

theorem resolve_eq_error {schema : TypeSystem} {name : String}
    (absent : ∀ type, schema.resolve name ≠ .ok type) :
    schema.resolve name = .error (.unknownType name) := by
  unfold resolve at absent ⊢
  split
  · rename_i type found
    rw [found] at absent
    exact absurd rfl (absent type)
  · rfl

end TypeSystem

namespace SkiDay

/-- What the mock rules of ski days need in a schema: a list of days to size, and dates. -/
structure Suits (schema : TypeSystem) : Prop where
  days : ∃ definition, schema.field "Query" "allDays" = .ok definition ∧
      definition.type.isList = true
  dates : ∃ type, schema.resolve "Date" = .ok type

/-- The mock rule of ski days that does not fit a schema, and why. -/
inductive Unsuited (schema : TypeSystem) : (target reason : String) → Prop
  | noQuery : (∀ type, schema.resolve "Query" ≠ .ok type) →
      Unsuited schema "Query.allDays" "unknown type: Query"
  | noObject {type : TypeDef} : schema.resolve "Query" = .ok type →
      (∀ name description fields, type ≠ .object name description fields) →
      Unsuited schema "Query.allDays" "type Query is not an object type"
  | noDays {name : String} {description : Option String} {fields : Ordered String FieldDef} :
      schema.resolve "Query" = .ok (.object name description fields) → "allDays" ∉ fields.keys →
      Unsuited schema "Query.allDays" "unknown field allDays on type Query"
  | noList {definition : FieldDef} : schema.field "Query" "allDays" = .ok definition →
      definition.type.isList = false →
      Unsuited schema "Query.allDays" ("list size given for non-list type " ++ definition.type.text)
  | noDates {definition : FieldDef} : schema.field "Query" "allDays" = .ok definition →
      definition.type.isList = true → (∀ type, schema.resolve "Date" ≠ .ok type) →
      Unsuited schema "Date" "unknown type: Date"

variable {schema : TypeSystem}

theorem Suits.not_unsuited (suits : Suits schema) {target reason : String} :
    ¬Unsuited schema target reason := by
  obtain ⟨definition, known, list⟩ := suits.days
  obtain ⟨name, description, fields, query, days⟩ := TypeSystem.object_of_field known
  rintro (absent | @⟨type, found, other⟩ | ⟨found, absent⟩ | ⟨known', single⟩ | ⟨_, _, absent⟩)
  · exact absent _ query
  · obtain rfl := Except.ok.inj (query.symm.trans found)
    exact other name description fields rfl
  · cases query.symm.trans found
    exact absent (List.mem_map_of_mem (Ordered.mem_of_get? days))
  · obtain rfl := Except.ok.inj (known.symm.trans known')
    exact absurd (list.symm.trans single) (by decide)
  · obtain ⟨type, date⟩ := suits.dates
    exact absent type date

theorem suits_or_unsuited (schema : TypeSystem) :
    Suits schema ∨ ∃ target reason, Unsuited schema target reason := by
  by_cases query : ∃ type, schema.resolve "Query" = .ok type
  · obtain ⟨type, query⟩ := query
    by_cases object : ∃ name description fields, type = .object name description fields
    · obtain ⟨name, description, fields, rfl⟩ := object
      cases found : Ordered.get? fields "allDays" with
      | none => exact .inr ⟨_, _, .noDays query ((Ordered.get?_eq_none_iff _ _).mp found)⟩
      | some definition =>
        have known : schema.field "Query" "allDays" = .ok definition := by
          rw [TypeSystem.field, TypeSystem.fieldsOf, query]
          dsimp only
          rw [found]
        cases list : definition.type.isList with
        | false => exact .inr ⟨_, _, .noList known list⟩
        | true =>
          by_cases date : ∃ type, schema.resolve "Date" = .ok type
          · exact .inl ⟨⟨definition, known, list⟩, date⟩
          · exact .inr ⟨_, _, .noDates known list (not_exists.mp date)⟩
    · simp only [not_exists] at object
      exact .inr ⟨_, _, .noObject query object⟩
  · exact .inr ⟨_, _, .noQuery (not_exists.mp query)⟩

theorem check_of_field {error : SchemaError}
    (failed : MockRules.checkField schema "Query" "allDays" (.listSize (.between 1 15)) =
      .error error) : Alpine.mocks.rules.check schema = .error error := by
  unfold MockRules.check Alpine.mocks
  simp only [List.forM_eq_forM, List.forM_cons, failed]
  rfl

theorem check_of_unsuited {target reason : String} (unsuited : Unsuited schema target reason) :
    Alpine.mocks.rules.check schema = .error (.invalidMockRule target reason) := by
  cases unsuited with
  | noQuery absent =>
    apply check_of_field
    rw [MockRules.checkField, TypeSystem.field, TypeSystem.fieldsOf,
      TypeSystem.resolve_eq_error absent]
    rfl
  | @noObject type found other =>
    apply check_of_field
    rw [MockRules.checkField, TypeSystem.field, TypeSystem.fieldsOf, found]
    cases type with
    | object name description fields => exact absurd rfl (other name description fields)
    | scalar | enum | input => rfl
  | noDays found absent =>
    apply check_of_field
    rw [MockRules.checkField, TypeSystem.field, TypeSystem.fieldsOf, found]
    dsimp only
    rw [(Ordered.get?_eq_none_iff _ _).mpr absent]
    rfl
  | noList known single =>
    apply check_of_field
    rw [MockRules.checkField, known]
    dsimp only
    rw [if_neg (by simp [single])]
    rfl
  | noDates known list absent =>
    have field : MockRules.checkField schema "Query" "allDays" (.listSize (.between 1 15)) =
        .ok () := (MockRules.checkField_eq_ok_iff ..).mpr ⟨_, known, .inr list⟩
    have date : MockRules.checkType schema "Date" =
        .error (.invalidMockRule "Date" "unknown type: Date") := by
      rw [MockRules.checkType, TypeSystem.resolve_eq_error absent]
      rfl
    unfold MockRules.check Alpine.mocks
    simp only [List.forM_eq_forM, List.forM_cons, List.forM_nil, field, date]
    rfl

/-- In a schema that was read, texts are there, so only days and dates can be missing. -/
theorem check_of_suits (wellFormed : schema.WellFormed) (formatted : schema.Formatted)
    (suits : Suits schema) : Alpine.mocks.rules.check schema = .ok () := by
  rw [MockRules.check_eq_ok_iff]
  obtain ⟨definition, known, list⟩ := suits.days
  obtain ⟨name, description, text⟩ := wellFormed.text
  refine ⟨?_, ?_, ?_⟩
  · intro entry member
    obtain rfl := List.mem_singleton.mp member
    exact ⟨definition, known, .inr list⟩
  · intro entry member
    simp only [Alpine.mocks, List.mem_cons, List.not_mem_nil, or_false] at member
    rcases member with rfl | rfl
    · exact suits.dates
    · exact ⟨_, text⟩
  · intro entry member name description scalar
    have listed := formatted entry member name description scalar
    exact .inr
      (Option.ne_none_iff_exists'.mp fun absent => (Ordered.get?_eq_none_iff _ _).mp absent listed)

end SkiDay

namespace Server.Config

open SkiDay

/-- With a schema of its own and no mock rules, a server starts if the schema has a list of days and
dates. Otherwise it names the rule that does not fit. If it starts, no store stands behind its
fields. -/
theorem build_own_schema {config : Config} {readFile : String → Option String} {path text : String}
    {schema : TypeSystem} (own : config.schemaFile = some path) (found : readFile path = some text)
    (unset : config.mocksFile = none) (parsed : TypeSystem.parse text = .ok schema)
    (formatted : schema.Formatted) :
    ∃ mocks, Config.standard.loadMocks (fun _ => none) = .ok (mocks, none) ∧
      (∀ built, config.build readFile = .ok built ↔
        Suits schema ∧ built = ⟨⟨schema, mocks, []⟩, config.seed⟩) ∧
      ∀ error, config.build readFile = .error error ↔
        ∃ target reason, Unsuited schema target reason ∧
          error = .schema (.invalidMockRule target reason) := by
  have loads : Config.load readFile config.schemaFile schemaText = .ok text := by
    rw [own, Config.load, found]
  have builds := Config.build_of_loaded (Config.loadSchema_of_text loads parsed)
  rw [Alpine.loadMocks_bundled readFile unset, own] at builds
  simp only [Option.isNone_some, Bool.false_eq_true, if_false] at builds
  refine ⟨Alpine.mocks, Alpine.loadMocks_bundled _ rfl, ?_⟩
  rcases suits_or_unsuited schema with suits | ⟨target, reason, unsuited⟩
  · rw [builds, check_of_suits (TypeSystem.wellFormed_of_parse parsed) formatted suits]
    refine ⟨fun built => ?_, fun error => iff_of_false nofun ?_⟩
    · rw [and_iff_right suits, Except.ok.injEq, eq_comm]
    · rintro ⟨target, reason, unsuited, -⟩
      exact suits.not_unsuited unsuited
  · rw [builds, check_of_unsuited unsuited]
    refine ⟨fun built => iff_of_false nofun fun both => both.1.not_unsuited unsuited,
      fun error => ?_⟩
    constructor
    · intro same
      exact ⟨target, reason, unsuited, (Except.error.inj same).symm⟩
    · rintro ⟨target', reason', unsuited', rfl⟩
      have same := (check_of_unsuited unsuited).symm.trans (check_of_unsuited unsuited')
      rw [Except.error.inj same]

end Server.Config

namespace Hut

open Server SkiDay

/-- A server with a schema of its own and nothing else. -/
def config : Config := { Config.standard with schemaFile := some "hut.graphql", seed := some 7 }

def file (text path : String) : Option String := if path = "hut.graphql" then some text else none

def calendar : TypeSystem where
  query := "Query"
  mutation := none
  subscription := none
  types :=
    [("String", .scalar "String" none), ("Boolean", .scalar "Boolean" none),
      ("Date", .scalar "Date" none),
      ("Query", .object "Query" none [("allDays", ⟨"allDays", none, .list (.named "Date"), []⟩)])]
  directives := Introspection.directives

theorem calendar_loaded :
    TypeSystem.parse "scalar Date type Query{allDays:[Date]}" = .ok calendar := rfl

def stove : TypeSystem :=
  { calendar with
    types :=
      [("String", .scalar "String" none), ("Boolean", .scalar "Boolean" none),
        ("Query", .object "Query" none [("lit", ⟨"lit", none, .named "Boolean", []⟩)])] }

theorem stove_loaded : TypeSystem.parse "type Query{lit:Boolean}" = .ok stove := rfl

theorem formatted_of_all {schema : TypeSystem}
    (all : (schema.types.all fun entry => match entry.2 with
      | .scalar name _ => MockRules.standardFormatters.keys.contains name
      | _ => true) = true) : schema.Formatted := by
  intro entry member name description scalar
  have listed := List.all_eq_true.mp all entry member
  rw [scalar] at listed
  exact List.contains_iff_mem.mp listed

/-- A server of a calendar starts and has no handlers. -/
theorem build_calendar :
    TypeSystem.parse "scalar Date type Query{allDays:[Date]}" = .ok calendar ∧ calendar.Formatted ∧
      ∃ mocks, config.build (file "scalar Date type Query{allDays:[Date]}") =
        .ok ⟨⟨calendar, mocks, []⟩, some 7⟩ := by
  have formatted : calendar.Formatted := formatted_of_all (by decide)
  obtain ⟨mocks, -, starts, -⟩ := @Config.build_own_schema config
    (file "scalar Date type Query{allDays:[Date]}") _ _ _ rfl rfl rfl calendar_loaded formatted
  have suits : Suits calendar := ⟨⟨_, rfl, rfl⟩, _, rfl⟩
  exact ⟨calendar_loaded, formatted, mocks, (starts _).mpr ⟨suits, rfl⟩⟩

/-- A server of a schema without days does not start. -/
theorem build_stove :
    config.schemaFile = some "hut.graphql" ∧ config.mocksFile = none ∧
      TypeSystem.parse "type Query{lit:Boolean}" = .ok stove ∧ stove.Formatted ∧
      config.build (file "type Query{lit:Boolean}") =
        .error (.schema (.invalidMockRule "Query.allDays"
          "unknown field allDays on type Query")) := by
  have loads : config.loadSchema (file "type Query{lit:Boolean}") = .ok stove :=
    Config.loadSchema_of_text rfl stove_loaded
  have refused : Alpine.mocks.rules.check stove =
      .error (.invalidMockRule "Query.allDays" "unknown field allDays on type Query") := rfl
  refine ⟨rfl, rfl, stove_loaded, formatted_of_all (by decide), ?_⟩
  rw [Config.build_of_loaded loads, Alpine.loadMocks_bundled _ rfl]
  dsimp only
  rw [refused]

end Hut

end MockGraph
