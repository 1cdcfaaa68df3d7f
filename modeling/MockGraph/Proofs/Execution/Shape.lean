import MockGraph.Execution.Run
set_option autoImplicit false

namespace MockGraph

namespace FieldSelection

mutual

/-- No two fields that are selected on a field have one response key, at any level. -/
def DistinctBelow : FieldSelection → Prop
  | ⟨_, _, _, selection⟩ => DistinctKeys selection

/-- No two fields of a selection have one response key, at any level. -/
def DistinctKeys : List FieldSelection → Prop
  | [] => True
  | field :: rest =>
    field.responseKey ∉ rest.map responseKey ∧ DistinctBelow field ∧ DistinctKeys rest

end

mutual

def decideDistinctBelow : (field : FieldSelection) → Decidable (DistinctBelow field)
  | ⟨_, _, _, selection⟩ => decideDistinctKeys selection

def decideDistinctKeys : (selection : List FieldSelection) → Decidable (DistinctKeys selection)
  | [] => .isTrue trivial
  | field :: rest =>
    @instDecidableAnd _ _ inferInstance
      (@instDecidableAnd _ _ (decideDistinctBelow field) (decideDistinctKeys rest))

end

instance : DecidablePred DistinctKeys := decideDistinctKeys

/-- Induction on a selection, through what is selected on its first field and through the other
fields. -/
theorem selection_induction {motive : List FieldSelection → Prop} (nil : motive [])
    (cons : ∀ name aliasName arguments selection rest, motive selection → motive rest →
      motive (⟨name, aliasName, arguments, selection⟩ :: rest)) : ∀ selection, motive selection
  | [] => nil
  | ⟨name, aliasName, arguments, selection⟩ :: rest =>
    cons name aliasName arguments selection rest (selection_induction nil cons selection)
      (selection_induction nil cons rest)

/-- The fields of one level have response keys of their own. -/
theorem DistinctKeys.nodup {selection : List FieldSelection} (distinct : DistinctKeys selection) :
    (selection.map responseKey).Nodup := by
  induction selection with
  | nil => exact List.nodup_nil
  | cons field rest ih =>
    obtain ⟨unique, -, others⟩ := distinct
    exact List.nodup_cons.mpr ⟨unique, ih others⟩

end FieldSelection

/-- A value fits a type: where it may not be null it is not, a list holds items that fit, and the
members of an object fit what is selected on it. Scalars and enums may be any value. -/
def FitsType (schema : TypeSystem) (fitsMembers : String → Ordered String Json → Prop) :
    TypeRef → Json → Prop
  | .nonNull inner, value => value ≠ .null ∧ FitsType schema fitsMembers inner value
  | .list item, value =>
    value = .null ∨
      ∃ items, value = .array items ∧ ∀ element ∈ items, FitsType schema fitsMembers item element
  | .named name, value =>
    value = .null ∨
      match Ordered.get? schema.types name with
      | some (.object _ _ _) => ∃ members, value = .object members ∧ fitsMembers name members
      | some _ => True
      | none => False

mutual

/-- The value of a selected field of a type is the type's name under `__typename`, and fits the
field's type under all other names. -/
def FitsField (schema : TypeSystem) : FieldSelection → String → Json → Prop
  | ⟨name, _, _, selection⟩, parent, value =>
    if name = "__typename" then value = .string parent
    else ∃ definition, schema.field parent name = .ok definition ∧
      FitsType schema (FitsSelection schema selection) definition.type value

/-- The members of an object of a type are those that are selected, in order. -/
def FitsSelection (schema : TypeSystem) : List FieldSelection → String → Ordered String Json → Prop
  | [], _, members => members = []
  | field :: rest, parent, members =>
    ∃ value others, members = (field.responseKey, value) :: others ∧
      FitsField schema field parent value ∧ FitsSelection schema rest parent others

end

/-- The data of a response is null, or an object with what is selected on the root type. -/
def FitsRoot (schema : TypeSystem) (root : String) (selection : List FieldSelection) (data : Json) :
    Prop :=
  data = .null ∨ ∃ members, data = .object members ∧ FitsSelection schema selection root members

theorem fitsType_null (schema : TypeSystem) (fitsMembers : String → Ordered String Json → Prop)
    {type : TypeRef} (nullable : type.isNonNull = false) :
    FitsType schema fitsMembers type .null := by
  cases type with
  | nonNull inner => cases nullable
  | list item => exact Or.inl rfl
  | named name => exact Or.inl rfl

namespace Completion

variable {α β : Type}

/-- Every value that a completion produces has a property. -/
def Yields (property : α → Prop) (completion : Completion α) : Prop :=
  ∀ random a, (completion random).value = some a → property a

theorem yields_value {property : α → Prop} {a : α} (holds : property a) :
    Yields property (value a) := by
  intro random b success
  cases success
  exact holds

theorem yields_fail (property : α → Prop) (error : ResolutionError) (path : List PathSegment) :
    Yields property (fail error path : Completion α) := by
  intro random a success
  cases success

theorem Yields.andThen {property : α → Prop} {property' : β → Prop} {first : Completion α}
    {next : α → Completion β} (head : Yields property first)
    (tail : ∀ a, property a → Yields property' (next a)) :
    Yields property' (first.andThen next) := by
  intro random b success
  simp only [Completion.andThen] at success
  cases reached : (first random).value with
  | none => simp [reached] at success
  | some a =>
    simp only [reached] at success
    exact tail a (head random a reached) _ b success

/-- A missing value becomes null only where null has the property. -/
theorem Yields.absorb {property : Json → Prop} {completion : Completion Json} {type : TypeRef}
    (inner : Yields property completion) (null : type.isNonNull = false → property .null) :
    Yields property (absorb type completion) := by
  intro random value success
  simp only [Completion.absorb] at success
  split at success
  · exact inner random value success
  · split at success
    · exact inner random value success
    · rename_i nullable
      cases success
      exact null (by simpa using nullable)

end Completion

namespace Completer

open Completion

variable {schema : TypeSystem} {mocks : Mocks} {position : Position}

theorem yields_nonNull {property : Json → Prop} {complete : Completer}
    (inner : ∀ supplied path, Yields property (complete supplied path)) (supplied : Option Json)
    (path : List PathSegment) :
    Yields (fun value => value ≠ .null ∧ property value)
      (nonNull position complete supplied path) := by
  unfold nonNull
  split
  · exact yields_fail _ _ _
  · refine (inner _ _).andThen fun value holds => ?_
    split
    · exact yields_fail _ _ _
    · rename_i present
      refine yields_value ⟨?_, holds⟩
      rintro rfl
      exact present rfl

theorem yields_orNull {property : Json → Prop} {complete : Completer} (null : property .null)
    (inner : ∀ supplied path, Yields property (complete supplied path)) (supplied : Option Json)
    (path : List PathSegment) : Yields property (orNull complete supplied path) := by
  unfold orNull
  split
  · exact yields_value null
  · exact inner _ _

theorem yields_items {property : Json → Prop} {complete : Completer} {type : TypeRef}
    (inner : ∀ supplied path, Yields property (complete supplied path))
    (null : type.isNonNull = false → property .null) (path : List PathSegment) :
    ∀ supplied index, Yields (fun values => ∀ value ∈ values, property value)
      (items complete type path supplied index) := by
  intro supplied
  induction supplied with
  | nil => exact fun _ => yields_value (by simp)
  | cons first rest ih =>
    intro index
    refine ((inner _ _).absorb null).andThen fun value head => ?_
    refine (ih (index + 1)).andThen fun values tail => yields_value ?_
    exact List.forall_mem_cons.mpr ⟨head, tail⟩

theorem yields_list {property : Json → Prop} {complete : Completer} {item : TypeRef}
    (inner : ∀ supplied path, Yields property (complete supplied path))
    (null : item.isNonNull = false → property .null) (supplied : Option Json)
    (path : List PathSegment) :
    Yields (fun value =>
        ∃ elements, value = Json.array elements ∧ ∀ element ∈ elements, property element)
      (list mocks position item complete supplied path) := by
  have wrapped : ∀ given, Yields (fun value =>
        ∃ elements, value = Json.array elements ∧ ∀ element ∈ elements, property element)
      ((items complete item path given 0).andThen fun values =>
        Completion.value (Json.array values)) := by
    intro given
    exact (yields_items inner null path given 0).andThen fun values holds =>
      yields_value ⟨values, rfl, holds⟩
  unfold list
  split
  · exact wrapped _
  · exact yields_fail _ _ _
  · intro random value success
    exact wrapped _ _ value success

theorem yields_object {fitsMembers : String → Ordered String Json → Prop}
    {complete : FieldsCompleter} {name : String} {fields : Ordered String FieldDef}
    (inner : ∀ provided path, Yields (fitsMembers name) (complete name fields provided path))
    (supplied : Option Json) (path : List PathSegment) :
    Yields (fun value => ∃ members, value = Json.object members ∧ fitsMembers name members)
      (object mocks position name fields complete supplied path) := by
  have wrapped : ∀ provided, Yields (fun value =>
        ∃ members, value = Json.object members ∧ fitsMembers name members)
      ((complete name fields provided path).andThen fun members =>
        Completion.value (Json.object members)) := fun provided =>
    (inner provided path).andThen fun members holds => yields_value ⟨members, rfl, holds⟩
  unfold object
  dsimp only
  split
  · exact wrapped _
  · exact yields_fail _ _ _
  · split
    · exact wrapped _
    · exact yields_fail _ _ _
    · exact wrapped _

/-- Whatever is supplied, a completed value fits its type, if the members of completed objects are
those that are selected. -/
theorem yields_ofType {fitsMembers : String → Ordered String Json → Prop}
    {complete : FieldsCompleter}
    (members : ∀ name fields, schema.fieldsOf name = .ok fields →
      ∀ provided path, Yields (fitsMembers name) (complete name fields provided path))
    (type : TypeRef) :
    ∀ supplied path, Yields (FitsType schema fitsMembers type)
      (ofType schema mocks position complete type supplied path) := by
  induction type with
  | named name =>
    refine yields_orNull (Or.inl rfl) fun supplied path => ?_
    intro random value success
    refine Or.inr ?_
    unfold named at success
    cases found : Ordered.get? schema.types name with
    | none =>
      rw [found] at success
      cases success
    | some type =>
      cases type with
      | object typeName description fields =>
        have known : schema.fieldsOf name = .ok fields := by
          simp [TypeSystem.fieldsOf, TypeSystem.resolve, found]
        simp only [found] at success
        exact yields_object (members name fields known) supplied path random value success
      | scalar | enum | input => trivial
  | list item ih =>
    refine yields_orNull (Or.inl rfl) fun supplied path => ?_
    intro random value success
    exact Or.inr
      (yields_list ih (fitsType_null schema fitsMembers) supplied path random value success)
  | nonNull inner ih => exact yields_nonNull ih

end Completer

namespace Completion

variable {schema : TypeSystem} {mocks : Mocks}

/-- Whatever the rule of a field gives, its value has the property that completed values of its type
have. -/
theorem yields_field {property : Json → Prop} {parent name : String} {type : TypeRef}
    {complete : FieldsCompleter}
    (inner : ∀ supplied path, Yields property
      (Completer.ofType schema mocks (.ofField parent name) complete type supplied path))
    (null : type.isNonNull = false → property .null) (supplied : Option Json)
    (path : List PathSegment) :
    Yields property (field schema mocks parent name type complete supplied path) := by
  unfold field
  dsimp only
  split
  · exact (inner _ _).absorb null
  · split
    · exact (inner _ _).absorb null
    · exact (yields_fail _ _ _).absorb null
    · exact (inner _ _).absorb null

/-- A member is the name of its type, or what a field that the type has is completed to. -/
theorem yields_member {property : Json → Prop} {selected : FieldSelection} {parent : String}
    {definitions : Ordered String FieldDef} (known : schema.fieldsOf parent = .ok definitions)
    (typename : selected.name = "__typename" → property (.string parent))
    (completed : selected.name ≠ "__typename" →
      ∀ definition, schema.field parent selected.name = .ok definition →
        ∀ supplied path, Yields property
          (field schema mocks parent selected.name definition.type
            (fields schema mocks selected.selection []) supplied path))
    (provided : Option (Ordered String Json)) (path : List PathSegment) :
    Yields property (member schema mocks selected parent definitions provided path) := by
  obtain ⟨name, aliasName, arguments, selection⟩ := selected
  unfold member
  split
  · rename_i isTypename
    exact yields_value (typename isTypename)
  · rename_i notTypename
    split
    · exact yields_fail _ _ _
    · rename_i definition found
      exact completed notTypename definition (by simp [TypeSystem.field, known, found]) _ path

theorem yields_fields (selection : List FieldSelection) :
    ∀ (parent : String) (definitions : Ordered String FieldDef)
      (provided : Option (Ordered String Json)) (path : List PathSegment),
      FieldSelection.DistinctKeys selection → schema.fieldsOf parent = .ok definitions →
        Yields (FitsSelection schema selection parent)
          (fields schema mocks selection [] parent definitions provided path) := by
  induction selection using FieldSelection.selection_induction with
  | nil =>
    intro parent definitions provided path distinct known
    exact yields_value rfl
  | cons name aliasName arguments selection rest ihBelow ihRest =>
    intro parent definitions provided path distinct known
    have nodup := distinct.nodup
    obtain ⟨-, below, others⟩ := distinct
    have head :
        Yields (FitsField schema ⟨name, aliasName, arguments, selection⟩ parent)
          (member schema mocks ⟨name, aliasName, arguments, selection⟩ parent definitions provided
            (path ++
              [.field (FieldSelection.responseKey ⟨name, aliasName, arguments, selection⟩)])) := by
      refine yields_member known (fun isTypename => by simp only [FitsField, if_pos isTypename]) ?_
        provided _
      intro notTypename definition declared supplied path random value success
      simp only [FitsField, notTypename, if_false]
      refine ⟨definition, declared,
        yields_field (Completer.yields_ofType ?_ _) (fitsType_null _ _) _ _ random value success⟩
      intro object objectFields objectKnown provided path
      exact ihBelow object objectFields provided path below objectKnown
    rw [fields_cons schema mocks parent definitions provided path nodup]
    refine head.andThen fun value fits => ?_
    refine (ihRest parent definitions provided path others known).andThen fun members tail => ?_
    exact yields_value ⟨value, members, rfl, fits, tail⟩

end Completion

namespace Run

variable {σ : Type}

/-- Whatever the source of a root field gives, its value has the property that completed values of
its type have. -/
theorem yields_complete {property : Json → Prop} {run : Run} {mocks : Mocks}
    {field : FieldSelection} {definition : FieldDef}
    (inner : ∀ supplied path, Completion.Yields property
      (Completer.ofType run.schema mocks (.ofField run.root field.name)
        (Completion.fields run.schema mocks field.selection []) definition.type supplied path))
    (null : definition.type.isNonNull = false → property .null)
    (source : Option (Except ResolutionError Json)) :
    Completion.Yields property (run.complete mocks field definition source) := by
  unfold complete
  dsimp only
  split
  · exact Completion.yields_field inner null _ _
  · exact Completion.yields_field inner null _ _
  · exact (Completion.yields_fail _ _ _).absorb null

/-- Whatever the source of a root field gives, a value completed from it fits. -/
theorem yields_complete_fits (run : Run) (mocks : Mocks) (field : FieldSelection)
    (definition : FieldDef) (source : Option (Except ResolutionError Json))
    (distinct : FieldSelection.DistinctBelow field) :
    Completion.Yields
      (FitsType run.schema (FitsSelection run.schema field.selection) definition.type)
      (run.complete mocks field definition source) := by
  refine yields_complete (Completer.yields_ofType ?_ _) (fitsType_null _ _) source
  intro name fields known provided path
  exact Completion.yields_fields field.selection name fields provided path
    (by cases field; exact distinct) known

/-- A root field that the schema has either leaves a run with a value that fits under its key, or
ends it with no data. -/
theorem step_fits (run : Run) (engine : Engine σ) (field : FieldSelection) (world : World σ)
    (valid : run.schema.fieldErrors run.root field = [])
    (distinct : FieldSelection.DistinctBelow field) :
    (∃ next, (run.step engine field world).1 = .running next ∧ next.schema = run.schema ∧
        next.root = run.root ∧
        ∃ value, next.data = Ordered.insert run.data field.responseKey value ∧
          FitsField run.schema field run.root value) ∨
      ∃ response, (run.step engine field world).1 = .finished response ∧
        response.data = some .null := by
  rcases run.step_cases engine field world with ⟨isTypename, stepped⟩ | ⟨notTypename, cases⟩
  · refine Or.inl ⟨_, congrArg Prod.fst stepped, rfl, rfl, _, rfl, ?_⟩
    cases field
    simp only [FitsField, if_pos isTypename]
  · obtain ⟨definition, declared⟩ := TypeSystem.field_of_valid valid notTypename
    rcases cases with
      ⟨error, missing, -⟩ | ⟨definition, source, met, done, known, -, completed, ends⟩
    · rw [declared] at missing
      cases missing
    · rcases ends with ⟨value, reached, stepped⟩ | ⟨-, stepped⟩
      · refine Or.inl ⟨_, congrArg Prod.fst stepped, rfl, rfl, value, rfl, ?_⟩
        have fits :=
          yields_complete_fits run engine.mocks field definition source distinct met.random value
            (by rw [completed, reached])
        cases field
        simp only [FitsField, if_neg notTypename]
        exact ⟨definition, known, fits⟩
      · exact Or.inr ⟨_, congrArg Prod.fst stepped, rfl⟩

/-- A run ends with no data, or with all that was done before and what is selected, in order. -/
theorem finish_fits (engine : Engine σ) (selection : List FieldSelection) :
    ∀ (run : Run) (world : World σ), run.schema.selectionErrors run.root selection = [] →
      FieldSelection.DistinctKeys selection →
      (∀ field ∈ selection, field.responseKey ∉ Ordered.keys run.data) →
      (finish engine selection run world).1.data = some .null ∨
        ∃ members,
          (finish engine selection run world).1.data = some (.object (run.data ++ members)) ∧
            FitsSelection run.schema selection run.root members := by
  induction selection with
  | nil =>
    intro run world valid distinct fresh
    exact Or.inr ⟨[], by simp [finish, response, Response.executed], rfl⟩
  | cons field rest ih =>
    intro run world valid distinct fresh
    obtain ⟨unique, below, others⟩ := distinct
    obtain ⟨headValid, restValid⟩ := List.append_eq_nil_iff.mp valid
    unfold finish
    rcases stepped : run.step engine field world with ⟨progress, after⟩
    rcases run.step_fits engine field world headValid below with
      ⟨next, reached, sameSchema, sameRoot, value, data, fits⟩ | ⟨response, reached, none⟩
    · obtain rfl : progress = .running next := by rw [← reached, stepped]
      have later := ih next after (by rw [sameSchema, sameRoot]; exact restValid) others
        (by rw [data]; exact FieldSelection.fresh_insert unique fresh value)
      rw [Ordered.insert_of_notMem _ _ _ (fresh field (List.mem_cons_self ..))] at data
      rcases later with lost | ⟨members, found, tail⟩
      · exact Or.inl lost
      · refine Or.inr ⟨(field.responseKey, value) :: members, ?_, value, members, rfl, fits, ?_⟩
        · simpa [data] using found
        · rwa [sameSchema, sameRoot] at tail
    · obtain rfl : progress = .finished response := by rw [← reached, stepped]
      exact Or.inl none

end Run

namespace Resort

/-- A resort that is required, with lifts that are not, and whose lifts have names that are. -/
def schema : TypeSystem where
  query := "Query"
  mutation := none
  subscription := none
  types :=
    [("Lift", .object "Lift" none [("name", ⟨"name", none, .nonNull (.named "String"), []⟩),
      ("open", ⟨"open", none, .named "Boolean", []⟩)]),
      ("Resort", .object "Resort" none [("name", ⟨"name", none, .named "String", []⟩),
        ("lifts", ⟨"lifts", none, .list (.named "Lift"), []⟩)]),
      ("Query", .object "Query" none [("resort", ⟨"resort", none, .nonNull (.named "Resort"), []⟩),
        ("other", ⟨"other", none, .named "Int", []⟩)]), ("String", .scalar "String" none),
      ("Boolean", .scalar "Boolean" none), ("Int", .scalar "Int" none)]
  directives := []

def engine : Engine Unit :=
  ⟨schema, ⟨MockRules.standard.withField "Query" "other" (.constant .null), .standard⟩, []⟩

def operation : Operation :=
  ⟨.query, none,
    [⟨"resort", none, [],
        [⟨"__typename", none, [], []⟩, ⟨"name", none, [], []⟩,
          ⟨"lifts", some "all", [], [⟨"name", none, [], []⟩, ⟨"open", none, [], []⟩]⟩]⟩,
      ⟨"other", none, [], []⟩], []⟩

/-- A name that is no text, a lift without a name, one whose state is no truth value, and one that
is no object. -/
def payload : Json :=
  .object [("name", .ofNat 5),
    ("lifts", .array
      [.object [("name", .null), ("open", .bool true)],
        .object [("name", .string "Snowbird"), ("open", .string "yes")],
        .ofNat 7])]

def world : World Unit := ⟨.ofSeed 0, (), .new⟩

def response : Response :=
  .executed
    (.object
      [("resort", .object [("__typename", .string "Resort"), ("name", .null),
        ("all", .array [.null, .object [("name", .string "Snowbird"), ("open", .null)], .null])]),
        ("other", .null)])
    [⟨"Expected a value of type String, found 5", some [.field "resort", .field "name"], none⟩,
      ⟨"Cannot return null for non-nullable field Lift.name.",
        some [.field "resort", .field "all", .index 0, .field "name"], none⟩,
      ⟨"Expected a value of type Boolean, found \"yes\"",
        some [.field "resort", .field "all", .index 1, .field "open"], none⟩,
      ⟨"Expected a value of type Lift, found 7", some [.field "resort", .field "all", .index 2],
        none⟩]

end Resort

/-- An executed operation has data, and the data fits the root type and the selection: null never
stands where the schema forbids it, and every object has the selected keys in order. -/
theorem Engine.run_fits {σ : Type} (engine : Engine σ) (operation : Operation)
    (payload : Option Json) (world after : World σ) (response : Response)
    (distinct : FieldSelection.DistinctKeys operation.selection)
    (executed : engine.run operation payload world = (.ok response, after)) :
    ∃ root data, engine.schema.root? operation.kind = some root ∧ response.data = some data ∧
      FitsRoot engine.schema root operation.selection data := by
  obtain ⟨root, found, valid, ⟨error, -, rfl, -⟩ | ⟨seed, -, finished⟩⟩ := run_cases executed
  · exact ⟨root, .null, found, rfl, Or.inl rfl⟩
  · obtain rfl : _ = response := congrArg Prod.fst finished
    rcases Run.finish_fits engine operation.selection
        ⟨engine.schema, root, seed, operation.context, payload, [], []⟩ world valid distinct
        (by simp) with lost | ⟨members, data, fits⟩
    · exact ⟨root, .null, found, lost, Or.inl rfl⟩
    · exact ⟨root, .object members, found, data, Or.inr ⟨members, rfl, fits⟩⟩

theorem Resort.run_fits_payload :
    FieldSelection.DistinctKeys operation.selection ∧
      engine.run operation (some payload) world = (.ok response, world) ∧
      ∃ root data, schema.root? .query = some root ∧ response.data = some data ∧
        FitsRoot schema root operation.selection data :=
  ⟨by decide, rfl,
    Engine.run_fits engine operation (some payload) world world response (by decide) rfl⟩

end MockGraph
