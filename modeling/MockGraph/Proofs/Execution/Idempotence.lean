import MockGraph.Proofs.Execution.Leaves
set_option autoImplicit false

namespace MockGraph

/-- A scalar or an enum takes the values of its domain as they are. -/
theorem InDomain.coerce_eq {type : TypeDef} {value : Json} (inDomain : InDomain type value) :
    type.coerce value = .ok value := by
  cases inDomain with
  | int low high =>
    have small : TypeDef.isInt32 (.ofInt _) = true :=
      decide_eq_true ⟨low, Int.lt_add_one_iff.mpr high⟩
    simp [TypeDef.coerce, small]
  | float => rfl
  | string => rfl
  | boolean => rfl
  | id => rfl
  | symbol member => simp [TypeDef.coerce, Json.asString?, member]
  | own foreign =>
    unfold TypeDef.coerce
    split
    case h_7 => rfl
    all_goals simp_all [builtInScalars]

/-- Rules give values only to objects and to scalars of the schema's own. -/
def MockRules.SparesLeaves (rules : MockRules) (schema : TypeSystem) : Prop :=
  ∀ name type produce, Ordered.get? schema.types name = some type →
    rules.ruleForType? type.name = some (.value produce) →
    (∃ name description fields, type = .object name description fields) ∨
      ∃ name description, type = .scalar name description ∧ name ∉ builtInScalars

/-- Where rules spare the leaves, each value that stands for one is of the domain. -/
theorem MockRules.SparesLeaves.inDomain {mocks : Mocks} {schema : TypeSystem}
    (spares : mocks.rules.SparesLeaves schema) {position : Position} {name : String}
    {type : TypeDef} {value : Json} (found : Ordered.get? schema.types name = some type)
    (leaf : ∀ name description fields, type ≠ .object name description fields)
    (stands : mocks.Stands position type value) : InDomain type value := by
  rcases stands with inDomain | ruled
  · exact inDomain
  · unfold Mocks.typeValue? at ruled
    split at ruled
    · rename_i produce rule
      rcases spares name type produce found rule with ⟨_, _, _, same⟩ | ⟨_, _, rfl, foreign⟩
      · exact absurd same (leaf _ _ _)
      · exact .own foreign
    · cases ruled

namespace Completion

theorem absorb_value (type : TypeRef) (json : Json) : absorb type (value json) = value json := rfl

end Completion

/-- The members of an object of a type are completed to themselves. -/
def FieldsCompleter.Settles (complete : FieldsCompleter) (schema : TypeSystem) (name : String)
    (members : Ordered String Json) : Prop :=
  ∀ fields, schema.fieldsOf name = .ok fields →
    ∀ path, complete name fields (some members) path = .value members

namespace Completer

open Completion

/-- A value is completed to itself, wherever it stands. -/
def Settles (complete : Completer) (value : Json) : Prop :=
  ∀ path, complete (some value) path = Completion.value value

variable {schema : TypeSystem} {mocks : Mocks} {position : Position} {complete : Completer}
  {json : Json}

theorem settles_orNull_null (complete : Completer) : (orNull complete).Settles .null := fun _ => rfl

theorem settles_orNull (settles : complete.Settles json) : (orNull complete).Settles json := by
  cases json with
  | null => exact settles_orNull_null complete
  | _ => exact settles

theorem settles_nonNull (present : json ≠ .null) (settles : complete.Settles json) :
    (nonNull position complete).Settles json := by
  intro path
  cases json with
  | null => exact absurd rfl present
  | _ =>
    show (complete (some _) path).andThen _ = _
    rw [settles path, value_andThen]
    rfl

theorem items_of_settles {type : TypeRef} {elements : List Json}
    (settles : ∀ element ∈ elements, complete.Settles element) (path : List PathSegment)
    (index : Nat) :
    items complete type path (elements.map some) index = Completion.value elements := by
  induction elements generalizing index with
  | nil => rfl
  | cons first rest ih =>
    obtain ⟨head, tail⟩ := List.forall_mem_cons.mp settles
    rw [List.map_cons, items, head, absorb_value, value_andThen, ih tail, value_andThen]

theorem settles_list {item : TypeRef} {elements : List Json}
    (settles : ∀ element ∈ elements, complete.Settles element) :
    (list mocks position item complete).Settles (.array elements) := by
  intro path
  rw [list, items_of_settles settles, value_andThen]

theorem settles_leaf {type : TypeDef} (inDomain : InDomain type json) :
    (leaf mocks position type).Settles json := by
  intro path
  rw [leaf, inDomain.coerce_eq, ofResult]

theorem settles_object {name : String} {fields : Ordered String FieldDef}
    {complete : FieldsCompleter} {members : Ordered String Json}
    (settles : ∀ path, complete name fields (some members) path = Completion.value members) :
    (object mocks position name fields complete).Settles (.object members) := by
  intro path
  unfold object
  dsimp only
  rw [settles path, value_andThen]

theorem settles_null {complete : FieldsCompleter} {type : TypeRef}
    (nullable : type.isNonNull = false) :
    (ofType schema mocks position complete type).Settles .null := by
  cases type with
  | nonNull inner => cases nullable
  | list item => exact settles_orNull_null _
  | named name => exact settles_orNull_null _

/-- Whatever is supplied, a completed value is settled, if the members of completed objects are. -/
theorem yields_settled (keeps : mocks.rules.KeepsBuiltIns)
    (spares : mocks.rules.SparesLeaves schema) {complete : FieldsCompleter}
    (members : ∀ name fields, schema.fieldsOf name = .ok fields →
      ∀ provided path,
        Yields (FieldsCompleter.Settles complete schema name) (complete name fields provided path))
    (type : TypeRef) :
    ∀ supplied path, Yields (ofType schema mocks position complete type).Settles
      (ofType schema mocks position complete type supplied path) := by
  induction type with
  | named name =>
    refine yields_orNull (settles_orNull_null _) fun supplied path random value success =>
      settles_orNull ?_
    unfold named at success ⊢
    cases found : Ordered.get? schema.types name with
    | none =>
      rw [found] at success
      cases success
    | some type =>
      rw [found] at success
      have ofLeaf : (∀ name description fields, type ≠ .object name description fields) →
          (leaf mocks position type supplied path random).value = some value →
          (leaf mocks position type).Settles value := fun isLeaf success =>
        settles_leaf
          (spares.inDomain found isLeaf (yields_leaf keeps supplied path random value success))
      cases type with
      | object typeName description fields =>
        have known : schema.fieldsOf name = .ok fields := by
          simp [TypeSystem.fieldsOf, TypeSystem.resolve, found]
        obtain ⟨members, rfl, settles⟩ :=
          yields_object (members name fields known) supplied path random value success
        exact settles_object (settles fields known)
      | scalar | enum | input => exact ofLeaf (fun _ _ _ same => TypeDef.noConfusion same) success
  | list item ih =>
    refine yields_orNull (settles_orNull_null _) fun supplied path random value success =>
      settles_orNull ?_
    obtain ⟨elements, rfl, settles⟩ :=
      yields_list ih (fun nullable => settles_null nullable) supplied path random value success
    exact settles_list settles
  | nonNull inner ih =>
    intro supplied path random value success
    obtain ⟨present, settles⟩ := yields_nonNull ih supplied path random value success
    exact settles_nonNull present settles

end Completer

namespace FieldSelection

mutual

/-- The response keys of all fields that are selected on a field are their names. -/
def UnaliasedBelow : FieldSelection → Prop
  | ⟨_, _, _, selection⟩ => Unaliased selection

/-- The response keys of all fields of a selection are their names, at any level. -/
def Unaliased : List FieldSelection → Prop
  | [] => True
  | field :: rest => field.responseKey = field.name ∧ UnaliasedBelow field ∧ Unaliased rest

end

end FieldSelection

namespace Completion

variable {schema : TypeSystem} {mocks : Mocks}

theorem field_of_settles {parent name : String} {type : TypeRef} {complete : FieldsCompleter}
    {json : Json}
    (settles : (Completer.ofType schema mocks (.ofField parent name) complete type).Settles json)
    (path : List PathSegment) :
    field schema mocks parent name type complete (some json) path = value json := by
  unfold field
  dsimp only
  rw [settles path, absorb_value]

/-- A member that is completed to itself where it is supplied. -/
def MemberSettles (schema : TypeSystem) (mocks : Mocks) (selected : FieldSelection)
    (parent : String) (json : Json) : Prop :=
  ∀ definitions, schema.fieldsOf parent = .ok definitions → ∀ provided path,
    Ordered.get? provided selected.name = some json →
      member schema mocks selected parent definitions (some provided) path = value json

/-- Members that are completed to themselves where they are supplied, whatever else is supplied with
them. -/
structure MembersSettle (schema : TypeSystem) (mocks : Mocks) (selection : List FieldSelection)
    (parent : String) (members : Ordered String Json) : Prop where
  keys : Ordered.keys members = selection.map FieldSelection.responseKey
  settles : ∀ definitions, schema.fieldsOf parent = .ok definitions → ∀ provided path,
    (∀ entry ∈ members, Ordered.get? provided entry.1 = some entry.2) →
      fields schema mocks selection [] parent definitions (some provided) path = value members

theorem MembersSettle.fieldsSettle {selection : List FieldSelection} {parent : String}
    {members : Ordered String Json} (distinct : (selection.map FieldSelection.responseKey).Nodup)
    (settle : MembersSettle schema mocks selection parent members) :
    FieldsCompleter.Settles (fields schema mocks selection []) schema parent members := by
  intro definitions known path
  refine settle.settles definitions known members path fun entry member =>
    Ordered.get?_of_mem ?_ member
  rw [settle.keys]
  exact distinct

theorem yields_memberSettles (keeps : mocks.rules.KeepsBuiltIns)
    (spares : mocks.rules.SparesLeaves schema) (selected : FieldSelection) {parent : String}
    {definitions : Ordered String FieldDef} (known : schema.fieldsOf parent = .ok definitions)
    (below : ∀ name fields, schema.fieldsOf name = .ok fields →
      ∀ provided path, Yields (FieldsCompleter.Settles
          (Completion.fields schema mocks selected.selection []) schema name)
        (Completion.fields schema mocks selected.selection [] name fields provided path))
    (provided : Option (Ordered String Json)) (path : List PathSegment) :
    Yields (MemberSettles schema mocks selected parent)
      (member schema mocks selected parent definitions provided path) := by
  refine yields_member known ?_ ?_ provided path
  · intro isTypename definitions _ provided path _
    obtain ⟨name, aliasName, arguments, selection⟩ := selected
    rw [member, if_pos isTypename]
  · intro named definition declared supplied place random json success definitions again provided
      path found
    have settles :
        (Completer.ofType schema mocks (.ofField parent selected.name)
            (fields schema mocks selected.selection []) definition.type).Settles json :=
      yields_field (Completer.yields_settled keeps spares below definition.type)
        Completer.settles_null supplied place random json success
    rw [TypeSystem.field, again] at declared
    obtain ⟨name, aliasName, arguments, selection⟩ := selected
    cases declaredHere : Ordered.get? definitions name with
    | none => simp [declaredHere] at declared
    | some other =>
      obtain rfl : other = definition := by simpa [declaredHere] using declared
      rw [member, if_neg named, declaredHere]
      dsimp only
      rw [Option.bind_some, found]
      exact field_of_settles settles path

theorem yields_membersSettle (keeps : mocks.rules.KeepsBuiltIns)
    (spares : mocks.rules.SparesLeaves schema) (selection : List FieldSelection) :
    ∀ (parent : String) (definitions : Ordered String FieldDef)
      (provided : Option (Ordered String Json)) (path : List PathSegment),
      FieldSelection.DistinctKeys selection → FieldSelection.Unaliased selection →
        schema.fieldsOf parent = .ok definitions →
        Yields (MembersSettle schema mocks selection parent)
          (fields schema mocks selection [] parent definitions provided path) := by
  induction selection using FieldSelection.selection_induction with
  | nil =>
    intro parent definitions provided path _ _ _
    exact yields_value ⟨rfl, fun _ _ _ _ _ => rfl⟩
  | cons name aliasName arguments selection rest ihBelow ihRest =>
    intro parent definitions provided path distinct unaliased known
    have nodup := distinct.nodup
    obtain ⟨-, distinctBelow, distinctRest⟩ := distinct
    obtain ⟨key, unaliasedBelow, unaliasedRest⟩ := unaliased
    have head :=
      yields_memberSettles keeps spares ⟨name, aliasName, arguments, selection⟩ known
        (fun object objectFields objectKnown provided path random members success =>
          (ihBelow object objectFields provided path distinctBelow unaliasedBelow objectKnown random
              members success).fieldsSettle distinctBelow.nodup) provided
    rw [fields_cons schema mocks parent definitions provided path nodup]
    refine (head _).andThen fun json settlesHead => ?_
    refine (ihRest parent definitions provided path distinctRest unaliasedRest known).andThen
      fun members tail => ?_
    refine yields_value ⟨?_, ?_⟩
    · rw [Ordered.keys_cons, tail.keys, List.map_cons]
    -- all members are supplied to the rest as well, so that its fact is about more than its own
    -- members
    · intro definitions again provided path supplied
      obtain ⟨here, others⟩ := List.forall_mem_cons.mp supplied
      rw [fields_cons schema mocks parent definitions (some provided) path nodup,
        settlesHead definitions again provided _ (key ▸ here), value_andThen,
        tail.settles definitions again provided path others, value_andThen]

end Completion

namespace Run

variable {σ : Type}

/-- The value of the only root field in a response: the name of the root type, or what the field was
completed to. -/
theorem origin_of_single {run : Run} {engine : Engine σ} {field : FieldSelection}
    {world after : World σ} {response : Response} {key : String} {json : Json}
    (fresh : run.data = []) (finished : run.finish engine [field] world = (response, after))
    (data : response.data = some (.object [(key, json)])) :
    field.responseKey = key ∧
      (field.name = "__typename" ∧ json = .string run.root ∨
        field.name ≠ "__typename" ∧
          ∃ definition source random, run.schema.field run.root field.name = .ok definition ∧
            (run.complete engine.mocks field definition source random).value = some json) := by
  have only : ∀ {value : Json},
      some (Json.object (Ordered.insert run.data field.responseKey value)) =
          some (.object [(key, json)]) → field.responseKey = key ∧ value = json := by
    intro value same
    rw [fresh] at same
    cases same
    exact ⟨rfl, rfl⟩
  rw [finish] at finished
  rcases run.step_cases engine field world with ⟨isTypename, typename⟩ | ⟨named,
    ⟨error, -, skipped⟩ | ⟨definition, source, met, done, declared, -, completed,
      ⟨value, reached, passes⟩ | ⟨-, ended⟩⟩⟩
  · rw [typename] at finished
    cases finished
    obtain ⟨underKey, rfl⟩ := only data
    exact ⟨underKey, Or.inl ⟨isTypename, rfl⟩⟩
  · rw [skipped] at finished
    cases finished
    rw [response, fresh] at data
    cases data
  · rw [passes] at finished
    cases finished
    obtain ⟨underKey, rfl⟩ := only data
    exact ⟨underKey,
      Or.inr ⟨named, definition, source, met.random, declared, by rw [completed, reached]⟩⟩
  · rw [ended] at finished
    cases finished
    cases data

/-- Whatever the source of a root field gives, the value that it is completed to is settled. -/
theorem yields_complete_settled {mocks : Mocks} (keeps : mocks.rules.KeepsBuiltIns) (run : Run)
    (spares : mocks.rules.SparesLeaves run.schema) (field : FieldSelection) (definition : FieldDef)
    (distinct : FieldSelection.DistinctBelow field)
    (unaliased : FieldSelection.UnaliasedBelow field)
    (source : Option (Except ResolutionError Json)) :
    Completion.Yields
      (Completer.ofSelection run.schema mocks (.ofField run.root field.name) field.selection
        definition.type).Settles (run.complete mocks field definition source) := by
  have distinct : FieldSelection.DistinctKeys field.selection := by cases field; exact distinct
  have unaliased : FieldSelection.Unaliased field.selection := by cases field; exact unaliased
  refine yields_complete (Completer.yields_settled keeps spares ?_ _) Completer.settles_null source
  intro name fields known provided path random members success
  exact (Completion.yields_membersSettle keeps spares field.selection name fields provided path
      distinct unaliased known random members success).fieldsSettle distinct.nodup

/-- A settled value that is supplied for the only root field is all that a response has. -/
theorem finish_of_settles {run : Run} {engine : Engine σ} {field : FieldSelection}
    {definition : FieldDef} {json : Json} (named : field.name ≠ "__typename")
    (declared : run.schema.field run.root field.name = .ok definition)
    (settles : (Completer.ofSelection run.schema engine.mocks (.ofField run.root field.name)
        field.selection definition.type).Settles json) (supplied : run.payload = some json)
    (world : World σ) :
    run.finish engine [field] world =
      (.executed (.object (Ordered.insert run.data field.responseKey json))
        (run.failures.map Failure.fieldError), world) := by
  have sourced : run.source engine.handlers field world = (some (.ok json), world) := by
    rw [source, supplied]
  have completed : run.complete engine.mocks field definition (some (.ok json)) =
      Completion.value json := by
    rw [complete]
    exact Completion.field_of_settles settles _
  rw [finish, step, if_neg named, declared]
  dsimp only
  rw [sourced, completed]
  simp [Completion.value, finish, response]

end Run

/-- An event with the value that an earlier response has for the only root field gives this value
again, and no errors, whatever the generator draws next. -/
theorem Engine.executeEvent_again {σ : Type} (engine : Engine σ) (operation : Operation)
    (payload : Json) (world after : World σ) (response : Response) (field : FieldSelection)
    (json : Json) (keeps : engine.mocks.rules.KeepsBuiltIns)
    (spares : engine.mocks.rules.SparesLeaves engine.schema)
    (single : operation.selection = [field])
    (unaliased : FieldSelection.Unaliased operation.selection)
    (distinct : FieldSelection.DistinctKeys operation.selection)
    (executed : engine.executeEvent operation payload world = (.ok response, after))
    (data : response.data = some (.object [(field.name, json)])) (other : World σ) :
    engine.executeEvent operation json other =
      (.ok (.executed (.object [(field.name, json)]) []), other) := by
  obtain ⟨root, known, valid, ⟨error, -, rfl, -⟩ | ⟨seed, seeded, finished⟩⟩ := run_cases executed
  · cases data
  rw [executeEvent, run_of_started (start_of_seeded known valid seeded (some json))]
  rw [single] at finished unaliased distinct ⊢
  obtain ⟨-, unaliasedBelow, -⟩ := unaliased
  obtain ⟨-, distinctBelow, -⟩ := distinct
  obtain ⟨key, ⟨isTypename, rfl⟩ | ⟨named, definition, source, random, declared, completed⟩⟩ :=
    Run.origin_of_single rfl finished data
  · rw [Run.finish, Run.step, if_pos isTypename]
    simp [Run.finish, Run.response, key, Ordered.insert]
  · have settles :
        (Completer.ofSelection engine.schema engine.mocks (.ofField root field.name) field.selection
            definition.type).Settles json :=
      Run.yields_complete_settled keeps
        ⟨engine.schema, root, seed, operation.context, some payload, [], []⟩ spares field definition
        distinctBelow unaliasedBelow source random json completed
    have declaredAgain : engine.schema.field root field.name = .ok definition := declared
    have again :
        (⟨engine.schema, root, seed, operation.context, some json, [], []⟩ : Run).finish engine
            [field] other = (.executed (.object [(field.responseKey, json)]) [], other) :=
      Run.finish_of_settles named declaredAgain settles rfl other
    rw [again, key]

namespace Cabin

/-- A lift with an identifier, chairs, and wind, which is a scalar of the schema's own. -/
def schema : TypeSystem where
  query := "Query"
  mutation := none
  subscription := none
  types :=
    [("Query", .object "Query" none [("lift", ⟨"lift", none, .named "Lift", []⟩)]),
      ("Lift", .object "Lift" none [("id", ⟨"id", none, .nonNull (.named "ID"), []⟩),
        ("name", ⟨"name", none, .named "String", []⟩), ("wind", ⟨"wind", none, .named "Wind", []⟩),
        ("chairs", ⟨"chairs", none, .list (.named "Int"), []⟩),
        ("chair", ⟨"chair", none, .named "Chair", []⟩)]),
      ("Chair", .object "Chair" none [("seats", ⟨"seats", none, .named "Int", []⟩),
        ("name", ⟨"name", none, .named "String", []⟩)]), ("ID", .scalar "ID" none),
      ("String", .scalar "String" none), ("Int", .scalar "Int" none), ("Wind", .scalar "Wind" none)]
  directives := []

/-- The wind always comes from one side, and the seats of a chair are not known. -/
def rules : MockRules :=
  (MockRules.standard.withType "Wind" (.constant (.string "west"))).withField "Chair" "seats"
    (.value fun _ => .error (.custom "closed"))

def engine : Engine Unit := ⟨schema, ⟨rules, .standard⟩, []⟩

def world : World Unit := ⟨.ofSeed 0, (), .new⟩

theorem spares : rules.SparesLeaves schema := by
  intro name type produce found rule
  have member := Ordered.mem_of_get? found
  simp only [schema, List.mem_cons, List.not_mem_nil, or_false, Prod.mk.injEq] at member
  rcases member with ⟨-, rfl⟩ | ⟨-, rfl⟩ | ⟨-, rfl⟩ | ⟨-, rfl⟩ | ⟨-, rfl⟩ | ⟨-, rfl⟩ | ⟨-, rfl⟩
  · exact Or.inl ⟨_, _, _, rfl⟩
  · exact Or.inl ⟨_, _, _, rfl⟩
  · exact Or.inl ⟨_, _, _, rfl⟩
  · cases rule
  · cases rule
  · cases rule
  · exact Or.inr ⟨_, _, rfl, by decide⟩

def lift : FieldSelection :=
  ⟨"lift", none, [], [⟨"id", none, [], []⟩, ⟨"name", none, [], []⟩, ⟨"wind", none, [], []⟩,
    ⟨"chairs", none, [], []⟩]⟩

def operation : Operation := ⟨.query, none, [lift], []⟩

/-- A number for an identifier, one that is no text, and a chair that is no number. -/
def payload : Json :=
  .object [("id", .ofNat 5), ("name", .ofNat 7), ("chairs", .array [.ofNat 1, .string "x"])]

def settled : Json :=
  .object [("id", .string "5"), ("name", .null), ("wind", .string "west"),
    ("chairs", .array [.ofNat 1, .null])]

def errors : List FieldError :=
  [⟨"Expected a value of type String, found 7", some [.field "lift", .field "name"], none⟩,
    ⟨"Expected a value of type Int, found \"x\"", some [.field "lift", .field "chairs", .index 1],
      none⟩]

theorem executeEvent_again_lift :
    rules.KeepsBuiltIns ∧ rules.SparesLeaves schema ∧ operation.selection = [lift] ∧
      FieldSelection.Unaliased operation.selection ∧
      FieldSelection.DistinctKeys operation.selection ∧
      engine.executeEvent operation payload world =
        (.ok (.executed (.object [("lift", settled)]) errors), world) ∧
      engine.executeEvent operation settled world =
        (.ok (.executed (.object [("lift", settled)]) []), world) := by
  have keeps : rules.KeepsBuiltIns := fun _ _ _ found => found
  have unaliased : FieldSelection.Unaliased operation.selection :=
    ⟨rfl, ⟨rfl, trivial, rfl, trivial, rfl, trivial, rfl, trivial, trivial⟩, trivial⟩
  have distinct : FieldSelection.DistinctKeys operation.selection := by decide
  have first : engine.executeEvent operation payload world =
      (.ok (.executed (.object [("lift", settled)]) errors), world) := rfl
  exact ⟨keeps, spares, rfl, unaliased, distinct, first,
    engine.executeEvent_again operation payload world world _ lift settled keeps spares rfl
      unaliased distinct first rfl world⟩

/-- A chair that is selected twice: the value of the second one replaces that of the first. -/
def twice : FieldSelection :=
  ⟨"lift", none, [],
    [⟨"chair", none, [], [⟨"seats", none, [], []⟩]⟩, ⟨"chair", none, [], [⟨"name", none, [], []⟩]⟩]⟩

def named : Json := .object [("chair", .object [("name", .string "Gad")])]

/-- The value that is left has no seats, so that they are asked for again. -/
theorem executeEvent_again_repeated :
    rules.KeepsBuiltIns ∧ rules.SparesLeaves schema ∧ FieldSelection.Unaliased [twice] ∧
      engine.executeEvent ⟨.query, none, [twice], []⟩
          (.object [("chair", .object [("seats", .ofNat 4), ("name", .string "Gad")])]) world =
        (.ok (.executed (.object [("lift", named)]) []), world) ∧
      engine.executeEvent ⟨.query, none, [twice], []⟩ named world =
        (.ok (.executed (.object [("lift", named)])
          [⟨"closed", some [.field "lift", .field "chair", .field "seats"], none⟩]), world) :=
  ⟨fun _ _ _ found => found, spares,
    ⟨rfl, ⟨rfl, ⟨rfl, trivial, trivial⟩, rfl, ⟨rfl, trivial, trivial⟩, trivial⟩, trivial⟩, rfl, rfl⟩

end Cabin

end MockGraph
