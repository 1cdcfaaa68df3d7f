import MockGraph.Proofs.Execution.Places
set_option autoImplicit false

namespace MockGraph

mutual

/-- What a value is completed from gives null for the place that a path leads to below it. The
arguments are those of the completion: the position, the type and the selection, what is supplied,
the path of the value, and the generator. -/
inductive GivesNull (schema : TypeSystem) (mocks : Mocks) :
    Position → TypeRef → List FieldSelection → Option Json → List PathSegment → Random →
      List PathSegment → Prop
  | given {position type selection path random} :
      GivesNull schema mocks position type selection (some .null) path random []
  | nonNull {position type selection supplied path random below} :
      GivesNull schema mocks position type selection supplied path random below →
      GivesNull schema mocks position (.nonNull type) selection supplied path random below
  /-- A scalar of a schema's own may have parts that are null. -/
  | leaf {position name selection value path random below} :
      (∀ fields, schema.fieldsOf name ≠ .ok fields) → value.at? below = some .null →
      GivesNull schema mocks position (.named name) selection (some value) path random below
  /-- The rule of a scalar or an enum, or the formatter of a scalar. -/
  | drawn {position name type selection value path random below} :
      Ordered.get? schema.types name = some type → (∀ fields, schema.fieldsOf name ≠ .ok fields) →
      (mocks.drawLeaf position type random).1 = .ok value → value.at? below = some .null →
      GivesNull schema mocks position (.named name) selection none path random below
  | array {position item selection items path random below} :
      ItemGivesNull schema mocks position item selection path (List.map some items) 0 random below →
      GivesNull schema mocks position (.list item) selection (some (.array items)) path random below
  | mockedArray {position item selection path random after length below} :
      mocks.drawLength position item.namedType random = (length, after) →
      ItemGivesNull schema mocks position item selection path (List.replicate length none) 0 after
        below → GivesNull schema mocks position (.list item) selection none path random below
  | object {position name fields selection members path random below} :
      schema.fieldsOf name = .ok fields →
      MemberGivesNull schema mocks name fields (some members) path selection random below →
      GivesNull schema mocks position (.named name) selection (some (.object members)) path random
        below
  /-- The rule of the object's type supplies its members. -/
  | seededObject {position name fields selection members path random below} :
      schema.fieldsOf name = .ok fields → mocks.objectSeed? position name = some (.ok members) →
      MemberGivesNull schema mocks name fields (some members) path selection random below →
      GivesNull schema mocks position (.named name) selection none path random below
  | mockedObject {position name fields selection path random below} :
      schema.fieldsOf name = .ok fields → mocks.objectSeed? position name = none →
      MemberGivesNull schema mocks name fields none path selection random below →
      GivesNull schema mocks position (.named name) selection none path random below

/-- One of the items from an index on gives null. Each is completed with the generator that those
before it leave. -/
inductive ItemGivesNull (schema : TypeSystem) (mocks : Mocks) :
    Position → TypeRef → List FieldSelection → List PathSegment → List (Option Json) → Nat →
      Random → List PathSegment → Prop
  | here {position item selection path supplied rest index random below} :
      GivesNull schema mocks position item selection supplied (path ++ [.index index]) random
        below →
      ItemGivesNull schema mocks position item selection path (supplied :: rest) index random
        (.index index :: below)
  | later {position item selection path supplied rest index random below} :
      ItemGivesNull schema mocks position item selection path rest (index + 1)
        (Completer.ofSelection schema mocks position selection item supplied
          (path ++ [.index index]) random).random below →
      ItemGivesNull schema mocks position item selection path (supplied :: rest) index random below

/-- The value of a field gives null. What is not supplied may be given by the rule of the field. -/
inductive FieldGivesNull (schema : TypeSystem) (mocks : Mocks) :
    Position → TypeRef → List FieldSelection → Option Json → List PathSegment → Random →
      List PathSegment → Prop
  | supplied {position type selection value path random below} :
      GivesNull schema mocks position type selection (some value) path random below →
      FieldGivesNull schema mocks position type selection (some value) path random below
  | ruled {position type selection value path random below} :
      mocks.fieldValue? position = some (.ok value) →
      GivesNull schema mocks position type selection (some value) path random below →
      FieldGivesNull schema mocks position type selection none path random below
  | mocked {position type selection path random below} :
      mocks.fieldValue? position = none →
      GivesNull schema mocks position type selection none path random below →
      FieldGivesNull schema mocks position type selection none path random below

/-- One of the members that are selected on an object gives null. -/
inductive MemberGivesNull (schema : TypeSystem) (mocks : Mocks) :
    String → Ordered String FieldDef → Option (Ordered String Json) → List PathSegment →
      List FieldSelection → Random → List PathSegment → Prop
  | here {parent fields provided path field rest definition random below} :
      field.name ≠ "__typename" → Ordered.get? fields field.name = some definition →
      FieldGivesNull schema mocks (.ofField parent field.name) definition.type field.selection
        (Option.bind provided fun members => Ordered.get? members field.name)
        (path ++ [.field field.responseKey]) random below →
      MemberGivesNull schema mocks parent fields provided path (field :: rest) random
        (.field field.responseKey :: below)
  | later {parent fields provided path field rest random below} :
      MemberGivesNull schema mocks parent fields provided path rest
        (Completion.member schema mocks field parent fields provided
          (path ++ [.field field.responseKey]) random).random below →
      MemberGivesNull schema mocks parent fields provided path (field :: rest) random below

end

/-- One of the root fields gives null. Each meets the run and the world that those before it
leave. -/
inductive Run.GivesNull {σ : Type} (engine : Engine σ) :
    List FieldSelection → Run → World σ → List PathSegment → Prop
  | here {field rest run world met definition supplied below} : field.name ≠ "__typename" →
      run.schema.field run.root field.name = .ok definition →
      run.source engine.handlers field world = (Option.map Except.ok supplied, met) →
      FieldGivesNull run.schema engine.mocks (.ofField run.root field.name) definition.type
        field.selection supplied [.field field.responseKey] met.random below →
      Run.GivesNull engine (field :: rest) run world (.field field.responseKey :: below)
  | later {field rest run next world met below} :
      run.step engine field world = (.running next, met) →
      Run.GivesNull engine rest next met below →
      Run.GivesNull engine (field :: rest) run world below

theorem Run.ne_nil_of_givesNull {σ : Type} {engine : Engine σ} {selection : List FieldSelection}
    {run : Run} {world : World σ} {path : List PathSegment}
    (gives : Run.GivesNull engine selection run world path) : path ≠ [] := by
  induction gives with
  | here => exact List.cons_ne_nil _ _
  | later _ _ ih => exact ih

/-- The source of some value of an operation gives null for the place that a path leads to. -/
def Engine.GivesNull {σ : Type} (engine : Engine σ) (operation : Operation) (payload : Option Json)
    (world : World σ) (path : List PathSegment) : Prop :=
  ∃ root seed, engine.schema.root? operation.kind = some root ∧
    engine.mocks.objectSeed? .root root = Option.map Except.ok seed ∧
    Run.GivesNull engine operation.selection
      ⟨engine.schema, root, seed, operation.context, payload, [], []⟩ world path

end MockGraph
