import MockGraph.Proofs.Execution.Shape
set_option autoImplicit false

namespace MockGraph

/-- A value has all that is selected on the objects in it. One that is not of the kind of its type
lacks nothing: it is an error, whatever it has. -/
def TypeSystem.coversType (schema : TypeSystem)
    (coversMembers : String → Ordered String Json → Bool) : TypeRef → Json → Bool
  | .nonNull inner, value => coversType schema coversMembers inner value
  | .list item, .array elements => elements.all (coversType schema coversMembers item)
  | .named name, .object members =>
    match Ordered.get? schema.types name with
    | some (.object _ _ _) => coversMembers name members
    | _ => true
  | _, _ => true

mutual

/-- A value is supplied for a selected field of a type, and has all that is selected below. The name
of the type needs no value. -/
def TypeSystem.coversField (schema : TypeSystem) : FieldSelection → String → Option Json → Bool
  | ⟨name, _, _, selection⟩, parent, supplied =>
    if name = "__typename" then true
    else
      match supplied, schema.field parent name with
      | none, _ => false
      | some value, .ok definition =>
        schema.coversType (schema.coversSelection selection) definition.type value
      | some _, .error _ => true

/-- Members of an object of a type have a value for every selected field. -/
def TypeSystem.coversSelection (schema : TypeSystem) :
    List FieldSelection → String → Ordered String Json → Bool
  | [], _, _ => true
  | field :: rest, parent, members =>
    schema.coversField field parent (Ordered.get? members field.name) &&
      schema.coversSelection rest parent members

end

namespace Completion

variable {α β : Type}

/-- Mocks do not matter to a completion: with any rules it comes to the same value with the same
errors, and it draws nothing. -/
def Foregone (completion : Mocks → Completion α) : Prop :=
  ∃ value failures, ∀ mocks random, completion mocks random = ⟨value, failures, random⟩

theorem foregone_value (a : α) : Foregone fun _ => value a := ⟨some a, [], fun _ _ => rfl⟩

theorem foregone_fail (error : ResolutionError) (path : List PathSegment) :
    Foregone fun _ => (fail error path : Completion α) :=
  ⟨none, [⟨error, path⟩], fun _ _ => rfl⟩

theorem foregone_ofResult (path : List PathSegment) (result : Except ResolutionError α) :
    Foregone fun _ => ofResult path result := by
  cases result with
  | ok a => exact foregone_value a
  | error error => exact foregone_fail error path

theorem Foregone.andThen {first : Mocks → Completion α} {next : Mocks → α → Completion β}
    (head : Foregone first) (tail : ∀ a, Foregone fun mocks => next mocks a) :
    Foregone fun mocks => (first mocks).andThen (next mocks) := by
  obtain ⟨reached, failures, settled⟩ := head
  cases reached with
  | none => exact ⟨none, failures, fun mocks random => by simp only [Completion.andThen, settled]⟩
  | some a =>
    obtain ⟨last, others, settledNext⟩ := tail a
    exact ⟨last, failures ++ others, fun mocks random =>
      by simp only [Completion.andThen, settled, settledNext]⟩

theorem Foregone.absorb {completion : Mocks → Completion Json} (inner : Foregone completion)
    (type : TypeRef) : Foregone fun mocks => absorb type (completion mocks) := by
  obtain ⟨reached, failures, settled⟩ := inner
  refine ⟨reached.or (if type.isNonNull then none else some .null), failures,
    fun mocks random => ?_⟩
  simp only [absorb_eq, settled]

end Completion

namespace Completer

open Completion

variable {schema : TypeSystem} {position : Position} {complete : Mocks → Completer} {value : Json}
  {path : List PathSegment}

theorem foregone_orNull (inner : Foregone fun mocks => complete mocks (some value) path) :
    Foregone fun mocks => orNull (complete mocks) (some value) path := by
  cases value with
  | null => exact foregone_value Json.null
  | bool | number | string | array | object => exact inner

theorem foregone_nonNull (inner : Foregone fun mocks => complete mocks (some value) path) :
    Foregone fun mocks => nonNull position (complete mocks) (some value) path := by
  have present : Foregone fun mocks => (complete mocks (some value) path).andThen fun value =>
      if value.isNull then fail (.nullForNonNull position.text) path
      else Completion.value value := by
    refine inner.andThen fun value => ?_
    cases value.isNull with
    | true => exact foregone_fail _ _
    | false => exact foregone_value value
  cases value with
  | null => exact foregone_fail _ _
  | bool | number | string | array | object => exact present

theorem foregone_items {type : TypeRef} (supplied : List Json)
    (inner : ∀ element ∈ supplied, ∀ path, Foregone fun mocks => complete mocks (some element) path)
    (index : Nat) :
    Foregone fun mocks => items (complete mocks) type path (supplied.map some) index := by
  induction supplied generalizing index with
  | nil => exact foregone_value []
  | cons first rest ih =>
    obtain ⟨head, others⟩ := List.forall_mem_cons.mp inner
    refine ((head _).absorb type).andThen fun completed => ?_
    exact (ih others (index + 1)).andThen fun values => foregone_value (completed :: values)

theorem foregone_list {item : TypeRef}
    (inner : ∀ elements, value = .array elements → ∀ element ∈ elements, ∀ path,
      Foregone fun mocks => complete mocks (some element) path) :
    Foregone fun mocks => list mocks position item (complete mocks) (some value) path := by
  cases value with
  | array elements =>
    exact (foregone_items elements (inner elements rfl) 0).andThen fun values =>
      foregone_value (Json.array values)
  | null | bool | number | string | object => exact foregone_fail _ _

theorem foregone_object {name : String} {fields : Ordered String FieldDef}
    {complete : Mocks → FieldsCompleter}
    (inner : ∀ members, value = .object members →
      Foregone fun mocks => complete mocks name fields (some members) path) :
    Foregone fun mocks => object mocks position name fields (complete mocks) (some value) path := by
  cases value with
  | object members =>
    exact (inner members rfl).andThen fun completed => foregone_value (Json.object completed)
  | null | bool | number | string | array => exact foregone_fail _ _

theorem foregone_leaf (type : TypeDef) :
    Foregone fun mocks => leaf mocks position type (some value) path :=
  foregone_ofResult path (type.coerce value)

/-- A value that has all that is selected is completed without mocks, if the members of objects in
it are. -/
theorem foregone_ofType {complete : Mocks → FieldsCompleter}
    {coversMembers : String → Ordered String Json → Bool}
    (members : ∀ name fields, schema.fieldsOf name = .ok fields →
      ∀ provided, coversMembers name provided = true →
        ∀ path, Foregone fun mocks => complete mocks name fields (some provided) path)
    (type : TypeRef) :
    ∀ value path, schema.coversType coversMembers type value = true →
      Foregone fun mocks =>
        ofType schema mocks position (complete mocks) type (some value) path := by
  induction type with
  | named name =>
    intro value path covered
    refine foregone_orNull ?_
    unfold named
    cases found : Ordered.get? schema.types name with
    | none => exact foregone_fail _ _
    | some type =>
      cases type with
      | object typeName description fields =>
        refine foregone_object fun provided same => ?_
        subst same
        have known : schema.fieldsOf name = .ok fields := by
          simp [TypeSystem.fieldsOf, TypeSystem.resolve, found]
        simp only [TypeSystem.coversType, found] at covered
        exact members name fields known provided covered path
      | scalar | enum | input => exact foregone_leaf _
  | list item ih =>
    intro value path covered
    refine foregone_orNull (foregone_list fun elements same element member path => ?_)
    subst same
    exact ih element path (List.all_eq_true.mp covered element member)
  | nonNull inner ih =>
    intro value path covered
    exact foregone_nonNull (ih value path covered)

end Completer

namespace Completion

variable {schema : TypeSystem}

/-- A field for which a value is supplied that has all that is selected is completed without
mocks. -/
theorem foregone_field {parent name : String} {type : TypeRef} {complete : Mocks → FieldsCompleter}
    {coversMembers : String → Ordered String Json → Bool}
    (members : ∀ name fields, schema.fieldsOf name = .ok fields →
      ∀ provided, coversMembers name provided = true →
        ∀ path, Foregone fun mocks => complete mocks name fields (some provided) path)
    {value : Json} (covered : schema.coversType coversMembers type value = true)
    (path : List PathSegment) :
    Foregone fun mocks => field schema mocks parent name type (complete mocks) (some value) path :=
  (Completer.foregone_ofType members type value path covered).absorb type

/-- Selected fields that all have a value are completed without mocks. -/
theorem foregone_fields (selection : List FieldSelection) :
    ∀ (name : String) (definitions : Ordered String FieldDef),
      schema.fieldsOf name = .ok definitions →
        ∀ provided, schema.coversSelection selection name provided = true →
          ∀ path done, Foregone fun mocks =>
            fields schema mocks selection done name definitions (some provided) path := by
  induction selection using FieldSelection.selection_induction with
  | nil => exact fun _ _ _ _ _ _ done => foregone_value done
  | cons fieldName aliasName arguments selection rest below others =>
    intro parent definitions known provided covered path done
    obtain ⟨headCovered, restCovered⟩ := (Bool.and_eq_true_iff).mp covered
    refine Foregone.andThen ?_ fun value =>
      others parent definitions known provided restCovered path _
    unfold member
    by_cases isTypename : fieldName = "__typename"
    · simp only [if_pos isTypename]
      exact foregone_value _
    · simp only [if_neg isTypename]
      cases found : Ordered.get? definitions fieldName with
      | none => exact foregone_fail _ _
      | some definition =>
        have declared : schema.field parent fieldName = .ok definition := by
          simp [TypeSystem.field, known, found]
        simp only [TypeSystem.coversField, if_neg isTypename, declared] at headCovered
        cases supplied : Ordered.get? provided fieldName with
        | none => simp [supplied] at headCovered
        | some value =>
          simp only [supplied] at headCovered
          simp only [Option.bind_some, supplied]
          exact foregone_field (fun name fields known provided covered path =>
            below name fields known provided covered path []) headCovered _

end Completion

namespace Run

variable {σ : Type}

/-- A root field takes the payload. If the payload has all that is selected on it, the run goes on
or ends in the same way with any mocks and any handlers, and changes nothing. -/
theorem step_of_covered {run : Run} {field : FieldSelection} {payload : Json}
    (given : run.payload = some payload)
    (covered : run.schema.coversField field run.root (some payload) = true) :
    ∃ progress, ∀ (σ : Type) (engine : Engine σ) (world : World σ),
      run.step engine field world = (progress, world) := by
  by_cases isTypename : field.name = "__typename"
  · refine
      ⟨.running { run with data := Ordered.insert run.data field.responseKey (.string run.root) },
        fun σ engine world => ?_⟩
    unfold step
    rw [if_pos isTypename]
  · cases declared : run.schema.field run.root field.name with
    | error error =>
      refine ⟨.running run, fun σ engine world => ?_⟩
      unfold step
      simp only [if_neg isTypename, declared]
    | ok definition =>
      have typeCovered :
          run.schema.coversType (run.schema.coversSelection field.selection) definition.type
            payload = true := by
        cases field
        simpa only [TypeSystem.coversField, if_neg isTypename, declared] using covered
      have foregone :
          Completion.Foregone fun mocks =>
            Completion.field run.schema mocks run.root field.name definition.type
              (Completion.fields run.schema mocks field.selection []) (some payload)
              [.field field.responseKey] := by
        apply Completion.foregone_field _ typeCovered
        intro name fields known provided covered path
        exact Completion.foregone_fields field.selection name fields known provided covered path []
      obtain ⟨reached, failures, settled⟩ := foregone
      let next := { run with payload := none, failures := run.failures ++ failures }
      refine ⟨match reached with
        | some value =>
          .running { next with data := Ordered.insert run.data field.responseKey value }
        | none => .finished next.nullResponse, fun σ engine world => ?_⟩
      unfold step
      simp only [if_neg isTypename, declared, source, given, complete, settled]
      cases reached <;> rfl

/-- A run whose only root field the payload covers ends in the same way with any mocks and any
handlers. -/
theorem finish_of_covered (run : Run) {field : FieldSelection} {payload : Json}
    (given : run.payload = some payload)
    (covered : run.schema.coversField field run.root (some payload) = true) :
    ∃ response, ∀ (σ : Type) (engine : Engine σ) (world : World σ),
      run.finish engine [field] world = (response, world) := by
  obtain ⟨progress, stepped⟩ := step_of_covered given covered
  cases progress with
  | running next => exact ⟨next.response, fun σ engine world => by simp only [finish, stepped]⟩
  | finished response => exact ⟨response, fun σ engine world => by simp only [finish, stepped]⟩

end Run

/-- The rule of a type that gives no value to it gives no members to its objects. -/
theorem Mocks.objectSeed?_of_unruled {mocks : Mocks} {type : String}
    (unruled : ((mocks.rules.ruleForType? type).all fun rule => !rule.isValue) = true)
    (position : Position) : mocks.objectSeed? position type = none := by
  unfold objectSeed? typeValue?
  cases ruled : mocks.rules.ruleForType? type with
  | none => rfl
  | some rule =>
    cases rule with
    | value produce => simp [ruled, MockRule.isValue] at unruled
    | listSize range => rfl

namespace Resort

def subscriptions : TypeSystem :=
  { schema with
    subscription := some "Subscription"
    types :=
      schema.types ++
        [("Subscription",
            .object "Subscription" none [("resort", ⟨"resort", none, .named "Resort", []⟩)])] }

/-- Mocks that give other names, lists of no item and values of another kind, and a handler of the
subscription. -/
def inventive : Engine Nat :=
  ⟨subscriptions,
    ⟨((MockRules.standard.withField "Lift" "name" (.constant (.string "Gad"))).withType "Resort"
        (.constant (.bool true))).withField "Subscription" "resort" (.constant .null), .exactly 0⟩,
    Handlers.register [] "Subscription" "resort"
      ⟨none, fun _ _ calls => ⟨.ok .null, calls + 1, []⟩⟩⟩

def plain : Engine Unit := ⟨subscriptions, ⟨.standard, .standard⟩, []⟩

def watch : Operation :=
  ⟨.subscription, none, [⟨"resort", none, [],
      [⟨"name", none, [], []⟩,
        ⟨"lifts", none, [], [⟨"name", none, [], []⟩, ⟨"__typename", none, [], []⟩]⟩]⟩], []⟩

/-- A lift with a name, one whose name is null, one that is a number, and a name of the resort that
is none. -/
def news : Json :=
  .object
    [("lifts",
      .array [.object [("name", .string "Peruvian")], .object [("name", .null)], .ofNat 3]),
      ("name", .bool false)]

def bulletin : Response :=
  .executed (.object [("resort",
      .object [("name", .null), ("lifts",
        .array [.object [("name", .string "Peruvian"), ("__typename", .string "Lift")], .null,
          .null])])])
    [⟨"Expected a value of type String, found false", some [.field "resort", .field "name"], none⟩,
      ⟨"Cannot return null for non-nullable field Lift.name.",
        some [.field "resort", .field "lifts", .index 1, .field "name"], none⟩,
      ⟨"Expected a value of type Lift, found 3", some [.field "resort", .field "lifts", .index 2],
        none⟩]

end Resort

/-- A payload that has all that a subscription with one root field selects is delivered with the
same data and the same errors by any two servers of one schema, whatever their rules, formatters,
sizes of lists, generators and handlers, if no rule gives the subscription type a value. Nothing is
drawn, and no handler is called. -/
theorem Engine.executeEvent_of_covered {σ τ : Type} (engine : Engine σ) (other : Engine τ)
    (sameSchema : other.schema = engine.schema) (operation : Operation) (field : FieldSelection)
    (single : operation.selection = [field]) (payload : Json)
    (rooted : ∀ root, engine.schema.root? operation.kind = some root →
      engine.schema.coversField field root (some payload) = true ∧
        ∀ mocks ∈ [engine.mocks, other.mocks],
          ((mocks.rules.ruleForType? root).all fun rule => !rule.isValue) = true)
    (world : World σ) (otherWorld : World τ) :
    ∃ outcome, engine.executeEvent operation payload world = (outcome, world) ∧
      other.executeEvent operation payload otherWorld = (outcome, otherWorld) := by
  unfold executeEvent run start
  rw [sameSchema, single]
  cases found : engine.schema.root? operation.kind with
  | none => exact ⟨_, rfl, rfl⟩
  | some root =>
    obtain ⟨covered, unruled⟩ := rooted root found
    have seedless : ∀ mocks ∈ [engine.mocks, other.mocks], mocks.objectSeed? .root root = none :=
      fun mocks member => Mocks.objectSeed?_of_unruled (unruled mocks member) .root
    dsimp only
    cases engine.schema.selectionErrors root [field] with
    | cons error errors => exact ⟨_, rfl, rfl⟩
    | nil =>
      simp only [seedless engine.mocks (by simp), seedless other.mocks (by simp)]
      obtain ⟨response, finished⟩ := Run.finish_of_covered
        ⟨engine.schema, root, none, operation.context, some payload, [], []⟩ rfl covered
      exact ⟨.ok response, by rw [finished], by rw [finished]⟩

theorem Resort.executeEvent_of_covered_news :
    plain.executeEvent watch news world = (.ok bulletin, world) ∧
      ∃ outcome, plain.executeEvent watch news world = (outcome, world) ∧
        inventive.executeEvent watch news ⟨.ofSeed 5, 0, .new⟩ =
          (outcome, ⟨.ofSeed 5, 0, .new⟩) := by
  have rooted : ∀ root, plain.schema.root? watch.kind = some root →
      plain.schema.coversField ⟨"resort", none, [],
          [⟨"name", none, [], []⟩,
            ⟨"lifts", none, [], [⟨"name", none, [], []⟩, ⟨"__typename", none, [], []⟩]⟩]⟩ root
          (some news) = true ∧
        ∀ mocks ∈ [plain.mocks, inventive.mocks],
          ((mocks.rules.ruleForType? root).all fun rule => !rule.isValue) = true := by
    intro root found
    cases found
    exact ⟨by decide, by decide⟩
  exact ⟨rfl, Engine.executeEvent_of_covered plain inventive rfl watch _ rfl news rooted world
    ⟨.ofSeed 5, 0, .new⟩⟩

end MockGraph
