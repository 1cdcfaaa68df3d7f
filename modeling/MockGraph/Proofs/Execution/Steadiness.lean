import MockGraph.Proofs.Execution.Leaves
import MockGraph.Json.Shape
set_option autoImplicit false

namespace MockGraph

namespace Json

theorem shapeItems_eq_map (items : List Json) : shapeItems items = items.map shape := by
  induction items with
  | nil => rfl
  | cons item rest ih => simp only [shapeItems, List.map_cons, ih]

theorem isNull_shape (value : Json) : value.shape.isNull = value.isNull := by
  cases value with
  | number number => cases number <;> rfl
  | null | bool | string | array | object => rfl

theorem shapeMembers_insert (members : Ordered String Json) (key : String) (value : Json) :
    shapeMembers (Ordered.insert members key value) =
      Ordered.insert (shapeMembers members) key value.shape := by
  induction members with
  | nil => rfl
  | cons member rest ih =>
    obtain ⟨name, old⟩ := member
    by_cases same : name = key
    · simp only [Ordered.insert, shapeMembers, if_pos same]
    · simp only [Ordered.insert, shapeMembers, if_neg same, ih]

end Json

namespace Random

-- The pair that a generator gives is taken apart by name: unfolding it would run the generator.

theorem shape_drawInt (random : Random) : random.drawInt.1.shape = .string "<int>" := by
  unfold drawInt
  rcases random.below .w32 201 with ⟨offset, after⟩
  rfl

theorem shape_drawBoolean (random : Random) : random.drawBoolean.1.shape = .string "<bool>" := by
  unfold drawBoolean
  rcases random.next32 with ⟨word, after⟩
  rfl

theorem shape_drawId (random : Random) : random.drawId.1.shape = .string "<string>" := by
  unfold drawId
  rcases random.next64 with ⟨word, after⟩
  rfl

theorem shape_drawDate (random : Random) : random.drawDate.1.shape = .string "<string>" := by
  unfold drawDate
  rcases random.between .w32 730120 741442 with ⟨day, after⟩
  rfl

theorem shape_drawFloatWithin (attempts : Nat) (random : Random) :
    (drawFloatWithin attempts random).1.shape = .string "<float>" := by
  induction attempts generalizing random with
  | zero => rfl
  | succ attempts ih =>
    unfold drawFloatWithin
    dsimp only
    split
    · rfl
    · exact ih _

end Random

namespace MockRules

theorem shape_of_standard {scalar : String} {formatter : Formatter}
    (standard : (scalar, formatter) ∈ standardFormatters) (random random' : Random) :
    (formatter random).1.shape = (formatter random').1.shape := by
  simp only [standardFormatters, List.mem_cons, Prod.mk.injEq, List.not_mem_nil,
    or_false] at standard
  rcases standard with ⟨-, rfl⟩ | ⟨-, rfl⟩ | ⟨-, rfl⟩ | ⟨-, rfl⟩ | ⟨-, rfl⟩ | ⟨-, rfl⟩
  · rw [Random.shape_drawInt, Random.shape_drawInt]
  · rw [Random.drawFloat, Random.drawFloat, Random.shape_drawFloatWithin,
      Random.shape_drawFloatWithin]
  · rfl
  · rw [Random.shape_drawBoolean, Random.shape_drawBoolean]
  · rw [Random.shape_drawId, Random.shape_drawId]
  · rw [Random.shape_drawDate, Random.shape_drawDate]

/-- Scalars are drawn by standard formatters, under whatever names. -/
def DrawsStandard (rules : MockRules) : Prop :=
  ∀ scalar formatter, Ordered.get? rules.formatters scalar = some formatter →
    ∃ standard, (standard, formatter) ∈ standardFormatters

end MockRules

namespace Mocks

/-- Lists of a type at a position have one length only. -/
def FixesLength (mocks : Mocks) (position : Position) (type : String) : Prop :=
  (mocks.sizeOf position type).min = (mocks.sizeOf position type).max

theorem drawLength_of_fixed {mocks : Mocks} {position : Position} {type : String}
    (fixed : mocks.FixesLength position type) (random : Random) :
    (mocks.drawLength position type random).1 = (mocks.sizeOf position type).min := by
  have single : (mocks.sizeOf position type).max + 1 - (mocks.sizeOf position type).min = 1 := by
    rw [← fixed]
    omega
  have offset : (random.below .w64 1).1 < 1 := Random.below_lt (by decide) (by decide) random
  unfold drawLength Random.between
  simp only [single]
  omega

/-- What is drawn for a scalar or an enum is of one kind, or it always fails in one way. -/
theorem drawLeaf_outcome {mocks : Mocks} (standard : mocks.rules.DrawsStandard)
    (position : Position) (type : TypeDef) (random random' : Random) :
    (mocks.drawLeaf position type random).1.map Json.shape =
      (mocks.drawLeaf position type random').1.map Json.shape := by
  unfold drawLeaf
  split
  · rfl
  · cases type with
    | scalar name description =>
      dsimp only
      split
      · rfl
      · rename_i formatter found
        obtain ⟨scalar, known⟩ := standard name formatter found
        exact congrArg Except.ok (MockRules.shape_of_standard known random random')
    | enum name description symbols =>
      cases symbols with
      | nil => rfl
      | cons first rest =>
        dsimp only
        rcases random.below .w32 (rest.length + 1) with ⟨index, after⟩
        rcases random'.below .w32 (rest.length + 1) with ⟨index', after'⟩
        rfl
    | object | input => rfl

end Mocks

namespace Completion

variable {α β : Type} {γ δ : Type}

/-- Two completions come to values with the same view and to the same errors, whatever generators
they start from. -/
def Alike (view : α → β) (one other : Completion α) : Prop :=
  ∀ random random', (one random).value.map view = (other random').value.map view ∧
    (one random).failures = (other random').failures

theorem alike_value {view : α → β} {a a' : α} (same : view a = view a') :
    Alike view (value a) (value a') :=
  fun _ _ => ⟨congrArg some same, rfl⟩

theorem alike_fail (view : α → β) (error : ResolutionError) (path : List PathSegment) :
    Alike view (fail error path) (fail error path) :=
  fun _ _ => ⟨rfl, rfl⟩

theorem alike_ofResult {view : α → β} {one other : Except ResolutionError α}
    (same : one.map view = other.map view) (path : List PathSegment) :
    Alike view (ofResult path one) (ofResult path other) := by
  cases one with
  | ok a =>
    cases other with
    | ok a' => exact alike_value (Except.ok.inj same)
    | error error => cases same
  | error error =>
    cases other with
    | ok a' => cases same
    | error error' =>
      cases same
      exact alike_fail view error path

theorem Alike.andThen {view : α → β} {view' : γ → δ} {one other : Completion α}
    {next next' : α → Completion γ} (head : Alike view one other)
    (tail : ∀ a a', view a = view a' → Alike view' (next a) (next' a')) :
    Alike view' (one.andThen next) (other.andThen next') := by
  intro random random'
  obtain ⟨values, failures⟩ := head random random'
  cases reached : (one random).value with
  | none =>
    have lost : (other random').value = none := by
      rw [reached] at values
      exact Option.map_eq_none_iff.mp values.symm
    rw [andThen_of_none reached, andThen_of_none lost]
    exact ⟨rfl, failures⟩
  | some a =>
    rw [reached] at values
    obtain ⟨a', reached', same⟩ := Option.map_eq_some_iff.mp values.symm
    obtain ⟨last, others⟩ := tail a a' same.symm (one random).random (other random').random
    rw [andThen_of_some reached, andThen_of_some reached']
    exact ⟨last, by rw [failures, others]⟩

theorem Alike.absorb {one other : Completion Json} (inner : Alike Json.shape one other)
    (type : TypeRef) : Alike Json.shape (absorb type one) (absorb type other) := by
  intro random random'
  obtain ⟨values, failures⟩ := inner random random'
  rw [absorb_eq, absorb_eq]
  refine ⟨?_, failures⟩
  cases reached : (one random).value <;> cases reached' : (other random').value <;>
    simp_all

end Completion

namespace Completer

open Completion

variable {schema : TypeSystem} {mocks : Mocks} {position : Position}

/-- The values of a completer have one shape. -/
def Steady (complete : Completer) : Prop :=
  ∀ supplied path, Alike Json.shape (complete supplied path) (complete supplied path)

theorem Steady.orNull {complete : Completer} (inner : Steady complete) :
    Steady (orNull complete) := by
  intro supplied path
  unfold Completer.orNull
  split
  · exact alike_value rfl
  · exact inner _ _

theorem Steady.nonNull {complete : Completer} (inner : Steady complete) :
    Steady (nonNull position complete) := by
  intro supplied path
  unfold Completer.nonNull
  split
  · exact alike_fail _ _ _
  · apply (inner _ path).andThen
    intro value value' same
    have null : value.isNull = value'.isNull := by
      rw [← Json.isNull_shape value, same, Json.isNull_shape value']
    rw [null]
    split
    · exact alike_fail _ _ _
    · exact alike_value same

theorem Steady.items {complete : Completer} (inner : Steady complete) (type : TypeRef)
    (path : List PathSegment) :
    ∀ supplied index, Alike (List.map Json.shape) (items complete type path supplied index)
      (items complete type path supplied index) := by
  intro supplied
  induction supplied with
  | nil => exact fun _ => alike_value rfl
  | cons first rest ih =>
    intro index
    apply ((inner first _).absorb type).andThen
    intro value value' sameFirst
    apply (ih (index + 1)).andThen
    intro others others' sameOthers
    apply alike_value
    rw [List.map_cons, List.map_cons, sameFirst, sameOthers]

theorem Steady.list {complete : Completer} {item : TypeRef} (inner : Steady complete)
    (fixed : mocks.FixesLength position item.namedType) :
    Steady (list mocks position item complete) := by
  have wrapped : ∀ given path, Alike Json.shape
      ((Completer.items complete item path given 0).andThen fun values =>
        Completion.value (Json.array values))
      ((Completer.items complete item path given 0).andThen fun values =>
        Completion.value (Json.array values)) := by
    intro given path
    apply (inner.items item path given 0).andThen
    intro values values' same
    apply alike_value
    simp only [Json.shape, Json.shapeItems_eq_map, same]
  intro supplied path
  unfold Completer.list
  split
  · exact wrapped _ path
  · exact alike_fail _ _ _
  · intro random random'
    have lengths :=
      (Mocks.drawLength_of_fixed fixed random).trans (Mocks.drawLength_of_fixed fixed random').symm
    dsimp only
    rw [lengths]
    exact wrapped _ path _ _

theorem steady_leaf (standard : mocks.rules.DrawsStandard) (type : TypeDef) :
    Steady (leaf mocks position type) := by
  intro supplied path
  cases supplied with
  | some value => exact alike_ofResult rfl path
  | none =>
    intro random random'
    exact alike_ofResult (Mocks.drawLeaf_outcome standard position type random random') path _ _

theorem steady_object {name : String} {fields : Ordered String FieldDef}
    {complete : FieldsCompleter}
    (inner : ∀ provided path, Alike Json.shapeMembers (complete name fields provided path)
      (complete name fields provided path)) :
    Steady (object mocks position name fields complete) := by
  have wrapped : ∀ provided path, Alike Json.shape
      ((complete name fields provided path).andThen fun members =>
        Completion.value (Json.object members))
      ((complete name fields provided path).andThen fun members =>
        Completion.value (Json.object members)) := by
    intro provided path
    apply (inner provided path).andThen
    intro members members' same
    exact alike_value (congrArg Json.object same)
  intro supplied path
  unfold object
  dsimp only
  split
  · exact wrapped _ path
  · exact alike_fail _ _ _
  · split
    · exact wrapped _ path
    · exact alike_fail _ _ _
    · exact wrapped _ path

/-- The values of a type have one shape, if lists of it have one length and the members of objects
in it one shape. -/
theorem steady_ofType {complete : FieldsCompleter} (standard : mocks.rules.DrawsStandard)
    (members : ∀ name fields, schema.fieldsOf name = .ok fields →
      ∀ provided path, Alike Json.shapeMembers (complete name fields provided path)
        (complete name fields provided path)) (type : TypeRef)
    (fixed : type.isList = true → mocks.FixesLength position type.namedType) :
    Steady (ofType schema mocks position complete type) := by
  induction type with
  | named name =>
    apply Steady.orNull
    unfold named
    cases found : Ordered.get? schema.types name with
    | none => exact fun _ path => alike_fail _ _ path
    | some type =>
      cases type with
      | object typeName description fields =>
        have known : schema.fieldsOf name = .ok fields := by
          simp [TypeSystem.fieldsOf, TypeSystem.resolve, found]
        exact steady_object (members name fields known)
      | scalar | enum | input => exact steady_leaf standard _
  | list item ih =>
    have itemFixed : mocks.FixesLength position item.namedType := fixed rfl
    exact ((ih fun _ => itemFixed).list itemFixed).orNull
  | nonNull inner ih => exact (ih fixed).nonNull

end Completer

/-- The fields of a schema have lists of one length only. -/
def Mocks.FixesLengths (mocks : Mocks) (schema : TypeSystem) : Prop :=
  ∀ parent name definition, schema.field parent name = .ok definition →
    definition.type.isList = true →
    mocks.FixesLength (.ofField parent name) definition.type.namedType

/-- Lists have one length if the rules and the default leave none open. -/
theorem Mocks.fixesLengths_of_exact {mocks : Mocks}
    (standing : mocks.listSize.min = mocks.listSize.max)
    (ruled : ∀ range,
      .listSize range ∈ mocks.rules.fields.map Prod.snd ++ mocks.rules.types.map Prod.snd →
        range.min = range.max) (schema : TypeSystem) : mocks.FixesLengths schema := by
  intro parent name definition declared isList
  unfold FixesLength sizeOf
  cases ofField : mocks.fieldSize? (.ofField parent name) with
  | some range =>
    apply ruled range
    apply List.mem_append_left
    unfold fieldSize? at ofField
    split at ofField
    · cases ofField
    · split at ofField
      · rename_i found
        cases ofField
        exact List.mem_map_of_mem (Ordered.mem_of_get? found)
      · cases ofField
  | none =>
    cases ofType : mocks.typeSize? definition.type.namedType with
    | some range =>
      apply ruled range
      apply List.mem_append_right
      unfold typeSize? at ofType
      split at ofType
      · rename_i found
        cases ofType
        exact List.mem_map_of_mem (Ordered.mem_of_get? found)
      · cases ofType
    | none => exact standing

namespace Completion

variable {schema : TypeSystem} {mocks : Mocks}

/-- The value of a field has one shape, if values of its type have. -/
theorem alike_field {parent name : String} {type : TypeRef} {complete : FieldsCompleter}
    (inner : Completer.Steady (Completer.ofType schema mocks (.ofField parent name) complete type))
    (supplied : Option Json) (path : List PathSegment) :
    Alike Json.shape (field schema mocks parent name type complete supplied path)
      (field schema mocks parent name type complete supplied path) := by
  unfold field
  dsimp only
  split
  · exact (inner _ path).absorb type
  · split
    · exact (inner _ path).absorb type
    · exact (alike_fail _ _ path).absorb type
    · exact (inner _ path).absorb type

/-- The members of objects have one shape. The induction is on the selection, for all members that
are done, since those of the two completions are alike and not equal. -/
theorem alike_fields (standard : mocks.rules.DrawsStandard) (fixed : mocks.FixesLengths schema)
    (selection : List FieldSelection) :
    ∀ (parent : String) (definitions : Ordered String FieldDef),
      schema.fieldsOf parent = .ok definitions →
        ∀ provided path (done done' : Ordered String Json),
          Json.shapeMembers done = Json.shapeMembers done' →
            Alike Json.shapeMembers
              (fields schema mocks selection done parent definitions provided path)
              (fields schema mocks selection done' parent definitions provided path) := by
  induction selection using FieldSelection.selection_induction with
  | nil => exact fun _ _ _ _ _ done done' same => alike_value same
  | cons name aliasName arguments selection rest below others =>
    intro parent definitions known provided path done done' same
    have head : ∀ path, Alike Json.shape
        (member schema mocks ⟨name, aliasName, arguments, selection⟩ parent definitions provided
          path)
        (member schema mocks ⟨name, aliasName, arguments, selection⟩ parent definitions provided
          path) := by
      intro path
      unfold member
      split
      · exact alike_value rfl
      · split
        · exact alike_fail _ _ path
        · rename_i definition found
          have declared : schema.field parent name = .ok definition := by
            simp [TypeSystem.field, known, found]
          apply alike_field
          apply Completer.steady_ofType standard _ _ (fixed parent name definition declared)
          intro object objectFields objectKnown provided path
          exact below object objectFields objectKnown provided path [] [] rfl
    apply (head _).andThen
    intro value value' sameValue
    apply others parent definitions known provided path
    rw [Json.shapeMembers_insert, Json.shapeMembers_insert, same, sameValue]

end Completion

/-- Every leaf of the data gives way to the name of its kind. -/
def Response.outline (response : Response) : Response :=
  { response with data := response.data.map Json.shape }

theorem Response.outline_executed {data data' : Json} (same : data.shape = data'.shape)
    (errors : List FieldError) :
    (executed data errors).outline = (executed data' errors).outline := by
  simp only [outline, executed, Option.map_some, same]

/-- Two runs are at the same point, with members of one shape, or they end with responses of one
outline. -/
inductive Progress.Alike : Progress → Progress → Prop
  | running {run : Run} {data : Ordered String Json} :
      Json.shapeMembers run.data = Json.shapeMembers data →
      Alike (.running run) (.running { run with data })
  | finished {response response' : Response} : response.outline = response'.outline →
      Alike (.finished response) (.finished response')

/-- What handlers answer depends on the arguments and the context only, and not on the state they
share. -/
def Handlers.Stateless {σ : Type} (handlers : Handlers σ) : Prop :=
  ∀ type field handler, handlers.find? type field = some handler →
    ∀ arguments context state state', (handler.answer arguments context state).result =
      (handler.answer arguments context state').result

namespace Run

variable {σ : Type} {engine : Engine σ}

/-- Stateless handlers supply the same value in all worlds. -/
theorem source_of_stateless {handlers : Handlers σ} (stateless : handlers.Stateless) (run : Run)
    (field : FieldSelection) (world world' : World σ) :
    (run.source handlers field world).1 = (run.source handlers field world').1 := by
  unfold source
  split
  · rfl
  · split
    · rename_i handler found
      exact congrArg some (stateless _ _ handler found _ _ _ _)
    · rfl

/-- The value of a root field has one shape, whatever its source. -/
theorem alike_complete (standard : engine.mocks.rules.DrawsStandard) {run : Run}
    (fixed : engine.mocks.FixesLengths run.schema) {field : FieldSelection} {definition : FieldDef}
    (declared : run.schema.field run.root field.name = .ok definition)
    (source : Option (Except ResolutionError Json)) :
    Completion.Alike Json.shape (run.complete engine.mocks field definition source)
      (run.complete engine.mocks field definition source) := by
  have steady :
      Completer.Steady
        (Completer.ofType run.schema engine.mocks (.ofField run.root field.name)
          (Completion.fields run.schema engine.mocks field.selection []) definition.type) := by
    apply Completer.steady_ofType standard _ _ (fixed run.root field.name definition declared)
    intro name fields known provided path
    exact Completion.alike_fields standard fixed field.selection name fields known provided path []
      [] rfl
  unfold complete
  dsimp only
  split
  · exact Completion.alike_field steady none _
  · exact Completion.alike_field steady _ _
  · exact (Completion.alike_fail _ _ _).absorb _

/-- A root field brings two runs that are alike to the same point. -/
theorem step_alike (standard : engine.mocks.rules.DrawsStandard)
    (stateless : engine.handlers.Stateless) {run : Run}
    (fixed : engine.mocks.FixesLengths run.schema) {data : Ordered String Json}
    (same : Json.shapeMembers run.data = Json.shapeMembers data) (field : FieldSelection)
    (world world' : World σ) :
    (run.step engine field world).1.Alike (step { run with data } engine field world').1 := by
  have inserted : ∀ value value' : Json, value.shape = value'.shape →
      Json.shapeMembers (Ordered.insert run.data field.responseKey value) =
        Json.shapeMembers (Ordered.insert data field.responseKey value') := by
    intro value value' sameValue
    rw [Json.shapeMembers_insert, Json.shapeMembers_insert, same, sameValue]
  unfold step
  dsimp only
  by_cases isTypename : field.name = "__typename"
  · rw [if_pos isTypename, if_pos isTypename]
    exact .running (inserted _ _ rfl)
  · rw [if_neg isTypename, if_neg isTypename]
    cases declared : run.schema.field run.root field.name with
    | error error => exact .running same
    | ok definition =>
      have sources : (run.source engine.handlers field world).1 =
          (source { run with data } engine.handlers field world').1 :=
        source_of_stateless stateless run field world world'
      rcases sourced : run.source engine.handlers field world with ⟨given, met⟩
      rcases sourced' : source { run with data } engine.handlers field world' with ⟨given', met'⟩
      rw [sourced, sourced'] at sources
      obtain rfl : given = given' := sources
      obtain ⟨values, failures⟩ :=
        alike_complete standard fixed declared given met.random met'.random
      have others : complete { run with data } engine.mocks field definition given =
          run.complete engine.mocks field definition given := rfl
      dsimp only
      rw [others, failures]
      cases reached : (run.complete engine.mocks field definition given met.random).value with
      | none =>
        have lost : (run.complete engine.mocks field definition given met'.random).value =
            none := by
          rw [reached] at values
          exact Option.map_eq_none_iff.mp values.symm
        rw [lost]
        exact .finished rfl
      | some value =>
        rw [reached] at values
        obtain ⟨value', reached', sameValue⟩ := Option.map_eq_some_iff.mp values.symm
        rw [reached']
        exact .running (inserted value value' sameValue.symm)

/-- Runs that are alike at one point end with responses of one outline. -/
theorem finish_outline (standard : engine.mocks.rules.DrawsStandard)
    (stateless : engine.handlers.Stateless) (selection : List FieldSelection) :
    ∀ (run : Run) (data : Ordered String Json) (world world' : World σ),
      engine.mocks.FixesLengths run.schema → Json.shapeMembers run.data = Json.shapeMembers data →
        (finish engine selection run world).1.outline =
          (finish engine selection { run with data } world').1.outline := by
  induction selection with
  | nil =>
    intro run data world world' fixed same
    apply Response.outline_executed
    exact congrArg Json.object same
  | cons field rest ih =>
    intro run data world world' fixed same
    have alike := step_alike standard stateless fixed same field world world'
    unfold finish
    rcases stepped : run.step engine field world with ⟨progress, met⟩
    rcases stepped' : step { run with data } engine field world' with ⟨progress', met'⟩
    rw [stepped, stepped'] at alike
    cases alike with
    | @running next data same =>
      have kept : next.schema = run.schema := (step_keeps (congrArg Prod.fst stepped)).1
      apply ih next data met met' _ same
      rw [kept]
      exact fixed
    | finished same => exact same

end Run

namespace Engine

variable {σ : Type} {engine : Engine σ}

theorem run_outline (standard : engine.mocks.rules.DrawsStandard)
    (stateless : engine.handlers.Stateless) (fixed : engine.mocks.FixesLengths engine.schema)
    (operation : Operation) (payload : Option Json) (world world' : World σ) :
    (engine.run operation payload world).1.map Response.outline =
      (engine.run operation payload world').1.map Response.outline := by
  unfold run
  cases started : engine.start operation payload with
  | error rejection => rfl
  | ok progress =>
    cases progress with
    | finished response => rfl
    | running run =>
      have kept : run.schema = engine.schema := by
        obtain ⟨root, -, -, ⟨error, -, ended⟩ | ⟨seed, -, same⟩⟩ := start_cases started
        · cases ended
        · cases same
          rfl
      have finished :=
        run.finish_outline standard stateless operation.selection run.data world world'
          (by rw [kept]; exact fixed) rfl
      exact congrArg Except.ok finished

end Engine

namespace Resort

/-- Resorts have two lifts, and no other list has a length of its own. The handler counts its
calls. -/
def measured : Engine Nat :=
  ⟨schema, ⟨MockRules.standard.withField "Resort" "lifts" (.listSize (.exactly 2)), .exactly 3⟩,
    Handlers.register [] "Query" "other"
      ⟨none, fun _ _ calls => ⟨.ok (.string "many"), calls + 1, []⟩⟩⟩

end Resort

/-- Where lists have one length, scalars are drawn by the standard formatters and handlers are
stateless, two executions of an operation in different worlds meet the same errors, and their data
differs at most in the values of leaves: each leaf is of the same kind in both. -/
theorem Engine.execute_outline {σ : Type} (engine : Engine σ)
    (standard : engine.mocks.rules.DrawsStandard) (stateless : engine.handlers.Stateless)
    (fixed : engine.mocks.FixesLengths engine.schema) (operation : Operation)
    (world world' : World σ) :
    (engine.execute operation world).1.map Response.outline =
      (engine.execute operation world').1.map Response.outline :=
  run_outline standard stateless fixed operation none world world'

theorem Resort.execute_outline_measured :
    (measured.execute operation ⟨.ofSeed 1, 4, .new⟩).1.map Response.outline =
      (measured.execute operation ⟨.ofSeed 2, 0, .new⟩).1.map Response.outline := by
  have standard : measured.mocks.rules.DrawsStandard :=
    fun scalar _ found => ⟨scalar, Ordered.mem_of_get? found⟩
  have stateless : measured.handlers.Stateless := by
    intro type field handler found arguments context state state'
    have only : handler = _ := congrArg Prod.snd (List.mem_singleton.mp (Ordered.mem_of_get? found))
    rw [only]
  have fixed : measured.mocks.FixesLengths schema := by
    apply Mocks.fixesLengths_of_exact rfl
    intro range member
    cases List.mem_singleton.mp member
    rfl
  exact Engine.execute_outline measured standard stateless fixed operation _ _

end MockGraph
