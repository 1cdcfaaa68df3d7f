import MockGraph.Proofs.Execution.Supplied
set_option autoImplicit false

namespace MockGraph

/-- An outcome at the end of a path: its errors have longer paths. -/
def Completed.below {α : Type} (front : List PathSegment) (done : Completed α) : Completed α :=
  { done with
    failures := done.failures.map fun failure => { failure with path := front ++ failure.path } }

/-- The error of a null that no error explains comes from a rule that fails with it, if at all. -/
def Mocks.Owns (mocks : Mocks) (error : ResolutionError) : Prop :=
  error = .internal .lostNull → ∃ position, mocks.fieldValue? position = some (.error error) ∨
    ∃ type, mocks.typeValue? position type = some (.error error)

namespace Completion

/-- A completion that can stand anywhere. Only its errors tell the path, and it has one if it has no
value. -/
structure Portable {α : Type} (mocks : Mocks) (completion : List PathSegment → Completion α) :
    Prop where
  below : ∀ front path random,
      completion (front ++ path) random = (completion path random).below front
  reports : ∀ path random, (completion path random).value = none →
      (completion path random).failures ≠ []
  owned : ∀ path random, ∀ failure ∈ (completion path random).failures, mocks.Owns failure.error

variable {α β : Type} {mocks : Mocks}

theorem portable_value (a : α) : Portable mocks fun _ => value a :=
  ⟨fun _ _ _ => rfl, nofun, nofun⟩

theorem portable_fail {error : ResolutionError} (owned : mocks.Owns error) :
    Portable mocks fun path => (fail error path : Completion α) := by
  refine ⟨fun _ _ _ => rfl, fun _ _ _ => List.cons_ne_nil _ _, ?_⟩
  intro path random failure member
  obtain rfl := List.mem_singleton.mp member
  exact owned

theorem portable_ofResult {result : Except ResolutionError α}
    (owned : ∀ error, result = .error error → mocks.Owns error) :
    Portable mocks fun path => ofResult path result := by
  cases result with
  | ok a => exact portable_value a
  | error error => exact portable_fail (owned error rfl)

theorem Portable.andThen {first : List PathSegment → Completion α}
    {next : α → List PathSegment → Completion β} (head : Portable mocks first)
    (tail : ∀ a, Portable mocks (next a)) :
    Portable mocks fun path => (first path).andThen fun a => next a path := by
  refine ⟨?_, ?_, ?_⟩
  · intro front path random
    have moved := head.below front path random
    cases reached : (first path random).value with
    | none =>
      rw [andThen_of_none (by rw [moved]; exact reached), andThen_of_none reached, moved]
      rfl
    | some a =>
      rw [andThen_of_some (by rw [moved]; exact reached), andThen_of_some reached, moved]
      have further := (tail a).below front path (first path random).random
      simp only [Completed.below, further, List.map_append]
  · intro path random
    cases reached : (first path random).value with
    | none =>
      rw [andThen_of_none reached]
      exact fun _ => head.reports path random reached
    | some a =>
      rw [andThen_of_some reached]
      exact fun lost => List.append_ne_nil_of_right_ne_nil _ ((tail a).reports path _ lost)
  · intro path random failure member
    cases reached : (first path random).value with
    | none =>
      rw [andThen_of_none reached] at member
      exact head.owned path random failure member
    | some a =>
      rw [andThen_of_some reached] at member
      rcases List.mem_append.mp member with now | later
      · exact head.owned path random failure now
      · exact (tail a).owned path _ failure later

theorem Portable.absorb {completion : List PathSegment → Completion Json}
    (portable : Portable mocks completion) (type : TypeRef) :
    Portable mocks fun path => Completion.absorb type (completion path) := by
  refine ⟨?_, ?_, ?_⟩
  · intro front path random
    rw [absorb_eq, absorb_eq, portable.below]
    rfl
  · intro path random lost
    rw [absorb_eq] at lost ⊢
    refine portable.reports path random ?_
    cases reached : (completion path random).value with
    | none => rfl
    | some value =>
      rw [reached] at lost
      cases lost
  · intro path random failure member
    rw [absorb_eq] at member
    exact portable.owned path random failure member

/-- What stands one step further down can stand anywhere, too. -/
theorem Portable.step {completion : List PathSegment → Completion α}
    (portable : Portable mocks completion) (segment : PathSegment) :
    Portable mocks fun path => completion (path ++ [segment]) := by
  refine ⟨?_, fun path => portable.reports (path ++ [segment]),
    fun path => portable.owned (path ++ [segment])⟩
  intro front path random
  rw [List.append_assoc]
  exact portable.below front (path ++ [segment]) random

theorem Portable.drawn (draw : Random → α × Random) (next : α → List PathSegment → Completion β)
    (portable : ∀ random, Portable mocks (next (draw random).1)) :
    Portable mocks fun path random => next (draw random).1 path (draw random).2 :=
  ⟨fun front path random => (portable random).below front path _,
    fun path random => (portable random).reports path _,
    fun path random => (portable random).owned path _⟩

end Completion

namespace Mocks

variable {mocks : Mocks} {position : Position}

/-- Errors of any other kind need no rule that fails with them. -/
theorem owns_of_ne {error : ResolutionError} (other : error ≠ .internal .lostNull) :
    mocks.Owns error :=
  fun same => absurd same other

theorem owns_unexpected (expected : String) (found : Json) :
    mocks.Owns (.unexpected expected found) :=
  owns_of_ne nofun

theorem owns_coerce {type : TypeDef} {value : Json} {error : ResolutionError}
    (refused : type.coerce value = .error error) : mocks.Owns error := by
  rcases TypeDef.coerce_outcomes type value with ⟨-, taken⟩ | ⟨_, _, -, -, taken⟩ | unexpected
  · rw [taken] at refused
    cases refused
  · rw [taken] at refused
    cases refused
  · obtain rfl := Except.error.inj (unexpected.symm.trans refused)
    exact owns_unexpected type.name value

theorem owns_typeValue {type : String} {error : ResolutionError}
    (failed : mocks.typeValue? position type = some (.error error)) : mocks.Owns error :=
  fun _ => ⟨position, Or.inr ⟨type, failed⟩⟩

theorem owns_fieldValue {error : ResolutionError}
    (failed : mocks.fieldValue? position = some (.error error)) : mocks.Owns error :=
  fun _ => ⟨position, Or.inl failed⟩

theorem owns_objectSeed {type : String} {error : ResolutionError}
    (failed : mocks.objectSeed? position type = some (.error error)) : mocks.Owns error := by
  obtain ⟨value, ruled, same⟩ := Option.map_eq_some_iff.mp failed
  split at same
  · cases same
    exact owns_typeValue ruled
  · cases same
  · cases same
    exact owns_unexpected _ _

theorem owns_drawLeaf {type : TypeDef} {random : Random} {error : ResolutionError}
    (failed : (mocks.drawLeaf position type random).1 = .error error) : mocks.Owns error := by
  unfold drawLeaf at failed
  split at failed
  · rename_i value ruled
    exact owns_typeValue (ruled.trans (congrArg some failed))
  · split at failed
    · split at failed
      · cases failed
        exact owns_of_ne nofun
      · cases failed
    · cases failed
      exact owns_of_ne nofun
    · cases failed
    · cases failed
      exact owns_of_ne nofun
    · cases failed
      exact owns_of_ne nofun

end Mocks

namespace Completer

open Completion

variable {schema : TypeSystem} {mocks : Mocks} {position : Position}

theorem portable_orNull {complete : Completer}
    (inner : ∀ supplied, Portable mocks (complete supplied)) (supplied : Option Json) :
    Portable mocks (orNull complete supplied) := by
  by_cases null : supplied = some .null
  · subst null
    exact portable_value _
  · have same : orNull complete supplied = complete supplied := by
      funext path
      unfold orNull
      split
      · exact absurd rfl null
      · rfl
    rw [same]
    exact inner supplied

theorem portable_nonNull {complete : Completer}
    (inner : ∀ supplied, Portable mocks (complete supplied)) (supplied : Option Json) :
    Portable mocks (nonNull position complete supplied) := by
  have refused : ∀ {α : Type},
      Portable mocks fun path => (fail (.nullForNonNull position.text) path : Completion α) :=
    portable_fail (Mocks.owns_of_ne nofun)
  by_cases null : supplied = some .null
  · subst null
    exact refused
  · have same : nonNull position complete supplied =
        fun path => (complete supplied path).andThen fun value =>
          if value.isNull then fail (.nullForNonNull position.text) path
          else Completion.value value := by
      funext path
      unfold nonNull
      split
      · exact absurd rfl null
      · rfl
    rw [same]
    refine (inner supplied).andThen fun value => ?_
    split
    · exact refused
    · exact portable_value value

theorem portable_items {complete : Completer}
    (inner : ∀ supplied, Portable mocks (complete supplied)) (type : TypeRef)
    (supplied : List (Option Json)) :
    ∀ index, Portable mocks fun path => items complete type path supplied index := by
  induction supplied with
  | nil => exact fun _ => portable_value _
  | cons first rest ih =>
    intro index
    refine (((inner first).step (.index index)).absorb type).andThen fun value => ?_
    exact (ih (index + 1)).andThen fun values => portable_value _

theorem portable_list {complete : Completer}
    (inner : ∀ supplied, Portable mocks (complete supplied)) (item : TypeRef)
    (supplied : Option Json) : Portable mocks (list mocks position item complete supplied) := by
  have wrapped : ∀ given, Portable mocks fun path =>
      (items complete item path given 0).andThen fun values =>
        Completion.value (Json.array values) :=
    fun given => (portable_items inner item given 0).andThen fun values => portable_value _
  cases supplied with
  | none =>
    exact Portable.drawn (mocks.drawLength position item.namedType) (fun length path =>
      (items complete item path (List.replicate length none) 0).andThen fun values =>
        Completion.value (Json.array values)) fun random => wrapped _
  | some value =>
    cases value with
    | array given => exact wrapped (given.map some)
    | _ => exact portable_fail (Mocks.owns_unexpected _ _)

theorem portable_leaf (type : TypeDef) (supplied : Option Json) :
    Portable mocks (leaf mocks position type supplied) := by
  cases supplied with
  | some value => exact portable_ofResult fun error refused => Mocks.owns_coerce refused
  | none =>
    exact Portable.drawn (mocks.drawLeaf position type) (fun result path => ofResult path result)
      fun random => portable_ofResult fun error failed => Mocks.owns_drawLeaf failed

theorem portable_object {complete : FieldsCompleter} {name : String}
    {fields : Ordered String FieldDef}
    (inner : ∀ provided, Portable mocks (complete name fields provided)) (supplied : Option Json) :
    Portable mocks (object mocks position name fields complete supplied) := by
  have wrapped : ∀ provided, Portable mocks fun path =>
      (complete name fields provided path).andThen fun members =>
        Completion.value (Json.object members) :=
    fun provided => (inner provided).andThen fun members => portable_value _
  cases supplied with
  | none =>
    unfold object
    dsimp only
    split
    · exact wrapped _
    · rename_i error failed
      exact portable_fail (Mocks.owns_objectSeed failed)
    · exact wrapped none
  | some value =>
    cases value with
    | object members => exact wrapped (some members)
    | _ => exact portable_fail (Mocks.owns_unexpected _ _)

theorem portable_named {complete : FieldsCompleter}
    (inner : ∀ name fields provided, Portable mocks (complete name fields provided)) (name : String)
    (supplied : Option Json) :
    Portable mocks (named schema mocks position complete name supplied) := by
  unfold named
  cases Ordered.get? schema.types name with
  | none => exact portable_fail (Mocks.owns_of_ne nofun)
  | some type =>
    cases type with
    | object _ _ fields => exact portable_object (inner name fields) supplied
    | scalar | enum | input => exact portable_leaf _ supplied

theorem portable_ofType {complete : FieldsCompleter}
    (inner : ∀ name fields provided, Portable mocks (complete name fields provided))
    (type : TypeRef) :
    ∀ supplied, Portable mocks (ofType schema mocks position complete type supplied) := by
  induction type with
  | named name => exact portable_orNull (portable_named inner name)
  | list item ih => exact portable_orNull (portable_list ih item)
  | nonNull type ih => exact portable_nonNull ih

end Completer

namespace Completion

variable {schema : TypeSystem} {mocks : Mocks}

theorem portable_field {complete : FieldsCompleter}
    (inner : ∀ name fields provided, Portable mocks (complete name fields provided))
    (parent name : String) (type : TypeRef) (supplied : Option Json) :
    Portable mocks (field schema mocks parent name type complete supplied) := by
  have finished : ∀ given, Portable mocks fun path =>
      absorb type (Completer.ofType schema mocks (.ofField parent name) complete type given path) :=
    fun given => (Completer.portable_ofType inner type given).absorb type
  cases supplied with
  | some value => exact finished (some value)
  | none =>
    unfold field
    dsimp only
    split
    · exact finished _
    · rename_i error failed
      exact Portable.absorb (portable_fail (Mocks.owns_fieldValue failed)) type
    · exact finished none

/-- A selected field can stand anywhere if what is selected below it can. -/
theorem portable_member {name : String} {aliasName : Option String}
    {arguments : Ordered String Json} {selection : List FieldSelection}
    (inner : ∀ name fields provided,
      Portable mocks (Completion.fields schema mocks selection [] name fields provided))
    (parent : String) (definitions : Ordered String FieldDef)
    (provided : Option (Ordered String Json)) :
    Portable mocks
      (member schema mocks ⟨name, aliasName, arguments, selection⟩ parent definitions
        provided) := by
  by_cases isTypename : name = "__typename"
  · have same :
        member schema mocks ⟨name, aliasName, arguments, selection⟩ parent definitions provided =
          fun _ => value (.string parent) := by
      funext path
      rw [member, if_pos isTypename]
    rw [same]
    exact portable_value _
  · cases known : Ordered.get? definitions name with
    | none =>
      have same :
          member schema mocks ⟨name, aliasName, arguments, selection⟩ parent definitions provided =
            fun path => fail (.internal (.unknownField parent name)) path := by
        funext path
        rw [member, if_neg isTypename, known]
      rw [same]
      refine portable_fail (Mocks.owns_of_ne fun same => ?_)
      cases same
    | some definition =>
      have same :
          member schema mocks ⟨name, aliasName, arguments, selection⟩ parent definitions provided =
            field schema mocks parent name definition.type (fields schema mocks selection [])
              (provided.bind fun members => Ordered.get? members name) := by
        funext path
        rw [member, if_neg isTypename, known]
      rw [same]
      exact portable_field inner parent name definition.type _

theorem portable_fields (selection : List FieldSelection) : ∀ done parent definitions provided,
    Portable mocks (fields schema mocks selection done parent definitions provided) := by
  induction selection using FieldSelection.selection_induction with
  | nil => exact fun _ _ _ _ => portable_value _
  | cons name aliasName arguments selection rest below later =>
    intro done parent definitions provided
    have same : ∀ field : FieldSelection,
        fields schema mocks (field :: rest) done parent definitions provided =
          fun path =>
            (member schema mocks field parent definitions provided
                (path ++ [.field field.responseKey])).andThen fun value =>
              fields schema mocks rest (Ordered.insert done field.responseKey value) parent
                definitions provided path := by
      intro field
      funext path
      conv => lhs; unfold fields
    rw [same]
    refine Portable.andThen ((portable_member (below []) parent definitions provided).step _)
      fun value => ?_
    exact later _ parent definitions provided

end Completion

namespace Mocks

variable (mocks : Mocks) (schema : TypeSystem) (random : Random)

/-- What generates a value completes it at no path at all: it fails with the first error, and has a
value if there is none. -/
theorem generate_eq_field (parent name : String) (type : TypeRef)
    (selection : List FieldSelection) :
    let generated := mocks.generate schema type (.ofField parent name) selection random
    let done :=
      Completion.field schema mocks parent name type (Completion.fields schema mocks selection [])
        none [] random
    generated.2 = done.random ∧
      ((∃ value, generated.1 = .ok value ∧ done.value = some value ∧ done.failures = []) ∨
        ∃ failure rest, generated.1 = .error failure.error ∧ done.failures = failure :: rest) := by
  intro generated done
  have filled : ∀ given, mocks.Fills (.ofField parent name) none given →
      generated.2 = done.random ∧
        ((∃ value, generated.1 = .ok value ∧ done.value = some value ∧ done.failures = []) ∨
          ∃ failure rest, generated.1 = .error failure.error ∧
            done.failures = failure :: rest) := by
    intro given fills
    let inner :=
      Completer.ofSelection schema mocks (.ofField parent name) selection type given [] random
    have done_eq : done =
        ⟨inner.value.or (if type.isNonNull then none else some .null), inner.failures,
          inner.random⟩ := by
      show Completion.field _ _ _ _ _ _ _ _ _ = _
      rw [Completion.field_of_fills fills, Completion.absorb_eq]
    have generated_eq : generated =
        mocks.generateFrom schema type (.ofField parent name) selection random given :=
      generate_of_fills fills
    rw [generated_eq, done_eq, generateFrom]
    cases failed : inner.failures with
    | cons failure rest => exact ⟨rfl, Or.inr ⟨failure, rest, rfl, rfl⟩⟩
    | nil =>
      have portable : Completion.Portable mocks
          (Completer.ofSelection schema mocks (.ofField parent name) selection type given) :=
        Completer.portable_ofType (Completion.portable_fields selection []) type given
      cases reached : inner.value with
      | none => exact absurd failed (portable.reports [] random reached)
      | some value => exact ⟨rfl, Or.inl ⟨value, rfl, rfl, rfl⟩⟩
  cases ruled : mocks.fieldValue? (.ofField parent name) with
  | none => exact filled none (.mocked ruled)
  | some result =>
    cases result with
    | ok value => exact filled (some value) (.ruled ruled)
    | error error =>
      have generated_eq : generated = (.error error, random) := by
        show mocks.generate _ _ _ _ _ = _
        simp only [generate, ruled]
      have done_eq : done = Completion.absorb type (Completion.fail error []) random := by
        show Completion.field _ _ _ _ _ _ _ _ _ = _
        simp only [Completion.field, ruled]
      rw [generated_eq, done_eq, Completion.absorb_eq]
      exact ⟨rfl, Or.inr ⟨⟨error, []⟩, [], rfl, rfl⟩⟩

/-- What generates a value does not fail for want of an error, unless a rule does so. -/
theorem generate_owns {parent name : String} {type : TypeRef} {selection : List FieldSelection}
    {error : ResolutionError}
    (failed : (mocks.generate schema type (.ofField parent name) selection random).1 =
      .error error) : mocks.Owns error := by
  have portable :
      Completion.Portable mocks
        (Completion.field schema mocks parent name type
          (Completion.fields schema mocks selection []) none) :=
    Completion.portable_field (Completion.portable_fields selection []) parent name type none
  obtain ⟨-, ⟨value, succeeded, -⟩ | ⟨failure, rest, first, failures⟩⟩ :=
    generate_eq_field mocks schema random parent name type selection
  · rw [succeeded] at failed
    cases failed
  · obtain rfl := Except.error.inj (first.symm.trans failed)
    exact portable.owned [] random failure (by rw [failures]; exact List.mem_cons_self)

end Mocks

namespace Run

variable {σ : Type} {engine : Engine σ} {run : Run} {field : FieldSelection} {world : World σ}
  {definition : FieldDef}

/-- A run over one root field that nothing supplies: its value is mocked. -/
theorem finish_mocked (engine : Engine σ) (run : Run) (world : World σ)
    (unpaid : run.payload = none) (unseeded : run.seed = none)
    (unhandled : engine.handlers.find? run.root field.name = none)
    (named : field.name ≠ "__typename")
    (declared : run.schema.field run.root field.name = .ok definition) (fresh : run.data = [])
    (unfailed : run.failures = []) :
    let done :=
      Completion.field run.schema engine.mocks run.root field.name definition.type
        (Completion.fields run.schema engine.mocks field.selection []) none
        [.field field.responseKey] world.random
    Run.finish engine [field] run world =
      (.executed (done.value.elim .null fun value => .object [(field.responseKey, value)])
        (done.failures.map Failure.fieldError), { world with random := done.random }) := by
  intro done
  have sourced : run.source engine.handlers field world = (none, world) := by
    unfold source
    rw [unpaid, unseeded]
    dsimp only
    rw [unhandled]
    rfl
  rcases run.step_cases engine field world with ⟨typename, -⟩ | ⟨-, ⟨error, unknown, -⟩ | found⟩
  · exact absurd typename named
  · rw [declared] at unknown
    cases unknown
  · obtain ⟨known, source, met, completed, same, from?, rfl, outcome⟩ := found
    obtain rfl := Except.ok.inj (declared.symm.trans same)
    obtain ⟨rfl, rfl⟩ := Prod.mk.inj (sourced.symm.trans from?)
    rw [unfailed] at outcome
    rcases outcome with ⟨value, reached, step⟩ | ⟨lost, step⟩
    · rw [finish, step]
      have value_eq : done.value = some value := reached
      rw [value_eq, fresh]
      rfl
    · rw [finish, step]
      have value_eq : done.value = none := lost
      rw [value_eq]
      rfl

end Run

/-- An operation over one field of the root type that nothing supplies: the response has the field's
mocked value, and the errors met on the way, below the field's key. -/
theorem Engine.execute_mocked {σ : Type} (engine : Engine σ) (operation : Operation)
    (world : World σ) {root : String} {field : FieldSelection} {definition : FieldDef}
    (known : engine.schema.root? operation.kind = some root) (only : operation.selection = [field])
    (valid : engine.schema.selectionErrors root operation.selection = [])
    (named : field.name ≠ "__typename")
    (declared : engine.schema.field root field.name = .ok definition)
    (unhandled : engine.handlers.find? root field.name = none)
    (unruled : engine.mocks.typeValue? .root root = none) :
    let done := Completion.field engine.schema engine.mocks root field.name definition.type
      (Completion.fields engine.schema engine.mocks field.selection []) none [] world.random
    engine.execute operation world =
      (.ok (.executed (done.value.elim .null fun value => .object [(field.responseKey, value)])
        ((done.below [.field field.responseKey]).failures.map Failure.fieldError)),
        { world with random := done.random }) := by
  intro done
  have portable :
      Completion.Portable engine.mocks
        (Completion.field engine.schema engine.mocks root field.name definition.type
          (Completion.fields engine.schema engine.mocks field.selection []) none) :=
    Completion.portable_field (Completion.portable_fields field.selection []) root field.name
      definition.type none
  have moved := portable.below [.field field.responseKey] [] world.random
  have finished :=
    Run.finish_mocked engine ⟨engine.schema, root, none, operation.context, none, [], []⟩ world rfl
      rfl unhandled named declared rfl rfl
  have unseeded : engine.mocks.objectSeed? .root root = none := by
    rw [Mocks.objectSeed?, unruled]
    rfl
  dsimp only at finished
  rw [List.append_nil] at moved
  rw [moved] at finished
  simp only [execute, Engine.run, start, known, valid, unseeded]
  rw [only, finished]
  rfl

/-- A response tells what became of the value of its only field: it has no errors if and only if
there is a value, and then its data is just that, and it has errors if and only if there is none,
and then the first one tells why. -/
structure Response.Tells (response : Response) (key : String)
    (result : Except ResolutionError Json) : Prop where
  succeeds : (∃ value, result = .ok value) ↔ response.errors = none
  data : ∀ value, result = .ok value → response.data = some (.object [(key, value)])
  fails : (∃ error, result = .error error) ↔ response.hasErrors = true
  first : ∀ error, result = .error error →
    ∃ head rest, response.errors = some (head :: rest) ∧ head.message = error.message

theorem Response.tells_ok (key : String) (value : Json) :
    Tells (.executed (.object [(key, value)]) []) key (.ok value) := by
  refine ⟨⟨fun _ => rfl, fun _ => ⟨value, rfl⟩⟩, ?_, ⟨nofun, nofun⟩, nofun⟩
  rintro _ ⟨⟩
  rfl

theorem Response.tells_error (key : String) (data : Json) (failure : Failure)
    (rest : List FieldError) :
    Tells (.executed data (failure.fieldError :: rest)) key (.error failure.error) := by
  refine ⟨⟨nofun, nofun⟩, nofun, ⟨fun _ => rfl, fun _ => ⟨_, rfl⟩⟩, ?_⟩
  rintro _ ⟨⟩
  exact ⟨_, _, rfl, rfl⟩

/-- Mocking at the time of a request and generating a value agree. A query for one field of the root
type that neither a handler nor a rule for that type supplies tells what generating the field's
value comes to, and both leave the generator alike. Generating does not fail for want of an error,
unless a rule does so. -/
theorem Engine.execute_as_generated {σ : Type} (engine : Engine σ) (operation : Operation)
    (world : World σ) (root : String) (field : FieldSelection)
    (known : engine.schema.root? operation.kind = some root) (only : operation.selection = [field])
    (valid : engine.schema.selectionErrors root operation.selection = [])
    (named : field.name ≠ "__typename") (unhandled : engine.handlers.find? root field.name = none)
    (unruled : engine.mocks.typeValue? .root root = none) :
    ∃ definition response, engine.schema.field root field.name = .ok definition ∧
      let generated :=
        engine.mocks.generate engine.schema definition.type (.ofField root field.name)
          field.selection world.random
      engine.execute operation world = (.ok response, { world with random := generated.2 }) ∧
      response.Tells field.responseKey generated.1 ∧
      ∀ error, generated.1 = .error error → engine.mocks.Owns error := by
  have fits : engine.schema.fieldErrors root field = [] := by
    rw [only] at valid
    exact (List.append_eq_nil_iff.mp valid).1
  obtain ⟨definition, declared⟩ := TypeSystem.field_of_valid fits named
  have executed :=
    engine.execute_mocked operation world known only valid named declared unhandled unruled
  obtain ⟨random, outcome⟩ :=
    engine.mocks.generate_eq_field engine.schema world.random root field.name definition.type
      field.selection
  dsimp only at executed random outcome
  rw [← random] at executed
  refine ⟨definition, _, declared, executed, ?_, fun error => Mocks.generate_owns _ _ _⟩
  rcases outcome with ⟨value, generated, reached, unfailed⟩ | ⟨failure, rest, generated, failed⟩
  · rw [generated, reached, Completed.below, unfailed]
    exact Response.tells_ok field.responseKey value
  · rw [generated, Completed.below, failed]
    exact Response.tells_error field.responseKey _ ⟨failure.error, _⟩ _

namespace Resort

/-- Rules that give every resort one lift, and no lift a name. -/
def nameless : Engine Unit :=
  ⟨schema,
    ⟨(MockRules.standard.withField "Resort" "lifts" (.constant (.array [.object []]))).withField
      "Lift" "name" (.constant .null), .standard⟩, []⟩

def liftNames : FieldSelection :=
  ⟨"resort", some "ours", [], [⟨"lifts", none, [], [⟨"name", none, [], []⟩]⟩]⟩

/-- A lift without a name becomes null in a response. No resort is generated with such a lift. -/
theorem execute_as_generated_nameless :
    let generated :=
      nameless.mocks.generate schema (.nonNull (.named "Resort")) (.ofField "Query" "resort")
        liftNames.selection world.random
    generated.1 = .error (.nullForNonNull "Lift.name") ∧
      ∃ response, nameless.execute ⟨.query, none, [liftNames], []⟩ world = (.ok response, world) ∧
        response.data = some (.object [("ours", .object [("lifts", .array [.null])])]) ∧
        response.Tells "ours" generated.1 := by
  intro generated
  obtain ⟨definition, response, declared, executed, tells, -⟩ :=
    nameless.execute_as_generated ⟨.query, none, [liftNames], []⟩ world "Query" liftNames rfl rfl
      (by decide) (by decide) rfl rfl
  obtain rfl : ⟨"resort", none, .nonNull (.named "Resort"), []⟩ = definition :=
    Except.ok.inj declared
  refine ⟨rfl, response, executed, ?_, tells⟩
  have same : response = _ := Except.ok.inj (congrArg Prod.fst executed).symm
  rw [same]
  rfl

end Resort

end MockGraph
