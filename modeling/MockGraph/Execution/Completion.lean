import MockGraph.Execution.Leaf
import MockGraph.Mock.Values
import MockGraph.Operation.Basic
set_option autoImplicit false

namespace MockGraph

/-- An error with the path of the value it belongs to. -/
structure Failure where
  error : ResolutionError
  path : List PathSegment
deriving DecidableEq, Inhabited, Repr

/-- The outcome of a completion: the value, unless a place around it has to become null, the errors
met on the way, and the generator after all draws. -/
structure Completed (α : Type) where
  value : Option α
  failures : List Failure
  random : Random
deriving Inhabited

/-- Keys that are new before a field is done are new after it. -/
theorem FieldSelection.fresh_insert {field : FieldSelection} {rest : List FieldSelection}
    {done : Ordered String Json} (unique : field.responseKey ∉ rest.map responseKey)
    (fresh : ∀ other ∈ field :: rest, other.responseKey ∉ done.keys) (value : Json) :
    ∀ other ∈ rest,
      other.responseKey ∉ Ordered.keys (Ordered.insert done field.responseKey value) := by
  intro other member
  have different : other.responseKey ≠ field.responseKey := by
    intro same
    exact unique (same ▸ List.mem_map_of_mem member)
  have absent := fresh other (List.mem_cons_of_mem _ member)
  rw [Ordered.keys_insert]
  split
  · exact absent
  · simp [absent, different]

/-- Something to complete with the help of a generator. -/
abbrev Completion (α : Type) := Random → Completed α

namespace Completion

variable {α β : Type}

def value (a : α) : Completion α := fun random => ⟨some a, [], random⟩

def fail (error : ResolutionError) (path : List PathSegment) : Completion α :=
  fun random => ⟨none, [⟨error, path⟩], random⟩

/-- Goes on with the value, if there is one. -/
def andThen (first : Completion α) (next : α → Completion β) : Completion β := fun random =>
  let done := first random
  match done.value with
  | none => ⟨none, done.failures, done.random⟩
  | some a =>
    let last := next a done.random
    ⟨last.value, done.failures ++ last.failures, last.random⟩

def ofResult (path : List PathSegment) : Except ResolutionError α → Completion α
  | .ok a => value a
  | .error error => fail error path

/-- A place that may be null takes a missing value as null. -/
def absorb (type : TypeRef) (completion : Completion Json) : Completion Json := fun random =>
  let done := completion random
  match done.value with
  | some _ => done
  | none => if type.isNonNull then done else { done with value := some .null }

theorem andThen_of_none {first : Completion α} {next : α → Completion β} {random : Random}
    (lost : (first random).value = none) :
    first.andThen next random = ⟨none, (first random).failures, (first random).random⟩ := by
  simp only [andThen, lost]

theorem andThen_of_some {first : Completion α} {next : α → Completion β} {random : Random} {a : α}
    (reached : (first random).value = some a) :
    first.andThen next random =
      ⟨(next a (first random).random).value,
        (first random).failures ++ (next a (first random).random).failures,
        (next a (first random).random).random⟩ := by
  simp only [andThen, reached]

theorem andThen_value (first : Completion α) (change : α → β) (random : Random) :
    (first.andThen fun a => value (change a)) random =
      ⟨(first random).value.map change, (first random).failures, (first random).random⟩ := by
  cases reached : (first random).value with
  | none => simp [andThen_of_none reached]
  | some a => simp [andThen_of_some reached, value]

theorem value_andThen (a : α) (next : α → Completion β) : (value a).andThen next = next a := by
  funext random
  rw [andThen_of_some rfl]
  rfl

theorem andThen_assoc {γ : Type} (first : Completion α) (second : α → Completion β)
    (third : β → Completion γ) :
    (first.andThen second).andThen third = first.andThen fun a => (second a).andThen third := by
  funext random
  cases reached : (first random).value with
  | none =>
    have lost : ((first.andThen second) random).value = none := by rw [andThen_of_none reached]
    rw [andThen_of_none lost, andThen_of_none reached, andThen_of_none reached]
  | some a =>
    cases further : (second a (first random).random).value with
    | none =>
      have lost : ((first.andThen second) random).value = none := by
        rw [andThen_of_some reached, further]
      rw [andThen_of_none lost, andThen_of_some reached, andThen_of_some reached,
        andThen_of_none further]
    | some b =>
      have both : ((first.andThen second) random).value = some b := by
        rw [andThen_of_some reached, further]
      rw [andThen_of_some both, andThen_of_some reached, andThen_of_some reached,
        andThen_of_some further, List.append_assoc]

theorem absorb_eq (type : TypeRef) (completion : Completion Json) (random : Random) :
    absorb type completion random =
      ⟨(completion random).value.or (if type.isNonNull then none else some .null),
        (completion random).failures, (completion random).random⟩ := by
  unfold absorb
  rcases completion random with ⟨value, failures, after⟩
  cases value <;> cases type.isNonNull <;> rfl

@[simp] theorem absorb_random (type : TypeRef) (completion : Completion Json) (random : Random) :
    (absorb type completion random).random = (completion random).random := by
  rw [absorb_eq]

end Completion

/-- Completes the value at a path from what is supplied for it. -/
abbrev Completer := Option Json → List PathSegment → Completion Json

/-- Completes the fields of an object, with its type's name and fields and the members supplied for
it. -/
abbrev FieldsCompleter :=
  String → Ordered String FieldDef → Option (Ordered String Json) → List PathSegment →
    Completion (Ordered String Json)

namespace Completer

/-- A supplied null stays null. -/
def orNull (complete : Completer) : Completer
  | some .null, _ => .value .null
  | supplied, path => complete supplied path

/-- Neither a supplied null nor one that a rule or a formatter leads to may stand at the
position. -/
def nonNull (position : Position) (complete : Completer) : Completer
  | some .null, path => .fail (.nullForNonNull position.text) path
  | supplied, path =>
    (complete supplied path).andThen fun value =>
      if value.isNull then .fail (.nullForNonNull position.text) path else .value value

/-- Completes items one after the other, up to the first whose failure the list cannot take. -/
def items (complete : Completer) (type : TypeRef) (path : List PathSegment) :
    List (Option Json) → Nat → Completion (List Json)
  | [], _ => .value []
  | supplied :: rest, index =>
    (Completion.absorb type (complete supplied (path ++ [.index index]))).andThen fun first =>
      (items complete type path rest (index + 1)).andThen fun others => .value (first :: others)

def list (mocks : Mocks) (position : Position) (item : TypeRef) (complete : Completer) : Completer
  | some (.array supplied), path =>
    (items complete item path (supplied.map some) 0).andThen fun values => .value (.array values)
  | some other, path => .fail (.unexpected (TypeRef.list item).text other) path
  | none, path => fun random =>
    let (length, random) := mocks.drawLength position item.namedType random
    ((items complete item path (List.replicate length none) 0).andThen fun values =>
      .value (.array values)) random

def leaf (mocks : Mocks) (position : Position) (type : TypeDef) : Completer
  | some value, path => .ofResult path (type.coerce value)
  | none, path => fun random =>
    let (result, random) := mocks.drawLeaf position type random
    Completion.ofResult path result random

/-- Completes an object. What nothing supplies may be given by the rule of its type. -/
def object (mocks : Mocks) (position : Position) (name : String) (fields : Ordered String FieldDef)
    (complete : FieldsCompleter) : Completer := fun supplied path =>
  let finish (provided : Option (Ordered String Json)) : Completion Json :=
    (complete name fields provided path).andThen fun members => .value (.object members)
  match supplied with
  | some (.object members) => finish (some members)
  | some other => .fail (.unexpected name other) path
  | none =>
    match mocks.objectSeed? position name with
    | some (.ok members) => finish (some members)
    | some (.error error) => .fail error path
    | none => finish none

def named (schema : TypeSystem) (mocks : Mocks) (position : Position) (complete : FieldsCompleter)
    (name : String) : Completer :=
  match Ordered.get? schema.types name with
  | none => fun _ path => .fail (.internal (.unknownType name)) path
  | some (.object _ _ fields) => object mocks position name fields complete
  | some type => leaf mocks position type

/-- Completes a value of any type, given how to complete the fields of objects in it. -/
def ofType (schema : TypeSystem) (mocks : Mocks) (position : Position)
    (complete : FieldsCompleter) : TypeRef → Completer
  | .named name => orNull (named schema mocks position complete name)
  | .list item => orNull (list mocks position item (ofType schema mocks position complete item))
  | .nonNull inner => nonNull position (ofType schema mocks position complete inner)

end Completer

namespace Completion

/-- Completes the value of a field of a type. What nothing supplies may be given by the field's
rule. -/
def field (schema : TypeSystem) (mocks : Mocks) (parent name : String) (type : TypeRef)
    (complete : FieldsCompleter) (supplied : Option Json) (path : List PathSegment) :
    Completion Json :=
  let position := Position.ofField parent name
  let finish (supplied : Option Json) : Completion Json :=
    Completion.absorb type (Completer.ofType schema mocks position complete type supplied path)
  match supplied with
  | some value => finish (some value)
  | none =>
    match mocks.fieldValue? position with
    | some (.ok value) => finish (some value)
    | some (.error error) => absorb type (fail error path)
    | none => finish none

mutual

/-- Completes a selected field of an object. What is not supplied as a member is mocked. -/
def member (schema : TypeSystem) (mocks : Mocks) :
    FieldSelection → String → Ordered String FieldDef → Option (Ordered String Json) →
      List PathSegment → Completion Json
  | ⟨name, _, _, selection⟩, parent, definitions, provided, path =>
    if name = "__typename" then .value (.string parent)
    else
      match Ordered.get? definitions name with
      | none => .fail (.internal (.unknownField parent name)) path
      | some definition =>
        let supplied := provided.bind fun members => Ordered.get? members name
        field schema mocks parent name definition.type (fields schema mocks selection []) supplied
          path

/-- Completes the selected fields of an object after those that are done. -/
def fields (schema : TypeSystem) (mocks : Mocks) :
    List FieldSelection → Ordered String Json → FieldsCompleter
  | [], done, _, _, _, _ => .value done
  | field :: rest, done, parent, definitions, provided, path =>
    let key := field.responseKey
    (member schema mocks field parent definitions provided (path ++ [.field key])).andThen
      fun value =>
        fields schema mocks rest (Ordered.insert done key value) parent definitions provided path

end

section

variable (schema : TypeSystem) (mocks : Mocks) (parent : String)
  (definitions : Ordered String FieldDef) (provided : Option (Ordered String Json))
  (path : List PathSegment)

/-- Fields with keys of their own come after those that are done and do not depend on them. -/
theorem fields_append (selection : List FieldSelection) :
    ∀ done : Ordered String Json, (selection.map FieldSelection.responseKey).Nodup →
      (∀ field ∈ selection, field.responseKey ∉ done.keys) →
      fields schema mocks selection done parent definitions provided path =
        (fields schema mocks selection [] parent definitions provided path).andThen
          fun members => value (done ++ members) := by
  induction selection with
  | nil =>
    intro done distinct fresh
    simp only [fields, value_andThen, List.append_nil]
  | cons field rest ih =>
    intro done distinct fresh
    obtain ⟨unique, distinct⟩ := List.nodup_cons.mp distinct
    have step : ∀ done : Ordered String Json,
        (∀ other ∈ field :: rest, other.responseKey ∉ done.keys) →
          fields schema mocks (field :: rest) done parent definitions provided path =
            (member schema mocks field parent definitions provided
                (path ++ [.field field.responseKey])).andThen fun first =>
              (fields schema mocks rest [] parent definitions provided path).andThen fun others =>
                value (done ++ (field.responseKey, first) :: others) := by
      intro done fresh
      conv => lhs; unfold fields
      dsimp only
      congr
      funext first
      rw [ih _ distinct (FieldSelection.fresh_insert unique fresh first),
        Ordered.insert_of_notMem done _ first (fresh field (List.mem_cons_self ..))]
      simp only [List.append_assoc, List.singleton_append]
    rw [step done fresh, step [] (by simp)]
    simp only [andThen_assoc, value_andThen, List.nil_append]

theorem fields_cons {field : FieldSelection} {rest : List FieldSelection}
    (distinct : ((field :: rest).map FieldSelection.responseKey).Nodup) :
    fields schema mocks (field :: rest) [] parent definitions provided path =
      (member schema mocks field parent definitions provided
          (path ++ [.field field.responseKey])).andThen fun first =>
        (fields schema mocks rest [] parent definitions provided path).andThen fun others =>
          value ((field.responseKey, first) :: others) := by
  obtain ⟨unique, distinct⟩ := List.nodup_cons.mp distinct
  conv => lhs; unfold fields
  dsimp only
  congr
  funext first
  exact fields_append schema mocks parent definitions provided path rest _ distinct
    (FieldSelection.fresh_insert unique (by simp) first)

end

end Completion

/-- Completes a value of a type, with what is selected on the objects in it. -/
abbrev Completer.ofSelection (schema : TypeSystem) (mocks : Mocks) (position : Position)
    (selection : List FieldSelection) (type : TypeRef) : Completer :=
  ofType schema mocks position (Completion.fields schema mocks selection []) type

namespace Mocks

/-- Produces a value of a type at a position, with the selected fields of objects. Where a request
would make something null, the first error is the result. -/
def generate (mocks : Mocks) (schema : TypeSystem) (type : TypeRef) (position : Position)
    (selection : List FieldSelection) (random : Random) : Except ResolutionError Json × Random :=
  let finish (supplied : Option Json) : Except ResolutionError Json × Random :=
    let done := Completer.ofSelection schema mocks position selection type supplied [] random
    match done.failures with
    | failure :: _ => (.error failure.error, done.random)
    | [] => (done.value.elim (.error (.internal .lostNull)) .ok, done.random)
  match mocks.fieldValue? position with
  | some (.error error) => (.error error, random)
  | some (.ok value) => finish (some value)
  | none => finish none

end Mocks

end MockGraph
