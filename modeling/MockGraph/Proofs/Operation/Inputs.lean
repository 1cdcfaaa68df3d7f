import MockGraph.Proofs.Execution.Agreement
set_option autoImplicit false

namespace MockGraph

open Syntax TypeSystem

theorem TypeRef.isList_nullable (type : TypeRef) : type.nullable.isList = type.isList := by
  cases type <;> rfl

theorem TypeRef.isList_of_fitsInto {type target : TypeRef} (fits : type.fitsInto target = true)
    (single : target.isList = false) : type.isList = false := by
  induction type generalizing target with
  | named => rfl
  | list item =>
    cases target with
    | list => cases single
    | named | nonNull => simp [fitsInto] at fits
  | nonNull inner ih =>
    cases target with
    | nonNull wanted =>
      rw [fitsInto] at fits
      exact ih fits single
    | named | list =>
      simp only [fitsInto] at fits
      exact ih fits single

namespace Syntax.Literal

/-- An input object names a field that it has named already, with a literal. -/
def Again (fields : List (String × Literal)) (name : String) (literal : Literal) : Prop :=
  ∃ front back, fields = front ++ (name, literal) :: back ∧ name ∈ front.map Prod.fst

/-- The members of an object are the values of fields that are written. -/
theorem mem_fieldValues {bindings : Ordered String Json} {entry : String × Json}
    (fields : List (String × Literal)) :
    ∀ read : Ordered String Json, entry ∈ fieldValues bindings fields read →
      entry ∈ read ∨ ∃ front literal back, fields = front ++ (entry.1, literal) :: back ∧
        literal.valueOrNull bindings = entry.2 := by
  induction fields with
  | nil => exact fun _ member => Or.inl member
  | cons field rest ih =>
    obtain ⟨name, literal⟩ := field
    intro read member
    rw [fieldValues] at member
    rcases ih _ member with before | ⟨front, other, back, rfl, value⟩
    · rcases Ordered.mem_insert before with old | rfl
      · exact Or.inl old
      · exact Or.inr ⟨[], literal, rest, rfl, rfl⟩
    · exact Or.inr ⟨(name, literal) :: front, other, back, rfl, value⟩

end Syntax.Literal

namespace TypeSystem

variable {schema : TypeSystem} {variableDefs : List VariableDefinition}
  {bindings provided : Ordered String Json}

/-- A field of an accepted input object is known, and accepted where it comes for the first time. -/
theorem accepts_of_acceptsFields {inputs : Ordered String InputDef} {name : String}
    {literal : Literal} {back : List (String × Literal)} (front : List (String × Literal)) :
    ∀ seen : List String,
      schema.acceptsFields variableDefs inputs seen (front ++ (name, literal) :: back) = true →
        ∃ input, Ordered.get? inputs name = some input ∧
          (name ∈ seen ∨ name ∈ front.map Prod.fst ∨
            schema.accepts variableDefs input.type literal = true) := by
  induction front with
  | nil =>
    intro seen accepted
    rw [List.nil_append, acceptsFields, Bool.and_eq_true] at accepted
    cases known : Ordered.get? inputs name with
    | none => simp [known] at accepted
    | some input =>
      simp only [known, Bool.or_eq_true, List.contains_iff_mem] at accepted
      exact ⟨input, rfl, accepted.1.imp_right Or.inr⟩
  | cons first rest ih =>
    intro seen accepted
    obtain ⟨other, _⟩ := first
    rw [List.cons_append, acceptsFields, Bool.and_eq_true] at accepted
    obtain ⟨input, known, held⟩ := ih (other :: seen) accepted.2
    refine ⟨input, known, ?_⟩
    rcases held with before | inside | now
    · rcases List.mem_cons.mp before with rfl | early
      · exact Or.inr (Or.inl List.mem_cons_self)
      · exact Or.inl early
    · exact Or.inr (Or.inl (List.mem_cons_of_mem _ inside))
    · exact Or.inr (Or.inr now)

/-- A text that a literal gives for an enum is one of its symbols, or that of a variable. -/
theorem symbol_of_accepts {type : TypeRef} {literal : Literal} {name symbol : String}
    {description : Option String} {symbols : List String}
    (known : schema.typeNamed? type.namedType = some (.enum name description symbols))
    (accepted : schema.accepts variableDefs type literal = true)
    (value : literal.valueOrNull bindings = .string symbol) :
    symbol ∈ symbols ∨ ∃ variableName, literal = .variable variableName ∧
      variableMatches variableDefs type variableName = true ∧
      Ordered.get? bindings variableName = some (.string symbol) := by
  cases literal with
  | enum written =>
    rw [Literal.valueOrNull, Json.string.injEq] at value
    simp only [accepts, known, List.contains_iff_mem] at accepted
    exact Or.inl (value ▸ accepted)
  | «variable» variableName =>
    refine Or.inr ⟨variableName, rfl, ?_, ?_⟩
    · simp only [accepts, known, Bool.and_eq_true] at accepted
      exact accepted.2
    · rw [Literal.valueOrNull] at value
      cases found : Ordered.get? bindings variableName with
      | none => simp [found] at value
      | some there =>
        rw [found] at value
        exact congrArg some value
  | string written => simp [accepts, known] at accepted
  | int text => simp [accepts, known] at accepted
  | float text => simp [accepts, known] at accepted
  | null | bool | list | object => simp [Literal.valueOrNull] at value

/-- A variable that is accepted for a type is declared, with a type of that name. -/
theorem declared_of_matches {type : TypeRef} {name : String}
    (declares : variableMatches variableDefs type name = true) : ∃ declared,
      variableDefs.find? (·.name == name) = some declared ∧ declared.name = name ∧
      declared.type.namedType = type.namedType := by
  rw [variableMatches] at declares
  cases found : variableDefs.find? (·.name == name) with
  | none => simp [found] at declares
  | some declared =>
    rw [found] at declares
    exact ⟨declared, rfl, by simpa using List.find?_some found, by simpa using declares⟩

/-- A variable is no list where it may be used for what is no list. -/
theorem single_of_usable {input : InputDef} {name : String} {declared : VariableDefinition}
    (usable : variableUsable variableDefs input (.variable name) = true)
    (single : input.type.isList = false)
    (found : variableDefs.find? (·.name == name) = some declared) :
    declared.type.isList = false := by
  rw [variableUsable, found] at usable
  dsimp only at usable
  split at usable
  · apply TypeRef.isList_of_fitsInto (Bool.and_eq_true_iff.mp usable).2
    rw [TypeRef.isList_nullable]
    exact single
  · exact TypeRef.isList_of_fitsInto usable single

/-- The value of a variable is the one that the request provides, which nothing has checked, or its
default, which was accepted for its type. -/
theorem provided_or_accepted (sound : schema.variablesSound variableDefs = true)
    (coerced : coerceVariables variableDefs provided = .ok bindings) {declared : VariableDefinition}
    (member : declared ∈ variableDefs) {value : Json}
    (found : Ordered.get? bindings declared.name = some value) :
    Ordered.get? provided declared.name = some value ∨ ∃ default, declared.default = some default ∧
      schema.accepts [] declared.type default = true ∧ default.constant = value := by
  have now :=
    (coerced_of_mem variableDefs (variables_of_sound sound).1 member provided coerced).value
  rw [found] at now
  cases given : Ordered.get? provided declared.name with
  | some other =>
    rw [given] at now
    exact Or.inl now.symm
  | none =>
    rw [given, Option.none_or] at now
    obtain ⟨default, defaulted, constant⟩ := Option.map_eq_some_iff.mp now.symm
    simp only [variablesSound, Bool.and_eq_true, List.all_eq_true] at sound
    have accepted := (sound.2 declared member).2
    rw [defaulted] at accepted
    exact Or.inr ⟨default, defaulted, accepted, constant⟩

/-- An argument that a field is given is declared, and its literal was accepted. -/
theorem input_of_allowed {inputs : Ordered String InputDef} {arguments : List (String × Literal)}
    (allowed : schema.argumentsAllowed variableDefs inputs arguments = true) {name : String}
    {literal : Literal} (given : (name, literal) ∈ arguments) :
    ∃ input, Ordered.get? inputs name = some input ∧
      variableUsable variableDefs input literal = true ∧
      schema.accepts variableDefs input.type literal = true := by
  simp only [argumentsAllowed, Bool.and_eq_true, List.all_eq_true] at allowed
  have each := allowed.1.2 _ given
  cases known : Ordered.get? inputs name with
  | none => simp [known] at each
  | some input =>
    simp only [known, Bool.and_eq_true] at each
    exact ⟨input, rfl, each⟩

/-- Where no argument has a default, there is nothing but what is given. -/
theorem withDefaults_of_plain {inputs : Ordered String InputDef}
    (plain : ∀ entry ∈ inputs, entry.2.default = none) :
    ∀ given, withDefaults inputs given = given := by
  induction inputs with
  | nil => exact fun _ => rfl
  | cons entry rest ih =>
    intro given
    obtain ⟨key, input⟩ := entry
    have bare : input.default = none := plain (key, input) List.mem_cons_self
    rw [withDefaults_cons, bare, Option.map_none, Option.getD_none, ite_self]
    exact ih (fun entry member => plain entry (List.mem_cons_of_mem _ member)) given

/-- An argument without a default has the value of the literal that is given for it. -/
theorem literal_of_value {inputs : Ordered String InputDef}
    (plain : ∀ entry ∈ inputs, entry.2.default = none) {arguments : List (String × Literal)}
    {name : String} {value : Json}
    (found : Ordered.get? (withDefaults inputs (givenArguments bindings arguments)) name =
      some value) :
    ∃ literal, (name, literal) ∈ arguments ∧ literal.value? bindings = some value := by
  rw [withDefaults_of_plain plain] at found
  exact mem_of_givenArguments found

/-- The keys of an operation that was read are distinct at every level. -/
theorem distinctKeys_of_parsed {text : String} {name : Option String} {operation : Operation}
    {provided : Option (Ordered String Json)}
    (parsed : schema.parseOperation text name provided = .ok operation) :
    FieldSelection.DistinctKeys operation.selection := by
  obtain ⟨document, definition, bindings, -, -, -, -, rfl⟩ := parseOperation_cases parsed
  exact distinctKeys_lowered _ _ _

/-- A field at the root of an operation has the value of an argument from a literal of the document,
which was accepted for it: of the first field that the document selects under its key. -/
structure Written (schema : TypeSystem) (document : Document) (definition : OperationDefinition)
    (bindings : Ordered String Json) (root : String) (field : FieldSelection) (name : String)
    (input : InputDef) (value : Json) (node : FieldNode) (literal : Literal) : Prop where
  runs : ∃ alike, Runs schema document definition bindings root root node alike
  key : field.responseKey = node.responseKey
  named : field.name = node.name
  given : Ordered.get? field.arguments name = some value
  written : (name, literal) ∈ node.arguments
  usable : variableUsable definition.variableDefs input literal = true
  fits : schema.accepts definition.variableDefs input.type literal = true
  value : literal.value? bindings = some value

/-- The arguments of fields at the root of an accepted operation are written in its document, where
the schema gives them no defaults. -/
theorem written_of_parsed {sdl text : String} {name : Option String}
    {provided : Option (Ordered String Json)} {operation : Operation}
    (loaded : parse sdl = .ok schema)
    (parsed : schema.parseOperation text name provided = .ok operation) {root : String}
    (known : schema.root? operation.kind = some root) :
    ∃ document definition, Document.parse? text = some document ∧
      document.operation? name = .ok definition ∧
      Accepted schema document definition (provided.getD []) operation.bindings root ∧
      ∀ field ∈ operation.selection, field.name ≠ "__typename" →
        ∀ declared, schema.field root field.name = .ok declared →
          (∀ entry ∈ declared.arguments, entry.2.default = none) →
          ∀ argument value, Ordered.get? field.arguments argument = some value →
            ∃ input node literal, Ordered.get? declared.arguments argument = some input ∧
              Written schema document definition operation.bindings root field argument input value
                node literal := by
  obtain ⟨document, definition, there, nodes, read, chosen, kind, accepted, expands, collects⟩ :=
    accepted_of_parsed loaded parsed
  obtain rfl : there = root := by
    have same := accepted.known
    rw [kind, known] at same
    exact (Option.some.inj same).symm
  refine ⟨document, definition, read, chosen, accepted, ?_⟩
  intro field member notTypename declared found plain argument value given
  obtain ⟨node, first, named, values⟩ := collects.first member
  have key : node.responseKey = field.responseKey := by simpa using List.find?_some first
  have runs : Runs schema document definition operation.bindings there there node
      (nodes.filter (·.responseKey = node.responseKey)) := by
    refine ⟨⟨_, nodes, .root, expands, rfl⟩, ?_⟩
    rw [List.head?_filter, key]
    exact first
  obtain ⟨checked, each, -⟩ := accepted.allowed runs
  have allowed := (each node (List.mem_of_head? runs.first)).2
  obtain rfl := allowed.declared_eq (named ▸ notTypename) (named ▸ found)
  have found := given
  rw [values, allowed.values_eq] at found
  obtain ⟨literal, written, value⟩ := literal_of_value plain found
  obtain ⟨input, taken, usable, fits⟩ := input_of_allowed allowed.field.arguments written
  exact ⟨input, node, literal, taken, ⟨_, runs⟩, key.symm, named, given, written, usable, fits,
    value⟩

end TypeSystem

end MockGraph
