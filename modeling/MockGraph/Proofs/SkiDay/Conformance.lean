import MockGraph.Proofs.Execution.Precedence
import MockGraph.Proofs.Operation.Inputs
import MockGraph.Proofs.SkiDay.Days
set_option autoImplicit false

namespace MockGraph

namespace SkiDay

open Syntax TypeSystem

/-- The symbols that the schema declares for conditions. -/
def symbols : List String :=
  match schema.typeNamed? "Conditions" with
  | some (.enum _ _ symbols) => symbols
  | _ => []

/-- A value is a day as the schema declares it. -/
def Conforms (value : Json) : Prop :=
  ∃ id date mountain conditions,
    value = .object [("id", .string id), ("date", .string date), ("mountain", .string mountain),
      ("conditions", conditions)] ∧
    (conditions = .null ∨ ∃ symbol ∈ symbols, conditions = .string symbol)

theorem conforms_toJson (day : Day) :
    Conforms day.toJson ∨ ∃ symbol, day.conditions = some symbol ∧ symbol ∉ symbols := by
  obtain ⟨id, date, mountain, conditions⟩ := day
  cases conditions with
  | none => exact Or.inl ⟨id, date, mountain, .null, rfl, Or.inl rfl⟩
  | some symbol =>
    by_cases declared : symbol ∈ symbols
    · exact Or.inl ⟨id, date, mountain, .string symbol, rfl, Or.inr ⟨symbol, declared, rfl⟩⟩
    · exact Or.inr ⟨symbol, rfl, declared⟩

/-- An operation gives a symbol for the conditions of a day, and nothing holds it against the
schema. -/
inductive Smuggles (document : Document) (definition : OperationDefinition)
    (provided bindings : Ordered String Json) (symbol : String) : Prop
  /-- A variable is provided that is a whole day. -/
  | day {declared value input} : declared ∈ definition.variableDefs →
      declared.type.namedType = "AddDayInput" → Ordered.get? provided declared.name = some value →
      NewDay.read value = .ok input → input.conditions = some symbol →
      Smuggles document definition provided bindings symbol
  /-- A variable is provided for the conditions. -/
  | conditions {declared} : declared ∈ definition.variableDefs →
      declared.type.namedType = "Conditions" →
      Ordered.get? provided declared.name = some (.string symbol) →
      Smuggles document definition provided bindings symbol
  /-- The input of a root field names the conditions again. -/
  | again {root node alike fields literal} :
      Runs schema document definition bindings root root node alike →
      ("input", .object fields) ∈ node.arguments → Literal.Again fields "conditions" literal →
      literal.valueOrNull bindings = .string symbol →
      Smuggles document definition provided bindings symbol
  /-- The default of a variable names the conditions again. -/
  | defaultAgain {declared fields literal} : declared ∈ definition.variableDefs →
      declared.default = some (.object fields) → Literal.Again fields "conditions" literal →
      literal.constant = .string symbol → Smuggles document definition provided bindings symbol

/-- A request is accepted, and its operation smuggles a symbol. -/
def Smuggled (request : Request) (symbol : String) : Prop :=
  let provided := request.bindings.getD []
  ∃ document definition bindings, Document.parse? request.query = some document ∧
    document.operation? request.operationName = .ok definition ∧
    coerceVariables definition.variableDefs provided = .ok bindings ∧
    Smuggles document definition provided bindings symbol

/-- A day conforms to its type, or a request has smuggled its conditions, which the schema does not
declare. -/
def Accounts (request : Request) (day : Day) : Prop :=
  Conforms day.toJson ∨
    ∃ symbol, day.conditions = some symbol ∧ symbol ∉ symbols ∧ Smuggled request symbol

section Arguments

variable {variableDefs : List VariableDefinition} {bindings provided : Ordered String Json}
  {symbol : String}

/-- A member leaves the conditions as they were, or is the one that has them. -/
theorem readMembers_cons {name : String} {value : Json} {rest : List (String × Json)}
    {draft done : NewDay.Draft}
    (read : NewDay.readMembers ((name, value) :: rest) draft = .ok done) :
    ∃ next, NewDay.readMembers rest next = .ok done ∧
      (next.conditions = draft.conditions ∨
        name = "conditions" ∧
          ∀ symbol, next.conditions = some symbol → value = .string symbol) := by
  by_cases isConditions : name = "conditions"
  · subst name
    simp only [NewDay.readMembers] at read
    cases found : Reader.optional Reader.text value with
    | error mismatch => simp [found, Except.map] at read
    | ok conditions =>
      simp only [found, Except.map] at read
      refine ⟨_, read, Or.inr ⟨rfl, ?_⟩⟩
      rintro symbol rfl
      cases value with
      | string text =>
        cases found
        rfl
      | _ => cases found
  · by_cases isDate : name = "date"
    · subst name
      simp only [NewDay.readMembers] at read
      cases found : Reader.text value with
      | error mismatch => simp [found, Except.map] at read
      | ok date =>
        simp only [found, Except.map] at read
        exact ⟨_, read, Or.inl rfl⟩
    · by_cases isMountain : name = "mountain"
      · subst name
        simp only [NewDay.readMembers] at read
        cases found : Reader.text value with
        | error mismatch => simp [found, Except.map] at read
        | ok mountain =>
          simp only [found, Except.map] at read
          exact ⟨_, read, Or.inl rfl⟩
      · rw [NewDay.readMembers] at read
        · exact ⟨_, read, Or.inl rfl⟩
        · exact isDate
        · exact isMountain
        · exact isConditions

/-- The conditions that are read are those of a member, or they were there. -/
theorem conditions_of_readMembers (members : List (String × Json)) : ∀ draft done : NewDay.Draft,
    NewDay.readMembers members draft = .ok done → done.conditions = some symbol →
      draft.conditions = some symbol ∨ ("conditions", Json.string symbol) ∈ members := by
  induction members with
  | nil =>
    intro draft done read stored
    cases read
    exact Or.inl stored
  | cons entry rest ih =>
    intro draft done read stored
    obtain ⟨next, read, member⟩ := readMembers_cons read
    rcases ih next done read stored with before | inside
    · rcases member with same | ⟨isConditions, own⟩
      · exact Or.inl (same.symm.trans before)
      · exact Or.inr
          (List.mem_cons.mpr (Or.inl (Prod.ext isConditions.symm (own symbol before).symm)))
    · exact Or.inr (List.mem_cons_of_mem _ inside)

/-- The conditions of a day that is read from an object are its member. -/
theorem conditions_of_read {members : List (String × Json)} {input : NewDay}
    (read : NewDay.read (.object members) = .ok input) (stored : input.conditions = some symbol) :
    ("conditions", Json.string symbol) ∈ members := by
  unfold NewDay.read at read
  dsimp only at read
  split at read
  · cases read
  · rename_i draft found
    have kept : draft.conditions = some symbol := by
      rw [← stored]
      unfold NewDay.finish at read
      split at read
      · cases read
      · cases read
      · cases read
        rfl
    rcases conditions_of_readMembers members _ draft found kept with before | member
    · cases before
    · exact member

theorem typeNamed_of_newDay {type : TypeRef} (isDay : type.namedType = "AddDayInput") :
    schema.typeNamed? type.namedType = some (.input "AddDayInput" none
      [("date", ⟨"date", none, .nonNull (.named "Date"), none⟩),
        ("mountain", ⟨"mountain", none, .nonNull (.named "String"), none⟩),
        ("conditions", ⟨"conditions", none, .named "Conditions", none⟩)]) := by
  rw [isDay]
  rfl

/-- Where an input object for a new day was accepted, its conditions are a declared symbol, the
value of a variable, or named again. -/
theorem symbol_of_object {type : TypeRef} {fields : List (String × Literal)} {input : NewDay}
    (isDay : type.namedType = "AddDayInput")
    (accepted : schema.accepts variableDefs type (.object fields) = true)
    (read : NewDay.read (.object (Literal.fieldValues bindings fields [])) = .ok input)
    (stored : input.conditions = some symbol) :
    symbol ∈ symbols ∨
      (∃ name, variableMatches variableDefs (.named "Conditions") name = true ∧
        Ordered.get? bindings name = some (.string symbol)) ∨
      ∃ literal, Literal.Again fields "conditions" literal ∧
        literal.valueOrNull bindings = .string symbol := by
  have member := conditions_of_read read stored
  rcases Literal.mem_fieldValues fields [] member with none | ⟨front, literal, back, rfl, value⟩
  · cases none
  simp only [accepts, typeNamed_of_newDay isDay, Bool.and_eq_true] at accepted
  obtain ⟨conditions, declared, held⟩ := accepts_of_acceptsFields front [] accepted.2
  obtain rfl := Option.some.inj declared
  rcases held with none | again | held
  · cases none
  · exact Or.inr (Or.inr ⟨literal, ⟨front, back, rfl, again⟩, value⟩)
  · have isEnum : schema.typeNamed? (TypeRef.named "Conditions").namedType =
        some (.enum "Conditions" none symbols) := rfl
    rcases symbol_of_accepts isEnum held value with listed | ⟨name, -, matched, found⟩
    · exact Or.inl listed
    · exact Or.inr (Or.inl ⟨name, matched, found⟩)

/-- Without variables, what is accepted for a new day gives a declared symbol, or names the
conditions again. -/
theorem symbol_of_constant {type : TypeRef} {literal : Literal} {input : NewDay}
    (isDay : type.namedType = "AddDayInput") (single : type.isList = false)
    (accepted : schema.accepts [] type literal = true)
    (read : NewDay.read literal.constant = .ok input) (stored : input.conditions = some symbol) :
    symbol ∈ symbols ∨ ∃ fields repeated, literal = .object fields ∧
      Literal.Again fields "conditions" repeated ∧ repeated.constant = .string symbol := by
  have isInput := typeNamed_of_newDay isDay
  cases literal with
  | object fields =>
    rcases symbol_of_object isDay accepted read stored with
      listed | ⟨name, matched, -⟩ | ⟨repeated, again, value⟩
    · exact Or.inl listed
    · cases matched
    · exact Or.inr ⟨fields, repeated, rfl, again, value⟩
  | null => cases read
  | «variable» => simp [accepts, isInput, variableMatches] at accepted
  | list => simp [accepts, isInput, single] at accepted
  | bool | int | float | string | enum => simp [accepts, isInput] at accepted

/-- A variable that is a symbol for conditions is provided as one, or the symbol is declared. -/
theorem symbol_of_variable (sound : schema.variablesSound variableDefs = true)
    (coerced : coerceVariables variableDefs provided = .ok bindings) {name : String}
    (matched : variableMatches variableDefs (.named "Conditions") name = true)
    (found : Ordered.get? bindings name = some (.string symbol)) :
    symbol ∈ symbols ∨ ∃ declared ∈ variableDefs, declared.type.namedType = "Conditions" ∧
      Ordered.get? provided declared.name = some (.string symbol) := by
  obtain ⟨declared, there, rfl, isConditions⟩ := declared_of_matches matched
  have member := List.mem_of_find?_eq_some there
  rcases provided_or_accepted sound coerced member found with
    given | ⟨default, -, accepted, constant⟩
  · exact Or.inr ⟨declared, member, isConditions, given⟩
  · have known : schema.typeNamed? declared.type.namedType = schema.typeNamed? "Conditions" := by
      rw [isConditions]
      rfl
    rcases symbol_of_accepts (known.trans rfl) accepted constant with listed | ⟨_, -, impossible, -⟩
    · exact Or.inl listed
    · cases impossible

/-- The conditions of a day that an accepted argument gives are declared, or they are smuggled. -/
theorem smuggles_of_written {document : Document} {definition : OperationDefinition} {root : String}
    (accepted : Accepted schema document definition provided bindings root) {field : FieldSelection}
    {given : InputDef} (isDay : given.type = .nonNull (.named "AddDayInput")) {value : Json}
    {node : FieldNode} {literal : Literal}
    (written : Written schema document definition bindings root field "input" given value node
      literal) {input : NewDay} (read : NewDay.read value = .ok input)
    (stored : input.conditions = some symbol) :
    symbol ∈ symbols ∨ Smuggles document definition provided bindings symbol := by
  obtain ⟨⟨alike, runs⟩, -, -, -, written, usable, fits, found⟩ := written
  obtain ⟨named, required, single⟩ : given.type.namedType = "AddDayInput" ∧
      given.type.isNonNull = true ∧ given.type.isList = false := by
    rw [isDay]
    exact ⟨rfl, rfl, rfl⟩
  have isInput := typeNamed_of_newDay named
  cases literal with
  | object fields =>
    obtain rfl := Option.some.inj found
    rcases symbol_of_object named fits read stored with
      listed | ⟨name, matched, bound⟩ | ⟨repeated, again, value⟩
    · exact Or.inl listed
    · rcases symbol_of_variable accepted.variablesSound accepted.coerced matched bound with
        listed | ⟨declared, member, isConditions, given⟩
      · exact Or.inl listed
      · exact Or.inr (.conditions member isConditions given)
    · exact Or.inr (.again runs written again value)
  | «variable» name =>
    have matched : variableMatches definition.variableDefs given.type name = true := by
      simp only [accepts, isInput, Bool.and_eq_true] at fits
      exact fits.2
    obtain ⟨declared, there, rfl, same⟩ := declared_of_matches matched
    have member := List.mem_of_find?_eq_some there
    have whole : declared.type.namedType = "AddDayInput" := same.trans named
    have single : declared.type.isList = false := single_of_usable usable single there
    rcases provided_or_accepted accepted.variablesSound accepted.coerced member found with
      given | ⟨default, defaulted, fits, rfl⟩
    · exact Or.inr (.day member whole given read stored)
    · rcases symbol_of_constant whole single fits read stored with
        listed | ⟨fields, repeated, rfl, again, value⟩
      · exact Or.inl listed
      · exact Or.inr (.defaultAgain member defaulted again value)
  | null => simp [accepts, required, isInput] at fits
  | list => simp [accepts, single, isInput] at fits
  | bool | int | float | string | enum => simp [accepts, isInput] at fits

end Arguments

theorem get?_of_require {α : Type} {read : Reader α} {arguments : Ordered String Json}
    {name : String} {a : α} (required : Argument.require read arguments name = .ok a) :
    ∃ value, Ordered.get? arguments name = some value ∧ read value = .ok a := by
  unfold Argument.require at required
  split at required
  · cases required
  · rename_i value found
    split at required
    · rename_i _ succeeded
      cases required
      exact ⟨value, found, succeeded⟩
    · cases required

section Requests

variable {mocks : Mocks} {request : Request} {operation : Operation} {world : World Store}
  {exchange : Exchange Store}
  (parsed : schema.parseOperation request.query request.operationName request.bindings =
    .ok operation)
  (member : exchange ∈ (⟨schema, mocks, Store.handlers⟩ : Engine Store).exchanges operation world)

include parsed member in
/-- The conditions of a day that is read for `addDay` are declared, or the request has smuggled
them. -/
theorem smuggled_of_exchange (isAdd : exchange.call.field.name = "addDay") {input : NewDay}
    (required : Argument.require NewDay.read exchange.call.field.arguments "input" = .ok input)
    {symbol : String} (stored : input.conditions = some symbol) :
    symbol ∈ symbols ∨ Smuggled request symbol := by
  obtain ⟨known, inside, -, -, -⟩ := found_of_exchange member
  obtain ⟨document, definition, read, chosen, accepted, each⟩ :=
    written_of_parsed parse_schemaText parsed known
  obtain ⟨value, given, succeeded⟩ := get?_of_require required
  have declared : schema.field "Mutation" exchange.call.field.name =
      .ok ⟨"addDay", none, .nonNull (.named "SkiDay"),
        [("input", ⟨"input", none, .nonNull (.named "AddDayInput"), none⟩)]⟩ := by
    rw [isAdd]
    rfl
  obtain ⟨_, node, literal, taken, written⟩ :=
    each _ inside (by rw [isAdd]; decide) _ declared (by simp) "input" value given
  obtain rfl := Option.some.inj taken
  rcases smuggles_of_written accepted rfl written succeeded stored with listed | smuggles
  · exact Or.inl listed
  · exact Or.inr
      ⟨document, definition, operation.bindings, read, chosen, accepted.coerced, smuggles⟩

include member in
/-- What a reply does: it refuses, or it adds a day and publishes it, or it removes days. -/
theorem reply_cases :
    (exchange.reply.state = exchange.met ∧ exchange.reply.events = [] ∧
      ∃ error, exchange.reply.result = .error error) ∨
    (∃ input, exchange.call.field.name = "addDay" ∧
      Argument.require NewDay.read exchange.call.field.arguments "input" = .ok input ∧
      exchange.reply = ⟨.ok (exchange.met.add input).1.toJson, (exchange.met.add input).2,
        [Store.newDay (exchange.met.add input).1]⟩) ∨
    (exchange.call.field.name = "removeDay" ∧ exchange.reply.events = [] ∧
      ∀ entry ∈ exchange.reply.state.days, entry ∈ exchange.met.days) := by
  obtain ⟨-, -, -, found, replied⟩ := found_of_exchange member
  rcases field_of_handlers found with ⟨name, answer⟩ | ⟨name, answer⟩
  · rw [answer] at replied
    dsimp only at replied
    unfold Store.answerAdd at replied
    split at replied
    · exact Or.inl ⟨by rw [replied], by rw [replied], _, by rw [replied]⟩
    · rename_i input required
      exact Or.inr (Or.inl ⟨input, name, required, replied⟩)
  · rw [answer] at replied
    dsimp only at replied
    unfold Store.answerRemove at replied
    split at replied
    · exact Or.inl ⟨by rw [replied], by rw [replied], _, by rw [replied]⟩
    · refine Or.inr (Or.inr ⟨name, by rw [replied], fun entry inside => ?_⟩)
      rw [replied] at inside
      exact (List.mem_filter.mp inside).1

include parsed member in
/-- The day that is added is one that the request accounts for. -/
theorem accounts_of_exchange {input : NewDay} (isAdd : exchange.call.field.name = "addDay")
    (required : Argument.require NewDay.read exchange.call.field.arguments "input" = .ok input) :
    Accounts request (exchange.met.add input).1 := by
  rcases conforms_toJson (exchange.met.add input).1 with conforms | ⟨symbol, stored, undeclared⟩
  · exact Or.inl conforms
  · rcases smuggled_of_exchange parsed member isAdd required stored with listed | smuggled
    · exact absurd listed undeclared
    · exact Or.inr ⟨symbol, stored, undeclared, smuggled⟩

end Requests

section Completion

variable (mocks : Mocks) (position : Position) (complete : FieldsCompleter)

/-- A value of a leaf type that stands for itself is completed as it is, also where it may not be
null. -/
theorem ofType_of_coerce {name : String} {type : TypeDef}
    (known : Ordered.get? schema.types name = some type)
    (leaf : ∀ fields, schema.fieldsOf name ≠ .ok fields) {value : Json}
    (stands : type.coerce value = .ok value) (present : value ≠ .null) (path : List PathSegment) :
    Completer.ofType schema mocks position complete (.named name) (some value) path = .value value ∧
      Completer.ofType schema mocks position complete (.nonNull (.named name)) (some value)
        path = .value value := by
  have there : some value ≠ some Json.null := fun same => present (Option.some.inj same)
  have bare : Completer.ofType schema mocks position complete (.named name) (some value) path =
      .value value := by
    rw [Completer.ofType, Completer.orNull_of_ne there, named_of_leaf known leaf, Completer.leaf,
      stands]
    rfl
  refine ⟨bare, ?_⟩
  have notNull : value.isNull = false := by
    cases value with
    | null => exact absurd rfl present
    | _ => rfl
  have marked :
      Completer.nonNull position (Completer.ofType schema mocks position complete (.named name))
          (some value) path =
        (Completer.ofType schema mocks position complete (.named name) (some value) path).andThen
          fun value =>
            if value.isNull then .fail (.nullForNonNull position.text) path else .value value := by
    unfold Completer.nonNull
    split
    · exact absurd ‹_› there
    · rfl
  rw [Completer.ofType, marked, bare, Completion.value_andThen, notNull]
  rfl

theorem type_of_day {name : String} {definition : FieldDef}
    (declared : schema.field "SkiDay" name = .ok definition) :
    (name = "id" ∧ definition.type = .nonNull (.named "ID")) ∨
      (name = "date" ∧ definition.type = .nonNull (.named "Date")) ∨
      (name = "mountain" ∧ definition.type = .nonNull (.named "String")) ∨
      (name = "conditions" ∧ definition.type = .named "Conditions") := by
  obtain ⟨_, _, fields, resolved, found⟩ := object_of_field declared
  have member := Ordered.mem_of_get? found
  cases resolved
  simp only [List.mem_cons, List.not_mem_nil, or_false, Prod.mk.injEq] at member
  rcases member with ⟨rfl, rfl⟩ | ⟨rfl, rfl⟩ | ⟨rfl, rfl⟩ | ⟨rfl, rfl⟩
  · exact Or.inl ⟨rfl, rfl⟩
  · exact Or.inr (Or.inl ⟨rfl, rfl⟩)
  · exact Or.inr (Or.inr (Or.inl ⟨rfl, rfl⟩))
  · exact Or.inr (Or.inr (Or.inr ⟨rfl, rfl⟩))

variable {members : List (String × Json)} (conforms : Conforms (.object members))
include conforms

/-- The members of a value that conforms are completed without errors. -/
theorem ofType_of_day {name : String} {definition : FieldDef}
    (declared : schema.field "SkiDay" name = .ok definition) (path : List PathSegment) :
    ∃ value completed, Ordered.get? members name = some value ∧
      Completer.ofType schema mocks position complete definition.type (some value) path =
        .value completed := by
  obtain ⟨id, date, mountain, conditions, same, fits⟩ := conforms
  obtain rfl := Json.object.inj same
  have text : ∀ {name : String} {type : TypeDef} {text : String},
      Ordered.get? schema.types name = some type →
        schema.fieldsOf name = .error (.notAnObject name) →
        type.coerce (.string text) = .ok (.string text) → _ := fun known leaf stands =>
    ofType_of_coerce mocks position complete known (fun _ same => by cases leaf.symm.trans same)
      stands (fun same => by cases same) path
  rcases type_of_day declared with ⟨rfl, type⟩ | ⟨rfl, type⟩ | ⟨rfl, type⟩ | ⟨rfl, type⟩ <;>
    rw [type]
  · exact ⟨_, _, rfl, (text rfl rfl rfl).2⟩
  · exact ⟨_, _, rfl, (text rfl rfl rfl).2⟩
  · exact ⟨_, _, rfl, (text rfl rfl rfl).2⟩
  · rcases fits with rfl | ⟨symbol, listed, rfl⟩
    · exact ⟨.null, .null, rfl, rfl⟩
    · have stands : TypeDef.coerce (.enum "Conditions" none symbols) (.string symbol) =
          .ok (.string symbol) := by
        simp [TypeDef.coerce, Json.asString?, listed]
      exact ⟨_, _, rfl, (text rfl rfl stands).1⟩

/-- All that can be selected on a value that conforms is completed without errors. -/
theorem fields_of_day {definitions : Ordered String FieldDef}
    (known : schema.fieldsOf "SkiDay" = .ok definitions) (selection : List FieldSelection) :
    schema.selectionErrors "SkiDay" selection = [] → ∀ done path, ∃ completed,
      Completion.fields schema mocks selection done "SkiDay" definitions (some members) path =
        .value completed := by
  induction selection with
  | nil => exact fun _ done _ => ⟨done, rfl⟩
  | cons field rest ih =>
    intro valid done path
    obtain ⟨headValid, restValid⟩ := List.append_eq_nil_iff.mp valid
    have head : ∃ value, Completion.member schema mocks field "SkiDay" definitions (some members)
        (path ++ [.field field.responseKey]) = .value value := by
      by_cases isTypename : field.name = "__typename"
      · obtain ⟨name, aliasName, arguments, selection⟩ := field
        exact ⟨.string "SkiDay", by rw [Completion.member, if_pos isTypename]⟩
      · obtain ⟨definition, declared⟩ := field_of_valid headValid isTypename
        obtain ⟨value, completed, given, same⟩ :=
          ofType_of_day mocks (.ofField "SkiDay" field.name)
            (Completion.fields schema mocks field.selection []) conforms declared
            (path ++ [.field field.responseKey])
        have found : Ordered.get? definitions field.name = some definition := by
          rw [TypeSystem.field, known] at declared
          dsimp only at declared
          split at declared
          · rename_i there
            rw [there, Except.ok.inj declared]
          · cases declared
        refine ⟨completed, ?_⟩
        have fills :
            mocks.Fills (.ofField "SkiDay" field.name)
              (Option.bind (some members) fun members => Ordered.get? members field.name)
              (some value) := by
          rw [Option.bind_some, given]
          exact .supplied
        rw [Completion.member_of_fills isTypename found fills]
        exact congrArg (Completion.absorb definition.type) same
    obtain ⟨value, head⟩ := head
    obtain ⟨completed, later⟩ := ih restValid (Ordered.insert done field.responseKey value) path
    refine ⟨completed, ?_⟩
    conv => lhs; unfold Completion.fields
    dsimp only
    rw [head, Completion.value_andThen]
    exact later

/-- Whatever is selected on a day that conforms, it is completed without errors, also where it may
not be null. -/
theorem ofSelection_of_day (selection : List FieldSelection)
    (valid : schema.selectionErrors "SkiDay" selection = []) (path : List PathSegment) :
    ∃ completed,
      Completer.ofSelection schema mocks position selection (.named "SkiDay")
            (some (.object members)) path = .value (.object completed) ∧
        Completer.ofSelection schema mocks position selection (.nonNull (.named "SkiDay"))
            (some (.object members)) path = .value (.object completed) := by
  obtain ⟨definitions, known⟩ : ∃ definitions, schema.fieldsOf "SkiDay" = .ok definitions :=
    ⟨_, rfl⟩
  obtain ⟨completed, done⟩ := fields_of_day mocks conforms known selection valid [] path
  have bare :
      Completer.ofSelection schema mocks position selection (.named "SkiDay")
          (some (.object members)) path = .value (.object completed) := by
    have present : some (Json.object members) ≠ some .null := fun same => by cases same
    rw [Completer.ofSelection, Completer.ofType, Completer.orNull_of_ne present,
      named_of_fieldsOf known, Completer.object_of_provides .supplied, done,
      Completion.value_andThen]
  refine ⟨completed, bare, ?_⟩
  change ((Completer.ofSelection schema mocks position selection (.named "SkiDay")
      (some (.object members)) path).andThen _) = _
  rw [bare, Completion.value_andThen]
  rfl

end Completion

/-- A request to add a day either conforms or has an error: one is reported only for conditions that
were smuggled, or where nothing was stored and published. -/
theorem refused_or_smuggled {mocks : Mocks} {request : Request} {operation : Operation}
    {world after : World Store} {response : Response} {exchange : Exchange Store}
    (parsed : schema.parseOperation request.query request.operationName request.bindings =
      .ok operation)
    (executed : Engine.execute ⟨schema, mocks, Store.handlers⟩ operation world =
      (.ok response, after))
    (member : exchange ∈ (⟨schema, mocks, Store.handlers⟩ : Engine Store).exchanges operation world)
    (isAdd : exchange.call.field.name = "addDay") {error : FieldError}
    (reported : error ∈ response.errors.getD []) {path : List PathSegment}
    (located : error.path = some path) (below : [.field exchange.call.field.responseKey] <+: path) :
    (exchange.reply.state = exchange.met ∧ exchange.reply.events = []) ∨
      ∃ day symbol, exchange.reply.events = [Store.newDay day] ∧ day.conditions = some symbol ∧
        symbol ∉ symbols ∧ Smuggled request symbol := by
  rcases reply_cases member with
    ⟨state, events, -⟩ | ⟨input, -, required, replied⟩ | ⟨isRemove, -, -⟩
  · exact Or.inl ⟨state, events⟩
  · refine Or.inr ⟨(exchange.met.add input).1, ?_⟩
    rcases accounts_of_exchange parsed member isAdd required with
      conforms | ⟨symbol, stored, undeclared, smuggled⟩
    · -- The reply conforms, so nothing is reported at its key.
      obtain ⟨known, inside, valid, -, -⟩ := found_of_exchange member
      have notTypename : exchange.call.field.name ≠ "__typename" := by
        rw [isAdd]
        decide
      obtain ⟨definition, random, declared, tells⟩ :=
        Engine.tellsOf_execute executed (distinctKeys_of_parsed parsed).nodup member known
      have isDay : definition.type = .nonNull (.named "SkiDay") := by
        rw [isAdd] at declared
        cases declared
        rfl
      have selected : schema.selectionErrors "SkiDay" exchange.call.field.selection = [] := by
        have resolved := congrArg schema.resolve (congrArg TypeRef.namedType isDay)
        exact selection_of_valid (fieldErrors_of_mem valid inside) notTypename declared resolved
      obtain ⟨members, isObject⟩ : ∃ members, (exchange.met.add input).1.toJson = .object members :=
        ⟨_, rfl⟩
      rw [isObject] at conforms
      obtain ⟨completed, -, done⟩ :=
        ofSelection_of_day mocks (.ofField "Mutation" exchange.call.field.name) conforms
          exchange.call.field.selection selected [.field exchange.call.field.responseKey]
      have complete : exchange.completion schema mocks "Mutation" definition =
          Completion.value (.object completed) := by
        rw [Exchange.completion, replied]
        dsimp only
        rw [isObject, Completion.field_of_fills .supplied, isDay]
        exact congrArg (Completion.absorb _) done
      obtain ⟨failure, failed, -⟩ := tells.only error reported path located below
      rw [complete] at failed
      cases failed
    · exact ⟨symbol, by rw [replied], stored, undeclared, smuggled⟩
  · exact absurd (isAdd.symm.trans isRemove) (by decide)

/-- A day was added and published for one of the requests, which accounts for it. -/
def Accounted (engine : Engine Store) (executions : List (Execution Store)) (day : Day) : Prop :=
  ∃ execution ∈ executions, ∃ exchange ∈ engine.exchanges execution.operation execution.world,
    exchange.reply.events = [Store.newDay day] ∧ Accounts execution.request day

/-- The days that requests leave in the store are accounted for, if none was there before. -/
theorem accounted_serve (mocks : Mocks) (random : Random) (requests : List Request) :
    let engine : Engine Store := ⟨schema, mocks, Store.handlers⟩
    let served := engine.serve requests ⟨random, Store.empty, .new⟩
    ∀ entry ∈ served.2.state.days, Accounted engine served.1 entry.2 := by
  intro engine served
  have keeps :=
    @Engine.keeps_serve _ engine
      (fun store => ∀ entry ∈ store.days, Accounted engine served.1 entry.2)
  refine keeps requests _ ?_ (List.forall_mem_nil _)
  intro execution inside exchange member kept entry stored
  have parsed := (Engine.parsed_of_mem_serve requests _ inside).2
  rcases reply_cases member with ⟨state, -, -⟩ | ⟨input, isAdd, required, replied⟩ | ⟨-, -, fewer⟩
  · rw [state] at stored
    exact kept entry stored
  · rw [replied] at stored
    rcases Ordered.mem_insert stored with old | rfl
    · exact kept entry old
    · have events : exchange.reply.events = [Store.newDay (exchange.met.add input).1] := by
        rw [replied]
      exact ⟨execution, inside, exchange, member, events,
        accounts_of_exchange parsed member isAdd required⟩
  · exact kept entry (fewer entry stored)

/-- The days of the store over all requests. Each conforms to its type, unless the request that
added it has smuggled its conditions, and so does each day that is published. An error at an added
day says that nothing was stored and published, or that its conditions were smuggled. On a day that
conforms, no selection meets an error. -/
theorem requests_account_for_days (mocks : Mocks) (random : Random) (requests : List Request) :
    let engine : Engine Store := ⟨schema, mocks, Store.handlers⟩
    let served := engine.serve requests ⟨random, Store.empty, .new⟩
    (∀ entry ∈ served.2.state.days, Accounted engine served.1 entry.2) ∧
    served.2.channel.queue = Exchange.published (engine.told served.1) ∧
    (∀ execution ∈ served.1, execution.request ∈ requests ∧
        ∀ exchange ∈ engine.exchanges execution.operation execution.world,
          (∀ event ∈ exchange.reply.events, ∃ day, event = Store.newDay day ∧
              Accounts execution.request day) ∧
            ∀ response after,
              engine.execute execution.operation execution.world = (.ok response, after) →
                exchange.call.field.name = "addDay" → ∀ error ∈ response.errors.getD [], ∀ path,
                error.path = some path → [.field exchange.call.field.responseKey] <+: path →
                  (exchange.reply.state = exchange.met ∧ exchange.reply.events = []) ∨
                    ∃ day symbol, exchange.reply.events = [Store.newDay day] ∧
                      day.conditions = some symbol ∧ symbol ∉ symbols ∧
                      Smuggled execution.request symbol) ∧
    ∀ members, Conforms (.object members) →
      ∀ selection, schema.selectionErrors "SkiDay" selection = [] → ∀ position path, ∃ completed,
        Completer.ofSelection schema mocks position selection (.named "SkiDay")
              (some (.object members)) path = .value (.object completed) ∧
          Completer.ofSelection schema mocks position selection (.nonNull (.named "SkiDay"))
              (some (.object members)) path = .value (.object completed) := by
  intro engine served
  refine ⟨accounted_serve mocks random requests, ?_, ?_, ?_⟩
  · have handled := congrArg Prod.snd (engine.handled_serve requests ⟨random, Store.empty, .new⟩)
    exact (congrArg Channel.queue handled).trans (Channel.publishAll_queue .new _ rfl)
  · intro execution inside
    obtain ⟨asked, parsed⟩ := Engine.parsed_of_mem_serve requests _ inside
    refine ⟨asked, fun exchange member => ⟨fun event published => ?_, ?_⟩⟩
    · rcases reply_cases member with
        ⟨-, events, -⟩ | ⟨input, isAdd, required, replied⟩ | ⟨-, events, -⟩
      · rw [events] at published
        cases published
      · rw [replied] at published
        exact ⟨_, List.mem_singleton.mp published,
          accounts_of_exchange parsed member isAdd required⟩
      · rw [events] at published
        cases published
    · intro response after executed isAdd error reported path located below
      exact refused_or_smuggled parsed executed member isAdd reported located below
  · intro members conforms selection valid position path
    exact ofSelection_of_day mocks position conforms selection valid path

end SkiDay

namespace Couloir

open SkiDay Syntax TypeSystem

/-- A request to add a day in slush, which the schema does not know. -/
def request : Request :=
  ⟨"mutation($day:AddDayInput!){addDay(input:$day){conditions}}",
    some [("day", .object [("date", .string "1/2/2025"), ("mountain", .string "Alta"),
      ("conditions", .string "SLUSH")])], none⟩

def definition : OperationDefinition :=
  ⟨.mutation, none, [⟨"day", .nonNull (.named "AddDayInput"), none, []⟩], [],
    [.field none "addDay" [("input", .variable "day")] [] [.field none "conditions" [] [] []]]⟩

def bindings : Ordered String Json := request.bindings.getD []

def operation : Operation :=
  ⟨.mutation, none, [⟨"addDay", none, [("input", (Ordered.get? bindings "day").getD .null)],
    [⟨"conditions", none, [], []⟩]⟩], bindings⟩

def engine : Engine Store := ⟨SkiDay.schema, ⟨MockRules.standard, .standard⟩, Store.handlers⟩

def world : World Store := ⟨.ofSeed 0, .empty, .new⟩

def slushy : Day := ⟨"1", "1/2/2025", "Alta", some "SLUSH"⟩

theorem parsed :
    SkiDay.schema.parseOperation request.query request.operationName
      request.bindings = .ok operation := by
  have read : Document.parse? request.query = some ⟨[definition], []⟩ := rfl
  have selected :
      SkiDay.schema.selectionSound definition.variableDefs [] "Mutation"
        definition.selection = true := by
    simp [definition, TypeSystem.selectionSound]
    decide
  have merged : mergeable [] 3 definition.selection = true := by
    simp [definition, mergeable, levelFields, distinctKeys]
  have sound := documentSound_of_single rfl selected merged rfl
  have lowered : SkiDay.schema.lowerOperation ⟨[definition], []⟩ definition bindings =
      operation := by
    simp [definition, lowerOperation, lowerSelection]
    rfl
  rw [← lowered]
  exact parseOperation_of_sound read sound rfl rfl

/-- What the request adds is stored and published, though it does not conform. The response reports
an error at it. -/
theorem undeclared_conditions_stored :
    SkiDay.schema.parseOperation request.query request.operationName
        request.bindings = .ok operation ∧
      (engine.serve [request] world).2.state.days = [("1", slushy)] ∧
      (engine.serve [request] world).2.channel.queue = [⟨"newDay", slushy.toJson⟩] ∧
      ¬ Conforms slushy.toJson ∧
      (engine.execute operation world).1 =
        .ok (.executed (.object [("addDay", .object [("conditions", .null)])])
          [⟨"Expected a value of type Conditions, found \"SLUSH\"",
            some [.field "addDay", .field "conditions"], none⟩]) := by
  have served : engine.serve [request] world =
      ([⟨request, operation, world⟩], (engine.execute operation world).2) := by
    have accepted :
        engine.schema.parseOperation request.query request.operationName
          request.bindings = .ok operation := parsed
    rw [Engine.serve, accepted]
    rfl
  refine ⟨parsed, ?_, ?_, ?_, rfl⟩
  · rw [served]
    rfl
  · rw [served]
    rfl
  · rintro ⟨id, date, mountain, conditions, same, rfl | ⟨symbol, listed, rfl⟩⟩
    · cases same
    · cases same
      exact absurd listed (by decide)

end Couloir

end MockGraph
