import MockGraph.Proofs.Operation.Inputs
import MockGraph.Proofs.SkiDay.Days
set_option autoImplicit false

namespace MockGraph.SkiDay

open Syntax TypeSystem

/-- An operation passes an identifier: it writes it as a number or as a text, or a variable is
provided with it. -/
inductive Passes (definition : OperationDefinition) (provided : Ordered String Json) :
    Literal → Json → Prop
  | number {text} : Passes definition provided (.int text) (.ofInt (Literal.intValue text))
  | text {id} : Passes definition provided (.string id) (.string id)
  | variable {declared value} : declared ∈ definition.variableDefs →
      Ordered.get? provided declared.name = some value →
      Passes definition provided (.variable declared.name) value

/-- Why a number is refused as an identifier. -/
def refusal (n : Int) : ResolutionError :=
  .argumentParse "id" (Mismatch.kind (.ofInt n) "a string").message

/-- An integer of 64 bits. -/
def IsWord (n : Int) : Prop := -Int.pow 2 63 ≤ n ∧ n < Int.pow 2 63

theorem Passes.value {schema : TypeSystem} {document : Document} {definition : OperationDefinition}
    {provided bindings : Ordered String Json} {root : String}
    (accepted : Accepted schema document definition provided bindings root) {literal : Literal}
    {value : Json} (passes : Passes definition provided literal value)
    (word : ∀ n, value = .ofInt n → IsWord n) : literal.value? bindings = some value := by
  cases passes with
  | number =>
    rw [Literal.value?, Literal.valueOrNull, Literal.numberValue]
    · exact congrArg some (if_pos (word _ rfl))
    · intro name same
      cases same
  | text => rfl
  | «variable» member given =>
    have coerced :=
      coerced_of_mem _ (variables_of_sound accepted.variablesSound).1 member provided
        accepted.coerced
    rw [Literal.value?, coerced.value, given, Option.some_or]

/-- A number that is supplied for an identifier on the way out becomes the text of its digits. -/
theorem coerce_id_word {n : Int} (word : IsWord n) (description : Option String) :
    TypeDef.coerce (.scalar "ID" description) (.ofInt n) = .ok (.string (toString n)) := by
  have within : Json.asInt64? (.ofInt n) = some n := if_pos word
  unfold TypeDef.coerce
  dsimp only
  rw [within]
  rfl

/-- What `removeDay` replies: a text is looked up in the store, and a number is refused. -/
theorem answerRemove_of_value (arguments : Ordered String Json) (store : Store) :
    (∀ id, Ordered.get? arguments "id" = some (.string id) →
        Store.answerRemove arguments store =
          ⟨.ok (store.remove id).1.toJson, (store.remove id).2, []⟩) ∧
      ∀ n, Ordered.get? arguments "id" = some (.ofInt n) →
        Store.answerRemove arguments store = ⟨.error (refusal n), store, []⟩ := by
  refine ⟨fun id given => ?_, fun n given => ?_⟩
  · have required : Argument.require Reader.text arguments "id" = .ok id := by
      rw [Argument.require, given]
      rfl
    rw [Store.answerRemove, required]
  · have required : Argument.require Reader.text arguments "id" = .error (refusal n) := by
      rw [Argument.require, given]
      rfl
    rw [Store.answerRemove, required]

theorem declared_removeDay {name : String} (isRemove : name = "removeDay") : name ≠ "__typename" ∧
    schema.field "Mutation" name = .ok ⟨"removeDay", none, .nonNull (.named "RemoveDayPayload"),
      [("id", ⟨"id", none, .nonNull (.named "ID"), none⟩)]⟩ := by
  rw [isRemove]
  exact ⟨by decide, rfl⟩

/-- A reply to `removeDay` is that of the store, to an argument that is there. -/
theorem replied_of_exchange {mocks : Mocks} {operation : Operation} {world : World Store}
    {exchange : Exchange Store}
    (member : exchange ∈ (⟨schema, mocks, Store.handlers⟩ : Engine Store).exchanges operation world)
    (isRemove : exchange.call.field.name = "removeDay") :
    exchange.reply = Store.answerRemove exchange.call.field.arguments exchange.met ∧
      ∃ value, Ordered.get? exchange.call.field.arguments "id" = some value := by
  obtain ⟨-, inside, valid, found, replied⟩ := found_of_exchange member
  obtain ⟨named, declared⟩ := declared_removeDay isRemove
  obtain ⟨value, given, -⟩ :=
    given_of_valid (fieldErrors_of_mem valid inside) named declared List.mem_cons_self rfl
  refine ⟨?_, value, given⟩
  rcases field_of_handlers found with ⟨isAdd, -⟩ | ⟨-, answer⟩
  · exact absurd (isRemove.symm.trans isAdd) (by decide)
  · rw [replied, answer]

/-- Identifiers as texts and as numbers. A removal gets the identifier that is passed, by a literal
or by a variable. Where that is a text, the day is removed. Where it is an integer, the removal is
refused: the store stays as it is, nothing is published, and there is an error at the field and no
data. On the way out, the same integer would be completed as the text of its digits. The first field
of a mutation is always answered, if no rule of the root type fails. -/
theorem removeDay_takes_texts (mocks : Mocks) (request : Request) (operation : Operation)
    (world after : World Store) (response : Response)
    (parsed : schema.parseOperation request.query request.operationName request.bindings =
      .ok operation)
    (executed : Engine.execute ⟨schema, mocks, Store.handlers⟩ operation world =
      (.ok response, after)) :
    let engine : Engine Store := ⟨schema, mocks, Store.handlers⟩
    (∀ field rest, operation.kind = .mutation → operation.selection = field :: rest →
        field.name = "removeDay" →
        (∀ error, mocks.objectSeed? .root "Mutation" ≠ some (.error error)) →
        ∃ exchange ∈ engine.exchanges operation world, exchange.call.field = field ∧
          exchange.met = world.state) ∧
    (∀ exchange ∈ engine.exchanges operation world, exchange.call.field.name = "removeDay" →
        ∃ document definition input value node literal,
          Document.parse? request.query = some document ∧
            document.operation? request.operationName = .ok definition ∧
            Written schema document definition operation.bindings "Mutation" exchange.call.field
              "id" input value node literal ∧
            (∀ passed, Passes definition (request.bindings.getD []) literal passed →
              (∀ n, passed = .ofInt n → IsWord n) → value = passed) ∧
            (∀ id, value = .string id →
              exchange.reply =
                ⟨.ok (exchange.met.remove id).1.toJson, (exchange.met.remove id).2, []⟩) ∧
            ∀ n, value = .ofInt n →
              exchange.reply = ⟨.error (refusal n), exchange.met, []⟩ ∧
                Failure.fieldError ⟨refusal n, [.field exchange.call.field.responseKey]⟩ ∈
                  response.errors.getD [] ∧ response.data = some .null) ∧
    ∀ n, IsWord n → ∀ description,
      TypeDef.coerce (.scalar "ID" description) (.ofInt n) = .ok (.string (toString n)) := by
  intro engine
  refine ⟨?_, ?_, fun n word description => coerce_id_word word description⟩
  · intro field rest kind selects isRemove seeded
    have known : schema.root? operation.kind = some "Mutation" := by
      rw [kind]
      rfl
    obtain ⟨_, there, valid, -⟩ := Engine.run_cases executed
    cases known.symm.trans there
    obtain ⟨handler, found⟩ : ∃ handler,
        Handlers.find? Store.handlers "Mutation" "removeDay" = some handler := ⟨_, rfl⟩
    rw [← isRemove] at found
    obtain ⟨named, -⟩ := declared_removeDay isRemove
    exact ⟨_, Engine.exchange_of_first known valid seeded selects named found, rfl, rfl⟩
  · intro exchange member isRemove
    obtain ⟨known, inside, -, -, -⟩ := found_of_exchange member
    obtain ⟨replied, value, given⟩ := replied_of_exchange member isRemove
    obtain ⟨document, definition, read, chosen, accepted, each⟩ :=
      written_of_parsed parse_schemaText parsed known
    obtain ⟨named, declared⟩ := declared_removeDay isRemove
    obtain ⟨input, node, literal, -, written⟩ :=
      each _ inside named _ declared (by simp) "id" value given
    obtain ⟨texts, numbers⟩ := answerRemove_of_value exchange.call.field.arguments exchange.met
    refine ⟨document, definition, input, value, node, literal, read, chosen, written, ?_, ?_, ?_⟩
    · intro passed passes word
      exact Option.some.inj (written.value.symm.trans (passes.value accepted word))
    · rintro id rfl
      rw [replied, texts id given]
    · rintro n rfl
      have refused : exchange.reply = ⟨.error (refusal n), exchange.met, []⟩ := by
        rw [replied, numbers n given]
      obtain ⟨found, random, same, tells⟩ :=
        Engine.tellsOf_execute executed (distinctKeys_of_parsed parsed).nodup member known
      cases declared.symm.trans same
      rw [Exchange.completion, refused] at tells
      exact ⟨refused, tells.reports _ (List.mem_singleton_self _), tells.lost rfl⟩

end MockGraph.SkiDay

namespace MockGraph.Gully

open SkiDay Syntax TypeSystem

def engine : Engine Store := ⟨SkiDay.schema, ⟨MockRules.standard, .standard⟩, Store.handlers⟩

def day : Day := ⟨"1", "1/2/2025", "Alta", none⟩

def world : World Store := ⟨.ofSeed 0, ⟨[("1", day)], 2⟩, .new⟩

def definition (literal : Literal) : OperationDefinition :=
  ⟨.mutation, none, [], [],
    [.field none "removeDay" [("id", literal)] [] [.field none "remove" [] [] []]]⟩

def operation (value : Json) : Operation :=
  ⟨.mutation, none, [⟨"removeDay", none, [("id", value)], [⟨"remove", none, [], []⟩]⟩], []⟩

/-- The removal of the day, with its identifier as a number and as a text. -/
def byNumber : Request := ⟨"mutation{removeDay(id:1){remove}}", none, none⟩

def byText : Request := ⟨r#"mutation{removeDay(id:"1"){remove}}"#, none, none⟩

theorem parsed_of_read {query : String} {literal : Literal} {value : Json}
    (read : Document.parse? query = some ⟨[definition literal], []⟩)
    (selected : SkiDay.schema.selectionSound [] [] "Mutation" (definition literal).selection = true)
    (given : literal.value? [] = some value) :
    SkiDay.schema.parseOperation query none none = .ok (operation value) := by
  have merged : mergeable [] 3 (definition literal).selection = true := by
    simp [definition, mergeable, levelFields, distinctKeys]
  have sound := documentSound_of_single rfl selected merged rfl
  have values : FieldNode.values SkiDay.schema [] ⟨"Mutation", "removeDay", none, [("id", literal)],
      [.field none "remove" [] [] []]⟩ = [("id", value)] := by
    have selectable : SkiDay.schema.selectable? "Mutation" "removeDay" =
        some ⟨"removeDay", none, .nonNull (.named "RemoveDayPayload"),
          [("id", ⟨"id", none, .nonNull (.named "ID"), none⟩)]⟩ := rfl
    simp [FieldNode.values, FieldNode.inputs, selectable, givenArguments, given, Ordered.insert,
      withDefaults]
  have lowered : SkiDay.schema.lowerOperation ⟨[definition literal], []⟩ (definition literal) [] =
      operation value := by
    have known : SkiDay.schema.root? .mutation = some "Mutation" := rfl
    simp only [lowerOperation, definition, known, Option.getD_some]
    rw [lowerSelection_field rfl, lowerSelection_nil, FieldNode.lower, values,
      lowerSelection_field rfl, lowerSelection_nil, FieldNode.lower, lowerSelection_nil]
    rfl
  rw [← lowered]
  exact parseOperation_of_sound read sound rfl rfl

theorem parsed_number :
    SkiDay.schema.parseOperation byNumber.query none none = .ok (operation (.ofInt 1)) := by
  have read : Document.parse? byNumber.query = some ⟨[definition (.int "1")], []⟩ := rfl
  have selected : SkiDay.schema.selectionSound [] [] "Mutation" (definition (.int "1")).selection =
      true := by
    simp [definition, TypeSystem.selectionSound]
    decide
  exact parsed_of_read read selected rfl

theorem parsed_text :
    SkiDay.schema.parseOperation byText.query none none = .ok (operation (.string "1")) := by
  have tokens : tokens? byText.query =
      some [.name "mutation", .sign '{', .name "removeDay", .sign '(', .name "id", .sign ':',
        .string "1", .sign ')', .sign '{', .name "remove", .sign '}', .sign '}'] := by
    decide +kernel
  have read : Document.parse? byText.query = some ⟨[definition (.string "1")], []⟩ := by
    rw [Document.parse?, tokens]
    rfl
  have selected :
      SkiDay.schema.selectionSound [] [] "Mutation"
        (definition (.string "1")).selection = true := by
    simp [definition, TypeSystem.selectionSound]
    decide
  exact parsed_of_read read selected rfl

/-- The response to the number, which is refused. -/
def refused : Response := .executed .null [Failure.fieldError ⟨refusal 1, [.field "removeDay"]⟩]

theorem executed_number : engine.execute (operation (.ofInt 1)) world = (.ok refused, world) := rfl

/-- The number is refused, and nothing is removed. -/
theorem removeDay_takes_texts_number :
    SkiDay.schema.parseOperation byNumber.query none none = .ok (operation (.ofInt 1)) ∧
      engine.execute (operation (.ofInt 1)) world = (.ok refused, world) ∧
      ∃ exchange ∈ engine.exchanges (operation (.ofInt 1)) world,
        exchange.reply = ⟨.error (refusal 1), exchange.met, []⟩ ∧ exchange.met = world.state := by
  obtain ⟨first, each, -⟩ :=
    removeDay_takes_texts engine.mocks byNumber (operation (.ofInt 1)) world world refused
      parsed_number executed_number
  obtain ⟨exchange, member, called, met⟩ := first _ [] rfl rfl rfl nofun
  obtain ⟨_, _, _, value, _, _, -, -, written, -, -, numbers⟩ :=
    each exchange member (by rw [called])
  have isNumber : value = .ofInt 1 := by
    have given := written.given
    rw [called] at given
    exact (Option.some.inj given).symm
  exact ⟨parsed_number, executed_number, exchange, member, (numbers 1 isNumber).1, met⟩

/-- One and the same identifier is refused as a number and looked up as a text. -/
theorem number_refused_text_removed :
    SkiDay.schema.parseOperation byNumber.query none none = .ok (operation (.ofInt 1)) ∧
      engine.execute (operation (.ofInt 1)) world = (.ok refused, world) ∧
      SkiDay.schema.parseOperation byText.query none none = .ok (operation (.string "1")) ∧
      (engine.execute (operation (.string "1")) world).1 =
        .ok (.executed (.object [("removeDay", .object [("remove", .bool true)])]) []) ∧
      (engine.execute (operation (.string "1")) world).2.state.days = [] ∧
      TypeDef.coerce (.scalar "ID" none) (.ofInt 1) = .ok (.string "1") :=
  ⟨parsed_number, executed_number, parsed_text, rfl, rfl, rfl⟩

end MockGraph.Gully
