import MockGraph.Proofs.Schema.TypeTexts
set_option autoImplicit false

namespace MockGraph.Syntax

def Named (tokens : List Token) : Prop := ∀ text, Token.name text ∈ tokens → IsName text

theorem Named.nil : Named [] := nofun

theorem Named.tail {token : Token} {rest : List Token} (named : Named (token :: rest)) :
    Named rest :=
  fun text member => named text (List.mem_cons_of_mem _ member)

namespace Token

theorem not_name_of_readNumber? {text rest : List Char} {token : Token}
    (read : readNumber? text = some (token, rest)) (name : String) : token ≠ .name name := by
  unfold readNumber? at read
  simp only [Option.bind_eq_bind, Option.bind_eq_some_iff, Option.pure_def,
    Option.ite_none_right_eq_some, Option.some.injEq, Prod.mk.injEq] at read
  obtain ⟨_, -, _, -, _, -, -, rfl, -⟩ := read
  split <;> nofun

theorem isName_of_readOne? {text rest : List Char} {name : String}
    (read : readOne? text = some (.name name, rest)) : IsName name := by
  unfold readOne? at read
  split at read
  · cases read
  · obtain ⟨_, -, same⟩ := Option.map_eq_some_iff.mp read
    cases same
  · obtain ⟨_, -, same⟩ := Option.map_eq_some_iff.mp read
    cases same
  · split at read
    · cases read
    · split at read
      · rename_i first others _ _ _ _ starts
        cases read
        exact ⟨first, _, String.toList_ofList, starts,
          fun c member => List.all_eq_true.mp List.all_takeWhile c member⟩
      · exact absurd rfl (not_name_of_readNumber? read name)
  · cases read

theorem named_of_readAll? (fuel : Nat) : ∀ (text : List Char) (tokens : List Token),
    readAll? fuel text = some tokens → Named tokens := by
  induction fuel with
  | zero =>
    intro text tokens read
    cases read
  | succ fuel ih =>
    intro text tokens read
    cases text with
    | nil =>
      cases read
      exact .nil
    | cons c rest =>
      rw [readAll?] at read
      split at read
      · exact ih _ _ read
      · split at read
        · exact ih _ _ read
        · split at read
          · cases read
          · rename_i token after readToken
            obtain ⟨others, readOthers, rfl⟩ := Option.map_eq_some_iff.mp read
            intro text member
            rcases List.mem_cons.mp member with rfl | later
            · exact isName_of_readOne? readToken
            · exact ih _ _ readOthers text later

end Token

theorem named_of_tokens? {text : String} {tokens : List Token} (read : tokens? text = some tokens) :
    Named tokens :=
  Token.named_of_readAll? _ _ _ read

/-- From tokens with names, a part of the grammar makes something of a kind, and leaves tokens with
names. -/
def Phrase.Takes {α : Type} (item : Phrase α) (kind : α → Prop) : Prop :=
  ∀ (tokens : List Token) (first : α) (rest : List Token), Named tokens →
    item tokens = some (first, rest) → kind first ∧ Named rest

abbrev Any {α : Type} (_ : α) : Prop := True

theorem Named.sign {c : Char} {tokens rest : List Token} (named : Named tokens)
    (read : Phrase.sign c tokens = some rest) : Named rest :=
  (Phrase.eq_of_sign read ▸ named).tail

theorem Named.word {text : String} {tokens rest : List Token} (named : Named tokens)
    (read : Phrase.word text tokens = some rest) : Named rest := by
  unfold Phrase.word at read
  split at read
  · split at read
    · cases read
      exact named.tail
    · cases read
  · cases read

theorem Named.description {tokens : List Token} (named : Named tokens) :
    Named (parseDescription tokens).2 := by
  unfold parseDescription
  split
  · exact named.tail
  · exact named

namespace Phrase

variable {α : Type} {item : Phrase α} {kind : α → Prop}

theorem takes_name : name.Takes IsName := by
  intro tokens text rest named read
  unfold name at read
  split at read
  · cases read
    exact ⟨named _ List.mem_cons_self, named.tail⟩
  · cases read

theorem Takes.cons (takes : item.Takes kind) {more : Phrase (List α)}
    (takesMore : more.Takes fun items => ∀ item ∈ items, kind item) {tokens after rest : List Token}
    {first : α} {others : List α} (named : Named tokens)
    (readFirst : item tokens = some (first, after)) (readMore : more after = some (others, rest)) :
    (∀ item ∈ first :: others, kind item) ∧ Named rest := by
  obtain ⟨isKind, named⟩ := takes _ _ _ named readFirst
  obtain ⟨areKind, named⟩ := takesMore _ _ _ named readMore
  exact ⟨List.forall_mem_cons.mpr ⟨isKind, areKind⟩, named⟩

theorem Takes.upTo (takes : item.Takes kind) (close : Char) (fuel : Nat) :
    (Phrase.upTo close item fuel).Takes fun items => ∀ item ∈ items, kind item := by
  induction fuel with
  | zero =>
    intro tokens items rest named read
    cases read
  | succ fuel ih =>
    intro tokens items rest named read
    rw [Phrase.upTo] at read
    split at read
    · rename_i closes
      cases read
      exact ⟨nofun, named.sign closes⟩
    · split at read
      · cases read
      · rename_i first after readFirst
        obtain ⟨⟨others, _⟩, readOthers, same⟩ := Option.map_eq_some_iff.mp read
        cases same
        exact takes.cons ih named readFirst readOthers

theorem Takes.enclosed (takes : item.Takes kind) (opening close : Char) :
    (Phrase.enclosed opening close item).Takes fun items => ∀ item ∈ items, kind item := by
  intro tokens items rest named read
  unfold Phrase.enclosed at read
  split at read
  · cases read
  · rename_i opens
    exact takes.upTo close _ _ _ _ (named.sign opens) read

theorem Takes.enclosedSome (takes : item.Takes kind) (opening close : Char) :
    (Phrase.enclosedSome opening close item).Takes fun items => ∀ item ∈ items, kind item := by
  intro tokens items rest named read
  unfold Phrase.enclosedSome at read
  split at read
  · cases read
  · exact takes.enclosed opening close _ _ _ named read

theorem Takes.enclosedOptional (takes : item.Takes kind) (opening close : Char) :
    (Phrase.enclosedOptional opening close item).Takes fun items => ∀ item ∈ items, kind item := by
  intro tokens items rest named read
  unfold Phrase.enclosedOptional at read
  split at read
  · cases read
    exact ⟨nofun, named⟩
  · exact takes.enclosedSome opening close _ _ _ named read

theorem Takes.whileStarts (takes : item.Takes kind) (starts : List Token → Bool) (fuel : Nat) :
    (Phrase.whileStarts starts item fuel).Takes fun items => ∀ item ∈ items, kind item := by
  induction fuel with
  | zero =>
    intro tokens items rest named read
    cases read
    exact ⟨nofun, named⟩
  | succ fuel ih =>
    intro tokens items rest named read
    rw [Phrase.whileStarts] at read
    split at read
    · split at read
      · cases read
      · rename_i first after readFirst
        obtain ⟨⟨others, _⟩, readOthers, same⟩ := Option.map_eq_some_iff.mp read
        cases same
        exact takes.cons ih named readFirst readOthers
    · cases read
      exact ⟨nofun, named⟩

theorem takes_separated (c : Char) : (separated c name).Takes Any := by
  have bySign : Takes (fun tokens => (sign c tokens).bind name) Any := by
    intro tokens text rest named read
    obtain ⟨after, separates, readName⟩ := Option.bind_eq_some_iff.mp read
    exact ⟨trivial, (takes_name _ _ _ (named.sign separates) readName).2⟩
  intro tokens names rest named read
  simp only [separated, Option.bind_eq_bind, Option.bind_eq_some_iff, Option.pure_def,
    Option.some.injEq] at read
  obtain ⟨⟨first, _⟩, readFirst, ⟨others, _⟩, readOthers, same⟩ := read
  cases same
  have named : Named ((sign c tokens).getD tokens) := by
    cases opens : sign c tokens with
    | none => exact named
    | some after => exact named.sign opens
  have named := (takes_name _ _ _ named readFirst).2
  exact ⟨trivial, (bySign.whileStarts _ _ _ _ _ named readOthers).2⟩

end Phrase

open Phrase

theorem takes_parseNamed {value : Phrase Literal} (takes : value.Takes Any) :
    (parseNamed value).Takes Any := by
  intro tokens field rest named read
  simp only [parseNamed, Option.bind_eq_bind, Option.bind_eq_some_iff, Option.pure_def,
    Option.some.injEq] at read
  obtain ⟨⟨_, _⟩, readName, _, readSign, ⟨_, _⟩, readValue, same⟩ := read
  cases same
  have named := ((takes_name _ _ _ named readName).2).sign readSign
  exact ⟨trivial, (takes _ _ _ named readValue).2⟩

theorem takes_parseLiteral (constant : Bool) (fuel : Nat) :
    (parseLiteral constant fuel).Takes Any := by
  induction fuel with
  | zero =>
    intro tokens literal rest named read
    cases read
  | succ fuel ih =>
    intro tokens literal rest named read
    refine ⟨trivial, ?_⟩
    unfold parseLiteral at read
    split at read
    case h_8 =>
      split at read
      · cases read
      · cases read
        exact named.tail.tail
    case h_9 =>
      obtain ⟨⟨_, _⟩, readItems, same⟩ := Option.map_eq_some_iff.mp read
      cases same
      exact (ih.enclosed _ _ _ _ _ named readItems).2
    case h_10 =>
      obtain ⟨⟨_, _⟩, readFields, same⟩ := Option.map_eq_some_iff.mp read
      cases same
      exact ((takes_parseNamed ih).enclosed _ _ _ _ _ named readFields).2
    case h_11 => cases read
    all_goals
      cases read
      exact named.tail

theorem takes_parseValue (constant : Bool) : (parseValue constant).Takes Any :=
  fun tokens => takes_parseLiteral constant _ tokens

theorem takes_parseArguments (constant : Bool) : (parseArguments constant).Takes fun arguments =>
    ∀ argument ∈ arguments, Any argument :=
  (takes_parseNamed (takes_parseValue constant)).enclosedOptional _ _

theorem takes_parseDirective (constant : Bool) : (parseDirective constant).Takes Any := by
  intro tokens directive rest named read
  simp only [parseDirective, Option.bind_eq_bind, Option.bind_eq_some_iff, Option.pure_def,
    Option.some.injEq] at read
  obtain ⟨_, readSign, ⟨_, _⟩, readName, ⟨_, _⟩, readArguments, same⟩ := read
  cases same
  have named := (takes_name _ _ _ (named.sign readSign) readName).2
  exact ⟨trivial, (takes_parseArguments constant _ _ _ named readArguments).2⟩

theorem Named.directives {constant : Bool} {tokens rest : List Token} {directives : List Directive}
    (named : Named tokens) (read : parseDirectives constant tokens = some (directives, rest)) :
    Named rest :=
  ((takes_parseDirective constant).whileStarts _ _ _ _ _ named read).2

theorem WrittenType.collapsed_lower (written : WrittenType) : written.lower.Collapsed := by
  induction written with
  | named | nonNullNamed =>
    simp [WrittenType.lower, TypeRef.required, TypeRef.Collapsed, TypeRef.isNonNull]
  | list item ih => exact ih
  | nonNullList item ih => exact ⟨rfl, ih⟩

theorem takes_parseType : parseType.Takes TypeRef.Collapsed := by
  intro tokens type rest named read
  obtain ⟨written, spelled, rfl, -, rfl⟩ := spelled_of_parseTypeWithin _ _ _ _ read
  exact ⟨written.collapsed_lower, fun text member => named text (List.mem_append_right _ member)⟩

theorem takes_parseDefault : parseDefault.Takes Any := by
  intro tokens value rest named read
  unfold parseDefault at read
  split at read
  · cases read
    exact ⟨trivial, named⟩
  · rename_i opens
    obtain ⟨⟨_, _⟩, readValue, same⟩ := Option.map_eq_some_iff.mp read
    cases same
    exact ⟨trivial, (takes_parseValue true _ _ _ (named.sign opens) readValue).2⟩

theorem takes_parseInputDefinition : parseInputDefinition.Takes Any := by
  intro tokens input rest named read
  simp only [parseInputDefinition, Option.bind_eq_bind, Option.bind_eq_some_iff, Option.pure_def,
    Option.some.injEq] at read
  obtain ⟨⟨_, _⟩, readName, _, readSign, ⟨_, _⟩, readType, ⟨_, _⟩, readDefault, ⟨_, _⟩,
      readDirectives, same⟩ := read
  cases same
  have named := ((takes_name _ _ _ named.description readName).2).sign readSign
  have named := (takes_parseDefault _ _ _ (takes_parseType _ _ _ named readType).2 readDefault).2
  exact ⟨trivial, named.directives readDirectives⟩

theorem takes_parseFieldDefinition :
    parseFieldDefinition.Takes fun field => field.type.Collapsed := by
  intro tokens field rest named read
  simp only [parseFieldDefinition, Option.bind_eq_bind, Option.bind_eq_some_iff, Option.pure_def,
    Option.some.injEq] at read
  obtain ⟨⟨_, _⟩, readName, ⟨_, _⟩, readArguments, _, readSign, ⟨_, _⟩, readType, ⟨_, _⟩,
      readDirectives, same⟩ := read
  cases same
  have named := (takes_name _ _ _ named.description readName).2
  have named :=
    (takes_parseInputDefinition.enclosedOptional _ _ _ _ _ named readArguments).2.sign readSign
  obtain ⟨collapsed, named⟩ := takes_parseType _ _ _ named readType
  exact ⟨collapsed, named.directives readDirectives⟩

theorem takes_parseEnumValue : parseEnumValue.Takes Any := by
  intro tokens value rest named read
  simp only [parseEnumValue, Option.bind_eq_bind, Option.bind_eq_some_iff, Option.pure_def] at read
  obtain ⟨⟨_, _⟩, readName, read⟩ := read
  split at read
  · cases read
  · obtain ⟨⟨_, _⟩, readDirectives, same⟩ := Option.bind_eq_some_iff.mp read
    cases same
    exact ⟨trivial, (takes_name _ _ _ named.description readName).2.directives readDirectives⟩

theorem takes_parseInterfaces : parseInterfaces.Takes Any := by
  intro tokens names rest named read
  unfold parseInterfaces at read
  split at read
  · cases read
    exact ⟨trivial, named⟩
  · rename_i opens
    exact takes_separated '&' _ _ _ (named.word opens) read

theorem takes_parseMembers : parseMembers.Takes Any := by
  intro tokens names rest named read
  unfold parseMembers at read
  split at read
  · cases read
    exact ⟨trivial, named⟩
  · rename_i opens
    exact takes_separated '|' _ _ _ (named.sign opens) read

/-- In the types of the fields of an object or an interface no mark stands on another one. -/
def TypeBody.Collapsed : TypeBody → Prop
  | .object _ fields | .interface _ fields => ∀ field ∈ fields, field.type.Collapsed
  | .scalar | .enum _ | .union _ | .input _ => True

/-- A type is defined under a name, with fields whose types have single marks. -/
structure TypeDefinition.Spelled (definition : TypeDefinition) : Prop where
  isName : IsName definition.name
  fields : definition.body.Collapsed

theorem takes_parseTypeDefinition (kind : String) (description : Option String) :
    (parseTypeDefinition kind description).Takes TypeDefinition.Spelled := by
  intro tokens definition rest named read
  simp only [parseTypeDefinition, Option.bind_eq_bind, Option.pure_def] at read
  obtain ⟨⟨typeName, _⟩, readName, read⟩ := Option.bind_eq_some_iff.mp read
  obtain ⟨isName, named⟩ := takes_name _ _ _ named readName
  split at read
  case h_7 => cases read
  all_goals simp only [Option.bind_eq_some_iff, Option.some.injEq] at read
  case h_1 =>
    obtain ⟨⟨_, _⟩, readDirectives, same⟩ := read
    cases same
    exact ⟨⟨isName, trivial⟩, named.directives readDirectives⟩
  case h_2 | h_3 =>
    obtain ⟨⟨_, _⟩, readInterfaces, ⟨_, _⟩, readDirectives, ⟨_, _⟩, readFields, same⟩ := read
    cases same
    have named := (takes_parseInterfaces _ _ _ named readInterfaces).2.directives readDirectives
    obtain ⟨collapsed, named⟩ :=
      takes_parseFieldDefinition.enclosedOptional _ _ _ _ _ named readFields
    exact ⟨⟨isName, collapsed⟩, named⟩
  case h_4 =>
    obtain ⟨⟨_, _⟩, readDirectives, ⟨_, _⟩, readMembers, same⟩ := read
    cases same
    exact ⟨⟨isName, trivial⟩,
      (takes_parseMembers _ _ _ (named.directives readDirectives) readMembers).2⟩
  case h_5 =>
    obtain ⟨⟨_, _⟩, readDirectives, ⟨_, _⟩, readValues, same⟩ := read
    cases same
    have named := named.directives readDirectives
    exact ⟨⟨isName, trivial⟩, (takes_parseEnumValue.enclosedOptional _ _ _ _ _ named readValues).2⟩
  case h_6 =>
    obtain ⟨⟨_, _⟩, readDirectives, ⟨_, _⟩, readFields, same⟩ := read
    cases same
    have named := named.directives readDirectives
    exact ⟨⟨isName, trivial⟩,
      (takes_parseInputDefinition.enclosedOptional _ _ _ _ _ named readFields).2⟩

theorem takes_parseRoot : parseRoot.Takes Any := by
  intro tokens root rest named read
  simp only [parseRoot, Option.bind_eq_bind, Option.bind_eq_some_iff, Option.pure_def,
    Option.some.injEq] at read
  obtain ⟨⟨_, _⟩, readKind, _, -, _, readSign, ⟨_, _⟩, readType, same⟩ := read
  cases same
  have named := (takes_name _ _ _ named readKind).2.sign readSign
  exact ⟨trivial, (takes_name _ _ _ named readType).2⟩

theorem takes_parseDirectiveDefinition : parseDirectiveDefinition.Takes Any := by
  intro tokens definition rest named read
  simp only [parseDirectiveDefinition, Option.bind_eq_bind, Option.bind_eq_some_iff,
    Option.pure_def, Option.some.injEq] at read
  obtain ⟨_, readSign, ⟨_, _⟩, readName, ⟨_, _⟩, readArguments, located, readOn, ⟨_, _⟩, readPlaces,
      _, -, same⟩ := read
  cases same
  have named := (takes_name _ _ _ (named.sign readSign) readName).2
  have named := (takes_parseInputDefinition.enclosedOptional _ _ _ _ _ named readArguments).2
  have named : Named located := by
    split at readOn
    · rename_i repeats
      exact (named.word repeats).word readOn
    · exact named.word readOn
  exact ⟨trivial, (takes_separated '|' _ _ _ named readPlaces).2⟩

/-- A part of a schema text whose types are so. -/
def SchemaPart.Spelled : SchemaPart → Prop
  | .type definition | .typeExtension definition => definition.Spelled
  | .schema _ | .schemaExtension _ | .directive _ => True

theorem takes_parseExtension : parseExtension.Takes SchemaPart.Spelled := by
  intro tokens part rest named read
  simp only [parseExtension, Option.bind_eq_bind, Option.pure_def] at read
  obtain ⟨⟨kind, _⟩, readKind, read⟩ := Option.bind_eq_some_iff.mp read
  have named := (takes_name _ _ _ named readKind).2
  split at read
  · simp only [Option.bind_eq_some_iff, Option.ite_none_left_eq_some, Option.some.injEq] at read
    obtain ⟨⟨_, _⟩, readDirectives, ⟨_, _⟩, readRoots, -, same⟩ := read
    cases same
    have named := named.directives readDirectives
    exact ⟨trivial, (takes_parseRoot.enclosedOptional _ _ _ _ _ named readRoots).2⟩
  · simp only [Option.bind_eq_some_iff, Option.ite_none_right_eq_some, Option.some.injEq] at read
    obtain ⟨⟨_, _⟩, readDefinition, -, same⟩ := read
    cases same
    exact takes_parseTypeDefinition _ _ _ _ _ named readDefinition

theorem takes_parseSchemaPart : parseSchemaPart.Takes SchemaPart.Spelled := by
  intro tokens part rest named read
  simp only [parseSchemaPart, Option.bind_eq_bind, Option.pure_def] at read
  obtain ⟨⟨kind, _⟩, readKind, read⟩ := Option.bind_eq_some_iff.mp read
  have named := (takes_name _ _ _ named.description readKind).2
  split at read
  · split at read
    · cases read
    · exact takes_parseExtension _ _ _ named read
  · simp only [Option.bind_eq_some_iff, Option.some.injEq] at read
    obtain ⟨⟨_, _⟩, readDirectives, ⟨_, _⟩, readRoots, same⟩ := read
    cases same
    have named := named.directives readDirectives
    exact ⟨trivial, (takes_parseRoot.enclosedSome _ _ _ _ _ named readRoots).2⟩
  · obtain ⟨⟨_, _⟩, readDefinition, same⟩ := Option.bind_eq_some_iff.mp read
    cases same
    exact ⟨trivial, (takes_parseDirectiveDefinition _ _ _ named readDefinition).2⟩
  · obtain ⟨⟨_, _⟩, readDefinition, same⟩ := Option.bind_eq_some_iff.mp read
    cases same
    exact takes_parseTypeDefinition _ _ _ _ _ named readDefinition

/-- In a schema text all types have names, and the types of fields have single marks. -/
theorem spelled_of_parseSchema? {text : String} {parts : List SchemaPart}
    (read : parseSchema? text = some parts) : ∀ part ∈ parts, part.Spelled := by
  simp only [parseSchema?, Option.bind_eq_bind, Option.bind_eq_some_iff,
    Option.ite_none_left_eq_some, Option.some.injEq] at read
  obtain ⟨tokens, readTokens, ⟨_, _⟩, readParts, -, rfl⟩ := read
  exact (takes_parseSchemaPart.whileStarts _ _ _ _ _ (named_of_tokens? readTokens) readParts).1

end MockGraph.Syntax
