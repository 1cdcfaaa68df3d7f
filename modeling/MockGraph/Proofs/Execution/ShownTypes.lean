import MockGraph.Proofs.Execution.Internal
import MockGraph.Proofs.Syntax.Names
set_option autoImplicit false

namespace MockGraph

open Syntax

namespace Declarations

/-- Declared types have names, and the types of their fields single marks. -/
def Spelled (types : Ordered String TypeDefinition) : Prop := ∀ entry ∈ types, entry.2.Spelled

theorem spelled_builtInTypes : Spelled builtInTypes := by
  have names : ∀ name ∈ builtInScalars, IsName name := by
    intro name member
    simp only [builtInScalars, List.mem_cons, List.not_mem_nil, or_false] at member
    rcases member with rfl | rfl | rfl | rfl | rfl <;> decide
  intro entry member
  obtain ⟨name, listed, rfl⟩ := List.mem_map.mp member
  exact ⟨names name listed, trivial⟩

theorem collapsed_extendBody? {body more extended : TypeBody} (collapsed : body.Collapsed)
    (collapsed' : more.Collapsed) (merges : extendBody? body more = some extended) :
    extended.Collapsed := by
  unfold extendBody? at merges
  split at merges <;> cases merges
  case h_3 | h_4 => exact List.forall_mem_append.mpr ⟨collapsed, collapsed'⟩
  all_goals trivial

theorem spelled_of_parts {parts : List SchemaPart} {declarations : Declarations}
    (read : ofParts? parts = some declarations) (spelled : ∀ part ∈ parts, part.Spelled) :
    Spelled declarations.types := by
  obtain ⟨definitions, extensions, declared, ofDefinitions, ofExtensions, declares, extended⟩ :=
    types_of_parts read
  have afterDefinitions : Spelled declared := by
    refine foldlM_keeps definitions ?_ builtInTypes declared spelled_builtInTypes declares
    intro before after definition listed kept step
    unfold Declarations.declare? at step
    split at step
    · cases step
    · cases step
      intro entry member
      rcases Ordered.mem_insert member with old | rfl
      · exact kept entry old
      · exact spelled _ (ofDefinitions definition listed)
  refine foldlM_keeps extensions ?_ declared declarations.types afterDefinitions extended
  intro before after extension listed kept step
  simp only [Declarations.extend?, Option.bind_eq_bind, Option.bind_eq_some_iff, Option.pure_def,
    Option.some.injEq] at step
  obtain ⟨definition, found, body, merges, rfl⟩ := step
  have extensionSpelled : extension.Spelled := spelled _ (ofExtensions extension listed)
  have definitionSpelled := kept _ (Ordered.mem_of_get? found)
  intro entry member
  rcases Ordered.mem_insert member with old | rfl
  · exact kept entry old
  · exact ⟨definitionSpelled.isName,
      collapsed_extendBody? definitionSpelled.fields extensionSpelled.fields merges⟩

end Declarations

namespace TypeRef

theorem Inside.namedType {type other : TypeRef} (inside : type.Inside other) :
    type.namedType = other.namedType := by
  induction inside with
  | refl => rfl
  | list _ ih | nonNull _ ih => exact ih

theorem Inside.collapsed {type other : TypeRef} (inside : type.Inside other)
    (collapsed : other.Collapsed) : type.Collapsed := by
  induction inside with
  | refl => exact collapsed
  | list _ ih => exact ih collapsed
  | nonNull _ ih => exact ih collapsed.2

end TypeRef

namespace TypeSystem

/-- The types of a schema that was read are built from names. -/
theorem built_of_uses {text : String} {schema : TypeSystem} (parsed : parse text = .ok schema)
    {type : TypeRef} (uses : schema.Uses type) : type.Built := by
  have wellFormed := wellFormed_of_parse parsed
  obtain ⟨parts, declarations, readParts, read, -, rfl, -⟩ := parts_of_parse parsed
  have tabled := Declarations.tabled_of_parts read
  have spelled := Declarations.spelled_of_parts read (spelled_of_parseSchema? readParts)
  have isName : ∀ name type, declarations.typeSystem.resolve name = .ok type → IsName name := by
    intro name type known
    obtain ⟨definition, found, -⟩ := Declarations.declared_of_resolve tabled known
    have listed := Ordered.mem_of_get? found
    have named : definition.name = name := tabled.named _ listed
    exact named ▸ (spelled _ listed).isName
  cases uses with
  | named known => exact .named (isName _ _ known)
  | field declared inside =>
    obtain ⟨type, known, -⟩ := wellFormed.selectable declared
    obtain ⟨definition, interfaces, fields, field, member, listed, body, same⟩ :=
      Declarations.declared_of_field tabled declared
    have collapsed : field.type.Collapsed := by
      have all := (spelled _ listed).fields
      rw [body] at all
      exact all field member
    obtain rfl : _ = _ := congrArg Prod.snd same
    exact (TypeRef.built_iff _).mpr
      ⟨inside.namedType ▸ isName _ _ known, inside.collapsed collapsed⟩

/-- What a validation says of selections: an object lacks one, or a leaf has one. The type that it
shows is that of the selected field, or of the name of a type. -/
theorem shown_of_selectionErrors {schema : TypeSystem} {field shown : String}
    {error : ValidationError}
    (shows : error = .missingSelection field shown ∨ error = .leafSelection field shown)
    (selection : List FieldSelection) :
    ∀ parent, error ∈ schema.selectionErrors parent selection →
      (∃ object definition, schema.field object field = .ok definition ∧
          shown = definition.type.text) ∨
        field = "__typename" ∧ shown = (TypeRef.nonNull (.named "String")).text := by
  induction selection using FieldSelection.selection_induction with
  | nil => exact fun _ member => nomatch member
  | cons name aliasName arguments selection rest below others =>
    intro parent member
    rw [selectionErrors] at member
    rcases List.mem_append.mp member with now | later
    · unfold fieldErrors at now
      dsimp only at now
      split at now
      · rename_i isTypename
        split at now
        · cases now
        · obtain rfl := List.mem_singleton.mp now
          rcases shows with same | same <;> cases same
          exact .inr ⟨isTypename, rfl⟩
      · split at now
        · obtain rfl := List.mem_singleton.mp now
          rcases shows with same | same <;> cases same
        · rename_i definition declared
          rcases List.mem_append.mp now with ofArguments | ofSelection
          · rcases shows with rfl | rfl <;> simp [unknownArguments, missingArguments] at ofArguments
          · -- The type that is shown is the one that the field is declared with.
            have ofField : error = .missingSelection name definition.type.text ∨
                error = .leafSelection name definition.type.text ∨
                  ∃ object, error ∈ schema.selectionErrors object selection := by
              split at ofSelection
              · split at ofSelection
                · exact .inl (List.mem_singleton.mp ofSelection)
                · exact .inr (.inr ⟨_, ofSelection⟩)
              · split at ofSelection
                · cases ofSelection
                · exact .inr (.inl (List.mem_singleton.mp ofSelection))
              · cases ofSelection
            rcases ofField with rfl | rfl | ⟨object, inside⟩
            · rcases shows with same | same <;> cases same
              exact .inl ⟨parent, definition, declared, rfl⟩
            · rcases shows with same | same <;> cases same
              exact .inl ⟨parent, definition, declared, rfl⟩
            · exact below object inside
    · exact others parent later

end TypeSystem

inductive TypeRef.ShownIn (type : TypeRef) : String → Prop
  | invalidValue (found : String) :
      ShownIn type (ResolutionError.invalidValue type.text found).message
  | missingSelection (field : String) :
      ShownIn type (ValidationError.missingSelection field type.text).message
  | leafSelection (field : String) :
      ShownIn type (ValidationError.leafSelection field type.text).message

/-- Where a character stands for the first time, a list is split in one way. -/
theorem eq_of_append_cons {c : Char} {before before' after after' : List Char} (absent : c ∉ before)
    (absent' : c ∉ before') (same : before ++ c :: after = before' ++ c :: after') :
    before = before' ∧ after = after' := by
  rcases List.append_eq_append_iff.mp same with
    ⟨_ | ⟨d, middle⟩, rfl, rest⟩ | ⟨_ | ⟨d, middle⟩, rfl, rest⟩
  · exact ⟨(List.append_nil _).symm, (List.cons.inj rest).2⟩
  · exact absurd (List.mem_append_right _ ((List.cons.inj rest).1 ▸ List.mem_cons_self)) absent'
  · exact ⟨List.append_nil _, (List.cons.inj rest).2.symm⟩
  · exact absurd (List.mem_append_right _ ((List.cons.inj rest).1 ▸ List.mem_cons_self)) absent

theorem eq_of_quoted {front front' quoted quoted' tail tail' : List Char} (plain : '"' ∉ quoted)
    (plain' : '"' ∉ quoted') (plainTail : '"' ∉ tail) (plainTail' : '"' ∉ tail')
    (same : front ++ '"' :: (quoted ++ '"' :: tail) = front' ++ '"' :: (quoted' ++ '"' :: tail')) :
    quoted = quoted' := by
  have reversed := congrArg List.reverse same
  simp only [List.reverse_append, List.reverse_cons, List.append_assoc,
    List.singleton_append] at reversed
  have rest := (eq_of_append_cons (by simpa using plainTail) (by simpa using plainTail') reversed).2
  exact List.reverse_inj.mp
    (eq_of_append_cons (by simpa using plain) (by simpa using plain') rest).1

namespace TypeRef

theorem Built.plain {type : TypeRef} (built : type.Built) :
    ',' ∉ type.text.toList ∧ '"' ∉ type.text.toList := by
  obtain ⟨isName, -⟩ := (built_iff type).mp built
  clear built
  induction type with
  | named name =>
    obtain ⟨first, rest, spelled, starts, goesOn⟩ := isName
    have others : ∀ c, Token.isNameStart c = false → Token.isNameRest c = false →
        c ∉ name.toList := by
      intro c noStart noRest member
      rw [show name.toList = first :: rest from spelled] at member
      rcases List.mem_cons.mp member with rfl | later
      · exact absurd (starts.symm.trans noStart) (by decide)
      · exact absurd ((goesOn c later).symm.trans noRest) (by decide)
    exact ⟨others _ (by decide) (by decide), others _ (by decide) (by decide)⟩
  | list item ih =>
    have inner := ih isName
    simpa [text] using inner
  | nonNull inner ih =>
    have inside := ih isName
    simpa [text] using inside

/-- The message about a value that is not of its type, around that type. -/
theorem toList_invalidValue (shown found : String) :
    (ResolutionError.invalidValue shown found).message.toList =
      'E' ::
        ("xpected a value of type ".toList ++
          (shown.toList ++ ',' :: (" found ".toList ++ found.toList))) := by
  have front : "Expected a value of type ".toList = 'E' :: "xpected a value of type ".toList := by
    decide
  have comma : ", found ".toList = ',' :: " found ".toList := by decide
  have parts (a b c d : String) :
      (a ++ b ++ c ++ d).toList = a.toList ++ (b.toList ++ (c.toList ++ d.toList)) := by
    simp only [String.toList_append, List.append_assoc]
  have message := parts "Expected a value of type " shown ", found " found
  rw [front, comma] at message
  exact message

/-- A message about a selected field, around the type that it shows. -/
theorem toList_field (field reason shown tail : String) :
    ("Field " ++ ValidationError.quoted field ++ reason ++ ValidationError.quoted shown ++
        tail).toList =
      'F' :: ("ield ".toList ++ ((ValidationError.quoted field).toList ++ reason.toList)) ++ '"' ::
        (shown.toList ++ '"' :: tail.toList) := by
  have front : "Field ".toList = 'F' :: "ield ".toList := by decide
  have quote : "\"".toList = ['"'] := by decide
  have parts (a b c d e : String) : (a ++ b ++ c ++ ValidationError.quoted d ++ e).toList =
      a.toList ++ (b.toList ++ c.toList) ++ '"' :: (d.toList ++ '"' :: e.toList) := by
    simp only [ValidationError.quoted, String.toList_append, quote, List.append_assoc,
      List.cons_append, List.nil_append]
  have message := parts "Field " (ValidationError.quoted field) reason shown tail
  rw [front] at message
  exact message

/-- In a message the type comes before the first comma, or in the last quotes. -/
theorem ShownIn.toList {type : TypeRef} {message : String} (shown : type.ShownIn message) :
    (∃ found, message.toList =
        'E' :: ("xpected a value of type ".toList ++ (type.text.toList ++ ',' :: found))) ∨
      ∃ front tail, '"' ∉ tail ∧
        message.toList = 'F' :: front ++ '"' :: (type.text.toList ++ '"' :: tail) := by
  cases shown with
  | invalidValue found => exact .inl ⟨_, toList_invalidValue type.text found⟩
  | missingSelection field =>
    exact .inr ⟨_, _, by decide,
      toList_field field " of type " type.text " must have a selection of subfields"⟩
  | leafSelection field =>
    exact .inr ⟨_, _, by decide,
      toList_field field " must not have a selection since type " type.text " has no subfields"⟩

theorem Built.eq_of_shown {type other : TypeRef} (built : type.Built) (built' : other.Built)
    {message : String} (shown : type.ShownIn message) (shown' : other.ShownIn message) :
    type = other := by
  suffices texts : type.text.toList = other.text.toList from
      built.eq_of_text built' (String.toList_inj.mp texts)
  rcases shown.toList with ⟨found, chars⟩ | ⟨front, tail, plain, chars⟩ <;>
    rcases shown'.toList with ⟨found', chars'⟩ | ⟨front', tail', plain', chars'⟩ <;>
    rw [chars] at chars'
  · exact (eq_of_append_cons built.plain.1 built'.plain.1
      (List.append_cancel_left (List.cons.inj chars').2)).1
  · exact absurd (List.cons.inj chars').1 (by decide)
  · exact absurd (List.cons.inj chars').1 (by decide)
  · exact eq_of_quoted built.plain.2 built'.plain.2 plain plain' chars'

/-- The text of a type stands for it: it is read in one way, as that type, and shows no other
one. -/
structure Faithful (type : TypeRef) : Prop where
  /-- No mark stands directly on another one. -/
  collapsed : type.Collapsed
  /-- The grammar reads the text in one way, and lowering what it reads gives the type back. -/
  read : ∃ tokens written, tokens? type.text = some tokens ∧ WrittenType.Spelled written tokens ∧
    (∀ other, WrittenType.Spelled other tokens → other = written) ∧ written.lower = type ∧
    parseType tokens = some (type, [])
  distinct : ∀ other : TypeRef, other.Built → other.text = type.text → other = type
  shown : ∀ (other : TypeRef) (message : String), other.Built → type.ShownIn message →
      other.ShownIn message → other = type

theorem Built.faithful {type : TypeRef} (built : type.Built) : type.Faithful := by
  obtain ⟨-, collapsed⟩ := (built_iff type).mp built
  obtain ⟨written, spelled, lowered⟩ := exists_spelled type collapsed
  refine ⟨collapsed, ?_, fun other built' same => built'.eq_of_text built same,
    fun other message built' shown shown' => built'.eq_of_shown built shown' shown⟩
  exact ⟨type.tokens, written, built.reads.1, spelled, fun other again => again.eq spelled, lowered,
    built.reads.2⟩

end TypeRef

/-- Errors that show types show those that values of a schema can have, each by its text. -/
structure TypeSystem.ShowsTypes (schema : TypeSystem) : Prop where
  /-- The type of a selected field, or that of `__typename`. -/
  selection : ∀ parent selection, ∀ error ∈ schema.selectionErrors parent selection, ∀ field shown,
      error = .missingSelection field shown ∨ error = .leafSelection field shown →
        ∃ type : TypeRef, type.Built ∧ shown = type.text ∧ type.ShownIn error.message ∧
          ((∃ object definition, schema.field object field = .ok definition ∧
              type = definition.type) ∨ field = "__typename" ∧ type = .nonNull (.named "String"))
  /-- The type that a value should have had, unless a handler or a rule raised the error. -/
  value : ∀ {σ : Type} (engine : Engine σ), engine.schema = schema →
      engine.mocks.rules.check schema = .ok () →
      ∀ operation payload world response after,
        engine.run operation payload world = (.ok response, after) →
          ∀ error ∈ engine.met operation payload world, ∀ expected found,
            error.1 = .invalidValue expected found →
              engine.Raises error.1 ∨ ∃ type : TypeRef, schema.Uses type ∧ type.Built ∧
                expected = type.text ∧ type.ShownIn error.1.message

/-- The texts of types are faithful, and errors show types by their texts. So what an error shows
tells the type. -/
theorem type_texts_faithful :
    (∀ type : TypeRef, type.Built → type.Faithful) ∧
      ∀ text schema, TypeSystem.parse text = .ok schema → schema.ShowsTypes := by
  refine ⟨fun type => TypeRef.Built.faithful, fun text schema parsed => ⟨?_, ?_⟩⟩
  · intro parent selection error member field shown shows
    have string : IsName "String" := by decide
    have shownBy (type : TypeRef) (same : shown = type.text) : type.ShownIn error.message := by
      rcases shows with rfl | rfl <;> rw [same]
      · exact .missingSelection field
      · exact .leafSelection field
    rcases TypeSystem.shown_of_selectionErrors shows selection parent member with
      ⟨object, definition, declared, same⟩ | ⟨isTypename, same⟩
    · have built := TypeSystem.built_of_uses parsed (.field declared (.refl _))
      exact ⟨_, built, same, shownBy _ same, .inl ⟨object, definition, declared, rfl⟩⟩
    · exact ⟨_, .required (.named string), same, shownBy _ same, .inr ⟨isTypename, rfl⟩⟩
  · rintro σ engine rfl checked operation payload world response after executed error member
      expected found shows
    obtain ⟨root, known, valid, -⟩ := Engine.run_cases executed
    have fault :=
      Engine.fault_of_met (TypeSystem.executable_of_parse parsed) checked known valid payload world
        error member
    rw [shows] at fault ⊢
    cases fault with
    | raised raises => exact .inl raises
    | unfit value uses =>
      exact .inr ⟨_, uses, TypeSystem.built_of_uses parsed uses, rfl, .invalidValue _⟩

/-- A list of identifiers is read back, a selection below a list of states shows the type of the
list, and a state that is none shows the type of states. -/
theorem Valley.type_texts_faithful_pistes :
    let ids : TypeRef := .nonNull (.list (.nonNull (.named "ID")))
    let selection : List FieldSelection := [⟨"pistes", none, [], [⟨"length", none, [], []⟩]⟩]
    let current := engine.offers [second, third]
    ids.Built ∧ ids.text = "[ID!]!" ∧ ids.Faithful ∧
      TypeSystem.parse "enum State{OPEN SHUT} type Query{pistes:[State!]}" = .ok third ∧
      third.selectionErrors "Query" selection = [.leafSelection "pistes" "[State!]"] ∧
      (∃ type : TypeRef, type.Built ∧ "[State!]" = type.text ∧
        type.ShownIn (ValidationError.leafSelection "pistes" "[State!]").message) ∧
      current.run operation none world = (.ok response, world) ∧
      ∀ error ∈ current.met operation none world, ∀ expected found,
        error.1 = .invalidValue expected found →
          current.Raises error.1 ∨ ∃ type : TypeRef, third.Uses type ∧ type.Built ∧
            expected = type.text ∧ type.ShownIn error.1.message := by
  intro ids selection current
  have isName : IsName "ID" := by decide
  have built : ids.Built := (TypeRef.built_iff ids).mpr ⟨isName, rfl, rfl, trivial⟩
  have shows := type_texts_faithful.2 _ _ third_loaded
  have errors : third.selectionErrors "Query" selection = [.leafSelection "pistes" "[State!]"] :=
    rfl
  have ran : current.run operation none world = (.ok response, world) := rfl
  obtain ⟨type, isBuilt, same, shown, -⟩ := shows.selection "Query" selection _
    (errors ▸ List.mem_singleton_self _) "pistes" "[State!]" (.inr rfl)
  exact ⟨built, rfl, type_texts_faithful.1 ids built, third_loaded, errors,
    ⟨type, isBuilt, same, shown⟩, ran,
    shows.value current rfl rfl operation none world response world ran⟩

end MockGraph
