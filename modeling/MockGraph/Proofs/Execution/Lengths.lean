import Mathlib.Data.List.Forall2
import MockGraph.Proofs.Execution.Precedence
import MockGraph.Proofs.Mock.RuleTables
set_option autoImplicit false

namespace MockGraph

/-- A number that is drawn between two bounds lies between them, also if they are as far apart as
words allow. -/
theorem Random.between_bounds (width : Width) {low high : Nat} (ordered : low ≤ high)
    (random : Random) :
    low ≤ (random.between width low high).1 ∧ (random.between width low high).1 ≤ high := by
  have offset : (random.below width (high + 1 - low)).1 < high + 1 - low := by
    by_cases fits : high + 1 - low < Nat.pow 2 width.bits
    · exact below_lt (by omega) fits random
    · have word := next_lt random width
      rw [below, if_pos (Or.inr (Nat.le_of_not_lt fits))]
      omega
  unfold between
  dsimp only
  omega

namespace Mocks

/-- A rule for a list's field gives the length. -/
def SizesField (mocks : Mocks) (position : Position) (range : ListSize) : Prop :=
  ∃ parent field, position.target? = some (parent, field) ∧
    mocks.rules.ruleForField? parent field = some (.listSize range)

/-- The bounds for lists of a type at a position, in any order: those that the field's rule gives,
or else those that the type's rule gives, or else those for all other lists. -/
inductive Bounds (mocks : Mocks) (position : Position) (type : String) (first second : Nat) : Prop
  | field : mocks.SizesField position (.between first second) →
      Bounds mocks position type first second
  | type : (∀ range, ¬mocks.SizesField position range) →
      mocks.rules.ruleForType? type = some (.listSize (.between first second)) →
      Bounds mocks position type first second
  | other : (∀ range, ¬mocks.SizesField position range) →
      (∀ range, mocks.rules.ruleForType? type ≠ some (.listSize range)) →
      mocks.listSize = .between first second → Bounds mocks position type first second

/-- A length between the bounds, both included. -/
def Within (mocks : Mocks) (position : Position) (type : String) (length : Nat) : Prop :=
  ∀ first second, mocks.Bounds position type first second →
    min first second ≤ length ∧ length ≤ max first second

variable {mocks : Mocks} {position : Position} {type : String}

theorem fieldSize?_eq_some_iff {range : ListSize} :
    mocks.fieldSize? position = some range ↔ mocks.SizesField position range := by
  unfold fieldSize? SizesField
  cases position.target? with
  | none => simp
  | some target =>
    obtain ⟨parent, field⟩ := target
    cases found : mocks.rules.ruleForField? parent field with
    | none => simp [found, and_assoc]
    | some rule => cases rule <;> simp [found, and_assoc]

theorem typeSize?_eq_some_iff {range : ListSize} :
    mocks.typeSize? type = some range ↔ mocks.rules.ruleForType? type = some (.listSize range) := by
  unfold typeSize?
  cases mocks.rules.ruleForType? type with
  | none => simp
  | some rule => cases rule <;> simp

/-- The range that lengths are drawn from is the one of the bounds. -/
theorem bounds_iff {first second : Nat} :
    mocks.Bounds position type first second ↔
      mocks.sizeOf position type = .between first second := by
  have unsizedField : (∀ range, ¬mocks.SizesField position range) ↔
      mocks.fieldSize? position = none := by
    simp only [← fieldSize?_eq_some_iff, Option.eq_none_iff_forall_ne_some, ne_eq]
  have unsizedType : (∀ range, mocks.rules.ruleForType? type ≠ some (.listSize range)) ↔
      mocks.typeSize? type = none := by
    simp only [ne_eq, ← typeSize?_eq_some_iff, Option.eq_none_iff_forall_ne_some]
  unfold sizeOf
  constructor
  · rintro (field | ⟨noField, type⟩ | ⟨noField, noType, other⟩)
    · rw [fieldSize?_eq_some_iff.mpr field]
      rfl
    · rw [unsizedField.mp noField, typeSize?_eq_some_iff.mpr type]
      rfl
    · rw [unsizedField.mp noField, unsizedType.mp noType]
      exact other
  · intro size
    cases field : mocks.fieldSize? position with
    | some range =>
      rw [field] at size
      obtain rfl : range = _ := size
      exact .field (fieldSize?_eq_some_iff.mp field)
    | none =>
      rw [field] at size
      cases type : mocks.typeSize? type with
      | some range =>
        rw [type] at size
        obtain rfl : range = _ := size
        exact .type (unsizedField.mpr field) (typeSize?_eq_some_iff.mp type)
      | none =>
        rw [type] at size
        exact .other (unsizedField.mpr field) (unsizedType.mpr type) size

theorem exists_bounds (mocks : Mocks) (position : Position) (type : String) :
    ∃ first second, mocks.Bounds position type first second := by
  refine ⟨(mocks.sizeOf position type).min, (mocks.sizeOf position type).max, bounds_iff.mpr ?_⟩
  rw [ListSize.between, dif_pos (mocks.sizeOf position type).ordered]

theorem drawLength_of_bounds {first second : Nat} (bounds : mocks.Bounds position type first second)
    (random : Random) :
    mocks.drawLength position type random =
      random.between .w64 (min first second) (max first second) := by
  rw [drawLength, bounds_iff.mp bounds, min_between, max_between]

theorem within_drawLength (mocks : Mocks) (position : Position) (type : String) (random : Random) :
    mocks.Within position type (mocks.drawLength position type random).1 := by
  intro first second bounds
  rw [drawLength_of_bounds bounds]
  exact random.between_bounds .w64
    (Nat.le_trans (Nat.min_le_left first second) (Nat.le_max_left first second))

end Mocks

/-- The items of a list and what they were completed from: a list that is supplied keeps its length,
and one that nothing is supplied for has a length between the bounds, and nothing is supplied for
its items either. -/
inductive ItemsSized (mocks : Mocks) (position : Position) (type : String)
    (sized : Option Json → Json → Prop) : Option Json → List Json → Prop
  | supplied {given elements} :
      List.Forall₂ (fun given element => sized (some given) element) given elements →
      ItemsSized mocks position type sized (some (.array given)) elements
  | mocked {elements} : mocks.Within position type elements.length →
      (∀ element ∈ elements, sized none element) →
      ItemsSized mocks position type sized none elements

/-- All lists in a value of a type have the lengths that they should have, at every level, given
what the value was completed from. The members of objects are looked for in what provides them. -/
def Sized (schema : TypeSystem) (mocks : Mocks) (position : Position)
    (sizedMembers : String → Option (Ordered String Json) → Ordered String Json → Prop) :
    TypeRef → Option Json → Json → Prop
  | .nonNull inner, supplied, value => Sized schema mocks position sizedMembers inner supplied value
  | .list item, supplied, value =>
    value = .null ∨ ∃ elements, value = .array elements ∧
      ItemsSized mocks position item.namedType (fun given element =>
        Sized schema mocks position sizedMembers item given element) supplied elements
  | .named name, supplied, value =>
    value = .null ∨
      match Ordered.get? schema.types name with
      | some (.object _ _ _) => ∃ provided members, mocks.Provides position name supplied provided ∧
          value = .object members ∧ sizedMembers name provided members
      | some _ => True
      | none => False

mutual

/-- The lists in the value of a selected field of an object, whose members were looked for in what
was provided. -/
def FieldSized (schema : TypeSystem) (mocks : Mocks) :
    FieldSelection → String → Option (Ordered String Json) → Json → Prop
  | ⟨name, _, _, selection⟩, parent, provided, value =>
    if name = "__typename" then value = .string parent
    else
      value = .null ∨ ∃ definition given, schema.field parent name = .ok definition ∧
        mocks.Fills (.ofField parent name) (provided.bind fun members => Ordered.get? members name)
          given ∧
        Sized schema mocks (.ofField parent name)
          (fun parent provided members =>
            ∀ entry ∈ members, MemberSized schema mocks selection parent provided entry)
          definition.type given value

/-- A member of an object is one of the selected fields under its key. -/
def MemberSized (schema : TypeSystem) (mocks : Mocks) :
    List FieldSelection → String → Option (Ordered String Json) → String × Json → Prop
  | [], _, _, _ => False
  | field :: rest, parent, provided, entry =>
    field.responseKey = entry.1 ∧ FieldSized schema mocks field parent provided entry.2 ∨
      MemberSized schema mocks rest parent provided entry

end

/-- The lists in all members of an object. -/
def MembersSized (schema : TypeSystem) (mocks : Mocks) (selection : List FieldSelection)
    (parent : String) (provided : Option (Ordered String Json)) (members : Ordered String Json) :
    Prop :=
  ∀ entry ∈ members, MemberSized schema mocks selection parent provided entry

/-- A member of the data is the value of one of the root fields. Each meets the run and the world
that those before it leave, and is completed from its source. -/
inductive Run.Sized {σ : Type} (engine : Engine σ) (entry : String × Json) :
    List FieldSelection → Run → World σ → Prop
  | typename {field rest run world} : field.name = "__typename" →
      entry = (field.responseKey, .string run.root) →
      Run.Sized engine entry (field :: rest) run world
  | null {field rest run world} : entry = (field.responseKey, .null) →
      Run.Sized engine entry (field :: rest) run world
  | completed {field rest run world met definition supplied given} :
      entry.1 = field.responseKey → field.name ≠ "__typename" →
      run.schema.field run.root field.name = .ok definition →
      run.source engine.handlers field world = (Option.map Except.ok supplied, met) →
      engine.mocks.Fills (.ofField run.root field.name) supplied given →
      MockGraph.Sized run.schema engine.mocks (.ofField run.root field.name)
        (MembersSized run.schema engine.mocks field.selection) definition.type given entry.2 →
      Run.Sized engine entry (field :: rest) run world
  | later {field rest run next world met} :
      run.step engine field world = (.running next, met) → Run.Sized engine entry rest next met →
      Run.Sized engine entry (field :: rest) run world

section

variable {schema : TypeSystem} {mocks : Mocks} {position : Position}
  {sizedMembers : String → Option (Ordered String Json) → Ordered String Json → Prop}

theorem sized_null (type : TypeRef) (supplied : Option Json) :
    Sized schema mocks position sizedMembers type supplied .null := by
  induction type with
  | nonNull inner ih => exact ih
  | list item => exact Or.inl rfl
  | named name => exact Or.inl rfl

namespace Completer

open Completion

/-- What is completed from the items that are supplied is in a relation to them, item by item. -/
theorem yields_items_from {relation : Option Json → Json → Prop} {complete : Completer}
    {type : TypeRef} (inner : ∀ supplied path, Yields (relation supplied) (complete supplied path))
    (null : ∀ supplied, relation supplied .null) (path : List PathSegment) :
    ∀ supplied index,
      Yields (List.Forall₂ relation supplied) (items complete type path supplied index) := by
  intro supplied
  induction supplied with
  | nil => exact fun _ => yields_value .nil
  | cons first rest ih =>
    intro index
    refine ((inner first _).absorb fun _ => null first).andThen fun value head => ?_
    exact (ih (index + 1)).andThen fun values tail => yields_value (.cons head tail)

theorem yields_object_from {name : String} {fields : Ordered String FieldDef}
    {complete : FieldsCompleter}
    (inner : ∀ provided path,
      Yields (sizedMembers name provided) (complete name fields provided path))
    (supplied : Option Json) (path : List PathSegment) :
    Yields (fun value =>
        ∃ provided members, mocks.Provides position name supplied provided ∧
          value = Json.object members ∧ sizedMembers name provided members)
      (object mocks position name fields complete supplied path) := by
  have wrapped : ∀ provided, mocks.Provides position name supplied provided →
      Yields (fun value =>
          ∃ provided members, mocks.Provides position name supplied provided ∧
            value = Json.object members ∧ sizedMembers name provided members)
        ((complete name fields provided path).andThen fun members =>
          Completion.value (Json.object members)) := by
    intro provided provides
    exact (inner provided path).andThen fun members sized =>
      yields_value ⟨provided, members, provides, rfl, sized⟩
  unfold object
  dsimp only
  split
  · exact wrapped _ .supplied
  · exact yields_fail _ _ _
  · split
    · rename_i seeded
      exact wrapped _ (.seeded seeded)
    · exact yields_fail _ _ _
    · rename_i seedless
      exact wrapped _ (.mocked seedless)

/-- A list that is supplied keeps its length, any other has a length between the bounds. -/
theorem yields_list_from {sized : Option Json → Json → Prop} {complete : Completer} {item : TypeRef}
    (inner : ∀ supplied path, Yields (sized supplied) (complete supplied path))
    (null : ∀ supplied, sized supplied .null) (supplied : Option Json) (path : List PathSegment) :
    Yields (fun value => ∃ elements, value = Json.array elements ∧
      ItemsSized mocks position item.namedType sized supplied elements)
      (list mocks position item complete supplied path) := by
  unfold list
  split
  · refine (yields_items_from inner null path _ 0).andThen fun values related =>
      yields_value ⟨values, rfl, ?_⟩
    exact .supplied (List.forall₂_map_left_iff.mp related)
  · exact yields_fail _ _ _
  · intro random value success
    dsimp only at success
    have drawn := mocks.within_drawLength position item.namedType random
    generalize mocks.drawLength position item.namedType random = draw at drawn success
    obtain ⟨length, after⟩ := draw
    have mocked : Yields (ItemsSized mocks position item.namedType sized none)
        (items complete item path (List.replicate length none) 0) := by
      intro random values success
      have related := yields_items_from inner null path _ 0 random values success
      have long := related.length_eq
      rw [List.length_replicate] at long
      refine .mocked (long ▸ drawn) fun element member => ?_
      obtain ⟨index, inside, rfl⟩ := List.getElem_of_mem member
      have here :=
        (List.forall₂_iff_get.mp related).2 index (by rwa [List.length_replicate, long]) inside
      rw [List.get_eq_getElem, List.getElem_replicate] at here
      exact here
    have wrapped : Yields (fun value => ∃ elements, value = Json.array elements ∧
        ItemsSized mocks position item.namedType sized none elements)
        ((items complete item path (List.replicate length none) 0).andThen fun values =>
          Completion.value (Json.array values)) :=
      mocked.andThen fun values sized => yields_value ⟨values, rfl, sized⟩
    exact wrapped after value success

/-- Neither a null that is supplied nor one that it is completed to can be in the way of a
property. -/
theorem yields_nonNull_from {sized : Option Json → Json → Prop} {complete : Completer}
    (inner : ∀ supplied path, Yields (sized supplied) (complete supplied path))
    (supplied : Option Json) (path : List PathSegment) :
    Yields (sized supplied) (nonNull position complete supplied path) := by
  unfold nonNull
  split
  · exact yields_fail _ _ _
  · refine (inner supplied path).andThen fun value sized => ?_
    split
    · exact yields_fail _ _ _
    · exact yields_value sized

theorem yields_orNull_from {sized : Option Json → Json → Prop} {complete : Completer}
    (null : ∀ supplied, sized supplied .null)
    (inner : ∀ supplied path, Yields (sized supplied) (complete supplied path))
    (supplied : Option Json) (path : List PathSegment) :
    Yields (sized supplied) (orNull complete supplied path) := by
  unfold orNull
  split
  · exact yields_value (null _)
  · exact inner supplied path

/-- The lists in a completed value are sized, if those in the members of completed objects are. -/
theorem yields_sized {complete : FieldsCompleter}
    (members : ∀ name fields, schema.fieldsOf name = .ok fields → ∀ provided path,
      Yields (sizedMembers name provided) (complete name fields provided path)) (type : TypeRef) :
    ∀ supplied path, Yields (Sized schema mocks position sizedMembers type supplied)
      (ofType schema mocks position complete type supplied path) := by
  induction type with
  | named name =>
    refine yields_orNull_from (sized_null _) fun supplied path random value success => Or.inr ?_
    unfold named at success
    cases found : Ordered.get? schema.types name with
    | none =>
      rw [found] at success
      cases success
    | some type =>
      rw [found] at success
      cases type with
      | object typeName description fields =>
        have known : schema.fieldsOf name = .ok fields := by
          simp [TypeSystem.fieldsOf, TypeSystem.resolve, found]
        exact yields_object_from (members name fields known) supplied path random value success
      | scalar | enum | input => trivial
  | list item ih =>
    refine yields_orNull_from (sized_null _) fun supplied path random value success => Or.inr ?_
    exact yields_list_from ih (sized_null item) supplied path random value success
  | nonNull inner ih => exact yields_nonNull_from ih

end Completer

namespace Completion

/-- The value of a field is null, or it is completed from what fills the field. -/
theorem yields_field_from {sized : Option Json → Json → Prop} {parent name : String}
    {type : TypeRef} {complete : FieldsCompleter}
    (inner : ∀ given path, Yields (sized given)
      (Completer.ofType schema mocks (.ofField parent name) complete type given path))
    (supplied : Option Json) (path : List PathSegment) :
    Yields (fun value =>
        value = .null ∨
          ∃ given, mocks.Fills (.ofField parent name) supplied given ∧ sized given value)
      (field schema mocks parent name type complete supplied path) := by
  have filled : ∀ given, mocks.Fills (.ofField parent name) supplied given →
      Yields (fun value =>
          value = .null ∨
            ∃ given, mocks.Fills (.ofField parent name) supplied given ∧ sized given value)
        (absorb type
          (Completer.ofType schema mocks (.ofField parent name) complete type given path)) := by
    intro given fills
    have reached :
        Yields (fun value =>
            value = .null ∨
              ∃ given, mocks.Fills (.ofField parent name) supplied given ∧ sized given value)
          (Completer.ofType schema mocks (.ofField parent name) complete type given path) :=
      fun random value success => Or.inr ⟨given, fills, inner given path random value success⟩
    exact reached.absorb fun _ => Or.inl rfl
  unfold field
  dsimp only
  split
  · exact filled _ .supplied
  · split
    · rename_i ruled
      exact filled _ (.ruled ruled)
    · exact (yields_fail _ _ _).absorb fun _ => Or.inl rfl
    · rename_i unruled
      exact filled _ (.mocked unruled)

/-- The lists in the members of a completed object are sized, if those in the members that are done
are. -/
theorem yields_membersSized (selection : List FieldSelection) :
    ∀ (done : Ordered String Json) (parent : String) (definitions : Ordered String FieldDef)
      (provided : Option (Ordered String Json)) (path : List PathSegment)
      (sized : String × Json → Prop), schema.fieldsOf parent = .ok definitions →
      (∀ entry ∈ done, sized entry) →
      (∀ entry, MemberSized schema mocks selection parent provided entry → sized entry) →
      Yields (fun members => ∀ entry ∈ members, sized entry)
        (fields schema mocks selection done parent definitions provided path) := by
  induction selection using FieldSelection.selection_induction with
  | nil =>
    intro done parent definitions provided path sized known before selected
    exact yields_value before
  | cons name aliasName arguments selection rest ihBelow ihRest =>
    intro done parent definitions provided path sized known before selected
    have head :
        Yields (FieldSized schema mocks ⟨name, aliasName, arguments, selection⟩ parent provided)
          (member schema mocks ⟨name, aliasName, arguments, selection⟩ parent definitions provided
            (path ++
              [.field (FieldSelection.responseKey ⟨name, aliasName, arguments, selection⟩)])) := by
      unfold member
      split
      · rename_i isTypename
        exact yields_value (by simp only [FieldSized, if_pos isTypename])
      · rename_i notTypename
        split
        · exact yields_fail _ _ _
        · rename_i definition found
          intro random value success
          have declared : schema.field parent name = .ok definition := by
            simp [TypeSystem.field, known, found]
          have inside := fun given path =>
            @Completer.yields_sized schema mocks (.ofField parent name) _ _
              (fun object objectFields objectKnown provided path =>
                ihBelow [] object objectFields provided path _ objectKnown
                  (fun _ absent => absurd absent List.not_mem_nil) fun _ same => same)
              definition.type given path
          simp only [FieldSized, if_neg notTypename]
          rcases yields_field_from inside _ _ random value success with
            isNull | ⟨given, fills, sized⟩
          · exact Or.inl isNull
          · exact Or.inr ⟨definition, given, declared, fills, sized⟩
    unfold fields
    refine head.andThen fun value here => ?_
    refine ihRest _ parent definitions provided path sized known ?_ fun entry later =>
      selected entry (Or.inr later)
    intro entry member
    rcases Ordered.mem_insert member with old | rfl
    · exact before entry old
    · exact selected _ (Or.inl ⟨rfl, here⟩)

end Completion

end

namespace Run

variable {σ : Type}

/-- Whatever its source gives, the value of a root field is null, or it is completed from what fills
the field. -/
theorem yields_complete_sized (run : Run) (mocks : Mocks) (field : FieldSelection)
    (definition : FieldDef) (source : Option (Except ResolutionError Json)) :
    Completion.Yields
      (fun value =>
        value = .null ∨ ∃ supplied given, source = Option.map .ok supplied ∧
          mocks.Fills (.ofField run.root field.name) supplied given ∧
          MockGraph.Sized run.schema mocks (.ofField run.root field.name)
            (MembersSized run.schema mocks field.selection) definition.type given value)
      (run.complete mocks field definition source) := by
  have members : ∀ name fields, run.schema.fieldsOf name = .ok fields → ∀ provided path,
      Completion.Yields (MembersSized run.schema mocks field.selection name provided)
        (Completion.fields run.schema mocks field.selection [] name fields provided path) := by
    intro name fields known provided path
    exact Completion.yields_membersSized field.selection [] name fields provided path _ known nofun
      fun _ same => same
  have supplied : ∀ supplied, source = Option.map .ok supplied →
      ∀ random value,
        (run.complete mocks field definition (Option.map .ok supplied) random).value = some value →
          value = .null ∨ ∃ supplied given, source = Option.map .ok supplied ∧
            mocks.Fills (.ofField run.root field.name) supplied given ∧
            MockGraph.Sized run.schema mocks (.ofField run.root field.name)
              (MembersSized run.schema mocks field.selection) definition.type given value := by
    intro supplied sourced random value success
    rw [complete_of_supplied] at success
    exact (Completion.yields_field_from (Completer.yields_sized members definition.type) supplied _
        random value success).imp_right fun ⟨given, fills, sized⟩ =>
      ⟨supplied, given, sourced, fills, sized⟩
  intro random value success
  cases source with
  | none => exact supplied none rfl random value success
  | some result =>
    cases result with
    | ok given => exact supplied (some given) rfl random value success
    | error error =>
      have lost : Completion.Yields (fun value => value = .null)
          (Completion.absorb definition.type (Completion.fail error [.field field.responseKey])) :=
        (Completion.yields_fail _ _ _).absorb fun _ => rfl
      exact Or.inl (lost random value success)

/-- A run ends with no data, or with members whose lists are sized, if those of the members that
were done are. -/
theorem finish_sized (engine : Engine σ) (selection : List FieldSelection) :
    ∀ (run : Run) (world : World σ) (sized : String × Json → Prop),
      (∀ entry ∈ run.data, sized entry) →
        (∀ entry, Run.Sized engine entry selection run world → sized entry) →
        (finish engine selection run world).1.data = some .null ∨
          ∃ members, (finish engine selection run world).1.data = some (.object members) ∧
            ∀ entry ∈ members, sized entry := by
  induction selection with
  | nil =>
    intro run world sized before selected
    exact Or.inr ⟨run.data, rfl, before⟩
  | cons field rest ih =>
    intro run world sized before selected
    have goesOn : ∀ (next : Run) (met : World σ) (value : Json),
        run.step engine field world = (.running next, met) →
          next.data = Ordered.insert run.data field.responseKey value →
          Run.Sized engine (field.responseKey, value) (field :: rest) run world →
          (finish engine rest next met).1.data = some .null ∨
            ∃ members, (finish engine rest next met).1.data = some (.object members) ∧
              ∀ entry ∈ members, sized entry := by
      intro next met value stepped data here
      refine ih next met sized ?_ fun entry later => selected entry (.later stepped later)
      intro entry member
      rw [data] at member
      rcases Ordered.mem_insert member with old | rfl
      · exact before entry old
      · exact selected _ here
    unfold finish
    rcases run.step_cases engine field world with ⟨isTypename, stepped⟩ | ⟨notTypename,
      ⟨error, -, stepped⟩ | ⟨definition, source, met, done, known, sourced, completed,
        ⟨value, reached, stepped⟩ | ⟨-, stepped⟩⟩⟩
    · rw [stepped]
      exact goesOn _ _ _ stepped rfl (.typename isTypename rfl)
    · rw [stepped]
      exact ih run world sized before fun entry later => selected entry (.later stepped later)
    · rw [stepped]
      refine goesOn _ _ _ stepped rfl ?_
      rcases yields_complete_sized run engine.mocks field definition source met.random value
        (by rw [completed, reached]) with rfl | ⟨supplied, given, rfl, fills, sized⟩
      · exact .null rfl
      · exact .completed rfl notTypename known sourced fills sized
    · rw [stepped]
      exact Or.inl rfl

end Run

/-- The length of each list that nothing is supplied for is drawn from between its bounds, which
always leave a length to draw, and so are the lengths of all such lists in the data of a response
and in generated values. -/
theorem Engine.run_sized {σ : Type} (engine : Engine σ) :
    (∀ (position : Position) (type : String),
        (∃ first second, engine.mocks.Bounds position type first second) ∧
          ∀ random,
            engine.mocks.Within position type (engine.mocks.drawLength position type random).1 ∧
              ∀ first second, engine.mocks.Bounds position type first second →
                min first second ≤ max first second ∧
                  engine.mocks.drawLength position type random =
                    random.between .w64 (min first second) (max first second)) ∧
      (∀ (operation : Operation) (payload : Option Json) (world after : World σ)
        (response : Response), engine.run operation payload world = (.ok response, after) →
        response.data = some .null ∨
          ∃ root seed members, engine.schema.root? operation.kind = some root ∧
            engine.mocks.objectSeed? .root root = seed.map .ok ∧
            response.data = some (.object members) ∧ ∀ entry ∈ members, Run.Sized engine entry
              operation.selection ⟨engine.schema, root, seed, operation.context, payload, [], []⟩
              world) ∧
      ∀ (type : TypeRef) (position : Position) (selection : List FieldSelection) (random : Random)
        (value : Json),
        (engine.mocks.generate engine.schema type position selection random).1 = .ok value →
          ∃ given, engine.mocks.Fills position none given ∧
            Sized engine.schema engine.mocks position
              (MembersSized engine.schema engine.mocks selection) type given value := by
  refine ⟨fun position type => ?_, fun operation payload world after response executed => ?_,
    fun type position selection random value success => ?_⟩
  · refine ⟨engine.mocks.exists_bounds position type,
      fun random => ⟨?_, fun first second bounds => ⟨?_, ?_⟩⟩⟩
    · exact engine.mocks.within_drawLength position type random
    · exact Nat.le_trans (Nat.min_le_left first second) (Nat.le_max_left first second)
    · exact Mocks.drawLength_of_bounds bounds random
  · obtain ⟨root, found, -, ⟨error, -, rfl, -⟩ | ⟨seed, seeded, finished⟩⟩ := run_cases executed
    · exact Or.inl rfl
    · obtain rfl : _ = response := congrArg Prod.fst finished
      exact (Run.finish_sized engine operation.selection _ world _ nofun fun _ same =>
          same).imp_right fun ⟨members, data, sized⟩ =>
        ⟨root, seed, members, found, seeded, data, sized⟩
  · obtain ⟨given, fills, -, reached⟩ := Mocks.completed_of_generate success
    refine ⟨given, fills, Completer.yields_sized ?_ type given [] random value reached⟩
    intro name fields known provided path
    exact Completion.yields_membersSized selection [] name fields provided path _ known nofun
      fun _ same => same

namespace Resort

/-- Two or three lifts of a resort, and eight or nine wherever else there are lifts. -/
def sizing : Engine Unit :=
  ⟨schema,
    ⟨(MockRules.standard.withField "Resort" "lifts" (.listSize (.between 3 2))).withType "Lift"
      (.listSize (.between 9 8)), .standard⟩, []⟩

def typename : FieldSelection := ⟨"__typename", none, [], []⟩

def countsLifts : Operation :=
  ⟨.query, none, [⟨"resort", none, [], [⟨"lifts", none, [], [typename]⟩]⟩], []⟩

def drawn : World Unit := ⟨⟨[], 0, [0, 0, 7]⟩, (), .new⟩

def lift : Json := .object [("__typename", .string "Lift")]

theorem run_sized_lifts :
    sizing.mocks.Bounds (.ofField "Resort" "lifts") "Lift" 3 2 ∧
      sizing.run countsLifts none drawn =
        (.ok (.executed (.object [("resort", .object [("lifts", .array [lift, lift])])]) []),
          ⟨⟨[], 0, [7]⟩, (), .new⟩) ∧
      Run.Sized sizing ("resort", .object [("lifts", .array [lift, lift])]) countsLifts.selection
        ⟨schema, "Query", none, countsLifts.context, none, [], []⟩ drawn ∧
      (sizing.mocks.generate schema (.list (.named "Lift")) (.ofField "Query" "other") [typename]
          drawn.random).1 = .ok (.array (List.replicate 8 lift)) ∧
      ∃ given, sizing.mocks.Fills (.ofField "Query" "other") none given ∧
        Sized schema sizing.mocks (.ofField "Query" "other")
          (MembersSized schema sizing.mocks [typename]) (.list (.named "Lift")) given
          (.array (List.replicate 8 lift)) := by
  have executed : sizing.run countsLifts none drawn =
      (.ok (.executed (.object [("resort", .object [("lifts", .array [lift, lift])])]) []),
        ⟨⟨[], 0, [7]⟩, (), .new⟩) := rfl
  have generated :
      (sizing.mocks.generate schema (.list (.named "Lift")) (.ofField "Query" "other") [typename]
          drawn.random).1 = .ok (.array (List.replicate 8 lift)) := rfl
  obtain ⟨-, runs, generates⟩ := sizing.run_sized
  refine ⟨.field ⟨"Resort", "lifts", rfl, rfl⟩, executed, ?_, generated,
    generates _ _ _ _ _ generated⟩
  rcases runs countsLifts none drawn _ _ executed with
    lost | ⟨root, seed, members, root', seeded, data, sized⟩
  · cases lost
  · cases root'
    cases data
    cases seed with
    | none => exact sized _ List.mem_cons_self
    | some members => cases seeded

end Resort

end MockGraph
