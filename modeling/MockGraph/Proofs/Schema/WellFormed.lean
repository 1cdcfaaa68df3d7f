import MockGraph.Schema.Load
set_option autoImplicit false

namespace MockGraph

open Syntax

/-- A schema that operations can be held against. -/
structure TypeSystem.WellFormed (schema : TypeSystem) : Prop where
  named {name : String} {type : TypeDef} : schema.resolve name = .ok type → type.name = name
  selectable {parent name : String} {definition : FieldDef} : schema.field parent name =
      .ok definition → ∃ type, schema.resolve definition.type.namedType = .ok type ∧
    ∀ name description fields, type ≠ .input name description fields
  distinct {parent name : String} {definition : FieldDef} :
    schema.field parent name = .ok definition → (Ordered.keys definition.arguments).Nodup
  inputs {parent name : String} {definition : FieldDef} : schema.field parent name =
      .ok definition →
    ∀ argument ∈ definition.arguments, ∃ type, schema.resolve argument.2.type.namedType = .ok type
  text : ∃ name description, schema.resolve "String" = .ok (.scalar name description)
  roots {kind : OperationKind} {root : String} : schema.root? kind = some root →
    ∃ fields, schema.fieldsOf root = .ok fields

theorem TypeSystem.object_of_field {schema : TypeSystem} {parent name : String}
    {definition : FieldDef} (known : schema.field parent name = .ok definition) :
    ∃ typeName description fields,
      schema.resolve parent = .ok (.object typeName description fields) ∧
        Ordered.get? fields name = some definition := by
  unfold field fieldsOf at known
  cases resolved : schema.resolve parent with
  | error error => simp [resolved] at known
  | ok type =>
    cases type with
    | scalar | enum | input => simp [resolved] at known
    | object typeName description fields =>
      simp only [resolved] at known
      split at known
      · rename_i present
        obtain rfl := Except.ok.inj known
        exact ⟨typeName, description, fields, rfl, present⟩
      · cases known

theorem TypeSystem.get?_of_resolve {schema : TypeSystem} {name : String} {type : TypeDef}
    (known : schema.resolve name = .ok type) : Ordered.get? schema.types name = some type := by
  unfold resolve at known
  split at known
  · rename_i found
    exact Except.ok.inj known ▸ found
  · cases known

theorem TypeSystem.typeNamed?_of_resolve {schema : TypeSystem} {name : String} {type : TypeDef}
    (known : schema.resolve name = .ok type) : schema.typeNamed? name = some type := by
  rw [typeNamed?, get?_of_resolve known]

namespace Declarations

variable {types : Ordered String TypeDefinition}

/-- Declared types stand under their names, each once, and the built-in texts among them. -/
structure Tabled (types : Ordered String TypeDefinition) : Prop where
  distinct : types.keys.Nodup
  named : ∀ entry ∈ types, entry.2.name = entry.1
  text : ∃ definition, Ordered.get? types "String" = some definition ∧ definition.body = .scalar

/-- A type takes the place of the one with its name, and a scalar only that of a scalar. -/
theorem Tabled.insert (tabled : Tabled types) {name : String} {definition : TypeDefinition}
    (named : definition.name = name)
    (keeps : ∀ declared, Ordered.get? types name = some declared → declared.body = .scalar →
      definition.body = .scalar) : Tabled (Ordered.insert types name definition) := by
  refine ⟨Ordered.nodup_keys_insert tabled.distinct _ _, ?_, ?_⟩
  · intro entry member
    rcases Ordered.mem_insert member with old | rfl
    · exact tabled.named entry old
    · exact named
  · obtain ⟨text, found, scalar⟩ := tabled.text
    rw [Ordered.get?_insert]
    split
    · rename_i same
      exact ⟨definition, rfl, keeps text (same ▸ found) scalar⟩
    · exact ⟨text, found, scalar⟩

theorem tabled_builtInTypes : Tabled builtInTypes :=
  ⟨by decide, by decide, ⟨"String", none, [], .scalar⟩, rfl, rfl⟩

theorem Tabled.declare? (tabled : Tabled types) {definition : TypeDefinition}
    {after : Ordered String TypeDefinition}
    (declared : Declarations.declare? types definition = some after) : Tabled after := by
  unfold Declarations.declare? at declared
  split at declared
  · cases declared
  · rename_i free
    obtain rfl := Option.some.inj declared
    refine tabled.insert rfl fun other found => ?_
    rw [Ordered.contains, found] at free
    exact absurd rfl free

theorem extendBody?_scalar {body extended : TypeBody}
    (merges : extendBody? .scalar body = some extended) : extended = .scalar := by
  cases body with
  | scalar => exact (Option.some.inj merges).symm
  | enum | object | interface | union | input => cases merges

theorem Tabled.extend? (tabled : Tabled types) {extension : TypeDefinition}
    {after : Ordered String TypeDefinition}
    (extended : Declarations.extend? types extension = some after) : Tabled after := by
  simp only [Declarations.extend?, Option.bind_eq_bind, Option.bind_eq_some_iff, Option.pure_def,
    Option.some.injEq] at extended
  obtain ⟨declared, found, body, merges, rfl⟩ := extended
  refine tabled.insert (tabled.named _ (Ordered.mem_of_get? found)) fun other again scalar => ?_
  obtain rfl := Option.some.inj (found.symm.trans again)
  rw [scalar] at merges
  exact extendBody?_scalar merges

/-- What every step keeps, a run of steps keeps that all succeed. -/
theorem foldlM_keeps {α β : Type} {keeps : β → Prop} {step : β → α → Option β} (items : List α) :
    (∀ before after, ∀ item ∈ items, keeps before → step before item = some after → keeps after) →
      ∀ before after, keeps before → items.foldlM step before = some after → keeps after := by
  induction items with
  | nil =>
    intro _ before after kept ran
    obtain rfl := Option.some.inj ran
    exact kept
  | cons item rest ih =>
    intro each before after kept ran
    rw [List.foldlM_cons] at ran
    obtain ⟨next, stepped, ran⟩ := Option.bind_eq_some_iff.mp ran
    exact ih (fun before after item later => each before after item (List.mem_cons_of_mem _ later))
      next after (each before next item List.mem_cons_self kept stepped) ran

/-- The types that parts declare, and then the extensions of types among them. -/
theorem types_of_parts {parts : List SchemaPart} {declarations : Declarations}
    (read : ofParts? parts = some declarations) :
    ∃ definitions extensions : List TypeDefinition, ∃ declared,
      (∀ definition ∈ definitions, .type definition ∈ parts) ∧
      (∀ extension ∈ extensions, .typeExtension extension ∈ parts) ∧
      definitions.foldlM Declarations.declare? builtInTypes = some declared ∧
      extensions.foldlM Declarations.extend? declared = some declarations.types := by
  simp only [ofParts?, Option.bind_eq_bind, Option.bind_eq_some_iff, Option.pure_def] at read
  obtain ⟨declared, declares, types, extended, read⟩ := read
  have same : declarations.types = types := by
    split at read
    · split at read
      · cases read
      · rw [← Option.some.inj read]
    · rw [← Option.some.inj read]
    · cases read
  refine ⟨_, _, declared, ?_, ?_, declares, same ▸ extended⟩
  all_goals
    intro definition member
    obtain ⟨part, inside, chosen⟩ := List.mem_filterMap.mp member
    split at chosen <;> cases chosen
    exact inside

theorem tabled_of_parts {parts : List SchemaPart} {declarations : Declarations}
    (read : ofParts? parts = some declarations) : Tabled declarations.types := by
  obtain ⟨definitions, extensions, declared, -, -, declares, extended⟩ := types_of_parts read
  have tabled : Tabled declared :=
    foldlM_keeps _ (fun _ _ _ _ kept => kept.declare?) _ _ tabled_builtInTypes declares
  exact foldlM_keeps _ (fun _ _ _ _ kept => kept.extend?) _ _ tabled extended

theorem declared_of_resolve {declarations : Declarations} (tabled : Tabled declarations.types)
    {name : String} {type : TypeDef} (known : declarations.typeSystem.resolve name = .ok type) :
    ∃ definition, Ordered.get? declarations.types name = some definition ∧
      typeDef? definition = some type := by
  obtain ⟨entry, member, same⟩ :=
    List.mem_filterMap.mp (Ordered.mem_of_get? (TypeSystem.get?_of_resolve known))
  split at same
  · obtain ⟨_, defined, same⟩ := Option.map_eq_some_iff.mp same
    cases same
    exact ⟨entry.2, Ordered.get?_of_mem tabled.distinct member, defined⟩
  · cases same

theorem name_of_typeDef? {definition : TypeDefinition} {type : TypeDef}
    (defined : typeDef? definition = some type) : type.name = definition.name := by
  unfold typeDef? at defined
  split at defined <;> cases defined <;> rfl

theorem declared_of_field {declarations : Declarations} (tabled : Tabled declarations.types)
    {parent name : String} {definition : FieldDef}
    (known : declarations.typeSystem.field parent name = .ok definition) :
    ∃ declared interfaces fields, ∃ field ∈ fields, (parent, declared) ∈ declarations.types ∧
      declared.body = .object interfaces fields ∧ fieldDef field = (name, definition) := by
  obtain ⟨typeName, description, fields, resolved, present⟩ := TypeSystem.object_of_field known
  obtain ⟨declared, found, defined⟩ := declared_of_resolve tabled resolved
  unfold typeDef? at defined
  split at defined <;> cases defined
  rename_i interfaces declaredFields body
  obtain ⟨field, member, same⟩ := List.mem_map.mp (Ordered.mem_of_get? present)
  exact ⟨declared, interfaces, declaredFields, field, member, Ordered.mem_of_get? found, body, same⟩

end Declarations

/-- A check that goes through a list succeeds if it succeeds on each item. -/
theorem forM_eq_ok_iff {α ε : Type} {check : α → Except ε Unit} {items : List α} :
    items.forM check = .ok () ↔ ∀ item ∈ items, check item = .ok () := by
  induction items with
  | nil => exact iff_of_true rfl nofun
  | cons first rest ih =>
    rw [List.forM_eq_forM, List.forM_cons, ← List.forM_eq_forM, List.forall_mem_cons, ← ih]
    cases check first with
    | error error => exact iff_of_false nofun fun both => nomatch both.1
    | ok done => exact (and_iff_right rfl).symm

namespace TypeSystem

theorem nodup_of_allDistinct {names : List String} (distinct : allDistinct names = true) :
    names.Nodup := by
  induction names with
  | nil => exact List.nodup_nil
  | cons name rest ih =>
    rw [allDistinct, Bool.and_eq_true] at distinct
    exact List.nodup_cons.mpr ⟨by simpa using distinct.1, ih distinct.2⟩

/-- References in a checked schema lead to its types, and its roots are objects. -/
theorem references_of_checked {schema : TypeSystem} (checked : schema.checkReferences = .ok ()) :
    (∀ entry ∈ schema.types, ∀ name ∈ namesIn entry.2, ∃ type, schema.resolve name = .ok type) ∧
      ∀ kind root, schema.root? kind = some root → ∃ fields, schema.fieldsOf root = .ok fields := by
  have found : ∀ {α : Type} {answer : Except SchemaError α}, answer.map (fun _ => ()) = .ok () →
      ∃ value, answer = .ok value := by
    intro α answer same
    cases answer with
    | error error => cases same
    | ok value => exact ⟨value, rfl⟩
  unfold checkReferences at checked
  cases resolved : (schema.types.flatMap fun entry => namesIn entry.2).forM fun name =>
      (schema.resolve name).map fun _ => () with
  | error error =>
    rw [resolved] at checked
    cases checked
  | ok done =>
    rw [resolved] at checked
    refine ⟨fun entry member name listed => ?_, fun kind root known => ?_⟩
    · exact found (forM_eq_ok_iff.mp resolved _ (List.mem_flatMap.mpr ⟨entry, member, listed⟩))
    · apply found (forM_eq_ok_iff.mp checked _ _)
      cases kind with
      | query => simp [← Option.some.inj known]
      | mutation | subscription =>
        unfold root? at known
        simp [known]

/-- A schema that was read is put together from parts that are sound, and was checked. -/
theorem parts_of_parse {text : String} {schema : TypeSystem} (parsed : parse text = .ok schema) :
    ∃ parts declarations, parseSchema? text = some parts ∧
      Declarations.ofParts? parts = some declarations ∧ declarations.isSound = true ∧
      schema = declarations.typeSystem ∧ schema.checkReferences = .ok () := by
  unfold parse at parsed
  split at parsed
  · cases parsed
  · rename_i declarations read
    obtain ⟨parts, readParts, read⟩ := Option.bind_eq_some_iff.mp read
    dsimp only at parsed
    split at parsed
    · rename_i sound
      rw [Bool.and_eq_true] at sound
      split at parsed
      · cases parsed
      · cases checked : declarations.typeSystem.checkReferences with
        | error error =>
          rw [checked] at parsed
          cases parsed
        | ok done =>
          rw [checked] at parsed
          obtain rfl := Except.ok.inj parsed
          exact ⟨parts, declarations, readParts, read, sound.1, rfl, checked⟩
    · cases parsed

/-- A schema that was read comes from declarations that are sound and was checked. -/
theorem declarations_of_parse {text : String} {schema : TypeSystem}
    (parsed : parse text = .ok schema) :
    ∃ declarations : Declarations, Declarations.Tabled declarations.types ∧
      declarations.isSound = true ∧ schema = declarations.typeSystem ∧
      schema.checkReferences = .ok () := by
  obtain ⟨parts, declarations, -, read, sound, same, checked⟩ := parts_of_parse parsed
  exact ⟨declarations, Declarations.tabled_of_parts read, sound, same, checked⟩

theorem declared_field {declarations : Declarations}
    (tabled : Declarations.Tabled declarations.types) (sound : declarations.isSound = true)
    {parent name : String} {definition : FieldDef}
    (known : declarations.typeSystem.field parent name = .ok definition) :
    declarations.isOutputType definition.type = true ∧
      (Ordered.keys definition.arguments).Nodup := by
  obtain ⟨declared, interfaces, fields, field, member, inside, body, same⟩ :=
    Declarations.declared_of_field tabled known
  simp only [Declarations.isSound, Bool.and_eq_true, List.all_eq_true] at sound
  have typeSound := sound.2 _ inside
  rw [Declarations.typeSound, body] at typeSound
  simp only [Bool.and_eq_true, Declarations.fieldsSound, List.all_eq_true] at typeSound
  obtain ⟨⟨-, output⟩, inputs⟩ := typeSound.2.1.2 field member
  obtain rfl : _ = definition := congrArg Prod.snd same
  refine ⟨output, ?_⟩
  rw [Declarations.inputsSound, Bool.and_eq_true] at inputs
  have keys : Ordered.keys (field.arguments.map Declarations.inputDef) =
      field.arguments.map (·.name) := by
    rw [Ordered.keys, List.map_map]
    rfl
  exact keys ▸ nodup_of_allDistinct inputs.1

theorem wellFormed_of_parse {text : String} {schema : TypeSystem}
    (parsed : parse text = .ok schema) : schema.WellFormed := by
  obtain ⟨declarations, tabled, sound, rfl, checked⟩ := declarations_of_parse parsed
  obtain ⟨references, roots⟩ := references_of_checked checked
  refine ⟨?_, ?_, ?_, ?_, ?_, fun known => roots _ _ known⟩
  · intro name type known
    obtain ⟨definition, found, defined⟩ := Declarations.declared_of_resolve tabled known
    exact (Declarations.name_of_typeDef? defined).trans (tabled.named _ (Ordered.mem_of_get? found))
  · intro parent name definition known
    obtain ⟨_, _, fields, resolved, present⟩ := object_of_field known
    obtain ⟨type, found⟩ := references _ (Ordered.mem_of_get? (get?_of_resolve resolved))
      definition.type.namedType
      (List.mem_flatMap.mpr ⟨_, Ordered.mem_of_get? present, List.mem_cons_self⟩)
    refine ⟨type, found, ?_⟩
    rintro _ _ _ rfl
    -- An input type is no output type.
    have output := (declared_field tabled sound known).1
    obtain ⟨declared, there, defined⟩ := Declarations.declared_of_resolve tabled found
    unfold Declarations.typeDef? at defined
    split at defined <;> cases defined
    rename_i body
    simp [Declarations.isOutputType, Declarations.kind?, there, body, Declarations.kindOf] at output
  · intro parent name definition known
    exact (declared_field tabled sound known).2
  · intro parent name definition known argument member
    obtain ⟨_, _, fields, resolved, present⟩ := object_of_field known
    exact references _ (Ordered.mem_of_get? (get?_of_resolve resolved)) _
      (List.mem_flatMap.mpr ⟨_, Ordered.mem_of_get? present,
        List.mem_cons_of_mem _ (List.mem_map.mpr ⟨argument, member, rfl⟩)⟩)
  · obtain ⟨definition, found, scalar⟩ := tabled.text
    have present : ("String", TypeDef.scalar definition.name definition.description) ∈
        declarations.typeSystem.types := by
      refine List.mem_filterMap.mpr ⟨_, Ordered.mem_of_get? found, ?_⟩
      have isPresent : Declarations.isPresent declarations.referenced "String" = true := rfl
      rw [if_pos isPresent, Declarations.typeDef?, scalar]
      rfl
    cases known : declarations.typeSystem.resolve "String" with
    | error error =>
      unfold resolve at known
      split at known
      · cases known
      · rename_i absent
        exact absurd (List.mem_map.mpr ⟨_, present, rfl⟩) ((Ordered.get?_eq_none_iff _ _).mp absent)
    | ok type =>
      obtain ⟨declared, there, defined⟩ := Declarations.declared_of_resolve tabled known
      obtain rfl := Option.some.inj (found.symm.trans there)
      rw [Declarations.typeDef?, scalar] at defined
      exact ⟨_, _, congrArg Except.ok (Option.some.inj defined).symm⟩

end TypeSystem

end MockGraph
