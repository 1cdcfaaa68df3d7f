import MockGraph.Proofs.Execution.Explained
import MockGraph.Proofs.Execution.Provenance
import MockGraph.Proofs.Execution.Shape
set_option autoImplicit false

namespace MockGraph

theorem FieldSelection.find?_responseKey {selection : List FieldSelection}
    (distinct : (selection.map responseKey).Nodup) {field : FieldSelection}
    (member : field ∈ selection) :
    selection.find? (·.responseKey = field.responseKey) = some field := by
  induction selection with
  | nil => cases member
  | cons first rest ih =>
    obtain ⟨unique, distinct⟩ := List.nodup_cons.mp distinct
    rcases List.mem_cons.mp member with rfl | member
    · simp
    · have different : first.responseKey ≠ field.responseKey := by
        intro same
        exact unique (same ▸ List.mem_map_of_mem member)
      rw [List.find?_cons_of_neg (by simpa using different)]
      exact ih distinct member

theorem FieldSelection.key_notMem {field : FieldSelection} {rest : List FieldSelection}
    (unique : field.responseKey ∉ rest.map responseKey) :
    PathSegment.field field.responseKey ∉ rest.map fun other => .field other.responseKey := by
  intro member
  obtain ⟨other, inside, same⟩ := List.mem_map.mp member
  rw [PathSegment.field.injEq] at same
  exact unique (same ▸ List.mem_map_of_mem inside)

namespace Completed

variable {α : Type} {schema : TypeSystem} {place : Place}

/-- The errors of a completion at a path explain its value. -/
def Explains (schema : TypeSystem) (place : Place) (takes given : List PathSegment → Prop)
    (path : List PathSegment) (done : Completed Json) : Prop :=
  ∃ errors, done.failures.map Failure.path = errors.map (path ++ ·) ∧
    Explained schema place takes given done.value errors

/-- The errors of a completion below a path explain the parts that it came to. -/
def Collects (schema : TypeSystem) (place : Place) (given : List PathSegment → Prop)
    (segments : List PathSegment) (path : List PathSegment) (failures : List Failure)
    (parts : Option (Ordered PathSegment Json)) : Prop :=
  ∃ errors, failures.map Failure.path = errors.map (path ++ ·) ∧
    Collected schema place given segments parts errors

theorem explains_value {takes given : List PathSegment → Prop} {path : List PathSegment}
    {json : Json} {random : Random} (nulls : ∀ path, json.at? path = some .null → given path) :
    Explains schema place takes given path (Completion.value json random) :=
  ⟨[], rfl, .of_value nulls⟩

theorem explains_fail {given : List PathSegment → Prop} {path : List PathSegment}
    {error : ResolutionError} {random : Random} :
    Explains schema place Inside given path (Completion.fail error path random) :=
  ⟨[[]], by simp [Completion.fail], .of_error⟩

theorem explains_ofResult {given : List PathSegment → Prop} {path : List PathSegment}
    {result : Except ResolutionError Json} {random : Random}
    (nulls : ∀ json, result = .ok json → ∀ path, json.at? path = some .null → given path) :
    Explains schema place Inside given path (Completion.ofResult path result random) := by
  cases result with
  | ok json => exact explains_value (nulls json rfl)
  | error error => exact explains_fail

theorem Explains.absorb {given : List PathSegment → Prop} {path : List PathSegment}
    {completion : Completion Json} {random : Random}
    (explains : Explains schema place Inside given path (completion random)) :
    Explains schema place Anywhere given path (Completion.absorb place.type completion random) := by
  obtain ⟨errors, paths, explained⟩ := explains
  rw [Completion.absorb_eq]
  exact ⟨errors, paths, explained.absorb⟩

/-- Errors at a step below a path are errors below the path. -/
theorem map_below (path : List PathSegment) (segment : PathSegment)
    (errors : List (List PathSegment)) :
    errors.map ((path ++ [segment]) ++ ·) = (errors.map (segment :: ·)).map (path ++ ·) := by
  simp

variable {inner : Place} {given : List PathSegment → Prop} {segment : PathSegment}
  {segments path : List PathSegment}
  {done : Completed Json} {failures : List Failure} {parts : Option (Ordered PathSegment Json)}

theorem collects_nil : Collects schema place given [] path [] (some []) := ⟨[], rfl, .nil⟩

/-- A step that the place does not have fails, and what comes after it is not reached. -/
theorem collects_stuck (below : Place.belowType? schema place.selection place.type segment = none)
    (error : ResolutionError) :
    Collects schema place given (segment :: segments) path [⟨error, path ++ [segment]⟩] none :=
  ⟨[[segment]], rfl, .stuck below⟩

/-- What comes after a part that stays missing is not reached. -/
theorem Explains.stop {given' : List PathSegment → Prop}
    (head : Explains schema inner Anywhere given' (path ++ [segment]) done)
    (below : Place.belowType? schema place.selection place.type segment = some inner)
    (lost : done.value = none) :
    Collects schema place given (segment :: segments) path done.failures none := by
  obtain ⟨errors, paths, explained⟩ := head
  rw [lost] at explained
  exact ⟨_, paths.trans (map_below path segment errors), .stop below explained⟩

theorem Explains.cons
    (head : Explains schema inner Anywhere (fun rest => given (segment :: rest)) (path ++ [segment])
      done) (below : Place.belowType? schema place.selection place.type segment = some inner)
    {part : Json} (reached : done.value = some part) (fresh : segment ∉ segments)
    (tail : Collects schema place given segments path failures parts) :
    Collects schema place given (segment :: segments) path (done.failures ++ failures)
      (parts.map ((segment, part) :: ·)) := by
  obtain ⟨errors, paths, explained⟩ := head
  obtain ⟨others, otherPaths, collected⟩ := tail
  rw [reached] at explained
  refine ⟨errors.map (segment :: ·) ++ others, ?_, .cons below explained fresh collected⟩
  rw [List.map_append, paths, otherPaths, map_below, List.map_append]

/-- A part is completed, and then those that come after it, which are not reached if it stays
missing. -/
theorem collects_andThen {β γ : Type} {head : Completion Json} {tail : Completion β}
    {make : Json → β → γ} {others : β → Ordered PathSegment Json}
    {all : γ → Ordered PathSegment Json}
    (made : ∀ part rest, all (make part rest) = (segment, part) :: others rest)
    (below : Place.belowType? schema place.selection place.type segment = some inner)
    (fresh : segment ∉ segments) {random : Random}
    (explains : Explains schema inner Anywhere (fun rest => given (segment :: rest))
      (path ++ [segment]) (head random))
    (collects : Collects schema place given segments path (tail (head random).random).failures
      ((tail (head random).random).value.map others)) :
    let done :=
      (head.andThen fun part => tail.andThen fun rest => Completion.value (make part rest)) random
    Collects schema place given (segment :: segments) path done.failures (done.value.map all) := by
  cases reached : (head random).value with
  | none =>
    rw [Completion.andThen_of_none reached]
    exact explains.stop below reached
  | some part =>
    rw [Completion.andThen_of_some reached, Completion.andThen_value]
    have both := explains.cons below reached fresh collects
    simpa only [Option.map_map, Function.comp_def, made] using both

theorem Collects.mono {given' : List PathSegment → Prop}
    (collects : Collects schema place given segments path failures parts)
    (more : ∀ path, given path → given' path) :
    Collects schema place given' segments path failures parts := by
  obtain ⟨errors, paths, collected⟩ := collects
  exact ⟨errors, paths, collected.mono more⟩

/-- What explains the parts explains a value that is made of them. -/
theorem Collects.explains {value : Option α} {make : α → Json} {view : α → Ordered PathSegment Json}
    {random : Random} (made : ∀ a, Parts (make a) (view a))
    (collects : Collects schema place given segments path failures (value.map view)) :
    Explains schema place Inside given path ⟨value.map make, failures, random⟩ := by
  obtain ⟨errors, paths, collected⟩ := collects
  refine ⟨errors, paths, collected.explained ?_ ?_⟩
  · intro missing
    rw [Option.map_eq_none_iff] at missing ⊢
    exact missing
  · intro all reached
    obtain ⟨a, found, rfl⟩ := Option.map_eq_some_iff.mp reached
    exact ⟨make a, by rw [found]; rfl, made a⟩

theorem Explains.mono {takes given' : List PathSegment → Prop}
    (explains : Explains schema place takes given path done)
    (more : ∀ path, given path → given' path) : Explains schema place takes given' path done := by
  obtain ⟨errors, paths, explained⟩ := explains
  exact ⟨errors, paths, explained.mono more⟩

end Completed

namespace Completer

open Completed

variable {schema : TypeSystem} {mocks : Mocks} {position : Position}
  {selection : List FieldSelection}

theorem explains_orNull {place : Place} {complete : Completer}
    {given : Option Json → List PathSegment → Random → List PathSegment → Prop}
    (null : ∀ path random, given (some .null) path random [])
    (inner : ∀ supplied path random, Explains schema place Inside (given supplied path random) path
      (complete supplied path random)) :
    ∀ supplied path random, Explains schema place Inside (given supplied path random) path
      (orNull complete supplied path random) := by
  intro supplied path random
  unfold orNull
  split
  · refine explains_value fun below found => ?_
    rw [Json.eq_nil_of_null_at? found]
    exact null path random
  · exact inner _ _ _

/-- Null at a position that forbids it is an error of its own, and the only one there. -/
theorem explains_nonNull {type : TypeRef} {complete : Completer}
    {given : Option Json → List PathSegment → Random → List PathSegment → Prop}
    (inner : ∀ supplied path random, Explains schema ⟨type, selection⟩ Inside
      (given supplied path random) path (complete supplied path random)) :
    ∀ supplied path random, Explains schema ⟨.nonNull type, selection⟩ Inside
      (given supplied path random) path (nonNull position complete supplied path random) := by
  intro supplied path random
  unfold nonNull
  split
  · exact explains_fail
  · obtain ⟨errors, paths, explained⟩ := inner supplied path random
    cases reached : (complete supplied path random).value with
    | none =>
      rw [Completion.andThen_of_none reached]
      rw [reached] at explained
      exact ⟨errors, paths, explained.required nofun⟩
    | some value =>
      rw [Completion.andThen_of_some reached]
      rw [reached] at explained
      split
      · rename_i isNull
        obtain rfl : value = .null := by cases value <;> first | rfl | cases isNull
        obtain rfl := explained.errors_of_null
        refine ⟨[[]], ?_, .of_error⟩
        simp only [Completion.fail, List.map_append, paths, List.map_nil, List.nil_append,
          List.map_cons, List.append_nil]
      · rename_i present
        refine ⟨errors, ?_, explained.required ?_⟩
        · simp only [Completion.value, List.append_nil, paths]
        · rintro ⟨⟩
          exact present rfl

theorem collects_items {item : TypeRef}
    (inner : ∀ supplied path random, Explains schema ⟨item, selection⟩ Inside
      (GivesNull schema mocks position item selection supplied path random) path
      (ofSelection schema mocks position selection item supplied path random))
    (path : List PathSegment) :
    ∀ supplied index random, Collects schema ⟨.list item, selection⟩
      (ItemGivesNull schema mocks position item selection path supplied index random)
      (indices index supplied.length) path
      (items (ofSelection schema mocks position selection item) item path supplied index
        random).failures
      ((items (ofSelection schema mocks position selection item) item path supplied index
          random).value.map (indexed index)) := by
  intro supplied
  induction supplied with
  | nil => exact fun _ _ => collects_nil
  | cons first rest ih =>
    intro index random
    have head :
        Explains schema ⟨item, selection⟩ Anywhere (fun below =>
          ItemGivesNull schema mocks position item selection path (first :: rest) index random
            (.index index :: below)) _ _ :=
      (inner first (path ++ [.index index]) random).absorb.mono fun below => .here
    have tail :
        Collects schema ⟨.list item, selection⟩
          (ItemGivesNull schema mocks position item selection path (first :: rest) index random) _
          path _ _ := (ih (index + 1) _).mono fun below => .later
    have fresh := index_notMem_indices (Nat.lt_succ_self index) rest.length
    unfold items
    rw [← Completion.absorb_random item] at tail
    exact collects_andThen (fun _ _ => rfl) rfl fresh head tail

theorem explains_list {item : TypeRef}
    (inner : ∀ supplied path random, Explains schema ⟨item, selection⟩ Inside
      (GivesNull schema mocks position item selection supplied path random) path
      (ofSelection schema mocks position selection item supplied path random)) :
    ∀ supplied path random, Explains schema ⟨.list item, selection⟩ Inside
      (GivesNull schema mocks position (.list item) selection supplied path random) path
      (list mocks position item (ofSelection schema mocks position selection item) supplied path
        random) := by
  intro supplied path random
  unfold list
  split
  · rename_i given
    rw [Completion.andThen_value]
    exact ((collects_items inner path (given.map some) 0 random).mono fun below => .array).explains
      parts_array
  · exact explains_fail
  · dsimp only
    rw [Completion.andThen_value]
    exact ((collects_items inner path _ 0 _).mono fun below => .mockedArray rfl).explains
      parts_array

theorem explains_leaf {name : String} {type : TypeDef}
    (known : Ordered.get? schema.types name = some type)
    (plain : ∀ fields, schema.fieldsOf name ≠ .ok fields) :
    ∀ supplied path random, Explains schema ⟨.named name, selection⟩ Inside
      (GivesNull schema mocks position (.named name) selection supplied path random) path
      (leaf mocks position type supplied path random) := by
  intro supplied path random
  unfold leaf
  split
  · refine explains_ofResult fun json success below found => ?_
    rcases TypeDef.coerce_cases success with rfl | ⟨digits, rfl⟩
    · exact .leaf plain found
    · obtain rfl := Json.eq_nil_of_string_at? found
      cases found
  · dsimp only
    exact explains_ofResult fun json success below found => .drawn known plain success found

/-- Whatever the type of an object, the errors below it explain the members that are selected on
it. -/
def MembersExplained (schema : TypeSystem) (mocks : Mocks) (selection : List FieldSelection) :
    Prop :=
  ∀ name fields, schema.fieldsOf name = .ok fields → ∀ provided path random, Collects schema
      ⟨.named name, selection⟩
      (MemberGivesNull schema mocks name fields provided path selection random)
      (selection.map fun field => .field field.responseKey) path
      (Completion.fields schema mocks selection [] name fields provided path random).failures
      ((Completion.fields schema mocks selection [] name fields provided path random).value.map
        keyed)

theorem explains_object {name : String} {fields : Ordered String FieldDef}
    (known : schema.fieldsOf name = .ok fields)
    (members : MembersExplained schema mocks selection) :
    ∀ supplied path random, Explains schema ⟨.named name, selection⟩ Inside
      (GivesNull schema mocks position (.named name) selection supplied path random) path
      (object mocks position name fields (Completion.fields schema mocks selection []) supplied path
        random) := by
  intro supplied path random
  have wrapped : ∀ provided, Explains schema ⟨.named name, selection⟩ Inside
      (MemberGivesNull schema mocks name fields provided path selection random) path
      (((Completion.fields schema mocks selection [] name fields provided path).andThen
          fun members => Completion.value (.object members)) random) := by
    intro provided
    rw [Completion.andThen_value]
    exact (members name fields known provided path random).explains parts_object
  unfold object
  dsimp only
  split
  · exact (wrapped _).mono fun below => .object known
  · exact explains_fail
  · cases seeded : mocks.objectSeed? position name with
    | none => exact (wrapped _).mono fun below => .mockedObject known seeded
    | some seed =>
      cases seed with
      | error error => exact explains_fail
      | ok members => exact (wrapped _).mono fun below => .seededObject known seeded

theorem explains_named (members : MembersExplained schema mocks selection) (name : String) :
    ∀ supplied path random, Explains schema ⟨.named name, selection⟩ Inside
      (GivesNull schema mocks position (.named name) selection supplied path random) path
      (named schema mocks position (Completion.fields schema mocks selection []) name supplied path
        random) := by
  intro supplied path random
  unfold named
  cases found : Ordered.get? schema.types name with
  | none => exact explains_fail
  | some type =>
    cases type with
    | object typeName description fields =>
      have known : schema.fieldsOf name = .ok fields := by
        simp [TypeSystem.fieldsOf, TypeSystem.resolve, found]
      exact explains_object known members supplied path random
    | scalar | enum | input =>
      refine explains_leaf found ?_ supplied path random
      intro fields known
      simp [TypeSystem.fieldsOf, TypeSystem.resolve, found] at known

/-- Whatever is supplied for a value of any type, the errors below it explain what becomes of it. -/
theorem explains_ofSelection (members : MembersExplained schema mocks selection) (type : TypeRef) :
    ∀ supplied path random, Explains schema ⟨type, selection⟩ Inside
      (GivesNull schema mocks position type selection supplied path random) path
      (ofSelection schema mocks position selection type supplied path random) := by
  induction type with
  | named name => exact explains_orNull (fun _ _ => .given) (explains_named members name)
  | list item ih => exact explains_orNull (fun _ _ => .given) (explains_list ih)
  | nonNull inner ih =>
    intro supplied path random
    exact (explains_nonNull ih supplied path random).mono fun below => .nonNull

end Completer

namespace Completion

open Completed Completer

variable {schema : TypeSystem} {mocks : Mocks} {selection : List FieldSelection}

theorem explains_field (members : MembersExplained schema mocks selection) (parent name : String)
    (type : TypeRef) (supplied : Option Json) (path : List PathSegment) (random : Random) :
    Explains schema ⟨type, selection⟩ Anywhere
      (FieldGivesNull schema mocks (.ofField parent name) type selection supplied path random) path
      (field schema mocks parent name type (fields schema mocks selection []) supplied path
        random) := by
  have wrapped : ∀ supplied, Explains schema ⟨type, selection⟩ Anywhere
      (GivesNull schema mocks (.ofField parent name) type selection supplied path random) path
      (absorb type (ofSelection schema mocks (.ofField parent name) selection type supplied path)
        random) := fun supplied => (explains_ofSelection members type supplied path random).absorb
  unfold field
  dsimp only
  split
  · exact (wrapped _).mono fun below => .supplied
  · cases ruled : mocks.fieldValue? (.ofField parent name) with
    | none => exact (wrapped _).mono fun below => .mocked ruled
    | some rule =>
      cases rule with
      | error error => exact explains_fail.absorb
      | ok value => exact (wrapped _).mono fun below => .ruled ruled

/-- The place of a selected field is known, and what is missing or null at it is explained, or there
is no such field, which is an error at the place that it would have. -/
theorem explains_member {field : FieldSelection}
    (members : MembersExplained schema mocks field.selection) {parent : String}
    {definitions : Ordered String FieldDef} (known : schema.fieldsOf parent = .ok definitions)
    {whole : List FieldSelection}
    (located : whole.find? (·.responseKey = field.responseKey) = some field)
    (rest : List FieldSelection) (provided : Option (Ordered String Json)) (path : List PathSegment)
    (random : Random) :
    let key := PathSegment.field field.responseKey
    (∃ inner, Place.belowType? schema whole (.named parent) key = some inner ∧
        Explains schema inner Anywhere
          (fun below =>
            MemberGivesNull schema mocks parent definitions provided path (field :: rest) random
              (key :: below)) (path ++ [key])
          (member schema mocks field parent definitions provided (path ++ [key]) random)) ∨
    Place.belowType? schema whole (.named parent) key = none ∧
      ∃ error, member schema mocks field parent definitions provided (path ++ [key]) =
        fail error (path ++ [key]) := by
  obtain ⟨name, aliasName, arguments, selection⟩ := field
  unfold member
  simp only [Place.belowType?, Place.ofMember?, located, Option.bind_some]
  split
  · rename_i isTypename
    refine Or.inl ⟨_, rfl, explains_value fun below found => ?_⟩
    obtain rfl := Json.eq_nil_of_string_at? found
    cases found
  · rename_i notTypename
    cases found : Ordered.get? definitions name with
    | none =>
      refine Or.inr ⟨?_, _, rfl⟩
      simp [TypeSystem.field, known, found, Except.toOption]
    | some definition =>
      refine Or.inl ⟨⟨definition.type, selection⟩, ?_, ?_⟩
      · simp [TypeSystem.field, known, found, Except.toOption]
      · exact (explains_field members parent name definition.type _ _ random).mono
          fun below gives => .here notTypename found gives

/-- Fields of an object that are selected one after the other. -/
theorem collects_fields {parent : String} {definitions : Ordered String FieldDef}
    (known : schema.fieldsOf parent = .ok definitions) {whole : List FieldSelection}
    (provided : Option (Ordered String Json)) (path : List PathSegment)
    (fields : List FieldSelection) :
    (∀ field ∈ fields, whole.find? (·.responseKey = field.responseKey) = some field) →
      (∀ field ∈ fields, MembersExplained schema mocks field.selection) →
      (fields.map FieldSelection.responseKey).Nodup → ∀ random, Collects schema
        ⟨.named parent, whole⟩
        (MemberGivesNull schema mocks parent definitions provided path fields random)
        (fields.map fun field => .field field.responseKey) path
        (Completion.fields schema mocks fields [] parent definitions provided path random).failures
        ((Completion.fields schema mocks fields [] parent definitions provided path
            random).value.map keyed) := by
  induction fields with
  | nil => exact fun _ _ _ _ => collects_nil
  | cons field rest ih =>
    intro located members distinct random
    have later := ih (fun other member => located other (List.mem_cons_of_mem _ member))
      (fun other member => members other (List.mem_cons_of_mem _ member)) distinct.of_cons
    have fresh := FieldSelection.key_notMem (List.nodup_cons.mp distinct).1
    rw [fields_cons schema mocks parent definitions provided path distinct]
    rcases explains_member (members field (List.mem_cons_self ..)) known
      (located field (List.mem_cons_self ..)) rest
        provided path random with ⟨inner, below, head⟩ | ⟨below, error, failed⟩
    · have tail :
          Collects schema ⟨.named parent, whole⟩
            (MemberGivesNull schema mocks parent definitions provided path (field :: rest) random) _
            path _ _ := (later _).mono fun below => .later
      exact collects_andThen (fun _ _ => rfl) below fresh head tail
    · rw [failed]
      exact collects_stuck below error

theorem membersExplained (selection : List FieldSelection)
    (distinct : FieldSelection.DistinctKeys selection) :
    ∀ field ∈ selection, MembersExplained schema mocks field.selection := by
  induction selection using FieldSelection.selection_induction with
  | nil => exact fun field member => absurd member List.not_mem_nil
  | cons name aliasName arguments selection rest ihBelow ihRest =>
    obtain ⟨-, below, others⟩ := distinct
    intro field member
    rcases List.mem_cons.mp member with rfl | member
    · intro object definitions known provided path random
      exact collects_fields known provided path selection
        (fun _ => FieldSelection.find?_responseKey below.nodup) (ihBelow below) below.nodup random
    · exact ihRest others field member

end Completion

namespace Run

open Completed Completer

variable {σ : Type} {engine : Engine σ} {run : Run} {field : FieldSelection}

theorem explains_complete {mocks : Mocks}
    (members : MembersExplained run.schema mocks field.selection) (definition : FieldDef)
    (source : Option (Except ResolutionError Json)) (random : Random) :
    Explains run.schema ⟨definition.type, field.selection⟩ Anywhere
      (fun below =>
        ∃ supplied, source = Option.map .ok supplied ∧
          FieldGivesNull run.schema mocks (.ofField run.root field.name) definition.type
            field.selection supplied [.field field.responseKey] random below)
      [.field field.responseKey] (run.complete mocks field definition source random) := by
  unfold complete
  dsimp only
  split
  · exact (Completion.explains_field members ..).mono fun below gives => ⟨none, rfl, gives⟩
  · exact (Completion.explains_field members ..).mono fun below gives => ⟨some _, rfl, gives⟩
  · exact explains_fail.absorb

/-- A root field that the schema has is completed, and the run goes on with its value or ends with
the errors so far. -/
theorem step_explains {whole : List FieldSelection} (rest : List FieldSelection) (world : World σ)
    (valid : run.schema.fieldErrors run.root field = [])
    (located : whole.find? (·.responseKey = field.responseKey) = some field)
    (members : MembersExplained run.schema engine.mocks field.selection) :
    ∃ inner done met,
      Place.belowType? run.schema whole (.named run.root) (.field field.responseKey) = some inner ∧
        Explains run.schema inner Anywhere
          (fun below =>
            GivesNull engine (field :: rest) run world (.field field.responseKey :: below))
          [.field field.responseKey] done ∧
        ((∃ value next, done.value = some value ∧
            run.step engine field world = (.running next, met) ∧ next.schema = run.schema ∧
            next.root = run.root ∧ next.data = Ordered.insert run.data field.responseKey value ∧
            next.failures = run.failures ++ done.failures) ∨
          done.value = none ∧
            run.step engine field world =
              (.finished (.executed .null ((run.failures ++ done.failures).map Failure.fieldError)),
                met)) := by
  simp only [Place.belowType?, Place.ofMember?, located, Option.bind_some]
  rcases run.step_cases engine field world with ⟨isTypename, stepped⟩ | ⟨notTypename, cases⟩
  · rw [if_pos isTypename]
    refine ⟨_, Completion.value (.string run.root) world.random, _, rfl, ?_,
      Or.inl ⟨_, _, rfl, stepped, ?_⟩⟩
    · refine explains_value fun below found => ?_
      obtain rfl := Json.eq_nil_of_string_at? found
      cases found
    · exact ⟨rfl, rfl, rfl, (List.append_nil _).symm⟩
  · obtain ⟨definition, declared⟩ := TypeSystem.field_of_valid valid notTypename
    rw [if_neg notTypename, declared]
    rcases cases with ⟨error, missing, -⟩ | ⟨_, source, met, done, known, sourced, completed, ends⟩
    · rw [declared] at missing
      cases missing
    · obtain rfl : definition = _ := Except.ok.inj (declared.symm.trans known)
      refine ⟨_, done, { met with random := done.random }, rfl, ?_, ?_⟩
      · rw [← completed]
        refine (explains_complete members definition source met.random).mono ?_
        rintro below ⟨supplied, rfl, gives⟩
        exact .here notTypename known sourced gives
      · rcases ends with ⟨value, reached, stepped⟩ | ⟨lost, stepped⟩
        · exact Or.inl ⟨value, _, reached, stepped, rfl, rfl, rfl, rfl⟩
        · exact Or.inr ⟨lost, stepped⟩

/-- The errors that a run adds explain the root fields that it adds, or why there is no data. -/
theorem finish_explains (engine : Engine σ) {whole : List FieldSelection}
    (selection : List FieldSelection) :
    ∀ (run : Run) (world : World σ), run.schema.selectionErrors run.root selection = [] →
      (∀ field ∈ selection, whole.find? (·.responseKey = field.responseKey) = some field) →
      (∀ field ∈ selection, MembersExplained run.schema engine.mocks field.selection) →
      (selection.map FieldSelection.responseKey).Nodup →
      (∀ field ∈ selection, field.responseKey ∉ Ordered.keys run.data) →
      ∃ failures, ∃ parts : Option (Ordered String Json),
        Collects run.schema ⟨.named run.root, whole⟩ (GivesNull engine selection run world)
            (selection.map fun field => .field field.responseKey) [] failures (parts.map keyed) ∧
          (finish engine selection run world).1 =
            .executed (parts.elim .null fun members => .object (run.data ++ members))
              ((run.failures ++ failures).map Failure.fieldError) := by
  induction selection with
  | nil =>
    intro run world _ _ _ _ _
    refine ⟨[], some [], collects_nil, ?_⟩
    simp [finish, response]
  | cons field rest ih =>
    intro run world valid located members distinct fresh
    obtain ⟨headValid, restValid⟩ := List.append_eq_nil_iff.mp valid
    obtain ⟨unique, restDistinct⟩ := List.nodup_cons.mp distinct
    obtain ⟨inner, done, met, below, head, ends⟩ := step_explains rest world headValid
      (located field (List.mem_cons_self ..)) (members field (List.mem_cons_self ..))
    unfold finish
    rcases ends with
      ⟨value, next, reached, stepped, sameSchema, sameRoot, data, failures⟩ | ⟨lost, stepped⟩
    · rw [stepped]
      obtain ⟨others, parts, tail, response⟩ :=
        ih next met (by rw [sameSchema, sameRoot]; exact restValid)
          (fun other member => located other (List.mem_cons_of_mem _ member))
          (fun other member =>
            by rw [sameSchema]; exact members other (List.mem_cons_of_mem _ member)) restDistinct
          (by rw [data]; exact FieldSelection.fresh_insert unique fresh value)
      rw [sameSchema, sameRoot] at tail
      refine ⟨done.failures ++ others, parts.map ((field.responseKey, value) :: ·), ?_, ?_⟩
      · have both := head.cons below reached (FieldSelection.key_notMem unique)
          (tail.mono fun below => .later stepped)
        simpa only [Option.map_map, Function.comp_def, keyed, List.map_cons] using both
      · rw [Ordered.insert_of_notMem _ _ _ (fresh field (List.mem_cons_self ..))] at data
        rw [response, data, failures, List.append_assoc]
        cases parts <;> simp
    · rw [stepped]
      exact ⟨done.failures, none, head.stop below lost, rfl⟩

end Run

/-- Errors and nulls of an executed operation correspond: an error has a null at the nearest place
around it that may be null, or further up, every null that no source gave stands at that place of an
error, and no error lies at or below another. Null without any data comes with an error. -/
theorem Engine.run_explained {σ : Type} (engine : Engine σ) (operation : Operation)
    (payload : Option Json) (world after : World σ) (response : Response)
    (distinct : FieldSelection.DistinctKeys operation.selection)
    (executed : engine.run operation payload world = (.ok response, after)) :
    ∃ root data, engine.schema.root? operation.kind = some root ∧ response.data = some data ∧
      let paths := (response.errors.getD []).map fun error => error.path.getD []
      let nearest := Place.nearestNullable engine.schema ⟨.named root, operation.selection⟩
      (∀ path ∈ paths, ∃ above, above <+: nearest path ∧ data.at? above = some .null) ∧
      (∀ path, data.at? path = some .null →
        engine.GivesNull operation payload world path ∨ ∃ error ∈ paths, nearest error = path) ∧
      paths.Pairwise Apart ∧ (data = .null → paths ≠ []) := by
  obtain ⟨root, found, valid, cases⟩ := run_cases executed
  obtain ⟨data, errors, present, paths, explained⟩ : ∃ data errors, response.data = some data ∧
      (response.errors.getD []).map (fun error => error.path.getD []) = errors ∧
      Explained engine.schema ⟨.named root, operation.selection⟩ Anywhere
        (engine.GivesNull operation payload world) (some data) errors := by
    rcases cases with ⟨error, -, rfl, -⟩ | ⟨seed, seeded, finished⟩
    · exact ⟨.null, [[]], rfl, rfl, Explained.of_error.absorb⟩
    · obtain ⟨failures, parts, collects, responded⟩ :=
        Run.finish_explains engine operation.selection
          ⟨engine.schema, root, seed, operation.context, payload, [], []⟩ world valid
          (fun _ => FieldSelection.find?_responseKey distinct.nodup)
          (Completion.membersExplained operation.selection distinct) distinct.nodup (by simp)
      rw [finished] at responded
      change response = _ at responded
      obtain ⟨errors, paths, explained⟩ :
          Completed.Explains engine.schema _ Inside _ [] ⟨_, failures, world.random⟩ :=
        collects.explains parts_object
      refine ⟨_, errors, by rw [responded]; rfl, ?_, ?_⟩
      · rw [responded, Response.errors_executed]
        simpa [Function.comp_def, Failure.fieldError, FieldError.withPath] using paths
      · have gives : ∀ path, Run.GivesNull engine operation.selection
            ⟨engine.schema, root, seed, operation.context, payload, [], []⟩ world path →
            engine.GivesNull operation payload world path :=
          fun path gives => ⟨root, seed, found, seeded, gives⟩
        have absorbed := (explained.mono gives).absorb
        cases parts <;> exact absorbed
  refine ⟨root, data, found, present, ?_⟩
  dsimp only
  rw [paths]
  refine ⟨?_, ?_, explained.apart, ?_⟩
  · intro path member
    obtain ⟨above, inside, -, nullable, null⟩ := explained.absorbed data rfl path member
    exact ⟨above, Place.prefix_nearestNullable inside nullable, null⟩
  · intro path null
    rcases explained.nulls data rfl path null with gives | ⟨error, member, nearest⟩
    · exact Or.inl gives
    · exact Or.inr ⟨error, member, nearest.eq⟩
  · rintro rfl rfl
    rcases explained.nulls .null rfl [] (Json.at?_nil _) with
      ⟨_, _, -, -, gives⟩ | ⟨error, member, -⟩
    · exact Run.ne_nil_of_givesNull gives rfl
    · cases member

theorem Resort.run_explained_payload :
    FieldSelection.DistinctKeys operation.selection ∧
      engine.run operation (some payload) world = (.ok response, world) ∧
      ∃ root data, schema.root? .query = some root ∧ response.data = some data ∧
        let paths := (response.errors.getD []).map fun error => error.path.getD []
        let nearest := Place.nearestNullable schema ⟨.named root, operation.selection⟩
        (∀ path ∈ paths, ∃ above, above <+: nearest path ∧ data.at? above = some .null) ∧
        (∀ path, data.at? path = some .null →
            engine.GivesNull operation (some payload) world path ∨
              ∃ error ∈ paths, nearest error = path) ∧
        paths.Pairwise Apart ∧ (data = .null → paths ≠ []) :=
  ⟨by decide, rfl,
    Engine.run_explained engine operation (some payload) world world response (by decide) rfl⟩

example : Place.nearestNullable Resort.schema ⟨.named "Query", Resort.operation.selection⟩
    [.field "resort", .field "all", .index 0, .field "name"] =
      [.field "resort", .field "all", .index 0] := by decide

end MockGraph
