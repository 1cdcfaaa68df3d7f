import MockGraph.Proofs.Execution.Shape
set_option autoImplicit false

namespace MockGraph

/-- The values of scalars and enums. Scalars of a schema's own have all values. -/
inductive InDomain : TypeDef → Json → Prop
  | int {description} {n : Int} : -2147483648 ≤ n → n ≤ 2147483647 →
      InDomain (.scalar "Int" description) (.ofInt n)
  | float {description number} : InDomain (.scalar "Float" description) (.number number)
  | string {description text} : InDomain (.scalar "String" description) (.string text)
  | boolean {description truth} : InDomain (.scalar "Boolean" description) (.bool truth)
  | id {description text} : InDomain (.scalar "ID" description) (.string text)
  | symbol {name description symbols symbol} : symbol ∈ symbols →
      InDomain (.enum name description symbols) (.string symbol)
  | own {name description value} : name ∉ builtInScalars → InDomain (.scalar name description) value

/-- Of the built-in scalars, only strings and identifiers are texts. -/
theorem InDomain.of_text {name text : String} {description : Option String}
    (inDomain : InDomain (.scalar name description) (.string text)) :
    name = "String" ∨ name = "ID" ∨ name ∉ builtInScalars := by
  cases inDomain with
  | string => exact Or.inl rfl
  | id => exact Or.inr (Or.inl rfl)
  | own foreign => exact Or.inr (Or.inr foreign)

namespace TypeDef

/-- A supplied value of the domain stands for itself, an integer of 64 bits for an identifier, and
any other value is unexpected. -/
theorem coerce_outcomes (type : TypeDef) (value : Json) :
    InDomain type value ∧ type.coerce value = .ok value ∨
      (∃ description n, type = .scalar "ID" description ∧ value.asInt64? = some n ∧
        type.coerce value = .ok (.string (toString n))) ∨
      type.coerce value = .error (.unexpected type.name value) := by
  have accepted : ∀ {type : TypeDef} {valid : Bool} {error : ResolutionError} {digits : Prop},
      (valid = true → InDomain type value) →
      let outcome := if valid then Except.ok value else .error error
      InDomain type value ∧ outcome = .ok value ∨ digits ∨ outcome = .error error := by
    intro type valid error digits known
    cases valid with
    | true => exact Or.inl ⟨known rfl, rfl⟩
    | false => exact Or.inr (Or.inr rfl)
  unfold coerce
  dsimp only
  split
  · refine accepted fun valid => ?_
    cases value <;> first | exact .symbol (List.contains_iff_mem.mp valid) | cases valid
  · refine accepted fun valid => ?_
    unfold isInt32 at valid
    split at valid
    · obtain ⟨low, high⟩ := of_decide_eq_true valid
      exact .int low (Int.lt_add_one_iff.mp high)
    · cases valid
  · refine accepted fun valid => ?_
    cases value <;> first | exact .float | cases valid
  · refine accepted fun valid => ?_
    cases value <;> first | exact .string | cases valid
  · refine accepted fun valid => ?_
    cases value <;> first | exact .boolean | cases valid
  · split
    · exact Or.inr (Or.inl ⟨_, _, rfl, ‹_›, rfl⟩)
    · refine accepted fun valid => ?_
      cases value <;> first | exact .id | cases valid
  · rename_i notInt notFloat notString notBoolean notId
    refine Or.inl ⟨.own ?_, rfl⟩
    simp only [builtInScalars, List.mem_cons, List.not_mem_nil, or_false]
    rintro (same | same | same | same | same)
    · exact notInt same
    · exact notFloat same
    · exact notString same
    · exact notBoolean same
    · exact notId same
  · exact Or.inr (Or.inr rfl)
  · exact Or.inr (Or.inr rfl)

theorem inDomain_of_coerce {type : TypeDef} {value json : Json}
    (success : type.coerce value = .ok json) : InDomain type json := by
  rcases coerce_outcomes type value with
    ⟨inDomain, itself⟩ | ⟨description, n, rfl, -, digits⟩ | unexpected
  · cases success.symm.trans itself
    exact inDomain
  · cases success.symm.trans digits
    exact .id
  · cases success.symm.trans unexpected

/-- Values that may be supplied: those of the domain, and integers of 64 bits for identifiers. -/
def Takes (type : TypeDef) (value : Json) : Prop :=
  InDomain type value ∨ ∃ description n, type = .scalar "ID" description ∧ value.asInt64? = some n

theorem coerce_of_not_takes {type : TypeDef} {value : Json} (foreign : ¬ type.Takes value) :
    type.coerce value = .error (.unexpected type.name value) := by
  rcases coerce_outcomes type value with
    ⟨inDomain, -⟩ | ⟨description, n, identifier, integer, -⟩ | unexpected
  · exact absurd (Or.inl inDomain) foreign
  · exact absurd (Or.inr ⟨description, n, identifier, integer⟩) foreign
  · exact unexpected

end TypeDef

namespace Random

theorem next_lt (random : Random) (width : Width) :
    (random.next width).1 < Nat.pow 2 width.bits := by
  have word : ∀ random : Random, random.next32.1 < Nat.pow 2 32 := by
    intro random
    unfold next32
    split
    · exact UInt32.toNat_lt _
    · split
      · exact Nat.two_pow_pos 32
      · exact UInt32.toNat_lt _
  cases width with
  | w32 => exact word random
  | w64 =>
    have low := word random
    have high := word random.next32.2
    show random.next32.2.next32.1 * Nat.pow 2 32 + random.next32.1 < Nat.pow 2 64
    simp only [Nat.pow_eq] at low high ⊢
    omega

theorem pick_lt {width : Width} {count : Nat} (positive : 0 < count) (zone attempts : Nat)
    (random : Random) : (pick width count zone attempts random).1 < count := by
  induction attempts generalizing random with
  | zero => exact positive
  | succ attempts ih =>
    unfold pick
    dsimp only
    split
    · have word := next_lt random width
      refine (Nat.div_lt_iff_lt_mul (Nat.two_pow_pos width.bits)).mpr ?_
      rw [Nat.mul_comm count]
      exact Nat.mul_lt_mul_of_pos_right word positive
    · exact ih _

theorem below_lt {width : Width} {count : Nat} (positive : 0 < count)
    (fits : count < Nat.pow 2 width.bits) (random : Random) :
    (random.below width count).1 < count := by
  unfold below
  rw [if_neg (by omega)]
  exact pick_lt positive _ _ _

theorem inDomain_drawInt (description : Option String) (random : Random) :
    InDomain (.scalar "Int" description) random.drawInt.1 := by
  have bound : (random.below .w32 201).1 < 201 := below_lt (by decide) (by decide) random
  unfold drawInt
  rcases drawn : random.below .w32 201 with ⟨offset, after⟩
  rw [drawn] at bound
  exact .int (by omega) (by omega)

theorem inDomain_drawFloatWithin (description : Option String) (attempts : Nat) (random : Random) :
    InDomain (.scalar "Float" description) (drawFloatWithin attempts random).1 := by
  induction attempts generalizing random with
  | zero => exact .float
  | succ attempts ih =>
    unfold drawFloatWithin
    dsimp only
    split
    · exact .float
    · exact ih _

end Random

/-- The formatters of the built-in scalars are the standard ones, as far as they are there. -/
def MockRules.KeepsBuiltIns (rules : MockRules) : Prop :=
  ∀ name ∈ builtInScalars, ∀ formatter, Ordered.get? rules.formatters name = some formatter →
    Ordered.get? standardFormatters name = some formatter

theorem MockRules.KeepsBuiltIns.inDomain {rules : MockRules} (keeps : rules.KeepsBuiltIns)
    {name : String} {formatter : Formatter}
    (found : Ordered.get? rules.formatters name = some formatter) (description : Option String)
    (random : Random) : InDomain (.scalar name description) (formatter random).1 := by
  by_cases builtIn : name ∈ builtInScalars
  · have standard := keeps name builtIn formatter found
    simp only [builtInScalars, List.mem_cons, List.not_mem_nil, or_false] at builtIn
    rcases builtIn with rfl | rfl | rfl | rfl | rfl <;> cases Option.some.inj standard
    · exact random.inDomain_drawInt description
    · exact random.inDomain_drawFloatWithin description Random.maxAttempts
    · exact .string
    · exact .boolean
    · exact .id
  · exact .own builtIn

namespace Mocks

/-- A value that stands for a scalar or an enum at a position: one of the domain, or what the type's
own rule gives there. -/
def Stands (mocks : Mocks) (position : Position) (type : TypeDef) (value : Json) : Prop :=
  InDomain type value ∨ mocks.typeValue? position type.name = some (.ok value)

theorem stands_of_drawLeaf {mocks : Mocks} (keeps : mocks.rules.KeepsBuiltIns) {position : Position}
    {type : TypeDef} {random : Random} {value : Json}
    (drawn : (mocks.drawLeaf position type random).1 = .ok value) :
    mocks.Stands position type value := by
  unfold drawLeaf at drawn
  split at drawn
  · rename_i result ruled
    subst drawn
    exact Or.inr ruled
  · refine Or.inl ?_
    split at drawn
    · split at drawn
      · cases drawn
      · rename_i found
        cases drawn
        exact keeps.inDomain found _ random
    · cases drawn
    · cases drawn
      rename_i first rest _
      have declared : ∀ index : Nat, (first :: rest)[index]?.getD first ∈ first :: rest := by
        intro index
        cases known : (first :: rest)[index]? with
        | none => exact List.mem_cons_self
        | some symbol => exact List.mem_of_getElem? known
      exact .symbol (declared _)
    · cases drawn
    · cases drawn

end Mocks

/-- All leaves of a value of a type stand at their positions, and the members of an object have a
property. -/
def LeavesStand (schema : TypeSystem) (mocks : Mocks) (position : Position)
    (membersStand : String → Ordered String Json → Prop) : TypeRef → Json → Prop
  | .nonNull inner, value => LeavesStand schema mocks position membersStand inner value
  | .list item, value =>
    value = .null ∨ ∃ items, value = .array items ∧
      ∀ element ∈ items, LeavesStand schema mocks position membersStand item element
  | .named name, value =>
    value = .null ∨
      match Ordered.get? schema.types name with
      | some (.object _ _ _) => ∃ members, value = .object members ∧ membersStand name members
      | some type => mocks.Stands position type value
      | none => False

mutual

/-- All leaves of a selected field of a type stand. -/
def FieldStands (schema : TypeSystem) (mocks : Mocks) : FieldSelection → String → Json → Prop
  | ⟨name, _, _, selection⟩, parent, value =>
    if name = "__typename" then value = .string parent
    else ∃ definition, schema.field parent name = .ok definition ∧
      LeavesStand schema mocks (.ofField parent name)
        (fun parent members => ∀ entry ∈ members, MemberStands schema mocks selection parent entry)
        definition.type value

/-- A member of an object of a type is one of the selected fields under its key, and all its leaves
stand. -/
def MemberStands (schema : TypeSystem) (mocks : Mocks) :
    List FieldSelection → String → String × Json → Prop
  | [], _, _ => False
  | field :: rest, parent, entry =>
    field.responseKey = entry.1 ∧ FieldStands schema mocks field parent entry.2 ∨
      MemberStands schema mocks rest parent entry

end

/-- All leaves of the members of an object stand. -/
def MembersStand (schema : TypeSystem) (mocks : Mocks) (selection : List FieldSelection)
    (parent : String) (members : Ordered String Json) : Prop :=
  ∀ entry ∈ members, MemberStands schema mocks selection parent entry

/-- All leaves of the data of a response stand. -/
def RootStands (schema : TypeSystem) (mocks : Mocks) (root : String)
    (selection : List FieldSelection) (data : Json) : Prop :=
  data = .null ∨
    ∃ members, data = .object members ∧ MembersStand schema mocks selection root members

theorem leavesStand_null (schema : TypeSystem) (mocks : Mocks) (position : Position)
    (membersStand : String → Ordered String Json → Prop) (type : TypeRef) :
    LeavesStand schema mocks position membersStand type .null := by
  induction type with
  | nonNull inner ih => exact ih
  | list item => exact Or.inl rfl
  | named name => exact Or.inl rfl

section Keeps

variable {schema : TypeSystem} {mocks : Mocks} (keeps : mocks.rules.KeepsBuiltIns)
include keeps

open Completion

theorem yields_leaf {position : Position} {type : TypeDef} (supplied : Option Json)
    (path : List PathSegment) :
    Yields (mocks.Stands position type) (Completer.leaf mocks position type supplied path) := by
  have result : ∀ {outcome : Except ResolutionError Json},
      (∀ value, outcome = .ok value → mocks.Stands position type value) →
      Yields (mocks.Stands position type) (ofResult path outcome) := by
    intro outcome stands
    cases outcome with
    | error error => exact yields_fail _ _ _
    | ok value => exact yields_value (stands value rfl)
  cases supplied with
  | some value => exact result fun json success => Or.inl (TypeDef.inDomain_of_coerce success)
  | none =>
    intro random value success
    unfold Completer.leaf at success
    dsimp only at success
    rcases drawn : mocks.drawLeaf position type random with ⟨outcome, after⟩
    rw [drawn] at success
    have stands : ∀ json, outcome = .ok json → mocks.Stands position type json := by
      intro json same
      have result := congrArg Prod.fst drawn
      exact Mocks.stands_of_drawLeaf keeps (result.trans same)
    exact result stands after value success

/-- Whatever is supplied, the leaves of a completed value stand, if those in completed objects
do. -/
theorem yields_leavesStand {position : Position}
    {membersStand : String → Ordered String Json → Prop} {complete : FieldsCompleter}
    (members : ∀ name fields, schema.fieldsOf name = .ok fields →
      ∀ provided path, Yields (membersStand name) (complete name fields provided path))
    (type : TypeRef) :
    ∀ supplied path, Yields (LeavesStand schema mocks position membersStand type)
      (Completer.ofType schema mocks position complete type supplied path) := by
  induction type with
  | named name =>
    refine Completer.yields_orNull (Or.inl rfl) fun supplied path => ?_
    intro random value success
    refine Or.inr ?_
    unfold Completer.named at success
    cases found : Ordered.get? schema.types name with
    | none =>
      rw [found] at success
      cases success
    | some type =>
      rw [found] at success
      cases type with
      | object typeName description fields =>
        have known : schema.fieldsOf name = .ok fields := by
          simp [TypeSystem.fieldsOf, TypeSystem.resolve, found]
        exact Completer.yields_object (members name fields known) supplied path random value success
      | scalar | enum | input => exact yields_leaf keeps supplied path random value success
  | list item ih =>
    refine Completer.yields_orNull (Or.inl rfl) fun supplied path => ?_
    intro random value success
    refine Or.inr (Completer.yields_list ih (fun _ => ?_) supplied path random value success)
    exact leavesStand_null schema mocks position membersStand item
  | nonNull inner ih =>
    intro supplied path random value success
    exact (Completer.yields_nonNull ih supplied path random value success).2

/-- The members of a completed object stand, if those that are done do. -/
theorem yields_membersStand (selection : List FieldSelection) :
    ∀ (done : Ordered String Json) (parent : String) (definitions : Ordered String FieldDef)
      (provided : Option (Ordered String Json)) (path : List PathSegment)
      (stands : String × Json → Prop), schema.fieldsOf parent = .ok definitions →
      (∀ entry ∈ done, stands entry) →
      (∀ entry, MemberStands schema mocks selection parent entry → stands entry) →
      Yields (fun members => ∀ entry ∈ members, stands entry)
        (fields schema mocks selection done parent definitions provided path) := by
  induction selection using FieldSelection.selection_induction with
  | nil =>
    intro done parent definitions provided path stands known before selected
    exact yields_value before
  | cons name aliasName arguments selection rest ihBelow ihRest =>
    intro done parent definitions provided path stands known before selected
    have head :
        Yields (FieldStands schema mocks ⟨name, aliasName, arguments, selection⟩ parent)
          (member schema mocks ⟨name, aliasName, arguments, selection⟩ parent definitions provided
            (path ++
              [.field (FieldSelection.responseKey ⟨name, aliasName, arguments, selection⟩)])) := by
      refine yields_member known (fun isTypename => by simp only [FieldStands, if_pos isTypename])
        ?_ provided _
      intro notTypename definition declared supplied path random value success
      simp only [FieldStands, notTypename, if_false]
      refine ⟨definition, declared, yields_field (yields_leavesStand keeps ?_ _)
        (fun _ => leavesStand_null _ _ _ _ _) _ _ random value success⟩
      intro object objectFields objectKnown provided path
      exact ihBelow [] object objectFields provided path _ objectKnown nofun fun _ same => same
    unfold fields
    refine head.andThen fun value here => ?_
    refine ihRest _ parent definitions provided path stands known ?_ fun entry later =>
      selected entry (Or.inr later)
    intro entry member
    rcases Ordered.mem_insert member with old | rfl
    · exact before entry old
    · exact selected _ (Or.inl ⟨rfl, here⟩)

end Keeps

namespace Run

variable {σ : Type}

/-- Whatever the source of a root field gives, the leaves of a value completed from it stand. -/
theorem yields_complete_leavesStand {mocks : Mocks} (keeps : mocks.rules.KeepsBuiltIns) (run : Run)
    (field : FieldSelection) (definition : FieldDef)
    (source : Option (Except ResolutionError Json)) :
    Completion.Yields
      (LeavesStand run.schema mocks (.ofField run.root field.name)
        (MembersStand run.schema mocks field.selection) definition.type)
      (run.complete mocks field definition source) := by
  refine yields_complete (yields_leavesStand keeps ?_ _) (fun _ => leavesStand_null _ _ _ _ _)
    source
  intro name fields known provided path
  exact yields_membersStand keeps field.selection [] name fields provided path _ known nofun
    fun _ same => same

/-- A run ends with no data, or with members that stand, if those that were done before do. -/
theorem finish_stands (engine : Engine σ) (keeps : engine.mocks.rules.KeepsBuiltIns)
    (selection : List FieldSelection) :
    ∀ (run : Run) (world : World σ) (stands : String × Json → Prop),
      (∀ entry ∈ run.data, stands entry) →
        (∀ entry, MemberStands run.schema engine.mocks selection run.root entry → stands entry) →
        (finish engine selection run world).1.data = some .null ∨
          ∃ members, (finish engine selection run world).1.data = some (.object members) ∧
            ∀ entry ∈ members, stands entry := by
  induction selection with
  | nil =>
    intro run world stands before selected
    exact Or.inr ⟨run.data, rfl, before⟩
  | cons field rest ih =>
    intro run world stands before selected
    have goesOn : ∀ (next : Run) (met : World σ) (value : Json), next.schema = run.schema →
        next.root = run.root → next.data = Ordered.insert run.data field.responseKey value →
        FieldStands run.schema engine.mocks field run.root value →
        (finish engine rest next met).1.data = some .null ∨
          ∃ members, (finish engine rest next met).1.data = some (.object members) ∧
            ∀ entry ∈ members, stands entry := by
      intro next met value sameSchema sameRoot data here
      refine ih next met stands ?_ fun entry later => selected entry (Or.inr ?_)
      · intro entry member
        rw [data] at member
        rcases Ordered.mem_insert member with old | rfl
        · exact before entry old
        · exact selected _ (Or.inl ⟨rfl, here⟩)
      · rw [← sameSchema, ← sameRoot]
        exact later
    unfold finish
    rcases run.step_cases engine field world with ⟨isTypename, stepped⟩ | ⟨notTypename,
      ⟨error, -, stepped⟩ | ⟨definition, source, met, done, known, -, completed,
        ⟨value, reached, stepped⟩ | ⟨-, stepped⟩⟩⟩
    · rw [stepped]
      refine goesOn _ _ _ rfl rfl rfl ?_
      cases field
      simp only [FieldStands, if_pos isTypename]
    · rw [stepped]
      exact ih run world stands before fun entry later => selected entry (Or.inr later)
    · rw [stepped]
      refine goesOn _ _ _ rfl rfl rfl ?_
      have leaves := yields_complete_leavesStand keeps run field definition source met.random value
        (by rw [completed, reached])
      cases field
      simp only [FieldStands, if_neg notTypename]
      exact ⟨definition, known, leaves⟩
    · rw [stepped]
      exact Or.inl rfl

end Run

end MockGraph
