import MockGraph.Proofs.Execution.Arguments
set_option autoImplicit false

namespace MockGraph

open Syntax TypeSystem

/-- A number that no double holds, as it is written. -/
inductive Syntax.Literal.TooLarge : Literal → Prop
  | int {text} : (Scientific.ofText text).double? = none → TooLarge (.int text)
  | float {text} : (Scientific.ofText text).double? = none → TooLarge (.float text)

/-- Why a literal other than `null` gives `null` to an argument that has to be given: it is too
large a number, or a variable that the request sets to `null` in spite of its default, or one that
the request leaves out and whose default is `null` or too large a number. -/
inductive SuppliesNull (variableDefs : List VariableDefinition) (provided : Ordered String Json) :
    Literal → Prop
  | number {literal} : literal.TooLarge → SuppliesNull variableDefs provided literal
  | explicit {declared default} : declared ∈ variableDefs → declared.type.isNonNull = false →
      declared.default = some default → Ordered.get? provided declared.name = some .null →
      SuppliesNull variableDefs provided (.variable declared.name)
  | defaulted {declared default} : declared ∈ variableDefs → declared.default = some default →
      Ordered.get? provided declared.name = none → default = .null ∨ default.TooLarge →
      SuppliesNull variableDefs provided (.variable declared.name)

theorem Syntax.Literal.tooLarge_of_doubleValue {text : String}
    (null : Literal.doubleValue text = .null) : (Scientific.ofText text).double? = none := by
  unfold doubleValue at null
  split at null
  · cases null
  · assumption

/-- A literal that is no variable is `null` only if it says so, or is too large a number. -/
theorem Syntax.Literal.null_of_valueOrNull {literal : Literal} {bindings : Ordered String Json}
    (null : literal.valueOrNull bindings = .null) :
    literal = .null ∨ literal.TooLarge ∨ ∃ name, literal = .variable name := by
  cases literal with
  | null => exact Or.inl rfl
  | int text =>
    rw [valueOrNull, numberValue] at null
    split at null
    · cases null
    · exact Or.inr (Or.inl (.int (tooLarge_of_doubleValue null)))
  | float text =>
    rw [valueOrNull] at null
    exact Or.inr (Or.inl (.float (tooLarge_of_doubleValue null)))
  | «variable» name => exact Or.inr (Or.inr ⟨name, rfl⟩)
  | bool | string | enum | list | object =>
    rw [valueOrNull] at null
    cases null

section

variable {variableDefs : List VariableDefinition} {bindings provided : Ordered String Json}

/-- A variable has the value that is provided, or else its default. It is neither left out nor
provided as `null` if it may not be null. -/
structure Coerced (provided : Ordered String Json) (declared : VariableDefinition)
    (bindings : Ordered String Json) : Prop where
  value : Ordered.get? bindings declared.name =
    (Ordered.get? provided declared.name).or (declared.default.map Literal.constant)
  nullable :
      Ordered.get? provided declared.name = some .null ∨
          Ordered.get? bindings declared.name = none → declared.type.isNonNull = false

theorem coerceVariables_cons {declared : VariableDefinition} {rest : List VariableDefinition}
    (coerced : coerceVariables (declared :: rest) provided = .ok bindings) :
    ∃ next, coerceVariables rest next = .ok bindings ∧ Coerced provided declared next ∧
      ∀ name, name ≠ declared.name → Ordered.get? next name = Ordered.get? provided name := by
  have nullable : ∀ {answer : Except ValidationError (Ordered String Json)},
      (if declared.type.isNonNull then .error (.missingVariable declared.name)
       else answer) = .ok bindings → declared.type.isNonNull = false ∧ answer = .ok bindings := by
    intro answer same
    cases nonNull : declared.type.isNonNull with
    | true => simp [nonNull] at same
    | false => exact ⟨rfl, by simpa [nonNull] using same⟩
  rw [coerceVariables] at coerced
  cases given : Ordered.get? provided declared.name with
  | some value =>
    by_cases null : value = .null
    · subst null
      simp only [given] at coerced
      obtain ⟨mayBeNull, coerced⟩ := nullable coerced
      exact ⟨provided, coerced, ⟨by simp [given], fun _ => mayBeNull⟩, fun _ _ => rfl⟩
    · have coerced : coerceVariables rest provided = .ok bindings := by
        rw [given] at coerced
        cases value with
        | null => exact absurd rfl null
        | _ => exact coerced
      refine ⟨provided, coerced, ⟨by simp [given], ?_⟩, fun _ _ => rfl⟩
      rintro (same | same) <;> simp [given, null] at same
  | none =>
    simp only [given] at coerced
    cases defaulted : declared.default with
    | some value =>
      simp only [defaulted] at coerced
      have found :
          Ordered.get? (Ordered.insert provided declared.name value.constant) declared.name =
            some value.constant := by rw [Ordered.get?_insert, if_pos rfl]
      refine ⟨_, coerced, ⟨by simp [found, given, defaulted], ?_⟩, fun name other => ?_⟩
      · rintro (same | same)
        · cases given.symm.trans same
        · cases found.symm.trans same
      · rw [Ordered.get?_insert, if_neg (Ne.symm other)]
    | none =>
      simp only [defaulted] at coerced
      obtain ⟨mayBeNull, coerced⟩ := nullable coerced
      exact ⟨provided, coerced, ⟨by simp [given, defaulted], fun _ => mayBeNull⟩, fun _ _ => rfl⟩

theorem get?_coerceVariables {name : String} (variableDefs : List VariableDefinition)
    (free : name ∉ variableDefs.map (·.name)) :
    ∀ provided, coerceVariables variableDefs provided = .ok bindings →
      Ordered.get? bindings name = Ordered.get? provided name := by
  induction variableDefs with
  | nil =>
    intro provided coerced
    rw [Except.ok.inj coerced]
  | cons declared rest ih =>
    intro provided coerced
    rw [List.map_cons, List.mem_cons, not_or] at free
    obtain ⟨next, coerced, -, others⟩ := coerceVariables_cons coerced
    exact (ih free.2 next coerced).trans (others name free.1)

/-- Each variable gets its value. The induction is on the variables that are left: those before have
other names. -/
theorem coerced_of_mem (variableDefs : List VariableDefinition)
    (distinct : (variableDefs.map (·.name)).Nodup) {declared : VariableDefinition}
    (member : declared ∈ variableDefs) :
    ∀ provided, coerceVariables variableDefs provided = .ok bindings →
      Coerced provided declared bindings := by
  induction variableDefs with
  | nil => cases member
  | cons first rest ih =>
    intro provided coerced
    rw [List.map_cons, List.nodup_cons] at distinct
    obtain ⟨next, ran, now, others⟩ := coerceVariables_cons coerced
    rcases List.mem_cons.mp member with rfl | later
    · have kept := get?_coerceVariables rest distinct.1 next ran
      exact ⟨kept.trans now.value, by rw [kept]; exact now.nullable⟩
    · have different : declared.name ≠ first.name := by
        intro same
        exact distinct.1 (same ▸ List.mem_map.mpr ⟨declared, later, rfl⟩)
      have after := ih distinct.2 later next ran
      exact ⟨others _ different ▸ after.value, others _ different ▸ after.nullable⟩

def giveArgument (bindings : Ordered String Json) (given : Ordered String Json)
    (argument : String × Literal) : Ordered String Json :=
  match argument.2.value? bindings with
  | some value => Ordered.insert given argument.1 value
  | none => given

theorem get?_giveArgument (given : Ordered String Json) (argument : String × Literal)
    (name : String) : Ordered.get? (giveArgument bindings given argument) name =
      if argument.1 = name then (argument.2.value? bindings).or (Ordered.get? given name)
      else Ordered.get? given name := by
  unfold giveArgument
  cases argument.2.value? bindings with
  | none => simp
  | some value => simp [Ordered.get?_insert]

theorem get?_giveArguments_of_notMem {name : String} (arguments : List (String × Literal))
    (free : name ∉ arguments.map Prod.fst) (given : Ordered String Json) :
    Ordered.get? (arguments.foldl (giveArgument bindings) given) name =
      Ordered.get? given name := by
  induction arguments generalizing given with
  | nil => rfl
  | cons argument rest ih =>
    rw [List.map_cons, List.mem_cons, not_or] at free
    rw [List.foldl_cons, ih free.2, get?_giveArgument, if_neg (Ne.symm free.1)]

theorem get?_giveArguments {name : String} {literal : Literal} (arguments : List (String × Literal))
    (distinct : (arguments.map Prod.fst).Nodup) (member : (name, literal) ∈ arguments)
    (given : Ordered String Json) :
    Ordered.get? (arguments.foldl (giveArgument bindings) given) name =
      (literal.value? bindings).or (Ordered.get? given name) := by
  induction arguments generalizing given with
  | nil => cases member
  | cons argument rest ih =>
    rw [List.map_cons, List.nodup_cons] at distinct
    rw [List.foldl_cons]
    rcases List.mem_cons.mp member with rfl | later
    · rw [get?_giveArguments_of_notMem rest distinct.1, get?_giveArgument, if_pos rfl]
    · have different : argument.1 ≠ name := by
        intro same
        exact distinct.1 (same ▸ List.mem_map.mpr ⟨_, later, rfl⟩)
      rw [ih distinct.2 later, get?_giveArgument, if_neg different]

/-- The value that is given under a name is that of the one literal with it. -/
theorem get?_givenArguments {name : String} {literal : Literal}
    {arguments : List (String × Literal)} (distinct : (arguments.map Prod.fst).Nodup)
    (member : (name, literal) ∈ arguments) :
    Ordered.get? (givenArguments bindings arguments) name = literal.value? bindings := by
  have given : Ordered.get? (arguments.foldl (giveArgument bindings) []) name = _ :=
    get?_giveArguments arguments distinct member []
  rw [Ordered.get?, Option.or_none] at given
  exact given

/-- A name that is there with the defaults is given or declared. -/
theorem given_or_declared {inputs : Ordered String InputDef} {given : Ordered String Json}
    {name : String} (present : name ∈ Ordered.keys (withDefaults inputs given)) :
    name ∈ Ordered.keys given ∨ name ∈ Ordered.keys inputs := by
  induction inputs generalizing given with
  | nil => exact Or.inl present
  | cons entry rest ih =>
    rw [withDefaults_cons] at present
    rcases ih present with before | later
    · split at before
      · exact Or.inl before
      · cases defaulted : entry.2.default with
        | none =>
          rw [defaulted] at before
          exact Or.inl before
        | some default =>
          rw [defaulted] at before
          change name ∈ Ordered.keys (Ordered.insert given entry.1 default) at before
          rw [Ordered.keys_insert] at before
          split at before
          · exact Or.inl before
          · rcases List.mem_append.mp before with old | new
            · exact Or.inl old
            · exact Or.inr (List.mem_cons.mpr (Or.inl (List.mem_singleton.mp new)))
    · exact Or.inr (List.mem_cons_of_mem _ later)

end

section

variable {schema : TypeSystem} {variableDefs : List VariableDefinition}
  {bindings provided : Ordered String Json}

/-- The variables of a sound operation are distinct, and a default is no variable. -/
theorem variables_of_sound (sound : schema.variablesSound variableDefs = true) :
    (variableDefs.map (·.name)).Nodup ∧ ∀ declared ∈ variableDefs, ∀ name,
      declared.default ≠ some (.variable name) := by
  simp only [variablesSound, Bool.and_eq_true, List.all_eq_true] at sound
  refine ⟨nodup_of_allDistinct sound.1, fun declared member name defaulted => ?_⟩
  obtain ⟨⟨-, typed⟩, accepted⟩ := sound.2 declared member
  rw [defaulted] at accepted
  cases known : schema.typeNamed? declared.type.namedType with
  | none => simp [known] at typed
  | some type => simp [accepts, known, variableMatches] at accepted

/-- A variable in a place that may not be null and has no default is declared. If it may be null, it
has a default. -/
theorem variable_of_usable {input : InputDef} {name : String} (required : input.isRequired = true)
    (typed : ∃ type, schema.typeNamed? input.type.namedType = some type)
    (usable : variableUsable variableDefs input (.variable name) = true)
    (accepted : schema.accepts variableDefs input.type (.variable name) = true) :
    ∃ declared ∈ variableDefs, declared.name = name ∧
      (declared.type.isNonNull = false → ∃ default, declared.default = some default) := by
  obtain ⟨type, known⟩ := typed
  simp only [accepts, known, Bool.and_eq_true, variableMatches] at accepted
  rw [InputDef.isRequired, Bool.and_eq_true, Option.isNone_iff_eq_none] at required
  cases found : variableDefs.find? (·.name == name) with
  | none => simp [found] at accepted
  | some declared =>
    refine ⟨declared, List.mem_of_find?_eq_some found, by simpa using List.find?_some found,
      fun nullable => ?_⟩
    rw [variableUsable, found] at usable
    simp only [required.1, nullable, required.2, Bool.not_false, Bool.and_self, if_true,
      Option.isSome_none, Bool.or_false, Bool.and_eq_true] at usable
    exact Option.isSome_iff_exists.mp usable.1

/-- A variable that stands where something has to be given has a value, and it is clear when that is
`null`. -/
theorem suppliesNull_of_variable (sound : schema.variablesSound variableDefs = true)
    (coerced : coerceVariables variableDefs provided = .ok bindings) {declared : VariableDefinition}
    (member : declared ∈ variableDefs)
    (defaulted : declared.type.isNonNull = false → ∃ default, declared.default = some default)
    (missing : ∀ value, Ordered.get? bindings declared.name = some value → value = .null) :
    SuppliesNull variableDefs provided (.variable declared.name) := by
  obtain ⟨distinct, constants⟩ := variables_of_sound sound
  have now := coerced_of_mem variableDefs distinct member provided coerced
  cases given : Ordered.get? provided declared.name with
  | some value =>
    obtain rfl : value = .null := missing value (now.value.trans (by rw [given, Option.some_or]))
    have nullable := now.nullable (Or.inl given)
    obtain ⟨default, present⟩ := defaulted nullable
    exact .explicit member nullable present given
  | none =>
    have value := now.value
    rw [given, Option.none_or] at value
    cases present : declared.default with
    | none =>
      rw [present] at value
      obtain ⟨default, other⟩ := defaulted (now.nullable (Or.inr value))
      cases present.symm.trans other
    | some default =>
      rw [present] at value
      refine .defaulted member present given ?_
      rcases Literal.null_of_valueOrNull (missing _ value) with null | large | ⟨name, isVariable⟩
      · exact Or.inl null
      · exact Or.inr large
      · exact absurd (isVariable ▸ present) (constants declared member name)

/-- An argument that has to be given is given, by a literal that has a value. Where the value is
`null`, it is clear why. -/
theorem suppliesNull_of_missing {inputs : Ordered String InputDef}
    {arguments : List (String × Literal)} (sound : schema.variablesSound variableDefs = true)
    (coerced : coerceVariables variableDefs provided = .ok bindings)
    (allowed : schema.argumentsAllowed variableDefs inputs arguments = true) {name : String}
    {input : InputDef} (known : Ordered.get? inputs name = some input)
    (required : input.isRequired = true)
    (typed : ∃ type, schema.typeNamed? input.type.namedType = some type)
    (missing : ∀ value,
      Ordered.get? (withDefaults inputs (givenArguments bindings arguments)) name = some value →
        value = .null) :
    ∃ literal, (name, literal) ∈ arguments ∧ SuppliesNull variableDefs provided literal := by
  simp only [argumentsAllowed, Bool.and_eq_true, List.all_eq_true] at allowed
  obtain ⟨⟨distinct, each⟩, names⟩ := allowed
  obtain ⟨literal, member, notNull⟩ : ∃ literal, (name, literal) ∈ arguments ∧ literal ≠ .null := by
    simp only [namesRequired, List.all_eq_true] at names
    have named := names (name, input) (Ordered.mem_of_get? known)
    simp only [required, Bool.not_true, Bool.false_or, Bool.and_eq_true, List.any_eq_true,
      beq_iff_eq] at named
    obtain ⟨⟨⟨_, literal⟩, member, rfl⟩, notNull⟩ := named
    refine ⟨literal, member, ?_⟩
    rintro rfl
    rw [Bool.not_eq_true', List.any_eq_false] at notNull
    exact notNull _ member (by simp)
  have allowed := each (name, literal) member
  rw [known] at allowed
  obtain ⟨usable, accepted⟩ := Bool.and_eq_true_iff.mp allowed
  have given : Ordered.get? (givenArguments bindings arguments) name = literal.value? bindings :=
    get?_givenArguments (nodup_of_allDistinct distinct) member
  have missing : ∀ value, literal.value? bindings = some value → value = .null := by
    intro value read
    exact missing value (get?_withDefaults_of_given inputs (given.trans read))
  refine ⟨literal, member, ?_⟩
  cases literal with
  | «variable» variableName =>
    obtain ⟨declared, inside, rfl, defaulted⟩ := variable_of_usable required typed usable accepted
    exact suppliesNull_of_variable sound coerced inside defaulted missing
  | _ =>
    rcases Literal.null_of_valueOrNull (missing _ rfl) with null | large | ⟨_, isVariable⟩
    · exact absurd null notNull
    · exact .number large
    · cases isVariable

end

end MockGraph
