import MockGraph.Mock.Rules
import MockGraph.Proofs.Schema.WellFormed
set_option autoImplicit false

namespace MockGraph

namespace MockRules

variable {rules : MockRules} {schema : TypeSystem}

/-- A scalar has a rule for its values or a formatter. -/
def Generates (rules : MockRules) (scalar : String) : Prop :=
  (∃ produce, rules.ruleForType? scalar = some (.value produce)) ∨
    ∃ formatter, Ordered.get? rules.formatters scalar = some formatter

/-- Rules that fit a schema: they speak of its fields and types, size only lists, and produce all
its scalars. -/
structure Fits (rules : MockRules) (schema : TypeSystem) : Prop where
  fields : ∀ entry ∈ rules.fields, ∃ definition, schema.field entry.1.1 entry.1.2 = .ok definition ∧
    (entry.2.isValue = true ∨ definition.type.isList = true)
  types : ∀ entry ∈ rules.types, ∃ type, schema.resolve entry.1 = .ok type
  scalars : ∀ entry ∈ schema.types, ∀ name description, entry.2 = .scalar name description →
      rules.Generates name

theorem checkField_eq_ok_iff (type field : String) (rule : MockRule) :
    checkField schema type field rule = .ok () ↔
      ∃ definition, schema.field type field = .ok definition ∧
        (rule.isValue = true ∨ definition.type.isList = true) := by
  unfold checkField
  cases schema.field type field with
  | error error => simp
  | ok definition => cases rule <;> simp [MockRule.isValue]

theorem checkType_eq_ok_iff (type : String) :
    checkType schema type = .ok () ↔ ∃ definition, schema.resolve type = .ok definition := by
  unfold checkType
  cases schema.resolve type <;> simp

theorem checkScalar_eq_ok_iff (type : TypeDef) :
    rules.checkScalar type = .ok () ↔
      ∀ name description, type = .scalar name description → rules.Generates name := by
  cases type with
  | scalar name description =>
    have ruled : (rules.ruleForType? name).any MockRule.isValue = true ↔
        ∃ produce, rules.ruleForType? name = some (.value produce) := by
      rcases rules.ruleForType? name with _ | (produce | range) <;> simp [MockRule.isValue]
    have formatted : Ordered.contains rules.formatters name = true ↔
        ∃ formatter, Ordered.get? rules.formatters name = some formatter := Option.isSome_iff_exists
    have generated :
        ((rules.ruleForType? name).any MockRule.isValue ||
            Ordered.contains rules.formatters name) = true ↔ rules.Generates name :=
      Bool.or_eq_true_iff.trans (or_congr ruled formatted)
    simp [checkScalar, -Bool.or_eq_true, generated]
  | enum | object | input => simp [checkScalar]

theorem check_eq_ok_iff : rules.check schema = .ok () ↔ rules.Fits schema := by
  have parts : rules.check schema = .ok () ↔
      (rules.fields.forM fun entry => checkField schema entry.1.1 entry.1.2 entry.2) = .ok () ∧
      (rules.types.forM fun entry => checkType schema entry.1) = .ok () ∧
      (schema.types.forM fun entry => rules.checkScalar entry.2) = .ok () := by
    unfold check
    cases rules.fields.forM fun entry => checkField schema entry.1.1 entry.1.2 entry.2 with
    | error error => exact iff_of_false nofun fun all => nomatch all.1
    | ok done =>
      cases rules.types.forM fun entry => checkType schema entry.1 with
      | error error => exact iff_of_false nofun fun all => nomatch all.2.1
      | ok done => exact ((and_iff_right rfl).trans (and_iff_right rfl)).symm
  rw [parts]
  simp only [forM_eq_ok_iff, checkField_eq_ok_iff, checkType_eq_ok_iff, checkScalar_eq_ok_iff]
  exact ⟨fun ⟨fields, types, scalars⟩ => ⟨fields, types, scalars⟩,
    fun fits => ⟨fits.fields, fits.types, fits.scalars⟩⟩

end MockRules

end MockGraph
