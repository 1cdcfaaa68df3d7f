import MockGraph.Operation.Lowering
import MockGraph.Proofs.Execution.Shape
set_option autoImplicit false

namespace MockGraph

open FieldSelection

variable {field : FieldSelection} {fields merged target : List FieldSelection}

/-- A field with more selected on it. -/
def FieldSelection.adding (field : FieldSelection) (selection : List FieldSelection) :
    FieldSelection :=
  { field with selection := mergeFields selection field.selection }

@[simp] theorem FieldSelection.responseKey_adding (field : FieldSelection)
    (selection : List FieldSelection) : (field.adding selection).responseKey = field.responseKey :=
  rfl

@[simp] theorem FieldSelection.adding_nil (field : FieldSelection) : field.adding [] = field := by
  cases field
  rw [adding, mergeFields]

theorem mergeField_nil (field : FieldSelection) : mergeField field [] = [field] := by
  cases field
  rw [mergeField, placeField]

theorem mergeField_cons (field first : FieldSelection) (rest : List FieldSelection) :
    mergeField field (first :: rest) =
      if first.responseKey = field.responseKey then first.adding field.selection :: rest
      else first :: mergeField field rest := by
  cases field
  rw [mergeField, mergeField, placeField]
  rfl

theorem mergeField_cons_of_eq {first : FieldSelection}
    (same : first.responseKey = field.responseKey) (rest : List FieldSelection) :
    mergeField field (first :: rest) = first.adding field.selection :: rest := by
  rw [mergeField_cons, if_pos same]

theorem mergeField_cons_of_ne {first : FieldSelection}
    (different : first.responseKey ≠ field.responseKey) (rest : List FieldSelection) :
    mergeField field (first :: rest) = first :: mergeField field rest := by
  rw [mergeField_cons, if_neg different]

theorem mergeFields_append (first second merged : List FieldSelection) :
    mergeFields (first ++ second) merged = mergeFields second (mergeFields first merged) := by
  induction first generalizing merged with
  | nil => rfl
  | cons field rest ih => exact ih (mergeField field merged)

theorem FieldSelection.adding_adding (field : FieldSelection) (first second : List FieldSelection) :
    (field.adding first).adding second = field.adding (first ++ second) := by
  rw [adding, adding, adding, mergeFields_append]

/-- All fields under the key of the first are merged into it, and the others by themselves. -/
theorem mergeFields_cons (fields : List FieldSelection) (first : FieldSelection)
    (merged : List FieldSelection) : mergeFields fields (first :: merged) =
      first.adding ((fields.filter (·.responseKey = first.responseKey)).flatMap (·.selection)) ::
        mergeFields (fields.filter (·.responseKey ≠ first.responseKey)) merged := by
  induction fields generalizing first merged with
  | nil =>
    rw [mergeFields]
    simp [mergeFields]
  | cons field rest ih =>
    rw [mergeFields]
    by_cases same : first.responseKey = field.responseKey
    · rw [mergeField_cons_of_eq same, ih]
      simp [same, adding_adding]
    · rw [mergeField_cons_of_ne same, ih]
      simp [Ne.symm same, mergeFields]

theorem keys_mergeField (field : FieldSelection) (merged : List FieldSelection) :
    (mergeField field merged).map responseKey =
      if field.responseKey ∈ merged.map responseKey then merged.map responseKey
      else merged.map responseKey ++ [field.responseKey] := by
  induction merged with
  | nil => rw [mergeField_nil]; rfl
  | cons first rest ih =>
    by_cases same : first.responseKey = field.responseKey
    · rw [mergeField_cons_of_eq same]
      simp [same]
    · rw [mergeField_cons_of_ne same, List.map_cons, ih]
      simp only [List.map_cons, List.mem_cons, Ne.symm same, false_or]
      split <;> rfl

theorem mem_keys_mergeField {key : String} :
    key ∈ (mergeField field merged).map responseKey ↔
      key = field.responseKey ∨ key ∈ merged.map responseKey := by
  rw [keys_mergeField]
  split
  · rename_i present
    constructor
    · exact Or.inr
    · rintro (rfl | member)
      · exact present
      · exact member
  · rw [List.mem_append, List.mem_singleton, or_comm]

/-- Keys are distinct below all fields of a selection. -/
def TidyBelow (fields : List FieldSelection) : Prop := ∀ field ∈ fields, DistinctBelow field

theorem tidyBelow_of_distinctKeys (distinct : DistinctKeys fields) : TidyBelow fields := by
  induction fields with
  | nil => nofun
  | cons field rest ih =>
    intro other member
    rcases List.mem_cons.mp member with rfl | later
    · exact distinct.2.1
    · exact ih distinct.2.2 other later

theorem distinctKeys_mergeField (distinct : DistinctKeys merged) (below : DistinctBelow field)
    (merges : ∀ merged, DistinctKeys merged → DistinctKeys (mergeFields field.selection merged)) :
    DistinctKeys (mergeField field merged) := by
  induction merged with
  | nil =>
    rw [mergeField_nil]
    exact ⟨List.not_mem_nil, below, trivial⟩
  | cons first rest ih =>
    obtain ⟨unique, firstBelow, others⟩ := distinct
    by_cases same : first.responseKey = field.responseKey
    · rw [mergeField_cons_of_eq same]
      cases first
      exact ⟨unique, merges _ firstBelow, others⟩
    · rw [mergeField_cons_of_ne same]
      refine ⟨?_, firstBelow, ih others⟩
      rw [mem_keys_mergeField, not_or]
      exact ⟨same, unique⟩

/-- What is merged has distinct keys, if that is so below its fields. -/
theorem distinctKeys_mergeFields (fields : List FieldSelection) :
    ∀ merged, DistinctKeys merged → TidyBelow fields →
      DistinctKeys (mergeFields fields merged) := by
  induction fields using selection_induction with
  | nil => exact fun _ distinct _ => distinct
  | cons name aliasName arguments selection rest ihBelow ihRest =>
    intro merged distinct tidy
    have below : DistinctBelow ⟨name, aliasName, arguments, selection⟩ := tidy _ List.mem_cons_self
    apply ihRest
    · apply distinctKeys_mergeField distinct below
      intro merged distinct
      exact ihBelow merged distinct (tidyBelow_of_distinctKeys below)
    · exact fun other member => tidy other (List.mem_cons_of_mem _ member)

/-- Fields of different keys can be merged in any order, if the key of one is taken. -/
theorem mergeField_comm {other : FieldSelection} (different : other.responseKey ≠ field.responseKey)
    (taken : field.responseKey ∈ target.map responseKey) :
    mergeField field (mergeField other target) = mergeField other (mergeField field target) := by
  induction target with
  | nil => cases taken
  | cons first rest ih =>
    by_cases here : first.responseKey = field.responseKey
    · have elsewhere : first.responseKey ≠ other.responseKey :=
        fun same => different (same.symm.trans here)
      have stillElsewhere : (first.adding field.selection).responseKey ≠ other.responseKey :=
        elsewhere
      rw [mergeField_cons_of_ne elsewhere, mergeField_cons_of_eq here, mergeField_cons_of_eq here,
        mergeField_cons_of_ne stillElsewhere]
    · have later : field.responseKey ∈ rest.map responseKey := by
        rcases List.mem_cons.mp taken with same | later
        · exact absurd same.symm here
        · exact later
      by_cases there : first.responseKey = other.responseKey
      · have stillElsewhere : (first.adding other.selection).responseKey ≠ field.responseKey := here
        rw [mergeField_cons_of_eq there, mergeField_cons_of_ne stillElsewhere,
          mergeField_cons_of_ne here, mergeField_cons_of_eq there]
      · rw [mergeField_cons_of_ne there, mergeField_cons_of_ne here, mergeField_cons_of_ne here,
          mergeField_cons_of_ne there, ih later]

theorem mergeField_mergeFields_comm (absent : field.responseKey ∉ merged.map responseKey)
    (taken : field.responseKey ∈ target.map responseKey) :
    mergeField field (mergeFields merged target) =
      mergeFields merged (mergeField field target) := by
  induction merged generalizing target with
  | nil => rfl
  | cons other rest ih =>
    rw [List.map_cons, List.mem_cons, not_or] at absent
    have stillTaken : field.responseKey ∈ (mergeField other target).map responseKey :=
      mem_keys_mergeField.mpr (Or.inr taken)
    rw [mergeFields, mergeFields, ih absent.2 stillTaken, mergeField_comm (Ne.symm absent.1) taken]

/-- A selection that merging goes through below a field, whatever it was merged with. -/
def Associates (fields : List FieldSelection) : Prop :=
  ∀ merged target, DistinctKeys merged →
    mergeFields (mergeFields fields merged) target = mergeFields fields (mergeFields merged target)

theorem mergeField_below {first : FieldSelection} (associates : Associates field.selection)
    (below : DistinctBelow first) (same : first.responseKey = field.responseKey)
    (target : List FieldSelection) :
    mergeField (first.adding field.selection) target =
      mergeField field (mergeField first target) := by
  have key : (first.adding field.selection).responseKey = first.responseKey := rfl
  induction target with
  | nil => rw [mergeField_nil, mergeField_nil, mergeField_cons_of_eq same]
  | cons entry rest ih =>
    by_cases here : entry.responseKey = first.responseKey
    · have added : (entry.adding first.selection).responseKey = field.responseKey := here.trans same
      have both : entry.adding (mergeFields field.selection first.selection) =
          (entry.adding first.selection).adding field.selection := by
        cases first
        exact congrArg (fun selection => { entry with selection })
          (associates _ entry.selection below)
      rw [mergeField_cons_of_eq here, mergeField_cons_of_eq (here.trans key.symm),
        mergeField_cons_of_eq added]
      exact congrArg (· :: rest) both
    · rw [mergeField_cons_of_ne here, mergeField_cons_of_ne (fun equal => here (equal.trans key)),
        mergeField_cons_of_ne (fun equal => here (equal.trans same.symm)), ih]

theorem mergeFields_mergeField (associates : Associates field.selection)
    (distinct : DistinctKeys merged) (target : List FieldSelection) :
    mergeFields (mergeField field merged) target =
      mergeField field (mergeFields merged target) := by
  induction merged generalizing target with
  | nil => rw [mergeField_nil, mergeFields, mergeFields, mergeFields]
  | cons first rest ih =>
    obtain ⟨unique, below, others⟩ := distinct
    by_cases same : first.responseKey = field.responseKey
    · have taken : field.responseKey ∈ (mergeField first target).map responseKey :=
        mem_keys_mergeField.mpr (Or.inl same.symm)
      rw [mergeField_cons_of_eq same, mergeFields, mergeFields,
        mergeField_below associates below same, mergeField_mergeFields_comm (same ▸ unique) taken]
    · rw [mergeField_cons_of_ne same, mergeFields, mergeFields, ih others]

/-- To merge a selection that was merged before is to merge its fields one after the other. -/
theorem mergeFields_mergeFields (fields : List FieldSelection) :
    TidyBelow fields → Associates fields := by
  -- On the fields that go in last: what is selected below them is smaller, what it is merged with
  -- need not be.
  induction fields using selection_induction with
  | nil => exact fun _ _ _ _ => rfl
  | cons name aliasName arguments selection rest ihBelow ihRest =>
    intro tidy merged target distinct
    have below : DistinctBelow ⟨name, aliasName, arguments, selection⟩ := tidy _ List.mem_cons_self
    have tidySelection : TidyBelow selection := tidyBelow_of_distinctKeys below
    have tidyRest : TidyBelow rest := fun other member => tidy other (List.mem_cons_of_mem _ member)
    have next : DistinctKeys (mergeField ⟨name, aliasName, arguments, selection⟩ merged) :=
      distinctKeys_mergeField distinct below fun merged distinct =>
        distinctKeys_mergeFields selection merged distinct tidySelection
    rw [mergeFields, mergeFields, ihRest tidyRest _ _ next,
      mergeFields_mergeField (ihBelow tidySelection) distinct]

namespace FieldSelection

mutual

/-- A selection has a field under its key, with all that is selected on it. -/
def Has (merged : List FieldSelection) : FieldSelection → Prop
  | ⟨name, aliasName, _, selection⟩ =>
    ∃ entry, merged.find? (·.responseKey = aliasName.getD name) = some entry ∧
      HasAll entry.selection selection

def HasAll (merged : List FieldSelection) : List FieldSelection → Prop
  | [] => True
  | field :: rest => Has merged field ∧ HasAll merged rest

end

end FieldSelection

theorem has_iff : Has merged field ↔
    ∃ entry, merged.find? (·.responseKey = field.responseKey) = some entry ∧
      HasAll entry.selection field.selection := by
  cases field
  rw [Has]
  rfl

theorem find?_mergeField (field : FieldSelection) (merged : List FieldSelection) (key : String) :
    (mergeField field merged).find? (·.responseKey = key) =
      if field.responseKey = key then
        some (((merged.find? (·.responseKey = key)).map (·.adding field.selection)).getD field)
      else merged.find? (·.responseKey = key) := by
  induction merged with
  | nil =>
    rw [mergeField_nil]
    by_cases here : field.responseKey = key <;> simp [here]
  | cons first rest ih =>
    by_cases same : first.responseKey = field.responseKey
    · rw [mergeField_cons_of_eq same]
      by_cases here : field.responseKey = key <;> simp [same, here]
    · rw [mergeField_cons_of_ne same, List.find?_cons, ih]
      by_cases here : field.responseKey = key
      · have elsewhere : first.responseKey ≠ key := fun equal => same (equal.trans here.symm)
        simp [here, elsewhere]
      · simp [here, List.find?_cons]

theorem hasAll_mono (fields : List FieldSelection) : ∀ more merged, HasAll merged fields →
    HasAll (mergeFields more merged) fields := by
  induction fields using selection_induction with
  | nil => exact fun _ _ _ => trivial
  | cons name aliasName arguments selection rest ihBelow ihRest =>
    intro more
    -- One field more changes one entry, and there only what is below it.
    induction more with
    | nil => exact fun _ all => all
    | cons other more ih =>
      intro merged all
      obtain ⟨has, others⟩ := all
      apply ih (mergeField other merged)
      refine ⟨?_, ihRest [other] merged others⟩
      obtain ⟨entry, found, below⟩ := has_iff.mp has
      rw [has_iff, find?_mergeField]
      split
      · rw [found]
        exact ⟨_, rfl, ihBelow other.selection entry.selection below⟩
      · exact ⟨entry, found, below⟩

theorem hasAll_self (fields : List FieldSelection) :
    ∀ front, DistinctKeys fields → (∀ field ∈ fields, field.responseKey ∉ front.map responseKey) →
      HasAll (front ++ fields) fields := by
  induction fields using selection_induction with
  | nil => exact fun _ _ _ => trivial
  | cons name aliasName arguments selection rest ihBelow ihRest =>
    intro front distinct fresh
    obtain ⟨unique, below, others⟩ := distinct
    generalize same : (⟨name, aliasName, arguments, selection⟩ : FieldSelection) = first at *
    have selected : selection = first.selection := by rw [← same]
    refine ⟨?_, ?_⟩
    · have absent : front.find? (·.responseKey = first.responseKey) = none := by
        rw [List.find?_eq_none]
        intro other member
        rw [decide_eq_true_eq]
        intro equal
        exact fresh first List.mem_cons_self (List.mem_map.mpr ⟨other, member, equal⟩)
      rw [has_iff, List.find?_append, absent]
      refine ⟨first, by simp, ?_⟩
      rw [← selected]
      exact ihBelow [] (by rw [← same] at below; exact below) fun _ _ => List.not_mem_nil
    · have all := ihRest (front ++ [first]) others ?_
      · rw [List.append_assoc] at all
        exact all
      · intro other member
        rw [List.map_append, List.mem_append, not_or]
        refine ⟨fresh other (List.mem_cons_of_mem _ member), ?_⟩
        rw [List.map_singleton, List.mem_singleton]
        intro equal
        exact unique (List.mem_map.mpr ⟨other, member, equal⟩)

theorem hasAll_mergeFields (fields : List FieldSelection) : ∀ merged, TidyBelow fields →
    HasAll (mergeFields fields merged) fields := by
  induction fields using selection_induction with
  | nil => exact fun _ _ => trivial
  | cons name aliasName arguments selection rest ihBelow ihRest =>
    intro merged tidy
    have below : DistinctKeys selection :=
      tidy ⟨name, aliasName, arguments, selection⟩ List.mem_cons_self
    have now : HasAll (mergeField ⟨name, aliasName, arguments, selection⟩ merged)
        [⟨name, aliasName, arguments, selection⟩] := by
      refine ⟨?_, trivial⟩
      rw [has_iff, find?_mergeField, if_pos rfl]
      refine ⟨_, rfl, ?_⟩
      cases merged.find? (·.responseKey = responseKey ⟨name, aliasName, arguments, selection⟩) with
      | none => exact hasAll_self selection [] below fun _ _ => List.not_mem_nil
      | some entry => exact ihBelow entry.selection (tidyBelow_of_distinctKeys below)
    refine ⟨(hasAll_mono _ rest _ now).1,
      ihRest _ fun other member => tidy other (List.mem_cons_of_mem _ member)⟩

theorem mergeField_of_has (has : Has merged field)
    (below : ∀ merged, HasAll merged field.selection →
      mergeFields field.selection merged = merged) : mergeField field merged = merged := by
  obtain ⟨entry, found, all⟩ := has_iff.mp has
  clear has
  induction merged with
  | nil => cases found
  | cons first rest ih =>
    rw [List.find?_cons] at found
    split at found
    · rename_i here
      obtain rfl := Option.some.inj found
      have unchanged : first.adding field.selection = first := by
        cases first
        exact congrArg (fun selection => (⟨_, _, _, selection⟩ : FieldSelection)) (below _ all)
      rw [mergeField_cons_of_eq (of_decide_eq_true here), unchanged]
    · rename_i elsewhere
      rw [mergeField_cons_of_ne (of_decide_eq_false elsewhere), ih found]

theorem mergeFields_of_hasAll (fields : List FieldSelection) : ∀ merged, HasAll merged fields →
    mergeFields fields merged = merged := by
  induction fields using selection_induction with
  | nil => exact fun merged _ => by rw [mergeFields]
  | cons name aliasName arguments selection rest ihBelow ihRest =>
    intro merged all
    rw [mergeFields, mergeField_of_has all.1 ihBelow, ihRest merged all.2]

end MockGraph
