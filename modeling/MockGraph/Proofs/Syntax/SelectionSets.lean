import MockGraph.Syntax.Parser
set_option autoImplicit false

namespace MockGraph.Syntax

/-- No set inside a selection is empty. A field may come without one. -/
inductive Selection.Filled : Selection → Prop
  | field {responseName name arguments directives selection} : (∀ inner ∈ selection, Filled inner) →
      Filled (.field responseName name arguments directives selection)
  | spread {fragment directives} : Filled (.spread fragment directives)
  | inline {condition directives selection} : selection ≠ [] → (∀ inner ∈ selection, Filled inner) →
      Filled (.inline condition directives selection)

/-- Something is selected, and so it is inside. -/
structure FilledSet (selection : List Selection) : Prop where
  nonempty : selection ≠ []
  inner : ∀ inner ∈ selection, inner.Filled

/-- The selection sets of a document are filled. -/
structure Document.Filled (document : Document) : Prop where
  operations : ∀ operation ∈ document.operations, FilledSet operation.selection
  fragments : ∀ fragment ∈ document.fragments, FilledSet fragment.selection

/-- What a part of the grammar reads is so. -/
def Phrase.Reads {α : Type} (item : Phrase α) (property : α → Prop) : Prop :=
  ∀ (tokens : List Token) (first : α) (rest : List Token), item tokens = some (first, rest) →
    property first

namespace Phrase

variable {α : Type} {item : Phrase α} {property : α → Prop}

theorem Reads.upTo (reads : item.Reads property) (close : Char) (fuel : Nat) :
    (Phrase.upTo close item fuel).Reads fun items => ∀ item ∈ items, property item := by
  induction fuel with
  | zero =>
    intro tokens items rest read
    cases read
  | succ fuel ih =>
    intro tokens items rest read
    rw [Phrase.upTo] at read
    split at read
    · cases read
      nofun
    · split at read
      · cases read
      · rename_i first after readFirst
        obtain ⟨⟨others, _⟩, readOthers, same⟩ := Option.map_eq_some_iff.mp read
        cases same
        intro other member
        rcases List.mem_cons.mp member with rfl | later
        · exact reads _ _ _ readFirst
        · exact ih _ _ _ readOthers other later

theorem Reads.enclosedSome (reads : item.Reads property) (opening close : Char) :
    (Phrase.enclosedSome opening close item).Reads fun items =>
      items ≠ [] ∧ ∀ item ∈ items, property item := by
  intro tokens items rest read
  unfold Phrase.enclosedSome at read
  split at read
  · cases read
  · rename_i some
    refine ⟨?_, ?_⟩
    · rintro rfl
      exact some _ read
    · unfold enclosed at read
      split at read
      · cases read
      · exact reads.upTo close _ _ _ _ read

end Phrase

theorem reads_parseSelectionBy {set : Phrase (List Selection)} (reads : set.Reads FilledSet) :
    (parseSelectionBy set).Reads Selection.Filled := by
  intro tokens selection rest read
  unfold parseSelectionBy at read
  split at read
  · simp only [Option.bind_eq_bind, Option.bind_eq_some_iff, Option.pure_def,
      Option.some.injEq] at read
    obtain ⟨_, -, _, -, ⟨inside, _⟩, readSet, same⟩ := read
    cases same
    exact .inline (reads _ _ _ readSet).nonempty (reads _ _ _ readSet).inner
  · simp only [Option.bind_eq_bind, Option.bind_eq_some_iff, Option.pure_def,
      Option.some.injEq] at read
    obtain ⟨_, -, same⟩ := read
    cases same
    exact .spread
  · simp only [Option.bind_eq_bind, Option.bind_eq_some_iff, Option.pure_def,
      Option.some.injEq] at read
    obtain ⟨_, -, ⟨inside, _⟩, readSet, same⟩ := read
    cases same
    exact .inline (reads _ _ _ readSet).nonempty (reads _ _ _ readSet).inner
  · simp only [Option.bind_eq_bind, Option.pure_def] at read
    -- With an alias and without one the field goes on in the same way.
    split at read
    all_goals
      simp only [Option.bind_eq_some_iff] at read
      obtain ⟨_, -, _, -, _, -, read⟩ := read
      split at read
      · cases read
        exact .field nofun
      · obtain ⟨⟨inside, _⟩, readSet, same⟩ := Option.bind_eq_some_iff.mp read
        cases same
        exact .field (reads _ _ _ readSet).inner
  · cases read

theorem reads_parseSelectionWithin (fuel : Nat) :
    (parseSelectionWithin fuel).Reads Selection.Filled := by
  induction fuel with
  | zero =>
    intro tokens selection rest read
    cases read
  | succ fuel ih =>
    apply reads_parseSelectionBy
    intro tokens selection rest read
    obtain ⟨nonempty, inner⟩ := ih.enclosedSome '{' '}' _ _ _ read
    exact ⟨nonempty, inner⟩

theorem reads_parseSelectionSet : parseSelectionSet.Reads FilledSet := by
  intro tokens selection rest read
  obtain ⟨nonempty, inner⟩ := (reads_parseSelectionWithin _).enclosedSome '{' '}' _ _ _ read
  exact ⟨nonempty, inner⟩

theorem reads_parseOperation (kind : OperationKind) :
    (parseOperation kind).Reads fun operation => FilledSet operation.selection := by
  intro tokens operation rest read
  simp only [parseOperation, Option.bind_eq_bind, Option.bind_eq_some_iff, Option.pure_def,
    Option.some.injEq] at read
  obtain ⟨_, -, _, -, ⟨selection, _⟩, readSet, same⟩ := read
  cases same
  exact reads_parseSelectionSet _ _ _ readSet

theorem reads_parseFragment : parseFragment.Reads fun fragment => FilledSet fragment.selection := by
  intro tokens fragment rest read
  simp only [parseFragment, Option.bind_eq_bind, Option.bind_eq_some_iff, Option.pure_def] at read
  obtain ⟨_, -, read⟩ := read
  split at read
  · cases read
  · simp only [Option.bind_eq_some_iff, Option.some.injEq] at read
    obtain ⟨_, -, _, -, _, -, ⟨selection, _⟩, readSet, same⟩ := read
    cases same
    exact reads_parseSelectionSet _ _ _ readSet

theorem Document.Filled.withOperation {document : Document} (filled : document.Filled)
    {operation : OperationDefinition} (set : FilledSet operation.selection) :
    Document.Filled { document with operations := document.operations ++ [operation] } :=
  ⟨List.forall_mem_append.mpr ⟨filled.operations, List.forall_mem_singleton.mpr set⟩,
    filled.fragments⟩

theorem Document.Filled.withFragment {document : Document} (filled : document.Filled)
    {fragment : FragmentDefinition} (set : FilledSet fragment.selection) :
    Document.Filled { document with fragments := document.fragments ++ [fragment] } :=
  ⟨filled.operations,
    List.forall_mem_append.mpr ⟨filled.fragments, List.forall_mem_singleton.mpr set⟩⟩

theorem parseDefinitions_filled (fuel : Nat) (tokens : List Token) (document : Document) :
    document.Filled → ∀ read, parseDefinitions fuel tokens document = some read → read.Filled := by
  -- On the definitions that are left: each of them adds a filled set to the document.
  induction fuel, tokens, document using parseDefinitions.induct with
  | case1 fuel document =>
    intro filled read parsed
    rw [parseDefinitions] at parsed
    exact Option.some.inj parsed ▸ filled
  | case4 fuel rest document selection after readSet ih =>
    intro filled read parsed
    rw [parseDefinitions, readSet] at parsed
    exact ih (filled.withOperation (reads_parseSelectionSet _ _ _ readSet)) read parsed
  | case6 fuel rest document fragment after readFragment ih =>
    intro filled read parsed
    rw [parseDefinitions, readFragment] at parsed
    exact ih (filled.withFragment (reads_parseFragment _ _ _ readFragment)) read parsed
  | case9 fuel text rest document named kind known operation after readOperation ih =>
    intro filled read parsed
    simp only [parseDefinitions, known, readOperation] at parsed
    exact ih (filled.withOperation (reads_parseOperation kind _ _ _ readOperation)) read parsed
  | case2 | case3 | case5 | case7 | case8 | case10 =>
    intro _ read parsed
    simp [parseDefinitions, *] at parsed

/-- The selection sets of a document that was read are filled. -/
theorem Document.filled_of_parse? {text : String} {document : Document}
    (read : Document.parse? text = some document) : document.Filled := by
  simp only [Document.parse?, Option.bind_eq_bind, Option.bind_eq_some_iff] at read
  obtain ⟨tokens, -, read⟩ := read
  split at read
  · cases read
  · have none : Document.Filled ⟨[], []⟩ := by
      constructor <;> intro _ member <;> cases member
    exact parseDefinitions_filled _ _ _ none _ read

end MockGraph.Syntax
