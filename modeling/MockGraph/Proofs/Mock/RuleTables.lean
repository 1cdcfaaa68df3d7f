import MockGraph.Mock.RulesFile
import MockGraph.Proofs.Json.Reading
import MockGraph.Proofs.Json.Records
set_option autoImplicit false

namespace MockGraph

namespace Ordered

variable {κ β : Type} [DecidableEq κ]

/-- The value of the last entry with the key. -/
def last? (entries : List (κ × β)) (key : κ) : Option β := get? entries.reverse key

theorem get?_append (front back : List (κ × β)) (key : κ) :
    get? (front ++ back) key = (get? front key).or (get? back key) := by
  induction front with
  | nil => rfl
  | cons entry front ih =>
    rw [List.cons_append, get?, get?, ih]
    split <;> rfl

theorem last?_cons (entry : κ × β) (rest : List (κ × β)) (key : κ) :
    last? (entry :: rest) key =
      (last? rest key).or (if entry.1 = key then some entry.2 else none) := by
  rw [last?, List.reverse_cons, get?_append]
  rfl

/-- The first key of a kind stays the first, whatever is inserted. -/
theorem find?_keys_insert (kind : κ → Bool) (entries : Ordered κ β) (key : κ) (value : β) :
    (entries.insert key value).keys.find? kind = (entries.keys ++ [key]).find? kind := by
  rw [keys_insert]
  split
  · rename_i known
    rw [List.find?_append]
    cases found : entries.keys.find? kind with
    | some first => rfl
    | none =>
      have other : ¬kind key := List.find?_eq_none.mp found key known
      rw [List.find?_cons_of_neg other, List.find?_nil, Option.none_or]
  · rfl

end Ordered

namespace Tree

/-- Exactly two numbers of 64 bits without a sign. -/
def Bounds (first second : Nat) (tree : Tree) : Prop :=
  tree = array [number (some (.integer first)), number (some (.integer second))] ∧
    first < Nat.pow 2 64 ∧ second < Nat.pow 2 64

/-- An object with nothing but one list size, or the array form of that record. -/
inductive GivesSize (first second : Nat) : Tree → Prop
  | member {tree} : Bounds first second tree →
      GivesSize first second (object [(some "listSize", tree)])
  | item {tree} : Bounds first second tree → GivesSize first second (array [tree])

/-- The rule that an entry of a file gives: the size of lists, whose bounds may come in any order,
or else a constant. -/
inductive Gives (tree : Tree) : MockRule → Prop
  | listSize {first second : Nat} {range : ListSize} : GivesSize first second tree →
      range.min = min first second → range.max = max first second → Gives tree (.listSize range)
  | constant {value : Json} : (∀ first second, ¬GivesSize first second tree) →
      tree.value maxDepth = .ok value → Gives tree (.constant value)

/-- The members of an object under their names, in the order of the text. -/
def entries : Option Tree → List (String × Tree)
  | some (object members) =>
    members.filterMap fun member => member.1.map fun name => (name, member.2)
  | _ => []

theorem word64?_eq_some_iff (tree : Tree) (n : Nat) :
    tree.word64? = some n ↔ tree = number (some (.integer n)) ∧ n < Nat.pow 2 64 := by
  cases tree with
  | number read =>
    cases read with
    | none => simp [word64?]
    | some read =>
      cases read with
      | double value => simp [word64?, Json.asWord64?]
      | integer value =>
        have power : Int.pow 2 64 = Nat.pow 2 64 := rfl
        simp only [word64?, Json.asWord64?, power, Option.ite_none_right_eq_some, Option.some.injEq,
          number.injEq, Number.integer.injEq]
        constructor
        · rintro ⟨⟨positive, small⟩, rfl⟩
          exact ⟨by omega, by omega⟩
        · rintro ⟨rfl, small⟩
          exact ⟨⟨by omega, by omega⟩, by omega⟩
  | null | bool | string | array | object | broken => simp [word64?]

theorem bounds?_eq_some_iff (tree : Tree) (first second : Nat) :
    tree.bounds? = some (first, second) ↔ Bounds first second tree := by
  constructor
  · intro read
    unfold bounds? at read
    split at read
    · rename_i one two
      cases lower : one.word64? with
      | none => simp [lower] at read
      | some a =>
        cases upper : two.word64? with
        | none => simp [lower, upper] at read
        | some b =>
          simp only [lower, upper, Option.bind_eq_bind, Option.bind_some, Option.pure_def,
            Option.some.injEq, Prod.mk.injEq] at read
          obtain ⟨rfl, rfl⟩ := read
          obtain ⟨rfl, smallA⟩ := (word64?_eq_some_iff one a).mp lower
          obtain ⟨rfl, smallB⟩ := (word64?_eq_some_iff two b).mp upper
          exact ⟨rfl, smallA, smallB⟩
    · cases read
  · rintro ⟨rfl, smallA, smallB⟩
    rw [bounds?, (word64?_eq_some_iff _ first).mpr ⟨rfl, smallA⟩,
      (word64?_eq_some_iff _ second).mpr ⟨rfl, smallB⟩]
    rfl

theorem listSize?_eq_some_iff (tree : Tree) (first second : Nat) :
    tree.listSize? = some (first, second) ↔ GivesSize first second tree := by
  constructor
  · intro read
    unfold listSize? at read
    split at read
    · exact .member ((bounds?_eq_some_iff _ _ _).mp read)
    · exact .item ((bounds?_eq_some_iff _ _ _).mp read)
    · cases read
  · rintro (bounds | bounds)
    · exact (bounds?_eq_some_iff _ _ _).mpr bounds
    · exact (bounds?_eq_some_iff _ _ _).mpr bounds

end Tree

theorem min_between (first second : Nat) :
    (ListSize.between first second).min = min first second := by
  unfold ListSize.between
  split
  · rename_i ordered
    exact (Nat.min_eq_left ordered).symm
  · rename_i reversed
    exact (Nat.min_eq_right (Nat.le_of_not_le reversed)).symm

theorem max_between (first second : Nat) :
    (ListSize.between first second).max = max first second := by
  unfold ListSize.between
  split
  · rename_i ordered
    exact (Nat.max_eq_right ordered).symm
  · rename_i reversed
    exact (Nat.max_eq_left (Nat.le_of_not_le reversed)).symm

namespace Tree

theorem gives_of_readEntry {room : Nat} {tree : Tree} {entry : RuleEntry} (enough : room ≤ maxDepth)
    (read : readEntry room tree = .ok entry) : tree.Gives entry.rule := by
  unfold readEntry at read
  cases here : tree.value room with
  | error fault => simp [here] at read
  | ok value =>
    simp only [here] at read
    cases sized : tree.listSize? with
    | some bounds =>
      obtain ⟨first, second⟩ := bounds
      simp only [sized, Except.ok.injEq] at read
      subst read
      have gives := (listSize?_eq_some_iff tree first second).mp sized
      exact .listSize gives (min_between first second) (max_between first second)
    | none =>
      simp only [sized, Except.ok.injEq] at read
      subst read
      refine .constant (fun first second gives => ?_)
        (value_mono tree room maxDepth value enough here)
      cases sized.symm.trans ((listSize?_eq_some_iff tree first second).mpr gives)

/-- An entry of a table is there with the rule that its tree gives. -/
def Entered (tree : Tree) (entry : Option RuleEntry) : Prop :=
  ∃ read, entry = some read ∧ tree.Gives read.rule

/-- An object that is read as a table: the last entry of a name counts, a key that is there once
stays where it is. -/
structure Tabled (members : List (String × Tree)) (before after : Ordered String RuleEntry) :
    Prop where
  reads : ∀ key, ReadsPart Entered (Ordered.get? before key) (Ordered.last? members key)
      (Ordered.get? after key)
  distinct : (Ordered.keys before).Nodup → (Ordered.keys after).Nodup
  first : ∀ kind : String → Bool,
    (Ordered.keys after).find? kind = (Ordered.keys before ++ members.map Prod.fst).find? kind

theorem Tabled.nil (before : Ordered String RuleEntry) : Tabled [] before before :=
  ⟨fun _ => .absent, id, fun kind => by rw [List.map_nil, List.append_nil]⟩

theorem Tabled.cons {name : String} {tree : Tree} {entry : RuleEntry}
    {members : List (String × Tree)} {before after : Ordered String RuleEntry}
    (gives : tree.Gives entry.rule) (later : Tabled members (before.insert name entry) after) :
    Tabled ((name, tree) :: members) before after := by
  refine ⟨fun key => ?_,
    fun distinct => later.distinct (Ordered.nodup_keys_insert distinct name entry), fun kind => ?_⟩
  · have reads := later.reads key
    rw [Ordered.last?_cons]
    cases last : Ordered.last? members key with
    | some other =>
      rw [last] at reads
      cases reads with
      | given entered => exact .given entered
    | none =>
      rw [last, Ordered.get?_insert] at reads
      rw [Option.none_or]
      generalize Ordered.get? after key = result at reads ⊢
      cases reads
      by_cases same : name = key
      · rw [if_pos same, if_pos same]
        exact .given ⟨entry, rfl, gives⟩
      · rw [if_neg same, if_neg same]
        exact .absent
  · rw [later.first kind, List.find?_append, Ordered.find?_keys_insert, ← List.find?_append,
      List.append_assoc]
    rfl

theorem tabled_of_readEntries {room : Nat} (enough : room ≤ maxDepth)
    (members : List (Option String × Tree)) :
    ∀ before after : Ordered String RuleEntry, readEntries room members before = .ok after →
      Tabled (entries (some (object members))) before after := by
  induction members with
  | nil =>
    intro before after read
    cases read
    exact .nil before
  | cons member members ih =>
    intro before after read
    obtain ⟨name, tree⟩ := member
    cases name with
    | none => cases read
    | some name =>
      rw [readEntries] at read
      cases here : readEntry room tree with
      | error fault => simp [here] at read
      | ok entry =>
        simp only [here] at read
        exact .cons (gives_of_readEntry enough here) (ih (before.insert name entry) after read)

theorem tabled_of_readTable {room : Nat} (enough : room ≤ maxDepth) {tree : Tree}
    {table : Ordered String RuleEntry} (read : readTable room tree = .ok table) :
    Tabled (entries (some tree)) [] table := by
  cases tree with
  | object members =>
    exact tabled_of_readEntries (Nat.le_trans (Nat.sub_le room 1) enough) members [] table read
  | null | bool | number | string | array | broken => cases read

end Tree

namespace RulesFile

theorem splitKey?_cons {c : Char} (plain : c ≠ '.') (rest : List Char) :
    splitKey? (c :: rest) = (splitKey? rest).map fun parts => (c :: parts.1, parts.2) := by
  rw [splitKey?]
  exact plain

theorem splitKey?_eq_some_iff (key type field : List Char) :
    splitKey? key = some (type, field) ↔ '.' ∉ type ∧ key = type ++ '.' :: field := by
  induction key generalizing type with
  | nil => simp [splitKey?]
  | cons c rest ih =>
    by_cases dot : c = '.'
    · subst dot
      cases type with
      | nil => simp [splitKey?, eq_comm]
      | cons d type =>
        simp only [splitKey?, Option.some.injEq, Prod.mk.injEq, List.nil_eq, reduceCtorEq,
          false_and, List.mem_cons, not_or, List.cons_append, List.cons.injEq, false_iff]
        rintro ⟨⟨other, -⟩, same, -⟩
        exact other same
    · rw [splitKey?_cons dot, Option.map_eq_some_iff]
      constructor
      · rintro ⟨⟨inner, field'⟩, found, same⟩
        cases same
        obtain ⟨plain, rfl⟩ := (ih inner).mp found
        refine ⟨fun member => ?_, rfl⟩
        rcases List.mem_cons.mp member with same | inside
        · exact dot same.symm
        · exact plain inside
      · rintro ⟨plain, same⟩
        cases type with
        | nil => exact absurd (List.cons.inj same).1 dot
        | cons d type =>
          obtain ⟨rfl, rfl⟩ := List.cons.inj same
          exact ⟨(type, field),
            (ih type).mpr ⟨fun member => plain (List.mem_cons_of_mem _ member), rfl⟩, rfl⟩

theorem splitKey?_eq_none_iff (key : List Char) : splitKey? key = none ↔ '.' ∉ key := by
  induction key with
  | nil => simp [splitKey?]
  | cons c rest ih =>
    by_cases dot : c = '.'
    · simp [splitKey?, dot]
    · rw [splitKey?_cons dot, Option.map_eq_none_iff, ih, List.mem_cons, not_or]
      exact (and_iff_right (Ne.symm dot)).symm

/-- A key without a dot names no field of a type. -/
def isPlain (key : String) : Bool := '.' ∉ key.toList

theorem toList_key (type field : String) :
    (type ++ "." ++ field).toList = type.toList ++ '.' :: field.toList := by
  rw [String.toList_append, String.toList_append, List.append_assoc]
  rfl

/-- Adding the rules of fields stops at the first key without a dot. -/
theorem addFields_of_plain {key : String} (entries : List (String × RuleEntry)) :
    ∀ rules : MockRules, (Ordered.keys entries).find? isPlain = some key →
      addFields entries rules =
        .error (.invalidMockRule key "field rules are keyed as Type.field") := by
  induction entries with
  | nil => nofun
  | cons entry rest ih =>
    intro rules first
    obtain ⟨name, read⟩ := entry
    rw [Ordered.keys_cons, List.find?_cons] at first
    rw [addFields]
    cases split : splitKey? name.toList with
    | none =>
      have plain : isPlain name = true :=
        decide_eq_true ((splitKey?_eq_none_iff name.toList).mp split)
      simp only [plain, Option.some.injEq] at first
      rw [first]
    | some parts =>
      have dotted : isPlain name = false := by
        refine decide_eq_false fun plain => ?_
        cases split.symm.trans ((splitKey?_eq_none_iff name.toList).mpr plain)
      simp only [dotted] at first
      exact ih _ first

/-- What rules say of a field once those of a file are added. -/
structure FieldsAdded (entries : List (String × RuleEntry)) (rules done : MockRules) : Prop where
  named : ∀ type field : String, '.' ∉ type.toList →
      done.ruleForField? type field =
        ((Ordered.get? entries (type ++ "." ++ field)).map RuleEntry.rule).or
          (rules.ruleForField? type field)
  unnamed : ∀ type field : String, '.' ∈ type.toList →
      done.ruleForField? type field = rules.ruleForField? type field
  types : done.types = rules.types
  formatters : done.formatters = rules.formatters

theorem FieldsAdded.cons {key : String} {type field : List Char} {entry : RuleEntry}
    {rest : List (String × RuleEntry)} {rules done : MockRules}
    (split : splitKey? key.toList = some (type, field)) (fresh : Ordered.get? rest key = none)
    (later : FieldsAdded rest
      (rules.withField (String.ofList type) (String.ofList field) entry.rule) done) :
    FieldsAdded ((key, entry) :: rest) rules done := by
  obtain ⟨plain, parts⟩ := (splitKey?_eq_some_iff key.toList type field).mp split
  refine ⟨fun type' field' plain' => ?_, fun type' field' dotted => ?_, later.types,
    later.formatters⟩
  · rw [later.named type' field' plain', Ordered.get?, MockRules.ruleForField?, MockRules.withField,
      Ordered.get?_insert]
    by_cases same : key = type' ++ "." ++ field'
    · have again : key.toList = type'.toList ++ '.' :: field'.toList := by rw [same, toList_key]
      have split' :=
        (splitKey?_eq_some_iff key.toList type'.toList field'.toList).mpr ⟨plain', again⟩
      obtain ⟨rfl, rfl⟩ := Prod.mk.inj (Option.some.inj (split.symm.trans split'))
      rw [if_pos same, ← same, fresh, String.ofList_toList, String.ofList_toList, if_pos rfl]
      rfl
    · have other : (String.ofList type, String.ofList field) ≠ (type', field') := by
        rintro ⟨⟩
        refine same (String.toList_injective ?_)
        rw [toList_key, String.toList_ofList, String.toList_ofList, parts]
      rw [if_neg same, if_neg other]
      rfl
  · rw [later.unnamed type' field' dotted, MockRules.ruleForField?, MockRules.withField,
      Ordered.get?_insert]
    have other : (String.ofList type, String.ofList field) ≠ (type', field') := by
      rintro ⟨⟩
      rw [String.toList_ofList] at dotted
      exact plain dotted
    rw [if_neg other]
    rfl

theorem fieldsAdded_of_addFields (entries : List (String × RuleEntry)) :
    ∀ rules done : MockRules, (Ordered.keys entries).Nodup → addFields entries rules = .ok done →
      FieldsAdded entries rules done := by
  induction entries with
  | nil =>
    intro rules done _ added
    cases added
    exact ⟨fun _ _ _ => rfl, fun _ _ _ => rfl, rfl, rfl⟩
  | cons entry rest ih =>
    intro rules done distinct added
    obtain ⟨key, entry⟩ := entry
    rw [Ordered.keys_cons, List.nodup_cons] at distinct
    rw [addFields] at added
    cases split : splitKey? key.toList with
    | none => simp [split] at added
    | some parts =>
      simp only [split] at added
      have fresh := (Ordered.get?_eq_none_iff rest key).mpr distinct.1
      exact .cons split fresh (ih _ done distinct.2 added)

theorem addFields_of_dotted (entries : List (String × RuleEntry)) :
    ∀ rules : MockRules, (Ordered.keys entries).find? isPlain = none →
      ∃ done, addFields entries rules = .ok done := by
  induction entries with
  | nil => exact fun rules _ => ⟨rules, rfl⟩
  | cons entry rest ih =>
    intro rules none
    obtain ⟨key, entry⟩ := entry
    rw [Ordered.keys_cons, List.find?_cons] at none
    cases split : splitKey? key.toList with
    | none =>
      have plain : isPlain key = true :=
        decide_eq_true ((splitKey?_eq_none_iff key.toList).mp split)
      simp [plain] at none
    | some parts =>
      rw [addFields, split]
      refine ih _ ?_
      split at none
      · cases none
      · exact none

theorem ruleForType?_foldl (entries : List (String × RuleEntry)) :
    ∀ rules : MockRules, (Ordered.keys entries).Nodup →
      ∀ type,
        (entries.foldl (fun rules entry => rules.withType entry.1 entry.2.rule) rules).ruleForType?
            type =
          ((Ordered.get? entries type).map RuleEntry.rule).or (rules.ruleForType? type) := by
  induction entries with
  | nil => exact fun _ _ _ => rfl
  | cons entry rest ih =>
    intro rules distinct type
    obtain ⟨key, entry⟩ := entry
    rw [Ordered.keys_cons, List.nodup_cons] at distinct
    rw [List.foldl_cons, ih _ distinct.2 type, Ordered.get?, MockRules.ruleForType?,
      MockRules.withType, Ordered.get?_insert]
    by_cases same : key = type
    · subst same
      rw [(Ordered.get?_eq_none_iff rest key).mpr distinct.1, if_pos rfl, if_pos rfl]
      rfl
    · rw [if_neg same, if_neg same]
      rfl

/-- Rules of types are apart from those of fields and from the formatters. -/
theorem foldl_withType (entries : List (String × RuleEntry)) :
    ∀ rules : MockRules,
      (entries.foldl (fun rules entry => rules.withType entry.1 entry.2.rule)
          rules).fields = rules.fields ∧
        (entries.foldl (fun rules entry => rules.withType entry.1 entry.2.rule) rules).formatters =
          rules.formatters := by
  induction entries with
  | nil => exact fun _ => ⟨rfl, rfl⟩
  | cons entry rest ih => exact fun rules => ih (rules.withType entry.1 entry.2.rule)

/-- The entries for types, in the order of the text. -/
def typeEntries (text : String) : List (String × Tree) :=
  Tree.entries ((Tree.read text).1.part? "types" 2)

/-- The entries for fields, in the order of the text. -/
def fieldEntries (text : String) : List (String × Tree) :=
  Tree.entries ((Tree.read text).1.part? "fields" 3)

/-- A table of a file holds the entries of its part of the text, and no others. -/
theorem tabled_of_part {part : Option Tree} {table : Ordered String RuleEntry}
    (reads : Tree.ReadsPart (fun tree table => Tree.readTable (Tree.maxDepth - 1) tree = .ok table)
      [] part table) : Tree.Tabled (Tree.entries part) [] table := by
  cases reads with
  | given read => exact Tree.tabled_of_readTable (Nat.sub_le _ 1) read
  | absent => exact .nil []

theorem tabled_of_parse? {text : String} {file : RulesFile} (read : parse? text = some file) :
    Tree.Tabled (typeEntries text) [] file.types ∧
      Tree.Tabled (fieldEntries text) [] file.fields := by
  have record : Tree.readRulesFile Tree.maxDepth (Tree.read text).1 = .ok file := by
    rw [parse?, Tree.readWhole] at read
    cases inside : Tree.readRulesFile Tree.maxDepth (Tree.read text).1 with
    | error fault => simp [inside, Except.toOption] at read
    | ok file' =>
      simp only [inside] at read
      split at read
      · cases read
      · exact congrArg Except.ok (Option.some.inj read)
  rw [Tree.readRulesFile] at record
  constructor
  · refine tabled_of_part (Tree.readsPart_of_record types [_, _] ⟨?_, ?_⟩ (by decide) record)
    · intro tree draft next here
      obtain ⟨table, given, rfl⟩ := Tree.exists_of_map here
      exact given
    · intro other member different tree draft next here
      simp only [List.cons_append, List.nil_append, List.mem_cons, List.not_mem_nil,
        or_false] at member
      rcases member with rfl | rfl | rfl | rfl
      · obtain ⟨seed, -, rfl⟩ := Tree.exists_of_map here
        rfl
      · obtain ⟨size, -, rfl⟩ := Tree.exists_of_map here
        rfl
      · exact absurd rfl different
      · obtain ⟨table, -, rfl⟩ := Tree.exists_of_map here
        rfl
  · refine tabled_of_part (Tree.readsPart_of_record fields [_, _, _] ⟨?_, ?_⟩ (by decide) record)
    · intro tree draft next here
      obtain ⟨table, given, rfl⟩ := Tree.exists_of_map here
      exact given
    · intro other member different tree draft next here
      simp only [List.cons_append, List.nil_append, List.mem_cons, List.not_mem_nil,
        or_false] at member
      rcases member with rfl | rfl | rfl | rfl
      · obtain ⟨seed, -, rfl⟩ := Tree.exists_of_map here
        rfl
      · obtain ⟨size, -, rfl⟩ := Tree.exists_of_map here
        rfl
      · obtain ⟨table, -, rfl⟩ := Tree.exists_of_map here
        rfl
      · exact absurd rfl different

/-- The table of rules that a text determines: for each type, and for each pair of a type and a
field whose key is divided by its first dot, the rule of the last entry under that key. -/
structure TableOf (text : String) (rules : MockRules) : Prop where
  types : ∀ type,
      Option.Rel Tree.Gives (Ordered.last? (typeEntries text) type) (rules.ruleForType? type)
  fields : ∀ type field : String, '.' ∉ type.toList →
      Option.Rel Tree.Gives (Ordered.last? (fieldEntries text) (type ++ "." ++ field))
        (rules.ruleForField? type field)
  /-- No key is divided so that a dot is left in the type. -/
  others : ∀ type field : String, '.' ∈ type.toList → rules.ruleForField? type field = none
  formatters : rules.formatters = MockRules.standardFormatters

/-- The rule of an entry that was read is given by the entry of the text. -/
theorem gives_of_tabled {members : List (String × Tree)} {table : Ordered String RuleEntry}
    (tabled : Tree.Tabled members [] table) (key : String) :
    Option.Rel Tree.Gives (Ordered.last? members key)
      ((Ordered.get? table key).map RuleEntry.rule) := by
  have reads := tabled.reads key
  generalize Ordered.last? members key = last, Ordered.get? table key = found at reads ⊢
  cases reads with
  | given entered =>
    obtain ⟨entry, rfl, gives⟩ := entered
    exact .some gives
  | absent => exact .none

theorem tableOf_of_rules {text : String} {file : RulesFile} (read : parse? text = some file)
    {rules : MockRules} (built : file.rules = .ok rules) : TableOf text rules := by
  obtain ⟨types, fields⟩ := tabled_of_parse? read
  have added := fieldsAdded_of_addFields file.fields _ rules (fields.distinct List.nodup_nil) built
  obtain ⟨noFields, formatters⟩ := foldl_withType file.types .standard
  refine ⟨fun type => ?_, fun type field plain => ?_, fun type field dotted => ?_,
    added.formatters.trans formatters⟩
  · have none : MockRules.standard.ruleForType? type = none := rfl
    have folded := ruleForType?_foldl file.types .standard (types.distinct List.nodup_nil) type
    rw [MockRules.ruleForType?, ← added.types, none, Option.or_none] at folded
    rw [MockRules.ruleForType?, folded]
    exact gives_of_tabled types type
  · have none : Ordered.get? MockRules.standard.fields (type, field) = none := rfl
    rw [added.named type field plain, MockRules.ruleForField?, noFields, none, Option.or_none]
    exact gives_of_tabled fields (type ++ "." ++ field)
  · rw [added.unnamed type field dotted, MockRules.ruleForField?, noFields]
    rfl

/-- A file gives no rules at its first key of a field that has no dot, and else the table of its
text. -/
theorem rules_of_parse? {text : String} {file : RulesFile} (read : parse? text = some file) :
    ((∃ error, file.rules = .error error) ↔ ∃ entry ∈ fieldEntries text, '.' ∉ entry.1.toList) ∧
      (∀ key tree,
        (fieldEntries text).find? (fun entry => '.' ∉ entry.1.toList) = some (key, tree) →
          file.rules = .error (.invalidMockRule key "field rules are keyed as Type.field")) ∧
      ∀ rules, file.rules = .ok rules → TableOf text rules := by
  have first : (Ordered.keys file.fields).find? isPlain =
      ((fieldEntries text).find? fun entry => '.' ∉ entry.1.toList).map Prod.fst := by
    rw [(tabled_of_parse? read).2.first isPlain, Ordered.keys_nil, List.nil_append, List.find?_map]
    rfl
  refine ⟨⟨?_, ?_⟩, ?_, fun rules built => tableOf_of_rules read built⟩
  · rintro ⟨error, failed⟩
    cases found : (fieldEntries text).find? fun entry => '.' ∉ entry.1.toList with
    | none =>
      rw [found] at first
      obtain ⟨rules, added⟩ := addFields_of_dotted file.fields
        (file.types.foldl (fun rules entry => rules.withType entry.1 entry.2.rule) .standard) first
      cases failed.symm.trans added
    | some entry =>
      have plain := List.find?_some found
      exact ⟨entry, List.mem_of_find?_eq_some found, of_decide_eq_true plain⟩
  · rintro ⟨entry, member, plain⟩
    cases found : (fieldEntries text).find? fun entry => '.' ∉ entry.1.toList with
    | none => exact absurd (decide_eq_true plain) (List.find?_eq_none.mp found entry member)
    | some entry =>
      rw [found] at first
      exact ⟨_, addFields_of_plain file.fields _ first⟩
  · intro key tree found
    rw [found] at first
    exact addFields_of_plain file.fields _ first

namespace Chairlift

/-- A file with a key that comes twice, bounds in either order, and fields with a dot in their
name. -/
def text : String :=
  r#"{"types":{"Lift":3,"Lift":{"listSize":[5,2]}},"# ++
    r#""fields":{"Lift.runs.all":[[4,1]],"Lift.open":[1]}}"#

def file : RulesFile :=
  ⟨none, none, [("Lift", .listSize 5 2)],
    [("Lift.runs.all", .listSize 4 1), ("Lift.open", .constant (.array [.ofNat 1]))]⟩

theorem parse?_text : parse? text = some file := by decide +kernel

theorem rules_of_text :
    parse? text = some file ∧ ∃ rules, file.rules = .ok rules ∧ TableOf text rules ∧
      rules.ruleForType? "Lift" = some (.listSize (.between 2 5)) ∧
      rules.ruleForField? "Lift" "runs.all" = some (.listSize (.between 1 4)) :=
  ⟨parse?_text, _, rfl, (rules_of_parse? parse?_text).2.2 _ rfl, rfl, rfl⟩

end Chairlift

end RulesFile

end MockGraph
