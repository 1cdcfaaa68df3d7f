import MockGraph.Proofs.Json.Numerals
set_option autoImplicit false

namespace MockGraph

/-- What the reader takes the text of a number for. -/
def Number.reread (n : Number) : Option Number := (Tree.readNumber n.text).bind (·.1)

theorem Number.readNumber_text (n : Number) {rest : List Char} (stop : EndsNumber rest) :
    Tree.readNumber (n.text ++ rest) = some (n.reread, rest) := by
  obtain ⟨numeral, same⟩ := n.isNumeral_text
  rw [Number.reread, ← same, Tree.readNumber_append numeral stop, Tree.readNumber_text,
    Option.bind_some]

/-- A character that a number begins with. -/
def StartsNumber (c : Char) : Prop := c.isDigit = true ∨ c = '-'

theorem StartsNumber.ne {c d : Char} (starts : StartsNumber c)
    (other : d.isDigit = false ∧ d ≠ '-') : c ≠ d := by
  rintro rfl
  simp [StartsNumber, other] at starts

theorem Number.text_front (n : Number) : ∃ c cs, n.text = c :: cs ∧ StartsNumber c := by
  obtain ⟨numeral, same⟩ := n.isNumeral_text
  obtain ⟨first, others, split⟩ := List.exists_cons_of_ne_nil numeral.wholeDigits.some
  have digit := numeral.wholeDigits.all first (by simp [split])
  rw [← same]
  cases negative : numeral.negative with
  | true => exact ⟨'-', _, by simp [Numeral.text, Numeral.sign, negative]; rfl, .inr rfl⟩
  | false =>
    exact ⟨first, _, by simp [Numeral.text, Numeral.sign, negative, split]; rfl, .inl digit⟩

theorem Tree.skipBlanks_cons {c : Char} (solid : isBlank c = false) (cs : List Char) :
    skipBlanks (c :: cs) = c :: cs := by
  simp [skipBlanks, solid]

namespace Json

mutual

/-- The tree that the text of a value holds. -/
def tree : Json → Tree
  | null => .null
  | bool b => .bool b
  | number n => .number n.reread
  | string s => .string (some s)
  | array items => .array (trees items)
  | object members => .object (memberTrees members)

def trees : List Json → List Tree
  | [] => []
  | item :: items => tree item :: trees items

def memberTrees : List (String × Json) → List (Option String × Tree)
  | [] => []
  | (name, value) :: members => (some name, tree value) :: memberTrees members

end

theorem trees_eq_map (items : List Json) : trees items = items.map tree := by
  induction items with
  | nil => rfl
  | cons item items ih => simp [trees, ih]

theorem memberTrees_eq_map (members : List (String × Json)) :
    memberTrees members = members.map fun member => (some member.1, tree member.2) := by
  induction members with
  | nil => rfl
  | cons member members ih => simp [memberTrees, ih]

mutual

theorem length_write : ∀ (value : Json) (rest : List Char), rest.length < (value.write rest).length
  | null, rest | bool true, rest | bool false, rest => by
    simp only [write, List.length_cons]
    omega
  | number n, rest => by
    obtain ⟨c, cs, same, _⟩ := n.text_front
    simp only [write, same, List.cons_append, List.length_cons, List.length_append]
    omega
  | string s, rest => by
    simp only [write, writeString, List.length_cons, List.length_append]
    omega
  | array [], rest | object [], rest => by
    simp only [write, List.length_cons]
    omega
  | array (item :: items), rest => by
    have first := length_write item (writeItems items rest)
    have others := length_writeItems items rest
    simp only [write, List.length_cons]
    omega
  | object ((name, value) :: members), rest => by
    have first := length_write value (writeMembers members rest)
    have others := length_writeMembers members rest
    simp only [write, writeString, List.length_cons, List.length_append]
    omega

theorem length_writeItems :
    ∀ (items : List Json) (rest : List Char), rest.length < (writeItems items rest).length
  | [], rest => by simp [writeItems]
  | item :: items, rest => by
    have first := length_write item (writeItems items rest)
    have others := length_writeItems items rest
    simp only [writeItems, List.length_cons]
    omega

theorem length_writeMembers : ∀ (members : List (String × Json)) (rest : List Char),
    rest.length < (writeMembers members rest).length
  | [], rest => by simp [writeMembers]
  | (name, value) :: members, rest => by
    have first := length_write value (writeMembers members rest)
    have others := length_writeMembers members rest
    simp only [writeMembers, writeString, List.length_cons, List.length_append]
    omega

end

theorem endsNumber_writeItems (items : List Json) (rest : List Char) :
    EndsNumber (writeItems items rest) := by
  cases items <;> simp [EndsNumber, writeItems, isNumeral]

theorem endsNumber_writeMembers (members : List (String × Json)) (rest : List Char) :
    EndsNumber (writeMembers members rest) := by
  cases members <;> simp [EndsNumber, writeMembers, isNumeral]

/-- A value begins with a character that is no blank and closes no array. -/
theorem write_front (value : Json) (rest : List Char) :
    ∃ c cs, value.write rest = c :: cs ∧ Tree.isBlank c = false ∧ c ≠ ']' := by
  cases value with
  | null => exact ⟨_, _, rfl, rfl, by decide⟩
  | bool b => cases b <;> exact ⟨_, _, rfl, rfl, by decide⟩
  | number n =>
    obtain ⟨c, cs, same, starts⟩ := n.text_front
    refine ⟨c, cs ++ rest, by simp [write, same], ?_, starts.ne (by decide)⟩
    simp [Tree.isBlank, starts.ne]
  | string s => exact ⟨_, _, rfl, rfl, by decide⟩
  | array items => cases items <;> exact ⟨_, _, rfl, rfl, by decide⟩
  | object members => cases members <;> exact ⟨_, _, rfl, rfl, by decide⟩

theorem skipBlanks_write (value : Json) (rest : List Char) :
    Tree.skipBlanks (value.write rest) = value.write rest := by
  obtain ⟨c, cs, same, solid, _⟩ := value.write_front rest
  rw [same, Tree.skipBlanks_cons solid]

mutual

/-- The reader finds the tree of a value at its text, and stops right after it. -/
theorem readValue_write :
    ∀ (value : Json) (rest : List Char) (fuel : Nat), EndsNumber rest →
      (value.write rest).length ≤ fuel + rest.length →
      Tree.readValue fuel (value.write rest) = (value.tree, rest)
  | value, rest, 0, _, room => by
    have := value.length_write rest
    omega
  | null, rest, fuel + 1, _, _ =>
    by simp [write, Tree.readValue, Tree.skipBlanks_cons, Tree.isBlank, tree]
  | bool true, rest, fuel + 1, _, _ =>
    by simp [write, Tree.readValue, Tree.skipBlanks_cons, Tree.isBlank, tree]
  | bool false, rest, fuel + 1, _, _ =>
    by simp [write, Tree.readValue, Tree.skipBlanks_cons, Tree.isBlank, tree]
  | number n, rest, fuel + 1, stop, _ => by
    obtain ⟨c, cs, same, starts⟩ := n.text_front
    have read := n.readNumber_text stop
    have solid := skipBlanks_write (number n) rest
    simp only [write, same, List.cons_append] at solid read ⊢
    simp only [Tree.readValue, solid]
    split <;> simp_all [starts.ne]
    simp [tree]
  | string s, rest, fuel + 1, _, _ => by
    have read := Tree.readString_toList s rest
    simp [write, writeString, Tree.readValue, Tree.skipBlanks_cons, Tree.isBlank, tree, read]
  | array [], rest, fuel + 1, _, _ => by
    simp [write, Tree.readValue, Tree.skipBlanks_cons, Tree.isBlank, tree, trees]
  | array (item :: items), rest, fuel + 1, stop, room => by
    have inner := readItems_write item items rest fuel stop (by simp [write] at room; omega)
    obtain ⟨c, cs, same, solid, notClosing⟩ := item.write_front (writeItems items rest)
    rw [same] at inner
    simp [write, Tree.readValue, Tree.skipBlanks_cons, Tree.isBlank, same,
      Tree.skipBlanks_cons solid, notClosing, tree, inner]
  | object [], rest, fuel + 1, _, _ => by
    simp [write, Tree.readValue, Tree.skipBlanks_cons, Tree.isBlank, tree, memberTrees]
  | object ((name, value) :: members), rest, fuel + 1, stop, room => by
    have inner :=
      readMembers_write name value members rest fuel stop (by simp [write] at room; omega)
    simp only [writeString] at inner
    simp [write, writeString, Tree.readValue, Tree.skipBlanks_cons, Tree.isBlank, tree, inner]

theorem readItems_write :
    ∀ (item : Json) (items : List Json) (rest : List Char) (fuel : Nat), EndsNumber rest →
      (item.write (writeItems items rest)).length ≤ fuel + rest.length →
      Tree.readItems fuel (item.write (writeItems items rest)) = (trees (item :: items), rest)
  | item, items, rest, 0, _, room => by
    have first := item.length_write (writeItems items rest)
    have others := length_writeItems items rest
    omega
  | item, items, rest, fuel + 1, stop, room => by
    have others := length_writeItems items rest
    have first :=
      readValue_write item (writeItems items rest) fuel (endsNumber_writeItems items rest)
        (by omega)
    cases items with
    | nil =>
      simp only [writeItems] at first ⊢
      simp [Tree.readItems, first, Tree.skipBlanks_cons, Tree.isBlank, trees]
    | cons next items =>
      have ahead := item.length_write (writeItems (next :: items) rest)
      have later :=
        readItems_write next items rest fuel stop
          (by simp only [writeItems, List.length_cons] at *; omega)
      simp only [writeItems] at first ⊢
      simp [Tree.readItems, first, later, Tree.skipBlanks_cons, Tree.isBlank, trees]

theorem readMembers_write :
    ∀ (name : String) (value : Json) (members : List (String × Json)) (rest : List Char)
      (fuel : Nat), EndsNumber rest →
      (writeString name (':' :: value.write (writeMembers members rest))).length ≤
        fuel + rest.length →
      Tree.readMembers fuel (writeString name (':' :: value.write (writeMembers members rest))) =
        (memberTrees ((name, value) :: members), rest)
  | name, value, members, rest, 0, _, room => by
    have first := value.length_write (writeMembers members rest)
    have others := length_writeMembers members rest
    simp [writeString] at room
    omega
  | name, value, members, rest, fuel + 1, stop, room => by
    have others := length_writeMembers members rest
    have named := Tree.readString_toList name (':' :: value.write (writeMembers members rest))
    have first :=
      readValue_write value (writeMembers members rest) fuel (endsNumber_writeMembers members rest)
        (by simp [writeString] at room; omega)
    cases members with
    | nil =>
      simp only [writeMembers] at named first ⊢
      simp [Tree.readMembers, writeString, named, first, Tree.skipBlanks_cons, Tree.isBlank,
        memberTrees]
    | cons next members =>
      obtain ⟨nextName, next⟩ := next
      have ahead := value.length_write (writeMembers ((nextName, next) :: members) rest)
      have later := readMembers_write nextName next members rest fuel stop
        (by simp [writeString, writeMembers] at room ahead ⊢; omega)
      simp only [writeMembers, writeString] at named first later ⊢
      simp [Tree.readMembers, named, first, later, Tree.skipBlanks_cons, Tree.isBlank, memberTrees]

end

/-- The text of a value holds its tree, and nothing after it. -/
theorem read_text (value : Json) : Tree.read value.text = (value.tree, false) := by
  have found := readValue_write value [] ((value.write []).length + 1) nofun (by simp)
  simp [Tree.read, text, found, Tree.skipBlanks]

/-- A value that its own text gives back is what its tree stands for. -/
theorem value_tree_of_parse? {value : Json} (back : Json.parse? value.text = some value) :
    value.tree.value Tree.maxDepth = .ok value := by
  rw [Json.parse?, read_text] at back
  cases found : value.tree.value Tree.maxDepth with
  | error fault => simp [found, Except.toOption] at back
  | ok other =>
    have same : other = value := by simpa [found, Except.toOption] using back
    rw [same]

end Json

end MockGraph
