import MockGraph.Syntax.Parser
set_option autoImplicit false

namespace MockGraph

/-- A letter or an underscore, then letters, digits and underscores. -/
def Syntax.IsName (text : String) : Prop :=
  ∃ first rest, text.toList = first :: rest ∧ Token.isNameStart first = true ∧
    ∀ c ∈ rest, Token.isNameRest c = true

instance (text : String) : Decidable (Syntax.IsName text) :=
  match spelled : text.toList with
  | [] => .isFalse fun ⟨_, _, same, _⟩ => nomatch spelled.symm.trans same
  | first :: rest =>
    decidable_of_iff
      (Syntax.Token.isNameStart first = true ∧ rest.all Syntax.Token.isNameRest = true)
      ⟨fun ⟨starts, goesOn⟩ => ⟨first, rest, spelled, starts, List.all_eq_true.mp goesOn⟩,
        fun ⟨_, _, same, starts, goesOn⟩ => by
          cases spelled.symm.trans same
          exact ⟨starts, List.all_eq_true.mpr goesOn⟩⟩

namespace TypeRef

/-- The types that are built from names by lists and marks. -/
inductive Built : TypeRef → Prop
  | named {name : String} : Syntax.IsName name → Built (.named name)
  | list {item : TypeRef} : Built item → Built (.list item)
  | required {type : TypeRef} : Built type → Built type.required

/-- No mark stands directly on another one, at any depth. -/
def Collapsed : TypeRef → Prop
  | named _ => True
  | list item => item.Collapsed
  | nonNull inner => inner.isNonNull = false ∧ inner.Collapsed

theorem required_eq (type : TypeRef) :
    type.required = if type.isNonNull then type else .nonNull type := by
  cases type <;> rfl

theorem Collapsed.required {type : TypeRef} (collapsed : type.Collapsed) :
    type.required.Collapsed := by
  rw [required_eq]
  split
  · exact collapsed
  · rename_i unmarked
    exact ⟨Bool.eq_false_iff.mpr unmarked, collapsed⟩

theorem namedType_required (type : TypeRef) : type.required.namedType = type.namedType := by
  cases type <;> rfl

/-- What is built has no mark on a mark, and any type without one is built if its name is one. -/
theorem built_iff (type : TypeRef) :
    type.Built ↔ Syntax.IsName type.namedType ∧ type.Collapsed := by
  constructor
  · intro built
    induction built with
    | named isName => exact ⟨isName, trivial⟩
    | list _ ih => exact ih
    | @required type _ ih => exact ⟨(namedType_required type).symm ▸ ih.1, ih.2.required⟩
  · rintro ⟨isName, collapsed⟩
    induction type with
    | named name => exact .named isName
    | list item ih => exact .list (ih isName collapsed)
    | nonNull inner ih =>
      have marked : inner.required = .nonNull inner := by
        rw [required_eq, if_neg (by simp [collapsed.1])]
      exact marked ▸ .required (ih isName collapsed.2)

def tokens : TypeRef → List Syntax.Token
  | named name => [.name name]
  | list item => .sign '[' :: item.tokens ++ [.sign ']']
  | nonNull inner => inner.tokens ++ [.sign '!']

end TypeRef

namespace Syntax

/-- A type as it is written. A mark stands after a name or after the bracket that closes a list. -/
inductive WrittenType where
  | named (name : String)
  | nonNullNamed (name : String)
  | list (item : WrittenType)
  | nonNullList (item : WrittenType)

namespace WrittenType

/-- The type that a written one stands for. -/
def lower : WrittenType → TypeRef
  | named name => .named name
  | nonNullNamed name => (TypeRef.named name).required
  | list item => .list item.lower
  | nonNullList item => (TypeRef.list item.lower).required

/-- The grammar of types. -/
inductive Spelled : WrittenType → List Token → Prop
  | named (name : String) : Spelled (.named name) [.name name]
  | nonNullNamed (name : String) : Spelled (.nonNullNamed name) [.name name, .sign '!']
  | list {item : WrittenType} {tokens : List Token} : Spelled item tokens →
      Spelled (.list item) (.sign '[' :: tokens ++ [.sign ']'])
  | nonNullList {item : WrittenType} {tokens : List Token} : Spelled item tokens →
      Spelled (.nonNullList item) (.sign '[' :: tokens ++ [.sign ']', .sign '!'])

theorem lower_injective : Function.Injective lower := by
  intro written other same
  induction written generalizing other with
  | named name | nonNullNamed name => cases other <;> simp_all [lower, TypeRef.required]
  | list item ih | nonNullList item ih =>
    cases other <;>
      simp only [lower, TypeRef.required, TypeRef.list.injEq, TypeRef.nonNull.injEq,
        reduceCtorEq] at same
    rw [ih same]

end WrittenType

open Phrase WrittenType

def WrittenType.isMarked : WrittenType → Bool
  | named _ | list _ => false
  | nonNullNamed _ | nonNullList _ => true

/-- What is spelled is read, whatever follows, unless that is a mark that could belong to it. -/
theorem parseTypeWithin_of_spelled {written : WrittenType} {tokens : List Token}
    (spelled : written.Spelled tokens) :
    ∀ (fuel : Nat) (rest : List Token), tokens.length ≤ fuel →
      (written.isMarked = true ∨ sign '!' rest = none) →
      parseTypeWithin fuel (tokens ++ rest) = some (written.lower, rest) := by
  induction spelled with
  | named name =>
    rintro (_ | fuel) rest enough unmarked
    · cases enough
    · have ends : sign '!' rest = none := unmarked.resolve_left Bool.false_ne_true
      simp only [parseTypeWithin, List.singleton_append, parseBareType, ends]
      rfl
  | nonNullNamed name =>
    rintro (_ | fuel) rest enough -
    · cases enough
    · rfl
  | list inner ih =>
    rintro (_ | fuel) rest enough unmarked
    · cases enough
    · have ends : sign '!' rest = none := unmarked.resolve_left Bool.false_ne_true
      have item := ih fuel (.sign ']' :: rest) (by simp at enough; omega) (.inr rfl)
      have closes : sign ']' (.sign ']' :: rest) = some rest := rfl
      simp [parseTypeWithin, parseBareType, item, closes, ends, lower]
  | nonNullList inner ih =>
    rintro (_ | fuel) rest enough -
    · cases enough
    · have item := ih fuel (.sign ']' :: .sign '!' :: rest) (by simp at enough; omega) (.inr rfl)
      simp [parseTypeWithin, parseBareType, item, sign, lower]

theorem Phrase.eq_of_sign {c : Char} {tokens rest : List Token} (read : sign c tokens = some rest) :
    tokens = .sign c :: rest := by
  unfold sign at read
  split at read
  · split at read
    · rename_i same
      obtain rfl := Option.some.inj read
      rw [same]
    · cases read
  · cases read

theorem spelled_of_parseTypeWithin (fuel : Nat) :
    ∀ (tokens : List Token) (type : TypeRef) (rest : List Token),
      parseTypeWithin fuel tokens = some (type, rest) →
        ∃ written spelled, tokens = spelled ++ rest ∧ WrittenType.Spelled written spelled ∧
          written.lower = type := by
  induction fuel with
  | zero =>
    intro tokens type rest read
    cases read
  | succ fuel ih =>
    intro tokens type rest read
    rw [parseTypeWithin] at read
    split at read
    · cases read
    · rename_i bare after readBare
      have mark : after = .sign '!' :: rest ∧ bare.required = type ∨
          after = rest ∧ bare = type := by
        split at read
        · rename_i unmarked marked
          cases read
          exact .inl ⟨eq_of_sign marked, rfl⟩
        · cases read
          exact .inr ⟨rfl, rfl⟩
      unfold parseBareType at readBare
      split at readBare
      · cases readBare
        rcases mark with ⟨rfl, rfl⟩ | ⟨rfl, rfl⟩
        · exact ⟨_, _, rfl, .nonNullNamed _, rfl⟩
        · exact ⟨_, _, rfl, .named _, rfl⟩
      · simp only [Option.bind_eq_bind, Option.bind_eq_some_iff, Option.pure_def,
          Option.some.injEq] at readBare
        obtain ⟨⟨item, _⟩, readItem, closed, closes, same⟩ := readBare
        cases same
        obtain ⟨written, spelled, rfl, isSpelled, rfl⟩ := ih _ _ _ readItem
        obtain rfl := eq_of_sign closes
        rcases mark with ⟨rfl, rfl⟩ | ⟨rfl, rfl⟩
        · exact ⟨_, _, by simp, .nonNullList isSpelled, rfl⟩
        · exact ⟨_, _, by simp, .list isSpelled, rfl⟩
      · cases readBare

/-- The tokens of a type are read as what the grammar makes of them, and nothing else is. -/
theorem parseType_eq_some_iff {tokens : List Token} {type : TypeRef} :
    parseType tokens = some (type, []) ↔
      ∃ written, WrittenType.Spelled written tokens ∧ written.lower = type := by
  constructor
  · intro read
    obtain ⟨written, spelled, same, isSpelled, lowered⟩ := spelled_of_parseTypeWithin _ _ _ _ read
    rw [List.append_nil] at same
    exact ⟨written, same ▸ isSpelled, lowered⟩
  · rintro ⟨written, isSpelled, rfl⟩
    have read := parseTypeWithin_of_spelled isSpelled tokens.length [] (Nat.le_refl _) (.inr rfl)
    rwa [List.append_nil] at read

theorem WrittenType.Spelled.eq {written other : WrittenType} {tokens : List Token}
    (spelled : written.Spelled tokens) (again : other.Spelled tokens) : written = other := by
  have read := parseType_eq_some_iff.mpr ⟨written, spelled, rfl⟩
  have readAgain := parseType_eq_some_iff.mpr ⟨other, again, rfl⟩
  exact lower_injective (congrArg Prod.fst (Option.some.inj (read.symm.trans readAgain)))

theorem exists_spelled : ∀ type : TypeRef, type.Collapsed →
    ∃ written, WrittenType.Spelled written type.tokens ∧ written.lower = type
  | .named name, _ => ⟨_, .named name, rfl⟩
  | .nonNull (.named name), _ => ⟨_, .nonNullNamed name, rfl⟩
  | .list item, collapsed => by
    obtain ⟨written, spelled, lowered⟩ := exists_spelled item collapsed
    exact ⟨_, .list spelled, congrArg TypeRef.list lowered⟩
  | .nonNull (.list item), collapsed => by
    obtain ⟨written, spelled, lowered⟩ := exists_spelled item collapsed.2
    refine ⟨.nonNullList written, ?_, by rw [lower, lowered]; rfl⟩
    rw [TypeRef.tokens, TypeRef.tokens, List.append_assoc]
    exact .nonNullList spelled
  | .nonNull (.nonNull inner), collapsed => nomatch collapsed.1

namespace Token

theorem readAll?_sign {c : Char} (bracket : c ∈ ['[', ']', '!']) (fuel : Nat) (rest : List Char) :
    readAll? (fuel + 1) (c :: rest) = (readAll? fuel rest).map (.sign c :: ·) := by
  simp only [List.mem_cons, List.not_mem_nil, or_false] at bracket
  rcases bracket with rfl | rfl | rfl <;> rfl

/-- A character at which no name starts is none at which one does. -/
theorem ne_of_isNameStart {c other : Char} (starts : isNameStart c = true)
    (no : isNameStart other = false) : c ≠ other := by
  rintro rfl
  exact absurd (starts.symm.trans no) (by decide)

theorem isSign_of_isNameStart {c : Char} (starts : isNameStart c = true) : isSign c = false := by
  have none : ("!$&():=@[]{|}".toList.all fun sign => !isNameStart sign) = true := by decide
  refine Bool.eq_false_iff.mpr fun isSign => ?_
  have no : (!isNameStart c) = true := List.all_eq_true.mp none c (List.contains_iff_mem.mp isSign)
  exact absurd (starts.symm.trans (Bool.not_eq_true' _ |>.mp no)) (by decide)

theorem isIgnored_of_isNameStart {c : Char} (starts : isNameStart c = true) :
    isIgnored c = false := by
  have mark : c.toNat ≠ 0xFEFF := fun same =>
    ne_of_isNameStart starts (by decide : isNameStart (Char.ofNat 0xFEFF) = false)
      (same ▸ (Char.ofNat_toNat c).symm)
  simp only [isIgnored, Bool.or_eq_false_iff, beq_eq_false_iff_ne]
  exact ⟨⟨⟨⟨⟨ne_of_isNameStart starts (by decide), ne_of_isNameStart starts (by decide)⟩,
    ne_of_isNameStart starts (by decide)⟩, ne_of_isNameStart starts (by decide)⟩,
    ne_of_isNameStart starts (by decide)⟩, mark⟩

theorem readOne?_name {first : Char} {others rest : List Char} (starts : isNameStart first = true)
    (goesOn : ∀ c ∈ others, isNameRest c = true) (ends : ∀ c ∈ rest.head?, isNameRest c = false) :
    readOne? (first :: (others ++ rest)) =
      some (.name (String.ofList (first :: others)), rest) := by
  have stops : rest.takeWhile isNameRest = [] ∧ rest.dropWhile isNameRest = rest := by
    cases rest with
    | nil => exact ⟨rfl, rfl⟩
    | cons c after =>
      have no : ¬isNameRest c = true := by simp [ends c rfl]
      exact ⟨List.takeWhile_cons_of_neg no, List.dropWhile_cons_of_neg no⟩
  unfold readOne?
  split
  case h_4 c after _ _ _ same =>
    cases same
    rw [if_neg (by simp [isSign_of_isNameStart starts]), if_pos starts,
      List.takeWhile_append_of_pos goesOn, List.dropWhile_append_of_pos goesOn, stops.1, stops.2,
      List.append_nil]
  all_goals
    rename_i same
    first
    | exact absurd (List.cons.inj same).1 (ne_of_isNameStart starts (by decide))
    | cases same

theorem readAll?_name {text : String} (isName : IsName text) (fuel : Nat) {rest : List Char}
    (ends : ∀ c ∈ rest.head?, isNameRest c = false) :
    readAll? (fuel + 1) (text.toList ++ rest) = (readAll? fuel rest).map (.name text :: ·) := by
  obtain ⟨first, others, spelled, starts, goesOn⟩ := isName
  rw [spelled, List.cons_append, readAll?, if_neg (by simp [isIgnored_of_isNameStart starts]),
    if_neg (ne_of_isNameStart starts (by decide)), readOne?_name starts goesOn ends, ← spelled,
    String.ofList_toList]

/-- A type is read as its tokens, if no letter follows that could belong to its name. -/
theorem readAll?_text (type : TypeRef) (isName : IsName type.namedType) :
    ∀ (fuel : Nat) (rest : List Char) (tokens : List Token),
      (∀ c ∈ rest.head?, isNameRest c = false) → readAll? fuel rest = some tokens →
        readAll? (fuel + type.tokens.length) (type.text.toList ++ rest) =
          some (type.tokens ++ tokens) := by
  induction type with
  | named name =>
    intro fuel rest tokens ends read
    rw [TypeRef.text, TypeRef.tokens]
    exact (readAll?_name isName fuel ends).trans (by rw [read]; rfl)
  | list item ih =>
    intro fuel rest tokens ends read
    have close : readAll? (fuel + 1) (']' :: rest) = some (.sign ']' :: tokens) := by
      rw [readAll?_sign (by decide), read]
      rfl
    have inner := ih isName (fuel + 1) (']' :: rest) (.sign ']' :: tokens) (by simp; decide) close
    have length : fuel + (TypeRef.list item).tokens.length = fuel + 1 + item.tokens.length + 1 := by
      simp [TypeRef.tokens]
      omega
    have text : (TypeRef.list item).text.toList ++ rest =
        '[' :: (item.text.toList ++ ']' :: rest) := by
      simp [TypeRef.text]
    rw [length, text, readAll?_sign (by decide), inner]
    simp [TypeRef.tokens]
  | nonNull inner ih =>
    intro fuel rest tokens ends read
    have mark : readAll? (fuel + 1) ('!' :: rest) = some (.sign '!' :: tokens) := by
      rw [readAll?_sign (by decide), read]
      rfl
    have marked := ih isName (fuel + 1) ('!' :: rest) (.sign '!' :: tokens) (by simp; decide) mark
    have length : fuel + (TypeRef.nonNull inner).tokens.length =
        fuel + 1 + inner.tokens.length := by
      simp [TypeRef.tokens]
      omega
    have text : (TypeRef.nonNull inner).text.toList ++ rest = inner.text.toList ++ '!' :: rest := by
      simp [TypeRef.text]
    rw [length, text, marked]
    simp [TypeRef.tokens]

end Token

/-- A text of a type has at least as many characters as tokens. -/
theorem length_tokens_le (type : TypeRef) (isName : IsName type.namedType) :
    type.tokens.length ≤ type.text.toList.length := by
  induction type with
  | named name =>
    obtain ⟨first, others, spelled, -⟩ := isName
    change 1 ≤ (TypeRef.named name).namedType.toList.length
    rw [spelled]
    simp
  | list item ih =>
    have inner := ih isName
    simp [TypeRef.tokens, TypeRef.text] at inner ⊢
    omega
  | nonNull inner ih =>
    have inside := ih isName
    simp [TypeRef.tokens, TypeRef.text] at inside ⊢
    omega

theorem tokens?_text (type : TypeRef) (isName : IsName type.namedType) :
    tokens? type.text = some type.tokens := by
  have enough := length_tokens_le type isName
  have empty : Token.readAll? (type.text.toList.length - type.tokens.length + 1) [] = some [] := rfl
  have read := Token.readAll?_text type isName _ [] [] (by simp) empty
  rw [List.append_nil, List.append_nil] at read
  rw [tokens?, ← read]
  congr 1
  omega

end Syntax

namespace TypeRef

open Syntax

theorem Built.reads {type : TypeRef} (built : type.Built) :
    tokens? type.text = some type.tokens ∧ parseType type.tokens = some (type, []) := by
  obtain ⟨isName, collapsed⟩ := (built_iff type).mp built
  exact ⟨tokens?_text type isName, parseType_eq_some_iff.mpr (exists_spelled type collapsed)⟩

theorem Built.eq_of_text {type other : TypeRef} (built : type.Built) (built' : other.Built)
    (same : type.text = other.text) : type = other := by
  have tokens : type.tokens = other.tokens :=
    Option.some.inj (built.reads.1.symm.trans ((congrArg tokens? same).trans built'.reads.1))
  have read := built.reads.2
  rw [tokens, built'.reads.2] at read
  exact (congrArg Prod.fst (Option.some.inj read)).symm

end TypeRef

end MockGraph
