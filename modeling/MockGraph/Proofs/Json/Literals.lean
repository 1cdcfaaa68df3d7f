import MockGraph.Json.Printer
import MockGraph.Json.Tree
set_option autoImplicit false

namespace MockGraph

namespace Text

theorem hexQuad?_hexDigit :
    ∀ n < 32, hexQuad? '0' '0' (hexDigit (n / 16)) (hexDigit n) = some n := by decide

end Text

namespace Tree

theorem readString_escapedChar (c : Char) (rest read : List Char) :
    readString (escapedChar c ++ rest) (some read) = readString rest (some (c :: read)) := by
  have ofCode (n : Nat) (code : c.toNat = n) : c = Char.ofNat n := by rw [← code, Char.ofNat_toNat]
  unfold escapedChar
  split
  case isTrue same => simp [readString, Text.shortEscape?, same]
  split
  case isTrue same => simp [readString, Text.shortEscape?, same]
  split
  case isTrue same => simp [readString, Text.shortEscape?, same]
  split
  case isTrue same => simp [readString, Text.shortEscape?, same]
  split
  case isTrue same => simp [readString, Text.shortEscape?, same]
  split
  case isTrue code => simp [readString, Text.shortEscape?, ofCode 8 code]
  split
  case isTrue code => simp [readString, Text.shortEscape?, ofCode 12 code]
  split
  case isTrue low =>
    have unit := Text.hexQuad?_hexDigit c.toNat low
    have high : Text.isHighSurrogate c.toNat = false := by simp [Text.isHighSurrogate]; omega
    have tail : Text.isLowSurrogate c.toNat = false := by simp [Text.isLowSurrogate]; omega
    simp [readString, unit, high, tail]
  case isFalse notQuote notBackslash _ _ _ _ _ printable =>
    rw [List.singleton_append, readString.eq_def]
    split
    case h_1 same => cases same
    case h_2 same => exact absurd (List.cons.inj same).1 notQuote
    case h_3 same => exact absurd (List.cons.inj same).1 notBackslash
    case h_4 same => exact absurd (List.cons.inj same).1 notBackslash
    case h_5 same =>
      obtain ⟨rfl, rfl⟩ := List.cons.inj same
      rw [if_neg printable, Option.map_some]

theorem readString_escaped (cs rest read : List Char) :
    readString (cs.flatMap escapedChar ++ '"' :: rest) (some read) =
      some (some (String.ofList (read.reverse ++ cs)), rest) := by
  induction cs generalizing read with
  | nil => simp [readString]
  | cons c cs ih => simp [List.append_assoc, readString_escapedChar, ih]

theorem readString_toList (s : String) (rest : List Char) :
    readString (s.toList.flatMap escapedChar ++ '"' :: rest) (some []) = some (some s, rest) := by
  simp [readString_escaped]

end Tree

def isNumeral (c : Char) : Bool :=
  c.isDigit || c == '-' || c == '+' || c == '.' || c == 'e' || c == 'E'

/-- A text that does not go on with a character of a number. -/
def EndsNumber (rest : List Char) : Prop := ∀ c ∈ rest.head?, isNumeral c = false

/-- At least one digit, and nothing else. -/
structure Digits (cs : List Char) : Prop where
  some : cs ≠ []
  all : ∀ c ∈ cs, c.isDigit = true

/-- The parts of a number's text, the exponent with its sign. -/
structure Numeral where
  negative : Bool
  whole : List Char
  fraction : Option (List Char)
  exponent : Option (Bool × List Char)
  wholeDigits : Digits whole
  /-- There is no zero in front of other digits. -/
  wholeHead : whole.head? = some '0' → whole = ['0']
  fractionDigits : ∀ digits ∈ fraction, Digits digits
  exponentDigits : ∀ part ∈ exponent, Digits part.2

namespace Numeral

def sign (numeral : Numeral) : List Char := if numeral.negative then ['-'] else []

def point (numeral : Numeral) : List Char := (numeral.fraction.map ('.' :: ·)).getD []

def power (numeral : Numeral) : List Char :=
  (numeral.exponent.map fun (negative, digits) =>
      'e' :: (if negative then '-' else '+') :: digits).getD []

def text (numeral : Numeral) : List Char :=
  numeral.sign ++ (numeral.whole ++ (numeral.point ++ numeral.power))

def exponentValue (numeral : Numeral) : Option Int :=
  numeral.exponent.map fun (negative, digits) =>
    if negative then -(Tree.digitsValue digits : Int) else Tree.digitsValue digits

end Numeral

namespace Tree

variable {digits rest : List Char}

theorem readDigits?_append (ofDigits : Digits digits) (stop : ∀ c ∈ rest.head?, c.isDigit = false) :
    readDigits? (digits ++ rest) = some (digits, rest) := by
  have taken : (digits ++ rest).takeWhile Char.isDigit = digits := by
    rw [List.takeWhile_append_of_pos ofDigits.all]
    cases rest <;> simp_all
  have left : (digits ++ rest).dropWhile Char.isDigit = rest := by
    rw [List.dropWhile_append_of_pos ofDigits.all]
    cases rest <;> simp_all
  simp [readDigits?, taken, left, ofDigits.some]

theorem readWhole?_append (numeral : Numeral) (stop : ∀ c ∈ rest.head?, c.isDigit = false) :
    readWhole? (numeral.whole ++ rest) = some (numeral.whole, rest) := by
  by_cases zero : numeral.whole.head? = some '0'
  · rw [numeral.wholeHead zero]
    cases rest with
    | nil => rfl
    | cons c rest => simp [readWhole?, stop c rfl]
  · have read := readDigits?_append numeral.wholeDigits stop
    unfold readWhole?
    split
    next same =>
      cases whole : numeral.whole <;> simp_all [numeral.wholeDigits.some]
    · exact read

theorem readFraction?_append (numeral : Numeral)
    (stop : ∀ c ∈ rest.head?, c.isDigit = false ∧ c ≠ '.') :
    readFraction? (numeral.point ++ rest) = some (numeral.fraction, rest) := by
  unfold Numeral.point
  cases present : numeral.fraction with
  | none =>
    cases rest with
    | nil => rfl
    | cons c rest =>
      have other := (stop c rfl).2
      simp [readFraction?, other]
  | some digits =>
    have read :=
      readDigits?_append (numeral.fractionDigits digits present) fun c first => (stop c first).1
    simp [readFraction?, read]

theorem readExponent?_append (numeral : Numeral) (stop : EndsNumber rest) :
    readExponent? (numeral.power ++ rest) = some (numeral.exponentValue, rest) := by
  unfold Numeral.power Numeral.exponentValue
  cases present : numeral.exponent with
  | none =>
    cases rest with
    | nil => rfl
    | cons c rest =>
      have other := stop c rfl
      simp only [isNumeral, Bool.or_eq_false_iff, beq_eq_false_iff_ne] at other
      simp [readExponent?, other]
  | some part =>
    obtain ⟨negative, digits⟩ := part
    have ofDigits := numeral.exponentDigits _ present
    have read : readDigits? (digits ++ rest) = some (digits, rest) :=
      readDigits?_append ofDigits fun c first => by
      have other := stop c first
      simp only [isNumeral, Bool.or_eq_false_iff] at other
      exact other.1.1.1.1.1
    cases negative <;> simp [readExponent?, read]

/-- What follows the whole part, if the number goes on, is a point or an exponent. -/
theorem power_head (numeral : Numeral) (stop : EndsNumber rest) :
    ∀ c ∈ (numeral.power ++ rest).head?, c.isDigit = false ∧ c ≠ '.' := by
  intro c first
  unfold Numeral.power at first
  cases present : numeral.exponent with
  | none =>
    have other := stop c (by simpa [present] using first)
    simp only [isNumeral, Bool.or_eq_false_iff, beq_eq_false_iff_ne] at other
    exact ⟨other.1.1.1.1.1, other.1.1.2⟩
  | some part =>
    have same : 'e' = c := by simpa [present] using first
    subst same
    decide

theorem point_head (numeral : Numeral) (stop : EndsNumber rest) :
    ∀ c ∈ (numeral.point ++ (numeral.power ++ rest)).head?, c.isDigit = false := by
  intro c first
  unfold Numeral.point at first
  cases present : numeral.fraction with
  | none => exact (power_head numeral stop c (by simpa [present] using first)).1
  | some digits =>
    have same : '.' = c := by simpa [present] using first
    subst same
    rfl

theorem readNumber_append (numeral : Numeral) (stop : EndsNumber rest) :
    readNumber (numeral.text ++ rest) =
      some (Number.literal? numeral.negative numeral.whole numeral.fraction numeral.exponentValue,
        rest) := by
  have whole := readWhole?_append numeral (point_head numeral stop)
  have fraction := readFraction?_append numeral (power_head numeral stop)
  have exponent := readExponent?_append numeral stop
  unfold Numeral.text Numeral.sign readNumber
  cases numeral.negative with
  | true => simp [List.append_assoc, whole, fraction, exponent]
  | false =>
    obtain ⟨first, others, split⟩ := List.exists_cons_of_ne_nil numeral.wholeDigits.some
    have digit := numeral.wholeDigits.all first (by simp [split])
    have unsigned : first ≠ '-' := by rintro rfl; cases digit
    simp only [split, List.cons_append] at whole
    simp [split, List.append_assoc, unsigned, whole, fraction, exponent]

theorem readNumber_text (numeral : Numeral) :
    readNumber numeral.text =
      some (Number.literal? numeral.negative numeral.whole numeral.fraction numeral.exponentValue,
        []) := by
  have found : readNumber (numeral.text ++ []) = _ := readNumber_append numeral nofun
  rwa [List.append_nil] at found

end Tree

end MockGraph
