import MockGraph.Proofs.Json.Literals
set_option autoImplicit false

namespace MockGraph

theorem digits_toDigits (n : Nat) : Digits (Nat.toDigits 10 n) where
  some := Nat.toDigits_ne_nil
  all _ := Nat.isDigit_of_mem_toDigits (by decide) (by decide)

theorem toDigits_head (n : Nat) (zero : (Nat.toDigits 10 n).head? = some '0') : n = 0 := by
  induction n using Nat.strongRecOn with
  | ind n ih =>
    by_cases small : n < 10
    · simpa [Nat.toDigits_of_lt_base small] using zero
    · obtain ⟨first, others, split⟩ :=
        List.exists_cons_of_ne_nil (Nat.toDigits_ne_nil (b := 10) (n := n / 10))
      rw [Nat.toDigits_of_base_le (by decide) (by omega), split] at zero
      have front := ih (n / 10) (by omega) (by simpa [split] using zero)
      omega

namespace Double

variable {x : Double} {power : Int} {decimal : Decimal}

/-- Digits as a search for the fewest of them gives back: the first is no zero, if it found any. -/
structure Decimal.Printable (decimal : Decimal) : Prop where
  digits : Digits decimal.digits
  head : decimal.digits.head? = some '0' → decimal.digits = ['0'] ∧ decimal.point = 0

theorem Decimal.printable_ofScaled {count : Nat} (positive : count ≠ 0) (power : Int) :
    (Decimal.ofScaled count power).Printable := by
  obtain ⟨first, others, split⟩ :=
    List.exists_cons_of_ne_nil (Nat.toDigits_ne_nil (b := 10) (n := count))
  have nonzero : first ≠ '0' := by
    rintro rfl
    exact positive (toDigits_head count (by rw [split, List.head?_cons]))
  have stripped : ∃ kept, (Decimal.ofScaled count power).digits = first :: kept ∧
      ∀ c ∈ kept, c ∈ others := by
    unfold Decimal.ofScaled
    simp only [split, List.reverse_cons, List.dropWhile_append]
    split
    · exact ⟨[], by simp [nonzero], nofun⟩
    · refine ⟨(others.reverse.dropWhile (· == '0')).reverse, by simp, fun c member => ?_⟩
      have := (List.dropWhile_sublist _).subset (List.mem_reverse.mp member)
      simpa using this
  obtain ⟨kept, digits, sub⟩ := stripped
  have all := (digits_toDigits count).all
  rw [split] at all
  constructor
  · constructor
    · simp [digits]
    · rw [digits]
      intro c member
      rcases List.mem_cons.mp member with rfl | later
      · exact all _ List.mem_cons_self
      · exact all c (List.mem_cons_of_mem _ (sub c later))
  · simp [digits, nonzero]

/-- A multiple of `10^power` among the numbers that round to a double. -/
def reads (x : Double) (power : Int) (count : Nat) : Bool :=
  let ((low, _, high), denominator) := x.roundingInterval
  let even := x.significand % 2 = 0
  let (n, d) :=
    if 0 ≤ power then (count * Nat.pow 10 power.toNat, 1) else (count, Nat.pow 10 (-power).toNat)
  let point := n * denominator
  (low * d < point || (even && low * d = point)) && (point < high * d || (even && high * d = point))

/-- The search on a grid tries the two multiples around the double. -/
theorem exists_onGrid?_eq (x : Double) (power : Int) : ∃ first second,
    x.onGrid? power =
      if x.reads power first && first != 0 then some (.ofScaled first power)
      else if x.reads power second then some (.ofScaled second power)
      else none :=
  ⟨_, _, rfl⟩

theorem reads_zero (nonzero : x.significand ≠ 0) : x.reads power 0 = false := by
  have low : x.roundingInterval.1.1 ≠ 0 := by
    unfold roundingInterval
    dsimp only
    apply Nat.mul_ne_zero
    · split <;> omega
    · split <;> simp
  have scaled (factor : Nat) (positive : factor ≠ 0) : x.roundingInterval.1.1 * factor ≠ 0 :=
    Nat.mul_ne_zero low positive
  have power10 : Nat.pow 10 (-power).toNat ≠ 0 := Nat.pos_iff_ne_zero.mp (Nat.pow_pos (by decide))
  rw [reads]
  by_cases whole : 0 ≤ power
  · simp only [whole, if_true, Nat.zero_mul, Nat.not_lt_zero, scaled 1 nofun, decide_false,
      Bool.and_false, Bool.or_false, Bool.false_and]
  · simp only [whole, if_false, Nat.zero_mul, Nat.not_lt_zero, scaled _ power10, decide_false,
      Bool.and_false, Bool.or_false, Bool.false_and]

/-- What reads back as a number other than zero is no multiple zero of a grid. -/
theorem printable_of_onGrid? (nonzero : x.significand ≠ 0)
    (found : x.onGrid? power = some decimal) : decimal.Printable := by
  obtain ⟨first, second, tries⟩ := exists_onGrid?_eq x power
  rw [tries] at found
  split at found
  case isTrue met =>
    simp only [Bool.and_eq_true, bne_iff_ne] at met
    exact Option.some.inj found ▸ Decimal.printable_ofScaled met.2 power
  split at found
  case isTrue met =>
    have positive : second ≠ 0 := by
      rintro rfl
      simp [reads_zero nonzero] at met
    exact Option.some.inj found ▸ Decimal.printable_ofScaled positive power
  case isFalse => cases found

theorem printable_firstOnGrid (nonzero : x.significand ≠ 0) (leading : Int) (left : Nat) :
    (x.firstOnGrid leading left).Printable := by
  induction left with
  | zero =>
    unfold firstOnGrid
    cases found : x.onGrid? (leading - 17) with
    | none => exact ⟨⟨by simp, by simp⟩, by simp⟩
    | some decimal => exact printable_of_onGrid? nonzero found
  | succ left ih =>
    unfold firstOnGrid
    split
    case h_1 found => exact printable_of_onGrid? nonzero found
    case h_2 => exact ih

theorem printable_shortest (nonzero : x.significand ≠ 0) : x.shortest.Printable :=
  printable_firstOnGrid nonzero _ 17

end Double

theorem Digits.append {front back : List Char} (ofFront : Digits front)
    (all : ∀ c ∈ back, c.isDigit = true) : Digits (front ++ back) where
  some := by simp [ofFront.some]
  all c member := (List.mem_append.mp member).elim (ofFront.all c) (all c)

theorem all_replicate (n : Nat) : ∀ c ∈ List.replicate n '0', c.isDigit = true := by
  intro c member
  rw [(List.mem_replicate.mp member).2]
  rfl

/-- The text is that of a numeral. -/
def IsNumeral (text : List Char) : Prop := ∃ numeral : Numeral, numeral.text = text

namespace Double

variable {decimal : Decimal}

theorem isNumeral_plainLayout (negative : Bool) (printable : decimal.Printable) :
    IsNumeral ((if negative then ['-'] else []) ++ plainLayout decimal.digits decimal.point) := by
  have all := printable.digits.all
  by_cases below : decimal.point ≤ 0
  · refine
      ⟨⟨negative, ['0'], some (List.replicate (-decimal.point).toNat '0' ++ decimal.digits), none,
        ⟨by simp, by simp⟩, by simp, ?_, by simp⟩, ?_⟩
    · rintro _ ⟨⟩
      exact ⟨by simp [printable.digits.some], fun c member =>
        (List.mem_append.mp member).elim (all_replicate _ c) (all c)⟩
    · simp [Numeral.text, Numeral.sign, Numeral.point, Numeral.power, plainLayout, below]
  · obtain ⟨first, others, split⟩ := List.exists_cons_of_ne_nil printable.digits.some
    obtain ⟨count, positive⟩ : ∃ count, decimal.point.toNat = count + 1 :=
      ⟨decimal.point.toNat - 1, by omega⟩
    have nonzero : first ≠ '0' := by
      rintro rfl
      have := (printable.head (by simp [split])).2
      omega
    have ofRest : Digits (if (others.drop count).isEmpty then ['0'] else others.drop count) := by
      split
      · exact ⟨by simp, by simp⟩
      · rename_i some
        exact ⟨by simpa using some, fun c member =>
          all c (by simp [split, List.mem_of_mem_drop member])⟩
    refine
      ⟨⟨negative,
        first :: (others.take count ++ List.replicate (count - (others.take count).length) '0'),
        some (if (others.drop count).isEmpty then ['0'] else others.drop count), none,
        ⟨by simp, ?_⟩, by simp [nonzero], ?_, by simp⟩, ?_⟩
    · intro c member
      rw [← List.cons_append] at member
      rcases List.mem_append.mp member with early | late
      · exact all c (by rw [split]; exact List.mem_of_mem_take (i := count + 1) early)
      · exact all_replicate _ c late
    · rintro _ ⟨⟩
      exact ofRest
    · simp [Numeral.text, Numeral.sign, Numeral.point, Numeral.power, plainLayout, below, positive,
        split]

theorem isNumeral_powerLayout (negative : Bool) (printable : decimal.Printable) (power : Int) :
    IsNumeral ((if negative then ['-'] else []) ++ powerLayout decimal.digits power) := by
  obtain ⟨first, others, split⟩ := List.exists_cons_of_ne_nil printable.digits.some
  have all := printable.digits.all
  rw [split] at all
  have rest (some : others ≠ []) : Digits others :=
    ⟨some, fun c member => all c (List.mem_cons_of_mem _ member)⟩
  refine ⟨⟨negative, [first], if others.isEmpty then none else some others,
    some (decide (power < 0), Nat.toDigits 10 power.natAbs), ⟨by simp, ?_⟩, by simp, ?_, ?_⟩, ?_⟩
  · intro c member
    exact all c (by simp_all)
  · intro digits member
    cases others <;> simp_all
  · intro part member
    cases member
    exact digits_toDigits _
  · cases others <;>
      simp [Numeral.text, Numeral.sign, Numeral.point, Numeral.power, powerLayout, split]

theorem isNumeral_text (x : Double) : IsNumeral x.text := by
  unfold text
  by_cases zero : x.isZero
  · refine ⟨⟨x.negative, ['0'], some ['0'], none, ⟨by simp, by simp⟩, by simp, ?_, by simp⟩, ?_⟩
    · rintro _ ⟨⟩
      exact ⟨by simp, by simp⟩
    · simp [Numeral.text, Numeral.sign, Numeral.point, Numeral.power, zero]
  · have printable := printable_shortest (x := x) (by simpa [isZero] using zero)
    rw [if_neg zero]
    by_cases plain : -5 ≤ x.shortest.point - 1 ∧ x.shortest.point - 1 < 16
    · simpa only [plain, and_self, if_true] using isNumeral_plainLayout x.negative printable
    · simpa only [plain, if_false] using isNumeral_powerLayout x.negative printable _

end Double

namespace Number

theorem isNumeral_text : ∀ n : Number, IsNumeral n.text
  | integer n => by
    refine
      ⟨⟨decide (n < 0), Nat.toDigits 10 n.natAbs, none, none, digits_toDigits _, fun zero => ?_,
        by simp, by simp⟩, ?_⟩
    · rw [toDigits_head _ zero]
      rfl
    · simp [Numeral.text, Numeral.sign, Numeral.point, Numeral.power, text]
  | double x => x.isNumeral_text

end Number

end MockGraph
