import MockGraph.Proofs.Json.Reading
set_option autoImplicit false

namespace MockGraph

/-- No double of one list has the text of another double of the other. -/
def Double.ToldApart (xs ys : List Double) : Prop := ∀ x ∈ xs, ∀ y ∈ ys, x.text = y.text → x = y

theorem Double.ToldApart.mono {xs ys xs' ys' : List Double} (apart : ToldApart xs ys)
    (left : xs' ⊆ xs) (right : ys' ⊆ ys) : ToldApart xs' ys' :=
  fun x inLeft y inRight => apart x (left inLeft) y (right inRight)

namespace Number

theorem text_double (x : Double) : ∃ c ∈ x.text, c.isDigit = false ∧ c ≠ '-' := by
  suffices marked : '.' ∈ x.text ∨ 'e' ∈ x.text from
    marked.elim (fun point => ⟨_, point, by decide⟩) fun exponent => ⟨_, exponent, by decide⟩
  unfold Double.text
  by_cases zero : x.isZero
  · simp [zero]
  rw [if_neg zero]
  dsimp only
  by_cases plain : -5 ≤ x.shortest.point - 1 ∧ x.shortest.point - 1 < 16
  · left
    rw [if_pos plain]
    by_cases below : x.shortest.point ≤ 0 <;> simp [Double.plainLayout, below]
  · right
    rw [if_neg plain]
    simp [Double.powerLayout]

theorem text_integer {n : Int} {c : Char} (member : c ∈ text (.integer n)) : StartsNumber c := by
  rcases List.mem_append.mp member with sign | digit
  · right
    split at sign <;> simp_all
  · exact .inl ((digits_toDigits _).all c digit)

theorem toDigits_inj {n m : Nat} (same : Nat.toDigits 10 n = Nat.toDigits 10 m) : n = m := by
  rw [← Nat.ofDigitChars_toDigits (b := 10) (n := n) (by decide) (by decide), same,
    Nat.ofDigitChars_toDigits (by decide) (by decide)]

theorem integer_inj {n m : Int} (same : text (.integer n) = text (.integer m)) : n = m := by
  have unsigned (k : Nat) (cs : List Char) : Nat.toDigits 10 k ≠ '-' :: cs := fun signed => by
    have digit := (digits_toDigits k).all '-' (by simp [signed])
    cases digit
  by_cases left : n < 0 <;> by_cases right : m < 0
  · have := toDigits_inj (by simpa [text, left, right] using same)
    omega
  · simp only [text, left, right, if_true, if_false] at same
    exact absurd same.symm (unsigned _ _)
  · simp only [text, left, right, if_true, if_false] at same
    exact absurd same (unsigned _ _)
  · have := toDigits_inj (by simpa [text, left, right] using same)
    omega

theorem integer_ne_double (n : Int) (x : Double) : text (.integer n) ≠ text (.double x) := by
  intro same
  obtain ⟨c, member, other⟩ := text_double x
  rw [← show text (.double x) = x.text from rfl, ← same] at member
  exact (text_integer member).ne other rfl

/-- Numbers with one text are equal, if they are no doubles that have it in common. -/
theorem eq_of_text {n m : Number} (same : n.text = m.text)
    (apart : ∀ x y, n = .double x → m = .double y → x.text = y.text → x = y) : n = m := by
  cases n with
  | integer i =>
    cases m with
    | integer j => rw [integer_inj same]
    | double y => exact absurd same (integer_ne_double i y)
  | double x =>
    cases m with
    | integer j => exact absurd same.symm (integer_ne_double j x)
    | double y => rw [apart x y rfl rfl same]

end Number

namespace Json

mutual

def doubles : Json → List Double
  | number (.double x) => [x]
  | array items => itemDoubles items
  | object members => memberDoubles members
  | _ => []

def itemDoubles : List Json → List Double
  | [] => []
  | item :: items => doubles item ++ itemDoubles items

def memberDoubles : List (String × Json) → List Double
  | [] => []
  | (_, value) :: members => doubles value ++ memberDoubles members

end

theorem write_stop {a b : Json} {r s : List Char} (ra : EndsNumber r) (sb : EndsNumber s)
    (same : a.write r = b.write s) : a.tree = b.tree ∧ r = s := by
  have left := readValue_write a r (a.write r).length ra (by omega)
  have right := readValue_write b s (a.write r).length sb (by rw [same]; omega)
  rw [← same, left] at right
  exact Prod.mk.inj right

theorem writeString_inj {s t : String} {r r' : List Char}
    (same : writeString s r = writeString t r') : s = t ∧ r = r' := by
  have left := Tree.readString_toList s r
  rw [List.cons.inj same |>.2, Tree.readString_toList t r'] at left
  simpa [eq_comm] using left

open Double (ToldApart)

mutual

theorem eq_of_write :
    ∀ (a b : Json) (rest : List Char), EndsNumber rest → a.write rest = b.write rest →
      ToldApart a.doubles b.doubles → a = b
  | null, b, rest, stop, same, _ => by
    have alike := (write_stop stop stop same).1
    cases b <;> simp [tree] at alike
    rfl
  | bool v, b, rest, stop, same, _ => by
    have alike := (write_stop stop stop same).1
    cases b <;> simp [tree] at alike
    rw [alike]
  | number n, b, rest, stop, same, apart => by
    have alike := (write_stop stop stop same).1
    cases b <;> simp [tree] at alike
    case number m =>
      have texts : n.text = m.text := List.append_cancel_right same
      rw [Number.eq_of_text texts]
      rintro x y rfl rfl
      exact apart x (by simp [doubles]) y (by simp [doubles])
  | string s, b, rest, stop, same, _ => by
    have alike := (write_stop stop stop same).1
    cases b <;> simp [tree] at alike
    rw [alike]
  | array items, b, rest, stop, same, apart => by
    have alike := (write_stop stop stop same).1
    cases b <;> simp [tree] at alike
    case array others =>
      have listed : items = others := by
        cases items <;> cases others <;> simp [trees] at alike
        case nil.nil => rfl
        case cons.cons =>
          exact eq_of_writeItems _ _ rest stop (by simpa [write, writeItems] using same) apart
      rw [listed]
  | object members, b, rest, stop, same, apart => by
    have alike := (write_stop stop stop same).1
    cases b <;> simp [tree] at alike
    case object others =>
      have listed : members = others := by
        cases members <;> cases others <;> simp [memberTrees] at alike
        case nil.nil => rfl
        case cons.cons =>
          exact eq_of_writeMembers _ _ rest stop (by simpa [write, writeMembers] using same) apart
      rw [listed]

theorem eq_of_writeItems :
    ∀ (items others : List Json) (rest : List Char), EndsNumber rest →
      writeItems items rest = writeItems others rest →
      ToldApart (itemDoubles items) (itemDoubles others) → items = others
  | [], [], _, _, _, _ => rfl
  | [], _ :: _, _, _, same, _ => by simp [writeItems] at same
  | _ :: _, [], _, _, same, _ => by simp [writeItems] at same
  | a :: items, b :: others, rest, stop, same, apart => by
    simp only [writeItems, List.cons.injEq, true_and] at same
    obtain ⟨_, later⟩ :=
      write_stop (endsNumber_writeItems items rest) (endsNumber_writeItems others rest) same
    rw [← later] at same
    rw
      [eq_of_write a b _ (endsNumber_writeItems items rest) same
        (apart.mono (by simp [itemDoubles]) (by simp [itemDoubles])),
        eq_of_writeItems items others rest stop later
          (apart.mono (by simp [itemDoubles]) (by simp [itemDoubles]))]

theorem eq_of_writeMembers :
    ∀ (members others : List (String × Json)) (rest : List Char), EndsNumber rest →
      writeMembers members rest = writeMembers others rest →
      ToldApart (memberDoubles members) (memberDoubles others) → members = others
  | [], [], _, _, _, _ => rfl
  | [], _ :: _, _, _, same, _ => by simp [writeMembers] at same
  | _ :: _, [], _, _, same, _ => by simp [writeMembers] at same
  | (name, a) :: members, (name', b) :: others, rest, stop, same, apart => by
    simp only [writeMembers, List.cons.injEq, true_and] at same
    obtain ⟨rfl, after⟩ := writeString_inj same
    have same := (List.cons.inj after).2
    obtain ⟨_, later⟩ :=
      write_stop (endsNumber_writeMembers members rest) (endsNumber_writeMembers others rest) same
    rw [← later] at same
    rw [eq_of_write a b _ (endsNumber_writeMembers members rest) same
        (apart.mono (by simp [memberDoubles]) (by simp [memberDoubles])),
      eq_of_writeMembers members others rest stop later
        (apart.mono (by simp [memberDoubles]) (by simp [memberDoubles]))]

end

/-- Values with one text are equal, if no two doubles have it in common. -/
theorem eq_of_text {a b : Json} (same : a.text = b.text) (apart : ToldApart a.doubles b.doubles) :
    a = b :=
  eq_of_write a b [] nofun (String.ofList_injective same) apart

end Json

end MockGraph
