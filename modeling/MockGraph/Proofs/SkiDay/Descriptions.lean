import Mathlib.Tactic.MkIffOfInductiveProp
import MockGraph.SkiDay.Store
set_option autoImplicit false

namespace MockGraph.SkiDay

/-- Conditions are a text, and `null` if there are none. -/
@[mk_iff] inductive Notes : Json → Option String → Prop
  | none : Notes .null none
  | some {text} : Notes (.string text) (some text)

/-- A member of a day to add, or one that does not count. -/
@[mk_iff] structure Fits (member : String × Json) : Prop where
  date : member.1 = "date" → ∃ text, member.2 = .string text
  mountain : member.1 = "mountain" → ∃ text, member.2 = .string text
  conditions : member.1 = "conditions" → ∃ notes, Notes member.2 notes

/-- What describes a day to add: its members, where conditions may be left out and the last of one
name counts, or the values of its members in order. -/
inductive Describes : Json → NewDay → Prop
  | object {members date mountain conditions} : (∀ member ∈ members, Fits member) →
      members.reverse.lookup "date" = some (.string date) →
      members.reverse.lookup "mountain" = some (.string mountain) →
      Notes ((members.reverse.lookup "conditions").getD .null) conditions →
      Describes (.object members) ⟨date, mountain, conditions⟩
  | pair {date mountain} :
      Describes (.array [.string date, .string mountain]) ⟨date, mountain, none⟩
  | triple {date mountain value conditions} : Notes value conditions →
      Describes (.array [.string date, .string mountain, value]) ⟨date, mountain, conditions⟩

theorem text_eq_ok_iff {value : Json} {text : String} :
    Reader.text value = .ok text ↔ value = .string text := by
  cases value <;> simp [Reader.text]

theorem optional_text_eq_ok_iff {value : Json} {notes : Option String} :
    Reader.optional Reader.text value = .ok notes ↔ Notes value notes := by
  constructor
  · intro read
    cases value with
    | null => cases read; exact .none
    | string text => cases read; exact .some
    | bool | number | array | object => cases read
  · rintro (_ | _) <;> rfl

namespace NewDay

/-- What the members say, over what was read before. -/
def Draft.after (draft : Draft) (members : List (String × Json)) : Draft where
  date := ((members.reverse.lookup "date").map Json.asString?).getD draft.date
  mountain := ((members.reverse.lookup "mountain").map Json.asString?).getD draft.mountain
  conditions := ((members.reverse.lookup "conditions").map Json.asString?).getD draft.conditions

theorem Draft.after_cons (draft : Draft) (member : String × Json) (rest : List (String × Json)) :
    draft.after (member :: rest) = (draft.after [member]).after rest := by
  have last (name : String) (before : Option String) :
      (((member :: rest).reverse.lookup name).map Json.asString?).getD before =
        ((rest.reverse.lookup name).map Json.asString?).getD
          ((([member].reverse.lookup name).map Json.asString?).getD before) := by
    rw [List.reverse_cons, List.lookup_append]
    cases rest.reverse.lookup name <;> rfl
  simp only [Draft.after, last]

theorem readMembers_cons {name : String} {value : Json} {rest : List (String × Json)}
    {draft result : Draft} :
    readMembers ((name, value) :: rest) draft = .ok result ↔
      Fits (name, value) ∧ readMembers rest (draft.after [(name, value)]) = .ok result := by
  by_cases known : name = "date" ∨ name = "mountain" ∨ name = "conditions"
  · rcases known with rfl | rfl | rfl
    all_goals
      rw [readMembers]
      cases value <;>
        simp [Reader.optional, Reader.text, Except.map, fits_iff, notes_iff, Draft.after,
          Json.asString?, List.lookup_cons]
  · obtain ⟨date, mountain, conditions⟩ := by simpa only [not_or] using known
    have other (key : String) (different : name ≠ key) : [(name, value)].lookup key = none := by
      rw [List.lookup_cons, beq_false_of_ne (Ne.symm different), List.lookup_nil]
    rw [readMembers]
    · simp [fits_iff, Draft.after, other, date, mountain, conditions]
    all_goals assumption

theorem readMembers_eq_ok_iff {members : List (String × Json)} {draft result : Draft} :
    readMembers members draft = .ok result ↔
      (∀ member ∈ members, Fits member) ∧ result = draft.after members := by
  induction members generalizing draft with
  | nil => simp [readMembers, Draft.after, eq_comm]
  | cons member rest ih =>
    obtain ⟨name, value⟩ := member
    rw [readMembers_cons, ih, List.forall_mem_cons, draft.after_cons _ rest, and_assoc]

theorem finish_eq_ok_iff {draft : Draft} {day : NewDay} :
    finish draft = .ok day ↔ draft = ⟨some day.date, some day.mountain, day.conditions⟩ := by
  obtain ⟨date, mountain, conditions⟩ := draft
  obtain ⟨date', mountain', conditions'⟩ := day
  cases date <;> cases mountain <;> simp [finish]

theorem getD_asString?_eq_some_iff {value : Option Json} {text : String} :
    (value.map Json.asString?).getD none = some text ↔ value = some (.string text) := by
  cases value with
  | none => exact ⟨nofun, nofun⟩
  | some value => cases value <;> simp [Json.asString?]

theorem getD_asString?_eq_iff_notes {value : Option Json} {notes : Option String}
    (fits : ∀ given ∈ value, ∃ notes, Notes given notes) :
    (value.map Json.asString?).getD none = notes ↔ Notes (value.getD .null) notes := by
  cases value with
  | none => simp [notes_iff, eq_comm]
  | some value =>
    obtain ⟨_, _ | _⟩ := fits value rfl <;> simp [notes_iff, Json.asString?, eq_comm]

theorem readObject_eq_ok_iff {members : List (String × Json)} {day : NewDay} :
    read (.object members) = .ok day ↔ Describes (.object members) day := by
  have split : read (.object members) = .ok day ↔
      ∃ draft, readMembers members ⟨none, none, none⟩ = .ok draft ∧ finish draft = .ok day := by
    rw [read]
    cases readMembers members ⟨none, none, none⟩ <;> simp
  simp only [split, readMembers_eq_ok_iff, finish_eq_ok_iff]
  have noted (fits : ∀ member ∈ members, Fits member) :
      ∀ given ∈ members.reverse.lookup "conditions", ∃ notes, Notes given notes := by
    intro given found
    obtain ⟨before, after, split, -⟩ := List.lookup_eq_some_iff.mp found
    have member : ("conditions", given) ∈ members := by
      rw [← List.mem_reverse, split]
      exact List.mem_append_right _ List.mem_cons_self
    exact (fits _ member).conditions rfl
  constructor
  · rintro ⟨draft, ⟨fits, rfl⟩, same⟩
    obtain ⟨date, mountain, conditions⟩ := Draft.mk.inj same
    exact .object fits (getD_asString?_eq_some_iff.mp date) (getD_asString?_eq_some_iff.mp mountain)
      ((getD_asString?_eq_iff_notes (noted fits)).mp conditions)
  · rintro (⟨fits, date, mountain, conditions⟩)
    refine ⟨_, ⟨fits, rfl⟩, Draft.mk.injEq .. ▸ ⟨?_, ?_, ?_⟩⟩
    · exact getD_asString?_eq_some_iff.mpr date
    · exact getD_asString?_eq_some_iff.mpr mountain
    · exact (getD_asString?_eq_iff_notes (noted fits)).mpr conditions

theorem readTriple_eq_ok_iff {date mountain : String} {value : Json} {rest : List Json}
    {day : NewDay} :
    readItems (.string date :: .string mountain :: value :: rest) = .ok day ↔
      rest = [] ∧ ∃ notes, Notes value notes ∧ day = ⟨date, mountain, notes⟩ := by
  have split : readItems (.string date :: .string mountain :: value :: rest) =
      (Reader.optional Reader.text value).bind fun notes =>
        if rest.isEmpty then .ok ⟨date, mountain, notes⟩
        else .error (.length (rest.length + 3) "fewer elements in array") := rfl
  simp only [split, ← optional_text_eq_ok_iff]
  cases Reader.optional Reader.text value with
  | error mismatch => simp [Except.bind]
  | ok notes => cases rest <;> simp [Except.bind, eq_comm]

theorem readItems_eq_ok_iff {items : List Json} {day : NewDay} :
    readItems items = .ok day ↔ Describes (.array items) day := by
  constructor
  · intro read
    -- Date and mountain have to be texts, however many items there are.
    rcases items with _ | ⟨date, _ | ⟨mountain, rest⟩⟩
    · cases read
    · cases date <;> cases read
    cases date with
    | string date =>
      cases mountain with
      | string mountain =>
        cases rest with
        | nil =>
          cases read
          exact .pair
        | cons value rest =>
          obtain ⟨rfl, notes, noted, rfl⟩ := readTriple_eq_ok_iff.mp read
          exact .triple noted
      | _ => cases read
    | _ => cases read
  · intro describes
    cases describes with
    | pair => rfl
    | triple noted => exact readTriple_eq_ok_iff.mpr ⟨rfl, _, noted, rfl⟩

/-- A day is read from what describes it, and from nothing else. -/
theorem read_eq_ok_iff {value : Json} {day : NewDay} :
    read value = .ok day ↔ Describes value day := by
  cases value with
  | object members => exact readObject_eq_ok_iff
  | array items => exact readItems_eq_ok_iff
  | null | bool | number | string => exact ⟨nofun, nofun⟩

end NewDay

end MockGraph.SkiDay
