import MockGraph.Json.Record
set_option autoImplicit false

namespace MockGraph.Tree

/-- What a mapped reading gives is the image of what was read. -/
theorem exists_of_map {α β : Type} {change : α → β} {read : Except Fault α} {result : β}
    (mapped : read.map change = .ok result) :
    ∃ value, read = .ok value ∧ change value = result := by
  cases read with
  | error fault => cases mapped
  | ok value => exact ⟨value, rfl, Except.ok.inj mapped⟩

mutual

/-- A value does not depend on how much room for nesting is left, as long as there is enough. -/
theorem value_mono :
    ∀ (tree : Tree) (room more : Nat) (json : Json), room ≤ more → tree.value room = .ok json →
      tree.value more = .ok json
  | null, _, _, _, _, read | bool _, _, _, _, _, read | number _, _, _, _, _, read | string _, _, _,
    _, _, read
  | broken, _, _, _, _, read => by
    simp only [value] at read ⊢
    exact read
  | array items, 0, _, _, _, read | object members, 0, _, _, _, read => by
    simp only [value, reduceCtorEq] at read
  | array items, room + 1, more, json, enough, read => by
    obtain ⟨more, rfl⟩ := Nat.exists_eq_add_of_le enough
    rw [value] at read
    rw [Nat.add_right_comm, value]
    cases inside : values room items with
    | error fault => simp [inside, Except.map] at read
    | ok read' =>
      rw [values_mono items room _ read' (Nat.le_add_right _ _) inside, ← inside]
      exact read
  | object members, room + 1, more, json, enough, read => by
    obtain ⟨more, rfl⟩ := Nat.exists_eq_add_of_le enough
    rw [value] at read
    rw [Nat.add_right_comm, value]
    cases inside : memberValues room members [] with
    | error fault => simp [inside, Except.map] at read
    | ok read' =>
      rw [memberValues_mono members room _ [] read' (Nat.le_add_right _ _) inside, ← inside]
      exact read

theorem values_mono : ∀ (items : List Tree) (room more : Nat) (jsons : List Json), room ≤ more →
    values room items = .ok jsons → values more items = .ok jsons
  | [], _, _, _, _, read => by
    rw [values] at read ⊢
    exact read
  | item :: items, room, more, jsons, enough, read => by
    rw [values] at read ⊢
    cases first : value room item with
    | error fault => simp [first] at read
    | ok json =>
      rw [value_mono item room more json enough first]
      cases later : values room items with
      | error fault => simp [first, later, Except.map] at read
      | ok others =>
        simp only [first, later] at read
        rw [values_mono items room more others enough later]
        exact read

theorem memberValues_mono :
    ∀ (members : List (Option String × Tree)) (room more : Nat)
      (before after : Ordered String Json), room ≤ more →
      memberValues room members before = .ok after → memberValues more members before = .ok after
  | [], _, _, _, _, _, read => by
    rw [memberValues] at read ⊢
    exact read
  | (none, _) :: _, _, _, _, _, _, read => by
    rw [memberValues] at read
    cases read
  | (some name, tree) :: members, room, more, before, after, enough, read => by
    rw [memberValues] at read ⊢
    cases first : value room tree with
    | error fault => simp [first] at read
    | ok json =>
      simp only [first] at read
      rw [value_mono tree room more json enough first]
      exact memberValues_mono members room more _ after enough read

end

/-- The part of a record that a field is read from. -/
def part? (tree : Tree) (name : String) (place : Nat) : Option Tree :=
  match tree with
  | object members => Ordered.get? members (some name)
  | array items => items[place]?
  | _ => none

/-- What is read from a part, if there is one. Without one, all stays as it was. -/
inductive ReadsPart {α : Type} (holds : Tree → α → Prop) (before : α) : Option Tree → α → Prop
  | given {tree after} : holds tree after → ReadsPart holds before (some tree) after
  | absent : ReadsPart holds before none before

section

variable {σ α : Type} {holds : Tree → α → Prop} {view : σ → α} {unknown : Unknown}

/-- A field of a record is what one part of the draft is read into, and the others leave that part
as it is. -/
structure Field.Owns (fields : List (Field σ)) (field : Field σ) (holds : Tree → α → Prop)
    (view : σ → α) : Prop where
  own : ∀ tree draft next, field.read tree draft = .ok next → holds tree (view next)
  others : ∀ other ∈ fields, other.name ≠ field.name →
      ∀ tree draft next, other.read tree draft = .ok next → view next = view draft

/-- A member that is read is none of the fields, or one that did not come before. -/
theorem cases_of_member {fields : List (Field σ)} {name : String} {tree : Tree}
    {rest : List (Option String × Tree)} {seen : List String} {draft done : σ}
    (read : readMembersAs fields unknown ((some name, tree) :: rest) seen draft = .ok done) :
    fields.find? (·.name == name) = none ∧ readMembersAs fields unknown rest seen draft = .ok done ∨
      ∃ field next, fields.find? (·.name == name) = some field ∧ field.name = name ∧ name ∉ seen ∧
        field.read tree draft = .ok next ∧
        readMembersAs fields unknown rest (name :: seen) next = .ok done := by
  unfold readMembersAs at read
  split at read
  · rename_i missing
    split at read
    · cases read
    · split at read
      · exact Or.inl ⟨missing, read⟩
      · cases read
  · rename_i field found
    split at read
    · cases read
    · rename_i fresh
      split at read
      · cases read
      · rename_i next readHere
        have named := List.find?_some found
        exact Or.inr ⟨field, next, found, beq_iff_eq.mp named, fresh, readHere, read⟩

theorem view_of_seen {fields : List (Field σ)} {field : Field σ}
    (owns : field.Owns fields holds view) (members : List (Option String × Tree)) :
    ∀ (seen : List String) (draft done : σ), field.name ∈ seen →
      readMembersAs fields unknown members seen draft = .ok done → view done = view draft := by
  induction members with
  | nil =>
    intro seen draft done _ read
    cases read
    rfl
  | cons entry rest ih =>
    intro seen draft done known read
    obtain ⟨name, tree⟩ := entry
    cases name with
    | none => cases read
    | some name =>
      rcases cases_of_member read with ⟨-, later⟩ | ⟨other, next, found, named, fresh, here, later⟩
      · exact ih seen draft done known later
      · have different : other.name ≠ field.name := by
          intro same
          rw [← named, same] at fresh
          exact fresh known
        rw [ih (name :: seen) next done (List.mem_cons_of_mem _ known) later]
        exact owns.others other (List.mem_of_find?_eq_some found) different tree draft next here

theorem readsPart_of_members {fields : List (Field σ)} {field : Field σ}
    (owns : field.Owns fields holds view)
    (listed : fields.find? (·.name == field.name) = some field)
    (members : List (Option String × Tree)) :
    ∀ (seen : List String) (draft done : σ), field.name ∉ seen →
      readMembersAs fields unknown members seen draft = .ok done →
      ReadsPart holds (view draft) (Ordered.get? members (some field.name)) (view done) := by
  induction members with
  | nil =>
    intro seen draft done _ read
    cases read
    exact .absent
  | cons entry rest ih =>
    intro seen draft done unseen read
    obtain ⟨name, tree⟩ := entry
    cases name with
    | none => cases read
    | some name =>
      rw [Ordered.get?]
      rcases cases_of_member read with
        ⟨missing, later⟩ | ⟨other, next, found, named, fresh, here, later⟩
      · have different : some name ≠ some field.name := by
          rintro ⟨⟩
          cases missing.symm.trans listed
        rw [if_neg different]
        exact ih seen draft done unseen later
      · by_cases same : name = field.name
        · subst same
          obtain rfl := Option.some.inj (found.symm.trans listed)
          rw [if_pos rfl, view_of_seen owns rest _ next done List.mem_cons_self later]
          exact .given (owns.own tree draft next here)
        · have unseenLater : field.name ∉ name :: seen := by
            rintro (_ | ⟨_, known⟩)
            · exact same rfl
            · exact unseen known
          have kept :=
            owns.others other (List.mem_of_find?_eq_some found) (named ▸ same) tree draft next here
          rw [if_neg (fun equal => same (Option.some.inj equal)), ← kept]
          exact ih (name :: seen) next done unseenLater later

/-- The fields of the array form that are left are of other names, so that they leave a field as it
is. -/
theorem view_of_items {fields : List (Field σ)}
    (others : ∀ other ∈ fields, ∀ tree draft next, other.read tree draft = .ok next →
      view next = view draft) :
    ∀ (items : List Tree) (draft done : σ), readItemsAs fields items draft = .ok done →
      view done = view draft := by
  induction fields with
  | nil =>
    intro items draft done read
    cases items with
    | nil =>
      cases read
      rfl
    | cons item items => cases read
  | cons field rest ih =>
    have later := ih fun other member => others other (List.mem_cons_of_mem _ member)
    intro items draft done read
    cases items with
    | nil =>
      rw [readItemsAs] at read
      split at read
      · exact later [] draft done read
      · cases read
    | cons item items =>
      rw [readItemsAs] at read
      split at read
      · cases read
      · rename_i next readHere
        rw [later items next done read]
        exact others field List.mem_cons_self item draft next readHere

theorem readsPart_of_items {field : Field σ} {back : List (Field σ)} (front : List (Field σ))
    (owns : field.Owns (front ++ field :: back) holds view)
    (distinct : ((front ++ field :: back).map (·.name)).Nodup) :
    ∀ (items : List Tree) (draft done : σ),
      readItemsAs (front ++ field :: back) items draft = .ok done →
        ReadsPart holds (view draft) items[front.length]? (view done) := by
  induction front with
  | nil =>
    rw [List.nil_append, List.map_cons, List.nodup_cons] at distinct
    have others : ∀ other ∈ back, ∀ tree draft next, other.read tree draft = .ok next →
        view next = view draft := by
      intro other member
      refine owns.others other (List.mem_cons_of_mem _ member) fun same => ?_
      exact distinct.1 (same ▸ List.mem_map_of_mem member)
    intro items draft done read
    rw [List.nil_append] at read
    cases items with
    | nil =>
      rw [readItemsAs] at read
      split at read
      · rw [view_of_items others [] draft done read]
        exact .absent
      · cases read
    | cons item items =>
      rw [readItemsAs] at read
      split at read
      · cases read
      · rename_i next readHere
        rw [view_of_items others items next done read]
        exact .given (owns.own item draft next readHere)
  | cons first rest ih =>
    rw [List.cons_append, List.map_cons, List.nodup_cons] at distinct
    have later :=
      ih ⟨owns.own, fun other member => owns.others other (List.mem_cons_of_mem _ member)⟩
        distinct.2
    have different : first.name ≠ field.name := by
      intro same
      exact distinct.1 (same ▸ List.mem_map_of_mem (List.mem_append_right _ List.mem_cons_self))
    intro items draft done read
    rw [List.cons_append] at read
    cases items with
    | nil =>
      rw [readItemsAs] at read
      split at read
      · have none := later [] draft done read
        rw [List.getElem?_nil] at none ⊢
        exact none
      · cases read
    | cons item items =>
      rw [readItemsAs] at read
      split at read
      · cases read
      · rename_i next readHere
        rw [← owns.others first List.mem_cons_self different item draft next readHere,
          List.length_cons, List.getElem?_cons_succ]
        exact later items next done read

variable (view) in
theorem readsPart_of_record {room : Nat} {field : Field σ} (front : List (Field σ))
    {back : List (Field σ)} (owns : field.Owns (front ++ field :: back) holds view)
    (distinct : ((front ++ field :: back).map (·.name)).Nodup) {tree : Tree} {draft done : σ}
    (read : readRecord room (front ++ field :: back) unknown draft tree = .ok done) :
    ReadsPart holds (view draft) (tree.part? field.name front.length) (view done) := by
  cases tree with
  | object members =>
    rw [readRecord] at read
    split at read
    · cases read
    · refine readsPart_of_members owns ?_ members [] draft done List.not_mem_nil read
      rw [List.map_append, List.nodup_append] at distinct
      have absent : front.find? (·.name == field.name) = none := by
        rw [List.find?_eq_none]
        intro other member same
        refine distinct.2.2 _ (List.mem_map_of_mem member) _ ?_ (beq_iff_eq.mp same)
        exact List.mem_map_of_mem List.mem_cons_self
      rw [List.find?_append, absent, Option.none_or, List.find?_cons, beq_self_eq_true]
  | array items =>
    rw [readRecord] at read
    split at read
    · cases read
    · exact readsPart_of_items front owns distinct items draft done read
  | null | bool | number | string | broken => cases read

end

end MockGraph.Tree
