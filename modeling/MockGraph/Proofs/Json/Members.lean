import Mathlib.Data.List.Perm.Basic
import MockGraph.Proofs.Json.Records
set_option autoImplicit false

namespace MockGraph

namespace Ordered

variable {κ β : Type} [DecidableEq κ]

/-- Entries with distinct keys are looked up alike in any order. -/
theorem get?_perm {entries others : Ordered κ β} (distinct : entries.keys.Nodup)
    (perm : entries.Perm others) (key : κ) : entries.get? key = others.get? key := by
  have distinct' : others.keys.Nodup := (perm.map Prod.fst).nodup_iff.mp distinct
  cases found : others.get? key with
  | some value => exact get?_of_mem distinct (perm.mem_iff.mpr (mem_of_get? found))
  | none =>
    rw [get?_eq_none_iff] at found ⊢
    exact fun member => found ((perm.map Prod.fst).mem_iff.mp member)

end Ordered

namespace Tree

theorem toOption_eq_some_iff {α : Type} {read : Except Fault α} {a : α} :
    read.toOption = some a ↔ read = .ok a := by
  cases read <;> simp [Except.toOption]

theorem readText_eq_ok_iff {tree : Tree} {text : String} :
    tree.readText = .ok text ↔ tree = string (some text) := by
  constructor
  · intro read
    unfold readText at read
    split at read
    · rw [Except.ok.inj read]
    · cases read
  · rintro rfl
    rfl

/-- A reader takes all of the tree: no number in it is too large, no string holds half a surrogate
pair, and nothing is nested too deep. -/
def Readable (tree : Tree) : Prop := ∃ json, tree.value maxDepth = .ok json

/-- What the members of an object are read as, one by one. -/
abbrev ReadAs (room : Nat) (member : Option String × Tree) (entry : String × Json) : Prop :=
  member.1 = some entry.1 ∧ member.2.value room = .ok entry.2

theorem memberValues_eq_ok_iff {room : Nat} {members : List (Option String × Tree)} :
    ∀ {before after : Ordered String Json}, (before.keys.map some ++ members.map Prod.fst).Nodup →
      (memberValues room members before = .ok after ↔
        ∃ values, after = before ++ values ∧ List.Forall₂ (ReadAs room) members values) := by
  induction members with
  | nil =>
    intro before after _
    constructor
    · rintro ⟨⟩
      exact ⟨[], (List.append_nil _).symm, .nil⟩
    · rintro ⟨values, rfl, ⟨⟩⟩
      rw [memberValues, List.append_nil]
  | cons member members ih =>
    intro before after distinct
    obtain ⟨name, tree⟩ := member
    cases name with
    | none =>
      constructor
      · rintro ⟨⟩
      · rintro ⟨values, -, each⟩
        cases each with
        | cons first _ => cases first.1
    | some name =>
      have absent : name ∉ before.keys := by
        intro inside
        have apart := (List.nodup_append.mp distinct).2.2 (some name) (List.mem_map_of_mem inside)
        exact apart (some name) List.mem_cons_self rfl
      have later : ∀ value,
          ((before ++ [(name, value)]).keys.map some ++ members.map Prod.fst).Nodup := by
        intro value
        simpa [Ordered.keys] using distinct
      rw [memberValues]
      cases here : tree.value room with
      | error fault =>
        constructor
        · rintro ⟨⟩
        · rintro ⟨values, -, each⟩
          cases each with
          | cons first _ => cases here.symm.trans first.2
      | ok value =>
        dsimp only
        rw [Ordered.insert_of_notMem _ _ _ absent, ih (later value)]
        constructor
        · rintro ⟨values, rfl, each⟩
          exact ⟨(name, value) :: values, by rw [List.append_assoc]; rfl, .cons ⟨rfl, here⟩ each⟩
        · rintro ⟨values, rfl, each⟩
          cases each with
          | @cons _ entry _ rest first each =>
            obtain ⟨same, read⟩ := first
            obtain ⟨name', value'⟩ := entry
            obtain rfl : name = name' := Option.some.inj same
            obtain rfl : value = value' := Except.ok.inj (here.symm.trans read)
            exact ⟨rest, by rw [List.append_assoc]; rfl, each⟩

theorem memberValues_iff {room : Nat} {members : List (Option String × Tree)}
    {entries : Ordered String Json} (distinct : (members.map Prod.fst).Nodup) :
    memberValues room members [] = .ok entries ↔ List.Forall₂ (ReadAs room) members entries := by
  have split := @memberValues_eq_ok_iff room members [] entries distinct
  simpa only [List.nil_append, exists_eq_left'] using split

/-- An object with distinct names that has a value has the same value, up to the order of its
members, in any order. -/
theorem value_object_perm {room : Nat} {members others : List (Option String × Tree)} {json : Json}
    (distinct : (members.map Prod.fst).Nodup) (perm : members.Perm others)
    (read : (object members).value room = .ok json) :
    ∃ values values', json = .object values ∧ (object others).value room = .ok (.object values') ∧
      values.Perm values' := by
  cases room with
  | zero => simp [value] at read
  | succ room =>
    rw [value] at read
    obtain ⟨values, inside, rfl⟩ := exists_of_map read
    obtain ⟨values', each', perm'⟩ :=
      List.perm_comp_forall₂ perm.symm ((memberValues_iff distinct).mp inside)
    have distinct' : (others.map Prod.fst).Nodup := (perm.map Prod.fst).nodup_iff.mp distinct
    refine ⟨values, values', rfl, ?_, perm'.symm⟩
    rw [value, (memberValues_iff distinct').mpr each']
    rfl

mutual

theorem isWhole_of_value : ∀ (tree : Tree) (room : Nat) (json : Json), tree.value room = .ok json →
    tree.isWhole = true
  | null, _, _, _ | bool _, _, _, _ | number _, _, _, _ | string _, _, _, _ => rfl
  | broken, _, _, read | array _, 0, _, read | object _, 0, _, read => by simp [value] at read
  | array items, room + 1, json, read => by
    rw [value] at read
    obtain ⟨jsons, inside, -⟩ := exists_of_map read
    exact allWhole_of_values items room jsons inside
  | object members, room + 1, json, read => by
    rw [value] at read
    obtain ⟨jsons, inside, -⟩ := exists_of_map read
    exact membersWhole_of_values members room [] jsons inside

theorem allWhole_of_values : ∀ (items : List Tree) (room : Nat) (jsons : List Json),
    values room items = .ok jsons → allWhole items = true
  | [], _, _, _ => rfl
  | item :: items, room, jsons, read => by
    rw [values] at read
    cases first : item.value room with
    | error fault => simp [first] at read
    | ok json =>
      simp only [first] at read
      obtain ⟨others, later, -⟩ := exists_of_map read
      rw [allWhole, isWhole_of_value item room json first,
        allWhole_of_values items room others later]
      rfl

theorem membersWhole_of_values : ∀ (members : List (Option String × Tree)) (room : Nat)
    (before after : Ordered String Json), memberValues room members before = .ok after →
    membersWhole members = true
  | [], _, _, _, _ => rfl
  | (none, _) :: _, _, _, _, read => by simp [memberValues] at read
  | (some name, tree) :: members, room, before, after, read => by
    rw [memberValues] at read
    cases first : tree.value room with
    | error fault => simp [first] at read
    | ok json =>
      simp only [first] at read
      rw [membersWhole, isWhole_of_value tree room json first,
        membersWhole_of_values members room _ after read]
      rfl

end

/-- Every member of an object that is read has a name and a value. -/
theorem readAs_of_memberValues {room : Nat} (members : List (Option String × Tree)) :
    ∀ before after : Ordered String Json, memberValues room members before = .ok after →
      ∀ member ∈ members, ∃ entry, ReadAs room member entry := by
  induction members with
  | nil => nofun
  | cons first rest ih =>
    intro before after read
    obtain ⟨name, tree⟩ := first
    cases name with
    | none => cases read
    | some name =>
      rw [memberValues] at read
      cases here : tree.value room with
      | error fault => simp [here] at read
      | ok json =>
        simp only [here] at read
        intro member inside
        rcases List.mem_cons.mp inside with rfl | inside
        · exact ⟨(name, json), rfl, here⟩
        · exact ih _ after read member inside

theorem exists_memberValues {room : Nat} (members : List (Option String × Tree)) :
    ∀ before : Ordered String Json, (∀ member ∈ members, ∃ entry, ReadAs room member entry) →
      ∃ after, memberValues room members before = .ok after := by
  induction members with
  | nil => exact fun before _ => ⟨before, rfl⟩
  | cons first rest ih =>
    intro before each
    obtain ⟨name, tree⟩ := first
    obtain ⟨entry, named, here⟩ := each _ List.mem_cons_self
    obtain rfl : name = some entry.1 := named
    rw [memberValues, here]
    exact ih _ fun member inside => each member (List.mem_cons_of_mem _ inside)

theorem readable_object_iff {members : List (Option String × Tree)} :
    Readable (object members) ↔
      ∀ member ∈ members, ∃ entry, ReadAs (maxDepth - 1) member entry := by
  constructor
  · rintro ⟨json, read⟩
    obtain ⟨after, inside, -⟩ := exists_of_map read
    exact readAs_of_memberValues members [] after inside
  · intro each
    obtain ⟨after, inside⟩ := exists_memberValues members [] each
    exact ⟨.object after, by rw [maxDepth, value]; exact congrArg (Except.map Json.object) inside⟩

/-- What stands under a name of an object that can be read has a value. -/
theorem Readable.get? {members : List (Option String × Tree)} (readable : Readable (object members))
    {name : Option String} {tree : Tree} (found : Ordered.get? members name = some tree) :
    Readable tree := by
  obtain ⟨entry, -, read⟩ := readable_object_iff.mp readable _ (Ordered.mem_of_get? found)
  exact ⟨entry.2, value_mono tree _ maxDepth entry.2 (Nat.sub_le _ 1) read⟩

/-- A member that can be passed over: it has a name, and its value is whole. -/
def Passable (member : Option String × Tree) : Prop := member.1 ≠ none ∧ member.2.isWhole = true

theorem ReadAs.passable {room : Nat} {member : Option String × Tree} {entry : String × Json}
    (read : ReadAs room member entry) : Passable member :=
  ⟨by rw [read.1]; nofun, isWhole_of_value member.2 room entry.2 read.2⟩

theorem Readable.passable {members : List (Option String × Tree)}
    (readable : Readable (object members)) : ∀ member ∈ members, Passable member := by
  intro member inside
  obtain ⟨entry, read⟩ := readable_object_iff.mp readable member inside
  exact read.passable

/-- Whether an object can be read does not depend on the order of its members. -/
theorem readable_perm {members others : List (Option String × Tree)} (perm : members.Perm others) :
    Readable (object members) ↔ Readable (object others) := by
  simp only [readable_object_iff, perm.mem_iff]

section

variable {σ : Type}

/-- Reads a field from its part of a record, if there is one. -/
def Field.take? (field : Field σ) (part : Option Tree) (draft : σ) : Option σ :=
  match part with
  | none => some draft
  | some tree => (field.read tree draft).toOption

/-- Reads each field of a record from the part under its name. -/
def readParts? (fields : List (Field σ)) (part? : String → Option Tree) (draft : σ) : Option σ :=
  fields.foldlM (fun draft field => field.take? (part? field.name) draft) draft

/-- Two fields may be read in either order. -/
def Field.Commutes (one other : Field σ) : Prop := ∀ first second draft,
  ((one.read first draft).toOption.bind fun next => (other.read second next).toOption) =
    (other.read second draft).toOption.bind fun next => (one.read first next).toOption

theorem Field.commutes_of_sets {α β : Type} {one other : Field σ} {parse : Tree → Except Fault α}
    {parse' : Tree → Except Fault β} {set : α → σ → σ} {set' : β → σ → σ}
    (reads : ∀ tree draft, one.read tree draft = (parse tree).map fun a => set a draft)
    (reads' : ∀ tree draft, other.read tree draft = (parse' tree).map fun b => set' b draft)
    (apart : ∀ a b draft, set' b (set a draft) = set a (set' b draft)) : one.Commutes other := by
  intro first second draft
  rw [reads, reads']
  cases here : parse first with
  | error fault =>
    cases parse' second with
    | error fault' => rfl
    | ok b => simp [reads, here, Except.map, Except.toOption]
  | ok a =>
    cases there : parse' second with
    | error fault' => simp [reads', there, Except.map, Except.toOption]
    | ok b => simp [reads, reads', here, there, Except.map, Except.toOption, apart]

/-- Fields with names of their own that may be read in any order. -/
structure Free (fields : List (Field σ)) : Prop where
  distinct : (fields.map (·.name)).Nodup
  commute : ∀ one ∈ fields, ∀ other ∈ fields, one.name ≠ other.name → one.Commutes other

theorem Field.Commutes.symm {one other : Field σ} (commute : one.Commutes other) :
    other.Commutes one :=
  fun first second draft => (commute second first draft).symm

theorem free_nil : Free ([] : List (Field σ)) := ⟨List.nodup_nil, nofun⟩

theorem free_singleton (field : Field σ) : Free [field] := by
  refine ⟨by simp, fun one member other member' different => ?_⟩
  rw [List.mem_singleton.mp member, List.mem_singleton.mp member'] at different
  exact absurd rfl different

theorem free_pair {one other : Field σ} (different : one.name ≠ other.name)
    (commute : one.Commutes other) : Free [one, other] := by
  refine ⟨by simp [different], fun first member second member' apart => ?_⟩
  simp only [List.mem_cons, List.not_mem_nil, or_false] at member member'
  rcases member with rfl | rfl <;> rcases member' with rfl | rfl
  · exact absurd rfl apart
  · exact commute
  · exact commute.symm
  · exact absurd rfl apart

theorem Field.Commutes.take? {one other : Field σ} (commute : one.Commutes other) (first : Tree)
    (second : Option Tree) (draft : σ) :
    ((other.take? second draft).bind fun next => (one.read first next).toOption) =
      (one.read first draft).toOption.bind fun next => other.take? second next := by
  cases second with
  | none => simp [Field.take?]
  | some second => exact (commute first second draft).symm

theorem readParts?_cons (field : Field σ) (fields : List (Field σ)) (part? : String → Option Tree)
    (draft : σ) :
    readParts? (field :: fields) part? draft =
      (field.take? (part? field.name) draft).bind (readParts? fields part?) :=
  rfl

theorem readParts?_congr {fields : List (Field σ)} {part? part?' : String → Option Tree}
    (alike : ∀ field ∈ fields, part? field.name = part?' field.name) (draft : σ) :
    readParts? fields part? draft = readParts? fields part?' draft := by
  induction fields generalizing draft with
  | nil => rfl
  | cons field fields ih =>
    have later := ih fun other member => alike other (List.mem_cons_of_mem _ member)
    rw [readParts?_cons, readParts?_cons, alike field List.mem_cons_self, funext later]

theorem readParts?_extract {fields : List (Field σ)} (free : Free fields) {field : Field σ}
    (member : field ∈ fields) {tree : Tree} {part? rest? : String → Option Tree}
    (given : part? field.name = some tree) (taken : rest? field.name = none)
    (alike : ∀ name, name ≠ field.name → part? name = rest? name) (draft : σ) :
    readParts? fields part? draft =
      (field.read tree draft).toOption.bind (readParts? fields rest?) := by
  induction fields generalizing draft with
  | nil => cases member
  | cons first fields ih =>
    obtain ⟨fresh, distinct⟩ := List.nodup_cons.mp free.distinct
    have free' : Free fields := ⟨distinct, fun one inside other inside' =>
      free.commute one (List.mem_cons_of_mem _ inside) other (List.mem_cons_of_mem _ inside')⟩
    have different : ∀ other ∈ fields, other.name ≠ first.name := fun other inside same =>
      fresh (List.mem_map.mpr ⟨other, inside, same⟩)
    rw [readParts?_cons]
    rcases List.mem_cons.mp member with rfl | inside
    · have others : ∀ other ∈ fields, part? other.name = rest? other.name := fun other inside =>
        alike other.name (different other inside)
      have ahead : readParts? (field :: fields) rest? = readParts? fields rest? := by
        funext draft
        rw [readParts?_cons, taken]
        rfl
      rw [given, ahead, funext (readParts?_congr others)]
      rfl
    · have commute := free.commute field member first List.mem_cons_self (different field inside)
      calc (first.take? (part? first.name) draft).bind (readParts? fields part?)
          = (first.take? (rest? first.name) draft).bind fun next =>
              (field.read tree next).toOption.bind (readParts? fields rest?) := by
            rw [alike first.name (different field inside).symm, funext (ih free' inside)]
        _ = ((field.read tree draft).toOption.bind fun next =>
              first.take? (rest? first.name) next).bind (readParts? fields rest?) := by
            rw [← Option.bind_assoc, commute.take?]
        _ = (field.read tree draft).toOption.bind (readParts? (first :: fields) rest?) := by
            rw [Option.bind_assoc]
            rfl

theorem readParts?_none {fields : List (Field σ)} {part? : String → Option Tree}
    (absent : ∀ name, part? name = none) (draft : σ) :
    readParts? fields part? draft = some draft := by
  induction fields generalizing draft with
  | nil => rfl
  | cons field fields ih =>
    rw [readParts?_cons, absent]
    exact ih draft

/-- Members with distinct names are read as the parts of the fields, in whatever order they come. -/
theorem toOption_readMembersAs {fields : List (Field σ)} (free : Free fields)
    (members : List (Option String × Tree)) :
    ∀ (seen : List String) (draft : σ), (members.map Prod.fst).Nodup →
      (∀ name ∈ seen, some name ∉ members.map Prod.fst) → (∀ member ∈ members, Passable member) →
      (readMembersAs fields .skip members seen draft).toOption =
        readParts? fields (fun name => Ordered.get? members (some name)) draft := by
  induction members with
  | nil =>
    intro seen draft _ _ _
    exact (readParts?_none (fun _ => rfl) draft).symm
  | cons member members ih =>
    intro seen draft apart unseen passable
    obtain ⟨fresh, distinct⟩ := List.nodup_cons.mp apart
    obtain ⟨named, whole⟩ := passable member List.mem_cons_self
    have passable' : ∀ other ∈ members, Passable other := fun other inside =>
      passable other (List.mem_cons_of_mem _ inside)
    have unseen' : ∀ name ∈ seen, some name ∉ members.map Prod.fst := fun name known inside =>
      unseen name known (List.mem_cons_of_mem _ inside)
    obtain ⟨name, tree⟩ := member
    cases name with
    | none => exact absurd rfl named
    | some name =>
      have alike : ∀ other, other ≠ name →
          Ordered.get? ((some name, tree) :: members) (some other) =
            Ordered.get? members (some other) := by
        intro other different
        rw [Ordered.get?, if_neg fun same => different (Option.some.inj same).symm]
      rw [readMembersAs]
      cases found : fields.find? (·.name == name) with
      | none =>
        dsimp only
        rw [if_pos whole, ih seen draft distinct unseen' passable']
        refine (readParts?_congr (fun field member => alike field.name ?_) draft).symm
        exact fun same => List.find?_eq_none.mp found field member (beq_iff_eq.mpr same)
      | some field =>
        have known := List.find?_some found
        obtain rfl : field.name = name := beq_iff_eq.mp known
        have given : Ordered.get? ((some field.name, tree) :: members) (some field.name) =
            some tree := if_pos rfl
        have taken : Ordered.get? members (some field.name) = none :=
          (Ordered.get?_eq_none_iff _ _).mpr fresh
        have new : field.name ∉ seen := fun before => unseen field.name before List.mem_cons_self
        dsimp only
        rw [if_neg new, readParts?_extract free (List.mem_of_find?_eq_some found) given taken alike]
        cases field.read tree draft with
        | error fault => rfl
        | ok next =>
          refine ih (field.name :: seen) next distinct ?_ passable'
          intro other known
          rcases List.mem_cons.mp known with rfl | known
          · exact fresh
          · exact unseen' other known

/-- A record is read from the parts of an object under the names of its fields. -/
theorem toOption_readRecord {fields : List (Field σ)} (free : Free fields) (room : Nat)
    {members : List (Option String × Tree)} (distinct : (members.map Prod.fst).Nodup)
    (passable : ∀ member ∈ members, Passable member) (draft : σ) :
    (readRecord (room + 1) fields .skip draft (object members)).toOption =
      readParts? fields (fun name => Ordered.get? members (some name)) draft :=
  toOption_readMembersAs free members [] draft distinct nofun passable

end

end Tree

end MockGraph
