import MockGraph.Proofs.Execution.Places
set_option autoImplicit false

namespace MockGraph

/-- Neither of two paths leads through the end of the other. -/
def Apart (one other : List PathSegment) : Prop := ¬ one <+: other ∧ ¬ other <+: one

theorem Apart.cons {one other : List PathSegment} (segment : PathSegment)
    (apart : Apart one other) : Apart (segment :: one) (segment :: other) := by
  simpa [Apart] using apart

theorem apart_of_ne {first second : PathSegment} (different : first ≠ second)
    (one other : List PathSegment) : Apart (first :: one) (second :: other) := by
  simp [Apart, different, Ne.symm different]

/-- Errors below a place explain what became of its value, where only places with a property take
nulls. A missing value has an error with no such place on its way, an error below a value has a null
on its way, and a null that is not given stands at the nearest place of an error that may be
null. -/
structure Explained (schema : TypeSystem) (place : Place) (takes : List PathSegment → Prop)
    (given : List PathSegment → Prop) (value : Option Json) (errors : List (List PathSegment)) :
    Prop where
  apart : errors.Pairwise Apart
  escaped : value = none → ∃ error ∈ errors, ∀ path, path <+: error → takes path →
    place.isNullableAt schema path = false
  absorbed : ∀ json, value = some json → ∀ error ∈ errors, ∃ path, path <+: error ∧ takes path ∧
    place.isNullableAt schema path = true ∧ json.at? path = some .null
  nulls : ∀ json, value = some json → ∀ path, json.at? path = some .null →
    given path ∨ ∃ error ∈ errors, place.IsNearest schema error path

/-- Below a value, but not at the value itself. -/
abbrev Inside (path : List PathSegment) : Prop := path ≠ []

/-- At a value or below it. -/
abbrev Anywhere (_ : List PathSegment) : Prop := True

namespace Explained

variable {schema : TypeSystem} {place : Place} {takes given : List PathSegment → Prop}
  {value : Option Json} {errors : List (List PathSegment)}

/-- A value without errors needs an explanation only of the nulls in it. -/
theorem of_value {json : Json} (nulls : ∀ path, json.at? path = some .null → given path) :
    Explained schema place takes given (some json) [] := by
  refine ⟨.nil, nofun, ?_, ?_⟩
  · intro _ _ error member
    cases member
  · rintro _ ⟨⟩ path found
    exact Or.inl (nulls path found)

theorem of_error : Explained schema place Inside given none [[]] := by
  refine ⟨List.pairwise_singleton .., ?_, nofun, nofun⟩
  refine fun _ => ⟨[], List.mem_singleton_self _, ?_⟩
  intro path inside takes
  exact absurd (List.prefix_nil.mp inside) takes

theorem mono {given' : List PathSegment → Prop}
    (explained : Explained schema place takes given value errors)
    (more : ∀ path, given path → given' path) :
    Explained schema place takes given' value errors := by
  refine ⟨explained.apart, explained.escaped, explained.absorbed, ?_⟩
  intro json success path found
  exact (explained.nulls json success path found).imp_left (more path)

/-- A place that may be null takes the null of an error that nothing below it takes. -/
theorem absorb (explained : Explained schema place Inside given value errors) :
    Explained schema place Anywhere given
      (value.or (if place.type.isNonNull then none else some .null)) errors := by
  cases value with
  | some json =>
    refine ⟨explained.apart, nofun, ?_, explained.nulls⟩
    intro json success error member
    obtain ⟨path, inside, -, nullable, found⟩ := explained.absorbed json success error member
    exact ⟨path, inside, trivial, nullable, found⟩
  | none =>
    obtain ⟨error, member, below⟩ := explained.escaped rfl
    cases required : place.type.isNonNull with
    | true =>
      refine ⟨explained.apart, fun _ => ⟨error, member, ?_⟩, nofun, nofun⟩
      intro path inside _
      by_cases empty : path = []
      · simp [empty, required]
      · exact below path inside empty
    | false =>
      have here : place.isNullableAt schema [] = true := by simp [required]
      refine ⟨explained.apart, nofun, ?_, ?_⟩
      · rintro _ ⟨⟩ other _
        exact ⟨[], List.nil_prefix, trivial, here, Json.at?_nil _⟩
      · rintro _ ⟨⟩ path found
        obtain rfl := Json.eq_nil_of_null_at? found
        refine Or.inr ⟨error, member, List.nil_prefix, here, ?_⟩
        intro path inside nullable
        by_cases empty : path = []
        · simp [empty]
        · rw [below path inside empty] at nullable
          cases nullable

theorem errors_of_null (explained : Explained schema place Inside given (some .null) errors) :
    errors = [] := by
  cases errors with
  | nil => rfl
  | cons error rest =>
    obtain ⟨path, -, inside, -, found⟩ := explained.absorbed .null rfl error (List.mem_cons_self ..)
    exact absurd (Json.eq_nil_of_null_at? found) inside

/-- A non-null mark lets errors out that the place itself would take. -/
theorem required {type : TypeRef} {selection : List FieldSelection}
    (explained : Explained schema ⟨type, selection⟩ Inside given value errors)
    (present : value ≠ some .null) :
    Explained schema ⟨.nonNull type, selection⟩ Inside given value errors := by
  refine ⟨explained.apart, ?_, ?_, ?_⟩
  · intro missing
    obtain ⟨error, member, below⟩ := explained.escaped missing
    refine ⟨error, member, fun path inside takes => ?_⟩
    rw [Place.isNullableAt_nonNull type selection takes]
    exact below path inside takes
  · intro json success error member
    obtain ⟨path, inside, takes, nullable, found⟩ := explained.absorbed json success error member
    refine ⟨path, inside, takes, ?_, found⟩
    rwa [Place.isNullableAt_nonNull type selection takes]
  · intro json success path found
    refine (explained.nulls json success path found).imp_right ?_
    rintro ⟨error, member, is⟩
    have inside : path ≠ [] := by
      rintro rfl
      rw [Json.at?_nil] at found
      exact present (success.trans found)
    refine ⟨error, member, is.inside, ?_, ?_⟩
    · rw [Place.isNullableAt_nonNull type selection inside]
      exact is.nullable
    · intro other further nullable
      by_cases empty : other = []
      · simp [empty]
      · rw [Place.isNullableAt_nonNull type selection empty] at nullable
        exact is.longest other further nullable

end Explained

/-- The parts of a value, by the steps that lead to them. -/
structure Parts (value : Json) (parts : Ordered PathSegment Json) : Prop where
  present : value ≠ .null
  below : ∀ segment rest, value.at? (segment :: rest) =
    (Ordered.get? parts segment).bind fun part => part.at? rest

/-- Errors below some of the steps from a place explain what became of the parts there: all of them
are known, or one is missing that the place around it cannot do without. -/
structure Collected (schema : TypeSystem) (place : Place) (given : List PathSegment → Prop)
    (segments : List PathSegment) (parts : Option (Ordered PathSegment Json))
    (errors : List (List PathSegment)) : Prop where
  under : ∀ error ∈ errors, ∃ segment ∈ segments, [segment] <+: error
  apart : errors.Pairwise Apart
  known : ∀ all, parts = some all → ∀ segment ∈ Ordered.keys all, segment ∈ segments
  escaped : parts = none → ∃ error ∈ errors, ∀ path, path <+: error → Inside path →
    place.isNullableAt schema path = false
  absorbed : ∀ all, parts = some all → ∀ error ∈ errors, ∃ segment rest part,
    Ordered.get? all segment = some part ∧ segment :: rest <+: error ∧
      place.isNullableAt schema (segment :: rest) = true ∧ part.at? rest = some .null
  nulls : ∀ all, parts = some all → ∀ segment part, Ordered.get? all segment = some part → ∀ rest,
    part.at? rest = some .null →
      given (segment :: rest) ∨ ∃ error ∈ errors, place.IsNearest schema error (segment :: rest)

namespace Collected

variable {schema : TypeSystem} {place inner : Place} {given : List PathSegment → Prop}
  {segment : PathSegment} {segments : List PathSegment} {parts : Option (Ordered PathSegment Json)}
  {errors others : List (List PathSegment)}

theorem nil : Collected schema place given [] (some []) [] := by
  refine ⟨nofun, .nil, ?_, nofun, ?_, ?_⟩
  · rintro _ ⟨⟩ segment member
    cases member
  · intro _ _ error member
    cases member
  · rintro _ ⟨⟩ segment part found
    cases found

/-- A step that the place does not have fails, and what comes after it is not reached. -/
theorem stuck (below : Place.belowType? schema place.selection place.type segment = none) :
    Collected schema place given (segment :: segments) none [[segment]] := by
  refine ⟨?_, List.pairwise_singleton .., nofun, ?_, nofun, nofun⟩
  · intro error member
    obtain rfl := List.mem_singleton.mp member
    exact ⟨segment, List.mem_cons_self .., List.prefix_rfl⟩
  · refine fun _ => ⟨[segment], List.mem_singleton_self _, ?_⟩
    intro path inside takes
    cases path with
    | nil => exact absurd rfl takes
    | cons first rest =>
      obtain ⟨rfl, -⟩ := List.cons_prefix_cons.mp inside
      exact Place.isNullableAt_cons_of_none below

theorem under_cons (errors : List (List PathSegment)) :
    ∀ error ∈ errors.map (segment :: ·), ∃ first ∈ segment :: segments, [first] <+: error := by
  intro error member
  obtain ⟨rest, -, rfl⟩ := List.mem_map.mp member
  exact ⟨segment, List.mem_cons_self .., by simp⟩

theorem stop (below : Place.belowType? schema place.selection place.type segment = some inner)
    {given' : List PathSegment → Prop} (head : Explained schema inner Anywhere given' none errors) :
    Collected schema place given (segment :: segments) none (errors.map (segment :: ·)) := by
  refine ⟨under_cons errors, ?_, nofun, ?_, nofun, nofun⟩
  · exact List.pairwise_map.mpr (head.apart.imp (Apart.cons segment))
  · obtain ⟨error, member, escaped⟩ := head.escaped rfl
    refine fun _ => ⟨segment :: error, List.mem_map_of_mem member, ?_⟩
    intro path inside takes
    cases path with
    | nil => exact absurd rfl takes
    | cons first rest =>
      obtain ⟨rfl, further⟩ := List.cons_prefix_cons.mp inside
      rw [Place.isNullableAt_cons_of_some below]
      exact escaped rest further trivial

theorem cons (below : Place.belowType? schema place.selection place.type segment = some inner)
    {part : Json}
    (head : Explained schema inner Anywhere (fun rest => given (segment :: rest)) (some part)
      errors) (fresh : segment ∉ segments)
    (tail : Collected schema place given segments parts others) :
    Collected schema place given (segment :: segments) (parts.map ((segment, part) :: ·))
      (errors.map (segment :: ·) ++ others) := by
  have elsewhere : ∀ all, parts = some all →
      ∀ other found, Ordered.get? all other = some found → segment ≠ other := by
    rintro all reached other found get rfl
    exact fresh (tail.known all reached _ (List.mem_map_of_mem (Ordered.mem_of_get? get)))
  refine ⟨?_, ?_, ?_, ?_, ?_, ?_⟩
  · intro error member
    rcases List.mem_append.mp member with member | member
    · exact under_cons errors error member
    · obtain ⟨first, inside, starts⟩ := tail.under error member
      exact ⟨first, List.mem_cons_of_mem _ inside, starts⟩
  · refine List.pairwise_append.mpr
      ⟨List.pairwise_map.mpr (head.apart.imp (Apart.cons segment)), tail.apart, ?_⟩
    intro one member other otherMember
    obtain ⟨rest, -, rfl⟩ := List.mem_map.mp member
    obtain ⟨first, inside, ⟨more, rfl⟩⟩ := tail.under other otherMember
    have different : segment ≠ first := by
      rintro rfl
      exact fresh inside
    exact apart_of_ne different rest more
  · intro all reached other member
    obtain ⟨rest, found, rfl⟩ := Option.map_eq_some_iff.mp reached
    rcases List.mem_cons.mp member with rfl | member
    · exact List.mem_cons_self ..
    · exact List.mem_cons_of_mem _ (tail.known rest found other member)
  · intro missing
    obtain ⟨error, member, escaped⟩ := tail.escaped (Option.map_eq_none_iff.mp missing)
    exact ⟨error, List.mem_append_right _ member, escaped⟩
  · intro all reached error member
    obtain ⟨rest, found, rfl⟩ := Option.map_eq_some_iff.mp reached
    rcases List.mem_append.mp member with member | member
    · obtain ⟨further, inHead, rfl⟩ := List.mem_map.mp member
      obtain ⟨path, inside, -, nullable, null⟩ := head.absorbed part rfl further inHead
      refine ⟨segment, path, part, by simp [Ordered.get?],
        (List.prefix_cons_inj segment).mpr inside, ?_, null⟩
      rwa [Place.isNullableAt_cons_of_some below]
    · obtain ⟨other, path, value, get, inside, nullable, null⟩ :=
        tail.absorbed rest found error member
      refine ⟨other, path, value, ?_, inside, nullable, null⟩
      simpa only [Ordered.get?, elsewhere rest found other value get, if_false] using get
  · intro all reached other value get path null
    obtain ⟨rest, found, rfl⟩ := Option.map_eq_some_iff.mp reached
    by_cases here : segment = other
    · subst here
      obtain rfl : part = value := by simpa [Ordered.get?] using get
      rcases head.nulls part rfl path null with supplied | ⟨error, member, is⟩
      · exact Or.inl supplied
      · exact Or.inr ⟨_, List.mem_append_left _ (List.mem_map_of_mem member), is.cons below⟩
    · simp only [Ordered.get?, here, if_false] at get
      rcases tail.nulls rest found other value get path null with supplied | ⟨error, member, is⟩
      · exact Or.inl supplied
      · exact Or.inr ⟨error, List.mem_append_right _ member, is⟩

theorem mono {given' : List PathSegment → Prop}
    (collected : Collected schema place given segments parts errors)
    (more : ∀ path, given path → given' path) :
    Collected schema place given' segments parts errors :=
  ⟨collected.under, collected.apart, collected.known, collected.escaped, collected.absorbed,
    fun all reached segment part get rest null =>
      (collected.nulls all reached segment part get rest null).imp_left (more _)⟩

/-- What explains the parts explains a value that is made of them. -/
theorem explained (collected : Collected schema place given segments parts errors)
    {value : Option Json} (missing : parts = none → value = none)
    (made : ∀ all, parts = some all → ∃ json, value = some json ∧ Parts json all) :
    Explained schema place Inside given value errors := by
  cases parts with
  | none =>
    rw [missing rfl]
    exact ⟨collected.apart, fun _ => collected.escaped rfl, nofun, nofun⟩
  | some all =>
    obtain ⟨json, rfl, present, below⟩ := made all rfl
    refine ⟨collected.apart, nofun, ?_, ?_⟩
    · rintro _ ⟨⟩ error member
      obtain ⟨segment, rest, part, get, inside, nullable, null⟩ :=
        collected.absorbed all rfl error member
      exact ⟨segment :: rest, inside, List.cons_ne_nil _ _, nullable, by simp [below, get, null]⟩
    · rintro _ ⟨⟩ path null
      cases path with
      | nil =>
        rw [Json.at?_nil, Option.some.injEq] at null
        exact absurd null present
      | cons segment rest =>
        rw [below] at null
        obtain ⟨part, get, null⟩ := Option.bind_eq_some_iff.mp null
        exact collected.nulls all rfl segment part get rest null

end Collected

/-- The steps to the items of a list, from an index on. -/
def indices : Nat → Nat → List PathSegment
  | _, 0 => []
  | index, count + 1 => .index index :: indices (index + 1) count

/-- Items with the steps that lead to them. -/
def indexed : Nat → List Json → Ordered PathSegment Json
  | _, [] => []
  | index, item :: rest => (.index index, item) :: indexed (index + 1) rest

theorem index_notMem_indices {index first : Nat} (before : index < first) (count : Nat) :
    PathSegment.index index ∉ indices first count := by
  induction count generalizing first with
  | zero => exact List.not_mem_nil
  | succ count ih =>
    simp only [indices, List.mem_cons, PathSegment.index.injEq, not_or]
    exact ⟨by omega, ih (by omega)⟩

theorem get?_indexed (index : Nat) (items : List Json) (offset : Nat) :
    Ordered.get? (indexed index items) (.index (index + offset)) = items[offset]? := by
  induction items generalizing index offset with
  | nil => rfl
  | cons item rest ih =>
    cases offset with
    | zero => simp [indexed, Ordered.get?]
    | succ offset =>
      have later := ih (index + 1) offset
      rw [show index + 1 + offset = index + (offset + 1) by omega] at later
      simpa [indexed, Ordered.get?] using later

theorem get?_indexed_field (index : Nat) (items : List Json) (name : String) :
    Ordered.get? (indexed index items) (.field name) = none := by
  induction items generalizing index with
  | nil => rfl
  | cons item rest ih => simpa [indexed, Ordered.get?] using ih (index + 1)

theorem parts_array (items : List Json) : Parts (.array items) (indexed 0 items) := by
  refine ⟨nofun, ?_⟩
  intro segment rest
  cases segment with
  | index position =>
    have get := get?_indexed 0 items position
    rw [Nat.zero_add] at get
    rw [get]
    rfl
  | field name =>
    rw [get?_indexed_field]
    rfl

/-- Members with the steps that lead to them. -/
def keyed (members : Ordered String Json) : Ordered PathSegment Json :=
  members.map fun member => (.field member.1, member.2)

theorem get?_keyed (members : Ordered String Json) (key : String) :
    Ordered.get? (keyed members) (.field key) = Ordered.get? members key := by
  induction members with
  | nil => rfl
  | cons member rest ih =>
    obtain ⟨name, value⟩ := member
    by_cases hit : name = key
    · simp [keyed, Ordered.get?, hit]
    · simpa [keyed, Ordered.get?, hit] using ih

theorem get?_keyed_index (members : Ordered String Json) (position : Nat) :
    Ordered.get? (keyed members) (.index position) = none := by
  induction members with
  | nil => rfl
  | cons member rest ih => simpa [keyed, Ordered.get?] using ih

theorem parts_object (members : Ordered String Json) : Parts (.object members) (keyed members) := by
  refine ⟨nofun, ?_⟩
  intro segment rest
  cases segment with
  | field name =>
    rw [get?_keyed]
    rfl
  | index position =>
    rw [get?_keyed_index]
    rfl

end MockGraph
