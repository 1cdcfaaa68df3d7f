import Mathlib.Data.List.Forall2
import Mathlib.Data.List.Nodup
import MockGraph.Proofs.Json.Members
import MockGraph.Proofs.Json.Reading
import MockGraph.Response
set_option autoImplicit false

namespace MockGraph

namespace Number

theorem takeWord_lt (digits : List Char) (value : Nat) (fits : value < Nat.pow 2 64) :
    (takeWord value digits).1 < Nat.pow 2 64 := by
  induction digits generalizing value with
  | nil => exact fits
  | cons c digits ih =>
    unfold takeWord
    dsimp only
    split
    case isTrue next => exact ih _ next
    case isFalse => exact fits

theorem literal?_lt {negative : Bool} {whole : List Char} {fraction : Option (List Char)}
    {exponent : Option Int} {n : Int}
    (read : literal? negative whole fraction exponent = some (.integer n)) : n < Int.pow 2 64 := by
  have bound : Int.pow 2 64 = (Nat.pow 2 64 : Nat) := by decide
  unfold literal? at read
  split at read
  case h_1 value word =>
    have fits := takeWord_lt whole 0 (by decide)
    rw [word] at fits
    dsimp only at fits
    split at read
    · simp only [Option.some.injEq, integer.injEq] at read
      omega
    split at read
    · simp only [Option.some.injEq, integer.injEq] at read
      omega
    · obtain ⟨_, _, double⟩ := Option.map_eq_some_iff.mp read
      cases double
  case h_2 =>
    obtain ⟨_, _, double⟩ := Option.map_eq_some_iff.mp read
    cases double

theorem reread_lt {m : Number} {n : Int} (read : m.reread = some (.integer n)) :
    n < Int.pow 2 64 := by
  obtain ⟨numeral, same⟩ := m.isNumeral_text
  rw [reread, ← same, Tree.readNumber_text] at read
  exact literal?_lt read

end Number

namespace Json

theorem asWord64?_integer {n : Nat} (fits : (n : Int) < Int.pow 2 64) :
    (number (.integer n)).asWord64? = some n := by
  simp only [asWord64?]
  rw [if_pos ⟨Int.natCast_nonneg n, fits⟩, Int.toNat_natCast]

/-- If the tree of an object stands for the object, the trees of its members stand for the
members. -/
theorem value_tree_member {room : Nat} {members : List (String × Json)}
    (distinct : (members.map Prod.fst).Nodup)
    (back : (object members).tree.value (room + 1) = .ok (object members)) :
    ∀ member ∈ members, member.2.tree.value room = .ok member.2 := by
  rw [tree, Tree.value] at back
  obtain ⟨entries, inside, same⟩ := Tree.exists_of_map back
  obtain rfl : entries = members := Json.object.inj same
  have names : ((memberTrees entries).map Prod.fst).Nodup := by
    have wrapped := List.Nodup.map (fun _ _ => Option.some.inj) distinct
    simpa only [memberTrees_eq_map, List.map_map, Function.comp_def] using wrapped
  have each := (Tree.memberValues_iff names).mp inside
  rw [memberTrees_eq_map, List.forall₂_map_left_iff, List.forall₂_same] at each
  exact fun member listed => (each member listed).2

theorem values_trees {room : Nat} {items : List Json}
    (back : Tree.values room (trees items) = .ok items) :
    ∀ item ∈ items, item.tree.value room = .ok item := by
  induction items with
  | nil => nofun
  | cons item items ih =>
    simp only [trees, Tree.values] at back
    cases first : item.tree.value room with
    | error fault => simp [first] at back
    | ok item' =>
      cases others : Tree.values room (trees items) with
      | error fault => simp [first, others, Except.map] at back
      | ok items' =>
        simp only [first, others, Except.map, Except.ok.injEq, List.cons.injEq] at back
        intro other member
        rcases List.mem_cons.mp member with rfl | later
        · rw [first, back.1]
        · exact ih (by rw [others, back.2]) other later

/-- If the tree of an array stands for the array, the trees of its items stand for the items. -/
theorem value_tree_item {room : Nat} {items : List Json}
    (back : (array items).tree.value (room + 1) = .ok (array items)) :
    ∀ item ∈ items, item.tree.value room = .ok item := by
  rw [tree, Tree.value] at back
  obtain ⟨result, inside, same⟩ := Tree.exists_of_map back
  obtain rfl : result = items := Json.array.inj same
  exact values_trees inside

end Json

namespace Tree

variable {room : Nat}

theorem value_number (room : Nat) (n : Number) :
    value room (.number (some n)) = .ok (.number n) := by
  cases room <;> rfl

theorem readEach_map {α : Type} {read : Tree → Except Fault α} {items : List α} {write : α → Json}
    (each : ∀ item ∈ items, read (write item).tree = .ok item) :
    readEach read (items.map fun item => (write item).tree) = .ok items := by
  induction items with
  | nil => rfl
  | cons item items ih =>
    rw [List.map_cons, readEach, each item List.mem_cons_self]
    simp only [ih fun other later => each other (List.mem_cons_of_mem _ later), Except.map]

/-- A list comes back, and an empty one is not taken for an absent one. -/
theorem readList_map {α : Type} {read : Tree → Except Fault α} {items : List α} {write : α → Json}
    (each : ∀ item ∈ items, read (write item).tree = .ok item) :
    readOptional (readList (room + 1) read) (Json.array (items.map write)).tree =
      .ok (some items) := by
  have all := readEach_map each
  rw [Json.tree, Json.trees_eq_map, List.map_map]
  simp only [readOptional, readList, Nat.add_one_ne_zero, if_false]
  exact congrArg (Except.map some) all

theorem readSegment_tree {segment : PathSegment}
    (back : segment.toJson.tree.value room = .ok segment.toJson) :
    readSegment segment.toJson.tree = .ok segment := by
  cases segment with
  | field name => rfl
  | index position =>
    simp only [PathSegment.toJson, Json.ofNat, Json.tree, value] at back
    cases read : (Number.integer position).reread with
    | none => simp [read] at back
    | some number =>
      have same : number = .integer position := by simpa [read] using back
      have fits := Number.reread_lt (read.trans (by rw [same]))
      rw [readSegment, PathSegment.toJson, Json.ofNat, Json.tree, read, same, value_number]
      change required (((Json.number (.integer position)).asWord64?).map PathSegment.index) = _
      rw [Json.asWord64?_integer fits]
      rfl

theorem readFieldError_tree {error : FieldError}
    (back : error.toJson.tree.value (room + 2) = .ok error.toJson) :
    readFieldError (room + 2) error.toJson.tree = .ok error := by
  obtain ⟨message, path, extensions⟩ := error
  have parts := Json.value_tree_member (by cases path <;> cases extensions <;> simp) back
  have paths (segments : List PathSegment) (present : path = some segments) :
      readOptional (readList (room + 1) readSegment)
          (Json.array (segments.map PathSegment.toJson)).tree = .ok (some segments) := by
    have each :=
      Json.value_tree_item
        (parts ("path", .array (segments.map PathSegment.toJson)) (by simp [present]))
    simp only [List.forall_mem_map] at each
    exact readList_map fun segment member => readSegment_tree (each segment member)
  have maps (members : Ordered String Json) (present : extensions = some members) :
      readOptional (readMap (room + 1)) (Json.object members).tree = .ok (some members) := by
    have back := parts ("extensions", .object members) (by simp [present])
    rw [Json.tree, value] at back
    cases found : memberValues room (Json.memberTrees members) [] <;>
      simp_all [readMap, readOptional, Json.tree, Except.map]
  simp only [Json.tree] at paths maps
  cases path <;> cases extensions <;>
    simp [FieldError.toJson, Json.tree, Json.memberTrees, readFieldError, readRecord, readMembersAs,
      readText, paths, maps, Except.map, required]

theorem readOptional_tree {α : Type} (read : Tree → Except Fault α) (data : Json) :
    readOptional read data.tree = if data.isNull then .ok none else (read data.tree).map some := by
  cases data <;> rfl

/-- A response comes back from the tree that stands for it, apart from data that is `null`. -/
theorem readResponse_tree {response : Response}
    (back : response.toJson.tree.value (room + 4) = .ok response.toJson) :
    readResponse (room + 4) response.toJson.tree =
      .ok { response with data := response.data.filter fun data => !data.isNull } := by
  obtain ⟨data, errors⟩ := response
  have parts := Json.value_tree_member (by cases data <;> cases errors <;> simp) back
  have datum (value : Json) (present : data = some value) :
      readOptional (Tree.value (room + 3)) value.tree =
        .ok ((some value).filter fun data => !data.isNull) := by
    rw [readOptional_tree, parts ("data", value) (by simp [present])]
    cases null : value.isNull <;> simp [null, Except.map, Option.filter]
  have lists (list : List FieldError) (present : errors = some list) :
      readOptional (readList (room + 3) (readFieldError (room + 2)))
          (Json.array (list.map FieldError.toJson)).tree = .ok (some list) := by
    have each :=
      Json.value_tree_item
        (parts ("errors", .array (list.map FieldError.toJson)) (by simp [present]))
    simp only [List.forall_mem_map] at each
    exact readList_map fun error member => readFieldError_tree (each error member)
  simp only [Json.tree] at lists
  cases data <;> cases errors <;>
    simp [Response.toJson, Json.tree, Json.memberTrees, readResponse, readRecord, readMembersAs,
      datum, lists, Except.map]

end Tree

namespace Response

/-- Where the JSON of a response reads back from its text, so does the response, but without its
data if that is `null`. -/
theorem parse_text {response : Response} (back : Json.parse? response.text = some response.toJson) :
    parse? response.text =
      some { response with data := response.data.filter fun data => !data.isNull } := by
  have whole : Tree.readResponse 127 response.toJson.tree = _ :=
    Tree.readResponse_tree (Json.value_tree_of_parse? back)
  change (Tree.readWhole (Tree.readResponse 127) response.toJson.text).toOption = _
  rw [Tree.readWhole, Json.read_text]
  simp only [whole, Bool.false_eq_true, if_false, Except.toOption]

/-- A field that is `null` in the data comes back, with the error that belongs to it. -/
theorem parse_text_lift :
    let response := executed (.object [("lifts", .array [.ofNat 3, .null])])
      [((FieldError.new "closed").withPath [.field "lifts", .index 1]).withCode "LIFT"]
    Json.parse? response.text = some response.toJson ∧ parse? response.text = some response := by
  intro response
  have back : Json.parse? response.text = some response.toJson := by
    rw [Json.parse?, text, Json.read_text]
    decide +kernel
  exact ⟨back, parse_text back⟩

/-- An operation that was executed with the outcome `null` reads as one that was rejected, though
the JSON is told apart. -/
theorem null_data_lost :
    let response := executed .null [.new "closed"]
    Json.parse? response.text = some response.toJson ∧
      parse? response.text = some (error (.new "closed")) ∧ response ≠ error (.new "closed") := by
  intro response
  refine ⟨?_, ?_, by decide⟩
  · rw [Json.parse?, text, Json.read_text]
    decide +kernel
  · rw [parse?, text, Tree.readWhole, Json.read_text]
    decide +kernel

end Response

end MockGraph
