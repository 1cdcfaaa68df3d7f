import Mathlib.Data.List.Nodup
import MockGraph.Proofs.SkiDay.Days
import MockGraph.Proofs.SkiDay.Descriptions
set_option autoImplicit false

namespace MockGraph.SkiDay

/-- A call of one of the handlers of the store. -/
structure Call where
  field : String
  handler : Handler Store
  arguments : Ordered String Json
  context : Context
  found : Handlers.find? Store.handlers "Mutation" field = some handler

namespace Call

/-- What a call answers, and the store and the channel that it leaves. -/
def answer (met : Store × Channel) (call : Call) : Except ResolutionError Json × Store × Channel :=
  let reply := call.handler.answer call.arguments call.context met.1
  (reply.result, reply.state, met.2.publishAll reply.events)

/-- What calls do: `addDay` adds a day and publishes it, `removeDay` removes one, and either is
refused where its argument cannot be read. -/
theorem answer_cases (call : Call) (met : Store × Channel) :
    (call.field = "addDay" ∧
      call.answer met = match Argument.require NewDay.read call.arguments "input" with
        | .error error => (.error error, met)
        | .ok input => (.ok (met.1.add input).1.toJson, (met.1.add input).2,
            met.2.publishAll [Store.newDay (met.1.add input).1])) ∨
    (call.field = "removeDay" ∧
      call.answer met = match Argument.require Reader.text call.arguments "id" with
        | .error error => (.error error, met)
        | .ok id =>
          (.ok (met.1.remove id).1.toJson, (met.1.remove id).2, met.2.publishAll [])) := by
  rcases field_of_handlers call.found with ⟨name, answer⟩ | ⟨name, answer⟩
  · refine Or.inl ⟨name, ?_⟩
    rw [Call.answer, answer]
    dsimp only
    unfold Store.answerAdd
    cases Argument.require NewDay.read call.arguments "input" <;> rfl
  · refine Or.inr ⟨name, ?_⟩
    rw [Call.answer, answer]
    dsimp only
    unfold Store.answerRemove
    cases Argument.require Reader.text call.arguments "id" <;> rfl

theorem answer_refused {call : Call} {met : Store × Channel} {error : ResolutionError}
    (refused : (call.answer met).1 = .error error) : (call.answer met).2 = met := by
  rcases call.answer_cases met with ⟨-, same⟩ | ⟨-, same⟩
  · rw [same] at refused ⊢
    cases read : Argument.require NewDay.read call.arguments "input" with
    | error other => rfl
    | ok input => simp [read] at refused
  · rw [same] at refused ⊢
    cases read : Argument.require Reader.text call.arguments "id" with
    | error other => rfl
    | ok id => simp [read] at refused

def answers : Store × Channel → List Call → List (Except ResolutionError Json) × Store × Channel
  | met, [] => ([], met)
  | met, call :: rest =>
    let (first, met) := call.answer met
    let (others, met) := answers met rest
    (first :: others, met)

/-- The values that calls of `addDay` return with their answers. -/
def returned : List Call → List (Except ResolutionError Json) → List Json
  | call :: calls, answer :: answers =>
    (if call.field = "addDay" then answer.toOption else none).toList ++ returned calls answers
  | _, _ => []

end Call

/-- All days that were added, and those of them that were removed, each in order. -/
structure Ledger where
  added : List Day
  removed : List Day
deriving DecidableEq, Inhabited, Repr

namespace Ledger

def empty : Ledger := ⟨[], []⟩

/-- The days that were added and not removed. -/
def present (ledger : Ledger) : List Day := ledger.added.filter (· ∉ ledger.removed)

/-- The day that comes of an input. Its identifier is its place among all days that were added. -/
def next (ledger : Ledger) (input : NewDay) : Day :=
  ⟨toString (ledger.added.length + 1), input.date, input.mountain, input.conditions⟩

def enter (ledger : Ledger) (day : Day) : Ledger := { ledger with added := ledger.added ++ [day] }

def strike (ledger : Ledger) (day : Day) : Ledger :=
  { ledger with removed := ledger.removed ++ [day] }

/-- A day with all its members, as calls return it. -/
def shown (day : Day) : Json :=
  .object [("id", .string day.id), ("date", .string day.date), ("mountain", .string day.mountain),
    ("conditions", (day.conditions.map .string).getD .null)]

/-- What a call answers, and the ledger that it leaves. A day is entered if the argument describes
it, and a present day is struck out by its identifier. A call is refused where its argument is
missing, or not what it has to be; the message of the error says why. -/
inductive Records (ledger : Ledger) (call : Call) : Except ResolutionError Json → Ledger → Prop
  | added {value input} : call.field = "addDay" →
      Ordered.get? call.arguments "input" = some value → Describes value input →
      Records ledger call (.ok (shown (ledger.next input))) (ledger.enter (ledger.next input))
  | removed {day} : call.field = "removeDay" →
      Ordered.get? call.arguments "id" = some (.string day.id) → day ∈ ledger.present →
      Records ledger call
        (.ok (.object [("day", shown day), ("remove", .bool true),
          ("totalBefore", .ofNat ledger.present.length),
          ("totalAfter", .ofNat (ledger.present.length - 1))]))
        (ledger.strike day)
  | unknown {id} : call.field = "removeDay" →
      Ordered.get? call.arguments "id" = some (.string id) → (∀ day ∈ ledger.present, day.id ≠ id) →
      Records ledger call
        (.ok (.object [("day", .null), ("remove", .bool false),
          ("totalBefore", .ofNat ledger.present.length),
          ("totalAfter", .ofNat ledger.present.length)]))
        ledger
  | noInput : call.field = "addDay" → Ordered.get? call.arguments "input" = none →
      Records ledger call (.error (.missingArgument "input")) ledger
  | badInput {value message} : call.field = "addDay" →
      Ordered.get? call.arguments "input" = some value → (∀ input, ¬ Describes value input) →
      Records ledger call (.error (.argumentParse "input" message)) ledger
  | noId : call.field = "removeDay" → Ordered.get? call.arguments "id" = none →
      Records ledger call (.error (.missingArgument "id")) ledger
  | badId {value message} : call.field = "removeDay" →
      Ordered.get? call.arguments "id" = some value → (∀ id, value ≠ .string id) →
      Records ledger call (.error (.argumentParse "id" message)) ledger

/-- What calls answer one after the other, and the ledger that they leave. -/
inductive Keeps : Ledger → List Call → List (Except ResolutionError Json) → Ledger → Prop
  | nil {ledger} : Keeps ledger [] [] ledger
  | cons {ledger next last call calls answer answers} : Records ledger call answer next →
      Keeps next calls answers last → Keeps ledger (call :: calls) (answer :: answers) last

/-- The identifiers of all days are counted, and only days that were added were removed. -/
structure Counted (ledger : Ledger) : Prop where
  ids : ledger.added.map (·.id) = (List.range' 1 ledger.added.length).map toString
  known : ∀ day ∈ ledger.removed, day ∈ ledger.added

variable {ledger : Ledger} {day : Day}

theorem Counted.distinct (counted : ledger.Counted) : (ledger.added.map (·.id)).Nodup := by
  rw [counted.ids]
  exact List.Nodup.map (fun _ _ => Store.toString_inj) List.nodup_range'

theorem Counted.fresh (counted : ledger.Counted) :
    toString (ledger.added.length + 1) ∉ ledger.added.map (·.id) := by
  rw [counted.ids, List.mem_map]
  rintro ⟨n, within, same⟩
  have equal := Store.toString_inj same
  have bounds := List.mem_range'_1.mp within
  omega

theorem Counted.enter (counted : ledger.Counted) (input : NewDay) :
    (ledger.enter (ledger.next input)).Counted := by
  refine ⟨?_, fun day member => List.mem_append_left _ (counted.known day member)⟩
  simp only [Ledger.enter, next, List.map_append, List.length_append, List.map_cons, List.map_nil,
    counted.ids, List.length_singleton, List.range'_concat, Nat.one_mul, Nat.add_comm 1]

theorem Counted.strike (counted : ledger.Counted) (member : day ∈ ledger.present) :
    (ledger.strike day).Counted := by
  refine ⟨counted.ids, fun other removed => ?_⟩
  rcases List.mem_append.mp removed with old | new
  · exact counted.known other old
  · rw [List.mem_singleton.mp new]
    exact (List.mem_filter.mp member).1

theorem Counted.present_enter (counted : ledger.Counted) (input : NewDay) :
    (ledger.enter (ledger.next input)).present = ledger.present ++ [ledger.next input] := by
  have absent : ledger.next input ∉ ledger.removed := fun member =>
    counted.fresh (List.mem_map_of_mem (counted.known _ member))
  change (ledger.added ++ [ledger.next input]).filter (· ∉ ledger.removed) = _
  rw [List.filter_append, List.filter_singleton, decide_eq_true absent]
  rfl

theorem Counted.id_eq_iff (counted : ledger.Counted) {other : Day} (member : day ∈ ledger.present)
    (otherMember : other ∈ ledger.present) : other.id = day.id ↔ other = day := by
  refine ⟨fun same => ?_, fun same => same ▸ rfl⟩
  exact List.inj_on_of_nodup_map counted.distinct (List.mem_filter.mp otherMember).1
    (List.mem_filter.mp member).1 same

theorem present_strike (ledger : Ledger) (day : Day) :
    (ledger.strike day).present = ledger.present.filter (· ≠ day) := by
  simp only [present, strike, List.filter_filter, List.mem_append, List.mem_singleton, not_or,
    Bool.decide_and]
  exact List.filter_congr fun other _ => Bool.and_comm _ _

/-- All present days stay, except for the one with the identifier. -/
theorem Counted.present_strike (counted : ledger.Counted) (member : day ∈ ledger.present) :
    (ledger.strike day).present = ledger.present.filter (·.id ≠ day.id) := by
  rw [Ledger.present_strike]
  apply List.filter_congr
  intro other inside
  rw [decide_eq_decide, ne_eq, ne_eq, counted.id_eq_iff member inside]

theorem Counted.length_strike (counted : ledger.Counted) (member : day ∈ ledger.present) :
    (ledger.strike day).present.length = ledger.present.length - 1 := by
  have distinct : ledger.present.Nodup := (List.Nodup.of_map _ counted.distinct).filter _
  have others : ledger.present.filter (· ≠ day) = ledger.present.filter (· != day) :=
    List.filter_congr fun other _ => by rw [Bool.eq_iff_iff]; simp
  rw [Ledger.present_strike, others, ← distinct.erase_eq_filter, List.length_erase_of_mem member]

/-- The values that calls of `addDay` return are the days that they add. -/
theorem Keeps.shown_added {ledger last : Ledger} {calls : List Call}
    {answers : List (Except ResolutionError Json)} (keeps : Keeps ledger calls answers last) :
    last.added.map shown = ledger.added.map shown ++ Call.returned calls answers := by
  induction keeps with
  | nil => exact (List.append_nil _).symm
  | @cons ledger next last call calls answer answers records _ ih =>
    have step : next.added.map shown = ledger.added.map shown ++
        (if call.field = "addDay" then answer.toOption else none).toList := by
      cases records with
      | added name => rw [if_pos name]; exact List.map_append
      | noInput name | badInput name => rw [if_pos name]; exact (List.append_nil _).symm
      | removed name | unknown name | noId name | badId name =>
        rw [if_neg (by rw [name]; decide)]
        exact (List.append_nil _).symm
    rw [ih, step, List.append_assoc]
    rfl

end Ledger

/-- A store and a channel hold what a ledger says. -/
structure Agrees (met : Store × Channel) (ledger : Ledger) : Prop where
  counted : ledger.Counted
  days : met.1.days = ledger.present.map fun day => (day.id, day)
  nextId : met.1.nextId = ledger.added.length + 1
  isRead : met.2.isRead = true
  queue : met.2.queue = ledger.added.map fun day => ⟨"newDay", Ledger.shown day⟩

namespace Agrees

open Ledger (Records Keeps)

variable {met : Store × Channel} {ledger : Ledger}

theorem empty : Agrees (Store.empty, .new) .empty := ⟨⟨rfl, nofun⟩, rfl, rfl, rfl, rfl⟩

/-- The present day with an identifier is the one that the store has under it. -/
theorem get?_days (agrees : Agrees met ledger) (id : String) :
    Ordered.get? met.1.days id = ledger.present.find? (·.id = id) := by
  rw [agrees.days]
  induction ledger.present with
  | nil => rfl
  | cons day rest ih =>
    rw [List.map_cons, Ordered.get?, List.find?_cons, ih]
    by_cases same : day.id = id <;> simp [same]

theorem length_days (agrees : Agrees met ledger) : met.1.days.length = ledger.present.length := by
  rw [agrees.days, List.length_map]

theorem add (agrees : Agrees met ledger) (input : NewDay) :
    (met.1.add input).1 = ledger.next input ∧
      Agrees ((met.1.add input).2, met.2.publishAll [Store.newDay (met.1.add input).1])
        (ledger.enter (ledger.next input)) := by
  have same : (met.1.add input).1 = ledger.next input := by
    rw [Store.add, Ledger.next, agrees.nextId]
  have absent : toString met.1.nextId ∉ Ordered.keys met.1.days := by
    rw [agrees.nextId, Ordered.keys, agrees.days, List.map_map]
    intro member
    obtain ⟨day, present, named⟩ := List.mem_map.mp member
    exact agrees.counted.fresh (named ▸ List.mem_map_of_mem (List.mem_filter.mp present).1)
  have named : toString met.1.nextId = (ledger.next input).id := by rw [← same]; rfl
  refine ⟨same, agrees.counted.enter input, ?_, ?_, ?_, ?_⟩
  · change Ordered.insert met.1.days (toString met.1.nextId) (met.1.add input).1 = _
    rw [Ordered.insert_of_notMem _ _ _ absent, agrees.counted.present_enter, List.map_append,
      ← agrees.days, same, named]
    rfl
  · change met.1.nextId + 1 = (ledger.added ++ [_]).length + 1
    rw [agrees.nextId, List.length_append, List.length_singleton]
  · exact (Channel.isRead_publishAll _ _).trans agrees.isRead
  · rw [Channel.publishAll_queue _ _ agrees.isRead, agrees.queue, same, Ledger.enter,
      List.map_append]
    rfl

theorem remove (agrees : Agrees met ledger) {day : Day} (member : day ∈ ledger.present) :
    (met.1.remove day.id).1 = ⟨day, ledger.present.length, ledger.present.length - 1⟩ ∧
      Agrees ((met.1.remove day.id).2, met.2) (ledger.strike day) := by
  have days : (met.1.remove day.id).2.days =
      (ledger.strike day).present.map fun day => (day.id, day) := by
    change Ordered.erase met.1.days day.id = _
    rw [Ordered.erase, agrees.days, agrees.counted.present_strike member, List.filter_map]
    rfl
  have found : Ordered.get? met.1.days day.id = some day := by
    rw [agrees.get?_days]
    cases found : ledger.present.find? (·.id = day.id) with
    | none =>
      have other := List.find?_eq_none.mp found day member
      simp at other
    | some other =>
      have same : other.id = day.id := by simpa using List.find?_some found
      rw [(agrees.counted.id_eq_iff member (List.mem_of_find?_eq_some found)).mp same]
  have after : (Ordered.erase met.1.days day.id).length = ledger.present.length - 1 := by
    rw [show Ordered.erase met.1.days day.id = _ from days, List.length_map,
      agrees.counted.length_strike member]
  refine ⟨?_, agrees.counted.strike member, days, agrees.nextId, agrees.isRead, agrees.queue⟩
  rw [Store.remove, found, agrees.length_days, after]

theorem remove_unknown (agrees : Agrees met ledger) {id : String}
    (unknown : ∀ day ∈ ledger.present, day.id ≠ id) :
    met.1.remove id = (⟨none, ledger.present.length, ledger.present.length⟩, met.1) := by
  have absent : Ordered.get? met.1.days id = none := by
    rw [agrees.get?_days, List.find?_eq_none]
    exact fun day member => by simpa using unknown day member
  have same : Ordered.erase met.1.days id = met.1.days := by
    rw [Ordered.erase, agrees.days, List.filter_map, List.filter_eq_self.mpr]
    exact fun day member => by simpa using unknown day member
  rw [Store.remove, absent, same, agrees.length_days]

/-- Whatever is called, the ledger records what the store answers, and both go on alike. -/
theorem answer (agrees : Agrees met ledger) (call : Call) :
    ∃ next, Records ledger call (call.answer met).1 next ∧ Agrees (call.answer met).2 next := by
  rcases call.answer_cases met with ⟨name, same⟩ | ⟨name, same⟩
  · rw [same]
    rcases Argument.require_cases NewDay.read call.arguments "input" with ⟨missing, refused⟩ |
      ⟨value, input, given, read, accepted⟩ | ⟨value, message, given, bad, refused⟩
    · rw [refused]
      exact ⟨ledger, .noInput name missing, agrees⟩
    · rw [accepted]
      obtain ⟨next, agrees⟩ := agrees.add input
      refine ⟨_, ?_, agrees⟩
      dsimp only
      rw [next]
      exact .added name given (NewDay.read_eq_ok_iff.mp read)
    · rw [refused]
      exact ⟨ledger, .badInput name given fun input => mt NewDay.read_eq_ok_iff.mpr (bad input),
        agrees⟩
  · rw [same]
    rcases Argument.require_cases Reader.text call.arguments "id" with ⟨missing, refused⟩ |
      ⟨value, id, given, read, accepted⟩ | ⟨value, message, given, bad, refused⟩
    · rw [refused]
      exact ⟨ledger, .noId name missing, agrees⟩
    · rw [accepted]
      obtain rfl := text_eq_ok_iff.mp read
      by_cases present : ∃ day ∈ ledger.present, day.id = id
      · obtain ⟨day, member, rfl⟩ := present
        obtain ⟨removal, agrees⟩ := agrees.remove member
        refine ⟨_, ?_, agrees⟩
        dsimp only
        rw [removal]
        exact .removed name given member
      · have unknown : ∀ day ∈ ledger.present, day.id ≠ id := fun day member same =>
          present ⟨day, member, same⟩
        refine ⟨ledger, ?_, ?_⟩
        · dsimp only
          rw [agrees.remove_unknown unknown]
          exact .unknown name given unknown
        · dsimp only
          rw [agrees.remove_unknown unknown]
          exact agrees
    · rw [refused]
      exact ⟨ledger, .badId name given fun id => mt text_eq_ok_iff.mpr (bad id), agrees⟩

theorem answers (agrees : Agrees met ledger) (calls : List Call) :
    ∃ last, Keeps ledger calls (Call.answers met calls).1 last ∧
      Agrees (Call.answers met calls).2 last := by
  induction calls generalizing met ledger with
  | nil => exact ⟨ledger, .nil, agrees⟩
  | cons call rest ih =>
    obtain ⟨next, records, agrees⟩ := agrees.answer call
    obtain ⟨last, keeps, agrees⟩ := ih agrees
    exact ⟨last, .cons records keeps, agrees⟩

end Agrees

/-- However often `addDay` and `removeDay` are called on a new store, with whatever arguments, a
ledger records what they answer. Identifiers are the decimals of one, two and so on, in the order in
which days are added, and none comes twice. The store has exactly the days that were added and not
removed, in order and each under its own identifier. The channel has one event for each value that
`addDay` returned, in order. A call that is refused changes neither the days, nor the next number,
nor the channel. -/
theorem calls_keep_ledger (calls : List Call) :
    let (answers, store, channel) := Call.answers (Store.empty, Channel.new) calls
    ∃ ledger, Ledger.Keeps .empty calls answers ledger ∧
      ledger.added.map (·.id) = (List.range' 1 ledger.added.length).map toString ∧
      (ledger.added.map (·.id)).Nodup ∧
      store.days = ledger.present.map (fun day => (day.id, day)) ∧
      store.nextId = ledger.added.length + 1 ∧
      ledger.added.map Ledger.shown = Call.returned calls answers ∧
      channel.queue = (Call.returned calls answers).map (⟨"newDay", ·⟩) ∧
      ∀ (call : Call) (met : Store × Channel) (error : ResolutionError),
        (call.answer met).1 = .error error → (call.answer met).2 = met := by
  obtain ⟨ledger, keeps, agrees⟩ := Agrees.empty.answers calls
  have returned : ledger.added.map Ledger.shown =
      Call.returned calls (Call.answers (Store.empty, Channel.new) calls).1 := keeps.shown_added
  refine ⟨ledger, keeps, agrees.counted.ids, agrees.counted.distinct, agrees.days, agrees.nextId,
    returned, ?_, fun _ _ _ => Call.answer_refused⟩
  rw [← returned, List.map_map]
  exact agrees.queue

namespace Season

def add (arguments : Ordered String Json) : Call :=
  ⟨"addDay", ⟨none, fun arguments _ store => Store.answerAdd arguments store⟩, arguments,
    ⟨.mutation, none, []⟩, rfl⟩

def remove (arguments : Ordered String Json) : Call :=
  ⟨"removeDay", ⟨none, fun arguments _ store => Store.answerRemove arguments store⟩, arguments,
    ⟨.mutation, none, []⟩, rfl⟩

/-- Two days are added and one is removed, twice. Then an identifier that is a number and a day that
is missing are refused, and a day is added once more. -/
def calls : List Call :=
  [add [("input", .object [("date", .string "1/2/2025"), ("mountain", .string "Alta"),
      ("conditions", .string "POWDER")])],
    add [("input", .array [.string "1/3/2025", .string "Brighton"])],
    remove [("id", .string "1")], remove [("id", .string "1")], remove [("id", .ofNat 2)], add [],
    add [("input", .object [("mountain", .string "Solitude"), ("date", .string "1/4/2025")])]]

def answers : List (Except ResolutionError Json) :=
  let alta := Json.object [("id", .string "1"), ("date", .string "1/2/2025"),
    ("mountain", .string "Alta"), ("conditions", .string "POWDER")]
  [.ok alta, .ok (.object [("id", .string "2"), ("date", .string "1/3/2025"),
      ("mountain", .string "Brighton"), ("conditions", .null)]),
    .ok (.object [("day", alta), ("remove", .bool true), ("totalBefore", .ofNat 2),
      ("totalAfter", .ofNat 1)]),
    .ok (.object [("day", .null), ("remove", .bool false), ("totalBefore", .ofNat 1),
      ("totalAfter", .ofNat 1)]),
    .error (.argumentParse "id" "invalid type: integer `2`, expected a string"),
    .error (.missingArgument "input"),
    .ok (.object [("id", .string "3"), ("date", .string "1/4/2025"),
      ("mountain", .string "Solitude"), ("conditions", .null)])]

/-- The identifier of the day that was removed is not used again. -/
theorem calls_keep_ledger_season :
    (Call.answers (Store.empty, Channel.new) calls).1 = answers ∧
      ∃ ledger, Ledger.Keeps .empty calls answers ledger ∧
        ledger.added.map (·.id) = ["1", "2", "3"] ∧ ledger.present.map (·.id) = ["2", "3"] := by
  have run : (Call.answers (Store.empty, Channel.new) calls).1 = answers := by decide
  have stored : Ordered.keys (Call.answers (Store.empty, Channel.new) calls).2.1.days =
      ["2", "3"] := by
    decide
  have counted : (Call.answers (Store.empty, Channel.new) calls).2.1.nextId = 4 := by decide
  obtain ⟨ledger, keeps, ids, -, days, nextId, -⟩ := calls_keep_ledger calls
  have count : ledger.added.length = 3 := Nat.succ.inj (nextId.symm.trans counted)
  refine ⟨run, ledger, run ▸ keeps, ?_, ?_⟩
  · rw [ids, count]
    decide
  · have kept := (congrArg Ordered.keys days).symm.trans stored
    rwa [Ordered.keys, List.map_map] at kept

end Season

end MockGraph.SkiDay
