import MockGraph.Proofs.Json.Members
import MockGraph.Proofs.Json.Reading
import MockGraph.Wire.Protocol
set_option autoImplicit false

namespace MockGraph

open MockGraph.Tree (Readable Passable)

namespace Request

def fields (room : Nat) :
    List (Tree.Field (Option String × Option (Ordered String Json) × Option String)) :=
  [⟨"query", false, fun tree draft => tree.readText.map fun s => (some s, draft.2)⟩,
   ⟨"variables", true, fun tree draft =>
      (Tree.readOptional (Tree.readMap (room - 1)) tree).map fun map => (draft.1, map, draft.2.2)⟩,
   ⟨"operationName", true, fun tree draft =>
      (Tree.readOptional Tree.readText tree).map fun name => (draft.1, draft.2.1, name)⟩]

theorem free_fields (room : Nat) : Tree.Free (fields room) := by
  refine ⟨?_, ?_⟩
  · simp [fields]
  intro one member other member' different
  simp only [fields, List.mem_cons, List.not_mem_nil, or_false] at member member'
  rcases member with rfl | rfl | rfl <;> rcases member' with rfl | rfl | rfl <;>
    first
    | exact absurd rfl different
    | exact Tree.Field.commutes_of_sets (fun _ _ => rfl) (fun _ _ => rfl) fun _ _ _ => rfl

/-- The request that the parts of a record make, if they make one. -/
def ofParts? (room : Nat) (part? : String → Option Tree) : Option Request :=
  (Tree.readParts? (fields room) part? (none, none, none)).bind fun draft =>
    draft.1.map fun query => ⟨query, draft.2.1, draft.2.2⟩

theorem toOption_ofTree_object (room : Nat) {members : List (Option String × Tree)}
    (distinct : (members.map Prod.fst).Nodup) (passable : ∀ member ∈ members, Passable member) :
    (ofTree (room + 1) (.object members)).toOption =
      ofParts? (room + 1) fun name => Ordered.get? members (some name) := by
  have record :=
    Tree.toOption_readRecord (free_fields (room + 1)) room distinct passable (none, none, none)
  rw [ofParts?, ← record]
  unfold ofTree fields
  dsimp only
  split
  case h_1 fault failed => rw [failed]; rfl
  case h_2 query bindings operationName read =>
    rw [read]
    cases query <;> rfl

theorem toOption_ofTree_perm (room : Nat) {members others : List (Option String × Tree)}
    (distinct : (members.map Prod.fst).Nodup) (perm : members.Perm others)
    (passable : ∀ member ∈ members, Passable member) :
    (ofTree (room + 1) (.object members)).toOption =
      (ofTree (room + 1) (.object others)).toOption := by
  have distinct' : (others.map Prod.fst).Nodup := (perm.map Prod.fst).nodup_iff.mp distinct
  rw [toOption_ofTree_object room distinct passable,
    toOption_ofTree_object room distinct' fun member inside =>
      passable member (perm.mem_iff.mpr inside)]
  simp only [Ordered.get?_perm distinct perm]

end Request

namespace Protocol

/-- The members of a message do not get in each other's way. -/
theorem ClientKind.free_fields (kind : ClientKind) : Tree.Free kind.fields := by
  have apart (omissible : Bool) : idField.Commutes (payloadField omissible) :=
    @Tree.Field.commutes_of_sets _ _ _ idField (payloadField omissible) Tree.readText .ok
      (fun id draft => { draft with id := some id })
      (fun tree draft => { draft with payload := some tree }) (fun _ _ => rfl) (fun _ _ => rfl)
      fun _ _ _ => rfl
  cases kind with
  | connectionInit | stop => exact Tree.free_singleton _
  | start => exact Tree.free_pair (by decide) (apart false)
  | connectionTerminate | ping | pong => exact Tree.free_nil

/-- The message of a kind that the members of an object make, if they make one. -/
def ClientKind.message? (kind : ClientKind) (part? : String → Option Tree) : Option ClientMessage :=
  match kind with
  | connectionInit =>
    match part? "payload" with
    | none => some (.connectionInit none)
    | some tree => (Tree.readOptional (Tree.value Tree.maxDepth) tree).toOption.map .connectionInit
  | start =>
    (part? "id").bind fun id =>
      id.readText.toOption.bind fun id =>
        (part? "payload").bind fun tree =>
          (Request.ofTree Tree.maxDepth tree).toOption.map (.start id)
  | stop => (part? "id").bind fun id => id.readText.toOption.map .stop
  | connectionTerminate => some .connectionTerminate
  | ping => some .ping
  | pong => some .pong

theorem ClientKind.assemble_readParts? (kind : ClientKind) (part? : String → Option Tree) :
    ((Tree.readParts? kind.fields part? ⟨none, none⟩).bind fun draft =>
        (kind.assemble draft).toOption) = kind.message? part? := by
  cases kind with
  | connectionInit =>
    rw [message?, fields, Tree.readParts?_cons]
    change (((payloadField true).take? (part? "payload") _).bind _).bind _ = _
    cases part? "payload" with
    | none => rfl
    | some tree =>
      change (connectionInit.assemble ⟨some tree, none⟩).toOption = _
      dsimp only [assemble]
      cases Tree.readOptional (Tree.value Tree.maxDepth) tree <;> rfl
  | start =>
    rw [message?, fields, Tree.readParts?_cons]
    change ((idField.take? (part? "id") _).bind fun draft =>
      ((payloadField false).take? (part? "payload") draft).bind some).bind _ = _
    cases part? "id" with
    | none => cases part? "payload" <;> rfl
    | some tree =>
      dsimp only [Tree.Field.take?, idField, Option.bind_some]
      cases tree.readText with
      | error fault => rfl
      | ok id =>
        cases part? "payload" with
        | none => rfl
        | some tree =>
          change (start.assemble ⟨some tree, some id⟩).toOption = _
          dsimp only [assemble, Tree.required, Option.bind_some]
          cases Request.ofTree Tree.maxDepth tree <;> rfl
  | stop =>
    rw [message?, fields, Tree.readParts?_cons]
    change ((idField.take? (part? "id") _).bind some).bind _ = _
    cases part? "id" with
    | none => rfl
    | some tree =>
      dsimp only [Tree.Field.take?, idField, Option.bind_some]
      cases tree.readText <;> rfl
  | connectionTerminate | ping | pong => rfl

/-- The message that the members of an object make under a protocol, if they make one. -/
def message? (protocol : Protocol) (part? : String → Option Tree) : Option ClientMessage :=
  (part? "type").bind fun tag => tag.readText.toOption.bind fun tag =>
    (protocol.clientKind? tag).bind fun kind => kind.message? part?

theorem tags_eq {members : List (Option String × Tree)} (distinct : (members.map Prod.fst).Nodup) :
    tags members = (Ordered.get? members (some "type")).toList := by
  induction members with
  | nil => rfl
  | cons member members ih =>
    obtain ⟨name, tree⟩ := member
    obtain ⟨fresh, apart⟩ := List.nodup_cons.mp distinct
    have later := ih apart
    rw [tags, List.filterMap_cons, Ordered.get?]
    by_cases tag : name = some "type"
    · have absent : some "type" ∉ Ordered.keys members := tag ▸ fresh
      rw [(Ordered.get?_eq_none_iff _ _).mpr absent] at later
      rw [if_pos tag, if_pos tag]
      exact congrArg (tree :: ·) later
    · rw [if_neg tag, if_neg tag]
      exact later

theorem ClientKind.message?_congr (kind : ClientKind) {part? part?' : String → Option Tree}
    (id : part? "id" = part?' "id") (payload : part? "payload" = part?' "payload") :
    kind.message? part? = kind.message? part?' := by
  cases kind <;> simp only [message?, id, payload]

/-- The message of a kind that the parts next to a tag make, if they make one. -/
def ClientKind.read? (kind : ClientKind) (parts : Tree) : Option ClientMessage :=
  (Tree.readRecord Tree.maxDepth kind.fields .skip ⟨none, none⟩ parts).toOption.bind fun draft =>
    (kind.assemble draft).toOption

/-- A message of a known kind is read from what is left of an object without its tag. -/
theorem ClientKind.read?_object (kind : ClientKind) {members : List (Option String × Tree)}
    (distinct : (members.map Prod.fst).Nodup) (passable : ∀ member ∈ members, Passable member) :
    kind.read? (.object (Ordered.erase members (some "type"))) =
      kind.message? fun name => Ordered.get? members (some name) := by
  have distinct' : ((Ordered.erase members (some "type")).map Prod.fst).Nodup := by
    have keys := Ordered.keys_erase members (some "type")
    rw [Ordered.keys] at keys
    rw [keys]
    exact distinct.filter _
  have passable' : ∀ member ∈ Ordered.erase members (some "type"), Passable member :=
    fun member inside => passable member (List.mem_filter.mp inside).1
  rw [read?, Tree.maxDepth, Tree.toOption_readRecord kind.free_fields _ distinct' passable',
    kind.assemble_readParts?]
  refine kind.message?_congr ?_ ?_ <;> rw [Ordered.get?_erase, if_neg (by decide)]

theorem ofTree?_object (protocol : Protocol) {members : List (Option String × Tree)}
    (distinct : (members.map Prod.fst).Nodup) (passable : ∀ member ∈ members, Passable member) :
    protocol.ofTree? (.object members) =
      protocol.message? fun name => Ordered.get? members (some name) := by
  unfold ofTree? splitTag? message?
  dsimp only
  rw [tags_eq distinct]
  cases Ordered.get? members (some "type") with
  | none => rfl
  | some tag =>
    simp only [Option.toList, Option.bind_eq_bind, Option.bind_some]
    congr
    funext tag
    congr
    funext kind
    exact kind.read?_object distinct passable

/-- An object says what its members under three names say, unless it cannot be read. -/
theorem decode?_of_readable (protocol : Protocol) {text : String}
    {members : List (Option String × Tree)} (reads : Tree.read text = (.object members, false))
    (distinct : (members.map Prod.fst).Nodup) (readable : Readable (.object members)) :
    protocol.decode? text = protocol.message? fun name => Ordered.get? members (some name) := by
  have passable := readable.passable
  obtain ⟨json, read⟩ := readable
  rw [decode?, reads]
  dsimp only
  rw [read]
  exact protocol.ofTree?_object distinct passable

theorem decode?_of_unreadable (protocol : Protocol) {text : String} {tree : Tree}
    (reads : Tree.read text = (tree, false)) (unreadable : ¬Readable tree) :
    protocol.decode? text = none := by
  rw [decode?, reads]
  dsimp only
  cases read : tree.value Tree.maxDepth with
  | error fault => rfl
  | ok json => exact absurd ⟨json, read⟩ unreadable

/-- Two objects of which both can be read or neither are related as what they say. -/
theorem decode?_related {related : Option ClientMessage → Option ClientMessage → Prop}
    (silent : related none none) (protocol protocol' : Protocol) {text other : String}
    {members members' : List (Option String × Tree)}
    (reads : Tree.read text = (.object members, false)) (distinct : (members.map Prod.fst).Nodup)
    (reads' : Tree.read other = (.object members', false))
    (distinct' : (members'.map Prod.fst).Nodup)
    (same : Readable (.object members) ↔ Readable (.object members'))
    (said : Readable (.object members) →
      related (protocol.message? fun name => Ordered.get? members (some name))
        (protocol'.message? fun name => Ordered.get? members' (some name))) :
    related (protocol.decode? text) (protocol'.decode? other) := by
  by_cases readable : Readable (.object members)
  · rw [protocol.decode?_of_readable reads distinct readable,
      protocol'.decode?_of_readable reads' distinct' (same.mp readable)]
    exact said readable
  · rw [protocol.decode?_of_unreadable reads readable,
      protocol'.decode?_of_unreadable reads' fun readable' => readable (same.mpr readable')]
    exact silent

/-- With one tag, members are related as what messages of one kind say. -/
theorem message?_related {related : Option ClientMessage → Option ClientMessage → Prop}
    (silent : related none none) (protocol : Protocol) {part? part?' : String → Option Tree}
    (tag : part? "type" = part?' "type")
    (said : ∀ kind : ClientKind, related (kind.message? part?) (kind.message? part?')) :
    related (protocol.message? part?) (protocol.message? part?') := by
  rw [message?, message?, tag]
  cases part?' "type" with
  | none => exact silent
  | some tree =>
    rw [Option.bind_some, Option.bind_some]
    cases tree.readText.toOption with
    | none => exact silent
    | some word =>
      rw [Option.bind_some, Option.bind_some]
      cases protocol.clientKind? word with
      | none => exact silent
      | some kind => exact said kind

theorem message?_of_tag (protocol : Protocol) {part? : String → Option Tree} {tag : String}
    (given : part? "type" = some (.string (some tag))) :
    protocol.message? part? = (protocol.clientKind? tag).bind fun kind => kind.message? part? := by
  rw [message?, given]
  rfl

def clientTags : Protocol → List String
  | graphqlWs => ["connection_init", "start", "stop", "connection_terminate"]
  | graphqlTransportWs => ["connection_init", "subscribe", "complete", "ping", "pong"]

/-- Tags of the older protocol with those of the newer one that say the same. -/
def counterparts : List (String × String) :=
  [("start", "subscribe"), ("stop", "complete"), ("connection_init", "connection_init")]

theorem clientKind?_eq_of_counterparts {legacy transport : String}
    (same : (legacy, transport) ∈ counterparts) :
    graphqlWs.clientKind? legacy = graphqlTransportWs.clientKind? transport := by
  simp only [counterparts, List.mem_cons, Prod.mk.injEq, List.not_mem_nil, or_false] at same
  rcases same with ⟨rfl, rfl⟩ | ⟨rfl, rfl⟩ | ⟨rfl, rfl⟩ <;> rfl

theorem exists_clientKind?_iff (protocol : Protocol) (tag : String) :
    (∃ kind, protocol.clientKind? tag = some kind) ↔ tag ∈ protocol.clientTags := by
  constructor
  · rintro ⟨kind, known⟩
    cases protocol <;> unfold clientKind? at known <;> split at known <;>
      first | decide | contradiction
  · cases protocol <;> simp only [clientTags, List.mem_cons, List.not_mem_nil, or_false]
    · rintro (rfl | rfl | rfl | rfl) <;> exact ⟨_, rfl⟩
    · rintro (rfl | rfl | rfl | rfl | rfl) <;> exact ⟨_, rfl⟩

theorem clientKind?_shared {tag : String} {kind other : ClientKind}
    (legacy : graphqlWs.clientKind? tag = some kind)
    (transport : graphqlTransportWs.clientKind? tag = some other) :
    kind = .connectionInit ∧ other = .connectionInit := by
  have listed := (exists_clientKind?_iff graphqlTransportWs tag).mp ⟨other, transport⟩
  simp only [clientTags, List.mem_cons, List.not_mem_nil, or_false] at listed
  rcases listed with rfl | rfl | rfl | rfl | rfl <;> cases legacy
  cases transport
  exact ⟨rfl, rfl⟩

/-- What is accepted has a tag that the protocol knows, and parts that make a message of its
kind. -/
theorem exists_of_decode? {protocol : Protocol} {text : String} {message : ClientMessage}
    (decoded : protocol.decode? text = some message) :
    ∃ tag parts word kind, splitTag? (Tree.read text).1 = some (tag, parts) ∧
      tag.readText.toOption = some word ∧ protocol.clientKind? word = some kind ∧
      kind.read? parts = some message := by
  unfold decode? at decoded
  split at decoded
  · cases decoded
  · rename_i tree read
    split at decoded
    · cases decoded
    · unfold ofTree? at decoded
      simp only [Option.bind_eq_bind, Option.bind_eq_some_iff] at decoded
      obtain ⟨⟨tag, parts⟩, split, word, named, kind, known, assembled⟩ := decoded
      rw [read]
      exact ⟨tag, parts, word, kind, split, named, known, Option.bind_eq_some_iff.mpr assembled⟩

def ClientKind.ofMessage : ClientMessage → ClientKind
  | .connectionInit _ => connectionInit
  | .start _ _ => start
  | .stop _ => stop
  | .connectionTerminate => connectionTerminate
  | .ping => ping
  | .pong => pong

theorem ClientKind.ofMessage_of_assemble {kind : ClientKind} {draft : Draft}
    {message : ClientMessage} (assembled : kind.assemble draft = .ok message) :
    ofMessage message = kind := by
  cases kind with
  | connectionInit =>
    unfold assemble at assembled
    dsimp only at assembled
    split at assembled
    · cases assembled
      rfl
    · obtain ⟨payload, -, rfl⟩ := Tree.exists_of_map assembled
      rfl
  | start =>
    unfold assemble at assembled
    dsimp only at assembled
    split at assembled
    · obtain ⟨request, -, rfl⟩ := Tree.exists_of_map assembled
      rfl
    · cases assembled
  | stop =>
    obtain ⟨id, -, rfl⟩ := Tree.exists_of_map assembled
    rfl
  | connectionTerminate | ping | pong =>
    cases assembled
    rfl

theorem ClientKind.ofMessage_of_read? {kind : ClientKind} {parts : Tree} {message : ClientMessage}
    (read : kind.read? parts = some message) : ofMessage message = kind := by
  obtain ⟨draft, -, made⟩ := Option.bind_eq_some_iff.mp read
  exact ofMessage_of_assemble (Tree.toOption_eq_some_iff.mp made)

theorem exists_clientKind?_of_decode? {protocol : Protocol} {text : String}
    {message : ClientMessage} (decoded : protocol.decode? text = some message) :
    ∃ word, protocol.clientKind? word = some (.ofMessage message) := by
  obtain ⟨_, _, word, kind, -, -, known, read⟩ := exists_of_decode? decoded
  exact ⟨word, known.trans (congrArg some (ClientKind.ofMessage_of_read? read).symm)⟩

/-- What both protocols accept is the start of a connection, and says the same under both. -/
theorem eq_of_shared {text : String} {message other : ClientMessage}
    (legacy : graphqlWs.decode? text = some message)
    (transport : graphqlTransportWs.decode? text = some other) :
    message = other ∧ ∃ payload, message = .connectionInit payload := by
  obtain ⟨tag, parts, word, kind, split, named, known, read⟩ := exists_of_decode? legacy
  obtain ⟨tag', parts', word', kind', split', named', known', read'⟩ := exists_of_decode? transport
  obtain ⟨rfl, rfl⟩ := Prod.mk.inj (Option.some.inj (split.symm.trans split'))
  obtain rfl := Option.some.inj (named.symm.trans named')
  obtain ⟨rfl, rfl⟩ := clientKind?_shared known known'
  refine ⟨Option.some.inj (read.symm.trans read'), ?_⟩
  have ofMessage := ClientKind.ofMessage_of_read? read
  cases message with
  | connectionInit payload => exact ⟨payload, rfl⟩
  | start | stop | connectionTerminate | ping | pong => cases ofMessage

/-- The members of a message suffice for its kind. -/
def ClientKind.Suffice (kind : ClientKind) (id payload : Option Tree) : Prop :=
  match kind with
  | start => (∃ text, id = some (.string (some text))) ∧
      ∃ tree request, payload = some tree ∧ Request.ofTree Tree.maxDepth tree = .ok request
  | stop => ∃ text, id = some (.string (some text))
  | connectionInit | connectionTerminate | ping | pong => True

theorem ClientKind.exists_message?_iff (kind : ClientKind) {members : List (Option String × Tree)}
    (readable : Readable (.object members)) :
    (∃ message, kind.message? (fun name => Ordered.get? members (some name)) = some message) ↔
      kind.Suffice (Ordered.get? members (some "id")) (Ordered.get? members (some "payload")) := by
  cases kind with
  | connectionInit =>
    refine iff_of_true ?_ trivial
    unfold message?
    dsimp only
    split
    · exact ⟨_, rfl⟩
    · rename_i tree found
      obtain ⟨json, read⟩ := readable.get? found
      unfold Tree.readOptional
      split
      · exact ⟨_, rfl⟩
      · exact ⟨_, by rw [read]; rfl⟩
  | start =>
    simp only [message?, Suffice, Option.bind_eq_some_iff, Option.map_eq_some_iff,
      Tree.toOption_eq_some_iff, Tree.readText_eq_ok_iff]
    constructor
    · rintro ⟨_, id, given, text, rfl, tree, payload, request, read, -⟩
      exact ⟨⟨text, given⟩, tree, request, payload, read⟩
    · rintro ⟨⟨text, given⟩, tree, request, payload, read⟩
      exact ⟨_, _, given, text, rfl, tree, payload, request, read, rfl⟩
  | stop =>
    simp only [message?, Suffice, Option.bind_eq_some_iff, Option.map_eq_some_iff,
      Tree.toOption_eq_some_iff, Tree.readText_eq_ok_iff]
    constructor
    · rintro ⟨_, id, given, text, rfl, -⟩
      exact ⟨text, given⟩
    · rintro ⟨text, given⟩
      exact ⟨_, _, given, text, rfl, rfl⟩
  | connectionTerminate | ping | pong => exact iff_of_true ⟨_, rfl⟩ trivial

/-- What is accepted can be read, has a tag of the protocol, and the members that its kind needs. -/
theorem exists_decode?_iff (protocol : Protocol) {text : String}
    {members : List (Option String × Tree)} (reads : Tree.read text = (.object members, false))
    (distinct : (members.map Prod.fst).Nodup) :
    (∃ message, protocol.decode? text = some message) ↔
      Readable (.object members) ∧ ∃ tag ∈ protocol.clientTags, ∃ kind,
        Ordered.get? members (some "type") = some (.string (some tag)) ∧
          protocol.clientKind? tag = some kind ∧
          kind.Suffice (Ordered.get? members (some "id"))
            (Ordered.get? members (some "payload")) := by
  by_cases readable : Readable (.object members)
  · rw [protocol.decode?_of_readable reads distinct readable, and_iff_right readable]
    constructor
    · rintro ⟨message, said⟩
      obtain ⟨tree, found, tagged⟩ := Option.bind_eq_some_iff.mp said
      obtain ⟨tag, named, ofTag⟩ := Option.bind_eq_some_iff.mp tagged
      obtain ⟨kind, known, ofKind⟩ := Option.bind_eq_some_iff.mp ofTag
      obtain rfl := Tree.readText_eq_ok_iff.mp (Tree.toOption_eq_some_iff.mp named)
      exact ⟨tag, (exists_clientKind?_iff protocol tag).mp ⟨kind, known⟩, kind, found, known,
        (kind.exists_message?_iff readable).mp ⟨message, ofKind⟩⟩
    · rintro ⟨tag, -, kind, tagged, known, suffice⟩
      rw [protocol.message?_of_tag tagged, known]
      exact (kind.exists_message?_iff readable).mpr suffice
  · rw [protocol.decode?_of_unreadable reads readable]
    exact iff_of_false nofun fun accepted => readable accepted.1

/-- An object with `type` replaced, as it stands in another protocol. -/
def retag (tag : String) (members : List (Option String × Tree)) : List (Option String × Tree) :=
  members.map fun member =>
    if member.1 = some "type" then (member.1, .string (some tag)) else member

theorem names_retag (tag : String) (members : List (Option String × Tree)) :
    (retag tag members).map Prod.fst = members.map Prod.fst := by
  rw [retag, List.map_map]
  refine List.map_congr_left fun member _ => ?_
  dsimp only [Function.comp]
  split <;> rfl

theorem get?_retag (tag : String) (members : List (Option String × Tree)) (name : Option String) :
    Ordered.get? (retag tag members) name =
      if name = some "type" then (Ordered.get? members name).map fun _ => .string (some tag)
      else Ordered.get? members name := by
  induction members with
  | nil => simp [retag, Ordered.get?]
  | cons member members ih =>
    obtain ⟨key, tree⟩ := member
    rw [retag] at ih
    rw [retag, List.map_cons]
    by_cases tagged : key = some "type" <;> by_cases same : key = name <;> simp_all [Ordered.get?]

/-- Another text in place of a text can be read just as well. -/
theorem readable_retag {tag old : String} {members : List (Option String × Tree)}
    (distinct : (members.map Prod.fst).Nodup)
    (tagged : Ordered.get? members (some "type") = some (.string (some old))) :
    Readable (.object (retag tag members)) ↔ Readable (.object members) := by
  simp only [Tree.readable_object_iff, retag, List.forall_mem_map]
  refine forall_congr' fun member => forall_congr' fun inside => ?_
  by_cases isTag : member.1 = some "type"
  · have here : (some "type", member.2) ∈ members := by rwa [← isTag]
    have same := (Ordered.get?_of_mem distinct here).symm.trans tagged
    rw [if_pos isTag]
    refine iff_of_true ⟨("type", .string tag), isTag, rfl⟩ ⟨("type", .string old), isTag, ?_⟩
    rw [Option.some.inj same]
    rfl
  · rw [if_neg isTag]

/-- Messages that say the same, where the payload of a connection is an object whose members may
come in any order. -/
inductive Alike : ClientMessage → ClientMessage → Prop
  | same (message : ClientMessage) : Alike message message
  | connectionInit {one other : Ordered String Json} : one.Perm other →
      Alike (.connectionInit (some (.object one))) (.connectionInit (some (.object other)))

/-- A payload whose members come in another order makes the same message. -/
theorem ClientKind.message?_alike (kind : ClientKind) {part? part?' : String → Option Tree}
    {payload payload' : List (Option String × Tree)} (ids : part? "id" = part?' "id")
    (given : part? "payload" = some (.object payload))
    (given' : part?' "payload" = some (.object payload')) (distinct : (payload.map Prod.fst).Nodup)
    (perm : payload.Perm payload') (readable : Readable (.object payload)) :
    Option.Rel Alike (kind.message? part?) (kind.message? part?') := by
  have refl : ∀ message? : Option ClientMessage, Option.Rel Alike message? message? := by
    intro message?
    cases message? with
    | none => exact .none
    | some message => exact .some (.same message)
  cases kind with
  | connectionInit =>
    obtain ⟨json, read⟩ := readable
    obtain ⟨values, values', rfl, read', perm'⟩ := Tree.value_object_perm distinct perm read
    simp only [message?, given, given', Tree.readOptional, read, read']
    exact .some (.connectionInit perm')
  | start =>
    have requests : (Request.ofTree Tree.maxDepth (.object payload)).toOption =
        (Request.ofTree Tree.maxDepth (.object payload')).toOption :=
      Request.toOption_ofTree_perm (Tree.maxDepth - 1) distinct perm readable.passable
    simp only [message?, given, given', ids, requests, Option.bind_some]
    exact refl _
  | stop =>
    rw [message?, message?, ids]
    exact refl _
  | connectionTerminate | ping | pong => exact refl _

/-- What the decoders of the two protocols make of a text that holds an object, and of other texts
that hold one. -/
structure Agreement (text : String) (members : List (Option String × Tree)) : Prop where
  /-- In the words of the newer protocol the same object says the same, or fails just the same. -/
  renamed : ∀ legacy transport other, (legacy, transport) ∈ counterparts →
    Ordered.get? members (some "type") = some (.string (some legacy)) →
    Tree.read other = (.object (retag transport members), false) →
    graphqlWs.decode? text = graphqlTransportWs.decode? other
  /-- The order of the members does not matter. -/
  ordered : ∀ (protocol : Protocol) other members', Tree.read other = (.object members', false) →
    members.Perm members' → protocol.decode? text = protocol.decode? other
  /-- Other members do not matter, if all there is can be read. -/
  other : ∀ (protocol : Protocol) other members', Tree.read other = (.object members', false) →
      (members'.map Prod.fst).Nodup → (Readable (.object members) ↔ Readable (.object members')) →
      (∀ name ∈ ["type", "id", "payload"],
        Ordered.get? members (some name) = Ordered.get? members' (some name)) →
      protocol.decode? text = protocol.decode? other
  /-- The order of the members of the payload does not matter. -/
  payload : ∀ (protocol : Protocol) other members' payload payload',
      Tree.read other = (.object members', false) → (members'.map Prod.fst).Nodup →
        (Readable (.object members) ↔ Readable (.object members')) →
        (∀ name ∈ ["type", "id"],
          Ordered.get? members (some name) = Ordered.get? members' (some name)) →
        Ordered.get? members (some "payload") = some (.object payload) →
        (payload.map Prod.fst).Nodup →
        Ordered.get? members' (some "payload") = some (.object payload') → payload.Perm payload' →
        Option.Rel Alike (protocol.decode? text) (protocol.decode? other)
  /-- What is accepted has a tag of the protocol, and the members that its kind needs. -/
  accepted : ∀ protocol : Protocol, (∃ message, protocol.decode? text = some message) ↔
      Readable (.object members) ∧ ∃ tag ∈ protocol.clientTags, ∃ kind,
        Ordered.get? members (some "type") = some (.string (some tag)) ∧
          protocol.clientKind? tag = some kind ∧
          kind.Suffice (Ordered.get? members (some "id")) (Ordered.get? members (some "payload"))

theorem decoders_agree {text : String} {members : List (Option String × Tree)}
    (reads : Tree.read text = (.object members, false)) (distinct : (members.map Prod.fst).Nodup) :
    Agreement text members ∧ ∀ shared message other, graphqlWs.decode? shared = some message →
      graphqlTransportWs.decode? shared = some other →
      message = other ∧ ∃ payload, message = .connectionInit payload := by
  refine ⟨⟨?_, ?_, ?_, ?_, ?_⟩, fun shared message other => eq_of_shared⟩
  · intro legacy transport other counterpart tagged reads'
    have distinct' : ((retag transport members).map Prod.fst).Nodup := by rwa [names_retag]
    refine decode?_related rfl graphqlWs graphqlTransportWs reads distinct reads' distinct'
      (readable_retag distinct tagged).symm fun _ => ?_
    have retagged : Ordered.get? (retag transport members) (some "type") =
        some (.string (some transport)) := by
      rw [get?_retag, if_pos rfl, tagged]
      rfl
    rw [message?_of_tag graphqlWs tagged, message?_of_tag graphqlTransportWs retagged,
      clientKind?_eq_of_counterparts counterpart]
    congr
    funext kind
    refine kind.message?_congr ?_ ?_ <;> rw [get?_retag, if_neg (by decide)]
  · intro protocol other members' reads' perm
    have distinct' : (members'.map Prod.fst).Nodup := (perm.map Prod.fst).nodup_iff.mp distinct
    refine decode?_related rfl protocol protocol reads distinct reads' distinct'
      (Tree.readable_perm perm) fun _ => ?_
    simp only [Ordered.get?_perm distinct perm]
  · intro protocol other members' reads' distinct' same alike
    refine decode?_related rfl protocol protocol reads distinct reads' distinct' same fun _ => ?_
    refine message?_related rfl protocol (alike "type" (by simp)) fun kind => ?_
    exact kind.message?_congr (alike "id" (by simp)) (alike "payload" (by simp))
  · intro protocol other members' payload payload' reads' distinct' same alike given apart given'
      perm
    refine decode?_related .none protocol protocol reads distinct reads' distinct' same
      fun readable => ?_
    refine message?_related .none protocol (alike "type" (by simp)) fun kind => ?_
    exact kind.message?_alike (alike "id" (by simp)) given given' apart perm (readable.get? given)
  · exact fun protocol => protocol.exists_decode?_iff reads distinct

/-- What a client of the older protocol asks for, with the request last or first, a client of the
newer one asks for in other words. -/
theorem decoders_agree_on_start :
    let request : Json := .object [("query", .string "{lift}"), ("operationName", .null)]
    let legacy : Json :=
      .object [("type", .string "start"), ("id", .string "1"), ("payload", request)]
    let transport : Json :=
      .object [("type", .string "subscribe"), ("id", .string "1"), ("payload", request)]
    let turned : Json :=
      .object [("payload", request), ("type", .string "start"), ("id", .string "1")]
    let members : List (Option String × Tree) :=
      [(some "type", .string (some "start")), (some "id", .string (some "1")),
        (some "payload", request.tree)]
    let message : ClientMessage := .start "1" ⟨"{lift}", none, none⟩
    Tree.read legacy.text = (.object members, false) ∧ (members.map Prod.fst).Nodup ∧
      graphqlWs.decode? legacy.text = some message ∧
      graphqlTransportWs.decode? transport.text = some message ∧
      graphqlWs.decode? turned.text = some message ∧
      graphqlTransportWs.decode? legacy.text = none := by
  intro request legacy transport turned members message
  have reads : Tree.read legacy.text = (.object members, false) := Json.read_text legacy
  have distinct : (members.map Prod.fst).Nodup := by decide
  obtain ⟨agreement, -⟩ := decoders_agree reads distinct
  have said : graphqlWs.decode? legacy.text = some message := by
    rw [decode?, reads]
    decide +kernel
  have renamed :=
    agreement.renamed "start" "subscribe" transport.text (by decide) rfl (Json.read_text transport)
  have ordered := agreement.ordered graphqlWs turned.text _ (Json.read_text turned)
    (@List.perm_append_comm _ [_, _] [_])
  have unknown : graphqlTransportWs.decode? legacy.text = none := by
    rw [← Option.not_isSome_iff_eq_none, Option.isSome_iff_exists, agreement.accepted]
    rintro ⟨-, tag, listed, -, tagged, -⟩
    obtain rfl : "start" = tag := by simpa [Ordered.get?, members] using tagged
    exact absurd listed (by decide)
  exact ⟨reads, distinct, said, renamed ▸ said, ordered ▸ said, unknown⟩

/-- A number that is too large spoils a message, though it stands in a member that does not
matter. -/
theorem unused_number_spoils :
    let text := r#"{"type":"ping","x":1e400}"#
    let members : List (Option String × Tree) := [(some "type", .string (some "ping"))]
    let spoiled : List (Option String × Tree) := members ++ [(some "x", .number none)]
    Tree.read (Json.object [("type", .string "ping")]).text = (.object members, false) ∧
      Tree.read text = (.object spoiled, false) ∧
      (members.map Prod.fst).Nodup ∧ (spoiled.map Prod.fst).Nodup ∧
      (∀ name ∈ ["type", "id", "payload"],
        Ordered.get? members (some name) = Ordered.get? spoiled (some name)) ∧
      graphqlTransportWs.decode? (Json.object [("type", .string "ping")]).text = some .ping ∧
      graphqlTransportWs.decode? text = none := by
  intro text members spoiled
  have plain : Tree.read (Json.object [("type", .string "ping")]).text = (.object members, false) :=
    Json.read_text _
  have reads : Tree.read text = (.object spoiled, false) := by
    have huge : Number.literal? false ['1'] none (some 400) = none := by decide +kernel
    have chars : text.toList =
        ['{', '"', 't', 'y', 'p', 'e', '"', ':', '"', 'p', 'i', 'n', 'g', '"', ',', '"', 'x', '"',
          ':', '1', 'e', '4', '0', '0', '}'] := by
      change r#"{"type":"ping","x":1e400}"#.toList = _
      rfl
    rw [Tree.read, chars]
    simp [Tree.readValue, Tree.readMembers, Tree.readString, Tree.skipBlanks, Tree.isBlank,
      Tree.readNumber, Tree.readWhole?, Tree.readDigits?, Tree.readFraction?, Tree.readExponent?,
      Tree.digitsValue, huge, spoiled, members]
  refine ⟨plain, reads, by decide, by decide, ?_, ?_, ?_⟩
  · simp [members, spoiled, Ordered.get?]
  · rw [decode?, plain]
    decide +kernel
  · rw [decode?, reads]
    decide +kernel

end Protocol

end MockGraph
