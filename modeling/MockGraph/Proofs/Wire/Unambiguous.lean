import MockGraph.Proofs.Json.Distinct
import MockGraph.Wire.Protocol
set_option autoImplicit false

namespace MockGraph

@[simp] theorem PathSegment.toJson_inj {one other : PathSegment} :
    one.toJson = other.toJson ↔ one = other := by
  refine ⟨fun same => ?_, fun same => same ▸ rfl⟩
  cases one <;> cases other <;> cases same <;> rfl

@[simp] theorem PathSegment.map_toJson_inj {one other : List PathSegment} :
    one.map toJson = other.map toJson ↔ one = other :=
  List.map_inj_right fun _ _ => toJson_inj.mp

/-- A path or extensions that are absent are not those that are empty. -/
@[simp] theorem FieldError.toJson_inj {one other : FieldError} :
    one.toJson = other.toJson ↔ one = other := by
  obtain ⟨message, path, extensions⟩ := one
  obtain ⟨message', path', extensions'⟩ := other
  cases path <;> cases path' <;> cases extensions <;> cases extensions' <;> simp [toJson]

@[simp] theorem Protocol.errorList_inj {one other : List FieldError} :
    errorList one = errorList other ↔ one = other := by
  simp only [errorList, Json.array.injEq]
  exact List.map_inj_right fun _ _ => FieldError.toJson_inj.mp

/-- Absent data is not the data `null`, and absent errors are not none. -/
@[simp] theorem Response.toJson_inj {one other : Response} :
    one.toJson = other.toJson ↔ one = other := by
  obtain ⟨data, errors⟩ := one
  obtain ⟨data', errors'⟩ := other
  have lists (left right : List FieldError) :
      left.map FieldError.toJson = right.map FieldError.toJson ↔ left = right :=
    List.map_inj_right fun _ _ => FieldError.toJson_inj.mp
  cases data <;> cases data' <;> cases errors <;> cases errors' <;> simp [toJson, lists]

/-- The doubles in what a message reports. -/
def ServerMessage.doubles : ServerMessage → List Double
  | next _ payload => payload.toJson.doubles
  | error _ errors => (Protocol.errorList errors).doubles
  | _ => []

namespace Protocol

variable {protocol : Protocol} {one other : ServerMessage}

/-- The tag tells the kind of a message, and the members its parts. -/
theorem eq_of_toJson? {value : Json} (left : protocol.toJson? one = some value)
    (right : protocol.toJson? other = some value) : one = other := by
  have same : protocol.toJson? one = protocol.toJson? other := left.trans right.symm
  have written : protocol.toJson? one ≠ none := by simp [left]
  clear left right
  cases protocol <;> cases one <;> cases other <;> simp [toJson?, tagged] at same written ⊢ <;>
    exact same

/-- The doubles in a message's JSON value are those in what it reports. -/
theorem doubles_toJson? {value : Json} (written : protocol.toJson? one = some value) :
    value.doubles = one.doubles := by
  cases protocol <;> cases one <;>
    simp [toJson?, tagged] at written <;>
    simp [← written, Json.doubles, Json.memberDoubles, ServerMessage.doubles]

theorem toJson?_of_encode? {text : String} (left : protocol.encode? one = some text)
    (right : protocol.encode? other = some text)
    (apart : Double.ToldApart one.doubles other.doubles) :
    ∃ value, protocol.toJson? one = some value ∧ protocol.toJson? other = some value := by
  obtain ⟨value, written, rfl⟩ := Option.map_eq_some_iff.mp left
  obtain ⟨value', written', same⟩ := Option.map_eq_some_iff.mp right
  rw [← doubles_toJson? written, ← doubles_toJson? written'] at apart
  exact ⟨value, written, by rw [written', Json.eq_of_text same.symm apart]⟩

/-- Within a protocol a text stands for one message only, if no two doubles of what is reported have
a text in common. -/
theorem encode_unambiguous {text : String} (left : protocol.encode? one = some text)
    (right : protocol.encode? other = some text)
    (apart : Double.ToldApart one.doubles other.doubles) : one = other := by
  obtain ⟨value, written, written'⟩ := toJson?_of_encode? left right apart
  exact eq_of_toJson? written written'

/-- A depth of 1.5 is reported in one way only, whether with the constructor for executed operations
or without. -/
theorem encode_unambiguous_depth :
    let depth := Json.object [("depth", .number (.double ⟨false, 6755399441055744, -52⟩))]
    graphqlWs.encode? (.next "1" (.executed depth [])) =
        some r#"{"type":"data","id":"1","payload":{"data":{"depth":1.5}}}"# ∧
      ServerMessage.next "1" (.executed depth []) = .next "1" ⟨some depth, none⟩ := by
  intro depth
  have written : graphqlWs.encode? (.next "1" (.executed depth [])) =
      some r#"{"type":"data","id":"1","payload":{"data":{"depth":1.5}}}"# := by
    decide +kernel
  refine ⟨written, encode_unambiguous written ?_ ?_⟩
  · decide +kernel
  · unfold Double.ToldApart
    decide +kernel

end Protocol

end MockGraph
