set_option autoImplicit false

namespace MockGraph.SkiDay

def schemaText : String :=
  String.intercalate "\n" [
    "scalar Date",
    "",
    "\"\"\"",
    "An object that describes the characteristics of a ski day",
    "\"\"\"",
    r"type SkiDay {",
    r#"  "A ski day's unique identifier""#,
    "  id: ID!",
    "  date: Date!",
    "  mountain: String!",
    "  conditions: Conditions",
    r"}",
    "",
    r"enum Conditions {",
    "  POWDER",
    "  HEAVY",
    "  ICE",
    "  THIN",
    r"}",
    "",
    r"type Query {",
    "  totalDays: Int!",
    "  allDays: [SkiDay!]!",
    r"}",
    "",
    r"input AddDayInput {",
    "  date: Date!",
    "  mountain: String!",
    "  conditions: Conditions",
    r"}",
    "",
    r"type RemoveDayPayload {",
    "  day: SkiDay",
    "  remove: Boolean",
    "  totalBefore: Int",
    "  totalAfter: Int",
    r"}",
    "",
    r"type Mutation {",
    "  addDay(input: AddDayInput!): SkiDay!",
    "  removeDay(id: ID!): RemoveDayPayload!",
    r"}",
    "",
    r"type Subscription {",
    "  newDay: SkiDay!",
    r"}",
    ""]

def mocksText : String :=
  String.intercalate "\n" [
    r"{",
    r#"  "types": {"#,
    r#"    "Date": "1/2/2025","#,
    r#"    "String": "Cool date""#,
    r"  },",
    r#"  "fields": {"#,
    r#"    "Query.allDays": { "listSize": [1, 15] }"#,
    r"  }",
    r"}",
    ""]

end MockGraph.SkiDay
