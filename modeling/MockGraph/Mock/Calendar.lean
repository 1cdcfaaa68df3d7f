set_option autoImplicit false

namespace MockGraph

structure Date where
  year : Nat
  month : Nat
  day : Nat
deriving DecidableEq, Inhabited, Repr

namespace Date

/-- The date of a day. Years are counted from March, so that a leap day ends its year. -/
def ofDay (number : Nat) : Date :=
  let shifted := number + 305
  let era := shifted / 146097
  let dayOfEra := shifted % 146097
  let yearOfEra := (dayOfEra - dayOfEra / 1460 + dayOfEra / 36524 - dayOfEra / 146096) / 365
  let dayOfYear := dayOfEra - (365 * yearOfEra + yearOfEra / 4 - yearOfEra / 100)
  let shiftedMonth := (5 * dayOfYear + 2) / 153
  let day := dayOfYear - (153 * shiftedMonth + 2) / 5 + 1
  let month := if shiftedMonth < 10 then shiftedMonth + 3 else shiftedMonth - 9
  let year := yearOfEra + era * 400
  ⟨if month ≤ 2 then year + 1 else year, month, day⟩

/-- Month, day and year without leading zeros. -/
def text (date : Date) : String :=
  toString date.month ++ "/" ++ toString date.day ++ "/" ++ toString date.year

end Date

end MockGraph
