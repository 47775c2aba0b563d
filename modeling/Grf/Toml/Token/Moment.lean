import Grf.Toml.Token

namespace Grf.Toml.Token

/-- A number of exactly two digits. -/
def scanPair : List Char → Option (Nat × List Char)
  | a :: b :: rest =>
    if a.isDigit && b.isDigit then some (digitsValue 10 [a, b], rest) else none
  | _ => none

/-- Two numbers of two digits each with the given character between them. -/
def scanPairs (between : Char) (cs : List Char) : Option (Nat × Nat × List Char) :=
  match scanPair cs with
  | some (first, c :: rest) =>
    if c = between then (scanPair rest).map fun (second, rest) => (first, second, rest) else none
  | _ => none

def isLeapYear (year : Nat) : Bool :=
  year % 4 = 0 && (year % 100 ≠ 0 || year % 400 = 0)

/-- The number of days of a month. A month that does not exist has none. -/
def monthLength (year month : Nat) : Nat :=
  if month = 2 then if isLeapYear year then 29 else 28
  else if month = 4 || month = 6 || month = 9 || month = 11 then 30
  else if 1 ≤ month && month ≤ 12 then 31
  else 0

/-- Whether two digits and a colon follow. -/
def isTimeStart : List Char → Bool
  | a :: b :: ':' :: _ => a.isDigit && b.isDigit
  | _ => false

/-- Whether four digits and a hyphen follow. -/
def isDateStart : List Char → Bool
  | a :: b :: c :: d :: '-' :: _ => [a, b, c, d].all Char.isDigit
  | _ => false

/-- What follows a date that exists. -/
def scanDate : List Char → Option (List Char)
  | a :: b :: c :: d :: '-' :: rest =>
    match scanPairs '-' rest with
    | none => none
    | some (month, day, rest) =>
      if 1 ≤ day && day ≤ monthLength (digitsValue 10 [a, b, c, d]) month then some rest else none
  | _ => none

/-- What follows the fraction of a second, if there is one. -/
def scanFraction : List Char → Option (List Char)
  | '.' :: rest =>
    if rest.head?.any Char.isDigit then some (rest.dropWhile Char.isDigit) else none
  | rest => some rest

/-- The distance from universal time. A full day and a full hour are possible. -/
def scanOffset : List Char → Option (List Token × List Char)
  | 'Z' :: rest => some ([offset], rest)
  | c :: rest =>
    if c = '+' || c = '-' then
      match scanPairs ':' rest with
      | none => none
      | some (hours, minutes, rest) =>
        if hours ≤ 24 && minutes ≤ 60 then some ([offset], rest) else none
    else some ([], c :: rest)
  | [] => some ([], [])

/-- A time of the day, with the distance from universal time that may follow. -/
def scanTime (cs : List Char) : Option (List Token × List Char) :=
  match scanPairs ':' cs with
  | some (hour, minute, ':' :: rest) =>
    match scanPair rest with
    | none => none
    | some (second, rest) =>
      if hour < 24 && minute < 60 && second < 60 then
        ((scanFraction rest).bind scanOffset).map fun (tokens, rest) => (time :: tokens, rest)
      else none
  | _ => none

/-- A time, or a date with the time that may follow after a letter or a blank. Nothing else may
stand right after a date. -/
def scanMoment (cs : List Char) : Option (List Token × List Char) :=
  if isTimeStart cs then scanTime cs
  else
    match scanDate cs with
    | none => none
    | some [] => some ([date], [])
    | some ('T' :: rest) => (scanTime rest).map fun (tokens, rest) => (date :: tokens, rest)
    | some (' ' :: rest) =>
      if (scanPair rest).isSome then
        (scanTime rest).map fun (tokens, rest) => (date :: tokens, rest)
      else some ([date], rest)
    | some _ => none

end Grf.Toml.Token
