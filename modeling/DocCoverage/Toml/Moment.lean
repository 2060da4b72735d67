/-!
# Dates and times

A moment is a date, a time, or a date and a time, the last with an offset or without.  The time may
leave out its seconds, and only seconds have a fraction.  A date has to be in the calendar, with
leap years by the Gregorian rule; a minute may have a leap second.
-/

namespace DocCoverage.Toml

/-- Takes a number of two digits off the front. -/
def two? : List Char → Option (Nat × List Char)
  | a :: b :: s =>
    if a.isDigit && b.isDigit then
      some ((a.toNat - '0'.toNat) * 10 + (b.toNat - '0'.toNat), s)
    else none
  | _ => none

/-- Takes a given character off the front. -/
def mark? (c : Char) : List Char → Option (List Char)
  | d :: s => if c = d then some s else none
  | [] => none

def isLeap (year : Nat) : Bool :=
  year % 4 == 0 && (year % 100 != 0 || year % 400 == 0)

/-- The number of days of a month, zero for a month that does not exist. -/
def daysIn (year month : Nat) : Nat :=
  if month = 2 then if isLeap year then 29 else 28
  else if month = 4 ∨ month = 6 ∨ month = 9 ∨ month = 11 then 30
  else if 1 ≤ month ∧ month ≤ 12 then 31
  else 0

/-- Takes a date off the front. -/
def date? (s : List Char) : Option (List Char) := do
  let (century, s) ← two? s
  let (year, s) ← two? s
  let (month, s) ← two? (← mark? '-' s)
  let (day, s) ← two? (← mark? '-' s)
  if 1 ≤ day ∧ day ≤ daysIn (century * 100 + year) month then some s else none

/-- Takes a fraction off the front, if there is one. -/
def skipFraction? : List Char → Option (List Char)
  | '.' :: s => if s.head?.any Char.isDigit then some (s.dropWhile Char.isDigit) else none
  | s => some s

/-- Takes seconds and their fraction off the front, if there are some. -/
def skipSeconds? : List Char → Option (List Char)
  | ':' :: s => do
    let (second, s) ← two? s
    if second ≤ 60 then skipFraction? s else none
  | s => some s

/-- Takes a time off the front. -/
def time? (s : List Char) : Option (List Char) := do
  let (hour, s) ← two? s
  let (minute, s) ← two? (← mark? ':' s)
  if hour ≤ 23 ∧ minute ≤ 59 then skipSeconds? s else none

/-- Whether a text is an offset from universal time, or empty. -/
def isOffset (s : List Char) : Bool :=
  match s with
  | [] => true
  | ['Z'] => true
  | ['z'] => true
  | c :: s =>
    (c == '+' || c == '-') &&
      match two? s with
      | some (hour, ':' :: s) =>
        match two? s with
        | some (minute, []) => hour ≤ 23 && minute ≤ 59
        | _ => false
      | _ => false

def isDate (s : List Char) : Bool :=
  date? s == some []

def isMoment (s : List Char) : Bool :=
  match date? s with
  | some [] => true
  | some (c :: s) => (c == 'T' || c == 't' || c == ' ') && (time? s).any isOffset
  | none => time? s == some []

end DocCoverage.Toml
