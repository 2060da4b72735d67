import DocCoverage.Text.Hexadecimal
import DocCoverage.Toml.Blank
import DocCoverage.Toml.Value

/-!
# Quoted strings

A literal string stands between apostrophes and is taken as it is.  A basic string stands between
quotation marks and may hold escapes.  Either kind spans several lines when its mark is written
three times; then it may hold one or two marks in a row, also just before the end, and the line end
right after the opening is dropped.
-/

namespace DocCoverage.Toml

/-- The number written in hexadecimal digits. -/
def hexNumber? (digits : List Char) : Option Nat :=
  digits.foldl (fun n? c => do return (← n?) * 16 + (← hexValue? c)) (some 0)

/-- The character whose number is written in the next `count` hexadecimal digits. -/
def numbered? (count : Nat) (s : List Char) : Option Char := do
  let digits := s.take count
  if digits.length = count then
    let n ← hexNumber? digits
    if n.isValidChar then some (Char.ofNat n) else none
  else none

/-- The character that an escape stands for, read after the backslash, and its length there. -/
def escape? : List Char → Option (Char × Nat)
  | 'b' :: _ => some ('\x08', 1)
  | 't' :: _ => some ('\t', 1)
  | 'n' :: _ => some ('\n', 1)
  | 'f' :: _ => some ('\x0c', 1)
  | 'r' :: _ => some ('\r', 1)
  | 'e' :: _ => some ('\x1b', 1)
  | '"' :: _ => some ('"', 1)
  | '\\' :: _ => some ('\\', 1)
  | 'x' :: s => (numbered? 2 s).map (·, 3)
  | 'u' :: s => (numbered? 4 s).map (·, 5)
  | 'U' :: s => (numbered? 8 s).map (·, 9)
  | _ => none

/-- Reads a literal string after its opening mark. -/
def literal (s : List Char) : Option (String × List Char) :=
  let body := s.takeWhile fun c => isTextChar c && c != '\''
  match s.dropWhile fun c => isTextChar c && c != '\'' with
  | '\'' :: rest => some (String.ofList body, rest)
  | _ => none

/-- Reads a basic string after its opening mark.  `done` is what it holds so far, the last character
first, and the next `skip` characters belong to an escape that is done. -/
def basicFrom : (skip : Nat) → (done : List Char) → List Char → Option (String × List Char)
  | _, _, [] => none
  | skip + 1, done, _ :: s => basicFrom skip done s
  | 0, done, c :: s =>
    if c == '"' then some (String.ofList done.reverse, s)
    else if c == '\\' then
      match escape? s with
      | some (d, n) => basicFrom n (d :: done) s
      | none => none
    else if isTextChar c then basicFrom 0 (c :: done) s
    else none

/-- Ends a string of several lines where its mark was found: two more marks have to follow for it to
end, and then up to two marks beyond these belong to the string. -/
def closing? (mark : Char) (done s : List Char) : Option (String × List Char) :=
  match s with
  | a :: b :: rest =>
    if a == mark && b == mark then
      let extra := (rest.take 2).takeWhile (· == mark)
      some (String.ofList (done.reverse ++ extra), rest.drop extra.length)
    else none
  | _ => none

/-- Whether a character of a string of several lines stands for itself: a carriage return does
before a line feed only. -/
def standsInLines (c : Char) (rest : List Char) : Bool :=
  isTextChar c || c == '\n' || (c == '\r' && rest.head? == some '\n')

/-- Reads a literal string of several lines. -/
def literalLinesFrom (done : List Char) : List Char → Option (String × List Char)
  | [] => none
  | c :: s =>
    if c == '\'' then
      match closing? '\'' done s with
      | some result => some result
      | none => literalLinesFrom (c :: done) s
    else if standsInLines c s then literalLinesFrom (c :: done) s
    else none

/-- Whether nothing but blanks stands before the next line end. -/
def endsLine (s : List Char) : Bool :=
  (newline? (skipBlanks s)).isSome

/-- Reads a basic string of several lines.  A backslash at the end of a line drops the line end and
all blanks and line ends after it; `joining` tells whether such characters are being dropped. -/
def basicLinesFrom : (skip : Nat) → (joining : Bool) → (done : List Char) → List Char →
    Option (String × List Char)
  | _, _, _, [] => none
  | skip + 1, joining, done, _ :: s => basicLinesFrom skip joining done s
  | 0, joining, done, c :: s =>
    if joining && (isBlank c || c == '\n' || (c == '\r' && s.head? == some '\n')) then
      basicLinesFrom 0 true done s
    else if c == '"' then
      match closing? '"' done s with
      | some result => some result
      | none => basicLinesFrom 0 false (c :: done) s
    else if c == '\\' then
      if endsLine s then basicLinesFrom 0 true done s
      else
        match escape? s with
        | some (d, n) => basicLinesFrom n false (d :: done) s
        | none => none
    else if standsInLines c s then basicLinesFrom 0 false (c :: done) s
    else none

/-- Drops a line end at the front. -/
def skipNewline (s : List Char) : List Char :=
  (newline? s).getD s

/-- Reads a string on one line. -/
def quoted : Reader String
  | '\'' :: s => literal s
  | '"' :: s => basicFrom 0 [] s
  | _ => none

/-- Reads a string of any kind. -/
def string : Reader String
  | '\'' :: '\'' :: '\'' :: s => literalLinesFrom [] (skipNewline s)
  | '"' :: '"' :: '"' :: s => basicLinesFrom 0 false [] (skipNewline s)
  | s => quoted s

end DocCoverage.Toml
