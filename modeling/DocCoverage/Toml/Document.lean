import DocCoverage.Toml.Key
import DocCoverage.Toml.Number
import DocCoverage.Toml.Moment
import DocCoverage.Toml.Table

/-!
# TOML documents

A document is read in two stages.  The first reads its text into statements: definitions of values
and headers.  The second builds the table that the statements describe.  Both refuse a document as a
whole.

    Document.read text = (statements text).bind build
-/

namespace DocCoverage.Toml

/-- How deep arrays and inline tables may be nested. -/
def maxDepth : Nat := 80

/-! ## Values -/

/-- A character of a value that stands without quotes: all but those that may follow it. -/
def isPlainChar (c : Char) : Bool :=
  !(isBlank c || c == '\n' || c == '\r' || c == '#' || c == ',' || c == '=' || c == '[' || c == ']'
    || c == '{' || c == '}')

/-- The value that a text without quotes writes. -/
def ofPlain (s : List Char) : Option Value :=
  if s = ['t', 'r', 'u', 'e'] then some (.boolean true)
  else if s = ['f', 'a', 'l', 's', 'e'] then some (.boolean false)
  else
    match integer? s, floatFits? s with
    | some n, _ => some (if integerFits n then .integer n else .hollow (String.ofList s))
    | none, some fits => some (if fits then .float (String.ofList s) else .hollow (String.ofList s))
    | none, none =>
      if isMoment s then some (.moment (String.ofList s))
      else if looksWhole s then some (.hollow (String.ofList s))
      else none

/-- Reads a value without quotes.  A date takes the time with it that follows after one space. -/
def plain (s : List Char) : Option (Value × List Char) :=
  let word := s.takeWhile isPlainChar
  let rest := s.dropWhile isPlainChar
  match rest with
  | ' ' :: c :: more =>
    if isDate word && c.isDigit then
      (ofPlain (word ++ ' ' :: (c :: more).takeWhile isPlainChar)).map
        (·, (c :: more).dropWhile isPlainChar)
    else (ofPlain word).map (·, rest)
  | _ => (ofPlain word).map (·, rest)

/-- Reads items with commas between them up to the closing character, which a comma may precede.
Gaps may stand around items.  Every item takes at least one character, so `fuel` of the length of
the text never runs out. -/
def separated {α : Type} (item : Reader α) (close : Char) :
    (fuel : Nat) → (done : List α) → Reader (List α)
  | 0, _, _ => none
  | fuel + 1, done, s =>
    match skipGap s with
    | [] => none
    | c :: rest =>
      if c = close then some (done.reverse, rest)
      else
        match item (c :: rest) with
        | none => none
        | some (x, s) =>
          match skipGap s with
          | [] => none
          | d :: s =>
            if d = ',' then separated item close fuel (x :: done) s
            else if d = close then some ((x :: done).reverse, s)
            else none

/-- Reads a definition inside an inline table, where gaps may stand around the equals sign. -/
def inlinePair (value : Reader Value) (s : List Char) :
    Option ((List String × Value) × List Char) :=
  match key s with
  | none => none
  | some (ks, s) =>
    match skipGap s with
    | '=' :: s => (value (skipGap s)).map fun (v, s) => ((ks, v), s)
    | _ => none

/-- Reads a value in which arrays and inline tables are nested at most `depth` deep. -/
def valueUpTo : (depth : Nat) → Reader Value
  | 0, s =>
    match s with
    | '"' :: _ | '\'' :: _ => (string s).map fun (t, s) => (.string t, s)
    | '[' :: _ | '{' :: _ => none
    | _ => plain s
  | depth + 1, s =>
    match s with
    | '"' :: _ | '\'' :: _ => (string s).map fun (t, s) => (.string t, s)
    | '[' :: rest =>
      (separated (valueUpTo depth) ']' rest.length [] rest).map fun (vs, s) => (.array vs, s)
    | '{' :: rest =>
      match separated (inlinePair (valueUpTo depth)) '}' rest.length [] rest with
      | none => none
      | some (defs, s) =>
        (Entries.assignAll defs .inline []).map fun es => (.table .inline es, s)
    | _ => plain s

def value : Reader Value :=
  valueUpTo maxDepth

/-! ## Statements -/

inductive Statement where
  | define (key : List String) (v : Value)
  | header (key : List String)
  | element (key : List String)
  deriving Repr

/-- Reads a key and the text that closes it. -/
def closedKey (close : List Char) (s : List Char) : Option (List String × List Char) :=
  match key (skipBlanks s) with
  | none => none
  | some (ks, s) => if close.isPrefixOf s then some (ks, s.drop close.length) else none

def statement : Reader Statement
  | '[' :: '[' :: s => (closedKey [']', ']'] s).map fun (ks, s) => (.element ks, s)
  | '[' :: s => (closedKey [']'] s).map fun (ks, s) => (.header ks, s)
  | s =>
    match closedKey ['='] s with
    | none => none
    | some (ks, s) => (value (skipBlanks s)).map fun (v, s) => (.define ks v, s)

/-- Reads the statements of a text, one on a line.  Every line takes at least one character, so
`fuel` beyond the length of the text never runs out. -/
def statementsFrom : (fuel : Nat) → (done : List Statement) → List Char → Option (List Statement)
  | 0, _, _ => none
  | fuel + 1, done, s =>
    match finishLine s with
    | some [] => some done.reverse
    | some rest => statementsFrom fuel done rest
    | none =>
      match statement (skipBlanks s) with
      | none => none
      | some (stmt, s) =>
        match finishLine s with
        | none => none
        | some rest => statementsFrom fuel (stmt :: done) rest

/-- Drops a byte order mark at the front. -/
def skipMark : List Char → List Char
  | '\ufeff' :: s => s
  | s => s

def statements (text : List Char) : Option (List Statement) :=
  statementsFrom (text.length + 1) [] (skipMark text)

/-! ## The table of a document -/

/-- A header or an element of an array of tables, with the definitions that follow it. -/
structure Section where
  isElement : Bool
  key : List String
  defs : List (List String × Value)
  deriving Repr

/-- Adds a statement in front of the definitions that stand before all headers and the sections. -/
def prepend (s : Statement) (grouped : List (List String × Value) × List Section) :
    List (List String × Value) × List Section :=
  match s with
  | .define k v => ((k, v) :: grouped.1, grouped.2)
  | .header k => ([], ⟨false, k, grouped.1⟩ :: grouped.2)
  | .element k => ([], ⟨true, k, grouped.1⟩ :: grouped.2)

/-- The definitions before the first header, and the sections from there on. -/
def group (ss : List Statement) : List (List String × Value) × List Section :=
  ss.foldr prepend ([], [])

/-- Adds a section to the table of a document. -/
def Section.addTo (es : Entries) (s : Section) : Option Entries :=
  if s.isElement then es.openElement s.key s.defs else es.openTable s.key s.defs

/-- The table that some statements describe. -/
def build (ss : List Statement) : Option Entries :=
  (Entries.assignAll (group ss).1 .header []).bind fun es => (group ss).2.foldlM Section.addTo es

def Document.read (text : String) : Option Entries :=
  (statements text.toList).bind build

end DocCoverage.Toml
