import DocCoverage.Toml.Quoted

/-!
# Keys

A key is one part or several parts with dots between them; blanks may stand around the dots.  A part
is bare, made of ASCII letters, digits, `_` and `-`, or a quoted string on one line.
-/

namespace DocCoverage.Toml

/-- The largest number of parts of one key. -/
def maxParts : Nat := 80

def isBareChar (c : Char) : Bool :=
  c.isAlphanum || c == '_' || c == '-'

def keyPart (s : List Char) : Option (String × List Char) :=
  if s.head?.any isBareChar then
    some (String.ofList (s.takeWhile isBareChar), s.dropWhile isBareChar)
  else quoted s

/-- Reads a key of at most the given number of parts, and the blanks after it. -/
def keyUpTo : Nat → Reader (List String)
  | 0, _ => none
  | parts + 1, s =>
    match keyPart s with
    | none => none
    | some (part, s) =>
      match skipBlanks s with
      | '.' :: s =>
        match keyUpTo parts (skipBlanks s) with
        | some (more, s) => some (part :: more, s)
        | none => none
      | s => some ([part], s)

/-- Reads a key and the blanks after it. -/
def key : Reader (List String) :=
  keyUpTo maxParts

end DocCoverage.Toml
