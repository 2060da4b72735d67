/-!
# Blanks, line ends and comments

Blanks are spaces and tabs.  A line ends in a line feed, which a carriage return may precede; a
carriage return stands nowhere else.  A comment runs up to the end of its line and holds no control
character but the tab.
-/

namespace DocCoverage.Toml

def isBlank (c : Char) : Bool :=
  c == ' ' || c == '\t'

/-- A character that may stand in a comment or in a string: the tab, or no control character. -/
def isTextChar (c : Char) : Bool :=
  c == '\t' || (' ' ≤ c && c != '\x7f')

def skipBlanks (s : List Char) : List Char :=
  s.dropWhile isBlank

/-- The text after the line end that it starts with. -/
def newline? : List Char → Option (List Char)
  | '\n' :: s => some s
  | '\r' :: '\n' :: s => some s
  | _ => none

def skipComment : List Char → List Char
  | '#' :: s => s.dropWhile isTextChar
  | s => s

/-- The next line, if this one holds nothing more than blanks and a comment. -/
def finishLine (s : List Char) : Option (List Char) :=
  match skipComment (skipBlanks s) with
  | [] => some []
  | rest => newline? rest

/-- Skips blanks, line ends and comments; `within` tells whether the text starts inside a
comment. -/
def skipGapFrom : (within : Bool) → List Char → List Char
  | _, [] => []
  | within, c :: s =>
    if within && isTextChar c then skipGapFrom true s
    else if isBlank c || c == '\n' || (c == '\r' && s.head? == some '\n') then skipGapFrom false s
    else if c == '#' then skipGapFrom true s
    else c :: s

def skipGap (s : List Char) : List Char :=
  skipGapFrom false s

end DocCoverage.Toml
