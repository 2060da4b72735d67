import DocCoverage.Text.Hexadecimal
import DocCoverage.Text.Space

/-!
# Escapes in patterns

Patterns are regular expressions that values of fields are compared with.  No event is ever
compared, so all that counts of a pattern is whether it is one.  What a pattern cannot hold here are
closing braces, commas and equals signs, which end a pattern where it is written; so whatever needs
a closing brace (counted repetition, properties and numbers in braces) stays open and is refused.

An escape stands for a character, for a class of characters, or for a condition on a place in a
text.  A pattern that can match bytes which are not text is refused.
-/

namespace DocCoverage.Pattern

/-- The modes that reading depends on. -/
structure Mode where
  /-- What is matched are characters; otherwise it is bytes, and only ASCII is sure to be text. -/
  unicode : Bool
  /-- White space and comments are passed over. -/
  spaced : Bool
  deriving DecidableEq, Repr

/-- Skips white space and comments; `within` tells whether the text starts inside a comment. -/
def skipSpaceFrom : (within : Bool) → List Char → List Char
  | _, [] => []
  | true, c :: s => skipSpaceFrom (c != '\n') s
  | false, c :: s =>
    if isSpace c then skipSpaceFrom false s
    else if c == '#' then skipSpaceFrom true s
    else c :: s

/-- Skips what the mode passes over. -/
def Mode.skip (m : Mode) (s : List Char) : List Char :=
  if m.spaced then skipSpaceFrom false s else s

/-- A part of a pattern that is no group, no bracketed class and no operator. -/
inductive Atom where
  | char (c : Char)
  | charClass
  /-- The edge of a word, or a place that is none. -/
  | wordEdge
  /-- The start or the end of the text. -/
  | textEdge
  deriving DecidableEq, Repr

/-- Reads a number of so many hexadecimal digits, which goes on from the number before them. -/
def hexDigits (m : Mode) : (count number : Nat) → List Char → Option (Nat × List Char)
  | 0, number, s => some (number, s)
  | count + 1, number, s =>
    match m.skip s with
    | [] => none
    | c :: s => (hexValue? c).bind fun d => hexDigits m count (number * 16 + d) s

/-- Reads a character that is given by its number. -/
def numbered (m : Mode) (count : Nat) (s : List Char) : Option (Char × List Char) :=
  match hexDigits m count 0 s with
  | some (n, s) => if n.isValidChar then some (Char.ofNat n, s) else none
  | none => none

/-- Whether an escaped letter names a class of characters that bytes allow too. -/
def isByteClass (c : Char) : Bool :=
  c == 'd' || c == 's' || c == 'w'

/-- Whether an escaped letter names the complement of such a class. -/
def isCoClass (c : Char) : Bool :=
  c == 'D' || c == 'S' || c == 'W'

/-- Whether a letter names a general category of characters, in either case. -/
def isCategory (c : Char) : Bool :=
  ['c', 'l', 'm', 'n', 'p', 's', 'z'].contains c.toLower

/-- The character that an escaped letter stands for. -/
def control? (c : Char) : Option Char :=
  if c = 'a' then some '\x07'
  else if c = 'f' then some '\x0c'
  else if c = 't' then some '\t'
  else if c = 'n' then some '\n'
  else if c = 'r' then some '\r'
  else if c = 'v' then some '\x0b'
  else none

/-- Whether an escaped character stands for itself. -/
def isSelfEscape (c : Char) : Bool :=
  c.toNat < 0x80 && !c.isAlphanum && c != '<' && c != '>'

/-- Reads an escape after its backslash. -/
def escape (m : Mode) (s : List Char) : Option (Atom × List Char) :=
  match s with
  | [] => none
  | c :: s =>
    if c == 'x' then
      match numbered m 2 s with
      | some (d, s) => if m.unicode || d.toNat < 0x80 then some (.char d, s) else none
      | none => none
    else if c == 'u' then (numbered m 4 s).map fun (d, s) => (.char d, s)
    else if c == 'U' then (numbered m 8 s).map fun (d, s) => (.char d, s)
    else if c == 'p' || c == 'P' then
      match m.skip s with
      | d :: s => if m.unicode && isCategory d then some (.charClass, s) else none
      | [] => none
    else if isByteClass c then some (.charClass, s)
    else if isCoClass c then if m.unicode then some (.charClass, s) else none
    else if c == 'A' || c == 'z' then some (.textEdge, s)
    else if c == 'b' || c == 'B' || c == '<' || c == '>' then some (.wordEdge, s)
    else if isSelfEscape c then some (.char c, s)
    else (control? c).map fun d => (.char d, s)

end DocCoverage.Pattern
