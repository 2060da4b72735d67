import DocCoverage.Pattern.Escape

/-!
# Bracketed classes in patterns

A bracketed class is a union of characters, ranges, escapes, named classes and classes in brackets
of their own.  Two signs `&&`, `--` or `~~` between unions stand for intersection, difference and
symmetric difference, taken from left to right.

The height of a class counts the brackets, unions and operations that are nested in it.  A class of
bytes that are not ASCII is refused, and the bit `beyond` tells where one comes up on the way.
-/

namespace DocCoverage.Pattern

/-- What counts of a class of characters. -/
structure CharSet where
  height : Nat
  /-- Whether bytes beyond ASCII belong to it, when it is a class of bytes. -/
  beyond : Bool
  deriving DecidableEq, Repr

/-- A union that is being read. -/
structure Items where
  count : Nat
  /-- The height of the highest item. -/
  height : Nat
  beyond : Bool
  deriving DecidableEq, Repr

namespace Items

def empty : Items :=
  ⟨0, 0, false⟩

def add (items : Items) (set : CharSet) : Items :=
  ⟨items.count + 1, max items.height set.height, items.beyond || set.beyond⟩

/-- Adds what has no parts and lies within ASCII, if it is one of bytes. -/
def addOne (items : Items) : Items :=
  items.add ⟨0, false⟩

/-- The class of all items. -/
def toCharSet (items : Items) : CharSet :=
  ⟨if items.count ≤ 1 then items.height else items.height + 1, items.beyond⟩

end Items

namespace CharSet

/-- The operation that two equal signs stand for, on whether a byte belongs to a class. -/
def operation? (c d : Char) : Option (Bool → Bool → Bool) :=
  if c != d then none
  else if c == '&' then some and
  else if c == '-' then some fun a b => a && !b
  else if c == '~' then some xor
  else none

/-- Joins two classes by an operation. -/
def join (op : Bool → Bool → Bool) (a b : CharSet) : CharSet :=
  ⟨max a.height b.height + 1, op a.beyond b.beyond⟩

/-- The class in brackets. -/
def enclose (m : Mode) (isComplement : Bool) (set : CharSet) : Option CharSet :=
  let beyond := set.beyond != isComplement
  if m.unicode || !beyond then some ⟨set.height + 1, beyond⟩ else none

end CharSet

def classNames : List String :=
  ["alnum", "alpha", "ascii", "blank", "cntrl", "digit", "graph", "lower", "print", "punct",
    "space", "upper", "word", "xdigit"]

/-- Reads a named class after its opening bracket. -/
def namedClass? : List Char → Option (CharSet × List Char)
  | ':' :: s =>
    let isComplement := s.head? == some '^'
    let s := if isComplement then s.drop 1 else s
    match s.dropWhile (· != ':') with
    | ':' :: ']' :: rest =>
      if classNames.contains (String.ofList (s.takeWhile (· != ':'))) then
        some (⟨0, isComplement⟩, rest)
      else none
    | _ => none
  | _ => none

/-- Reads one end of a range. -/
def member (m : Mode) : List Char → Option (Atom × List Char)
  | [] => none
  | '\\' :: s => escape m s
  | c :: s => some (.char c, s)

/-- Whether a character may belong to a class. -/
def mayBelong (m : Mode) (c : Char) : Bool :=
  m.unicode || c.toNat < 0x80

/-- Whether a part of a pattern may stand in a class by itself. -/
def Atom.isMember (m : Mode) : Atom → Bool
  | .char c => mayBelong m c
  | .charClass => true
  | _ => false

/-- The character that decides what a hyphen before it means. -/
def ahead? (m : Mode) (s : List Char) : Option Char :=
  if m.spaced then
    let rest := s.dropWhile isSpace
    let rest := if rest.head? == some '#' then (rest.drop 1).dropWhile isSpace else rest
    rest.head?.or s.head?
  else s.head?

/-- Whether a text goes on with the hyphen of a range. -/
def goesOn (m : Mode) : List Char → Bool
  | '-' :: s => ahead? m s != some ']' && ahead? m s != some '-'
  | _ => false

/-- Reads a range, or a part of a pattern that may stand in a class. -/
def range (m : Mode) (s : List Char) : Option (List Char) := do
  let (first, s) ← member m s
  let s := m.skip s
  if goesOn m s then
    let (last, s) ← member m (m.skip (s.drop 1))
    match first, last with
    | .char a, .char b => if mayBelong m a && mayBelong m b && a ≤ b then some s else none
    | _, _ => none
  else if first.isMember m then some s
  else none

/-- Reads a class up to its closing bracket.  Right after the opening, which `isStart` tells,
hyphens stand for themselves, and so does a closing bracket that comes first of all.  The function
`joined` makes the whole class of the union that is being read.  Every step takes at least one
character, so `fuel` of the length of the text never runs out. -/
def charSetFrom (m : Mode) (nested : List Char → Option (CharSet × List Char)) :
    (fuel : Nat) → (isStart : Bool) → (joined : CharSet → CharSet) → Items → List Char →
    Option (CharSet × List Char)
  | 0, _, _, _, _ => none
  | fuel + 1, isStart, joined, items, s =>
    match m.skip s with
    | [] => none
    | c :: s =>
      if isStart && c == '-' then charSetFrom m nested fuel true joined items.addOne s
      else if c == ']' && !(isStart && items.count == 0) then some (joined items.toCharSet, s)
      else if c == ']' then charSetFrom m nested fuel false joined items.addOne s
      else if c == '[' then
        match (namedClass? s).or (nested s) with
        | some (set, s) => charSetFrom m nested fuel false joined (items.add set) s
        | none => none
      else
        match s.head?.bind (CharSet.operation? c) with
        | some op =>
          charSetFrom m nested fuel false (.join op (joined items.toCharSet)) .empty (s.drop 1)
        | none =>
          match range m (c :: s) with
          | some s => charSetFrom m nested fuel false joined items.addOne s
          | none => none

/-- Reads a class after its opening bracket, with brackets nested at most `depth` deep. -/
def bracketUpTo (m : Mode) : (depth : Nat) → List Char → Option (CharSet × List Char)
  | 0, _ => none
  | depth + 1, s =>
    let s := m.skip s
    let isComplement := s.head? == some '^'
    let s := if isComplement then s.drop 1 else s
    match charSetFrom m (bracketUpTo m depth) s.length true id .empty s with
    | some (set, rest) => (set.enclose m isComplement).map (·, rest)
    | none => none

/-- How high a pattern may be. -/
def maxHeight : Nat := 250

/-- Reads a class after its opening bracket.  Deeper nesting makes a pattern too high anyway. -/
def bracket (m : Mode) (s : List Char) : Option (CharSet × List Char) :=
  bracketUpTo m maxHeight s

end DocCoverage.Pattern
