import DocCoverage.Pattern.Bracket
import DocCoverage.Text.Alphanumeric

/-!
# Groups in patterns

A group holds branches, and a branch holds items in a row.  Of an item that is done only its height
is kept: no height for what has no parts, one more for a repetition than for what is repeated, for
a group than for what is in it, and for several branches or items than for the highest of them.

A group opens with its parenthesis alone, with a name, or with letters that set modes in it.
Letters that a closing parenthesis follows are no group, but set the modes for the rest of the group
that they stand in.
-/

namespace DocCoverage.Pattern

structure Branch where
  count : Nat
  /-- The height of the highest item. -/
  height : Nat
  /-- The height of the last item, if it may be repeated. -/
  last : Option Nat
  deriving DecidableEq, Repr

namespace Branch

def empty : Branch :=
  ⟨0, 0, none⟩

def add (b : Branch) (height : Nat) : Branch :=
  ⟨b.count + 1, max b.height height, some height⟩

/-- Adds letters that set modes. -/
def addModes (b : Branch) : Branch :=
  ⟨b.count + 1, b.height, none⟩

/-- Lets the last item be repeated. -/
def repeatLast? (b : Branch) : Option Branch :=
  b.last.map fun h => ⟨b.count, max b.height (h + 1), some (h + 1)⟩

def total (b : Branch) : Nat :=
  if b.count ≤ 1 then b.height else b.height + 1

end Branch

structure Group where
  /-- The mode outside. -/
  outside : Mode
  /-- The height of the highest branch that is done, if there is one. -/
  done : Option Nat
  branch : Branch
  deriving DecidableEq, Repr

namespace Group

def empty (outside : Mode) : Group :=
  ⟨outside, none, .empty⟩

def nextBranch (g : Group) : Group :=
  ⟨g.outside, some (max (g.done.getD 0) g.branch.total), .empty⟩

/-- The height of all branches together. -/
def total (g : Group) : Nat :=
  match g.done with
  | none => g.branch.total
  | some h => max h g.branch.total + 1

end Group

/-- What an opening parenthesis means. -/
inductive Opening where
  /-- A group in a mode. -/
  | group (m : Mode)
  | named (name : List Char)
  /-- A mode for the rest of the group. -/
  | modes (m : Mode)
  deriving DecidableEq, Repr

/-- The letters that set modes, of which only two matter here. -/
def modeLetters : List Char :=
  ['i', 'm', 's', 'U', 'u', 'R', 'x']

def Mode.set (m : Mode) (letter : Char) (value : Bool) : Mode :=
  if letter == 'u' then { m with unicode := value }
  else if letter == 'x' then { m with spaced := value }
  else m

/-- Reads letters that set modes; those after a hyphen unset them.  `seen` holds what was read, the
last character first. -/
def modesFrom (m : Mode) (seen : List Char) : List Char → Option (Opening × List Char)
  | [] => none
  | c :: s =>
    if c == ':' then if seen.head? == some '-' then none else some (.group m, s)
    else if c == ')' then
      if seen.isEmpty || seen.head? == some '-' then none else some (.modes m, s)
    else if seen.contains c then none
    else if c == '-' then modesFrom m (c :: seen) s
    else if modeLetters.contains c then
      modesFrom (m.set c (!seen.contains '-')) (c :: seen) s
    else none

/-- Whether a text may be the name of a group. -/
def isName : List Char → Bool
  | [] => false
  | c :: s =>
    (c == '_' || isLetter c) &&
      s.all fun c => c == '_' || c == '.' || c == '[' || c == ']' || isAlphanumeric c

/-- Reads the name of a group and the bracket after it. -/
def groupName (s : List Char) : Option (Opening × List Char) :=
  let name := s.takeWhile (· != '>')
  match s.drop name.length with
  | _ :: rest => if isName name then some (.named name, rest) else none
  | [] => none

/-- Reads the opening of a group after the parenthesis.  Conditions on what stands around a place
are refused. -/
def opening (m : Mode) (s : List Char) : Option (Opening × List Char) :=
  match s with
  | '?' :: 'P' :: '<' :: s => groupName s
  | '?' :: '<' :: s => groupName s
  | '?' :: s => modesFrom m [] s
  | s => some (.group m, s)

end DocCoverage.Pattern
