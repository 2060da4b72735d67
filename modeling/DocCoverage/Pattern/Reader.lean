import DocCoverage.Pattern.Group

/-!
# Reading patterns

A pattern is read from left to right, with the groups that are open on a stack.  It is refused where
it breaks the rules, where it is too high, and where it asks for edges of words among characters
beyond ASCII, which the comparison cannot find.
-/

namespace DocCoverage.Pattern

/-- A pattern that is being read. -/
structure Progress where
  mode : Mode
  /-- The innermost group, which is the whole pattern where no other is open. -/
  inner : Group
  /-- The groups around it, from the inside out. -/
  outer : List Group
  /-- The names of groups so far. -/
  names : List (List Char)
  /-- Whether edges of words among all characters were asked for. -/
  usesWords : Bool
  deriving DecidableEq, Repr

namespace Progress

def start : Progress :=
  let mode : Mode := ⟨true, false⟩
  ⟨mode, .empty mode, [], [], false⟩

def add (p : Progress) (height : Nat) : Progress :=
  { p with inner := { p.inner with branch := p.inner.branch.add height } }

def openGroup (p : Progress) (m : Mode) : Progress :=
  { p with mode := m, inner := .empty p.mode, outer := p.inner :: p.outer }

/-- Takes in the opening of a group.  No two groups have one name. -/
def begin (p : Progress) : Opening → Option Progress
  | .group m => some (p.openGroup m)
  | .named name =>
    if p.names.contains name then none
    else some { p.openGroup p.mode with names := name :: p.names }
  | .modes m =>
    some { p with mode := m, inner := { p.inner with branch := p.inner.branch.addModes } }

def closeGroup? (p : Progress) : Option Progress :=
  match p.outer with
  | [] => none
  | g :: gs =>
    let p' := { p with mode := p.inner.outside, inner := g, outer := gs }
    some (p'.add (p.inner.total + 1))

/-- Lets the last item be repeated. -/
def repeatLast? (p : Progress) : Option Progress :=
  p.inner.branch.repeatLast?.map fun b => { p with inner := { p.inner with branch := b } }

def addAtom (p : Progress) (a : Atom) : Progress :=
  { p.add 0 with usesWords := p.usesWords || (a == .wordEdge && p.mode.unicode) }

/-- Drops the sign that lets a repetition end early. -/
def skipLazy : List Char → List Char
  | '?' :: s => s
  | s => s

/-- Takes in what a character starts, given the text after it. -/
def step (p : Progress) (c : Char) (s : List Char) : Option (Progress × List Char) :=
  if c == '(' then
    match opening p.mode (p.mode.skip s) with
    | some (o, s) => (p.begin o).map (·, s)
    | none => none
  else if c == ')' then p.closeGroup?.map (·, s)
  else if c == '|' then some ({ p with inner := p.inner.nextBranch }, s)
  else if c == '[' then (bracket p.mode s).map fun (set, s) => (p.add set.height, s)
  else if c == '?' || c == '*' || c == '+' then p.repeatLast?.map (·, skipLazy s)
  else if c == '{' then none
  else if c == '\\' then (escape p.mode s).map fun (a, s) => (p.addAtom a, s)
  else if c == '.' then if p.mode.unicode then some (p.add 0, s) else none
  else some (p.add 0, s)

/-- Reads the rest of a pattern.  Every step takes at least one character, so `fuel` beyond the
length of the text never runs out. -/
def run : (fuel : Nat) → Progress → List Char → Option Progress
  | 0, _, _ => none
  | fuel + 1, p, s =>
    match p.mode.skip s with
    | [] => if p.outer.isEmpty then some p else none
    | c :: s =>
      match p.step c s with
      | some (p, s) => p.run fuel s
      | none => none

end Progress

inductive Refusal where
  | malformed
  /-- Edges of words among all characters are asked for. -/
  | words
  deriving DecidableEq, Repr

def Refusal.message : Refusal → String
  | .malformed => "error building NFA"
  | .words =>
    "unsupported regex feature for DFAs: cannot build DFAs for regexes with Unicode word " ++
      "boundaries; switch to ASCII word boundaries, or heuristically enable Unicode word " ++
      "boundaries or use a different regex engine"

/-- Why a text is no pattern, if it is none. -/
def refusal? (s : List Char) : Option Refusal :=
  match Progress.start.run (s.length + 1) s with
  | none => some .malformed
  | some p =>
    if maxHeight < p.inner.total then some .malformed
    else if p.usesWords then some .words
    else none

end DocCoverage.Pattern
