/-!
# Paths as text

A path is kept exactly as it was written.  It is read as an anchor and the steps after it: the text
is cut at every `/`, an absolute path starts at the root, and a leading `.` is kept as such.  A step
that is empty or `.` leads nowhere.  Nothing is normalised when paths are joined or cut.
-/

namespace DocCoverage

/-- A path, as written. -/
structure Path where
  text : String
  deriving DecidableEq, Repr

/-- One part of a path that means something. -/
inductive Component where
  | root
  | here
  | up
  | name (text : String)
  deriving DecidableEq, Repr

namespace Path

/-- Where the steps of a path start. -/
inductive Anchor where
  | root
  | here
  | none
  deriving DecidableEq, Repr

/-- The texts between the slashes. -/
def pieces (p : Path) : List String :=
  (p.text.toList.splitOn '/').map String.ofList

/-- The anchor of a path and the steps after it. -/
def split (p : Path) : Anchor × List String :=
  match p.pieces with
  | [] => (.none, [])
  | first :: rest =>
    if first = "" ∧ rest ≠ [] then (.root, rest)
    else if first = "." then (.here, rest)
    else (.none, first :: rest)

/-- Whether a step leads nowhere. -/
def isIdle (step : String) : Bool :=
  step == "" || step == "."

def component? (step : String) : Option Component :=
  if isIdle step then none else if step = ".." then some .up else some (.name step)

def Anchor.components : Anchor → List Component
  | .root => [.root]
  | .here => [.here]
  | .none => []

def components (p : Path) : List Component :=
  p.split.1.components ++ p.split.2.filterMap component?

def isAbsolute (p : Path) : Bool :=
  p.split.1 == .root

/-- The path `rest` as seen from `base`: an absolute path stands for itself, any other is written
after `base`, with a slash between them unless `base` is empty or ends in one. -/
def join (base rest : Path) : Path :=
  if rest.isAbsolute then rest
  else if base.text.toList.getLast?.all (· == '/') then ⟨base.text ++ rest.text⟩
  else ⟨base.text ++ "/" ++ rest.text⟩

/-- The name of what a path leads to, unless the path ends in its anchor or in `..`. -/
def fileName? (p : Path) : Option String :=
  match p.components.getLast? with
  | some (.name text) => some text
  | _ => none

/-- The path with the given anchor and steps. -/
def render : Anchor → List String → Path
  | .root, steps => ⟨"/" ++ String.intercalate "/" steps⟩
  | .here, [] => ⟨"."⟩
  | .here, steps => ⟨"./" ++ String.intercalate "/" steps⟩
  | .none, steps => ⟨String.intercalate "/" steps⟩

/-- All that remains when the steps, given from the last to the first, are taken back one by one;
idle steps go with the step before which they stand. -/
def retreats : List String → List (List String)
  | [] => []
  | step :: before =>
    if isIdle step then retreats before
    else before.dropWhile isIdle :: retreats before

/-- The directories around a path, from the nearest outward.  The last one is the root, or the empty
path for a relative path; the root and the empty path have none. -/
def parents (p : Path) : List Path :=
  (retreats p.split.2.reverse).map (fun steps => render p.split.1 steps.reverse)
    ++ (if p.split.1 = .here then [⟨""⟩] else [])

/-! ## Lemmas -/

/-- An absolute path stands for itself. -/
theorem join_of_isAbsolute (base : Path) {rest : Path} (h : rest.isAbsolute = true) :
    base.join rest = rest := by
  simp [join, h]

theorem join_empty_base {rest : Path} : (Path.mk "").join rest = rest := by
  cases rest
  simp [join]

end Path

end DocCoverage
