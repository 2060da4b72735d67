import DocCoverage.Coverage

/-!
# The report of an outcome

An outcome is reported in lines, each for one of two streams: first a warning for every skipped
header, then the result.  Lines are written in order, and the first stream that refuses one ends the
writing.
-/

namespace DocCoverage

/-- Where a line of the report goes. -/
inductive Stream where
  | out
  | err
  deriving DecidableEq, Repr

namespace Report

def warning : SourceError → String
  | .missing location => "warning: skipping missing header " ++ location
  | .unreadable location reason =>
    "warning: skipping unreadable header " ++ location ++ ": " ++ reason

/-- How the hint calls a document: by its file name, if its location has one. -/
def shortName (location : String) : String :=
  (Path.mk location).fileName?.getD location

def targets (documentation : List String) : String :=
  if documentation.isEmpty then "the documentation"
  else String.intercalate "/" (documentation.map shortName)

def bullet (name : String) : String :=
  "  - " ++ name

def hint (documentation : List String) : String :=
  "Update " ++ targets documentation ++
    " (and any linked documentation) so the helper list references these symbols."

def verdict (documentation : List String) : Except Shortfall Coverage → List (Stream × String)
  | .ok _ => [(.out, "helper documentation matches headers")]
  | .error (.undocumented missing) =>
    (["documentation is missing the following helper symbols:"] ++ missing.map bullet ++
      ["", hint documentation]).map fun line => (.err, line)
  | .error shortfall => [(.err, "error: " ++ shortfall.message)]

def lines (o : Outcome) : List (Stream × String) :=
  o.warnings.map (fun e => (.err, warning e)) ++ verdict o.documentation o.result

/-- The full text that a report gives to one stream. -/
def text (s : Stream) (ls : List (Stream × String)) : String :=
  String.join (ls.flatMap fun l => if l.1 = s then [l.2, "\n"] else [])

/-- What the streams hold after writing, and the stream that refused a line, if one did. -/
structure Delivery where
  out : String
  err : String
  refused : Option Stream
  deriving DecidableEq, Repr

/-- Writes lines in order until a stream refuses one. -/
def deliver (refuses : Stream → Bool) (ls : List (Stream × String)) : Delivery where
  out := text .out (ls.takeWhile fun l => !refuses l.1)
  err := text .err (ls.takeWhile fun l => !refuses l.1)
  refused := (ls.find? fun l => refuses l.1).map Prod.fst

/-- Streams that take everything get their full texts. -/
theorem deliver_open (ls : List (Stream × String)) :
    deliver (fun _ => false) ls = ⟨text .out ls, text .err ls, none⟩ := by
  have h : (ls.takeWhile fun _ => true) = ls := by
    induction ls with
    | nil => rfl
    | cons l ls ih => simp [ih]
  simp [deliver, h]

end Report

end DocCoverage
