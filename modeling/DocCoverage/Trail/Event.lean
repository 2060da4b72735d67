import DocCoverage.Coverage
import DocCoverage.Text.Quoted

/-!
# The trail of a run

A run leaves a trail of events: which settings hold, which sources were read and how many symbols
each gave, and how far the comparison came.  `Trail.ofReadings` lists the events of a check in the
order in which they happen; what of them is shown is decided elsewhere.
-/

namespace DocCoverage

/-- How grave an event is, from the gravest to the least. -/
inductive Severity where
  | error
  | warn
  | info
  | debug
  | trace
  deriving DecidableEq, Repr

/-- One step of a run. -/
inductive Event where
  | loaded (config : Path)
  | builtIn
  | scanned (location : String) (count : Nat) (role : Role)
  | skipped (cause : SourceError) (role : Role)
  | declared (count : Nat)
  | documented (count : Nat)
  | undeclared (count : Nat)
  | aborted (cause : String)
  deriving DecidableEq, Repr

def Role.label : Role → String
  | .header => "Header"
  | .documentation => "Documentation"

def Severity.label : Severity → String
  | .error => "ERROR"
  | .warn => "WARN"
  | .info => "INFO"
  | .debug => "DEBUG"
  | .trace => "TRACE"

namespace Event

def severity : Event → Severity
  | .aborted _ => .error
  | _ => .debug

def message : Event → String
  | .loaded _ => "loaded config"
  | .builtIn => "using built-in source layout"
  | .scanned _ _ _ => "scanned source"
  | .skipped _ _ => "skipping source"
  | .declared _ => "declared helpers"
  | .documented _ => "documented helpers"
  | .undeclared _ => "documented helpers without a declaration"
  | .aborted _ => "check aborted"

/-- The part of the program that an event comes from. -/
def origin : Event → String
  | .loaded _ => "check_helper_docs::cmd::check"
  | .builtIn => "check_helper_docs::cmd::check"
  | .scanned _ _ _ => "helper_docs_core::aggregate"
  | .skipped _ _ => "helper_docs_core::aggregate"
  | .declared _ => "helper_docs_core::checker"
  | .documented _ => "helper_docs_core::checker"
  | .undeclared _ => "helper_docs_core::checker"
  | .aborted _ => "check_helper_docs::logging"

/-- What an event tells besides its message: names and shown values. -/
def fields : Event → List (String × String)
  | .loaded config => [("config", config.text)]
  | .builtIn => []
  | .scanned location count role =>
    [("location", Text.quote location), ("count", toString count), ("role", role.label)]
  | .skipped cause role =>
    [("location", cause.location), ("error", cause.message), ("role", role.label)]
  | .declared count => [("count", toString count)]
  | .documented count => [("count", toString count)]
  | .undeclared count => [("count", toString count)]
  | .aborted cause => [("error", cause)]

def line (e : Event) : String :=
  String.intercalate " "
    (e.severity.label :: e.message :: e.fields.map fun f => f.1 ++ "=" ++ f.2)

def ofReading (m : Matcher) (role : Role) (r : Reading) : Event :=
  match r.content with
  | .ok text => .scanned r.location (m.extract role.recognition text).size role
  | .error cause => .skipped cause role

def ofConfig : Option Path → Event
  | some config => .loaded config
  | none => .builtIn

end Event

namespace Trail

def ofComparison (headers docs : Harvest) : List Event :=
  if docs.readable = 0 then []
  else
    .documented docs.symbols.size ::
      match Coverage.ofHarvests headers docs with
      | .ok c => if c.undeclared.isEmpty then [] else [.undeclared c.undeclared.length]
      | .error _ => []

/-- The events of a check whose sources were read: the documents are looked at only when the headers
declare something. -/
def ofReadings (m : Matcher) (headers docs : List Reading) : List Event :=
  headers.map (Event.ofReading m .header) ++
    if (Harvest.ofReadings m .header headers).symbols.isEmpty then []
    else
      .declared (Harvest.ofReadings m .header headers).symbols.size ::
        docs.map (Event.ofReading m .documentation) ++
          ofComparison (.ofReadings m .header headers) (.ofReadings m .documentation docs)

end Trail

end DocCoverage
