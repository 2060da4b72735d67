import DocCoverage.CommandLine.Arguments
import DocCoverage.Report
import DocCoverage.Settings.Load
import DocCoverage.Trail.Filter

/-!
# A run of the program

A run loads the settings, opens the trail file if there is one, reads all sources from the tree as
it is then, and writes the report.  Loading, opening, building the matcher and writing may fail;
then the run ends with exit code 1 and a chain of causes, the outermost first.  The trail goes to
the error stream and to the trail file, each through a filter of its own, and takes no part in the
result.

Either stream may refuse all that is written to it.  A line of the trail that the error stream refuses
is lost here and nothing else happens; whether a program could go on then is not described.
-/

namespace DocCoverage

structure Ending where
  exitCode : UInt8
  stdout : String
  /-- Everything on the error stream but the chain of causes. -/
  stderr : String
  /-- The chain of causes; empty if nothing failed. -/
  causes : List String
  tree : FileTree

/-- What parsers say about what they refuse.  It is shown among the causes and decides nothing. -/
structure Wording where
  /-- About the text of a config file. -/
  config : String → String
  /-- About the pattern for a prefix. -/
  pattern : String → String

def Wording.ofFile (w : Wording) (t : FileTree) (file : Path) : String :=
  match t.read file with
  | .ok text => w.config text
  | .error _ => ""

namespace Run

def helpText : String :=
  "Fail when helper symbols declared in headers are missing from the documentation\n\n" ++
  "Usage: check-helper-docs [OPTIONS]\n\n" ++
  "Options:\n" ++
  "      --root <ROOT>      " ++
  "Project root that header and documentation paths are relative to [default: .]\n" ++
  "      --config <CONFIG>  " ++
  "Config file (defaults to <root>/helper-docs.toml when present)\n" ++
  "  -h, --help             Print help\n" ++
  "  -V, --version          Print version\n"

def versionText : String :=
  "check-helper-docs 0.1.0\n"

def usageText (e : UsageError) : String :=
  "error: " ++ e.message ++
    "\n\nUsage: check-helper-docs [OPTIONS]\n\nFor more information, try '--help'.\n"

/-- Lines of text, each with its line end. -/
def unlines (ls : List String) : String :=
  String.join (ls.map (· ++ "\n"))

/-- The chain of causes of a load error; `said` is what the parser says about a malformed file. -/
def loadCauses (said : Path → String) (e : LoadError) : List String :=
  "failed to load configuration" :: e.message said ::
    match e with
    | .unreadable _ fault => [fault.message]
    | .malformed file => [said file]
    | _ => []

def refusalCauses (w : Wording) (stem : String) (refusal : Matcher.Refusal) : List String :=
  "failed to build helper symbol matcher" ::
    match refusal with
    | .emptyPrefix => ["namespace prefix must not be empty"]
    | .oversized =>
      ["failed to compile pattern for prefix '" ++ stem ++ "': " ++ w.pattern stem, w.pattern stem]

/-- What a stream holds of a text, unless it has a fault. -/
def taken (fault? : Option Fault) (text : String) : String :=
  if fault?.isSome then "" else text

@[simp] theorem taken_none (text : String) : taken none text = text := rfl

@[simp] theorem taken_empty (fault? : Option Fault) : taken fault? "" = "" :=
  ite_self ""

/-- Creates the trail file, and the directories that lead to it.  Also returns the tree if that
fails, with the chain of causes. -/
def openTrail (t : FileTree) (file : Path) : FileTree × Except (List String) Unit :=
  match t.createDirs file.parents with
  | (t, some fault) =>
    let dir := (file.parents.head?.map Path.text).getD ""
    (t, .error ["failed to create log directory " ++ dir, fault.message])
  | (t, none) =>
    match t.createFile file with
    | .error fault => (t, .error ["failed to create log file " ++ file.text, fault.message])
    | .ok t => (t, .ok ())

/-- What the check of some settings comes to, apart from what is shown of its trail. -/
structure Check where
  /-- The events before the report. -/
  events : List Event
  report : Report.Delivery
  exitCode : UInt8
  causes : List String

/-- The event at the end of a check that fails. -/
def Check.lastEvents (c : Check) : List Event :=
  match c.causes with
  | [] => []
  | cause :: _ => [.aborted cause]

/-- Checks the sources of some settings.  `refuses` gives the fault of a stream that takes nothing. -/
def check (w : Wording) (t : FileTree) (s : Settings) (refuses : Stream → Option Fault) : Check :=
  match s.checker with
  | .error refusal =>
    { events := [.ofConfig s.source]
      report := ⟨"", "", none⟩
      exitCode := 1
      causes := refusalCauses w s.stem refusal }
  | .ok c =>
    let events := .ofConfig s.source ::
      Trail.ofReadings c.matcher (c.headers.map (·.read t)) (c.docs.map (·.read t))
    let outcome := c.run t
    let report := Report.deliver (fun st => (refuses st).isSome) (Report.lines outcome)
    match report.refused.bind refuses with
    | some fault =>
      { events, report, exitCode := 1, causes := ["failed to write report", fault.message] }
    | none => { events, report, exitCode := outcome.exitCode, causes := [] }

def filterVariable : String := "RUST_LOG"

/-- Runs a check with its trail.  The notices about the filter come once for each filter that is
built from it. -/
def withTrail (w : Wording) (t : FileTree) (env : Environment) (s : Settings)
    (refuses : Stream → Option Fault) : Ending :=
  let directives := (env.get? filterVariable).getD ""
  let notices := unlines (Filter.notices directives)
  let onScreen := Filter.ofText directives (Filter.levelOr s.trail.level (some .info))
  let shown (f : Filter) (es : List Event) : String := unlines ((es.filter f.shows).map Event.line)
  match s.trail.file with
  | none =>
    let c := check w t s refuses
    { exitCode := c.exitCode
      stdout := c.report.out
      stderr := taken (refuses .err)
        (notices ++ shown onScreen c.events ++ c.report.err ++ shown onScreen c.lastEvents)
      causes := c.causes
      tree := t }
  | some file =>
    match openTrail t file with
    | (t, .error causes) =>
      { exitCode := 1, stdout := "", stderr := taken (refuses .err) notices, causes, tree := t }
    | (t, .ok ()) =>
      let level := s.trail.fileLevel.getD s.trail.level
      let inFile := Filter.ofText directives (Filter.levelOr level (some .debug))
      let c := check w t s refuses
      { exitCode := c.exitCode
        stdout := c.report.out
        stderr := taken (refuses .err)
          (notices ++ notices ++ shown onScreen c.events ++ c.report.err ++
            shown onScreen c.lastEvents)
        causes := c.causes
        tree := t.write file (shown inFile (c.events ++ c.lastEvents)) }

def causesText (causes : List String) : String :=
  if causes.isEmpty then ""
  else "Error: \n" ++
    unlines (causes.zipIdx.map fun (cause, i) => "   " ++ toString i ++ ": " ++ cause)

end Run

/-- Runs the program on some arguments.  `refuses` gives the fault of a stream that takes nothing; it
does not count against a request for help or for the version, or against arguments that cannot be
used. -/
def run (w : Wording) (t : FileTree) (env : Environment) (args : List String)
    (refuses : Stream → Option Fault) : Ending :=
  match Arguments.read args with
  | .error e => ⟨2, "", Run.taken (refuses .err) (Run.usageText e), [], t⟩
  | .ok .help => ⟨0, Run.taken (refuses .out) Run.helpText, "", [], t⟩
  | .ok .version => ⟨0, Run.taken (refuses .out) Run.versionText, "", [], t⟩
  | .ok (.check root config) =>
    match Settings.load t env config root with
    | .error e => ⟨1, "", "", Run.loadCauses (w.ofFile t) e, t⟩
    | .ok s => Run.withTrail w t env s refuses

end DocCoverage
