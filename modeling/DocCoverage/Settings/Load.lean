import DocCoverage.Coverage
import DocCoverage.Settings.File
import DocCoverage.Settings.Template

/-!
# Loading settings

An explicit config file has to exist.  Without one, the file under the root is read if it exists,
and otherwise the built-in layout holds.  The faults of a file are looked for in a fixed order and
the first one counts: reading, grammar, version, prefix, headers, documents, trail file.
-/

namespace DocCoverage

inductive LoadError where
  | missing (file : Path)
  | unreadable (file : Path) (fault : Fault)
  | malformed (file : Path)
  | unsupportedVersion (version : UInt32)
  | emptyPrefix
  | unsetVariable (name entry : String)
  deriving DecidableEq, Repr

/-- The wording of a load error; `said` is what the parser says about a malformed file. -/
def LoadError.message (said : Path → String) : LoadError → String
  | .missing file => "config file not found at " ++ file.text
  | .unreadable file fault =>
    "failed to read config file " ++ file.text ++ ": " ++ fault.message
  | .malformed file => "failed to parse TOML in " ++ file.text ++ ": " ++ said file
  | .unsupportedVersion version =>
    "version " ++ toString version.toNat ++ " is unsupported (expected 1)"
  | .emptyPrefix => "namespace_prefix must not be empty"
  | .unsetVariable name entry =>
    "environment variable '" ++ name ++ "' in '" ++ entry ++ "' is not set"

namespace Settings

def resolveEntry (env : Environment) (root : Path) (entry : String) : Except LoadError Path :=
  match Template.resolve env root entry with
  | .ok p => .ok p
  | .error name => .error (.unsetVariable name entry)

/-- The paths of a configured list, or the built-in ones. -/
def resolveList (env : Environment) (root : Path) (entries : Option (List String))
    (builtIn : List String) : Except LoadError (List Path) :=
  match entries with
  | some entries => entries.mapM (resolveEntry env root)
  | none => .ok (under root builtIn)

def resolveOption (env : Environment) (root : Path) :
    Option String → Except LoadError (Option Path)
  | none => .ok none
  | some entry => (resolveEntry env root entry).map some

/-- The settings that the contents of a config file give. -/
def resolve (env : Environment) (root source : Path) (f : SettingsFile) :
    Except LoadError Settings := do
  if f.version ≠ 1 then .error (.unsupportedVersion f.version)
  else if f.stem = some "" then .error .emptyPrefix
  else
    let headers ← resolveList env root f.headers defaultHeaders
    let docs ← resolveList env root f.docs defaultDocs
    let file ← resolveOption env root f.trail.file
    return {
      root, headers, docs
      source := some source
      stem := f.stem.getD defaultStem
      trail := ⟨f.trail.level, f.trail.fileLevel, file⟩ }

/-- Reads a config file and resolves what it says. -/
def readFile (t : FileTree) (env : Environment) (root file : Path) : Except LoadError Settings :=
  match t.read file with
  | .error fault => .error (.unreadable file fault)
  | .ok text =>
    match SettingsFile.read text with
    | none => .error (.malformed file)
    | some contents => resolve env root file contents

def load (t : FileTree) (env : Environment) (config : Option Path) (root : Path) :
    Except LoadError Settings :=
  match config with
  | some file => if t.has file then readFile t env root file else .error (.missing file)
  | none =>
    let file := root.join ⟨fileName⟩
    if t.has file then readFile t env root file else .ok (builtIn root)

def checker (s : Settings) : Except Matcher.Refusal Checker :=
  Checker.ofPrefix s.stem (s.headers.map .file) (s.docs.map .file)

end Settings

end DocCoverage
