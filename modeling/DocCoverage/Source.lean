import DocCoverage.FileTree

/-!
# Sources

A source has a location, which is shown to people, and a text, which may be out of reach.  Reading a
source always gives a `Reading`, which pairs the location with the text or with the cause why there
is none.
-/

namespace DocCoverage

/-- Where a text comes from. -/
inductive Source where
  /-- A text at hand; `none` stands for a text that does not exist. -/
  | memory (location : String) (text : Option String)
  | file (path : Path)
  deriving DecidableEq, Repr

inductive SourceError where
  | missing (location : String)
  | unreadable (location reason : String)
  deriving DecidableEq, Repr

namespace SourceError

def location : SourceError → String
  | .missing location => location
  | .unreadable location _ => location

def isMissing : SourceError → Bool
  | .missing _ => true
  | .unreadable _ _ => false

def message : SourceError → String
  | .missing location => location ++ " does not exist"
  | .unreadable location reason => "failed to read " ++ location ++ ": " ++ reason

/-- The cause behind a fault of the file tree. -/
def ofFault (location : String) (fault : Fault) : SourceError :=
  if fault = .notFound then .missing location else .unreadable location fault.message

end SourceError

structure Reading where
  location : String
  content : Except SourceError String

namespace Source

def location : Source → String
  | .memory location _ => location
  | .file path => path.text

def content (t : FileTree) : Source → Except SourceError String
  | .memory _ (some text) => .ok text
  | .memory location none => .error (.missing location)
  | .file path =>
    match t.read path with
    | .ok text => .ok text
    | .error fault => .error (.ofFault path.text fault)

def read (t : FileTree) (s : Source) : Reading :=
  ⟨s.location, s.content t⟩

end Source

namespace Reading

def text? (r : Reading) : Option String :=
  match r.content with
  | .ok text => some text
  | .error _ => none

def error? (r : Reading) : Option SourceError :=
  match r.content with
  | .ok _ => none
  | .error e => some e

end Reading

end DocCoverage
