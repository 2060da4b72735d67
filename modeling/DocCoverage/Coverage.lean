import DocCoverage.Harvest

/-!
# Is every declared symbol documented?

The headers declare symbols and the documents mention some.  The check passes when nothing that is
declared goes unmentioned; it fails when no header declares anything, when no document can be read,
or when some declared symbol is not mentioned, and the first of these causes counts.
-/

namespace DocCoverage

/-- The declared symbols that no document mentions, in ascending order. -/
def undocumented (declared documented : SymbolSet) : List String :=
  (declared \ documented).toList

/-- The mentioned symbols that no header declares, in ascending order. -/
def undeclared (declared documented : SymbolSet) : List String :=
  (documented \ declared).toList

inductive Shortfall where
  | noSymbols
  | noDocumentation
  | undocumented (missing : List String)
  deriving DecidableEq, Repr

def Shortfall.message : Shortfall → String
  | .noSymbols => "no helper symbols found in headers"
  | .noDocumentation => "documentation files missing"
  | .undocumented missing =>
    "documentation is missing " ++ toString missing.length ++ " helper symbol(s)"

/-- What a check that passes has found. -/
structure Coverage where
  declared : SymbolSet
  documented : SymbolSet
  undeclared : List String
  deriving DecidableEq, Repr

/-- Compares what the headers declare with what the documents mention. -/
def Coverage.ofHarvests (headers docs : Harvest) : Except Shortfall Coverage :=
  if headers.symbols.isEmpty then .error .noSymbols
  else if docs.readable = 0 then .error .noDocumentation
  else if (undocumented headers.symbols docs.symbols).isEmpty then
    .ok ⟨headers.symbols, docs.symbols, DocCoverage.undeclared headers.symbols docs.symbols⟩
  else .error (.undocumented (undocumented headers.symbols docs.symbols))

/-- The end of a check: its result, the headers that were skipped, and the location of every
document, readable or not. -/
structure Outcome where
  result : Except Shortfall Coverage
  warnings : List SourceError
  documentation : List String

namespace Outcome

def ofReadings (m : Matcher) (headers docs : List Reading) : Outcome where
  result := Coverage.ofHarvests (.ofReadings m .header headers) (.ofReadings m .documentation docs)
  warnings := (Harvest.ofReadings m .header headers).skipped
  documentation := docs.map Reading.location

def isSuccess (o : Outcome) : Bool :=
  match o.result with
  | .ok _ => true
  | .error _ => false

def exitCode (o : Outcome) : UInt8 :=
  if o.isSuccess then 0 else 1

end Outcome

/-- A matcher and the sources it is used on.  They are read anew on each run. -/
structure Checker where
  matcher : Matcher
  headers : List Source
  docs : List Source

namespace Checker

def ofPrefix (stem : String) (headers docs : List Source) : Except Matcher.Refusal Checker := do
  return ⟨← Matcher.ofPrefix stem, headers, docs⟩

def run (c : Checker) (t : FileTree) : Outcome :=
  .ofReadings c.matcher (c.headers.map (·.read t)) (c.docs.map (·.read t))

end Checker

end DocCoverage
