import DocCoverage.Path

/-!
# Settings

The settings of a check: the namespace prefix, the headers and the documents, and where its trail
goes.  Without a config file the built-in layout holds, with its paths under the root.
-/

namespace DocCoverage

/-- Which part of the trail of a run is shown, and where. -/
structure TrailSettings where
  level : String
  fileLevel : Option String
  file : Option Path
  deriving DecidableEq, Repr

structure Settings where
  root : Path
  /-- The config file that was read, if one was. -/
  source : Option Path
  stem : String
  headers : List Path
  docs : List Path
  trail : TrailSettings
  deriving DecidableEq, Repr

namespace Settings

def defaultStem : String := "__ternary_"

def defaultHeaders : List String := ["include/ternary_runtime.h", "include/ternary_helpers.h"]

def defaultDocs : List String := ["SPECIFICATION.md", "README.md"]

def defaultLevel : String := "info"

/-- The config file that is looked for under the root. -/
def fileName : String := "helper-docs.toml"

/-- Paths under the root, as they stand. -/
def under (root : Path) (entries : List String) : List Path :=
  entries.map fun e => root.join ⟨e⟩

def builtIn (root : Path) : Settings where
  root := root
  source := none
  stem := defaultStem
  headers := under root defaultHeaders
  docs := under root defaultDocs
  trail := ⟨defaultLevel, none, none⟩

end Settings

end DocCoverage
