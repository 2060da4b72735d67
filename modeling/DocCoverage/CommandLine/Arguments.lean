import DocCoverage.Path

/-!
# Command line arguments

Arguments are read from left to right, and the first that decides what to do ends the reading: a
request for help or for the version, or an argument that cannot be used.  An option takes its value
from the next argument or after an equals sign; the next argument must not look like an option.
-/

namespace DocCoverage

inductive Request where
  | help
  | version
  | check (root : Path) (config : Option Path)
  deriving DecidableEq, Repr

inductive UsageError where
  | unexpected (arg : String)
  | missingValue (option : String)
  | repeated (option : String)
  deriving DecidableEq, Repr

def UsageError.message : UsageError → String
  | .unexpected arg => "unexpected argument '" ++ arg ++ "' found"
  | .missingValue option => "a value is required for '" ++ option ++ "' but none was supplied"
  | .repeated option => "the argument '" ++ option ++ "' cannot be used multiple times"

namespace Arguments

/-- The values of the options so far. -/
structure Values where
  root : Option Path
  config : Option Path
  deriving DecidableEq, Repr

/-- An option that takes a value. -/
inductive Setting where
  | root
  | config
  deriving DecidableEq, Repr

def Setting.name : Setting → String
  | .root => "--root"
  | .config => "--config"

/-- What one argument is, judged by itself. -/
inductive Kind where
  | terminator
  | help
  | version
  /-- An option whose value is the next argument. -/
  | setting (s : Setting)
  /-- An option with its value. -/
  | assignment (s : Setting) (value : String)
  | unknown
  deriving DecidableEq, Repr

/-- The value in an argument that starts with a name and an equals sign. -/
def valueAfter? (name arg : String) : Option String :=
  let start := name.toList ++ ['=']
  if start.isPrefixOf arg.toList then some (String.ofList (arg.toList.drop start.length)) else none

/-- Tells what an argument is.  Of short options written in one word the first decides. -/
def kind (arg : String) : Kind :=
  if arg = "--" then .terminator
  else if arg = "--help" then .help
  else if arg = "--version" then .version
  else if arg = "--root" then .setting .root
  else if arg = "--config" then .setting .config
  else
    match valueAfter? "--root" arg, valueAfter? "--config" arg with
    | some value, _ => .assignment .root value
    | none, some value => .assignment .config value
    | none, none =>
      match arg.toList with
      | '-' :: 'h' :: _ => .help
      | '-' :: 'V' :: _ => .version
      | _ => .unknown

/-- Whether an argument looks like an option, so that it cannot be the value of one. -/
def looksLikeOption (arg : String) : Bool :=
  arg.toList.head? == some '-' && arg != "-"

/-- Gives an option its value, which must be the first and not empty. -/
def Values.set (v : Values) (s : Setting) (value : String) : Except UsageError Values :=
  if value = "" then .error (.missingValue s.name)
  else
    match s with
    | .root =>
      if v.root.isSome then .error (.repeated s.name) else .ok { v with root := some ⟨value⟩ }
    | .config =>
      if v.config.isSome then .error (.repeated s.name) else .ok { v with config := some ⟨value⟩ }

def Values.request (v : Values) : Request :=
  .check (v.root.getD ⟨"."⟩) v.config

/-- Reads the arguments after those that gave the options their values so far. -/
def readFrom (v : Values) : List String → Except UsageError Request
  | [] => .ok v.request
  | arg :: rest =>
    match kind arg with
    | .help => .ok .help
    | .version => .ok .version
    | .unknown => .error (.unexpected arg)
    | .terminator =>
      match rest with
      | [] => .ok v.request
      | extra :: _ => .error (.unexpected extra)
    | .assignment s value =>
      match v.set s value with
      | .error e => .error e
      | .ok v => readFrom v rest
    | .setting s =>
      match rest with
      | [] => .error (.missingValue s.name)
      | value :: rest =>
        if looksLikeOption value then .error (.missingValue s.name)
        else
          match v.set s value with
          | .error e => .error e
          | .ok v => readFrom v rest

def read (args : List String) : Except UsageError Request :=
  readFrom ⟨none, none⟩ args

end Arguments

end DocCoverage
