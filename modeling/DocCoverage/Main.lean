import DocCoverage.CommandLine.Run

/-!
# The program

The program looks at the part of the file system that its arguments and its settings name, runs on
what it saw, shows the output, and makes the changes that the run made to the tree.  Everything is
decided in `run`; here are only the reading and the writing.
-/

namespace DocCoverage.Program

/-- All places that are passed on the way to a path, with the places above them. -/
def stops (t : FileTree) (p : Path) : List Place :=
  (List.range (p.pieces.length + 1)).flatMap fun n =>
    let place := (p.pieces.take n).foldl FileTree.next (t.origin p)
    (List.range (place.length + 1)).map fun k => place.take k

def fullName (place : Place) : String :=
  "/" ++ String.intercalate "/" place

def leads (name : String) : IO Bool := do
  try
    let _ ← IO.FS.realPath name
    return true
  catch _ => return false

/-- What really stands at a place.  A directory need not be readable to be entered, and a file is there
even if it cannot be read. -/
def survey (place : Place) : IO (Option Node) := do
  let name := fullName place
  try
    return some (.file (← IO.FS.readBinFile name))
  catch e =>
    if ← leads (name ++ "/.") then return some .directory
    else if ← leads name then
      match e with
      | .permissionDenied .. => return some (.locked .permission)
      | _ => return some (.locked .device)
    else return none

/-- Adds what really stands on the way to a path. -/
def look (t : FileTree) (p : Path) : IO FileTree :=
  (stops t p).foldlM
    (fun t place => do
      if (t.node place).isSome then return t
      match ← survey place with
      | some node => return t.put place node
      | none => return t)
    t

/-- The environment.  Variables whose name or value is no text are left out. -/
def environment : IO Environment := do
  let bytes ← IO.FS.readBinFile "/proc/self/environ"
  let entries := (bytes.toList.splitOn 0).filterMap fun entry => String.fromUTF8? ⟨entry.toArray⟩
  return entries.filterMap fun entry =>
    match entry.splitOn "=" with
    | name :: value :: rest => some (name, String.intercalate "=" (value :: rest))
    | _ => none

/-- The paths that a run may use besides its config file. -/
def usedPaths (s : Settings) : List Path :=
  s.headers ++ s.docs ++
    match s.trail.file with
    | none => []
    | some file => file :: file.parents

/-- Makes the change of one place. -/
def apply (before after : FileTree) (place : Place) : IO Unit := do
  if after.node place ≠ before.node place then
    match after.node place with
    | some .directory => IO.FS.createDir (fullName place)
    | some (.file content) => IO.FS.writeBinFile (fullName place) content
    | some (.locked _) | none => pure ()

/-- Writes a text to a stream; returns whether the stream took it. -/
def offer (stream : IO.FS.Stream) (text : String) : IO Bool := do
  try
    unless text.isEmpty do
      stream.putStr text
      stream.flush
    return true
  catch _ => return false

/-- Shows how a run ended, and makes its changes at some places. -/
def finish (before : FileTree) (places : List Place) (e : Ending) : IO UInt32 := do
  let _ ← offer (← IO.getStderr) (e.stderr ++ Run.causesText e.causes)
  places.forM (apply before e.tree)
  return e.exitCode.toUInt32

/-- The program has no parsers besides its own, and these give no reasons. -/
def wording : Wording :=
  ⟨fun _ => "not a config file", fun _ => "too long"⟩

/-- Both streams take what is written, or standard output has a fault. -/
def refusing (fault? : Option Fault) : Stream → Option Fault
  | .out => fault?
  | .err => none

end DocCoverage.Program

open DocCoverage in
def main (args : List String) : IO UInt32 := do
  let env ← Program.environment
  let cwd := ((toString (← IO.currentDir)).splitOn "/").filter (· ≠ "")
  let mut tree := FileTree.bare cwd
  let mut used : List Path := []
  if let .ok (.check root config) := Arguments.read args then
    tree ← Program.look tree (config.getD (root.join ⟨Settings.fileName⟩))
    if let .ok s := Settings.load tree env config root then
      used := Program.usedPaths s
      tree ← used.foldlM Program.look tree
  let e := run Program.wording tree env args (Program.refusing none)
  let places := (used.flatMap (Program.stops tree)).eraseDups
  if ← Program.offer (← IO.getStdout) e.stdout then Program.finish tree places e
  else
    Program.finish tree places (run Program.wording tree env args (Program.refusing (some .noSpace)))
