import DocCoverage.Path

/-!
# The file tree

A tree gives for each absolute place, a list of names from the root, the file or directory there.
Paths are followed step by step, from the root or from the working directory.  Names are compared
exactly and have at most 255 bytes, paths at most 4095.  The root and the working directory always
exist, and so does every directory above a place that was reached.

A file may be locked: it is there, but it can neither be read nor written.  Any other file can be both,
each directory can be entered and changed, and no entry is a link.

Changing a tree means to create a file or a directory, or to empty a file; each change says why it
is refused.
-/

namespace DocCoverage

/-- Why a path cannot be used. -/
inductive Fault where
  | notFound
  | notDirectory
  | isDirectory
  | alreadyExists
  | nameTooLong
  | zeroByte
  | notText
  | noSpace
  | permissionDenied
  | inputOutput
  deriving DecidableEq, Repr

def Fault.message : Fault → String
  | .notFound => "No such file or directory (os error 2)"
  | .notDirectory => "Not a directory (os error 20)"
  | .isDirectory => "Is a directory (os error 21)"
  | .alreadyExists => "File exists (os error 17)"
  | .nameTooLong => "File name too long (os error 36)"
  | .zeroByte => "file name contained an unexpected NUL byte"
  | .notText => "stream did not contain valid UTF-8"
  | .noSpace => "No space left on device (os error 28)"
  | .permissionDenied => "Permission denied (os error 13)"
  | .inputOutput => "Input/output error (os error 5)"

inductive Lock where
  | permission
  | device
  deriving DecidableEq, Repr

/-- What comes of the attempt to read or write a locked file. -/
def Lock.fault : Lock → Fault
  | .permission => .permissionDenied
  | .device => .inputOutput

inductive Node where
  | directory
  | file (content : ByteArray)
  | locked (lock : Lock)

/-- Files are equal when they hold the same bytes. -/
instance : DecidableEq Node
  | .directory, .directory => isTrue rfl
  | .directory, .file _ => isFalse nofun
  | .directory, .locked _ => isFalse nofun
  | .file _, .directory => isFalse nofun
  | .file a, .file b =>
    if h : a.data = b.data then isTrue (congrArg Node.file (ByteArray.ext h))
    else isFalse fun e => h (congrArg ByteArray.data (Node.file.inj e))
  | .file _, .locked _ => isFalse nofun
  | .locked _, .directory => isFalse nofun
  | .locked _, .file _ => isFalse nofun
  | .locked a, .locked b =>
    if h : a = b then isTrue (congrArg Node.locked h) else isFalse fun e => h (Node.locked.inj e)

/-- An absolute place: the names on the way from the root. -/
abbrev Place := List String

/-- Files and directories by place, and the directory that relative paths start from. -/
structure FileTree where
  node : Place → Option Node
  workingDir : Place

namespace FileTree

/-- The longest name of one file or directory, in bytes. -/
def maxName : Nat := 255

/-- The longest path, in bytes. -/
def maxPath : Nat := 4095

/-! ## Following a path -/

/-- Follows steps from a directory. -/
def walk (t : FileTree) (dir : Place) : List String → Except Fault (Place × Node)
  | [] => .ok (dir, .directory)
  | step :: rest =>
    if Path.isIdle step then t.walk dir rest
    else if step = ".." then t.walk dir.dropLast rest
    else if maxName < step.utf8ByteSize then .error .nameTooLong
    else
      match t.node (dir ++ [step]) with
      | none => .error .notFound
      | some .directory => t.walk (dir ++ [step]) rest
      | some node => if rest.isEmpty then .ok (dir ++ [step], node) else .error .notDirectory

/-- Follows steps that have to end in a directory. -/
def walkDir (t : FileTree) (dir : Place) (steps : List String) : Except Fault Place :=
  match t.walk dir steps with
  | .ok (place, .directory) => .ok place
  | .ok _ => .error .notDirectory
  | .error fault => .error fault

/-- The directory that a path starts from. -/
def origin (t : FileTree) (p : Path) : Place :=
  if p.isAbsolute then [] else t.workingDir

/-- Refuses a text that cannot be a path. -/
def checkText (p : Path) : Except Fault Unit :=
  if p.text.toList.contains '\x00' then .error .zeroByte
  else if p.text = "" then .error .notFound
  else if maxPath < p.text.utf8ByteSize then .error .nameTooLong
  else .ok ()

/-- What a path leads to, and where that is. -/
def find (t : FileTree) (p : Path) : Except Fault (Place × Node) := do
  checkText p
  t.walk (t.origin p) p.pieces

/-- Whether a path leads to anything. -/
def has (t : FileTree) (p : Path) : Bool :=
  match t.find p with
  | .ok _ => true
  | .error _ => false

def isDir (t : FileTree) (p : Path) : Bool :=
  match t.find p with
  | .ok (_, .directory) => true
  | _ => false

/-- The text of the file that a path leads to. -/
def read (t : FileTree) (p : Path) : Except Fault String :=
  match t.find p with
  | .error fault => .error fault
  | .ok (_, .directory) => .error .isDirectory
  | .ok (_, .file content) =>
    match String.fromUTF8? content with
    | some text => .ok text
    | none => .error .notText
  | .ok (_, .locked lock) => .error lock.fault

/-! ## Changes -/

def put (t : FileTree) (place : Place) (node : Node) : FileTree :=
  { t with node := fun q => if q = place then some node else t.node q }

/-- Takes away what stands at a place, and all below it. -/
def remove (t : FileTree) (place : Place) : FileTree :=
  { t with node := fun q => if place.isPrefixOf q then none else t.node q }

/-- Makes directories of a place and of all places above it that hold nothing. -/
def clear (t : FileTree) (place : Place) : FileTree :=
  { t with
    node := fun q => if q.isPrefixOf place then (t.node q).or (some .directory) else t.node q }

/-- Where a new entry would go. -/
inductive Slot where
  /-- The path ends in the root, in `.` or in `..`, so it names a directory that exists. -/
  | existing
  /-- The path ends in a name, in the directory `dir`; `slash` tells whether a slash follows it. -/
  | named (dir : Place) (name : String) (slash : Bool)

/-- Finds the slot that a path names: all but its last step must lead to a directory. -/
def slot (t : FileTree) (p : Path) : Except Fault Slot := do
  checkText p
  match p.pieces.reverse.dropWhile (· == "") with
  | [] => .ok .existing
  | last :: before =>
    let dir ← t.walkDir (t.origin p) before.reverse
    if last = "." ∨ last = ".." then .ok .existing
    else .ok (.named dir last (p.pieces.getLast? == some ""))

/-- Creates an empty file, or empties the file that is there. -/
def createFile (t : FileTree) (p : Path) : Except Fault FileTree := do
  match ← t.slot p with
  | .existing => .error .isDirectory
  | .named dir name slash =>
    if slash then .error .isDirectory
    else if maxName < name.utf8ByteSize then .error .nameTooLong
    else
      match t.node (dir ++ [name]) with
      | some .directory => .error .isDirectory
      | some (.locked lock) => .error lock.fault
      | _ => .ok (t.put (dir ++ [name]) (.file .empty))

def createDir (t : FileTree) (p : Path) : Except Fault FileTree := do
  match ← t.slot p with
  | .existing => .error .alreadyExists
  | .named dir name _ =>
    if maxName < name.utf8ByteSize then .error .nameTooLong
    else if (t.node (dir ++ [name])).isSome then .error .alreadyExists
    else .ok (t.put (dir ++ [name]) .directory)

/-- Creates the first of the given directories; the others are the directories around it, from the
nearest outward, and those that are missing are created before it.  Also returns the tree if a
directory could not be created: those created before it stay. -/
def createDirs (t : FileTree) : List Path → FileTree × Option Fault
  | [] => (t, none)
  | p :: around =>
    if around.isEmpty then (t, none)
    else
      match t.createDir p with
      | .ok t' => (t', none)
      | .error .notFound =>
        match t.createDirs around with
        | (t', some fault) => (t', some fault)
        | (t', none) =>
          match t'.createDir p with
          | .ok t'' => (t'', none)
          | .error fault => (t', if fault = .alreadyExists ∧ t'.isDir p then none else some fault)
      | .error fault => (t, if fault = .alreadyExists ∧ t.isDir p then none else some fault)

/-- Replaces the text of a file that exists. -/
def write (t : FileTree) (p : Path) (text : String) : FileTree :=
  match t.find p with
  | .ok (place, .file _) => t.put place (.file text.toUTF8)
  | _ => t

/-! ## Building a tree -/

/-- Where a step from a place leads, whether or not anything is there. -/
def next (dir : Place) (step : String) : Place :=
  if Path.isIdle step then dir else if step = ".." then dir.dropLast else dir ++ [step]

/-- The place that the text of a path names, whether or not anything is there. -/
def place (t : FileTree) (p : Path) : Place :=
  p.pieces.foldl next (t.origin p)

/-- Puts a node where a path names a place, with the directories that lead there. -/
def plant (t : FileTree) (p : Path) (node : Node) : FileTree :=
  (t.clear (t.place p).dropLast).put (t.place p) node

/-- The tree that holds nothing but a working directory. -/
def bare (workingDir : Place) : FileTree :=
  ⟨fun q => if q.isPrefixOf workingDir then some .directory else none, workingDir⟩

/-! ## Lemmas -/

@[simp] theorem node_put_self (t : FileTree) (place : Place) (node : Node) :
    (t.put place node).node place = some node := by
  simp [put]

theorem node_put_of_ne (t : FileTree) {place q : Place} (node : Node) (h : q ≠ place) :
    (t.put place node).node q = t.node q := by
  simp [put, h]

/-- Only what can be found can be read. -/
theorem has_of_read_eq_ok {t : FileTree} {p : Path} {text : String} (h : t.read p = .ok text) :
    t.has p = true := by
  unfold read at h
  unfold has
  cases hf : t.find p with
  | error fault => simp [hf] at h
  | ok found => rfl

end FileTree

end DocCoverage
