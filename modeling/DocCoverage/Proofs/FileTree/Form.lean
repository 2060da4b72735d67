import DocCoverage.FileTree
import DocCoverage.Proofs.Text.Utf8

/-!
# The form of files

Every file of a tree may be saved in another form: with line ends of two characters, with a byte
order mark, or with both.  Paths lead to the same places then, and what could not be read cannot be
read for the same cause.

    (t.save form).find p = the place and node of t.find p, the node in its form      (find_save)
    (t.save form).read p = (t.read p).map f.text,     f the form of the file         (read_save)
-/

namespace DocCoverage

/-- The form in which a file is saved. -/
structure Form where
  crlf : Bool
  mark : Bool
  deriving DecidableEq, Repr

namespace Form

def bytes (f : Form) (b : ByteArray) : ByteArray :=
  let b := if f.crlf then Text.crlfBytes b else b
  if f.mark then Text.markBytes b else b

def chars (f : Form) (s : List Char) : List Char :=
  let s := if f.crlf then Text.crlf s else s
  if f.mark then '\ufeff' :: s else s

def text (f : Form) (t : String) : String :=
  String.ofList (f.chars t.toList)

/-- The form of a file decides nothing about its being text. -/
theorem fromUTF8?_bytes (f : Form) (b : ByteArray) :
    String.fromUTF8? (f.bytes b) = (String.fromUTF8? b).map f.text := by
  obtain ⟨crlf, mark⟩ := f
  cases h : String.fromUTF8? b <;> cases crlf <;> cases mark <;>
    simp [bytes, text, chars, Text.fromUTF8?_crlfBytes, Text.fromUTF8?_markBytes, h]

end Form

/-- A file in another form; directories and locked files have none. -/
def Node.save (f : Form) : Node → Node
  | .directory => .directory
  | .file content => .file (f.bytes content)
  | .locked lock => .locked lock

namespace FileTree

/-- Saves every file in the form that is given for its place. -/
def save (t : FileTree) (form : Place → Form) : FileTree :=
  { t with node := fun place => (t.node place).map (Node.save (form place)) }

variable (t : FileTree) (form : Place → Form)

theorem walk_save (dir : Place) (steps : List String) :
    (t.save form).walk dir steps =
      (t.walk dir steps).map fun (place, node) => (place, node.save (form place)) := by
  induction steps generalizing dir with
  | nil => rfl
  | cons step steps ih =>
    unfold walk
    split
    · exact ih dir
    · split
      · exact ih dir.dropLast
      · split
        · rfl
        · cases hnode : t.node (dir ++ [step]) with
          | none => simp [save, hnode, Except.map]
          | some node =>
            cases node with
            | directory => simpa [save, hnode, Node.save] using ih (dir ++ [step])
            | file content =>
              simp only [save, hnode, Option.map_some, Node.save]
              split <;> rfl
            | locked lock =>
              simp only [save, hnode, Option.map_some, Node.save]
              split <;> rfl

theorem find_save (p : Path) :
    (t.save form).find p = (t.find p).map fun (place, node) => (place, node.save (form place)) := by
  unfold find
  cases checkText p with
  | error fault => rfl
  | ok u => exact walk_save t form (t.origin p) p.pieces

theorem has_save (p : Path) : (t.save form).has p = t.has p := by
  unfold has
  rw [find_save]
  cases t.find p <;> rfl

/-- Each path is read in some form. -/
theorem read_save (p : Path) : ∃ f : Form, (t.save form).read p = (t.read p).map f.text := by
  unfold read
  rw [find_save]
  cases t.find p with
  | error fault => exact ⟨⟨false, false⟩, rfl⟩
  | ok found =>
    obtain ⟨place, node⟩ := found
    cases node with
    | directory => exact ⟨⟨false, false⟩, rfl⟩
    | file content =>
      refine ⟨form place, ?_⟩
      simp only [Except.map, Node.save, Form.fromUTF8?_bytes]
      cases String.fromUTF8? content <;> rfl
    | locked lock => exact ⟨⟨false, false⟩, rfl⟩

end FileTree

end DocCoverage
