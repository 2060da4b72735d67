import DocCoverage.Proofs.FileTree.Edited
import DocCoverage.Proofs.Path.Parents

/-!
# Trees that grow

Creating directories takes nothing away: whatever stood in the tree stands there as before, and what
is new are directories that the given paths lead to.  That holds however far the creation comes, so a
fault on the way leaves nothing else behind.

    a path to a directory leads there as long as no directory is lost       (find_of_keepsDirectories)
    createDir p   = ok  →  one new directory, and p leads to it                     (createDir_eq_ok)
    createFile p  = ok  →  an empty file at a free place, and p leads to it        (createFile_eq_ok)
    createDirs ps, with or without a fault  →  the tree grows by directories of ps  (createDirs_grows)
-/

namespace DocCoverage.FileTree

/-- The directories of the first tree are also in the second, which has the same working directory. -/
structure KeepsDirectories (t t' : FileTree) : Prop where
  workingDir : t'.workingDir = t.workingDir
  directory : ∀ q, t.node q = some .directory → t'.node q = some .directory

/-- All that stands in the first tree also stands in the second, and what is new are directories that
one of some paths leads to. -/
structure Grows (P : Path → Prop) (t t' : FileTree) : Prop where
  workingDir : t'.workingDir = t.workingDir
  kept : ∀ q node, t.node q = some node → t'.node q = some node
  new : ∀ q, t.node q = none → t'.node q = none ∨
    t'.node q = some .directory ∧ ∃ p, P p ∧ t'.find p = .ok (q, .directory)

/-- Nothing stands at a place, or a file that can be emptied. -/
structure IsFree (t : FileTree) (q : Place) : Prop where
  directory : t.node q ≠ some .directory
  locked : ∀ lock, t.node q ≠ some (.locked lock)

/-- A path ends in a name, in a directory, and in slashes if at all. -/
structure EndsIn (t : FileTree) (p : Path) (dir : Place) (name : String) (slash : Bool) : Prop where
  check : checkText p = .ok ()
  not_idle : ¬ Path.isIdle name = true
  not_up : name ≠ ".."
  pieces : ∃ before blanks, p.pieces = before ++ name :: blanks ∧ (∀ b ∈ blanks, b = "") ∧
    (slash = false → blanks = []) ∧ t.walkDir (t.origin p) before = .ok dir

/-- A path leads to a file at some place. -/
def HasFileAt (t : FileTree) (p : Path) (q : Place) : Prop :=
  ∃ content, t.node q = some (.file content) ∧ t.find p = .ok (q, .file content)

/-- Two trees differ at most in the file that a path leads to in the second, and in directories that
are new there, each around that path. -/
structure DiffersAt (file : Path) (t t' : FileTree) : Prop where
  workingDir : t'.workingDir = t.workingDir
  directory : ∀ q, t.node q = some .directory → t'.node q = some .directory
  locked : ∀ q lock, t.node q = some (.locked lock) → t'.node q = some (.locked lock)
  kept : ∀ q content, t.node q = some (.file content) →
    t'.node q = some (.file content) ∨ t'.HasFileAt file q
  new : ∀ q, t.node q = none → t'.node q = none ∨ t'.HasFileAt file q ∨
    t'.node q = some .directory ∧ ∃ around ∈ file.parents,
      around.components <+: file.components ∧ t'.find around = .ok (q, .directory)

variable {t t' t'' : FileTree} {P : Path → Prop}

/-! ## Directories stay where they are -/

theorem Follows.of_keepsDirectories (h : KeepsDirectories t t') {dir next : Place} {step : String}
    (hstep : Follows t dir step next) : Follows t' dir step next := by
  cases hstep with
  | idle hidle => exact .idle hidle
  | up => exact .up
  | down hidle hup hlength hnode => exact .down hidle hup hlength (h.directory _ hnode)

theorem walk_of_keepsDirectories (h : KeepsDirectories t t') {dir d : Place} {steps : List String}
    (hwalk : t.walk dir steps = .ok (d, .directory)) : t'.walk dir steps = .ok (d, .directory) := by
  induction steps generalizing dir with
  | nil => exact hwalk
  | cons step steps ih =>
    rcases walk_cons_eq_ok hwalk with ⟨next, hstep, hrest⟩ | ⟨-, hne⟩
    · rw [walk_of_follows (hstep.of_keepsDirectories h)]
      exact ih hrest
    · exact absurd rfl hne

theorem origin_of_keepsDirectories (h : KeepsDirectories t t') (p : Path) :
    t'.origin p = t.origin p := by
  unfold origin
  rw [h.workingDir]

theorem find_of_keepsDirectories (h : KeepsDirectories t t') {p : Path} {d : Place}
    (hfind : t.find p = .ok (d, .directory)) : t'.find p = .ok (d, .directory) := by
  obtain ⟨hcheck, hwalk⟩ := find_ok hfind
  unfold find
  rw [hcheck, origin_of_keepsDirectories h]
  exact walk_of_keepsDirectories h hwalk

theorem walk_of_walkDir {dir d : Place} {steps : List String} (h : t.walkDir dir steps = .ok d) :
    t.walk dir steps = .ok (d, .directory) := by
  unfold walkDir at h
  split at h
  · next hwalk =>
    cases h
    exact hwalk
  · cases h
  · cases h

/-- Slashes at the end lead nowhere. -/
theorem walk_blanks (t : FileTree) (dir : Place) {blanks : List String}
    (h : ∀ b ∈ blanks, b = "") : t.walk dir blanks = .ok (dir, .directory) := by
  induction blanks with
  | nil => rfl
  | cons b blanks ih =>
    obtain rfl : b = "" := h b List.mem_cons_self
    rw [walk_of_follows (.idle rfl)]
    exact ih fun b hb => h b (List.mem_cons_of_mem "" hb)

theorem keepsDirectories_put {q : Place} {node : Node}
    (h : t.node q = some .directory → node = .directory) : KeepsDirectories t (t.put q node) := by
  refine ⟨rfl, fun r hr => ?_⟩
  by_cases hq : r = q
  · subst hq
    rw [node_put_self, h hr]
  · rwa [node_put_of_ne t node hq]

/-! ## Slots -/

/-- Without the blank texts at its end, a list ends in a text that is not blank. -/
theorem eq_append_of_dropWhile {pieces before : List String} {last : String}
    (h : pieces.reverse.dropWhile (· == "") = last :: before) :
    last ≠ "" ∧ ∃ blanks, pieces = before.reverse ++ last :: blanks ∧ (∀ b ∈ blanks, b = "") := by
  refine ⟨?_, (pieces.reverse.takeWhile (· == "")).reverse, ?_, ?_⟩
  · have hlast := List.head?_dropWhile_not (· == "") pieces.reverse
    rw [h] at hlast
    exact ne_of_beq_false hlast
  · have hcut : pieces.reverse.takeWhile (· == "") ++ last :: before = pieces.reverse := by
      rw [← h]
      exact List.takeWhile_append_dropWhile
    have hpieces := congrArg List.reverse hcut
    rw [List.reverse_append, List.reverse_cons, List.append_assoc, List.reverse_reverse] at hpieces
    exact hpieces.symm
  · intro b hb
    exact eq_of_beq (List.all_eq_true.mp List.all_takeWhile b (List.mem_reverse.mp hb))

theorem endsIn_of_slot {p : Path} {dir : Place} {name : String} {slash : Bool}
    (h : t.slot p = .ok (.named dir name slash)) : EndsIn t p dir name slash := by
  unfold slot at h
  obtain ⟨⟨⟩, hcheck, h⟩ := exists_of_bind_eq_ok h
  split at h
  · cases h
  · next last before hlast =>
    obtain ⟨d, hdir, h⟩ := exists_of_bind_eq_ok h
    split at h
    · cases h
    · next hdots =>
      cases h
      rw [not_or] at hdots
      obtain ⟨hempty, blanks, hpieces, hblanks⟩ := eq_append_of_dropWhile hlast
      refine ⟨hcheck, by simp [Path.isIdle, hempty, hdots.1], hdots.2, before.reverse, blanks,
        hpieces, hblanks, fun hslash => ?_, hdir⟩
      -- the last blank would be the last piece
      apply Classical.byContradiction
      intro hne
      apply ne_of_beq_false hslash
      rw [hpieces, List.getLast?_append_of_ne_nil _ (List.cons_ne_nil name blanks),
        List.getLast?_cons_of_ne_nil hne, List.getLast?_eq_some_getLast hne,
        hblanks _ (List.getLast_mem hne)]

/-- What is put where a path ends is found under that path, but a file only if no slash follows its
name. -/
theorem find_of_endsIn {p : Path} {dir : Place} {name : String} {slash : Bool}
    (hends : EndsIn t p dir name slash) (hlength : ¬ maxName < name.utf8ByteSize)
    (hkeeps : KeepsDirectories t t') {node : Node} (hnode : t'.node (dir ++ [name]) = some node)
    (hslash : node = .directory ∨ slash = false) : t'.find p = .ok (dir ++ [name], node) := by
  obtain ⟨hcheck, hidle, hup, before, blanks, hpieces, hblanks, hslashless, hdir⟩ := hends
  have hbefore : t'.walkDir (t'.origin p) before = .ok dir := by
    rw [origin_of_keepsDirectories hkeeps]
    exact walkDir_of_walk (walk_of_keepsDirectories hkeeps (walk_of_walkDir hdir))
  have hlast : t'.walk dir (name :: blanks) = .ok (dir ++ [name], node) := by
    by_cases hdirectory : node = .directory
    · subst hdirectory
      rw [walk_of_follows (.down hidle hup hlength hnode)]
      exact walk_blanks t' (dir ++ [name]) hblanks
    · rw [hslashless (hslash.resolve_left hdirectory), walk_cons, if_neg hidle, if_neg hup,
        if_neg hlength, hnode]
      cases node with
      | directory => exact absurd rfl hdirectory
      | file content => rfl
      | locked lock => rfl
  unfold find
  rw [hcheck, hpieces]
  show t'.walk (t'.origin p) (before ++ name :: blanks) = _
  rw [walk_append _ _ _ (List.cons_ne_nil name blanks), hbefore]
  exact hlast

/-! ## One change -/

theorem createDir_eq_ok {p : Path} (h : t.createDir p = .ok t') :
    ∃ q, t.node q = none ∧ t' = t.put q .directory ∧ t'.find p = .ok (q, .directory) := by
  unfold createDir at h
  obtain ⟨slot, hslot, h⟩ := exists_of_bind_eq_ok h
  cases slot with
  | existing => cases h
  | named dir name slash =>
    dsimp only at h
    split at h
    · cases h
    · next hlength =>
      split at h
      · cases h
      · next hnew =>
        cases h
        refine ⟨dir ++ [name], Option.not_isSome_iff_eq_none.mp hnew, rfl, ?_⟩
        exact find_of_endsIn (endsIn_of_slot hslot) hlength (keepsDirectories_put fun _ => rfl)
          (node_put_self t _ _) (.inl rfl)

theorem createFile_eq_ok {p : Path} (h : t.createFile p = .ok t') :
    ∃ q, IsFree t q ∧ t' = t.put q (.file .empty) ∧ t'.find p = .ok (q, .file .empty) := by
  unfold createFile at h
  obtain ⟨slot, hslot, h⟩ := exists_of_bind_eq_ok h
  cases slot with
  | existing => cases h
  | named dir name slash =>
    dsimp only at h
    split at h
    · cases h
    · next hslash =>
      split at h
      · cases h
      · next hlength =>
        split at h
        · cases h
        · cases h
        · next hdirectory hlocked =>
          cases h
          refine ⟨dir ++ [name], ⟨hdirectory, hlocked⟩, rfl, ?_⟩
          exact find_of_endsIn (endsIn_of_slot hslot) hlength
            (keepsDirectories_put fun hq => absurd hq hdirectory) (node_put_self t _ _)
            (.inr (Bool.eq_false_iff.mpr hslash))

/-! ## Growing -/

namespace Grows

theorem refl (P : Path → Prop) (t : FileTree) : Grows P t t :=
  ⟨rfl, fun _ _ h => h, fun _ h => .inl h⟩

theorem keepsDirectories (h : Grows P t t') : KeepsDirectories t t' :=
  ⟨h.workingDir, fun q hq => h.kept q .directory hq⟩

theorem trans (h : Grows P t t') (h' : Grows P t' t'') : Grows P t t'' := by
  refine ⟨h'.workingDir.trans h.workingDir, fun q node hq => h'.kept q node (h.kept q node hq), ?_⟩
  intro q hq
  rcases h.new q hq with hnone | ⟨hdir, p, hp, hfind⟩
  · exact h'.new q hnone
  · exact .inr ⟨h'.kept q _ hdir, p, hp, find_of_keepsDirectories h'.keepsDirectories hfind⟩

end Grows

theorem createDir_grows {p : Path} (hp : P p) (h : t.createDir p = .ok t') : Grows P t t' := by
  obtain ⟨q, hnone, rfl, hfind⟩ := createDir_eq_ok h
  refine ⟨rfl, fun r node hr => ?_, fun r hr => ?_⟩
  · have hne : r ≠ q := by
      rintro rfl
      rw [hnone] at hr
      cases hr
    rwa [node_put_of_ne t _ hne]
  · by_cases hq : r = q
    · subst hq
      exact .inr ⟨node_put_self t r _, p, hp, hfind⟩
    · exact .inl ((node_put_of_ne t _ hq).trans hr)

/-- The tree only grows, whether or not all directories could be created. -/
theorem createDirs_grows {ps : List Path} (hps : ∀ p ∈ ps, P p) :
    Grows P t (t.createDirs ps).1 := by
  induction ps with
  | nil => exact .refl P t
  | cons p around ih =>
    have hp : P p := hps p List.mem_cons_self
    have houter : Grows P t (t.createDirs around).1 := ih fun q hq => hps q (List.mem_cons_of_mem p hq)
    unfold createDirs
    split
    · exact .refl P t
    · split
      · next hfirst => exact createDir_grows hp hfirst
      · split
        · next heq => exact heq ▸ houter
        · next heq =>
          rw [heq] at houter
          split
          · next hsecond => exact houter.trans (createDir_grows hp hsecond)
          · exact houter
      · exact .refl P t

/-! ## A file on top -/

theorem put_put (t : FileTree) (q : Place) (node node' : Node) :
    (t.put q node).put q node' = t.put q node' := by
  unfold put
  congr 1
  funext r
  dsimp only
  split
  · rfl
  · rfl

section
variable {file : Path}

theorem Grows.differsAt (h : Grows (· ∈ file.parents) t t') : DiffersAt file t t' := by
  refine ⟨h.workingDir, h.keepsDirectories.directory, fun q lock => h.kept q (.locked lock),
    fun q content hq => .inl (h.kept q _ hq), ?_⟩
  intro q hq
  rcases h.new q hq with hnone | ⟨hdir, around, haround, hfind⟩
  · exact .inl hnone
  · exact .inr (.inr ⟨hdir, around, haround, Path.prefix_of_mem_parents haround, hfind⟩)

/-- A file may stand in the grown tree at a free place, if the path leads to it then. -/
theorem Grows.put_differsAt (h : Grows (· ∈ file.parents) t t') {q : Place} {content : ByteArray}
    (hq : IsFree t' q)
    (hfind : (t'.put q (.file content)).find file = .ok (q, .file content)) :
    DiffersAt file t (t'.put q (.file content)) := by
  have hfile : (t'.put q (.file content)).HasFileAt file q := ⟨content, node_put_self t' q _, hfind⟩
  have hkeeps : KeepsDirectories t' (t'.put q (.file content)) :=
    keepsDirectories_put fun hdir => absurd hdir hq.directory
  refine ⟨h.workingDir, fun r hr => hkeeps.directory r (h.kept r _ hr), fun r lock hr => ?_,
    fun r b hr => ?_, ?_⟩
  · have hne : r ≠ q := by
      rintro rfl
      exact hq.locked lock (h.kept r _ hr)
    exact (node_put_of_ne t' _ hne).trans (h.kept r _ hr)
  · by_cases hrq : r = q
    · subst hrq
      exact .inr hfile
    · exact .inl ((node_put_of_ne t' _ hrq).trans (h.kept r _ hr))
  · intro r hr
    by_cases hrq : r = q
    · subst hrq
      exact .inr (.inl hfile)
    · rw [node_put_of_ne t' _ hrq]
      rcases h.new r hr with hnone | ⟨hdir, around, haround, hleads⟩
      · exact .inl hnone
      · exact .inr (.inr ⟨hdir, around, haround, Path.prefix_of_mem_parents haround,
          find_of_keepsDirectories hkeeps hleads⟩)

end

end DocCoverage.FileTree
