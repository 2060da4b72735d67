import DocCoverage.Proofs.Agree
import DocCoverage.Proofs.FileTree.Subtree
import DocCoverage.Proofs.Text.Utf8

/-!
# A tree with one file edited

Two trees hold the same, but that one file has other contents.  Every path leads to the same place in
both, files and directories are created or refused alike, and only who reads that one file can tell
the trees apart.

    find, isDir, slot                     the same, but for the contents   (find_alike, slot_alike)
    createFile, createDir, createDirs     the same fault, or trees that again differ in one file
    read p, where p leads elsewhere       the same                                        (read_alike)
-/

namespace DocCoverage.FileTree

/-- The trees hold the same; only the file at one place may have other contents. -/
structure AlikeBut (place : Place) (t t' : FileTree) : Prop where
  workingDir : t.workingDir = t'.workingDir
  node : ∀ q, t.node q = t'.node q ∨
    q = place ∧ ∃ b b', t.node q = some (.file b) ∧ t'.node q = some (.file b')

namespace AlikeBut

variable {place : Place} {t t' : FileTree}

theorem refl (place : Place) (t : FileTree) : AlikeBut place t t :=
  ⟨rfl, fun _ => .inl rfl⟩

theorem put (h : AlikeBut place t t') (q : Place) (node : Node) :
    AlikeBut place (t.put q node) (t'.put q node) := by
  refine ⟨h.workingDir, fun r => ?_⟩
  by_cases hr : r = q
  · subst hr
    rw [node_put_self, node_put_self]
    exact .inl rfl
  · rw [node_put_of_ne t node hr, node_put_of_ne t' node hr]
    exact h.node r

theorem isSome_eq (h : AlikeBut place t t') (q : Place) :
    (t.node q).isSome = (t'.node q).isSome := by
  rcases h.node q with hq | ⟨-, b, b', hb, hb'⟩
  · rw [hq]
  · rw [hb, hb']
    rfl

end AlikeBut

variable {place : Place} {t t' : FileTree}

/-! ## Following a path -/

/-- The same steps lead to the same, or to the edited file in both trees. -/
theorem walk_alike (h : AlikeBut place t t') (dir : Place) (steps : List String) :
    t.walk dir steps = t'.walk dir steps ∨
      ∃ b b', t.walk dir steps = .ok (place, .file b) ∧
        t'.walk dir steps = .ok (place, .file b') := by
  induction steps generalizing dir with
  | nil => exact .inl rfl
  | cons step steps ih =>
    rw [walk_cons, walk_cons]
    split
    · exact ih dir
    · split
      · exact ih dir.dropLast
      · split
        · exact .inl rfl
        · rcases h.node (dir ++ [step]) with hnode | ⟨hplace, b, b', hb, hb'⟩
          · rw [← hnode]
            cases t.node (dir ++ [step]) with
            | none => exact .inl rfl
            | some node =>
              cases node with
              | directory => exact ih (dir ++ [step])
              | file content => exact .inl rfl
              | locked lock => exact .inl rfl
          · rw [hb, hb', hplace]
            simp only
            split
            · exact .inr ⟨b, b', rfl, rfl⟩
            · exact .inl rfl

theorem origin_alike (h : AlikeBut place t t') (p : Path) : t.origin p = t'.origin p := by
  unfold origin
  rw [h.workingDir]

theorem find_alike (h : AlikeBut place t t') (p : Path) :
    t.find p = t'.find p ∨
      ∃ b b', t.find p = .ok (place, .file b) ∧ t'.find p = .ok (place, .file b') := by
  unfold find
  rw [origin_alike h]
  cases checkText p with
  | error fault => exact .inl rfl
  | ok u => exact walk_alike h (t'.origin p) p.pieces

theorem isDir_alike (h : AlikeBut place t t') (p : Path) : t.isDir p = t'.isDir p := by
  unfold isDir
  rcases find_alike h p with hfind | ⟨b, b', hb, hb'⟩
  · rw [hfind]
  · rw [hb, hb']

/-- A path that does not lead to the edited file is read alike. -/
theorem read_alike (h : AlikeBut place t t') {p : Path}
    (hp : ∀ node, t.find p ≠ .ok (place, node)) : t.read p = t'.read p := by
  rcases find_alike h p with hfind | ⟨b, b', hb, -⟩
  · unfold read
    rw [hfind]
  · exact absurd hb (hp _)

theorem walkDir_alike (h : AlikeBut place t t') (dir : Place) (steps : List String) :
    t.walkDir dir steps = t'.walkDir dir steps := by
  unfold walkDir
  rcases walk_alike h dir steps with hwalk | ⟨b, b', hb, hb'⟩
  · rw [hwalk]
  · rw [hb, hb']

theorem slot_alike (h : AlikeBut place t t') (p : Path) : t.slot p = t'.slot p := by
  unfold slot
  simp only [origin_alike h, walkDir_alike h]

/-! ## Creating files and directories -/

theorem createFile_alike (h : AlikeBut place t t') (p : Path) :
    Agree Eq (AlikeBut place) (t.createFile p) (t'.createFile p) := by
  unfold createFile
  rw [slot_alike h]
  refine Agree.bind_self (t'.slot p) fun slot => ?_
  cases slot with
  | existing => exact .error rfl
  | named dir name slash =>
    simp only
    split
    · exact .error rfl
    · split
      · exact .error rfl
      · rcases h.node (dir ++ [name]) with hnode | ⟨-, b, b', hb, hb'⟩
        · rw [← hnode]
          split
          · exact .error rfl
          · exact .error rfl
          · exact .ok (h.put _ _)
        · rw [hb, hb']
          exact .ok (h.put _ _)

theorem createDir_alike (h : AlikeBut place t t') (p : Path) :
    Agree Eq (AlikeBut place) (t.createDir p) (t'.createDir p) := by
  unfold createDir
  rw [slot_alike h]
  refine Agree.bind_self (t'.slot p) fun slot => ?_
  cases slot with
  | existing => exact .error rfl
  | named dir name slash =>
    simp only [h.isSome_eq]
    split
    · exact .error rfl
    · split
      · exact .error rfl
      · exact .ok (h.put _ _)

/-- The same directories are created, up to the same fault. -/
theorem createDirs_alike (h : AlikeBut place t t') (ps : List Path) :
    AlikeBut place (t.createDirs ps).1 (t'.createDirs ps).1 ∧
      (t.createDirs ps).2 = (t'.createDirs ps).2 := by
  induction ps with
  | nil => exact ⟨h, rfl⟩
  | cons p around ih =>
    have hfirst := createDir_alike h p
    have hdir := isDir_alike h p
    unfold createDirs
    generalize t.createDir p = r at hfirst ⊢
    generalize t'.createDir p = r' at hfirst ⊢
    generalize t.createDirs around = outer at ih ⊢
    generalize t'.createDirs around = outer' at ih ⊢
    obtain ⟨tree, fault⟩ := outer
    obtain ⟨tree', fault'⟩ := outer'
    obtain ⟨htree, rfl⟩ : AlikeBut place tree tree' ∧ fault = fault' := ih
    have hsecond := createDir_alike htree p
    have hdir' := isDir_alike htree p
    split
    · exact ⟨h, rfl⟩
    · cases hfirst with
      | ok hnew => exact ⟨hnew, rfl⟩
      | error hfault =>
        subst hfault
        split
        · next heq => cases heq
        · cases fault with
          | some fault => exact ⟨htree, rfl⟩
          | none =>
            simp only
            generalize tree.createDir p = r at hsecond ⊢
            generalize tree'.createDir p = r' at hsecond ⊢
            cases hsecond with
            | ok hnew => exact ⟨hnew, rfl⟩
            | error hfault => exact ⟨htree, by simp only [hfault, hdir']⟩
        · next heq =>
          cases heq
          exact ⟨h, by simp only [hdir]⟩

/-! ## Editing a file -/

theorem node_of_walk {dir : Place} {steps : List String} {b : ByteArray}
    (h : t.walk dir steps = .ok (place, .file b)) : t.node place = some (.file b) := by
  induction steps generalizing dir with
  | nil => cases h
  | cons step steps ih =>
    rcases walk_cons_eq_ok h with ⟨next, -, hrest⟩ | ⟨hnode, -⟩
    · exact ih hrest
    · exact hnode

/-- Other contents for the file that a path leads to. -/
theorem alikeBut_write {p : Path} {b : ByteArray} (h : t.find p = .ok (place, .file b))
    (text : String) : AlikeBut place t (t.write p text) := by
  have hnode : t.node place = some (.file b) := node_of_walk (find_ok h).2
  unfold write
  rw [h]
  refine ⟨rfl, fun q => ?_⟩
  by_cases hq : q = place
  · subst hq
    exact .inr ⟨rfl, b, _, hnode, node_put_self t q _⟩
  · exact .inl (node_put_of_ne t _ hq).symm

theorem exists_find_of_read {p : Path} {text : String} (h : t.read p = .ok text) :
    ∃ place b, t.find p = .ok (place, .file b) := by
  unfold read at h
  split at h
  · cases h
  · cases h
  · next place b hfind => exact ⟨place, b, hfind⟩
  · cases h

/-- What was written is found where the file was. -/
theorem find_write {p : Path} {b : ByteArray} (h : t.find p = .ok (place, .file b))
    (text : String) : (t.write p text).find p = .ok (place, .file text.toUTF8) := by
  have hnode : (t.write p text).node place = some (.file text.toUTF8) := by
    unfold write
    rw [h]
    exact node_put_self t place _
  have hfind : ∃ b', (t.write p text).find p = .ok (place, .file b') := by
    rcases find_alike (alikeBut_write h text) p with hsame | ⟨-, b', -, hb'⟩
    · exact ⟨b, hsame.symm.trans h⟩
    · exact ⟨b', hb'⟩
  obtain ⟨b', hb'⟩ := hfind
  obtain rfl : b' = text.toUTF8 :=
    Node.file.inj (Option.some.inj ((node_of_walk (find_ok hb').2).symm.trans hnode))
  exact hb'

/-- What was written is read. -/
theorem read_write_self {p : Path} {text : String} (h : t.read p = .ok text) (text' : String) :
    (t.write p text').read p = .ok text' := by
  obtain ⟨place, b, hfind⟩ := exists_find_of_read h
  unfold read
  rw [find_write hfind text']
  simp only [Text.fromUTF8?_toUTF8]

end DocCoverage.FileTree
