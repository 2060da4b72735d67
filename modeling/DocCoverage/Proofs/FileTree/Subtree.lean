import DocCoverage.Proofs.Agree
import DocCoverage.Proofs.Path.Join
import DocCoverage.Source

/-!
# Parts of a tree

What a directory holds can be looked at from without, under a path that leads to it, or from within.
As long as no step leads up, a path below the directory finds the same in both ways, wherever the
directory stands and whatever else is in the tree.

    walk dir (x :: xs)    = walk next xs,   where x leads from dir to next         (walk_of_follows)
    walk dir (xs ++ ys)   = walk d ys,   d the directory that xs leads to              (walk_append)
    find (root.join e)    = walk d (pieces of e),   d the directory of root              (find_join)
    the same below two directories  →  the same node is found, or the same fault         (walk_below)
    the same below two roots        →  the same is read, or the same fault               (read_join)
-/

namespace DocCoverage

/-- A text that is a path below any root: it is relative and does not lead up. -/
structure Path.StaysBelow (e : String) : Prop where
  relative : (Path.mk e).isAbsolute = false
  no_up : .up ∉ (Path.mk e).components

theorem Path.StaysBelow.up_not_mem {e : String} (h : StaysBelow e) : ".." ∉ (Path.mk e).pieces := by
  intro hmem
  apply h.no_up
  rw [components_eq]
  exact List.mem_append_right _ (List.mem_filterMap.mpr ⟨"..", hmem, rfl⟩)

namespace FileTree

/-- Below two directories, each of its tree, stand the same files and directories. -/
def SameBelow (t : FileTree) (dir : Place) (t' : FileTree) (dir' : Place) : Prop :=
  ∀ q, t.node (dir ++ q) = t'.node (dir' ++ q)

/-- A path that is short enough for the system. -/
def Fits (p : Path) : Prop :=
  p.text.utf8ByteSize ≤ maxPath

instance (p : Path) : Decidable (Fits p) :=
  inferInstanceAs (Decidable (p.text.utf8ByteSize ≤ maxPath))

variable {t t' : FileTree} {dir dir' : Place}

/-! ## One step -/

/-- A step leads from one directory to another. -/
inductive Follows (t : FileTree) (dir : Place) : String → Place → Prop
  | idle {step : String} (h : Path.isIdle step = true) : Follows t dir step dir
  | up : Follows t dir ".." dir.dropLast
  | down {step : String} (hidle : ¬ Path.isIdle step = true) (hup : step ≠ "..")
      (hlength : ¬ maxName < step.utf8ByteSize) (hnode : t.node (dir ++ [step]) = some .directory) :
      Follows t dir step (dir ++ [step])

theorem walk_cons (t : FileTree) (dir : Place) (x : String) (xs : List String) :
    t.walk dir (x :: xs) =
      if Path.isIdle x then t.walk dir xs
      else if x = ".." then t.walk dir.dropLast xs
      else if maxName < x.utf8ByteSize then .error .nameTooLong
      else
        match t.node (dir ++ [x]) with
        | none => .error .notFound
        | some .directory => t.walk (dir ++ [x]) xs
        | some node => if xs.isEmpty then .ok (dir ++ [x], node) else .error .notDirectory := rfl

theorem walk_of_follows {step : String} {next : Place} (h : Follows t dir step next)
    (steps : List String) : t.walk dir (step :: steps) = t.walk next steps := by
  cases h with
  | idle h => rw [walk_cons, if_pos h]
  | up => rfl
  | down hidle hup hlength hnode =>
    rw [walk_cons, if_neg hidle, if_neg hup, if_neg hlength, hnode]

/-- A walk that leads somewhere goes on after its first step, unless this is the last one and leads to
something else than a directory. -/
theorem walk_cons_eq_ok {step : String} {steps : List String} {found : Place × Node}
    (h : t.walk dir (step :: steps) = .ok found) :
    (∃ next, Follows t dir step next ∧ t.walk next steps = .ok found) ∨
      t.node found.1 = some found.2 ∧ found.2 ≠ .directory := by
  rw [walk_cons] at h
  split at h
  · next hidle => exact .inl ⟨dir, .idle hidle, h⟩
  · next hidle =>
    split at h
    · next hup =>
      subst hup
      exact .inl ⟨dir.dropLast, .up, h⟩
    · next hup =>
      split at h
      · cases h
      · next hlength =>
        split at h
        · cases h
        · next hnode => exact .inl ⟨dir ++ [step], .down hidle hup hlength hnode, h⟩
        · next node hne hnode =>
          split at h
          · cases h
            exact .inr ⟨hnode, hne⟩
          · cases h

/-! ## Walking in two parts -/

theorem walkDir_cons (t : FileTree) (dir : Place) (x : String) (xs : List String) :
    t.walkDir dir (x :: xs) =
      if Path.isIdle x then t.walkDir dir xs
      else if x = ".." then t.walkDir dir.dropLast xs
      else if maxName < x.utf8ByteSize then .error .nameTooLong
      else
        match t.node (dir ++ [x]) with
        | none => .error .notFound
        | some .directory => t.walkDir (dir ++ [x]) xs
        | some _ => .error .notDirectory := by
  unfold walkDir
  rw [walk_cons]
  by_cases hidle : Path.isIdle x = true
  · rw [if_pos hidle, if_pos hidle]
  · rw [if_neg hidle, if_neg hidle]
    by_cases hup : x = ".."
    · rw [if_pos hup, if_pos hup]
    · rw [if_neg hup, if_neg hup]
      by_cases hlong : maxName < x.utf8ByteSize
      · rw [if_pos hlong, if_pos hlong]
      · rw [if_neg hlong, if_neg hlong]
        cases t.node (dir ++ [x]) with
        | none => rfl
        | some node =>
          cases node with
          | directory => rfl
          | file content => cases xs.isEmpty <;> rfl
          | locked lock => cases xs.isEmpty <;> rfl

/-- All steps but the last ones have to lead to a directory. -/
theorem walk_append (t : FileTree) (dir : Place) (xs : List String) {ys : List String}
    (hys : ys ≠ []) : t.walk dir (xs ++ ys) = (t.walkDir dir xs).bind fun d => t.walk d ys := by
  induction xs generalizing dir with
  | nil => rfl
  | cons x xs ih =>
    have hmore : (xs ++ ys).isEmpty = false := by simp [hys]
    rw [List.cons_append, walk_cons, walkDir_cons]
    split
    · exact ih dir
    · split
      · exact ih dir.dropLast
      · split
        · rfl
        · cases t.node (dir ++ [x]) with
          | none => rfl
          | some node =>
            cases node with
            | directory => exact ih (dir ++ [x])
            -- a file ends a walk, so the steps after it are refused
            | file content =>
              simp only [hmore]
              rfl
            | locked lock =>
              simp only [hmore]
              rfl

theorem walkDir_of_walk {steps : List String} {d : Place}
    (h : t.walk dir steps = .ok (d, .directory)) : t.walkDir dir steps = .ok d := by
  unfold walkDir
  rw [h]

/-- A slash at the end of the way to a directory changes nothing. -/
theorem walkDir_of_walk_slash {steps : List String} {d : Place}
    (h : t.walk dir (steps ++ [""]) = .ok (d, .directory)) : t.walkDir dir steps = .ok d := by
  rw [walk_append t dir steps (List.cons_ne_nil _ _)] at h
  cases hd : t.walkDir dir steps with
  | error fault =>
    rw [hd] at h
    cases h
  | ok d' =>
    rw [hd] at h
    cases h
    rfl

/-! ## Paths below a root -/

theorem find_ok {p : Path} {found : Place × Node} (h : t.find p = .ok found) :
    checkText p = .ok () ∧ t.walk (t.origin p) p.pieces = .ok found := by
  unfold find at h
  obtain ⟨⟨⟩, hcheck, hwalk⟩ := exists_of_bind_eq_ok h
  exact ⟨hcheck, hwalk⟩

theorem checkText_eq_ok_iff {p : Path} :
    checkText p = .ok () ↔ '\x00' ∉ p.text.toList ∧ p.text ≠ "" ∧ Fits p := by
  unfold checkText Fits
  by_cases hzero : '\x00' ∈ p.text.toList
  · simp [hzero]
  · by_cases hempty : p.text = ""
    · simp [hempty]
    · by_cases hlong : maxPath < p.text.utf8ByteSize
      · simp [hzero, hempty, hlong]
      · simp [hzero, hempty, hlong, Nat.not_lt.mp hlong]

/-- From a root that leads to a directory, a path goes on in that directory. -/
theorem find_join {root : Path} (hroot : t.find root = .ok (dir, .directory)) {e : String}
    (he : (Path.mk e).isAbsolute = false) (hfits : Fits (root.join ⟨e⟩)) :
    t.find (root.join ⟨e⟩) =
      if '\x00' ∈ e.toList then .error .zeroByte else t.walk dir (Path.mk e).pieces := by
  obtain ⟨hcheck, hwalk⟩ := find_ok hroot
  obtain ⟨hzero, hempty, -⟩ := checkText_eq_ok_iff.mp hcheck
  have horigin : t.origin (root.join ⟨e⟩) = t.origin root := by
    unfold origin
    rw [Path.isAbsolute_join hempty he]
  obtain ⟨front, hjoin, hfront⟩ := Path.join_eq_slash hempty he
  rw [hjoin] at hfits horigin ⊢
  have hdir : t.walkDir (t.origin root) (Path.mk front).pieces = .ok dir := by
    obtain ⟨text⟩ := root
    rcases hfront with hfront | hfront
    · obtain rfl : text = front := hfront
      exact walkDir_of_walk hwalk
    · obtain rfl : text = front ++ "/" := hfront
      apply walkDir_of_walk_slash
      have hpieces : (Path.mk (front ++ "/")).pieces = (Path.mk front).pieces ++ [""] := by
        rw [← String.append_empty (s := front ++ "/"), Path.pieces_slash]
        rfl
      rwa [hpieces] at hwalk
  have hchars : '\x00' ∉ front.toList := by
    intro h
    apply hzero
    rcases hfront with hfront | hfront
    · rwa [hfront]
    · rw [hfront, String.toList_append]
      exact List.mem_append_left _ h
  have hmem : '\x00' ∈ (front ++ "/" ++ e).toList ↔ '\x00' ∈ e.toList := by
    simp [String.toList_append, hchars]
  unfold find
  by_cases h : '\x00' ∈ e.toList
  · have hbad : checkText ⟨front ++ "/" ++ e⟩ = .error .zeroByte := by
      unfold checkText
      rw [if_pos (List.contains_iff_mem.mpr (hmem.mpr h))]
    rw [hbad, if_pos h]
    rfl
  · have hgood : checkText ⟨front ++ "/" ++ e⟩ = .ok () := by
      refine checkText_eq_ok_iff.mpr ⟨fun hz => h (hmem.mp hz), ?_, hfits⟩
      simp
    rw [hgood, if_neg h]
    show t.walk (t.origin _) _ = _
    rw [horigin, Path.pieces_slash, walk_append _ _ _ (Path.pieces_ne_nil _), hdir]
    rfl

/-- The working directory, as a path, leads to itself. -/
theorem find_here (t : FileTree) : t.find ⟨"."⟩ = .ok (t.workingDir, .directory) := by
  have hcheck : checkText ⟨"."⟩ = .ok () := checkText_eq_ok_iff.mpr (by decide)
  have hpieces : (Path.mk ".").pieces = ["."] := by decide
  have horigin : t.origin ⟨"."⟩ = t.workingDir := rfl
  unfold find
  rw [hcheck, hpieces, horigin]
  rfl

/-! ## The same part in two trees -/

/-- Without a step up, the same is found below both directories. -/
theorem walk_below (h : SameBelow t dir t' dir') {steps : List String} (hup : ".." ∉ steps)
    (q : Place) :
    (t.walk (dir ++ q) steps).map Prod.snd = (t'.walk (dir' ++ q) steps).map Prod.snd := by
  induction steps generalizing q with
  | nil => rfl
  | cons step steps ih =>
    rw [List.mem_cons, not_or] at hup
    have hnode := h (q ++ [step])
    rw [← List.append_assoc, ← List.append_assoc] at hnode
    rw [walk_cons, walk_cons, if_neg (Ne.symm hup.1), if_neg (Ne.symm hup.1), hnode]
    split
    · exact ih hup.2 q
    · split
      · rfl
      · cases t'.node (dir' ++ q ++ [step]) with
        | none => rfl
        | some node =>
          cases node with
          | directory =>
            have hnext := ih hup.2 (q ++ [step])
            rw [← List.append_assoc, ← List.append_assoc] at hnext
            exact hnext
          | file content =>
            cases steps.isEmpty <;> rfl
          | locked lock =>
            cases steps.isEmpty <;> rfl

/-- What is read at a path, and whether anything is there, only depends on the node found. -/
theorem read_congr {p p' : Path}
    (h : (t.find p).map Prod.snd = (t'.find p').map Prod.snd) :
    t.read p = t'.read p' ∧ t.has p = t'.has p' := by
  unfold read has
  cases hf : t.find p with
  | error fault =>
    cases hf' : t'.find p' with
    | error fault' =>
      rw [hf, hf'] at h
      cases h
      exact ⟨rfl, rfl⟩
    | ok found' =>
      rw [hf, hf'] at h
      cases h
  | ok found =>
    cases hf' : t'.find p' with
    | error fault' =>
      rw [hf, hf'] at h
      cases h
    | ok found' =>
      rw [hf, hf'] at h
      obtain ⟨place, node⟩ := found
      obtain ⟨place', node'⟩ := found'
      obtain rfl : node = node' := Except.ok.inj h
      refine ⟨?_, rfl⟩
      cases node <;> rfl

/-- Under two roots that hold the same, a path that stays below leads to the same text or to the same
fault. -/
theorem read_join {root root' : Path} (hroot : t.find root = .ok (dir, .directory))
    (hroot' : t'.find root' = .ok (dir', .directory)) (hsame : SameBelow t dir t' dir') {e : String}
    (he : Path.StaysBelow e) (hfits : Fits (root.join ⟨e⟩)) (hfits' : Fits (root'.join ⟨e⟩)) :
    t.read (root.join ⟨e⟩) = t'.read (root'.join ⟨e⟩) ∧
      t.has (root.join ⟨e⟩) = t'.has (root'.join ⟨e⟩) := by
  apply read_congr
  rw [find_join hroot he.relative hfits, find_join hroot' he.relative hfits']
  split
  · rfl
  · have hwalk := walk_below hsame he.up_not_mem []
    rwa [List.append_nil, List.append_nil] at hwalk

end FileTree

end DocCoverage
