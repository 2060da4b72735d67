import DocCoverage.Proofs.Settings.FirstFault
import DocCoverage.Proofs.Settings.Relocation

/-!
# Finding and reading the config file

Whether a config file is there is asked before it is read.  Both follow the path in the same way, so a
file is missing exactly if the path leads nowhere.  What it leads to may have no text all the same: a
directory, a file of bytes that are not text, a locked file.  Such a file is there, and reading it is
what fails.

    read p = error fault  ↔  the path leads nowhere, or to something without a text   (read_eq_error_iff)
    load (some p) = missing q  ↔  q = p, and nothing is there                       (load_eq_missing_iff)
    load (some p) = unreadable q fault  ↔  q = p, something is there, and reading it has this fault
                                                                                 (load_eq_unreadable_iff)
    load none = built in          if the file under the root is missing                  (load_discovery)
    load none = load (some file)  otherwise, file the one under the root
-/

namespace DocCoverage

/-- Faults of the way that a path takes, or of a locked file. -/
def Fault.IsOfWay (fault : Fault) : Prop :=
  fault ≠ .isDirectory ∧ fault ≠ .notText

instance (fault : Fault) : Decidable fault.IsOfWay :=
  inferInstanceAs (Decidable (_ ∧ _))

theorem Lock.isOfWay_fault (lock : Lock) : lock.fault.IsOfWay := by
  cases lock <;> decide

theorem Fault.message_injective {fault fault' : Fault} (h : fault.message = fault'.message) :
    fault = fault' := by
  cases fault <;> cases fault' <;> first | rfl | simp [message] at h

/-- The cause why a file has no text shows the fault. -/
theorem SourceError.ofFault_injective {location : String} {fault fault' : Fault}
    (h : ofFault location fault = ofFault location fault') : fault = fault' := by
  unfold ofFault at h
  by_cases hfault : fault = .notFound
  · by_cases hfault' : fault' = .notFound
    · rw [hfault, hfault']
    · rw [if_pos hfault, if_neg hfault'] at h
      cases h
  · by_cases hfault' : fault' = .notFound
    · rw [if_neg hfault, if_pos hfault'] at h
      cases h
    · rw [if_neg hfault, if_neg hfault'] at h
      exact Fault.message_injective (SourceError.unreadable.inj h).2

namespace FileTree

variable {t : FileTree} {p : Path} {fault : Fault}

/-- A path leads to a file that is not text. -/
def IsBinary (t : FileTree) (p : Path) : Prop :=
  ∃ place content, t.find p = .ok (place, .file content) ∧ ¬ content.IsValidUTF8

def IsLocked (t : FileTree) (p : Path) (lock : Lock) : Prop :=
  ∃ place, t.find p = .ok (place, .locked lock)

/-- A path leads to something that has no text, and so reading it has a fault. -/
inductive LacksText (t : FileTree) (p : Path) : Fault → Prop
  | directory (h : t.isDir p = true) : LacksText t p .isDirectory
  | binary (h : t.IsBinary p) : LacksText t p .notText
  | locked {lock : Lock} (h : t.IsLocked p lock) : LacksText t p lock.fault

/-! ## Faults of the way -/

theorem isOfWay_of_walk {dir : Place} {steps : List String}
    (h : t.walk dir steps = .error fault) : fault.IsOfWay := by
  induction steps generalizing dir with
  | nil => cases h
  | cons step steps ih =>
    rw [walk_cons] at h
    split at h
    · exact ih h
    · split at h
      · exact ih h
      · split at h
        · cases h
          decide
        · split at h
          · cases h
            decide
          · exact ih h
          · split at h
            · cases h
            · cases h
              decide

theorem isOfWay_of_checkText (h : checkText p = .error fault) : fault.IsOfWay := by
  unfold checkText at h
  split at h
  · cases h
    decide
  · split at h
    · cases h
      decide
    · split at h
      · cases h
        decide
      · cases h

theorem isOfWay_of_find (h : t.find p = .error fault) : fault.IsOfWay := by
  unfold find at h
  cases hcheck : checkText p with
  | error fault' =>
    rw [hcheck] at h
    cases h
    exact isOfWay_of_checkText hcheck
  | ok u =>
    rw [hcheck] at h
    exact isOfWay_of_walk h

/-- What has no text is there. -/
theorem LacksText.has (h : LacksText t p fault) : t.has p = true := by
  unfold FileTree.has
  cases h with
  | directory h =>
    unfold isDir at h
    split at h
    · next hfind => rw [hfind]
    · cases h
  | binary h =>
    obtain ⟨place, content, hfind, -⟩ := h
    rw [hfind]
  | locked h =>
    obtain ⟨place, hfind⟩ := h
    rw [hfind]

theorem exists_lacksText_iff :
    (∃ fault, t.LacksText p fault) ↔
      t.isDir p = true ∨ t.IsBinary p ∨ ∃ lock, t.IsLocked p lock := by
  constructor
  · rintro ⟨fault, h⟩
    cases h with
    | directory h => exact .inl h
    | binary h => exact .inr (.inl h)
    | locked h => exact .inr (.inr ⟨_, h⟩)
  · rintro (h | h | ⟨lock, h⟩)
    · exact ⟨_, .directory h⟩
    · exact ⟨_, .binary h⟩
    · exact ⟨_, .locked h⟩

theorem has_eq_false_iff : t.has p = false ↔ ∃ fault, t.find p = .error fault := by
  unfold has
  cases t.find p <;> simp

/-- Reading fails on the way, or because of what the path leads to. -/
theorem read_eq_error_iff :
    t.read p = .error fault ↔ t.find p = .error fault ∨ t.LacksText p fault := by
  constructor
  · intro h
    unfold read at h
    split at h
    · next hfind =>
      cases h
      exact .inl hfind
    · next hfind =>
      cases h
      exact .inr (.directory (by rw [isDir, hfind]))
    · next place content hfind =>
      split at h
      · cases h
      · next htext =>
        cases h
        exact .inr (.binary ⟨place, content, hfind, Text.fromUTF8?_eq_none_iff.mp htext⟩)
    · next place lock hfind =>
      cases h
      exact .inr (.locked ⟨place, hfind⟩)
  · rintro (hfind | h)
    · rw [read, hfind]
    · cases h with
      | directory h =>
        unfold isDir at h
        split at h
        · next hfind => rw [read, hfind]
        · cases h
      | binary h =>
        obtain ⟨place, content, hfind, hvalid⟩ := h
        rw [read, hfind]
        simp only [Text.fromUTF8?_eq_none_iff.mpr hvalid]
      | locked h =>
        obtain ⟨place, hfind⟩ := h
        rw [read, hfind]

theorem read_eq_isDirectory_iff : t.read p = .error .isDirectory ↔ t.isDir p = true := by
  rw [read_eq_error_iff]
  constructor
  · rintro (h | h)
    · exact absurd rfl (isOfWay_of_find h).1
    · generalize hfault : Fault.isDirectory = fault at h
      cases h with
      | directory h => exact h
      | binary h => cases hfault
      | @locked lock h => exact absurd hfault.symm lock.isOfWay_fault.1
  · exact fun h => .inr (.directory h)

theorem read_eq_notText_iff : t.read p = .error .notText ↔ t.IsBinary p := by
  rw [read_eq_error_iff]
  constructor
  · rintro (h | h)
    · exact absurd rfl (isOfWay_of_find h).2
    · generalize hfault : Fault.notText = fault at h
      cases h with
      | directory h => cases hfault
      | binary h => exact h
      | @locked lock h => exact absurd hfault.symm lock.isOfWay_fault.2
  · exact fun h => .inr (.binary h)

/-- Nothing is there exactly if reading fails, but not for want of a text. -/
theorem has_eq_false_iff_read :
    t.has p = false ↔
      (∃ fault, t.read p = .error fault) ∧ ¬ ∃ fault, t.LacksText p fault := by
  constructor
  · intro h
    obtain ⟨fault, hfind⟩ := has_eq_false_iff.mp h
    refine ⟨⟨fault, read_eq_error_iff.mpr (.inl hfind)⟩, ?_⟩
    rintro ⟨fault', hlacks⟩
    rw [hlacks.has] at h
    cases h
  · rintro ⟨⟨fault, hread⟩, hlacks⟩
    rcases read_eq_error_iff.mp hread with hfind | hfault
    · exact has_eq_false_iff.mpr ⟨fault, hfind⟩
    · exact absurd ⟨fault, hfault⟩ hlacks

end FileTree

namespace Source

variable {t : FileTree} {p : Path}

theorem content_file_eq_ok_iff {text : String} :
    (Source.file p).content t = .ok text ↔ t.read p = .ok text := by
  rw [content_file]
  cases t.read p <;> simp [Except.mapError]

theorem content_file_eq_ofFault_iff {fault : Fault} :
    (Source.file p).content t = .error (.ofFault p.text fault) ↔ t.read p = .error fault := by
  rw [content_file]
  cases t.read p with
  | ok text => simp [Except.mapError]
  | error fault' =>
    simp only [Except.mapError, Except.error.injEq]
    exact ⟨SourceError.ofFault_injective, congrArg _⟩

theorem exists_content_file_eq_error_iff :
    (∃ e, (Source.file p).content t = .error e) ↔ ∃ fault, t.read p = .error fault := by
  rw [content_file]
  cases t.read p <;> simp [Except.mapError]

end Source

namespace Settings

variable {t : FileTree} {env : Environment} {root p : Path}

/-! ## An explicit config file -/

theorem load_of_not_has (h : t.has p = false) :
    load t env (some p) root = .error (.missing p) := by
  show (if t.has p then readFile t env root p else .error (.missing p)) = _
  rw [if_neg (Bool.not_eq_true _ ▸ h)]

theorem load_of_lacksText {fault : Fault} (h : t.LacksText p fault) :
    load t env (some p) root = .error (.unreadable p fault) := by
  show (if t.has p then readFile t env root p else .error (.missing p)) = _
  rw [if_pos h.has, readFile, FileTree.read_eq_error_iff.mpr (.inr h)]

/-- A file that is read is neither missing nor unreadable, and settings name it. -/
theorem load_of_read_eq_ok {text : String} (h : t.read p = .ok text) :
    (∀ q, load t env (some p) root ≠ .error (.missing q)) ∧
      (∀ q fault, load t env (some p) root ≠ .error (.unreadable q fault)) ∧
      ∀ s, load t env (some p) root = .ok s → s.source = some p := by
  have hread : t.read ((some p).getD (root.join ⟨fileName⟩)) = .ok text := h
  have hloads : ∀ r, load t env (some p) root = r ↔ Loads env root p text r :=
    fun r => load_eq_iff hread
  simp only [ne_eq, hloads]
  refine ⟨nofun, nofun, fun s hs => ?_⟩
  cases hs with
  | settings _ _ _ _ hdescribes => exact hdescribes.source_eq

/-- An explicit file is missing, or it has no text, or it is read. -/
theorem read_cases (t : FileTree) (p : Path) :
    t.has p = false ∨ (∃ fault, t.LacksText p fault) ∨ ∃ text, t.read p = .ok text := by
  cases hread : t.read p with
  | ok text => exact .inr (.inr ⟨text, rfl⟩)
  | error fault =>
    rcases FileTree.read_eq_error_iff.mp hread with hfind | hlacks
    · exact .inl (FileTree.has_eq_false_iff.mpr ⟨fault, hfind⟩)
    · exact .inr (.inl ⟨fault, hlacks⟩)

theorem load_eq_missing_iff {q : Path} :
    load t env (some p) root = .error (.missing q) ↔ q = p ∧ t.has p = false := by
  constructor
  · intro h
    rcases read_cases t p with hhas | ⟨fault, hlacks⟩ | ⟨text, hread⟩
    · rw [load_of_not_has hhas] at h
      cases h
      exact ⟨rfl, hhas⟩
    · rw [load_of_lacksText hlacks] at h
      cases h
    · exact absurd h ((load_of_read_eq_ok hread).1 q)
  · rintro ⟨rfl, hhas⟩
    exact load_of_not_has hhas

theorem load_eq_unreadable_iff {q : Path} {fault : Fault} :
    load t env (some p) root = .error (.unreadable q fault) ↔ q = p ∧ t.LacksText p fault := by
  constructor
  · intro h
    rcases read_cases t p with hhas | ⟨fault', hlacks⟩ | ⟨text, hread⟩
    · rw [load_of_not_has hhas] at h
      cases h
    · rw [load_of_lacksText hlacks] at h
      cases h
      exact ⟨rfl, hlacks⟩
    · exact absurd h ((load_of_read_eq_ok hread).2.1 q fault)
  · rintro ⟨rfl, hlacks⟩
    exact load_of_lacksText hlacks

theorem source_eq_of_load {s : Settings} (h : load t env (some p) root = .ok s) :
    s.source = some p := by
  rcases read_cases t p with hhas | ⟨fault, hlacks⟩ | ⟨text, hread⟩
  · rw [load_of_not_has hhas] at h
    cases h
  · rw [load_of_lacksText hlacks] at h
    cases h
  · exact (load_of_read_eq_ok hread).2.2 s h

/-! ## No explicit config file -/

/-- The config file that is looked for under a root. -/
def fileUnder (root : Path) : Path :=
  root.join ⟨fileName⟩

theorem load_none_of_has (h : t.has (fileUnder root) = true) :
    load t env none root = load t env (some (fileUnder root)) root := by
  show (if t.has (fileUnder root) then _ else _) = if t.has (fileUnder root) then _ else _
  rw [if_pos h, if_pos h]
  rfl

theorem load_none_of_not_has (h : t.has (fileUnder root) = false) :
    load t env none root = .ok (builtIn root) := by
  show (if t.has (fileUnder root) then _ else _) = _
  rw [if_neg (Bool.not_eq_true _ ▸ h)]

/-- A path through a file fails to be read, but as a config file it is missing. -/
example :
    (Source.file ⟨"p/helper-docs.toml/x"⟩).content (treeOf "") =
      .error (.unreadable "p/helper-docs.toml/x" "Not a directory (os error 20)") ∧
    load (treeOf "") [] (some ⟨"p/helper-docs.toml/x"⟩) ⟨"p"⟩ =
      .error (.missing ⟨"p/helper-docs.toml/x"⟩) := by
  decide +kernel

/-- A tree with the memory of a process, a file that cannot be read from its start. -/
def memoryTree : FileTree :=
  (FileTree.bare ["w"]).plant ⟨"/proc/self/mem"⟩ (.locked .device)

end Settings

end DocCoverage
