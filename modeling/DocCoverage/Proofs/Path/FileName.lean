import DocCoverage.Proofs.Path.Parents

/-!
# The file name of a path

A path has a file name if its last step that leads anywhere does not lead up; then this step is the
name.  What stands before this step plays no part, so a path keeps its file name when it is joined to
another one.

    fileName? p = some name  ↔  lastStep? p = some name ≠ ".."             (fileName?_eq_some_iff)
    fileName? p = none  ↔  lastStep? p is none or ".."                     (fileName?_eq_none_iff)
    lastStep? (join base p) = lastStep? p,   for a relative p with a step          (lastStep?_join)
-/

namespace DocCoverage.Path

/-- The last step of a path that leads anywhere, which an empty step and `.` do not. -/
def lastStep? (p : Path) : Option String :=
  (p.pieces.filter fun step => !isIdle step).getLast?

/-- What a step means that leads somewhere. -/
def meaning (step : String) : Component :=
  if step = ".." then .up else .name step

theorem steps_eq_map (s : String) :
    steps s = ((Path.mk s).pieces.filter fun step => !isIdle step).map meaning := by
  unfold steps
  induction (Path.mk s).pieces with
  | nil => rfl
  | cons x xs ih =>
    by_cases h : isIdle x = true
    · have hnone : component? x = none := by simp [component?, h]
      rw [List.filterMap_cons_none hnone, List.filter_cons_of_neg (by simp [h]), ih]
    · have hsome : component? x = some (meaning x) := by
        unfold component? meaning
        rw [if_neg h]
        split
        · rfl
        · rfl
      rw [List.filterMap_cons_some hsome, List.filter_cons_of_pos (by simp [h]), List.map_cons, ih]

/-- A path ends in its last step, or in its anchor if it has no step. -/
theorem getLast?_components (p : Path) :
    p.components.getLast? = (p.lastStep?.map meaning).or p.split.1.components.getLast? := by
  rw [components_eq, List.getLast?_append, steps_eq_map, List.getLast?_map]
  rfl

theorem fileName?_eq (p : Path) :
    p.fileName? = p.lastStep?.bind fun step => if step = ".." then none else some step := by
  unfold fileName?
  rw [getLast?_components]
  cases p.lastStep? with
  | none =>
    -- an anchor is no name
    cases p.split.1 with
    | root => rfl
    | here => rfl
    | none => rfl
  | some step =>
    by_cases hup : step = ".."
    · simp [meaning, hup]
    · simp [meaning, hup]

theorem fileName?_eq_some_iff {p : Path} {name : String} :
    p.fileName? = some name ↔ p.lastStep? = some name ∧ name ≠ ".." := by
  rw [fileName?_eq, Option.bind_eq_some_iff]
  constructor
  · rintro ⟨step, hlast, hstep⟩
    split at hstep
    · cases hstep
    · next hup =>
      obtain rfl := Option.some.inj hstep
      exact ⟨hlast, hup⟩
  · rintro ⟨hlast, hup⟩
    exact ⟨name, hlast, if_neg hup⟩

theorem fileName?_eq_none_iff {p : Path} :
    p.fileName? = none ↔ p.lastStep? = none ∨ p.lastStep? = some ".." := by
  rw [fileName?_eq]
  cases p.lastStep? with
  | none => simp
  | some step => simp

/-- The last step is not changed by what stands before a slash. -/
theorem lastStep?_slash (front : String) {rest : String} (h : (Path.mk rest).lastStep? ≠ none) :
    (Path.mk (front ++ "/" ++ rest)).lastStep? = (Path.mk rest).lastStep? := by
  obtain ⟨step, hstep⟩ := Option.ne_none_iff_exists'.mp h
  rw [hstep]
  unfold lastStep? at hstep ⊢
  rw [pieces_slash, List.filter_append, List.getLast?_append, hstep]
  rfl

theorem lastStep?_join (base : Path) {p : Path} (hrel : p.isAbsolute = false)
    (h : p.lastStep? ≠ none) : (base.join p).lastStep? = p.lastStep? := by
  by_cases hbase : base.text = ""
  · obtain ⟨text⟩ := base
    obtain rfl : text = "" := hbase
    rw [join_empty_base]
  · obtain ⟨front, hjoin, -⟩ := join_eq_slash hbase hrel
    rw [hjoin]
    exact lastStep?_slash front h

theorem slash_not_mem_of_lastStep? {p : Path} {name : String} (h : p.lastStep? = some name) :
    '/' ∉ name.toList := by
  have hmem : name ∈ p.pieces.filter fun step => !isIdle step := List.mem_of_getLast? h
  exact slash_not_mem_of_mem_pieces (List.mem_filter.mp hmem).1

end DocCoverage.Path
