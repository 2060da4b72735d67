import DocCoverage.Proofs.Path.FileName
import DocCoverage.Report
import Mathlib.Data.List.Forall2

/-!
# How the hint calls the documents

The hint calls a document by the last step of its location, which holds no slash, or by the whole
location if there is no such step or it leads up.  So it calls the documents of a project in the same
way wherever the root of the project is, and each of them regardless of the others.

    shortName location = name,   name ≠ ".." the last step of the location     (shortName_of_lastStep?)
    shortName (join root p) = shortName p   for a relative p with a name       (shortName_join)
    targets = the short names, in order and with slashes between them          (targets_eq)
-/

namespace DocCoverage.Report

variable {root p : Path} {name location : String}

theorem shortName_of_lastStep? (h : p.lastStep? = some name) (hup : name ≠ "..") :
    shortName p.text = name := by
  unfold shortName
  rw [Path.fileName?_eq_some_iff.mpr ⟨h, hup⟩]
  rfl

theorem shortName_whole
    (h : (Path.mk location).lastStep? = none ∨ (Path.mk location).lastStep? = some "..") :
    shortName location = location := by
  unfold shortName
  rw [Path.fileName?_eq_none_iff.mpr h]
  rfl

/-- A document below a root is called as it is without the root. -/
theorem shortName_join (hrel : p.isAbsolute = false) (h : p.lastStep? = some name)
    (hup : name ≠ "..") : shortName (root.join p).text = name := by
  refine shortName_of_lastStep? ?_ hup
  rw [Path.lastStep?_join root hrel (by rw [h]; exact Option.some_ne_none name), h]

theorem targets_eq {documentation : List String} (hne : documentation ≠ []) :
    targets documentation = String.intercalate "/" (documentation.map shortName) := by
  unfold targets
  rw [if_neg (by rwa [List.isEmpty_iff])]

/-- The hint for documents below a root calls them by their last steps, which hold no slash, and it
calls them so without the root.  Whatever else is documented, before or after it, a location without a
last step, or with one that leads up, is shown whole. -/
theorem targets_join (root : Path) {paths : List Path} (hne : paths ≠ [])
    (hrel : ∀ p ∈ paths, p.isAbsolute = false)
    (hnamed : ∀ p ∈ paths, ∃ name, p.lastStep? = some name ∧ name ≠ "..") :
    targets (paths.map fun p => (root.join p).text) = targets (paths.map Path.text) ∧
    (∃ names, targets (paths.map Path.text) = String.intercalate "/" names ∧
      List.Forall₂ (fun p name => p.lastStep? = some name ∧ '/' ∉ name.toList ∧
        shortName p.text = name ∧ shortName (root.join p).text = name) paths names) ∧
    ∀ before location after,
      (Path.mk location).lastStep? = none ∨ (Path.mk location).lastStep? = some ".." →
      targets (before ++ location :: after) =
        String.intercalate "/" (before.map shortName ++ location :: after.map shortName) := by
  have hshort : ∀ p ∈ paths, shortName (root.join p).text = shortName p.text := by
    intro p hp
    obtain ⟨name, hlast, hup⟩ := hnamed p hp
    rw [shortName_join (hrel p hp) hlast hup, shortName_of_lastStep? hlast hup]
  have hmap : (paths.map fun p => (root.join p).text).map shortName =
      (paths.map Path.text).map shortName := by
    rw [List.map_map, List.map_map]
    apply List.map_congr_left
    intro p hp
    rw [Function.comp_apply, Function.comp_apply, hshort p hp]
  refine ⟨?_, ⟨(paths.map Path.text).map shortName, targets_eq (by simpa using hne), ?_⟩, ?_⟩
  · rw [targets_eq (by simpa using hne), targets_eq (by simpa using hne), hmap]
  · rw [List.map_map, List.forall₂_map_right_iff, List.forall₂_same]
    intro p hp
    obtain ⟨name, hlast, hup⟩ := hnamed p hp
    have hname : shortName p.text = name := shortName_of_lastStep? hlast hup
    refine ⟨?_, ?_, rfl, hshort p hp⟩
    · rw [hlast]
      exact congrArg some hname.symm
    · show '/' ∉ (shortName p.text).toList
      rw [hname]
      exact Path.slash_not_mem_of_lastStep? hlast
  · intro before location after hwhole
    rw [targets_eq (by simp), List.map_append, List.map_cons, shortName_whole hwhole]

/-- Documents with slashes and dots before and after their names. -/
def dottedPaths : List Path :=
  [⟨"docs//./SPEC.md/."⟩, ⟨"./read me.md//"⟩]

/-- Below a root that is a slash, and among locations that lead up or nowhere. -/
theorem targets_dottedPaths :
    (∀ p ∈ dottedPaths, p.isAbsolute = false) ∧
    (∀ p ∈ dottedPaths, ∃ name, p.lastStep? = some name ∧ name ≠ "..") ∧
    targets (dottedPaths.map fun p => ((Path.mk "/").join p).text) = "SPEC.md/read me.md" ∧
    targets ["/docs//./SPEC.md/.", "docs/..", "/./"] = "SPEC.md/docs/..//./" := by
  have hrel : ∀ p ∈ dottedPaths, p.isAbsolute = false := by decide
  have hnamed : ∀ p ∈ dottedPaths, ∃ name, p.lastStep? = some name ∧ name ≠ ".." := by
    refine List.forall_mem_cons.mpr ⟨?_, List.forall_mem_cons.mpr ⟨?_, nofun⟩⟩
    · exact ⟨"SPEC.md", by decide +kernel, by decide⟩
    · exact ⟨"read me.md", by decide +kernel, by decide⟩
  obtain ⟨hjoin, -, hwhole⟩ := targets_join ⟨"/"⟩ (List.cons_ne_nil _ _) hrel hnamed
  refine ⟨hrel, hnamed, hjoin.trans (by decide +kernel), ?_⟩
  have hup : (Path.mk "docs/..").lastStep? = some ".." := by decide +kernel
  exact (hwhole ["/docs//./SPEC.md/."] "docs/.." ["/./"] (.inr hup)).trans (by decide +kernel)

end DocCoverage.Report
