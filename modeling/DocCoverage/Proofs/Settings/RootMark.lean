import DocCoverage.Proofs.Path.Join
import DocCoverage.Settings.Load
import Mathlib.Data.List.Infix

/-!
# The mark of the root in configured paths

A configured path that refers to nothing is taken from the root, and so it should be when the mark
of the root is written in front of it.  But the mark only becomes the text of the root, and the
result, if it is relative, is taken from the root once more.

    resolve env root e            = join root e               for a plain `e`    (resolve_plain)
    resolve env root (mark / e)   = join root (root / e)      for a plain `e`    (resolve_rootMark)
    both mean the same  ↔  the root is absolute or means "here"
-/

namespace DocCoverage

/-! ## Texts that refer to nothing -/

theorem Text.substitute_of_not_infix {pattern s : List Char} (h : ¬ pattern <:+: s)
    (new : List Char) : Text.substitute pattern new s = s := by
  induction s with
  | nil => exact Text.substitute_nil pattern new
  | cons c s ih =>
    have hhere : ¬ pattern.isPrefixOf (c :: s) = true := by
      intro hp
      exact h (List.isPrefixOf_iff_prefix.mp hp).isInfix
    have hlater : ¬ pattern <:+: s := fun hi => h (hi.trans (List.suffix_cons c s).isInfix)
    rw [Text.substitute_cons_of_not_isPrefixOf new hhere, ih hlater]

namespace Template

theorem segments_of_not_mem {s : List Char} (h : '$' ∉ s) : segments s = s.map .char := by
  induction s with
  | nil => rfl
  | cons c s ih =>
    rw [List.mem_cons, not_or] at h
    rw [segments_cons (Ne.symm h.1), ih h.2, List.map_cons]

theorem mapM_fill_char (env : Environment) (s : List Char) :
    (s.map Segment.char).mapM (fill env) = .ok (s.map fun c => [c]) := by
  induction s with
  | nil => rfl
  | cons c s ih =>
    rw [List.map_cons, List.mapM_cons, ih]
    rfl

/-- A text that refers to nothing stays as it is. -/
theorem expand_plain (env : Environment) {s : List Char} (hdollar : '$' ∉ s)
    (hhome : s.head? ≠ some '~') : expand env s = .ok s := by
  have hflat : (s.map fun c => [c]).flatten = s := by
    rw [← List.flatMap_def, List.flatMap_singleton']
  unfold expand
  rw [segments_of_not_mem hdollar, mapM_fill_char]
  show Except.ok (if s.head? = some '~' then _ else (s.map fun c => [c]).flatten) = _
  rw [if_neg hhome, hflat]

/-- A text without the mark is a path from the root. -/
theorem resolve_plain (env : Environment) (root : Path) {e : String} (hdollar : '$' ∉ e.toList)
    (hmark : ¬ rootMark <:+: e.toList) (hhome : e.toList.head? ≠ some '~') :
    resolve env root e = .ok (root.join ⟨e⟩) := by
  unfold resolve
  rw [expand_plain env hdollar hhome]
  show Except.ok (root.join ⟨String.ofList (Text.substitute rootMark _ e.toList)⟩) = _
  rw [Text.substitute_of_not_infix hmark, String.ofList_toList]

/-- A mark at the front becomes the text of the root, and the whole is a path from the root. -/
theorem resolve_rootMark (env : Environment) (root : Path) {e : String}
    (hdollar : '$' ∉ e.toList) (hmark : ¬ rootMark <:+: e.toList) :
    resolve env root (String.ofList rootMark ++ "/" ++ e) =
      .ok (root.join ⟨root.text ++ "/" ++ e⟩) := by
  have htext : (String.ofList rootMark ++ "/" ++ e).toList = rootMark ++ '/' :: e.toList := by
    rw [String.toList_append, String.toList_append, String.toList_ofList, List.append_assoc]
    rfl
  have hdollar' : '$' ∉ rootMark ++ '/' :: e.toList := by
    rw [List.mem_append, List.mem_cons]
    rintro (h | h | h)
    · revert h
      decide
    · revert h
      decide
    · exact hdollar h
  -- the mark starts with a brace, so a slash in front makes no new one
  have hmark' : ¬ rootMark <:+: '/' :: e.toList := by
    rw [List.infix_cons_iff]
    rintro (⟨after, h⟩ | h)
    · cases h
    · exact hmark h
  have hhome : (rootMark ++ '/' :: e.toList).head? ≠ some '~' := by
    intro h
    cases h
  unfold resolve
  rw [htext, expand_plain env hdollar' hhome]
  show Except.ok (root.join ⟨String.ofList (Text.substitute rootMark _ _)⟩) = _
  rw [Text.substitute_append (by decide), Text.substitute_of_not_infix hmark']
  refine congrArg (fun text => Except.ok (root.join ⟨text⟩)) ?_
  apply String.toList_injective
  rw [String.toList_ofList, String.toList_append, String.toList_append, List.append_assoc]
  rfl

end Template

namespace Settings

/-- An entry with the mark of the root in front and the same entry without it lead to the same
components exactly when the root is absolute or means "here"; a relative root with steps is taken
twice. -/
theorem resolveEntry_rootMark_iff (env : Environment) (root : Path) {e : String}
    (hdollar : '$' ∉ e.toList) (hmark : ¬ Template.rootMark <:+: e.toList)
    (hhome : e.toList.head? ≠ some '~') (hrelative : (Path.mk e).isAbsolute = false) :
    ∃ marked plain,
      resolveEntry env root (String.ofList Template.rootMark ++ "/" ++ e) = .ok marked ∧
      resolveEntry env root e = .ok plain ∧
      (marked.components = plain.components ↔
        root.isAbsolute = true ∨ root.components = [.here]) := by
  refine ⟨root.join ⟨root.text ++ "/" ++ e⟩, root.join ⟨e⟩, ?_, ?_, ?_⟩
  · unfold resolveEntry
    rw [Template.resolve_rootMark env root hdollar hmark]
  · unfold resolveEntry
    rw [Template.resolve_plain env root hdollar hmark hhome]
  · exact Path.components_join_self_iff root hrelative

/-- The entry for the trail file under the root `../ternary`. -/
theorem resolveEntry_trail_file :
    ∃ marked plain,
      resolveEntry [] ⟨"../ternary"⟩
        (String.ofList Template.rootMark ++ "/" ++ "target/helper-docs.log") = .ok marked ∧
      resolveEntry [] ⟨"../ternary"⟩ "target/helper-docs.log" = .ok plain ∧
      marked.components ≠ plain.components := by
  obtain ⟨marked, plain, hmarked, hplain, hiff⟩ :=
    resolveEntry_rootMark_iff [] ⟨"../ternary"⟩ (e := "target/helper-docs.log") (by decide)
      (by decide) (by decide) (by decide)
  refine ⟨marked, plain, hmarked, hplain, fun h => ?_⟩
  have hroot := hiff.mp h
  revert hroot
  decide +kernel

/-- Under the root `proj` the mark leads to a directory `proj` within it. -/
theorem resolveEntry_rootMark_twice :
    resolveEntry [] ⟨"proj"⟩ (String.ofList Template.rootMark ++ "/" ++ "README.md") =
      .ok ⟨"proj/proj/README.md"⟩ ∧
    resolveEntry [] ⟨"proj"⟩ "README.md" = .ok ⟨"proj/README.md"⟩ ∧
    (Path.mk "proj/proj/README.md").components ≠ (Path.mk "proj/README.md").components := by
  refine ⟨?_, ?_, ?_⟩
  · decide +kernel
  · decide +kernel
  · decide +kernel

end Settings

end DocCoverage
