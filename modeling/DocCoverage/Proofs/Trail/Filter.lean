import DocCoverage.Trail.Filter

/-!
# What a filter shows

A filter text stands in the place of the configured level, it does not add to it.  Without directives
the level decides about every event.  With directives the level has no say any more, and if all of
them speak about other programs, nothing is shown.

    no directive                →  shown  ↔  the level lets the severity through    (shows_of_no_part)
    only directives for others  →  nothing is shown                                 (shows_of_foreign)
-/

namespace DocCoverage

namespace Directive

/-- A directive about events whose origin is no part of this program. -/
def IsForeign (d : Directive) : Prop :=
  ∃ target, d.target = some target ∧ ∀ e : Event, ¬ target.toList <+: e.origin.toList

theorem IsForeign.covers {d : Directive} (h : d.IsForeign) (e : Event) : d.covers e = false := by
  obtain ⟨target, htarget, hnone⟩ := h
  have hprefix : target.toList.isPrefixOf e.origin.toList = false := by
    rw [← Bool.not_eq_true, List.isPrefixOf_iff_prefix]
    exact hnone e
  unfold Directive.covers
  rw [htarget, Option.all_some, hprefix, Bool.and_false, Bool.false_and]

end Directive

namespace Filter

theorem shows_of_not_covered {f : Filter} {e : Event}
    (h : ∀ d ∈ f.directives, d.covers e = false) : f.shows e = false := by
  have hnone : f.directives.filter (·.covers e) = [] := by
    rw [List.filter_eq_nil_iff]
    intro d hd
    rw [h d hd]
    exact Bool.false_ne_true
  simp only [shows, decider?, hnone, List.foldl_nil]

section
variable {text : String} (level : Threshold) (e : Event)

/-- A text without parts leaves the decision to the level. -/
theorem ofText_of_no_part (h : parts text = []) : ofText text level = ⟨[.everywhere level]⟩ := by
  have hnone : directivesOf text = [] := by
    unfold directivesOf
    rw [h, List.filterMap_nil]
  unfold ofText
  rw [hnone]
  rfl

theorem shows_of_no_part (h : parts text = []) :
    (ofText text level).shows e = level.admits e.severity := by
  rw [ofText_of_no_part level h]
  rfl

/-- All parts of a text are directives about others. -/
def IsForeign (text : String) : Prop :=
  ∀ part ∈ parts text, ∃ d, Directive.read part = .ok d ∧ d.IsForeign

/-- Directives about others leave nothing to the level, which is not looked at any more. -/
theorem shows_of_foreign (h : IsForeign text) (hpart : parts text ≠ []) :
    (ofText text level).shows e = false := by
  have hsome : directivesOf text ≠ [] := by
    obtain ⟨part, hmem⟩ := List.exists_mem_of_ne_nil _ hpart
    obtain ⟨d, hread, -⟩ := h part hmem
    refine List.ne_nil_of_mem (a := d) (List.mem_filterMap.mpr ⟨part, hmem, ?_⟩)
    rw [hread]
    rfl
  unfold ofText
  rw [List.isEmpty_eq_false_iff.mpr hsome]
  refine shows_of_not_covered fun d hd => ?_
  obtain ⟨part, hmem, hoption⟩ := List.mem_filterMap.mp hd
  obtain ⟨d', hread, hforeign⟩ := h part hmem
  rw [hread] at hoption
  obtain rfl : d' = d := Option.some.inj hoption
  exact hforeign.covers e

theorem notices_of_foreign (h : IsForeign text) : notices text = [] := by
  unfold notices
  rw [List.filterMap_eq_nil_iff]
  intro part hmem
  obtain ⟨d, hread, -⟩ := h part hmem
  simp only [notice?, hread]

end

end Filter

end DocCoverage
