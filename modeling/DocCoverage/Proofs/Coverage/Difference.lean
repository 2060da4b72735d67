import DocCoverage.Proofs.Coverage.Verdict
import DocCoverage.Proofs.Text.Order
import Mathlib.Data.Set.Basic

/-!
# What two sets of names do not share

Two sets of names fall into three parts: the names of both, and the names of either one that the other
one lacks.  The last two parts are lists, in the order of the bytes of the names.  They change places
with the sets, and a part that is missing from a set grows with this set and shrinks as the other one
grows.

    members s  =  members s ∩ members t  ⊍  the names of (s \ t).toList         (members_eq_union)
    declared  =  shared  ⊍  undocumented,  documented  =  shared  ⊍  undeclared
    undocumented = undeclared = []  ↔  declared = documented               (differences_partition)
-/

namespace DocCoverage

namespace SymbolSet

/-- The names of a set. -/
def members (s : SymbolSet) : Set String :=
  {x | x ∈ s}

/-- The names of a list come in the order of their bytes, and of their code points, each once. -/
structure IsAscending (names : List String) : Prop where
  bytes : names.Pairwise fun a b => Text.bytes a < Text.bytes b
  codePoints : names.Pairwise fun a b => Text.codePoints a < Text.codePoints b
  nodup : names.Nodup

/-- The names of a list are those of a set that another set lacks: with the names of both they make
up the set, and they are none of these. -/
structure IsRest (names : List String) (s t : SymbolSet) : Prop where
  union : s.members = s.members ∩ t.members ∪ {x | x ∈ names}
  disjoint : ∀ x ∈ names, x ∉ s.members ∩ t.members

theorem isAscending_toList (s : SymbolSet) : IsAscending s.toList where
  bytes := s.ascending.imp Text.bytes_lt_bytes_iff.mpr
  codePoints := s.ascending.imp Text.codePoints_lt_codePoints_iff.mpr
  nodup := by
    refine s.ascending.imp fun {a b} hlt heq => ?_
    rw [heq] at hlt
    exact String.lt_irrefl b hlt

theorem mem_toList_sdiff {s t : SymbolSet} {x : String} :
    x ∈ (s \ t).toList ↔ x ∈ s.members ∧ x ∉ t.members :=
  mem_sdiff

theorem isRest_sdiff (s t : SymbolSet) : IsRest (s \ t).toList s t where
  union := by
    ext x
    constructor
    · intro hs
      by_cases ht : x ∈ t.members
      · exact .inl ⟨hs, ht⟩
      · exact .inr (mem_toList_sdiff.mpr ⟨hs, ht⟩)
    · rintro (hboth | hrest)
      · exact hboth.1
      · exact (mem_toList_sdiff.mp hrest).1
  disjoint := by
    intro x hrest hboth
    exact (mem_toList_sdiff.mp hrest).2 hboth.2

/-- The rest of a set grows with the set and shrinks as the other set grows. -/
theorem sdiff_subset_sdiff {s t u v : SymbolSet} (hs : s.members ⊆ u.members)
    (ht : v.members ⊆ t.members) : (s \ t).members ⊆ (u \ v).members := by
  intro x hx
  obtain ⟨hmem, hnot⟩ := mem_toList_sdiff.mp hx
  exact mem_toList_sdiff.mpr ⟨hs hmem, fun h => hnot (ht h)⟩

theorem toList_sdiff_eq_nil_iff {s t : SymbolSet} :
    (s \ t).toList = [] ↔ s.members ⊆ t.members :=
  undocumented_eq_nil_iff

end SymbolSet

open SymbolSet in
/-- The undocumented and the undeclared names, for any two sets. -/
theorem differences_partition (declared documented : SymbolSet) :
    (∀ a b, Text.bytes a < Text.bytes b ↔ Text.codePoints a < Text.codePoints b) ∧
    IsAscending (undocumented declared documented) ∧
    IsAscending (undeclared declared documented) ∧
    List.Disjoint (undocumented declared documented) (undeclared declared documented) ∧
    IsRest (undocumented declared documented) declared documented ∧
    IsRest (undeclared declared documented) documented declared ∧
    (undocumented declared documented = [] ∧ undeclared declared documented = [] ↔
      declared = documented) ∧
    undeclared declared documented = undocumented documented declared ∧
    ∀ declared' documented', declared.members ⊆ declared'.members →
      documented'.members ⊆ documented.members →
      undocumented declared documented ⊆ undocumented declared' documented' := by
  refine ⟨?_, isAscending_toList _, isAscending_toList _, ?_, isRest_sdiff _ _, isRest_sdiff _ _,
    ?_, rfl, ?_⟩
  · intro a b
    rw [Text.bytes_lt_bytes_iff, Text.codePoints_lt_codePoints_iff]
  · intro x hx hx'
    exact (mem_toList_sdiff.mp hx').2 (mem_toList_sdiff.mp hx).1
  · constructor
    · rintro ⟨hleft, hright⟩
      have hsub := toList_sdiff_eq_nil_iff.mp hleft
      have hsub' := toList_sdiff_eq_nil_iff.mp hright
      exact ext_mem fun x => ⟨fun h => hsub h, fun h => hsub' h⟩
    · rintro rfl
      have hnil := toList_sdiff_eq_nil_iff.mpr (Set.Subset.refl declared.members)
      exact ⟨hnil, hnil⟩
  · intro declared' documented' hdeclared hdocumented
    exact sdiff_subset_sdiff hdeclared hdocumented

end DocCoverage
