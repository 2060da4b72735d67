import DocCoverage.Proofs.Path.Join

/-!
# The directories around a path

The directories around a path are written out anew, from its anchor and its first steps.  Cut again,
each of them means what these steps mean, so it is the beginning of the path itself.

    pieces of "a/b/c"   = ["a", "b", "c"],   no slash within a piece              (pieces_intercalate)
    components (render anchor steps)   = components anchor ++ what the steps mean  (components_render)
    around ∈ parents p  →  components around begin components p                  (prefix_of_mem_parents)
-/

namespace DocCoverage

namespace Path

/-! ## Cutting what was put together -/

/-- Cutting at slashes leaves none. -/
theorem slash_not_mem_of_mem_splitOn {l piece : List Char} (h : piece ∈ l.splitOn '/') :
    '/' ∉ piece := by
  induction l generalizing piece with
  | nil =>
    rw [List.splitOn_nil, List.mem_singleton] at h
    rw [h]
    exact List.not_mem_nil
  | cons c l ih =>
    rw [List.splitOn_cons_eq_if_modifyHead] at h
    split at h
    · rcases List.mem_cons.mp h with rfl | h
      · exact List.not_mem_nil
      · exact ih h
    · next hc =>
      obtain ⟨first, rest, hl⟩ := List.exists_cons_of_ne_nil (List.splitOn_ne_nil '/' l)
      rw [hl, List.modifyHead_cons] at h
      rcases List.mem_cons.mp h with rfl | h
      · have hfirst : '/' ∉ first := ih (hl ▸ List.mem_cons_self)
        rintro (_ | ⟨_, hmem⟩)
        · exact hc (beq_self_eq_true '/')
        · exact hfirst hmem
      · exact ih (hl ▸ List.mem_cons_of_mem first h)

theorem slash_not_mem_of_mem_pieces {p : Path} {piece : String} (h : piece ∈ p.pieces) :
    '/' ∉ piece.toList := by
  obtain ⟨l, hl, rfl⟩ := List.mem_map.mp h
  rw [String.toList_ofList]
  exact slash_not_mem_of_mem_splitOn hl

theorem pieces_intercalate {xs : List String} (hne : xs ≠ [])
    (hslash : ∀ x ∈ xs, '/' ∉ x.toList) :
    (Path.mk (String.intercalate "/" xs)).pieces = xs := by
  have hcut : (['/'].intercalate (xs.map String.toList)).splitOn '/' = xs.map String.toList := by
    apply List.splitOn_intercalate
    · intro l hl
      obtain ⟨x, hx, rfl⟩ := List.mem_map.mp hl
      exact hslash x hx
    · rwa [Ne, List.map_eq_nil_iff]
  unfold pieces
  rw [String.toList_intercalate]
  show ((['/'].intercalate (xs.map String.toList)).splitOn '/').map String.ofList = xs
  rw [hcut, List.map_map]
  exact (List.map_congr_left fun x _ => String.ofList_toList).trans (List.map_id xs)

/-- Without any piece there are no steps either. -/
theorem steps_intercalate {xs : List String} (hslash : ∀ x ∈ xs, '/' ∉ x.toList) :
    steps (String.intercalate "/" xs) = xs.filterMap component? := by
  cases xs with
  | nil => rfl
  | cons x xs =>
    unfold steps
    rw [pieces_intercalate (List.cons_ne_nil x xs) hslash]

/-! ## Going back -/

/-- What remains of the steps, given from the last to the first, is the end of them. -/
theorem suffix_of_mem_retreats {steps back : List String} (h : back ∈ retreats steps) :
    back <:+ steps := by
  induction steps with
  | nil => cases h
  | cons step before ih =>
    unfold retreats at h
    split at h
    · exact (ih h).trans (List.suffix_cons step before)
    · rcases List.mem_cons.mp h with rfl | h
      · exact (List.dropWhile_suffix _).trans (List.suffix_cons step before)
      · exact (ih h).trans (List.suffix_cons step before)

theorem steps_subset_pieces {p : Path} {step : String} (h : step ∈ p.split.2) : step ∈ p.pieces := by
  rcases p.split_cases with ⟨rest, -, hp, hs⟩ | ⟨rest, hp, hs⟩ | ⟨first, rest, hp, -, -, hs⟩
  · rw [hs] at h
    exact hp ▸ List.mem_cons_of_mem "" h
  · rw [hs] at h
    exact hp ▸ List.mem_cons_of_mem "." h
  · rw [hs] at h
    exact hp ▸ h

/-- The first steps of a path, written after its anchor, mean what they mean in the path. -/
theorem components_render {p : Path} {xs : List String} (hxs : xs <+: p.split.2) :
    (render p.split.1 xs).components = p.split.1.components ++ xs.filterMap component? := by
  have hslash : ∀ x ∈ xs, '/' ∉ x.toList := fun x hx =>
    slash_not_mem_of_mem_pieces (steps_subset_pieces (hxs.subset hx))
  rcases p.split_cases with ⟨rest, -, -, hs⟩ | ⟨rest, -, hs⟩ | ⟨first, rest, hp, -, hempty, hs⟩
  · rw [hs]
    show (Path.mk ("" ++ "/" ++ String.intercalate "/" xs)).components = _
    rw [components_eq, anchor_slash "" _ "", steps_slash, steps_intercalate hslash]
    rfl
  · rw [hs]
    cases xs with
    | nil =>
      show (Path.mk ".").components = [.here]
      decide
    | cons x xs =>
      show (Path.mk ("." ++ "/" ++ String.intercalate "/" (x :: xs))).components = _
      rw [components_slash (by decide), steps_intercalate hslash]
      rfl
  · rw [hs] at hxs ⊢
    show (Path.mk (String.intercalate "/" xs)).components = _
    rw [components_eq, steps_intercalate hslash]
    cases xs with
    | nil => rfl
    | cons x xs =>
      -- the first piece is not taken for an anchor
      obtain ⟨rfl, hprefix⟩ := List.cons_prefix_cons.mp hxs
      have hrest : x = "" → rest = [] := by
        intro hx
        obtain ⟨text⟩ := p
        obtain rfl : text = "" := hempty hx
        exact (List.cons.inj hp).2.symm
      have hanchor : (Path.mk (String.intercalate "/" (x :: xs))).split.1 = p.split.1 := by
        refine anchor_congr (pieces_intercalate (List.cons_ne_nil x xs) hslash) hp fun hx => ?_
        rw [hrest hx] at hprefix ⊢
        rw [List.prefix_nil.mp hprefix]
      rw [hanchor, hs]

/-- The directories around a path are beginnings of it. -/
theorem prefix_of_mem_parents {p around : Path} (h : around ∈ p.parents) :
    around.components <+: p.components := by
  rcases List.mem_append.mp h with h | h
  · obtain ⟨back, hback, rfl⟩ := List.mem_map.mp h
    have hsteps : back.reverse <+: p.split.2 := by
      rw [← List.reverse_suffix, List.reverse_reverse]
      exact suffix_of_mem_retreats hback
    rw [components_render hsteps]
    exact (List.prefix_append_right_inj _).mpr (hsteps.filterMap component?)
  · split at h
    · rw [List.mem_singleton.mp h]
      exact List.nil_prefix
    · cases h

end Path

end DocCoverage
