import DocCoverage.Path

/-!
# Components of joined paths

What a path means is its anchor, followed by what its steps mean.  Text after a slash adds steps and
leaves the anchor alone.

    components (p ++ "/" ++ s)  = components p ++ steps s       for p ≠ ""        (components_slash)
    components (join base p)    = components base ++ steps p    for a relative p and base ≠ ""
                                                                                  (components_join)
    join root (root ++ "/" ++ p) and join root p mean the same
                      ↔  root is absolute or means "here"             (components_join_self_iff)
-/

namespace DocCoverage

namespace Path

/-- What the texts between the slashes of `s` mean as steps. -/
def steps (s : String) : List Component :=
  (Path.mk s).pieces.filterMap component?

/-! ## Pieces and the anchor -/

theorem pieces_ne_nil (p : Path) : p.pieces ≠ [] := by
  unfold pieces
  rw [Ne, List.map_eq_nil_iff]
  exact List.splitOn_ne_nil _ _

theorem pieces_slash (a b : String) :
    (Path.mk (a ++ "/" ++ b)).pieces = (Path.mk a).pieces ++ (Path.mk b).pieces := by
  have htext : (a ++ "/" ++ b).toList = a.toList ++ '/' :: b.toList := by
    rw [String.toList_append, String.toList_append, List.append_assoc]
    rfl
  unfold pieces
  rw [htext, List.splitOn_append_cons_self, List.map_append]

/-- Only the empty text has nothing but an empty piece. -/
theorem text_eq_empty_of_pieces {p : Path} (h : p.pieces = [""]) : p.text = "" := by
  have hcut : p.text.toList.splitOn '/' = [[]] := by
    obtain ⟨l, hl, he⟩ := List.map_eq_singleton_iff.mp h
    rw [hl, String.ofList_eq_empty_iff.mp he]
  have hback : ['/'].intercalate (p.text.toList.splitOn '/') = p.text.toList :=
    List.intercalate_splitOn '/'
  rw [hcut] at hback
  exact String.toList_eq_nil_iff.mp hback.symm

/-- The three readings of a path: its anchor, and the pieces that are its steps. -/
theorem split_cases (p : Path) :
    (∃ rest, rest ≠ [] ∧ p.pieces = "" :: rest ∧ p.split = (.root, rest)) ∨
    (∃ rest, p.pieces = "." :: rest ∧ p.split = (.here, rest)) ∨
    (∃ first rest, p.pieces = first :: rest ∧ first ≠ "." ∧ (first = "" → p.text = "") ∧
      p.split = (.none, first :: rest)) := by
  obtain ⟨first, rest, hp⟩ := List.exists_cons_of_ne_nil p.pieces_ne_nil
  unfold split
  rw [hp]
  dsimp only
  split
  · next h =>
    obtain ⟨rfl, hne⟩ := h
    exact .inl ⟨rest, hne, rfl, rfl⟩
  · next h =>
    split
    · next hdot =>
      subst hdot
      exact .inr (.inl ⟨rest, rfl, rfl⟩)
    · next hdot =>
      refine .inr (.inr ⟨first, rest, rfl, hdot, ?_, rfl⟩)
      rintro rfl
      have hrest : rest = [] := by
        apply Classical.byContradiction
        intro hne
        exact h ⟨rfl, hne⟩
      exact text_eq_empty_of_pieces (hrest ▸ hp)

/-- The anchor is read off the first piece, and whether there is another one. -/
theorem anchor_congr {p q : Path} {first : String} {rest rest' : List String}
    (hp : p.pieces = first :: rest) (hq : q.pieces = first :: rest')
    (h : first = "" → (rest ≠ [] ↔ rest' ≠ [])) : p.split.1 = q.split.1 := by
  unfold split
  rw [hp, hq]
  dsimp only
  by_cases hfirst : first = ""
  · simp only [hfirst, true_and, h hfirst]
    split
    · rfl
    · rfl
  · simp only [hfirst, false_and, if_false]
    split
    · rfl
    · rfl

/-- The pieces of a text with a slash in it: the first one, and there are others. -/
theorem pieces_slash_cons {a first : String} {rest : List String}
    (ha : (Path.mk a).pieces = first :: rest) (b : String) :
    ∃ others, others ≠ [] ∧ (Path.mk (a ++ "/" ++ b)).pieces = first :: others := by
  refine ⟨rest ++ (Path.mk b).pieces, ?_, ?_⟩
  · exact List.append_ne_nil_of_right_ne_nil _ (Path.mk b).pieces_ne_nil
  · rw [pieces_slash, ha, List.cons_append]

/-- What follows a slash does not touch the anchor. -/
theorem anchor_slash (a b b' : String) :
    (Path.mk (a ++ "/" ++ b)).split.1 = (Path.mk (a ++ "/" ++ b')).split.1 := by
  obtain ⟨first, rest, ha⟩ := List.exists_cons_of_ne_nil (Path.mk a).pieces_ne_nil
  obtain ⟨others, hne, hb⟩ := pieces_slash_cons ha b
  obtain ⟨others', hne', hb'⟩ := pieces_slash_cons ha b'
  exact anchor_congr hb hb' fun _ => iff_of_true hne hne'

/-- Nor does the slash itself, unless nothing stands before it. -/
theorem anchor_slash_self {a : String} (hne : a ≠ "") (b : String) :
    (Path.mk (a ++ "/" ++ b)).split.1 = (Path.mk a).split.1 := by
  obtain ⟨first, rest, ha⟩ := List.exists_cons_of_ne_nil (Path.mk a).pieces_ne_nil
  obtain ⟨others, hothers, hb⟩ := pieces_slash_cons ha b
  refine anchor_congr hb ha ?_
  rintro rfl
  refine iff_of_true hothers ?_
  rintro rfl
  exact hne (text_eq_empty_of_pieces ha)

/-! ## Components -/

theorem steps_empty : steps "" = [] := rfl

theorem steps_slash (a b : String) : steps (a ++ "/" ++ b) = steps a ++ steps b := by
  unfold steps
  rw [pieces_slash, List.filterMap_append]

theorem component?_eq_none_iff {step : String} :
    component? step = none ↔ step = "" ∨ step = "." := by
  have hidle : isIdle step = true ↔ step = "" ∨ step = "." := by
    simp only [isIdle, Bool.or_eq_true, beq_iff_eq]
  rw [← hidle]
  unfold component?
  split
  · next h => exact iff_of_true rfl h
  · next h =>
    refine iff_of_false ?_ h
    split
    · exact Option.some_ne_none _
    · exact Option.some_ne_none _

/-- A step is a name or leads up. -/
theorem mem_steps {s : String} {c : Component} (hc : c ∈ steps s) :
    c = .up ∨ ∃ text, c = .name text := by
  obtain ⟨step, -, hstep⟩ := List.mem_filterMap.mp hc
  unfold component? at hstep
  split at hstep
  · cases hstep
  · split at hstep
    · exact .inl (Option.some.inj hstep).symm
    · exact .inr ⟨step, (Option.some.inj hstep).symm⟩

/-- The piece that an anchor takes up is no step. -/
theorem components_eq (p : Path) : p.components = p.split.1.components ++ steps p.text := by
  unfold components
  show _ = _ ++ p.pieces.filterMap component?
  rcases p.split_cases with ⟨rest, -, hp, hs⟩ | ⟨rest, hp, hs⟩ | ⟨first, rest, hp, -, -, hs⟩
  · rw [hs, hp]
    rfl
  · rw [hs, hp]
    rfl
  · rw [hs, hp]

theorem components_slash {a : String} (ha : a ≠ "") (b : String) :
    (Path.mk (a ++ "/" ++ b)).components = (Path.mk a).components ++ steps b := by
  rw [components_eq, components_eq (Path.mk a), anchor_slash_self ha, steps_slash,
    List.append_assoc]

/-- A slash at the end means nothing. -/
theorem steps_of_getLast? {a : String} (h : a.toList.getLast? = some '/') :
    ∃ front, a = front ++ "/" ∧ steps a = steps front := by
  obtain ⟨front, hfront⟩ := List.getLast?_eq_some_iff.mp h
  have ha : a = String.ofList front ++ "/" := by
    apply String.toList_injective
    rw [hfront, String.toList_append, String.toList_ofList]
    rfl
  refine ⟨String.ofList front, ha, ?_⟩
  rw [ha, ← String.append_empty (s := String.ofList front ++ "/"), steps_slash, steps_empty,
    List.append_nil]

/-- A relative path is taken after the components of the path that it is joined to. -/
theorem components_join {base rest : Path} (hbase : base.text ≠ "")
    (hrest : rest.isAbsolute = false) :
    (base.join rest).components = base.components ++ steps rest.text := by
  unfold join
  rw [if_neg (by rw [hrest]; exact Bool.false_ne_true)]
  split
  · next hlast =>
    have hslash : base.text.toList.getLast? = some '/' := by
      cases hl : base.text.toList.getLast? with
      | none =>
        rw [List.getLast?_eq_none_iff, String.toList_eq_nil_iff] at hl
        exact absurd hl hbase
      | some c =>
        rw [hl] at hlast
        exact congrArg some (eq_of_beq hlast)
    obtain ⟨front, hfront, hsteps⟩ := steps_of_getLast? hslash
    obtain ⟨text⟩ := base
    obtain rfl : text = front ++ "/" := hfront
    rw [components_eq, components_eq (Path.mk _), hsteps, steps_slash, List.append_assoc,
      anchor_slash front rest.text "", String.append_empty]
  · exact components_slash hbase rest.text

theorem isAbsolute_iff {p : Path} : p.isAbsolute = true ↔ p.split.1 = .root := by
  unfold isAbsolute
  exact beq_iff_eq

/-- A relative path is written after a slash, which the base may end in already. -/
theorem join_eq_slash {base rest : Path} (hbase : base.text ≠ "")
    (hrest : rest.isAbsolute = false) :
    ∃ front, base.join rest = ⟨front ++ "/" ++ rest.text⟩ ∧
      (base.text = front ∨ base.text = front ++ "/") := by
  unfold join
  rw [if_neg (by rw [hrest]; exact Bool.false_ne_true)]
  split
  · next hlast =>
    have hslash : base.text.toList.getLast? = some '/' := by
      cases hl : base.text.toList.getLast? with
      | none =>
        rw [List.getLast?_eq_none_iff, String.toList_eq_nil_iff] at hl
        exact absurd hl hbase
      | some c =>
        rw [hl] at hlast
        exact congrArg some (eq_of_beq hlast)
    obtain ⟨front, hfront, -⟩ := steps_of_getLast? hslash
    exact ⟨front, by rw [hfront], .inr hfront⟩
  · exact ⟨base.text, rfl, .inl rfl⟩

/-- Joining a relative path keeps the anchor. -/
theorem isAbsolute_join {base rest : Path} (hbase : base.text ≠ "")
    (hrest : rest.isAbsolute = false) : (base.join rest).isAbsolute = base.isAbsolute := by
  obtain ⟨front, hjoin, hfront⟩ := join_eq_slash hbase hrest
  obtain ⟨text⟩ := base
  rw [hjoin]
  unfold isAbsolute
  rcases hfront with hfront | hfront
  · obtain rfl : text = front := hfront
    rw [anchor_slash_self hbase]
  · obtain rfl : text = front ++ "/" := hfront
    rw [anchor_slash front rest.text "", String.append_empty]

/-! ## A path that is joined to itself -/

/-- A path starts at the root only if it is absolute. -/
theorem root_mem_components_iff {p : Path} : .root ∈ p.components ↔ p.isAbsolute = true := by
  rw [components_eq, isAbsolute_iff, List.mem_append]
  constructor
  · rintro (h | h)
    · cases ha : p.split.1 with
      | root => rfl
      | here => simp [ha, Anchor.components] at h
      | none => simp [ha, Anchor.components] at h
    · rcases mem_steps h with h | ⟨text, h⟩
      · cases h
      · cases h
  · intro h
    rw [h]
    exact .inl List.mem_cons_self

/-- A relative path without steps is "here". -/
theorem steps_eq_nil_iff {p : Path} (hp : p.text ≠ "") (hrel : p.isAbsolute = false) :
    steps p.text = [] ↔ p.components = [.here] := by
  have hsteps : steps p.text = p.pieces.filterMap component? := rfl
  rw [components_eq]
  rcases p.split_cases with ⟨rest, -, -, hs⟩ | ⟨rest, -, hs⟩ | ⟨first, rest, hpieces, hdot, he, hs⟩
  · rw [isAbsolute, hs] at hrel
    cases hrel
  · rw [hs]
    simp [Anchor.components]
  · -- the first piece is a step
    have hne : steps p.text ≠ [] := by
      rw [hsteps, hpieces, Ne, List.filterMap_eq_nil_iff]
      intro h
      rcases component?_eq_none_iff.mp (h first List.mem_cons_self) with h | h
      · exact hp (he h)
      · exact hdot h
    rw [hs]
    refine ⟨fun h => absurd h hne, fun h => ?_⟩
    have hhere : Component.here ∈ steps p.text := by
      rw [show steps p.text = [Component.here] from h]
      exact List.mem_cons_self
    rcases mem_steps hhere with h | ⟨text, h⟩
    · cases h
    · cases h

/-- Writing a root in front of a path that is taken from that root anyway changes nothing only if
the root is absolute or means "here". -/
theorem components_join_self_iff (root : Path) {rest : String}
    (hrest : (Path.mk rest).isAbsolute = false) :
    (root.join ⟨root.text ++ "/" ++ rest⟩).components = (root.join ⟨rest⟩).components ↔
      root.isAbsolute = true ∨ root.components = [.here] := by
  by_cases hempty : root.text = ""
  · -- the path with the empty root in front is absolute
    obtain ⟨text⟩ := root
    obtain rfl : text = "" := hempty
    rw [join_empty_base, join_empty_base]
    refine ⟨fun h => ?_, ?_⟩
    · have habs : Component.root ∈ (Path.mk ("" ++ "/" ++ rest)).components := by
        rw [root_mem_components_iff, isAbsolute_iff, anchor_slash "" rest ""]
        rfl
      rw [h, root_mem_components_iff, hrest] at habs
      cases habs
    · rintro (h | h)
      · cases h
      · cases h
  · have hrhs := components_join hempty hrest
    have habs : (Path.mk (root.text ++ "/" ++ rest)).isAbsolute = root.isAbsolute := by
      rw [isAbsolute, anchor_slash_self hempty, isAbsolute]
    cases hroot : root.isAbsolute with
    | true =>
      rw [join_of_isAbsolute root (habs.trans hroot), hrhs]
      simpa using components_slash hempty rest
    | false =>
      rw [components_join hempty (habs.trans hroot), hrhs, steps_slash, List.append_cancel_left_eq,
        List.append_left_eq_self, steps_eq_nil_iff hempty hroot]
      simp

end Path

end DocCoverage
