import DocCoverage.Proofs.Settings.RootMark

/-!
# Literal paths in a config file

Any text can be written as a configured path: its dollar signs are written twice, and the mark stands
wherever the text of the root is meant.  The mark does not overlap itself, so a brace next to it never
starts another one; and the text of the root is put in last, so nothing in it is read.

    expand env (escape s)             = s            unless s starts with `~`      (expand_escape)
    substitute p new (p.intercalate)  = new.intercalate                       (substitute_intercalate)
    resolve of literal segments with marks between them
                                      = join root (the segments, the root between) (resolveEntry_literal)
-/

namespace DocCoverage

/-! ## Patterns between texts -/

namespace Text

/-- No end of a pattern but the whole is a front of it. -/
def IsUnbordered (pattern : List Char) : Prop :=
  ∀ k < pattern.length, 0 < k → ¬ pattern.drop k <+: pattern

instance (pattern : List Char) : Decidable (IsUnbordered pattern) :=
  inferInstanceAs (Decidable (∀ k < pattern.length, 0 < k → ¬ pattern.drop k <+: pattern))

section
variable {pattern : List Char} (hp : IsUnbordered pattern)
include hp

/-- An occurrence that starts before another one ends before it too. -/
theorem not_prefix_append {s : List Char} (hs : s ≠ []) (h : ¬ pattern <:+: s) (rest : List Char) :
    ¬ pattern <+: s ++ (pattern ++ rest) := by
  intro hprefix
  have hfront : s <+: s ++ (pattern ++ rest) := List.prefix_append _ _
  rcases Nat.le_total pattern.length s.length with hle | hle
  · exact h (List.prefix_of_prefix_length_le hprefix hfront hle).isInfix
  · obtain ⟨back, hback⟩ := List.prefix_of_prefix_length_le hfront hprefix hle
    have hdrop : pattern.drop s.length = back := by
      rw [← hback, List.drop_left]
    have hlength : s.length + back.length = pattern.length := by
      rw [← hback, List.length_append]
    have hpos := List.length_pos_of_ne_nil hs
    have hover : back <+: pattern ++ rest := by
      rw [← List.prefix_append_right_inj s, hback]
      exact hprefix
    have hborder : back <+: pattern :=
      List.prefix_of_prefix_length_le hover (List.prefix_append _ _) (by omega)
    cases back with
    | nil =>
      -- then the text is the pattern
      rw [List.append_nil] at hback
      exact h (hback ▸ List.infix_rfl)
    | cons c back =>
      rw [List.length_cons] at hlength
      exact hp s.length (by omega) hpos (hdrop ▸ hborder)

theorem substitute_before (hne : pattern ≠ []) {s : List Char} (h : ¬ pattern <:+: s)
    (new rest : List Char) :
    substitute pattern new (s ++ (pattern ++ rest)) = s ++ (new ++ substitute pattern new rest) := by
  induction s with
  | nil => exact substitute_append hne new rest
  | cons c s ih =>
    have hhere : ¬ pattern.isPrefixOf (c :: (s ++ (pattern ++ rest))) = true := by
      rw [List.isPrefixOf_iff_prefix]
      exact not_prefix_append hp (List.cons_ne_nil c s) h rest
    have hlater : ¬ pattern <:+: s := fun hi => h (hi.trans (List.suffix_cons c s).isInfix)
    rw [List.cons_append, substitute_cons_of_not_isPrefixOf new hhere, ih hlater, List.cons_append]

/-- Between texts without the pattern, each occurrence is replaced and nothing else. -/
theorem substitute_intercalate (hne : pattern ≠ []) (new : List Char) {texts : List (List Char)}
    (h : ∀ s ∈ texts, ¬ pattern <:+: s) :
    substitute pattern new (pattern.intercalate texts) = new.intercalate texts := by
  induction texts with
  | nil => rfl
  | cons s texts ih =>
    rw [List.forall_mem_cons] at h
    cases texts with
    | nil =>
      rw [List.intercalate_singleton, List.intercalate_singleton, substitute_of_not_infix h.1]
    | cons t texts =>
      rw [List.intercalate_cons_cons, List.intercalate_cons_cons, List.append_assoc,
        substitute_before hp hne h.1, ih h.2, List.append_assoc]

end

end Text

/-! ## Escaped dollar signs -/

namespace Template

/-- Writes a text such that no dollar sign in it refers to anything. -/
def escape (s : List Char) : List Char :=
  s.flatMap fun c => if c = '$' then ['$', '$'] else [c]

/-- A text as it is written in a config file. -/
def literal (s : String) : String :=
  String.ofList (escape s.toList)

theorem escape_cons_dollar (s : List Char) : escape ('$' :: s) = '$' :: '$' :: escape s := rfl

theorem escape_cons {c : Char} (h : c ≠ '$') (s : List Char) : escape (c :: s) = c :: escape s := by
  simp [escape, h]

theorem segments_escape (s : List Char) : segments (escape s) = s.map .char := by
  induction s with
  | nil => rfl
  | cons c s ih =>
    by_cases h : c = '$'
    · subst h
      rw [escape_cons_dollar, segments_dollar]
      show .char '$' :: segments (escape s) = _
      rw [ih, List.map_cons]
    · rw [escape_cons h, segments_cons h, ih, List.map_cons]

theorem head?_escape (s : List Char) : (escape s).head? = s.head? := by
  cases s with
  | nil => rfl
  | cons c s =>
    by_cases h : c = '$'
    · subst h
      rfl
    · rw [escape_cons h, List.head?_cons, List.head?_cons]

/-- An escaped text is filled in with itself, whatever the environment. -/
theorem expand_escape (env : Environment) {s : List Char} (hhome : s.head? ≠ some '~') :
    expand env (escape s) = .ok s := by
  have hflat : (s.map fun c => [c]).flatten = s := by
    rw [← List.flatMap_def, List.flatMap_singleton']
  unfold expand
  rw [segments_escape, mapM_fill_char]
  show Except.ok (if (escape s).head? = some '~' then _ else (s.map fun c => [c]).flatten) = _
  rw [head?_escape, if_neg hhome, hflat]

theorem escape_append (s t : List Char) : escape (s ++ t) = escape s ++ escape t :=
  List.flatMap_append

theorem escape_intercalate (sep : List Char) (texts : List (List Char)) :
    escape (sep.intercalate texts) = (escape sep).intercalate (texts.map escape) := by
  induction texts with
  | nil => rfl
  | cons s texts ih =>
    cases texts with
    | nil => simp only [List.map_cons, List.map_nil, List.intercalate_singleton]
    | cons t texts =>
      rw [List.map_cons] at ih
      rw [List.intercalate_cons_cons, escape_append, escape_append, ih, List.map_cons,
        List.map_cons, List.intercalate_cons_cons]

theorem isUnbordered_rootMark : Text.IsUnbordered rootMark := by
  decide

/-- Literal segments with marks between them, as one text. -/
theorem toList_intercalate_literal (segments : List String) :
    ((String.ofList rootMark).intercalate (segments.map literal)).toList =
      escape (rootMark.intercalate (segments.map String.toList)) := by
  have hmark : escape rootMark = rootMark := by decide
  have hliteral : (segments.map literal).map String.toList =
      (segments.map String.toList).map escape := by
    simp [literal]
  rw [String.toList_intercalate, String.toList_ofList, hliteral, escape_intercalate, hmark]

/-- A mark does not start with a tilde, nor does anything behind it matter. -/
theorem head?_intercalate_rootMark {first : List Char} (h : first.head? ≠ some '~')
    (rest : List (List Char)) : (rootMark.intercalate (first :: rest)).head? ≠ some '~' := by
  cases rest with
  | nil => rwa [List.intercalate_singleton]
  | cons s rest =>
    cases first with
    | nil =>
      rw [List.intercalate_cons_cons]
      exact fun he => absurd (Option.some.inj he) (by decide)
    | cons c first => exact h

theorem resolve_literal (env : Environment) (root : Path) {first : String} {rest : List String}
    (hmark : ∀ s ∈ first :: rest, ¬ rootMark <:+: s.toList)
    (hhome : first.toList.head? ≠ some '~') :
    resolve env root ((String.ofList rootMark).intercalate ((first :: rest).map literal)) =
      .ok (root.join ⟨root.text.intercalate (first :: rest)⟩) := by
  have hmarks : ∀ s ∈ (first :: rest).map String.toList, ¬ rootMark <:+: s := by
    rw [List.forall_mem_map]
    exact hmark
  have hexpand := expand_escape env
    (head?_intercalate_rootMark hhome (rest.map String.toList))
  unfold resolve
  rw [toList_intercalate_literal, List.map_cons, hexpand]
  show Except.ok (root.join ⟨String.ofList (Text.substitute rootMark _ _)⟩) = _
  rw [← List.map_cons, Text.substitute_intercalate isUnbordered_rootMark (by decide) _ hmarks,
    ← String.toList_intercalate, String.ofList_toList]

end Template

namespace Settings

/-- Literal segments, their dollar signs written twice and marks of the root between them, always
resolve, and to the same path in every environment: the segments with the text of the root between
them if this is an absolute path, and that path taken from the root otherwise. -/
theorem resolveEntry_literal (env : Environment) (root : Path) {first : String} {rest : List String}
    (hmark : ∀ s ∈ first :: rest, ¬ Template.rootMark <:+: s.toList)
    (hhome : first.toList.head? ≠ some '~') :
    ((Path.mk (root.text.intercalate (first :: rest))).isAbsolute = true →
      resolveEntry env root
          ((String.ofList Template.rootMark).intercalate ((first :: rest).map Template.literal)) =
        .ok ⟨root.text.intercalate (first :: rest)⟩) ∧
    ((Path.mk (root.text.intercalate (first :: rest))).isAbsolute = false →
      resolveEntry env root
          ((String.ofList Template.rootMark).intercalate ((first :: rest).map Template.literal)) =
        .ok (root.join ⟨root.text.intercalate (first :: rest)⟩)) := by
  have hresolve : resolveEntry env root
      ((String.ofList Template.rootMark).intercalate ((first :: rest).map Template.literal)) =
        .ok (root.join ⟨root.text.intercalate (first :: rest)⟩) := by
    unfold resolveEntry
    rw [Template.resolve_literal env root hmark hhome]
  rw [hresolve]
  refine ⟨fun habsolute => ?_, fun _ => rfl⟩
  rw [Path.join_of_isAbsolute root habsolute]

/-- A root that looks like a reference, like a tilde and like its own mark, between segments that end
in a dollar sign and start with a brace; and the same behind a relative segment. -/
theorem resolveEntry_literal_awkward :
    resolveEntry [("x", "v")] ⟨"/~$x$$/\x7b\x7broot\x7d\x7d"⟩
        ((String.ofList Template.rootMark).intercalate (["", "/a$", "\x7d$x"].map Template.literal)) =
      .ok ⟨"/~$x$$/\x7b\x7broot\x7d\x7d/a$/~$x$$/\x7b\x7broot\x7d\x7d\x7d$x"⟩ ∧
    resolveEntry [("x", "v")] ⟨"/~$x$$/\x7b\x7broot\x7d\x7d"⟩
        ((String.ofList Template.rootMark).intercalate (["$\x7b", "~"].map Template.literal)) =
      .ok ⟨"/~$x$$/\x7b\x7broot\x7d\x7d/$\x7b/~$x$$/\x7b\x7broot\x7d\x7d~"⟩ := by
  constructor
  · exact (resolveEntry_literal [("x", "v")] _ (by decide) (by decide)).1 (by decide +kernel)
  · exact (resolveEntry_literal [("x", "v")] _ (by decide) (by decide)).2 (by decide +kernel)

end Settings

end DocCoverage
