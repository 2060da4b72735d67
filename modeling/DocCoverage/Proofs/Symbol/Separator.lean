import DocCoverage.Proofs.Symbol.Selection
import DocCoverage.Proofs.Text.LineEnd

/-!
# Characters that separate symbols

A character that is neither in the stem nor a word character nor an opening parenthesis separates: no
occurrence holds it.  The text in front of it and the text behind it are searched as if each stood
alone.  So it does no harm to put separators where one stands already, or at the front: line ends may
take two characters, and a byte order mark may come first.

    names (s ++ c :: s') = names s ++ names s'              for a separator c        (names_append)
    names (crlf s) = names s                                if line ends separate      (names_crlf)
-/

namespace DocCoverage

/-- No occurrence of a symbol with this stem holds the character. -/
structure IsSeparator (stem : List Char) (c : Char) : Prop where
  not_mem : c ∉ stem
  not_word : isWord c = false
  not_open : c ≠ '('

/-- What stands in front of a separator does not depend on what is behind it. -/
theorem IsSeparator.stands_append_iff {stem s s' name : List Char} {r : Recognition} {c : Char}
    (hc : IsSeparator stem c) : Stands stem r (s ++ c :: s') name ↔ Stands stem r s name := by
  constructor
  · rintro ⟨tail, after, he, rfl, ht⟩
    have hmem : c ∉ stem ++ tail := by
      rw [List.mem_append]
      rintro (h | h)
      · exact hc.not_mem h
      · have hword := ht.word c h
        rw [hc.not_word] at hword
        cases hword
    -- the separator is behind the name
    obtain ⟨more, rfl, rfl⟩ : ∃ more, s = stem ++ tail ++ more ∧ after = more ++ c :: s' := by
      rcases List.append_eq_append_iff.1 he with ⟨more, hname, hafter⟩ | ⟨more, hs, hafter⟩
      · cases more with
        | nil => exact ⟨[], by simpa using hname.symm, by simpa using hafter.symm⟩
        | cons d more =>
          obtain ⟨rfl, -⟩ := List.cons.inj hafter
          exact absurd (by rw [hname]; simp) hmem
      · exact ⟨more, hs, hafter⟩
    refine ⟨tail, more, rfl, rfl, ht.ne_nil, ht.word, ?_, ?_⟩
    · intro d hd
      exact ht.maximal d (by simp [List.head?_append, hd])
    · intro hr
      have hhead := ht.closed hr
      cases more with
      | nil => exact absurd (Option.some.inj hhead) hc.not_open
      | cons d more => exact hhead
  · rintro ⟨tail, after, rfl, rfl, ht⟩
    refine ⟨tail, after ++ c :: s', by simp, rfl, ht.ne_nil, ht.word, ?_, ?_⟩
    · intro d hd
      cases after with
      | nil =>
        obtain rfl := Option.some.inj hd
        exact hc.not_word
      | cons e after => exact ht.maximal d hd
    · intro hr
      simp [List.head?_append, ht.closed hr]

namespace Matcher

variable (m : Matcher) (r : Recognition)

/-- The names of the occurrences in a text, from left to right. -/
def names (s : List Char) : List (List Char) :=
  (m.found r 0 s).map Occurrence.name

/-- Where a text starts has no influence on the names in it. -/
theorem map_name_found (pos pos' : Nat) (s : List Char) :
    (m.found r pos s).map Occurrence.name = (m.found r pos' s).map Occurrence.name := by
  induction hn : s.length using Nat.strongRecOn generalizing s pos pos' with
  | ind n ih =>
    cases hname : m.nameAt? r s with
    | none =>
      cases s with
      | nil => rfl
      | cons c s =>
        rw [m.found_of_none r hname, m.found_of_none r hname]
        exact ih s.length (by simp [← hn]) _ _ s rfl
    | some name =>
      have hstands := (m.nameAt?_eq_some_iff r s name).1 hname
      have hpos := Nat.lt_of_lt_of_le hstands.length_pos (length_le_width r name)
      have hle := hstands.width_le
      rw [m.found_of_some r hname, m.found_of_some r hname, List.map_cons, List.map_cons,
        ih (s.drop (width r name)).length (by rw [List.length_drop]; omega) _ _ _ rfl]

theorem names_of_none {c : Char} {s : List Char} (h : m.nameAt? r (c :: s) = none) :
    m.names r (c :: s) = m.names r s := by
  unfold names
  rw [m.found_of_none r h, m.map_name_found r (0 + 1) 0]

theorem names_of_some {s name : List Char} (h : m.nameAt? r s = some name) :
    m.names r s = name :: m.names r (s.drop (width r name)) := by
  unfold names
  rw [m.found_of_some r h, List.map_cons, m.map_name_found r (0 + width r name) 0]

/-- A separator cuts a text in two. -/
theorem names_append {c : Char} (hc : IsSeparator m.stem c) (s s' : List Char) :
    m.names r (s ++ c :: s') = m.names r s ++ m.names r s' := by
  have hsame : ∀ s, m.nameAt? r (s ++ c :: s') = m.nameAt? r s := fun s => Option.ext fun name => by
    rw [m.nameAt?_eq_some_iff, m.nameAt?_eq_some_iff, hc.stands_append_iff]
  induction hn : s.length using Nat.strongRecOn generalizing s with
  | ind n ih =>
    cases hname : m.nameAt? r s with
    | none =>
      have hnone := (hsame s).trans hname
      cases s with
      | nil =>
        rw [List.nil_append] at hnone ⊢
        rw [m.names_of_none r hnone]
        rfl
      | cons d s =>
        rw [List.cons_append] at hnone ⊢
        rw [m.names_of_none r hnone, m.names_of_none r hname, ih s.length (by simp [← hn]) s rfl]
    | some name =>
      have hstands := (m.nameAt?_eq_some_iff r s name).1 hname
      have hpos := Nat.lt_of_lt_of_le hstands.length_pos (length_le_width r name)
      have hle := hstands.width_le
      rw [m.names_of_some r ((hsame s).trans hname), m.names_of_some r hname,
        List.drop_append_of_le_length hle,
        ih (s.drop (width r name)).length (by rw [List.length_drop]; omega) _ rfl, List.cons_append]

theorem names_cons {c : Char} (hc : IsSeparator m.stem c) (s : List Char) :
    m.names r (c :: s) = m.names r s :=
  m.names_append r hc [] s

/-- Line ends of two characters separate like those of one. -/
theorem names_crlf (hfeed : IsSeparator m.stem '\n') (hreturn : IsSeparator m.stem '\r')
    (s : List Char) : m.names r (Text.crlf s) = m.names r s := by
  -- line by line, behind all that was read before
  have hbehind : ∀ front, m.names r (front ++ Text.crlf s) = m.names r (front ++ s) := by
    induction s with
    | nil => exact fun front => rfl
    | cons c s ih =>
      intro front
      by_cases h : c = '\n'
      · subst h
        rw [Text.crlf_newline, m.names_append r hreturn, m.names_cons r hfeed,
          m.names_append r hfeed]
        exact congrArg _ (ih [])
      · have := ih (front ++ [c])
        simpa [Text.crlf_cons h] using this
  exact hbehind []

theorem extract_eq_names (text : String) :
    m.extract r text = .ofList ((m.names r text.toList).map String.ofList) := by
  unfold extract names
  rw [List.map_map]
  rfl

end Matcher

end DocCoverage
