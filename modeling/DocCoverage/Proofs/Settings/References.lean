import DocCoverage.Proofs.Settings.Resolution
import Mathlib.Data.List.Infix

/-!
# References in a configured path

How a template is read can be said without reading it: each dollar sign starts a reference with a
name, a reference in braces, an escaped dollar sign, or nothing.  A template is read in one way, and
the reader finds it.  So a path fails to resolve exactly when it refers to a variable that is not set
and gives no default, and the leftmost such reference is the one that is blamed.

    Reads s parts                    ↔  segments s = parts                     (reads_iff)
    resolve env root e = error name  ↔  Blames env e name                      (resolve_eq_error_iff)
    resolve env root e = ok          ↔  e blames nothing                     (exists_resolve_eq_ok_iff)
-/

namespace DocCoverage

namespace Template

/-- What stands between braces is a name and the default after the first `:-`.  Without a default, or
without a name in front of it, the whole is the name. -/
inductive NameAndDefault : List Char → List Char → Option (List Char) → Prop
  | alone {inner : List Char} (h : ¬ [':', '-'] <:+: inner ∨ [':', '-'] <+: inner) :
      NameAndDefault inner inner none
  | withDefault {name text : List Char} (hne : name ≠ [])
      (hfirst : ¬ [':', '-'] <:+: name ++ [':']) :
      NameAndDefault (name ++ ':' :: '-' :: text) name (some text)

/-- Read from left to right, a text is made up of these segments. -/
inductive Reads : List Char → List Segment → Prop
  | nil : Reads [] []
  | char {c : Char} {s : List Char} {parts : List Segment} (hc : c ≠ '$') (h : Reads s parts) :
      Reads (c :: s) (.char c :: parts)
  /-- Two dollar signs stand for one. -/
  | escaped {s : List Char} {parts : List Segment} (h : Reads s parts) :
      Reads ('$' :: '$' :: s) (.char '$' :: parts)
  /-- A name takes up as many characters as it can. -/
  | named {name s : List Char} {parts : List Segment} (hne : name ≠ [])
      (hname : ∀ c ∈ name, isNameChar c = true)
      (hend : ∀ c, s.head? = some c → isNameChar c = false) (h : Reads s parts) :
      Reads ('$' :: (name ++ s)) (.variable name none :: parts)
  /-- Braces end at the first brace that closes. -/
  | braced {inner name s : List Char} {fallback : Option (List Char)} {parts : List Segment}
      (hinner : '}' ∉ inner) (hname : NameAndDefault inner name fallback) (h : Reads s parts) :
      Reads ('$' :: '{' :: (inner ++ '}' :: s)) (.variable name fallback :: parts)
  /-- A brace that is not closed starts nothing. -/
  | unclosed {s : List Char} {parts : List Segment} (hs : '}' ∉ s) (h : Reads ('{' :: s) parts) :
      Reads ('$' :: '{' :: s) (.char '$' :: parts)
  /-- Nor does anything else that is no name. -/
  | lone {s : List Char} {parts : List Segment}
      (hs : ∀ c, s.head? = some c → c ≠ '$' ∧ c ≠ '{' ∧ isNameChar c = false) (h : Reads s parts) :
      Reads ('$' :: s) (.char '$' :: parts)

/-- An entry refers to a variable that is not set, without a default, and no reference to the left of
it does so. -/
def Blames (env : Environment) (entry name : String) : Prop :=
  ∃ before after, Reads entry.toList (before ++ .variable name.toList none :: after) ∧
    env.get? name = none ∧
    ∀ other, .variable other.toList none ∈ before → env.get? other ≠ none

/-! ## Names and defaults -/

section

variable {inner name text : List Char} {fallback : Option (List Char)}

theorem go_cons {c : Char} {rest : List Char} (h : ¬ [':', '-'] <+: c :: rest)
    (before : List Char) : splitDefault.go before (c :: rest) = splitDefault.go (c :: before) rest := by
  rw [splitDefault.go]
  rintro rest' rfl rfl
  exact h ⟨rest', rfl⟩

theorem go_of_no_default (h : ¬ [':', '-'] <:+: inner) (before : List Char) :
    splitDefault.go before inner = (before.reverse ++ inner, none) := by
  induction inner generalizing before with
  | nil => rw [splitDefault.go, List.append_nil]
  | cons c rest ih =>
    rw [List.infix_cons_iff, not_or] at h
    rw [go_cons h.1, ih h.2, List.reverse_cons, List.append_assoc]
    rfl

/-- What starts at a place that leaves room for it does not look at what comes after. -/
theorem not_prefix_of_first (hne : name ≠ []) (hfirst : ¬ [':', '-'] <:+: name ++ [':']) :
    ¬ [':', '-'] <+: name ++ ':' :: '-' :: text := by
  intro h
  have hlonger : name ++ [':'] <+: name ++ ':' :: '-' :: text := ⟨'-' :: text, by simp⟩
  have hpos := List.length_pos_of_ne_nil hne
  exact hfirst (List.prefix_of_prefix_length_le h hlonger (by simp; omega)).isInfix

theorem go_of_first (hfirst : ¬ [':', '-'] <:+: name ++ [':']) (before : List Char) :
    splitDefault.go before (name ++ ':' :: '-' :: text) = (before.reverse ++ name, some text) := by
  induction name generalizing before with
  | nil =>
    rw [List.nil_append, splitDefault.go, List.append_nil]
  | cons c name ih =>
    have hhere : ¬ [':', '-'] <+: c :: name ++ ':' :: '-' :: text :=
      not_prefix_of_first (List.cons_ne_nil c name) hfirst
    have hlater : ¬ [':', '-'] <:+: name ++ [':'] := fun h => hfirst (List.infix_cons h)
    rw [List.cons_append] at hhere ⊢
    rw [go_cons hhere, ih hlater, List.reverse_cons, List.append_assoc]
    rfl

theorem splitDefault_eq (h : NameAndDefault inner name fallback) :
    splitDefault inner = (name, fallback) := by
  unfold splitDefault
  cases h with
  | alone h =>
    split
    · rfl
    · next hprefix =>
      rw [List.isPrefixOf_iff_prefix] at hprefix
      rw [go_of_no_default (h.resolve_right hprefix), List.reverse_nil, List.nil_append]
  | withDefault hne hfirst =>
    rw [if_neg (by rw [List.isPrefixOf_iff_prefix]; exact not_prefix_of_first hne hfirst),
      go_of_first hfirst, List.reverse_nil, List.nil_append]

/-- A text has a first `:-`, or none. -/
theorem exists_first (inner : List Char) :
    ¬ [':', '-'] <:+: inner ∨
      ∃ name text, inner = name ++ ':' :: '-' :: text ∧ ¬ [':', '-'] <:+: name ++ [':'] := by
  induction inner with
  | nil => exact .inl (by decide)
  | cons c rest ih =>
    by_cases hhere : [':', '-'] <+: c :: rest
    · obtain ⟨text, htext⟩ := hhere
      exact .inr ⟨[], text, htext.symm, by decide⟩
    · rcases ih with hnone | ⟨name, text, rfl, hfirst⟩
      · exact .inl (by rw [List.infix_cons_iff, not_or]; exact ⟨hhere, hnone⟩)
      · refine .inr ⟨c :: name, text, rfl, ?_⟩
        rw [List.cons_append, List.infix_cons_iff, not_or]
        refine ⟨fun h => hhere (h.trans ⟨'-' :: text, by simp⟩), hfirst⟩

theorem nameAndDefault_splitDefault (inner : List Char) :
    NameAndDefault inner (splitDefault inner).1 (splitDefault inner).2 := by
  have hexists : ∃ name fallback, NameAndDefault inner name fallback := by
    rcases exists_first inner with hnone | ⟨name, text, rfl, hfirst⟩
    · exact ⟨inner, none, .alone (.inl hnone)⟩
    · cases name with
      | nil => exact ⟨_, none, .alone (.inr ⟨text, rfl⟩)⟩
      | cons c name => exact ⟨_, some text, .withDefault (List.cons_ne_nil c name) hfirst⟩
  obtain ⟨name, fallback, h⟩ := hexists
  rw [splitDefault_eq h]
  exact h

end

/-! ## The reader -/

section

variable {inner name s : List Char} {parts : List Segment}

/-- What starts neither with a brace nor with a dollar sign may start with a name. -/
theorem reference_of_head (hs : ∀ c, s.head? = some c → c ≠ '$' ∧ c ≠ '{') :
    reference s = if (s.takeWhile isNameChar).isEmpty then (.char '$', 0)
      else (.variable (s.takeWhile isNameChar) none, (s.takeWhile isNameChar).length) := by
  rw [reference]
  · rintro rest rfl
    exact (hs '{' rfl).2 rfl
  · rintro rest rfl
    exact (hs '$' rfl).1 rfl

theorem ne_of_isNameChar {c : Char} (h : isNameChar c = true) : c ≠ '$' ∧ c ≠ '{' := by
  constructor
  · rintro rfl
    revert h
    decide
  · rintro rfl
    revert h
    decide

theorem reference_named (hne : name ≠ []) (hname : ∀ c ∈ name, isNameChar c = true)
    (hend : ∀ c, s.head? = some c → isNameChar c = false) :
    reference (name ++ s) = (.variable name none, name.length) := by
  have hafter : s.takeWhile isNameChar = [] := by
    cases s with
    | nil => rfl
    | cons c s => rw [List.takeWhile_cons, hend c rfl]; rfl
  have htake : (name ++ s).takeWhile isNameChar = name := by
    rw [List.takeWhile_append_of_pos hname, hafter, List.append_nil]
  have hhead : ∀ c, (name ++ s).head? = some c → c ≠ '$' ∧ c ≠ '{' := by
    intro c hc
    rw [List.head?_append_of_ne_nil _ hne] at hc
    exact ne_of_isNameChar (hname c (List.mem_of_head? hc))
  rw [reference_of_head hhead, htake, if_neg (by simpa using hne)]

theorem reference_braced (hinner : '}' ∉ inner) :
    reference ('{' :: (inner ++ '}' :: s)) =
      (.variable (splitDefault inner).1 (splitDefault inner).2, inner.length + 2) := by
  have htake : (inner ++ '}' :: s).takeWhile (· != '}') = inner := by
    have hall : ∀ c ∈ inner, (c != '}') = true := by
      intro c hc
      rw [bne_iff_ne]
      rintro rfl
      exact hinner hc
    rw [List.takeWhile_append_of_pos hall, List.takeWhile_cons_of_neg (by simp), List.append_nil]
  rw [reference, if_pos (by simp), htake]

theorem reference_unclosed (hs : '}' ∉ s) : reference ('{' :: s) = (.char '$', 0) := by
  rw [reference, if_neg (by simpa using hs)]

theorem reference_lone (hs : ∀ c, s.head? = some c → c ≠ '$' ∧ c ≠ '{' ∧ isNameChar c = false) :
    reference s = (.char '$', 0) := by
  rw [reference_of_head fun c hc => ⟨(hs c hc).1, (hs c hc).2.1⟩]
  cases s with
  | nil => rfl
  | cons c s => simp [(hs c rfl).2.2]

/-- A text is read as its segments. -/
theorem Reads.segments_eq (h : Reads s parts) : segments s = parts := by
  induction h with
  | nil => rfl
  | char hc _ ih => rw [segments_cons hc, ih]
  | escaped _ ih =>
    rw [segments_dollar]
    exact congrArg _ ih
  | named hne hname hend _ ih =>
    rw [segments_dollar, reference_named hne hname hend, List.drop_left, ih]
  | @braced inner name s fallback parts hinner hname _ ih =>
    have hdrop : ('{' :: (inner ++ '}' :: s)).drop (inner.length + 2) = s := by simp
    rw [segments_dollar, reference_braced hinner, splitDefault_eq hname, hdrop, ih]
  | unclosed hs _ ih => rw [segments_dollar, reference_unclosed hs, List.drop_zero, ih]
  | lone hs _ ih => rw [segments_dollar, reference_lone hs, List.drop_zero, ih]

/-- A dollar sign can be read, whatever comes after it. -/
theorem exists_reads_dollar (h : ∀ r : List Char, r.length ≤ s.length → ∃ parts, Reads r parts) :
    ∃ parts, Reads ('$' :: s) parts := by
  have hself := h s (Nat.le_refl _)
  cases s with
  | nil => exact ⟨_, .lone nofun .nil⟩
  | cons c s =>
    by_cases hdollar : c = '$'
    · subst hdollar
      obtain ⟨parts, hparts⟩ := h s (Nat.le_succ _)
      exact ⟨_, .escaped hparts⟩
    · by_cases hbrace : c = '{'
      · subst hbrace
        by_cases hclosed : '}' ∈ s
        · obtain ⟨inner, rest, rfl, hinner⟩ := List.eq_append_cons_of_mem hclosed
          obtain ⟨parts, hparts⟩ := h rest (by simp; omega)
          exact ⟨_, .braced hinner (nameAndDefault_splitDefault inner) hparts⟩
        · obtain ⟨parts, hparts⟩ := hself
          exact ⟨_, .unclosed hclosed hparts⟩
      · cases hname : isNameChar c with
        | true =>
          obtain ⟨parts, hparts⟩ := h ((c :: s).dropWhile isNameChar)
            (List.dropWhile_suffix _).length_le
          have hne : (c :: s).takeWhile isNameChar ≠ [] := by simp [hname]
          have hend : ∀ d, ((c :: s).dropWhile isNameChar).head? = some d →
              isNameChar d = false := by
            intro d hd
            have hnot := List.head?_dropWhile_not isNameChar (c :: s)
            rw [hd] at hnot
            simpa using hnot
          have hread := Reads.named hne (fun d hd => List.all_eq_true.mp List.all_takeWhile d hd)
            hend hparts
          rw [List.takeWhile_append_dropWhile] at hread
          exact ⟨_, hread⟩
        | false =>
          obtain ⟨parts, hparts⟩ := hself
          refine ⟨_, .lone ?_ hparts⟩
          intro d hd
          obtain rfl : c = d := Option.some.inj hd
          exact ⟨hdollar, hbrace, hname⟩

/-- Each text can be read. -/
theorem exists_reads (s : List Char) : ∃ parts, Reads s parts := by
  induction hn : s.length using Nat.strongRecOn generalizing s with
  | ind n ih =>
    subst hn
    cases s with
    | nil => exact ⟨[], .nil⟩
    | cons c s =>
      have hshorter : ∀ r : List Char, r.length ≤ s.length → ∃ parts, Reads r parts :=
        fun r hr => ih r.length (Nat.lt_succ_of_le hr) r rfl
      by_cases hc : c = '$'
      · subst hc
        exact exists_reads_dollar hshorter
      · obtain ⟨parts, hparts⟩ := hshorter s (Nat.le_refl _)
        exact ⟨_, .char hc hparts⟩

theorem reads_iff : Reads s parts ↔ segments s = parts := by
  constructor
  · exact Reads.segments_eq
  · rintro rfl
    obtain ⟨parts, h⟩ := exists_reads s
    rwa [h.segments_eq]

end

/-! ## Who is to blame -/

section

variable {env : Environment} {root : Path} {entry name : String}

theorem fill_eq_error_iff {part : Segment} :
    fill env part = .error name ↔ part = .variable name.toList none ∧ env.get? name = none := by
  constructor
  · intro h
    rcases part with c | ⟨other, fallback⟩
    · cases h
    · simp only [fill] at h
      split at h
      · cases h
      · cases h
      · next hget =>
        obtain rfl : String.ofList other = name := Except.error.inj h
        exact ⟨by rw [String.toList_ofList], hget⟩
  · rintro ⟨rfl, hget⟩
    simp only [fill, String.ofList_toList, hget]

theorem exists_fill_eq_ok_iff {part : Segment} :
    (∃ text, fill env part = .ok text) ↔
      ∀ other, part = .variable other.toList none → env.get? other ≠ none := by
  constructor
  · rintro ⟨text, h⟩ other hpart hget
    rw [fill_eq_error_iff.mpr ⟨hpart, hget⟩] at h
    cases h
  · intro h
    cases hfill : fill env part with
    | ok text => exact ⟨text, rfl⟩
    | error name =>
      obtain ⟨hpart, hget⟩ := fill_eq_error_iff.mp hfill
      exact absurd hget (h name hpart)

/-- A path that does not resolve blames its leftmost reference to a variable that is not set. -/
theorem resolve_eq_error_iff : resolve env root entry = .error name ↔ Blames env entry name := by
  have hexpand : resolve env root entry = .error name ↔
      (segments entry.toList).mapM (fill env) = .error name := by
    unfold resolve expand
    cases (segments entry.toList).mapM (fill env) with
    | error other => simp [bind, Except.bind]
    | ok texts => simp [bind, Except.bind, pure, Except.pure]
  rw [hexpand, mapM_eq_error_iff]
  simp only [exists_fill_eq_ok_iff, fill_eq_error_iff, Blames, reads_iff]
  constructor
  · rintro ⟨before, part, after, hparts, hbefore, rfl, hget⟩
    exact ⟨before, after, hparts, hget, fun other hother => hbefore _ hother other rfl⟩
  · rintro ⟨before, after, hparts, hget, hbefore⟩
    refine ⟨before, _, after, hparts, ?_, rfl, hget⟩
    rintro _ hmem other rfl
    exact hbefore other hmem

/-- A path resolves if it blames nothing. -/
theorem exists_resolve_eq_ok_iff :
    (∃ p, resolve env root entry = .ok p) ↔ ∀ name, ¬ Blames env entry name := by
  constructor
  · rintro ⟨p, h⟩ name hblames
    rw [resolve_eq_error_iff.mpr hblames] at h
    cases h
  · intro h
    cases hresolve : resolve env root entry with
    | ok p => exact ⟨p, rfl⟩
    | error name => exact absurd (resolve_eq_error_iff.mp hresolve) (h name)

end

end Template

end DocCoverage
