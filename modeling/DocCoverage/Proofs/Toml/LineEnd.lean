import DocCoverage.Proofs.Text.LineEnd
import DocCoverage.Proofs.Toml.Rest
import DocCoverage.Proofs.Toml.Writing
import Mathlib.Data.List.Infix

/-!
# Documents with line ends of two characters

A document without carriage returns and without strings of several lines says the same when every
line ends in a carriage return and a line feed, and when a byte order mark stands in front of it.

    p (crlf s) = (p s) with its rest in the other form              (Steady p)
    statements (crlf text) = statements text                        (statements_crlf)
-/

namespace DocCoverage.Toml

open Text (crlf)

/-- No carriage return is in a text, and no mark of a string of several lines. -/
structure IsTidy (s : List Char) : Prop where
  no_return : '\r' ∉ s
  no_marks : ∀ q ∈ ['"', '\''], ¬ [q, q, q] <:+: s

theorem IsTidy.of_suffix {s rest : List Char} (h : IsTidy s) (hsuffix : rest <:+ s) :
    IsTidy rest :=
  ⟨fun hmem => h.no_return (hsuffix.subset hmem),
    fun q hq hmarks => h.no_marks q hq (hmarks.trans hsuffix.isInfix)⟩

theorem IsTidy.of_cons {c : Char} {s : List Char} (h : IsTidy (c :: s)) : IsTidy s :=
  h.of_suffix (List.suffix_cons c s)

theorem IsTidy.ne_return {c : Char} {s : List Char} (h : IsTidy (c :: s)) : c ≠ '\r' := by
  rintro rfl
  exact h.no_return List.mem_cons_self

/-- A reader that takes the same from both forms of a tidy text, and leaves both forms of the
rest. -/
def Steady {α : Type} (p : Reader α) : Prop :=
  ∀ ⦃s⦄, IsTidy s → p (crlf s) = (p s).map fun (x, rest) => (x, crlf rest)

/-! ## Blanks and line ends -/

theorem skipBlanks_crlf (s : List Char) : skipBlanks (crlf s) = crlf (skipBlanks s) :=
  Text.dropWhile_crlf (by decide) (by decide) s

theorem skipComment_crlf (s : List Char) : skipComment (crlf s) = crlf (skipComment s) := by
  cases s with
  | nil => rfl
  | cons c s =>
    by_cases h : c = '\n'
    · subst h
      rfl
    · by_cases hc : c = '#'
      · subst hc
        exact Text.dropWhile_crlf (by decide) (by decide) s
      · have hskip : ∀ t, skipComment (c :: t) = c :: t := fun t => by simp [skipComment, hc]
        rw [Text.crlf_cons h, hskip, hskip, Text.crlf_cons h]

theorem newline?_crlf {s : List Char} (h : IsTidy s) : newline? (crlf s) = (newline? s).map crlf := by
  cases s with
  | nil => rfl
  | cons c s =>
    by_cases hc : c = '\n'
    · subst hc
      rfl
    · simp [Text.crlf_cons hc, newline?, hc, h.ne_return]

theorem finishLine_crlf {s : List Char} (h : IsTidy s) :
    finishLine (crlf s) = (finishLine s).map crlf := by
  have hrest := h.of_suffix ((skipComment_suffix _).trans (skipBlanks_suffix s))
  unfold finishLine
  rw [skipBlanks_crlf, skipComment_crlf]
  cases hs : skipComment (skipBlanks s) with
  | nil => rfl
  | cons c t =>
    rw [hs] at hrest
    by_cases hc : c = '\n'
    · subst hc
      rfl
    · have hline := newline?_crlf hrest
      rw [Text.crlf_cons hc] at hline ⊢
      exact hline

theorem skipGapFrom_crlf (within : Bool) {s : List Char} (h : IsTidy s) :
    skipGapFrom within (crlf s) = crlf (skipGapFrom within s) := by
  induction s generalizing within with
  | nil => rfl
  | cons c s ih =>
    by_cases hc : c = '\n'
    · subst hc
      have hfeed : ∀ b t, skipGapFrom b ('\n' :: t) = skipGapFrom false t := by
        simp [skipGapFrom, isTextChar]
      have hreturn : ∀ b t, skipGapFrom b ('\r' :: '\n' :: t) = skipGapFrom false ('\n' :: t) := by
        simp [skipGapFrom, isTextChar, isBlank]
      rw [Text.crlf_newline, hreturn, hfeed, hfeed, ih false h.of_cons]
    · have hcons : ∀ t, skipGapFrom within (c :: t) =
          if within && isTextChar c then skipGapFrom true t
          else if isBlank c then skipGapFrom false t
          else if c == '#' then skipGapFrom true t
          else c :: t := fun t => by simp [skipGapFrom, hc, h.ne_return]
      rw [Text.crlf_cons hc, hcons, hcons, ih true h.of_cons, ih false h.of_cons]
      split
      · rfl
      · split
        · rfl
        · split
          · rfl
          · exact (Text.crlf_cons hc s).symm

theorem skipGap_crlf {s : List Char} (h : IsTidy s) : skipGap (crlf s) = crlf (skipGap s) :=
  skipGapFrom_crlf false h

/-- No gap ends before a line feed. -/
theorem ne_newline_of_skipGap {s t : List Char} {c : Char} (h : skipGap s = c :: t) : c ≠ '\n' := by
  have hfrom : ∀ within, skipGapFrom within s = c :: t → c ≠ '\n' := by
    clear h
    induction s with
    | nil =>
      intro within h
      cases h
    | cons d s ih =>
      intro within h
      unfold skipGapFrom at h
      split at h
      · exact ih _ h
      · split at h
        · exact ih _ h
        · next hd =>
          split at h
          · exact ih _ h
          · obtain ⟨rfl, -⟩ := List.cons.inj h
            rintro rfl
            simp at hd
  exact hfrom false h

/-! ## Strings -/

theorem literal_crlf : Steady literal := by
  intro s h
  unfold literal
  simp only
  rw [Text.takeWhile_crlf (by decide) (by decide), Text.dropWhile_crlf (by decide) (by decide)]
  cases s.dropWhile fun c => isTextChar c && c != '\'' with
  | nil => rfl
  | cons c t =>
    by_cases hc : c = '\n'
    · subst hc
      rfl
    · by_cases hq : c = '\''
      · subst hq
        rfl
      · simp [Text.crlf_cons hc, hq]

theorem hexNumber?_eq_none {digits : List Char} {c : Char} (h : c ∈ digits)
    (hc : hexValue? c = none) : hexNumber? digits = none := by
  have hnone : ∀ l : List Char,
      l.foldl (fun n? c => do return (← n?) * 16 + (← hexValue? c)) none = none := by
    intro l
    induction l with
    | nil => rfl
    | cons d l ih => exact ih
  obtain ⟨front, back, rfl⟩ := List.append_of_mem h
  unfold hexNumber?
  rw [List.foldl_append, List.foldl_cons, hc]
  cases List.foldl _ (some 0) front <;> exact hnone back

/-- A number in hexadecimal digits ends before the line does. -/
theorem not_mem_take_of_numbered? {n : Nat} {s : List Char} {c : Char}
    (h : numbered? n s = some c) {d : Char} (hd : hexValue? d = none) : d ∉ s.take n := by
  intro hmem
  unfold numbered? at h
  simp [hexNumber?_eq_none hmem hd] at h

theorem numbered?_crlf (n : Nat) (s : List Char) : numbered? n (crlf s) = numbered? n s := by
  by_cases h : '\n' ∈ s.take n
  · have hleft : numbered? n (crlf s) = none := by
      rw [Option.eq_none_iff_forall_ne_some]
      exact fun c hc => not_mem_take_of_numbered? hc (by decide) (Text.return_mem_take_crlf h)
    have hright : numbered? n s = none := by
      rw [Option.eq_none_iff_forall_ne_some]
      exact fun c hc => not_mem_take_of_numbered? hc (by decide) h
    rw [hleft, hright]
  · unfold numbered?
    rw [(Text.take_crlf h).1]

theorem escape?_of_not_numbered {d : Char} (h : d ∉ ['x', 'u', 'U']) (s : List Char) :
    escape? (d :: s) = (letters.lookup d).map (·, 1) := by
  simp only [List.mem_cons, List.not_mem_nil, or_false, not_or] at h
  by_cases hd : d ∈ letters.map Prod.fst
  · simp only [letters, List.map_cons, List.map_nil, List.mem_cons, List.not_mem_nil,
      or_false] at hd
    rcases hd with rfl | rfl | rfl | rfl | rfl | rfl | rfl | rfl <;> rfl
  · have hnone : letters.lookup d = none := by
      rw [List.lookup_eq_none_iff]
      intro p hp
      rw [bne_iff_ne]
      rintro rfl
      exact hd (List.mem_map_of_mem hp)
    simp only [letters, List.map_cons, List.map_nil, List.mem_cons, List.not_mem_nil, or_false,
      not_or] at hd
    rw [hnone]
    simp [escape?, h, hd]

/-- An escape by number, with `k` digits after its letter. -/
theorem escape?_numbered_crlf {d : Char} {k : Nat} (hd : d ≠ '\n')
    (h : ∀ t, escape? (d :: t) = (numbered? k t).map (·, k + 1)) (s : List Char) :
    escape? (crlf (d :: s)) = escape? (d :: s) ∧
      ∀ c n, escape? (d :: s) = some (c, n) →
        (crlf (d :: s)).drop n = crlf ((d :: s).drop n) := by
  rw [Text.crlf_cons hd, h, h, numbered?_crlf]
  refine ⟨rfl, fun c n hc => ?_⟩
  obtain ⟨c', hc', he⟩ := Option.map_eq_some_iff.1 hc
  obtain rfl := (Prod.mk.inj he).2
  exact (Text.take_crlf (not_mem_take_of_numbered? hc' (by decide))).2

/-- An escape is the same in both forms of a text and ends before the line does. -/
theorem escape?_crlf (s : List Char) :
    escape? (crlf s) = escape? s ∧
      ∀ c n, escape? s = some (c, n) → (crlf s).drop n = crlf (s.drop n) := by
  cases s with
  | nil => simp
  | cons d s =>
    by_cases hnumbered : d ∈ ['x', 'u', 'U']
    · simp only [List.mem_cons, List.not_mem_nil, or_false] at hnumbered
      rcases hnumbered with rfl | rfl | rfl
      · exact escape?_numbered_crlf (by decide) (fun t => rfl) s
      · exact escape?_numbered_crlf (by decide) (fun t => rfl) s
      · exact escape?_numbered_crlf (by decide) (fun t => rfl) s
    · by_cases hd : d = '\n'
      · subst hd
        simp [escape?]
      · rw [Text.crlf_cons hd, escape?_of_not_numbered hnumbered, escape?_of_not_numbered hnumbered]
        refine ⟨rfl, fun c n hc => ?_⟩
        obtain ⟨c', -, he⟩ := Option.map_eq_some_iff.1 hc
        obtain rfl := (Prod.mk.inj he).2
        rfl

theorem basicFrom_crlf (done : List Char) : Steady (basicFrom 0 done) := by
  intro s hs
  induction hn : s.length using Nat.strongRecOn generalizing s done with
  | ind n ih =>
    cases s with
    | nil => rfl
    | cons c s =>
      by_cases hc : c = '\n'
      · subst hc
        rfl
      · rw [Text.crlf_cons hc]
        by_cases hescape : c = '\\'
        · subst hescape
          obtain ⟨hsame, hdrop⟩ := escape?_crlf s
          cases he : escape? s with
          | none => simp [basicFrom, hsame, he]
          | some p =>
            obtain ⟨d, n⟩ := p
            rw [basicFrom_escape (hsame.trans he), basicFrom_escape he, hdrop d n he]
            have hlength : (s.drop n).length ≤ s.length := by simp
            exact ih _ (by simp at hn; omega) _ (hs.of_cons.of_suffix (List.drop_suffix n s)) rfl
        · have hstep : ∀ t, basicFrom 0 done (c :: t) =
              if c == '"' then some (String.ofList done.reverse, t)
              else if isTextChar c then basicFrom 0 (c :: done) t
              else none := fun t => by simp [basicFrom, hescape]
          rw [hstep, hstep, ih s.length (by simp [← hn]) _ hs.of_cons rfl]
          split
          · rfl
          · split <;> rfl

theorem quoted_crlf : Steady quoted := by
  intro s h
  cases s with
  | nil => rfl
  | cons c s =>
    by_cases hc : c = '\n'
    · subst hc
      rfl
    · rw [Text.crlf_cons hc]
      by_cases hliteral : c = '\''
      · subst hliteral
        exact literal_crlf h.of_cons
      · by_cases hbasic : c = '"'
        · subst hbasic
          exact basicFrom_crlf [] h.of_cons
        · simp [quoted, hliteral, hbasic]

/-- A tidy text holds only strings on one line. -/
theorem string_crlf : Steady string := by
  intro s h
  have hmarks : ∀ q ∈ ['"', '\''], ∀ rest, s ≠ q :: q :: q :: rest := by
    rintro q hq rest rfl
    exact h.no_marks q hq ⟨[], rest, rfl⟩
  have hmarks' : ∀ q ∈ ['"', '\''], ∀ rest, crlf s ≠ q :: q :: q :: rest := by
    intro q hq rest he
    have hq' : q ≠ '\r' := ne_of_mem_of_not_mem hq (by decide)
    obtain ⟨s₁, rfl, he₁⟩ := Text.crlf_eq_cons hq' he
    obtain ⟨s₂, rfl, he₂⟩ := Text.crlf_eq_cons hq' he₁.symm
    obtain ⟨s₃, rfl, -⟩ := Text.crlf_eq_cons hq' he₂.symm
    exact hmarks q hq s₃ rfl
  rw [string_eq_quoted hmarks, string_eq_quoted hmarks']
  exact quoted_crlf h

/-! ## Keys -/

theorem keyPart_crlf : Steady keyPart := by
  intro s h
  unfold keyPart
  rw [Text.head?_any_crlf (by decide) (by decide), Text.takeWhile_crlf (by decide) (by decide),
    Text.dropWhile_crlf (by decide) (by decide), quoted_crlf h]
  split <;> rfl

theorem keyUpTo_crlf (parts : Nat) : Steady (keyUpTo parts) := by
  induction parts with
  | zero =>
    intro s h
    rfl
  | succ parts ih =>
    intro s h
    unfold keyUpTo
    rw [keyPart_crlf h]
    cases hpart : keyPart s with
    | none => rfl
    | some p =>
      obtain ⟨part, after⟩ := p
      have hafter := h.of_suffix ((skipBlanks_suffix after).trans (keyPart_suffix hpart))
      simp only [Option.map_some, skipBlanks_crlf]
      cases hblanks : skipBlanks after with
      | nil => rfl
      | cons c more =>
        rw [hblanks] at hafter
        by_cases hc : c = '\n'
        · subst hc
          rfl
        · by_cases hdot : c = '.'
          · subst hdot
            have hmore := hafter.of_cons.of_suffix (skipBlanks_suffix more)
            rw [Text.crlf_cons hc]
            simp only [skipBlanks_crlf, ih hmore]
            cases keyUpTo parts (skipBlanks more) <;> rfl
          · simp [Text.crlf_cons hc, hdot]

theorem key_crlf : Steady key :=
  keyUpTo_crlf maxParts

/-! ## Values -/

/-- A value without quotes goes on behind a space only if a digit follows it. -/
theorem plain_crlf : Steady plain := by
  intro s h
  have hword : ∀ s, (crlf s).takeWhile isPlainChar = s.takeWhile isPlainChar :=
    Text.takeWhile_crlf (by decide) (by decide)
  have hrest : ∀ s, (crlf s).dropWhile isPlainChar = crlf (s.dropWhile isPlainChar) :=
    Text.dropWhile_crlf (by decide) (by decide)
  have hblank : ∀ t, crlf (' ' :: t) = ' ' :: crlf t := Text.crlf_cons (by decide)
  unfold plain
  simp only [hword, hrest]
  cases s.dropWhile isPlainChar with
  | nil => simp [Function.comp_def]
  | cons c more =>
    by_cases hc : c = '\n'
    · subst hc
      simp [Function.comp_def]
    · rw [Text.crlf_cons hc]
      by_cases hspace : c = ' '
      · subst hspace
        cases more with
        | nil => simp [hblank, Function.comp_def]
        | cons d more =>
          by_cases hd : d = '\n'
          · subst hd
            have hfeed : Char.isDigit '\n' = false := by decide
            have hreturn : Char.isDigit '\r' = false := by decide
            simp [hfeed, hreturn, hblank, Function.comp_def]
          · have hword' := hword (d :: more)
            have hrest' := hrest (d :: more)
            rw [Text.crlf_cons hd] at hword' hrest' ⊢
            simp only [hword', hrest']
            split
            · simp [Function.comp_def]
            · simp [hblank, Text.crlf_cons hd, Function.comp_def]
      · simp [hspace, Text.crlf_cons hc, Function.comp_def]

section
variable {α : Type} {item : Reader α} (hfront : TakesFront item) (hitem : Steady item) (close : Char)
include hfront hitem

/-- Both forms are read in lockstep. -/
theorem separated_crlf (fuel : Nat) (done : List α) :
    Steady (separated item close fuel done) := by
  induction fuel generalizing done with
  | zero =>
    intro s h
    rfl
  | succ fuel ih =>
    intro s h
    have hgap := h.of_suffix (skipGap_suffix s)
    unfold separated
    rw [skipGap_crlf h]
    cases hs : skipGap s with
    | nil => rfl
    | cons c after =>
      rw [hs] at hgap
      have hc := ne_newline_of_skipGap hs
      have hread := hitem hgap
      rw [Text.crlf_cons hc] at hread ⊢
      simp only [hread]
      split
      · rfl
      · cases hx : item (c :: after) with
        | none => rfl
        | some p =>
          obtain ⟨x, behind⟩ := p
          have hbehind := hgap.of_suffix (hfront hx)
          simp only [Option.map_some, skipGap_crlf hbehind]
          cases hd : skipGap behind with
          | nil => rfl
          | cons d more =>
            have hmore := hbehind.of_suffix (skipGap_suffix behind)
            rw [hd] at hmore
            rw [Text.crlf_cons (ne_newline_of_skipGap hd)]
            simp only
            split
            · exact ih _ hmore.of_cons
            · split <;> rfl

/-- What an array holds does not depend on the form of its text. -/
theorem separated_length_crlf {s : List Char} (h : IsTidy s) (done : List α) :
    separated item close (crlf s).length done (crlf s) =
      (separated item close s.length done s).map fun (xs, rest) => (xs, crlf rest) := by
  rw [separated_crlf hfront hitem close _ done h,
    separated_fuel hfront close (Text.length_le_length_crlf s) (Nat.le_refl _)]

end

theorem inlinePair_crlf {value : Reader Value} (hvalue : Steady value) :
    Steady (inlinePair value) := by
  intro s h
  unfold inlinePair
  rw [key_crlf h]
  cases hkey : key s with
  | none => rfl
  | some p =>
    obtain ⟨ks, after⟩ := p
    have hafter := h.of_suffix (key_suffix hkey)
    simp only [Option.map_some, skipGap_crlf hafter]
    cases hgap : skipGap after with
    | nil => rfl
    | cons c more =>
      have hmore := hafter.of_suffix (skipGap_suffix after)
      rw [hgap] at hmore
      rw [Text.crlf_cons (ne_newline_of_skipGap hgap)]
      by_cases hc : c = '='
      · subst hc
        simp only [skipGap_crlf hmore.of_cons,
          hvalue (hmore.of_cons.of_suffix (skipGap_suffix more))]
        cases value (skipGap more) <;> rfl
      · simp [hc]

/-- Both forms of a text start with the same mark, if they start with one. -/
theorem head?_crlf_ne {c : Char} (hc : c ≠ '\r') {s : List Char} (h : s.head? ≠ some c) :
    (crlf s).head? ≠ some c := by
  intro hcrlf
  obtain ⟨t, ht⟩ := List.head?_eq_some_iff.1 hcrlf
  obtain ⟨u, rfl, -⟩ := Text.crlf_eq_cons hc ht
  exact h rfl

theorem valueUpTo_string_crlf (depth : Nat) {q : Char} (hq : q = '"' ∨ q = '\'') {t : List Char}
    (h : IsTidy (q :: t)) :
    valueUpTo depth (crlf (q :: t)) =
      (valueUpTo depth (q :: t)).map fun (x, rest) => (x, crlf rest) := by
  have hread := string_crlf h
  have hne : q ≠ '\n' := by rcases hq with rfl | rfl <;> decide
  rw [Text.crlf_cons hne] at hread ⊢
  rw [valueUpTo_eq_string depth hq, valueUpTo_eq_string depth hq, hread]
  cases string (q :: t) <;> rfl

/-- Only arrays and inline tables are left to look at. -/
theorem valueUpTo_crlf_of_open {depth : Nat}
    (h : ∀ c ∈ ['[', '{'], ∀ t, IsTidy (c :: t) →
      valueUpTo depth (crlf (c :: t)) =
        (valueUpTo depth (c :: t)).map fun (x, rest) => (x, crlf rest)) :
    Steady (valueUpTo depth) := by
  intro s hs
  by_cases hmarks : ∀ c ∈ ['"', '\'', '[', '{'], s.head? ≠ some c
  · have hmarks' : ∀ c ∈ ['"', '\'', '[', '{'], (crlf s).head? ≠ some c := fun c hc =>
      head?_crlf_ne (ne_of_mem_of_not_mem hc (by decide)) (hmarks c hc)
    rw [valueUpTo_eq_plain depth hmarks, valueUpTo_eq_plain depth hmarks', plain_crlf hs]
  · simp only [List.mem_cons, List.not_mem_nil, or_false, not_forall, not_not] at hmarks
    obtain ⟨c, hc, hhead⟩ := hmarks
    obtain ⟨t, rfl⟩ := List.head?_eq_some_iff.1 hhead
    rcases hc with rfl | rfl | rfl | rfl
    · exact valueUpTo_string_crlf depth (.inl rfl) hs
    · exact valueUpTo_string_crlf depth (.inr rfl) hs
    · exact h _ (by simp) t hs
    · exact h _ (by simp) t hs

theorem valueUpTo_crlf (depth : Nat) : Steady (valueUpTo depth) := by
  induction depth with
  | zero =>
    -- arrays and inline tables are nested too deep
    refine valueUpTo_crlf_of_open fun c hc t _ => ?_
    simp only [List.mem_cons, List.not_mem_nil, or_false] at hc
    rcases hc with rfl | rfl <;> rfl
  | succ depth ih =>
    refine valueUpTo_crlf_of_open fun c hc t h => ?_
    simp only [List.mem_cons, List.not_mem_nil, or_false] at hc
    rcases hc with rfl | rfl
    · rw [Text.crlf_cons (by decide), valueUpTo_array, valueUpTo_array,
        separated_length_crlf (valueUpTo_suffix depth) ih _ h.of_cons]
      cases separated (valueUpTo depth) ']' t.length [] t <;> rfl
    · rw [Text.crlf_cons (by decide)]
      unfold valueUpTo
      simp only
      rw [separated_length_crlf (inlinePair_suffix (valueUpTo_suffix depth))
        (inlinePair_crlf ih) _ h.of_cons]
      cases separated (inlinePair (valueUpTo depth)) '}' t.length [] t with
      | none => rfl
      | some p => cases hassign : Entries.assignAll p.1 .inline [] <;> simp [hassign]

/-! ## Statements -/

theorem closedKey_crlf {close : List Char} (hfeed : '\n' ∉ close) (hreturn : '\r' ∉ close)
    {s : List Char} (h : IsTidy s) :
    closedKey close (crlf s) = (closedKey close s).map fun (ks, rest) => (ks, crlf rest) := by
  unfold closedKey
  rw [skipBlanks_crlf, key_crlf (h.of_suffix (skipBlanks_suffix s))]
  cases hkey : key (skipBlanks s) with
  | none => rfl
  | some p =>
    obtain ⟨ks, after⟩ := p
    have hiff : close.isPrefixOf (crlf after) = close.isPrefixOf after := by
      rw [Bool.eq_iff_iff, List.isPrefixOf_iff_prefix, List.isPrefixOf_iff_prefix]
      exact Text.prefix_crlf_iff hfeed hreturn
    simp only [Option.map_some, hiff]
    split
    · next hclose =>
      obtain ⟨more, rfl⟩ := List.isPrefixOf_iff_prefix.1 hclose
      have htake : '\n' ∉ (close ++ more).take close.length := by simpa using hfeed
      rw [(Text.take_crlf htake).2]
      rfl
    · rfl

theorem statement_crlf : Steady statement := by
  intro s h
  by_cases hs : s.head? = some '['
  · obtain ⟨t, rfl⟩ := List.head?_eq_some_iff.1 hs
    rw [Text.crlf_cons (by decide)]
    by_cases ht : t.head? = some '['
    · obtain ⟨u, rfl⟩ := List.head?_eq_some_iff.1 ht
      have helement : ∀ u, statement ('[' :: '[' :: u) =
          (closedKey [']', ']'] u).map fun (ks, s) => (.element ks, s) := fun u => rfl
      rw [Text.crlf_cons (by decide), helement, helement,
        closedKey_crlf (by decide) (by decide) h.of_cons.of_cons]
      cases closedKey [']', ']'] u <;> rfl
    · rw [statement_eq_header ht, statement_eq_header (head?_crlf_ne (by decide) ht),
        closedKey_crlf (by decide) (by decide) h.of_cons]
      cases closedKey [']'] t <;> rfl
  · rw [statement_eq_define hs, statement_eq_define (head?_crlf_ne (by decide) hs),
      closedKey_crlf (by decide) (by decide) h]
    cases hkey : closedKey ['='] s with
    | none => rfl
    | some p =>
      have hafter := h.of_suffix ((skipBlanks_suffix p.2).trans (closedKey_suffix hkey).1)
      simp only [Option.map_some, skipBlanks_crlf, value, valueUpTo_crlf maxDepth hafter]
      cases valueUpTo maxDepth (skipBlanks p.2) <;> rfl

/-- Both forms are read in lockstep, statement by statement. -/
theorem statementsFrom_crlf (fuel : Nat) (done : List Statement) {s : List Char} (h : IsTidy s) :
    statementsFrom fuel done (crlf s) = statementsFrom fuel done s := by
  induction fuel generalizing done s with
  | zero => rfl
  | succ fuel ih =>
    have hskip := h.of_suffix (skipBlanks_suffix s)
    unfold statementsFrom
    rw [finishLine_crlf h]
    cases hline : finishLine s with
    | none =>
      simp only [Option.map_none, skipBlanks_crlf, statement_crlf hskip]
      cases hstmt : statement (skipBlanks s) with
      | none => rfl
      | some p =>
        have hafter := hskip.of_suffix (statement_suffix hstmt).1
        simp only [Option.map_some, finishLine_crlf hafter]
        cases hend : finishLine p.2 with
        | none => rfl
        | some rest => exact ih _ (hafter.of_suffix (finishLine_suffix hend).1)
    | some rest =>
      have hrest := ih done (h.of_suffix (finishLine_suffix hline).1)
      cases rest with
      | nil => rfl
      | cons c rest =>
        by_cases hc : c = '\n'
        · subst hc
          exact hrest
        · rw [Text.crlf_cons hc] at hrest
          simpa [Text.crlf_cons hc] using hrest

theorem skipMark_of_head {s : List Char} (h : s.head? ≠ some '\ufeff') : skipMark s = s := by
  unfold skipMark
  split
  · simp at h
  · rfl

section
variable {text : List Char} (hmark : text.head? ≠ some '\ufeff')
include hmark

/-- The form of the line ends of a document says nothing. -/
theorem statements_crlf (h : IsTidy text) : statements (crlf text) = statements text := by
  have hlength := Text.length_le_length_crlf text
  unfold statements
  rw [skipMark_of_head hmark, skipMark_of_head (head?_crlf_ne (by decide) hmark),
    statementsFrom_crlf _ _ h]
  exact statementsFrom_fuel (by omega) (by omega) _

/-- A byte order mark in front of a document says nothing. -/
theorem statements_mark : statements ('\ufeff' :: text) = statements text := by
  have hlength : ('\ufeff' :: text).length = text.length + 1 := rfl
  have hskip : skipMark ('\ufeff' :: text) = text := rfl
  unfold statements
  rw [hskip, skipMark_of_head hmark]
  exact statementsFrom_fuel (by omega) (by omega) _

end

end DocCoverage.Toml
