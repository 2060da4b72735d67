import DocCoverage.Proofs.Toml.Assignment

/-!
# The grammar of values

A value is a string of one line or of several, a text without quotes, or it is put together from other
values between brackets or braces, with gaps around them.  The reader takes every value of the grammar
whole, in front of anything that may follow a value.

    string (s ++ rest)  =  some (t, rest)                      if s writes the string t  (string_writes)
    valueUpTo depth (s ++ rest)  =  some (v, rest)              if s writes the value v   (reads_writes)

In the line of a definition a value of the grammar may stand alone                     (isValue_writes).
-/

namespace DocCoverage.Toml

variable {s t g rest : List Char} {v : Value}

/-! ## Gaps -/

def IsLineEnd (e : List Char) : Prop :=
  e = ['\n'] ∨ e = ['\r', '\n']

/-- What may stand around the parts of a value: blanks, line ends and comments. -/
inductive IsGap : List Char → Prop
  | nil : IsGap []
  | blank {c : Char} {g : List Char} (hc : isBlank c = true) (h : IsGap g) : IsGap (c :: g)
  | newline {e g : List Char} (he : IsLineEnd e) (h : IsGap g) : IsGap (e ++ g)
  | comment {t e g : List Char} (ht : ∀ c ∈ t, isTextChar c = true) (he : IsLineEnd e)
      (h : IsGap g) : IsGap ('#' :: (t ++ (e ++ g)))

/-- Nothing of a comment is looked at. -/
theorem skipGapFrom_comment (ht : ∀ c ∈ t, isTextChar c = true) (s : List Char) :
    skipGapFrom true (t ++ s) = skipGapFrom true s := by
  induction t with
  | nil => rfl
  | cons c t ih =>
    obtain ⟨hc, ht⟩ := List.forall_mem_cons.mp ht
    rw [List.cons_append, ← ih ht]
    simp [skipGapFrom, hc]

theorem IsLineEnd.skipGapFrom_append {e : List Char} (he : IsLineEnd e) (within : Bool)
    (s : List Char) : skipGapFrom within (e ++ s) = skipGapFrom false s := by
  have htext : isTextChar '\n' = false ∧ isTextChar '\r' = false := by decide
  rcases he with rfl | rfl
  · simp [skipGapFrom, htext]
  · simp [skipGapFrom, htext]

/-- Gaps are passed over. -/
theorem IsGap.skipGap_append (h : IsGap g) (s : List Char) : skipGap (g ++ s) = skipGap s := by
  induction h with
  | nil => rfl
  | blank hc h ih =>
    rw [← ih]
    simp [skipGap, skipGapFrom, hc]
  | newline he h ih =>
    rw [List.append_assoc, ← ih]
    exact he.skipGapFrom_append false _
  | @comment t e g ht he h ih =>
    show skipGapFrom true (t ++ (e ++ g) ++ s) = _
    rw [List.append_assoc, List.append_assoc, skipGapFrom_comment ht, he.skipGapFrom_append]
    exact ih

/-- Blanks in front of a gap are part of it. -/
theorem skipGap_skipBlanks (s : List Char) : skipGap (skipBlanks s) = skipGap s := by
  induction s with
  | nil => rfl
  | cons c s ih =>
    cases hc : isBlank c with
    | true =>
      have hskip : skipBlanks (c :: s) = skipBlanks s := List.dropWhile_cons_of_pos hc
      rw [hskip, ih]
      exact ((IsGap.blank hc .nil).skipGap_append s).symm
    | false =>
      have hskip : skipBlanks (c :: s) = c :: s := skipBlanks_of_head (by simpa using hc)
      rw [hskip]

/-! ## What may follow -/

/-- The characters that gaps start with. -/
def gapChars : List Char := [' ', '\t', '\n', '\r', '#']

/-- The characters that items end in front of. -/
def itemEnds : List Char := [',', ']', '}']

theorem notMem_gapChars {c : Char} (hc : c ∈ itemEnds) : c ∉ gapChars := by
  simp only [itemEnds, List.mem_cons, List.not_mem_nil, or_false] at hc
  rcases hc with rfl | rfl | rfl <;> simp [gapChars]

/-- The text behind a value: it does not go on with a character of a value, nor with the time of a date
that the value is. -/
def Follows (rest : List Char) : Prop :=
  ∃ c t, rest = c :: t ∧ c ∈ gapChars ++ itemEnds ∧
    (c = ' ' → ∀ d, t.head? = some d → d.isDigit = false)

theorem mem_gapChars_of_isBlank {c : Char} (hc : isBlank c = true) : c ∈ gapChars := by
  simp only [isBlank, Bool.or_eq_true, beq_iff_eq] at hc
  rcases hc with rfl | rfl <;> simp [gapChars]

/-- The first character of a gap, or of what stands behind it. -/
theorem IsGap.head?_append (h : IsGap g) (s : List Char) :
    (g ++ s).head? = s.head? ∨ ∃ c ∈ gapChars, (g ++ s).head? = some c := by
  cases h with
  | nil => exact .inl rfl
  | blank hc h => exact .inr ⟨_, mem_gapChars_of_isBlank hc, rfl⟩
  | newline he h =>
    rcases he with rfl | rfl
    · exact .inr ⟨'\n', by simp [gapChars], rfl⟩
    · exact .inr ⟨'\r', by simp [gapChars], rfl⟩
  | comment ht he h => exact .inr ⟨'#', by simp [gapChars], rfl⟩

/-- A value may be followed by a gap and one of the marks that separate or close. -/
theorem follows_gap (h : IsGap g) {c : Char} (hc : c ∈ itemEnds) (rest : List Char) :
    Follows (g ++ c :: rest) := by
  have hdigit : ∀ d ∈ gapChars ++ itemEnds, d.isDigit = false := by simp [gapChars, itemEnds]
  cases h with
  | nil =>
    refine ⟨c, rest, rfl, List.mem_append_right _ hc, ?_⟩
    rintro rfl
    simp [itemEnds] at hc
  | @blank d g hd h =>
    refine ⟨d, g ++ c :: rest, rfl, List.mem_append_left _ (mem_gapChars_of_isBlank hd),
      fun _ a ha => ?_⟩
    rcases h.head?_append (c :: rest) with he | ⟨b, hb, he⟩
    · obtain rfl := Option.some.inj (ha.symm.trans he)
      exact hdigit _ (List.mem_append_right _ hc)
    · obtain rfl := Option.some.inj (ha.symm.trans he)
      exact hdigit _ (List.mem_append_left _ hb)
  | newline he h =>
    rcases he with rfl | rfl
    · exact ⟨'\n', _, rfl, by simp [gapChars], by simp⟩
    · exact ⟨'\r', _, rfl, by simp [gapChars], by simp⟩
  | comment ht he h => exact ⟨'#', _, rfl, by simp [gapChars], by simp⟩

theorem follows_newline : Follows ['\n'] := ⟨'\n', [], rfl, by simp [gapChars], by simp⟩

theorem Follows.head?_ne (h : Follows rest) : ∀ q ∈ ['"', '\''], rest.head? ≠ some q := by
  obtain ⟨c, t, rfl, hc, -⟩ := h
  intro q hq he
  obtain rfl := Option.some.inj he
  simp only [List.mem_cons, List.not_mem_nil, or_false] at hq
  rcases hq with rfl | rfl <;> simp [gapChars, itemEnds] at hc

/-- A text that a reader takes whole, in front of what may follow. -/
structure Reads {α : Type} (item : Reader α) (s : List Char) (x : α) : Prop where
  starts : ∃ c t, s = c :: t ∧ c ∉ gapChars ++ itemEnds
  reads : ∀ rest, Follows rest → item (s ++ rest) = some (x, rest)

/-! ## Items -/

/-- Items with commas between them, gaps around each, and perhaps one more comma behind the last. -/
inductive WritesItems {α : Type} (item : List Char → α → Prop) : List Char → List α → Prop
  | none {g : List Char} (hg : IsGap g) : WritesItems item g []
  | last {g g' s : List Char} {x : α} (hg : IsGap g) (h : item s x) (hg' : IsGap g') :
      WritesItems item (g ++ (s ++ g')) [x]
  | cons {g g' s t : List Char} {x : α} {xs : List α} (hg : IsGap g) (h : item s x)
      (hg' : IsGap g') (hrest : WritesItems item t xs) :
      WritesItems item (g ++ (s ++ (g' ++ ',' :: t))) (x :: xs)

section
variable {α : Type} {item : Reader α} {x : α} {close : Char}

/-- An item between gaps is followed by a comma or by the closing character. -/
theorem separated_reads (hg : IsGap g) (h : Reads item s x) {g' : List Char} (hg' : IsGap g')
    (hclose : close ∈ [']', '}']) {c : Char} (hc : c = ',' ∨ c = close) (rest : List Char)
    (fuel : Nat) (done : List α) :
    separated item close (fuel + 1) done (g ++ (s ++ (g' ++ c :: rest))) =
      if c = ',' then separated item close fuel (x :: done) rest
      else some ((x :: done).reverse, rest) := by
  have hmark : c ∈ itemEnds := by
    rcases hc with rfl | rfl
    · exact List.mem_cons_self
    · exact List.mem_cons_of_mem _ hclose
  have hread := h.reads _ (follows_gap hg' hmark rest)
  obtain ⟨d, t, rfl, hd⟩ := h.starts
  have hne : d ≠ close := by
    rintro rfl
    exact hd (List.mem_append_right _ (List.mem_cons_of_mem _ hclose))
  have hfirst : skipGap (g ++ (d :: t ++ (g' ++ c :: rest))) = d :: (t ++ (g' ++ c :: rest)) := by
    rw [hg.skipGap_append]
    exact skipGap_of_head (fun hmem => hd (List.mem_append_left _ hmem)) _
  have hnext : skipGap (g' ++ c :: rest) = c :: rest := by
    rw [hg'.skipGap_append]
    exact skipGap_of_head (notMem_gapChars hmark) rest
  rw [List.cons_append] at hread
  simp only [separated, hfirst, if_neg hne, hread, hnext]
  rcases hc with rfl | rfl
  · rfl
  · have hcomma : c ≠ ',' := by
      rintro rfl
      simp at hclose
    rw [if_neg hcomma, if_neg hcomma, if_pos rfl]

/-- Items are read one after the other, up to the closing character. -/
theorem separated_writesItems {Item : List Char → α → Prop} {xs : List α}
    (hitem : ∀ s x, Item s x → Reads item s x) (hclose : close ∈ [']', '}'])
    (h : WritesItems Item s xs) (rest : List Char) {fuel : Nat} (hfuel : s.length < fuel)
    (done : List α) :
    separated item close fuel done (s ++ close :: rest) = some (done.reverse ++ xs, rest) := by
  have hcomma : close ≠ ',' := by
    rintro rfl
    simp at hclose
  have hend : skipGap (close :: rest) = close :: rest :=
    skipGap_of_head (notMem_gapChars (List.mem_cons_of_mem _ hclose)) rest
  induction h generalizing fuel done with
  | none hg =>
    obtain ⟨fuel, rfl⟩ : ∃ n, fuel = n + 1 := ⟨fuel - 1, by omega⟩
    have hgap : skipGap (_ ++ close :: rest) = close :: rest := (hg.skipGap_append _).trans hend
    simp only [separated, hgap, if_pos]
    simp
  | last hg hs hg' =>
    obtain ⟨fuel, rfl⟩ : ∃ n, fuel = n + 1 := ⟨fuel - 1, by omega⟩
    have hstep := separated_reads hg (hitem _ _ hs) hg' hclose (.inr rfl) rest fuel done
    rw [if_neg hcomma] at hstep
    simp only [List.append_assoc]
    rw [hstep, List.reverse_cons]
  | @cons g g' s t x xs hg hs hg' hrest ih =>
    obtain ⟨fuel, rfl⟩ : ∃ n, fuel = n + 1 := ⟨fuel - 1, by omega⟩
    have hlength : t.length < fuel := by
      simp only [List.length_append, List.length_cons] at hfuel
      omega
    have hstep := separated_reads hg (hitem _ _ hs) hg' hclose (.inl rfl) (t ++ close :: rest) fuel done
    rw [if_pos rfl, ih hlength] at hstep
    simp only [List.append_assoc, List.cons_append]
    rw [hstep, List.reverse_cons, List.append_assoc, List.singleton_append]

end

/-! ## Strings of several lines -/

/-- Blanks and line ends. -/
inductive IsWhite : List Char → Prop
  | nil : IsWhite []
  | blank {c : Char} {w : List Char} (hc : isBlank c = true) (h : IsWhite w) : IsWhite (c :: w)
  | newline {e w : List Char} (he : IsLineEnd e) (h : IsWhite w) : IsWhite (e ++ w)

/-- The inside of a string of several lines, behind `n` marks in a row, and what it says.  Marks stand
for themselves, at most two in a row.  Between quotation marks there are escapes, and a backslash at
the end of a line joins it with what follows the next blanks and line ends. -/
inductive SpellsLines (mark : Char) : (n : Nat) → List Char → (text : List Char) → Prop
  | nil {n : Nat} : SpellsLines mark n [] []
  | itself {n : Nat} {c : Char} {s t : List Char} (hc : standsInLines c s = true) (hmark : c ≠ mark)
      (hescape : mark = '"' → c ≠ '\\') (h : SpellsLines mark 0 s t) :
      SpellsLines mark n (c :: s) (c :: t)
  | mark {n : Nat} {s t : List Char} (hn : n < 2) (h : SpellsLines mark (n + 1) s t) :
      SpellsLines mark n (mark :: s) (mark :: t)
  | escape {n : Nat} {c : Char} {p s t : List Char} (hmark : mark = '"') (hp : IsEscape c p)
      (h : SpellsLines mark 0 s t) : SpellsLines mark n ('\\' :: (p ++ s)) (c :: t)
  | join {n : Nat} {b e w s t : List Char} (hmark : mark = '"') (hb : IsBlanks b) (he : IsLineEnd e)
      (hw : IsWhite w) (hblank : ∀ c, s.head? = some c → isBlank c = false)
      (hnewline : newline? s = none) (h : SpellsLines mark 0 s t) :
      SpellsLines mark n ('\\' :: (b ++ (e ++ (w ++ s)))) t

/-- The ways to write a string over several lines. -/
inductive WritesLines (text : String) : List Char → Prop
  | intro {mark : Char} {e s : List Char} (hmark : mark ∈ ['"', '\''])
      (he : IsLineEnd e ∨ e = [] ∧ newline? s = none) (h : SpellsLines mark 0 s text.toList) :
      WritesLines text (mark :: mark :: mark :: (e ++ (s ++ [mark, mark, mark])))

section
variable {mark : Char} {n : Nat} {done text : List Char}

theorem closing?_of_ne {a : Char} (ha : a ≠ mark) (done s : List Char) :
    closing? mark done (a :: s) = none := by
  cases s with
  | nil => rfl
  | cons b s => simp [closing?, ha]

theorem closing?_of_ne_second {b : Char} (hb : b ≠ mark) (a : Char) (done s : List Char) :
    closing? mark done (a :: b :: s) = none := by
  simp [closing?, hb]

/-- The first mark of several in a row is passed over, or it ends the string together with the marks
behind it. -/
theorem closing?_spells (hn : n < 2) (h : SpellsLines mark (n + 1) s text)
    (hrest : rest.head? ≠ some mark) (done : List Char) :
    closing? mark done (s ++ mark :: mark :: mark :: rest) = none ∨
    closing? mark done (s ++ mark :: mark :: mark :: rest) =
      some (String.ofList (done.reverse ++ mark :: text), rest) := by
  have hextra : (rest.take 1).takeWhile (· == mark) = [] := by
    cases rest with
    | nil => rfl
    | cons c rest =>
      have hc : (c == mark) = false := by simpa using hrest
      simp [hc]
  have hslash : mark = '"' → '\\' ≠ mark := by
    rintro rfl
    decide
  cases h with
  | nil => exact .inr (by simp [closing?, hextra])
  | itself _ hmark _ _ => exact .inl (closing?_of_ne hmark _ _)
  | escape hmark _ _ => exact .inl (closing?_of_ne (hslash hmark) _ _)
  | join hmark _ _ _ _ _ _ => exact .inl (closing?_of_ne (hslash hmark) _ _)
  | mark hn' h =>
    cases h with
    | nil => exact .inr (by simp [closing?])
    | itself _ hmark _ _ => exact .inl (closing?_of_ne_second hmark _ _ _)
    | escape hmark _ _ => exact .inl (closing?_of_ne_second (hslash hmark) _ _ _)
    | join hmark _ _ _ _ _ _ => exact .inl (closing?_of_ne_second (hslash hmark) _ _ _)
    | mark hn'' _ => omega

theorem closing?_marks (hrest : rest.head? ≠ some mark) (done : List Char) :
    closing? mark done (mark :: mark :: rest) = some (String.ofList done.reverse, rest) := by
  cases rest with
  | nil => simp [closing?]
  | cons c rest =>
    have hc : (c == mark) = false := by simpa using hrest
    simp [closing?, hc]

/-- A character stands in lines whatever follows the string. -/
theorem standsInLines_of_append {c : Char} (hc : standsInLines c s = true) (more : List Char) :
    standsInLines c (s ++ more) = true := by
  unfold standsInLines at hc ⊢
  cases s with
  | nil =>
    simp only [List.head?_nil, Option.none_beq_some, Bool.and_false, Bool.or_false] at hc
    simp [hc]
  | cons d s => exact hc

theorem literalLinesFrom_spells (h : SpellsLines '\'' n s text) (hrest : rest.head? ≠ some '\'')
    (done : List Char) :
    literalLinesFrom done (s ++ '\'' :: '\'' :: '\'' :: rest) =
      some (String.ofList (done.reverse ++ text), rest) := by
  induction h generalizing done with
  | nil =>
    show literalLinesFrom done ('\'' :: '\'' :: '\'' :: rest) = _
    simp [literalLinesFrom, closing?_marks hrest]
  | itself hc hmark _ h ih =>
    have hstands := standsInLines_of_append hc ('\'' :: '\'' :: '\'' :: rest)
    rw [List.cons_append]
    simp [literalLinesFrom, hmark, hstands, ih]
  | mark hn h ih =>
    rw [List.cons_append]
    rcases closing?_spells hn h hrest done with hclosing | hclosing
    · simp [literalLinesFrom, hclosing, ih]
    · simp [literalLinesFrom, hclosing]
  | escape hmark => cases hmark
  | join hmark => cases hmark

/-! ### Escapes and joined lines -/

/-- Characters of an escape that is done are passed over. -/
theorem basicLinesFrom_skip (skip : Nat) (joining : Bool) (done s : List Char) :
    basicLinesFrom skip joining done s = basicLinesFrom 0 joining done (s.drop skip) := by
  induction s generalizing skip with
  | nil => simp [basicLinesFrom]
  | cons c s ih =>
    cases skip with
    | zero => rfl
    | succ skip => simpa [basicLinesFrom] using ih skip

/-- What is joined with the line before is dropped. -/
theorem IsWhite.basicLinesFrom_append {w : List Char} (hw : IsWhite w) (done s : List Char) :
    basicLinesFrom 0 true done (w ++ s) = basicLinesFrom 0 true done s := by
  induction hw with
  | nil => rfl
  | blank hc h ih =>
    rw [List.cons_append, ← ih]
    simp [basicLinesFrom, hc]
  | newline he h ih =>
    rw [List.append_assoc, ← ih]
    rcases he with rfl | rfl
    · simp [basicLinesFrom]
    · simp [basicLinesFrom]

theorem IsBlanks.isWhite {b w : List Char} (hb : IsBlanks b) (hw : IsWhite w) : IsWhite (b ++ w) := by
  induction b with
  | nil => exact hw
  | cons c b ih =>
    obtain ⟨hc, hb⟩ := List.forall_mem_cons.mp hb
    exact .blank hc (ih hb)

/-- Lines are no longer joined where neither a blank nor a line end stands. -/
theorem basicLinesFrom_joined (hblank : ∀ c, s.head? = some c → isBlank c = false)
    (hnewline : newline? s = none) (done : List Char) :
    basicLinesFrom 0 true done s = basicLinesFrom 0 false done s := by
  cases s with
  | nil => rfl
  | cons c s =>
    have hc : isBlank c = false := hblank c rfl
    have hline : (c == '\n' || (c == '\r' && s.head? == some '\n')) = false := by
      rw [Bool.eq_false_iff]
      intro h
      simp only [Bool.or_eq_true, Bool.and_eq_true, beq_iff_eq] at h
      rcases h with rfl | ⟨rfl, hs⟩
      · cases hnewline
      · obtain ⟨s, rfl⟩ := List.head?_eq_some_iff.mp hs
        cases hnewline
    simp only [basicLinesFrom, Bool.true_and, Bool.false_and, hc, Bool.false_or, hline]

/-- An escape is no joint. -/
theorem IsEscape.endsLine_append {c : Char} (h : IsEscape c s) (more : List Char) :
    endsLine (s ++ more) = false := by
  obtain ⟨l, p, rfl, hl⟩ : ∃ l p, s = l :: p ∧ l ∉ [' ', '\t', '\n', '\r'] := by
    cases h with
    | @letter l h =>
      have hletters : ∀ q ∈ letters, q.1 ∉ [' ', '\t', '\n', '\r'] := by simp [letters]
      exact ⟨l, [], rfl, hletters _ h⟩
    | @number l digits hl h =>
      have hforms : ∀ q ∈ [('x', 2), ('u', 4), ('U', 8)], q.1 ∉ [' ', '\t', '\n', '\r'] := by simp
      exact ⟨l, digits, rfl, hforms _ hl⟩
  simp only [List.mem_cons, List.not_mem_nil, or_false, not_or] at hl
  simp [endsLine, skipBlanks, isBlank, newline?, hl]

/-- Where no line ends, none ends if a mark follows. -/
theorem newline?_append_mark (hmark : mark ∈ ['"', '\'']) (h : newline? s = none)
    (more : List Char) : newline? (s ++ mark :: more) = none := by
  have hne : mark ≠ '\n' ∧ mark ≠ '\r' := by
    simp only [List.mem_cons, List.not_mem_nil, or_false] at hmark
    rcases hmark with rfl | rfl <;> decide
  unfold newline?
  split
  · next more' he =>
    cases s with
    | nil => exact absurd (List.cons.inj he).1 hne.1
    | cons c s =>
      obtain rfl := (List.cons.inj he).1
      cases h
  · next more' he =>
    cases s with
    | nil => exact absurd (List.cons.inj he).1 hne.2
    | cons c s =>
      obtain ⟨rfl, hsecond⟩ := List.cons.inj he
      cases s with
      | nil => exact absurd (List.cons.inj hsecond).1 hne.1
      | cons d s =>
        obtain rfl := (List.cons.inj hsecond).1
        cases h
  · rfl

theorem basicLinesFrom_spells (h : SpellsLines '"' n s text) (hrest : rest.head? ≠ some '"')
    (done : List Char) :
    basicLinesFrom 0 false done (s ++ '"' :: '"' :: '"' :: rest) =
      some (String.ofList (done.reverse ++ text), rest) := by
  induction h generalizing done with
  | nil =>
    show basicLinesFrom 0 false done ('"' :: '"' :: '"' :: rest) = _
    simp [basicLinesFrom, closing?_marks hrest]
  | itself hc hmark hescape h ih =>
    have hstands := standsInLines_of_append hc ('"' :: '"' :: '"' :: rest)
    have hslash := hescape rfl
    rw [List.cons_append]
    simp [basicLinesFrom, hmark, hslash, hstands, ih]
  | mark hn h ih =>
    rw [List.cons_append]
    rcases closing?_spells hn h hrest done with hclosing | hclosing
    · simp [basicLinesFrom, hclosing, ih]
    · simp [basicLinesFrom, hclosing]
  | @escape _ c p s t _ hp h ih =>
    have hescape := hp.escape?_append (s ++ '"' :: '"' :: '"' :: rest)
    have hends := hp.endsLine_append (s ++ '"' :: '"' :: '"' :: rest)
    rw [List.cons_append, List.append_assoc]
    simp [basicLinesFrom, hescape, hends, basicLinesFrom_skip p.length, ih]
  | @join _ b e w s t _ hb he hw hblank hnewline h ih =>
    have hblank' : ∀ c, (s ++ '"' :: '"' :: '"' :: rest).head? = some c → isBlank c = false := by
      cases s with
      | nil => simp [isBlank]
      | cons c s => exact hblank
    have hends : endsLine (b ++ (e ++ (w ++ (s ++ '"' :: '"' :: '"' :: rest)))) = true := by
      unfold endsLine
      rw [hb.skipBlanks_append]
      rcases he with rfl | rfl <;> rfl
    have hwhite := (hb.isWhite (.newline he hw)).basicLinesFrom_append done
      (s ++ '"' :: '"' :: '"' :: rest)
    simp only [List.append_assoc] at hwhite
    have hjoined := basicLinesFrom_joined hblank' (newline?_append_mark (by simp) hnewline _) done
    simp only [List.cons_append, List.append_assoc]
    rw [← ih done, ← hjoined, ← hwhite]
    simp [basicLinesFrom, hends]

end

theorem skipNewline_of_none (h : newline? s = none) : skipNewline s = s := by
  simp [skipNewline, h]

theorem IsLineEnd.skipNewline_append {e : List Char} (he : IsLineEnd e) (s : List Char) :
    skipNewline (e ++ s) = s := by
  rcases he with rfl | rfl <;> rfl

/-- A string of several lines is read up to its three last marks. -/
theorem string_writesLines {text : String} (h : WritesLines text s)
    (hrest : ∀ q ∈ ['"', '\''], rest.head? ≠ some q) : string (s ++ rest) = some (text, rest) := by
  obtain @⟨mark, e, s, hmark, he, h⟩ := h
  have hopening : skipNewline (e ++ (s ++ mark :: mark :: mark :: rest)) =
      s ++ mark :: mark :: mark :: rest := by
    rcases he with he | ⟨rfl, hs⟩
    · exact he.skipNewline_append _
    · exact skipNewline_of_none (newline?_append_mark hmark hs _)
  have hbody : mark :: mark :: mark :: (e ++ (s ++ [mark, mark, mark])) ++ rest =
      mark :: mark :: mark :: (e ++ (s ++ mark :: mark :: mark :: rest)) := by simp
  rw [hbody]
  have hafter := hrest mark hmark
  simp only [List.mem_cons, List.not_mem_nil, or_false] at hmark
  rcases hmark with rfl | rfl
  · show basicLinesFrom 0 false [] (skipNewline _) = _
    rw [hopening, basicLinesFrom_spells h hafter]
    simp
  · show literalLinesFrom [] (skipNewline _) = _
    rw [hopening, literalLinesFrom_spells h hafter]
    simp

/-! ## Values -/

/-- The ways to write a string. -/
inductive WritesString : List Char → String → Prop
  | line {t : String} {s : List Char} (h : SpellsText t s) : WritesString s t
  | lines {t : String} {s : List Char} (h : WritesLines t s) : WritesString s t

/-- The values without brackets or braces. -/
inductive WritesSimple : List Char → Value → Prop
  | string {t : String} {s : List Char} (h : WritesString s t) : WritesSimple s (.string t)
  | plain {w : List Char} {v : Value} (hw : ∀ c ∈ w, isPlainChar c = true)
      (hquote : ∀ q ∈ ['"', '\''], w.head? ≠ some q) (h : ofPlain w = some v) : WritesSimple w v
  | moment {d w : List Char} {v : Value} (hd : ∀ c ∈ d, isPlainChar c = true)
      (hw : ∀ c ∈ w, isPlainChar c = true) (hdate : isDate d = true)
      (htime : w.head?.any Char.isDigit = true) (h : ofPlain (d ++ ' ' :: w) = some v) :
      WritesSimple (d ++ ' ' :: w) v

/-- A definition in an inline table, whose value is written in a given way. -/
inductive WritesPair {α : Type} (below : List Char → α → Prop) : List Char → List String × α → Prop
  | intro {ks : List String} {kt g g' s : List Char} {x : α} (hk : SpellsKey ks kt)
      (hparts : ks.length ≤ maxParts) (hg : IsGap g) (hg' : IsGap g') (h : below s x) :
      WritesPair below (kt ++ (g ++ '=' :: (g' ++ s))) (ks, x)

/-- A value whose parts are written in a given way. -/
inductive WritesNested (below : List Char → Value → Prop) : List Char → Value → Prop
  | simple {s : List Char} {v : Value} (h : WritesSimple s v) : WritesNested below s v
  | array {s : List Char} {vs : List Value} (h : WritesItems below s vs) :
      WritesNested below ('[' :: (s ++ [']'])) (.array vs)
  | inline {s : List Char} {defs : List (List String × Value)} {es : Entries}
      (h : WritesItems (WritesPair below) s defs) (hes : Entries.assignAll defs .inline [] = some es) :
      WritesNested below ('{' :: (s ++ ['}'])) (.table .inline es)

/-- The texts of values in which arrays and inline tables are nested at most `depth` deep. -/
def Writes : (depth : Nat) → List Char → Value → Prop
  | 0 => WritesSimple
  | depth + 1 => WritesNested (Writes depth)

theorem isPlainChar_of_follows (h : Follows rest) :
    ∃ c t, rest = c :: t ∧ isPlainChar c = false ∧
      (c = ' ' → ∀ d, t.head? = some d → d.isDigit = false) := by
  obtain ⟨c, t, rfl, hc, hdigit⟩ := h
  have hplain : ∀ c ∈ gapChars ++ itemEnds, isPlainChar c = false := by
    simp [gapChars, itemEnds, isPlainChar, isBlank]
  exact ⟨c, t, rfl, hplain c hc, hdigit⟩

theorem ofPlain_nil : ofPlain [] = none := by
  decide

/-- A text without quotes ends where no character of one follows. -/
theorem plain_append_follows {w : List Char} (hw : ∀ c ∈ w, isPlainChar c = true) (h : Follows rest) :
    plain (w ++ rest) = (ofPlain w).map (·, rest) := by
  obtain ⟨c, t, rfl, hc, hdigit⟩ := isPlainChar_of_follows h
  have hword : (w ++ c :: t).takeWhile isPlainChar = w := by
    rw [List.takeWhile_append_of_pos hw, List.takeWhile_cons_of_neg (by simp [hc]), List.append_nil]
  have hafter : (w ++ c :: t).dropWhile isPlainChar = c :: t := by
    rw [List.dropWhile_append_of_pos hw, List.dropWhile_cons_of_neg (by simp [hc])]
  rw [plain_word, hword, hafter]
  intro d more hd
  obtain ⟨rfl, rfl⟩ := List.cons.inj (hafter.symm.trans hd)
  rw [hdigit rfl d rfl, Bool.and_false]

/-- A date goes on with its time behind one space. -/
theorem plain_append_moment {d w : List Char} (hd : ∀ c ∈ d, isPlainChar c = true)
    (hw : ∀ c ∈ w, isPlainChar c = true) (hdate : isDate d = true)
    (htime : w.head?.any Char.isDigit = true) (h : Follows rest) :
    plain (d ++ ' ' :: w ++ rest) = (ofPlain (d ++ ' ' :: w)).map (·, rest) := by
  obtain ⟨c, t, rfl, hc, -⟩ := isPlainChar_of_follows h
  cases w with
  | nil => cases htime
  | cons a w =>
    have hspace : isPlainChar ' ' = false := by simp [isPlainChar, isBlank]
    have hall : d ++ ' ' :: a :: w ++ c :: t = d ++ ' ' :: a :: (w ++ c :: t) := by simp
    have hdword : (d ++ ' ' :: a :: (w ++ c :: t)).takeWhile isPlainChar = d := by
      rw [List.takeWhile_append_of_pos hd, List.takeWhile_cons_of_neg (by simp [hspace]),
        List.append_nil]
    have hafter : (d ++ ' ' :: a :: (w ++ c :: t)).dropWhile isPlainChar =
        ' ' :: a :: (w ++ c :: t) := by
      rw [List.dropWhile_append_of_pos hd, List.dropWhile_cons_of_neg (by simp [hspace])]
    have hword : (a :: (w ++ c :: t)).takeWhile isPlainChar = a :: w := by
      rw [← List.cons_append, List.takeWhile_append_of_pos hw,
        List.takeWhile_cons_of_neg (by simp [hc]), List.append_nil]
    have hrest : (a :: (w ++ c :: t)).dropWhile isPlainChar = c :: t := by
      rw [← List.cons_append, List.dropWhile_append_of_pos hw,
        List.dropWhile_cons_of_neg (by simp [hc])]
    have hdigit : a.isDigit = true := htime
    rw [hall, plain_date hafter (by rw [hdword, hdate, hdigit]; rfl), hdword, hword, hrest]

/-- A date starts with a digit. -/
theorem exists_of_isDate {d : List Char} (h : isDate d = true) :
    ∃ c t, d = c :: t ∧ c.isDigit = true := by
  match d, h with
  | c :: e :: t, h =>
    refine ⟨c, e :: t, rfl, ?_⟩
    by_contra hc
    rw [Bool.not_eq_true] at hc
    simp [isDate, date?, two?, hc] at h

/-- A value whose characters all belong to one text is read as this text. -/
theorem reads_of_plain {s : List Char} (hhead : ∃ c t, s = c :: t ∧ isPlainChar c = true)
    (hquote : ∀ q ∈ ['"', '\''], s.head? ≠ some q)
    (hread : ∀ rest, Follows rest → plain (s ++ rest) = some (v, rest)) (depth : Nat) :
    Reads (valueUpTo depth) s v := by
  obtain ⟨c, t, rfl, hc⟩ := hhead
  have hmarks : c ∉ '[' :: '{' :: (gapChars ++ itemEnds) := by
    intro hmem
    have hplain : ∀ q ∈ '[' :: '{' :: (gapChars ++ itemEnds), isPlainChar q = false := by
      simp [gapChars, itemEnds, isPlainChar, isBlank]
    rw [hplain c hmem] at hc
    cases hc
  simp only [List.mem_cons, not_or] at hmarks
  refine ⟨⟨c, t, rfl, hmarks.2.2⟩, fun rest hrest => ?_⟩
  rw [valueUpTo_eq_plain, hread rest hrest]
  intro q hq he
  simp only [List.mem_cons, List.not_mem_nil, or_false] at hq
  rcases hq with rfl | rfl | rfl | rfl
  · exact hquote _ (by simp) he
  · exact hquote _ (by simp) he
  · exact hmarks.1 (Option.some.inj he)
  · exact hmarks.2.1 (Option.some.inj he)

theorem string_writes {t : String} (h : WritesString s t) (hrest : Follows rest) :
    string (s ++ rest) = some (t, rest) := by
  cases h with
  | line h => rw [string_eq_quoted (h.ne_marks hrest.head?_ne), quoted_spells h]
  | lines h => exact string_writesLines h hrest.head?_ne

/-- A string starts with one of its marks. -/
theorem WritesString.exists_eq_cons {t : String} (h : WritesString s t) :
    ∃ q s', s = q :: s' ∧ (q = '"' ∨ q = '\'') := by
  cases h with
  | line h => exact h.exists_eq_cons
  | lines h =>
    obtain ⟨hmark, -, -⟩ := h
    exact ⟨_, _, rfl, by simpa using hmark⟩

theorem reads_simple (h : WritesSimple s v) (depth : Nat) : Reads (valueUpTo depth) s v := by
  cases h with
  | string h =>
    have hread : ∀ rest, Follows rest → Toml.string (s ++ rest) = some (_, rest) :=
      fun _ => string_writes h
    obtain ⟨q, s, rfl, hq⟩ := h.exists_eq_cons
    refine ⟨⟨q, s, rfl, by rcases hq with rfl | rfl <;> simp [gapChars, itemEnds]⟩,
      fun rest hrest => ?_⟩
    have hstring := hread rest hrest
    rw [List.cons_append] at hstring ⊢
    rw [valueUpTo_eq_string depth hq, hstring]
    rfl
  | plain hw hquote h =>
    refine reads_of_plain ?_ hquote (fun rest hrest => ?_) depth
    · cases s with
      | nil =>
        rw [ofPlain_nil] at h
        cases h
      | cons c s => exact ⟨c, s, rfl, hw c List.mem_cons_self⟩
    · rw [plain_append_follows hw hrest, h]
      rfl
  | moment hd hw hdate htime h =>
    obtain ⟨c, t, hct, hc⟩ := exists_of_isDate hdate
    refine reads_of_plain ⟨c, _, by rw [hct]; rfl, hd c (by simp [hct])⟩ ?_ (fun rest hrest => ?_) depth
    · intro q hq he
      rw [hct] at he
      obtain rfl := Option.some.inj he
      simp only [List.mem_cons, List.not_mem_nil, or_false] at hq
      rcases hq with rfl | rfl <;> simp at hc
    · rw [plain_append_moment hd hw hdate htime hrest, h]
      rfl

/-- Behind a key and a gap stands the equals sign. -/
theorem key_gap {ks : List String} {kt : List Char} (hk : SpellsKey ks kt)
    (hparts : ks.length ≤ maxParts) (hg : IsGap g) (more : List Char) :
    ∃ left, key (kt ++ (g ++ '=' :: more)) = some (ks, left) ∧ skipGap left = '=' :: more := by
  have hstop : ∀ c ∈ '=' :: gapChars, isBareChar c = false ∧ c ≠ '.' := by
    simp [gapChars, isBareChar]
  have hhead : ∀ {g}, IsGap g → ∀ c, (g ++ '=' :: more).head? = some c →
      isBareChar c = false ∧ c ≠ '.' := by
    intro g hg c hc
    rcases hg.head?_append ('=' :: more) with he | ⟨b, hb, he⟩
    · obtain rfl := Option.some.inj (hc.symm.trans he)
      exact hstop _ List.mem_cons_self
    · obtain rfl := Option.some.inj (hc.symm.trans he)
      exact hstop _ (List.mem_cons_of_mem _ hb)
  have hdot : (skipBlanks (g ++ '=' :: more)).head? ≠ some '.' := by
    clear hk
    induction hg with
    | nil => simp [skipBlanks, isBlank]
    | @blank c g hc h ih =>
      have hskip : skipBlanks (c :: (g ++ '=' :: more)) = skipBlanks (g ++ '=' :: more) :=
        List.dropWhile_cons_of_pos hc
      rw [List.cons_append, hskip]
      exact ih
    | newline he h ih => rcases he with rfl | rfl <;> simp [skipBlanks, isBlank]
    | comment ht he h ih => simp [skipBlanks, isBlank]
  refine ⟨_, keyUpTo_spells hk hparts (fun c hc => (hhead hg c hc).1) hdot, ?_⟩
  rw [skipGap_skipBlanks, hg.skipGap_append]
  exact skipGap_of_head (by simp) more

theorem reads_pair {below : List Char → Value → Prop} {depth : Nat} {d : List String × Value}
    (hbelow : ∀ s v, below s v → Reads (valueUpTo depth) s v) (h : WritesPair below s d) :
    Reads (inlinePair (valueUpTo depth)) s d := by
  obtain @⟨ks, kt, g, g', s, v, hk, hparts, hg, hg', h⟩ := h
  have hvalue := hbelow s v h
  refine ⟨?_, fun rest hrest => ?_⟩
  · obtain ⟨c, t, rfl, hc⟩ := hk.exists_eq_cons
    refine ⟨c, _, rfl, fun hmem => hc ?_⟩
    simp only [gapChars, itemEnds, List.mem_append, List.mem_cons, List.not_mem_nil, or_false]
      at hmem ⊢
    tauto
  · obtain ⟨left, hkey, hequals⟩ := key_gap hk hparts hg (g' ++ (s ++ rest))
    have hskip : skipGap (g' ++ (s ++ rest)) = s ++ rest := by
      obtain ⟨c, t, rfl, hc⟩ := hvalue.starts
      rw [hg'.skipGap_append]
      exact skipGap_of_head (fun hmem => hc (List.mem_append_left _ hmem)) _
    unfold inlinePair
    simp only [List.append_assoc, List.cons_append, hkey, hequals, hskip, hvalue.reads rest hrest]
    rfl

/-- Every value of the grammar is read, whatever follows it. -/
theorem reads_writes {depth : Nat} (h : Writes depth s v) : Reads (valueUpTo depth) s v := by
  induction depth generalizing s v with
  | zero => exact reads_simple h 0
  | succ depth ih =>
    have hitem : ∀ s v, Writes depth s v → Reads (valueUpTo depth) s v := fun _ _ => ih
    cases h with
    | simple h => exact reads_simple h (depth + 1)
    | @array s vs h =>
      refine ⟨⟨'[', _, rfl, by simp [gapChars, itemEnds]⟩, fun rest _ => ?_⟩
      have hitems : separated (valueUpTo depth) ']' (s ++ ']' :: rest).length [] (s ++ ']' :: rest) =
          some ([] ++ vs, rest) := separated_writesItems hitem (by simp) h rest (by simp) []
      show valueUpTo (depth + 1) ('[' :: (s ++ [']'] ++ rest)) = _
      rw [List.append_assoc, List.singleton_append, valueUpTo_array, hitems]
      rfl
    | @inline s defs es h hes =>
      refine ⟨⟨'{', _, rfl, by simp [gapChars, itemEnds]⟩, fun rest _ => ?_⟩
      have hitems : separated (inlinePair (valueUpTo depth)) '}' (s ++ '}' :: rest).length []
          (s ++ '}' :: rest) = some ([] ++ defs, rest) :=
        separated_writesItems (fun _ _ => reads_pair hitem) (by simp) h rest (by simp) []
      show valueUpTo (depth + 1) ('{' :: (s ++ ['}'] ++ rest)) = _
      rw [List.append_assoc, List.singleton_append]
      unfold valueUpTo
      simp only [hitems, List.nil_append, hes]
      rfl

/-- A value of the grammar may stand on a line of its own. -/
theorem isValue_writes (h : Writes maxDepth s v) : IsValue s v :=
  (reads_writes h).reads ['\n'] follows_newline

/-! ## Lines, arrays and inline tables of strings -/

theorem writes_string {t : String} (h : WritesString s t) (depth : Nat) :
    Writes depth s (.string t) := by
  cases depth with
  | zero => exact .string h
  | succ depth => exact .simple (.string h)

/-- Items that are written in one way are written in another. -/
theorem WritesItems.map {α β : Type} {item : List Char → α → Prop} {item' : List Char → β → Prop}
    {f : α → β} (hitem : ∀ s x, item s x → item' s (f x)) {xs : List α} (h : WritesItems item s xs) :
    WritesItems item' s (xs.map f) := by
  induction h with
  | none hg => exact .none hg
  | last hg hs hg' => exact .last hg (hitem _ _ hs) hg'
  | cons hg hs hg' _ ih => exact .cons hg (hitem _ _ hs) hg' ih

theorem isValue_array {ts : List String} (h : WritesItems WritesString s ts) :
    IsValue ('[' :: (s ++ [']'])) (.array (ts.map .string)) := by
  have hitems : WritesItems (Writes 79) s (ts.map .string) := by
    refine h.map fun s t ht => ?_
    exact writes_string ht 79
  exact isValue_writes (.array hitems)

/-- A key of one part with a string, as it stands between braces. -/
def WritesField (s : List Char) (f : String × String) : Prop :=
  WritesPair WritesString s ([f.1], f.2)

/-- The keys of an inline table are its own, and each is there once. -/
theorem isValue_inline {fields : List (String × String)} (h : WritesItems WritesField s fields)
    (hkeys : (fields.map Prod.fst).Nodup) :
    IsValue ('{' :: (s ++ ['}'])) (.table .inline (fields.map fun f => (f.1, .string f.2))) := by
  have hpairs : WritesItems (WritesPair (Writes 79)) s
      (fields.map fun f => ([f.1], .string f.2)) := by
    refine h.map fun s f hf => ?_
    obtain ⟨hk, hparts, hg, hg', ht⟩ := hf
    exact .intro hk hparts hg hg' (writes_string ht 79)
  have hassign : Entries.assignAll (Entries.single (fields.map fun f => (f.1, .string f.2)))
      .inline [] = some (fields.map fun f => (f.1, .string f.2)) := by
    refine Entries.assignAll_new ?_ .inline
    simpa [Entries.keys, Function.comp_def] using hkeys
  have hsingle : Entries.single (fields.map fun f => (f.1, .string f.2)) =
      fields.map fun f => ([f.1], .string f.2) := by
    simp [Entries.single, Function.comp_def]
  rw [hsingle] at hassign
  exact isValue_writes (.inline hpairs hassign)

/-- The ways to write a definition of a string. -/
inductive SpellsDefinition (ks : List String) (t : String) : List Char → Prop
  | intro {kt v : List Char} (hk : SpellsKey ks kt) (ht : WritesString v t) :
      SpellsDefinition ks t (kt ++ ' ' :: '=' :: ' ' :: v)

/-- A definition of a string on a line of its own. -/
theorem statementsOf_definition {ks : List String} {t : String} (h : SpellsDefinition ks t s)
    (hparts : ks.length ≤ maxParts) :
    statementsOf (s ++ ['\n']) = some [.define ks (.string t)] := by
  obtain @⟨kt, v, hk, ht⟩ := h
  have hline : kt ++ ' ' :: '=' :: ' ' :: v ++ ['\n'] = defineLine kt v := by simp [defineLine]
  rw [hline]
  exact statementsOf_defineLine hk hparts (isValue_writes (writes_string ht maxDepth))

end DocCoverage.Toml
