import DocCoverage.Proofs.Toml.Building
import DocCoverage.Proofs.Toml.Parts

/-!
# Lines of one statement

A key is written part by part, each part bare or in quotes of either kind, with dots between them.  A
line that holds such a key and a value, or such a key in the brackets of a header, is read as its one
statement, whatever spelling the key has.

    closedKey close (kt ++ close ++ rest)  =  some (ks, rest)                       (closedKey_spells)
    statements (defineLine kt v)  =  some [define ks x]                        (statements_defineLine)
    statements (headerLine kt)    =  some [header ks]                          (statements_headerLine)

where kt spells ks, and v is the value x on a line of its own.
-/

namespace DocCoverage.Toml

/-! ## Spelling strings and keys -/

/-- The escapes of a character, behind the backslash: a letter, or the number of the character in
hexadecimal digits of either case. -/
inductive IsEscape (c : Char) : List Char → Prop
  | letter {l : Char} (h : (l, c) ∈ letters) : IsEscape c [l]
  | number {l : Char} {digits : List Char}
      (hl : (l, digits.length) ∈ [('x', 2), ('u', 4), ('U', 8)])
      (h : hexNumber? digits = some c.toNat) : IsEscape c (l :: digits)

/-- The ways to write a character in a string on one line. -/
inductive SpellsChar (c : Char) : List Char → Prop
  | itself (htext : isTextChar c = true) (hmark : c ≠ '"') (hescape : c ≠ '\\') : SpellsChar c [c]
  | escape {s : List Char} (h : IsEscape c s) : SpellsChar c ('\\' :: s)

/-- The ways to write a string on one line. -/
inductive SpellsText (t : String) : List Char → Prop
  | literal (h : ∀ c ∈ t.toList, isTextChar c = true ∧ c ≠ '\'') :
      SpellsText t ('\'' :: (t.toList ++ ['\'']))
  | basic {pieces : List (List Char)} (h : List.Forall₂ SpellsChar t.toList pieces) :
      SpellsText t ('"' :: (pieces.flatten ++ ['"']))

/-- The ways to write one part of a key. -/
inductive SpellsPart (k : String) : List Char → Prop
  | bare (h : isBareKey k = true) : SpellsPart k k.toList
  | quoted {s : List Char} (h : SpellsText k s) : SpellsPart k s

/-- Blanks only. -/
def IsBlanks (s : List Char) : Prop :=
  ∀ c ∈ s, isBlank c = true

/-- The ways to write a key. -/
inductive SpellsKey : List String → List Char → Prop
  | one {k : String} {s : List Char} (h : SpellsPart k s) : SpellsKey [k] s
  | dotted {k : String} {ks : List String} {s b b' t : List Char} (h : SpellsPart k s)
      (hb : IsBlanks b) (hb' : IsBlanks b') (hrest : SpellsKey ks t) :
      SpellsKey (k :: ks) (s ++ (b ++ '.' :: (b' ++ t)))

variable {k t : String} {ks : List String} {kt s rest : List Char}

/-- An escape is read as its character. -/
theorem IsEscape.escape?_append {c : Char} (h : IsEscape c s) (rest : List Char) :
    escape? (s ++ rest) = some (c, s.length) := by
  cases h with
  | letter h =>
    have hletters : ∀ p ∈ letters, escape? (p.1 :: rest) = some (p.2, 1) := by
      simp [letters, escape?]
    exact hletters _ h
  | @number l digits hl h =>
    have hnumbered : numbered? digits.length (digits ++ rest) = some c := by
      have hvalid : c.toNat.isValidChar := c.valid
      unfold numbered?
      simp [h, hvalid]
    simp only [List.mem_cons, Prod.mk.injEq, List.not_mem_nil, or_false] at hl
    rcases hl with ⟨rfl, hlength⟩ | ⟨rfl, hlength⟩ | ⟨rfl, hlength⟩ <;>
      (rw [hlength] at hnumbered; simp [escape?, hnumbered, hlength])

theorem basicFrom_spellsChar {c : Char} (h : SpellsChar c s) (done rest : List Char) :
    basicFrom 0 done (s ++ rest) = basicFrom 0 (c :: done) rest := by
  cases h with
  | itself htext hmark hescape => simp [basicFrom, htext, hmark, hescape]
  | escape h => rw [List.cons_append, basicFrom_escape (h.escape?_append rest), List.drop_left]

/-- No way to write a character starts with a quotation mark. -/
theorem SpellsChar.head?_ne {c : Char} (h : SpellsChar c s) (rest : List Char) :
    (s ++ rest).head? ≠ some '"' := by
  cases h with
  | itself _ hmark _ => simpa using hmark
  | escape _ => simp

/-- Characters of a string, each written in some way, are read in order. -/
theorem basicFrom_pieces {text : List Char} {pieces : List (List Char)}
    (h : List.Forall₂ SpellsChar text pieces) (done rest : List Char) :
    basicFrom 0 done (pieces.flatten ++ '"' :: rest) =
      some (String.ofList (done.reverse ++ text), rest) := by
  induction h generalizing done with
  | nil => simp [basicFrom]
  | cons hc h ih =>
    rw [List.flatten_cons, List.append_assoc, basicFrom_spellsChar hc, ih]
    simp

theorem literal_text {text : List Char} (h : ∀ c ∈ text, isTextChar c = true ∧ c ≠ '\'')
    (rest : List Char) :
    literal (text ++ '\'' :: rest) = some (String.ofList text, rest) := by
  have hall : ∀ c ∈ text, (isTextChar c && c != '\'') = true := by simpa using h
  unfold literal
  rw [List.takeWhile_append_of_pos hall, List.dropWhile_append_of_pos hall]
  simp

theorem quoted_spells (h : SpellsText t s) (rest : List Char) :
    quoted (s ++ rest) = some (t, rest) := by
  cases h with
  | literal h =>
    show literal (t.toList ++ ['\''] ++ rest) = _
    rw [List.append_assoc, List.singleton_append, literal_text h, String.ofList_toList]
  | basic h =>
    show basicFrom 0 [] (_ ++ ['"'] ++ rest) = _
    rw [List.append_assoc, List.singleton_append, basicFrom_pieces h]
    simp

theorem SpellsText.exists_eq_cons (h : SpellsText t s) :
    ∃ q s', s = q :: s' ∧ (q = '"' ∨ q = '\'') := by
  cases h with
  | literal => exact ⟨'\'', _, rfl, .inr rfl⟩
  | basic => exact ⟨'"', _, rfl, .inl rfl⟩

/-- A string on one line does not start with three marks, unless one follows it. -/
theorem SpellsText.ne_marks (h : SpellsText t s) (hrest : ∀ q ∈ ['"', '\''], rest.head? ≠ some q) :
    ∀ q ∈ ['"', '\''], ∀ more, s ++ rest ≠ q :: q :: q :: more := by
  intro q hq more he
  cases h with
  | literal h =>
    obtain ⟨rfl, he⟩ := List.cons.inj he
    cases htext : t.toList with
    | nil =>
      rw [htext] at he
      obtain ⟨-, rfl⟩ := List.cons.inj he
      exact hrest _ hq rfl
    | cons c text =>
      rw [htext] at he
      exact (h c (by simp [htext])).2 (List.cons.inj he).1
  | basic h =>
    obtain ⟨rfl, he⟩ := List.cons.inj he
    generalize t.toList = text at h
    cases h with
    | nil =>
      obtain ⟨-, rfl⟩ := List.cons.inj he
      exact hrest _ hq rfl
    | @cons _ piece _ pieces hc _ =>
      apply hc.head?_ne (pieces.flatten ++ ['"'] ++ rest)
      rw [← List.append_assoc, ← List.append_assoc, ← List.flatten_cons]
      exact congrArg List.head? he

theorem keyPart_spells (h : SpellsPart k kt)
    (hrest : ∀ c, rest.head? = some c → isBareChar c = false) :
    keyPart (kt ++ rest) = some (k, rest) := by
  cases h with
  | bare h => exact keyPart_bare h hrest
  | quoted h =>
    have hread := quoted_spells h rest
    obtain ⟨q, s, rfl, hq⟩ := h.exists_eq_cons
    have hbare : isBareChar q = false := by rcases hq with rfl | rfl <;> decide
    rw [List.cons_append] at hread ⊢
    simp [keyPart, hbare, hread]

/-- No key starts with a blank, a comment, a line end, a byte order mark or a bracket. -/
theorem SpellsKey.exists_eq_cons (h : SpellsKey ks kt) :
    ∃ c s, kt = c :: s ∧ c ∉ [' ', '\t', '#', '\n', '\r', '\ufeff', '[', '}', ',', ']'] := by
  have hpart : ∀ {k s}, SpellsPart k s →
      ∃ c t, s = c :: t ∧ c ∉ [' ', '\t', '#', '\n', '\r', '\ufeff', '[', '}', ',', ']'] := by
    intro k s h
    cases h with
    | bare h =>
      obtain ⟨c, cs, hcs, hc⟩ := exists_toList_eq_cons h
      refine ⟨c, cs, hcs, fun hmem => ?_⟩
      have hnone : ∀ d ∈ [' ', '\t', '#', '\n', '\r', '\ufeff', '[', '}', ',', ']'],
          isBareChar d = false := by simp [isBareChar]
      rw [hnone c hmem] at hc
      cases hc
    | quoted h =>
      obtain ⟨q, s, rfl, hq⟩ := h.exists_eq_cons
      exact ⟨q, s, rfl, by rcases hq with rfl | rfl <;> decide⟩
  cases h with
  | one h => exact hpart h
  | dotted h _ _ _ =>
    obtain ⟨c, t, rfl, hc⟩ := hpart h
    exact ⟨c, _, rfl, hc⟩

theorem SpellsKey.skipBlanks (h : SpellsKey ks kt) (rest : List Char) :
    skipBlanks (kt ++ rest) = kt ++ rest := by
  obtain ⟨c, s, rfl, hc⟩ := h.exists_eq_cons
  simp only [List.mem_cons, not_or] at hc
  apply skipBlanks_of_head
  simp [isBlank, hc.1, hc.2.1]

theorem IsBlanks.nil : IsBlanks [] := nofun

theorem IsBlanks.skipBlanks_append {b : List Char} (hb : IsBlanks b) (s : List Char) :
    Toml.skipBlanks (b ++ s) = Toml.skipBlanks s :=
  List.dropWhile_append_of_pos hb

/-- A part of a key ends where blanks or a dot follow. -/
theorem IsBlanks.head?_point {b : List Char} (hb : IsBlanks b) (s : List Char) :
    ∀ c, (b ++ '.' :: s).head? = some c → isBareChar c = false := by
  intro c hc
  cases b with
  | nil =>
    obtain rfl := Option.some.inj hc
    decide
  | cons d b =>
    obtain rfl := Option.some.inj hc
    have hblank := hb d List.mem_cons_self
    simp only [isBlank, Bool.or_eq_true, beq_iff_eq] at hblank
    rcases hblank with rfl | rfl <;> decide

theorem keyUpTo_spells (h : SpellsKey ks kt) {parts : Nat} (hparts : ks.length ≤ parts)
    (hrest : ∀ c, rest.head? = some c → isBareChar c = false)
    (hdot : (skipBlanks rest).head? ≠ some '.') :
    keyUpTo parts (kt ++ rest) = some (ks, skipBlanks rest) := by
  induction h generalizing parts with
  | one h =>
    obtain ⟨parts, rfl⟩ : ∃ n, parts = n + 1 := ⟨parts - 1, by simp at hparts; omega⟩
    unfold keyUpTo
    rw [keyPart_spells h hrest]
    simp only
    split
    · next hd => simp [hd] at hdot
    · rfl
  | @dotted k ks s b b' t h hb hb' hmore ih =>
    obtain ⟨parts, rfl⟩ : ∃ n, parts = n + 1 := ⟨parts - 1, by simp at hparts; omega⟩
    have hpoint : skipBlanks (b ++ '.' :: (b' ++ (t ++ rest))) = '.' :: (b' ++ (t ++ rest)) :=
      hb.skipBlanks_append _
    have hmore' : skipBlanks (b' ++ (t ++ rest)) = t ++ rest := by
      rw [hb'.skipBlanks_append, hmore.skipBlanks]
    have hpart : keyPart (s ++ (b ++ '.' :: (b' ++ (t ++ rest)))) =
        some (k, b ++ '.' :: (b' ++ (t ++ rest))) :=
      keyPart_spells h (hb.head?_point _)
    have hlength : ks.length ≤ parts := by simpa using hparts
    simp only [List.append_assoc, List.cons_append]
    unfold keyUpTo
    simp only [hpart, hpoint, hmore', ih hlength]

/-- What closes a key follows it, behind blanks. -/
theorem closedKey_spells (h : SpellsKey ks kt) (hparts : ks.length ≤ maxParts)
    {close more : List Char} (hrest : ∀ c, rest.head? = some c → isBareChar c = false)
    (hclose : skipBlanks rest = close ++ more) (hdot : close.head? ≠ some '.')
    (hne : close ≠ []) : closedKey close (kt ++ rest) = some (ks, more) := by
  have hdot' : (skipBlanks rest).head? ≠ some '.' := by
    rw [hclose, List.head?_append_of_ne_nil close hne]
    exact hdot
  have hkey : key (kt ++ rest) = some (ks, close ++ more) := by
    rw [← hclose]
    exact keyUpTo_spells h hparts hrest hdot'
  unfold closedKey
  rw [h.skipBlanks, hkey]
  simp

/-! ## Values on a line of their own -/

/-- No value starts with a blank. -/
theorem skipBlanks_of_value {s : List Char} {v : Value} (h : value s = some (v, rest)) :
    skipBlanks s = s := by
  apply skipBlanks_of_head
  intro c hc
  obtain ⟨t, rfl⟩ := List.head?_eq_some_iff.1 hc
  by_contra hblank
  rw [Bool.not_eq_false] at hblank
  have hmarks : ∀ d ∈ ['"', '\'', '[', '{'], (c :: t).head? ≠ some d := by
    rintro d hd he
    obtain rfl := Option.some.inj he
    have hnone : ∀ d ∈ ['"', '\'', '[', '{'], isBlank d = false := by simp [isBlank]
    rw [hnone c hd] at hblank
    cases hblank
  have hplain : isPlainChar c = false := by simp [isPlainChar, hblank]
  have hword : (c :: t).takeWhile isPlainChar = [] := by simp [hplain]
  have hnone : plain (c :: t) = none := by
    rw [plain_word fun _ _ _ => by rw [hword]; rfl, hword]
    rfl
  rw [value, valueUpTo_eq_plain maxDepth hmarks, hnone] at h
  cases h

/-- The text of a value, as it stands on a line of its own. -/
def IsValue (v : List Char) (x : Value) : Prop :=
  value (v ++ ['\n']) = some (x, ['\n'])

/-- A line that defines a value. -/
def defineLine (kt v : List Char) : List Char :=
  kt ++ ' ' :: '=' :: ' ' :: (v ++ ['\n'])

/-- A line with the header of a table. -/
def headerLine (kt : List Char) : List Char :=
  '[' :: (kt ++ [']', '\n'])

theorem isLines_defineLine (kt v : List Char) : IsLines (defineLine kt v) := by
  have h := IsLines.append_newline (kt ++ ' ' :: '=' :: ' ' :: v)
  simpa [defineLine] using h

theorem isLines_headerLine (kt : List Char) : IsLines (headerLine kt) := by
  have h := IsLines.append_newline ('[' :: (kt ++ [']']))
  simpa [headerLine] using h

theorem statementsOf_defineLine {v : List Char} {x : Value} (h : SpellsKey ks kt)
    (hparts : ks.length ≤ maxParts) (hv : IsValue v x) :
    statementsOf (defineLine kt v) = some [.define ks x] := by
  have hkey : closedKey ['='] (defineLine kt v) = some (ks, ' ' :: (v ++ ['\n'])) :=
    closedKey_spells h hparts (by simp [isBareChar]) rfl (by simp) (by simp)
  have hblank : skipBlanks (' ' :: (v ++ ['\n'])) = v ++ ['\n'] := by
    show skipBlanks (v ++ ['\n']) = _
    exact skipBlanks_of_value hv
  obtain ⟨c, s, hcs, hc⟩ := h.exists_eq_cons
  simp only [List.mem_cons, List.not_mem_nil, or_false, not_or] at hc
  have hskip : skipBlanks (defineLine kt v) = defineLine kt v := h.skipBlanks _
  have hfinish : finishLine (defineLine kt v) = none := by
    rw [defineLine, hcs]
    exact finishLine_eq_none (by simp [hc]) _
  have hstmt : statement (skipBlanks (defineLine kt v)) = some (.define ks x, ['\n']) := by
    rw [hskip, statement_eq_define, hkey]
    · simp only [hblank]
      rw [hv]
      rfl
    · simpa [defineLine, hcs] using hc.2.2.2.2.2.2.1
  rw [statementsOf_of_statement hfinish hstmt rfl]
  rfl

theorem statementsOf_headerLine (h : SpellsKey ks kt) (hparts : ks.length ≤ maxParts) :
    statementsOf (headerLine kt) = some [.header ks] := by
  have hkey : closedKey [']'] (kt ++ [']', '\n']) = some (ks, ['\n']) :=
    closedKey_spells h hparts (by simp [isBareChar]) rfl (by simp) (by simp)
  obtain ⟨c, s, hcs, hc⟩ := h.exists_eq_cons
  simp only [List.mem_cons, List.not_mem_nil, or_false, not_or] at hc
  have hfinish : finishLine (headerLine kt) = none := finishLine_eq_none (by decide) _
  have hstmt : statement (skipBlanks (headerLine kt)) = some (.header ks, ['\n']) := by
    show statement ('[' :: (kt ++ [']', '\n'])) = _
    rw [statement_eq_header, hkey]
    · rfl
    · simpa [hcs] using hc.2.2.2.2.2.2.1
  rw [statementsOf_of_statement hfinish hstmt rfl]
  rfl

theorem statements_defineLine {v : List Char} {x : Value} (h : SpellsKey ks kt)
    (hparts : ks.length ≤ maxParts) (hv : IsValue v x) :
    statements (defineLine kt v) = some [.define ks x] := by
  have hmark : (defineLine kt v).head? ≠ some '\ufeff' := by
    obtain ⟨c, s, rfl, hc⟩ := h.exists_eq_cons
    simp only [List.mem_cons, not_or] at hc
    simpa [defineLine] using hc.2.2.2.2.2.1
  rw [statements_eq, skipMark_of_head hmark, statementsOf_defineLine h hparts hv]

end DocCoverage.Toml
