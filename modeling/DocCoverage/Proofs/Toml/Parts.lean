import DocCoverage.Proofs.Toml.Lines

/-!
# Documents in parts

A document is read line by line.  So complete lines that are read on their own may be followed by
anything, and the statements of both parts follow each other.

    statementsOf s  =  those of its first line, then those of the rest     (statementsOf_of_statement)
    statements (s ++ more)  =  the statements of s, then those of more             (statements_append)
-/

namespace DocCoverage.Toml

variable {s rest : List Char}

/-- The statements of a text without a byte order mark. -/
def statementsOf (s : List Char) : Option (List Statement) :=
  statementsFrom (s.length + 1) [] s

theorem statements_eq (text : List Char) : statements text = statementsOf (skipMark text) := by
  have hlength : (skipMark text).length ≤ text.length := by
    unfold skipMark
    split <;> simp
  exact statementsFrom_fuel (by omega) (by omega) []

/-- What is done before only stands before what is read. -/
theorem statementsFrom_done (fuel : Nat) (done : List Statement) (s : List Char) :
    statementsFrom fuel done s = (statementsFrom fuel [] s).map (done.reverse ++ ·) := by
  induction fuel generalizing done s with
  | zero => rfl
  | succ fuel ih =>
    unfold statementsFrom
    split
    · simp
    · exact ih done _
    · split
      · rfl
      · next stmt after _ =>
        split
        · rfl
        · next rest _ =>
          rw [ih (stmt :: done), ih [stmt], Option.map_map]
          congr 1
          funext ss
          simp

@[simp] theorem statementsOf_nil : statementsOf [] = some [] := rfl

/-- A line without a statement is passed over. -/
theorem statementsOf_of_finishLine (h : finishLine s = some rest) :
    statementsOf s = statementsOf rest := by
  cases rest with
  | nil =>
    rw [statementsOf_nil]
    simp only [statementsOf, statementsFrom, h, List.reverse_nil]
  | cons c rest =>
    obtain ⟨-, hnil | hlength⟩ := finishLine_suffix h
    · cases hnil
    · have hstep : statementsOf s = statementsFrom s.length [] (c :: rest) := by
        simp only [statementsOf, statementsFrom, h]
      rw [hstep]
      exact statementsFrom_fuel hlength (Nat.lt_succ_self _) []

/-- A line with a statement is that statement, in front of those of the other lines. -/
theorem statementsOf_of_statement {stmt : Statement} {after : List Char} (h : finishLine s = none)
    (hstmt : statement (skipBlanks s) = some (stmt, after)) (hline : finishLine after = some rest) :
    statementsOf s = (statementsOf rest).map (stmt :: ·) := by
  have hlength : rest.length < s.length := by
    have hskip := (skipBlanks_suffix s).length_le
    have hafter := (statement_suffix hstmt).2
    have hrest := (finishLine_suffix hline).1.length_le
    omega
  have hstep : statementsOf s = statementsFrom s.length [stmt] rest := by
    simp only [statementsOf, statementsFrom, h, hstmt, hline]
  rw [hstep, statementsFrom_done, statementsFrom_fuel hlength (Nat.lt_succ_self _)]
  rfl

/-- A text that is read starts with a line without a statement, or with a statement. -/
theorem statementsOf_cases {ss : List Statement} (h : statementsOf s = some ss) :
    (∃ rest, finishLine s = some rest ∧ statementsOf rest = some ss) ∨
    (∃ stmt after rest ss', finishLine s = none ∧
      statement (skipBlanks s) = some (stmt, after) ∧ finishLine after = some rest ∧
      statementsOf rest = some ss' ∧ ss = stmt :: ss') := by
  cases hline : finishLine s with
  | some rest =>
    rw [statementsOf_of_finishLine hline] at h
    exact .inl ⟨rest, rfl, h⟩
  | none =>
    cases hstmt : statement (skipBlanks s) with
    | none => simp [statementsOf, statementsFrom, hline, hstmt] at h
    | some p =>
      obtain ⟨stmt, after⟩ := p
      cases hend : finishLine after with
      | none => simp [statementsOf, statementsFrom, hline, hstmt, hend] at h
      | some rest =>
        rw [statementsOf_of_statement hline hstmt hend] at h
        obtain ⟨ss', hss', rfl⟩ := Option.map_eq_some_iff.1 h
        exact .inr ⟨stmt, after, rest, ss', rfl, rfl, hend, hss', rfl⟩

/-- No key starts with a blank, a comment, a line end or a bracket. -/
theorem exists_of_key {ks : List String} (h : key s = some (ks, rest)) :
    ∃ c t, s = c :: t ∧ c ∉ [' ', '\t', '#', '\n', '\r', '['] := by
  have hpart : ∃ k after, keyPart s = some (k, after) := by
    unfold key maxParts keyUpTo at h
    split at h
    · cases h
    · next k after hpart => exact ⟨k, after, hpart⟩
  obtain ⟨k, after, hpart⟩ := hpart
  cases s with
  | nil => cases hpart
  | cons c t =>
    refine ⟨c, t, rfl, fun hc => ?_⟩
    simp only [List.mem_cons, List.not_mem_nil, or_false] at hc
    rcases hc with rfl | rfl | rfl | rfl | rfl | rfl <;> cases hpart

/-- A text that starts with a key and an equals sign starts with a definition. -/
theorem statementsOf_of_closedKey {ks : List String} {after : List Char} {ss : List Statement}
    (hkey : closedKey ['='] s = some (ks, after)) (h : statementsOf s = some ss) :
    ∃ v left rest ss', value (skipBlanks after) = some (v, left) ∧ finishLine left = some rest ∧
      statementsOf rest = some ss' ∧ ss = .define ks v :: ss' := by
  obtain ⟨more, hmore⟩ : ∃ more, key (skipBlanks s) = some (ks, more) := by
    unfold closedKey at hkey
    split at hkey
    · cases hkey
    · next ks' more hmore =>
      split at hkey
      · obtain ⟨rfl, -⟩ := Prod.mk.inj (Option.some.inj hkey)
        exact ⟨more, hmore⟩
      · cases hkey
  obtain ⟨c, t, hct, hc⟩ := exists_of_key hmore
  simp only [List.mem_cons, List.not_mem_nil, or_false, not_or] at hc
  have hline : finishLine s = none := by
    unfold finishLine
    rw [hct]
    simp [skipComment, newline?, hc]
  have hskip : skipBlanks (skipBlanks s) = skipBlanks s := by
    rw [hct]
    exact skipBlanks_of_head (by simp [isBlank, hc])
  have hkey' : closedKey ['='] (skipBlanks s) = some (ks, after) := by
    unfold closedKey at hkey ⊢
    rwa [hskip]
  have hstatement : statement (skipBlanks s) =
      (value (skipBlanks after)).map fun p => (.define ks p.1, p.2) := by
    rw [statement_eq_define, hkey']
    simpa [hct] using hc.2.2.2.2.2
  rcases statementsOf_cases h with ⟨rest, hrest, -⟩ |
    ⟨stmt, left, rest, ss', -, hstmt, hend, hrest, hss⟩
  · rw [hline] at hrest
    cases hrest
  · rw [hstatement] at hstmt
    obtain ⟨⟨v, left'⟩, hv, he⟩ := Option.map_eq_some_iff.1 hstmt
    obtain ⟨rfl, rfl⟩ := Prod.mk.inj he
    exact ⟨v, _, rest, ss', hv, hend, hrest, hss⟩

/-- Complete lines that are read stand on their own. -/
theorem statementsOf_append {ss : List Statement} (hs : IsLines s) (h : statementsOf s = some ss)
    (more : List Char) : statementsOf (s ++ more) = (statementsOf more).map (ss ++ ·) := by
  induction hn : s.length using Nat.strongRecOn generalizing s ss with
  | ind n ih =>
    by_cases hne : s = []
    · subst hne
      obtain rfl := Option.some.inj h
      simp
    · have hfinish := finishLine_append hs hne more
      rcases statementsOf_cases h with ⟨rest, hline, hrest⟩ |
        ⟨stmt, after, rest, ss, hline, hstmt, hend, hrest, rfl⟩
      · obtain ⟨hsuffix, hlength⟩ := finishLine_suffix hline
        have hlt : rest.length < n := by
          have := List.length_pos_iff.2 hne
          rcases hlength with rfl | hlength
          · simp only [List.length_nil]
            omega
          · omega
        rw [hline] at hfinish
        rw [statementsOf_of_finishLine hfinish]
        exact ih _ hlt (hs.of_suffix hsuffix) hrest rfl
      · have hblanks := hs.of_suffix (skipBlanks_suffix s)
        obtain ⟨hafter, hread⟩ := statement_local hblanks hstmt
        obtain ⟨hsuffix, hlength⟩ := statement_suffix hstmt
        have hlines := hblanks.of_suffix hsuffix
        have hfinish' := finishLine_append hlines hafter more
        have hrestsuffix := (finishLine_suffix hend).1
        have hlt : rest.length < n := by
          have := (skipBlanks_suffix s).length_le
          have := hrestsuffix.length_le
          omega
        rw [hline] at hfinish
        rw [hend] at hfinish'
        have hstep := statementsOf_of_statement hfinish
          (by rw [skipBlanks_append hs hne]; exact hread more) hfinish'
        rw [hstep, ih _ hlt (hlines.of_suffix hrestsuffix) hrest rfl, Option.map_map]
        rfl

/-- No statement starts with a byte order mark. -/
theorem statementsOf_mark (s : List Char) : statementsOf ('\ufeff' :: s) = none := by
  have hkey : key ('\ufeff' :: s) = none := by
    show keyUpTo (79 + 1) _ = none
    have hbare : isBareChar '\ufeff' = false := by decide
    simp [keyUpTo, keyPart, hbare, quoted]
  have hblanks : skipBlanks ('\ufeff' :: s) = '\ufeff' :: s := rfl
  have hstmt : statement ('\ufeff' :: s) = none := by
    simp [statement, closedKey, hblanks, hkey]
  have hfinish : finishLine ('\ufeff' :: s) = none := rfl
  simp only [statementsOf, statementsFrom, hfinish, hblanks, hstmt]

/-- A document is read behind a byte order mark, and without one. -/
theorem statements_mark_append {mark : List Char} (hmark : mark = [] ∨ mark = ['\ufeff'])
    {ss : List Statement} (h : statementsOf s = some ss) : statements (mark ++ s) = some ss := by
  rw [statements_eq, ← h]
  rcases hmark with rfl | rfl
  · rw [List.nil_append, skipMark_of_head]
    intro hhead
    obtain ⟨t, rfl⟩ := List.head?_eq_some_iff.1 hhead
    rw [statementsOf_mark] at h
    cases h
  · rfl

/-- A document may be read in two parts, where the first is read on its own. -/
theorem statements_append {ss : List Statement} {more : List Char} (hs : IsLines s)
    (h : statements s = some ss) (hmore : more.head? ≠ some '\ufeff') :
    statements (s ++ more) = (statements more).map (ss ++ ·) := by
  rw [statements_eq] at h ⊢
  rw [statements_eq more, skipMark_of_head hmore]
  by_cases hmark : s.head? = some '\ufeff'
  · obtain ⟨t, rfl⟩ := List.head?_eq_some_iff.1 hmark
    exact statementsOf_append hs.of_cons h more
  · rw [skipMark_of_head hmark] at h
    rw [skipMark_of_head]
    · exact statementsOf_append hs h more
    · cases s with
      | nil => exact hmore
      | cons c s => exact hmark

end DocCoverage.Toml
