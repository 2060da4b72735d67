/-!
# Line ends of two characters

A line feed may have a carriage return in front of it.  A reader that stops at either takes the same
characters from both forms of a text.

    (crlf s).takeWhile p = s.takeWhile p              if p holds of neither   (takeWhile_crlf)
    (crlf s).dropWhile p = crlf (s.dropWhile p)       if p holds of neither   (dropWhile_crlf)
    p <+: crlf s  ↔  p <+: s                          if p holds neither      (prefix_crlf_iff)

Lines that hold no line feed are found again between the line feeds of the text that they make up.

    (endLines ls ++ rest).splitOn '\n' = ls ++ rest.splitOn '\n'            (splitOn_endLines)
-/

namespace DocCoverage.Text

/-! ## Items in front of others -/

section
variable {α : Type} [DecidableEq α] {new old : α} {l : List α}

/-- Writes `new` in front of each `old`. -/
def insertBefore (new old : α) (l : List α) : List α :=
  l.flatMap fun x => if x = old then [new, old] else [x]

@[simp] theorem insertBefore_nil : insertBefore new old [] = [] := rfl

theorem insertBefore_cons_self (l : List α) :
    insertBefore new old (old :: l) = new :: old :: insertBefore new old l := by
  simp [insertBefore]

theorem insertBefore_cons_of_ne {x : α} (h : x ≠ old) (l : List α) :
    insertBefore new old (x :: l) = x :: insertBefore new old l := by
  simp [insertBefore, h]

theorem insertBefore_append (l l' : List α) :
    insertBefore new old (l ++ l') = insertBefore new old l ++ insertBefore new old l' :=
  List.flatMap_append

theorem insertBefore_of_not_mem (h : old ∉ l) : insertBefore new old l = l := by
  induction l with
  | nil => rfl
  | cons x l ih =>
    rw [List.mem_cons, not_or] at h
    rw [insertBefore_cons_of_ne (Ne.symm h.1), ih h.2]

/-- What is not new stands in the list itself. -/
theorem insertBefore_eq_append {front back : List α} (hnew : new ∉ front)
    (h : insertBefore new old l = front ++ back) :
    ∃ rest, l = front ++ rest ∧ back = insertBefore new old rest := by
  induction front generalizing l with
  | nil => exact ⟨l, rfl, h.symm⟩
  | cons x front ih =>
    rw [List.mem_cons, not_or] at hnew
    cases l with
    | nil => cases h
    | cons y l =>
      by_cases hy : y = old
      · subst hy
        rw [insertBefore_cons_self] at h
        exact absurd (List.cons.inj h).1 hnew.1
      · rw [insertBefore_cons_of_ne hy] at h
        obtain ⟨rfl, htail⟩ := List.cons.inj h
        obtain ⟨rest, rfl, hrest⟩ := ih hnew.2 htail
        exact ⟨rest, rfl, hrest⟩

end

/-! ## Carriage returns in front of line feeds -/

/-- Writes a carriage return in front of each line feed. -/
def crlf (s : List Char) : List Char :=
  insertBefore '\r' '\n' s

@[simp] theorem crlf_nil : crlf [] = [] := rfl

@[simp] theorem crlf_newline (s : List Char) : crlf ('\n' :: s) = '\r' :: '\n' :: crlf s :=
  insertBefore_cons_self s

theorem crlf_cons {c : Char} (h : c ≠ '\n') (s : List Char) : crlf (c :: s) = c :: crlf s :=
  insertBefore_cons_of_ne h s

/-- A character that is no carriage return stands in the text itself. -/
theorem crlf_eq_cons {s t : List Char} {c : Char} (hc : c ≠ '\r') (h : crlf s = c :: t) :
    ∃ u, s = c :: u ∧ t = crlf u := by
  have hfront : insertBefore '\r' '\n' s = [c] ++ t := h
  exact insertBefore_eq_append (by simpa using Ne.symm hc) hfront

theorem length_le_length_crlf (s : List Char) : s.length ≤ (crlf s).length := by
  induction s with
  | nil => exact Nat.le_refl _
  | cons c s ih =>
    by_cases h : c = '\n'
    · subst h
      simp only [crlf_newline, List.length_cons]
      omega
    · simp only [crlf_cons h, List.length_cons]
      omega

/-- Up to the line end both forms of a text are the same. -/
theorem take_crlf {n : Nat} {s : List Char} (h : '\n' ∉ s.take n) :
    (crlf s).take n = s.take n ∧ (crlf s).drop n = crlf (s.drop n) := by
  induction s generalizing n with
  | nil => simp
  | cons c s ih =>
    cases n with
    | zero => simp
    | succ n =>
      simp only [List.take_succ_cons, List.mem_cons, not_or] at h
      simpa [crlf_cons (Ne.symm h.1)] using ih h.2

theorem return_mem_take_crlf {n : Nat} {s : List Char} (h : '\n' ∈ s.take n) :
    '\r' ∈ (crlf s).take n := by
  induction s generalizing n with
  | nil => simp at h
  | cons c s ih =>
    cases n with
    | zero => simp at h
    | succ n =>
      by_cases hc : c = '\n'
      · subst hc
        simp
      · have hmem : '\n' ∈ s.take n := by
          simpa [Ne.symm hc] using h
        simp [crlf_cons hc, ih hmem]

/-- What holds no line end stands at the front of both forms or of none. -/
theorem prefix_crlf_iff {p s : List Char} (hfeed : '\n' ∉ p) (hreturn : '\r' ∉ p) :
    p <+: crlf s ↔ p <+: s := by
  constructor
  · intro h
    induction p generalizing s with
    | nil => exact List.nil_prefix
    | cons c p ih =>
      rw [List.mem_cons, not_or] at hfeed hreturn
      obtain ⟨t, ht⟩ := h
      obtain ⟨u, rfl, hu⟩ := crlf_eq_cons (Ne.symm hreturn.1) ht.symm
      exact List.cons_prefix_cons.2 ⟨rfl, ih hfeed.2 hreturn.2 ⟨t, hu⟩⟩
  · rintro ⟨t, rfl⟩
    unfold crlf
    rw [insertBefore_append, insertBefore_of_not_mem hfeed]
    exact List.prefix_append p _

section
variable {p : Char → Bool} (hfeed : p '\n' = false) (hreturn : p '\r' = false)
include hfeed hreturn

theorem takeWhile_crlf (s : List Char) : (crlf s).takeWhile p = s.takeWhile p := by
  induction s with
  | nil => rfl
  | cons c s ih =>
    by_cases h : c = '\n'
    · subst h
      simp [hfeed, hreturn]
    · simp [crlf_cons h, List.takeWhile_cons, ih]

theorem dropWhile_crlf (s : List Char) : (crlf s).dropWhile p = crlf (s.dropWhile p) := by
  induction s with
  | nil => rfl
  | cons c s ih =>
    by_cases h : c = '\n'
    · subst h
      simp [hfeed, hreturn]
    · by_cases hp : p c = true
      · simp [crlf_cons h, hp, ih]
      · simp [crlf_cons h, hp]

theorem head?_any_crlf (s : List Char) : (crlf s).head?.any p = s.head?.any p := by
  cases s with
  | nil => rfl
  | cons c s =>
    by_cases h : c = '\n'
    · subst h
      simp [hfeed, hreturn]
    · simp [crlf_cons h]

end

/-! ## Lines of a text -/

/-- The text of some lines, each with its line end. -/
def endLines (ls : List (List Char)) : List Char :=
  ls.flatMap (· ++ ['\n'])

theorem endLines_append (ls ls' : List (List Char)) :
    endLines (ls ++ ls') = endLines ls ++ endLines ls' :=
  List.flatMap_append

theorem splitOn_endLines {ls : List (List Char)} (h : ∀ l ∈ ls, '\n' ∉ l) (rest : List Char) :
    (endLines ls ++ rest).splitOn '\n' = ls ++ rest.splitOn '\n' := by
  induction ls with
  | nil => rfl
  | cons l ls ih =>
    have hsplit : endLines (l :: ls) ++ rest = l ++ '\n' :: (endLines ls ++ rest) := by
      simp [endLines]
    rw [hsplit, List.splitOn_append_cons_self, List.splitOn_eq_singleton (h l List.mem_cons_self),
      ih fun l' hl' => h l' (List.mem_cons_of_mem l hl')]
    rfl

/-- The text of some lines ends after its last line feed. -/
theorem splitOn_endLines_self {ls : List (List Char)} (h : ∀ l ∈ ls, '\n' ∉ l) :
    (endLines ls).splitOn '\n' = ls ++ [[]] := by
  have hsplit := splitOn_endLines h []
  rwa [List.append_nil, List.splitOn_nil] at hsplit

end DocCoverage.Text
