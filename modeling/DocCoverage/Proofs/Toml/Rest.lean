import DocCoverage.Toml.Document

/-!
# What readers leave

A reader takes its value off the front: what it leaves is the end of the text.  A statement leaves
less than there was.  So the fuel of the two loops, which is counted in characters, never runs out,
and more of it changes nothing.

    p s = some (x, rest)  →  rest <:+ s                                            (TakesFront p)
    separated item close fuel s  is the same for every fuel from s.length on    (separated_fuel)
    statementsFrom fuel s        is the same for every fuel beyond s.length (statementsFrom_fuel)
-/

namespace DocCoverage.Toml

/-- What a reader leaves is the end of its text. -/
def TakesFront {α : Type} (p : Reader α) : Prop :=
  ∀ ⦃s x rest⦄, p s = some (x, rest) → rest <:+ s

variable {s rest : List Char}

/-- What is made of a value has the same rest. -/
theorem exists_of_map {α β : Type} {o : Option (α × List Char)} {f : α × List Char → β × List Char}
    {y : β} (h : o.map f = some (y, rest)) (hf : ∀ p, (f p).2 = p.2) : ∃ x, o = some (x, rest) := by
  obtain ⟨p, rfl, hp⟩ := Option.map_eq_some_iff.1 h
  obtain rfl : p.2 = rest := by rw [← hf, hp]
  exact ⟨p.1, rfl⟩

theorem eq_of_map {α β : Type} {o : Option α} {f : α → β} {left : List Char} {y : β}
    (h : o.map (fun x => (f x, left)) = some (y, rest)) : rest = left := by
  obtain ⟨x, -, hx⟩ := Option.map_eq_some_iff.1 h
  exact (Prod.mk.inj hx).2.symm

/-! ## Blanks and line ends -/

theorem skipBlanks_suffix (s : List Char) : skipBlanks s <:+ s :=
  List.dropWhile_suffix _

theorem newline?_suffix (h : newline? s = some rest) : rest <:+ s ∧ rest.length < s.length := by
  unfold newline? at h
  split at h
  · obtain rfl := Option.some.inj h
    exact ⟨List.suffix_cons _ _, by simp⟩
  · obtain rfl := Option.some.inj h
    exact ⟨(List.suffix_cons _ _).trans (List.suffix_cons _ _), by
      simp only [List.length_cons]
      omega⟩
  · cases h

theorem skipComment_suffix (s : List Char) : skipComment s <:+ s := by
  unfold skipComment
  split
  · exact (List.dropWhile_suffix _).trans (List.suffix_cons _ _)
  · exact List.suffix_rfl

/-- The rest of a line holds less than the line, unless the text ends with it. -/
theorem finishLine_suffix (h : finishLine s = some rest) :
    rest <:+ s ∧ (rest = [] ∨ rest.length < s.length) := by
  have hskip := (skipComment_suffix (skipBlanks s)).trans (skipBlanks_suffix s)
  unfold finishLine at h
  split at h
  · obtain rfl := Option.some.inj h
    exact ⟨List.nil_suffix, .inl rfl⟩
  · obtain ⟨hsuffix, hlt⟩ := newline?_suffix h
    exact ⟨hsuffix.trans hskip, .inr (Nat.lt_of_lt_of_le hlt hskip.length_le)⟩

theorem skipGapFrom_suffix (within : Bool) (s : List Char) : skipGapFrom within s <:+ s := by
  induction s generalizing within with
  | nil => exact List.suffix_rfl
  | cons c s ih =>
    unfold skipGapFrom
    split
    · exact (ih true).trans (List.suffix_cons c s)
    · split
      · exact (ih false).trans (List.suffix_cons c s)
      · split
        · exact (ih true).trans (List.suffix_cons c s)
        · exact List.suffix_rfl

theorem skipGap_suffix (s : List Char) : skipGap s <:+ s :=
  skipGapFrom_suffix false s

/-! ## Strings -/

theorem literal_suffix : TakesFront literal := by
  intro s x rest h
  unfold literal at h
  simp only at h
  split at h
  · next hdrop =>
    obtain rfl := (Prod.mk.inj (Option.some.inj h)).2
    have hsuffix := List.dropWhile_suffix (fun c => isTextChar c && c != '\'') (l := s)
    rw [hdrop] at hsuffix
    exact (List.suffix_cons _ _).trans hsuffix
  · cases h

theorem basicFrom_suffix (skip : Nat) (done : List Char) : TakesFront (basicFrom skip done) := by
  intro s x rest h
  induction s generalizing skip done with
  | nil => simp [basicFrom] at h
  | cons c s ih =>
    refine List.IsSuffix.trans ?_ (List.suffix_cons c s)
    cases skip with
    | succ skip => exact ih _ _ h
    | zero =>
      unfold basicFrom at h
      split at h
      · obtain rfl := (Prod.mk.inj (Option.some.inj h)).2
        exact List.suffix_rfl
      · split at h
        · split at h
          · exact ih _ _ h
          · cases h
        · split at h
          · exact ih _ _ h
          · cases h

theorem closing?_suffix (mark : Char) (done : List Char) : TakesFront (closing? mark done) := by
  intro s x rest h
  unfold closing? at h
  split at h
  · split at h
    · obtain rfl := (Prod.mk.inj (Option.some.inj h)).2
      exact (List.drop_suffix _ _).trans ((List.suffix_cons _ _).trans (List.suffix_cons _ _))
    · cases h
  · cases h

theorem literalLinesFrom_suffix (done : List Char) : TakesFront (literalLinesFrom done) := by
  intro s x rest h
  induction s generalizing done with
  | nil => simp [literalLinesFrom] at h
  | cons c s ih =>
    refine List.IsSuffix.trans ?_ (List.suffix_cons c s)
    unfold literalLinesFrom at h
    split at h
    · split at h
      · next hclosing =>
        rw [h] at hclosing
        exact closing?_suffix _ _ hclosing
      · exact ih _ h
    · split at h
      · exact ih _ h
      · cases h

theorem basicLinesFrom_suffix (skip : Nat) (joining : Bool) (done : List Char) :
    TakesFront (basicLinesFrom skip joining done) := by
  intro s x rest h
  induction s generalizing skip joining done with
  | nil => simp [basicLinesFrom] at h
  | cons c s ih =>
    refine List.IsSuffix.trans ?_ (List.suffix_cons c s)
    cases skip with
    | succ skip => exact ih _ _ _ h
    | zero =>
      unfold basicLinesFrom at h
      split at h
      · exact ih _ _ _ h
      · split at h
        · split at h
          · next hclosing =>
            rw [h] at hclosing
            exact closing?_suffix _ _ hclosing
          · exact ih _ _ _ h
        · split at h
          · split at h
            · exact ih _ _ _ h
            · split at h
              · exact ih _ _ _ h
              · cases h
          · split at h
            · exact ih _ _ _ h
            · cases h

theorem skipNewline_suffix (s : List Char) : skipNewline s <:+ s := by
  unfold skipNewline
  cases h : newline? s with
  | none => exact List.suffix_rfl
  | some rest => exact (newline?_suffix h).1

theorem quoted_suffix : TakesFront quoted := by
  intro s x rest h
  unfold quoted at h
  split at h
  · exact (literal_suffix h).trans (List.suffix_cons _ _)
  · exact (basicFrom_suffix _ _ h).trans (List.suffix_cons _ _)
  · cases h

theorem string_suffix : TakesFront string := by
  have hmarks : ∀ (q : Char) (s : List Char), skipNewline s <:+ q :: q :: q :: s := fun q s =>
    (skipNewline_suffix s).trans
      ((List.suffix_cons _ _).trans ((List.suffix_cons _ _).trans (List.suffix_cons _ _)))
  intro s x rest h
  unfold string at h
  split at h
  · exact (literalLinesFrom_suffix _ h).trans (hmarks _ _)
  · exact (basicLinesFrom_suffix _ _ _ h).trans (hmarks _ _)
  · exact quoted_suffix h

/-! ## Keys -/

theorem keyPart_suffix : TakesFront keyPart := by
  intro s x rest h
  unfold keyPart at h
  split at h
  · obtain rfl := (Prod.mk.inj (Option.some.inj h)).2
    exact List.dropWhile_suffix _
  · exact quoted_suffix h

theorem keyUpTo_suffix (parts : Nat) : TakesFront (keyUpTo parts) := by
  induction parts with
  | zero =>
    intro s x rest h
    cases h
  | succ parts ih =>
    intro s x rest h
    unfold keyUpTo at h
    split at h
    · cases h
    · next part after hpart =>
      have hblanks := (skipBlanks_suffix after).trans (keyPart_suffix hpart)
      split at h
      · next more hdot =>
        rw [hdot] at hblanks
        split at h
        · next hmore =>
          obtain rfl := (Prod.mk.inj (Option.some.inj h)).2
          exact (ih hmore).trans
            ((skipBlanks_suffix more).trans ((List.suffix_cons _ _).trans hblanks))
        · cases h
      · obtain rfl := (Prod.mk.inj (Option.some.inj h)).2
        exact hblanks

theorem key_suffix : TakesFront key :=
  keyUpTo_suffix maxParts

/-! ## Values -/

theorem plain_suffix : TakesFront plain := by
  intro s x rest h
  have hdrop := List.dropWhile_suffix isPlainChar (l := s)
  unfold plain at h
  simp only at h
  split at h
  · next c more hrest =>
    rw [hrest] at hdrop
    split at h
    · obtain rfl := eq_of_map h
      exact (List.dropWhile_suffix _).trans ((List.suffix_cons _ _).trans hdrop)
    · obtain rfl := eq_of_map h
      rw [hrest]
      exact hdrop
  · obtain rfl := eq_of_map h
    exact hdrop

theorem separated_nil {α : Type} (item : Reader α) (close : Char) (fuel : Nat) (done : List α) :
    separated item close fuel done [] = none := by
  cases fuel <;> rfl

section
variable {α : Type} {item : Reader α} (hitem : TakesFront item) (close : Char)
include hitem

theorem separated_suffix (fuel : Nat) (done : List α) :
    TakesFront (separated item close fuel done) := by
  induction fuel generalizing done with
  | zero =>
    intro s x rest h
    cases h
  | succ fuel ih =>
    intro s x rest h
    have hgap := skipGap_suffix s
    unfold separated at h
    split at h
    · cases h
    · next c after hs =>
      rw [hs] at hgap
      split at h
      · obtain rfl := (Prod.mk.inj (Option.some.inj h)).2
        exact (List.suffix_cons _ _).trans hgap
      · split at h
        · cases h
        · next y behind hy =>
          have hbehind := (skipGap_suffix behind).trans ((hitem hy).trans hgap)
          split at h
          · cases h
          · next d more hd =>
            rw [hd] at hbehind
            have hmore := (List.suffix_cons d more).trans hbehind
            split at h
            · exact (ih _ h).trans hmore
            · split at h
              · obtain rfl := (Prod.mk.inj (Option.some.inj h)).2
                exact hmore
              · cases h

/-- Every item is followed by a comma, so the text gets shorter. -/
theorem separated_fuel {fuel fuel' : Nat} {s : List Char} (h : s.length ≤ fuel)
    (h' : s.length ≤ fuel') (done : List α) :
    separated item close fuel done s = separated item close fuel' done s := by
  induction fuel generalizing fuel' s done with
  | zero =>
    obtain rfl := List.eq_nil_of_length_eq_zero (Nat.le_zero.1 h)
    rw [separated_nil, separated_nil]
  | succ fuel ih =>
    cases fuel' with
    | zero =>
      obtain rfl := List.eq_nil_of_length_eq_zero (Nat.le_zero.1 h')
      rw [separated_nil, separated_nil]
    | succ fuel' =>
      have hgap := (skipGap_suffix s).length_le
      unfold separated
      split
      · rfl
      · next c after hs =>
        rw [hs] at hgap
        split
        · rfl
        · split
          · rfl
          · next y behind hy =>
            have hbehind := (skipGap_suffix behind).length_le
            have hlength := (hitem hy).length_le
            split
            · rfl
            · next d more hd =>
              rw [hd, List.length_cons] at hbehind
              split
              · exact ih (by omega) (by omega) _
              · rfl

end

theorem inlinePair_suffix {value : Reader Value} (hvalue : TakesFront value) :
    TakesFront (inlinePair value) := by
  intro s x rest h
  unfold inlinePair at h
  split at h
  · cases h
  · next ks after hkey =>
    have hgap := (skipGap_suffix after).trans (key_suffix hkey)
    split at h
    · next more heq =>
      rw [heq] at hgap
      obtain ⟨v, hv⟩ := exists_of_map h fun _ => rfl
      exact (hvalue hv).trans ((skipGap_suffix more).trans ((List.suffix_cons _ _).trans hgap))
    · cases h

theorem valueUpTo_suffix (depth : Nat) : TakesFront (valueUpTo depth) := by
  have hstring : ∀ {s x rest}, (string s).map (Prod.map Value.string id) = some (x, rest) →
      rest <:+ s := by
    intro s x rest h
    obtain ⟨t, ht⟩ := exists_of_map h fun _ => rfl
    exact string_suffix ht
  induction depth with
  | zero =>
    intro s x rest h
    unfold valueUpTo at h
    split at h
    · exact hstring h
    · exact hstring h
    · cases h
    · cases h
    · exact plain_suffix h
  | succ depth ih =>
    intro s x rest h
    unfold valueUpTo at h
    split at h
    · exact hstring h
    · exact hstring h
    · obtain ⟨vs, hvs⟩ := exists_of_map h fun _ => rfl
      exact (separated_suffix ih _ _ _ hvs).trans (List.suffix_cons _ _)
    · split at h
      · cases h
      · next hdefs =>
        obtain rfl := eq_of_map h
        exact (separated_suffix (inlinePair_suffix ih) _ _ _ hdefs).trans (List.suffix_cons _ _)
    · exact plain_suffix h

/-! ## Statements -/

theorem closedKey_suffix {close : List Char} {ks : List String}
    (h : closedKey close s = some (ks, rest)) :
    rest <:+ s ∧ rest.length + close.length ≤ s.length := by
  unfold closedKey at h
  split at h
  · cases h
  · next ks' after hkey =>
    have hafter := (key_suffix hkey).trans (skipBlanks_suffix s)
    split at h
    · next hclose =>
      obtain rfl := (Prod.mk.inj (Option.some.inj h)).2
      have hlength := (List.isPrefixOf_iff_prefix.1 hclose).length_le
      have := hafter.length_le
      refine ⟨(List.drop_suffix _ _).trans hafter, ?_⟩
      rw [List.length_drop]
      omega
    · cases h

/-- A statement takes at least one character. -/
theorem statement_suffix {stmt : Statement} (h : statement s = some (stmt, rest)) :
    rest <:+ s ∧ rest.length < s.length := by
  unfold statement at h
  split at h
  · obtain ⟨ks, hks⟩ := exists_of_map h fun _ => rfl
    obtain ⟨hsuffix, hlength⟩ := closedKey_suffix hks
    refine ⟨hsuffix.trans ((List.suffix_cons _ _).trans (List.suffix_cons _ _)), ?_⟩
    simp only [List.length_cons, List.length_nil] at hlength ⊢
    omega
  · obtain ⟨ks, hks⟩ := exists_of_map h fun _ => rfl
    obtain ⟨hsuffix, hlength⟩ := closedKey_suffix hks
    refine ⟨hsuffix.trans (List.suffix_cons _ _), ?_⟩
    simp only [List.length_cons, List.length_nil] at hlength ⊢
    omega
  · split at h
    · cases h
    · next ks after hkey =>
      obtain ⟨hsuffix, hlength⟩ := closedKey_suffix hkey
      obtain ⟨v, hv⟩ := exists_of_map h fun _ => rfl
      have hvalue := (valueUpTo_suffix maxDepth hv).trans (skipBlanks_suffix after)
      have := hvalue.length_le
      refine ⟨hvalue.trans hsuffix, ?_⟩
      simp only [List.length_cons, List.length_nil] at hlength
      omega

/-- Every line takes a character, except for the end of the text. -/
theorem statementsFrom_fuel {fuel fuel' : Nat} {s : List Char} (h : s.length < fuel)
    (h' : s.length < fuel') (done : List Statement) :
    statementsFrom fuel done s = statementsFrom fuel' done s := by
  induction fuel generalizing fuel' s done with
  | zero => omega
  | succ fuel ih =>
    cases fuel' with
    | zero => omega
    | succ fuel' =>
      unfold statementsFrom
      split
      · rfl
      · next rest hrest hline =>
        obtain ⟨-, hnil | hlt⟩ := finishLine_suffix hline
        · exact absurd hnil hrest
        · exact ih (by omega) (by omega) _
      · split
        · rfl
        · next stmt after hstmt =>
          have hskip := (skipBlanks_suffix s).length_le
          have hlength := (statement_suffix hstmt).2
          split
          · rfl
          · next rest hline =>
            have := (finishLine_suffix hline).1.length_le
            exact ih (by omega) (by omega) _

end DocCoverage.Toml
