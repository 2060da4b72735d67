import DocCoverage.Proofs.Toml.LineEnd
import Mathlib.Data.List.Basic
import Mathlib.Data.List.TakeWhile

/-!
# Complete lines

A text that is empty or ends with a line feed holds complete lines.  No reader of values, keys or
statements takes the last line feed, and what stands behind it never changes what was read in front of
it: strings, arrays and inline tables that are closed on these lines stay closed.

    p s = some (x, rest)  →  rest ≠ [] and p (s ++ more) = some (x, rest ++ more)        (IsLocal p)
-/

namespace DocCoverage.Toml

/-- A text of complete lines. -/
def IsLines (s : List Char) : Prop :=
  ∀ c, s.getLast? = some c → c = '\n'

instance (s : List Char) : Decidable (IsLines s) :=
  decidable_of_iff (s.getLast?.all (· == '\n') = true) (by
    unfold IsLines
    cases s.getLast? <;> simp)

/-- What a reader takes from complete lines it takes in front of anything, and it leaves the last line
feed. -/
def IsLocal {α : Type} (p : Reader α) : Prop :=
  ∀ ⦃s x rest⦄, IsLines s → p s = some (x, rest) →
    rest ≠ [] ∧ ∀ more, p (s ++ more) = some (x, rest ++ more)

namespace IsLines

variable {s rest : List Char} {c : Char}

theorem nil : IsLines [] := nofun

theorem append_newline (s : List Char) : IsLines (s ++ ['\n']) := by
  intro c hc
  rw [List.getLast?_concat] at hc
  exact (Option.some.inj hc).symm

theorem of_suffix (h : IsLines s) (hsuffix : rest <:+ s) : IsLines rest := by
  obtain ⟨front, rfl⟩ := hsuffix
  intro c hc
  apply h c
  rw [List.getLast?_append, hc]
  rfl

theorem of_cons (h : IsLines (c :: s)) : IsLines s :=
  h.of_suffix (List.suffix_cons c s)

/-- Only a line feed is a line on its own. -/
theorem ne_nil (h : IsLines (c :: s)) (hc : c ≠ '\n') : s ≠ [] := by
  rintro rfl
  exact hc (h c rfl)

theorem newline_mem (h : IsLines s) (hne : s ≠ []) : '\n' ∈ s := by
  have hlast := List.getLast?_eq_some_getLast hne
  rw [← h _ hlast]
  exact List.getLast_mem hne

section
variable {f : Char → Bool} (hf : f '\n' = false)
include hf

/-- Characters other than line feeds do not reach beyond a line. -/
theorem dropWhile_ne_nil (h : IsLines s) (hne : s ≠ []) : s.dropWhile f ≠ [] := by
  rw [Ne, List.dropWhile_eq_nil_iff]
  intro hall
  have hnewline := hall _ (h.newline_mem hne)
  rw [hf] at hnewline
  cases hnewline

theorem dropWhile_append (h : IsLines s) (hne : s ≠ []) (more : List Char) :
    (s ++ more).dropWhile f = s.dropWhile f ++ more := by
  rw [List.dropWhile_append, if_neg]
  rw [List.isEmpty_iff]
  exact h.dropWhile_ne_nil hf hne

theorem takeWhile_append (h : IsLines s) (hne : s ≠ []) (more : List Char) :
    (s ++ more).takeWhile f = s.takeWhile f := by
  rw [List.takeWhile_append, if_neg]
  intro hlength
  have hself : s.takeWhile f = s := (List.takeWhile_prefix f).eq_of_length hlength
  rw [List.takeWhile_eq_self_iff] at hself
  have hnewline := hself _ (h.newline_mem hne)
  rw [hf] at hnewline
  cases hnewline

end

end IsLines

variable {s rest : List Char}

/-! ## Blanks, line ends and gaps -/

theorem skipBlanks_append (h : IsLines s) (hne : s ≠ []) (more : List Char) :
    skipBlanks (s ++ more) = skipBlanks s ++ more :=
  h.dropWhile_append (by decide) hne more

theorem skipBlanks_ne_nil (h : IsLines s) (hne : s ≠ []) : skipBlanks s ≠ [] :=
  h.dropWhile_ne_nil (by decide) hne

theorem newline?_append (h : IsLines s) (hne : s ≠ []) (more : List Char) :
    newline? (s ++ more) = (newline? s).map (· ++ more) := by
  obtain ⟨c, s, rfl⟩ := List.exists_cons_of_ne_nil hne
  by_cases hc : c = '\n'
  · subst hc
    rfl
  · obtain ⟨d, s, rfl⟩ := List.exists_cons_of_ne_nil (h.ne_nil hc)
    by_cases hreturn : c = '\r'
    · subst hreturn
      by_cases hd : d = '\n'
      · subst hd
        rfl
      · simp [newline?, hd]
    · simp [newline?, hc, hreturn]

theorem skipComment_append (h : IsLines s) (hne : s ≠ []) (more : List Char) :
    skipComment (s ++ more) = skipComment s ++ more ∧ skipComment s ≠ [] := by
  obtain ⟨c, s, rfl⟩ := List.exists_cons_of_ne_nil hne
  by_cases hc : c = '#'
  · subst hc
    have hs := h.ne_nil (by decide)
    exact ⟨h.of_cons.dropWhile_append (by decide) hs more, h.of_cons.dropWhile_ne_nil (by decide) hs⟩
  · have hskip : ∀ t, skipComment (c :: t) = c :: t := fun t => by simp [skipComment, hc]
    rw [List.cons_append, hskip, hskip]
    exact ⟨rfl, List.cons_ne_nil c s⟩

/-- Where lines are complete, a line ends at its line feed. -/
theorem finishLine_append (h : IsLines s) (hne : s ≠ []) (more : List Char) :
    finishLine (s ++ more) = (finishLine s).map (· ++ more) := by
  have hblanks := h.of_suffix (skipBlanks_suffix s)
  obtain ⟨hcomment, hrest⟩ := skipComment_append hblanks (skipBlanks_ne_nil h hne) more
  have hline := newline?_append (hblanks.of_suffix (skipComment_suffix _)) hrest more
  unfold finishLine
  rw [skipBlanks_append h hne, hcomment]
  obtain ⟨c, t, ht⟩ := List.exists_cons_of_ne_nil hrest
  rw [ht] at hline ⊢
  exact hline

/-- A gap that ends before the lines do ends there in front of anything. -/
theorem skipGapFrom_append (h : IsLines s) (within : Bool) (hne : skipGapFrom within s ≠ [])
    (more : List Char) : skipGapFrom within (s ++ more) = skipGapFrom within s ++ more := by
  induction s generalizing within with
  | nil => exact absurd rfl hne
  | cons c s ih =>
    have hhead : c ≠ '\n' → (s ++ more).head? = s.head? := fun hc =>
      List.head?_append_of_ne_nil s (h.ne_nil hc)
    have hreturn : (c == '\r' && (s ++ more).head? == some '\n') =
        (c == '\r' && s.head? == some '\n') := by
      by_cases hc : c = '\n'
      · subst hc
        rfl
      · rw [hhead hc]
    rw [List.cons_append]
    unfold skipGapFrom at hne ⊢
    rw [hreturn]
    split
    · next hwithin =>
      rw [if_pos hwithin] at hne
      exact ih h.of_cons _ hne
    · next hwithin =>
      rw [if_neg hwithin] at hne
      split
      · next hgap =>
        rw [if_pos hgap] at hne
        exact ih h.of_cons _ hne
      · next hgap =>
        rw [if_neg hgap] at hne
        split
        · next hmark =>
          rw [if_pos hmark] at hne
          exact ih h.of_cons _ hne
        · rfl

theorem skipGap_append (h : IsLines s) (hne : skipGap s ≠ []) (more : List Char) :
    skipGap (s ++ more) = skipGap s ++ more :=
  skipGapFrom_append h false hne more

/-! ## Strings -/

theorem length_le_of_numbered? {count : Nat} {c : Char} (h : numbered? count s = some c) :
    count ≤ s.length := by
  unfold numbered? at h
  simp only at h
  split at h
  · next hlength =>
    rw [List.length_take] at hlength
    omega
  · cases h

theorem numbered?_append {count : Nat} {c : Char} (h : numbered? count s = some c)
    (more : List Char) : numbered? count (s ++ more) = some c := by
  have hlength := length_le_of_numbered? h
  unfold numbered? at h ⊢
  rw [List.take_append_of_le_length hlength]
  exact h

/-- An escape by number, with `count` digits after its letter. -/
theorem escape?_numbered_append {d c : Char} {count n : Nat}
    (hd : ∀ t, escape? (d :: t) = (numbered? count t).map (·, count + 1))
    (h : escape? (d :: s) = some (c, n)) (more : List Char) :
    escape? (d :: (s ++ more)) = some (c, n) := by
  rw [hd] at h ⊢
  obtain ⟨c, hc, he⟩ := Option.map_eq_some_iff.1 h
  rw [numbered?_append hc more]
  exact congrArg some he

/-- An escape is looked at no further than it goes. -/
theorem escape?_append {c : Char} {n : Nat} (h : escape? s = some (c, n)) (more : List Char) :
    escape? (s ++ more) = some (c, n) := by
  cases s with
  | nil => cases h
  | cons d s =>
    by_cases hnumbered : d ∈ ['x', 'u', 'U']
    · simp only [List.mem_cons, List.not_mem_nil, or_false] at hnumbered
      rcases hnumbered with rfl | rfl | rfl
      · exact escape?_numbered_append (fun t => rfl) h more
      · exact escape?_numbered_append (fun t => rfl) h more
      · exact escape?_numbered_append (fun t => rfl) h more
    · rw [escape?_of_not_numbered hnumbered] at h
      rw [List.cons_append, escape?_of_not_numbered hnumbered, h]

theorem literal_local : IsLocal literal := by
  intro s x rest hs h
  have hne : s ≠ [] := by
    rintro rfl
    cases h
  have htake := fun more => hs.takeWhile_append (f := fun c => isTextChar c && c != '\'')
    (by decide) hne more
  have hdrop := fun more => hs.dropWhile_append (f := fun c => isTextChar c && c != '\'')
    (by decide) hne more
  have hsuffix := List.dropWhile_suffix (fun c => isTextChar c && c != '\'') (l := s)
  unfold literal at h ⊢
  simp only [htake, hdrop] at h ⊢
  split at h
  · next rest' hrest =>
    obtain ⟨rfl, rfl⟩ := Prod.mk.inj (Option.some.inj h)
    rw [hrest] at hsuffix ⊢
    exact ⟨(hs.of_suffix hsuffix).ne_nil (by decide), fun more => rfl⟩
  · cases h

theorem basicFrom_local (skip : Nat) (done : List Char) : IsLocal (basicFrom skip done) := by
  intro s x rest hs h
  induction s generalizing skip done with
  | nil => simp [basicFrom] at h
  | cons c s ih =>
    cases skip with
    | succ skip => exact ih skip done hs.of_cons h
    | zero =>
      unfold basicFrom at h
      split at h
      · next hmark =>
        obtain ⟨rfl, rfl⟩ := Prod.mk.inj (Option.some.inj h)
        refine ⟨hs.ne_nil ?_, fun more => ?_⟩
        · rintro rfl
          cases hmark
        · rw [List.cons_append]
          unfold basicFrom
          rw [if_pos hmark]
      · next hmark =>
        split at h
        · next hescape =>
          split at h
          · next d n he =>
            obtain ⟨hrest, hmore⟩ := ih _ _ hs.of_cons h
            refine ⟨hrest, fun more => ?_⟩
            rw [List.cons_append]
            unfold basicFrom
            rw [if_neg hmark, if_pos hescape, escape?_append he]
            exact hmore more
          · cases h
        · next hescape =>
          split at h
          · next htext =>
            obtain ⟨hrest, hmore⟩ := ih _ _ hs.of_cons h
            refine ⟨hrest, fun more => ?_⟩
            rw [List.cons_append]
            unfold basicFrom
            rw [if_neg hmark, if_neg hescape, if_pos htext]
            exact hmore more
          · cases h

theorem quoted_local : IsLocal quoted := by
  intro s x rest hs h
  unfold quoted at h
  split at h
  · exact literal_local hs.of_cons h
  · exact basicFrom_local 0 [] hs.of_cons h
  · cases h

/-- Marks in a row do not reach beyond a line. -/
theorem extra_append {mark : Char} (hmark : mark ≠ '\n') (hs : IsLines s) (hne : s ≠ [])
    (more : List Char) :
    ((s ++ more).take 2).takeWhile (· == mark) = (s.take 2).takeWhile (· == mark) := by
  obtain ⟨a, s, rfl⟩ := List.exists_cons_of_ne_nil hne
  by_cases ha : a = mark
  · subst ha
    obtain ⟨b, s, rfl⟩ := List.exists_cons_of_ne_nil (hs.ne_nil hmark)
    rfl
  · simp [ha]

/-- Whether a string of several lines ends at a mark shows on these lines. -/
theorem closing?_append {mark : Char} (hmark : mark ≠ '\n') (done : List Char) (hs : IsLines s)
    (hne : s ≠ []) (more : List Char) :
    closing? mark done (s ++ more) =
      (closing? mark done s).map fun (x, rest) => (x, rest ++ more) := by
  obtain ⟨a, s, rfl⟩ := List.exists_cons_of_ne_nil hne
  by_cases ha : a = mark
  · subst ha
    obtain ⟨b, s, rfl⟩ := List.exists_cons_of_ne_nil (hs.ne_nil hmark)
    by_cases hb : b = a
    · subst hb
      have hrest := hs.of_cons.ne_nil hmark
      have hlength : ((s.take 2).takeWhile (· == b)).length ≤ s.length :=
        ((List.takeWhile_prefix _).length_le).trans (List.length_take_le' _ _)
      simp [closing?, extra_append hmark hs.of_cons.of_cons hrest,
        List.drop_append_of_le_length hlength]
    · simp [closing?, hb]
  · cases s with
    | nil => cases more <;> simp [closing?, ha]
    | cons b s => simp [closing?, ha]

theorem closing?_ne_nil {mark : Char} (hmark : mark ≠ '\n') {done : List Char} (hs : IsLines s)
    {x : String} (h : closing? mark done s = some (x, rest)) : rest ≠ [] := by
  unfold closing? at h
  split at h
  · next a b s =>
    split at h
    · next hmarks =>
      simp only [Bool.and_eq_true, beq_iff_eq] at hmarks
      obtain ⟨rfl, rfl⟩ := hmarks
      obtain ⟨-, rfl⟩ := Prod.mk.inj (Option.some.inj h)
      intro hnil
      -- then the marks would be all that is left
      rw [List.drop_eq_nil_iff] at hnil
      have hprefix : (s.take 2).takeWhile (· == b) <+: s :=
        (List.takeWhile_prefix _).trans (List.take_prefix 2 s)
      have hall := hprefix.eq_of_length (Nat.le_antisymm hprefix.length_le hnil)
      have hnewline := hs.of_cons.of_cons.newline_mem (hs.of_cons.ne_nil hmark)
      rw [← hall] at hnewline
      have := List.mem_takeWhile_imp hnewline
      exact hmark (eq_of_beq this).symm
    · cases h
  · cases h

theorem standsInLines_append {c : Char} (h : IsLines (c :: s)) (more : List Char) :
    standsInLines c (s ++ more) = standsInLines c s := by
  unfold standsInLines
  by_cases hc : c = '\n'
  · subst hc
    rfl
  · rw [List.head?_append_of_ne_nil s (h.ne_nil hc)]

theorem literalLinesFrom_local (done : List Char) : IsLocal (literalLinesFrom done) := by
  intro s x rest hs h
  induction s generalizing done with
  | nil => simp [literalLinesFrom] at h
  | cons c s ih =>
    unfold literalLinesFrom at h
    split at h
    · next hmark =>
      have hc : c ≠ '\n' := by
        rintro rfl
        cases hmark
      have hmark' : '\'' ≠ '\n' := by decide
      have hclosing := closing?_append hmark' done hs.of_cons (hs.ne_nil hc)
      cases hread : closing? '\'' done s with
      | some result =>
        rw [hread] at h
        obtain rfl := Option.some.inj h
        refine ⟨closing?_ne_nil (by decide) hs.of_cons hread, fun more => ?_⟩
        rw [List.cons_append]
        unfold literalLinesFrom
        rw [if_pos hmark, hclosing, hread]
        rfl
      | none =>
        rw [hread] at h
        obtain ⟨hrest, hmore⟩ := ih _ hs.of_cons h
        refine ⟨hrest, fun more => ?_⟩
        rw [List.cons_append]
        unfold literalLinesFrom
        rw [if_pos hmark, hclosing, hread]
        exact hmore more
    · next hmark =>
      split at h
      · next hstands =>
        obtain ⟨hrest, hmore⟩ := ih _ hs.of_cons h
        refine ⟨hrest, fun more => ?_⟩
        rw [List.cons_append]
        unfold literalLinesFrom
        rw [if_neg hmark, standsInLines_append hs, if_pos hstands]
        exact hmore more
      · cases h

theorem endsLine_append (h : IsLines s) (hne : s ≠ []) (more : List Char) :
    endsLine (s ++ more) = endsLine s := by
  unfold endsLine
  rw [skipBlanks_append h hne, newline?_append (h.of_suffix (skipBlanks_suffix s))
    (skipBlanks_ne_nil h hne), Option.isSome_map]

theorem basicLinesFrom_local (skip : Nat) (joining : Bool) (done : List Char) :
    IsLocal (basicLinesFrom skip joining done) := by
  intro s x rest hs h
  induction s generalizing skip joining done with
  | nil => simp [basicLinesFrom] at h
  | cons c s ih =>
    cases skip with
    | succ skip => exact ih skip joining done hs.of_cons h
    | zero =>
      -- a carriage return looks at the character behind it, which is on these lines
      have hjoins : ∀ more, (joining && (isBlank c || c == '\n' ||
          (c == '\r' && (s ++ more).head? == some '\n'))) =
          (joining && (isBlank c || c == '\n' || (c == '\r' && s.head? == some '\n'))) := by
        intro more
        by_cases hc : c = '\n'
        · subst hc
          rfl
        · rw [List.head?_append_of_ne_nil s (hs.ne_nil hc)]
      unfold basicLinesFrom at h
      split at h
      · next hjoin =>
        obtain ⟨hrest, hmore⟩ := ih _ _ _ hs.of_cons h
        refine ⟨hrest, fun more => ?_⟩
        rw [List.cons_append]
        unfold basicLinesFrom
        rw [hjoins, if_pos hjoin]
        exact hmore more
      · next hjoin =>
        split at h
        · next hmark =>
          have hc : c ≠ '\n' := by
            rintro rfl
            cases hmark
          have hmark' : '"' ≠ '\n' := by decide
          have hclosing := closing?_append hmark' done hs.of_cons (hs.ne_nil hc)
          split at h
          · next result hread =>
            obtain rfl := Option.some.inj h
            refine ⟨closing?_ne_nil (by decide) hs.of_cons hread, fun more => ?_⟩
            rw [List.cons_append]
            unfold basicLinesFrom
            rw [hjoins, if_neg hjoin, if_pos hmark, hclosing, hread]
            rfl
          · next hread =>
            obtain ⟨hrest, hmore⟩ := ih _ _ _ hs.of_cons h
            refine ⟨hrest, fun more => ?_⟩
            rw [List.cons_append]
            unfold basicLinesFrom
            rw [hjoins, if_neg hjoin, if_pos hmark, hclosing, hread]
            exact hmore more
        · next hmark =>
          split at h
          · next hescape =>
            have hc : c ≠ '\n' := by
              rintro rfl
              cases hescape
            have hends := endsLine_append hs.of_cons (hs.ne_nil hc)
            split at h
            · next hline =>
              obtain ⟨hrest, hmore⟩ := ih _ _ _ hs.of_cons h
              refine ⟨hrest, fun more => ?_⟩
              rw [List.cons_append]
              unfold basicLinesFrom
              rw [hjoins, if_neg hjoin, if_neg hmark, if_pos hescape, hends, if_pos hline]
              exact hmore more
            · next hline =>
              split at h
              · next d n he =>
                obtain ⟨hrest, hmore⟩ := ih _ _ _ hs.of_cons h
                refine ⟨hrest, fun more => ?_⟩
                rw [List.cons_append]
                unfold basicLinesFrom
                rw [hjoins, if_neg hjoin, if_neg hmark, if_pos hescape, hends, if_neg hline,
                  escape?_append he]
                exact hmore more
              · cases h
          · next hescape =>
            split at h
            · next hstands =>
              obtain ⟨hrest, hmore⟩ := ih _ _ _ hs.of_cons h
              refine ⟨hrest, fun more => ?_⟩
              rw [List.cons_append]
              unfold basicLinesFrom
              rw [hjoins, if_neg hjoin, if_neg hmark, if_neg hescape, standsInLines_append hs,
                if_pos hstands]
              exact hmore more
            · cases h

theorem skipNewline_append (h : IsLines s) (hne : s ≠ []) (more : List Char) :
    skipNewline (s ++ more) = skipNewline s ++ more := by
  unfold skipNewline
  rw [newline?_append h hne]
  cases newline? s <;> rfl

/-- A mark that is written three times opens a string of several lines, which ends on these lines. -/
theorem string_local : IsLocal string := by
  intro s x rest hs h
  unfold string at h
  split at h
  · next s =>
    have hs' := hs.of_cons.of_cons.of_cons
    have hne := hs.of_cons.of_cons.ne_nil (by decide)
    obtain ⟨hrest, hmore⟩ := literalLinesFrom_local [] (hs'.of_suffix (skipNewline_suffix s)) h
    refine ⟨hrest, fun more => ?_⟩
    show literalLinesFrom [] (skipNewline (s ++ more)) = _
    rw [skipNewline_append hs' hne, hmore]
  · next s =>
    have hs' := hs.of_cons.of_cons.of_cons
    have hne := hs.of_cons.of_cons.ne_nil (by decide)
    obtain ⟨hrest, hmore⟩ :=
      basicLinesFrom_local 0 false [] (hs'.of_suffix (skipNewline_suffix s)) h
    refine ⟨hrest, fun more => ?_⟩
    show basicLinesFrom 0 false [] (skipNewline (s ++ more)) = _
    rw [skipNewline_append hs' hne, hmore]
  · next hliteral hbasic =>
    obtain ⟨hrest, hmore⟩ := quoted_local hs h
    refine ⟨hrest, fun more => ?_⟩
    rw [string_eq_quoted, hmore]
    -- marks that make up three with what is behind would be the last of their line
    intro q hq behind he
    have hq' : q ≠ '\n' := ne_of_mem_of_not_mem hq (by decide)
    have hthree : ∀ t, s ≠ q :: q :: q :: t := by
      simp only [List.mem_cons, List.not_mem_nil, or_false] at hq
      rcases hq with rfl | rfl
      · exact hbasic
      · exact hliteral
    obtain ⟨a, s, rfl⟩ := List.exists_cons_of_ne_nil (l := s) (by
      rintro rfl
      cases h)
    obtain ⟨rfl, he⟩ := List.cons.inj he
    obtain ⟨b, s, rfl⟩ := List.exists_cons_of_ne_nil (hs.ne_nil hq')
    obtain ⟨rfl, he⟩ := List.cons.inj he
    obtain ⟨c, s, rfl⟩ := List.exists_cons_of_ne_nil (hs.of_cons.ne_nil hq')
    obtain ⟨rfl, -⟩ := List.cons.inj he
    exact hthree s rfl

/-! ## Keys -/

theorem keyPart_local : IsLocal keyPart := by
  intro s x rest hs h
  have hne : s ≠ [] := by
    rintro rfl
    cases h
  have hhead : ∀ more, (s ++ more).head? = s.head? := fun _ => List.head?_append_of_ne_nil s hne
  unfold keyPart at h
  split at h
  · next hbare =>
    obtain ⟨rfl, rfl⟩ := Prod.mk.inj (Option.some.inj h)
    refine ⟨hs.dropWhile_ne_nil (by decide) hne, fun more => ?_⟩
    unfold keyPart
    rw [hhead, if_pos hbare, hs.takeWhile_append (by decide) hne, hs.dropWhile_append (by decide) hne]
  · next hbare =>
    obtain ⟨hrest, hmore⟩ := quoted_local hs h
    refine ⟨hrest, fun more => ?_⟩
    unfold keyPart
    rw [hhead, if_neg hbare, hmore]

theorem keyUpTo_local (parts : Nat) : IsLocal (keyUpTo parts) := by
  induction parts with
  | zero =>
    intro s x rest hs h
    cases h
  | succ parts ih =>
    intro s x rest hs h
    unfold keyUpTo at h
    split at h
    · cases h
    · next part after hpart =>
      obtain ⟨hafter, hmore⟩ := keyPart_local hs hpart
      have hlines := hs.of_suffix (keyPart_suffix hpart)
      have hblanks := skipBlanks_append hlines hafter
      have hrest' := hlines.of_suffix (skipBlanks_suffix after)
      split at h
      · next s' hdot =>
        rw [hdot] at hrest' hblanks
        have hne := hrest'.ne_nil (by decide)
        split at h
        · next hkeys =>
          obtain ⟨rfl, rfl⟩ := Prod.mk.inj (Option.some.inj h)
          obtain ⟨hrest, hbehind⟩ := ih (hrest'.of_cons.of_suffix (skipBlanks_suffix s')) hkeys
          refine ⟨hrest, fun more => ?_⟩
          unfold keyUpTo
          simp only [hmore, hblanks, List.cons_append, skipBlanks_append hrest'.of_cons hne, hbehind]
        · cases h
      · next hdot =>
        obtain ⟨rfl, rfl⟩ := Prod.mk.inj (Option.some.inj h)
        refine ⟨skipBlanks_ne_nil hlines hafter, fun more => ?_⟩
        obtain ⟨c, t, ht⟩ := List.exists_cons_of_ne_nil (skipBlanks_ne_nil hlines hafter)
        have hc : c ≠ '.' := by
          rintro rfl
          exact hdot t ht
        unfold keyUpTo
        simp only [hmore, hblanks, ht, List.cons_append]
        split
        · next heq => exact absurd (List.cons.inj heq).1 hc
        · rfl

theorem key_local : IsLocal key :=
  keyUpTo_local maxParts

/-! ## Values -/

theorem plain_nil : plain [] = none := by
  decide

/-- A date goes on behind a space if a digit follows. -/
theorem plain_date {c : Char} {more : List Char} (hrest : s.dropWhile isPlainChar = ' ' :: c :: more)
    (h : (isDate (s.takeWhile isPlainChar) && c.isDigit) = true) :
    plain s = (ofPlain (s.takeWhile isPlainChar ++ ' ' :: (c :: more).takeWhile isPlainChar)).map
      (·, (c :: more).dropWhile isPlainChar) := by
  unfold plain
  simp only [hrest]
  rw [if_pos h]

theorem plain_word (h : ∀ c more, s.dropWhile isPlainChar = ' ' :: c :: more →
      (isDate (s.takeWhile isPlainChar) && c.isDigit) = false) :
    plain s = (ofPlain (s.takeWhile isPlainChar)).map (·, s.dropWhile isPlainChar) := by
  unfold plain
  simp only
  split
  · next c more hrest => rw [h c more hrest, if_neg Bool.false_ne_true]
  · rfl

/-- The two characters behind a date are on its line. -/
theorem plain_append (hs : IsLines s) (hne : s ≠ []) (more : List Char) :
    plain (s ++ more) = (plain s).map fun (v, rest) => (v, rest ++ more) := by
  have hword := hs.takeWhile_append (f := isPlainChar) (by decide) hne more
  have hdrop := hs.dropWhile_append (f := isPlainChar) (by decide) hne more
  have hrest := hs.of_suffix (List.dropWhile_suffix isPlainChar)
  by_cases hdate : ∃ c t, s.dropWhile isPlainChar = ' ' :: c :: t ∧
      (isDate (s.takeWhile isPlainChar) && c.isDigit) = true
  · obtain ⟨c, t, ht, hdate⟩ := hdate
    have hct := hrest
    rw [ht] at hdrop hct
    have hdrop' : (s ++ more).dropWhile isPlainChar = ' ' :: c :: (t ++ more) := hdrop
    have htime := hct.of_cons.takeWhile_append (f := isPlainChar) (by decide)
      (List.cons_ne_nil c t) more
    have hafter := hct.of_cons.dropWhile_append (f := isPlainChar) (by decide)
      (List.cons_ne_nil c t) more
    rw [List.cons_append] at htime hafter
    rw [plain_date ht hdate, plain_date hdrop' (by rw [hword]; exact hdate), hword, htime, hafter,
      Option.map_map]
    rfl
  · have hnot : ∀ c t, s.dropWhile isPlainChar = ' ' :: c :: t →
        (isDate (s.takeWhile isPlainChar) && c.isDigit) = false := by
      intro c t ht
      rw [← Bool.not_eq_true]
      exact fun h => hdate ⟨c, t, ht, h⟩
    rw [plain_word hnot, plain_word, hword, hdrop, Option.map_map]
    · rfl
    · intro c t ht
      rw [hdrop] at ht
      rw [hword]
      -- the space and the character behind it are on these lines
      cases hu : s.dropWhile isPlainChar with
      | nil => exact absurd hu (hs.dropWhile_ne_nil (by decide) hne)
      | cons a u =>
        rw [hu] at ht hrest
        obtain ⟨rfl, hbehind⟩ := List.cons.inj ht
        cases u with
        | nil => exact absurd rfl (hrest.ne_nil (by decide))
        | cons b u =>
          obtain ⟨rfl, -⟩ := List.cons.inj hbehind
          exact hnot b u hu

theorem plain_ne_nil (hs : IsLines s) {v : Value} (h : plain s = some (v, rest)) : rest ≠ [] := by
  have hne : s ≠ [] := by
    rintro rfl
    rw [plain_nil] at h
    cases h
  have hdrop := hs.dropWhile_ne_nil (f := isPlainChar) (by decide) hne
  have hrest := hs.of_suffix (List.dropWhile_suffix isPlainChar)
  unfold plain at h
  simp only at h
  split at h
  · next c t ht =>
    rw [ht] at hrest
    split at h
    · obtain rfl := eq_of_map h
      exact hrest.of_cons.dropWhile_ne_nil (by decide) (List.cons_ne_nil c t)
    · obtain rfl := eq_of_map h
      exact hdrop
  · obtain rfl := eq_of_map h
    exact hdrop

theorem plain_local : IsLocal plain := by
  intro s x rest hs h
  refine ⟨plain_ne_nil hs h, fun more => ?_⟩
  have hne : s ≠ [] := by
    rintro rfl
    rw [plain_nil] at h
    cases h
  rw [plain_append hs hne, h]
  rfl

section
variable {α : Type} {item : Reader α} (hfront : TakesFront item) (hitem : IsLocal item)
  {close : Char} (hclose : close ≠ '\n')
include hfront hitem hclose

/-- What is closed on these lines is closed in front of anything. -/
theorem separated_local (fuel : Nat) (done : List α) :
    IsLocal (separated item close fuel done) := by
  induction fuel generalizing done with
  | zero =>
    intro s x rest hs h
    cases h
  | succ fuel ih =>
    intro s x rest hs h
    unfold separated at h
    split at h
    · cases h
    · next c after hgap =>
      have hopen := hs.of_suffix (skipGap_suffix s)
      have hskip := skipGap_append hs (by rw [hgap]; exact List.cons_ne_nil c after)
      rw [hgap] at hopen hskip
      split at h
      · next hend =>
        obtain ⟨rfl, rfl⟩ := Prod.mk.inj (Option.some.inj h)
        refine ⟨hopen.ne_nil (hend ▸ hclose), fun more => ?_⟩
        unfold separated
        simp only [hskip, List.cons_append, if_pos hend]
      · next hend =>
        split at h
        · cases h
        · next y behind hy =>
          obtain ⟨hbehind, hread⟩ := hitem hopen hy
          have hread' : ∀ more, item (c :: (after ++ more)) = some (y, behind ++ more) := hread
          have hlines := hopen.of_suffix (hfront hy)
          split at h
          · cases h
          · next d t ht =>
            have hskip' := skipGap_append hlines (by rw [ht]; exact List.cons_ne_nil d t)
            have hrest := hlines.of_suffix (skipGap_suffix behind)
            rw [ht] at hrest hskip'
            split at h
            · next hcomma =>
              obtain ⟨hne, hmore⟩ := ih _ hrest.of_cons h
              refine ⟨hne, fun more => ?_⟩
              unfold separated
              simp only [hskip, List.cons_append, if_neg hend, hread', hskip', if_pos hcomma]
              exact hmore more
            · next hcomma =>
              split at h
              · next hend' =>
                obtain ⟨rfl, rfl⟩ := Prod.mk.inj (Option.some.inj h)
                refine ⟨hrest.ne_nil (hend' ▸ hclose), fun more => ?_⟩
                unfold separated
                simp only [hskip, List.cons_append, if_neg hend, hread', hskip', if_neg hcomma,
                  if_pos hend']
              · cases h

/-- More text brings more fuel, which changes nothing. -/
theorem separated_length_local : IsLocal fun s => separated item close s.length [] s := by
  intro s x rest hs h
  have hread : ∀ fuel, s.length ≤ fuel → separated item close fuel [] s = some (x, rest) := by
    intro fuel hfuel
    rw [← separated_fuel hfront close (Nat.le_refl _) hfuel]
    exact h
  refine ⟨(separated_local hfront hitem hclose _ [] hs h).1, fun more => ?_⟩
  have hfuel : s.length ≤ (s ++ more).length := by simp
  exact (separated_local hfront hitem hclose _ [] hs (hread _ hfuel)).2 more

end

theorem inlinePair_local {value : Reader Value} (hfront : TakesFront value)
    (hvalue : IsLocal value) : IsLocal (inlinePair value) := by
  intro s x rest hs h
  unfold inlinePair at h
  split at h
  · cases h
  · next ks after hkey =>
    obtain ⟨hafter, hread⟩ := key_local hs hkey
    have hlines := hs.of_suffix (key_suffix hkey)
    split at h
    · next t ht =>
      have hskip := skipGap_append hlines (by rw [ht]; exact List.cons_ne_nil '=' t)
      have hrest := hlines.of_suffix (skipGap_suffix after)
      rw [ht] at hskip hrest
      obtain ⟨⟨v, behind⟩, hv, he⟩ := Option.map_eq_some_iff.1 h
      obtain ⟨rfl, rfl⟩ := Prod.mk.inj he
      obtain ⟨hbehind, hmore⟩ := hvalue (hrest.of_cons.of_suffix (skipGap_suffix t)) hv
      refine ⟨hbehind, fun more => ?_⟩
      have hne : skipGap t ≠ [] := by
        intro hnil
        have hsuffix := hfront hv
        rw [hnil] at hsuffix
        exact hbehind (List.suffix_nil.1 hsuffix)
      unfold inlinePair
      simp only [hread, hskip, List.cons_append, skipGap_append hrest.of_cons hne, hmore]
      rfl
    · cases h

/-- What is made of a value is made of it in front of anything. -/
theorem local_of_map {α β : Type} {p : Reader α} {f : α → β} (hp : IsLocal p) (hs : IsLines s)
    {y : β} (h : (p s).map (Prod.map f id) = some (y, rest)) :
    rest ≠ [] ∧ ∀ more, (p (s ++ more)).map (Prod.map f id) = some (y, rest ++ more) := by
  obtain ⟨⟨x, left⟩, hx, he⟩ := Option.map_eq_some_iff.1 h
  obtain ⟨rfl, rfl⟩ := Prod.mk.inj he
  obtain ⟨hrest, hmore⟩ := hp hs hx
  refine ⟨hrest, fun more => ?_⟩
  rw [hmore]
  rfl

theorem valueUpTo_string_local (depth : Nat) {q : Char} (hq : q = '"' ∨ q = '\'') {t : List Char}
    (hs : IsLines (q :: t)) {v : Value} (h : valueUpTo depth (q :: t) = some (v, rest)) :
    rest ≠ [] ∧ ∀ more, valueUpTo depth (q :: (t ++ more)) = some (v, rest ++ more) := by
  rw [valueUpTo_eq_string depth hq] at h
  obtain ⟨hrest, hmore⟩ := local_of_map string_local hs h
  refine ⟨hrest, fun more => ?_⟩
  rw [valueUpTo_eq_string depth hq]
  exact hmore more

/-- Only arrays and inline tables are left to look at. -/
theorem valueUpTo_local_of_open {depth : Nat}
    (hopen : ∀ c ∈ ['[', '{'], ∀ t v rest, IsLines (c :: t) →
      valueUpTo depth (c :: t) = some (v, rest) →
      rest ≠ [] ∧ ∀ more, valueUpTo depth (c :: (t ++ more)) = some (v, rest ++ more)) :
    IsLocal (valueUpTo depth) := by
  intro s v rest hs h
  by_cases hmarks : ∀ c ∈ ['"', '\'', '[', '{'], s.head? ≠ some c
  · rw [valueUpTo_eq_plain depth hmarks] at h
    obtain ⟨hrest, hmore⟩ := plain_local hs h
    have hne : s ≠ [] := by
      rintro rfl
      rw [plain_nil] at h
      cases h
    refine ⟨hrest, fun more => ?_⟩
    rw [valueUpTo_eq_plain depth, hmore]
    rw [List.head?_append_of_ne_nil s hne]
    exact hmarks
  · simp only [List.mem_cons, List.not_mem_nil, or_false, not_forall, not_not] at hmarks
    obtain ⟨c, hc, hhead⟩ := hmarks
    obtain ⟨t, rfl⟩ := List.head?_eq_some_iff.1 hhead
    rcases hc with rfl | rfl | rfl | rfl
    · exact valueUpTo_string_local depth (.inl rfl) hs h
    · exact valueUpTo_string_local depth (.inr rfl) hs h
    · exact hopen _ (by simp) t v rest hs h
    · exact hopen _ (by simp) t v rest hs h

theorem valueUpTo_local (depth : Nat) : IsLocal (valueUpTo depth) := by
  induction depth with
  | zero =>
    -- arrays and inline tables are nested too deep
    refine valueUpTo_local_of_open fun c hc t v rest _ h => ?_
    simp only [List.mem_cons, List.not_mem_nil, or_false] at hc
    rcases hc with rfl | rfl <;> cases h
  | succ depth ih =>
    refine valueUpTo_local_of_open fun c hc t v rest hs h => ?_
    simp only [List.mem_cons, List.not_mem_nil, or_false] at hc
    rcases hc with rfl | rfl
    · rw [valueUpTo_array] at h
      obtain ⟨hrest, hmore⟩ := local_of_map (f := Value.array)
        (separated_length_local (valueUpTo_suffix depth) ih (by decide)) hs.of_cons h
      exact ⟨hrest, fun more => hmore more⟩
    · unfold valueUpTo at h ⊢
      simp only at h ⊢
      have hclose : '}' ≠ '\n' := by decide
      have hdefs := separated_length_local (inlinePair_suffix (valueUpTo_suffix depth))
        (inlinePair_local (valueUpTo_suffix depth) ih) hclose
      split at h
      · cases h
      · next defs behind hread =>
        obtain ⟨hbehind, hmore⟩ := hdefs hs.of_cons hread
        obtain ⟨es, hes, he⟩ := Option.map_eq_some_iff.1 h
        obtain ⟨rfl, rfl⟩ := Prod.mk.inj he
        refine ⟨hbehind, fun more => ?_⟩
        simp only [hmore more, hes]
        rfl

theorem value_local : IsLocal value :=
  valueUpTo_local maxDepth

/-! ## Statements -/

theorem closedKey_local {close : List Char} (hne : close ≠ []) (hclose : '\n' ∉ close)
    {ks : List String} (hs : IsLines s) (h : closedKey close s = some (ks, rest)) :
    rest ≠ [] ∧ ∀ more, closedKey close (s ++ more) = some (ks, rest ++ more) := by
  have hsne : s ≠ [] := by
    rintro rfl
    cases h
  unfold closedKey at h
  split at h
  · cases h
  · next ks' after hkey =>
    have hblanks := hs.of_suffix (skipBlanks_suffix s)
    obtain ⟨hafter, hread⟩ := key_local hblanks hkey
    have hlines := hblanks.of_suffix (key_suffix hkey)
    split at h
    · next hprefix =>
      obtain ⟨rfl, rfl⟩ := Prod.mk.inj (Option.some.inj h)
      obtain ⟨t, rfl⟩ := List.isPrefixOf_iff_prefix.1 hprefix
      refine ⟨?_, fun more => ?_⟩
      · rw [List.drop_left]
        rintro rfl
        rw [List.append_nil] at hlines
        exact hclose (hlines.newline_mem hne)
      · unfold closedKey
        rw [skipBlanks_append hs hsne, hread]
        simp
    · cases h

theorem statement_local : IsLocal statement := by
  intro s x rest hs h
  unfold statement at h
  split at h
  · next t =>
    obtain ⟨⟨ks, left⟩, hks, he⟩ := Option.map_eq_some_iff.1 h
    obtain ⟨rfl, rfl⟩ := Prod.mk.inj he
    obtain ⟨hrest, hmore⟩ := closedKey_local (by decide) (by decide) hs.of_cons.of_cons hks
    refine ⟨hrest, fun more => ?_⟩
    show (closedKey [']', ']'] (t ++ more)).map _ = _
    rw [hmore]
    rfl
  · next t hnot =>
    obtain ⟨⟨ks, left⟩, hks, he⟩ := Option.map_eq_some_iff.1 h
    obtain ⟨rfl, rfl⟩ := Prod.mk.inj he
    obtain ⟨hrest, hmore⟩ := closedKey_local (by decide) (by decide) hs.of_cons hks
    have hhead : t.head? ≠ some '[' := by
      intro hhead
      obtain ⟨u, rfl⟩ := List.head?_eq_some_iff.1 hhead
      exact hnot u rfl
    refine ⟨hrest, fun more => ?_⟩
    rw [List.cons_append, statement_eq_header, hmore]
    · rfl
    · rw [List.head?_append_of_ne_nil t (hs.ne_nil (by decide))]
      exact hhead
  · next hnot hnot' =>
    have hhead : s.head? ≠ some '[' := by
      intro hhead
      obtain ⟨u, rfl⟩ := List.head?_eq_some_iff.1 hhead
      exact hnot' u rfl
    split at h
    · cases h
    · next ks after hkey =>
      have hne : s ≠ [] := by
        rintro rfl
        cases hkey
      obtain ⟨hafter, hread⟩ := closedKey_local (by decide) (by decide) hs hkey
      have hlines := hs.of_suffix (closedKey_suffix hkey).1
      obtain ⟨⟨v, left⟩, hv, he⟩ := Option.map_eq_some_iff.1 h
      obtain ⟨rfl, rfl⟩ := Prod.mk.inj he
      obtain ⟨hrest, hmore⟩ := value_local (hlines.of_suffix (skipBlanks_suffix after)) hv
      refine ⟨hrest, fun more => ?_⟩
      rw [statement_eq_define, hread]
      · simp only [skipBlanks_append hlines hafter, hmore]
        rfl
      · rw [List.head?_append_of_ne_nil s hne]
        exact hhead

end DocCoverage.Toml
