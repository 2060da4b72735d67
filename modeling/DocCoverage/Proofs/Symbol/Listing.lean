import DocCoverage.Proofs.Symbol.Selection

/-!
# Symbols in a list

A text that only lists symbols, each between characters that are no word characters, mentions
exactly these symbols.  No matter what the stem is made of, no other symbol can start in such a gap:
the stem would have to overlap itself, so all of it would repeat the gap, and no word character could
follow.

    a gap before a stem: nothing stands at its front                     (not_stands_gap)
    the names found in (lead ++ n₁ ++ trail) ++ (lead ++ n₂ ++ trail) ++ …  are  n₁, n₂, …
                                                                 (map_name_found_lines)
-/

namespace DocCoverage

/-- No character of `gap` is a word character. -/
def IsGap (gap : List Char) : Prop :=
  ∀ c ∈ gap, isWord c = false

instance (gap : List Char) : Decidable (IsGap gap) :=
  decidable_of_iff (gap.all (fun c => !isWord c) = true) (by simp [IsGap])

/-- The name that some symbol with this stem can have. -/
def IsName (stem name : List Char) : Prop :=
  ∃ tail, name = stem ++ tail ∧ tail ≠ [] ∧ ∀ c ∈ tail, isWord c = true

theorem IsGap.append {gap gap' : List Char} (h : IsGap gap) (h' : IsGap gap') :
    IsGap (gap ++ gap') := by
  intro c hc
  rcases List.mem_append.mp hc with hc | hc
  · exact h c hc
  · exact h' c hc

theorem IsGap.head? {gap s : List Char} (h : IsGap gap) (hne : gap ≠ []) (c : Char)
    (hc : (gap ++ s).head? = some c) : isWord c = false := by
  rw [List.head?_append_of_ne_nil _ hne] at hc
  exact h c (List.mem_of_head? hc)

theorem IsCandidate.isName {stem text : List Char} {r : Recognition} {o : Occurrence}
    (h : IsCandidate stem r text o) : IsName stem o.name := by
  obtain ⟨tail, after, -, hn, ht⟩ := h
  exact ⟨tail, hn, ht.ne_nil, ht.word⟩

section

variable {stem s name gap : List Char} {r : Recognition}

theorem not_stands_of_isGap (h : IsGap s) : ¬ Stands stem r s name := by
  rintro ⟨tail, after, rfl, -, ht⟩
  obtain ⟨c, rest, rfl⟩ := List.exists_cons_of_ne_nil ht.ne_nil
  have hword := ht.word c List.mem_cons_self
  rw [h c (by simp)] at hword
  cases hword

/-- No symbol starts in a gap right before a stem. -/
theorem not_stands_gap (hne : gap ≠ []) (hgap : IsGap gap) :
    ¬ Stands stem r (gap ++ (stem ++ s)) name := by
  rintro ⟨tail, after, he, -, ht⟩
  rw [List.append_assoc] at he
  have hpos := List.length_pos_of_ne_nil hne
  -- the stem at the front repeats the gap, so it holds no word character, nor does what follows it
  have hblank : ∀ i, i < gap.length + stem.length → ∀ c, (gap ++ (stem ++ s))[i]? = some c →
      isWord c = false := by
    intro i
    induction i using Nat.strongRecOn with
    | ind i ih =>
      intro hi c hc
      rcases Nat.lt_or_ge i gap.length with hlt | hge
      · rw [List.getElem?_append_left hlt] at hc
        exact hgap c (List.mem_of_getElem? hc)
      · refine ih (i - gap.length) (by omega) (by omega) c ?_
        rw [he, List.getElem?_append_left (by omega)]
        rwa [List.getElem?_append_right hge, List.getElem?_append_left (by omega)] at hc
  obtain ⟨c, rest, rfl⟩ := List.exists_cons_of_ne_nil ht.ne_nil
  have hword := ht.word c List.mem_cons_self
  rw [hblank stem.length (by omega) c (by rw [he]; simp)] at hword
  cases hword

end

namespace Matcher

variable (m : Matcher) (r : Recognition)

theorem found_of_isGap {s : List Char} (h : IsGap s) (pos : Nat) : m.found r pos s = [] := by
  induction s generalizing pos with
  | nil => exact m.found_nil r pos
  | cons c s ih =>
    rw [m.found_of_none r ((m.nameAt?_eq_none_iff r _).mpr fun _ => not_stands_of_isGap h)]
    exact ih (fun d hd => h d (List.mem_cons_of_mem _ hd)) (pos + 1)

/-- A gap before a stem is passed over. -/
theorem found_gap {gap : List Char} (h : IsGap gap) (s : List Char) (pos : Nat) :
    m.found r pos (gap ++ (m.stem ++ s)) = m.found r (pos + gap.length) (m.stem ++ s) := by
  induction gap generalizing pos with
  | nil => rfl
  | cons c gap ih =>
    have hnone : m.nameAt? r (c :: (gap ++ (m.stem ++ s))) = none :=
      (m.nameAt?_eq_none_iff r _).mpr fun _ => not_stands_gap (List.cons_ne_nil c gap) h
    rw [List.cons_append, m.found_of_none r hnone, ih fun d hd => h d (List.mem_cons_of_mem _ hd),
      List.length_cons, Nat.add_right_comm, Nat.add_assoc]

/-- A name before a gap is found and passed over. -/
theorem found_name {name gap : List Char} (hname : IsName m.stem name) (hgap : IsGap gap)
    (hne : gap ≠ []) (s : List Char) (pos : Nat) :
    m.found .mention pos (name ++ (gap ++ s)) =
      ⟨pos, name⟩ :: m.found .mention (pos + name.length) (gap ++ s) := by
  obtain ⟨tail, rfl, htail, hword⟩ := hname
  have hstands : Stands m.stem .mention (m.stem ++ tail ++ (gap ++ s)) (m.stem ++ tail) :=
    ⟨tail, gap ++ s, rfl, rfl, htail, hword, hgap.head? hne, fun e => by cases e⟩
  rw [m.found_of_some .mention ((m.nameAt?_eq_some_iff _ _ _).mpr hstands)]
  simp only [width, List.drop_left]

/-- A list of symbols, behind any gap, is read back name by name. -/
theorem map_name_found_lines {lead trail : List Char} (hlead : IsGap lead) (htrail : IsGap trail)
    (hne : trail ≠ []) (names : List (List Char)) (hnames : ∀ n ∈ names, IsName m.stem n)
    {gap : List Char} (hgap : IsGap gap) (pos : Nat) :
    (m.found .mention pos (gap ++ names.flatMap fun n => lead ++ (n ++ trail))).map
      Occurrence.name = names := by
  induction names generalizing gap pos with
  | nil =>
    rw [List.flatMap_nil, List.append_nil, m.found_of_isGap .mention hgap, List.map_nil]
  | cons n names ih =>
    have hn := hnames n List.mem_cons_self
    obtain ⟨tail, rfl, -, -⟩ := id hn
    -- the gap in front and the lead of a line make one gap; so do its trail and the next lead
    have htext : gap ++ ((m.stem ++ tail) :: names).flatMap (fun n => lead ++ (n ++ trail)) =
        (gap ++ lead) ++ (m.stem ++ (tail ++ (trail ++
          names.flatMap fun n => lead ++ (n ++ trail)))) := by
      simp only [List.flatMap_cons, List.append_assoc]
    rw [htext, m.found_gap .mention (hgap.append hlead), ← List.append_assoc m.stem,
      m.found_name hn htrail hne, List.map_cons,
      ih (fun k hk => hnames k (List.mem_cons_of_mem _ hk)) htrail]

end Matcher

end DocCoverage
