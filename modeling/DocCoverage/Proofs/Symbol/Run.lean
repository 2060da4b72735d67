import DocCoverage.Proofs.Symbol.Selection
import Mathlib.Data.List.Induction
import Mathlib.Data.Nat.Find

/-!
# Stems of word characters

A stem of word characters can be looked for in each run of word characters by itself.  Whatever else
stands in a text, a run gives one name at most: the part from the leftmost place where the stem is
followed by another character of the run, up to the end of the run.  For a call site a parenthesis has
to follow the run.

    candidates       = the places of the stem in the runs                (candidate, exists_isRun)
    a taken one that reaches into a run starts in that run                       (stemAt_of_reaches)
    x ∈ extract r t  ↔  some run of t, closed as `r` asks for, gives x        (mem_extract_iff_gives)
-/

namespace DocCoverage

/-- A maximal run of word characters, between what stands in front of it and behind it. -/
structure IsRun (before run after : List Char) : Prop where
  word : ∀ c ∈ run, isWord c = true
  starts : ∀ c, before.getLast? = some c → isWord c = false
  ends : ∀ c, after.head? = some c → isWord c = false

/-- The stem stands at offset `i` of a run, and at least one character of the run follows it. -/
def StemAt (stem run : List Char) (i : Nat) : Prop :=
  ∃ tail, tail ≠ [] ∧ run.drop i = stem ++ tail

/-- A run gives the name that starts at the leftmost place of the stem and ends with the run. -/
def Gives (stem run name : List Char) : Prop :=
  ∃ i, StemAt stem run i ∧ (∀ j < i, ¬ StemAt stem run j) ∧ name = run.drop i

/-- An occurrence starts in the run that follows the text `before`. -/
def Occurrence.StartsIn (before run : List Char) (o : Occurrence) : Prop :=
  ∃ i < run.length, o.start = before.length + i

section

variable {stem run name name' : List Char} {i : Nat}

theorem StemAt.lt_length (h : StemAt stem run i) : i < run.length := by
  obtain ⟨tail, hne, hdrop⟩ := h
  have hlen := congrArg List.length hdrop
  have hpos := List.length_pos_of_ne_nil hne
  rw [List.length_drop, List.length_append] at hlen
  omega

theorem Gives.unique (h : Gives stem run name) (h' : Gives stem run name') : name = name' := by
  obtain ⟨i, hi, hleast, rfl⟩ := h
  obtain ⟨j, hj, hleast', rfl⟩ := h'
  rcases Nat.lt_trichotomy i j with hlt | rfl | hlt
  · exact absurd hi (hleast' i hlt)
  · rfl
  · exact absurd hj (hleast j hlt)

/-- Where the stem stands at all, there is a leftmost place of it. -/
theorem StemAt.exists_leftmost (h : StemAt stem run i) :
    ∃ j ≤ i, StemAt stem run j ∧ ∀ k < j, ¬ StemAt stem run k := by
  classical
  have hex : ∃ j, StemAt stem run j := ⟨i, h⟩
  exact ⟨Nat.find hex, Nat.find_min' hex h, Nat.find_spec hex, fun k hk => Nat.find_min hex hk⟩

/-- A name gives itself and nothing else. -/
theorem Gives.self_iff (h : Gives stem run name) : Gives stem name name' ↔ name' = name := by
  have hself : Gives stem name name := by
    obtain ⟨i, ⟨tail, hne, hdrop⟩, -, rfl⟩ := h
    exact ⟨0, ⟨tail, hne, hdrop⟩, fun j hj => absurd hj (Nat.not_lt_zero j), rfl⟩
  constructor
  · exact fun h' => h'.unique hself
  · rintro rfl
    exact hself

end

/-! ## Candidates in runs -/

section

variable {stem before run after : List Char} {r : Recognition} {i : Nat}

theorem drop_run (before after : List Char) (hi : i ≤ run.length) :
    (before ++ run ++ after).drop (before.length + i) = run.drop i ++ after := by
  rw [← List.drop_drop, List.append_assoc, List.drop_left, List.drop_append_of_le_length hi]

namespace IsRun

variable (h : IsRun before run after)
include h

/-- A place of the stem in a run is a candidate, which ends with the run. -/
theorem candidate (hclosed : r = .callSite → after.head? = some '(') (hi : StemAt stem run i) :
    IsCandidate stem r (before ++ run ++ after) ⟨before.length + i, run.drop i⟩ := by
  have hlt := hi.lt_length
  obtain ⟨tail, hne, hdrop⟩ := hi
  refine ⟨tail, after, ?_, hdrop, hne, ?_, h.ends, hclosed⟩
  · rw [drop_run before after (Nat.le_of_lt hlt), hdrop]
  · intro c hc
    apply h.word c
    apply List.mem_of_mem_drop (i := i)
    rw [hdrop]
    exact List.mem_append_right _ hc

/-- A candidate that starts in a run stands at a place of the stem there and ends with the run. -/
theorem of_candidate (hword : ∀ c ∈ stem, isWord c = true) (hi : i ≤ run.length) {name : List Char}
    (ho : IsCandidate stem r (before ++ run ++ after) ⟨before.length + i, name⟩) :
    StemAt stem run i ∧ name = run.drop i ∧ (r = .callSite → after.head? = some '(') := by
  obtain ⟨tail, rest, hs, hname, ht⟩ := ho
  have htext : run.drop i ++ after = stem ++ tail ++ rest := by
    rw [← drop_run before after hi]
    exact hs
  -- both sides start with one run, which ends at the same place
  have hrun : ∀ c ∈ run.drop i, isWord c = true := fun c hc => h.word c (List.mem_of_mem_drop hc)
  have hwhole : ∀ c ∈ stem ++ tail, isWord c = true := by
    intro c hc
    exact (List.mem_append.mp hc).elim (hword c) (ht.word c)
  have hsame := congrArg (List.takeWhile isWord) htext
  rw [List.takeWhile_append_of_pos hrun, List.takeWhile_append_of_pos hwhole,
    takeWhile_eq_nil_of_head h.ends, takeWhile_eq_nil_of_head ht.maximal, List.append_nil,
    List.append_nil] at hsame
  rw [hsame, List.append_cancel_left_eq] at htext
  refine ⟨⟨tail, ht.ne_nil, hsame⟩, hname.trans hsame.symm, ?_⟩
  rw [htext]
  exact ht.closed

/-- A candidate that reaches into a run from the left starts in that run: no word character stands
right in front of the run. -/
theorem stemAt_of_reaches (hword : ∀ c ∈ stem, isWord c = true) {a : Occurrence}
    (ha : IsCandidate stem r (before ++ run ++ after) a) (hi : i ≤ run.length)
    (hlt : a.start < before.length + i) (hreach : before.length + i < a.stop r) :
    ∃ j < i, StemAt stem run j := by
  obtain ⟨start, name⟩ := a
  have hinside : before.length ≤ start := by
    apply Nat.le_of_not_lt
    intro houtside
    obtain ⟨tail, rest, hs, rfl, ht⟩ := ha
    have hwidth : Matcher.width r (stem ++ tail) ≤ (stem ++ tail).length + 1 := by
      cases r with
      | callSite => exact Nat.le_refl _
      | mention => exact Nat.le_succ _
    simp only [Occurrence.stop] at hreach
    -- the character in front of the run belongs to the name
    have hk : before.length - 1 - start < (stem ++ tail).length := by omega
    have hchar : before.getLast? = some ((stem ++ tail)[before.length - 1 - start]) := by
      have := congrArg (·[before.length - 1 - start]?) hs
      simp only [List.getElem?_drop] at this
      rw [List.getElem?_append_left hk, List.getElem?_eq_getElem hk] at this
      rw [List.getLast?_eq_getElem?, ← this, List.append_assoc,
        List.getElem?_append_left (by omega)]
      congr 1
      omega
    have hfalse := h.starts _ hchar
    rcases List.mem_append.mp (List.getElem_mem hk) with hmem | hmem
    · rw [hword _ hmem] at hfalse
      cases hfalse
    · rw [ht.word _ hmem] at hfalse
      cases hfalse
  obtain ⟨j, rfl⟩ := Nat.exists_eq_add_of_le hinside
  have hj : j < i := Nat.lt_of_add_lt_add_left hlt
  exact ⟨j, hj, (h.of_candidate hword (Nat.le_of_lt (Nat.lt_of_lt_of_le hj hi)) ha).1⟩

/-- Nothing stands around a run in a text of word characters. -/
theorem eq_nil_of_word (hword : ∀ c ∈ before ++ run ++ after, isWord c = true) :
    before = [] ∧ after = [] := by
  constructor
  · apply List.getLast?_eq_none_iff.mp
    rw [Option.eq_none_iff_forall_ne_some]
    intro c hc
    have hfalse := h.starts c hc
    rw [hword c (by simp [List.mem_of_getLast? hc])] at hfalse
    cases hfalse
  · apply List.head?_eq_none_iff.mp
    rw [Option.eq_none_iff_forall_ne_some]
    intro c hc
    have hfalse := h.ends c hc
    rw [hword c (by simp [List.mem_of_head? hc])] at hfalse
    cases hfalse

end IsRun

/-- A text ends with a run, which may be empty. -/
theorem exists_last_run (s : List Char) :
    ∃ before run, s = before ++ run ∧ (∀ c ∈ run, isWord c = true) ∧
      ∀ c, before.getLast? = some c → isWord c = false := by
  induction s using List.reverseRecOn with
  | nil => exact ⟨[], [], rfl, nofun, nofun⟩
  | append_singleton s d ih =>
    cases hd : isWord d with
    | true =>
      obtain ⟨before, run, rfl, hrun, hbefore⟩ := ih
      refine ⟨before, run ++ [d], List.append_assoc .., ?_, hbefore⟩
      intro c hc
      rcases List.mem_append.mp hc with hc | hc
      · exact hrun c hc
      · rwa [List.mem_singleton.mp hc]
    | false =>
      refine ⟨s ++ [d], [], (List.append_nil _).symm, nofun, ?_⟩
      intro c hc
      rw [List.getLast?_concat] at hc
      rwa [← Option.some.inj hc]

/-- Each candidate stands at a place of the stem in some run. -/
theorem IsCandidate.exists_isRun {text : List Char} {o : Occurrence}
    (hword : ∀ c ∈ stem, isWord c = true) (ho : IsCandidate stem r text o) :
    ∃ before run after i, text = before ++ run ++ after ∧ IsRun before run after ∧
      (r = .callSite → after.head? = some '(') ∧ StemAt stem run i ∧
      o = ⟨before.length + i, run.drop i⟩ := by
  have hstart := ho.start_lt_length
  obtain ⟨start, name⟩ := o
  obtain ⟨tail, after, hs, hname, ht⟩ := ho
  obtain rfl : name = stem ++ tail := hname
  -- the run starts where the word characters in front of the stem do
  obtain ⟨before, front, hfront, hfrontWord, hbefore⟩ := exists_last_run (text.take start)
  have hlength : before.length + front.length = start := by
    rw [← List.length_append, ← hfront, List.length_take]
    exact Nat.min_eq_left (Nat.le_of_lt hstart)
  have hdrop : (front ++ (stem ++ tail)).drop front.length = stem ++ tail := List.drop_left
  refine ⟨before, front ++ (stem ++ tail), after, front.length, ?_, ⟨?_, hbefore, ht.maximal⟩,
    ht.closed, ⟨tail, ht.ne_nil, hdrop⟩, ?_⟩
  · rw [← List.append_assoc, ← hfront, List.append_assoc, ← hs, List.take_append_drop]
  · intro c hc
    rw [List.mem_append, List.mem_append] at hc
    exact hc.elim (hfrontWord c) fun hc => hc.elim (hword c) (ht.word c)
  · rw [hdrop, hlength]

end

/-! ## What is taken -/

namespace IsSelection

variable {stem before run after : List Char} {r : Recognition} {i : Nat} {taken : List Occurrence}

/-- In each run the leftmost place of the stem is taken. -/
theorem leftmost_mem (hsel : IsSelection r (IsCandidate stem r (before ++ run ++ after)) taken)
    (hword : ∀ c ∈ stem, isWord c = true) (hrun : IsRun before run after)
    (hclosed : r = .callSite → after.head? = some '(') (hi : StemAt stem run i)
    (hleast : ∀ j < i, ¬ StemAt stem run j) : ⟨before.length + i, run.drop i⟩ ∈ taken := by
  apply Classical.byContradiction
  intro hno
  obtain ⟨a, ha, hlt, hstop⟩ := hsel.covers _ (hrun.candidate hclosed hi) hno
  obtain ⟨j, hj, hstem⟩ := hrun.stemAt_of_reaches hword (hsel.candidates a ha)
    (Nat.le_of_lt hi.lt_length) hlt hstop
  exact hleast j hj hstem

/-- Of each run only the leftmost place of the stem is taken. -/
theorem leftmost_of_mem (hsel : IsSelection r (IsCandidate stem r (before ++ run ++ after)) taken)
    (hword : ∀ c ∈ stem, isWord c = true) (hrun : IsRun before run after)
    (hclosed : r = .callSite → after.head? = some '(') (hi : StemAt stem run i)
    (hmem : ⟨before.length + i, run.drop i⟩ ∈ taken) : ∀ j < i, ¬ StemAt stem run j := by
  intro j hj hstem
  obtain ⟨k, hkj, hk, hleast⟩ := hstem.exists_leftmost
  have hfirst := hsel.leftmost_mem hword hrun hclosed hk hleast
  -- the leftmost one reaches to the end of the run, so the other starts inside it
  have hle := hsel.stop_le_start (fun o ho => ho.start_lt_stop) hfirst hmem
    (show before.length + k < before.length + i by omega)
  have hwidth := Matcher.length_le_width r (run.drop k)
  have hlt := hi.lt_length
  rw [List.length_drop] at hwidth
  simp only [Occurrence.stop] at hle
  omega

/-- No more than one place is taken in a run. -/
theorem eq_of_startsIn (hsel : IsSelection r (IsCandidate stem r (before ++ run ++ after)) taken)
    (hword : ∀ c ∈ stem, isWord c = true) (hrun : IsRun before run after) {o o' : Occurrence}
    (ho : o ∈ taken) (ho' : o' ∈ taken) (hin : o.StartsIn before run)
    (hin' : o'.StartsIn before run) : o = o' := by
  obtain ⟨start, name⟩ := o
  obtain ⟨start', name'⟩ := o'
  obtain ⟨i, hi, rfl⟩ := hin
  obtain ⟨i', hi', rfl⟩ := hin'
  obtain ⟨hstem, rfl, hclosed⟩ :=
    hrun.of_candidate hword (Nat.le_of_lt hi) (hsel.candidates _ ho)
  obtain ⟨hstem', rfl, -⟩ := hrun.of_candidate hword (Nat.le_of_lt hi') (hsel.candidates _ ho')
  have hleast := hsel.leftmost_of_mem hword hrun hclosed hstem ho
  have hleast' := hsel.leftmost_of_mem hword hrun hclosed hstem' ho'
  rcases Nat.lt_trichotomy i i' with hlt | rfl | hlt
  · exact absurd hstem (hleast' i hlt)
  · rfl
  · exact absurd hstem' (hleast i' hlt)

end IsSelection

namespace Matcher

section

variable (m : Matcher) (hword : ∀ c ∈ m.stem, isWord c = true)
include hword

/-- The symbols of a text are the names that its runs give. -/
theorem mem_extract_iff_gives (r : Recognition) (text x : String) :
    x ∈ m.extract r text ↔ ∃ before run after, text.toList = before ++ run ++ after ∧
      IsRun before run after ∧ (r = .callSite → after.head? = some '(') ∧
      Gives m.stem run x.toList := by
  have hsel := m.occurrences_isSelection r text
  rw [mem_extract]
  constructor
  · rintro ⟨o, ho, rfl⟩
    obtain ⟨before, run, after, i, htext, hrun, hclosed, hi, rfl⟩ :=
      (hsel.candidates o ho).exists_isRun hword
    rw [htext] at hsel
    refine ⟨before, run, after, htext, hrun, hclosed, i, hi, ?_, String.toList_ofList⟩
    exact hsel.leftmost_of_mem hword hrun hclosed hi ho
  · rintro ⟨before, run, after, htext, hrun, hclosed, i, hi, hleast, hx⟩
    rw [htext] at hsel
    refine ⟨_, hsel.leftmost_mem hword hrun hclosed hi hleast, ?_⟩
    rw [← hx, String.ofList_toList]

/-- A symbol by itself is one run. -/
theorem mem_extract_self_iff {x : String} {run : List Char} (hrun : ∀ c ∈ run, isWord c = true)
    (hx : Gives m.stem run x.toList) (y : String) : y ∈ m.extract .mention x ↔ y = x := by
  have hxword : ∀ c ∈ x.toList, isWord c = true := by
    obtain ⟨i, -, -, hdrop⟩ := hx
    intro c hc
    rw [hdrop] at hc
    exact hrun c (List.mem_of_mem_drop hc)
  rw [m.mem_extract_iff_gives hword]
  constructor
  · rintro ⟨before, run', after, htext, hrun', -, hy⟩
    rw [htext] at hxword
    obtain ⟨rfl, rfl⟩ := hrun'.eq_nil_of_word hxword
    rw [List.nil_append, List.append_nil] at htext
    rw [← htext, hx.self_iff] at hy
    exact String.toList_injective hy
  · rintro rfl
    exact ⟨[], y.toList, [], by simp, ⟨hxword, nofun, nofun⟩, nofun, hx.self_iff.mpr rfl⟩

/-- For a stem of word characters the symbols of a text are found run by run.  A run gives the part
from the leftmost place of the stem to its end; no more than that is taken in it, and a name by itself
gives that name only.  A call site is a run with a parenthesis behind it, so it is a mention too. -/
theorem extract_run_by_run (text : String) :
    (∀ r x, x ∈ m.extract r text ↔ ∃ before run after, text.toList = before ++ run ++ after ∧
      IsRun before run after ∧ (r = .callSite → after.head? = some '(') ∧
      Gives m.stem run x.toList) ∧
    (∀ r before run after, text.toList = before ++ run ++ after → IsRun before run after →
      ∀ o ∈ m.occurrences r text, ∀ o' ∈ m.occurrences r text,
        o.StartsIn before run → o'.StartsIn before run → o = o') ∧
    (∀ x ∈ m.extract .mention text, ∀ y, y ∈ m.extract .mention x ↔ y = x) ∧
    (∀ x ∈ m.extract .callSite text, x ∈ m.extract .mention text) := by
  have hiff := fun r x => m.mem_extract_iff_gives hword r text x
  refine ⟨hiff, ?_, ?_, ?_⟩
  · intro r before run after htext hrun o ho o' ho' hin hin'
    have hsel := m.occurrences_isSelection r text
    rw [htext] at hsel
    exact hsel.eq_of_startsIn hword hrun ho ho' hin hin'
  · intro x hx y
    obtain ⟨before, run, after, -, hrun, -, hgives⟩ := (hiff .mention x).mp hx
    exact m.mem_extract_self_iff hword hrun.word hgives y
  · intro x hx
    obtain ⟨before, run, after, htext, hrun, -, hgives⟩ := (hiff .callSite x).mp hx
    exact (hiff .mention x).mpr ⟨before, run, after, htext, hrun, nofun, hgives⟩

end

/-- A stem that overlaps itself, behind a letter and then twice in one run. -/
theorem extract_overlapping :
    (∀ c ∈ ['a', 'a'], isWord c = true) ∧
    "aaab" ∈ extract ⟨['a', 'a'], by decide⟩ .callSite "xaaab(aa_aa1" ∧
    ¬ "aa1" ∈ extract ⟨['a', 'a'], by decide⟩ .mention "aaab" := by
  have hword : ∀ c ∈ ['a', 'a'], isWord c = true :=
    List.all_eq_true.mp (by decide)
  obtain ⟨hiff, -, hself, hmention⟩ :=
    extract_run_by_run ⟨['a', 'a'], by decide⟩ hword "xaaab(aa_aa1"
  have hrun : IsRun [] "xaaab".toList "(aa_aa1".toList := by
    refine ⟨List.all_eq_true.mp (by decide), nofun, ?_⟩
    rintro c ⟨⟩
    decide
  have hgives : Gives ['a', 'a'] "xaaab".toList "aaab".toList := by
    refine ⟨1, ⟨['a', 'b'], by decide, rfl⟩, ?_, by decide⟩
    rintro j hj ⟨tail, -, hdrop⟩
    obtain rfl : j = 0 := Nat.lt_one_iff.mp hj
    cases hdrop
  have hcall : "aaab" ∈ extract ⟨['a', 'a'], by decide⟩ .callSite "xaaab(aa_aa1" :=
    (hiff .callSite _).mpr ⟨[], _, _, by decide, hrun, fun _ => rfl, hgives⟩
  refine ⟨hword, hcall, ?_⟩
  rw [hself _ (hmention _ hcall)]
  decide

end Matcher

end DocCoverage
