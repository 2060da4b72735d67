import DocCoverage.Symbol.Matcher
import Mathlib.Data.List.Sort

/-!
# Which occurrences are taken

A candidate is a place where a symbol stands in a text: the stem, a maximal run of word characters,
and for a call site the parenthesis that closes it.  Candidates may overlap.  A selection takes some
of them, in order and apart from each other, and leaves out only those that start inside one that it
took before.  There is exactly one, and the scan finds it.

    m.nameAt? r s = some name  ↔  Stands m.stem r s name                 (nameAt?_eq_some_iff)
    a candidate at pos: found pos s = o :: found (o.stop r) (s after o)   (found_of_some)
    IsSelection r (IsCandidate m.stem r text.toList) (m.occurrences r text)
                                                                 (occurrences_isSelection)
-/

namespace DocCoverage

/-- The word characters, one range after the other. -/
theorem isWord_iff {c : Char} : isWord c = true ↔
    ('A' ≤ c ∧ c ≤ 'Z') ∨ ('a' ≤ c ∧ c ≤ 'z') ∨ ('0' ≤ c ∧ c ≤ '9') ∨ c = '_' := by
  have hupper : c.isUpper = true ↔ 'A' ≤ c ∧ c ≤ 'Z' := decide_eq_true_iff
  have hlower : c.isLower = true ↔ 'a' ≤ c ∧ c ≤ 'z' := by
    show (decide ('a' ≤ c) && decide (c ≤ 'z')) = true ↔ _
    rw [Bool.and_eq_true, decide_eq_true_iff, decide_eq_true_iff]
  have hdigit : c.isDigit = true ↔ '0' ≤ c ∧ c ≤ '9' := by
    show (decide ('0' ≤ c) && decide (c ≤ '9')) = true ↔ _
    rw [Bool.and_eq_true, decide_eq_true_iff, decide_eq_true_iff]
  show (c.isUpper || c.isLower || c.isDigit || c == '_') = true ↔ _
  rw [Bool.or_eq_true, Bool.or_eq_true, Bool.or_eq_true, hupper, hlower, hdigit, beq_iff_eq,
    or_assoc, or_assoc]

/-! ## Candidates -/

/-- `tail` is the whole run of word characters before `after`, and a symbol may end there. -/
structure IsTail (r : Recognition) (tail after : List Char) : Prop where
  ne_nil : tail ≠ []
  word : ∀ c ∈ tail, isWord c = true
  maximal : ∀ c, after.head? = some c → isWord c = false
  closed : r = .callSite → after.head? = some '('

/-- A symbol called `name` stands at the front of `s`. -/
def Stands (stem : List Char) (r : Recognition) (s name : List Char) : Prop :=
  ∃ tail after, s = stem ++ tail ++ after ∧ name = stem ++ tail ∧ IsTail r tail after

/-- A symbol stands at the place of the occurrence and has its name. -/
def IsCandidate (stem : List Char) (r : Recognition) (text : List Char) (o : Occurrence) : Prop :=
  Stands stem r (text.drop o.start) o.name

/-- The end of the span of an occurrence: the offset after its last character. -/
def Occurrence.stop (r : Recognition) (o : Occurrence) : Nat :=
  o.start + Matcher.width r o.name

theorem Matcher.length_le_width (r : Recognition) (name : List Char) :
    name.length ≤ Matcher.width r name := by
  cases r
  · exact Nat.le_succ _
  · exact Nat.le_refl _

theorem takeWhile_eq_nil_of_head {l : List Char} (h : ∀ c, l.head? = some c → isWord c = false) :
    l.takeWhile isWord = [] := by
  cases l with
  | nil => rfl
  | cons c l => simp [h c rfl]

theorem dropWhile_eq_self_of_head {l : List Char}
    (h : ∀ c, l.head? = some c → isWord c = false) : l.dropWhile isWord = l := by
  cases l with
  | nil => rfl
  | cons c l => simp [h c rfl]

namespace IsTail

variable {r r' : Recognition} {tail tail' after after' : List Char}

theorem takeWhile_append (h : IsTail r tail after) : (tail ++ after).takeWhile isWord = tail := by
  rw [List.takeWhile_append_of_pos h.word, takeWhile_eq_nil_of_head h.maximal, List.append_nil]

theorem dropWhile_append (h : IsTail r tail after) : (tail ++ after).dropWhile isWord = after := by
  rw [List.dropWhile_append_of_pos h.word, dropWhile_eq_self_of_head h.maximal]

/-- A text has one run at its front. -/
theorem unique (h : IsTail r tail after) (h' : IsTail r' tail' after')
    (e : tail ++ after = tail' ++ after') : tail = tail' ∧ after = after' := by
  refine ⟨?_, ?_⟩
  · rw [← h.takeWhile_append, e, h'.takeWhile_append]
  · rw [← h.dropWhile_append, e, h'.dropWhile_append]

/-- What may end a call site may end a mention. -/
theorem mention (h : IsTail r tail after) : IsTail .mention tail after :=
  ⟨h.ne_nil, h.word, h.maximal, fun e => by cases e⟩

/-- The run at the front of a text that starts with a word character. -/
theorem of_head {c : Char} {s : List Char} (hs : s.head? = some c) (hc : isWord c = true)
    (closed : r = .callSite → (s.dropWhile isWord).head? = some '(') :
    IsTail r (s.takeWhile isWord) (s.dropWhile isWord) := by
  refine ⟨?_, ?_, ?_, closed⟩
  · intro hnil
    cases s with
    | nil => cases hs
    | cons d s =>
      obtain rfl : d = c := Option.some.inj hs
      simp [hc] at hnil
  · intro d hd
    exact List.all_eq_true.mp List.all_takeWhile d hd
  · intro d hd
    have := List.head?_dropWhile_not isWord s
    rw [hd] at this
    simpa using this

end IsTail

namespace Stands

variable {stem s s' name name' : List Char} {r r' : Recognition}

/-- A text has one name at its front, however it is recognised. -/
theorem name_unique (h : Stands stem r s name) (h' : Stands stem r' s name') : name = name' := by
  obtain ⟨tail, after, e, rfl, ht⟩ := h
  obtain ⟨tail', after', e', rfl, ht'⟩ := h'
  rw [e, List.append_assoc, List.append_assoc] at e'
  rw [(ht.unique ht' (List.append_cancel_left e')).1]

theorem length_pos (h : Stands stem r s name) : 0 < name.length := by
  obtain ⟨tail, after, -, rfl, ht⟩ := h
  have := List.length_pos_of_ne_nil ht.ne_nil
  rw [List.length_append]
  omega

/-- The span of a symbol does not reach beyond the text. -/
theorem width_le (h : Stands stem r s name) : Matcher.width r name ≤ s.length := by
  obtain ⟨tail, after, rfl, rfl, ht⟩ := h
  cases r with
  | mention => simp [Matcher.width]
  | callSite =>
    have : after ≠ [] := by
      rintro rfl
      simpa using ht.closed rfl
    have := List.length_pos_of_ne_nil this
    simp only [Matcher.width, List.length_append]
    omega

theorem mention (h : Stands stem r s name) : Stands stem .mention s name := by
  obtain ⟨tail, after, hs, hn, ht⟩ := h
  exact ⟨tail, after, hs, hn, ht.mention⟩

end Stands

namespace IsCandidate

variable {stem text : List Char} {r r' : Recognition} {a b : Occurrence}

theorem eq_of_start_eq (ha : IsCandidate stem r text a) (hb : IsCandidate stem r' text b)
    (h : a.start = b.start) : a = b := by
  cases a with
  | mk i n =>
    cases b with
    | mk j k =>
      obtain rfl : i = j := h
      obtain rfl : n = k := Stands.name_unique ha hb
      rfl

theorem start_lt_stop (ha : IsCandidate stem r text a) : a.start < a.stop r := by
  have h := Stands.length_pos ha
  have := Matcher.length_le_width r a.name
  simp only [Occurrence.stop]
  omega

theorem start_lt_length (ha : IsCandidate stem r text a) : a.start < text.length := by
  have h := Stands.length_pos ha
  have h1 := Stands.width_le ha
  have h2 := Matcher.length_le_width r a.name
  rw [List.length_drop] at h1
  omega

theorem mention (ha : IsCandidate stem r text a) : IsCandidate stem .mention text a :=
  Stands.mention ha

end IsCandidate

namespace Matcher

/-- The matcher accepts at the front of a text exactly what stands there. -/
theorem nameAt?_eq_some_iff (m : Matcher) (r : Recognition) (s name : List Char) :
    m.nameAt? r s = some name ↔ Stands m.stem r s name := by
  constructor
  · intro h
    unfold nameAt? at h
    split at h
    · next hp =>
      obtain ⟨t, rfl⟩ := List.isPrefixOf_iff_prefix.mp hp
      simp only [List.drop_left] at h
      split at h
      · next hc =>
        obtain rfl := Option.some.inj h
        rw [Bool.and_eq_true, Option.any_eq_true] at hc
        obtain ⟨⟨c, hc1, hc2⟩, hend⟩ := hc
        refine ⟨t.takeWhile isWord, t.dropWhile isWord, ?_, rfl, IsTail.of_head hc1 hc2 ?_⟩
        · rw [List.append_assoc, List.takeWhile_append_dropWhile]
        · rintro rfl
          simpa [mayEnd] using hend
      · cases h
    · cases h
  · rintro ⟨tail, after, rfl, rfl, ht⟩
    have hp : m.stem.isPrefixOf (m.stem ++ tail ++ after) = true := by simp
    have hhead : ((tail ++ after).head?.any isWord) = true := by
      obtain ⟨c, rest, rfl⟩ := List.exists_cons_of_ne_nil ht.ne_nil
      simp [ht.word c]
    have hend : mayEnd r after = true := by
      cases r with
      | mention => rfl
      | callSite => simp [mayEnd, ht.closed rfl]
    unfold nameAt?
    rw [if_pos hp, List.append_assoc, List.drop_left]
    simp only [ht.dropWhile_append, ht.takeWhile_append, hhead, hend, Bool.and_self, if_true]

theorem nameAt?_eq_none_iff (m : Matcher) (r : Recognition) (s : List Char) :
    m.nameAt? r s = none ↔ ∀ name, ¬ Stands m.stem r s name := by
  rw [Option.eq_none_iff_forall_ne_some]
  exact forall_congr' fun name => not_congr (nameAt?_eq_some_iff m r s name)

end Matcher

/-! ## Selections -/

/-- Some of the candidates, in order and apart: one that is left out starts strictly inside the span
of one that starts before it and is taken. -/
structure IsSelection (r : Recognition) (candidate : Occurrence → Prop)
    (taken : List Occurrence) : Prop where
  candidates : ∀ o ∈ taken, candidate o
  apart : taken.Pairwise fun a b => a.stop r ≤ b.start
  covers : ∀ o, candidate o → o ∉ taken → ∃ a ∈ taken, a.start < o.start ∧ o.start < a.stop r

namespace IsSelection

variable {r : Recognition} {p q : Occurrence → Prop} {l l' : List Occurrence} {a o : Occurrence}

theorem congr (h : IsSelection r p l) (hpq : ∀ o, p o ↔ q o) : IsSelection r q l := by
  obtain rfl : p = q := funext fun o => propext (hpq o)
  exact h

/-- A taken occurrence ends before the next one starts. -/
theorem stop_le_start (h : IsSelection r p l) (hpos : ∀ o, p o → o.start < o.stop r)
    (ha : a ∈ l) (ho : o ∈ l) (hlt : a.start < o.start) : a.stop r ≤ o.start := by
  obtain ⟨i, hi, rfl⟩ := List.getElem_of_mem ha
  obtain ⟨j, hj, rfl⟩ := List.getElem_of_mem ho
  have hp := List.pairwise_iff_getElem.mp h.apart
  rcases Nat.lt_trichotomy i j with hij | rfl | hij
  · exact hp i j hi hj hij
  · exact absurd hlt (Nat.lt_irrefl _)
  · have h1 := hp j i hj hi hij
    have h2 := hpos _ (h.candidates _ ho)
    omega

theorem pairwise_start_lt (h : IsSelection r p l) (hpos : ∀ o, p o → o.start < o.stop r) :
    l.Pairwise fun a b => a.start < b.start := by
  refine h.apart.imp_of_mem fun ha _ hab => ?_
  have := hpos _ (h.candidates _ ha)
  omega

/-- Two selections that agree on all that starts before `o` agree on `o`. -/
theorem mem_of_agree (h : IsSelection r p l) (h' : IsSelection r p l')
    (hpos : ∀ o, p o → o.start < o.stop r) (hagree : ∀ a, a.start < o.start → a ∈ l' → a ∈ l)
    (ho : o ∈ l) : o ∈ l' := by
  apply Classical.byContradiction
  intro hno
  obtain ⟨a, ha, hlt, hstop⟩ := h'.covers o (h.candidates o ho) hno
  have := h.stop_le_start hpos (hagree a hlt ha) ho hlt
  omega

/-- There is at most one selection. -/
theorem unique (h : IsSelection r p l) (h' : IsSelection r p l')
    (hpos : ∀ o, p o → o.start < o.stop r) : l = l' := by
  -- whether `o` is taken is settled by what is taken before it
  have hmem : ∀ n o, o.start = n → (o ∈ l ↔ o ∈ l') := by
    intro n
    induction n using Nat.strongRecOn with
    | ind n ih =>
      rintro o rfl
      exact ⟨h.mem_of_agree h' hpos fun a ha => (ih a.start ha a rfl).mpr,
        h'.mem_of_agree h hpos fun a ha => (ih a.start ha a rfl).mp⟩
  have : Std.Irrefl fun a b : Occurrence => a.start < b.start := ⟨fun _ => Nat.lt_irrefl _⟩
  have : Std.Antisymm fun a b : Occurrence => a.start < b.start :=
    ⟨fun _ _ hab hba => absurd (Nat.lt_trans hab hba) (Nat.lt_irrefl _)⟩
  exact (h.pairwise_start_lt hpos).eq_of_mem_iff (h'.pairwise_start_lt hpos)
    fun o => hmem o.start o rfl

theorem nil (h : ∀ o, ¬ p o) : IsSelection r p [] := by
  refine ⟨?_, List.Pairwise.nil, ?_⟩
  · intro o ho
    cases ho
  · intro o ho
    exact absurd ho (h o)

/-- The first candidate is taken, and then a selection of those that start after it has ended. -/
theorem cons (h : IsSelection r (fun o => a.stop r ≤ o.start ∧ p o) l) (ha : p a)
    (hpos : a.start < a.stop r) (huniq : ∀ o, p o → o.start = a.start → o = a) :
    IsSelection r (fun o => a.start ≤ o.start ∧ p o) (a :: l) := by
  refine ⟨?_, ?_, ?_⟩
  · intro o ho
    rcases List.mem_cons.mp ho with rfl | ho
    · exact ⟨Nat.le_refl _, ha⟩
    · obtain ⟨h1, h2⟩ := h.candidates o ho
      exact ⟨by omega, h2⟩
  · exact List.pairwise_cons.mpr ⟨fun o ho => (h.candidates o ho).1, h.apart⟩
  · rintro o ⟨hle, ho⟩ hno
    rw [List.mem_cons, not_or] at hno
    have hne : o.start ≠ a.start := fun e => hno.1 (huniq o ho e)
    rcases Nat.lt_or_ge o.start (a.stop r) with hlt | hge
    · exact ⟨a, List.mem_cons_self, by omega, hlt⟩
    · obtain ⟨b, hb, h1, h2⟩ := h.covers o ⟨hge, ho⟩ hno.2
      exact ⟨b, List.mem_cons_of_mem _ hb, h1, h2⟩

end IsSelection

/-! ## The scan -/

namespace Matcher

variable (m : Matcher) (r : Recognition)

/-- The occurrences in a text that starts at offset `pos`, from left to right. -/
def found (pos : Nat) (s : List Char) : List Occurrence :=
  (m.scan r 0 pos [] s).reverse

theorem found_nil (pos : Nat) : m.found r pos [] = [] := rfl

theorem found_of_none {c : Char} {s : List Char} (h : m.nameAt? r (c :: s) = none) (pos : Nat) :
    m.found r pos (c :: s) = m.found r (pos + 1) s := by
  simp [found, scan, h]

theorem found_of_some {s name : List Char} (h : m.nameAt? r s = some name) (pos : Nat) :
    m.found r pos s =
      ⟨pos, name⟩ :: m.found r (pos + width r name) (s.drop (width r name)) := by
  have hs := (m.nameAt?_eq_some_iff r s name).mp h
  have hle := hs.width_le
  have hpos : 0 < width r name := Nat.lt_of_lt_of_le hs.length_pos (length_le_width r name)
  cases s with
  | nil => exact absurd hle (by simpa using Nat.ne_of_gt hpos)
  | cons c s =>
    obtain ⟨w, hw⟩ : ∃ w, width r name = w + 1 := ⟨width r name - 1, by omega⟩
    rw [hw] at hle ⊢
    have hw' : w ≤ s.length := by simpa using hle
    simp only [found, scan, h, hw, Nat.add_sub_cancel, List.drop_succ_cons]
    rw [scan_eq_append, scan_skip m r w (pos + 1) [] hw', List.reverse_append]
    simp [Nat.add_comm, Nat.add_left_comm]

/-- Where no symbol stands, the scan goes on with the next character. -/
theorem found_drop_of_none {text : List Char} {pos : Nat} (hlt : pos < text.length)
    (h : m.nameAt? r (text.drop pos) = none) :
    m.found r pos (text.drop pos) = m.found r (pos + 1) (text.drop (pos + 1)) := by
  have hcons := List.drop_eq_getElem_cons hlt
  rw [hcons] at h
  rw [hcons, m.found_of_none r h]

/-- Where no symbol stands, no candidate starts. -/
theorem start_ne_of_none {text : List Char} {pos : Nat} {o : Occurrence}
    (h : m.nameAt? r (text.drop pos) = none) (ho : IsCandidate m.stem r text o) :
    o.start ≠ pos := by
  rintro rfl
  exact (m.nameAt?_eq_none_iff r _).mp h o.name ho

/-- From any offset on, the scan takes a selection of the candidates that start there or later. -/
theorem found_isSelection (text : List Char) (pos : Nat) (h : pos ≤ text.length) :
    IsSelection r (fun o => pos ≤ o.start ∧ IsCandidate m.stem r text o)
      (m.found r pos (text.drop pos)) := by
  induction hn : text.length - pos using Nat.strongRecOn generalizing pos with
  | ind n ih =>
    rcases Nat.eq_or_lt_of_le h with rfl | hlt
    · rw [List.drop_length, m.found_nil r]
      refine IsSelection.nil ?_
      rintro o ⟨hle, ho⟩
      have := ho.start_lt_length
      omega
    · cases hname : m.nameAt? r (text.drop pos) with
      | none =>
        rw [m.found_drop_of_none r hlt hname]
        refine (ih _ (by omega) (pos + 1) hlt rfl).congr fun o => ?_
        constructor
        · rintro ⟨hle, ho⟩
          exact ⟨by omega, ho⟩
        · rintro ⟨hle, ho⟩
          have := m.start_ne_of_none r hname ho
          exact ⟨by omega, ho⟩
      | some name =>
        -- the candidate at `pos` is taken, and the scan goes on behind its span
        have hcand : IsCandidate m.stem r text ⟨pos, name⟩ :=
          (m.nameAt?_eq_some_iff r _ name).mp hname
        have hstop : pos < pos + width r name := hcand.start_lt_stop
        have hwidth : width r name ≤ (text.drop pos).length := Stands.width_le hcand
        rw [List.length_drop] at hwidth
        rw [m.found_of_some r hname, List.drop_drop]
        refine IsSelection.cons (a := ⟨pos, name⟩) ?_ hcand hcand.start_lt_stop
          fun o ho e => ho.eq_of_start_eq hcand e
        exact ih _ (by omega) (pos + width r name) (by omega) rfl

/-- The occurrences in a text are the selection of its candidates. -/
theorem occurrences_isSelection (text : String) :
    IsSelection r (IsCandidate m.stem r text.toList) (m.occurrences r text) := by
  have := m.found_isSelection r text.toList 0 (Nat.zero_le _)
  exact this.congr fun o => ⟨fun h => h.2, fun h => ⟨Nat.zero_le _, h⟩⟩

/-- What is found is the set of the names of the one selection of candidates; each name is the stem
as it is, followed by word characters, and it is part of the text. -/
theorem extract_eq_unique_selection (text : String) :
    ∃ taken, IsSelection r (IsCandidate m.stem r text.toList) taken ∧
      (∀ other, IsSelection r (IsCandidate m.stem r text.toList) other → other = taken) ∧
      (∀ x, x ∈ m.extract r text ↔ ∃ o ∈ taken, String.ofList o.name = x) ∧
      ∀ x ∈ m.extract r text, ∃ tail, x.toList = m.stem ++ tail ∧ tail ≠ [] ∧
        (∀ c ∈ tail, ('A' ≤ c ∧ c ≤ 'Z') ∨ ('a' ≤ c ∧ c ≤ 'z') ∨ ('0' ≤ c ∧ c ≤ '9') ∨ c = '_') ∧
        x.toList <:+: text.toList := by
  have hsel := m.occurrences_isSelection r text
  refine ⟨m.occurrences r text, hsel, ?_, fun x => mem_extract, ?_⟩
  · intro other h
    exact h.unique hsel fun o ho => ho.start_lt_stop
  · intro x hx
    obtain ⟨o, ho, rfl⟩ := mem_extract.mp hx
    obtain ⟨tail, after, hs, hn, ht⟩ := hsel.candidates o ho
    rw [String.toList_ofList]
    refine ⟨tail, hn, ht.ne_nil, fun c hc => isWord_iff.mp (ht.word c hc), ?_⟩
    rw [hn]
    exact ⟨text.toList.take o.start, after, by
      rw [List.append_assoc, ← hs, List.take_append_drop]⟩

end Matcher

end DocCoverage
