import DocCoverage.Proofs.Symbol.Selection
import Mathlib.Data.List.TakeWhile
import Mathlib.Data.Nat.Find

/-!
# Call sites that no mention shows

Scanned for mentions, a text may give up a call site: the mention of an earlier symbol can reach into
its stem.  Whether that can happen is a matter of the stem alone.  It happens when the stem overlaps
itself so that a word character follows the first of two stems, and either the run there ends before
something other than a parenthesis, or the stem itself starts with the parenthesis that an earlier
call site uses up.  A stem of word characters is never tangled.

    a mention reaches into a call site  →  the stem overlaps itself         (overlaps_of_reaches)
    ¬ IsTangled stem  →  occurrences .callSite ⊆ occurrences .mention   (mem_mention_of_callSite)
    IsTangled stem  →  a text with a call site that is not mentioned
                       (exists_unmentioned_of_breaksOff, exists_unmentioned_of_head?)
-/

namespace DocCoverage

/-- Two stems that share `k` characters, a word character after the first. -/
def Overlaps (stem : List Char) (k : Nat) : Prop :=
  stem.take k <:+ stem ∧ (stem.drop k).head?.any isWord = true

/-- The run of word characters after the shared ones ends inside the stem, at no parenthesis. -/
def BreaksOff (stem : List Char) (k : Nat) : Prop :=
  ((stem.drop k).dropWhile isWord).head?.any (· != '(') = true

/-- A mention of a symbol with this stem can reach into a call site of another. -/
def IsTangled (stem : List Char) : Prop :=
  ∃ k < stem.length, Overlaps stem k ∧ (BreaksOff stem k ∨ stem.head? = some '(')

instance (stem : List Char) (k : Nat) : Decidable (Overlaps stem k) :=
  inferInstanceAs (Decidable (_ ∧ _))

instance (stem : List Char) (k : Nat) : Decidable (BreaksOff stem k) :=
  inferInstanceAs (Decidable (_ = _))

instance (stem : List Char) : Decidable (IsTangled stem) :=
  inferInstanceAs (Decidable (∃ k < stem.length, _))

theorem not_isTangled_of_word {stem : List Char} (h : ∀ c ∈ stem, isWord c = true) :
    ¬ IsTangled stem := by
  rintro ⟨k, -, -, hb | hp⟩
  · have hnil : (stem.drop k).dropWhile isWord = [] := by
      rw [List.dropWhile_eq_nil_iff]
      intro c hc
      exact h c (List.mem_of_mem_drop hc)
    simp [BreaksOff, hnil] at hb
  · have := h '(' (List.mem_of_head? hp)
    revert this
    decide

example : IsTangled ['r', 't', '.'] := by decide

/-! ## Where two symbols meet -/

/-- What two symbols share when the second starts inside the first: `v` is the part of the first
one's run that lies behind the shared characters. -/
theorem shared_of_drop_eq {stem run rest second : List Char} {d : Nat} (hrun : run ≠ [])
    (hlt : d < stem.length + run.length)
    (h : (stem ++ run ++ rest).drop d = stem ++ second) :
    ∃ v, v ≠ [] ∧ (∀ c ∈ v, c ∈ run) ∧ stem.take (stem.length - d) <:+ stem ∧
      v ++ rest = stem.drop (stem.length - d) ++ second := by
  rcases Nat.lt_or_ge stem.length d with hlong | hshort
  · -- the second symbol starts in the run of the first
    refine ⟨run.drop (d - stem.length), ?_, fun c hc => List.mem_of_mem_drop hc, ?_, ?_⟩
    · intro hnil
      have := List.drop_eq_nil_iff.mp hnil
      omega
    · rw [Nat.sub_eq_zero_of_le (Nat.le_of_lt hlong), List.take_zero]
      exact List.nil_suffix
    · rw [Nat.sub_eq_zero_of_le (Nat.le_of_lt hlong), List.drop_zero, ← h, List.append_assoc,
        List.drop_append, List.drop_eq_nil_of_le (Nat.le_of_lt hlong), List.nil_append,
        List.drop_append_of_le_length (by omega)]
  · -- the second symbol starts in the stem of the first
    have hk : (stem.drop d).length = stem.length - d := List.length_drop
    rw [List.append_assoc, List.drop_append_of_le_length hshort] at h
    have htake : stem.drop d = stem.take (stem.length - d) := by
      have := congrArg (List.take (stem.length - d)) h
      rwa [List.take_left' hk, List.take_append_of_le_length (Nat.sub_le _ _)] at this
    have hdrop : run ++ rest = stem.drop (stem.length - d) ++ second := by
      have := congrArg (List.drop (stem.length - d)) h
      rwa [List.drop_left' hk, List.drop_append_of_le_length (Nat.sub_le _ _)] at this
    refine ⟨run, hrun, fun c hc => hc, ?_, hdrop⟩
    rw [← htake]
    exact List.drop_suffix d stem

section

variable {stem text : List Char} {q p : Occurrence}

/-- A call site takes up one character more than a mention. -/
theorem Occurrence.stop_callSite (o : Occurrence) : o.stop .callSite = o.stop .mention + 1 := rfl

/-- Behind the name of a call site stands a parenthesis. -/
theorem IsCandidate.head?_drop_stop (hp : IsCandidate stem .callSite text p) :
    (text.drop (p.stop .mention)).head? = some '(' := by
  obtain ⟨tail, after, hs, hn, ht⟩ := hp
  have hstop : p.stop .mention = p.start + (stem ++ tail).length := by
    rw [← hn]
    rfl
  rw [hstop, ← List.drop_drop, hs, List.drop_left]
  exact ht.closed rfl

theorem IsCandidate.head?_drop_start {r : Recognition} (hstem : stem ≠ [])
    (hp : IsCandidate stem r text p) : (text.drop p.start).head? = stem.head? := by
  obtain ⟨tail, after, hs, -, -⟩ := hp
  rw [hs, List.append_assoc, List.head?_append_of_ne_nil _ hstem]

/-- The run behind the shared characters ends at a parenthesis, or breaks off inside the stem. -/
theorem head?_or_breaksOff {tail after rest : List Char} {k : Nat}
    (ht : IsTail .callSite tail after)
    (h : (stem.drop k ++ (tail ++ after)).dropWhile isWord = rest) :
    rest.head? = some '(' ∨ BreaksOff stem k := by
  rw [List.dropWhile_append] at h
  split at h
  · left
    rw [← h, ht.dropWhile_append]
    exact ht.closed rfl
  · next hne =>
    obtain ⟨z, zs, hz⟩ : ∃ z zs, (stem.drop k).dropWhile isWord = z :: zs := by
      refine List.exists_cons_of_ne_nil fun hnil => hne ?_
      rw [hnil]
      rfl
    rw [hz, List.cons_append] at h
    by_cases hparen : z = '('
    · left
      rw [← h, hparen]
      rfl
    · right
      simp [BreaksOff, hz, hparen]

/-- Where a mention reaches into a call site, the stem overlaps itself, and the mention is a call
site as well unless its run ends early. -/
theorem IsCandidate.overlaps_of_reaches (hstem : stem ≠ [])
    (hq : IsCandidate stem .mention text q) (hp : IsCandidate stem .callSite text p)
    (hlt : q.start < p.start) (hstop : p.start < q.stop .mention) :
    Overlaps stem (stem.length - (p.start - q.start)) ∧
      (IsCandidate stem .callSite text q ∨
        BreaksOff stem (stem.length - (p.start - q.start))) := by
  obtain ⟨run, rest, hqs, hqn, hqt⟩ := hq
  obtain ⟨tail, after, hps, hpn, hpt⟩ := hp
  have hpos : 0 < stem.length := List.length_pos_of_ne_nil hstem
  have hdrop : (stem ++ run ++ rest).drop (p.start - q.start) = stem ++ (tail ++ after) := by
    rw [← hqs, List.drop_drop, Nat.add_sub_cancel' (Nat.le_of_lt hlt), hps, List.append_assoc]
  have hreach : p.start - q.start < stem.length + run.length := by
    have : q.stop .mention = q.start + (stem ++ run).length := by
      rw [← hqn]
      rfl
    rw [List.length_append] at this
    omega
  obtain ⟨v, hv, hvrun, hsuffix, he⟩ := shared_of_drop_eq hqt.ne_nil hreach hdrop
  have hk : stem.length - (p.start - q.start) < stem.length := by omega
  generalize stem.length - (p.start - q.start) = k at hk hsuffix he ⊢
  have hword : ∀ c ∈ v, isWord c = true := fun c hc => hqt.word c (hvrun c hc)
  -- the run of the first symbol ends where the run behind the shared characters ends
  have hrest : (stem.drop k ++ (tail ++ after)).dropWhile isWord = rest := by
    rw [← he, List.dropWhile_append_of_pos hword, dropWhile_eq_self_of_head hqt.maximal]
  refine ⟨⟨hsuffix, ?_⟩, ?_⟩
  · obtain ⟨c, v, rfl⟩ := List.exists_cons_of_ne_nil hv
    have hne : stem.drop k ≠ [] := by
      intro hnil
      have := List.drop_eq_nil_iff.mp hnil
      omega
    have hhead := congrArg List.head? he
    rw [List.head?_append_of_ne_nil _ hne] at hhead
    rw [← hhead]
    simp [hword c]
  · rcases head?_or_breaksOff hpt hrest with hhead | hbreak
    · exact .inl ⟨run, rest, hqs, hqn, hqt.ne_nil, hqt.word, hqt.maximal, fun _ => hhead⟩
    · exact .inr hbreak

end

/-! ## Without a tangle -/

namespace Matcher

variable (m : Matcher)

/-- Every call site that is taken is taken as a mention as well, unless the stem is tangled. -/
theorem mem_mention_of_callSite (h : ¬ IsTangled m.stem) (text : String) (o : Occurrence)
    (ho : o ∈ m.occurrences .callSite text) : o ∈ m.occurrences .mention text := by
  have hcall := m.occurrences_isSelection .callSite text
  have hment := m.occurrences_isSelection .mention text
  have hpos : ∀ {r : Recognition} (o : Occurrence),
      IsCandidate m.stem r text.toList o → o.start < o.stop r := fun o ho => ho.start_lt_stop
  induction hn : o.start using Nat.strongRecOn generalizing o with
  | ind n ih =>
    subst hn
    have hcand := hcall.candidates o ho
    apply Classical.byContradiction
    intro hno
    -- the mention that reaches into `o`
    obtain ⟨q, hq, hlt, hstop⟩ := hment.covers o hcand.mention hno
    have hqc := hment.candidates q hq
    obtain ⟨hoverlap, hbreak⟩ := hqc.overlaps_of_reaches m.stem_ne_nil hcand hlt hstop
    have hstem : 0 < m.stem.length := List.length_pos_of_ne_nil m.stem_ne_nil
    refine h ⟨m.stem.length - (o.start - q.start), by omega, hoverlap, ?_⟩
    rcases hbreak with hqcall | hbreak
    · right
      -- `q` is a call site too, so an earlier one has used up its first character
      have hqno : q ∉ m.occurrences .callSite text := by
        intro hqmem
        have := hcall.stop_le_start hpos hqmem ho hlt
        rw [Occurrence.stop_callSite] at this
        omega
      obtain ⟨a, ha, halt, hastop⟩ := hcall.covers q hqcall hqno
      have hament := ih a.start (by omega) a ha rfl
      have := hment.stop_le_start hpos hament hq halt
      rw [Occurrence.stop_callSite] at hastop
      have hstart : a.stop .mention = q.start := by omega
      rw [← hqc.head?_drop_start m.stem_ne_nil, ← hstart]
      exact (hcall.candidates a ha).head?_drop_stop
    · left
      exact hbreak

end Matcher

/-! ## A text for each tangle -/

theorem Overlaps.lt_length {stem : List Char} {k : Nat} (h : Overlaps stem k) :
    k < stem.length := by
  apply Classical.byContradiction
  intro hk
  have := h.2
  rw [List.drop_eq_nil_of_le (Nat.le_of_not_lt hk)] at this
  cases this

/-- Of some overlaps one is the closest. -/
theorem exists_closest {stem : List Char} {P : Nat → Prop} [DecidablePred P]
    (hP : ∀ k, P k → Overlaps stem k) (h : ∃ k, P k) : ∃ k, P k ∧ ∀ j, P j → j ≤ k := by
  obtain ⟨k, hk⟩ := h
  refine ⟨Nat.findGreatest P stem.length, ?_, ?_⟩
  · exact Nat.findGreatest_spec (Nat.le_of_lt (hP k hk).lt_length) hk
  · intro j hj
    exact Nat.le_findGreatest (Nat.le_of_lt (hP j hj).lt_length) hj

/-- A stem and what the next one adds to it. -/
theorem Overlaps.append_drop {stem : List Char} {k : Nat} (h : Overlaps stem k) :
    ∃ before, before.length = stem.length - k ∧ stem ++ stem.drop k = before ++ stem := by
  have hk := h.lt_length
  obtain ⟨before, hb⟩ := h.1
  refine ⟨before, ?_, ?_⟩
  · have := congrArg List.length hb
    simp only [List.length_append, List.length_take] at this
    omega
  · calc stem ++ stem.drop k = (before ++ stem.take k) ++ stem.drop k := by rw [hb]
      _ = before ++ stem := by rw [List.append_assoc, List.take_append_drop]

/-- A run of word characters that is longer than the stem. -/
def longRun (stem : List Char) : List Char :=
  List.replicate (stem.length + 1) 'x'

/-- A mention behind `lead` that reaches into the call site after it. -/
def trap (lead stem : List Char) (k : Nat) : List Char :=
  lead ++ (stem ++ (stem.drop k ++ (longRun stem ++ ['('])))

section

variable {lead stem : List Char} {k : Nat}

theorem isTail_longRun (r : Recognition) (stem : List Char) : IsTail r (longRun stem) ['('] := by
  refine ⟨List.cons_ne_nil _ _, ?_, ?_, fun _ => rfl⟩
  · intro c hc
    rw [List.eq_of_mem_replicate hc]
    decide
  · intro c hc
    obtain rfl := Option.some.inj hc
    decide

/-- The run of the mention, which covers the shared characters. -/
def trapRun (stem : List Char) (k : Nat) : List Char :=
  (stem.drop k ++ (longRun stem ++ ['('])).takeWhile isWord

theorem length_trapRun_ne (h : Overlaps stem k) :
    (trapRun stem k).length ≠ (longRun stem).length := by
  have hk := h.lt_length
  have hlong : (longRun stem).length = stem.length + 1 := List.length_replicate
  have hdrop : (stem.drop k).length = stem.length - k := List.length_drop
  unfold trapRun
  rw [List.takeWhile_append]
  split
  · rw [(isTail_longRun .mention stem).takeWhile_append, List.length_append]
    omega
  · have := (List.takeWhile_prefix (l := stem.drop k) isWord).length_le
    omega

theorem isCandidate_append (stem before : List Char) {r : Recognition} {tail after : List Char}
    (h : IsTail r tail after) :
    IsCandidate stem r (before ++ (stem ++ (tail ++ after))) ⟨before.length, stem ++ tail⟩ := by
  refine ⟨tail, after, ?_, rfl, h⟩
  rw [List.drop_left, List.append_assoc]

theorem isTail_trapRun (h : Overlaps stem k) : IsTail .mention (trapRun stem k)
    ((stem.drop k ++ (longRun stem ++ ['('])).dropWhile isWord) := by
  obtain ⟨c, hc, hw⟩ := (Option.any_eq_true _ _).mp h.2
  have hhead : (stem.drop k ++ (longRun stem ++ ['('])).head? = some c := by
    rw [List.head?_append, hc]
    rfl
  exact IsTail.of_head hhead hw fun e => by cases e

theorem isCandidate_trap_mention (lead : List Char) (h : Overlaps stem k) :
    IsCandidate stem .mention (trap lead stem k) ⟨lead.length, stem ++ trapRun stem k⟩ := by
  have := isCandidate_append stem lead (isTail_trapRun h)
  unfold trapRun at this
  rwa [List.takeWhile_append_dropWhile] at this

theorem isCandidate_trap_callSite (lead : List Char) (h : Overlaps stem k) :
    IsCandidate stem .callSite (trap lead stem k)
      ⟨lead.length + (stem.length - k), stem ++ longRun stem⟩ := by
  obtain ⟨before, hlen, he⟩ := h.append_drop
  have htext : trap lead stem k = (lead ++ before) ++ (stem ++ (longRun stem ++ ['('])) := by
    unfold trap
    rw [List.append_assoc, ← List.append_assoc stem, he]
    simp only [List.append_assoc]
  have := isCandidate_append stem (lead ++ before) (isTail_longRun .callSite stem)
  rwa [← htext, List.length_append, hlen] at this

/-- The name of the call site fits nowhere behind it. -/
theorem start_le_of_name_eq {r : Recognition} {o : Occurrence}
    (ho : IsCandidate stem r (trap lead stem k) o) (hn : o.name = stem ++ longRun stem) :
    o.start ≤ lead.length + (stem.length - k) := by
  obtain ⟨tail, after, hs, hname, ht⟩ := ho
  obtain rfl : tail = longRun stem := List.append_cancel_left (hname.symm.trans hn)
  -- the parenthesis at the end of the text is no part of the name
  have hafter : after ≠ [] := by
    rintro rfl
    have hlast : (trap lead stem k).getLast? = some '(' := by
      simp [trap]
    have : ((trap lead stem k).drop o.start).getLast? = some 'x' := by
      rw [hs]
      simp [longRun, List.getLast?_replicate]
    rw [List.getLast?_drop] at this
    split at this
    · cases this
    · rw [hlast] at this
      revert this
      decide
  have hpos := List.length_pos_of_ne_nil hafter
  have hlen := congrArg List.length hs
  simp only [trap, List.length_drop, List.length_append, List.length_cons, List.length_nil] at hlen
  omega

/-- A call site between the two would be a closer overlap. -/
theorem overlaps_of_between {a : Occurrence} (h : Overlaps stem k)
    (ha : IsCandidate stem .callSite (trap lead stem k) a) (hlt : lead.length < a.start)
    (hgt : a.start < lead.length + (stem.length - k)) :
    ∃ j, k < j ∧ Overlaps stem j ∧
      (IsCandidate stem .callSite (trap lead stem k) ⟨lead.length, stem ++ trapRun stem k⟩ ∨
        BreaksOff stem j) := by
  have hk := h.lt_length
  have hstem : stem ≠ [] := List.ne_nil_of_length_pos (by omega)
  have hq := isCandidate_trap_mention lead h
  have hstop : a.start < Occurrence.stop .mention ⟨lead.length, stem ++ trapRun stem k⟩ := by
    simp only [Occurrence.stop, Matcher.width, List.length_append]
    omega
  refine ⟨stem.length - (a.start - lead.length), by omega, ?_⟩
  exact hq.overlaps_of_reaches hstem ha hlt hstop

/-- A call site in front of a trap, which uses up the parenthesis that the next stem starts with. -/
def front (stem : List Char) : Occurrence :=
  ⟨0, stem ++ ['x']⟩

theorem length_name_front (stem : List Char) : (front stem).name.length = stem.length + 1 :=
  List.length_append

theorem isCandidate_front (hp : stem.head? = some '(') (r : Recognition) :
    IsCandidate stem r (trap (front stem).name stem k) (front stem) := by
  have hhead : (stem ++ (stem.drop k ++ (longRun stem ++ ['(']))).head? = some '(' := by
    rw [List.head?_append, hp]
    rfl
  have ht : IsTail r ['x'] (stem ++ (stem.drop k ++ (longRun stem ++ ['(']))) := by
    refine ⟨List.cons_ne_nil _ _, List.forall_mem_singleton.mpr (by decide), ?_, fun _ => hhead⟩
    intro c hc
    rw [hhead] at hc
    obtain rfl := Option.some.inj hc
    decide
  have := isCandidate_append stem [] ht
  simpa [trap, front] using this

/-- A mention whose run breaks off is no call site. -/
theorem not_callSite_of_breaksOff (hb : BreaksOff stem k) :
    ¬ IsCandidate stem .callSite (trap lead stem k) ⟨lead.length, stem ++ trapRun stem k⟩ := by
  rintro ⟨tail, after, hs, -, ht⟩
  obtain ⟨z, hz, hne⟩ := (Option.any_eq_true _ _).mp hb
  have he : tail ++ after = stem.drop k ++ (longRun stem ++ ['(']) := by
    unfold trap at hs
    rw [List.drop_left, List.append_assoc] at hs
    exact (List.append_cancel_left hs).symm
  have hafter := ht.dropWhile_append
  obtain ⟨zs, hzs⟩ : ∃ zs, (stem.drop k).dropWhile isWord = z :: zs :=
    List.head?_eq_some_iff.mp hz
  rw [he, List.dropWhile_append, hzs, List.isEmpty_cons, if_neg (by simp)] at hafter
  have hclosed := ht.closed rfl
  rw [← hafter] at hclosed
  obtain rfl := Option.some.inj hclosed
  simp at hne

end

namespace Matcher

variable (m : Matcher) {k : Nat}

/-- A candidate at the start of the text is always taken. -/
theorem mem_of_start_eq_zero {r : Recognition} {text : String} {o : Occurrence}
    (ho : IsCandidate m.stem r text.toList o) (hzero : o.start = 0) :
    o ∈ m.occurrences r text := by
  apply Classical.byContradiction
  intro hno
  obtain ⟨a, -, hlt, -⟩ := (m.occurrences_isSelection r text).covers o ho hno
  omega

/-- The call site of a trap is found unless it is covered. -/
theorem mem_extract_trap (lead : List Char) (h : Overlaps m.stem k)
    (hfree : ∀ a ∈ m.occurrences .callSite (String.ofList (trap lead m.stem k)),
      a.start < lead.length + (m.stem.length - k) →
        a.stop .callSite ≤ lead.length + (m.stem.length - k)) :
    String.ofList (m.stem ++ longRun m.stem) ∈
      m.extract .callSite (String.ofList (trap lead m.stem k)) := by
  have hsel := m.occurrences_isSelection .callSite (String.ofList (trap lead m.stem k))
  rw [String.toList_ofList] at hsel
  refine mem_extract.mpr ⟨⟨lead.length + (m.stem.length - k), m.stem ++ longRun m.stem⟩, ?_, rfl⟩
  apply Classical.byContradiction
  intro hno
  obtain ⟨a, ha, hlt, hstop⟩ := hsel.covers _ (isCandidate_trap_callSite lead h) hno
  exact absurd hstop (Nat.not_lt.mpr (hfree a ha hlt))

/-- The call site of a trap is not mentioned: the mention behind `lead` covers it, and no other
occurrence has its name. -/
theorem not_mem_extract_trap (lead : List Char) (h : Overlaps m.stem k)
    (hment : ⟨lead.length, m.stem ++ trapRun m.stem k⟩ ∈
      m.occurrences .mention (String.ofList (trap lead m.stem k)))
    (hlead : ∀ o ∈ m.occurrences .mention (String.ofList (trap lead m.stem k)),
      o.start < lead.length → o.name ≠ m.stem ++ longRun m.stem) :
    String.ofList (m.stem ++ longRun m.stem) ∉
      m.extract .mention (String.ofList (trap lead m.stem k)) := by
  have hsel := m.occurrences_isSelection .mention (String.ofList (trap lead m.stem k))
  rw [String.toList_ofList] at hsel
  have hq := isCandidate_trap_mention lead h
  intro hmem
  obtain ⟨o, ho, he⟩ := mem_extract.mp hmem
  have hname : o.name = m.stem ++ longRun m.stem := String.ofList_injective he
  have hcand := hsel.candidates o ho
  rcases Nat.lt_trichotomy o.start lead.length with hlt | heq | hgt
  · exact hlead o ho hlt hname
  · obtain rfl := hcand.eq_of_start_eq hq heq
    have := List.append_cancel_left hname
    exact length_trapRun_ne h (by rw [this])
  · have hle := hsel.stop_le_start (fun o ho => ho.start_lt_stop) hment ho hgt
    have hbound := start_le_of_name_eq hcand hname
    have hrun := List.length_pos_of_ne_nil (isTail_trapRun h).ne_nil
    simp only [Occurrence.stop, width, List.length_append] at hle
    omega

/-- A stem whose run breaks off is trapped at the front of a text. -/
theorem exists_unmentioned_of_breaksOff (h : ∃ k, Overlaps m.stem k ∧ BreaksOff m.stem k) :
    ∃ text x, x ∈ m.extract .callSite text ∧ x ∉ m.extract .mention text := by
  -- the closest overlap leaves no room for a call site in between
  obtain ⟨k, ⟨ho, hb⟩, hmax⟩ := exists_closest (fun _ hk => hk.1) h
  have hq := isCandidate_trap_mention [] ho
  have hcall := m.occurrences_isSelection .callSite (String.ofList (trap [] m.stem k))
  rw [String.toList_ofList] at hcall
  refine ⟨_, _, m.mem_extract_trap [] ho ?_, m.not_mem_extract_trap [] ho ?_ ?_⟩
  · intro a ha hlt
    exfalso
    have hcand := hcall.candidates a ha
    rcases Nat.eq_zero_or_pos a.start with hzero | hpos
    · obtain rfl := hcand.eq_of_start_eq hq hzero
      exact not_callSite_of_breaksOff hb hcand
    · obtain ⟨j, hkj, hoj, hcj | hbj⟩ := overlaps_of_between ho hcand hpos hlt
      · exact not_callSite_of_breaksOff hb hcj
      · have := hmax j ⟨hoj, hbj⟩
        omega
  · exact m.mem_of_start_eq_zero (by rwa [String.toList_ofList]) rfl
  · intro o _ hlt
    exact absurd hlt (Nat.not_lt_zero _)

/-- What is taken behind the call site in front starts where that one ends. -/
theorem eq_front_or_stop_le {r : Recognition} {o : Occurrence} (hp : m.stem.head? = some '(')
    (ho : o ∈ m.occurrences r (String.ofList (trap (front m.stem).name m.stem k))) :
    o = front m.stem ∨ (front m.stem).stop r ≤ o.start := by
  have hsel := m.occurrences_isSelection r (String.ofList (trap (front m.stem).name m.stem k))
  rw [String.toList_ofList] at hsel
  have hfront := isCandidate_front (k := k) hp r
  rcases Nat.eq_zero_or_pos o.start with hzero | hpos
  · exact .inl ((hsel.candidates o ho).eq_of_start_eq hfront hzero)
  · have hmem : front m.stem ∈
        m.occurrences r (String.ofList (trap (front m.stem).name m.stem k)) :=
      m.mem_of_start_eq_zero (by rwa [String.toList_ofList]) rfl
    exact .inr (hsel.stop_le_start (fun o ho => ho.start_lt_stop) hmem ho hpos)

/-- A stem that starts with a parenthesis is trapped behind a call site that uses it up. -/
theorem exists_unmentioned_of_head? (hp : m.stem.head? = some '(') (h : ∃ k, Overlaps m.stem k) :
    ∃ text x, x ∈ m.extract .callSite text ∧ x ∉ m.extract .mention text := by
  obtain ⟨k, ho, hmax⟩ := exists_closest (fun _ hk => hk) h
  have hk := ho.lt_length
  have hlead := length_name_front m.stem
  have hstop : (front m.stem).stop .mention = m.stem.length + 1 := by
    rw [← hlead]
    exact Nat.zero_add _
  have hcall := m.occurrences_isSelection .callSite
    (String.ofList (trap (front m.stem).name m.stem k))
  have hment := m.occurrences_isSelection .mention
    (String.ofList (trap (front m.stem).name m.stem k))
  rw [String.toList_ofList] at hcall hment
  refine ⟨_, _, m.mem_extract_trap (front m.stem).name ho ?_,
    m.not_mem_extract_trap (front m.stem).name ho ?_ ?_⟩
  · intro a ha hlt
    rcases m.eq_front_or_stop_le hp ha with rfl | hle
    · rw [Occurrence.stop_callSite]
      omega
    · exfalso
      rw [Occurrence.stop_callSite] at hle
      obtain ⟨j, hkj, hoj, -⟩ :=
        overlaps_of_between ho (hcall.candidates a ha) (by omega) (by omega)
      have := hmax j hoj
      omega
  · -- the mention behind the front one starts right where that one ends
    apply Classical.byContradiction
    intro hno
    obtain ⟨a, ha, hlt, hcover⟩ :=
      hment.covers _ (isCandidate_trap_mention (front m.stem).name ho) hno
    dsimp only at hlt hcover
    rcases m.eq_front_or_stop_le hp ha with rfl | hle
    · omega
    · omega
  · intro o hom hlt hname
    rcases m.eq_front_or_stop_le hp hom with rfl | hle
    · have := congrArg List.length hname
      rw [hlead, List.length_append, longRun, List.length_replicate] at this
      have := List.length_pos_of_ne_nil m.stem_ne_nil
      omega
    · omega

/-- Call sites are mentions in every text exactly when the stem is not tangled. -/
theorem callSite_subset_mention_iff :
    (∀ text x, x ∈ m.extract .callSite text → x ∈ m.extract .mention text) ↔
      ¬ IsTangled m.stem := by
  constructor
  · rintro hsub ⟨k, -, ho, hb | hp⟩
    · obtain ⟨text, x, hx, hno⟩ := m.exists_unmentioned_of_breaksOff ⟨k, ho, hb⟩
      exact hno (hsub text x hx)
    · obtain ⟨text, x, hx, hno⟩ := m.exists_unmentioned_of_head? hp ⟨k, ho⟩
      exact hno (hsub text x hx)
  · intro h text x hx
    obtain ⟨o, ho, rfl⟩ := mem_extract.mp hx
    exact mem_extract.mpr ⟨o, m.mem_mention_of_callSite h text o ho, rfl⟩

end Matcher

end DocCoverage
