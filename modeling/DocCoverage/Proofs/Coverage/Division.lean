import DocCoverage.Proofs.Coverage.Texts
import DocCoverage.Proofs.Symbol.Separator

/-!
# Sources in two parts

A text that is cut at a separator shows what its two parts show.  A line feed separates unless the
stem holds one, so a source may be cut in two between two lines, and a check does not notice.

    x ∈ extract (a ++ c ++ b)  ↔  x ∈ extract a ∨ x ∈ extract b        for a separator c
                                                                       (mem_extract_append_iff)
    a source says something, if it is in either part when it is in the whole   (exists_text_iff)
    sources in two parts: the same symbols, the same skipped sources  (symbols_eq, skipped_eq)
-/

namespace DocCoverage

theorem Matcher.mem_extract_append_iff (m : Matcher) (r : Recognition) {c : Char}
    (hc : IsSeparator m.stem c) (a b : String) {x : String} :
    x ∈ m.extract r (a ++ String.singleton c ++ b) ↔ x ∈ m.extract r a ∨ x ∈ m.extract r b := by
  have htext : (a ++ String.singleton c ++ b).toList = a.toList ++ c :: b.toList := by
    rw [String.toList_append, String.toList_append, String.toList_singleton, List.append_assoc]
    rfl
  rw [m.extract_eq_names, m.extract_eq_names, m.extract_eq_names, htext, m.names_append r hc,
    SymbolSet.mem_ofList, SymbolSet.mem_ofList, SymbolSet.mem_ofList, List.map_append,
    List.mem_append]

/-- A parenthesis is no separator: the part in front of it is a call site only with it. -/
example : (Matcher.extract ⟨['f', '_'], by decide⟩ .callSite "f_a(b").toList = ["f_a"] ∧
    (Matcher.extract ⟨['f', '_'], by decide⟩ .callSite "f_a").toList = [] := by
  decide +kernel

/-- A line feed separates all symbols whose stem holds none. -/
theorem isSeparator_newline {stem : List Char} (h : '\n' ∉ stem) : IsSeparator stem '\n' :=
  ⟨h, by decide, by decide⟩

/-- The second list has two sources for each of some readable sources of the first: their texts are
what stands in front of a line feed and what stands behind it. -/
inductive Source.Divided (t : FileTree) : List Source → List Source → Prop
  | nil : Divided t [] []
  | keep (s : Source) {l l' : List Source} (h : Divided t l l') : Divided t (s :: l) (s :: l')
  | cut {s front back : Source} {a b : String} {l l' : List Source}
      (hs : s.content t = .ok (a ++ "\n" ++ b)) (hfront : front.content t = .ok a)
      (hback : back.content t = .ok b) (h : Divided t l l') :
      Divided t (s :: l) (front :: back :: l')

namespace Source.Divided

variable {t : FileTree} {l l' : List Source}

theorem refl (t : FileTree) (l : List Source) : Divided t l l := by
  induction l with
  | nil => exact .nil
  | cons s l ih => exact .keep s ih

/-- One source of a list in two parts. -/
theorem cut_one (before after : List Source) {s front back : Source} {a b : String}
    (hs : s.content t = .ok (a ++ "\n" ++ b)) (hfront : front.content t = .ok a)
    (hback : back.content t = .ok b) :
    Divided t (before ++ s :: after) (before ++ front :: back :: after) := by
  induction before with
  | nil => exact .cut hs hfront hback (refl t after)
  | cons s' before ih => exact .keep s' ih

/-- What a text says exactly when one of its parts does is said by the same lists. -/
theorem exists_text_iff (h : Divided t l l') {p : String → Prop}
    (hp : ∀ a b, p (a ++ "\n" ++ b) ↔ p a ∨ p b) :
    (∃ s ∈ l, ∃ text, s.content t = .ok text ∧ p text) ↔
      ∃ s ∈ l', ∃ text, s.content t = .ok text ∧ p text := by
  induction h with
  | nil => exact Iff.rfl
  | keep s _ ih => rw [List.exists_mem_cons_iff, List.exists_mem_cons_iff, ih]
  | cut hs hfront hback _ ih =>
    rw [List.exists_mem_cons_iff, List.exists_mem_cons_iff, List.exists_mem_cons_iff, ih, ← or_assoc]
    refine or_congr_left ?_
    simp only [hs, hfront, hback, Except.ok.injEq, exists_eq_left', hp]

theorem symbols_eq (h : Divided t l l') {m : Matcher} (hfeed : '\n' ∉ m.stem) (role : Role) :
    (Harvest.ofReadings m role (l.map (·.read t))).symbols =
      (Harvest.ofReadings m role (l'.map (·.read t))).symbols := by
  apply SymbolSet.ext_mem
  intro x
  rw [mem_symbols_read, mem_symbols_read]
  exact h.exists_text_iff fun a b =>
    m.mem_extract_append_iff role.recognition (isSeparator_newline hfeed) a b

/-- A part can be read because the whole can. -/
theorem readable_eq_zero_iff (h : Divided t l l') (m : Matcher) (role : Role) :
    (Harvest.ofReadings m role (l.map (·.read t))).readable = 0 ↔
      (Harvest.ofReadings m role (l'.map (·.read t))).readable = 0 := by
  apply not_iff_not.mp
  have hsome := h.exists_text_iff (p := fun _ => True) fun a b => by simp
  simp only [and_true] at hsome
  exact readable_read_ne_zero_iff.trans (hsome.trans readable_read_ne_zero_iff.symm)

theorem skipped_eq (h : Divided t l l') (m : Matcher) (role : Role) :
    (Harvest.ofReadings m role (l.map (·.read t))).skipped =
      (Harvest.ofReadings m role (l'.map (·.read t))).skipped := by
  show (l.map (·.read t)).filterMap Reading.error? = (l'.map (·.read t)).filterMap Reading.error?
  have hnone : ∀ {s : Source} {text : String}, s.content t = .ok text →
      (s.read t).error? = none := by
    intro s text hs
    simp only [Source.read, Reading.error?, hs]
  induction h with
  | nil => rfl
  | keep s _ ih => rw [List.map_cons, List.map_cons, List.filterMap_cons, List.filterMap_cons, ih]
  | cut hs hfront hback _ ih =>
    rw [List.map_cons, List.map_cons, List.map_cons, List.filterMap_cons_none (hnone hs),
      List.filterMap_cons_none (hnone hfront), List.filterMap_cons_none (hnone hback), ih]

end Source.Divided

/-- A separator cuts a text in two without a change to what is found.  So where a line feed separates,
each of some readable sources may be cut in two at one, headers and documents alike: the check comes
to the same result, with the same warnings and the same exit code. -/
theorem Checker.run_divided (m : Matcher) :
    (∀ c, IsSeparator m.stem c → ∀ r a b x,
      x ∈ m.extract r (a ++ String.singleton c ++ b) ↔ x ∈ m.extract r a ∨ x ∈ m.extract r b) ∧
    ∀ t headers headers' docs docs', '\n' ∉ m.stem → Source.Divided t headers headers' →
      Source.Divided t docs docs' →
        ((Checker.mk m headers docs).run t).result = ((Checker.mk m headers' docs').run t).result ∧
        ((Checker.mk m headers docs).run t).warnings =
          ((Checker.mk m headers' docs').run t).warnings ∧
        ((Checker.mk m headers docs).run t).exitCode =
          ((Checker.mk m headers' docs').run t).exitCode := by
  refine ⟨fun c hc r a b x => m.mem_extract_append_iff r hc a b, ?_⟩
  intro t headers headers' docs docs' hfeed hheaders hdocs
  have hresult : ((Checker.mk m headers docs).run t).result =
      ((Checker.mk m headers' docs').run t).result :=
    Coverage.ofHarvests_congr (hheaders.symbols_eq hfeed .header)
      (hdocs.symbols_eq hfeed .documentation) (hdocs.readable_eq_zero_iff m .documentation)
  exact ⟨hresult, hheaders.skipped_eq m .header, Outcome.exitCode_congr hresult⟩

/-- A header with a declaration on two lines, beside one that does not exist, and a document that
mentions something else. -/
theorem Checker.run_divided_header :
    '\n' ∉ ['f', '_'] ∧
    ((Checker.mk ⟨['f', '_'], by decide⟩
        [.memory "gone.h" none, .memory "1.h" (some "int f_a("), .memory "2.h" (some "  int);")]
        [.memory "d.md" (some "f_b")]).run (.bare [])).result =
      .error (.undocumented ["f_a"]) := by
  have hfeed : '\n' ∉ ['f', '_'] := by decide
  have hheaders : Source.Divided (.bare [])
      [.memory "gone.h" none, .memory "a.h" (some "int f_a(\n  int);")]
      [.memory "gone.h" none, .memory "1.h" (some "int f_a("), .memory "2.h" (some "  int);")] :=
    .cut_one [.memory "gone.h" none] [] (a := "int f_a(") (b := "  int);") rfl rfl rfl
  obtain ⟨-, hrun⟩ := Checker.run_divided ⟨['f', '_'], by decide⟩
  obtain ⟨hresult, -⟩ := hrun _ _ _ [.memory "d.md" (some "f_b")] _ hfeed hheaders (.refl _ _)
  refine ⟨hfeed, hresult.symm.trans ?_⟩
  decide +kernel

end DocCoverage
