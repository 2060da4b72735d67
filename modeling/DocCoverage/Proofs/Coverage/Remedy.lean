import DocCoverage.Proofs.Coverage.Verdict
import DocCoverage.Proofs.Report.Delivery
import DocCoverage.Proofs.Symbol.Listing

/-!
# The report as a remedy

A check that fails for undocumented symbols reports them one a line.  These lines, as one more
document, are what was missing: the check then passes, and besides the reported symbols the
documents mention nothing that they did not mention before.

    mentions of the lines for some names  =  these names           (mem_extract_listing)
    the check fails with `missing`, its lines become a document  →  the check passes and
                                      mentioned' = mentioned ∪ missing
-/

namespace DocCoverage

namespace Report

/-- The lines for undocumented symbols, as they are written. -/
def listing (missing : List String) : String :=
  String.join (missing.map fun name => bullet name ++ "\n")

/-- What stands before a name in its line. -/
def lead : List Char :=
  [' ', ' ', '-', ' ']

/-- The gap before a name. -/
theorem isGap_lead : IsGap lead := by decide

/-- The gap after a name. -/
theorem isGap_newline : IsGap ['\n'] := by decide

theorem toList_listing (missing : List String) :
    (listing missing).toList =
      (missing.map String.toList).flatMap fun name => lead ++ (name ++ ['\n']) := by
  rw [listing, String.toList_join, List.flatMap_map, List.flatMap_map]
  refine congrArg (List.flatMap · missing) (funext fun name => ?_)
  rw [bullet, String.toList_append, String.toList_append, List.append_assoc]
  rfl

theorem text_bullets (missing : List String) :
    text .err ((missing.map bullet).map fun line => (.err, line)) = listing missing := by
  apply String.toList_injective
  rw [text, listing, String.toList_join, String.toList_join]
  induction missing with
  | nil => rfl
  | cons name missing ih =>
    simp only [List.map_cons, List.flatMap_cons, List.flatMap_append, if_true, ih, List.flatMap_nil,
      List.append_nil, String.toList_append]

/-- The lines for undocumented symbols stand in the report between a heading and a hint. -/
theorem text_undocumented {o : Outcome} {missing : List String}
    (h : o.result = .error (.undocumented missing)) :
    text .err (lines o) =
      text .err (o.warnings.map fun e => (.err, warning e)) ++
        "documentation is missing the following helper symbols:\n" ++ listing missing ++
        "\n" ++ hint o.documentation ++ "\n" := by
  have hverdict : verdict o.documentation o.result =
      [(.err, "documentation is missing the following helper symbols:")] ++
        ((missing.map bullet).map fun line => (.err, line)) ++
        [(.err, ""), (.err, hint o.documentation)] := by
    rw [h, verdict, List.map_append, List.map_append]
    rfl
  rw [lines, hverdict, text_append, text_append, text_append, text_bullets]
  apply String.toList_injective
  simp [text, String.toList_join]

end Report

namespace Matcher

/-- The lines for some symbols mention these symbols and nothing else, whatever the stem is. -/
theorem mem_extract_listing (m : Matcher) {names : List String}
    (hnames : ∀ n ∈ names, IsName m.stem n.toList) {x : String} :
    x ∈ m.extract .mention (Report.listing names) ↔ x ∈ names := by
  have hfound : (m.occurrences .mention (Report.listing names)).map Occurrence.name =
      names.map String.toList := by
    show (m.found .mention 0 (Report.listing names).toList).map Occurrence.name = _
    have hnil : IsGap [] := by
      intro c hc
      cases hc
    rw [Report.toList_listing]
    refine m.map_name_found_lines Report.isGap_lead Report.isGap_newline (List.cons_ne_nil _ _) _
      ?_ hnil 0
    intro n hn
    obtain ⟨name, hname, rfl⟩ := List.mem_map.mp hn
    exact hnames name hname
  rw [mem_extract]
  constructor
  · rintro ⟨o, ho, rfl⟩
    have hmem := List.mem_map_of_mem (f := Occurrence.name) ho
    rw [hfound] at hmem
    obtain ⟨name, hname, he⟩ := List.mem_map.mp hmem
    rwa [← he, String.ofList_toList]
  · intro hx
    have hmem := List.mem_map_of_mem (f := String.toList) hx
    rw [← hfound] at hmem
    obtain ⟨o, ho, he⟩ := List.mem_map.mp hmem
    exact ⟨o, ho, by rw [he, String.ofList_toList]⟩

/-- What is found in a text is a name with the matcher's stem. -/
theorem isName_of_mem_extract {m : Matcher} {r : Recognition} {text x : String}
    (hx : x ∈ m.extract r text) : IsName m.stem x.toList := by
  obtain ⟨o, ho, rfl⟩ := mem_extract.mp hx
  rw [String.toList_ofList]
  exact ((m.occurrences_isSelection r text).candidates o ho).isName

end Matcher

namespace Checker

variable {c : Checker} {t t' : FileTree} {before after : List Source} {extra : Source}
  {missing : List String}

/-- What a check reports as missing is a name with its stem. -/
theorem isName_of_run (hrun : (c.run t).result = .error (.undocumented missing)) :
    ∀ n ∈ missing, IsName c.matcher.stem n.toList := by
  obtain ⟨-, -, -, rfl⟩ := Coverage.ofHarvests_eq_undocumented_iff.mp hrun
  intro n hn
  obtain ⟨s, -, text, -, hx⟩ := mem_symbols_read.mp (mem_undocumented.mp hn).1
  exact Matcher.isName_of_mem_extract hx

/-- One more readable document adds what it mentions, wherever it stands among the others. -/
theorem mem_symbols_insert {m : Matcher} {text x : String}
    (hsame : ∀ s ∈ before ++ after, s.content t' = s.content t)
    (hextra : extra.content t' = .ok text) :
    x ∈ (Harvest.ofReadings m .documentation
        ((before ++ extra :: after).map (·.read t'))).symbols ↔
      x ∈ (Harvest.ofReadings m .documentation ((before ++ after).map (·.read t))).symbols ∨
        x ∈ m.extract .mention text := by
  rw [mem_symbols_read, mem_symbols_read]
  constructor
  · rintro ⟨s, hs, text', htext, hx⟩
    rcases List.mem_append.mp hs with hs | hs
    · have hs' := List.mem_append_left after hs
      exact .inl ⟨s, hs', text', (hsame s hs').symm.trans htext, hx⟩
    · rcases List.mem_cons.mp hs with rfl | hs
      · obtain rfl : text = text' := Except.ok.inj (hextra.symm.trans htext)
        exact .inr hx
      · have hs' := List.mem_append_right before hs
        exact .inl ⟨s, hs', text', (hsame s hs').symm.trans htext, hx⟩
  · rintro (⟨s, hs, text', htext, hx⟩ | hx)
    · refine ⟨s, ?_, text', (hsame s hs).trans htext, hx⟩
      rcases List.mem_append.mp hs with hs | hs
      · exact List.mem_append_left _ hs
      · exact List.mem_append_right _ (List.mem_cons_of_mem _ hs)
    · exact ⟨extra, List.mem_append_right _ List.mem_cons_self, text, hextra, hx⟩

/-- Sources whose contents did not change show the same symbols. -/
theorem symbols_congr (m : Matcher) (role : Role) {sources : List Source}
    (hsame : ∀ s ∈ sources, s.content t' = s.content t) :
    (Harvest.ofReadings m role (sources.map (·.read t'))).symbols =
      (Harvest.ofReadings m role (sources.map (·.read t))).symbols := by
  apply SymbolSet.ext_mem
  intro x
  rw [mem_symbols_read, mem_symbols_read]
  constructor
  · rintro ⟨s, hs, text, htext, hx⟩
    exact ⟨s, hs, text, (hsame s hs).symm.trans htext, hx⟩
  · rintro ⟨s, hs, text, htext, hx⟩
    exact ⟨s, hs, text, (hsame s hs).trans htext, hx⟩

/-- A check that fails for undocumented symbols reports the lines for them; with these lines as one
more document it passes, and the documents mention what they mentioned before and the reported
symbols.  The stem is arbitrary. -/
theorem run_with_listing (hdocs : c.docs = before ++ after)
    (hrun : (c.run t).result = .error (.undocumented missing))
    (hsame : ∀ s ∈ c.headers ++ c.docs, s.content t' = s.content t)
    (hextra : extra.content t' = .ok (Report.listing missing)) :
    Report.text .err (Report.lines (c.run t)) =
        Report.text .err ((c.run t).warnings.map fun e => (.err, Report.warning e)) ++
          "documentation is missing the following helper symbols:\n" ++ Report.listing missing ++
          "\n" ++ Report.hint (c.run t).documentation ++ "\n" ∧
      ∃ found,
        (Checker.run ⟨c.matcher, c.headers, before ++ extra :: after⟩ t').result = .ok found ∧
        found.declared =
          (Harvest.ofReadings c.matcher .header (c.headers.map (·.read t))).symbols ∧
        ∀ x, x ∈ found.documented ↔
          x ∈ (Harvest.ofReadings c.matcher .documentation (c.docs.map (·.read t))).symbols ∨
            x ∈ missing := by
  refine ⟨Report.text_undocumented hrun, ?_⟩
  obtain ⟨hdeclared, -, -, hmissing⟩ := Coverage.ofHarvests_eq_undocumented_iff.mp hrun
  have hheaders := symbols_congr c.matcher .header fun s hs =>
    hsame s (List.mem_append_left _ hs)
  have hmentioned : ∀ x, x ∈ (Harvest.ofReadings c.matcher .documentation
      ((before ++ extra :: after).map (·.read t'))).symbols ↔
      x ∈ (Harvest.ofReadings c.matcher .documentation (c.docs.map (·.read t))).symbols ∨
        x ∈ missing := by
    intro x
    rw [hdocs, mem_symbols_insert ?_ hextra, c.matcher.mem_extract_listing (isName_of_run hrun)]
    intro s hs
    exact hsame s (List.mem_append_right _ (hdocs ▸ hs))
  refine ⟨_, Coverage.ofHarvests_eq_ok_iff.mpr ⟨?_, ?_, ?_, rfl⟩, hheaders, hmentioned⟩
  · rw [hheaders]
    exact hdeclared
  · exact readable_read_ne_zero_iff.mpr
      ⟨extra, List.mem_append_right _ List.mem_cons_self, _, hextra⟩
  · -- a declared symbol was mentioned before, or it is one of those that were missing
    intro x hx
    rw [hheaders] at hx
    refine (hmentioned x).mpr ?_
    by_cases hold : x ∈ (Harvest.ofReadings c.matcher .documentation
        (c.docs.map (·.read t))).symbols
    · exact .inl hold
    · refine .inr ?_
      rw [hmissing]
      exact mem_undocumented.mpr ⟨hx, hold⟩

/-- Two headers and a document, with a stem that is part of what stands before a name in the
report. -/
def dashed : Checker where
  matcher := ⟨['-', ' '], by decide⟩
  headers := [.memory "a.h" (some "- - a("), .memory "b.h" none]
  docs := [.memory "README.md" (some "- b")]

/-- The line `  - - a` is the remedy for the missing `- a`. -/
theorem run_dashed_with_listing :
    (dashed.run ⟨fun _ => none, []⟩).result = .error (.undocumented ["- a"]) ∧
      ∃ found,
        (Checker.run ⟨dashed.matcher, dashed.headers,
          .memory "list.md" (some "  - - a\n") :: dashed.docs⟩ ⟨fun _ => none, []⟩).result =
            .ok found ∧
        "- a" ∈ found.documented := by
  have hrun : (dashed.run ⟨fun _ => none, []⟩).result = .error (.undocumented ["- a"]) := by
    decide +kernel
  have hextra : (Source.memory "list.md" (some "  - - a\n")).content ⟨fun _ => none, []⟩ =
      .ok (Report.listing ["- a"]) := by
    decide +kernel
  have hdocs : dashed.docs = [] ++ dashed.docs := rfl
  obtain ⟨-, found, hok, -, hdocumented⟩ :=
    run_with_listing hdocs hrun (fun _ _ => rfl) hextra
  exact ⟨hrun, found, hok, (hdocumented "- a").mpr (.inr List.mem_cons_self)⟩

end Checker

end DocCoverage
