import DocCoverage.Proofs.Coverage.Verdict
import DocCoverage.Proofs.Symbol.Tangle

/-!
# Headers that document themselves

When every readable header is read as a document too, no declared symbol should be missing.  That
holds for exactly the stems that are not tangled, as does the inclusion of call sites in mentions.

    call sites ⊆ mentions in every text  ↔  ¬ IsTangled stem
    no check of self-documenting headers ends with missing symbols  ↔  ¬ IsTangled stem
-/

namespace DocCoverage

namespace Checker

/-- Two copies of one text, as a header and as a document. -/
def reflexive (m : Matcher) (text : String) : Checker :=
  ⟨m, [.memory "" (some text)], [.memory "" (some text)]⟩

/-- A call site that is no mention goes missing from the document that shows it. -/
theorem run_reflexive (m : Matcher) (text x : String) (t : FileTree)
    (hx : x ∈ m.extract .callSite text) (hno : x ∉ m.extract .mention text) :
    ∃ missing, ((reflexive m text).run t).result = .error (.undocumented missing) := by
  refine ⟨_, Coverage.ofHarvests_eq_undocumented_iff.mpr ⟨?_, ?_, ?_, rfl⟩⟩
  · rw [Bool.eq_false_iff, Ne, SymbolSet.isEmpty_iff]
    intro hempty
    exact hempty x (mem_symbols_read.mpr ⟨_, List.mem_cons_self, text, rfl, hx⟩)
  · exact readable_read_ne_zero_iff.mpr ⟨_, List.mem_cons_self, text, rfl⟩
  · intro hnil
    have hsub := undocumented_eq_nil_iff.mp hnil x
      (mem_symbols_read.mpr ⟨_, List.mem_cons_self, text, rfl, hx⟩)
    obtain ⟨s, hs, text', htext, hx'⟩ := mem_symbols_read.mp hsub
    obtain rfl := List.mem_singleton.mp hs
    obtain rfl : text = text' := Except.ok.inj htext
    exact hno hx'

/-- Where call sites are mentions, readable headers among the documents leave nothing missing. -/
theorem run_ne_undocumented {m : Matcher} {t : FileTree} {headers docs : List Source}
    (hsub : ∀ text x, x ∈ m.extract .callSite text → x ∈ m.extract .mention text)
    (hdocs : ∀ s ∈ headers, ∀ text, s.content t = .ok text → s ∈ docs) (missing : List String) :
    (Checker.run ⟨m, headers, docs⟩ t).result ≠ .error (.undocumented missing) := by
  intro h
  obtain ⟨-, -, hne, rfl⟩ := Coverage.ofHarvests_eq_undocumented_iff.mp h
  refine hne (undocumented_eq_nil_iff.mpr fun x hx => ?_)
  obtain ⟨s, hs, text, htext, hxt⟩ := mem_symbols_read.mp hx
  exact mem_symbols_read.mpr ⟨s, hdocs s hs text htext, text, htext, hsub text x hxt⟩

/-- Headers document themselves exactly when the stem is not tangled: then call sites are mentions
in every text, and no check whose documents include the readable headers ends with missing
symbols; with a tangled stem some text and some check fail. -/
theorem self_documented_iff (m : Matcher) :
    ((∀ text x, x ∈ m.extract .callSite text → x ∈ m.extract .mention text) ↔
      ¬ IsTangled m.stem) ∧
    ((∀ (t : FileTree) (headers docs : List Source),
        (∀ s ∈ headers, ∀ text, s.content t = .ok text → s ∈ docs) →
        ∀ missing, (Checker.run ⟨m, headers, docs⟩ t).result ≠ .error (.undocumented missing)) ↔
      ¬ IsTangled m.stem) := by
  refine ⟨m.callSite_subset_mention_iff, ?_, ?_⟩
  · intro h
    rw [← m.callSite_subset_mention_iff]
    intro text x hx
    apply Classical.byContradiction
    intro hno
    obtain ⟨missing, hmissing⟩ := run_reflexive m text x ⟨fun _ => none, []⟩ hx hno
    exact h _ _ _ (fun s hs _ _ => hs) missing hmissing
  · intro h t headers docs hdocs missing
    exact run_ne_undocumented (m.callSite_subset_mention_iff.mpr h) hdocs missing

/-- The stem `rt.` is accepted and tangled: one text has the call site `rt.foo`, mentions only
`rt.rt`, and so fails to document itself. -/
theorem rt_not_self_documented :
    ∃ m, Matcher.ofPrefix "rt." = .ok m ∧
      (m.extract .callSite "rt.rt.foo(").toList = ["rt.foo"] ∧
      (m.extract .mention "rt.rt.foo(").toList = ["rt.rt"] ∧
      ((reflexive m "rt.rt.foo(").run ⟨fun _ => none, []⟩).result =
        .error (.undocumented ["rt.foo"]) := by
  refine ⟨⟨['r', 't', '.'], by decide⟩, by decide +kernel, ?_, ?_, ?_⟩
  · decide +kernel
  · decide +kernel
  · decide +kernel

end Checker

end DocCoverage
