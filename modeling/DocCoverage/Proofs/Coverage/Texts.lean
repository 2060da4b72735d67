import DocCoverage.Proofs.Coverage.Verdict
import Mathlib.Data.Set.Basic

/-!
# The verdict is one on texts

Nothing but texts counts for the result of a check: neither where they come from, nor in which order
and how often they are listed, nor how many sources are out of reach.

    declared symbols of a check   = all symbols of texts t headers            (mem_headerHarvest_texts)
    documented symbols            = all symbols of texts t docs                  (mem_docHarvest_texts)
    a document is readable        ↔ texts t docs is not empty                       (hasDocument_texts)
    equal sets of texts           → equal results and exit codes                   (run_eq_of_texts)
-/

namespace DocCoverage

/-- The texts of the sources that can be read, as a set. -/
def Source.texts (t : FileTree) (sources : List Source) : Set String :=
  {text | ∃ s ∈ sources, s.content t = .ok text}

/-- The second list has the sources of the first, in any order and number, and besides them only
sources that cannot be read. -/
structure Source.Padded (t : FileTree) (sources sources' : List Source) : Prop where
  kept : ∀ s ∈ sources, s ∈ sources'
  added : ∀ s ∈ sources', s ∈ sources ∨ ∃ e, s.content t = .error e

theorem Source.Padded.texts_eq {t : FileTree} {sources sources' : List Source}
    (h : Padded t sources sources') : texts t sources = texts t sources' := by
  ext text
  constructor
  · rintro ⟨s, hs, htext⟩
    exact ⟨s, h.kept s hs, htext⟩
  · rintro ⟨s, hs, htext⟩
    rcases h.added s hs with hs' | ⟨e, he⟩
    · exact ⟨s, hs', htext⟩
    · rw [he] at htext
      cases htext

/-- The result of a comparison depends on the two sets of symbols, and on the number of readable
documents only through its being zero. -/
theorem Coverage.ofHarvests_congr {headers headers' docs docs' : Harvest}
    (hdeclared : headers.symbols = headers'.symbols) (hdocumented : docs.symbols = docs'.symbols)
    (hreadable : docs.readable = 0 ↔ docs'.readable = 0) :
    ofHarvests headers docs = ofHarvests headers' docs' := by
  unfold ofHarvests
  rw [hdeclared, hdocumented]
  by_cases h : docs.readable = 0
  · rw [if_pos h, if_pos (hreadable.mp h)]
  · rw [if_neg h, if_neg fun h' => h (hreadable.mpr h')]

theorem Outcome.exitCode_congr {o o' : Outcome} (h : o.result = o'.result) :
    o.exitCode = o'.exitCode := by
  unfold exitCode isSuccess
  rw [h]

namespace Checker

variable (c : Checker) (t : FileTree)

theorem mem_headerHarvest_texts {x : String} :
    x ∈ (c.headerHarvest t).symbols ↔
      ∃ text ∈ Source.texts t c.headers, x ∈ c.matcher.extract .callSite text := by
  rw [mem_headerHarvest]
  constructor
  · rintro ⟨s, hs, text, htext, hx⟩
    exact ⟨text, ⟨s, hs, htext⟩, hx⟩
  · rintro ⟨text, ⟨s, hs, htext⟩, hx⟩
    exact ⟨s, hs, text, htext, hx⟩

theorem mem_docHarvest_texts {x : String} :
    x ∈ (c.docHarvest t).symbols ↔
      ∃ text ∈ Source.texts t c.docs, x ∈ c.matcher.extract .mention text := by
  rw [mem_docHarvest]
  constructor
  · rintro ⟨s, hs, text, htext, hx⟩
    exact ⟨text, ⟨s, hs, htext⟩, hx⟩
  · rintro ⟨text, ⟨s, hs, htext⟩, hx⟩
    exact ⟨s, hs, text, htext, hx⟩

theorem hasDocument_texts : c.HasDocument t ↔ (Source.texts t c.docs).Nonempty := by
  constructor
  · rintro ⟨s, hs, text, htext⟩
    exact ⟨text, s, hs, htext⟩
  · rintro ⟨text, s, hs, htext⟩
    exact ⟨s, hs, text, htext⟩

variable {c} {c' : Checker}

theorem result_eq_of_texts (hmatcher : c.matcher = c'.matcher) {t t' : FileTree}
    (hheaders : Source.texts t c.headers = Source.texts t' c'.headers)
    (hdocs : Source.texts t c.docs = Source.texts t' c'.docs) :
    (c.run t).result = (c'.run t').result := by
  show Coverage.ofHarvests (c.headerHarvest t) (c.docHarvest t) =
    Coverage.ofHarvests (c'.headerHarvest t') (c'.docHarvest t')
  apply Coverage.ofHarvests_congr
  · apply SymbolSet.ext_mem
    intro x
    rw [mem_headerHarvest_texts, mem_headerHarvest_texts, hheaders, hmatcher]
  · apply SymbolSet.ext_mem
    intro x
    rw [mem_docHarvest_texts, mem_docHarvest_texts, hdocs, hmatcher]
  · apply not_iff_not.mp
    show (c.docHarvest t).readable ≠ 0 ↔ (c'.docHarvest t').readable ≠ 0
    rw [readable_docHarvest_ne_zero_iff, readable_docHarvest_ne_zero_iff, hasDocument_texts,
      hasDocument_texts, hdocs]

/-- Two checkers with the same prefix come to the same result and exit code when their readable
headers have the same set of texts and their readable documents too.  So it changes nothing to list
sources in another order or more than once, or to list others that cannot be read. -/
theorem run_eq_of_texts (hmatcher : c.matcher = c'.matcher) (t t' : FileTree) :
    (Source.texts t c.headers = Source.texts t' c'.headers →
      Source.texts t c.docs = Source.texts t' c'.docs →
      (c.run t).result = (c'.run t').result ∧ (c.run t).exitCode = (c'.run t').exitCode) ∧
    (Source.Padded t c.headers c'.headers → Source.Padded t c.docs c'.docs →
      (c.run t).result = (c'.run t).result ∧ (c.run t).exitCode = (c'.run t).exitCode) := by
  have hexit : ∀ {t t'}, (c.run t).result = (c'.run t').result →
      (c.run t).result = (c'.run t').result ∧ (c.run t).exitCode = (c'.run t').exitCode :=
    fun h => ⟨h, Outcome.exitCode_congr h⟩
  constructor
  · intro hheaders hdocs
    exact hexit (result_eq_of_texts hmatcher hheaders hdocs)
  · intro hheaders hdocs
    exact hexit (result_eq_of_texts hmatcher hheaders.texts_eq hdocs.texts_eq)

/-- One header and one document. -/
def brief : Checker :=
  ⟨⟨['f', 'n', '_'], by decide⟩, [.memory "a.h" (some "fn_a(")], [.memory "a.md" (some "fn_b")]⟩

/-- The same, with the header listed twice, a second copy of the document, and two sources that do
not exist. -/
def padded : Checker :=
  ⟨brief.matcher,
    [.memory "gone.h" none, .memory "a.h" (some "fn_a("), .memory "a.h" (some "fn_a(")],
    [.memory "a.md" (some "fn_b"), .memory "b.md" (some "fn_b"), .memory "gone.md" none]⟩

/-- Both miss `fn_a`. -/
theorem run_padded :
    brief.matcher = padded.matcher ∧
    (padded.run (.bare [])).result = .error (.undocumented ["fn_a"]) ∧
    (padded.run (.bare [])).exitCode = 1 := by
  have hheaders : Source.texts (.bare []) brief.headers = Source.texts (.bare []) padded.headers := by
    ext text
    simp [Source.texts, brief, padded, Source.content]
  have hdocs : Source.texts (.bare []) brief.docs = Source.texts (.bare []) padded.docs := by
    ext text
    simp [Source.texts, brief, padded, Source.content]
  have hmatcher : brief.matcher = padded.matcher := rfl
  obtain ⟨hresult, hexit⟩ := (run_eq_of_texts hmatcher (.bare []) (.bare [])).1 hheaders hdocs
  refine ⟨hmatcher, hresult.symm.trans ?_, hexit.symm.trans ?_⟩
  · decide +kernel
  · decide +kernel

end Checker

end DocCoverage
