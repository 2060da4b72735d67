import DocCoverage.Coverage
import Mathlib.Data.List.Forall2

/-!
# The verdict of a check

What a check comes to depends on its readable sources only: on the names that the headers declare,
on those that the documents mention, and on whether any document is readable.

    x ∈ symbols of some sources  ↔  a readable one of them shows x          (mem_symbols_read)
    the check ends with `missing`  ↔  declared ≠ ∅, a document is readable and
                                      missing = declared \ mentioned ≠ []   (ofHarvests_eq_undocumented_iff)
    the check passes  ↔  declared ≠ ∅, a document is readable and
                         declared ⊆ mentioned                               (ofHarvests_eq_ok_iff)
    the skipped sources, in order, each with its own location and cause     (skipped_read)
-/

namespace DocCoverage

/-! ## Sources that were read -/

/-- The cause why a source has no text names that source. -/
theorem Source.location_of_content_eq_error {t : FileTree} {s : Source} {e : SourceError}
    (h : s.content t = .error e) : e.location = s.location := by
  cases s with
  | memory location text =>
    cases text with
    | none => obtain rfl := Except.error.inj h; rfl
    | some text => cases h
  | file path =>
    unfold content at h
    cases hread : t.read path with
    | ok text => simp [hread] at h
    | error fault =>
      simp only [hread, Except.error.injEq] at h
      subst h
      unfold SourceError.ofFault
      split
      · rfl
      · rfl

section

variable {t : FileTree} {sources : List Source}

theorem mem_texts_read {text : String} :
    text ∈ (sources.map (·.read t)).filterMap Reading.text? ↔
      ∃ s ∈ sources, s.content t = .ok text := by
  rw [List.filterMap_map, List.mem_filterMap]
  refine exists_congr fun s => and_congr_right fun _ => ?_
  simp only [Function.comp, Reading.text?, Source.read]
  cases s.content t with
  | error e => simp
  | ok text' => simp

theorem mem_symbols_read {m : Matcher} {role : Role} {x : String} :
    x ∈ (Harvest.ofReadings m role (sources.map (·.read t))).symbols ↔
      ∃ s ∈ sources, ∃ text, s.content t = .ok text ∧ x ∈ m.extract role.recognition text := by
  rw [Harvest.mem_symbols]
  constructor
  · rintro ⟨text, htext, hx⟩
    obtain ⟨s, hs, hc⟩ := mem_texts_read.mp htext
    exact ⟨s, hs, text, hc, hx⟩
  · rintro ⟨s, hs, text, hc, hx⟩
    exact ⟨text, mem_texts_read.mpr ⟨s, hs, hc⟩, hx⟩

theorem readable_read_ne_zero_iff {m : Matcher} {role : Role} :
    (Harvest.ofReadings m role (sources.map (·.read t))).readable ≠ 0 ↔
      ∃ s ∈ sources, ∃ text, s.content t = .ok text := by
  show ((sources.map (·.read t)).filterMap Reading.text?).length ≠ 0 ↔ _
  rw [← Nat.pos_iff_ne_zero, List.length_pos_iff_exists_mem]
  constructor
  · rintro ⟨text, htext⟩
    obtain ⟨s, hs, hc⟩ := mem_texts_read.mp htext
    exact ⟨s, hs, text, hc⟩
  · rintro ⟨s, hs, text, hc⟩
    exact ⟨text, mem_texts_read.mpr ⟨s, hs, hc⟩⟩

/-- The skipped sources are the unreadable ones, in order and as often as they are listed. -/
theorem skipped_read (m : Matcher) (role : Role) :
    List.Forall₂ (fun s e => s.content t = .error e ∧ e.location = s.location)
      (sources.filter fun s => (s.read t).text?.isNone)
      (Harvest.ofReadings m role (sources.map (·.read t))).skipped := by
  show List.Forall₂ _ _ ((sources.map (·.read t)).filterMap Reading.error?)
  induction sources with
  | nil => exact .nil
  | cons s sources ih =>
    cases hs : s.content t with
    | ok text =>
      have htext : (s.read t).text? = some text := by simp [Reading.text?, Source.read, hs]
      have herror : (s.read t).error? = none := by simp [Reading.error?, Source.read, hs]
      rw [List.filter_cons_of_neg (by simp [htext]), List.map_cons,
        List.filterMap_cons_none herror]
      exact ih
    | error e =>
      have htext : (s.read t).text? = none := by simp [Reading.text?, Source.read, hs]
      have herror : (s.read t).error? = some e := by simp [Reading.error?, Source.read, hs]
      rw [List.filter_cons_of_pos (by simp [htext]), List.map_cons,
        List.filterMap_cons_some herror]
      exact .cons ⟨hs, Source.location_of_content_eq_error hs⟩ ih

end

/-! ## Comparing two harvests -/

theorem mem_undocumented {declared documented : SymbolSet} {x : String} :
    x ∈ undocumented declared documented ↔ x ∈ declared ∧ ¬ x ∈ documented :=
  SymbolSet.mem_sdiff

theorem undocumented_eq_nil_iff {declared documented : SymbolSet} :
    undocumented declared documented = [] ↔ ∀ x, x ∈ declared → x ∈ documented := by
  rw [List.eq_nil_iff_forall_not_mem]
  refine forall_congr' fun x => ?_
  rw [mem_undocumented, not_and, Classical.not_not]

namespace Coverage

/-- The four ends of a check, each with what leads to it. -/
theorem ofHarvests_cases (headers docs : Harvest) :
    (headers.symbols.isEmpty = true ∧ ofHarvests headers docs = .error .noSymbols) ∨
    (headers.symbols.isEmpty = false ∧ docs.readable = 0 ∧
      ofHarvests headers docs = .error .noDocumentation) ∨
    (headers.symbols.isEmpty = false ∧ docs.readable ≠ 0 ∧
      DocCoverage.undocumented headers.symbols docs.symbols ≠ [] ∧
      ofHarvests headers docs =
        .error (.undocumented (DocCoverage.undocumented headers.symbols docs.symbols))) ∨
    (headers.symbols.isEmpty = false ∧ docs.readable ≠ 0 ∧
      DocCoverage.undocumented headers.symbols docs.symbols = [] ∧
      ofHarvests headers docs = .ok ⟨headers.symbols, docs.symbols,
        DocCoverage.undeclared headers.symbols docs.symbols⟩) := by
  unfold ofHarvests
  split
  · next h => exact .inl ⟨h, rfl⟩
  · next h =>
    have hfalse : headers.symbols.isEmpty = false := by simpa using h
    split
    · next hr => exact .inr (.inl ⟨hfalse, hr, rfl⟩)
    · next hr =>
      split
      · next hm => exact .inr (.inr (.inr ⟨hfalse, hr, List.isEmpty_iff.mp hm, rfl⟩))
      · next hm =>
        exact .inr (.inr (.inl ⟨hfalse, hr, fun e => hm (List.isEmpty_iff.mpr e), rfl⟩))

variable {headers docs : Harvest}

theorem ofHarvests_eq_noSymbols_iff :
    ofHarvests headers docs = .error .noSymbols ↔ headers.symbols.isEmpty = true := by
  rcases ofHarvests_cases headers docs with ⟨h, e⟩ | ⟨h, hr, e⟩ | ⟨h, hr, hm, e⟩ | ⟨h, hr, hm, e⟩
  all_goals simp [e, h]

theorem ofHarvests_eq_noDocumentation_iff :
    ofHarvests headers docs = .error .noDocumentation ↔
      headers.symbols.isEmpty = false ∧ docs.readable = 0 := by
  rcases ofHarvests_cases headers docs with ⟨h, e⟩ | ⟨h, hr, e⟩ | ⟨h, hr, hm, e⟩ | ⟨h, hr, hm, e⟩
  all_goals simp [e, h]
  all_goals exact hr

theorem ofHarvests_eq_undocumented_iff {missing : List String} :
    ofHarvests headers docs = .error (.undocumented missing) ↔
      headers.symbols.isEmpty = false ∧ docs.readable ≠ 0 ∧ missing ≠ [] ∧
        missing = DocCoverage.undocumented headers.symbols docs.symbols := by
  rcases ofHarvests_cases headers docs with ⟨h, e⟩ | ⟨h, hr, e⟩ | ⟨h, hr, hm, e⟩ | ⟨h, hr, hm, e⟩
  · simp [e, h]
  · simp [e, hr]
  · rw [e]
    constructor
    · rintro ⟨⟩
      exact ⟨h, hr, hm, rfl⟩
    · rintro ⟨-, -, -, rfl⟩
      rfl
  · simp [e, hm]

theorem ofHarvests_eq_ok_iff {found : Coverage} :
    ofHarvests headers docs = .ok found ↔
      headers.symbols.isEmpty = false ∧ docs.readable ≠ 0 ∧
        (∀ x, x ∈ headers.symbols → x ∈ docs.symbols) ∧
        found = ⟨headers.symbols, docs.symbols,
          DocCoverage.undeclared headers.symbols docs.symbols⟩ := by
  rw [← undocumented_eq_nil_iff]
  rcases ofHarvests_cases headers docs with ⟨h, e⟩ | ⟨h, hr, e⟩ | ⟨h, hr, hm, e⟩ | ⟨h, hr, hm, e⟩
  · simp [e, h]
  · simp [e, hr]
  · simp [e, hm]
  · rw [e]
    constructor
    · rintro ⟨⟩
      exact ⟨h, hr, hm, rfl⟩
    · rintro ⟨-, -, -, rfl⟩
      rfl

end Coverage

/-! ## The ends of a run -/

theorem SymbolSet.isEmpty_eq_false_iff {s : SymbolSet} : s.isEmpty = false ↔ ∃ x, x ∈ s := by
  rw [Bool.eq_false_iff, Ne, isEmpty_iff, not_forall_not]

/-- The list of a set is the strictly ascending list of its members. -/
theorem SymbolSet.eq_toList_iff {l : List String} {s : SymbolSet} :
    l = s.toList ↔ l.Pairwise (· < ·) ∧ ∀ x, x ∈ l ↔ x ∈ s := by
  constructor
  · rintro rfl
    exact ⟨s.ascending, fun x => Iff.rfl⟩
  · rintro ⟨hasc, h⟩
    exact eq_of_ascending hasc s.ascending h

theorem Outcome.exitCode_eq_zero_iff (o : Outcome) :
    o.exitCode = 0 ↔ ∃ found, o.result = .ok found := by
  unfold exitCode isSuccess
  cases o.result with
  | ok found => simp
  | error shortfall => simp

namespace Checker

variable (c : Checker) (t : FileTree)

/-- Some readable header declares the symbol. -/
def Declares (x : String) : Prop :=
  ∃ s ∈ c.headers, ∃ text, s.content t = .ok text ∧ x ∈ c.matcher.extract .callSite text

/-- Some readable document mentions the symbol. -/
def Mentions (x : String) : Prop :=
  ∃ s ∈ c.docs, ∃ text, s.content t = .ok text ∧ x ∈ c.matcher.extract .mention text

/-- Some document is readable, if only as an empty text. -/
def HasDocument : Prop :=
  ∃ s ∈ c.docs, ∃ text, s.content t = .ok text

/-- What the headers of a checker give. -/
def headerHarvest : Harvest :=
  .ofReadings c.matcher .header (c.headers.map (·.read t))

/-- What the documents of a checker give. -/
def docHarvest : Harvest :=
  .ofReadings c.matcher .documentation (c.docs.map (·.read t))

theorem mem_headerHarvest {x : String} : x ∈ (c.headerHarvest t).symbols ↔ c.Declares t x :=
  mem_symbols_read

theorem mem_docHarvest {x : String} : x ∈ (c.docHarvest t).symbols ↔ c.Mentions t x :=
  mem_symbols_read

theorem readable_docHarvest_ne_zero_iff : (c.docHarvest t).readable ≠ 0 ↔ c.HasDocument t :=
  readable_read_ne_zero_iff

theorem headerHarvest_isEmpty_iff :
    (c.headerHarvest t).symbols.isEmpty = true ↔ ∀ x, ¬ c.Declares t x := by
  simp only [SymbolSet.isEmpty_iff, mem_headerHarvest]

theorem headerHarvest_isEmpty_eq_false_iff :
    (c.headerHarvest t).symbols.isEmpty = false ↔ ∃ x, c.Declares t x := by
  simp only [SymbolSet.isEmpty_eq_false_iff, mem_headerHarvest]

/-- The missing symbols are the declared ones that are not mentioned, in ascending order. -/
theorem eq_undocumented_iff {missing : List String} :
    missing = undocumented (c.headerHarvest t).symbols (c.docHarvest t).symbols ↔
      missing.Pairwise (· < ·) ∧ ∀ x, x ∈ missing ↔ c.Declares t x ∧ ¬ c.Mentions t x := by
  simp only [undocumented, SymbolSet.eq_toList_iff, SymbolSet.mem_sdiff, mem_headerHarvest,
    mem_docHarvest]

/-- The undeclared symbols are the mentioned ones that are not declared, in ascending order. -/
theorem eq_undeclared_iff {extra : List String} :
    extra = undeclared (c.headerHarvest t).symbols (c.docHarvest t).symbols ↔
      extra.Pairwise (· < ·) ∧ ∀ x, x ∈ extra ↔ c.Mentions t x ∧ ¬ c.Declares t x := by
  simp only [undeclared, SymbolSet.eq_toList_iff, SymbolSet.mem_sdiff, mem_headerHarvest,
    mem_docHarvest]

theorem exists_missing_iff :
    undocumented (c.headerHarvest t).symbols (c.docHarvest t).symbols ≠ [] ↔
      ∃ x, c.Declares t x ∧ ¬ c.Mentions t x := by
  rw [Ne, undocumented_eq_nil_iff]
  simp only [mem_headerHarvest, mem_docHarvest, not_forall, exists_prop]

/-- What a run comes to, in terms of the symbols that readable headers declare and readable documents
mention: which of the four ends it has, what it lists there, which headers it warns about, and when
it succeeds. -/
theorem run_exact :
    ((c.run t).result = .error .noSymbols ↔ ∀ x, ¬ c.Declares t x) ∧
    ((c.run t).result = .error .noDocumentation ↔
      (∃ x, c.Declares t x) ∧ ¬ c.HasDocument t) ∧
    (∀ missing, (c.run t).result = .error (.undocumented missing) ↔
      (∃ x, c.Declares t x) ∧ c.HasDocument t ∧ (∃ x, c.Declares t x ∧ ¬ c.Mentions t x) ∧
        missing.Pairwise (· < ·) ∧ ∀ x, x ∈ missing ↔ c.Declares t x ∧ ¬ c.Mentions t x) ∧
    (∀ found, (c.run t).result = .ok found ↔
      (∃ x, c.Declares t x) ∧ c.HasDocument t ∧ (∀ x, c.Declares t x → c.Mentions t x) ∧
        (∀ x, x ∈ found.declared ↔ c.Declares t x) ∧
        (∀ x, x ∈ found.documented ↔ c.Mentions t x) ∧
        found.undeclared.Pairwise (· < ·) ∧
        ∀ x, x ∈ found.undeclared ↔ c.Mentions t x ∧ ¬ c.Declares t x) ∧
    List.Forall₂ (fun s e => s.content t = .error e ∧ e.location = s.location)
      (c.headers.filter fun s => (s.read t).text?.isNone) (c.run t).warnings ∧
    (c.run t).documentation = c.docs.map Source.location ∧
    ((c.run t).exitCode = 0 ↔ ∃ found, (c.run t).result = .ok found) := by
  have hresult : (c.run t).result = Coverage.ofHarvests (c.headerHarvest t) (c.docHarvest t) := rfl
  refine ⟨?_, ?_, ?_, ?_, skipped_read c.matcher .header, ?_, (c.run t).exitCode_eq_zero_iff⟩
  · rw [hresult, Coverage.ofHarvests_eq_noSymbols_iff, headerHarvest_isEmpty_iff]
  · rw [hresult, Coverage.ofHarvests_eq_noDocumentation_iff, headerHarvest_isEmpty_eq_false_iff,
      ← readable_docHarvest_ne_zero_iff, not_ne_iff]
  · intro missing
    rw [hresult, Coverage.ofHarvests_eq_undocumented_iff, headerHarvest_isEmpty_eq_false_iff,
      readable_docHarvest_ne_zero_iff, ← eq_undocumented_iff, ← exists_missing_iff]
    refine and_congr_right fun _ => and_congr_right fun _ => and_congr_left ?_
    rintro rfl
    rfl
  · intro found
    rw [hresult, Coverage.ofHarvests_eq_ok_iff, headerHarvest_isEmpty_eq_false_iff,
      readable_docHarvest_ne_zero_iff, ← eq_undeclared_iff]
    simp only [mem_headerHarvest, mem_docHarvest]
    refine and_congr_right fun _ => and_congr_right fun _ => and_congr_right fun _ => ?_
    constructor
    · rintro rfl
      exact ⟨fun x => c.mem_headerHarvest t, fun x => c.mem_docHarvest t, rfl⟩
    · obtain ⟨declared, documented, extra⟩ := found
      rintro ⟨hdeclared, hdocumented, rfl⟩
      have h : declared = (c.headerHarvest t).symbols :=
        SymbolSet.ext_mem fun x => (hdeclared x).trans (c.mem_headerHarvest t).symm
      have h' : documented = (c.docHarvest t).symbols :=
        SymbolSet.ext_mem fun x => (hdocumented x).trans (c.mem_docHarvest t).symm
      rw [h, h']
  · show (c.docs.map (·.read t)).map Reading.location = _
    rw [List.map_map]
    rfl

end Checker

end DocCoverage
