import DocCoverage.Proofs.Coverage.Verdict
import DocCoverage.Trail.Event

/-!
# The course of a check

The events of a check follow its stages.  Each header has its event.  If the headers declare
something, their symbols are counted and each document has its event; if a document is readable, the
symbols that are mentioned are counted; and if the check passes with symbols that are mentioned
without being declared, these are counted too.  There is one such course, and it is the trail of the
check.

    Course c t events  ↔  events = the trail of the check of c in t                 (course_iff)
    the headers that a course skips  =  the warnings of the outcome   (skippedHeader?_of_course)
-/

namespace DocCoverage

/-- So many symbols have a property. -/
def Counts (p : String → Prop) (n : Nat) : Prop :=
  ∃ s : SymbolSet, (∀ x, x ∈ s ↔ p x) ∧ n = s.size

theorem counts_iff {p : String → Prop} {s : SymbolSet} (h : ∀ x, x ∈ s ↔ p x) {n : Nat} :
    Counts p n ↔ n = s.size := by
  constructor
  · rintro ⟨s', h', rfl⟩
    rw [SymbolSet.ext_mem fun x => (h' x).trans (h x).symm]
  · rintro rfl
    exact ⟨s, h, rfl⟩

namespace Event

/-- The event of a source that is read for a role: how many symbols it shows, or why it is skipped. -/
inductive Tells (m : Matcher) (role : Role) (t : FileTree) (s : Source) : Event → Prop
  | scanned {text : String} {n : Nat} (h : s.content t = .ok text)
      (hn : Counts (· ∈ m.extract role.recognition text) n) :
      Tells m role t s (.scanned s.location n role)
  | skipped {cause : SourceError} (h : s.content t = .error cause) :
      Tells m role t s (.skipped cause role)

/-- The cause of an event that skips a header. -/
def skippedHeader? : Event → Option SourceError
  | .skipped cause .header => some cause
  | _ => none

section
variable {m : Matcher} {role : Role} {t : FileTree}

theorem ofReading_of_ok {s : Source} {text : String} (h : s.content t = .ok text) :
    ofReading m role (s.read t) =
      .scanned s.location (m.extract role.recognition text).size role := by
  simp only [ofReading, Source.read, h]

theorem ofReading_of_error {s : Source} {cause : SourceError} (h : s.content t = .error cause) :
    ofReading m role (s.read t) = .skipped cause role := by
  simp only [ofReading, Source.read, h]

theorem tells_iff {s : Source} {e : Event} :
    Tells m role t s e ↔ e = ofReading m role (s.read t) := by
  constructor
  · rintro (⟨h, hn⟩ | ⟨h⟩)
    · rw [ofReading_of_ok h, (counts_iff fun x => Iff.rfl).mp hn]
    · rw [ofReading_of_error h]
  · rintro rfl
    cases h : s.content t with
    | ok text =>
      rw [ofReading_of_ok h]
      exact .scanned h ⟨_, fun x => Iff.rfl, rfl⟩
    | error cause =>
      rw [ofReading_of_error h]
      exact .skipped h

theorem forall₂_tells_iff {sources : List Source} {events : List Event} :
    List.Forall₂ (Tells m role t) sources events ↔
      events = (sources.map (·.read t)).map (ofReading m role) := by
  have htells : Tells m role t = fun s e => e = ofReading m role (s.read t) :=
    funext fun s => funext fun e => propext tells_iff
  rw [htells, List.map_map, eq_comm, ← List.forall₂_eq_eq_eq, List.forall₂_map_left_iff]
  simp only [Function.comp_apply, eq_comm]

theorem skippedHeader?_ofReading (r : Reading) :
    skippedHeader? (ofReading m .header r) = r.error? := by
  unfold ofReading Reading.error?
  cases r.content with
  | ok text => rfl
  | error cause => rfl

theorem skippedHeader?_ofReading_document (r : Reading) :
    skippedHeader? (ofReading m .documentation r) = none := by
  unfold ofReading
  cases r.content with
  | ok text => rfl
  | error cause => rfl

end

end Event

namespace Trail

variable (c : Checker) (t : FileTree)

/-- The events after the symbols of the documents were counted. -/
inductive Compared : List Event → Prop
  | fails (h : (c.run t).isSuccess = false) : Compared []
  | exact (h : (c.run t).isSuccess = true) (hexact : ∀ x, c.Mentions t x → c.Declares t x) :
      Compared []
  | extra {n : Nat} (h : (c.run t).isSuccess = true)
      (hextra : ∃ x, c.Mentions t x ∧ ¬ c.Declares t x)
      (hn : Counts (fun x => c.Mentions t x ∧ ¬ c.Declares t x) n) : Compared [.undeclared n]

/-- The events after the documents were read. -/
inductive Documented : List Event → Prop
  | unread (h : ¬ c.HasDocument t) : Documented []
  | read {n : Nat} {events : List Event} (h : c.HasDocument t) (hn : Counts (c.Mentions t) n)
      (hrest : Compared c t events) : Documented (.documented n :: events)

/-- The events of a check. -/
inductive Course : List Event → Prop
  | empty {heads : List Event}
      (hheads : List.Forall₂ (Event.Tells c.matcher .header t) c.headers heads)
      (h : ∀ x, ¬ c.Declares t x) : Course heads
  | declared {heads docs events : List Event} {n : Nat}
      (hheads : List.Forall₂ (Event.Tells c.matcher .header t) c.headers heads)
      (h : ∃ x, c.Declares t x) (hn : Counts (c.Declares t) n)
      (hdocs : List.Forall₂ (Event.Tells c.matcher .documentation t) c.docs docs)
      (hrest : Documented c t events) : Course (heads ++ .declared n :: (docs ++ events))

variable {c t} {events : List Event}

/-- What is mentioned without being declared is counted where the check passes. -/
theorem compared_iff : Compared c t events ↔ events = match (c.run t).result with
    | .ok found => if found.undeclared.isEmpty then [] else [.undeclared found.undeclared.length]
    | .error _ => [] := by
  cases hr : (c.run t).result with
  | error shortfall =>
    have hs : (c.run t).isSuccess = false := by simp only [Outcome.isSuccess, hr]
    constructor
    · rintro (h | ⟨h, -⟩ | ⟨h, -, -⟩)
      · rfl
      · cases hs.symm.trans h
      · cases hs.symm.trans h
    · rintro rfl
      exact .fails hs
  | ok found =>
    have hs : (c.run t).isSuccess = true := by simp only [Outcome.isSuccess, hr]
    obtain ⟨-, -, -, rfl⟩ := Coverage.ofHarvests_eq_ok_iff.mp hr
    have hextra : ∀ x, x ∈ (c.docHarvest t).symbols \ (c.headerHarvest t).symbols ↔
        c.Mentions t x ∧ ¬ c.Declares t x := by
      intro x
      rw [SymbolSet.mem_sdiff, c.mem_docHarvest, c.mem_headerHarvest]
    show Compared c t events ↔ events =
      if ((c.docHarvest t).symbols \ (c.headerHarvest t).symbols).isEmpty then []
      else [.undeclared ((c.docHarvest t).symbols \ (c.headerHarvest t).symbols).size]
    split
    · next hempty =>
      rw [SymbolSet.isEmpty_iff] at hempty
      simp only [hextra, not_and, Classical.not_not] at hempty
      constructor
      · rintro (h | ⟨-, -⟩ | ⟨-, ⟨x, hx, hnot⟩, -⟩)
        · cases hs.symm.trans h
        · rfl
        · exact absurd (hempty x hx) hnot
      · rintro rfl
        exact .exact hs hempty
    · next hsome =>
      rw [Bool.not_eq_true, SymbolSet.isEmpty_eq_false_iff] at hsome
      simp only [hextra] at hsome
      constructor
      · rintro (h | ⟨-, hexact⟩ | ⟨-, -, hn⟩)
        · cases hs.symm.trans h
        · obtain ⟨x, hx, hnot⟩ := hsome
          exact absurd (hexact x hx) hnot
        · rw [(counts_iff hextra).mp hn]
      · rintro rfl
        exact .extra hs hsome ((counts_iff hextra).mpr rfl)

theorem documented_iff :
    Documented c t events ↔ events = ofComparison (c.headerHarvest t) (c.docHarvest t) := by
  unfold ofComparison
  split
  · next hreadable =>
    have hnone : ¬ c.HasDocument t := fun h => c.readable_docHarvest_ne_zero_iff t |>.mpr h hreadable
    constructor
    · rintro (h | ⟨h, -, -⟩)
      · rfl
      · exact absurd h hnone
    · rintro rfl
      exact .unread hnone
  · next hreadable =>
    have hsome : c.HasDocument t := (c.readable_docHarvest_ne_zero_iff t).mp hreadable
    have hcount : ∀ x, x ∈ (c.docHarvest t).symbols ↔ c.Mentions t x := fun x =>
      c.mem_docHarvest t
    constructor
    · rintro (h | ⟨-, hn, hrest⟩)
      · exact absurd hsome h
      · rw [(counts_iff hcount).mp hn, compared_iff.mp hrest]
        rfl
    · rintro rfl
      exact .read hsome ((counts_iff hcount).mpr rfl) (compared_iff.mpr rfl)

/-- The course of a check is its trail. -/
theorem course_iff : Course c t events ↔
    events = ofReadings c.matcher (c.headers.map (·.read t)) (c.docs.map (·.read t)) := by
  have hcount : ∀ x, x ∈ (c.headerHarvest t).symbols ↔ c.Declares t x := fun x =>
    c.mem_headerHarvest t
  have htrail : ofReadings c.matcher (c.headers.map (·.read t)) (c.docs.map (·.read t)) =
      (c.headers.map (·.read t)).map (Event.ofReading c.matcher .header) ++
        if (c.headerHarvest t).symbols.isEmpty then []
        else .declared (c.headerHarvest t).symbols.size ::
          ((c.docs.map (·.read t)).map (Event.ofReading c.matcher .documentation) ++
            ofComparison (c.headerHarvest t) (c.docHarvest t)) := rfl
  rw [htrail]
  split
  · next hempty =>
    rw [c.headerHarvest_isEmpty_iff] at hempty
    rw [List.append_nil]
    constructor
    · rintro (⟨hheads, -⟩ | ⟨-, ⟨x, hx⟩, -, -, -⟩)
      · exact Event.forall₂_tells_iff.mp hheads
      · exact absurd hx (hempty x)
    · rintro rfl
      exact .empty (Event.forall₂_tells_iff.mpr rfl) hempty
  · next hsome =>
    rw [Bool.not_eq_true, c.headerHarvest_isEmpty_eq_false_iff] at hsome
    constructor
    · rintro (⟨-, h⟩ | ⟨hheads, -, hn, hdocs, hrest⟩)
      · obtain ⟨x, hx⟩ := hsome
        exact absurd hx (h x)
      · rw [Event.forall₂_tells_iff.mp hheads, Event.forall₂_tells_iff.mp hdocs,
          (counts_iff hcount).mp hn, documented_iff.mp hrest]
    · rintro rfl
      exact .declared (Event.forall₂_tells_iff.mpr rfl) hsome ((counts_iff hcount).mpr rfl)
        (Event.forall₂_tells_iff.mpr rfl) (documented_iff.mpr rfl)

/-- What holds of all that sources tell, and of all counts, holds of each event of a course. -/
theorem forall_mem_of_course {p : Event → Prop} (h : Course c t events)
    (htells : ∀ role, ∀ s ∈ c.headers ++ c.docs, ∀ e, Event.Tells c.matcher role t s e → p e)
    (hcounts : ∀ n, p (.declared n) ∧ p (.documented n) ∧ p (.undeclared n)) :
    ∀ e ∈ events, p e := by
  have hsources : ∀ role sources es, List.Forall₂ (Event.Tells c.matcher role t) sources es →
      (∀ s ∈ sources, s ∈ c.headers ++ c.docs) → ∀ e ∈ es, p e := by
    intro role sources es hes hmem
    induction hes with
    | nil => nofun
    | cons he _ ih =>
      rw [List.forall_mem_cons] at hmem ⊢
      exact ⟨htells role _ hmem.1 _ he, ih hmem.2⟩
  have hdocumented : ∀ es, Documented c t es → ∀ e ∈ es, p e := by
    rintro es (- | ⟨-, -, - | - | -⟩)
    · nofun
    · exact List.forall_mem_singleton.mpr (hcounts _).2.1
    · exact List.forall_mem_singleton.mpr (hcounts _).2.1
    · exact List.forall_mem_cons.mpr
        ⟨(hcounts _).2.1, List.forall_mem_singleton.mpr (hcounts _).2.2⟩
  have hheaders := fun heads hheads => hsources .header c.headers heads hheads
    fun s hs => List.mem_append_left _ hs
  rcases h with ⟨hheads, -⟩ | ⟨hheads, -, -, hdocs, hrest⟩
  · exact hheaders _ hheads
  · rw [List.forall_mem_append, List.forall_mem_cons, List.forall_mem_append]
    exact ⟨hheaders _ hheads, (hcounts _).1,
      hsources _ _ _ hdocs fun s hs => List.mem_append_right _ hs, hdocumented _ hrest⟩

theorem severity_of_course (h : Course c t events) : ∀ e ∈ events, e.severity = .debug := by
  refine forall_mem_of_course h ?_ fun n => ⟨rfl, rfl, rfl⟩
  rintro role s hs e (⟨-, -⟩ | ⟨-⟩)
  · rfl
  · rfl

theorem skippedHeader?_of_documented (h : Documented c t events) :
    events.filterMap Event.skippedHeader? = [] := by
  rcases h with h | ⟨-, -, hrest⟩
  · rfl
  · rcases hrest with h | ⟨-, -⟩ | ⟨-, -, -⟩
    · rfl
    · rfl
    · rfl

/-- The headers that a course skips are those that the outcome warns about, in the same order. -/
theorem skippedHeader?_of_course (h : Course c t events) :
    events.filterMap Event.skippedHeader? = (c.run t).warnings := by
  have hheaders : ∀ heads, List.Forall₂ (Event.Tells c.matcher .header t) c.headers heads →
      heads.filterMap Event.skippedHeader? = (c.run t).warnings := by
    intro heads hheads
    rw [Event.forall₂_tells_iff.mp hheads, List.filterMap_map]
    exact congrArg (List.filterMap · (c.headers.map (·.read t)))
      (funext Event.skippedHeader?_ofReading)
  have hdocuments : ∀ docs, List.Forall₂ (Event.Tells c.matcher .documentation t) c.docs docs →
      docs.filterMap Event.skippedHeader? = [] := by
    intro docs hdocs
    rw [Event.forall₂_tells_iff.mp hdocs, List.filterMap_map, List.filterMap_eq_nil_iff]
    exact fun r _ => Event.skippedHeader?_ofReading_document r
  rcases h with ⟨hheads, -⟩ | ⟨hheads, -, -, hdocs, hrest⟩
  · exact hheaders _ hheads
  · rw [List.filterMap_append, hheaders _ hheads, List.filterMap_cons_none rfl,
      List.filterMap_append, hdocuments _ hdocs, skippedHeader?_of_documented hrest, List.append_nil,
      List.append_nil]

end Trail

end DocCoverage
