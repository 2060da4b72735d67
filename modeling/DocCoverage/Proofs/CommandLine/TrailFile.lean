import DocCoverage.Proofs.CommandLine.Frame
import DocCoverage.Proofs.CommandLine.Log
import DocCoverage.Proofs.Trail.Filter
import DocCoverage.Proofs.Trail.Line

/-!
# The file of the trail

The trail of a run starts with its settings, follows the course of the check, and ends with the
failure if there is one after the set-up.  The trail file gets the events of the trail in their order,
each on a line, but for those that its level does not let through.  A level that lets less through
only takes lines away.

    the events of a check are a trail with the causes of the check             (check_tracks)
    there is one such trail                                                   (Tracks.unique)
    the text in the trail file  =  the events that its filter shows          (withTrail_read)
    the lines of the trail file  =  the lines of the trail, filtered          (run_trailFile)
-/

namespace DocCoverage

namespace Run

/-- What the trail file gets, if the filter variable is not set. -/
def fileThreshold (s : Settings) : Threshold :=
  Filter.levelOr (s.trail.fileLevel.getD s.trail.level) (some .debug)

/-- The filter of the trail file. -/
def inFile (env : Environment) (s : Settings) : Filter :=
  .ofText ((env.get? filterVariable).getD "") (fileThreshold s)

/-- The text of the events that a filter shows. -/
def shown (f : Filter) (events : List Event) : String :=
  unlines ((events.filter f.shows).map Event.line)

/-- All events of a check. -/
def Check.trail (c : Check) : List Event :=
  c.events ++ c.lastEvents

/-- The trail of a check of some settings that comes to an end with some causes. -/
inductive Tracks (s : Settings) (t : FileTree) : List String → List Event → Prop
  | refused {refusal : Matcher.Refusal} {cause : String} {causes : List String}
      (h : s.checker = .error refusal) :
      Tracks s t (cause :: causes) [.ofConfig s.source, .aborted cause]
  | finished {c : Checker} {events : List Event} (h : s.checker = .ok c)
      (hcourse : Trail.Course c t events) : Tracks s t [] (.ofConfig s.source :: events)
  | unwritten {c : Checker} {events : List Event} {cause : String} {causes : List String}
      (h : s.checker = .ok c) (hcourse : Trail.Course c t events) :
      Tracks s t (cause :: causes) (.ofConfig s.source :: (events ++ [.aborted cause]))

/-- The lines of the events that a threshold lets through. -/
def linesOf (level : Threshold) (events : List Event) : List String :=
  (events.filter fun e => level.admits e.severity).map Event.line

/-- A file holds some lines, each with its line end, and nothing else. -/
def HoldsLines (t : FileTree) (file : Path) (lines : List String) : Prop :=
  ∃ text, t.read file = .ok text ∧
    text.toList.splitOn '\n' = lines.map String.toList ++ [[]]

/-! ## The events of a check -/

section
variable {w : Wording} {t : FileTree} {s : Settings} {c : Checker}
  {refuses : Stream → Option Fault}

theorem check_events (h : s.checker = .ok c) : (check w t s refuses).events = trail s t c := by
  simp only [check, h]
  split
  · rfl
  · rfl

theorem check_tracks (w : Wording) (t : FileTree) (s : Settings)
    (refuses : Stream → Option Fault) :
    Tracks s t (check w t s refuses).causes (check w t s refuses).trail := by
  cases h : s.checker with
  | error refusal =>
    have hcheck : check w t s refuses = ⟨[.ofConfig s.source], ⟨"", "", none⟩, 1,
        refusalCauses w s.stem refusal⟩ := by
      simp only [check, h]
    rw [hcheck]
    exact .refused h
  | ok c =>
    unfold Check.trail Check.lastEvents
    rw [check_events h]
    cases (check w t s refuses).causes with
    | nil =>
      rw [List.append_nil]
      exact .finished h (Trail.course_iff.mpr rfl)
    | cons cause causes => exact .unwritten h (Trail.course_iff.mpr rfl)

/-- The outermost cause of a check that fails. -/
theorem newline_not_mem_head_causes {cause : String}
    (h : (check w t s refuses).causes.head? = some cause) : '\n' ∉ cause.toList := by
  unfold check at h
  split at h
  · obtain rfl := Option.some.inj h
    decide +kernel
  · simp only at h
    split at h
    · obtain rfl := Option.some.inj h
      decide +kernel
    · cases h

end

/-! ## The trail -/

section
variable {s : Settings} {t : FileTree} {causes : List String} {events : List Event}

theorem severity_ofConfig (source : Option Path) : (Event.ofConfig source).severity = .debug := by
  cases source <;> rfl

/-- There is one such trail. -/
theorem Tracks.unique {events' : List Event} (h : Tracks s t causes events)
    (h' : Tracks s t causes events') : events = events' := by
  have hcourses : ∀ c c' es es', s.checker = .ok c → s.checker = .ok c' →
      Trail.Course c t es → Trail.Course c' t es' → es = es' := by
    intro c c' es es' hc hc' hes hes'
    obtain rfl := Except.ok.inj (hc.symm.trans hc')
    exact (Trail.course_iff.mp hes).trans (Trail.course_iff.mp hes').symm
  cases h with
  | refused h =>
    cases h' with
    | refused h' => rfl
    | unwritten h' _ => cases h.symm.trans h'
  | finished h hes =>
    cases h' with
    | finished h' hes' => rw [hcourses _ _ _ _ h h' hes hes']
  | unwritten h hes =>
    cases h' with
    | refused h' => cases h.symm.trans h'
    | unwritten h' hes' => rw [hcourses _ _ _ _ h h' hes hes']

/-- A trail ends with a failure exactly if there are causes. -/
theorem Tracks.causes_ne_nil_iff (h : Tracks s t causes events) :
    causes ≠ [] ↔ ∃ cause, events.getLast? = some (.aborted cause) := by
  cases h with
  | @refused _ cause _ h => exact iff_of_true (List.cons_ne_nil _ _) ⟨cause, rfl⟩
  | finished h hcourse =>
    refine iff_of_false (fun hne => hne rfl) ?_
    rintro ⟨cause, hlast⟩
    rcases List.mem_cons.mp (List.mem_of_getLast? hlast) with heq | hmem
    · have hseverity := severity_ofConfig s.source
      rw [← heq] at hseverity
      cases hseverity
    · cases Trail.severity_of_course hcourse _ hmem
  | @unwritten _ _ cause _ h hcourse =>
    refine iff_of_true (List.cons_ne_nil _ _) ⟨cause, ?_⟩
    rw [← List.cons_append, List.getLast?_concat]

/-- The headers that a trail skips are those that the outcome of its check warns about. -/
theorem Tracks.skippedHeader? {c : Checker} (h : Tracks s t causes events) (hc : s.checker = .ok c) :
    events.filterMap Event.skippedHeader? = (c.run t).warnings := by
  have hconfig : Event.skippedHeader? (.ofConfig s.source) = none := by
    cases s.source <;> rfl
  cases h with
  | refused h => cases h.symm.trans hc
  | finished h hcourse =>
    obtain rfl := Except.ok.inj (h.symm.trans hc)
    rw [List.filterMap_cons_none hconfig, Trail.skippedHeader?_of_course hcourse]
  | unwritten h hcourse =>
    obtain rfl := Except.ok.inj (h.symm.trans hc)
    rw [List.filterMap_cons_none hconfig, List.filterMap_append, Trail.skippedHeader?_of_course hcourse,
      List.filterMap_cons_none rfl, List.filterMap_nil, List.append_nil]

theorem location_mem_of_checker {c : Checker} (hc : s.checker = .ok c) {source : Source}
    (h : source ∈ c.headers ++ c.docs) : ∃ p ∈ s.headers ++ s.docs, source.location = p.text := by
  rw [Settings.checker_eq_map] at hc
  cases hm : Matcher.ofPrefix s.stem with
  | error refusal =>
    rw [hm] at hc
    cases hc
  | ok m =>
    rw [hm] at hc
    obtain rfl := Except.ok.inj hc
    have hmap : source ∈ (s.headers ++ s.docs).map Source.file := by
      rw [List.map_append]
      exact h
    obtain ⟨p, hp, rfl⟩ := List.mem_map.mp hmap
    exact ⟨p, hp, rfl⟩

/-- A trail whose paths are plain has each event on one line. -/
theorem Tracks.newline_not_mem_line (h : Tracks s t causes events)
    (hcause : ∀ cause, causes.head? = some cause → '\n' ∉ cause.toList)
    (hplain : ∀ p ∈ s.source.toList ++ (s.headers ++ s.docs), Text.IsPlain p.text) :
    ∀ e ∈ events, '\n' ∉ e.line.toList := by
  rw [List.forall_mem_append] at hplain
  have hconfig : '\n' ∉ (Event.ofConfig s.source).line.toList := by
    refine Event.newline_not_mem_line ?_
    cases hsource : s.source with
    | none => nofun
    | some config =>
      rw [hsource] at hplain
      exact List.forall_mem_singleton.mpr (hplain.1 config List.mem_cons_self).newline_not_mem
  have haborted : ∀ cause, '\n' ∉ cause.toList → '\n' ∉ (Event.aborted cause).line.toList :=
    fun cause h => Event.newline_not_mem_line (List.forall_mem_singleton.mpr h)
  have hcourse : ∀ c es, s.checker = .ok c → Trail.Course c t es → ∀ e ∈ es, '\n' ∉ e.line.toList := by
    intro c es hc hes
    refine Trail.newline_not_mem_line hes fun source hsource => ?_
    obtain ⟨p, hp, hlocation⟩ := location_mem_of_checker hc hsource
    rw [hlocation]
    exact (hplain.2 p hp).newline_not_mem
  cases h with
  | refused h =>
    exact List.forall_mem_cons.mpr
      ⟨hconfig, List.forall_mem_singleton.mpr (haborted _ (hcause _ rfl))⟩
  | finished h hes => exact List.forall_mem_cons.mpr ⟨hconfig, hcourse _ _ h hes⟩
  | unwritten h hes =>
    refine List.forall_mem_cons.mpr ⟨hconfig, List.forall_mem_append.mpr ⟨hcourse _ _ h hes, ?_⟩⟩
    exact List.forall_mem_singleton.mpr (haborted _ (hcause _ rfl))

end

/-! ## The file -/

theorem toList_unlines (ls : List String) :
    (unlines ls).toList = Text.endLines (ls.map String.toList) := by
  unfold unlines Text.endLines
  rw [String.toList_join, List.flatMap_map, List.flatMap_map]
  simp only [String.toList_append]
  rfl

/-- Lines without line feeds are the lines of the text that they make up. -/
theorem holdsLines_of_read {t : FileTree} {file : Path} {lines : List String}
    (h : t.read file = .ok (unlines lines)) (hplain : ∀ l ∈ lines, '\n' ∉ l.toList) :
    HoldsLines t file lines := by
  refine ⟨_, h, ?_⟩
  rw [toList_unlines]
  exact Text.splitOn_endLines_self (List.forall_mem_map.mpr hplain)

/-- Without filter directives the level decides what is shown. -/
theorem shown_of_level {text : String} (h : Filter.parts text = []) (level : Threshold)
    (events : List Event) : shown (.ofText text level) events = unlines (linesOf level events) := by
  have hshows : (Filter.ofText text level).shows = fun e => level.admits e.severity :=
    funext fun e => Filter.shows_of_no_part level e h
  unfold shown linesOf
  rw [hshows]

section
variable (w : Wording) {t t' : FileTree} (env : Environment) {s : Settings} {file : Path}
  (refuses : Stream → Option Fault)

/-- After its file is opened, a run writes there what the filter of the file shows of the trail. -/
theorem withTrail_tree (hfile : s.trail.file = some file) (h : openTrail t file = (t', .ok ())) :
    (withTrail w t env s refuses).tree =
      t'.write file (shown (inFile env s) (check w t' s refuses).trail) := by
  unfold withTrail
  simp only [hfile, h]
  rfl

theorem withTrail_read (hfile : s.trail.file = some file) (h : openTrail t file = (t', .ok ())) :
    (withTrail w t env s refuses).tree.read file =
      .ok (shown (inFile env s) (check w t' s refuses).trail) := by
  obtain ⟨t₀, -, ⟨causes, hopen⟩ | ⟨q, -, hopen, hfind⟩⟩ := openTrail_cases t file
  · cases h.symm.trans hopen
  · obtain rfl : t' = t₀.put q (.file .empty) := congrArg Prod.fst (h.symm.trans hopen)
    have hempty : (t₀.put q (.file .empty)).read file = .ok "" := by
      unfold FileTree.read
      rw [hfind]
      rfl
    rw [withTrail_tree w env refuses hfile h]
    exact FileTree.read_write_self hempty _

/-- The lines of a level that lets less through are among those of the other level. -/
theorem linesOf_sublist {level level' : Threshold} (events : List Event)
    (h : ∀ severity, level'.admits severity = true → level.admits severity = true) :
    (linesOf level' events).Sublist (linesOf level events) :=
  (List.monotone_filter_right events fun e => h e.severity).map Event.line

end

end Run

open Run

/-- The trail file mirrors the run.  If the file could be opened and no filter is set, it holds, in
their order and each on a line, the events of the trail that its level lets through.  The trail starts
with the settings and follows the course of the check in the tree that the set-up left.  It ends with
a failure exactly if the run ends with a chain of causes, and if it is the matcher that cannot be
built, nothing stands in between.  The headers that it skips are those that the outcome warns about.
Other levels leave the trail as it is, and a level that lets less through only takes lines away. -/
theorem run_trailFile (w : Wording) (t : FileTree) (env : Environment) (args : List String)
    (refuses : Stream → Option Fault) {s : Settings} {file : Path} {t' : FileTree}
    (hloads : Loads t env args s)
    (hfile : s.trail.file = some file) (hopen : openTrail t file = (t', .ok ()))
    (hunset : env.get? filterVariable = none)
    (hplain : ∀ p ∈ s.source.toList ++ (s.headers ++ s.docs), Text.IsPlain p.text) :
    ∃ events, Tracks s t' (run w t env args refuses).causes events ∧
      (∀ c, s.checker = .ok c →
        events.filterMap Event.skippedHeader? = (c.run t').warnings) ∧
      ((run w t env args refuses).causes ≠ [] ↔ ∃ cause, events.getLast? = some (.aborted cause)) ∧
      HoldsLines (run w t env args refuses).tree file (linesOf (fileThreshold s) events) ∧
      ∀ s', s.Releveled s' →
        (∀ severity, (fileThreshold s').admits severity = true →
          (fileThreshold s).admits severity = true) →
        ∃ lines, HoldsLines (withTrail w t env s' refuses).tree file lines ∧
          lines.Sublist (linesOf (fileThreshold s) events) := by
  have hset : setUp t s = (t', .ok ()) := by
    simp only [setUp, hfile, hopen]
  have htracks := check_tracks w t' s refuses
  have hlines := htracks.newline_not_mem_line (fun _ => newline_not_mem_head_causes) hplain
  have hholds : ∀ s', s.Releveled s' → HoldsLines (withTrail w t env s' refuses).tree file
      (linesOf (fileThreshold s') (check w t' s refuses).trail) := by
    intro s' hs
    refine holdsLines_of_read ?_ ?_
    · rw [withTrail_read w env refuses (hs.file.symm.trans hfile) hopen, inFile, hunset,
        ← check_releveled hs (fun _ _ => rfl)]
      exact congrArg Except.ok (shown_of_level rfl _ _)
    · intro l hl
      obtain ⟨e, he, rfl⟩ := List.mem_map.mp hl
      exact hlines e (List.mem_of_mem_filter he)
  rw [run_eq_withTrail w refuses hloads, (withTrail_shows w env refuses hset).causes]
  refine ⟨(check w t' s refuses).trail, htracks, fun c hc => htracks.skippedHeader? hc,
    htracks.causes_ne_nil_iff, hholds s ⟨rfl, rfl, rfl, rfl, rfl, rfl⟩, fun s' hs hless => ?_⟩
  exact ⟨_, hholds s' hs, linesOf_sublist _ hless⟩

/-- A project with a header that is not there, whose trail file has a level that is none. -/
def tracedTree : FileTree :=
  (((FileTree.bare ["w"]).plant ⟨"helper-docs.toml"⟩ (.file ("version = 1\n" ++
    "header_sources = [\"a.h\", \"gone.h\"]\ndoc_sources = [\"d.md\"]\n" ++
    "[logging]\nfile_level = \"loud\"\nfile = \"run.txt\"").toUTF8)).plant
    ⟨"a.h"⟩ (.file "__ternary_a(".toUTF8)).plant ⟨"d.md"⟩ (.file "Use `__ternary_a`.".toUTF8)

def tracedSettings : Settings :=
  ⟨⟨"."⟩, some ⟨"./helper-docs.toml"⟩, Settings.defaultStem, [⟨"./a.h"⟩, ⟨"./gone.h"⟩],
    [⟨"./d.md"⟩], ⟨"info", some "loud", some ⟨"./run.txt"⟩⟩⟩

/-- Standard output takes nothing. -/
def outIsFull : Stream → Option Fault
  | .out => some .noSpace
  | .err => none

/-- The trail of its run, when standard output takes nothing. -/
def tracedEvents : List Event :=
  [.loaded ⟨"./helper-docs.toml"⟩, .scanned "./a.h" 1 .header, .skipped (.missing "./gone.h") .header,
    .declared 1, .scanned "./d.md" 1 .documentation, .documented 1,
    .aborted "failed to write report"]

/-- The trail file gets all of it. -/
theorem run_trailFile_tracedTree :
    Tracks tracedSettings (openTrail tracedTree ⟨"./run.txt"⟩).1
        (run sampleWording tracedTree [] [] outIsFull).causes tracedEvents ∧
      HoldsLines (run sampleWording tracedTree [] [] outIsFull).tree ⟨"./run.txt"⟩
        (tracedEvents.map Event.line) := by
  have hloads : Loads tracedTree [] [] tracedSettings := ⟨⟨"."⟩, none, rfl, by decide +kernel⟩
  have hopen : openTrail tracedTree ⟨"./run.txt"⟩ =
      ((openTrail tracedTree ⟨"./run.txt"⟩).1, .ok ()) :=
    Prod.ext rfl (by decide +kernel)
  have hplain : ∀ p ∈ tracedSettings.source.toList ++ (tracedSettings.headers ++
      tracedSettings.docs), Text.IsPlain p.text := by decide +kernel
  obtain ⟨events, htracks, -, -, hholds, -⟩ := run_trailFile sampleWording tracedTree [] [] outIsFull
    hloads rfl hopen rfl hplain
  have hevents : (check sampleWording (openTrail tracedTree ⟨"./run.txt"⟩).1 tracedSettings
      outIsFull).trail = tracedEvents := by decide +kernel
  have hcauses : (run sampleWording tracedTree [] [] outIsFull).causes =
      (check sampleWording (openTrail tracedTree ⟨"./run.txt"⟩).1 tracedSettings
        outIsFull).causes := by
    decide +kernel
  have hcheck := check_tracks sampleWording (openTrail tracedTree ⟨"./run.txt"⟩).1 tracedSettings
    outIsFull
  rw [hevents, ← hcauses] at hcheck
  have hall : tracedEvents.filter (fun e => (fileThreshold tracedSettings).admits e.severity) =
      tracedEvents := by decide +kernel
  rw [htracks.unique hcheck, linesOf, hall] at hholds
  exact ⟨hcheck, hholds⟩

end DocCoverage
