import DocCoverage.CommandLine.Run
import DocCoverage.Proofs.Coverage.Verdict
import DocCoverage.Proofs.Report.Refusal

/-!
# How a run ends

A run goes through stages that may fail: loading the settings, setting up the trail, building the
matcher, and writing the report.  A failure leads to a chain of causes; otherwise the outcome of the
check decides.  A run ends with 0 only if every stage succeeds and the check passes.

    a run that is asked for a check fails at one stage, or is ready for the check    (run_cases)
    after the set-up of the trail it shows what the check comes to             (withTrail_shows)
    exit code 0  ↔  ready, the check passes, and standard output takes its line
    a chain of causes  ↔  some stage fails
    no stage fails  →  exit code and error stream are those of the outcome, but for the log
-/

namespace DocCoverage

namespace Run

/-! ## Stages -/

/-- Opens the trail file of some settings, if they name one. -/
def setUp (t : FileTree) (s : Settings) : FileTree × Except (List String) Unit :=
  match s.trail.file with
  | none => (t, .ok ())
  | some file => openTrail t file

/-- The trail of a check before its report. -/
def trail (s : Settings) (t : FileTree) (c : Checker) : List Event :=
  .ofConfig s.source ::
    Trail.ofReadings c.matcher (c.headers.map (·.read t)) (c.docs.map (·.read t))

/-- What writing the report of an outcome comes to. -/
def written (refuses : Stream → Option Fault) (o : Outcome) : Report.Delivery :=
  Report.deliver (fun st => (refuses st).isSome) (Report.lines o)

/-- The notices about the filter directives of the environment. -/
def notices (env : Environment) : List String :=
  Filter.notices ((env.get? filterVariable).getD "")

/-- The filter of the error stream. -/
def screen (env : Environment) (s : Settings) : Filter :=
  .ofText ((env.get? filterVariable).getD "") (Filter.levelOr s.trail.level (some .info))

/-- A text that shows nothing but notices about the filter and, after them, events of a trail in
their order. -/
def IsLog (env : Environment) (events : List Event) (text : String) : Prop :=
  ∃ (ns : List String) (shown : List Event), (∀ n ∈ ns, n ∈ notices env) ∧
    shown.Sublist events ∧ text = unlines (ns ++ shown.map Event.line)

/-- What comes of a check that some stage before it has prevented. -/
def prevented (causes : List String) : Check :=
  ⟨[], ⟨"", "", none⟩, 1, causes⟩

/-- An ending shows what a check came to.  On the error stream, unless that has a fault, a log stands
in front of the report, and at most the events at the end of a check that fails stand after it. -/
structure Shows (env : Environment) (fault? : Option Fault) (c : Check) (e : Ending) : Prop where
  exitCode : e.exitCode = c.exitCode
  stdout : e.stdout = c.report.out
  causes : e.causes = c.causes
  stderr : ∃ log shown, IsLog env c.events log ∧ List.Sublist shown c.lastEvents ∧
    e.stderr = taken fault? (log ++ c.report.err ++ unlines (shown.map Event.line))

section

variable (t : FileTree) (env : Environment) (config : Option Path) (root : Path)

/-- All stages before the check succeed: `s` are the settings, `t'` is the tree that the set-up of the
trail leaves, and `c` is the checker. -/
structure Ready (s : Settings) (t' : FileTree) (c : Checker) : Prop where
  load : Settings.load t env config root = .ok s
  setUp : Run.setUp t s = (t', .ok ())
  checker : s.checker = .ok c

/-- Some stage fails. -/
inductive Fails (refuses : Stream → Option Fault) : Prop
  | load {e : LoadError} (h : Settings.load t env config root = .error e)
  | setUp {s : Settings} {t' : FileTree} {causes : List String}
      (hload : Settings.load t env config root = .ok s)
      (h : Run.setUp t s = (t', .error causes))
  | matcher {s : Settings} {t' : FileTree} {refusal : Matcher.Refusal}
      (hload : Settings.load t env config root = .ok s)
      (hsetUp : Run.setUp t s = (t', .ok ()))
      (h : s.checker = .error refusal)
  | report {s : Settings} {t' : FileTree} {c : Checker} {stream : Stream}
      (hready : Ready t env config root s t' c)
      (h : (written refuses (c.run t')).refused = some stream)

end

section

variable {t t' : FileTree} {env : Environment} {config : Option Path} {root : Path}
  {s s' : Settings} {c c' : Checker} {refuses : Stream → Option Fault}

theorem Ready.unique {t'' : FileTree} (h : Ready t env config root s t' c)
    (h' : Ready t env config root s' t'' c') : s = s' ∧ t' = t'' ∧ c = c' := by
  obtain rfl : s = s' := Except.ok.inj (h.load.symm.trans h'.load)
  have hset := h.setUp.symm.trans h'.setUp
  exact ⟨rfl, congrArg Prod.fst hset, Except.ok.inj (h.checker.symm.trans h'.checker)⟩

/-- A run that is ready fails only at its report. -/
theorem Ready.fails_iff (h : Ready t env config root s t' c) :
    Fails t env config root refuses ↔ (written refuses (c.run t')).refused ≠ none := by
  constructor
  · rintro (hload | ⟨hload, hset⟩ | ⟨hload, hset, hrefusal⟩ | ⟨hready, hrefused⟩)
    · rw [h.load] at hload
      cases hload
    · obtain rfl := Except.ok.inj (h.load.symm.trans hload)
      rw [h.setUp] at hset
      cases hset
    · obtain rfl := Except.ok.inj (h.load.symm.trans hload)
      rw [h.checker] at hrefusal
      cases hrefusal
    · obtain ⟨rfl, rfl, rfl⟩ := h.unique hready
      rw [hrefused]
      exact Option.some_ne_none _
  · intro hne
    obtain ⟨stream, hstream⟩ := Option.ne_none_iff_exists'.mp hne
    exact .report h hstream

end

/-! ## The report -/

section

variable {refuses : Stream → Option Fault} {o : Outcome}

/-- An error stream that takes its text leaves the report of a check that passes to standard output,
and no other report needs that. -/
theorem refused_eq_none_iff (herr : refuses .err = none) :
    (written refuses o).refused = none ↔ (o.isSuccess = true → refuses .out = none) := by
  unfold written
  rw [Report.refused_eq_none_iff]
  cases hs : o.isSuccess with
  | false =>
    refine iff_of_true (fun l hl => ?_) nofun
    rw [Report.stream_of_mem_lines hs hl, herr]
    rfl
  | true =>
    have hwarnings : ∀ l ∈ o.warnings.map fun e => (Stream.err, Report.warning e),
        (refuses l.1).isSome = false := by
      intro l hl
      rw [Report.stream_of_mem_warnings hl, herr]
      rfl
    rw [Report.lines_of_isSuccess hs, List.forall_mem_append, List.forall_mem_singleton,
      Option.isSome_eq_false_iff, Option.isNone_iff_eq_none]
    exact ⟨fun h _ => h.2, fun h => ⟨hwarnings, h rfl⟩⟩

/-- The error stream gets all its lines of a report that is not refused. -/
theorem err_of_refused_eq_none (h : (written refuses o).refused = none) :
    (written refuses o).err = Report.text .err (Report.lines o) :=
  congrArg Report.Delivery.err (Report.deliver_of_refused_eq_none h)

/-- Of a report that is not refused, standard output gets the line of a check that passes. -/
theorem out_of_refused_eq_none (h : (written refuses o).refused = none) :
    (written refuses o).out = if o.isSuccess = true then Report.success ++ "\n" else "" := by
  rw [written, Report.deliver_of_refused_eq_none h]
  cases hs : o.isSuccess with
  | true => exact Report.text_out_of_isSuccess hs
  | false => exact Report.text_out_eq_empty fun l hl => Report.stream_of_mem_lines hs hl

end

/-! ## The check -/

section

variable {w : Wording} {t : FileTree} {s : Settings} {c : Checker}
  {refuses : Stream → Option Fault}

theorem check_of_refusal {refusal : Matcher.Refusal} (h : s.checker = .error refusal) :
    (check w t s refuses).exitCode = 1 ∧ (check w t s refuses).report.out = "" ∧
      (check w t s refuses).causes ≠ [] := by
  simp [check, h, refusalCauses]

/-- The outcome decides about a check whose report is not refused. -/
theorem check_of_delivered (h : s.checker = .ok c)
    (hr : (written refuses (c.run t)).refused = none) :
    check w t s refuses = ⟨trail s t c, written refuses (c.run t), (c.run t).exitCode, []⟩ := by
  have hr' : (Report.deliver (fun st => (refuses st).isSome)
      (Report.lines (c.run t))).refused = none := hr
  simp only [check, h, hr', Option.bind_none]
  rfl

theorem check_of_refused (h : s.checker = .ok c)
    (hr : (written refuses (c.run t)).refused ≠ none) :
    (check w t s refuses).exitCode = 1 ∧ (check w t s refuses).report.out = "" ∧
      (check w t s refuses).causes ≠ [] := by
  obtain ⟨stream, hstream⟩ := Option.ne_none_iff_exists'.mp hr
  obtain ⟨fault, hfault⟩ : ∃ fault, refuses stream = some fault := by
    rw [← Option.ne_none_iff_exists']
    intro hnone
    exact Report.refused_of_accepted (congrArg Option.isSome hnone) hstream rfl
  have hrefused : (Report.deliver (fun st => (refuses st).isSome)
      (Report.lines (c.run t))).refused.bind refuses = some fault := by
    rw [show (Report.deliver _ _).refused = some stream from hstream, Option.bind_some, hfault]
  simp only [check, h, hrefused]
  exact ⟨trivial, Report.out_of_refused_ne_none hr, List.cons_ne_nil _ _⟩

end

/-! ## The trail -/

section

variable (w : Wording) {t t' : FileTree} (env : Environment) {s : Settings}
  (refuses : Stream → Option Fault)

theorem causes_ne_nil_of_setUp {causes : List String} (h : setUp t s = (t', .error causes)) :
    causes ≠ [] := by
  unfold setUp at h
  split at h
  · cases h
  · unfold openTrail at h
    split at h
    · cases h
      exact List.cons_ne_nil _ _
    · split at h
      · cases h
        exact List.cons_ne_nil _ _
      · cases h

theorem unlines_append (ls ls' : List String) : unlines (ls ++ ls') = unlines ls ++ unlines ls' := by
  apply String.toList_injective
  simp [unlines, String.toList_join, String.toList_append]

/-- Notices and some of the events make up a log. -/
theorem isLog_append (ns : List String) (events : List Event) (f : Event → Bool)
    (h : ∀ n ∈ ns, n ∈ notices env) :
    IsLog env events (unlines ns ++ unlines ((events.filter f).map Event.line)) :=
  ⟨ns, events.filter f, h, List.filter_sublist, (unlines_append _ _).symm⟩

theorem withTrail_shows_prevented {causes : List String} (h : setUp t s = (t', .error causes)) :
    Shows env (refuses .err) (prevented causes) (withTrail w t env s refuses) := by
  unfold setUp at h
  unfold withTrail
  cases hfile : s.trail.file with
  | none => simp [hfile] at h
  | some file =>
    rw [hfile] at h
    simp only at h
    simp only [h]
    refine ⟨rfl, rfl, rfl, unlines (notices env), [], ?_, List.nil_sublist _, ?_⟩
    · exact ⟨notices env, [], fun n hn => hn, List.nil_sublist _, by simp⟩
    · show _ = taken _ (unlines (notices env) ++ "" ++ "")
      rw [String.append_empty, String.append_empty]
      rfl

/-- After the set-up of the trail the run shows what the check comes to. -/
theorem withTrail_shows (h : setUp t s = (t', .ok ())) :
    Shows env (refuses .err) (check w t' s refuses) (withTrail w t env s refuses) := by
  unfold setUp at h
  unfold withTrail
  cases hfile : s.trail.file with
  | none =>
    rw [hfile] at h
    obtain rfl : t = t' := congrArg Prod.fst h
    exact ⟨rfl, rfl, rfl, _, (check w t s refuses).lastEvents.filter (screen env s).shows,
      isLog_append env (notices env) _ (screen env s).shows fun n hn => hn, List.filter_sublist,
      rfl⟩
  | some file =>
    rw [hfile] at h
    simp only at h
    simp only [h]
    refine ⟨rfl, rfl, rfl, _, (check w t' s refuses).lastEvents.filter (screen env s).shows,
      isLog_append env (notices env ++ notices env) _ (screen env s).shows ?_, List.filter_sublist, ?_⟩
    · -- each of the two filters gives its notices
      intro n hn
      exact (List.mem_append.mp hn).elim id id
    · rw [unlines_append]
      rfl

/-- If nothing failed, the error stream ends with the report. -/
theorem Shows.stderr_of_causes {env : Environment} {fault? : Option Fault} {c : Check} {e : Ending}
    (h : Shows env fault? c e) (hcauses : c.causes = []) :
    ∃ log, IsLog env c.events log ∧ e.stderr = taken fault? (log ++ c.report.err) := by
  obtain ⟨log, shown, hlog, hshown, hstderr⟩ := h.stderr
  have hlast : c.lastEvents = [] := by simp [Check.lastEvents, hcauses]
  rw [hlast, List.sublist_nil] at hshown
  subst hshown
  exact ⟨log, hlog, hstderr.trans (congrArg _ String.append_empty)⟩

end

end Run

/-! ## The ends of a run -/

section

open Run

variable (w : Wording) (t : FileTree) (env : Environment) (refuses : Stream → Option Fault)
  {args : List String} {config : Option Path} {root : Path}

/-- A run that is asked for a check fails at one of its stages, with exit code 1 and a chain of
causes, or its outcome decides. -/
theorem run_cases (hargs : Arguments.read args = .ok (.check root config)) :
    (Fails t env config root refuses ∧ (run w t env args refuses).exitCode = 1 ∧
      (run w t env args refuses).stdout = "" ∧ (run w t env args refuses).causes ≠ []) ∨
    (∃ s t' c, Ready t env config root s t' c ∧ (written refuses (c.run t')).refused = none ∧
      (run w t env args refuses).exitCode = (c.run t').exitCode ∧
      (run w t env args refuses).stdout = (written refuses (c.run t')).out ∧
      (run w t env args refuses).causes = [] ∧
      ∃ log, IsLog env (trail s t' c) log ∧ (run w t env args refuses).stderr =
        taken (refuses .err) (log ++ (written refuses (c.run t')).err)) := by
  cases hload : Settings.load t env config root with
  | error e =>
    have hrun : run w t env args refuses = ⟨1, "", "", loadCauses (w.ofFile t) e, t⟩ := by
      simp only [run, hargs, hload]
    rw [hrun]
    exact .inl ⟨.load hload, rfl, rfl, List.cons_ne_nil _ _⟩
  | ok s =>
    have hrun : run w t env args refuses = withTrail w t env s refuses := by
      simp only [run, hargs, hload]
    rw [hrun]
    rcases hset : setUp t s with ⟨t', causes | ⟨⟩⟩
    · have hshows := withTrail_shows_prevented w env refuses hset
      refine .inl ⟨.setUp hload hset, hshows.exitCode, hshows.stdout, ?_⟩
      rw [hshows.causes]
      exact causes_ne_nil_of_setUp hset
    · have hshows := withTrail_shows w env refuses hset
      rw [hshows.exitCode, hshows.stdout, hshows.causes]
      cases hchecker : s.checker with
      | error refusal =>
        exact .inl ⟨.matcher hload hset hchecker, check_of_refusal hchecker⟩
      | ok c =>
        have hready : Ready t env config root s t' c := ⟨hload, hset, hchecker⟩
        by_cases hr : (written refuses (c.run t')).refused = none
        · rw [check_of_delivered hchecker hr] at hshows ⊢
          exact .inr ⟨s, t', c, hready, hr, rfl, rfl, rfl, hshows.stderr_of_causes rfl⟩
        · exact .inl ⟨hready.fails_iff.mpr hr, check_of_refused hchecker hr⟩

theorem Outcome.exitCode_eq (o : Outcome) :
    (o.isSuccess = true ∧ o.exitCode = 0) ∨ (o.isSuccess = false ∧ o.exitCode = 1) := by
  unfold exitCode
  cases h : o.isSuccess with
  | true => exact .inl ⟨rfl, rfl⟩
  | false => exact .inr ⟨rfl, rfl⟩

/-- What a run that is asked for a check comes to, if the error stream takes its text.  It ends with 0
exactly when the settings load, the trail is set up, the matcher is built, the check passes on the
tree as set-up left it, and standard output takes the line of success; then it holds that line, and
otherwise it is empty and the exit code is 1.  A chain of causes is there exactly when some stage
fails, and when none does, exit code and error stream are those of the outcome, with the log in front.
-/
theorem run_verdict (hargs : Arguments.read args = .ok (.check root config))
    (herr : refuses .err = none) :
    ((run w t env args refuses).exitCode = 0 ↔ ∃ s t' c, Ready t env config root s t' c ∧
      (c.run t').isSuccess = true ∧ refuses .out = none) ∧
    ((run w t env args refuses).exitCode = 0 →
      (run w t env args refuses).stdout = Report.success ++ "\n") ∧
    ((run w t env args refuses).exitCode ≠ 0 →
      (run w t env args refuses).exitCode = 1 ∧ (run w t env args refuses).stdout = "") ∧
    ((run w t env args refuses).causes ≠ [] ↔ Fails t env config root refuses) ∧
    (¬ Fails t env config root refuses → ∃ s t' c, Ready t env config root s t' c ∧
      (run w t env args refuses).exitCode = (c.run t').exitCode ∧
      ∃ log, IsLog env (trail s t' c) log ∧ (run w t env args refuses).stderr =
        log ++ Report.text .err (Report.lines (c.run t'))) := by
  rcases run_cases w t env refuses hargs with
    ⟨hfails, hcode, hout, hcauses⟩ | ⟨s, t', c, hready, hr, hcode, hout, hcauses, hlog⟩
  · refine ⟨?_, ?_, ?_, iff_of_true hcauses hfails, fun h => absurd hfails h⟩
    · rw [hcode]
      refine iff_of_false (by decide) ?_
      rintro ⟨s, t', c, hready, -, htaken⟩
      exact hready.fails_iff.mp hfails ((refused_eq_none_iff herr).mpr fun _ => htaken)
    · rw [hcode]
      intro h
      cases h
    · intro _
      exact ⟨hcode, hout⟩
  · have hok := (refused_eq_none_iff herr).mp hr
    have hfails : ¬ Fails t env config root refuses := fun h => hready.fails_iff.mp h hr
    rw [out_of_refused_eq_none hr] at hout
    refine ⟨?_, ?_, ?_, iff_of_false (fun h => h hcauses) hfails, fun _ => ?_⟩
    · rcases (c.run t').exitCode_eq with ⟨hs, he⟩ | ⟨hs, he⟩
      · exact iff_of_true (hcode.trans he) ⟨s, t', c, hready, hs, hok hs⟩
      · rw [hcode, he]
        refine iff_of_false (by decide) ?_
        rintro ⟨s', t'', c', hready', hs', -⟩
        obtain ⟨-, rfl, rfl⟩ := hready.unique hready'
        rw [hs] at hs'
        cases hs'
    · intro hzero
      rcases (c.run t').exitCode_eq with ⟨hs, -⟩ | ⟨-, he⟩
      · rw [hout, if_pos hs]
      · rw [hcode, he] at hzero
        cases hzero
    · intro hne
      rcases (c.run t').exitCode_eq with ⟨-, he⟩ | ⟨hs, he⟩
      · exact absurd (hcode.trans he) hne
      · refine ⟨hcode.trans he, ?_⟩
        rw [hout, if_neg (by simp [hs])]
    · simp only [err_of_refused_eq_none hr, herr, taken_none] at hlog
      exact ⟨s, t', c, hready, hcode, hlog⟩

end

def sampleWording : Wording :=
  ⟨fun _ => "expected newline", fun _ => "pattern exceeds the size limit"⟩

/-- A project with one of the two headers and one of the two documents of the built-in layout. -/
def sampleTree : FileTree where
  node q :=
    if q = [] ∨ q = ["include"] then some .directory
    else if q = ["include", "ternary_helpers.h"] then
      some (.file "int __ternary_add(int a, int b);\n".toUTF8)
    else if q = ["README.md"] then some (.file "Use `__ternary_add`.\n".toUTF8)
    else none
  workingDir := []

/-- Without arguments the project passes, despite the header and the document that it lacks. -/
theorem run_sampleTree :
    Arguments.read [] = .ok (.check ⟨"."⟩ none) ∧
      (run sampleWording sampleTree [] [] fun _ => none).exitCode = 0 ∧
      (run sampleWording sampleTree [] [] fun _ => none).stdout =
        "helper documentation matches headers\n" := by
  have hargs : Arguments.read [] = .ok (.check ⟨"."⟩ none) := rfl
  obtain ⟨hzero, hout, -⟩ := run_verdict sampleWording sampleTree [] (fun _ => none) hargs rfl
  have hready : Run.Ready sampleTree [] none ⟨"."⟩ (.builtIn ⟨"."⟩) sampleTree
      ⟨⟨Settings.defaultStem.toList, by decide⟩,
        (Settings.under ⟨"."⟩ Settings.defaultHeaders).map .file,
        (Settings.under ⟨"."⟩ Settings.defaultDocs).map .file⟩ :=
    ⟨by decide +kernel, rfl, rfl⟩
  have hcode := hzero.mpr ⟨_, _, _, hready, by decide +kernel, rfl⟩
  exact ⟨hargs, hcode, hout hcode⟩

end DocCoverage
