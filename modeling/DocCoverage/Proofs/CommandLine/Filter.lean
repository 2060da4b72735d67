import DocCoverage.Proofs.CommandLine.TrailFile

/-!
# Filter directives about others

Directives about other programs take the place of the configured levels all the same: nothing of the
trail is shown any more, on the error stream or in the trail file.  So they leave a run as it is
exactly if the levels hide its trail anyway.

    no directive  →  the same as without the variable                       (withTrail_of_no_part)
    directives about others  →  the same if the levels hide the trail      (withTrail_foreign_iff)
    both runs agree  ↔  no directive, or the levels hide the trail               (run_foreign_iff)
-/

namespace DocCoverage

namespace Run

/-- What the error stream gets of a trail, if the filter variable is not set. -/
def screenThreshold (s : Settings) : Threshold :=
  Filter.levelOr s.trail.level (some .info)

/-- A threshold lets nothing of a check through: no event on the way, and no failure at the end. -/
structure Hides (level : Threshold) (c : Check) : Prop where
  debug : level.admits .debug = false
  error : c.causes ≠ [] → level.admits .error = false

/-! ## What is shown -/

theorem Tracks.forall_severity_iff {s : Settings} {t : FileTree} {causes : List String}
    {events : List Event} (h : Tracks s t causes events) (p : Severity → Prop) :
    (∀ e ∈ events, p e.severity) ↔ p .debug ∧ (causes ≠ [] → p .error) := by
  have hcourse : ∀ c es, Trail.Course c t es → p .debug → ∀ e ∈ es, p e.severity := by
    intro c es hes hp e he
    rw [Trail.severity_of_course hes e he]
    exact hp
  cases h with
  | refused h =>
    rw [List.forall_mem_cons, List.forall_mem_singleton, severity_ofConfig]
    exact and_congr_right fun _ => ⟨fun hp _ => hp, fun hp => hp (List.cons_ne_nil _ _)⟩
  | finished h hes =>
    rw [List.forall_mem_cons, severity_ofConfig]
    exact and_congr_right fun hp => iff_of_true (hcourse _ _ hes hp) fun hne => absurd rfl hne
  | unwritten h hes =>
    rw [List.forall_mem_cons, List.forall_mem_append, List.forall_mem_singleton, severity_ofConfig]
    exact and_congr_right fun hp =>
      ⟨fun hrest _ => hrest.2, fun herror => ⟨hcourse _ _ hes hp, herror (List.cons_ne_nil _ _)⟩⟩

theorem hides_iff (level : Threshold) (w : Wording) (t : FileTree) (s : Settings)
    (refuses : Stream → Option Fault) :
    Hides level (check w t s refuses) ↔
      ∀ e ∈ (check w t s refuses).trail, level.admits e.severity = false := by
  rw [(check_tracks w t s refuses).forall_severity_iff fun severity => level.admits severity = false]
  exact ⟨fun h => ⟨h.debug, h.error⟩, fun h => ⟨h.1, h.2⟩⟩

/-- Each event that is shown leaves a text that is not empty. -/
theorem shown_eq_empty_iff {f : Filter} {events : List Event} :
    shown f events = "" ↔ ∀ e ∈ events, f.shows e = false := by
  have hempty : shown f events = "" ↔ events.filter f.shows = [] := by
    rw [← String.toList_eq_nil_iff, shown, toList_unlines, Text.endLines, List.flatMap_eq_nil_iff]
    constructor
    · intro h
      rw [List.eq_nil_iff_forall_not_mem]
      intro e he
      have hline := h _ (List.mem_map_of_mem (List.mem_map_of_mem he))
      exact List.cons_ne_nil _ _ (List.append_eq_nil_iff.mp hline).2
    · intro h l hl
      rw [h] at hl
      exact absurd hl List.not_mem_nil
  simp only [hempty, List.filter_eq_nil_iff, Bool.not_eq_true]

/-! ## Two runs -/

theorem append_append_eq_self_iff {a b c : String} : a ++ b ++ c = b ↔ a = "" ∧ c = "" := by
  constructor
  · intro h
    have hlength := congrArg String.length h
    rw [String.length_append, String.length_append] at hlength
    exact ⟨String.length_eq_zero_iff.mp (by omega), String.length_eq_zero_iff.mp (by omega)⟩
  · rintro ⟨rfl, rfl⟩
    rw [String.empty_append, String.append_empty]

/-- A stream shows which of two texts it got unless it has a fault. -/
theorem taken_eq_taken_iff {fault? : Option Fault} {text text' : String} :
    taken fault? text = taken fault? text' ↔ (fault? = none → text = text') := by
  cases fault? with
  | none => exact ⟨fun h _ => h, fun h => h rfl⟩
  | some fault => exact iff_of_true rfl nofun

section
variable (w : Wording) {t t' : FileTree} {env : Environment} {s : Settings} {file : Path}
  (refuses : Stream → Option Fault)

/-- Without notices about the filter, the error stream has the events that are shown around the
report. -/
theorem withTrail_stderr (h : setUp t s = (t', .ok ())) (hnotices : notices env = []) :
    (withTrail w t env s refuses).stderr = taken (refuses .err)
      (shown (screen env s) (check w t' s refuses).events ++ (check w t' s refuses).report.err ++
        shown (screen env s) (check w t' s refuses).lastEvents) := by
  have hempty : unlines (Filter.notices ((env.get? filterVariable).getD "")) = "" := by
    show unlines (notices env) = ""
    rw [hnotices]
    rfl
  unfold setUp at h
  unfold withTrail
  cases hfile : s.trail.file with
  | none =>
    rw [hfile] at h
    obtain rfl : t = t' := congrArg Prod.fst h
    simp only [hempty, String.empty_append]
    rfl
  | some file =>
    rw [hfile] at h
    simp only at h
    simp only [h, hempty, String.empty_append]
    rfl

variable {env' : Environment} {text : String}

/-- Directives about others show nothing, so they leave a run as it is if the levels let nothing of
its trail through. -/
theorem withTrail_foreign_iff (h : setUp t s = (t', .ok ()))
    (hunset : env.get? filterVariable = none) (hset : env'.get? filterVariable = some text)
    (hforeign : Filter.IsForeign text) (hpart : Filter.parts text ≠ []) :
    (withTrail w t env s refuses).stderr = (withTrail w t env' s refuses).stderr ∧
        (withTrail w t env s refuses).tree = (withTrail w t env' s refuses).tree ↔
      (refuses .err = none → Hides (screenThreshold s) (check w t' s refuses)) ∧
        (s.trail.file ≠ none → Hides (fileThreshold s) (check w t' s refuses)) := by
  have hshows : ∀ level (e : Event), (Filter.ofText "" level).shows e = level.admits e.severity :=
    fun level e => Filter.shows_of_no_part level e rfl
  have hnothing : ∀ level events, shown (.ofText text level) events = "" := fun level events =>
    shown_eq_empty_iff.mpr fun e _ => Filter.shows_of_foreign level e hforeign hpart
  have hnotices : notices env = [] ∧ notices env' = [] := by
    unfold notices
    rw [hunset, hset]
    exact ⟨rfl, Filter.notices_of_foreign hforeign⟩
  refine and_congr ?_ ?_
  · -- the report is the same, so the trail around it has to be empty
    rw [withTrail_stderr w refuses h hnotices.1, withTrail_stderr w refuses h hnotices.2,
      taken_eq_taken_iff]
    unfold screen
    rw [hunset, hset]
    simp only [Option.getD_none, Option.getD_some, hnothing, String.empty_append, String.append_empty,
      append_append_eq_self_iff, shown_eq_empty_iff, hshows]
    rw [screenThreshold, hides_iff, Check.trail, List.forall_mem_append]
  · cases hfile : s.trail.file with
    | none =>
      rw [withTrail_of_no_file w env refuses hfile, withTrail_of_no_file w env' refuses hfile]
      exact iff_of_true rfl fun hne => absurd rfl hne
    | some file =>
      have hopen : openTrail t file = (t', .ok ()) := by
        unfold setUp at h
        rw [hfile] at h
        exact h
      have htexts : (withTrail w t env s refuses).tree = (withTrail w t env' s refuses).tree ↔
          shown (inFile env s) (check w t' s refuses).trail =
            shown (inFile env' s) (check w t' s refuses).trail := by
        constructor
        · intro htree
          have hread := withTrail_read w env refuses hfile hopen
          rw [htree, withTrail_read w env' refuses hfile hopen] at hread
          exact (Except.ok.inj hread).symm
        · intro htext
          rw [withTrail_tree w env refuses hfile hopen, withTrail_tree w env' refuses hfile hopen, htext]
      rw [htexts, inFile, inFile, hunset, hset, Option.getD_none, Option.getD_some, hnothing,
        shown_eq_empty_iff, hides_iff]
      simp only [hshows, ne_eq, reduceCtorEq, not_false_eq_true, true_implies]

/-- A text without directives is as good as none. -/
theorem withTrail_of_no_part (t : FileTree) (s : Settings)
    (hunset : env.get? filterVariable = none) (hset : env'.get? filterVariable = some text)
    (hpart : Filter.parts text = []) :
    withTrail w t env s refuses = withTrail w t env' s refuses := by
  have hfilter : Filter.ofText text = Filter.ofText "" := funext fun level =>
    (Filter.ofText_of_no_part level hpart).trans (Filter.ofText_of_no_part level rfl).symm
  have hnotices : Filter.notices text = Filter.notices "" := by
    unfold Filter.notices
    rw [hpart]
    rfl
  unfold withTrail
  rw [hunset, hset]
  simp only [Option.getD_none, Option.getD_some, hfilter, hnotices]

/-- A run whose trail file cannot be opened shows nothing but notices. -/
theorem withTrail_of_setUp_error {causes : List String} (h : setUp t s = (t', .error causes))
    (hnotices : notices env = notices env') :
    withTrail w t env s refuses = withTrail w t env' s refuses := by
  unfold setUp at h
  cases hfile : s.trail.file with
  | none =>
    rw [hfile] at h
    cases h
  | some file =>
    rw [hfile] at h
    rw [withTrail_of_error w env refuses hfile h, withTrail_of_error w env' refuses hfile h, hnotices]

variable {args : List String}

theorem Loads.unique {s' : Settings} (h : Loads t env args s) (h' : Loads t env args s') : s = s' := by
  obtain ⟨root, config, hargs, hload⟩ := h
  obtain ⟨root', config', hargs', hload'⟩ := h'
  cases hargs.symm.trans hargs'
  exact Except.ok.inj (hload.symm.trans hload')

/-- Runs that get the same settings differ only after that. -/
theorem run_eq_of_withTrail
    (hload : ∀ root config, Arguments.read args = .ok (.check root config) →
      Settings.load t env config root = Settings.load t env' config root)
    (h : ∀ s, Loads t env args s →
      withTrail w t env s refuses = withTrail w t env' s refuses) :
    run w t env args refuses = run w t env' args refuses := by
  unfold run
  cases hargs : Arguments.read args with
  | error e => rfl
  | ok request =>
    cases request with
    | help => rfl
    | version => rfl
    | check root config =>
      simp only
      rw [← hload root config hargs]
      cases hsettings : Settings.load t env config root with
      | error e => rfl
      | ok s => exact h s ⟨root, config, hargs, hsettings⟩

end

end Run

open Run

/-- Directives about others take the place of the configured levels, they do not add to them.  With
such directives in the filter variable, to which no configured path refers, the error stream and the
tree with the trail file come out as without the variable exactly if there is no directive in it, or
if the levels hide the trail of the check anyway: on the error stream, if that takes its text, and in
the file, if there is one. -/
theorem run_foreign_iff (w : Wording) (t : FileTree) (env env' : Environment) (args : List String)
    (refuses : Stream → Option Fault) {text : String}
    (henv : Environment.SameBut filterVariable env env')
    (hunset : env.get? filterVariable = none) (hset : env'.get? filterVariable = some text)
    (hforeign : Filter.IsForeign text)
    (hunreferenced : ∀ root config, Arguments.read args = .ok (.check root config) →
      ∀ entry, Settings.Configures t config root entry → ¬ Template.RefersTo entry filterVariable) :
    (run w t env args refuses).stderr = (run w t env' args refuses).stderr ∧
        (run w t env args refuses).tree = (run w t env' args refuses).tree ↔
      Filter.parts text = [] ∨
        ∀ s t', Loads t env args s → setUp t s = (t', .ok ()) →
          (refuses .err = none → Hides (screenThreshold s) (check w t' s refuses)) ∧
            (s.trail.file ≠ none → Hides (fileThreshold s) (check w t' s refuses)) := by
  have hload : ∀ root config, Arguments.read args = .ok (.check root config) →
      Settings.load t env config root = Settings.load t env' config root :=
    fun root config hargs => Settings.load_sameFor fun entry hentry =>
      henv.sameFor (hunreferenced root config hargs entry hentry) (by decide)
  by_cases hpart : Filter.parts text = []
  · rw [run_eq_of_withTrail w refuses hload fun s _ =>
      withTrail_of_no_part w refuses t s hunset hset hpart]
    exact iff_of_true ⟨rfl, rfl⟩ (.inl hpart)
  rw [or_iff_right hpart]
  by_cases hready : ∃ s t', Loads t env args s ∧ setUp t s = (t', .ok ())
  · obtain ⟨s, t', hloads, hsetUp⟩ := hready
    have hloads' : Loads t env' args s := by
      obtain ⟨root, config, hargs, hs⟩ := hloads
      exact ⟨root, config, hargs, (hload root config hargs).symm.trans hs⟩
    rw [run_eq_withTrail w refuses hloads, run_eq_withTrail w refuses hloads',
      withTrail_foreign_iff w refuses hsetUp hunset hset hforeign hpart]
    constructor
    · intro h s₁ t₁ hloads₁ hsetUp₁
      obtain rfl := hloads.unique hloads₁
      obtain rfl : t' = t₁ := congrArg Prod.fst (hsetUp.symm.trans hsetUp₁)
      exact h
    · intro h
      exact h s t' hloads hsetUp
  · have hrun : run w t env args refuses = run w t env' args refuses := by
      refine run_eq_of_withTrail w refuses hload fun s hloads => ?_
      rcases hsetUp : setUp t s with ⟨t', causes | ⟨⟩⟩
      · refine withTrail_of_setUp_error w refuses hsetUp ?_
        unfold notices
        rw [hunset, hset]
        exact (Filter.notices_of_foreign hforeign).symm
      · exact absurd ⟨s, t', hloads, hsetUp⟩ hready
    rw [hrun]
    exact iff_of_true ⟨rfl, rfl⟩ fun s t' hloads hsetUp => absurd ⟨s, t', hloads, hsetUp⟩ hready

theorem isForeign_other : Filter.IsForeign "other=debug" := by
  have hparts : Filter.parts "other=debug" = ["other=debug".toList] := by decide +kernel
  unfold Filter.IsForeign
  rw [hparts, List.forall_mem_singleton]
  refine ⟨⟨some "other", false, [], false, some .debug⟩, by decide +kernel, "other", rfl, fun e => ?_⟩
  cases e <;> dsimp only [Event.origin] <;> decide +kernel

/-- Where the level is `off`, a directive about another program makes no difference. -/
theorem run_foreign_logTree :
    (run sampleWording logTree [] [] fun _ => none).stderr =
        (run sampleWording logTree [("RUST_LOG", "other=debug")] [] fun _ => none).stderr ∧
      (run sampleWording logTree [] [] fun _ => none).tree =
        (run sampleWording logTree [("RUST_LOG", "other=debug")] [] fun _ => none).tree := by
  refine (run_foreign_iff sampleWording logTree [] _ [] (fun _ => none) (sameBut_filterVariable _) rfl
    rfl isForeign_other ?_).mpr (.inr ?_)
  · rintro root config ⟨⟩ entry ⟨text, f, htext, hf, hentry⟩
    exact unreferenced_logTree htext hf entry hentry
  · rintro s t' ⟨root, config, ⟨⟩, hs⟩ -
    obtain rfl := Except.ok.inj (load_logTree.symm.trans hs)
    exact ⟨fun _ => ⟨by decide +kernel, fun _ => by decide +kernel⟩,
      fun _ => ⟨by decide +kernel, fun _ => by decide +kernel⟩⟩

/-- Where the level is `debug`, the same directive empties the trail file and takes the trail off the
error stream. -/
theorem run_foreign_loudTree :
    Filter.IsForeign "other=debug" ∧
      (run sampleWording loudTree [] [] fun _ => none).stderr ≠
        (run sampleWording loudTree [("RUST_LOG", "other=debug")] [] fun _ => none).stderr ∧
      (run sampleWording loudTree [] [] fun _ => none).tree.read ⟨"./log/run.txt"⟩ ≠ .ok "" ∧
      (run sampleWording loudTree [("RUST_LOG", "other=debug")] [] fun _ => none).tree.read
        ⟨"./log/run.txt"⟩ = .ok "" := by
  have hloads : Loads loudTree [] [] { logSettings with trail := { logSettings.trail with level := "debug" } } :=
    ⟨⟨"."⟩, none, rfl, by decide +kernel⟩
  have hopen : openTrail loudTree ⟨"./log/run.txt"⟩ =
      ((openTrail loudTree ⟨"./log/run.txt"⟩).1, .ok ()) :=
    Prod.ext rfl (by decide +kernel)
  refine ⟨isForeign_other, by decide +kernel, fun hempty => ?_, by decide +kernel⟩
  rw [run_eq_withTrail sampleWording _ hloads, withTrail_read sampleWording [] _ rfl hopen] at hempty
  have hhidden := shown_eq_empty_iff.mp (Except.ok.inj hempty) (.loaded ⟨"./helper-docs.toml"⟩)
    (by decide +kernel)
  revert hhidden
  decide +kernel

end DocCoverage
