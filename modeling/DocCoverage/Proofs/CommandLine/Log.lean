import DocCoverage.Proofs.CommandLine.Ending
import DocCoverage.Proofs.Settings.Levels

/-!
# The log has no say

Which part of the trail is shown depends on the levels in the config file and on the filter variable
of the environment.  Nothing else of a run does: what a run comes to is the same with any levels and
any filter, down to the text on the error stream besides the log.  Only what the parser says about a
config file that it refuses is left to the parser, which may quote a level.

    a run shows what it comes to, with a log around the report              (run_shows)
    other levels, another filter   → the same set-up of the trail           (setUp_releveled)
                                   → the same readings, so the same check   (check_releveled)
                                   → both runs come to the same, or both
                                     find the config file malformed      (comesTo_sameButLog)
-/

namespace DocCoverage

namespace Run

/-! ## What a run comes to -/

/-- What a run comes to, apart from what is shown of its trail.  A run without a check has no events,
and its report is all the text that it writes. -/
def comesTo (w : Wording) (t : FileTree) (env : Environment) (args : List String)
    (refuses : Stream → Option Fault) : Check :=
  match Arguments.read args with
  | .error e => ⟨[], ⟨"", usageText e, none⟩, 2, []⟩
  | .ok .help => ⟨[], ⟨taken (refuses .out) helpText, "", none⟩, 0, []⟩
  | .ok .version => ⟨[], ⟨taken (refuses .out) versionText, "", none⟩, 0, []⟩
  | .ok (.check root config) =>
    match Settings.load t env config root with
    | .error e => prevented (loadCauses (w.ofFile t) e)
    | .ok s =>
      match setUp t s with
      | (_, .error causes) => prevented causes
      | (t', .ok ()) => check w t' s refuses

/-- Each run shows what it comes to. -/
theorem run_shows (w : Wording) (t : FileTree) (env : Environment) (args : List String)
    (refuses : Stream → Option Fault) :
    Shows env (refuses .err) (comesTo w t env args refuses) (run w t env args refuses) := by
  have hplain : ∀ (out err : String) (code : UInt8) (causes : List String),
      Shows env (refuses .err) ⟨[], ⟨out, err, none⟩, code, causes⟩
        ⟨code, out, taken (refuses .err) err, causes, t⟩ := by
    intro out err code causes
    refine ⟨rfl, rfl, rfl, "", [], ⟨[], [], nofun, List.nil_sublist _, rfl⟩, List.nil_sublist _, ?_⟩
    show _ = taken (refuses .err) ("" ++ err ++ "")
    rw [String.empty_append, String.append_empty]
  have hquiet : ∀ (out : String) (code : UInt8) (causes : List String),
      Shows env (refuses .err) ⟨[], ⟨out, "", none⟩, code, causes⟩ ⟨code, out, "", causes, t⟩ := by
    intro out code causes
    simpa only [taken_empty] using hplain out "" code causes
  unfold comesTo run
  cases Arguments.read args with
  | error e => exact hplain _ _ _ _
  | ok request =>
    cases request with
    | help => exact hquiet _ _ _
    | version => exact hquiet _ _ _
    | check root config =>
      simp only
      cases Settings.load t env config root with
      | error e => exact hquiet _ _ _
      | ok s =>
        simp only
        rcases hset : setUp t s with ⟨t', causes | ⟨⟩⟩
        · exact withTrail_shows_prevented w env refuses hset
        · exact withTrail_shows w env refuses hset

/-! ## The same up to the check -/

section
variable {place : Place} {t t' : FileTree} {s s' : Settings}

theorem openTrail_alike (h : FileTree.AlikeBut place t t') (file : Path) :
    FileTree.AlikeBut place (openTrail t file).1 (openTrail t' file).1 ∧
      (openTrail t file).2 = (openTrail t' file).2 := by
  have hdirs := FileTree.createDirs_alike h file.parents
  unfold openTrail
  generalize t.createDirs file.parents = r at hdirs ⊢
  generalize t'.createDirs file.parents = r' at hdirs ⊢
  obtain ⟨tree, fault⟩ := r
  obtain ⟨tree', fault'⟩ := r'
  obtain ⟨htree, rfl⟩ : FileTree.AlikeBut place tree tree' ∧ fault = fault' := hdirs
  cases fault with
  | some fault => exact ⟨htree, rfl⟩
  | none =>
    have hfile := FileTree.createFile_alike htree file
    simp only
    generalize tree.createFile file = r at hfile ⊢
    generalize tree'.createFile file = r' at hfile ⊢
    cases hfile with
    | error h => exact ⟨htree, by rw [h]⟩
    | ok h => exact ⟨h, rfl⟩

theorem setUp_releveled (h : FileTree.AlikeBut place t t') (hs : s.Releveled s') :
    FileTree.AlikeBut place (setUp t s).1 (setUp t' s').1 ∧ (setUp t s).2 = (setUp t' s').2 := by
  unfold setUp
  rw [hs.file]
  cases s'.trail.file with
  | none => exact ⟨h, rfl⟩
  | some file => exact openTrail_alike h file

/-- Where the same is read from the sources, the check is the same, with all its events. -/
theorem check_releveled (hs : s.Releveled s')
    (hread : ∀ p ∈ s.headers ++ s.docs, t.read p = t'.read p) (w : Wording)
    (refuses : Stream → Option Fault) : check w t s refuses = check w t' s' refuses := by
  have hchecker : s.checker = s'.checker := by
    unfold Settings.checker
    rw [hs.stem, hs.headers, hs.docs]
  have hsources : ∀ ps : List Path, (∀ p ∈ ps, p ∈ s.headers ++ s.docs) →
      (ps.map Source.file).map (·.read t) = (ps.map Source.file).map (·.read t') := by
    intro ps hps
    rw [List.map_map, List.map_map]
    apply List.map_congr_left
    intro p hp
    simp only [Function.comp_apply, Source.read, Source.content, hread p (hps p hp)]
  unfold check
  rw [← hchecker, hs.source, Settings.checker_eq_map]
  cases Matcher.ofPrefix s.stem with
  | error refusal => simp only [Except.map, hs.stem]
  | ok m =>
    have hheaders := hsources s.headers fun p hp => List.mem_append_left _ hp
    have hdocs := hsources s.docs fun p hp => List.mem_append_right _ hp
    have hrun : (s.checkerOf m).run t = (s.checkerOf m).run t' := by
      unfold Checker.run Settings.checkerOf
      rw [hheaders, hdocs]
    simp only [Except.map, hrun]
    simp only [Settings.checkerOf, hheaders, hdocs]

end

/-! ## Two runs -/

/-- What can make the logs of two runs differ: the filter variable, which no configured path refers
to, and the levels in the config file, which is none of the sources.  Whether a source is the config
file is judged in the tree that it is read from, which has the directories of the trail file. -/
structure SameButLog (config : Option Path) (root : Path) (t : FileTree) (env : Environment)
    (t' : FileTree) (env' : Environment) : Prop where
  environment : Environment.SameBut filterVariable env env'
  tree : t.Releveled (config.getD (root.join ⟨Settings.fileName⟩)) t'
  unreferenced : ∀ text f, t.read (config.getD (root.join ⟨Settings.fileName⟩)) = .ok text →
    SettingsFile.read text = some f → ∀ e ∈ f.entries, ¬ Template.RefersTo e filterVariable
  apart : ∀ s, Settings.load t env config root = .ok s → ∀ p ∈ s.headers ++ s.docs,
    ∀ place node node', (setUp t s).1.find p = .ok (place, node) →
      t.find (config.getD (root.join ⟨Settings.fileName⟩)) ≠ .ok (place, node')

variable {t t' : FileTree} {env env' : Environment} {args : List String}

/-- The set-up ends alike, and afterwards the same is read from the sources. -/
theorem SameButLog.setUp_agree {config : Option Path} {root : Path}
    (h : SameButLog config root t env t' env') {s s' : Settings}
    (hload : Settings.load t env config root = .ok s) (hs : s.Releveled s') :
    (setUp t s).2 = (setUp t' s').2 ∧
      ∀ p ∈ s.headers ++ s.docs, (setUp t s).1.read p = (setUp t' s').1.read p := by
  cases h.tree with
  | same =>
    have hset : setUp t s = setUp t s' := by
      unfold setUp
      rw [hs.file]
    rw [hset]
    exact ⟨rfl, fun p _ => rfl⟩
  | edited hread =>
    obtain ⟨place, b, hfind⟩ := FileTree.exists_find_of_read hread
    obtain ⟨halike, hcauses⟩ := setUp_releveled (h.tree.alikeBut hfind) hs
    refine ⟨hcauses, fun p hp => FileTree.read_alike halike fun node hnode => ?_⟩
    exact h.apart s hload p hp place node _ hnode hfind

/-- Both runs come to the same, unless both find the config file malformed. -/
theorem comesTo_sameButLog (w : Wording) (refuses : Stream → Option Fault)
    (h : ∀ root config, Arguments.read args = .ok (.check root config) →
      SameButLog config root t env t' env') :
    comesTo w t env args refuses = comesTo w t' env' args refuses ∨
      ∃ root config file, Arguments.read args = .ok (.check root config) ∧
        Settings.load t env config root = .error (.malformed file) ∧
        Settings.load t' env' config root = .error (.malformed file) := by
  cases hargs : Arguments.read args with
  | error e =>
    left
    simp only [comesTo, hargs]
  | ok request =>
    cases request with
    | help =>
      left
      simp only [comesTo, hargs]
    | version =>
      left
      simp only [comesTo, hargs]
    | check root config =>
      -- the settings agree but for the levels, then the set-up, then the check
      have hlog := h root config hargs
      have hagree := Settings.load_releveled hlog.environment (by decide) hlog.tree hlog.unreferenced
      have hsetUp := fun s s' (hs : Settings.load t env config root = .ok s)
        (h : Settings.Releveled s s') => hlog.setUp_agree hs h
      simp only [comesTo, hargs]
      generalize hload : Settings.load t env config root = r at hagree hsetUp ⊢
      generalize hload' : Settings.load t' env' config root = r' at hagree ⊢
      cases hagree with
      | @error e _ he =>
        subst he
        cases e with
        | malformed file => exact .inr ⟨root, config, file, rfl, hload, hload'⟩
        | _ => exact .inl rfl
      | @ok s s' hs =>
        left
        obtain ⟨hcauses, hread⟩ := hsetUp s s' rfl hs
        simp only
        generalize setUp t s = r at hcauses hread ⊢
        generalize setUp t' s' = r' at hcauses hread ⊢
        obtain ⟨tree, result⟩ := r
        obtain ⟨tree', result'⟩ := r'
        obtain rfl : result = result' := hcauses
        rcases result with causes | ⟨⟩
        · rfl
        · exact check_releveled hs hread w refuses

theorem comesTo_of_malformed (w : Wording) (refuses : Stream → Option Fault) {root file : Path}
    {config : Option Path} (hargs : Arguments.read args = .ok (.check root config))
    (hload : Settings.load t env config root = .error (.malformed file)) :
    comesTo w t env args refuses = prevented (loadCauses (w.ofFile t) (.malformed file)) := by
  simp only [comesTo, hargs, hload]

/-- The same check, but for what the parser says about a config file that is malformed in both trees.
-/
inductive SameCheck (w : Wording) (t t' : FileTree) : Check → Check → Prop
  | refl (c : Check) : SameCheck w t t' c c
  | malformed (file : Path) : SameCheck w t t'
      (prevented (loadCauses (w.ofFile t) (.malformed file)))
      (prevented (loadCauses (w.ofFile t') (.malformed file)))

namespace SameCheck

variable {w : Wording} {c c' : Check} (h : SameCheck w t t' c c')

include h

theorem exitCode_eq : c.exitCode = c'.exitCode := by
  cases h <;> rfl

theorem report_eq : c.report = c'.report := by
  cases h <;> rfl

theorem causes_eq_nil_iff : c.causes = [] ↔ c'.causes = [] := by
  cases h with
  | refl => rfl
  | malformed file => exact iff_of_false (List.cons_ne_nil _ _) (List.cons_ne_nil _ _)

end SameCheck

end Run

open Run

/-- Without a version the config file is malformed, and a parser that quotes it tells levels apart. -/
example :
    let tree level := (FileTree.bare ["w"]).plant ⟨"helper-docs.toml"⟩
      (.file ("[logging]\nlevel = \"" ++ level ++ "\"").toUTF8)
    (run ⟨id, id⟩ (tree "off") [] [] fun _ => none).causes ≠
      (run ⟨id, id⟩ (tree "debug") [] [] fun _ => none).causes := by
  decide +kernel

/-- A config file with a log, and a level that is filled in. -/
def logConfig (level : String) : String :=
  "version = 1\nheader_sources = [\"a.h\"]\ndoc_sources = [\"d.md\"]\n" ++
    "[logging]\nlevel = \"" ++ level ++ "\"\nfile = \"log/run.txt\""

def logEntries (level : String) : Toml.Entries :=
  [("version", .integer 1), ("header_sources", .array [.string "a.h"]),
    ("doc_sources", .array [.string "d.md"]),
    ("logging", .table .header [("level", .string level), ("file", .string "log/run.txt")])]

set_option maxRecDepth 2000 in
theorem read_logConfig : ∀ level ∈ ["off", "debug"],
    Toml.Document.read (logConfig level) = some (logEntries level) := by
  intro level h
  simp only [List.mem_cons, List.not_mem_nil, or_false] at h
  rcases h with rfl | rfl
  · rfl
  · rfl

/-- A project with this config file, a header, and a document that does not mention its helper. -/
def logTree : FileTree :=
  (((FileTree.bare ["w"]).plant ⟨"helper-docs.toml"⟩ (.file (logConfig "off").toUTF8)).plant
    ⟨"a.h"⟩ (.file "__ternary_a(".toUTF8)).plant ⟨"d.md"⟩ (.file "none".toUTF8)

def logSettings : Settings :=
  ⟨⟨"."⟩, some ⟨"./helper-docs.toml"⟩, Settings.defaultStem, [⟨"./a.h"⟩], [⟨"./d.md"⟩],
    ⟨"off", none, some ⟨"./log/run.txt"⟩⟩⟩

theorem read_logTree : logTree.read ⟨"./helper-docs.toml"⟩ = .ok (logConfig "off") := by
  decide +kernel

theorem contents_logConfig : SettingsFile.read (logConfig "off") =
    some ⟨1, none, some ["a.h"], some ["d.md"], ⟨"off", none, some "log/run.txt"⟩⟩ := by
  decide +kernel

theorem load_logTree : Settings.load logTree [] none ⟨"."⟩ = .ok logSettings := by
  decide +kernel

/-- No entry of the config file refers to the filter variable. -/
theorem unreferenced_logTree {text : String} {f : SettingsFile}
    (htext : logTree.read ⟨"./helper-docs.toml"⟩ = .ok text) (hf : SettingsFile.read text = some f) :
    ∀ e ∈ f.entries, ¬ Template.RefersTo e filterVariable := by
  obtain rfl := Except.ok.inj (read_logTree.symm.trans htext)
  obtain rfl := Option.some.inj (contents_logConfig.symm.trans hf)
  decide +kernel

theorem sameBut_filterVariable (value : String) :
    Environment.SameBut filterVariable [] [(filterVariable, value)] := by
  intro other hother
  have hkey : (other == filterVariable) = false := beq_false_of_ne hother
  unfold Environment.get?
  rw [List.lookup_cons, hkey]

/-- The same project with another level. -/
def loudTree : FileTree :=
  logTree.write ⟨"./helper-docs.toml"⟩ (logConfig "debug")

end DocCoverage
