import DocCoverage.Proofs.FileTree.Form
import DocCoverage.Proofs.Settings.Resolution
import DocCoverage.Proofs.Symbol.Separator
import DocCoverage.Proofs.Toml.LineEnd

/-!
# A check does not depend on the form of files

Neither the ends of lines nor byte order marks say anything, in the config file and in the sources
that it lists, as long as the prefix holds none of their characters and the config file holds no
string of several lines.

    m.extract r (f.text t) = m.extract r t                                       (extract_text)
    SettingsFile.read (f.text t) = SettingsFile.read t    for a tidy t              (read_text)
    load and run give the same for t.save form and for t                       (load_run_save)
-/

namespace DocCoverage

/-- No character that the form of a file decides about is in a prefix. -/
structure FreeOfForm (stem : List Char) : Prop where
  no_return : '\r' ∉ stem
  no_feed : '\n' ∉ stem
  no_mark : '\ufeff' ∉ stem

namespace Matcher

variable {m : Matcher} (h : FreeOfForm m.stem)
include h

/-- The form of a text has no influence on what is found in it. -/
theorem extract_text (r : Recognition) (f : Form) (text : String) :
    m.extract r (f.text text) = m.extract r text := by
  have hcrlf : ∀ s, m.names r (Text.crlf s) = m.names r s :=
    m.names_crlf r ⟨h.no_feed, by decide, by decide⟩ ⟨h.no_return, by decide, by decide⟩
  have hmark : ∀ s, m.names r ('\ufeff' :: s) = m.names r s :=
    m.names_cons r ⟨h.no_mark, by decide, by decide⟩
  have hnames : m.names r (f.chars text.toList) = m.names r text.toList := by
    unfold Form.chars
    simp only
    split <;> split <;> simp [hcrlf, hmark]
  rw [extract_eq_names, extract_eq_names, Form.text, String.toList_ofList, hnames]

end Matcher

/-! ## Sources -/

/-- What two readings of a source have to share for a check to end alike. -/
structure Reading.Alike (m : Matcher) (r : Recognition) (a b : Reading) : Prop where
  location : a.location = b.location
  error? : a.error? = b.error?
  symbols : a.text?.map (m.extract r) = b.text?.map (m.extract r)

theorem Source.read_save {m : Matcher} (h : FreeOfForm m.stem) (r : Recognition) (t : FileTree)
    (form : Place → Form) (s : Source) : (s.read (t.save form)).Alike m r (s.read t) := by
  cases s with
  | memory location text =>
    cases text <;> exact ⟨rfl, rfl, rfl⟩
  | file path =>
    obtain ⟨f, hf⟩ := t.read_save form path
    refine ⟨rfl, ?_, ?_⟩
    · simp only [Source.read, Source.content, hf, Reading.error?]
      cases t.read path <;> rfl
    · simp only [Source.read, Source.content, hf, Reading.text?]
      cases t.read path with
      | error fault => rfl
      | ok text => simp [Except.map, Matcher.extract_text h]

theorem filterMap_eq_of_forall₂ {α β : Type} {R : α → α → Prop} {f : α → Option β} {as bs : List α}
    (h : List.Forall₂ R as bs) (hf : ∀ a b, R a b → f a = f b) :
    as.filterMap f = bs.filterMap f := by
  induction h with
  | nil => rfl
  | cons hab _ ih => rw [List.filterMap_cons, List.filterMap_cons, hf _ _ hab, ih]

theorem Harvest.ofReadings_congr {m : Matcher} {role : Role} {as bs : List Reading}
    (h : List.Forall₂ (Reading.Alike m role.recognition) as bs) :
    ofReadings m role as = ofReadings m role bs := by
  have herrors : as.filterMap Reading.error? = bs.filterMap Reading.error? :=
    filterMap_eq_of_forall₂ h fun _ _ hab => hab.error?
  have hsymbols : (as.filterMap Reading.text?).map (m.extract role.recognition) =
      (bs.filterMap Reading.text?).map (m.extract role.recognition) := by
    rw [List.map_filterMap, List.map_filterMap]
    exact filterMap_eq_of_forall₂ h fun _ _ hab => hab.symbols
  have hreadable := congrArg List.length hsymbols
  rw [List.length_map, List.length_map] at hreadable
  have hnames := congrArg (List.flatMap SymbolSet.toList) hsymbols
  rw [List.flatMap_map, List.flatMap_map] at hnames
  unfold ofReadings names
  rw [hnames, hreadable, herrors]

/-- The form of the sources has no influence on how a check ends. -/
theorem Checker.run_save {c : Checker} (h : FreeOfForm c.matcher.stem) (t : FileTree)
    (form : Place → Form) : c.run (t.save form) = c.run t := by
  have halike : ∀ r (sources : List Source),
      List.Forall₂ (Reading.Alike c.matcher r) (sources.map (·.read (t.save form)))
        (sources.map (·.read t)) := by
    intro r sources
    rw [List.forall₂_map_left_iff, List.forall₂_map_right_iff, List.forall₂_same]
    exact fun s _ => s.read_save h r t form
  unfold run Outcome.ofReadings
  rw [Harvest.ofReadings_congr (halike _ c.headers), Harvest.ofReadings_congr (halike _ c.docs)]
  simp [Source.read]

/-- A checker searches for the prefix it was made for. -/
theorem Checker.stem_of_ofPrefix {stem : String} {headers docs : List Source} {c : Checker}
    (h : ofPrefix stem headers docs = .ok c) : c.matcher.stem = stem.toList := by
  unfold ofPrefix Matcher.ofPrefix at h
  split at h
  · cases h
  · split at h
    · cases h
    · cases h
      rfl

/-! ## The config file -/

/-- A tidy config file says the same in every form. -/
theorem SettingsFile.read_text {text : String} (h : Toml.IsTidy text.toList)
    (hmark : text.toList.head? ≠ some '\ufeff') (f : Form) :
    read (f.text text) = read text := by
  have hcrlf := Toml.statements_crlf hmark h
  have hmark' := Toml.head?_crlf_ne (by decide) hmark
  have hchars : Toml.statements (f.chars text.toList) = Toml.statements text.toList := by
    obtain ⟨crlf, mark⟩ := f
    cases crlf <;> cases mark <;>
      simp [Form.chars, hcrlf, Toml.statements_mark hmark, Toml.statements_mark hmark']
  unfold read Toml.Document.read
  rw [Form.text, String.toList_ofList, hchars]

namespace Settings

section
variable {t : FileTree} (form : Place → Form) (env : Environment) (config : Option Path)
  (root : Path)
  (htidy : ∀ text, t.read (config.getD (root.join ⟨fileName⟩)) = .ok text →
    Toml.IsTidy text.toList ∧ text.toList.head? ≠ some '\ufeff')
include htidy

theorem load_save : load (t.save form) env config root = load t env config root := by
  rw [load_eq, load_eq, FileTree.has_save]
  obtain ⟨f, hf⟩ := t.read_save form (config.getD (root.join ⟨fileName⟩))
  unfold readFile
  rw [hf]
  cases hread : t.read (config.getD (root.join ⟨fileName⟩)) with
  | error fault => rfl
  | ok text =>
    obtain ⟨h, hmark⟩ := htidy text hread
    simp only [Except.map, SettingsFile.read_text h hmark f]

/-- Whichever form the config file and the sources are saved in, the same settings are loaded or the
same error is met, and a check that they ask for ends in the same way. -/
theorem load_run_save :
    load (t.save form) env config root = load t env config root ∧
    ∀ s c, load t env config root = .ok s → s.checker = .ok c → FreeOfForm s.stem.toList →
      c.run (t.save form) = c.run t := by
  refine ⟨load_save form env config root htidy, fun s c _ hc hstem => ?_⟩
  refine Checker.run_save ?_ t form
  rwa [Checker.stem_of_ofPrefix hc]

end

/-- A config file with a comment, an array on several lines and an empty line. -/
def projectConfig : String :=
  "# helpers\nversion = 1\nnamespace_prefix = \"rt_\"\n" ++
    "header_sources = [\n  \"a.h\", # one\n]\n\ndoc_sources = [\"d.md\"]"

/-- A project with this config file, a header and a document. -/
def project : FileTree :=
  (((FileTree.bare ["w"]).plant ⟨"helper-docs.toml"⟩ (.file projectConfig.toUTF8)).plant
    ⟨"a.h"⟩ (.file "\nrt_a(\nrt_b\n(".toUTF8)).plant ⟨"d.md"⟩ (.file "rt_a\nrt_b".toUTF8)

/-- The config file in the other form in both respects, the header and the document in one each. -/
def projectForm (place : Place) : Form :=
  ⟨place ≠ ["w", "d.md"], place ≠ ["w", "a.h"]⟩

def projectSettings : Settings :=
  ⟨⟨"."⟩, some ⟨"./helper-docs.toml"⟩, "rt_", [⟨"./a.h"⟩], [⟨"./d.md"⟩], ⟨"info", none, none⟩⟩

def projectChecker : Checker :=
  ⟨⟨['r', 't', '_'], by decide⟩, [.file ⟨"./a.h"⟩], [.file ⟨"./d.md"⟩]⟩

/-- The project in the other form is checked like the project. -/
theorem load_run_save_project :
    load (project.save projectForm) [] none ⟨"."⟩ = .ok projectSettings ∧
    projectChecker.run (project.save projectForm) = projectChecker.run project := by
  have hread : project.read (Path.join ⟨"."⟩ ⟨fileName⟩) = .ok projectConfig := by decide +kernel
  have hload : load project [] none ⟨"."⟩ = .ok projectSettings := by decide +kernel
  have htidy : ∀ text, project.read (Path.join ⟨"."⟩ ⟨fileName⟩) = .ok text →
      Toml.IsTidy text.toList ∧ text.toList.head? ≠ some '\ufeff' := by
    intro text h
    obtain rfl := Except.ok.inj (hread.symm.trans h)
    refine ⟨⟨by decide +kernel, fun q hq => ?_⟩, by decide +kernel⟩
    simp only [List.mem_cons, List.not_mem_nil, or_false] at hq
    rcases hq with rfl | rfl <;> decide +kernel
  obtain ⟨hsame, hrun⟩ := load_run_save projectForm [] none ⟨"."⟩ htidy
  refine ⟨hsame.trans hload, hrun projectSettings projectChecker hload rfl ?_⟩
  exact ⟨by decide, by decide, by decide⟩

end Settings

end DocCoverage
