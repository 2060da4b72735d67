import DocCoverage.Proofs.Settings.References
import DocCoverage.Proofs.Settings.Shape

/-!
# The first fault of a config file

The faults of a config file that can be read come in a fixed order: it has no such shape, its version
is another, its prefix is empty, a path refers to a variable that is not set.  The first one is the
error, with what is to blame for it; without any fault the settings are loaded.

    the first path of a list that fails  =  the first that blames a variable       (firstUnset_iff)
    load = r  ↔  Loads env root file text r                                      (load_eq_iff)
    each error, and success, with the faults that lead to it               (load_first_fault)
-/

namespace DocCoverage

namespace Settings

/-- The first entry that blames a variable, and that variable. -/
def FirstBlamed (env : Environment) (entries : List String) (name entry : String) : Prop :=
  ∃ before after, entries = before ++ entry :: after ∧
    (∀ e ∈ before, ∀ other, ¬ Template.Blames env e other) ∧ Template.Blames env entry name

theorem firstUnset_iff {env : Environment} (root : Path) {entries : List String}
    {name entry : String} :
    FirstUnset env root entries name entry ↔ FirstBlamed env entries name entry := by
  simp only [FirstUnset, FirstBlamed, Template.exists_resolve_eq_ok_iff,
    Template.resolve_eq_error_iff]

/-- Some entry is the first that blames a variable, or none does. -/
theorem exists_firstBlamed_or (env : Environment) (entries : List String) :
    (∃ name entry, FirstBlamed env entries name entry) ∨
      ∀ e ∈ entries, ∀ name, ¬ Template.Blames env e name := by
  induction entries with
  | nil => exact .inr nofun
  | cons e entries ih =>
    by_cases he : ∃ name, Template.Blames env e name
    · obtain ⟨name, hname⟩ := he
      exact .inl ⟨name, e, [], entries, rfl, nofun, hname⟩
    · rw [not_exists] at he
      rcases ih with ⟨name, entry, before, after, rfl, hbefore, hname⟩ | hnone
      · refine .inl ⟨name, entry, e :: before, after, rfl, ?_, hname⟩
        exact List.forall_mem_cons.mpr ⟨he, hbefore⟩
      · exact .inr (List.forall_mem_cons.mpr ⟨he, hnone⟩)

/-- What loading comes to for a config file with this text. -/
inductive Loads (env : Environment) (root file : Path) (text : String) :
    Except LoadError Settings → Prop
  | malformed (h : ∀ f, ¬ SettingsFile.Says text f) :
      Loads env root file text (.error (.malformed file))
  | version {f : SettingsFile} (hf : SettingsFile.Says text f) (h : f.version ≠ 1) :
      Loads env root file text (.error (.unsupportedVersion f.version))
  | stem {f : SettingsFile} (hf : SettingsFile.Says text f) (hversion : f.version = 1)
      (h : f.stem = some "") : Loads env root file text (.error .emptyPrefix)
  | reference {f : SettingsFile} {name entry : String} (hf : SettingsFile.Says text f)
      (hversion : f.version = 1) (hstem : f.stem ≠ some "")
      (h : FirstBlamed env f.entries name entry) :
      Loads env root file text (.error (.unsetVariable name entry))
  | settings {f : SettingsFile} {s : Settings} (hf : SettingsFile.Says text f)
      (hversion : f.version = 1) (hstem : f.stem ≠ some "")
      (h : ∀ e ∈ f.entries, ∀ name, ¬ Template.Blames env e name)
      (hs : Describes env root file f s) : Loads env root file text (.ok s)

/-- Contents that blame nothing describe settings. -/
theorem exists_describes {env : Environment} (root file : Path) {f : SettingsFile}
    (hversion : f.version = 1) (hstem : f.stem ≠ some "")
    (h : ∀ e ∈ f.entries, ∀ name, ¬ Template.Blames env e name) :
    ∃ s, Describes env root file f s := by
  cases hresolve : resolve env root file f with
  | ok s => exact ⟨s, (resolve_eq_ok_iff hversion hstem).mp hresolve⟩
  | error e =>
    obtain ⟨name, entry, -, hunset⟩ := (resolve_eq_error_iff hversion hstem).mp hresolve
    obtain ⟨before, after, hentries, -, hblames⟩ := (firstUnset_iff root).mp hunset
    exact absurd hblames (h entry (by rw [hentries]; simp) name)

/-- Loading comes to something. -/
theorem exists_loads (env : Environment) (root file : Path) (text : String) :
    ∃ r, Loads env root file text r := by
  by_cases hsays : ∃ f, SettingsFile.Says text f
  · obtain ⟨f, hf⟩ := hsays
    by_cases hversion : f.version = 1
    · by_cases hstem : f.stem = some ""
      · exact ⟨_, .stem hf hversion hstem⟩
      · rcases exists_firstBlamed_or env f.entries with ⟨name, entry, hblamed⟩ | hnone
        · exact ⟨_, .reference hf hversion hstem hblamed⟩
        · obtain ⟨s, hs⟩ := exists_describes root file hversion hstem hnone
          exact ⟨_, .settings hf hversion hstem hnone hs⟩
    · exact ⟨_, .version hf hversion⟩
  · exact ⟨_, .malformed (not_exists.mp hsays)⟩

section

variable {t : FileTree} {env : Environment} {config : Option Path} {root : Path} {text : String}
  (hread : t.read (config.getD (root.join ⟨fileName⟩)) = .ok text)
include hread

/-- The contents of a config file are resolved. -/
theorem load_eq_resolve {f : SettingsFile} (hf : SettingsFile.Says text f) :
    load t env config root = resolve env root (config.getD (root.join ⟨fileName⟩)) f := by
  rw [load_of_read env hread, SettingsFile.read_eq_some_iff.mpr hf]

theorem load_eq_of_loads {r : Except LoadError Settings}
    (h : Loads env root (config.getD (root.join ⟨fileName⟩)) text r) :
    load t env config root = r := by
  cases h with
  | malformed h =>
    have hnone : SettingsFile.read text = none := by
      rw [Option.eq_none_iff_forall_ne_some]
      exact fun f hf => h f (SettingsFile.read_eq_some_iff.mp hf)
    rw [load_of_read env hread, hnone]
  | version hf h => rw [load_eq_resolve hread hf, resolve_of_version h]
  | stem hf hversion h => rw [load_eq_resolve hread hf, resolve_of_stem hversion h]
  | reference hf hversion hstem h =>
    rw [load_eq_resolve hread hf, resolve_eq_error_iff hversion hstem]
    exact ⟨_, _, rfl, (firstUnset_iff root).mpr h⟩
  | settings hf hversion hstem h hs =>
    rw [load_eq_resolve hread hf, resolve_eq_ok_iff hversion hstem]
    exact hs

theorem load_eq_iff {r : Except LoadError Settings} :
    load t env config root = r ↔ Loads env root (config.getD (root.join ⟨fileName⟩)) text r := by
  constructor
  · rintro rfl
    obtain ⟨r, hr⟩ := exists_loads env root (config.getD (root.join ⟨fileName⟩)) text
    rwa [load_eq_of_loads hread hr]
  · exact load_eq_of_loads hread

end

/-- How a config file that can be read is loaded.  Its faults are looked for in a fixed order, and the
first one is the error: the text has another shape, the version is not 1, the prefix is empty, an entry
refers to a variable that is not set.  For the last it is the first such entry that is named, with its
leftmost such variable.  Without a fault the settings are loaded, from this file and with a prefix. -/
theorem load_first_fault (t : FileTree) (env : Environment) (config : Option Path) (root : Path)
    {text : String} (hread : t.read (config.getD (root.join ⟨fileName⟩)) = .ok text) :
    (load t env config root = .error (.malformed (config.getD (root.join ⟨fileName⟩))) ↔
      ∀ f, ¬ SettingsFile.Says text f) ∧
    (∀ version, load t env config root = .error (.unsupportedVersion version) ↔
      version ≠ 1 ∧ ∃ f, SettingsFile.Says text f ∧ f.version = version) ∧
    (load t env config root = .error .emptyPrefix ↔
      ∃ f, SettingsFile.Says text f ∧ f.version = 1 ∧ f.stem = some "") ∧
    (∀ name entry, load t env config root = .error (.unsetVariable name entry) ↔
      ∃ f, SettingsFile.Says text f ∧ f.version = 1 ∧ f.stem ≠ some "" ∧
        FirstBlamed env f.entries name entry) ∧
    ((∃ s, load t env config root = .ok s) ↔
      ∃ f, SettingsFile.Says text f ∧ f.version = 1 ∧ f.stem ≠ some "" ∧
        ∀ e ∈ f.entries, ∀ name, ¬ Template.Blames env e name) ∧
    (∀ s, load t env config root = .ok s →
      s.source = some (config.getD (root.join ⟨fileName⟩)) ∧ s.stem ≠ "" ∧
      ∃ f, SettingsFile.Says text f ∧ Describes env root (config.getD (root.join ⟨fileName⟩)) f s) := by
  simp only [load_eq_iff hread]
  refine ⟨?_, ?_, ?_, ?_, ?_, ?_⟩
  · constructor
    · intro hloads
      cases hloads with
      | malformed h => exact h
    · exact .malformed
  · intro version
    constructor
    · intro hloads
      cases hloads with
      | version hf h => exact ⟨h, _, hf, rfl⟩
    · rintro ⟨h, f, hf, rfl⟩
      exact .version hf h
  · constructor
    · intro hloads
      cases hloads with
      | stem hf hversion h => exact ⟨_, hf, hversion, h⟩
    · rintro ⟨f, hf, hversion, h⟩
      exact .stem hf hversion h
  · intro name entry
    constructor
    · intro hloads
      cases hloads with
      | reference hf hversion hstem h => exact ⟨_, hf, hversion, hstem, h⟩
    · rintro ⟨f, hf, hversion, hstem, h⟩
      exact .reference hf hversion hstem h
  · constructor
    · rintro ⟨s, hloads⟩
      cases hloads with
      | settings hf hversion hstem h hs => exact ⟨_, hf, hversion, hstem, h⟩
    · rintro ⟨f, hf, hversion, hstem, h⟩
      obtain ⟨s, hs⟩ := exists_describes root _ hversion hstem h
      exact ⟨s, .settings hf hversion hstem h hs⟩
  · intro s hloads
    cases hloads with
    | @settings f _ hf hversion hstem h hs =>
      refine ⟨hs.source_eq, ?_, f, hf, hs⟩
      rw [hs.stem_eq]
      cases hf' : f.stem with
      | none => decide
      | some stem =>
        rintro rfl
        exact hstem hf'

/-- A config file with references of all kinds. -/
def referringText : String :=
  "version = 1\nheader_sources = [\"$A/x.h\", \"${B:-d}$$C\"]\n" ++
    "doc_sources = [\"${EMPTY}z\", \"a${NOPE}b$OTHER\"]"

/-- One variable has a value, one has an empty value, and one gives a default.  The last entry has two
without any of these, and the left one is blamed. -/
theorem load_referringText :
    ((FileTree.bare ["w"]).plant ⟨"c.toml"⟩ (.file referringText.toUTF8)).read ⟨"c.toml"⟩ =
      .ok referringText ∧
    load ((FileTree.bare ["w"]).plant ⟨"c.toml"⟩ (.file referringText.toUTF8))
        [("A", "1"), ("EMPTY", "")] (some ⟨"c.toml"⟩) ⟨"."⟩ =
      .error (.unsetVariable "NOPE" "a${NOPE}b$OTHER") := by
  have hread : ((FileTree.bare ["w"]).plant ⟨"c.toml"⟩ (.file referringText.toUTF8)).read
      ⟨"c.toml"⟩ = .ok referringText := by decide +kernel
  have hsays : SettingsFile.Says referringText ⟨1, none, some ["$A/x.h", "${B:-d}$$C"],
      some ["${EMPTY}z", "a${NOPE}b$OTHER"], ⟨"info", none, none⟩⟩ := by
    rw [← SettingsFile.read_eq_some_iff]
    decide +kernel
  obtain ⟨-, -, -, hreference, -⟩ :=
    load_first_fault _ [("A", "1"), ("EMPTY", "")] (some ⟨"c.toml"⟩) ⟨"."⟩ hread
  refine ⟨hread, (hreference _ _).mpr ⟨_, hsays, rfl, nofun, ?_⟩⟩
  rw [← firstUnset_iff ⟨"."⟩]
  refine ⟨["$A/x.h", "${B:-d}$$C", "${EMPTY}z"], [], rfl, ?_, by decide +kernel⟩
  intro e he
  simp only [List.mem_cons, List.not_mem_nil, or_false] at he
  rcases he with rfl | rfl | rfl
  · exact ⟨⟨"./1/x.h"⟩, by decide +kernel⟩
  · exact ⟨⟨"./d$C"⟩, by decide +kernel⟩
  · exact ⟨⟨"./z"⟩, by decide +kernel⟩

end Settings

end DocCoverage
