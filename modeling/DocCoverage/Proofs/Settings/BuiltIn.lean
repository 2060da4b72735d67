import DocCoverage.Proofs.Settings.Resolution
import DocCoverage.Proofs.Settings.RootMark
import DocCoverage.Proofs.Settings.Written

/-!
# The built-in layout, written out

A config file may write out what holds without it, key by key, or leave it to be understood, or hold
nothing but its version: it gives the built-in settings all the same.  The root may be any text,
because the built-in paths refer to nothing, and a root is never searched for references.

    resolve env root e  = join root e                  for a built-in path e     (resolve_builtIn)
    the contents of such a file are the defaults, written or not                  (ofEntries_restates)
    load = the built-in settings, but for the name of the file                        (load_restates)
-/

namespace DocCoverage

open Toml (Entries Value)

/-- A key is absent or has a given value. -/
def Toml.Entries.AbsentOr (es : Entries) (k : String) (v : Value) : Prop :=
  es.get? k = none ∨ es.get? k = some v

namespace SettingsFile

/-- The section on the trail is absent or says what holds without it, in any of its forms.  The last
two of its values are absent by default. -/
inductive RestatesTrail : Option Value → Prop
  | absent : RestatesTrail none
  | moment (written : String) : RestatesTrail (some (.moment written))
  | table {origin : Toml.Origin} {es : Entries}
      (level : es.AbsentOr "level" (.string Settings.defaultLevel))
      (fileLevel : es.get? "file_level" = none) (file : es.get? "file" = none) :
      RestatesTrail (some (.table origin es))
  | array {items : List Value}
      (level : items[0]? = none ∨ items[0]? = some (.string Settings.defaultLevel))
      (fileLevel : items[1]? = none) (file : items[2]? = none) :
      RestatesTrail (some (.array items))

/-- A table says nothing but what holds without a config file.  Keys that are not known may say
anything. -/
structure Restates (es : Entries) : Prop where
  version : es.get? "version" = some (.integer 1)
  stem : es.AbsentOr "namespace_prefix" (.string Settings.defaultStem)
  headers : es.AbsentOr "header_sources" (.array (Settings.defaultHeaders.map .string))
  docs : es.AbsentOr "doc_sources" (.array (Settings.defaultDocs.map .string))
  trail : RestatesTrail (es.get? "logging")

/-- Contents that say nothing but what holds without a config file. -/
structure AreDefaults (f : SettingsFile) : Prop where
  version : f.version = 1
  stem : f.stem = none ∨ f.stem = some Settings.defaultStem
  headers : f.headers = none ∨ f.headers = some Settings.defaultHeaders
  docs : f.docs = none ∨ f.docs = some Settings.defaultDocs
  trail : f.trail = ⟨Settings.defaultLevel, none, none⟩

/-! ## Reading the table -/

theorem eq_of_text?_absentOr {es : Entries} {k text : String} {read : Option String}
    (h : es.AbsentOr k (.string text)) (hread : text? (es.get? k) = some read) :
    read = none ∨ read = some text := by
  rcases h with h | h
  · rw [h] at hread
    exact .inl (Option.some.inj hread).symm
  · rw [h] at hread
    exact .inr (Option.some.inj hread).symm

theorem eq_of_texts?_absentOr {es : Entries} {k : String} {texts : List String}
    {read : Option (List String)} (h : es.AbsentOr k (.array (texts.map .string)))
    (hread : texts? (es.get? k) = some read) : read = none ∨ read = some texts := by
  rcases h with h | h
  · rw [h] at hread
    exact .inl (Option.some.inj hread).symm
  · have htexts : texts? (some (.array (texts.map .string))) = some (some texts) :=
      texts?_map (some texts)
    rw [h, htexts] at hread
    exact .inr (Option.some.inj hread).symm

/-- Whatever its form, such a section leaves the defaults of the trail. -/
theorem trail?_of_restatesTrail {v : Option Value} (h : RestatesTrail v) :
    trail? v = some ⟨Settings.defaultLevel, none, none⟩ := by
  cases h with
  | absent => rfl
  | moment written => rfl
  | table level fileLevel file =>
    show trailOf _ _ _ = _
    rw [fileLevel, file]
    rcases level with level | level
    · rw [level]
      rfl
    · rw [level]
      rfl
  | array level fileLevel file =>
    show trailOf _ _ _ = _
    rw [fileLevel, file]
    rcases level with level | level
    · rw [level]
      rfl
    · rw [level]
      rfl

/-- A table that is accepted and says the defaults has contents that say them. -/
theorem ofEntries_restates {es : Entries} {f : SettingsFile} (h : Restates es)
    (hf : ofEntries es = some f) : f.AreDefaults := by
  obtain ⟨hversion, hstem, hheaders, hdocs, htrail, -⟩ := ofEntries_eq_some_iff.mp hf
  rw [h.version] at hversion
  rw [trail?_of_restatesTrail h.trail] at htrail
  exact ⟨(Option.some.inj hversion).symm, eq_of_text?_absentOr h.stem hstem,
    eq_of_texts?_absentOr h.headers hheaders, eq_of_texts?_absentOr h.docs hdocs,
    (Option.some.inj htrail).symm⟩

end SettingsFile

namespace Settings

variable {env : Environment} {root : Path}

/-- The built-in paths are taken from the root as they stand. -/
theorem resolve_builtIn {e : String} (he : e ∈ defaultHeaders ++ defaultDocs) :
    Template.resolve env root e = .ok (root.join ⟨e⟩) := by
  have hplain : ∀ e ∈ defaultHeaders ++ defaultDocs, '$' ∉ e.toList ∧
      ¬ Template.rootMark <:+: e.toList ∧ e.toList.head? ≠ some '~' := by decide
  obtain ⟨hdollar, hmark, hhome⟩ := hplain e he
  exact Template.resolve_plain env root hdollar hmark hhome

/-- A list that is written out with its built-in paths is the built-in list. -/
theorem listed_of_defaults {builtIn : List String} {entries : Option (List String)}
    (hsub : ∀ e ∈ builtIn, e ∈ defaultHeaders ++ defaultDocs)
    (h : entries = none ∨ entries = some builtIn) :
    Listed env root builtIn entries (under root builtIn) := by
  rcases h with rfl | rfl
  · exact .absent
  · apply Listed.configured
    unfold under
    rw [List.forall₂_map_right_iff, List.forall₂_same]
    intro e he
    exact resolve_builtIn (hsub e he)

theorem resolve_defaults {f : SettingsFile} (h : f.AreDefaults) (source : Path) :
    resolve env root source f = .ok { builtIn root with source := some source } := by
  have hstem : f.stem ≠ some "" := by
    rcases h.stem with hs | hs
    · simp [hs]
    · rw [hs]
      decide
  rw [resolve_eq_ok_iff h.version hstem]
  refine ⟨rfl, rfl, ?_, listed_of_defaults ?_ h.headers, listed_of_defaults ?_ h.docs, ?_, ?_, ?_⟩
  · rcases h.stem with hs | hs
    · rw [hs]
      rfl
    · rw [hs]
      rfl
  · intro e he
    exact List.mem_append_left _ he
  · intro e he
    exact List.mem_append_right _ he
  · rw [h.trail]
    rfl
  · rw [h.trail]
    rfl
  · rw [h.trail]
    exact .none

theorem load_of_no_file {t : FileTree} (h : t.has (root.join ⟨fileName⟩) = false) :
    load t env none root = .ok (builtIn root) := by
  simp [load, h]

/-- A config file that says nothing but what holds without one, under the root or named explicitly,
gives the settings that are loaded where there is no config file; only it is named as their
source. -/
theorem load_restates {t t₀ : FileTree} {config : Option Path} {text : String} {es : Entries}
    (hread : t.read (config.getD (root.join ⟨fileName⟩)) = .ok text)
    (hdocument : Toml.Document.read text = some es) (haccepted : SettingsFile.read text ≠ none)
    (hes : SettingsFile.Restates es) (hnone : t₀.has (root.join ⟨fileName⟩) = false) :
    ∃ s, load t₀ env none root = .ok s ∧ s.source = none ∧
      load t env config root = .ok { s with source := some (config.getD (root.join ⟨fileName⟩)) } := by
  refine ⟨builtIn root, load_of_no_file hnone, rfl, ?_⟩
  obtain ⟨f, hf⟩ := Option.ne_none_iff_exists'.mp haccepted
  have hcontents : SettingsFile.ofEntries es = some f := by
    unfold SettingsFile.read at hf
    rwa [hdocument, Option.bind_some] at hf
  rw [load_of_read env hread, hf]
  exact resolve_defaults (SettingsFile.ofEntries_restates hes hcontents) _

/-- A config file that writes out one list and one value on the trail, with a key and a table that
are not known. -/
def restatingText : String :=
  "version = 1\ndoc_sources = [\"SPECIFICATION.md\", \"README.md\"]\nauthor = 7\n" ++
    "[logging]\nlevel = \"info\"\n[tool.more]\nlevel = 1.5\n"

/-- What this file holds as a table. -/
def restatingEntries : Entries :=
  [("version", .integer 1), ("doc_sources", .array [.string "SPECIFICATION.md", .string "README.md"]),
    ("author", .integer 7), ("logging", .table .header [("level", .string "info")]),
    ("tool", .table .implied [("more", .table .header [("level", .float "1.5")])])]

set_option maxRecDepth 2000 in
theorem read_restatingText : Toml.Document.read restatingText = some restatingEntries := rfl

/-- The root looks like a reference and like the mark of the root; the file is elsewhere. -/
theorem load_restatingText :
    ∃ s, load (.bare []) [] none ⟨"~/$HOME/\x7b\x7broot\x7d\x7d"⟩ = .ok s ∧ s.source = none ∧
      load ((FileTree.bare []).plant ⟨"c.toml"⟩ (.file restatingText.toUTF8)) [] (some ⟨"c.toml"⟩)
        ⟨"~/$HOME/\x7b\x7broot\x7d\x7d"⟩ = .ok { s with source := some ⟨"c.toml"⟩ } := by
  have hread : ((FileTree.bare []).plant ⟨"c.toml"⟩ (.file restatingText.toUTF8)).read
      ((some (Path.mk "c.toml")).getD (Path.join ⟨"~/$HOME/\x7b\x7broot\x7d\x7d"⟩ ⟨fileName⟩)) =
      .ok restatingText := by decide +kernel
  have hes : SettingsFile.Restates restatingEntries :=
    ⟨rfl, .inl rfl, .inl rfl, .inr rfl, .table (.inr rfl) rfl rfl⟩
  have haccepted : SettingsFile.read restatingText ≠ none := by decide +kernel
  exact load_restates hread read_restatingText haccepted hes (by decide +kernel)

end Settings

end DocCoverage
