import DocCoverage.Proofs.Settings.Resolution
import DocCoverage.Proofs.Settings.Shape
import DocCoverage.Proofs.Toml.Building
import DocCoverage.Proofs.Toml.Writing

/-!
# Writing config files

A draft is what somebody wants a config file to say.  It is written with one line for each key that
has a value, the keys of the trail last, under their header.  However its characters are escaped,
the file says what the draft says.

    SettingsFile.read (write w d) = some d.contents                                  (read_write)
    load of the written file      = the draft's version, prefix, levels and paths    (load_written)
-/

namespace DocCoverage

open Toml (Datum Line Spelling Entries Value)

/-- What a config file is to say.  Only the version is always there. -/
structure Draft where
  version : UInt32
  stem : Option String
  headers : Option (List String)
  docs : Option (List String)
  level : Option String
  fileLevel : Option String
  file : Option String
  deriving DecidableEq, Repr

namespace Draft

/-- The definition of a key that may have no value. -/
def field (k : String) (d : Option Datum) : List (String × Datum) :=
  (d.map (k, ·)).toList

/-- The keys in front of all headers. -/
def top (d : Draft) : List (String × Datum) :=
  ("version", .number d.version) :: field "namespace_prefix" (d.stem.map .text) ++
    field "header_sources" (d.headers.map .texts) ++ field "doc_sources" (d.docs.map .texts)

/-- The keys on the trail. -/
def trail (d : Draft) : List (String × Datum) :=
  field "level" (d.level.map .text) ++ field "file_level" (d.fileLevel.map .text) ++
    field "file" (d.file.map .text)

/-- The lines of a draft; without keys on the trail there is no header for them. -/
def lines (d : Draft) : List Line :=
  d.top.map (fun p => .define p.1 p.2) ++
    if d.trail.isEmpty then []
    else .header "logging" :: d.trail.map fun p => .define p.1 p.2

/-- The text of a draft. -/
def write (w : Spelling) (d : Draft) : String :=
  String.ofList (Line.writeAll w d.lines)

/-- The contents of a file that says what a draft says. -/
def contents (d : Draft) : SettingsFile :=
  ⟨d.version, d.stem, d.headers, d.docs, d.level.getD Settings.defaultLevel, d.fileLevel, d.file⟩

/-! ## The table of a draft -/

/-- Some definitions as entries of a table. -/
def entries (ds : List (String × Datum)) : Entries :=
  ds.map fun p => (p.1, p.2.value)

theorem keys_field (k : String) (d : Option Datum) : List.Sublist ((field k d).map Prod.fst) [k] := by
  cases d <;> simp [field]

theorem keys_top (d : Draft) : List.Sublist (d.top.map Prod.fst)
    ["version", "namespace_prefix", "header_sources", "doc_sources"] := by
  simp only [top, List.map_append, List.map_cons, List.cons_append]
  exact .cons_cons _ (((keys_field _ _).append (keys_field _ _)).append (keys_field _ _))

theorem keys_trail (d : Draft) :
    List.Sublist (d.trail.map Prod.fst) ["level", "file_level", "file"] := by
  simp only [trail, List.map_append]
  exact ((keys_field _ _).append (keys_field _ _)).append (keys_field _ _)

theorem keys_entries (ds : List (String × Datum)) : (entries ds).keys = ds.map Prod.fst := by
  simp [entries, Entries.keys]

theorem isBareKey_of_mem_lines {d : Draft} {l : Line} (h : l ∈ d.lines) :
    Toml.isBareKey l.name = true := by
  have htop : ∀ k ∈ d.top.map Prod.fst, Toml.isBareKey k = true := fun k hk =>
    (by decide : ∀ k ∈ ["version", "namespace_prefix", "header_sources", "doc_sources"],
      Toml.isBareKey k = true) k (d.keys_top.subset hk)
  have htrail : ∀ k ∈ d.trail.map Prod.fst, Toml.isBareKey k = true := fun k hk =>
    (by decide : ∀ k ∈ ["level", "file_level", "file"], Toml.isBareKey k = true) k
      (d.keys_trail.subset hk)
  unfold lines at h
  rw [List.mem_append] at h
  rcases h with h | h
  · obtain ⟨p, hp, rfl⟩ := List.mem_map.1 h
    exact htop _ (List.mem_map_of_mem hp)
  · split at h
    · simp at h
    · rcases List.mem_cons.1 h with rfl | h
      · decide
      · obtain ⟨p, hp, rfl⟩ := List.mem_map.1 h
        exact htrail _ (List.mem_map_of_mem hp)

theorem map_statement_define (ds : List (String × Datum)) :
    (ds.map fun p => Line.define p.1 p.2).map Line.statement = Toml.defines (entries ds) := by
  simp [entries, Toml.defines, Line.statement]

/-- The table of a draft: its top keys, and the trail in a table of its own. -/
def table (d : Draft) : Entries :=
  entries d.top ++ if d.trail.isEmpty then [] else [("logging", .table .header (entries d.trail))]

theorem read_document (w : Spelling) (d : Draft) :
    Toml.Document.read (d.write w) = some d.table := by
  have htop : (entries d.top).keys.Nodup := by
    rw [keys_entries]
    exact d.keys_top.nodup (by decide)
  have htrail : (entries d.trail).keys.Nodup := by
    rw [keys_entries]
    exact d.keys_trail.nodup (by decide)
  have hnew : "logging" ∉ (entries d.top).keys := by
    rw [keys_entries]
    intro h
    exact absurd (d.keys_top.subset h) (by decide)
  unfold Toml.Document.read write
  rw [String.toList_ofList, Line.statements_writeAll w fun l hl => isBareKey_of_mem_lines hl]
  unfold lines table
  rw [List.map_append, map_statement_define]
  split
  · simp [Toml.build_defines htop]
  · rw [List.map_cons, map_statement_define]
    exact Toml.build_header htop hnew htrail

/-! ## Reading the table -/

theorem lookup_singleton (k k' : String) (v : Value) :
    List.lookup k' [(k, v)] = if k' = k then some v else none := by
  by_cases h : k' = k
  · simp [h]
  · have hb : (k' == k) = false := by simpa using h
    simp [List.lookup_cons, h, hb]

theorem lookup_field (k k' : String) (d : Option Datum) :
    (entries (field k d)).lookup k' = if k' = k then d.map Datum.value else none := by
  cases d with
  | none => simp [field, entries]
  | some d => simpa [field, entries] using lookup_singleton k k' d.value

theorem lookup_append (ds ds' : List (String × Datum)) (k : String) :
    (entries (ds ++ ds')).lookup k = ((entries ds).lookup k).or ((entries ds').lookup k) := by
  simp [entries, List.lookup_append]

/-- The value of each key at the top. -/
theorem lookup_top (d : Draft) (k : String) :
    (entries d.top).lookup k =
      if k = "version" then some (.integer d.version.toNat)
      else if k = "namespace_prefix" then d.stem.map .string
      else if k = "header_sources" then d.headers.map fun ts => .array (ts.map .string)
      else if k = "doc_sources" then d.docs.map fun ts => .array (ts.map .string)
      else none := by
  have hversion : entries d.top = entries (field "version" (some (.number d.version)) ++
      field "namespace_prefix" (d.stem.map .text) ++ field "header_sources" (d.headers.map .texts) ++
        field "doc_sources" (d.docs.map .texts)) := by
    simp [top, field]
  rw [hversion]
  simp only [lookup_append, lookup_field, Option.map_map]
  split
  · next h => simp [h, Datum.value]
  · split
    · next h => simp [h, Function.comp_def, Datum.value]
    · split
      · next h => simp [h, Function.comp_def, Datum.value]
      · split <;> simp [Function.comp_def, Datum.value]

/-- The value of each key on the trail. -/
theorem lookup_trail (d : Draft) (k : String) :
    (entries d.trail).lookup k =
      if k = "level" then d.level.map .string
      else if k = "file_level" then d.fileLevel.map .string
      else if k = "file" then d.file.map .string
      else none := by
  simp only [trail, lookup_append, lookup_field, Option.map_map]
  split
  · next h => simp [h, Function.comp_def, Datum.value]
  · split
    · next h => simp [h, Function.comp_def, Datum.value]
    · split <;> simp [Function.comp_def, Datum.value]

/-- The section on the trail says what the draft says of it. -/
theorem trail?_lookup (d : Draft) :
    SettingsFile.trail? (d.table.lookup "logging") =
      some ⟨d.level.getD Settings.defaultLevel, d.fileLevel, d.file⟩ := by
  have hnone : (entries d.top).lookup "logging" = none := by simp [lookup_top]
  unfold table
  rw [List.lookup_append, hnone, Option.none_or]
  split
  · next h =>
    have habsent : d.level = none ∧ d.fileLevel = none ∧ d.file = none := by
      simpa [trail, field] using h
    simp [SettingsFile.trail?, SettingsFile.trailOf, SettingsFile.text?, habsent]
  · simp [SettingsFile.trail?, SettingsFile.trailOf, Entries.get?, lookup_trail,
      SettingsFile.text?_map]

theorem isSound_value (d : Datum) : d.value.isSound = true := by
  cases d with
  | texts ts => simp [Datum.value, Value.isSound, Toml.areSound_iff]
  | _ => rfl

theorem isSound_table {d : Draft} {e : String × Value} (h : e ∈ d.table) : e.2.isSound = true := by
  have hentries : ∀ ds : List (String × Datum), ∀ e ∈ entries ds, e.2.isSound = true := by
    intro ds e he
    obtain ⟨p, -, rfl⟩ := List.mem_map.1 he
    exact isSound_value p.2
  unfold table at h
  rcases List.mem_append.1 h with h | h
  · exact hentries _ e h
  · split at h
    · simp at h
    · obtain rfl := List.mem_singleton.1 h
      simpa [Value.isSound, Toml.entriesAreSound_iff] using hentries d.trail

/-- A draft that is written and read says what it said. -/
theorem read_write (w : Spelling) (d : Draft) :
    SettingsFile.read (d.write w) = some d.contents := by
  have hlookup : ∀ k, k ≠ "logging" → d.table.lookup k = (entries d.top).lookup k := by
    intro k hk
    unfold table
    rw [List.lookup_append]
    split <;> simp [lookup_singleton, hk]
  have hreadable : d.table.all SettingsFile.isReadable = true := by
    rw [List.all_eq_true]
    intro e he
    unfold SettingsFile.isReadable
    split
    · rfl
    · exact isSound_table he
  unfold SettingsFile.read SettingsFile.ofEntries
  rw [read_document, Option.bind_some]
  simp only [Entries.get?]
  rw [hlookup "version" (by decide), hlookup "namespace_prefix" (by decide),
    hlookup "header_sources" (by decide), hlookup "doc_sources" (by decide), trail?_lookup]
  simp [lookup_top, SettingsFile.version?_number, SettingsFile.text?_map, SettingsFile.texts?_map,
    hreadable, contents]

end Draft

namespace Settings

/-- A draft that was written is loaded as what it says.  Only its version, its prefix or a variable
without a value can be refused, never the text. -/
theorem load_written (w : Spelling) (d : Draft) (t : FileTree) (env : Environment)
    (config : Option Path) (root : Path)
    (hread : t.read (config.getD (root.join ⟨fileName⟩)) = .ok (d.write w)) :
    (∀ file, load t env config root ≠ .error (.malformed file)) ∧
    (d.version ≠ 1 → load t env config root = .error (.unsupportedVersion d.version)) ∧
    (d.version = 1 → d.stem = some "" → load t env config root = .error .emptyPrefix) ∧
    (d.version = 1 → d.stem ≠ some "" →
      (∀ s, load t env config root = .ok s ↔
        Describes env root (config.getD (root.join ⟨fileName⟩)) d.contents s) ∧
      ∀ e, load t env config root = .error e ↔
        ∃ name entry, e = .unsetVariable name entry ∧
          FirstUnset env root d.contents.entries name entry) := by
  have hload := load_of_read env hread
  simp only [Draft.read_write] at hload
  rw [hload]
  refine ⟨?_, fun hversion => ?_, fun hversion hstem => ?_, fun hversion hstem => ⟨?_, ?_⟩⟩
  · intro file h
    by_cases hversion : d.contents.version = 1
    · by_cases hstem : d.contents.stem = some ""
      · rw [resolve_of_stem hversion hstem] at h
        cases h
      · obtain ⟨name, entry, he, -⟩ := (resolve_eq_error_iff hversion hstem).1 h
        cases he
    · rw [resolve_of_version hversion] at h
      cases h
  · exact resolve_of_version hversion
  · exact resolve_of_stem hversion hstem
  · exact fun s => resolve_eq_ok_iff hversion hstem
  · exact fun e => resolve_eq_error_iff hversion hstem

/-- A draft with a line end, marks of strings and a control character in it. -/
def sampleDraft : Draft where
  version := 1
  stem := some "a\"\\\n\x07'"
  headers := some ["$X/b.h", "~"]
  docs := some []
  level := none
  fileLevel := some ""
  file := some "{{root}}"

/-- The tree that holds the sample draft under the root `p`. -/
def draftTree : FileTree :=
  (FileTree.bare ["w"]).plant ⟨"p/helper-docs.toml"⟩ (.file (sampleDraft.write .usual).toUTF8)

/-- The sample draft is loaded as what it says. -/
theorem load_sampleDraft :
    draftTree.read ⟨"p/helper-docs.toml"⟩ = .ok (sampleDraft.write .usual) ∧
    load draftTree [("X", "v")] none ⟨"p"⟩ = .ok {
      root := ⟨"p"⟩
      source := some ⟨"p/helper-docs.toml"⟩
      stem := "a\"\\\n\x07'"
      headers := [⟨"p/v/b.h"⟩, ⟨"p/~"⟩]
      docs := []
      trail := ⟨"info", some "", some ⟨"p/p"⟩⟩ } := by
  have hread : draftTree.read ⟨"p/helper-docs.toml"⟩ = .ok (sampleDraft.write .usual) := by
    decide +kernel
  refine ⟨hread, ?_⟩
  obtain ⟨-, -, -, h⟩ := load_written .usual sampleDraft draftTree [("X", "v")] none ⟨"p"⟩ hread
  refine ((h rfl (by decide)).1 _).2
    ⟨rfl, rfl, rfl, .configured ?_, .configured .nil, rfl, rfl, .some ?_⟩
  · exact .cons (by decide +kernel) (.cons (by decide +kernel) .nil)
  · decide +kernel

end Settings

end DocCoverage
