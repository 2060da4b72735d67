import DocCoverage.Settings.File

/-!
# The shape of a config file

Which tables are accepted as a config file, key by key: where a key has a value at all, it is the one
value that says what the contents hold.

    text? v = some t      ↔  v is the string of t, absent with it               (text?_eq_some_iff)
    texts? v = some ts    ↔  v is the array of the strings ts, absent with it  (texts?_eq_some_iff)
    version? v = some n   ↔  v is the number n                               (version?_eq_some_iff)
    read text = some f    ↔  text is a document whose table has the shape of f   (read_eq_some_iff)
-/

namespace DocCoverage.SettingsFile

open Toml (Entries Value Origin)

/-! ## One value -/

theorem text?_map (t : Option String) : text? (t.map .string) = some t := by
  cases t <;> rfl

theorem text?_eq_some_iff {v : Option Value} {t : Option String} :
    text? v = some t ↔ v = t.map .string := by
  constructor
  · intro h
    unfold text? at h
    split at h
    · obtain rfl := Option.some.inj h
      rfl
    · obtain rfl := Option.some.inj h
      rfl
    · cases h
  · rintro rfl
    exact text?_map t

theorem mapM_string?_eq_some_iff {items : List Value} {ts : List String} :
    items.mapM string? = some ts ↔ items = ts.map .string := by
  induction items generalizing ts with
  | nil => simp [eq_comm]
  | cons item items ih =>
    have hitem : ∀ t, string? item = some t ↔ item = .string t := by
      intro t
      cases item <;> simp [string?]
    rw [List.mapM_cons]
    simp only [Option.bind_eq_bind, Option.bind_eq_some_iff, hitem, ih, pure, Option.some.injEq]
    constructor
    · rintro ⟨t, rfl, ts', rfl, rfl⟩
      rfl
    · intro h
      cases ts with
      | nil => cases h
      | cons t ts =>
        obtain ⟨rfl, rfl⟩ := List.cons.inj h
        exact ⟨t, rfl, ts, rfl, rfl⟩

theorem texts?_eq_some_iff {v : Option Value} {ts : Option (List String)} :
    texts? v = some ts ↔ v = ts.map fun ts => .array (ts.map .string) := by
  constructor
  · intro h
    unfold texts? at h
    split at h
    · obtain rfl := Option.some.inj h
      rfl
    · obtain ⟨ts', hts, rfl⟩ := Option.map_eq_some_iff.mp h
      rw [mapM_string?_eq_some_iff.mp hts]
      rfl
    · cases h
  · rintro rfl
    cases ts with
    | none => rfl
    | some ts => simp only [Option.map_some, texts?, mapM_string?_eq_some_iff.mpr rfl]

theorem texts?_map (ts : Option (List String)) :
    texts? (ts.map fun ts => .array (ts.map .string)) = some ts :=
  texts?_eq_some_iff.mpr rfl

theorem version?_number (n : UInt32) : version? (some (.integer n.toNat)) = some n := by
  have hlt : n.toNat < UInt32.size := n.toNat_lt
  simp [version?, hlt]

theorem version?_eq_some_iff {v : Option Value} {n : UInt32} :
    version? v = some n ↔ v = some (.integer n.toNat) := by
  constructor
  · intro h
    unfold version? at h
    split at h
    · next i =>
      split at h
      · next hi =>
        obtain rfl := Option.some.inj h
        have hback : ((UInt32.ofNat i.toNat).toNat : Int) = i := by
          rw [UInt32.toNat_ofNat_of_lt' hi.2, Int.toNat_of_nonneg hi.1]
        rw [hback]
      · cases h
    · cases h
  · rintro rfl
    exact version?_number n

/-! ## The section on the trail -/

/-- The section on the trail is absent, or it is a table or an array that says what it holds; a moment
says nothing. -/
inductive HasTrailShape : Option Value → TrailSection → Prop
  | absent : HasTrailShape none ⟨Settings.defaultLevel, none, none⟩
  | moment (written : String) :
      HasTrailShape (some (.moment written)) ⟨Settings.defaultLevel, none, none⟩
  | table (origin : Origin) {es : Entries} {level fileLevel file : Option String}
      (hlevel : es.get? "level" = level.map .string)
      (hfileLevel : es.get? "file_level" = fileLevel.map .string)
      (hfile : es.get? "file" = file.map .string) :
      HasTrailShape (some (.table origin es)) ⟨level.getD Settings.defaultLevel, fileLevel, file⟩
  | array {items : List Value} {level fileLevel file : Option String}
      (hlevel : items[0]? = level.map .string) (hfileLevel : items[1]? = fileLevel.map .string)
      (hfile : items[2]? = file.map .string) :
      HasTrailShape (some (.array items)) ⟨level.getD Settings.defaultLevel, fileLevel, file⟩

theorem trailOf_eq_some_iff {level fileLevel file : Option Value} {s : TrailSection} :
    trailOf level fileLevel file = some s ↔ ∃ level' fileLevel' file' : Option String,
      level = level'.map .string ∧ fileLevel = fileLevel'.map .string ∧
      file = file'.map .string ∧ s = ⟨level'.getD Settings.defaultLevel, fileLevel', file'⟩ := by
  unfold trailOf
  simp only [Option.bind_eq_bind, Option.bind_eq_some_iff, text?_eq_some_iff, pure,
    Option.some.injEq]
  constructor
  · rintro ⟨level', hlevel, fileLevel', hfileLevel, file', hfile, rfl⟩
    exact ⟨level', fileLevel', file', hlevel, hfileLevel, hfile, rfl⟩
  · rintro ⟨level', fileLevel', file', hlevel, hfileLevel, hfile, rfl⟩
    exact ⟨level', hlevel, fileLevel', hfileLevel, file', hfile, rfl⟩

theorem trail?_eq_some_iff {v : Option Value} {s : TrailSection} :
    trail? v = some s ↔ HasTrailShape v s := by
  constructor
  · intro h
    unfold trail? at h
    split at h
    · obtain rfl := Option.some.inj h
      exact .absent
    · next origin es =>
      obtain ⟨level, fileLevel, file, hlevel, hfileLevel, hfile, rfl⟩ := trailOf_eq_some_iff.mp h
      exact .table origin hlevel hfileLevel hfile
    · obtain ⟨level, fileLevel, file, hlevel, hfileLevel, hfile, rfl⟩ := trailOf_eq_some_iff.mp h
      exact .array hlevel hfileLevel hfile
    · next written =>
      obtain rfl := Option.some.inj h
      exact .moment written
    · cases h
  · intro h
    cases h with
    | absent => rfl
    | moment => rfl
    | table origin hlevel hfileLevel hfile =>
      exact trailOf_eq_some_iff.mpr ⟨_, _, _, hlevel, hfileLevel, hfile, rfl⟩
    | array hlevel hfileLevel hfile =>
      exact trailOf_eq_some_iff.mpr ⟨_, _, _, hlevel, hfileLevel, hfile, rfl⟩

/-! ## The whole file -/

/-- A table has the shape of a config file with these contents.  Other keys may have any value that
can be looked at. -/
structure HasShape (es : Entries) (f : SettingsFile) : Prop where
  version : es.get? "version" = some (.integer f.version.toNat)
  stem : es.get? "namespace_prefix" = f.stem.map .string
  headers : es.get? "header_sources" = f.headers.map fun ts => .array (ts.map .string)
  docs : es.get? "doc_sources" = f.docs.map fun ts => .array (ts.map .string)
  trail : HasTrailShape (es.get? "logging") f.trail
  readable : ∀ e ∈ es, isReadable e = true

/-- The text is a document of the shape of a config file, with these contents. -/
def Says (text : String) (f : SettingsFile) : Prop :=
  ∃ es, Toml.Document.read text = some es ∧ HasShape es f

theorem read_eq_some_iff {text : String} {f : SettingsFile} : read text = some f ↔ Says text f := by
  have hshape : ∀ es, ofEntries es = some f ↔ HasShape es f := by
    intro es
    rw [ofEntries_eq_some_iff, version?_eq_some_iff, text?_eq_some_iff, texts?_eq_some_iff,
      texts?_eq_some_iff, trail?_eq_some_iff, List.all_eq_true]
    constructor
    · rintro ⟨hversion, hstem, hheaders, hdocs, htrail, hreadable⟩
      exact ⟨hversion, hstem, hheaders, hdocs, htrail, hreadable⟩
    · intro h
      exact ⟨h.version, h.stem, h.headers, h.docs, h.trail, h.readable⟩
  unfold read
  rw [Option.bind_eq_some_iff]
  exact exists_congr fun es => and_congr_right fun _ => hshape es

end DocCoverage.SettingsFile
