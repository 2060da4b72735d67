import DocCoverage.Settings.Basic
import DocCoverage.Toml.Document

/-!
# What a config file says

Only the version is required; keys that are not known are passed over, but their values are looked
at.  The section on the trail may be a table, or an array of its three values in order, of which
later ones may be left out; what follows the three is not looked at.
-/

namespace DocCoverage

open Toml (Value Entries)

/-- The section on the trail, before its path is resolved. -/
structure TrailSection where
  level : String
  fileLevel : Option String
  file : Option String
  deriving DecidableEq, Repr

/-- The contents of a config file, before its paths are resolved. -/
structure SettingsFile where
  version : UInt32
  stem : Option String
  headers : Option (List String)
  docs : Option (List String)
  trail : TrailSection
  deriving DecidableEq, Repr

namespace SettingsFile

/-- A value that has to be a string where there is one. -/
def text? : Option Value → Option (Option String)
  | none => some none
  | some (.string t) => some (some t)
  | some _ => none

def string? : Value → Option String
  | .string t => some t
  | _ => none

/-- A value that has to be an array of strings where there is one. -/
def texts? : Option Value → Option (Option (List String))
  | none => some none
  | some (.array items) => (items.mapM string?).map some
  | some _ => none

/-- A value that has to be a whole number of 32 bits. -/
def version? : Option Value → Option UInt32
  | some (.integer n) =>
    if 0 ≤ n ∧ n.toNat < UInt32.size then some (UInt32.ofNat n.toNat) else none
  | _ => none

/-- The section on the trail from its three values. -/
def trailOf (level fileLevel file : Option Value) : Option TrailSection := do
  return ⟨(← text? level).getD Settings.defaultLevel, ← text? fileLevel, ← text? file⟩

/-- The section on the trail.  A moment is taken for a table without any of the keys. -/
def trail? : Option Value → Option TrailSection
  | none => trailOf none none none
  | some (.table _ es) =>
    trailOf (Entries.get? es "level") (Entries.get? es "file_level") (Entries.get? es "file")
  | some (.array items) => trailOf items[0]? items[1]? items[2]?
  | some (.moment _) => trailOf none none none
  | some _ => none

/-- Whether what is looked at of an entry is sound.  An array on the trail is not looked at beyond
its three values, and these are strings anyway. -/
def isReadable : String × Value → Bool
  | ("logging", .array _) => true
  | (_, v) => v.isSound

/-- The contents of a config file that was read as a table. -/
def ofEntries (es : Entries) : Option SettingsFile := do
  let file : SettingsFile := {
    version := ← version? (es.get? "version")
    stem := ← text? (es.get? "namespace_prefix")
    headers := ← texts? (es.get? "header_sources")
    docs := ← texts? (es.get? "doc_sources")
    trail := ← trail? (es.get? "logging") }
  if es.all isReadable then some file else none

def read (text : String) : Option SettingsFile :=
  (Toml.Document.read text).bind ofEntries

/-! ## Lemmas -/

/-- A table is read key by key. -/
theorem ofEntries_eq_some_iff {es : Entries} {f : SettingsFile} :
    ofEntries es = some f ↔
      version? (es.get? "version") = some f.version ∧
      text? (es.get? "namespace_prefix") = some f.stem ∧
      texts? (es.get? "header_sources") = some f.headers ∧
      texts? (es.get? "doc_sources") = some f.docs ∧
      trail? (es.get? "logging") = some f.trail ∧ es.all isReadable = true := by
  obtain ⟨version, stem, headers, docs, trail⟩ := f
  unfold ofEntries
  simp only [Option.bind_eq_bind, Option.bind_eq_some_iff]
  constructor
  · rintro ⟨version', hversion, stem', hstem, headers', hheaders, docs', hdocs, trail', htrail, h⟩
    split at h
    · next hall =>
      cases h
      exact ⟨hversion, hstem, hheaders, hdocs, htrail, hall⟩
    · cases h
  · rintro ⟨hversion, hstem, hheaders, hdocs, htrail, hall⟩
    exact ⟨_, hversion, _, hstem, _, hheaders, _, hdocs, _, htrail, if_pos hall⟩

end SettingsFile

end DocCoverage
