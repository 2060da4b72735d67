import DocCoverage.Proofs.Settings.Resolution
import DocCoverage.Proofs.Toml.Beside
import DocCoverage.Proofs.Toml.Grammar

/-!
# Keys that are not known

A definition of a key that is not known, on a line in front of a document that does not use this key,
says nothing.  Its value may be of any kind; only a number that does not fit is noticed, and then the
file is malformed.

    build (define [k] x :: ss)   =  build ss with one more key                     (build_define_cons)
    ofEntries of one more key    =  ofEntries without it, if its value is sound    (ofEntries_beside)
    read (line ++ text)          =  read text, if the value on the line is sound        (read_unknown)
    load                         is the same for both files                             (load_unknown)
-/

namespace DocCoverage

open Toml (Entries Value Beside Statement SpellsKey)

/-- A definition in front of statements that do not use its key. -/
theorem Toml.build_define_cons {k : String} (x : Value) {ss : List Statement}
    (h : ∀ s ∈ ss, s.key.head? ≠ some k) :
    Option.Rel (Beside k x) (build ss) (build (.define [k] x :: ss)) := by
  rw [build_eq_run, build_eq_run]
  exact run_beside (.here []) (by simp) h

namespace SettingsFile

/-- The keys that are known. -/
def known : List String :=
  ["version", "namespace_prefix", "header_sources", "doc_sources", "logging"]

/-- A key that is not known is not asked for; its value has to be sound. -/
theorem ofEntries_beside {k : String} {x : Value} {es es' : Entries} (h : Beside k x es es')
    (hk : k ∉ known) : ofEntries es' = if x.isSound then ofEntries es else none := by
  have hlookup : ∀ k' ∈ known, es'.get? k' = es.get? k' := fun k' hk' =>
    h.lookup (ne_of_mem_of_not_mem hk' hk)
  have hreadable : isReadable (k, x) = x.isSound := by
    have hlogging : k ≠ "logging" := fun he => hk (by simp [he, known])
    unfold isReadable
    split
    · next heq => exact absurd (Prod.mk.inj heq).1 hlogging
    · next heq =>
      obtain ⟨-, rfl⟩ := Prod.mk.inj heq
      rfl
  apply Option.ext
  intro f
  rw [ofEntries_eq_some_iff, hlookup "version" (by simp [known]),
    hlookup "namespace_prefix" (by simp [known]), hlookup "header_sources" (by simp [known]),
    hlookup "doc_sources" (by simp [known]), hlookup "logging" (by simp [known]), h.all, hreadable]
  cases x.isSound with
  | true => rw [if_pos rfl, ofEntries_eq_some_iff, Bool.true_and]
  | false => simp

/-- A line with a key that is not known, in front of a text that does not use this key. -/
theorem read_unknown {k kt v text : String} {x : Value} (hkt : SpellsKey [k] kt.toList)
    (hk : k ∉ known) (hv : Toml.IsValue v.toList x) (hmark : text.toList.head? ≠ some '\ufeff')
    (huse : ∀ ss, Toml.statements text.toList = some ss → ∀ s ∈ ss, s.key.head? ≠ some k) :
    read (kt ++ " = " ++ v ++ "\n" ++ text) = if x.isSound then read text else none := by
  have hline : (kt ++ " = " ++ v ++ "\n" ++ text).toList =
      Toml.defineLine kt.toList v.toList ++ text.toList := by
    simp [Toml.defineLine]
  have hstatements := Toml.statements_append (Toml.isLines_defineLine kt.toList v.toList)
    (Toml.statements_defineLine hkt (by simp [Toml.maxParts]) hv) hmark
  unfold read Toml.Document.read
  rw [hline, hstatements]
  cases hss : Toml.statements text.toList with
  | none => simp
  | some ss =>
    show (Toml.build (.define [k] x :: ss)).bind ofEntries = _
    have hbuild := Toml.build_define_cons x (huse ss hss)
    rw [Option.bind_some]
    generalize Toml.build ss = es, Toml.build (.define [k] x :: ss) = es' at hbuild ⊢
    cases hbuild with
    | none => simp
    | some h => exact ofEntries_beside h hk

end SettingsFile

namespace Settings

open SettingsFile (known)

/-- Keys that are not known are passed over.  A line `k = v` in front of a document changes nothing of
what is loaded, whatever value of the grammar stands there, as long as its numbers fit; with a number
that does not fit the file is malformed. -/
theorem load_unknown {k kt v text : String} {x : Value} (hkt : SpellsKey [k] kt.toList)
    (hk : k ∉ known) (hv : Toml.Writes Toml.maxDepth v.toList x)
    (hmark : text.toList.head? ≠ some '\ufeff')
    (huse : ∀ ss, Toml.statements text.toList = some ss → ∀ s ∈ ss, s.key.head? ≠ some k)
    {t t' : FileTree} {config : Option Path} {root : Path}
    (hread : t.read (config.getD (root.join ⟨fileName⟩)) = .ok text)
    (hread' : t'.read (config.getD (root.join ⟨fileName⟩)) =
      .ok (kt ++ " = " ++ v ++ "\n" ++ text))
    (env : Environment) :
    (x.isSound = true → load t' env config root = load t env config root) ∧
    (x.isSound = false →
      load t' env config root = .error (.malformed (config.getD (root.join ⟨fileName⟩)))) := by
  rw [load_of_read env hread', load_of_read env hread,
    SettingsFile.read_unknown hkt hk (Toml.isValue_writes hv) hmark huse]
  constructor
  · intro hx
    rw [if_pos hx]
  · intro hx
    rw [hx]
    rfl

/-- A document with a header. -/
def plainText : String := "version = 1\n[notes]\nlevel = 'x'\n"

/-- A key that has to be written in quotes, with an escape. -/
def spacedKey : String := "\"a\\x20b\""

/-- An array over three lines, with a comment, an inline table and strings that hold marks. -/
def mixedArray : String := "[\x7bc = \"]#\"\x7d, # ]\n'''\n\x7d''', 2024-02-29]"

/-- The array in front of the document is passed over. -/
theorem load_mixedArray :
    load (treeOf (spacedKey ++ " = " ++ mixedArray ++ "\n" ++ plainText)) [] none ⟨"p"⟩ =
      load (treeOf plainText) [] none ⟨"p"⟩ ∧
    load (treeOf plainText) [] none ⟨"p"⟩ =
      .ok { builtIn ⟨"p"⟩ with source := some ⟨"p/helper-docs.toml"⟩ } := by
  have hkey : SpellsKey ["a b"] spacedKey.toList := by
    have hspells : List.Forall₂ Toml.SpellsChar "a b".toList
        [['a'], ['\\', 'x', '2', '0'], ['b']] :=
      .cons (.itself (by decide) (by decide) (by decide))
        (.cons (.escape (.number (by decide) (by decide)))
          (.cons (.itself (by decide) (by decide) (by decide)) .nil))
    exact .one (.quoted (.basic hspells))
  have hvalue : Toml.Writes Toml.maxDepth mixedArray.toList
      (.array [.table .inline [("c", .string "]#")], .string "\x7d", .moment "2024-02-29"]) := by
    have hgap : Toml.IsGap [' '] := .blank (by simp [Toml.isBlank]) .nil
    have hcomment : Toml.IsGap [' ', '#', ' ', ']', '\n'] :=
      .blank (by simp [Toml.isBlank])
        (.comment (t := [' ', ']']) (by simp [Toml.isTextChar]) (.inl rfl) .nil)
    have hmarks : List.Forall₂ Toml.SpellsChar "]#".toList [[']'], ['#']] :=
      .cons (.itself (by decide) (by decide) (by decide))
        (.cons (.itself (by decide) (by decide) (by decide)) .nil)
    have hpair : Toml.WritesPair (Toml.Writes 78) _ (["c"], .string "]#") :=
      .intro (.one (.bare (by decide))) (by decide) hgap hgap
        (Toml.writes_string (.line (.basic hmarks)) 78)
    have htable : Toml.Writes 79 _ (.table .inline [("c", .string "]#")]) :=
      .inline (.last .nil hpair .nil) rfl
    have hlines : Toml.SpellsLines '\'' 0 ['}'] "\x7d".toList :=
      .itself (by decide) (by decide) (by decide) .nil
    have hstring : Toml.WritesString _ "\x7d" := .lines (.intro (by simp) (.inl (.inl rfl)) hlines)
    have hdate : Toml.Writes 79 "2024-02-29".toList (.moment "2024-02-29") :=
      .simple (.plain (by simp [Toml.isPlainChar, Toml.isBlank]) (by simp) rfl)
    have harray : Toml.Writes 80 _ _ :=
      .array (.cons .nil htable .nil (.cons hcomment (Toml.writes_string hstring 79) .nil
        (.last hgap hdate .nil)))
    exact harray
  have hstatements : Toml.statements plainText.toList =
      some [.define ["version"] (.integer 1), .header ["notes"], .define ["level"] (.string "x")] :=
    rfl
  have huse : ∀ ss, Toml.statements plainText.toList = some ss →
      ∀ s ∈ ss, s.key.head? ≠ some "a b" := by
    intro ss hss
    obtain rfl := Option.some.inj (hstatements.symm.trans hss)
    simp [Statement.key]
  have hroot : (none : Option Path).getD ((⟨"p"⟩ : Path).join ⟨fileName⟩) = ⟨"p/helper-docs.toml"⟩ := by
    decide
  have hload := (load_unknown hkey (by decide) hvalue (by decide) huse
    (hroot ▸ read_treeOf _) (hroot ▸ read_treeOf _) []).1 rfl
  refine ⟨hload, ?_⟩
  decide +kernel

/-- A number that does not fit is a value by its grammar, but no file may hold it. -/
theorem load_overflowing :
    Toml.Writes Toml.maxDepth "1e400".toList (.hollow "1e400") ∧
    Toml.statements "version = 1\n".toList = some [.define ["version"] (.integer 1)] ∧
    load (treeOf "version = 1\n") [] none ⟨"p"⟩ =
      .ok { builtIn ⟨"p"⟩ with source := some ⟨"p/helper-docs.toml"⟩ } ∧
    load (treeOf ("x" ++ " = " ++ "1e400" ++ "\n" ++ "version = 1\n")) [] none ⟨"p"⟩ =
      .error (.malformed ⟨"p/helper-docs.toml"⟩) := by
  refine ⟨?_, rfl, ?_, ?_⟩
  · exact .simple (.plain (by simp [Toml.isPlainChar, Toml.isBlank]) (by simp) rfl)
  · decide +kernel
  · decide +kernel

end Settings

end DocCoverage
