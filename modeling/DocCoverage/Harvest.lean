import DocCoverage.Source
import DocCoverage.Symbol.Matcher

/-!
# Gathering symbols from sources

The sources of one role are read in order.  Their symbols are united, the readable ones are counted
(an empty text is readable), and the others are listed with their causes.
-/

namespace DocCoverage

/-- What a source is read for. -/
inductive Role where
  | header
  | documentation
  deriving DecidableEq, Repr

/-- A header declares the symbols of its call sites, a document the symbols it mentions. -/
def Role.recognition : Role → Recognition
  | .header => .callSite
  | .documentation => .mention

structure Harvest where
  symbols : SymbolSet
  readable : Nat
  skipped : List SourceError
  deriving DecidableEq, Repr

namespace Harvest

/-- The names found in some texts, in order and with repetitions. -/
def names (m : Matcher) (r : Recognition) (texts : List String) : List String :=
  texts.flatMap fun text => (m.extract r text).toList

def ofReadings (m : Matcher) (role : Role) (readings : List Reading) : Harvest where
  symbols := .ofList (names m role.recognition (readings.filterMap Reading.text?))
  readable := (readings.filterMap Reading.text?).length
  skipped := readings.filterMap Reading.error?

theorem mem_symbols {m : Matcher} {role : Role} {readings : List Reading} {x : String} :
    x ∈ (ofReadings m role readings).symbols ↔
      ∃ text, text ∈ readings.filterMap Reading.text? ∧ x ∈ m.extract role.recognition text := by
  show x ∈ SymbolSet.ofList _ ↔ _
  rw [SymbolSet.mem_ofList, names, List.mem_flatMap]
  rfl

end Harvest

end DocCoverage
