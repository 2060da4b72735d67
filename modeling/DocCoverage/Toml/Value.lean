/-!
# TOML values

A table remembers how it came to be, because that decides what may still be added to it:

    inline    written between braces, complete once it is closed
    dotted    opened by a dotted key; other dotted keys may extend it
    implied   opened on the way to a header; a header of its own may follow later
    header    opened by a header of its own, once

Numbers with a fraction and date-times keep the text they were written in.

A number that does not fit, and a text that only looks like a number, is a hollow value: a document
may hold it, but whoever looks at it finds nothing.  A value is sound if it holds no hollow one.
-/

namespace DocCoverage.Toml

/-- How a table came to be. -/
inductive Origin where
  | inline
  | dotted
  | implied
  | header
  deriving DecidableEq, Repr

inductive Value where
  | string (text : String)
  | integer (n : Int)
  | float (written : String)
  | boolean (b : Bool)
  | moment (written : String)
  | array (items : List Value)
  | table (origin : Origin) (entries : List (String × Value))
  /-- An array of tables that headers have opened: all but the last, and the last. -/
  | tables (earlier : List Value) (last : List (String × Value))
  | hollow (written : String)
  deriving Repr

mutual

/-- Whether no hollow value is in a value. -/
def Value.isSound : Value → Bool
  | .array items => areSound items
  | .table _ entries => entriesAreSound entries
  | .tables earlier last => areSound earlier && entriesAreSound last
  | .hollow _ => false
  | _ => true

/-- Whether no hollow value is in some values. -/
def areSound : List Value → Bool
  | [] => true
  | v :: vs => v.isSound && areSound vs

/-- Whether no hollow value is in some entries. -/
def entriesAreSound : List (String × Value) → Bool
  | [] => true
  | (_, v) :: es => v.isSound && entriesAreSound es

end

theorem areSound_iff {vs : List Value} : areSound vs = true ↔ ∀ v ∈ vs, v.isSound = true := by
  induction vs with
  | nil => simp [areSound]
  | cons v vs ih => simp [areSound, ih]

theorem entriesAreSound_iff {es : List (String × Value)} :
    entriesAreSound es = true ↔ ∀ e ∈ es, e.2.isSound = true := by
  induction es with
  | nil => simp [entriesAreSound]
  | cons e es ih => simp [entriesAreSound, ih]

/-- The keys of a table with their values, in the order of their definition. -/
abbrev Entries := List (String × Value)

/-- A reader takes a value off the front of a text, or refuses the text. -/
abbrev Reader (α : Type) := List Char → Option (α × List Char)

end DocCoverage.Toml
