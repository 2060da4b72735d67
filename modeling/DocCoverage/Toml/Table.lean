import DocCoverage.Toml.Value

/-!
# Building tables

Every definition adds to the entries of a table and never replaces any.  What a key leads to has to
be open for what the key does: a dotted key passes through tables that no header opened, a header
passes through all tables but inline ones, and both go on in the last table of an array of tables.
-/

namespace DocCoverage.Toml

namespace Entries

def get? (es : Entries) (k : String) : Option Value :=
  es.lookup k

/-- Replaces the value of a key, or adds the key at the end.  The change gets the old value and may
refuse. -/
def alter (k : String) (change : Option Value → Option Value) : Entries → Option Entries
  | [] => (change none).map fun v => [(k, v)]
  | (k', v) :: es =>
    if k = k' then (change (some v)).map fun v => (k', v) :: es
    else (alter k change es).map ((k', v) :: ·)

/-- Whether a key may pass through a table: `via` is the origin of the tables that it opens. -/
def passes (via origin : Origin) : Bool :=
  origin != .inline && !(via == .dotted && origin == .header)

/-- Follows a key from a table, opening what is missing, and changes the table at its end.  The
change also gets that table's origin. -/
def reach (via : Origin) (change : Origin → Entries → Option Entries) :
    List String → Origin → Entries → Option Entries
  | [], origin, es => change origin es
  | k :: ks, _, es =>
    es.alter k fun
      | none => (reach via change ks via []).map (.table via)
      | some (.table origin inner) =>
        if passes via origin then (reach via change ks origin inner).map (.table origin) else none
      | some (.tables earlier last) =>
        (reach via change ks .header last).map (.tables earlier)
      | some _ => none

/-- Adds a key that is not there yet. -/
def add (k : String) (v : Value) (es : Entries) : Option Entries :=
  es.alter k fun
    | none => some v
    | some _ => none

/-- Defines a value by a dotted key.  Only tables that dotted keys opened take values that way. -/
def assign (ks : List String) (v : Value) (origin : Origin) (es : Entries) : Option Entries :=
  match ks.getLast? with
  | none => none
  | some k =>
    reach .dotted
      (fun found inner =>
        if ks.dropLast.isEmpty || found == .dotted then add k v inner else none)
      ks.dropLast origin es

/-- Defines several values in a table, in order. -/
def assignAll (defs : List (List String × Value)) (origin : Origin) (es : Entries) :
    Option Entries :=
  defs.foldlM (fun es d => es.assign d.1 d.2 origin) es

/-- Opens the table of a header and defines values in it.  A table that was only implied so far is
kept. -/
def openTable (ks : List String) (defs : List (List String × Value)) (es : Entries) :
    Option Entries :=
  match ks.getLast? with
  | none => none
  | some k =>
    reach .implied
      (fun _ inner => inner.alter k fun
        | none => (assignAll defs .header []).map (.table .header)
        | some (.table .implied kept) => (assignAll defs .header kept).map (.table .header)
        | some _ => none)
      ks.dropLast .header es

/-- Opens one more table of an array of tables and defines values in it. -/
def openElement (ks : List String) (defs : List (List String × Value)) (es : Entries) :
    Option Entries :=
  match ks.getLast? with
  | none => none
  | some k =>
    reach .implied
      (fun _ inner => inner.alter k fun
        | none => (assignAll defs .header []).map (.tables [])
        | some (.tables earlier last) =>
          (assignAll defs .header []).map (.tables (earlier ++ [.table .header last]))
        | some _ => none)
      ks.dropLast .header es

end Entries

end DocCoverage.Toml
