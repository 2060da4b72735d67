import DocCoverage.Symbol.Set

/-!
# Finding symbols in a text

A symbol is the namespace prefix, taken literally, followed by the longest run of at least one word
character.  A header declares the symbols of its call sites, where an opening parenthesis follows
the run; a document mentions a symbol wherever it stands.  Occurrences are taken from left to right
and do not overlap: a call site ends after its parenthesis, a mention after its run.
-/

namespace DocCoverage

inductive Recognition where
  | callSite
  | mention
  deriving DecidableEq, Repr

/-- A character that may continue a symbol: an ASCII letter, an ASCII digit or `_`. -/
def isWord (c : Char) : Bool :=
  c.isAlphanum || c == '_'

/-- What was found: the offset of its first character, in characters, and its name. -/
structure Occurrence where
  start : Nat
  name : List Char
  deriving DecidableEq, Repr

/-- A namespace prefix that symbols can be searched with. -/
structure Matcher where
  stem : List Char
  stem_ne_nil : stem ≠ []
  deriving DecidableEq, Repr

namespace Matcher

inductive Refusal where
  | emptyPrefix
  | oversized
  deriving DecidableEq, Repr

/-- The longest prefix that is accepted, in bytes: an automaton with one state of 32 bytes for each
byte of the prefix stays within ten mebibytes. -/
def maxBytes : Nat :=
  10 * 1024 * 1024 / 32

def ofPrefix (stem : String) : Except Refusal Matcher :=
  if h : stem.toList = [] then .error .emptyPrefix
  else if maxBytes < stem.utf8ByteSize then .error .oversized
  else .ok ⟨stem.toList, h⟩

/-- Whether a symbol may end where the text goes on with `rest`. -/
def mayEnd : Recognition → List Char → Bool
  | .mention, _ => true
  | .callSite, rest => rest.head? == some '('

/-- The name of the symbol that starts exactly where `s` starts. -/
def nameAt? (m : Matcher) (r : Recognition) (s : List Char) : Option (List Char) :=
  if m.stem.isPrefixOf s then
    let tail := s.drop m.stem.length
    if tail.head?.any isWord && mayEnd r (tail.dropWhile isWord) then
      some (m.stem ++ tail.takeWhile isWord)
    else none
  else none

/-- How many characters an occurrence takes up. -/
def width (r : Recognition) (name : List Char) : Nat :=
  match r with
  | .mention => name.length
  | .callSite => name.length + 1

/-- Adds the occurrences in a text, the latest first, to those `found` before it.  The next `skip`
characters belong to an occurrence that is `found` already; `pos` is the offset of the text. -/
def scan (m : Matcher) (r : Recognition) :
    Nat → Nat → List Occurrence → List Char → List Occurrence
  | _, _, found, [] => found
  | skip + 1, pos, found, _ :: s => scan m r skip (pos + 1) found s
  | 0, pos, found, c :: s =>
    match m.nameAt? r (c :: s) with
    | some name => scan m r (width r name - 1) (pos + 1) (⟨pos, name⟩ :: found) s
    | none => scan m r 0 (pos + 1) found s

/-- The occurrences in a text, from left to right. -/
def occurrences (m : Matcher) (r : Recognition) (text : String) : List Occurrence :=
  (m.scan r 0 0 [] text.toList).reverse

def extract (m : Matcher) (r : Recognition) (text : String) : SymbolSet :=
  .ofList ((m.occurrences r text).map fun o => String.ofList o.name)

/-! ## Lemmas -/

/-- What was found before only stands before what is added. -/
theorem scan_eq_append (m : Matcher) (r : Recognition) (skip pos : Nat) (found : List Occurrence)
    (s : List Char) : m.scan r skip pos found s = m.scan r skip pos [] s ++ found := by
  induction s generalizing skip pos found with
  | nil => simp [scan]
  | cons c s ih =>
    cases skip with
    | succ skip => simpa [scan] using ih skip (pos + 1) found
    | zero =>
      simp only [scan]
      cases m.nameAt? r (c :: s) with
      | none => simpa using ih 0 (pos + 1) found
      | some name =>
        simp only
        rw [ih _ _ (_ :: found), ih _ _ [_]]
        simp

theorem scan_skip (m : Matcher) (r : Recognition) (skip pos : Nat) (found : List Occurrence)
    {s : List Char} (h : skip ≤ s.length) :
    m.scan r skip pos found s = m.scan r 0 (pos + skip) found (s.drop skip) := by
  induction s generalizing skip pos with
  | nil => simp_all [scan]
  | cons c s ih =>
    cases skip with
    | zero => rfl
    | succ skip =>
      have h' : skip ≤ s.length := by simpa using h
      simpa [scan, Nat.add_comm, Nat.add_left_comm, Nat.add_assoc] using ih skip (pos + 1) h'

theorem mem_extract {m : Matcher} {r : Recognition} {text x : String} :
    x ∈ m.extract r text ↔ ∃ o ∈ m.occurrences r text, String.ofList o.name = x := by
  simp [extract]

end Matcher

end DocCoverage
