import DocCoverage.Text.Hexadecimal

/-!
# Numbers

Digits may be grouped by single underscores between them.  A decimal number may have a sign and does
not start with a zero that another digit follows; a hexadecimal, octal or binary number has neither
sign nor restriction.  A whole number has to fit into 128 bits, with a sign or without; a number with
a fraction or an exponent has to stay below the largest double.

Some texts look like whole numbers but are none.  Like numbers that do not fit, they may stand where
nobody asks for the number.
-/

namespace DocCoverage.Toml

/-- The digits of a text in which single underscores may stand between digits. -/
def digits? (isDigit : Char → Bool) (s : List Char) : Option (List Char) :=
  let groups := s.splitOn '_'
  if groups.all fun g => !g.isEmpty && g.all isDigit then some groups.flatten else none

def ofDigits (base : Nat) (digits : List Char) : Nat :=
  digits.foldl (fun n c => n * base + (hexValue? c).getD 0) 0

/-- The digits of a decimal number without a sign. -/
def decimal? (s : List Char) : Option (List Char) := do
  let digits ← digits? Char.isDigit s
  if digits.head? = some '0' ∧ s ≠ ['0'] then none else some digits

/-- Splits off a sign, which tells whether the number is negative. -/
def splitSign : List Char → Bool × List Char
  | '+' :: s => (false, s)
  | '-' :: s => (true, s)
  | s => (false, s)

/-- The whole number that a text writes. -/
def integer? (s : List Char) : Option Int :=
  match s with
  | '0' :: 'x' :: s => (digits? isHexDigit s).map fun d => ofDigits 16 d
  | '0' :: 'o' :: s => (digits? (fun c => '0' ≤ c && c ≤ '7') s).map fun d => ofDigits 8 d
  | '0' :: 'b' :: s => (digits? (fun c => c == '0' || c == '1') s).map fun d => ofDigits 2 d
  | s =>
    match splitSign s with
    | (true, s) => (decimal? s).map fun d => - (ofDigits 10 d : Int)
    | (false, s) => (decimal? s).map fun d => ofDigits 10 d

/-- Whether a whole number fits into 128 bits, with a sign or without. -/
def integerFits (n : Int) : Bool :=
  if n < 0 then n.natAbs ≤ Nat.pow 2 127 else n.natAbs < Nat.pow 2 128

/-- The least number that is rounded to infinity as a double: halfway between the largest double and
the next power of two. -/
def overflowBound : Nat :=
  Nat.pow 2 1024 - Nat.pow 2 970

/-- Whether `ds` as a decimal number, times ten to the power `e`, overflows.  Far from the bound the
number of digits decides. -/
def overflows (ds : List Char) (e : Int) : Bool :=
  let ds := ds.dropWhile (· == '0')
  let magnitude : Int := ds.length + e
  if ds.isEmpty || magnitude < 308 then false
  else if 310 < magnitude then true
  else if 0 ≤ e then overflowBound ≤ ofDigits 10 ds * Nat.pow 10 e.toNat
  else overflowBound * Nat.pow 10 (-e).toNat ≤ ofDigits 10 ds

/-- Splits a text before the first character with a property. -/
def cut (p : Char → Bool) (s : List Char) : List Char × List Char :=
  (s.takeWhile fun c => !p c, s.dropWhile fun c => !p c)

/-- The exponent that a text writes: a sign, and digits. -/
def exponent? (s : List Char) : Option Int :=
  match splitSign s with
  | (negative, s) =>
    (digits? Char.isDigit s).map fun d =>
      if negative then - (ofDigits 10 d : Int) else (ofDigits 10 d : Int)

/-- The digits after the point, read with the point; without a point there are none. -/
def fraction? : List Char → Option (List Char)
  | [] => some []
  | '.' :: s => digits? Char.isDigit s
  | _ => none

/-- The exponent, read with the letter before it; without a letter it is zero. -/
def power? : List Char → Option Int
  | [] => some 0
  | _ :: s => exponent? s

/-- Whether the number that a text writes stays below the largest double.  The number has a fraction,
an exponent or both, or it is infinity or the lack of a number; other texts have no answer. -/
def floatFits? (s : List Char) : Option Bool :=
  let s := (splitSign s).2
  if s = ['i', 'n', 'f'] ∨ s = ['n', 'a', 'n'] then some true
  else
    let (mantissa, power) := cut (fun c => c == 'e' || c == 'E') s
    let (whole, fraction) := cut (· == '.') mantissa
    match decimal? whole, fraction? fraction, power? power with
    | some w, some f, some e =>
      if fraction.isEmpty && power.isEmpty then none else some (!overflows (w ++ f) (e - f.length))
    | _, _, _ => none

/-- Whether a text looks like a whole number: it is the bare mark of a base, or it starts with
digits of which the first is not zero, and its underscores stand between hexadecimal digits. -/
def looksWhole (s : List Char) : Bool :=
  s == ['0', 'x'] || s == ['0', 'o'] || s == ['0', 'b'] ||
    match (splitSign s).2.splitOn '_' with
    | [] => false
    | g :: gs =>
      g.head?.any (· != '0') && g.all Char.isDigit && !gs.isEmpty
        && gs.all (fun h => h.head?.any isHexDigit)
        && gs.dropLast.all (fun h => h.getLast?.any isHexDigit)
        && !s.any fun c => c == '.' || c == 'e' || c == 'E'

end DocCoverage.Toml
