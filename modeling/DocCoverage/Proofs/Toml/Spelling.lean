import DocCoverage.Toml.Document
import Mathlib.Algebra.Group.Nat.Defs

/-!
# Spelling strings

A character of a basic string stands for itself, or is written by an escape: a letter, or its number
in two, four or eight hexadecimal digits.  A spelling picks one of these ways for every character;
whichever it picks, the string is read back.

    numbered? k (hexDigits k c ++ rest) = some c                          (numbered?_hexDigits)
    basicFrom 0 done (s ++ rest) = basicFrom 0 (c :: done) rest  if s spells c  (basicFrom_spells)
    string (quote w t ++ rest) = some (t, rest)     if no quotation mark follows   (string_quote)
-/

namespace DocCoverage.Toml

/-! ## Ways to write a character -/

/-- The last `width` hexadecimal digits of a number. -/
def hexDigits : (width : Nat) → Nat → List Char
  | 0, _ => []
  | width + 1, n => hexDigits width (n / 16) ++ [(n % 16).digitChar]

/-- The letters of escapes, with what they stand for. -/
def letters : List (Char × Char) :=
  [('b', '\x08'), ('t', '\t'), ('n', '\n'), ('f', '\x0c'), ('r', '\r'), ('e', '\x1b'), ('"', '"'),
    ('\\', '\\')]

/-- The ways to write a character in a basic string. -/
inductive Spells : Char → List Char → Prop
  | itself {c : Char} (htext : isTextChar c = true) (hmark : c ≠ '"') (hescape : c ≠ '\\') :
      Spells c [c]
  | letter {l c : Char} (h : (l, c) ∈ letters) : Spells c ['\\', l]
  | two {c : Char} (h : c.toNat < 16 ^ 2) : Spells c ('\\' :: 'x' :: hexDigits 2 c.toNat)
  | four {c : Char} (h : c.toNat < 16 ^ 4) : Spells c ('\\' :: 'u' :: hexDigits 4 c.toNat)
  | eight (c : Char) : Spells c ('\\' :: 'U' :: hexDigits 8 c.toNat)

/-- A way to write every character. -/
structure Spelling where
  write : Char → List Char
  spells : ∀ c, Spells c (write c)

/-- A string in quotation marks. -/
def Spelling.quote (w : Spelling) (text : String) : List Char :=
  '"' :: (text.toList.flatMap w.write ++ ['"'])

/-- Escapes the quotation mark, the backslash and the control characters, the last by their number,
and no other character. -/
def Spelling.usual : Spelling where
  write c :=
    if c = '"' then ['\\', '"']
    else if c = '\\' then ['\\', '\\']
    else if c.toNat < 0x20 ∨ c = '\x7f' then '\\' :: 'u' :: hexDigits 4 c.toNat
    else [c]
  spells c := by
    by_cases hmark : c = '"'
    · subst hmark
      exact .letter (by decide)
    · by_cases hescape : c = '\\'
      · subst hescape
        exact .letter (by decide)
      · rw [if_neg hmark, if_neg hescape]
        split
        · next h =>
          refine .four ?_
          rcases h with h | rfl
          · omega
          · decide
        · next h =>
          rw [not_or, Nat.not_lt] at h
          refine .itself ?_ hmark hescape
          have hspace : ' ' ≤ c := h.1
          simp [isTextChar, hspace, h.2]

/-! ## Hexadecimal digits -/

theorem length_hexDigits (width n : Nat) : (hexDigits width n).length = width := by
  induction width generalizing n with
  | zero => rfl
  | succ width ih => simp [hexDigits, ih]

theorem hexValue?_digitChar : ∀ d, d < 16 → hexValue? d.digitChar = some d := by
  decide

theorem hexNumber?_append (s : List Char) {c : Char} {n d : Nat} (hs : hexNumber? s = some n)
    (hc : hexValue? c = some d) : hexNumber? (s ++ [c]) = some (n * 16 + d) := by
  unfold hexNumber? at hs ⊢
  rw [List.foldl_append, hs]
  simp [hc]

theorem hexNumber?_hexDigits (width n : Nat) : hexNumber? (hexDigits width n) = some (n % 16 ^ width) := by
  induction width generalizing n with
  | zero => simp [hexDigits, hexNumber?, Nat.mod_one]
  | succ width ih =>
    rw [hexDigits, hexNumber?_append _ (ih _) (hexValue?_digitChar _ (Nat.mod_lt _ (by omega))),
      Nat.pow_succ, Nat.mul_comm (16 ^ width), Nat.mod_mul]
    congr 1
    omega

theorem numbered?_hexDigits {width : Nat} {c : Char} (h : c.toNat < 16 ^ width) (rest : List Char) :
    numbered? width (hexDigits width c.toNat ++ rest) = some c := by
  have htake : (hexDigits width c.toNat ++ rest).take width = hexDigits width c.toNat :=
    List.take_left' (length_hexDigits width _)
  have hvalid : c.toNat.isValidChar := c.valid
  unfold numbered?
  simp [htake, length_hexDigits, hexNumber?_hexDigits, Nat.mod_eq_of_lt h, hvalid]

/-! ## Strings -/

/-- Characters of an escape that is done are passed over. -/
theorem basicFrom_skip (skip : Nat) (done s : List Char) :
    basicFrom skip done s = basicFrom 0 done (s.drop skip) := by
  induction s generalizing skip with
  | nil => simp [basicFrom]
  | cons c s ih =>
    cases skip with
    | zero => rfl
    | succ skip => simpa [basicFrom] using ih skip

theorem basicFrom_escape {s : List Char} {c : Char} {n : Nat} (h : escape? s = some (c, n))
    (done : List Char) : basicFrom 0 done ('\\' :: s) = basicFrom 0 (c :: done) (s.drop n) := by
  simp [basicFrom, h, basicFrom_skip n]

/-- The way to write a character is read as this character. -/
theorem basicFrom_spells {c : Char} {s : List Char} (h : Spells c s) (done rest : List Char) :
    basicFrom 0 done (s ++ rest) = basicFrom 0 (c :: done) rest := by
  cases h with
  | itself htext hmark hescape => simp [basicFrom, htext, hmark, hescape]
  | letter h =>
    have hesc : ∀ p ∈ letters, escape? (p.1 :: rest) = some (p.2, 1) := by
      simp [letters, escape?]
    exact basicFrom_escape (hesc _ h) done
  | two h =>
    have hesc : escape? ('x' :: hexDigits 2 c.toNat ++ rest) = some (c, 3) := by
      simp [escape?, numbered?_hexDigits h]
    rw [List.cons_append, basicFrom_escape hesc]
    rfl
  | four h =>
    have hesc : escape? ('u' :: hexDigits 4 c.toNat ++ rest) = some (c, 5) := by
      simp [escape?, numbered?_hexDigits h]
    rw [List.cons_append, basicFrom_escape hesc]
    rfl
  | eight =>
    have h : c.toNat < 16 ^ 8 := by
      have : c.toNat < 2 ^ 32 := c.val.toNat_lt
      omega
    have hesc : escape? ('U' :: hexDigits 8 c.toNat ++ rest) = some (c, 9) := by
      simp [escape?, numbered?_hexDigits h]
    rw [List.cons_append, basicFrom_escape hesc]
    rfl

theorem basicFrom_flatMap (w : Spelling) (text done rest : List Char) :
    basicFrom 0 done (text.flatMap w.write ++ '"' :: rest) =
      some (String.ofList (done.reverse ++ text), rest) := by
  induction text generalizing done with
  | nil => simp [basicFrom]
  | cons c text ih =>
    rw [List.flatMap_cons, List.append_assoc, basicFrom_spells (w.spells c), ih]
    simp

/-- No way to write a character starts with a quotation mark. -/
theorem Spells.head_ne {c : Char} {s : List Char} (h : Spells c s) (rest : List Char) :
    (s ++ rest).head? ≠ some '"' := by
  cases h with
  | itself _ hmark _ => simpa using hmark
  | letter _ => simp
  | two _ => simp
  | four _ => simp
  | eight _ => simp

/-- A string is on one line unless its mark is written three times. -/
theorem string_eq_quoted {s : List Char}
    (h : ∀ q ∈ ['"', '\''], ∀ rest, s ≠ q :: q :: q :: rest) : string s = quoted s := by
  unfold string
  split
  · next rest => exact absurd rfl (h '\'' (by simp) rest)
  · next rest => exact absurd rfl (h '"' (by simp) rest)
  · rfl

theorem string_quote (w : Spelling) (text : String) {rest : List Char}
    (hrest : rest.head? ≠ some '"') : string (w.quote text ++ rest) = some (text, rest) := by
  have hbody : w.quote text ++ rest = '"' :: (text.toList.flatMap w.write ++ '"' :: rest) := by
    simp [Spelling.quote]
  have hone : ∀ q ∈ ['"', '\''], ∀ more,
      '"' :: (text.toList.flatMap w.write ++ '"' :: rest) ≠ q :: q :: q :: more := by
    intro q hq more he
    obtain rfl : '"' = q := (List.cons.inj he).1
    have htail := (List.cons.inj he).2
    cases htext : text.toList with
    | nil =>
      rw [htext] at htail
      obtain rfl := (List.cons.inj htail).2
      exact hrest rfl
    | cons c text =>
      rw [htext, List.flatMap_cons, List.append_assoc] at htail
      apply (w.spells c).head_ne
      rw [htail]
      rfl
  rw [hbody, string_eq_quoted hone]
  show basicFrom 0 [] _ = _
  rw [basicFrom_flatMap]
  simp

end DocCoverage.Toml
