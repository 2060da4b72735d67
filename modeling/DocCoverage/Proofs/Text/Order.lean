import DocCoverage.Proofs.Text.Utf8
import Mathlib.Algebra.Group.Nat.Defs

/-!
# The order of texts

Texts are ordered by their code points, and their bytes are in the same order.  The bytes of a
character are its digits to the base 64.  The first one also tells how many follow, and it is greater
if more do; so bytes of different length are decided by the first one, and bytes of the same length
by the first digit that differs.  Either way the bytes of no character begin those of another one.

    c < d  →  bytes of c ++ s < bytes of d ++ t, for any s and t         (utf8EncodeChar_append_lt)
    bytes a < bytes b  ↔  a < b                                          (bytes_lt_bytes_iff)
    codePoints a < codePoints b  ↔  a < b                                (codePoints_lt_codePoints_iff)
-/

namespace DocCoverage.Text

/-- The bytes of a text. -/
def bytes (t : String) : List UInt8 :=
  t.toUTF8.data.toList

/-- The code points of a text. -/
def codePoints (t : String) : List Nat :=
  t.toList.map Char.toNat

/-! ## The bytes of a character as digits -/

/-- How many bytes follow the first one of a character. -/
def trailing (v : Nat) : Nat :=
  if v ≤ 0x7f then 0 else if v ≤ 0x7ff then 1 else if v ≤ 0xffff then 2 else 3

/-- The mark of a first byte after which so many follow. -/
def mark : Nat → Nat
  | 0 => 0
  | 1 => 0xc0
  | 2 => 0xe0
  | _ => 0xf0

/-- The first byte of a character. -/
def firstByte (v : Nat) : Nat :=
  v / 64 ^ trailing v + mark (trailing v)

/-- The last digits of a number to the base 64, each in a byte that goes on with a character. -/
def digits (v : Nat) : Nat → List UInt8
  | 0 => []
  | k + 1 => UInt8.ofNat (v / 64 ^ k % 64 + 0x80) :: digits v k

theorem toNat_lt (c : Char) : c.toNat < 0x110000 := by
  have hvalid : c.toNat < 0xd800 ∨ 0xdfff < c.toNat ∧ c.toNat < 0x110000 := c.valid
  omega

theorem trailing_cases (v : Nat) :
    v ≤ 0x7f ∧ trailing v = 0 ∨ (0x7f < v ∧ v ≤ 0x7ff) ∧ trailing v = 1 ∨
      (0x7ff < v ∧ v ≤ 0xffff) ∧ trailing v = 2 ∨ 0xffff < v ∧ trailing v = 3 := by
  unfold trailing
  split
  · next h => exact .inl ⟨h, rfl⟩
  · next h =>
    split
    · next h' => exact .inr (.inl ⟨⟨by omega, h'⟩, rfl⟩)
    · next h' =>
      split
      · next h'' => exact .inr (.inr (.inl ⟨⟨by omega, h''⟩, rfl⟩))
      · next h'' => exact .inr (.inr (.inr ⟨by omega, rfl⟩))

theorem utf8EncodeChar_eq_digits (c : Char) :
    String.utf8EncodeChar c =
      UInt8.ofNat (firstByte c.toNat) :: digits c.toNat (trailing c.toNat) := by
  have hlt := toNat_lt c
  have hval : c.val.toNat = c.toNat := rfl
  rw [String.utf8EncodeChar.eq_1, hval]
  unfold firstByte
  generalize c.toNat = v at hlt ⊢
  rcases trailing_cases v with ⟨h, hk⟩ | ⟨⟨h, h'⟩, hk⟩ | ⟨⟨h, h'⟩, hk⟩ | ⟨h, hk⟩
  · simp [h, hk, digits, mark]
  · have hmod : v / 64 % 32 = v / 64 := by omega
    simp [Nat.not_le.mpr h, h', hk, digits, mark, hmod]
  · have hlow : ¬ v ≤ 0x7f := by omega
    have hmod : v / 4096 % 16 = v / 4096 := by omega
    simp [hlow, Nat.not_le.mpr h, h', hk, digits, mark, hmod]
  · have hlow : ¬ v ≤ 0x7f ∧ ¬ v ≤ 0x7ff := by omega
    have hmod : v / 262144 % 8 = v / 262144 := by omega
    simp [hlow, Nat.not_le.mpr h, hk, digits, mark, hmod]

/-! ## The order of characters -/

theorem firstByte_lt (c : Char) : firstByte c.toNat < 256 := by
  have hlt := toNat_lt c
  unfold firstByte
  rcases trailing_cases c.toNat with ⟨h, hk⟩ | ⟨⟨h, h'⟩, hk⟩ | ⟨⟨h, h'⟩, hk⟩ | ⟨h, hk⟩
  all_goals
    rw [hk]
    simp only [mark, Nat.reducePow]
    omega

/-- The first byte grows with the code point, unless it is left to the bytes after it. -/
theorem firstByte_lt_or {v w : Nat} (h : v < w) :
    firstByte v < firstByte w ∨
      trailing v = trailing w ∧ v / 64 ^ trailing v = w / 64 ^ trailing w := by
  unfold firstByte
  rcases trailing_cases v with ⟨hv, hk⟩ | ⟨⟨hv, hv'⟩, hk⟩ | ⟨⟨hv, hv'⟩, hk⟩ | ⟨hv, hk⟩
  all_goals
    rcases trailing_cases w with ⟨hw, hl⟩ | ⟨⟨hw, hw'⟩, hl⟩ | ⟨⟨hw, hw'⟩, hl⟩ | ⟨hw, hl⟩
  all_goals
    rw [hk, hl]
    simp only [mark, Nat.reducePow, Nat.reduceEqDiff, true_and, false_and, or_false]
    omega

theorem ofNat_lt_ofNat {m n : Nat} (hn : n < 256) (h : m < n) : UInt8.ofNat m < UInt8.ofNat n := by
  rw [UInt8.lt_iff_toNat_lt, UInt8.toNat_ofNat_of_lt' (Nat.lt_trans h hn),
    UInt8.toNat_ofNat_of_lt' hn]
  exact h

/-- Numbers with the same first digits are in the order of their last digits. -/
theorem digits_append_lt {v w k : Nat} (hsame : v / 64 ^ k = w / 64 ^ k) (h : v < w)
    (s t : List UInt8) : digits v k ++ s < digits w k ++ t := by
  induction k with
  | zero =>
    rw [Nat.pow_zero, Nat.div_one, Nat.div_one] at hsame
    omega
  | succ k ih =>
    rw [Nat.pow_succ, ← Nat.div_div_eq_div_mul, ← Nat.div_div_eq_div_mul] at hsame
    have hle : v / 64 ^ k ≤ w / 64 ^ k := Nat.div_le_div_right (Nat.le_of_lt h)
    refine List.cons_lt_cons_iff.mpr ?_
    rcases Nat.lt_or_eq_of_le hle with hlt | heq
    · left
      exact ofNat_lt_ofNat (by omega) (by omega)
    · right
      exact ⟨by rw [heq], ih heq⟩

/-- A smaller character has smaller bytes, whatever follows. -/
theorem utf8EncodeChar_append_lt {c d : Char} (h : c < d) (s t : List UInt8) :
    String.utf8EncodeChar c ++ s < String.utf8EncodeChar d ++ t := by
  have hlt : c.toNat < d.toNat := h
  rw [utf8EncodeChar_eq_digits, utf8EncodeChar_eq_digits]
  refine List.cons_lt_cons_iff.mpr ?_
  rcases firstByte_lt_or hlt with hfirst | ⟨hk, hsame⟩
  · left
    exact ofNat_lt_ofNat (firstByte_lt d) hfirst
  · right
    constructor
    · unfold firstByte
      rw [hsame, hk]
    · rw [hk] at hsame ⊢
      exact digits_append_lt hsame hlt s t

/-! ## The order of texts -/

theorem encode_cons (c : Char) (s : List Char) :
    encode (c :: s) = String.utf8EncodeChar c ++ encode s := rfl

theorem encode_lt_of_lt {s t : List Char} (h : s < t) : encode s < encode t := by
  induction s generalizing t with
  | nil =>
    cases t with
    | nil => exact absurd h (List.not_lt_nil [])
    | cons d t =>
      rw [encode_cons, utf8EncodeChar_eq_digits]
      exact List.nil_lt_cons _ _
  | cons c s ih =>
    cases t with
    | nil => exact absurd h (List.not_lt_nil (c :: s))
    | cons d t =>
      rw [encode_cons, encode_cons]
      rcases List.cons_lt_cons_iff.mp h with hlt | ⟨rfl, hlt⟩
      · exact utf8EncodeChar_append_lt hlt _ _
      · exact List.append_left_lt (ih hlt)

/-- What keeps the strict order of texts tells which of two texts is the smaller one. -/
theorem lt_iff_of_lt {α : Type} [LT α] [Std.Asymm (α := List α) (· < ·)]
    {f : List Char → List α} (hf : ∀ {s t}, s < t → f s < f t) {a b : String} :
    f a.toList < f b.toList ↔ a < b := by
  rw [String.lt_iff]
  constructor
  · intro h
    rcases Std.lt_trichotomy a.toList b.toList with hlt | heq | hgt
    · exact hlt
    · rw [heq] at h
      exact absurd h (Std.Asymm.asymm _ _ h)
    · exact absurd h (Std.Asymm.asymm _ _ (hf hgt))
  · exact hf

theorem bytes_lt_bytes_iff {a b : String} : bytes a < bytes b ↔ a < b := by
  have hbytes : ∀ t, bytes t = encode t.toList := fun t => (encode_toList t).symm
  rw [hbytes, hbytes]
  exact lt_iff_of_lt encode_lt_of_lt

theorem codePoints_lt_codePoints_iff {a b : String} : codePoints a < codePoints b ↔ a < b := by
  have hmap : ∀ {s t : List Char}, s < t → s.map Char.toNat < t.map Char.toNat :=
    List.map_lt fun _ _ h => h
  exact lt_iff_of_lt hmap

end DocCoverage.Text
