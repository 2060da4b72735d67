import DocCoverage.Proofs.Text.LineEnd
import Mathlib.Tactic.Common

/-!
# Line ends and marks in bytes

A file changes its form byte by byte, whatever it holds.  The bytes are text after the change exactly
when they were before, because a line feed is one byte and this byte is in no other character.

    fromUTF8? (crlfBytes b) = (fromUTF8? b).map crlf                       (fromUTF8?_crlfBytes)
    fromUTF8? (markBytes b) = (fromUTF8? b).map ('\ufeff' :: ·)            (fromUTF8?_markBytes)
-/

namespace DocCoverage.Text

/-- The bytes of some characters. -/
def encode (s : List Char) : List UInt8 :=
  s.flatMap String.utf8EncodeChar

/-- Writes a carriage return in front of each line feed of a file. -/
def crlfBytes (b : ByteArray) : ByteArray :=
  (insertBefore 13 10 b.data.toList).toByteArray

/-- Writes a byte order mark in front of a file. -/
def markBytes (b : ByteArray) : ByteArray :=
  [0xEF, 0xBB, 0xBF].toByteArray ++ b

theorem fromUTF8?_toUTF8 (t : String) : String.fromUTF8? t.toUTF8 = some t := by
  show String.fromUTF8? t.toByteArray = some t
  unfold String.fromUTF8?
  rw [dif_pos t.isValidUTF8]
  rfl

theorem encode_toList (t : String) : encode t.toList = t.toByteArray.data.toList := by
  rw [← String.utf8Encode_toList, List.utf8Encode.eq_1, List.data_toByteArray]
  rfl

theorem fromUTF8?_eq_some_iff {b : ByteArray} {t : String} :
    String.fromUTF8? b = some t ↔ b.data.toList = encode t.toList := by
  rw [encode_toList]
  constructor
  · intro h
    unfold String.fromUTF8? at h
    split at h
    · obtain rfl := Option.some.inj h
      rfl
    · cases h
  · intro h
    obtain rfl : b = t.toByteArray := ByteArray.ext (Array.toList_inj.1 h)
    exact fromUTF8?_toUTF8 t

theorem fromUTF8?_eq_none_iff {b : ByteArray} :
    String.fromUTF8? b = none ↔ ¬ b.IsValidUTF8 := by
  unfold String.fromUTF8?
  split
  · next hvalid => exact iff_of_false nofun (not_not.mpr hvalid)
  · next hvalid => exact iff_of_true rfl hvalid

theorem encode_injective {s t : List Char} (h : encode s = encode t) : s = t := by
  have hread : ∀ u, encode u = encode t →
      String.fromUTF8? (encode t).toByteArray = some (String.ofList u) := by
    intro u hu
    rw [fromUTF8?_eq_some_iff, String.toList_ofList, hu]
    simp
  have heq := congrArg String.toList (Option.some.inj ((hread s h).symm.trans (hread t rfl)))
  rwa [String.toList_ofList, String.toList_ofList] at heq

/-- A character is one byte below 128, or all its bytes are from there on. -/
theorem utf8EncodeChar_eq_cons (c : Char) :
    ∃ b tail, String.utf8EncodeChar c = b :: tail ∧ (∀ x ∈ tail, 128 ≤ x) ∧ (b < 128 → tail = []) := by
  have hhigh : ∀ n, 128 ≤ n → n < 256 → 128 ≤ UInt8.ofNat n := by
    intro n h h'
    rw [UInt8.le_iff_toNat_le, UInt8.toNat_ofNat_of_lt' h']
    exact h
  have hlow : ∀ (b : UInt8) (tail : List UInt8), 128 ≤ b → b < 128 → tail = [] :=
    fun b tail h h' => absurd h' (UInt8.not_lt.2 h)
  rw [String.utf8EncodeChar.eq_1]
  split
  · exact ⟨_, [], rfl, by simp, fun _ => rfl⟩
  · split
    · refine ⟨_, _, rfl, ?_, hlow _ _ (hhigh _ (by omega) (by omega))⟩
      simp only [List.mem_singleton, forall_eq]
      exact hhigh _ (by omega) (by omega)
    · split
      · refine ⟨_, _, rfl, ?_, hlow _ _ (hhigh _ (by omega) (by omega))⟩
        simp only [List.mem_cons, List.not_mem_nil, or_false, forall_eq_or_imp, forall_eq]
        exact ⟨hhigh _ (by omega) (by omega), hhigh _ (by omega) (by omega)⟩
      · refine ⟨_, _, rfl, ?_, hlow _ _ (hhigh _ (by omega) (by omega))⟩
        simp only [List.mem_cons, List.not_mem_nil, or_false, forall_eq_or_imp, forall_eq]
        exact ⟨hhigh _ (by omega) (by omega), hhigh _ (by omega) (by omega),
          hhigh _ (by omega) (by omega)⟩

/-- The first byte of a text starts its first character. -/
theorem encode_eq_cons {s : List Char} {x : UInt8} {l : List UInt8} (h : encode s = x :: l) :
    ∃ c s' tail, s = c :: s' ∧ String.utf8EncodeChar c = x :: tail ∧ l = tail ++ encode s' ∧
      (∀ y ∈ tail, 128 ≤ y) ∧ (x < 128 → tail = []) := by
  cases s with
  | nil => cases h
  | cons c s' =>
    obtain ⟨b, tail, hc, htail, hlow⟩ := utf8EncodeChar_eq_cons c
    have hcons : encode (c :: s') = b :: (tail ++ encode s') := by
      simp [encode, hc]
    rw [hcons] at h
    obtain ⟨rfl, rfl⟩ := List.cons.inj h
    exact ⟨c, s', tail, rfl, hc, rfl, htail, hlow⟩

/-- The byte of a line feed is in no other character. -/
theorem not_mem_utf8EncodeChar {c : Char} (h : c ≠ '\n') : 10 ∉ String.utf8EncodeChar c := by
  obtain ⟨b, tail, hc, htail, hlow⟩ := utf8EncodeChar_eq_cons c
  rw [hc, List.mem_cons]
  rintro (rfl | hmem)
  · have hsame : encode [c] = encode ['\n'] := by
      rw [hlow (by decide)] at hc
      simpa [encode, hc] using by decide
    exact h (List.cons.inj (encode_injective hsame)).1
  · exact absurd (htail 10 hmem) (by decide)

theorem insertBefore_encode (s : List Char) : insertBefore 13 10 (encode s) = encode (crlf s) := by
  induction s with
  | nil => rfl
  | cons c s ih =>
    by_cases h : c = '\n'
    · subst h
      have hfeed : encode ('\n' :: s) = 10 :: encode s := rfl
      rw [hfeed, insertBefore_cons_self, ih]
      rfl
    · have hcons : ∀ t, encode (c :: t) = String.utf8EncodeChar c ++ encode t := fun _ => rfl
      rw [crlf_cons h, hcons, hcons, insertBefore_append,
        insertBefore_of_not_mem (not_mem_utf8EncodeChar h), ih]

/-- Bytes that are text after the change were text before. -/
theorem exists_encode_of_insertBefore {l : List UInt8} {s : List Char}
    (h : insertBefore 13 10 l = encode s) : ∃ t, l = encode t := by
  induction hn : l.length using Nat.strongRecOn generalizing l s with
  | ind n ih =>
    cases l with
    | nil => exact ⟨[], rfl⟩
    | cons x l =>
      by_cases hx : x = 10
      · subst hx
        rw [insertBefore_cons_self] at h
        obtain ⟨c, s, tail, rfl, -, hs, -, hlow⟩ := encode_eq_cons h.symm
        rw [hlow (by decide), List.nil_append] at hs
        obtain ⟨d, s', tail', rfl, -, hs', -, hlow'⟩ := encode_eq_cons hs.symm
        rw [hlow' (by decide), List.nil_append] at hs'
        obtain ⟨t, rfl⟩ := ih l.length (by simp [← hn]) hs' rfl
        exact ⟨'\n' :: t, rfl⟩
      · rw [insertBefore_cons_of_ne hx] at h
        obtain ⟨c, s, tail, rfl, hc, hs, htail, -⟩ := encode_eq_cons h.symm
        have hnew : (13 : UInt8) ∉ tail := fun hmem => absurd (htail 13 hmem) (by decide)
        obtain ⟨rest, rfl, hrest⟩ := insertBefore_eq_append hnew hs
        obtain ⟨t, rfl⟩ := ih rest.length (by rw [← hn, List.length_cons, List.length_append]; omega)
          hrest.symm rfl
        exact ⟨c :: t, by simp [encode, hc]⟩

theorem fromUTF8?_crlfBytes (b : ByteArray) :
    String.fromUTF8? (crlfBytes b) =
      (String.fromUTF8? b).map fun t => String.ofList (crlf t.toList) := by
  have hbytes : (crlfBytes b).data.toList = insertBefore 13 10 b.data.toList := by
    simp [crlfBytes]
  cases h : String.fromUTF8? b with
  | some t =>
    rw [Option.map_some, fromUTF8?_eq_some_iff, hbytes, fromUTF8?_eq_some_iff.1 h,
      insertBefore_encode, String.toList_ofList]
  | none =>
    rw [Option.map_none, Option.eq_none_iff_forall_ne_some]
    intro t ht
    rw [fromUTF8?_eq_some_iff, hbytes] at ht
    obtain ⟨s, hs⟩ := exists_encode_of_insertBefore ht
    have hsome : String.fromUTF8? b = some (String.ofList s) := by
      rw [fromUTF8?_eq_some_iff, hs, String.toList_ofList]
    rw [h] at hsome
    cases hsome

theorem fromUTF8?_markBytes (b : ByteArray) :
    String.fromUTF8? (markBytes b) =
      (String.fromUTF8? b).map fun t => String.ofList ('\ufeff' :: t.toList) := by
  cases h : String.fromUTF8? b with
  | some t =>
    rw [Option.map_some, fromUTF8?_eq_some_iff, String.toList_ofList]
    have hb := fromUTF8?_eq_some_iff.1 h
    simp only [markBytes, ByteArray.toList_data_append, hb]
    rfl
  | none =>
    have hmark : markBytes b = ['\ufeff'].utf8Encode ++ b := rfl
    have hiff : (markBytes b).IsValidUTF8 ↔ b.IsValidUTF8 := by
      rw [hmark]
      exact ByteArray.isValidUTF8_utf8Encode_singleton_append_iff
    have hvalid : ¬ b.IsValidUTF8 := by
      intro hv
      simp [String.fromUTF8?, hv] at h
    simp [String.fromUTF8?, hiff, hvalid]

end DocCoverage.Text
