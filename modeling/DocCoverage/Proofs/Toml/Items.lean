import DocCoverage.Toml.Document
import Mathlib.Data.List.Basic

/-!
# Items with commas between them

What is written with a comma and a blank between its items, up to the closing character, is read item
by item, if each item is taken in front of a comma and in front of the closing character.

    separated item close fuel done (s₁ ", " … ", " sₙ close rest)  =  some (done.reverse ++ xs, rest)
                                                                                  (separated_items)
-/

namespace DocCoverage.Toml

/-- The text of an item, which may stand in front of a comma and of the closing character. -/
structure IsItem {α : Type} (item : Reader α) (close : Char) (s : List Char) (x : α) : Prop where
  starts : ∃ c t, s = c :: t ∧ c ∉ [' ', '\t', '\n', '\r', '#', close]
  reads : ∀ rest, rest.head? = some ',' ∨ rest.head? = some close → item (s ++ rest) = some (x, rest)

theorem skipGap_of_head {c : Char} (h : c ∉ [' ', '\t', '\n', '\r', '#']) (s : List Char) :
    skipGap (c :: s) = c :: s := by
  simp only [List.mem_cons, List.not_mem_nil, or_false, not_or] at h
  simp [skipGap, skipGapFrom, isBlank, h]

/-- Before an item nothing depends on the blank in front of it. -/
theorem separated_blank {α : Type} (item : Reader α) (close : Char) (fuel : Nat) (done : List α)
    (s : List Char) :
    separated item close fuel done (' ' :: s) = separated item close fuel done s := by
  have hgap : skipGap (' ' :: s) = skipGap s := rfl
  cases fuel with
  | zero => rfl
  | succ fuel => simp only [separated, hgap]

section
variable {α : Type} {item : Reader α} {close : Char} {s rest : List Char} {x : α}

/-- An item is followed by a comma or by the closing character. -/
theorem separated_item (h : IsItem item close s x) {c : Char} (hc : c = ',' ∨ c = close)
    (hgap : skipGap (c :: rest) = c :: rest) (fuel : Nat) (done : List α) :
    separated item close (fuel + 1) done (s ++ c :: rest) =
      if c = ',' then separated item close fuel (x :: done) rest
      else if c = close then some ((x :: done).reverse, rest)
      else none := by
  have hread := h.reads (c :: rest) (hc.imp (congrArg some) (congrArg some))
  obtain ⟨d, t, rfl, hd⟩ := h.starts
  have hclose : d ≠ close := fun he => hd (by simp [he])
  have hskip : skipGap (d :: (t ++ c :: rest)) = d :: (t ++ c :: rest) :=
    skipGap_of_head (fun hmem => hd (by
      simp only [List.mem_cons, List.not_mem_nil, or_false] at hmem ⊢
      tauto)) _
  rw [List.cons_append] at hread ⊢
  simp only [separated, hskip, if_neg hclose, hread, hgap]

variable (hclose : close ∉ [' ', '\t', '\n', '\r', '#', ','])
include hclose

theorem separated_items {ss : List (List Char)} {xs : List α}
    (h : List.Forall₂ (IsItem item close) ss xs) (rest : List Char) {fuel : Nat}
    (hfuel : ss.length < fuel) (done : List α) :
    separated item close fuel done ([',', ' '].intercalate ss ++ close :: rest) =
      some (done.reverse ++ xs, rest) := by
  have hend : skipGap (close :: rest) = close :: rest :=
    skipGap_of_head (fun hmem => hclose (by
      simp only [List.mem_cons, List.not_mem_nil, or_false] at hmem ⊢
      tauto)) rest
  have hcomma : close ≠ ',' := fun he => hclose (by simp [he])
  induction h generalizing fuel done with
  | nil =>
    obtain ⟨fuel, rfl⟩ : ∃ n, fuel = n + 1 := ⟨fuel - 1, by simp at hfuel; omega⟩
    simp [separated, hend]
  | @cons s x ss xs hs h ih =>
    obtain ⟨fuel, rfl⟩ : ∃ n, fuel = n + 1 := ⟨fuel - 1, by simp at hfuel; omega⟩
    cases h with
    | nil =>
      rw [List.intercalate_singleton, separated_item hs (.inr rfl) hend, if_neg hcomma, if_pos rfl,
        List.reverse_cons]
    | @cons s' x' ss xs hs' h =>
      have hlength : (s' :: ss).length < fuel := by simpa using hfuel
      rw [List.intercalate_cons_cons, List.append_assoc, List.append_assoc, List.cons_append,
        List.singleton_append, separated_item hs (.inl rfl) (skipGap_of_head (by decide) _),
        if_pos rfl, separated_blank, ih hlength, List.reverse_cons, List.append_assoc,
        List.singleton_append]

/-- Every item takes a character, so the length of the text is fuel enough. -/
theorem separated_items_length {ss : List (List Char)} {xs : List α}
    (h : List.Forall₂ (IsItem item close) ss xs) (rest : List Char) :
    separated item close ([',', ' '].intercalate ss ++ close :: rest).length []
      ([',', ' '].intercalate ss ++ close :: rest) = some (xs, rest) := by
  have hlength : ss.length ≤ ([',', ' '].intercalate ss).length := by
    induction h with
    | nil => simp
    | @cons s x ss xs hs h ih =>
      obtain ⟨c, t, rfl, -⟩ := hs.starts
      cases h with
      | nil => simp
      | cons =>
        simp only [List.intercalate_cons_cons, List.length_append, List.length_cons] at ih ⊢
        omega
  have hfuel : ss.length < ([',', ' '].intercalate ss ++ close :: rest).length := by
    simp only [List.length_append, List.length_cons]
    omega
  exact separated_items hclose h rest hfuel []

end

end DocCoverage.Toml
