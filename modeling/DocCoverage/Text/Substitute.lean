/-!
# Substitution

Every occurrence of a pattern in a text is replaced, from left to right and without overlap; what is
put in is not searched again.

    substitute p new (p ++ s)  = new ++ substitute p new s               (substitute_append)
    substitute p new (c :: s)  = c :: substitute p new s   where p does not stand at the front
                                                     (substitute_cons_of_not_isPrefixOf)
-/

namespace DocCoverage.Text

/-- Adds the text after substitution, the last character first, to what is `done`.  The next `skip`
characters belong to an occurrence that is replaced already. -/
def substituteFrom (pattern new : List Char) :
    (skip : Nat) → (done : List Char) → List Char → List Char
  | _, done, [] => done
  | skip + 1, done, _ :: s => substituteFrom pattern new skip done s
  | 0, done, c :: s =>
    if pattern.isPrefixOf (c :: s) then
      substituteFrom pattern new (pattern.length - 1) (new.reverse ++ done) s
    else substituteFrom pattern new 0 (c :: done) s

/-- Replaces every occurrence of a pattern, which must not be empty. -/
def substitute (pattern new s : List Char) : List Char :=
  (substituteFrom pattern new 0 [] s).reverse

/-! ## Lemmas -/

/-- What is done before only stands before what is added. -/
theorem substituteFrom_eq_append (pattern new : List Char) (skip : Nat) (done s : List Char) :
    substituteFrom pattern new skip done s = substituteFrom pattern new skip [] s ++ done := by
  induction s generalizing skip done with
  | nil => simp [substituteFrom]
  | cons c s ih =>
    cases skip with
    | succ skip => simpa [substituteFrom] using ih skip done
    | zero =>
      by_cases h : pattern.isPrefixOf (c :: s) = true
      · simp only [substituteFrom, if_pos h]
        rw [ih _ (new.reverse ++ done), ih _ (new.reverse ++ [])]
        simp
      · simp only [substituteFrom, if_neg h]
        rw [ih _ (c :: done), ih _ [c]]
        simp

/-- Characters that are skipped leave no trace. -/
theorem substituteFrom_length_append (pattern new before s : List Char) :
    substituteFrom pattern new before.length [] (before ++ s) =
      substituteFrom pattern new 0 [] s := by
  induction before with
  | nil => rfl
  | cons c before ih => simpa [substituteFrom] using ih

@[simp] theorem substitute_nil (pattern new : List Char) : substitute pattern new [] = [] := rfl

theorem substitute_cons_of_not_isPrefixOf {pattern : List Char} (new : List Char) {c : Char}
    {s : List Char} (h : ¬ pattern.isPrefixOf (c :: s) = true) :
    substitute pattern new (c :: s) = c :: substitute pattern new s := by
  simp only [substitute, substituteFrom, if_neg h]
  rw [substituteFrom_eq_append]
  simp

theorem substitute_append {pattern : List Char} (hp : pattern ≠ []) (new s : List Char) :
    substitute pattern new (pattern ++ s) = new ++ substitute pattern new s := by
  obtain ⟨c, rest, rfl⟩ := List.exists_cons_of_ne_nil hp
  have h : (c :: rest).isPrefixOf (c :: (rest ++ s)) = true := by simp
  simp only [substitute, List.cons_append, substituteFrom, if_pos h, List.length_cons,
    Nat.add_sub_cancel]
  rw [substituteFrom_eq_append, substituteFrom_length_append]
  simp

end DocCoverage.Text
