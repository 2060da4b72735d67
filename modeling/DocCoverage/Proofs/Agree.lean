import Mathlib.Data.List.Forall2

/-!
# Computations that agree

Two computations that may fail agree when both fail or both succeed, with errors or results that are
related.  What agrees step by step agrees as a whole.  Without errors to relate, `Option.Rel` says the
same.

    x >>= f  = ok b    →  x = ok a and f a = ok b                                  (exists_of_bind_eq_ok)
    Agree E A x x'     →  related results lead to agreement  →  Agree E B (x >>= f) (x' >>= f')   (bind)
    Option.Rel R x x'  →  …                                  →  Option.Rel S (x.bind f) (x'.bind f')
-/

namespace DocCoverage

/-- A computation in two parts succeeds only through both of them. -/
theorem exists_of_bind_eq_ok {ε α β : Type} {x : Except ε α} {f : α → Except ε β} {b : β}
    (h : x >>= f = .ok b) : ∃ a, x = .ok a ∧ f a = .ok b := by
  cases x with
  | error e => cases h
  | ok a => exact ⟨a, rfl, h⟩

/-- Both end well, or both end in an error, and what they end with is related. -/
inductive Agree {ε ε' α α' : Type} (E : ε → ε' → Prop) (A : α → α' → Prop) :
    Except ε α → Except ε' α' → Prop
  | error {e : ε} {e' : ε'} (h : E e e') : Agree E A (.error e) (.error e')
  | ok {a : α} {a' : α'} (h : A a a') : Agree E A (.ok a) (.ok a')

namespace Agree

variable {ε ε' α α' β β' : Type} {E : ε → ε' → Prop} {A : α → α' → Prop} {B : β → β' → Prop}

theorem refl {A : α → α → Prop} (hA : ∀ a, A a a) (x : Except ε α) : Agree Eq A x x := by
  cases x with
  | error e => exact .error rfl
  | ok a => exact .ok (hA a)

theorem bind {x : Except ε α} {x' : Except ε' α'} (h : Agree E A x x') {f : α → Except ε β}
    {f' : α' → Except ε' β'} (hf : ∀ a a', A a a' → Agree E B (f a) (f' a')) :
    Agree E B (x >>= f) (x' >>= f') := by
  cases h with
  | error h => exact .error h
  | ok h => exact hf _ _ h

theorem bind_self (x : Except ε α) {f : α → Except ε β} {f' : α → Except ε β'}
    (hf : ∀ a, Agree Eq B (f a) (f' a)) : Agree Eq B (x >>= f) (x >>= f') := by
  cases x with
  | error e => exact .error rfl
  | ok a => exact hf a

/-- One list, gone through in two ways that agree on each of its items. -/
theorem mapM {γ : Type} {f : γ → Except ε α} {f' : γ → Except ε' α'} {l : List γ}
    (h : ∀ c ∈ l, Agree E A (f c) (f' c)) : Agree E (List.Forall₂ A) (l.mapM f) (l.mapM f') := by
  induction l with
  | nil => exact .ok .nil
  | cons c l ih =>
    rw [List.mapM_cons, List.mapM_cons]
    refine (h c List.mem_cons_self).bind fun a a' ha => ?_
    refine (ih fun d hd => h d (List.mem_cons_of_mem _ hd)).bind fun as as' has => ?_
    exact .ok (.cons ha has)

end Agree

/-! ## Optional results -/

section
variable {α α' β β' : Type} {R : α → α' → Prop} {S : β → β' → Prop}

theorem rel_refl {R : α → α → Prop} (hR : ∀ a, R a a) (x : Option α) : Option.Rel R x x := by
  cases x with
  | none => exact .none
  | some a => exact .some (hR a)

theorem rel_imp {R' : α → α' → Prop} {x : Option α} {x' : Option α'} (h : Option.Rel R x x')
    (himp : ∀ a a', R a a' → R' a a') : Option.Rel R' x x' := by
  cases h with
  | none => exact .none
  | some h => exact .some (himp _ _ h)

theorem rel_bind {x : Option α} {x' : Option α'} (h : Option.Rel R x x') {f : α → Option β}
    {f' : α' → Option β'} (hf : ∀ a a', R a a' → Option.Rel S (f a) (f' a')) :
    Option.Rel S (x.bind f) (x'.bind f') := by
  cases h with
  | none => exact .none
  | some h => exact hf _ _ h

theorem rel_map {x : Option α} {x' : Option α'} (h : Option.Rel R x x') {f : α → β} {f' : α' → β'}
    (hf : ∀ a a', R a a' → S (f a) (f' a')) : Option.Rel S (x.map f) (x'.map f') := by
  cases h with
  | none => exact .none
  | some h => exact .some (hf _ _ h)

theorem rel_bind_self (x : Option α) {f : α → Option β} {f' : α → Option β'}
    (hf : ∀ a, Option.Rel S (f a) (f' a)) : Option.Rel S (x.bind f) (x.bind f') := by
  cases x with
  | none => exact .none
  | some a => exact hf a

end

end DocCoverage
