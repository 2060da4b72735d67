/-!
# Sets of symbol names

A `SymbolSet` is kept as the strictly ascending list of its names, ordered by code point.  So two
sets with the same members are equal, and the list is the one that is printed.

    x ∈ ofList l  ↔  x ∈ l                                    (mem_ofList)
    x ∈ s \ t     ↔  x ∈ s ∧ x ∉ t                            (mem_sdiff)
    (∀ x, x ∈ s ↔ x ∈ t) → s = t                              (ext_mem)
-/

namespace DocCoverage

/-- A finite set of names, in strictly ascending order. -/
structure SymbolSet where
  toList : List String
  ascending : toList.Pairwise (· < ·)
  deriving DecidableEq, Repr

namespace SymbolSet

instance : Membership String SymbolSet := ⟨fun s x => x ∈ s.toList⟩

instance : EmptyCollection SymbolSet := ⟨⟨[], .nil⟩⟩

/-- Puts a name in front, unless the list starts with it already. -/
def consNew (x : String) : List String → List String
  | [] => [x]
  | y :: ys => if x = y then y :: ys else x :: y :: ys

/-- Keeps one of each block of equal neighbours. -/
def dedup (l : List String) : List String :=
  l.foldr consNew []

/-! ## Ordering lemmas -/

theorem mem_consNew {x y : String} {l : List String} : y ∈ consNew x l ↔ y = x ∨ y ∈ l := by
  cases l with
  | nil => simp [consNew]
  | cons z zs =>
    by_cases h : x = z
    · subst h; simp [consNew]
    · simp [consNew, h]

theorem mem_dedup {y : String} {l : List String} : y ∈ dedup l ↔ y ∈ l := by
  induction l with
  | nil => simp [dedup]
  | cons x xs ih =>
    have hx : dedup (x :: xs) = consNew x (dedup xs) := rfl
    rw [hx, mem_consNew, ih, List.mem_cons]

theorem pairwise_consNew {x : String} {l : List String} (hl : l.Pairwise (· < ·))
    (hx : ∀ y ∈ l, x ≤ y) : (consNew x l).Pairwise (· < ·) := by
  cases l with
  | nil => simp [consNew]
  | cons z zs =>
    by_cases h : x = z
    · simpa [consNew, h] using hl
    · have hxz : x < z := by
        refine String.not_le.1 fun hzx => h ?_
        exact String.le_antisymm (hx z (by simp)) hzx
      simp only [consNew, if_neg h]
      refine List.pairwise_cons.2 ⟨fun y hy => ?_, hl⟩
      rcases List.mem_cons.1 hy with rfl | hy
      · exact hxz
      · exact String.lt_trans hxz (List.rel_of_pairwise_cons hl hy)

theorem pairwise_dedup {l : List String} (hl : l.Pairwise (· ≤ ·)) :
    (dedup l).Pairwise (· < ·) := by
  induction l with
  | nil => simp [dedup]
  | cons x xs ih =>
    have hx : dedup (x :: xs) = consNew x (dedup xs) := rfl
    rw [hx]
    have hp := List.pairwise_cons.1 hl
    exact pairwise_consNew (ih hp.2) fun y hy => hp.1 y (mem_dedup.1 hy)

theorem pairwise_sorted (l : List String) :
    (l.mergeSort fun a b => decide (a ≤ b)).Pairwise (· ≤ ·) := by
  refine (List.pairwise_mergeSort ?_ ?_ l).imp fun h => of_decide_eq_true h
  · intro a b c hab hbc
    exact decide_eq_true (String.le_trans (of_decide_eq_true hab) (of_decide_eq_true hbc))
  · intro a b
    rcases String.le_total a b with h | h <;> simp [h]

/-! ## Operations -/

def ofList (l : List String) : SymbolSet :=
  ⟨dedup (l.mergeSort fun a b => decide (a ≤ b)), pairwise_dedup (pairwise_sorted l)⟩

/-- The names of the first set that the second lacks. -/
def sdiff (s t : SymbolSet) : SymbolSet :=
  ⟨s.toList.filter fun x => !t.toList.contains x, s.ascending.filter _⟩

instance : SDiff SymbolSet := ⟨sdiff⟩

def size (s : SymbolSet) : Nat :=
  s.toList.length

def isEmpty (s : SymbolSet) : Bool :=
  s.toList.isEmpty

/-! ## Membership -/

theorem mem_iff {x : String} {s : SymbolSet} : x ∈ s ↔ x ∈ s.toList := Iff.rfl

@[simp] theorem mem_ofList {x : String} {l : List String} : x ∈ ofList l ↔ x ∈ l := by
  rw [mem_iff, ofList, mem_dedup, List.mem_mergeSort]

@[simp] theorem mem_sdiff {x : String} {s t : SymbolSet} : x ∈ s \ t ↔ x ∈ s ∧ ¬ x ∈ t := by
  show x ∈ (sdiff s t).toList ↔ _
  simp [sdiff, mem_iff]

/-- Two strictly ascending lists with the same members are the same list. -/
theorem eq_of_ascending {l m : List String} (hl : l.Pairwise (· < ·)) (hm : m.Pairwise (· < ·))
    (h : ∀ x, x ∈ l ↔ x ∈ m) : l = m := by
  have nodup : ∀ {k : List String}, k.Pairwise (· < ·) → k.Nodup := by
    intro k hk
    refine hk.imp ?_
    rintro a b hab rfl
    exact String.lt_irrefl a hab
  refine List.Perm.eq_of_pairwise (fun a b _ _ hab hba => ?_) hl hm
    ((List.perm_ext_iff_of_nodup (nodup hl) (nodup hm)).2 h)
  exact absurd (String.lt_trans hab hba) (String.lt_irrefl _)

theorem ext_mem {s t : SymbolSet} (h : ∀ x, x ∈ s ↔ x ∈ t) : s = t := by
  cases s with
  | mk l hl =>
    cases t with
    | mk m hm =>
      obtain rfl : l = m := eq_of_ascending hl hm h
      rfl

theorem isEmpty_iff {s : SymbolSet} : s.isEmpty = true ↔ ∀ x, ¬ x ∈ s := by
  simp [isEmpty, mem_iff, List.isEmpty_iff, List.eq_nil_iff_forall_not_mem]

end SymbolSet

end DocCoverage
