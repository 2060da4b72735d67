import DocCoverage.Proofs.Agree
import DocCoverage.Proofs.Toml.Steps

/-!
# One more key beside the others

Two tables that differ in one key only, which one of them lacks, stay that way whatever is done to
other keys: both refuse it, or both take it.

    Beside k v es es'  →  the head of the key is not k  →  what is done to both agrees  (step_beside)
    Beside k v es es'  →  other keys have the same values in both                     (Beside.lookup)
-/

namespace DocCoverage.Toml

/-- The second table has one more key than the first. -/
inductive Beside (k : String) (v : Value) : Entries → Entries → Prop
  | here (es : Entries) : Beside k v es ((k, v) :: es)
  | there (e : String × Value) {es es' : Entries} (h : Beside k v es es') :
      Beside k v (e :: es) (e :: es')

variable {k k' : String} {v : Value} {es es' : Entries}

namespace Beside

theorem concat (k : String) (v : Value) (es : Entries) : Beside k v es (es ++ [(k, v)]) := by
  induction es with
  | nil => exact .here []
  | cons e es ih => exact .there e ih

theorem lookup (h : Beside k v es es') (hk : k' ≠ k) : es'.lookup k' = es.lookup k' := by
  induction h with
  | here es =>
    rw [List.lookup_cons, beq_eq_false_iff_ne.mpr hk]
  | there e h ih => rw [List.lookup_cons, List.lookup_cons, ih]

theorem lookup_self (h : Beside k v es es') (hk : es.lookup k = none) : es'.lookup k = some v := by
  induction h with
  | here es => simp
  | there e h ih =>
    rw [List.lookup_cons] at hk ⊢
    split at hk
    · cases hk
    · exact ih hk

theorem all (h : Beside k v es es') (p : String × Value → Bool) :
    es'.all p = (p (k, v) && es.all p) := by
  induction h with
  | here es => rfl
  | there e h ih =>
    rw [List.all_cons, List.all_cons, ih, Bool.and_left_comm]

end Beside

namespace Entries

theorem alter_beside (h : Beside k v es es') (hk : k' ≠ k) (change : Option Value → Option Value) :
    Option.Rel (Beside k v) (es.alter k' change) (es'.alter k' change) := by
  induction h with
  | here es =>
    have hstep : Entries.alter k' change ((k, v) :: es) =
        (Entries.alter k' change es).map ((k, v) :: ·) := by
      conv => lhs; unfold alter
      rw [if_neg hk]
    rw [hstep]
    cases Entries.alter k' change es with
    | none => exact .none
    | some es => exact .some (.here es)
  | there e h ih =>
    unfold alter
    split
    · cases change (some e.2) with
      | none => exact .none
      | some w => exact .some (.there _ h)
    · exact rel_map ih fun _ _ h => .there e h

/-- A key passes the one more key by. -/
theorem reach_beside {via : Origin} {ks : List String} {origin : Origin}
    {change : Origin → Entries → Option Entries} (h : Beside k v es es') (hk : ks.head? ≠ some k)
    (hchange : ks = [] → Option.Rel (Beside k v) (change origin es) (change origin es')) :
    Option.Rel (Beside k v) (reach via change ks origin es) (reach via change ks origin es') := by
  cases ks with
  | nil => exact hchange rfl
  | cons k' ks =>
    rw [reach_cons]
    exact alter_beside h (fun he => hk (congrArg some he)) _

theorem assign_beside {ks : List String} {w : Value} {origin : Origin} (h : Beside k v es es')
    (hk : ks.head? ≠ some k) :
    Option.Rel (Beside k v) (es.assign ks w origin) (es'.assign ks w origin) := by
  rcases List.eq_nil_or_concat' ks with rfl | ⟨ks, k', rfl⟩
  · exact .none
  · rw [assign_concat, assign_concat]
    refine reach_beside h ?_ ?_
    · cases ks with
      | nil => simp
      | cons => exact hk
    · rintro rfl
      exact alter_beside h (fun he => hk (congrArg some he)) _

theorem below_beside {under : List String} {change : Entries → Option Entries}
    (h : Beside k v es es') (hk : under.head? ≠ some k)
    (hchange : under = [] → Option.Rel (Beside k v) (change es) (change es')) :
    Option.Rel (Beside k v) (below under change es) (below under change es') :=
  reach_beside h hk hchange

/-- The last part of a key is passed by too. -/
theorem below_alter_beside {ks : List String} {change : Option Value → Option Value}
    (h : Beside k v es es') (hk : (ks ++ [k']).head? ≠ some k) :
    Option.Rel (Beside k v) (below ks (Entries.alter k' change) es)
      (below ks (Entries.alter k' change) es') := by
  refine below_beside h ?_ ?_
  · cases ks with
    | nil => simp
    | cons => exact hk
  · rintro rfl
    exact alter_beside h (fun he => hk (congrArg some he)) _

end Entries

/-- A statement elsewhere does the same to both tables. -/
theorem Statement.step_beside {under : List String} {s : Statement} (h : Beside k v es es')
    (hunder : under.head? ≠ some k) (hs : s.key.head? ≠ some k) :
    Option.Rel (Beside k v) (s.step under es) (s.step under es') := by
  cases s with
  | define ks w => exact Entries.below_beside h hunder fun _ => Entries.assign_beside h hs
  | header ks =>
    rcases List.eq_nil_or_concat' ks with rfl | ⟨ks, k', rfl⟩
    · exact .none
    · show Option.Rel _ (Entries.openTable _ _ _) (Entries.openTable _ _ _)
      rw [Entries.openTable_concat, Entries.openTable_concat]
      exact Entries.below_alter_beside h hs
  | element ks =>
    rcases List.eq_nil_or_concat' ks with rfl | ⟨ks, k', rfl⟩
    · exact .none
    · show Option.Rel _ (Entries.openElement _ _ _) (Entries.openElement _ _ _)
      rw [Entries.openElement_concat, Entries.openElement_concat]
      exact Entries.below_alter_beside h hs

/-- Statements elsewhere do the same to both tables. -/
theorem run_beside {under : List String} {ss : List Statement} (h : Beside k v es es')
    (hunder : under.head? ≠ some k) (hss : ∀ s ∈ ss, s.key.head? ≠ some k) :
    Option.Rel (Beside k v) (run under ss es) (run under ss es') := by
  induction ss generalizing under es es' with
  | nil => exact .some h
  | cons s ss ih =>
    obtain ⟨hs, hss⟩ := List.forall_mem_cons.mp hss
    exact rel_bind (s.step_beside h hunder hs) fun _ _ h =>
      ih h (Statement.head?_opens hunder hs) hss

end DocCoverage.Toml
