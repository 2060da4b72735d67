import DocCoverage.Proofs.Toml.Building
import Mathlib.Data.List.Basic

/-!
# Building tables statement by statement

A document is cut into sections before its table is built, and a header opens its table together with
the definitions behind it.  The same table results when the statements are carried out one by one: a
header opens its table without any definition, and a definition goes to the table of the last header.

    openTable ks defs es  =  openTable ks [] es, then the definitions below ks        (openTable_bind)
    build ss  =  run [] ss []                                                          (build_eq_run)
    run under (ss ++ ss') es  =  run under ss es, then run (lastUnder under ss) ss'      (run_append)
-/

namespace DocCoverage.Toml

namespace Entries

/-! ## What is done at one key -/

/-- What a key does on its way through a table. -/
def through (via : Origin) (go : Origin → Entries → Option Entries) : Option Value → Option Value
  | none => (go via []).map (.table via)
  | some (.table origin inner) =>
    if passes via origin then (go origin inner).map (.table origin) else none
  | some (.tables earlier last) => (go .header last).map (.tables earlier)
  | some _ => none

/-- What a header with its definitions does to its table. -/
def headed (defs : List (List String × Value)) : Option Value → Option Value
  | none => (assignAll defs .header []).map (.table .header)
  | some (.table .implied kept) => (assignAll defs .header kept).map (.table .header)
  | some _ => none

/-- What the header of an element with its definitions does to its array of tables. -/
def extended (defs : List (List String × Value)) : Option Value → Option Value
  | none => (assignAll defs .header []).map (.tables [])
  | some (.tables earlier last) =>
    (assignAll defs .header []).map (.tables (earlier ++ [.table .header last]))
  | some _ => none

variable {via : Origin} {k : String}

theorem reach_cons (change : Origin → Entries → Option Entries) (k : String) (ks : List String)
    (origin : Origin) :
    reach via change (k :: ks) origin = Entries.alter k (through via (reach via change ks)) := by
  funext es
  unfold reach
  rfl

theorem openTable_concat (ks : List String) (k : String) (defs : List (List String × Value))
    (es : Entries) :
    es.openTable (ks ++ [k]) defs =
      reach .implied (fun _ => Entries.alter k (headed defs)) ks .header es := by
  unfold openTable
  rw [List.getLast?_concat, List.dropLast_concat]
  rfl

theorem openElement_concat (ks : List String) (k : String) (defs : List (List String × Value))
    (es : Entries) :
    es.openElement (ks ++ [k]) defs =
      reach .implied (fun _ => Entries.alter k (extended defs)) ks .header es := by
  unfold openElement
  rw [List.getLast?_concat, List.dropLast_concat]
  rfl

theorem assign_concat (ks : List String) (k : String) (v : Value) (origin : Origin) (es : Entries) :
    es.assign (ks ++ [k]) v origin =
      reach .dotted (fun found inner =>
        if ks.isEmpty || found == .dotted then add k v inner else none) ks origin es := by
  unfold assign
  rw [List.getLast?_concat, List.dropLast_concat]

/-! ## Two changes of one place -/

/-- Two changes of a key, one after the other. -/
theorem alter_bind (k : String) (f g : Option Value → Option Value) (es : Entries) :
    es.alter k (fun old => (f old).bind fun v => g (some v)) =
      (es.alter k f).bind (Entries.alter k g) := by
  induction es with
  | nil => cases hf : f none <;> simp [alter, hf]
  | cons e es ih =>
    unfold alter
    by_cases hk : k = e.1
    · rw [if_pos hk, if_pos hk]
      cases f (some e.2) with
      | none => rfl
      | some v => exact (if_pos hk).symm
    · rw [if_neg hk, if_neg hk, ih]
      cases Entries.alter k f es with
      | none => rfl
      | some es => exact (if_neg hk).symm

/-- What a key has opened it passes again. -/
theorem passes_self (h : via ≠ .inline) : passes via via = true := by
  cases via with
  | inline => exact absurd rfl h
  | dotted => rfl
  | implied => rfl
  | header => rfl

theorem through_bind (h : via ≠ .inline) (f g : Origin → Entries → Option Entries)
    (old : Option Value) :
    through via (fun o es => (f o es).bind (g o)) old =
      (through via f old).bind fun v => through via g (some v) := by
  cases old with
  | none => cases hf : f via [] <;> simp [through, hf, passes_self h]
  | some v =>
    cases v with
    | table origin inner =>
      cases hpasses : passes via origin with
      | false => simp [through, hpasses]
      | true => cases hf : f origin inner <;> simp [through, hpasses, hf]
    | tables earlier last => cases hf : f .header last <;> simp [through, hf]
    | _ => rfl

/-- Two changes at the end of a key, one after the other. -/
theorem reach_bind (h : via ≠ .inline) (f g : Origin → Entries → Option Entries) (ks : List String)
    (origin : Origin) (es : Entries) :
    reach via (fun o es => (f o es).bind (g o)) ks origin es =
      (reach via f ks origin es).bind (reach via g ks origin) := by
  induction ks generalizing origin es with
  | nil => rfl
  | cons k ks ih =>
    have hstep : reach via (fun o es => (f o es).bind (g o)) ks =
        fun o es => (reach via f ks o es).bind (reach via g ks o) := by
      funext o es
      exact ih o es
    rw [reach_cons, reach_cons, reach_cons, ← alter_bind, hstep]
    congr 1
    funext old
    exact through_bind h _ _ old

/-- A key in two parts. -/
theorem reach_append (f : Origin → Entries → Option Entries) (ks ks' : List String) :
    reach via f (ks ++ ks') = reach via (reach via f ks') ks := by
  induction ks with
  | nil =>
    funext o es
    rfl
  | cons k ks ih =>
    funext o es
    rw [List.cons_append, reach_cons, reach_cons, ih]

/-! ## Headers without definitions -/

/-- Changes the table of a header. -/
def below (ks : List String) (change : Entries → Option Entries) : Entries → Option Entries :=
  reach .implied (fun _ => change) ks .header

theorem below_bind (ks : List String) (f g : Entries → Option Entries) (es : Entries) :
    below ks (fun es => (f es).bind g) es = (below ks f es).bind (below ks g) :=
  reach_bind (by decide) _ _ ks .header es

theorem below_concat (ks : List String) (k : String) (change : Entries → Option Entries) :
    below (ks ++ [k]) change =
      below ks (Entries.alter k (through .implied fun _ => change)) := by
  unfold below
  rw [reach_append]
  congr 1

/-- The definitions of a header may follow it. -/
theorem headed_bind (defs : List (List String × Value)) (old : Option Value) :
    headed defs old = (headed [] old).bind fun v =>
      through .implied (fun _ => assignAll defs .header) (some v) := by
  cases old with
  | none => rfl
  | some v =>
    cases v with
    | table origin kept => cases origin <;> rfl
    | _ => rfl

theorem extended_bind (defs : List (List String × Value)) (old : Option Value) :
    extended defs old = (extended [] old).bind fun v =>
      through .implied (fun _ => assignAll defs .header) (some v) := by
  cases old with
  | none => rfl
  | some v => cases v <;> rfl

theorem openTable_bind (ks : List String) (defs : List (List String × Value)) (es : Entries) :
    es.openTable ks defs = (es.openTable ks []).bind (below ks (assignAll defs .header)) := by
  rcases List.eq_nil_or_concat' ks with rfl | ⟨ks, k, rfl⟩
  · rfl
  · rw [openTable_concat, openTable_concat, below_concat]
    show below ks _ es = (below ks _ es).bind _
    rw [← below_bind]
    congr 1
    funext inner
    rw [← alter_bind]
    congr 1
    funext old
    exact headed_bind defs old

theorem openElement_bind (ks : List String) (defs : List (List String × Value)) (es : Entries) :
    es.openElement ks defs = (es.openElement ks []).bind (below ks (assignAll defs .header)) := by
  rcases List.eq_nil_or_concat' ks with rfl | ⟨ks, k, rfl⟩
  · rfl
  · rw [openElement_concat, openElement_concat, below_concat]
    show below ks _ es = (below ks _ es).bind _
    rw [← below_bind]
    congr 1
    funext inner
    rw [← alter_bind]
    congr 1
    funext old
    exact extended_bind defs old

end Entries

/-! ## Statements one by one -/

open Entries (below)

namespace Statement

/-- The key of a statement. -/
def key : Statement → List String
  | .define ks _ => ks
  | .header ks => ks
  | .element ks => ks

/-- The header that stands over what follows a statement. -/
def opens (under : List String) : Statement → List String
  | .define _ _ => under
  | .header ks => ks
  | .element ks => ks

theorem head?_opens {under : List String} {s : Statement} {k : String}
    (hunder : under.head? ≠ some k) (hs : s.key.head? ≠ some k) :
    (s.opens under).head? ≠ some k := by
  cases s with
  | define => exact hunder
  | header => exact hs
  | element => exact hs

/-- Carries out a statement under a header. -/
def step (under : List String) : Statement → Entries → Option Entries
  | .define ks v => below under fun es => es.assign ks v .header
  | .header ks => fun es => es.openTable ks []
  | .element ks => fun es => es.openElement ks []

end Statement

/-- Carries out statements, the first one under a given header. -/
def run : List String → List Statement → Entries → Option Entries
  | _, [], es => some es
  | under, s :: ss, es => (s.step under es).bind (run (s.opens under) ss)

/-- The header that stands over what follows some statements. -/
def lastUnder (under : List String) (ss : List Statement) : List String :=
  ss.foldl Statement.opens under

theorem run_append (under : List String) (ss ss' : List Statement) (es : Entries) :
    run under (ss ++ ss') es = (run under ss es).bind (run (lastUnder under ss) ss') := by
  induction ss generalizing under es with
  | nil => rfl
  | cons s ss ih =>
    simp only [List.cons_append, run, Option.bind_assoc]
    congr 1
    funext es
    exact ih _ es

/-- The table of a header is there. -/
def IsThere (under : List String) (es : Entries) : Prop :=
  below under some es = some es

theorem isThere_nil (es : Entries) : IsThere [] es := rfl

/-- A change below a header leaves its table there. -/
theorem isThere_of_below {under : List String} {change : Entries → Option Entries}
    {es es' : Entries} (h : below under change es = some es') : IsThere under es' := by
  have hbind := Entries.below_bind under change some es
  rw [h] at hbind
  simp only [Option.bind_some, Option.bind_fun_some] at hbind
  exact hbind.symm.trans h

theorem isThere_of_step {under : List String} {s : Statement} {es es' : Entries}
    (h : s.step under es = some es') : IsThere (s.opens under) es' := by
  have hopen : ∀ ks, (some es').bind (below ks (Entries.assignAll [] .header)) = some es' →
      IsThere ks es' := fun ks h => h
  cases s with
  | define ks v => exact isThere_of_below h
  | header ks =>
    apply hopen
    have hbind := Entries.openTable_bind ks [] es
    rw [show es.openTable ks [] = some es' from h] at hbind
    exact hbind.symm
  | element ks =>
    apply hopen
    have hbind := Entries.openElement_bind ks [] es
    rw [show es.openElement ks [] = some es' from h] at hbind
    exact hbind.symm

/-- The definitions up to the next header are carried out below the last one. -/
theorem run_eq_group {under : List String} {es : Entries} (h : IsThere under es)
    (ss : List Statement) :
    run under ss es = (below under (Entries.assignAll (group ss).1 .header) es).bind fun es =>
      (group ss).2.foldlM Section.addTo es := by
  induction ss generalizing under es with
  | nil =>
    show some es = (below under some es).bind some
    rw [h]
    rfl
  | cons s ss ih =>
    have hrest : ∀ es', s.step under es = some es' →
        run (s.opens under) ss es' =
          (below (s.opens under) (Entries.assignAll (group ss).1 .header) es').bind fun es =>
            (group ss).2.foldlM Section.addTo es :=
      fun es' hes' => ih (isThere_of_step hes')
    have hstep : run under (s :: ss) es = ((s.step under es).bind
        (below (s.opens under) (Entries.assignAll (group ss).1 .header))).bind fun es =>
          (group ss).2.foldlM Section.addTo es := by
      unfold run
      cases hes : s.step under es with
      | none => rfl
      | some es' => exact hrest es' hes
    rw [hstep, group_cons]
    cases s with
    | define ks v =>
      congr 1
      exact (Entries.below_bind under _ _ es).symm
    | header ks =>
      have hbind := Entries.openTable_bind ks (group ss).1 es
      show _ = (below under some es).bind _
      rw [h]
      exact congrArg (Option.bind · _) hbind.symm
    | element ks =>
      have hbind := Entries.openElement_bind ks (group ss).1 es
      show _ = (below under some es).bind _
      rw [h]
      exact congrArg (Option.bind · _) hbind.symm

/-- A document is built statement by statement. -/
theorem build_eq_run (ss : List Statement) : build ss = run [] ss [] := by
  rw [run_eq_group (isThere_nil [])]
  rfl

end DocCoverage.Toml
