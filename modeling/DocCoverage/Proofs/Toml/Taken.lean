import DocCoverage.Proofs.Toml.Moves
import DocCoverage.Proofs.Toml.Parts

/-!
# Paths that are taken

A value that is complete takes its path: no statement goes there again, or beyond.  A table that is not
complete may be extended, but it never becomes anything else.  So a path that two statements follow
ends in an open table, or on the way to it there is an array of tables.

    IsClosed p es  →  Moves q es es'  →  q does not start with p, and IsClosed p es'   (IsClosed.moves)
    IsOpen p es    →  Moves q es es'  →  IsOpen p es'                                    (IsOpen.moves)
    q starts with p  →  Moves q es es'  →  IsClosed p es' or IsOpen p es'             (closed_or_open)
    two of some moves follow p        →  IsOpen p at the end                         (isOpen_of_twice)
    a run moves along its paths                                                         (run_movesAll)
-/

namespace DocCoverage.Toml

/-- Whether something may still be added to a value. -/
def Value.isOpen : Value → Bool
  | .table origin _ => origin != .inline
  | .tables _ _ => true
  | _ => false

/-- A complete value stands at a path or on the way to it. -/
inductive IsClosed : List String → Entries → Prop
  | here {k : String} {ks : List String} {es : Entries} {v : Value} (h : es.lookup k = some v)
      (hv : v.isOpen = false) : IsClosed (k :: ks) es
  | inside {k : String} {ks : List String} {es inner : Entries} {origin : Origin}
      (h : es.lookup k = some (.table origin inner)) (horigin : origin ≠ .inline)
      (hinner : IsClosed ks inner) : IsClosed (k :: ks) es

/-- An open value stands at a path, or an array of tables on the way to it. -/
inductive IsOpen : List String → Entries → Prop
  | here {k : String} {es : Entries} {v : Value} (h : es.lookup k = some v)
      (hv : v.isOpen = true) : IsOpen [k] es
  | tables {k : String} {ks : List String} {es last : Entries} {earlier : List Value}
      (h : es.lookup k = some (.tables earlier last)) : IsOpen (k :: ks) es
  | inside {k : String} {ks : List String} {es inner : Entries} {origin : Origin}
      (h : es.lookup k = some (.table origin inner)) (horigin : origin ≠ .inline)
      (hinner : IsOpen ks inner) : IsOpen (k :: ks) es

variable {p q ks : List String} {k : String} {es es' inner : Entries} {v w : Value} {origin : Origin}

/-! ## One step -/

theorem isOpen_table (h : origin ≠ .inline) (inner : Entries) :
    (Value.table origin inner).isOpen = true := by
  simpa [Value.isOpen] using h

/-- Nothing is done to a complete value. -/
theorem not_ends_of_closed (hv : v.isOpen = false) : ¬ Ends (some v) w := by
  intro h
  cases h with
  | headed => cases hv
  | extended => cases hv

theorem not_passes_of_closed {R : Entries → Entries → Prop} (hv : v.isOpen = false) :
    ¬ Passes R (some v) w := by
  intro h
  cases h with
  | table horigin =>
    rw [isOpen_table horigin] at hv
    cases hv
  | tables => cases hv

/-- What is done at the end of a path leaves an open value. -/
theorem isOpen_of_ends (h : Ends (some v) w) : w.isOpen = true := by
  cases h with
  | headed => rfl
  | extended => rfl

theorem isOpen_of_passes {R : Entries → Entries → Prop} {old : Option Value} (h : Passes R old w) :
    w.isOpen = true := by
  cases h with
  | opens origin horigin => exact isOpen_table horigin _
  | table horigin => exact isOpen_table horigin _
  | tables => rfl

theorem not_cons_prefix (h : q.head? ≠ some k) : ¬ (k :: ks) <+: q := by
  rintro ⟨t, rfl⟩
  exact h rfl

/-- A path that is taken is not followed again, and stays taken. -/
theorem IsClosed.moves (h : IsClosed p es) (hmoves : Moves q es es') :
    IsClosed p es' ∧ ¬ p <+: q := by
  induction h generalizing q es' with
  | here h hv =>
    rcases hmoves.slot h with ⟨hsame, hhead⟩ | ⟨q, w, -, -, ⟨-, hends⟩ | hpasses⟩
    · exact ⟨.here hsame hv, not_cons_prefix hhead⟩
    · exact absurd hends (not_ends_of_closed hv)
    · exact absurd hpasses (not_passes_of_closed hv)
  | @inside k ks es inner origin h horigin hinner ih =>
    rcases hmoves.slot h with ⟨hsame, hhead⟩ | ⟨q, w, rfl, hw, ⟨rfl, hends⟩ | hpasses⟩
    · exact ⟨.inside hsame horigin hinner, not_cons_prefix hhead⟩
    · -- only a header may end at a table, and it keeps what is in it
      cases hends with
      | headed =>
        refine ⟨.inside hw (by decide) hinner, fun hprefix => ?_⟩
        obtain rfl := List.prefix_nil.mp (List.cons_prefix_cons.mp hprefix).2
        cases hinner
    · cases hpasses with
      | table _ hinner' =>
        obtain ⟨hclosed, hq⟩ := ih hinner'
        exact ⟨.inside hw horigin hclosed, fun hprefix => hq (List.cons_prefix_cons.mp hprefix).2⟩

/-- What is open stays open. -/
theorem IsOpen.moves (h : IsOpen p es) (hmoves : Moves q es es') : IsOpen p es' := by
  induction h generalizing q es' with
  | here h hv =>
    rcases hmoves.slot h with ⟨hsame, -⟩ | ⟨q, w, -, hw, ⟨-, hends⟩ | hpasses⟩
    · exact .here hsame hv
    · exact .here hw (isOpen_of_ends hends)
    · exact .here hw (isOpen_of_passes hpasses)
  | tables h =>
    rcases hmoves.slot h with ⟨hsame, -⟩ | ⟨q, w, -, hw, ⟨-, hends⟩ | hpasses⟩
    · exact .tables hsame
    · cases hends with
      | extended => exact .tables hw
    · cases hpasses with
      | tables => exact .tables hw
  | inside h horigin hinner ih =>
    rcases hmoves.slot h with ⟨hsame, -⟩ | ⟨q, w, -, hw, ⟨-, hends⟩ | hpasses⟩
    · exact .inside hsame horigin hinner
    · cases hends with
      | headed => exact .inside hw (by decide) hinner
    · cases hpasses with
      | table _ hinner' => exact .inside hw horigin (ih hinner')

/-- A statement that follows a path leaves something there. -/
theorem closed_or_open (hp : p ≠ []) (hpq : p <+: q) (hmoves : Moves q es es') :
    IsClosed p es' ∨ IsOpen p es' := by
  induction q generalizing p es es' with
  | nil => exact hmoves.elim
  | cons k q ih =>
    cases p with
    | nil => exact absurd rfl hp
    | cons k' p =>
      obtain ⟨rfl, hrest⟩ := List.cons_prefix_cons.mp hpq
      obtain ⟨-, w, hw, hslot⟩ := hmoves
      generalize es.lookup k' = old at hslot
      by_cases hend : p = []
      · subst hend
        cases hopen : w.isOpen with
        | false => exact .inl (.here hw hopen)
        | true => exact .inr (.here hw hopen)
      · rcases hslot with ⟨rfl, -⟩ | hpasses
        · exact absurd (List.prefix_nil.mp hrest) hend
        · cases hpasses with
          | opens origin horigin hinner =>
            exact (ih hend hrest hinner).imp (.inside hw horigin) (.inside hw horigin)
          | table horigin hinner =>
            exact (ih hend hrest hinner).imp (.inside hw horigin) (.inside hw horigin)
          | tables => exact .inr (.tables hw)

/-! ## Values that were read -/

section
variable {s rest : List Char}

theorem isOpen_of_ofPlain (h : ofPlain s = some v) : v.isOpen = false := by
  unfold ofPlain at h
  split at h
  · obtain rfl := Option.some.inj h
    rfl
  · split at h
    · obtain rfl := Option.some.inj h
      rfl
    · split at h
      · obtain rfl := Option.some.inj h
        split <;> rfl
      · obtain rfl := Option.some.inj h
        split <;> rfl
      · split at h
        · obtain rfl := Option.some.inj h
          rfl
        · split at h
          · obtain rfl := Option.some.inj h
            rfl
          · cases h

theorem isOpen_of_plain (h : plain s = some (v, rest)) : v.isOpen = false := by
  have hmap : ∀ {word left}, (ofPlain word).map (·, left) = some (v, rest) → v.isOpen = false := by
    intro word left h
    obtain ⟨w, hw, he⟩ := Option.map_eq_some_iff.mp h
    obtain ⟨rfl, -⟩ := Prod.mk.inj he
    exact isOpen_of_ofPlain hw
  unfold plain at h
  simp only at h
  split at h
  · split at h
    · exact hmap h
    · exact hmap h
  · exact hmap h

/-- A value that was read is complete. -/
theorem isOpen_of_valueUpTo {depth : Nat} (h : valueUpTo depth s = some (v, rest)) :
    v.isOpen = false := by
  have hmap : ∀ {α : Type} {o : Option (α × List Char)} {f : α → Value}, (∀ x, (f x).isOpen = false) →
      o.map (fun p => (f p.1, p.2)) = some (v, rest) → v.isOpen = false := by
    intro α o f hf h
    obtain ⟨p, -, he⟩ := Option.map_eq_some_iff.mp h
    obtain ⟨rfl, -⟩ := Prod.mk.inj he
    exact hf p.1
  cases depth with
  | zero =>
    unfold valueUpTo at h
    split at h
    · exact hmap (fun _ => rfl) h
    · exact hmap (fun _ => rfl) h
    · cases h
    · cases h
    · exact isOpen_of_plain h
  | succ depth =>
    unfold valueUpTo at h
    split at h
    · exact hmap (fun _ => rfl) h
    · exact hmap (fun _ => rfl) h
    · exact hmap (fun _ => rfl) h
    · split at h
      · cases h
      · obtain ⟨es, -, he⟩ := Option.map_eq_some_iff.mp h
        obtain ⟨rfl, -⟩ := Prod.mk.inj he
        rfl
    · exact isOpen_of_plain h

/-- The values of a document are complete. -/
theorem isOpen_of_statementsOf {ss : List Statement} (h : statementsOf s = some ss) :
    ∀ ks v, .define ks v ∈ ss → v.isOpen = false := by
  induction hn : s.length using Nat.strongRecOn generalizing s ss with
  | ind n ih =>
    rcases statementsOf_cases h with ⟨rest, hline, hrest⟩ |
      ⟨stmt, after, rest, ss, hline, hstmt, hend, hrest, rfl⟩
    · rcases (finishLine_suffix hline).2 with rfl | hlength
      · obtain rfl := Option.some.inj hrest
        exact nofun
      · exact ih _ (hn ▸ hlength) hrest rfl
    · have hlength : rest.length < n := by
        have := (skipBlanks_suffix s).length_le
        have := (statement_suffix hstmt).2
        have := (finishLine_suffix hend).1.length_le
        omega
      intro ks v hmem
      rcases List.mem_cons.mp hmem with rfl | hmem
      · unfold statement at hstmt
        split at hstmt
        · obtain ⟨p, -, he⟩ := Option.map_eq_some_iff.mp hstmt
          cases (Prod.mk.inj he).1
        · obtain ⟨p, -, he⟩ := Option.map_eq_some_iff.mp hstmt
          cases (Prod.mk.inj he).1
        · split at hstmt
          · cases hstmt
          · obtain ⟨p, hp, he⟩ := Option.map_eq_some_iff.mp hstmt
            obtain ⟨hdefine, -⟩ := Prod.mk.inj he
            obtain ⟨-, rfl⟩ := Statement.define.inj hdefine
            exact isOpen_of_valueUpTo hp
      · exact ih _ hlength hrest rfl ks v hmem

end

/-! ## Several steps -/

/-- What statements along some paths do to a table, one after the other. -/
inductive MovesAll : List (List String) → Entries → Entries → Prop
  | nil (es : Entries) : MovesAll [] es es
  | cons {q : List String} {qs : List (List String)} {es es₁ es' : Entries} (h : Moves q es es₁)
      (hrest : MovesAll qs es₁ es') : MovesAll (q :: qs) es es'

variable {qs : List (List String)}

theorem IsOpen.movesAll (h : IsOpen p es) (hmoves : MovesAll qs es es') : IsOpen p es' := by
  induction hmoves with
  | nil => exact h
  | cons hstep _ ih => exact ih (h.moves hstep)

theorem IsClosed.movesAll (h : IsClosed p es) (hmoves : MovesAll qs es es') :
    IsClosed p es' ∧ ∀ q ∈ qs, ¬ p <+: q := by
  induction hmoves with
  | nil => exact ⟨h, nofun⟩
  | cons hstep _ ih =>
    obtain ⟨hclosed, hq⟩ := h.moves hstep
    obtain ⟨hclosed, hqs⟩ := ih hclosed
    exact ⟨hclosed, List.forall_mem_cons.mpr ⟨hq, hqs⟩⟩

/-- Where two statements follow one path, it is open at the end. -/
theorem isOpen_of_twice (hp : p ≠ []) (hmoves : MovesAll qs es es') {q q' : List String}
    (hqs : [q, q'].Sublist qs) (hq : p <+: q) (hq' : p <+: q') : IsOpen p es' := by
  induction hmoves with
  | nil => cases hqs
  | cons hstep hmoves ih =>
    cases hqs with
    | cons _ hqs => exact ih hqs
    | cons_cons _ hqs =>
      rcases closed_or_open hp hq hstep with hclosed | hopen
      · have hmem := List.singleton_sublist.mp hqs
        exact absurd hq' ((hclosed.movesAll hmoves).2 q' hmem)
      · exact hopen.movesAll hmoves

/-- A complete value stays as it is. -/
theorem MovesAll.lookup_closed (hmoves : MovesAll qs es es') (h : es.lookup k = some v)
    (hv : v.isOpen = false) : es'.lookup k = some v := by
  induction hmoves with
  | nil => exact h
  | cons hstep _ ih =>
    rcases hstep.slot h with ⟨hsame, -⟩ | ⟨q, w, -, -, ⟨-, hends⟩ | hpasses⟩
    · exact ih hsame
    · exact absurd hends (not_ends_of_closed hv)
    · exact absurd hpasses (not_passes_of_closed hv)

/-- A table that a dotted key or a header has opened stays one. -/
theorem MovesAll.lookup_table (hmoves : MovesAll qs es es') (horigin : origin ≠ .implied)
    (h : es.lookup k = some (.table origin inner)) :
    ∃ inner', es'.lookup k = some (.table origin inner') := by
  induction hmoves generalizing inner with
  | nil => exact ⟨inner, h⟩
  | cons hstep _ ih =>
    rcases hstep.slot h with ⟨hsame, -⟩ | ⟨q, w, -, hw, ⟨-, hends⟩ | hpasses⟩
    · exact ih hsame
    · cases hends with
      | headed => exact absurd rfl horigin
    · cases hpasses with
      | table => exact ih hw

/-- What is there stays there. -/
theorem MovesAll.lookup_ne_none (hmoves : MovesAll qs es es') (h : es.lookup k ≠ none) :
    es'.lookup k ≠ none := by
  induction hmoves with
  | nil => exact h
  | cons hstep _ ih =>
    obtain ⟨v, hv⟩ := Option.ne_none_iff_exists'.mp h
    rcases hstep.slot hv with ⟨hsame, -⟩ | ⟨q, w, -, hw, -⟩
    · exact ih (by rw [hsame]; exact Option.some_ne_none v)
    · exact ih (by rw [hw]; exact Option.some_ne_none w)

theorem Entries.assignAll_movesAll {defs : List (List String × Value)}
    (h : assignAll defs origin es = some es') : MovesAll (defs.map Prod.fst) es es' := by
  induction defs generalizing es with
  | nil =>
    obtain rfl := Option.some.inj h
    exact .nil es
  | cons d defs ih =>
    obtain ⟨es₁, hstep, hrest⟩ := Option.bind_eq_some_iff.mp h
    exact .cons (assign_moves hstep) (ih hrest)

/-! ## Statements and their places -/

/-- The statements of a document with the headers they stand under. -/
def placed : List String → List Statement → List (List String × Statement)
  | _, [] => []
  | under, s :: ss => (under, s) :: placed (s.opens under) ss

theorem placed_append (under : List String) (ss ss' : List Statement) :
    placed under (ss ++ ss') = placed under ss ++ placed (lastUnder under ss) ss' := by
  induction ss generalizing under with
  | nil => rfl
  | cons s ss ih => exact congrArg ((under, s) :: ·) (ih _)

/-- The paths of statements under a header. -/
def paths (under : List String) (ss : List Statement) : List (List String) :=
  (placed under ss).map fun a => a.2.path a.1

theorem run_movesAll {under : List String} {ss : List Statement} (h : run under ss es = some es') :
    MovesAll (paths under ss) es es' := by
  induction ss generalizing under es with
  | nil =>
    obtain rfl := Option.some.inj h
    exact .nil es
  | cons s ss ih =>
    obtain ⟨es₁, hstep, hrest⟩ := Option.bind_eq_some_iff.mp h
    exact .cons (Statement.step_moves hstep) (ih hrest)

/-- Two statements of a document, the first in front of the second: what is done before them, by them,
between them and behind them. -/
theorem exists_of_placed {under : List String} {ss : List Statement}
    {a b : List String × Statement} (hab : [a, b].Sublist (placed under ss))
    (h : run under ss es = some es') :
    ∃ before rest es₁ es₂ es₃ es₄ qs qs', ss = before ++ a.2 :: rest ∧
      a.1 = lastUnder under before ∧ run under before es = some es₁ ∧
      a.2.step a.1 es₁ = some es₂ ∧ MovesAll qs es₂ es₃ ∧ b.2.step b.1 es₃ = some es₄ ∧
      MovesAll qs' es₄ es' := by
  have hlast : ∀ {under ss es} {b : List String × Statement}, b ∈ placed under ss →
      run under ss es = some es' → ∃ es₃ es₄ qs qs', MovesAll qs es es₃ ∧
        b.2.step b.1 es₃ = some es₄ ∧ MovesAll qs' es₄ es' := by
    intro under ss es b hb h
    induction ss generalizing under es with
    | nil => cases hb
    | cons s ss ih =>
      obtain ⟨es₁, hstep, hrest⟩ := Option.bind_eq_some_iff.mp h
      rcases List.mem_cons.mp hb with rfl | hb
      · exact ⟨es, es₁, _, _, .nil es, hstep, run_movesAll hrest⟩
      · obtain ⟨es₃, es₄, qs, qs', hqs, hb, hqs'⟩ := ih hb hrest
        exact ⟨es₃, es₄, _, qs', .cons (Statement.step_moves hstep) hqs, hb, hqs'⟩
  induction ss generalizing under es with
  | nil => cases hab
  | cons s ss ih =>
    obtain ⟨es₁, hstep, hrest⟩ := Option.bind_eq_some_iff.mp h
    cases hab with
    | cons _ hab =>
      obtain ⟨before, rest, es₂, es₃, es₄, es₅, qs, qs', hss, hunder, hbefore, ha, hqs, hb, hqs'⟩ :=
        ih hab hrest
      refine ⟨s :: before, rest, es₂, es₃, es₄, es₅, qs, qs', by rw [hss]; rfl, hunder, ?_, ha, hqs,
        hb, hqs'⟩
      exact Option.bind_eq_some_iff.mpr ⟨es₁, hstep, hbefore⟩
    | cons_cons _ hab =>
      obtain ⟨es₃, es₄, qs, qs', hqs, hb, hqs'⟩ := hlast (List.singleton_sublist.mp hab) hrest
      exact ⟨[], ss, es, es₁, es₃, es₄, qs, qs', rfl, rfl, rfl, hstep, hqs, hb, hqs'⟩

end DocCoverage.Toml
