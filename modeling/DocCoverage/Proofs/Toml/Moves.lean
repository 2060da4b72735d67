import DocCoverage.Proofs.Toml.Steps

/-!
# What a statement does to a table

A statement follows its path: the key of the header it stands under and its own key.  At every part of
the path but the last it passes through a table, opening one where there is none; at the last part it
puts a value where there was none, gives an implied table its header, or extends an array of tables.
It never replaces a value, and leaves all other keys alone.

    s.step under es = some es'  →  Moves (s.path under) es es'                           (step_moves)
    other keys keep their values, along a step and along a run            (Moves.lookup, run_lookup)
-/

namespace DocCoverage.Toml

/-- What a statement does at the last part of its path. -/
inductive Ends : Option Value → Value → Prop
  | put (v : Value) : Ends none v
  | headed (kept : Entries) : Ends (some (.table .implied kept)) (.table .header kept)
  | extended (earlier : List Value) (last : Entries) :
      Ends (some (.tables earlier last)) (.tables (earlier ++ [.table .header last]) [])

/-- What a statement does at a part of its path that others follow; `R` is what it does behind it. -/
inductive Passes (R : Entries → Entries → Prop) : Option Value → Value → Prop
  | opens (origin : Origin) {inner : Entries} (horigin : origin ≠ .inline) (h : R [] inner) :
      Passes R none (.table origin inner)
  | table {origin : Origin} {inner inner' : Entries} (horigin : origin ≠ .inline)
      (h : R inner inner') : Passes R (some (.table origin inner)) (.table origin inner')
  | tables (earlier : List Value) {last last' : Entries} (h : R last last') :
      Passes R (some (.tables earlier last)) (.tables earlier last')

/-- What a statement along a path does to a table. -/
def Moves : List String → Entries → Entries → Prop
  | [], _, _ => False
  | k :: ks, es, es' =>
    (∀ k' ≠ k, es'.lookup k' = es.lookup k') ∧
    ∃ v, es'.lookup k = some v ∧
      ((ks = [] ∧ Ends (es.lookup k) v) ∨ Passes (Moves ks) (es.lookup k) v)

variable {k : String} {es es' : Entries}

namespace Entries

/-- A change of a key leaves the other keys alone. -/
theorem of_alter_eq_some {change : Option Value → Option Value} (h : es.alter k change = some es') :
    (∀ k' ≠ k, es'.lookup k' = es.lookup k') ∧
    ∃ v, es'.lookup k = some v ∧ change (es.lookup k) = some v := by
  induction es generalizing es' with
  | nil =>
    obtain ⟨v, hv, rfl⟩ := Option.map_eq_some_iff.mp h
    refine ⟨fun k' hk' => ?_, v, by simp, hv⟩
    rw [List.lookup_cons, beq_eq_false_iff_ne.mpr hk']
  | cons e es ih =>
    unfold alter at h
    split at h
    · next hk =>
      obtain ⟨v, hv, rfl⟩ := Option.map_eq_some_iff.mp h
      refine ⟨fun k' hk' => ?_, v, by simp [hk], ?_⟩
      · have hne : (k' == e.1) = false := by simpa [← hk] using hk'
        rw [List.lookup_cons, List.lookup_cons, hne]
      · rw [List.lookup_cons, beq_iff_eq.mpr hk]
        exact hv
    · next hk =>
      obtain ⟨es, hes, rfl⟩ := Option.map_eq_some_iff.mp h
      obtain ⟨hother, v, hlookup, hv⟩ := ih hes
      have hne : (k == e.1) = false := beq_eq_false_iff_ne.mpr hk
      refine ⟨fun k' hk' => ?_, v, ?_, ?_⟩
      · rw [List.lookup_cons, List.lookup_cons, hother k' hk']
      · rw [List.lookup_cons, hne]
        exact hlookup
      · rw [List.lookup_cons, hne]
        exact hv

theorem ne_inline_of_passes {via origin : Origin} (h : passes via origin = true) :
    origin ≠ .inline := by
  rintro rfl
  cases h

/-- A key moves along its parts, and goes on with what is done at its end. -/
theorem reach_moves {via : Origin} (hvia : via ≠ .inline)
    {change : Origin → Entries → Option Entries} {ks' : List String}
    (hchange : ∀ origin es es', change origin es = some es' → Moves ks' es es')
    {ks : List String} {origin : Origin} (h : reach via change ks origin es = some es') :
    Moves (ks ++ ks') es es' := by
  induction ks generalizing origin es es' with
  | nil => exact hchange origin es es' h
  | cons k ks ih =>
    rw [reach_cons] at h
    obtain ⟨hother, v, hv, hthrough⟩ := of_alter_eq_some h
    refine ⟨hother, v, hv, .inr ?_⟩
    unfold through at hthrough
    split at hthrough
    · next hold =>
      rw [hold]
      obtain ⟨inner, hinner, rfl⟩ := Option.map_eq_some_iff.mp hthrough
      exact .opens via hvia (ih hinner)
    · next origin inner hold =>
      rw [hold]
      split at hthrough
      · next hpasses =>
        obtain ⟨inner', hinner, rfl⟩ := Option.map_eq_some_iff.mp hthrough
        exact .table (ne_inline_of_passes hpasses) (ih hinner)
      · cases hthrough
    · next earlier last hold =>
      rw [hold]
      obtain ⟨last', hlast, rfl⟩ := Option.map_eq_some_iff.mp hthrough
      exact .tables earlier (ih hlast)
    · cases hthrough

/-- A change of one key that ends there. -/
theorem alter_moves {change : Option Value → Option Value}
    (hchange : ∀ old v, change old = some v → Ends old v) (h : es.alter k change = some es') :
    Moves [k] es es' := by
  obtain ⟨hother, v, hv, hnew⟩ := of_alter_eq_some h
  exact ⟨hother, v, hv, .inl ⟨rfl, hchange _ _ hnew⟩⟩

theorem add_moves {v : Value} (h : es.add k v = some es') : Moves [k] es es' := by
  refine alter_moves (fun old w hw => ?_) h
  cases old with
  | none => exact .put w
  | some old => cases hw

theorem headed_ends {old : Option Value} {v : Value} (h : headed [] old = some v) : Ends old v := by
  unfold headed at h
  split at h
  · exact .put v
  · next kept =>
    obtain rfl := Option.some.inj h
    exact .headed kept
  · cases h

theorem extended_ends {old : Option Value} {v : Value} (h : extended [] old = some v) :
    Ends old v := by
  unfold extended at h
  split at h
  · exact .put v
  · next earlier last =>
    obtain rfl := Option.some.inj h
    exact .extended earlier last
  · cases h

theorem assign_moves {ks : List String} {v : Value} {origin : Origin}
    (h : es.assign ks v origin = some es') : Moves ks es es' := by
  rcases List.eq_nil_or_concat' ks with rfl | ⟨ks, k, rfl⟩
  · cases h
  · rw [assign_concat] at h
    refine reach_moves (by decide) (fun found es es' h => ?_) h
    split at h
    · exact add_moves h
    · cases h

theorem openTable_moves {ks : List String} (h : es.openTable ks [] = some es') :
    Moves ks es es' := by
  rcases List.eq_nil_or_concat' ks with rfl | ⟨ks, k, rfl⟩
  · cases h
  · rw [openTable_concat] at h
    exact reach_moves (by decide) (fun _ _ _ h => alter_moves (fun _ _ h => headed_ends h) h) h

theorem openElement_moves {ks : List String} (h : es.openElement ks [] = some es') :
    Moves ks es es' := by
  rcases List.eq_nil_or_concat' ks with rfl | ⟨ks, k, rfl⟩
  · cases h
  · rw [openElement_concat] at h
    exact reach_moves (by decide) (fun _ _ _ h => alter_moves (fun _ _ h => extended_ends h) h) h

end Entries

/-- The path of a statement under a header: where it leads from the top of the document. -/
def Statement.path (under : List String) : Statement → List String
  | .define ks _ => under ++ ks
  | .header ks => ks
  | .element ks => ks

/-- A statement moves along its path. -/
theorem Statement.step_moves {under : List String} {s : Statement}
    (h : s.step under es = some es') : Moves (s.path under) es es' := by
  cases s with
  | define ks v =>
    exact Entries.reach_moves (by decide) (fun _ _ _ h => Entries.assign_moves h) h
  | header ks => exact Entries.openTable_moves h
  | element ks => exact Entries.openElement_moves h

theorem Moves.lookup {ks : List String} (h : Moves ks es es') (hk : ks.head? ≠ some k) :
    es'.lookup k = es.lookup k := by
  cases ks with
  | nil => exact h.elim
  | cons k' ks => exact h.1 k fun he => hk (congrArg some he.symm)

/-- What is done to the value of a key: nothing, or what the first part of the path says. -/
theorem Moves.slot {ks : List String} {v : Value} (h : Moves ks es es')
    (hv : es.lookup k = some v) :
    (es'.lookup k = some v ∧ ks.head? ≠ some k) ∨
    ∃ ks' w, ks = k :: ks' ∧ es'.lookup k = some w ∧
      ((ks' = [] ∧ Ends (some v) w) ∨ Passes (Moves ks') (some v) w) := by
  by_cases hhead : ks.head? = some k
  · obtain ⟨ks', rfl⟩ := List.head?_eq_some_iff.mp hhead
    obtain ⟨-, w, hw, hslot⟩ := h
    rw [hv] at hslot
    exact .inr ⟨ks', w, rfl, hw, hslot⟩
  · exact .inl ⟨(h.lookup hhead).trans hv, hhead⟩

/-- Statements elsewhere leave the value of a key alone. -/
theorem run_lookup {under : List String} {ss : List Statement} (h : run under ss es = some es')
    (hunder : under.head? ≠ some k) (hss : ∀ s ∈ ss, s.key.head? ≠ some k) :
    es'.lookup k = es.lookup k := by
  induction ss generalizing under es with
  | nil =>
    obtain rfl := Option.some.inj h
    rfl
  | cons s ss ih =>
    obtain ⟨hs, hss⟩ := List.forall_mem_cons.mp hss
    obtain ⟨es₁, hstep, hrun⟩ := Option.bind_eq_some_iff.mp h
    have hpath : (s.path under).head? ≠ some k := by
      cases s with
      | define ks v =>
        cases under with
        | nil => exact hs
        | cons => exact hunder
      | header => exact hs
      | element => exact hs
    rw [ih hrun (Statement.head?_opens hunder hs) hss, (Statement.step_moves hstep).lookup hpath]

theorem Entries.notMem_keys (h : es.lookup k = none) : k ∉ es.keys := by
  rw [List.lookup_eq_none_iff] at h
  intro hmem
  obtain ⟨e, he, rfl⟩ := List.mem_map.mp hmem
  simpa using h e he

/-- A key that no statement uses is not there. -/
theorem notMem_keys_of_run {ss : List Statement} (h : run [] ss [] = some es)
    (hss : ∀ s ∈ ss, s.key.head? ≠ some k) : k ∉ es.keys :=
  Entries.notMem_keys (run_lookup h (by simp) hss)

end DocCoverage.Toml
