import DocCoverage.Toml.Document

/-!
# Building tables from single keys

A key of one part adds an entry at the end of its table, and a header of one part adds a table; both
are refused where the key is there already.

    assignAll (keys of one part, all new)  = some (es ++ definitions)         (assignAll_new)
    openTable [k], k new                   = some (es ++ [table of k])        (openTable_new)
    build of one table                     = its definitions and the table    (build_header)
-/

namespace DocCoverage.Toml

namespace Entries

variable {es : Entries} {k : String}

/-- The keys of a table. -/
def keys (es : Entries) : List String :=
  es.map Prod.fst

/-- A change of a key that is not there appends what the change makes of nothing. -/
theorem alter_new (h : k ∉ es.keys) (change : Option Value → Option Value) :
    es.alter k change = (change none).map fun v => es ++ [(k, v)] := by
  induction es with
  | nil => rfl
  | cons e es ih =>
    simp only [keys, List.map_cons, List.mem_cons, not_or] at h
    unfold alter
    rw [if_neg h.1, ih h.2, Option.map_map]
    rfl

theorem assign_new (h : k ∉ es.keys) (v : Value) (origin : Origin) :
    es.assign [k] v origin = some (es ++ [(k, v)]) := by
  simp [assign, reach, add, alter_new h]

/-- Definitions of one part each, as they stand in a document. -/
def single (defs : Entries) : List (List String × Value) :=
  defs.map fun d => ([d.1], d.2)

/-- New keys are added in order. -/
theorem assignAll_new {defs : Entries} (h : (es.keys ++ defs.keys).Nodup) (origin : Origin) :
    assignAll defs.single origin es = some (es ++ defs) := by
  induction defs generalizing es with
  | nil => simp [single, assignAll]
  | cons d defs ih =>
    have hnew : d.1 ∉ es.keys := by
      intro hmem
      have := (List.nodup_append.1 h).2.2 _ hmem d.1 (by simp [keys])
      exact this rfl
    have hrest : (keys (es ++ [d]) ++ keys defs).Nodup := by
      simpa [keys] using h
    have hstep := ih hrest
    unfold assignAll at hstep ⊢
    simp only [single, List.map_cons, List.foldlM_cons, assign_new hnew] at hstep ⊢
    simpa using hstep

/-- The header of a new key adds a table. -/
theorem openTable_new {defs : Entries} (h : k ∉ es.keys) (hdefs : defs.keys.Nodup) :
    es.openTable [k] defs.single = some (es ++ [(k, .table .header defs)]) := by
  have hinner : assignAll defs.single .header [] = some defs :=
    assignAll_new (by simpa [keys] using hdefs) .header
  simp [openTable, reach, alter_new h, hinner]

end Entries

/-- The statements that define single keys. -/
def defines (defs : Entries) : List Statement :=
  defs.map fun d => .define [d.1] d.2

@[simp] theorem group_nil : group [] = ([], []) := rfl

theorem group_cons (s : Statement) (ss : List Statement) :
    group (s :: ss) = prepend s (group ss) := rfl

theorem group_defines (defs : Entries) (ss : List Statement) :
    group (defines defs ++ ss) = (defs.single ++ (group ss).1, (group ss).2) := by
  induction defs with
  | nil => rfl
  | cons d defs ih =>
    show group (.define [d.1] d.2 :: (defines defs ++ ss)) = _
    rw [group_cons, ih]
    rfl

/-- Definitions of different keys are the table. -/
theorem build_defines {defs : Entries} (h : defs.keys.Nodup) : build (defines defs) = some defs := by
  have hgroup := group_defines defs []
  rw [List.append_nil] at hgroup
  have hassign : Entries.assignAll defs.single .header [] = some defs :=
    Entries.assignAll_new (by simpa [Entries.keys] using h) .header
  simp [build, hgroup, hassign]

/-- A header behind the definitions adds a table. -/
theorem build_header {defs inner : Entries} {k : String} (h : defs.keys.Nodup) (hk : k ∉ defs.keys)
    (hinner : inner.keys.Nodup) :
    build (defines defs ++ .header [k] :: defines inner) =
      some (defs ++ [(k, .table .header inner)]) := by
  have hgroup := group_defines inner []
  rw [List.append_nil] at hgroup
  have hassign : Entries.assignAll defs.single .header [] = some defs :=
    Entries.assignAll_new (by simpa [Entries.keys] using h) .header
  have hsection : group (.header [k] :: defines inner) = ([], [⟨false, [k], inner.single⟩]) := by
    rw [group_cons, hgroup]
    simp [prepend]
  simp [build, group_defines, hsection, hassign, Section.addTo, Entries.openTable_new hk hinner]

end DocCoverage.Toml
