import DocCoverage.Proofs.Settings.Resolution
import DocCoverage.Proofs.Settings.Shape
import DocCoverage.Proofs.Toml.Beside
import DocCoverage.Proofs.Toml.Grammar
import DocCoverage.Proofs.Toml.Moves

/-!
# The forms of the section on the trail

The section on the trail may be written as a table at the end of the file, as an inline table, with
dotted keys, which may stand apart, or as an array of its values in order.  All forms of one section
say the same, whatever else the file says.

    WithTrail d base text          text is base with the section d, in some form
    build text  =  build base with one more key, whose value says d                  (WithTrail.build)
    read text   =  read base, with the section d                                      (read_withTrail)
    load        is the same for all forms                                          (load_withTrail_eq)
-/

namespace DocCoverage

open Toml (Entries Value Statement Beside IsLines SpellsKey SpellsDefinition WritesItems WritesField
  WritesString statementsOf)

/-! ## Sections and their forms -/

/-- What a section on the trail is to say. -/
structure TrailDraft where
  level : Option String
  fileLevel : Option String
  file : Option String
  deriving DecidableEq, Repr

namespace TrailDraft

/-- The keys that have a value, with their values. -/
def fields (d : TrailDraft) : List (String × String) :=
  (d.level.map ("level", ·)).toList ++ (d.fileLevel.map ("file_level", ·)).toList ++
    (d.file.map ("file", ·)).toList

/-- The values in order, where none is left out before one that is there. -/
inductive Lists : TrailDraft → List String → Prop
  | one (level : String) : Lists ⟨some level, none, none⟩ [level]
  | two (level fileLevel : String) : Lists ⟨some level, some fileLevel, none⟩ [level, fileLevel]
  | three (level fileLevel file : String) :
      Lists ⟨some level, some fileLevel, some file⟩ [level, fileLevel, file]

/-- The section that says it. -/
def contents (d : TrailDraft) : TrailSection :=
  ⟨d.level.getD Settings.defaultLevel, d.fileLevel, d.file⟩

end TrailDraft

/-- A document that does not use the key of the section. -/
def Avoids (s : List Char) : Prop :=
  ∃ ss, statementsOf s = some ss ∧ ∀ st ∈ ss, st.key.head? ≠ some "logging"

/-- Complete lines of definitions, before any header, that do not use the key of the section. -/
structure IsTop (s : List Char) : Prop where
  lines : IsLines s
  defines : ∃ ss, statementsOf s = some ss ∧
    ∀ st ∈ ss, ∃ ks v, st = .define ks v ∧ ks.head? ≠ some "logging"

/-- The text of definitions, one on a line. -/
def writtenOut (lines : List (List Char)) : List Char :=
  lines.flatMap (· ++ ['\n'])

/-- Lines with dotted keys of the section stand among the lines of a document, before any header. -/
inductive Woven : List (String × String) → List Char → List Char → Prop
  | rest {back : List Char} (hback : Avoids back) : Woven [] back back
  | line {k t : String} {s : List Char} {fields : List (String × String)} {base text : List Char}
      (hs : SpellsDefinition ["logging", k] t s) (h : Woven fields base text) :
      Woven ((k, t) :: fields) base (s ++ '\n' :: text)
  | keep {front base text : List Char} {fields : List (String × String)} (hfront : IsTop front)
      (h : Woven fields base text) : Woven fields (front ++ base) (front ++ text)

/-- A document with the section on the trail added to it, in one of its forms. -/
inductive WithTrail (d : TrailDraft) : List Char → List Char → Prop
  | table {base kt : List Char} {fields : List (String × String)} {lines : List (List Char)}
      (hlines : IsLines base) (hbase : Avoids base) (hkt : SpellsKey ["logging"] kt)
      (hfields : fields.Perm d.fields)
      (h : List.Forall₂ (fun f s => SpellsDefinition [f.1] f.2 s) fields lines) :
      WithTrail d base (base ++ (Toml.headerLine kt ++ writtenOut lines))
  | inline {front back kt s : List Char} {fields : List (String × String)} (hfront : IsTop front)
      (hback : Avoids back) (hkt : SpellsKey ["logging"] kt) (hfields : fields.Perm d.fields)
      (h : WritesItems WritesField s fields) :
      WithTrail d (front ++ back) (front ++ (Toml.defineLine kt ('{' :: (s ++ ['}'])) ++ back))
  | array {front back kt s : List Char} {ts : List String} (hfront : IsTop front)
      (hback : Avoids back) (hkt : SpellsKey ["logging"] kt) (hlists : d.Lists ts)
      (h : WritesItems WritesString s ts) :
      WithTrail d (front ++ back) (front ++ (Toml.defineLine kt ('[' :: (s ++ [']'])) ++ back))
  | dotted {base text : List Char} {fields : List (String × String)} (hne : fields ≠ [])
      (hfields : fields.Perm d.fields) (h : Woven fields base text) : WithTrail d base text

/-! ## What the value of the key says -/

/-- The entries of some fields. -/
def fieldEntries (fields : List (String × String)) : Entries :=
  fields.map fun f => (f.1, .string f.2)

theorem keys_fieldEntries (fields : List (String × String)) :
    (fieldEntries fields).keys = fields.map Prod.fst := by
  simp [fieldEntries, Entries.keys]

/-- In any order different keys have the same values. -/
theorem lookup_perm {es es' : Entries} (h : es.Perm es') (hkeys : es.keys.Nodup) (k : String) :
    es.lookup k = es'.lookup k := by
  induction h with
  | nil => rfl
  | cons e _ ih =>
    rw [List.lookup_cons, List.lookup_cons, ih (List.nodup_cons.mp hkeys).2]
  | swap e e' es =>
    have hne : e.1 ≠ e'.1 := by
      rintro he
      simp [Entries.keys, he] at hkeys
    rw [List.lookup_cons, List.lookup_cons, List.lookup_cons, List.lookup_cons]
    by_cases hk : k = e.1
    · subst hk
      have hk' : (e.1 == e'.1) = false := by simpa using hne
      simp [hk']
    · have hk' : (k == e.1) = false := by simpa using hk
      simp [hk']
  | trans h _ ih ih' =>
    rw [ih hkeys, ih' ((h.map Prod.fst).nodup_iff.mp hkeys)]

namespace TrailDraft

variable {d : TrailDraft} {fields : List (String × String)}

theorem nodup_fields (d : TrailDraft) : (d.fields.map Prod.fst).Nodup := by
  have hsublist : List.Sublist (d.fields.map Prod.fst) ["level", "file_level", "file"] := by
    obtain ⟨level, fileLevel, file⟩ := d
    cases level <;> cases fileLevel <;> cases file <;> simp [TrailDraft.fields]
  exact hsublist.nodup (by decide)

theorem nodup_of_perm (h : fields.Perm d.fields) : (fields.map Prod.fst).Nodup :=
  (h.map Prod.fst).nodup_iff.mpr d.nodup_fields

/-- The value of the key of the section says what the draft says. -/
structure SaidBy (d : TrailDraft) (v : Value) : Prop where
  trail : SettingsFile.trail? (some v) = some d.contents
  readable : SettingsFile.isReadable ("logging", v) = true

theorem saidBy_table (origin : Toml.Origin) (h : fields.Perm d.fields) :
    d.SaidBy (.table origin (fieldEntries fields)) where
  trail := by
    have hlookup : ∀ k, (fieldEntries fields).lookup k = (fieldEntries d.fields).lookup k :=
      lookup_perm (h.map _) (by rw [keys_fieldEntries]; exact nodup_of_perm h)
    have hvalues : (fieldEntries d.fields).lookup "level" = d.level.map .string ∧
        (fieldEntries d.fields).lookup "file_level" = d.fileLevel.map .string ∧
        (fieldEntries d.fields).lookup "file" = d.file.map .string := by
      obtain ⟨level, fileLevel, file⟩ := d
      cases level <;> cases fileLevel <;> cases file <;> exact ⟨rfl, rfl, rfl⟩
    obtain ⟨hlevel, hfileLevel, hfile⟩ := hvalues
    simp [SettingsFile.trail?, SettingsFile.trailOf, Entries.get?, hlookup, hlevel, hfileLevel,
      hfile, SettingsFile.text?_map, contents]
  readable := by
    show Value.isSound (.table origin (fieldEntries fields)) = true
    rw [Value.isSound, Toml.entriesAreSound_iff]
    intro e he
    obtain ⟨f, -, rfl⟩ := List.mem_map.mp he
    rfl

theorem saidBy_array {ts : List String} (h : d.Lists ts) : d.SaidBy (.array (ts.map .string)) where
  trail := by cases h <;> rfl
  readable := rfl

end TrailDraft

/-! ## Building the table -/

section
variable {ss : List Statement} {es : Entries} {v : Value}

theorem lastUnder_defines (h : ∀ st ∈ ss, ∃ ks v, st = .define ks v ∧ ks.head? ≠ some "logging")
    (under : List String) : Toml.lastUnder under ss = under := by
  induction ss with
  | nil => rfl
  | cons st ss ih =>
    obtain ⟨⟨ks, v, rfl, -⟩, hss⟩ := List.forall_mem_cons.mp h
    exact ih hss

theorem avoids_defines (h : ∀ st ∈ ss, ∃ ks v, st = .define ks v ∧ ks.head? ≠ some "logging") :
    ∀ st ∈ ss, st.key.head? ≠ some "logging" := by
  intro st hst
  obtain ⟨ks, v, rfl, hks⟩ := h st hst
  exact hks

/-- A section between the definitions at the top and the rest of the document. -/
theorem build_between {front back : List Statement}
    (hfront : ∀ st ∈ front, ∃ ks v, st = .define ks v ∧ ks.head? ≠ some "logging")
    (hback : ∀ st ∈ back, st.key.head? ≠ some "logging") (v : Value) :
    Option.Rel (Beside "logging" v) (Toml.build (front ++ back))
      (Toml.build (front ++ .define ["logging"] v :: back)) := by
  rw [Toml.build_eq_run, Toml.build_eq_run, Toml.run_append, Toml.run_append,
    lastUnder_defines hfront]
  cases hes : Toml.run [] front [] with
  | none => exact .none
  | some es =>
    have hnew := Toml.notMem_keys_of_run hes (avoids_defines hfront)
    have hstep : (Statement.define ["logging"] v).step [] es = some (es ++ [("logging", v)]) :=
      Entries.assign_new hnew v .header
    show Option.Rel _ (Toml.run [] back es) (Option.bind (Statement.step [] _ es) _)
    rw [hstep]
    exact Toml.run_beside (.concat "logging" v es) (by simp) hback

/-- A header with definitions of its own behind a document. -/
theorem Toml.run_header_defines (under : List String) (k : String) (defs es : Entries) :
    run under (.header [k] :: defines defs) es = es.openTable [k] defs.single := by
  have hgroup := group_defines defs []
  rw [List.append_nil] at hgroup
  rw [Entries.openTable_bind]
  unfold run
  cases hstep : (Statement.header [k]).step under es with
  | none =>
    rw [show es.openTable [k] [] = none from hstep]
    rfl
  | some es' =>
    rw [show es.openTable [k] [] = some es' from hstep]
    have hthere : IsThere [k] es' := isThere_of_step hstep
    show run [k] (defines defs) es' = _
    rw [run_eq_group hthere, hgroup]
    simp

/-- A section at the end of the document. -/
theorem build_end (hss : ∀ st ∈ ss, st.key.head? ≠ some "logging") {defs : Entries}
    (hdefs : defs.keys.Nodup) :
    Option.Rel (Beside "logging" (.table .header defs)) (Toml.build ss)
      (Toml.build (ss ++ .header ["logging"] :: Toml.defines defs)) := by
  rw [Toml.build_eq_run, Toml.build_eq_run, Toml.run_append]
  cases hes : Toml.run [] ss [] with
  | none => exact .none
  | some es =>
    have hnew := Toml.notMem_keys_of_run hes hss
    show Option.Rel _ (some es) (Toml.run _ _ es)
    rw [Toml.run_header_defines, Entries.openTable_new hnew hdefs]
    exact .some (.concat "logging" _ es)

end

/-! ## Dotted keys -/

/-- A change of the one more key changes its value. -/
theorem Toml.alter_self_beside {k : String} {v w : Value} {es es' : Entries}
    (h : Beside k v es es') (hk : k ∉ es.keys) {change : Option Value → Option Value}
    (hchange : change (some v) = some w) :
    ∃ es'', es'.alter k change = some es'' ∧ Beside k w es es'' := by
  induction h with
  | here es =>
    refine ⟨(k, w) :: es, ?_, .here es⟩
    unfold Entries.alter
    rw [if_pos rfl, hchange]
    rfl
  | there e h ih =>
    simp only [Entries.keys, List.map_cons, List.mem_cons, not_or] at hk
    obtain ⟨es'', hes, hbeside⟩ := ih hk.2
    refine ⟨e :: es'', ?_, .there e hbeside⟩
    unfold Entries.alter
    rw [if_neg hk.1, hes]
    rfl

/-- The section so far: nothing, or a table that dotted keys have opened. -/
def SoFar (inner es es' : Entries) : Prop :=
  (inner = [] ∧ es' = es) ∨ Beside "logging" (.table .dotted inner) es es'

section
variable {inner es es' : Entries}

/-- A dotted key adds a field to the section so far. -/
theorem step_soFar (h : SoFar inner es es') (hes : "logging" ∉ es.keys) {k : String}
    (hk : k ∉ inner.keys) (v : Value) :
    ∃ es'', (Statement.define ["logging", k] v).step [] es' = some es'' ∧
      SoFar (inner ++ [(k, v)]) es es'' := by
  have hstep : (Statement.define ["logging", k] v).step [] es' =
      es'.alter "logging" (Entries.through .dotted fun found inner =>
        if found == .dotted then Entries.add k v inner else none) := by
    show Entries.assign (["logging"] ++ [k]) v .header es' = _
    rw [Entries.assign_concat, Entries.reach_cons]
    rfl
  rw [hstep]
  rcases h with ⟨rfl, rfl⟩ | h
  · refine ⟨es' ++ [("logging", .table .dotted [(k, v)])], ?_, .inr (.concat _ _ es')⟩
    rw [Entries.alter_new hes]
    rfl
  · have hadd : Entries.add k v inner = some (inner ++ [(k, v)]) := Entries.alter_new hk _
    have hchange : Entries.through .dotted (fun found inner =>
        if found == .dotted then Entries.add k v inner else none)
          (some (.table .dotted inner)) = some (.table .dotted (inner ++ [(k, v)])) := by
      simp [Entries.through, Entries.passes, hadd]
    obtain ⟨es'', hes'', hbeside⟩ := Toml.alter_self_beside h hes hchange
    exact ⟨es'', hes'', .inr hbeside⟩

/-- Other statements leave the section so far. -/
theorem run_soFar (h : SoFar inner es es') {under : List String} (hunder : under.head? ≠ some "logging")
    {ss : List Statement} (hss : ∀ st ∈ ss, st.key.head? ≠ some "logging") :
    Option.Rel (SoFar inner) (Toml.run under ss es) (Toml.run under ss es') := by
  rcases h with ⟨rfl, rfl⟩ | h
  · exact rel_refl (fun es => .inl ⟨rfl, rfl⟩) _
  · exact rel_imp (Toml.run_beside h hunder hss) fun _ _ h => .inr h

end

/-- Both documents are read; carried out one beside the other, they differ in the section. -/
theorem Woven.run {fields : List (String × String)} {base text : List Char}
    (h : Woven fields base text) :
    ∃ ss ss', statementsOf base = some ss ∧ statementsOf text = some ss' ∧
      (∀ st ∈ ss, st.key.head? ≠ some "logging") ∧
      ∀ inner es es', SoFar inner es es' → es.lookup "logging" = none →
        (inner.keys ++ fields.map Prod.fst).Nodup →
        Option.Rel (SoFar (inner ++ fieldEntries fields)) (Toml.run [] ss es)
          (Toml.run [] ss' es') := by
  induction h with
  | rest hback =>
    obtain ⟨ss, hss, havoids⟩ := hback
    refine ⟨ss, ss, hss, hss, havoids, fun inner es es' hsoFar _ _ => ?_⟩
    rw [fieldEntries, List.map_nil, List.append_nil]
    exact run_soFar hsoFar (by simp) havoids
  | @line k t s fields base text hs h ih =>
    obtain ⟨ss, ss', hbase, htext, havoids, ih⟩ := ih
    refine ⟨ss, .define ["logging", k] (.string t) :: ss', hbase, ?_, havoids,
      fun inner es es' hsoFar hes hnodup => ?_⟩
    · have hline := Toml.statementsOf_append (IsLines.append_newline s)
        (Toml.statementsOf_definition hs (by simp [Toml.maxParts])) text
      rw [List.append_assoc, List.singleton_append, htext] at hline
      exact hline
    · have hk : k ∉ inner.keys := by
        intro hmem
        exact (List.nodup_append.mp hnodup).2.2 k hmem k (by simp) rfl
      obtain ⟨es'', hstep, hsoFar⟩ := step_soFar hsoFar (Entries.notMem_keys hes) hk (.string t)
      have hrun := ih _ es es'' hsoFar hes (by simpa [Entries.keys] using hnodup)
      rw [List.append_assoc, List.singleton_append] at hrun
      show Option.Rel _ _ (Option.bind (Statement.step [] _ es') _)
      rw [hstep]
      exact hrun
  | @keep front base text fields hfront h ih =>
    obtain ⟨ss, ss', hbase, htext, havoids, ih⟩ := ih
    obtain ⟨hlines, ss₁, hfront, hdefines⟩ := hfront
    refine ⟨ss₁ ++ ss, ss₁ ++ ss', ?_, ?_, ?_, fun inner es es' hsoFar hes hnodup => ?_⟩
    · rw [Toml.statementsOf_append hlines hfront, hbase]
      rfl
    · rw [Toml.statementsOf_append hlines hfront, htext]
      rfl
    · exact List.forall_mem_append.mpr ⟨avoids_defines hdefines, havoids⟩
    · have hunder : List.head? [] ≠ some "logging" := by simp
      have hrun := run_soFar hsoFar hunder (avoids_defines hdefines)
      have hlookup : ∀ es₁, Toml.run [] ss₁ es = some es₁ → es₁.lookup "logging" = none := by
        intro es₁ h₁
        rw [Toml.run_lookup h₁ hunder (avoids_defines hdefines)]
        exact hes
      rw [Toml.run_append, Toml.run_append, lastUnder_defines hdefines]
      generalize Toml.run [] ss₁ es = r, Toml.run [] ss₁ es' = r' at hrun hlookup ⊢
      cases hrun with
      | none => exact .none
      | some h => exact ih inner _ _ h (hlookup _ rfl) hnodup

/-! ## All forms -/

theorem statementsOf_writtenOut {fields : List (String × String)} {lines : List (List Char)}
    (h : List.Forall₂ (fun f s => SpellsDefinition [f.1] f.2 s) fields lines) :
    statementsOf (writtenOut lines) = some (Toml.defines (fieldEntries fields)) := by
  induction h with
  | nil => rfl
  | @cons f s fields lines hf h ih =>
    have hline := Toml.statementsOf_append (IsLines.append_newline s)
      (Toml.statementsOf_definition hf (by simp [Toml.maxParts])) (writtenOut lines)
    rw [ih] at hline
    exact hline

/-- Both documents are read, and the table of one has the section beside the other keys. -/
theorem WithTrail.build {d : TrailDraft} {base text : List Char} (h : WithTrail d base text) :
    ∃ ss ss' v, statementsOf base = some ss ∧ statementsOf text = some ss' ∧
      (∀ st ∈ ss, st.key.head? ≠ some "logging") ∧ d.SaidBy v ∧
      Option.Rel (Beside "logging" v) (Toml.build ss) (Toml.build ss') := by
  have hbetween : ∀ {front back kt v : List Char} {x : Value}, IsTop front → Avoids back →
      SpellsKey ["logging"] kt → Toml.IsValue v x → d.SaidBy x →
      ∃ ss ss' v', statementsOf (front ++ back) = some ss ∧
        statementsOf (front ++ (Toml.defineLine kt v ++ back)) = some ss' ∧
        (∀ st ∈ ss, st.key.head? ≠ some "logging") ∧ d.SaidBy v' ∧
        Option.Rel (Beside "logging" v') (Toml.build ss) (Toml.build ss') := by
    intro front back kt v x hfront hback hkt hv hx
    obtain ⟨hlines, ss₁, hfront, hdefines⟩ := hfront
    obtain ⟨ss₂, hback, havoids⟩ := hback
    have hline := Toml.statementsOf_defineLine hkt (by simp [Toml.maxParts]) hv
    refine ⟨ss₁ ++ ss₂, ss₁ ++ .define ["logging"] x :: ss₂, x, ?_, ?_, ?_, hx,
      build_between hdefines havoids x⟩
    · rw [Toml.statementsOf_append hlines hfront, hback]
      rfl
    · rw [Toml.statementsOf_append hlines hfront,
        Toml.statementsOf_append (Toml.isLines_defineLine kt v) hline, hback]
      rfl
    · exact List.forall_mem_append.mpr ⟨avoids_defines hdefines, havoids⟩
  cases h with
  | @table _ kt fields lines hlines hbase hkt hfields h =>
    obtain ⟨ss, hbase, havoids⟩ := hbase
    have hkeys : (fieldEntries fields).keys.Nodup := by
      rw [keys_fieldEntries]
      exact TrailDraft.nodup_of_perm hfields
    have hheader := Toml.statementsOf_headerLine hkt (by simp [Toml.maxParts])
    refine ⟨ss, ss ++ .header ["logging"] :: Toml.defines (fieldEntries fields), _, hbase, ?_,
      havoids, TrailDraft.saidBy_table .header hfields, build_end havoids hkeys⟩
    rw [Toml.statementsOf_append hlines hbase,
      Toml.statementsOf_append (Toml.isLines_headerLine kt) hheader, statementsOf_writtenOut h]
    rfl
  | inline hfront hback hkt hfields h =>
    exact hbetween hfront hback hkt (Toml.isValue_inline h (TrailDraft.nodup_of_perm hfields))
      (TrailDraft.saidBy_table .inline hfields)
  | array hfront hback hkt hlists h =>
    exact hbetween hfront hback hkt (Toml.isValue_array h) (TrailDraft.saidBy_array hlists)
  | @dotted _ _ fields hne hfields h =>
    obtain ⟨ss, ss', hbase, htext, havoids, hrun⟩ := h.run
    refine ⟨ss, ss', _, hbase, htext, havoids, TrailDraft.saidBy_table .dotted hfields, ?_⟩
    have hnodup := TrailDraft.nodup_of_perm hfields
    have hrel := hrun [] [] [] (.inl ⟨rfl, rfl⟩) rfl (by simpa [Entries.keys] using hnodup)
    rw [Toml.build_eq_run, Toml.build_eq_run]
    refine rel_imp hrel fun es es' h => ?_
    rcases h with ⟨hnil, -⟩ | h
    · exact absurd (List.map_eq_nil_iff.mp hnil) hne
    · exact h

/-! ## Reading and loading -/

/-- The file says what it says without the section, and what the section says. -/
theorem SettingsFile.ofEntries_withTrail {d : TrailDraft} {v : Value} {es es' : Entries}
    (h : Beside "logging" v es es') (hes : es.lookup "logging" = none) (hv : d.SaidBy v) :
    ofEntries es' = (ofEntries es).map fun f => { f with trail := d.contents } := by
  have hlookup : ∀ k, k ≠ "logging" → es'.get? k = es.get? k := fun k hk => h.lookup hk
  have htrail : es'.get? "logging" = some v := h.lookup_self hes
  have habsent : es.get? "logging" = none := hes
  apply Option.ext
  intro f
  rw [Option.map_eq_some_iff, ofEntries_eq_some_iff, hlookup "version" (by decide),
    hlookup "namespace_prefix" (by decide), hlookup "header_sources" (by decide),
    hlookup "doc_sources" (by decide), htrail, hv.trail, h.all, hv.readable, Bool.true_and]
  constructor
  · rintro ⟨hversion, hstem, hheaders, hdocs, hcontents, hall⟩
    refine ⟨{ f with trail := ⟨Settings.defaultLevel, none, none⟩ },
      ofEntries_eq_some_iff.mpr ⟨hversion, hstem, hheaders, hdocs, ?_, hall⟩, ?_⟩
    · rw [habsent]
      rfl
    · rw [Option.some.inj hcontents]
  · rintro ⟨g, hg, rfl⟩
    obtain ⟨hversion, hstem, hheaders, hdocs, -, hall⟩ := ofEntries_eq_some_iff.mp hg
    exact ⟨hversion, hstem, hheaders, hdocs, rfl, hall⟩

theorem SettingsFile.read_withTrail {d : TrailDraft} {base text mark mark' : List Char}
    (h : WithTrail d base text) (hmark : mark = [] ∨ mark = ['\ufeff'])
    (hmark' : mark' = [] ∨ mark' = ['\ufeff']) :
    read (String.ofList (mark ++ text)) =
      (read (String.ofList (mark' ++ base))).map fun f => { f with trail := d.contents } := by
  obtain ⟨ss, ss', v, hbase, htext, havoids, hv, hbuild⟩ := h.build
  have hlookup : ∀ es, Toml.build ss = some es → es.lookup "logging" = none := by
    intro es hes
    rw [Toml.build_eq_run] at hes
    exact Toml.run_lookup hes (by simp) havoids
  unfold read Toml.Document.read
  rw [String.toList_ofList, String.toList_ofList, Toml.statements_mark_append hmark htext,
    Toml.statements_mark_append hmark' hbase, Option.bind_some, Option.bind_some]
  generalize Toml.build ss = es, Toml.build ss' = es' at hbuild hlookup ⊢
  cases hbuild with
  | none => rfl
  | some h => exact ofEntries_withTrail h (hlookup _ rfl) hv

/-- All forms of the section on the trail are loaded alike: two files that add the same section to one
document, each in some form and with or without a byte order mark, give the same settings or the same
error. -/
theorem Settings.load_withTrail_eq {d : TrailDraft} {base text text' mark mark' : List Char}
    (h : WithTrail d base text) (h' : WithTrail d base text')
    (hmark : mark = [] ∨ mark = ['\ufeff']) (hmark' : mark' = [] ∨ mark' = ['\ufeff'])
    {t t' : FileTree} {config : Option Path} {root : Path}
    (hread : t.read (config.getD (root.join ⟨fileName⟩)) = .ok (String.ofList (mark ++ text)))
    (hread' : t'.read (config.getD (root.join ⟨fileName⟩)) = .ok (String.ofList (mark' ++ text')))
    (env : Environment) : load t' env config root = load t env config root := by
  rw [load_of_read env hread', load_of_read env hread,
    SettingsFile.read_withTrail h' hmark' (.inl rfl), SettingsFile.read_withTrail h hmark (.inl rfl)]

/-! ## The four forms of one section -/

/-- A section with a quotation mark and a tab in it. -/
def sampleTrail : TrailDraft := ⟨some "in\"fo", some "", some "l\tog"⟩

def baseText : String := "version = 1\ndoc_sources = []\n"

def tableText : String :=
  "version = 1\ndoc_sources = []\n[logging]\nfile = \"l\\tog\"\nlevel = 'in\"fo'\n'file_level' = \"\"\n"

def inlineText : String :=
  "version = 1\nlogging = \x7b'file_level' = \"\", level = 'in\"fo', file = \"l\\tog\"\x7d\n" ++
    "doc_sources = []\n"

def dottedText : String :=
  "logging.level = 'in\"fo'\nversion = 1\nlogging.file = \"l\\tog\"\nlogging .'file_level' = \"\"\n" ++
    "doc_sources = []\n"

def arrayText : String :=
  "version = 1\nlogging = ['in\"fo', \"\",\n\"l\\tog\",]\ndoc_sources = []\n"

/-- Each of the four texts has the section in another form. -/
theorem withTrail_samples :
    WithTrail sampleTrail baseText.toList tableText.toList ∧
    WithTrail sampleTrail baseText.toList inlineText.toList ∧
    WithTrail sampleTrail baseText.toList dottedText.toList ∧
    WithTrail sampleTrail baseText.toList arrayText.toList := by
  have hempty : List.Forall₂ Toml.SpellsChar "".toList [] := .nil
  have htab : List.Forall₂ Toml.SpellsChar "l\tog".toList [['l'], ['\\', 't'], ['o'], ['g']] :=
    .cons (.itself (by decide) (by decide) (by decide)) (.cons (.escape (.letter (by decide)))
      (.cons (.itself (by decide) (by decide) (by decide))
        (.cons (.itself (by decide) (by decide) (by decide)) .nil)))
  have hlevel : WritesString "'in\"fo'".toList "in\"fo" := .line (.literal (by simp [Toml.isTextChar]))
  have hfileLevel : WritesString ['"', '"'] "" := .line (.basic hempty)
  have hfile : WritesString ['"', 'l', '\\', 't', 'o', 'g', '"'] "l\tog" := .line (.basic htab)
  have hlogging : Toml.SpellsPart "logging" "logging".toList := .bare (by decide)
  have hblank : Toml.IsBlanks [' '] := by simp [Toml.IsBlanks, Toml.isBlank]
  have hlevelKey : SpellsKey ["level"] "level".toList := .one (.bare (by decide))
  have hfileLevelKey : SpellsKey ["file_level"] "'file_level'".toList :=
    .one (.quoted (.literal (by simp [Toml.isTextChar])))
  have hfileKey : SpellsKey ["file"] "file".toList := .one (.bare (by decide))
  have hgap : Toml.IsGap [' '] := .blank (by simp [Toml.isBlank]) .nil
  have hfield : ∀ {k t kt v}, SpellsKey [k] kt → WritesString v t →
      WritesField (kt ++ ([' '] ++ '=' :: ([' '] ++ v))) (k, t) :=
    fun hk ht => .intro hk (by simp [Toml.maxParts]) hgap hgap ht
  have hversion : IsTop "version = 1\n".toList :=
    ⟨by decide, [.define ["version"] (.integer 1)], rfl, by simp⟩
  have hdocs : Avoids "doc_sources = []\n".toList :=
    ⟨[.define ["doc_sources"] (.array [])], rfl, by simp [Statement.key]⟩
  have hbase : Avoids baseText.toList :=
    ⟨[.define ["version"] (.integer 1), .define ["doc_sources"] (.array [])], rfl,
      by simp [Statement.key]⟩
  have hsplit : baseText.toList = "version = 1\n".toList ++ "doc_sources = []\n".toList := by
    decide +kernel
  refine ⟨?_, ?_, ?_, ?_⟩
  · have hperm : List.Perm [("file", "l\tog"), ("level", "in\"fo"), ("file_level", "")]
      sampleTrail.fields := by decide
    have h := WithTrail.table (by decide) hbase (.one hlogging) hperm
      (.cons (.intro hfileKey hfile) (.cons (.intro hlevelKey hlevel)
        (.cons (.intro hfileLevelKey hfileLevel) .nil)))
    refine (congrArg (WithTrail sampleTrail baseText.toList) ?_).mp h
    decide +kernel
  · have hperm : List.Perm [("file_level", ""), ("level", "in\"fo"), ("file", "l\tog")]
      sampleTrail.fields := by decide
    have h := WithTrail.inline hversion hdocs (.one hlogging) hperm
      (.cons .nil (hfield hfileLevelKey hfileLevel) .nil (.cons hgap (hfield hlevelKey hlevel) .nil
        (.last hgap (hfield hfileKey hfile) .nil)))
    rw [hsplit]
    refine (congrArg (WithTrail sampleTrail _) ?_).mp h
    decide +kernel
  · have hperm : List.Perm [("level", "in\"fo"), ("file", "l\tog"), ("file_level", "")]
      sampleTrail.fields := by decide
    have h := WithTrail.dotted (by simp) hperm
      (.line (.intro (.dotted hlogging .nil .nil hlevelKey) hlevel)
        (.keep hversion (.line (.intro (.dotted hlogging .nil .nil hfileKey) hfile)
          (.line (.intro (.dotted hlogging hblank .nil hfileLevelKey) hfileLevel) (.rest hdocs)))))
    rw [hsplit]
    refine (congrArg (WithTrail sampleTrail _) ?_).mp h
    decide +kernel
  · have h := WithTrail.array hversion hdocs (.one hlogging) (.three "in\"fo" "" "l\tog")
      (.cons .nil hlevel .nil (.cons hgap hfileLevel .nil (.cons (.newline (.inl rfl) .nil) hfile .nil
        (.none .nil))))
    rw [hsplit]
    refine (congrArg (WithTrail sampleTrail _) ?_).mp h
    decide +kernel

/-- The four files are loaded alike. -/
theorem Settings.load_samples :
    load (treeOf inlineText) [] none ⟨"p"⟩ = load (treeOf tableText) [] none ⟨"p"⟩ ∧
    load (treeOf dottedText) [] none ⟨"p"⟩ = load (treeOf tableText) [] none ⟨"p"⟩ ∧
    load (treeOf arrayText) [] none ⟨"p"⟩ = load (treeOf tableText) [] none ⟨"p"⟩ ∧
    load (treeOf tableText) [] none ⟨"p"⟩ = .ok { builtIn ⟨"p"⟩ with
      source := some ⟨"p/helper-docs.toml"⟩
      docs := []
      trail := ⟨"in\"fo", some "", some ⟨"p/l\tog"⟩⟩ } := by
  obtain ⟨htable, hinline, hdotted, harray⟩ := withTrail_samples
  have hroot : (none : Option Path).getD ((⟨"p"⟩ : Path).join ⟨fileName⟩) = ⟨"p/helper-docs.toml"⟩ := by
    decide
  have hread : ∀ text : String, (treeOf text).read
      ((none : Option Path).getD ((⟨"p"⟩ : Path).join ⟨fileName⟩)) =
        .ok (String.ofList ([] ++ text.toList)) := by
    intro text
    rw [hroot, read_treeOf, List.nil_append, String.ofList_toList]
  exact ⟨load_withTrail_eq htable hinline (.inl rfl) (.inl rfl) (hread _) (hread _) [],
    load_withTrail_eq htable hdotted (.inl rfl) (.inl rfl) (hread _) (hread _) [],
    load_withTrail_eq htable harray (.inl rfl) (.inl rfl) (hread _) (hread _) [], by decide +kernel⟩

end DocCoverage
