import DocCoverage.Proofs.Settings.Resolution
import DocCoverage.Proofs.Settings.Shape
import DocCoverage.Proofs.Toml.Grammar
import DocCoverage.Proofs.Toml.Taken

/-!
# Settings that are defined twice

No setting is overridden: a file that defines one of its settings twice is malformed, wherever the two
definitions stand and however they are written.  Two definitions of one setting are two statements whose
paths start with the path of the setting, two definitions of one key between the braces of the section on
the trail, or two ways to open this section that exclude each other.

    IsOpen p es, p a setting  →  ofEntries es = none                              (ofEntries_of_isOpen)
    two statements clash      →  build ss = none, or ofEntries of it                 (refused_of_clash)
    DefinesTwice text         →  read text = none                                  (read_definesTwice)
    load                      =  the file is malformed                             (load_definesTwice)
-/

namespace DocCoverage

open Toml (Entries Value Statement Origin IsLines IsOpen IsClosed MovesAll SpellsKey statementsOf
  placed)

/-! ## Settings -/

namespace SettingsFile

/-- The settings that hold a value, by their paths. -/
def settings : List (List String) :=
  [["version"], ["namespace_prefix"], ["header_sources"], ["doc_sources"], ["logging", "level"],
    ["logging", "file_level"], ["logging", "file"]]

variable {es : Entries} {k : String} {p : List String}

theorem exists_of_isOpen (h : IsOpen [k] es) : ∃ v, es.lookup k = some v ∧ v.isOpen = true := by
  cases h with
  | here h hv => exact ⟨_, h, hv⟩
  | tables h => exact ⟨_, h, rfl⟩
  | inside _ _ hinner => cases hinner

/-- An open value is no string. -/
theorem not_text_of_isOpen (h : IsOpen [k] es) (t : Option String) : es.get? k ≠ t.map .string := by
  obtain ⟨v, hlookup, hv⟩ := exists_of_isOpen h
  intro ht
  have hget : es.get? k = some v := hlookup
  rw [hget] at ht
  cases t with
  | none => cases ht
  | some t =>
    obtain rfl := Option.some.inj ht
    cases hv

/-- The section on the trail has strings only. -/
theorem trail?_of_isOpen {origin : Origin} (hk : ["logging", k] ∈ settings) (h : IsOpen [k] es) :
    trail? (some (.table origin es)) = none := by
  rw [Option.eq_none_iff_forall_ne_some]
  intro trail htrail
  rw [trail?_eq_some_iff] at htrail
  cases htrail with
  | table _ hlevel hfileLevel hfile =>
    simp only [settings, List.mem_cons, List.cons.injEq, reduceCtorEq, and_false, and_true, true_and,
      List.not_mem_nil, or_false, false_or] at hk
    rcases hk with rfl | rfl | rfl
    · exact not_text_of_isOpen h _ hlevel
    · exact not_text_of_isOpen h _ hfileLevel
    · exact not_text_of_isOpen h _ hfile

/-- No setting may be open. -/
theorem ofEntries_of_isOpen (hp : p ∈ settings) (h : IsOpen p es) : ofEntries es = none := by
  rw [Option.eq_none_iff_forall_ne_some]
  intro f hf
  obtain ⟨hversion, hstem, hheaders, hdocs, htrail, -⟩ := ofEntries_eq_some_iff.mp hf
  have htexts : ∀ {k ts}, texts? (es.get? k) = some ts → ¬ IsOpen [k] es := by
    intro k ts hts h
    obtain ⟨v, hlookup, hv⟩ := exists_of_isOpen h
    have hget : es.get? k = some v := hlookup
    rw [texts?_eq_some_iff, hget] at hts
    cases ts with
    | none => cases hts
    | some ts =>
      obtain rfl := Option.some.inj hts
      cases hv
  have hinside : ∀ {k}, ["logging", k] ∈ settings → ¬ IsOpen ["logging", k] es := by
    intro k hk h
    cases h with
    | @tables _ _ _ last earlier h =>
      have hget : es.get? "logging" = some (.tables earlier last) := h
      rw [hget] at htrail
      cases htrail
    | @inside _ _ _ inner origin h _ hinner =>
      have hget : es.get? "logging" = some (.table origin inner) := h
      rw [hget, trail?_of_isOpen hk hinner] at htrail
      cases htrail
  have hp' := hp
  simp only [settings, List.mem_cons, List.not_mem_nil, or_false] at hp'
  rcases hp' with rfl | rfl | rfl | rfl | rfl | rfl | rfl
  · obtain ⟨v, hlookup, hv⟩ := exists_of_isOpen h
    have hget : es.get? "version" = some v := hlookup
    rw [version?_eq_some_iff, hget] at hversion
    obtain rfl := Option.some.inj hversion
    cases hv
  · exact not_text_of_isOpen h _ (text?_eq_some_iff.mp hstem)
  · exact htexts hheaders h
  · exact htexts hdocs h
  · exact hinside hp h
  · exact hinside hp h
  · exact hinside hp h

end SettingsFile

/-! ## Two definitions of one setting -/

/-- Two statements, with the headers that they stand under, define the same setting, the first one in
front of the other.  The section on the trail is a setting too: its key may have a value, or a header,
or dotted keys may open it at the top of the document. -/
inductive Clash : List String × Statement → List String × Statement → Prop
  | setting {p : List String} {a b : List String × Statement} (hp : p ∈ SettingsFile.settings)
      (ha : p <+: a.2.path a.1) (hb : p <+: b.2.path b.1) : Clash a b
  | valueFirst {v : Value} {b : List String × Statement} (hb : ["logging"] <+: b.2.path b.1) :
      Clash ([], .define ["logging"] v) b
  | valueLast {v : Value} {a : List String × Statement} (ha : ["logging"] <+: a.2.path a.1) :
      Clash a ([], .define ["logging"] v)
  | headers {under under' : List String} :
      Clash (under, .header ["logging"]) (under', .header ["logging"])
  | dotted {k : String} {ks : List String} {v : Value} {under : List String} :
      Clash ([], .define ("logging" :: k :: ks) v) (under, .header ["logging"])
  | elementFirst {under : List String} {b : List String × Statement}
      (hb : ["logging"] <+: b.2.path b.1) : Clash (under, .element ["logging"]) b
  | elementLast {under : List String} {a : List String × Statement}
      (ha : ["logging"] <+: a.2.path a.1) : Clash a (under, .element ["logging"])

/-! ## Tables at the top -/

section
variable {k : String} {es es' : Entries} {v : Value}

/-- Before any header only dotted keys have opened tables. -/
def OnlyDotted (k : String) (es : Entries) : Prop :=
  ∀ v, es.lookup k = some v → v.isOpen = true → ∃ inner, v = .table .dotted inner

/-- A dotted key passes through the table of its first part. -/
theorem exists_through (k k' : String) (ks : List String) (v : Value) :
    ∃ go, ∀ es : Entries, (Statement.define (k :: k' :: ks) v).step [] es =
      es.alter k (Entries.through .dotted go) := by
  rcases List.eq_nil_or_concat' (k' :: ks) with h | ⟨front, last, h⟩
  · cases h
  · refine ⟨Entries.reach .dotted (fun found inner =>
      if (k :: front).isEmpty || found == .dotted then Entries.add last v inner else none) front,
      fun es => ?_⟩
    show Entries.assign (k :: k' :: ks) v .header es = _
    rw [h, ← List.cons_append, Entries.assign_concat, Entries.reach_cons]

/-- What a dotted key passes through has been opened by one, if no header has been there. -/
theorem through_dotted {go : Origin → Entries → Option Entries} {old : Option Value} {w : Value}
    (h : Entries.through .dotted go old = some w)
    (hold : ∀ v, old = some v → v.isOpen = true → ∃ inner, v = .table .dotted inner) :
    ∃ inner, w = .table .dotted inner := by
  unfold Entries.through at h
  split at h
  · obtain ⟨inner, -, rfl⟩ := Option.map_eq_some_iff.mp h
    exact ⟨inner, rfl⟩
  · next origin inner =>
    split at h
    · next hpasses =>
      obtain ⟨inner', -, rfl⟩ := Option.map_eq_some_iff.mp h
      obtain ⟨_, he⟩ := hold _ rfl (Toml.isOpen_table (Entries.ne_inline_of_passes hpasses) inner)
      obtain ⟨rfl, -⟩ := Value.table.inj he
      exact ⟨inner', rfl⟩
    · cases h
  · obtain ⟨_, he⟩ := hold _ rfl rfl
    cases he
  · cases h

/-- A key of one part is there afterwards, and was not there before. -/
theorem define_step (hstep : (Statement.define [k] v).step [] es = some es') :
    es.lookup k = none ∧ es'.lookup k = some v := by
  have hadd : es.add k v = some es' := hstep
  obtain ⟨-, w, hw, hnew⟩ := Entries.of_alter_eq_some hadd
  cases hold : es.lookup k with
  | none =>
    rw [hold] at hnew
    exact ⟨rfl, hw.trans hnew.symm⟩
  | some old =>
    rw [hold] at hnew
    cases hnew

theorem OnlyDotted.dotted_step {k' : String} {ks : List String} (h : OnlyDotted k es)
    (hstep : (Statement.define (k :: k' :: ks) v).step [] es = some es') :
    ∃ inner, es'.lookup k = some (.table .dotted inner) := by
  obtain ⟨go, hgo⟩ := exists_through k k' ks v
  rw [hgo] at hstep
  obtain ⟨-, w, hw, hthrough⟩ := Entries.of_alter_eq_some hstep
  obtain ⟨inner, rfl⟩ := through_dotted hthrough h
  exact ⟨inner, hw⟩

theorem OnlyDotted.step {ks : List String} (h : OnlyDotted k es) (hv : v.isOpen = false)
    (hstep : (Statement.define ks v).step [] es = some es') : OnlyDotted k es' := by
  intro w hw hopen
  by_cases hhead : ks.head? = some k
  · obtain ⟨ks, rfl⟩ := List.head?_eq_some_iff.mp hhead
    cases ks with
    | nil =>
      obtain rfl := Option.some.inj ((define_step hstep).2.symm.trans hw)
      rw [hv] at hopen
      cases hopen
    | cons k' ks =>
      obtain ⟨inner, hinner⟩ := h.dotted_step hstep
      exact ⟨inner, Option.some.inj (hw.symm.trans hinner)⟩
  · rw [(Statement.step_moves hstep).lookup hhead] at hw
    exact h w hw hopen

theorem OnlyDotted.run {ss : List Statement} (h : OnlyDotted k es)
    (hss : ∀ st ∈ ss, ∃ ks v, st = .define ks v ∧ v.isOpen = false)
    (hrun : Toml.run [] ss es = some es') : OnlyDotted k es' := by
  induction ss generalizing es with
  | nil =>
    obtain rfl := Option.some.inj hrun
    exact h
  | cons st ss ih =>
    obtain ⟨hst, hrest⟩ := List.forall_mem_cons.mp hss
    obtain ⟨ks, v, rfl, hv⟩ := hst
    obtain ⟨es₁, hstep, hrun⟩ := Option.bind_eq_some_iff.mp hrun
    exact ih (h.step hv hstep) hrest hrun

/-- Behind a header nothing stands at the top. -/
theorem defines_of_lastUnder {under : List String} {ss : List Statement}
    (hrun : Toml.run under ss es = some es') (hlast : Toml.lastUnder under ss = []) :
    under = [] ∧ ∀ st ∈ ss, ∃ ks v, st = .define ks v := by
  induction ss generalizing under es with
  | nil => exact ⟨hlast, nofun⟩
  | cons st ss ih =>
    obtain ⟨es₁, hstep, hrest⟩ := Option.bind_eq_some_iff.mp hrun
    obtain ⟨hopens, hss⟩ := ih hrest hlast
    cases st with
    | define ks v => exact ⟨hopens, List.forall_mem_cons.mpr ⟨⟨ks, v, rfl⟩, hss⟩⟩
    | header ks =>
      obtain rfl : ks = [] := hopens
      cases hstep
    | element ks =>
      obtain rfl : ks = [] := hopens
      cases hstep

/-- A header is refused where a dotted key or another header has opened the table. -/
theorem header_step {under : List String}
    (hstep : (Statement.header [k]).step under es = some es') :
    (∀ origin inner, es.lookup k = some (.table origin inner) → origin = .implied) ∧
    ∃ inner, es'.lookup k = some (.table .header inner) := by
  have hopen : es.openTable ([] ++ [k]) [] = some es' := hstep
  rw [Entries.openTable_concat] at hopen
  obtain ⟨-, w, hw, hheaded⟩ := Entries.of_alter_eq_some hopen
  rw [hw]
  generalize es.lookup k = old at hheaded ⊢
  unfold Entries.headed at hheaded
  split at hheaded
  · obtain ⟨inner, -, rfl⟩ := Option.map_eq_some_iff.mp hheaded
    exact ⟨nofun, inner, rfl⟩
  · obtain ⟨inner, -, rfl⟩ := Option.map_eq_some_iff.mp hheaded
    refine ⟨fun origin inner he => ?_, inner, rfl⟩
    exact (Value.table.inj (Option.some.inj he)).1.symm
  · cases hheaded

/-- An element of an array of tables leaves such an array. -/
theorem element_step {under : List String}
    (hstep : (Statement.element [k]).step under es = some es') :
    ∃ earlier last, es'.lookup k = some (.tables earlier last) := by
  have hopen : es.openElement ([] ++ [k]) [] = some es' := hstep
  rw [Entries.openElement_concat] at hopen
  obtain ⟨-, w, hw, hextended⟩ := Entries.of_alter_eq_some hopen
  rw [hw]
  unfold Entries.extended at hextended
  split at hextended
  · obtain ⟨last, -, rfl⟩ := Option.map_eq_some_iff.mp hextended
    exact ⟨_, _, rfl⟩
  · obtain ⟨last, -, rfl⟩ := Option.map_eq_some_iff.mp hextended
    exact ⟨_, _, rfl⟩
  · cases hextended

end

/-! ## Documents -/

/-- Where two statements define one setting, no settings are read. -/
theorem refused_of_clash {ss : List Statement} {a b : List String × Statement}
    (hvalues : ∀ ks v, .define ks v ∈ ss → v.isOpen = false)
    (hab : [a, b].Sublist (placed [] ss)) (hclash : Clash a b) :
    (Toml.build ss).bind SettingsFile.ofEntries = none := by
  rw [Toml.build_eq_run]
  cases hrun : Toml.run [] ss [] with
  | none => rfl
  | some es =>
    show SettingsFile.ofEntries es = none
    obtain ⟨before, rest, es₁, es₂, es₃, es₄, qs, qs', rfl, hunder, hbefore, ha, hbetween, hb,
      hbehind⟩ := Toml.exists_of_placed hab hrun
    -- an array of tables is no section, and stays one
    have htables : IsOpen ["logging", "level"] es₄ → SettingsFile.ofEntries es = none := fun h =>
      SettingsFile.ofEntries_of_isOpen (by simp [SettingsFile.settings]) (h.movesAll hbehind)
    cases hclash with
    | setting hp hpa hpb =>
      have hpaths : [a.2.path a.1, b.2.path b.1].Sublist (Toml.paths [] (before ++ a.2 :: rest)) :=
        hab.map fun c : List String × Statement => c.2.path c.1
      refine SettingsFile.ofEntries_of_isOpen hp ?_
      refine Toml.isOpen_of_twice ?_ (Toml.run_movesAll hrun) hpaths hpa hpb
      rintro rfl
      simp [SettingsFile.settings] at hp
    | @valueFirst v b hpb =>
      have hclosed : IsClosed ["logging"] es₂ :=
        .here (define_step ha).2 (hvalues ["logging"] v (by simp))
      exact absurd hpb ((hclosed.movesAll hbetween).1.moves (Statement.step_moves hb)).2
    | valueLast hpa =>
      obtain ⟨q, hq⟩ := hpa
      have hmoves := Statement.step_moves ha
      rw [← hq] at hmoves
      obtain ⟨-, w, hw, -⟩ := hmoves
      have hthere : es₂.lookup "logging" ≠ none := by simp [hw]
      exact absurd (define_step hb).1 (hbetween.lookup_ne_none hthere)
    | headers =>
      obtain ⟨inner, hinner⟩ := (header_step ha).2
      obtain ⟨inner, hinner⟩ := hbetween.lookup_table (by decide) hinner
      cases (header_step hb).1 _ _ hinner
    | dotted =>
      have hdefines := (defines_of_lastUnder hbefore hunder.symm).2
      have honly : OnlyDotted "logging" es₁ := by
        have hempty : OnlyDotted "logging" [] := nofun
        refine hempty.run (fun st hst => ?_) hbefore
        obtain ⟨ks, v, rfl⟩ := hdefines st hst
        exact ⟨ks, v, rfl, hvalues ks v (by simp [hst])⟩
      obtain ⟨inner, hinner⟩ := honly.dotted_step ha
      obtain ⟨inner, hinner⟩ := hbetween.lookup_table (by decide) hinner
      cases (header_step hb).1 _ _ hinner
    | elementFirst =>
      obtain ⟨earlier, last, h⟩ := element_step ha
      have hopen : IsOpen ["logging", "level"] es₂ := .tables h
      exact htables ((hopen.movesAll hbetween).moves (Statement.step_moves hb))
    | elementLast =>
      obtain ⟨earlier, last, h⟩ := element_step hb
      exact htables (.tables h)

/-- An inline table that defines one of its keys twice is not read. -/
theorem refused_of_braces {before ss : List Statement} {k : String} {es : Entries}
    {defs : List (List String × Value)} {d d' : List String × Value}
    (htop : Toml.lastUnder [] before = []) (hassign : Entries.assignAll defs .inline [] = some es)
    (hk : ["logging", k] ∈ SettingsFile.settings) (hdd : [d, d'].Sublist defs)
    (hd : [k] <+: d.1) (hd' : [k] <+: d'.1) :
    (Toml.build (before ++ .define ["logging"] (.table .inline es) :: ss)).bind
      SettingsFile.ofEntries = none := by
  rw [Option.eq_none_iff_forall_ne_some]
  intro f hf
  obtain ⟨all, hbuild, hall⟩ := Option.bind_eq_some_iff.mp hf
  rw [Toml.build_eq_run, Toml.run_append, htop] at hbuild
  obtain ⟨es₁, -, hrest⟩ := Option.bind_eq_some_iff.mp hbuild
  obtain ⟨es₂, hstep, hbehind⟩ := Option.bind_eq_some_iff.mp hrest
  have hinline := (Toml.run_movesAll hbehind).lookup_closed (define_step hstep).2 rfl
  have hopen : IsOpen [k] es := Toml.isOpen_of_twice (by simp) (Entries.assignAll_movesAll hassign)
    (hdd.map Prod.fst) hd hd'
  have htrail := (SettingsFile.ofEntries_eq_some_iff.mp hall).2.2.2.2.1
  have hget : all.get? "logging" = some (.table .inline es) := hinline
  rw [hget, SettingsFile.trail?_of_isOpen hk hopen] at htrail
  cases htrail

/-- A document that defines one of its settings twice: in two of its statements, or between the braces
of an inline table at the key of the section on the trail.  A statement stands where it stands in this
document: a header takes with it all definitions behind it, up to the next header. -/
inductive DefinesTwice (s : List Char) : Prop
  | statements {ss : List Statement} {a b : List String × Statement} (h : statementsOf s = some ss)
      (hab : [a, b].Sublist (placed [] ss)) (hclash : Clash a b)
  | braces {front line after inner behind : List Char} {ss : List Statement} {k : String}
      {defs : List (List String × Value)} {d d' : List String × Value}
      (hs : s = front ++ line) (hlines : IsLines front) (hfront : statementsOf front = some ss)
      (htop : Toml.lastUnder [] ss = [])
      (hkey : Toml.closedKey ['='] line = some (["logging"], after))
      (hopen : Toml.skipBlanks after = '{' :: inner)
      (hdefs : Toml.separated (Toml.inlinePair (Toml.valueUpTo (Toml.maxDepth - 1))) '}'
        inner.length [] inner = some (defs, behind))
      (hk : ["logging", k] ∈ SettingsFile.settings) (hdd : [d, d'].Sublist defs)
      (hd : [k] <+: d.1) (hd' : [k] <+: d'.1)

/-- No settings are read from a document that defines one twice. -/
theorem refused_of_definesTwice {s : List Char} (h : DefinesTwice s) :
    ((statementsOf s).bind Toml.build).bind SettingsFile.ofEntries = none := by
  cases h with
  | statements h hab hclash =>
    rw [h]
    exact refused_of_clash (Toml.isOpen_of_statementsOf h) hab hclash
  | @braces front line after inner behind before k defs d d' hs hlines hfront htop hkey hopen hdefs hk
      hdd hd hd' =>
    subst hs
    rw [Toml.statementsOf_append hlines hfront]
    cases hline : statementsOf line with
    | none => rfl
    | some ss =>
      obtain ⟨v, left, rest, ss, hvalue, -, -, rfl⟩ := Toml.statementsOf_of_closedKey hkey hline
      rw [hopen] at hvalue
      have hinline : (Entries.assignAll defs .inline []).map
          (fun es => (Value.table .inline es, behind)) = some (v, left) := by
        rw [← hvalue]
        show _ = Toml.valueUpTo (79 + 1) ('{' :: inner)
        unfold Toml.valueUpTo
        simp only
        rw [show Toml.separated (Toml.inlinePair (Toml.valueUpTo 79)) '}' inner.length [] inner =
          some (defs, behind) from hdefs]
      obtain ⟨es, hassign, he⟩ := Option.map_eq_some_iff.mp hinline
      obtain ⟨rfl, -⟩ := Prod.mk.inj he
      exact refused_of_braces htop hassign hk hdd hd hd'

theorem SettingsFile.read_definesTwice {text : String}
    (h : DefinesTwice (Toml.skipMark text.toList)) : read text = none := by
  unfold read Toml.Document.read
  rw [Toml.statements_eq]
  exact refused_of_definesTwice h

/-- A line between two parts of a document clashes with a statement in front of it, or with one behind
it at the place where the line leaves it. -/
theorem definesTwice_insert {front line back : List Char} {ss ss' : List Statement} {st : Statement}
    (hfront : IsLines front) (hline : IsLines line) (hss : statementsOf front = some ss)
    (hst : statementsOf line = some [st]) (hss' : statementsOf back = some ss')
    (hclash : (∃ a ∈ placed [] ss, Clash a (Toml.lastUnder [] ss, st)) ∨
      ∃ b ∈ placed (st.opens (Toml.lastUnder [] ss)) ss', Clash (Toml.lastUnder [] ss, st) b) :
    DefinesTwice (front ++ (line ++ back)) := by
  have hstatements : statementsOf (front ++ (line ++ back)) = some (ss ++ (st :: ss')) := by
    rw [Toml.statementsOf_append hfront hss, Toml.statementsOf_append hline hst, hss']
    rfl
  have hplaced : placed [] (ss ++ (st :: ss')) = placed [] ss ++
      (Toml.lastUnder [] ss, st) :: placed (st.opens (Toml.lastUnder [] ss)) ss' :=
    Toml.placed_append [] ss (st :: ss')
  rcases hclash with ⟨a, ha, hclash⟩ | ⟨b, hb, hclash⟩
  · refine .statements hstatements ?_ hclash
    rw [hplaced]
    exact (List.singleton_sublist.mpr ha).append (List.singleton_sublist.mpr List.mem_cons_self)
  · refine .statements hstatements ?_ hclash
    rw [hplaced]
    exact ((List.singleton_sublist.mpr hb).cons_cons _).trans (List.sublist_append_right _ _)

/-- A document that defines a setting defines it twice with one more definition of it, wherever this
one stands, however its key is spelled and whatever its value is. -/
theorem definesTwice_define {front back kt v : List Char} {ss ss' : List Statement} {ks p : List String}
    {x : Value} (hfront : IsLines front) (hss : statementsOf front = some ss)
    (hss' : statementsOf back = some ss') (hp : p ∈ SettingsFile.settings)
    (hdefined : ∃ c ∈ placed [] (ss ++ ss'), p <+: c.2.path c.1) (hkt : SpellsKey ks kt)
    (hparts : ks.length ≤ Toml.maxParts) (hv : Toml.Writes Toml.maxDepth v x)
    (hks : p <+: Toml.lastUnder [] ss ++ ks) :
    DefinesTwice (front ++ (Toml.defineLine kt v ++ back)) := by
  have hline := Toml.statementsOf_defineLine hkt hparts (Toml.isValue_writes hv)
  obtain ⟨c, hc, hpath⟩ := hdefined
  rw [Toml.placed_append, List.mem_append] at hc
  refine definesTwice_insert hfront (Toml.isLines_defineLine kt v) hss hline hss' ?_
  -- a definition leaves everything behind it at its place
  rcases hc with hc | hc
  · exact .inl ⟨c, hc, .setting hp hpath hks⟩
  · exact .inr ⟨c, hc, .setting hp hks hpath⟩

namespace Settings

variable {t : FileTree} {config : Option Path} {root : Path}

/-- No setting is overridden: a file that defines one of its settings twice is malformed, whatever the
two values are. -/
theorem load_definesTwice {text : String} (h : DefinesTwice (Toml.skipMark text.toList))
    (hread : t.read (config.getD (root.join ⟨fileName⟩)) = .ok text) (env : Environment) :
    load t env config root = .error (.malformed (config.getD (root.join ⟨fileName⟩))) := by
  rw [load_of_read env hread, SettingsFile.read_definesTwice h]

/-- The start of a document, with a dotted key into the section on the trail. -/
def dottedStart : String := "version = 1\nlogging.level = 'debug'\n"

/-- The header of the same section, its key in quotes and with an escape. -/
def escapedHeader : String := "[\"logg\\x69ng\"]\n"

/-- An inline table with one key in two spellings. -/
def doubledText : String := "version = 1\nlogging = \x7b level = 'debug', 'level' = 'info' \x7d\n"

/-- A key that is there already is refused in another spelling, the header behind the dotted key, and
the inline table. -/
theorem load_escapedHeader :
    load (treeOf (dottedStart ++ "'version' = true\n")) [] none ⟨"p"⟩ =
      .error (.malformed ⟨"p/helper-docs.toml"⟩) ∧
    load (treeOf (dottedStart ++ escapedHeader ++ "file = 'x'\n")) [] none ⟨"p"⟩ =
      .error (.malformed ⟨"p/helper-docs.toml"⟩) ∧
    load (treeOf doubledText) [] none ⟨"p"⟩ = .error (.malformed ⟨"p/helper-docs.toml"⟩) := by
  have hroot : (none : Option Path).getD ((⟨"p"⟩ : Path).join ⟨fileName⟩) = ⟨"p/helper-docs.toml"⟩ := by
    decide
  have hstart : statementsOf dottedStart.toList = some
      [.define ["version"] (.integer 1), .define ["logging", "level"] (.string "debug")] := rfl
  have hdefine : DefinesTwice (Toml.skipMark (dottedStart ++ "'version' = true\n").toList) := by
    have hkt : SpellsKey ["version"] "'version'".toList :=
      .one (.quoted (.literal (by simp [Toml.isTextChar])))
    have hv : Toml.Writes Toml.maxDepth "true".toList (.boolean true) :=
      .simple (.plain (by simp [Toml.isPlainChar, Toml.isBlank]) (by simp) rfl)
    exact definesTwice_define (p := ["version"]) (by decide) hstart Toml.statementsOf_nil (by decide)
      ⟨_, List.mem_cons_self, List.prefix_rfl⟩ hkt (by decide) hv List.prefix_rfl
  have hheader : DefinesTwice
      (Toml.skipMark (dottedStart ++ escapedHeader ++ "file = 'x'\n").toList) := by
    have hline : statementsOf escapedHeader.toList = some [.header ["logging"]] := rfl
    have hback : statementsOf "file = 'x'\n".toList = some [.define ["file"] (.string "x")] := rfl
    exact definesTwice_insert (by decide) (by decide) hstart hline hback
      (.inl ⟨_, List.mem_cons_of_mem _ List.mem_cons_self, .dotted⟩)
  have hbraces : DefinesTwice (Toml.skipMark doubledText.toList) := by
    have hfront : statementsOf "version = 1\n".toList =
      some [.define ["version"] (.integer 1)] := rfl
    have hkey : Toml.closedKey ['='] "logging = \x7b level = 'debug', 'level' = 'info' \x7d\n".toList =
      some (["logging"], " \x7b level = 'debug', 'level' = 'info' \x7d\n".toList) := rfl
    exact .braces rfl (by decide) hfront rfl hkey rfl rfl (k := "level") (by decide)
      (List.Sublist.refl _) (by decide) (by decide)
  exact ⟨hroot ▸ load_definesTwice hdefine (hroot ▸ read_treeOf _) [],
    hroot ▸ load_definesTwice hheader (hroot ▸ read_treeOf _) [],
    hroot ▸ load_definesTwice hbraces (hroot ▸ read_treeOf _) []⟩

end Settings

end DocCoverage
