import DocCoverage.Proofs.Settings.References

/-!
# What a config file asks the environment

An entry asks the environment for the variables that it refers to and, if it starts with `~`, for the
home directory.  All these names can be seen in the entry: nothing that comes out of a variable, a
default or the root is read again.  So environments that give the same answers to what the entries
ask lead to the same settings, and a file whose entries ask nothing is loaded alike in all of them.

    e refers to name                       →  name stands in e, after a dollar sign  (Reads.of_variable)
    the same answers for e                 →  e resolves alike                    (resolveEntry_sameFor)
    the same answers for all the entries   →  the same settings, or the same error       (load_sameFor)
-/

namespace DocCoverage

/-- The variable that a segment refers to. -/
def Segment.name? : Segment → Option (List Char)
  | .char _ => none
  | .variable name _ => some name

namespace Template

/-- An entry refers to a variable. -/
def RefersTo (entry name : String) : Prop :=
  some name.toList ∈ (segments entry.toList).map Segment.name?

instance (entry name : String) : Decidable (RefersTo entry name) :=
  inferInstanceAs (Decidable (some name.toList ∈ (segments entry.toList).map Segment.name?))

/-- An entry asks for the value of a variable. -/
def AsksFor (entry name : String) : Prop :=
  RefersTo entry name ∨ entry.toList.head? = some '~' ∧ name = "HOME"

end Template

/-- Environments that give the same answers to what an entry asks. -/
def Environment.SameFor (entry : String) (env env' : Environment) : Prop :=
  ∀ name, Template.AsksFor entry name → env.get? name = env'.get? name

namespace Template

/-! ## Names that an entry shows -/

section
variable {inner name s : List Char} {fallback : Option (List Char)} {parts : List Segment}

theorem NameAndDefault.isPrefix (h : NameAndDefault inner name fallback) : name <+: inner := by
  cases h with
  | alone => exact List.prefix_refl _
  | withDefault => exact List.prefix_append _ _

/-- The name of a variable stands in the text that refers to it, and so does a dollar sign. -/
theorem Reads.of_variable (h : Reads s parts) (hmem : .variable name fallback ∈ parts) :
    name <:+: s ∧ '$' ∈ s := by
  -- a later part of the text shows what it refers to; the first part shows its own name
  have hlater : ∀ {before rest : List Char}, name <:+: rest ∧ '$' ∈ rest →
      name <:+: before ++ rest ∧ '$' ∈ before ++ rest := fun h =>
    ⟨h.1.trans (List.suffix_append _ _).isInfix, List.mem_append_right _ h.2⟩
  induction h with
  | nil => cases hmem
  | @char c s parts _ _ ih =>
    have hrest : .variable name fallback ∈ parts := by simpa using hmem
    exact @hlater [c] s (ih hrest)
  | @escaped s parts _ ih =>
    have hrest : .variable name fallback ∈ parts := by simpa using hmem
    exact @hlater ['$', '$'] s (ih hrest)
  | @named other s parts _ _ _ _ ih =>
    rcases List.mem_cons.mp hmem with hself | hrest
    · obtain ⟨rfl, -⟩ := Segment.variable.inj hself
      exact ⟨⟨['$'], s, rfl⟩, List.mem_cons_self⟩
    · exact @hlater ('$' :: other) s (ih hrest)
  | @braced inner other s _ parts _ hname _ ih =>
    rcases List.mem_cons.mp hmem with hself | hrest
    · obtain ⟨rfl, -⟩ := Segment.variable.inj hself
      have hinner : inner <:+: '$' :: '{' :: (inner ++ '}' :: s) := ⟨['$', '{'], '}' :: s, by simp⟩
      exact ⟨hname.isPrefix.isInfix.trans hinner, List.mem_cons_self⟩
    · have hsplit : '$' :: '{' :: (inner ++ '}' :: s) = ('$' :: '{' :: (inner ++ ['}'])) ++ s := by
        simp
      rw [hsplit]
      exact hlater (ih hrest)
  | @unclosed s parts _ _ ih =>
    have hrest : .variable name fallback ∈ parts := by simpa using hmem
    exact @hlater ['$'] ('{' :: s) (ih hrest)
  | @lone s parts _ _ ih =>
    have hrest : .variable name fallback ∈ parts := by simpa using hmem
    exact @hlater ['$'] s (ih hrest)

end

/-- An entry shows the names of the variables that it refers to. -/
theorem RefersTo.shown {entry name : String} (h : RefersTo entry name) :
    name.toList <:+: entry.toList ∧ '$' ∈ entry.toList := by
  obtain ⟨c | ⟨other, fallback⟩, hpart, hname⟩ := List.mem_map.mp h
  · cases hname
  · obtain rfl : other = name.toList := Option.some.inj hname
    exact (reads_iff.mpr rfl : Reads entry.toList _).of_variable hpart

/-! ## The same answers -/

section
variable {env env' : Environment} {entry : String} (h : Environment.SameFor entry env env')
include h

theorem fill_sameFor {part : Segment} (hpart : part ∈ segments entry.toList) :
    fill env part = fill env' part := by
  rcases part with c | ⟨name, fallback⟩
  · rfl
  · have hrefers : RefersTo entry (String.ofList name) := by
      unfold RefersTo
      rw [String.toList_ofList]
      exact List.mem_map_of_mem hpart
    simp only [fill, h _ (.inl hrefers)]

theorem expand_sameFor : expand env entry.toList = expand env' entry.toList := by
  have hfill : (segments entry.toList).mapM (fill env) = (segments entry.toList).mapM (fill env') :=
    mapM_congr fun part hpart => fill_sameFor h hpart
  unfold expand
  rw [hfill]
  split
  · next hhead =>
    have hhome : env.home? = env'.home? := by
      unfold Environment.home?
      rw [h "HOME" (.inr ⟨hhead, rfl⟩)]
    rw [hhome]
  · rfl

end

end Template

namespace Settings

section
variable {env env' : Environment}

theorem resolveEntry_sameFor {entry : String} (h : Environment.SameFor entry env env')
    (root : Path) : resolveEntry env root entry = resolveEntry env' root entry := by
  unfold resolveEntry Template.resolve
  rw [Template.expand_sameFor h]

theorem resolveList_sameFor {entries : Option (List String)} (builtIn : List String)
    (h : ∀ e ∈ entries.getD [], Environment.SameFor e env env') (root : Path) :
    resolveList env root entries builtIn = resolveList env' root entries builtIn := by
  cases entries with
  | none => rfl
  | some es => exact mapM_congr fun e he => resolveEntry_sameFor (h e he) root

theorem resolveOption_sameFor {entry : Option String}
    (h : ∀ e ∈ entry.toList, Environment.SameFor e env env') (root : Path) :
    resolveOption env root entry = resolveOption env' root entry := by
  cases entry with
  | none => rfl
  | some e =>
    show (resolveEntry env root e).map some = (resolveEntry env' root e).map some
    rw [resolveEntry_sameFor (h e (by simp)) root]

/-- The contents of a file are resolved alike where its entries get the same answers. -/
theorem resolve_sameFor {f : SettingsFile} (h : ∀ e ∈ f.entries, Environment.SameFor e env env')
    (root source : Path) : resolve env root source f = resolve env' root source f := by
  have hheaders := resolveList_sameFor defaultHeaders
    (fun e he => h e (List.mem_append_left _ he)) root
  have hdocs := resolveList_sameFor defaultDocs
    (fun e he => h e (List.mem_append_right _ (List.mem_append_left _ he))) root
  have hfile := resolveOption_sameFor
    (fun e he => h e (List.mem_append_right _ (List.mem_append_right _ he))) root
  unfold resolve
  rw [hheaders, hdocs, hfile]

end

/-! ## Loading -/

/-- A path entry of the config file that is read: a header, a document or the trail file. -/
def Configures (t : FileTree) (config : Option Path) (root : Path) (entry : String) : Prop :=
  ∃ text f, t.read (config.getD (root.join ⟨fileName⟩)) = .ok text ∧
    SettingsFile.read text = some f ∧ entry ∈ f.entries

/-- What loading the settings comes to, and then the check that they ask for. -/
def outcome (t : FileTree) (env : Environment) (config : Option Path) (root : Path) :
    Except LoadError (Except Matcher.Refusal Outcome) :=
  (load t env config root).map fun s => s.checker.map fun c => c.run t

variable {t : FileTree} {config : Option Path} {root : Path}

theorem load_sameFor {env env' : Environment}
    (h : ∀ entry, Configures t config root entry → Environment.SameFor entry env env') :
    load t env config root = load t env' config root := by
  rw [load_eq, load_eq]
  unfold readFile
  cases hread : t.read (config.getD (root.join ⟨fileName⟩)) with
  | error fault => rfl
  | ok text =>
    cases hf : SettingsFile.read text with
    | none => simp only [hf]
    | some f =>
      have hentries : ∀ e ∈ f.entries, Environment.SameFor e env env' :=
        fun e he => h e ⟨text, f, hread, hf, he⟩
      simp only [hf, resolve_sameFor hentries]

theorem outcome_sameFor {env env' : Environment}
    (h : ∀ entry, Configures t config root entry → Environment.SameFor entry env env') :
    outcome t env config root = outcome t env' config root := by
  unfold outcome
  rw [load_sameFor h]

variable (t config root)

/-- The environment has a say only where a configured path asks for it.  Environments that agree on
every variable whose name stands in a configured path and, if one of these paths starts with `~`, on
the home directory lead to the same settings or the same error, and to the same end of the check.  If
no configured path has a dollar sign or starts with `~`, and in particular without a config file, the
environment has no say at all. -/
theorem load_outcome_environment :
    (∀ env env' : Environment,
      (∀ entry, Configures t config root entry →
        (∀ name : String, name.toList <:+: entry.toList → env.get? name = env'.get? name) ∧
        (entry.toList.head? = some '~' → env.get? "HOME" = env'.get? "HOME")) →
      load t env config root = load t env' config root ∧
        outcome t env config root = outcome t env' config root) ∧
    ((∀ entry, Configures t config root entry →
        '$' ∉ entry.toList ∧ entry.toList.head? ≠ some '~') →
      ∀ env env', load t env config root = load t env' config root ∧
        outcome t env config root = outcome t env' config root) ∧
    (t.has (config.getD (root.join ⟨fileName⟩)) = false →
      ∀ env env', load t env config root = load t env' config root ∧
        outcome t env config root = outcome t env' config root) := by
  have hboth : ∀ env env' : Environment,
      (∀ entry, Configures t config root entry → Environment.SameFor entry env env') →
      load t env config root = load t env' config root ∧
        outcome t env config root = outcome t env' config root :=
    fun env env' h => ⟨load_sameFor h, outcome_sameFor h⟩
  refine ⟨fun env env' h => ?_, fun h env env' => ?_, fun h env env' => ?_⟩
  · refine hboth env env' fun entry hentry => ?_
    rintro name (hrefers | ⟨hhead, rfl⟩)
    · exact (h entry hentry).1 name hrefers.shown.1
    · exact (h entry hentry).2 hhead
  · refine hboth env env' fun entry hentry => ?_
    rintro name (hrefers | ⟨hhead, -⟩)
    · exact absurd hrefers.shown.2 (h entry hentry).1
    · exact absurd hhead (h entry hentry).2
  · refine hboth env env' fun entry hentry => ?_
    obtain ⟨text, f, hread, -⟩ := hentry
    rw [FileTree.has_of_read_eq_ok hread] at h
    cases h

/-- A config file with a variable and the home directory in its entries, and text elsewhere that
looks like more of them. -/
def askingConfig : String :=
  "version = 1\nnamespace_prefix = \"$X\"\nheader_sources = [\"$DIR/a.h\"]\n" ++
    "doc_sources = [\"~/d.md\"]\n[logging]\nlevel = \"~$Y\""

def askingTree : FileTree :=
  (FileTree.bare ["w"]).plant ⟨"$Z/helper-docs.toml"⟩ (.file askingConfig.toUTF8)

def askingSettings : Settings :=
  ⟨⟨"$Z"⟩, some ⟨"$Z/helper-docs.toml"⟩, "$X", [⟨"$Z/$X/~/a.h"⟩], [⟨"/h/$Y/d.md"⟩],
    ⟨"~$Y", none, none⟩⟩

/-- Neither the root, the prefix and the level nor the values of what is asked for are read for
variables. -/
theorem load_outcome_askingTree :
    load askingTree [("DIR", "$X/~"), ("HOME", "/h/$Y")] none ⟨"$Z"⟩ = .ok askingSettings ∧
    load askingTree [("X", "x"), ("Y", "y"), ("Z", "z"), ("DIR", "$X/~"), ("HOME", "/h/$Y")] none
      ⟨"$Z"⟩ = .ok askingSettings := by
  have hread : askingTree.read (Path.join ⟨"$Z"⟩ ⟨fileName⟩) = .ok askingConfig := by decide +kernel
  have hcontents : SettingsFile.read askingConfig = some ⟨1, some "$X", some ["$DIR/a.h"],
      some ["~/d.md"], ⟨"~$Y", none, none⟩⟩ := by
    decide +kernel
  have hload : load askingTree [("DIR", "$X/~"), ("HOME", "/h/$Y")] none ⟨"$Z"⟩ =
      .ok askingSettings := by
    decide +kernel
  -- the other variables stand in no entry
  have hshown : ∀ entry ∈ ["$DIR/a.h", "~/d.md"], ∀ name ∈ ["X", "Y", "Z"],
      ¬ name.toList <:+: entry.toList := by decide
  have hsame : ∀ name : String, name ∉ ["X", "Y", "Z"] →
      Environment.get? [("DIR", "$X/~"), ("HOME", "/h/$Y")] name = Environment.get?
        [("X", "x"), ("Y", "y"), ("Z", "z"), ("DIR", "$X/~"), ("HOME", "/h/$Y")] name := by
    intro name hname
    simp only [List.mem_cons, List.not_mem_nil, or_false, not_or] at hname
    obtain ⟨hx, hy, hz⟩ := hname
    simp only [Environment.get?, List.lookup_cons, beq_false_of_ne hx, beq_false_of_ne hy,
      beq_false_of_ne hz]
  obtain ⟨hasked, -⟩ := load_outcome_environment askingTree none ⟨"$Z"⟩
  refine ⟨hload, (hasked _ _ ?_).1.symm.trans hload⟩
  rintro entry ⟨text, f, htext, hf, hentry⟩
  obtain rfl := Except.ok.inj (hread.symm.trans htext)
  obtain rfl := Option.some.inj (hcontents.symm.trans hf)
  exact ⟨fun name hname => hsame name fun h => hshown entry hentry name h hname,
    fun _ => hsame "HOME" (by decide)⟩

end Settings

end DocCoverage
