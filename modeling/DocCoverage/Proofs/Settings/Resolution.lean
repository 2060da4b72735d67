import DocCoverage.Proofs.Text.Utf8
import DocCoverage.Settings.Load
import Mathlib.Data.List.Forall2

/-!
# Resolving the contents of a config file

The paths of a file are resolved one after the other: headers, documents, trail file.  The contents
give settings exactly when the version is 1, the prefix is not empty and every path resolves; else
the first fault in this order is the error.

    resolve f = ok s                    ↔  s is what f says, path by path      (resolve_eq_ok_iff)
    resolve f = error (unset variable)  ↔  the first path that fails names it  (resolve_eq_error_iff)
    load, where a config file is read   = resolve what it says                         (load_of_read)
-/

namespace DocCoverage

section
variable {ε α β : Type} {f : α → Except ε β} {l : List α}

theorem mapM_eq_ok_iff {r : List β} :
    l.mapM f = .ok r ↔ List.Forall₂ (fun a b => f a = .ok b) l r := by
  induction l generalizing r with
  | nil => simp [pure, Except.pure, eq_comm]
  | cons a l ih =>
    rw [List.mapM_cons]
    cases ha : f a with
    | error e => cases r <;> simp [bind, Except.bind, ha]
    | ok b =>
      cases hl : l.mapM f with
      | error e => cases r <;> simp [bind, Except.bind, ← ih, hl]
      | ok bs => cases r <;> simp [bind, Except.bind, pure, Except.pure, ← ih, hl, ha]

theorem mapM_congr {f' : α → Except ε β} (h : ∀ a ∈ l, f a = f' a) : l.mapM f = l.mapM f' := by
  induction l with
  | nil => rfl
  | cons a l ih =>
    rw [List.mapM_cons, List.mapM_cons, h a List.mem_cons_self,
      ih fun b hb => h b (List.mem_cons_of_mem _ hb)]

/-- Going through a list ends at the first item that fails. -/
theorem mapM_eq_error_iff {e : ε} :
    l.mapM f = .error e ↔
      ∃ before a after, l = before ++ a :: after ∧ (∀ b ∈ before, ∃ x, f b = .ok x) ∧
        f a = .error e := by
  induction l with
  | nil => simp [pure, Except.pure]
  | cons a l ih =>
    rw [List.mapM_cons]
    constructor
    · intro h
      cases ha : f a with
      | error e' =>
        obtain rfl : e' = e := by simpa [ha, bind, Except.bind] using h
        exact ⟨[], a, l, rfl, by simp, ha⟩
      | ok b =>
        have hl : l.mapM f = .error e := by
          cases hl : l.mapM f <;> simp_all [bind, Except.bind, pure, Except.pure]
        obtain ⟨before, a', after, rfl, hbefore, ha'⟩ := ih.1 hl
        refine ⟨a :: before, a', after, rfl, ?_, ha'⟩
        simpa [ha] using hbefore
    · rintro ⟨before, a', after, hl, hbefore, ha'⟩
      cases before with
      | nil =>
        obtain ⟨rfl, rfl⟩ := List.cons.inj hl
        simp [ha', bind, Except.bind]
      | cons b before =>
        obtain ⟨rfl, htail⟩ := List.cons.inj hl
        obtain ⟨x, hx⟩ := hbefore a List.mem_cons_self
        rw [hx, ih.2 ⟨before, a', after, htail, fun b hb => hbefore b (by simp [hb]), ha'⟩]
        rfl

end

/-- The configured paths of a file, in the order in which they are resolved. -/
def SettingsFile.entries (f : SettingsFile) : List String :=
  f.headers.getD [] ++ (f.docs.getD [] ++ f.trail.file.toList)

namespace Settings

variable (env : Environment) (root : Path)

/-- The paths that a configured list stands for, entry by entry, or the built-in ones. -/
inductive Listed (builtIn : List String) : Option (List String) → List Path → Prop
  | configured {es : List String} {ps : List Path}
      (h : List.Forall₂ (fun e p => Template.resolve env root e = .ok p) es ps) :
      Listed builtIn (some es) ps
  | absent : Listed builtIn none (under root builtIn)

/-- The first entry of a list that refers to a variable without a value, with the variable. -/
def FirstUnset (entries : List String) (name entry : String) : Prop :=
  ∃ before after, entries = before ++ entry :: after ∧
    (∀ e ∈ before, ∃ p, Template.resolve env root e = .ok p) ∧
    Template.resolve env root entry = .error name

/-- The settings that the contents of a config file describe. -/
structure Describes (source : Path) (f : SettingsFile) (s : Settings) : Prop where
  root_eq : s.root = root
  source_eq : s.source = some source
  stem_eq : s.stem = f.stem.getD defaultStem
  headers : Listed env root defaultHeaders f.headers s.headers
  docs : Listed env root defaultDocs f.docs s.docs
  level_eq : s.trail.level = f.trail.level
  fileLevel_eq : s.trail.fileLevel = f.trail.fileLevel
  file : Option.Rel (fun e p => Template.resolve env root e = .ok p) f.trail.file s.trail.file

variable {env root}

theorem resolveEntry_eq_ok_iff {entry : String} {p : Path} :
    resolveEntry env root entry = .ok p ↔ Template.resolve env root entry = .ok p := by
  unfold resolveEntry
  cases Template.resolve env root entry <;> simp

theorem resolveEntry_eq_error_iff {entry : String} {e : LoadError} :
    resolveEntry env root entry = .error e ↔
      ∃ name, e = .unsetVariable name entry ∧ Template.resolve env root entry = .error name := by
  unfold resolveEntry
  cases Template.resolve env root entry <;> simp [eq_comm]

theorem resolveList_eq_ok_iff {es : Option (List String)} {builtIn : List String}
    {ps : List Path} :
    resolveList env root es builtIn = .ok ps ↔ Listed env root builtIn es ps := by
  cases es with
  | none =>
    constructor
    · intro h
      cases h
      exact .absent
    · rintro ⟨⟩
      rfl
  | some es =>
    have hiff : resolveList env root (some es) builtIn = .ok ps ↔
        List.Forall₂ (fun e p => Template.resolve env root e = .ok p) es ps := by
      simp only [resolveList, mapM_eq_ok_iff, resolveEntry_eq_ok_iff]
    rw [hiff]
    constructor
    · exact .configured
    · rintro ⟨h⟩
      exact h

theorem resolveOption_eq_ok_iff {entry : Option String} {file : Option Path} :
    resolveOption env root entry = .ok file ↔
      Option.Rel (fun e p => Template.resolve env root e = .ok p) entry file := by
  cases entry with
  | none => cases file <;> simp [resolveOption]
  | some entry =>
    unfold resolveOption resolveEntry
    cases h : Template.resolve env root entry <;> cases file <;> simp [Except.map, h]

theorem mapM_entries_eq_error_iff {entries : List String} {e : LoadError} :
    entries.mapM (resolveEntry env root) = .error e ↔
      ∃ name entry, e = .unsetVariable name entry ∧ FirstUnset env root entries name entry := by
  simp only [mapM_eq_error_iff, resolveEntry_eq_ok_iff, resolveEntry_eq_error_iff, FirstUnset]
  constructor
  · rintro ⟨before, entry, after, hl, hbefore, name, he, hname⟩
    exact ⟨name, entry, he, before, after, hl, hbefore, hname⟩
  · rintro ⟨name, entry, he, before, after, hl, hbefore, hname⟩
    exact ⟨before, entry, after, hl, hbefore, name, he, hname⟩

variable {source : Path} {f : SettingsFile}

theorem resolve_of_version (h : f.version ≠ 1) :
    resolve env root source f = .error (.unsupportedVersion f.version) := by
  simp [resolve, h]

theorem resolve_of_stem (hversion : f.version = 1) (h : f.stem = some "") :
    resolve env root source f = .error .emptyPrefix := by
  simp [resolve, hversion, h]

theorem resolve_of_accepted (hversion : f.version = 1) (hstem : f.stem ≠ some "") :
    resolve env root source f = do
      let headers ← resolveList env root f.headers defaultHeaders
      let docs ← resolveList env root f.docs defaultDocs
      let file ← resolveOption env root f.trail.file
      return ⟨root, some source, f.stem.getD defaultStem, headers, docs,
        ⟨f.trail.level, f.trail.fileLevel, file⟩⟩ := by
  simp [resolve, hversion, hstem]

/-- The settings are what the file says, with each path resolved. -/
theorem resolve_eq_ok_iff (hversion : f.version = 1) (hstem : f.stem ≠ some "") {s : Settings} :
    resolve env root source f = .ok s ↔ Describes env root source f s := by
  rw [resolve_of_accepted hversion hstem]
  constructor
  · intro h
    cases hheaders : resolveList env root f.headers defaultHeaders with
    | error e => simp [hheaders, bind, Except.bind] at h
    | ok headers =>
      cases hdocs : resolveList env root f.docs defaultDocs with
      | error e => simp [hheaders, hdocs, bind, Except.bind] at h
      | ok docs =>
        cases hfile : resolveOption env root f.trail.file with
        | error e => simp [hheaders, hdocs, hfile, bind, Except.bind] at h
        | ok file =>
          simp only [hheaders, hdocs, hfile, bind, Except.bind, pure, Except.pure,
            Except.ok.injEq] at h
          subst h
          exact ⟨rfl, rfl, rfl, resolveList_eq_ok_iff.1 hheaders, resolveList_eq_ok_iff.1 hdocs,
            rfl, rfl, resolveOption_eq_ok_iff.1 hfile⟩
  · intro h
    rw [resolveList_eq_ok_iff.2 h.headers, resolveList_eq_ok_iff.2 h.docs,
      resolveOption_eq_ok_iff.2 h.file, ← h.stem_eq, ← h.level_eq, ← h.fileLevel_eq, ← h.source_eq]
    obtain rfl := h.root_eq
    rfl

/-- An error names the first configured path that fails. -/
theorem resolve_eq_error_iff (hversion : f.version = 1) (hstem : f.stem ≠ some "")
    {e : LoadError} :
    resolve env root source f = .error e ↔
      ∃ name entry, e = .unsetVariable name entry ∧ FirstUnset env root f.entries name entry := by
  have hlist : ∀ (es : Option (List String)) (builtIn : List String),
      resolveList env root es builtIn = (fun ps => if es.isSome then ps else under root builtIn) <$>
        (es.getD []).mapM (resolveEntry env root) := by
    intro es builtIn
    cases es with
    | none => rfl
    | some es => simp [resolveList]
  have hoption : ∀ entry : Option String, resolveOption env root entry =
      List.head? <$> entry.toList.mapM (resolveEntry env root) := by
    intro entry
    cases entry with
    | none => rfl
    | some entry =>
      simp only [resolveOption, Option.toList_some, List.mapM_cons, List.mapM_nil]
      cases resolveEntry env root entry <;> rfl
  rw [resolve_of_accepted hversion hstem, ← mapM_entries_eq_error_iff, hlist, hlist, hoption]
  unfold SettingsFile.entries
  rw [List.mapM_append, List.mapM_append]
  -- both sides stop at the first of the three lists that fails
  cases (f.headers.getD []).mapM (resolveEntry env root) with
  | error e => simp [bind, Except.bind, Functor.map, Except.map]
  | ok headers =>
    cases (f.docs.getD []).mapM (resolveEntry env root) with
    | error e => simp [bind, Except.bind, Functor.map, Except.map]
    | ok docs =>
      cases f.trail.file.toList.mapM (resolveEntry env root) with
      | error e => simp [bind, Except.bind, Functor.map, Except.map]
      | ok file => simp [bind, Except.bind, Functor.map, Except.map, pure, Except.pure]

/-! ## Loading -/

variable (t : FileTree) (env : Environment) (config : Option Path) (root : Path)

/-- The file that is named, or else the one under the root, is read if it is there. -/
theorem load_eq :
    load t env config root =
      if t.has (config.getD (root.join ⟨fileName⟩)) then
        readFile t env root (config.getD (root.join ⟨fileName⟩))
      else config.elim (.ok (builtIn root)) fun file => .error (.missing file) := by
  cases config with
  | none => rfl
  | some file => rfl

variable {t config root}

/-- A config file that is read is what the loaded settings come from. -/
theorem load_of_read {text : String}
    (h : t.read (config.getD (root.join ⟨fileName⟩)) = .ok text) :
    load t env config root =
      match SettingsFile.read text with
      | none => .error (.malformed (config.getD (root.join ⟨fileName⟩)))
      | some contents => resolve env root (config.getD (root.join ⟨fileName⟩)) contents := by
  rw [load_eq, if_pos (FileTree.has_of_read_eq_ok h)]
  cases hf : SettingsFile.read text with
  | none => simp only [readFile, h, hf]
  | some contents => simp only [readFile, h, hf]

/-- The tree that holds a text as the config file under the root `p`. -/
def treeOf (text : String) : FileTree :=
  (FileTree.bare ["w"]).plant ⟨"p/helper-docs.toml"⟩ (.file text.toUTF8)

theorem read_treeOf (text : String) : (treeOf text).read ⟨"p/helper-docs.toml"⟩ = .ok text := by
  have hfind : (treeOf text).find ⟨"p/helper-docs.toml"⟩ =
      .ok (["w", "p", "helper-docs.toml"], .file text.toUTF8) := by
    rfl
  unfold FileTree.read
  rw [hfind]
  simp only [Text.fromUTF8?_toUTF8]

/-- The checker of the files that some settings list, with a matcher. -/
def checkerOf (s : Settings) (m : Matcher) : Checker :=
  ⟨m, s.headers.map .file, s.docs.map .file⟩

/-- Only the prefix of settings can be refused. -/
theorem checker_eq_map (s : Settings) : s.checker = (Matcher.ofPrefix s.stem).map s.checkerOf := by
  unfold checker Checker.ofPrefix
  cases Matcher.ofPrefix s.stem with
  | error refusal => rfl
  | ok m => rfl

end Settings

end DocCoverage
