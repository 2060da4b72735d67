import DocCoverage.Proofs.FileTree.Edited
import DocCoverage.Proofs.Settings.Environment

/-!
# Settings with other levels

What is shown of the trail is chosen by two levels in the config file and by one variable of the
environment.  A config file that differs in these levels is accepted or refused alike and gives the
same settings but for the levels; a variable that no entry refers to has no say at all.

    get? k es, get? k es'   both absent, or related values                              (get?_alike)
    contents of the file    both refused, or the same but for the levels      (ofEntries_releveled)
    load                    the same error, or the same but for the levels         (load_releveled)
-/

namespace DocCoverage

open Toml (Value Entries)

theorem all_eq_of_forall₂ {α : Type} {R : α → α → Prop} {p : α → Bool} {l l' : List α}
    (h : List.Forall₂ R l l') (hp : ∀ a a', R a a' → p a = p a') : l.all p = l'.all p := by
  induction h with
  | nil => rfl
  | cons ha _ ih => rw [List.all_cons, List.all_cons, hp _ _ ha, ih]

/-! ## A variable that nothing refers to -/

/-- Environments that give every variable but one the same value. -/
def Environment.SameBut (name : String) (env env' : Environment) : Prop :=
  ∀ other, other ≠ name → env.get? other = env'.get? other

/-- A variable that an entry does not refer to has no say in it, unless it is the home directory. -/
theorem Environment.SameBut.sameFor {env env' : Environment} {name entry : String}
    (h : SameBut name env env') (hentry : ¬ Template.RefersTo entry name) (hhome : name ≠ "HOME") :
    SameFor entry env env' := by
  rintro other (hrefers | ⟨-, rfl⟩)
  · refine h other ?_
    rintro rfl
    exact hentry hrefers
  · exact h "HOME" hhome.symm

/-! ## Levels in a config file -/

namespace Toml.Entries

/-- The same keys in the same order, with related values. -/
def Alike (R : String → Value → Value → Prop) : Entries → Entries → Prop :=
  List.Forall₂ fun e e' => e.1 = e'.1 ∧ R e.1 e.2 e'.2

theorem get?_alike {R : String → Value → Value → Prop} {es es' : Entries} (h : Alike R es es')
    (k : String) : Option.Rel (R k) (es.get? k) (es'.get? k) := by
  unfold get?
  induction h with
  | nil => exact .none
  | @cons e e' es es' he _ ih =>
    obtain ⟨key, v⟩ := e
    obtain ⟨key', v'⟩ := e'
    obtain ⟨rfl, hv⟩ : key = key' ∧ R key v v' := he
    rw [List.lookup_cons, List.lookup_cons]
    by_cases hkey : k = key
    · subst hkey
      rw [beq_self_eq_true]
      exact .some hv
    · rw [beq_false_of_ne hkey]
      exact ih

/-- Where only equal values are related, the values are equal. -/
theorem get?_eq_of_alike {R : String → Value → Value → Prop} {es es' : Entries} (h : Alike R es es')
    {k : String} (hk : ∀ v v', R k v v' → v = v') : es.get? k = es'.get? k := by
  have hget := get?_alike h k
  generalize es.get? k = o at hget ⊢
  generalize es'.get? k = o' at hget ⊢
  cases hget with
  | none => rfl
  | some hv => rw [hk _ _ hv]

end Toml.Entries

namespace SettingsFile

/-- The same value, or one text for another. -/
def Reworded (v v' : Value) : Prop :=
  v = v' ∨ ∃ text text', v = .string text ∧ v' = .string text'

/-- The same section on the trail, but for the levels: those of a table by their keys, those of an
array by their places. -/
inductive ReleveledTrail : Value → Value → Prop
  | refl (v : Value) : ReleveledTrail v v
  | table (origin : Toml.Origin) {es es' : Entries}
      (h : es.Alike (fun k v v' => v = v' ∨ (k = "level" ∨ k = "file_level") ∧ Reworded v v') es') :
      ReleveledTrail (.table origin es) (.table origin es')
  | array {levels levels' : List String} (rest : List Value)
      (hlength : levels.length = levels'.length) (htwo : levels.length ≤ 2) :
      ReleveledTrail (.array (levels.map .string ++ rest)) (.array (levels'.map .string ++ rest))

end SettingsFile

/-- The same entries, but for the levels in the section on the trail. -/
def Toml.Entries.Releveled : Entries → Entries → Prop :=
  Alike fun k v v' => v = v' ∨ k = "logging" ∧ SettingsFile.ReleveledTrail v v'

namespace SettingsFile

/-- The same contents, but for the levels. -/
structure Releveled (f f' : SettingsFile) : Prop where
  version : f.version = f'.version
  stem : f.stem = f'.stem
  headers : f.headers = f'.headers
  docs : f.docs = f'.docs
  file : f.trail.file = f'.trail.file

theorem Releveled.refl (f : SettingsFile) : Releveled f f :=
  ⟨rfl, rfl, rfl, rfl, rfl⟩

variable {level level' fileLevel fileLevel' : Option Value}

/-- A text is accepted where another one is. -/
theorem text?_reworded (h : Option.Rel Reworded level level') :
    Option.Rel (fun _ _ => True) (text? level) (text? level') := by
  cases h with
  | none => exact .some trivial
  | some h =>
    rcases h with rfl | ⟨text, text', rfl, rfl⟩
    · exact rel_refl (fun _ => trivial) _
    · exact .some trivial

theorem trailOf_releveled (hlevel : Option.Rel Reworded level level')
    (hfileLevel : Option.Rel Reworded fileLevel fileLevel') (file : Option Value) :
    Option.Rel (fun s s' => s.file = s'.file) (trailOf level fileLevel file)
      (trailOf level' fileLevel' file) := by
  unfold trailOf
  refine rel_bind (text?_reworded hlevel) fun _ _ _ => ?_
  refine rel_bind (text?_reworded hfileLevel) fun _ _ _ => ?_
  exact rel_bind_self (text? file) fun _ => .some rfl

/-- The first values of an array may be other texts. -/
theorem getElem?_reworded {levels levels' : List String} (hlength : levels.length = levels'.length)
    (rest : List Value) (i : Nat) :
    Option.Rel Reworded (levels.map .string ++ rest)[i]? (levels'.map .string ++ rest)[i]? := by
  by_cases hi : i < levels.length
  · have hi' : i < levels'.length := hlength ▸ hi
    rw [List.getElem?_append_left (by simpa using hi), List.getElem?_append_left (by simpa using hi'),
      List.getElem?_map, List.getElem?_map, List.getElem?_eq_getElem hi, List.getElem?_eq_getElem hi']
    exact .some (.inr ⟨_, _, rfl, rfl⟩)
  · have hi' : ¬ i < levels'.length := hlength ▸ hi
    simp only [List.getElem?_append, List.length_map, hi', if_false, hlength]
    exact rel_refl (fun _ => .inl rfl) _

theorem trail?_releveled {v v' : Value} (h : ReleveledTrail v v') :
    Option.Rel (fun s s' => s.file = s'.file) (trail? (some v)) (trail? (some v')) := by
  cases h with
  | refl => exact rel_refl (fun s => Eq.refl s.file) _
  | @table origin es es' h =>
    have hlevel : ∀ k, Option.Rel Reworded (es.get? k) (es'.get? k) :=
      fun k => rel_imp (Entries.get?_alike h k) fun v v' hv => hv.elim .inl And.right
    have hfile : es.get? "file" = es'.get? "file" :=
      Entries.get?_eq_of_alike h fun v v' hv => by simpa using hv
    simp only [trail?, hfile]
    exact trailOf_releveled (hlevel "level") (hlevel "file_level") _
  | @array levels levels' rest hlength htwo =>
    have hfile : (levels.map Value.string ++ rest)[2]? = (levels'.map Value.string ++ rest)[2]? := by
      rw [List.getElem?_append_right (by simpa using htwo),
        List.getElem?_append_right (by simpa [← hlength] using htwo), List.length_map,
        List.length_map, hlength]
    simp only [trail?, hfile]
    exact trailOf_releveled (getElem?_reworded hlength rest 0) (getElem?_reworded hlength rest 1) _

/-- A level is sound, like every text. -/
theorem isReadable_releveled {e e' : String × Value} (hkey : e.1 = e'.1)
    (h : e.2 = e'.2 ∨ e.1 = "logging" ∧ ReleveledTrail e.2 e'.2) :
    isReadable e = isReadable e' := by
  obtain ⟨k, v⟩ := e
  obtain ⟨k', v'⟩ := e'
  obtain rfl : k = k' := hkey
  rcases h with hv | ⟨hlogging, hv⟩
  · obtain rfl : v = v' := hv
    rfl
  · obtain rfl : k = "logging" := hlogging
    cases hv with
    | refl => rfl
    | table origin h =>
      have hsound : ∀ es, isReadable ("logging", .table origin es) = es.all (·.2.isSound) := by
        intro es
        rw [Bool.eq_iff_iff, List.all_eq_true]
        exact Toml.entriesAreSound_iff
      rw [hsound, hsound]
      refine all_eq_of_forall₂ h ?_
      rintro ⟨_, v⟩ ⟨_, v'⟩ ⟨-, hv⟩
      rcases hv with hv | ⟨-, hv | ⟨text, text', hv, hv'⟩⟩
      · rw [hv]
      · rw [hv]
      · rw [hv, hv']
        rfl
    | array rest hlength htwo => rfl

theorem ofEntries_releveled {es es' : Entries} (h : es.Releveled es') :
    Option.Rel Releveled (ofEntries es) (ofEntries es') := by
  have hsame : ∀ k, k ≠ "logging" → es.get? k = es'.get? k := by
    intro k hk
    exact Entries.get?_eq_of_alike h fun v v' hv => hv.resolve_right fun hlogging => hk hlogging.1
  have htrail : Option.Rel (fun s s' => s.file = s'.file) (trail? (es.get? "logging"))
      (trail? (es'.get? "logging")) := by
    have hget := Entries.get?_alike h "logging"
    generalize es.get? "logging" = o at hget ⊢
    generalize es'.get? "logging" = o' at hget ⊢
    cases hget with
    | none => exact rel_refl (fun s => Eq.refl s.file) _
    | some hv =>
      rcases hv with rfl | ⟨-, hv⟩
      · exact rel_refl (fun s => Eq.refl s.file) _
      · exact trail?_releveled hv
  have hall : es.all isReadable = es'.all isReadable :=
    all_eq_of_forall₂ h fun e e' he => isReadable_releveled he.1 he.2
  unfold ofEntries
  rw [hsame "version" (by decide), hsame "namespace_prefix" (by decide),
    hsame "header_sources" (by decide), hsame "doc_sources" (by decide), hall]
  refine rel_bind_self _ fun version => ?_
  refine rel_bind_self _ fun stem => ?_
  refine rel_bind_self _ fun headers => ?_
  refine rel_bind_self _ fun docs => ?_
  refine rel_bind htrail fun trail trail' hfile => ?_
  split
  · exact .some ⟨rfl, rfl, rfl, rfl, hfile⟩
  · exact .none

end SettingsFile

namespace Settings

/-- The same settings, but for the levels. -/
structure Releveled (s s' : Settings) : Prop where
  root : s.root = s'.root
  source : s.source = s'.source
  stem : s.stem = s'.stem
  headers : s.headers = s'.headers
  docs : s.docs = s'.docs
  file : s.trail.file = s'.trail.file

theorem resolve_releveled {env env' : Environment} {name : String} {f f' : SettingsFile}
    (henv : Environment.SameBut name env env') (hhome : name ≠ "HOME") (h : f.Releveled f')
    (hentries : ∀ e ∈ f.entries, ¬ Template.RefersTo e name) (root source : Path) :
    Agree Eq Releveled (resolve env root source f) (resolve env' root source f') := by
  rw [resolve_sameFor fun e he => henv.sameFor (hentries e he) hhome]
  unfold resolve
  rw [h.version, h.stem, h.headers, h.docs, h.file]
  split
  · exact .error rfl
  · split
    · exact .error rfl
    · refine Agree.bind_self _ fun headers => ?_
      refine Agree.bind_self _ fun docs => ?_
      refine Agree.bind_self _ fun file => ?_
      exact .ok ⟨rfl, rfl, rfl, rfl, rfl, rfl⟩

end Settings

/-! ## Loading -/

/-- The same tree, or one whose config file has other levels. -/
inductive FileTree.Releveled (file : Path) (t : FileTree) : FileTree → Prop
  | same : Releveled file t t
  | edited {text text' : String} {es es' : Entries} (hread : t.read file = .ok text)
      (hes : Toml.Document.read text = some es) (hes' : Toml.Document.read text' = some es')
      (h : es.Releveled es') : Releveled file t (t.write file text')

namespace FileTree.Releveled

variable {file : Path} {t t' : FileTree}

theorem alikeBut (h : Releveled file t t') {place : Place} {b : ByteArray}
    (hfind : t.find file = .ok (place, .file b)) : AlikeBut place t t' := by
  cases h with
  | same => exact .refl place t
  | edited => exact alikeBut_write hfind _

theorem has_eq (h : Releveled file t t') : t.has file = t'.has file := by
  cases h with
  | same => rfl
  | @edited text text' _ _ hread =>
    rw [has_of_read_eq_ok hread, has_of_read_eq_ok (read_write_self hread text')]

/-- What is read as the config file says the same but for the levels. -/
theorem read_agree (h : Releveled file t t') :
    Agree Eq (fun text text' => Option.Rel SettingsFile.Releveled (SettingsFile.read text)
      (SettingsFile.read text')) (t.read file) (t'.read file) := by
  cases h with
  | same =>
    exact .refl (fun text => rel_refl SettingsFile.Releveled.refl (SettingsFile.read text)) _
  | @edited text text' es es' hread hes hes' hlevels =>
    rw [hread, read_write_self hread]
    refine .ok ?_
    unfold SettingsFile.read
    rw [hes, hes']
    exact SettingsFile.ofEntries_releveled hlevels

end FileTree.Releveled

/-- With other levels in the config file, and another value of a variable that no entry refers to,
the same error is met or the same settings are loaded but for the levels. -/
theorem Settings.load_releveled {t t' : FileTree} {env env' : Environment} {name : String}
    {config : Option Path} {root : Path} (henv : Environment.SameBut name env env')
    (hhome : name ≠ "HOME") (htree : t.Releveled (config.getD (root.join ⟨fileName⟩)) t')
    (hentries : ∀ text f, t.read (config.getD (root.join ⟨fileName⟩)) = .ok text →
      SettingsFile.read text = some f → ∀ e ∈ f.entries, ¬ Template.RefersTo e name) :
    Agree Eq Settings.Releveled (load t env config root) (load t' env' config root) := by
  rw [load_eq, load_eq, ← FileTree.Releveled.has_eq htree]
  split
  · have hread := FileTree.Releveled.read_agree htree
    unfold readFile
    generalize t.read _ = r at hread hentries ⊢
    generalize t'.read _ = r' at hread ⊢
    cases hread with
    | error h => exact .error (by rw [h])
    | @ok text text' h =>
      have hrefers := hentries text
      simp only
      generalize SettingsFile.read text = o at h hrefers ⊢
      generalize SettingsFile.read text' = o' at h ⊢
      cases h with
      | none => exact .error rfl
      | @some f f' hf => exact resolve_releveled henv hhome hf (hrefers f rfl rfl) root _
  · cases config with
    | none => exact .ok ⟨rfl, rfl, rfl, rfl, rfl, rfl⟩
    | some file => exact .error rfl

end DocCoverage
