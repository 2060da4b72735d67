import DocCoverage.Proofs.Agree
import DocCoverage.Proofs.Coverage.Texts
import DocCoverage.Proofs.FileTree.Subtree
import DocCoverage.Proofs.Settings.Resolution
import DocCoverage.Proofs.Settings.RootMark

/-!
# Checking a project from within

A project is checked under the path of its root, or from within its root.  As long as the sources it
lists are below the root and do not spell the root out, both ways come to the same: the root only
stands in front of every path, and paths below it find the same.

    a local entry e, under two roots   → root.join e and root'.join e        (resolveEntry_moved)
    settings, or the same error, but for the root                                    (load_moved)
    result and exit code; warnings and locations, but for the root             (ofReadings_moved)
-/

namespace DocCoverage

/-- The same error about another config file. -/
def LoadError.withFile (file : Path) : LoadError → LoadError
  | .missing _ => .missing file
  | .unreadable _ fault => .unreadable file fault
  | .malformed _ => .malformed file
  | e => e

/-- The same cause at another location. -/
def SourceError.withLocation (location : String) : SourceError → SourceError
  | .missing _ => .missing location
  | .unreadable _ reason => .unreadable location reason

namespace SourceError

theorem withLocation_ofFault (location location' : String) (fault : Fault) :
    (ofFault location' fault).withLocation location = ofFault location fault := by
  unfold ofFault
  split
  · rfl
  · rfl

theorem location_ofFault (location : String) (fault : Fault) :
    (ofFault location fault).location = location := by
  unfold ofFault
  split
  · rfl
  · rfl

end SourceError

theorem Source.content_file (t : FileTree) (p : Path) :
    (Source.file p).content t = (t.read p).mapError (.ofFault p.text) := by
  unfold content
  cases h : t.read p with
  | ok text => simp only [h, Except.mapError]
  | error fault => simp only [h, Except.mapError]

theorem forall₂_mem {α β : Type} {R : α → β → Prop} {l : List α} {l' : List β}
    (h : List.Forall₂ R l l') : List.Forall₂ (fun a b => (a ∈ l ∧ b ∈ l') ∧ R a b) l l' := by
  induction h with
  | nil => exact .nil
  | cons hab _ ih =>
    refine .cons ⟨⟨List.mem_cons_self, List.mem_cons_self⟩, hab⟩ (ih.imp fun a b hmem => ?_)
    exact ⟨⟨List.mem_cons_of_mem _ hmem.1.1, List.mem_cons_of_mem _ hmem.1.2⟩, hmem.2⟩

/-! ## Entries before they are taken from the root -/

namespace Settings

/-- A path below the root that does not spell the root out. -/
structure IsLocal (x : String) : Prop where
  below : Path.StaysBelow x
  no_mark : ¬ Template.rootMark <:+: x.toList

/-- An entry with its references filled in. -/
def expandEntry (env : Environment) (entry : String) : Except LoadError String :=
  match Template.expand env entry.toList with
  | .ok x => .ok (String.ofList x)
  | .error name => .error (.unsetVariable name entry)

/-- Whatever is listed is local once its references are filled in. -/
def AllLocal (env : Environment) (entries : List String) : Prop :=
  ∀ e ∈ entries, ∀ x, expandEntry env e = .ok x → IsLocal x

/-- Two paths are those of one entry, seen from two roots. -/
def SamePath (root root' p p' : Path) : Prop :=
  ∃ e, Path.StaysBelow e ∧ p = root.join ⟨e⟩ ∧ p' = root'.join ⟨e⟩

variable {env : Environment} {root root' : Path}

/-- The path that a text without references gives under a root. -/
def pathOf (root : Path) (x : String) : Path :=
  root.join ⟨String.ofList (Text.substitute Template.rootMark root.text.toList x.toList)⟩

theorem pathOf_of_isLocal {x : String} (h : IsLocal x) (root : Path) :
    pathOf root x = root.join ⟨x⟩ := by
  unfold pathOf
  rw [Text.substitute_of_not_infix h.no_mark, String.ofList_toList]

theorem resolveEntry_eq_map (env : Environment) (root : Path) (entry : String) :
    resolveEntry env root entry = (expandEntry env entry).map (pathOf root) := by
  unfold resolveEntry Template.resolve expandEntry
  cases Template.expand env entry.toList with
  | error name => rfl
  | ok x =>
    simp only [Except.map, pathOf, String.toList_ofList]
    rfl

/-- A local entry is taken from the root as it stands. -/
theorem resolveEntry_moved {entry : String} (h : ∀ x, expandEntry env entry = .ok x → IsLocal x)
    (root root' : Path) :
    Agree Eq (SamePath root root') (resolveEntry env root entry) (resolveEntry env root' entry) := by
  rw [resolveEntry_eq_map, resolveEntry_eq_map]
  cases hx : expandEntry env entry with
  | error e => exact .error rfl
  | ok x =>
    have hlocal := h x hx
    exact .ok ⟨x, hlocal.below, pathOf_of_isLocal hlocal root, pathOf_of_isLocal hlocal root'⟩

theorem isLocal_of_mem_builtIn {x : String} (hx : x ∈ defaultHeaders ++ defaultDocs) :
    IsLocal x := by
  have hall : ∀ x ∈ defaultHeaders ++ defaultDocs, (Path.mk x).isAbsolute = false ∧
      .up ∉ (Path.mk x).components ∧ ¬ Template.rootMark <:+: x.toList := by decide
  obtain ⟨hrelative, hup, hmark⟩ := hall x hx
  exact ⟨⟨hrelative, hup⟩, hmark⟩

theorem under_moved {builtIn : List String} (h : ∀ x ∈ builtIn, x ∈ defaultHeaders ++ defaultDocs)
    (root root' : Path) :
    List.Forall₂ (SamePath root root') (under root builtIn) (under root' builtIn) := by
  unfold under
  rw [List.forall₂_map_left_iff, List.forall₂_map_right_iff, List.forall₂_same]
  intro x hx
  exact ⟨x, (isLocal_of_mem_builtIn (h x hx)).below, rfl, rfl⟩

theorem resolveList_moved {entries : Option (List String)} {builtIn : List String}
    (hentries : AllLocal env (entries.getD []))
    (hbuiltIn : ∀ x ∈ builtIn, x ∈ defaultHeaders ++ defaultDocs) (root root' : Path) :
    Agree Eq (List.Forall₂ (SamePath root root')) (resolveList env root entries builtIn)
      (resolveList env root' entries builtIn) := by
  cases entries with
  | none => exact .ok (under_moved hbuiltIn root root')
  | some es => exact Agree.mapM fun e he => resolveEntry_moved (hentries e he) root root'

/-- The root has no say in whether the entry for the trail file can be resolved. -/
theorem resolveOption_agree (env : Environment) (root root' : Path) (entry : Option String) :
    Agree Eq (fun _ _ => True) (resolveOption env root entry) (resolveOption env root' entry) := by
  cases entry with
  | none => exact .ok trivial
  | some entry =>
    unfold resolveOption
    simp only [resolveEntry_eq_map]
    cases expandEntry env entry with
    | error e => exact .error rfl
    | ok x => exact .ok trivial

/-! ## Settings under two roots -/

/-- The same settings for a check, but for the root that paths are taken from. -/
structure Moved (root root' : Path) (s s' : Settings) : Prop where
  stem : s.stem = s'.stem
  headers : List.Forall₂ (SamePath root root') s.headers s'.headers
  docs : List.Forall₂ (SamePath root root') s.docs s'.docs

theorem builtIn_moved (root root' : Path) : Moved root root' (builtIn root) (builtIn root') :=
  ⟨rfl, under_moved (fun _ hx => List.mem_append_left _ hx) root root',
    under_moved (fun _ hx => List.mem_append_right _ hx) root root'⟩

theorem resolve_moved {f : SettingsFile}
    (hlocal : AllLocal env (f.headers.getD [] ++ f.docs.getD [])) (root root' source source' : Path) :
    Agree Eq (Moved root root') (resolve env root source f) (resolve env root' source' f) := by
  by_cases hversion : f.version = 1
  · by_cases hstem : f.stem = some ""
    · rw [resolve_of_stem hversion hstem, resolve_of_stem hversion hstem]
      exact .error rfl
    · rw [resolve_of_accepted hversion hstem, resolve_of_accepted hversion hstem]
      refine (resolveList_moved (fun e he => hlocal e (List.mem_append_left _ he))
        (fun x hx => List.mem_append_left _ hx) root root').bind fun hs hs' hheaders => ?_
      refine (resolveList_moved (fun e he => hlocal e (List.mem_append_right _ he))
        (fun x hx => List.mem_append_right _ hx) root root').bind fun ds ds' hdocs => ?_
      refine (resolveOption_agree env root root' f.trail.file).bind fun _ _ _ => ?_
      exact .ok ⟨rfl, hheaders, hdocs⟩
  · rw [resolve_of_version hversion, resolve_of_version hversion]
    exact .error rfl

/-- What is wrong with the contents of a config file does not name the file. -/
theorem withFile_of_resolve {f : SettingsFile} {source : Path} {e : LoadError}
    (h : resolve env root source f = .error e) (file : Path) : e.withFile file = e := by
  by_cases hversion : f.version = 1
  · by_cases hstem : f.stem = some ""
    · rw [resolve_of_stem hversion hstem] at h
      cases h
      rfl
    · obtain ⟨name, entry, rfl, -⟩ := (resolve_eq_error_iff hversion hstem).mp h
      rfl
  · rw [resolve_of_version hversion] at h
    cases h
    rfl

/-! ## Loading -/

section

variable {t t' : FileTree} {dir dir' : Place}
  (hroot : t.find root = .ok (dir, .directory)) (hroot' : t'.find root' = .ok (dir', .directory))
  (hsame : FileTree.SameBelow t dir t' dir')
include hroot hroot' hsame

/-- The same config file is found under both roots, and the same is wrong with it. -/
theorem load_moved (hfile : FileTree.Fits (root.join ⟨fileName⟩))
    (hfile' : FileTree.Fits (root'.join ⟨fileName⟩))
    (hlocal : ∀ text f, t.read (root.join ⟨fileName⟩) = .ok text →
      SettingsFile.read text = some f → AllLocal env (f.headers.getD [] ++ f.docs.getD [])) :
    Agree (fun e e' => e = e'.withFile (root.join ⟨fileName⟩)) (Moved root root')
      (load t env none root) (load t' env none root') := by
  have hname : Path.StaysBelow fileName := ⟨by decide, by decide⟩
  obtain ⟨hread, hhas⟩ := FileTree.read_join hroot hroot' hsame hname hfile hfile'
  unfold load readFile
  simp only
  rw [← hread, ← hhas]
  split
  · cases htext : t.read (root.join ⟨fileName⟩) with
    | error fault => exact .error rfl
    | ok text =>
      simp only
      cases hf : SettingsFile.read text with
      | none => exact .error rfl
      | some f =>
        have hagree := resolve_moved (hlocal text f htext hf) root root' (root.join ⟨fileName⟩)
          (root'.join ⟨fileName⟩)
        simp only
        generalize resolve env root _ f = r at hagree ⊢
        generalize hr' : resolve env root' _ f = r' at hagree ⊢
        cases hagree with
        | error h =>
          subst h
          exact .error (withFile_of_resolve hr' _).symm
        | ok h => exact .ok h
  · exact .ok (builtIn_moved root root')

end

/-! ## Checking -/

/-- Two locations are those of one entry, seen from two roots. -/
def SameEntry (root root' : Path) (l l' : String) : Prop :=
  ∃ e, Path.StaysBelow e ∧ l = (root.join ⟨e⟩).text ∧ l' = (root'.join ⟨e⟩).text

/-- The same end of a check, but for the root in front of locations. -/
structure SameEnd (root root' : Path) (o o' : Outcome) : Prop where
  result : o.result = o'.result
  exitCode : o.exitCode = o'.exitCode
  warnings : List.Forall₂ (fun w w' => SameEntry root root' w.location w'.location ∧
    w = w'.withLocation w.location) o.warnings o'.warnings
  documentation : List.Forall₂ (SameEntry root root') o.documentation o'.documentation

/-- The same content or fault was read at the two locations of one entry. -/
structure SameReading (root root' : Path) (r r' : Reading) : Prop where
  location : SameEntry root root' r.location r'.location
  content : ∃ content : Except Fault String, r.content = content.mapError (.ofFault r.location) ∧
    r'.content = content.mapError (.ofFault r'.location)

namespace SameReading

variable {r r' : Reading} (h : SameReading root root' r r')
include h

theorem text?_eq : r.text? = r'.text? := by
  obtain ⟨content, hr, hr'⟩ := h.content
  unfold Reading.text?
  rw [hr, hr']
  cases content with
  | error fault => rfl
  | ok text => rfl

theorem error?_rel : Option.Rel (fun w w' => SameEntry root root' w.location w'.location ∧
    w = w'.withLocation w.location) r.error? r'.error? := by
  obtain ⟨content, hr, hr'⟩ := h.content
  unfold Reading.error?
  rw [hr, hr']
  cases content with
  | ok text => exact .none
  | error fault =>
    refine .some ⟨?_, ?_⟩
    · rw [SourceError.location_ofFault, SourceError.location_ofFault]
      exact h.location
    · rw [SourceError.location_ofFault, SourceError.withLocation_ofFault]

end SameReading

/-- Readings of the same entries lead to the same end. -/
theorem ofReadings_moved (m : Matcher) {hs hs' ds ds' : List Reading}
    (hheaders : List.Forall₂ (SameReading root root') hs hs')
    (hdocs : List.Forall₂ (SameReading root root') ds ds') :
    SameEnd root root' (.ofReadings m hs ds) (.ofReadings m hs' ds') := by
  have htexts : ∀ {rs rs'}, List.Forall₂ (SameReading root root') rs rs' →
      rs.filterMap Reading.text? = rs'.filterMap Reading.text? := by
    intro rs rs' h
    have hrel : List.Forall₂ Eq (rs.filterMap Reading.text?) (rs'.filterMap Reading.text?) := by
      refine List.rel_filterMap (fun r r' hr => ?_) h
      rw [hr.text?_eq]
      exact rel_refl (fun _ => rfl) _
    rwa [List.forall₂_eq_eq_eq] at hrel
  have hresult : (Outcome.ofReadings m hs ds).result = (Outcome.ofReadings m hs' ds').result := by
    show Coverage.ofHarvests _ _ = Coverage.ofHarvests _ _
    apply Coverage.ofHarvests_congr
    · simp only [Harvest.ofReadings, htexts hheaders]
    · simp only [Harvest.ofReadings, htexts hdocs]
    · simp only [Harvest.ofReadings, htexts hdocs]
  refine ⟨hresult, Outcome.exitCode_congr hresult, ?_, ?_⟩
  · exact List.rel_filterMap (fun r r' h => h.error?_rel) hheaders
  · exact List.rel_map (fun r r' h => h.location) hdocs

section
variable {t t' : FileTree}

theorem sameReading_file {p p' : Path} (h : SamePath root root' p p') (hread : t.read p = t'.read p') :
    SameReading root root' ((Source.file p).read t) ((Source.file p').read t') := by
  have hcontent : ((Source.file p).read t).content = (t.read p).mapError (.ofFault p.text) :=
    Source.content_file t p
  have hcontent' : ((Source.file p').read t').content = (t'.read p').mapError (.ofFault p'.text) :=
    Source.content_file t' p'
  obtain ⟨e, he, hp, hp'⟩ := h
  refine ⟨⟨e, he, congrArg Path.text hp, congrArg Path.text hp'⟩, t.read p, hcontent, ?_⟩
  rw [hcontent', hread]
  rfl

/-- Files that are read alike under two roots give the same readings. -/
theorem readings_moved {ps ps' : List Path}
    (h : List.Forall₂ (fun p p' => SamePath root root' p p' ∧ t.read p = t'.read p') ps ps') :
    List.Forall₂ (SameReading root root') ((ps.map Source.file).map (·.read t))
      ((ps'.map Source.file).map (·.read t')) := by
  rw [List.map_map, List.map_map, List.forall₂_map_left_iff, List.forall₂_map_right_iff]
  exact h.imp fun p p' hp => sameReading_file hp.1 hp.2

end

/-- Whatever stands elsewhere, a project is loaded and checked under the path of its root as from
within its root: with the same error, or with the same result and exit code and, but for the root in
front of locations, the same warnings and documents.  Its root may be any path to a directory. -/
theorem load_run_moved {t t' : FileTree} {root : Path} {dir : Place} (env : Environment)
    (hroot : t.find root = .ok (dir, .directory))
    (hsame : FileTree.SameBelow t dir t' t'.workingDir)
    (hlocal : ∀ text f, t.read (root.join ⟨fileName⟩) = .ok text →
      SettingsFile.read text = some f → AllLocal env (f.headers.getD [] ++ f.docs.getD []))
    (hfile : FileTree.Fits (root.join ⟨fileName⟩))
    (hfits : ∀ s, load t env none root = .ok s → ∀ p ∈ s.headers ++ s.docs, FileTree.Fits p)
    (hfits' : ∀ s, load t' env none ⟨"."⟩ = .ok s → ∀ p ∈ s.headers ++ s.docs, FileTree.Fits p) :
    Agree (fun e e' => e = e'.withFile (root.join ⟨fileName⟩))
      (fun s s' =>
        Agree Eq (fun c c' => SameEnd root ⟨"."⟩ (c.run t) (c'.run t')) s.checker s'.checker)
      (load t env none root) (load t' env none ⟨"."⟩) := by
  have hroot' := t'.find_here
  have hmoved := load_moved hroot hroot' hsame hfile (by decide) hlocal
  generalize load t env none root = r at hmoved hfits ⊢
  generalize load t' env none ⟨"."⟩ = r' at hmoved hfits' ⊢
  cases hmoved with
  | error h => exact .error h
  | @ok s s' h =>
    have hread : ∀ ps ps', (∀ p ∈ ps, p ∈ s.headers ++ s.docs) →
        (∀ p ∈ ps', p ∈ s'.headers ++ s'.docs) → List.Forall₂ (SamePath root ⟨"."⟩) ps ps' →
        List.Forall₂ (fun p p' => SamePath root ⟨"."⟩ p p' ∧ t.read p = t'.read p') ps ps' := by
      intro ps ps' hps hps' hsame'
      refine (forall₂_mem hsame').imp fun p p' hp => ?_
      obtain ⟨⟨hmem, hmem'⟩, e, he, rfl, rfl⟩ := hp
      exact ⟨⟨e, he, rfl, rfl⟩, (FileTree.read_join hroot hroot' hsame he
        (hfits s rfl _ (hps _ hmem)) (hfits' s' rfl _ (hps' _ hmem'))).1⟩
    have hheaders := hread _ _ (fun p hp => List.mem_append_left _ hp)
      (fun p hp => List.mem_append_left _ hp) h.headers
    have hdocs := hread _ _ (fun p hp => List.mem_append_right _ hp)
      (fun p hp => List.mem_append_right _ hp) h.docs
    refine .ok ?_
    rw [checker_eq_map, checker_eq_map, h.stem]
    cases Matcher.ofPrefix s'.stem with
    | error refusal => exact .error rfl
    | ok m => exact .ok (ofReadings_moved m (readings_moved hheaders) (readings_moved hdocs))

/-- A config file that names a header by a variable, and another header that does not exist. -/
def guestConfig : String :=
  "version = 1\nheader_sources = [\"$DIR/a.h\", \"gone.h\"]\ndoc_sources = [\"./d.md\"]"

/-- A tree with a project in the directory `guest` of its working directory. -/
def guestTree : FileTree :=
  (((FileTree.bare ["w"]).plant ⟨"guest/helper-docs.toml"⟩ (.file guestConfig.toUTF8)).plant
    ⟨"guest/inc/a.h"⟩ (.file "__ternary_a(".toUTF8)).plant ⟨"guest/d.md"⟩ (.file "none".toUTF8)

/-- The project alone. -/
def guestAlone : FileTree :=
  ⟨fun q => guestTree.node (["w", "guest"] ++ q), []⟩

def guestSettings (root : Path) : Settings :=
  ⟨root, some (root.join ⟨fileName⟩), defaultStem, under root ["inc/a.h", "gone.h"],
    under root ["./d.md"], ⟨"info", none, none⟩⟩

def guestChecker (root : Path) : Checker :=
  (guestSettings root).checkerOf ⟨defaultStem.toList, by decide⟩

/-- The project ends in the same way in its directory and alone. -/
theorem load_run_guest :
    load guestTree [("DIR", "inc")] none ⟨"guest"⟩ = .ok (guestSettings ⟨"guest"⟩) ∧
    load guestAlone [("DIR", "inc")] none ⟨"."⟩ = .ok (guestSettings ⟨"."⟩) ∧
    SameEnd ⟨"guest"⟩ ⟨"."⟩ ((guestChecker ⟨"guest"⟩).run guestTree)
      ((guestChecker ⟨"."⟩).run guestAlone) := by
  have hload : load guestTree [("DIR", "inc")] none ⟨"guest"⟩ = .ok (guestSettings ⟨"guest"⟩) := by
    decide +kernel
  have hload' : load guestAlone [("DIR", "inc")] none ⟨"."⟩ = .ok (guestSettings ⟨"."⟩) := by
    decide +kernel
  have hlocal : ∀ text f, guestTree.read (Path.join ⟨"guest"⟩ ⟨fileName⟩) = .ok text →
      SettingsFile.read text = some f →
      AllLocal [("DIR", "inc")] (f.headers.getD [] ++ f.docs.getD []) := by
    intro text f htext hf
    have hread : guestTree.read (Path.join ⟨"guest"⟩ ⟨fileName⟩) = .ok guestConfig := by
      decide +kernel
    have hcontents : SettingsFile.read guestConfig = some ⟨1, none, some ["$DIR/a.h", "gone.h"],
        some ["./d.md"], ⟨"info", none, none⟩⟩ := by
      decide +kernel
    obtain rfl := Except.ok.inj (hread.symm.trans htext)
    obtain rfl := Option.some.inj (hcontents.symm.trans hf)
    have hexpand : ∀ e ∈ ["$DIR/a.h", "gone.h", "./d.md"],
        expandEntry [("DIR", "inc")] e ∈ ["inc/a.h", "gone.h", "./d.md"].map Except.ok := by
      decide +kernel
    intro e he x hx
    have hmem := hexpand e he
    rw [hx] at hmem
    obtain ⟨x', hx', hok⟩ := List.mem_map.mp hmem
    obtain rfl := Except.ok.inj hok
    have hall : ∀ x ∈ ["inc/a.h", "gone.h", "./d.md"], (Path.mk x).isAbsolute = false ∧
        .up ∉ (Path.mk x).components ∧ ¬ Template.rootMark <:+: x.toList := by decide
    obtain ⟨hrelative, hup, hmark⟩ := hall x' hx'
    exact ⟨⟨hrelative, hup⟩, hmark⟩
  have hroot : guestTree.find ⟨"guest"⟩ = .ok (["w", "guest"], .directory) := by decide +kernel
  have hsame : FileTree.SameBelow guestTree ["w", "guest"] guestAlone guestAlone.workingDir :=
    fun q => rfl
  have h := load_run_moved [("DIR", "inc")] hroot hsame hlocal (by decide)
    (by rw [hload]; rintro s ⟨⟩; decide) (by rw [hload']; rintro s ⟨⟩; decide)
  rw [hload, hload'] at h
  rcases h with _ | h
  have hmatcher : Matcher.ofPrefix defaultStem = .ok ⟨defaultStem.toList, by decide⟩ := by decide
  have hchecker : ∀ root, (guestSettings root).checker = .ok (guestChecker root) := by
    intro root
    rw [checker_eq_map]
    show (Matcher.ofPrefix defaultStem).map _ = _
    rw [hmatcher]
    rfl
  rw [hchecker, hchecker] at h
  rcases h with _ | h
  exact ⟨hload, hload', h⟩

end Settings

end DocCoverage
