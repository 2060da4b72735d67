import DocCoverage.Proofs.CommandLine.Ending
import DocCoverage.Proofs.FileTree.Growth

/-!
# What a run leaves alone

A run changes nothing but the file of its trail, and to get there it may create directories around
that file.  All else stands as before, wherever the run ends: a run without a trail file leaves the
tree as it is, and one that cannot open its file ends there, with directories at most to show for it.

    openTrail t file   = error  →  the tree has grown by directories around the file
                       = ok     →  there is also an empty file, and the path leads to it
                                                                             (openTrail_cases)
    the check may fail or not   →  the file gets the trail, nothing else changes    (run_frame)
    no trail file               →  the tree is the same                             (run_frame)
-/

namespace DocCoverage

open FileTree

namespace Run

/-- The run is asked for a check, and these are its settings. -/
def Loads (t : FileTree) (env : Environment) (args : List String) (s : Settings) : Prop :=
  ∃ root config, Arguments.read args = .ok (.check root config) ∧
    Settings.load t env config root = .ok s

section

variable (w : Wording) {t t' : FileTree} (env : Environment) {args : List String} {s : Settings}
  {file : Path} (refuses : Stream → Option Fault)

variable {env} in
theorem run_eq_withTrail (h : Loads t env args s) :
    run w t env args refuses = withTrail w t env s refuses := by
  obtain ⟨root, config, hargs, hload⟩ := h
  simp only [run, hargs, hload]

/-- The directories come first and stay in any case; the file is created where none of them is. -/
theorem openTrail_cases (t : FileTree) (file : Path) :
    ∃ t', Grows (· ∈ file.parents) t t' ∧
      ((∃ causes, openTrail t file = (t', .error causes)) ∨
        ∃ q, IsFree t' q ∧
          openTrail t file = (t'.put q (.file .empty), .ok ()) ∧
          (t'.put q (.file .empty)).find file = .ok (q, .file .empty)) := by
  refine ⟨(t.createDirs file.parents).1, createDirs_grows fun _ h => h, ?_⟩
  unfold openTrail
  rcases t.createDirs file.parents with ⟨t', _ | fault⟩
  · simp only
    cases hfile : t'.createFile file with
    | error fault => exact .inl ⟨_, rfl⟩
    | ok t'' =>
      obtain ⟨q, hq, rfl, hfind⟩ := createFile_eq_ok hfile
      exact .inr ⟨q, hq, rfl, hfind⟩
  · exact .inl ⟨_, rfl⟩

theorem withTrail_of_no_file (h : s.trail.file = none) :
    (withTrail w t env s refuses).tree = t := by
  unfold withTrail
  simp only [h]

theorem withTrail_of_error (hfile : s.trail.file = some file) {causes : List String}
    (h : openTrail t file = (t', .error causes)) :
    withTrail w t env s refuses =
      ⟨1, "", taken (refuses .err) (unlines (notices env)), causes, t'⟩ := by
  unfold withTrail
  simp only [hfile, h]
  rfl

/-- After its file is opened, a run writes its trail there and changes nothing else. -/
theorem withTrail_of_ok (hfile : s.trail.file = some file) (h : openTrail t file = (t', .ok ())) :
    ∃ text, (withTrail w t env s refuses).tree = t'.write file text := by
  unfold withTrail
  simp only [hfile, h]
  exact ⟨_, rfl⟩

end

end Run

open Run

/-- The frame of a run.  If a trail file is configured, the tree in which the run ends differs from
the first one at most in that file and in new directories around it, and the file is there if it
could be opened.  If it could not, the run ends with a chain of causes before any source is read,
whichever they are, and all that stood in the tree is unchanged.  A run without settings, or with
settings that name no trail file, leaves the tree as it is. -/
theorem run_frame (w : Wording) (t : FileTree) (env : Environment) (args : List String)
    (refuses : Stream → Option Fault) :
    (∀ s file, Loads t env args s → s.trail.file = some file →
      DiffersAt file t (run w t env args refuses).tree ∧
      ((openTrail t file).2 = .ok () → ∃ q, (run w t env args refuses).tree.HasFileAt file q) ∧
      ∀ causes, (openTrail t file).2 = .error causes →
        causes ≠ [] ∧
        (∀ q node, t.node q = some node → (run w t env args refuses).tree.node q = some node) ∧
        run w t env args refuses =
          ⟨1, "", taken (refuses .err) (unlines (notices env)), causes, (openTrail t file).1⟩ ∧
        ∀ headers docs, withTrail w t env { s with headers := headers, docs := docs } refuses =
          run w t env args refuses) ∧
    ((∀ s, Loads t env args s → s.trail.file = none) →
      (run w t env args refuses).tree = t) := by
  refine ⟨fun s file hloads hfile => ?_, fun h => ?_⟩
  · rw [run_eq_withTrail w refuses hloads]
    obtain ⟨t', hgrows, ⟨causes, hopen⟩ | ⟨q, hq, hopen, hfind⟩⟩ := openTrail_cases t file
    · have hrun := withTrail_of_error w env refuses hfile hopen
      have hset : setUp t s = (t', .error causes) := by simp only [setUp, hfile, hopen]
      rw [hrun, hopen]
      refine ⟨hgrows.differsAt, nofun, ?_⟩
      rintro _ ⟨⟩
      refine ⟨causes_ne_nil_of_setUp hset, hgrows.kept, rfl, fun headers docs => ?_⟩
      refine withTrail_of_error w env refuses ?_ hopen
      exact hfile
    · obtain ⟨text, htree⟩ := withTrail_of_ok w env refuses hfile hopen
      have hwritten : (withTrail w t env s refuses).tree = t'.put q (.file text.toUTF8) := by
        rw [htree]
        unfold write
        simp only [hfind]
        exact put_put t' q _ _
      have hleads : (t'.put q (.file text.toUTF8)).find file = .ok (q, .file text.toUTF8) := by
        rw [← hwritten, htree]
        exact find_write hfind text
      rw [hwritten, hopen]
      exact ⟨hgrows.put_differsAt hq hleads, fun _ => ⟨q, _, node_put_self t' q _, hleads⟩, nofun⟩
  · cases hargs : Arguments.read args with
    | error e => simp only [run, hargs]
    | ok request =>
      cases request with
      | help => simp only [run, hargs]
      | version => simp only [run, hargs]
      | check root config =>
        cases hload : Settings.load t env config root with
        | error e => simp only [run, hargs, hload]
        | ok s =>
          have hloads : Loads t env args s := ⟨root, config, hargs, hload⟩
          rw [run_eq_withTrail w refuses hloads]
          exact withTrail_of_no_file w env refuses (h s hloads)

/-- A project whose trail file would stand below a header, on a way through a directory that is not
there yet. -/
def blockedTree : FileTree :=
  ((FileTree.bare ["w"]).plant ⟨"helper-docs.toml"⟩
    (.file "version = 1\n[logging]\nfile = \"log/../a.h/run.txt\"".toUTF8)).plant
    ⟨"a.h"⟩ (.file "__ternary_a(".toUTF8)

def blockedSettings : Settings :=
  { Settings.builtIn ⟨"."⟩ with
    source := some ⟨"./helper-docs.toml"⟩
    trail := ⟨"info", none, some ⟨"./log/../a.h/run.txt"⟩⟩ }

/-- The directory on the way is created, the header stays, and the run ends without a report; a run
that is asked for the version changes nothing. -/
theorem run_blockedTree :
    (run sampleWording blockedTree [] [] fun _ => none).exitCode = 1 ∧
    (run sampleWording blockedTree [] [] fun _ => none).causes =
      ["failed to create log directory ./log/../a.h", "File exists (os error 17)"] ∧
    (run sampleWording blockedTree [] [] fun _ => none).tree.node ["w", "log"] = some .directory ∧
    (run sampleWording blockedTree [] [] fun _ => none).tree.node ["w", "a.h"] =
      some (.file "__ternary_a(".toUTF8) ∧
    (run sampleWording blockedTree [] ["--version"] fun _ => none).tree = blockedTree := by
  have hloads : Loads blockedTree [] [] blockedSettings := by
    refine ⟨⟨"."⟩, none, rfl, ?_⟩
    decide +kernel
  have hopen : (openTrail blockedTree ⟨"./log/../a.h/run.txt"⟩).2 =
      .error ["failed to create log directory ./log/../a.h", "File exists (os error 17)"] := by
    decide +kernel
  obtain ⟨hfile, -⟩ := run_frame sampleWording blockedTree [] [] fun _ => none
  obtain ⟨-, -, hfails⟩ := hfile blockedSettings _ hloads rfl
  obtain ⟨-, hkept, hrun, -⟩ := hfails _ hopen
  obtain ⟨-, hversion⟩ := run_frame sampleWording blockedTree [] ["--version"] fun _ => none
  refine ⟨?_, ?_, ?_, hkept _ _ (by decide +kernel), hversion ?_⟩
  · rw [hrun]
  · rw [hrun]
  · rw [hrun]
    decide +kernel
  · rintro s ⟨root, config, ⟨⟩, -⟩

end DocCoverage
