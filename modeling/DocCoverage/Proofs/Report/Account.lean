import DocCoverage.Proofs.Report.Delivery
import DocCoverage.Proofs.Text.LineEnd
import Mathlib.Data.List.Forall2

/-!
# What a report tells

A report can be read back from the error stream.  The warnings come first, one a line, and no line
that says how the check ended starts as they do.  Under the heading for missing symbols stand the
bullets, up to the first empty line; the hint after it may hold anything, line feeds included.  So
reports of different outcomes differ, as long as what they show on a line holds no line feed.

    Account.read (the error stream of a report)  =  what the outcome tells            (read_report)
    the same streams  →  the same result, and warnings that tell the same    (outcome_of_same_report)
-/

namespace DocCoverage

/-- What a warning shows holds no line feed. -/
def SourceError.IsPlain : SourceError → Prop
  | .missing location => '\n' ∉ location.toList
  | .unreadable location reason => '\n' ∉ location.toList ∧ '\n' ∉ reason.toList

instance : (e : SourceError) → Decidable e.IsPlain
  | .missing location => inferInstanceAs (Decidable ('\n' ∉ location.toList))
  | .unreadable location reason =>
    inferInstanceAs (Decidable ('\n' ∉ location.toList ∧ '\n' ∉ reason.toList))

/-- What the report of an outcome shows on one line holds no line feed. -/
structure Outcome.IsPlain (o : Outcome) : Prop where
  warnings : ∀ e ∈ o.warnings, e.IsPlain
  missing : ∀ names, o.result = .error (.undocumented names) → ∀ name ∈ names, '\n' ∉ name.toList

namespace Report

/-! ## Reading a report -/

/-- What a warning tells. -/
inductive Notice where
  | missing (location : String)
  /-- The location and the reason, as they stand one after the other. -/
  | unreadable (what : String)
  deriving DecidableEq, Repr

def Notice.ofError : SourceError → Notice
  | .missing location => .missing location
  | .unreadable location reason => .unreadable (location ++ ": " ++ reason)

/-- What a report tells. -/
structure Account where
  warnings : List Notice
  result : Except Shortfall Unit

def Account.ofOutcome (o : Outcome) : Account :=
  ⟨o.warnings.map .ofError, o.result.map fun _ => ()⟩

def missingLead : List Char := "warning: skipping missing header ".toList

def unreadableLead : List Char := "warning: skipping unreadable header ".toList

def heading : List Char := "documentation is missing the following helper symbols:".toList

/-- The line for a check that ends without a comparison. -/
def errorLine (shortfall : Shortfall) : List Char := ("error: " ++ shortfall.message).toList

/-- Reads a line as a warning. -/
def Notice.read? (line : List Char) : Option Notice :=
  match missingLead.isPrefixOf? line, unreadableLead.isPrefixOf? line with
  | some location, _ => some (.missing (String.ofList location))
  | none, some what => some (.unreadable (String.ofList what))
  | none, none => none

/-- Whether a line is a warning. -/
def isNotice (line : List Char) : Bool :=
  (Notice.read? line).isSome

/-- Reads how a check ended from the lines after the warnings. -/
def readResult : List (List Char) → Except Shortfall Unit
  | [] => .ok ()
  | line :: rest =>
    if line = errorLine .noSymbols then .error .noSymbols
    else if line = errorLine .noDocumentation then .error .noDocumentation
    else if line = heading then
      .error (.undocumented ((rest.takeWhile (!·.isEmpty)).map fun l => String.ofList (l.drop 4)))
    else .ok ()

/-- Reads a report from the text on the error stream. -/
def Account.read (err : String) : Account :=
  let lines := err.toList.splitOn '\n'
  ⟨(lines.takeWhile isNotice).filterMap Notice.read?, readResult (lines.dropWhile isNotice)⟩

/-! ## Its lines -/

theorem isPrefixOf?_append (p s : List Char) : p.isPrefixOf? (p ++ s) = some s := by
  rw [List.isPrefixOf?_eq_some_iff_append_eq]

/-- What differs from a text within its first characters does not go on with it. -/
theorem isPrefixOf?_eq_none {p q : List Char} (n : Nat) (hp : n ≤ p.length) (hq : n ≤ q.length)
    (hne : p.take n ≠ q.take n) (s : List Char) : p.isPrefixOf? (q ++ s) = none := by
  cases h : p.isPrefixOf? (q ++ s) with
  | none => rfl
  | some rest =>
    rw [List.isPrefixOf?_eq_some_iff_append_eq] at h
    have htake := congrArg (List.take n) h
    rw [List.take_append_of_le_length hp, List.take_append_of_le_length hq] at htake
    exact absurd htake hne

theorem toList_warning_missing (location : String) :
    (warning (.missing location)).toList = missingLead ++ location.toList :=
  String.toList_append (s := "warning: skipping missing header ")

theorem toList_warning_unreadable (location reason : String) :
    (warning (.unreadable location reason)).toList =
      unreadableLead ++ (location ++ ": " ++ reason).toList := by
  show ("warning: skipping unreadable header " ++ location ++ ": " ++ reason).toList = _
  rw [String.append_assoc, String.append_assoc, String.toList_append, ← String.append_assoc]
  rfl

/-- Each warning is read as what it tells. -/
theorem read?_warning (e : SourceError) :
    Notice.read? (warning e).toList = some (.ofError e) := by
  cases e with
  | missing location =>
    rw [toList_warning_missing, Notice.read?, isPrefixOf?_append]
    simp only [String.ofList_toList, Notice.ofError]
  | unreadable location reason =>
    have hother := isPrefixOf?_eq_none (p := missingLead) (q := unreadableLead) 19
      (by decide +kernel) (by decide +kernel) (by decide +kernel)
    rw [toList_warning_unreadable, Notice.read?, hother, isPrefixOf?_append]
    simp only [String.ofList_toList, Notice.ofError]

theorem newline_not_mem_warning {e : SourceError} (h : e.IsPlain) : '\n' ∉ (warning e).toList := by
  cases e with
  | missing location =>
    rw [toList_warning_missing, List.mem_append, not_or]
    exact ⟨by decide +kernel, h⟩
  | unreadable location reason =>
    simp only [toList_warning_unreadable, String.toList_append, List.mem_append, not_or]
    exact ⟨by decide +kernel, ⟨h.1, by decide⟩, h.2⟩

theorem toList_text_err (ls : List String) :
    (text .err (ls.map fun l => (.err, l))).toList = Text.endLines (ls.map String.toList) := by
  rw [text, String.toList_join]
  induction ls with
  | nil => rfl
  | cons l ls ih =>
    simp only [List.map_cons, List.flatMap_cons, List.flatMap_append, if_true, ih, Text.endLines,
      List.flatMap_nil, List.append_nil]
    rfl

/-- A line that starts no warning. -/
theorem read?_eq_none : ∀ l ∈ [[], errorLine .noSymbols, errorLine .noDocumentation, heading],
    Notice.read? l = none := by
  decide +kernel

/-! ## Reading back -/

/-- The bullets end at the empty line, whatever the hint holds. -/
theorem readResult_heading (missing : List String) (rest : List (List Char)) :
    readResult (heading :: (missing.map fun name => (bullet name).toList) ++ [] :: rest) =
      .error (.undocumented missing) := by
  have hother : heading ≠ errorLine .noSymbols ∧ heading ≠ errorLine .noDocumentation := by
    decide +kernel
  have hbullet : ∀ name : String, (bullet name).toList = ' ' :: ' ' :: '-' :: ' ' :: name.toList :=
    fun name => String.toList_append (s := "  - ")
  have htake : ((missing.map fun name => (bullet name).toList) ++ [] :: rest).takeWhile
      (!·.isEmpty) = missing.map fun name => (bullet name).toList := by
    rw [List.takeWhile_append_of_pos]
    · exact List.append_nil _
    · intro l hl
      obtain ⟨name, -, rfl⟩ := List.mem_map.mp hl
      rw [hbullet]
      rfl
  have hback : (missing.map fun name => (bullet name).toList).map
      (fun l => String.ofList (l.drop 4)) = missing := by
    rw [List.map_map]
    refine (List.map_congr_left fun name _ => ?_).trans (List.map_id missing)
    show String.ofList ((bullet name).toList.drop 4) = name
    rw [hbullet]
    exact String.ofList_toList
  rw [List.cons_append, readResult, if_neg hother.1, if_neg hother.2, if_pos rfl, htake, hback]

/-- The lines that say how a check ended start no warning and are read as its result. -/
theorem readResult_verdict (documentation : List String) {r : Except Shortfall Coverage}
    (h : ∀ names, r = .error (.undocumented names) → ∀ name ∈ names, '\n' ∉ name.toList) :
    ∃ l ls, (text .err (verdict documentation r)).toList.splitOn '\n' = l :: ls ∧
      Notice.read? l = none ∧ readResult (l :: ls) = r.map fun _ => () := by
  have hline : ∀ shortfall, '\n' ∉ errorLine shortfall →
      (text .err [(.err, "error: " ++ shortfall.message)]).toList.splitOn '\n' =
        [errorLine shortfall, []] := by
    intro shortfall hplain
    have htext := toList_text_err ["error: " ++ shortfall.message]
    rw [List.map_singleton] at htext
    rw [htext]
    exact Text.splitOn_endLines_self (List.forall_mem_singleton.mpr hplain)
  match r with
  | .ok found => exact ⟨[], [], rfl, read?_eq_none _ (by simp), rfl⟩
  | .error .noSymbols =>
    refine ⟨_, _, hline .noSymbols (by decide +kernel), read?_eq_none _ (by simp), ?_⟩
    rw [readResult, if_pos rfl]
    rfl
  | .error .noDocumentation =>
    refine ⟨_, _, hline .noDocumentation (by decide +kernel), read?_eq_none _ (by simp), ?_⟩
    rw [readResult, if_neg (by decide +kernel), if_pos rfl]
    rfl
  | .error (.undocumented missing) =>
    have htext : (text .err (verdict documentation (.error (.undocumented missing)))).toList =
        Text.endLines (heading :: (missing.map fun name => (bullet name).toList) ++ [[]]) ++
          Text.endLines [(hint documentation).toList] := by
      have hlines := toList_text_err
        (["documentation is missing the following helper symbols:"] ++ missing.map bullet ++
          ["", hint documentation])
      rw [← Text.endLines_append]
      refine hlines.trans (congrArg Text.endLines ?_)
      simp only [List.map_append, List.map_map, List.append_assoc]
      rfl
    have hplain : ∀ l ∈ heading :: (missing.map fun name => (bullet name).toList) ++ [[]],
        '\n' ∉ l := by
      simp only [List.cons_append, List.mem_cons, List.mem_append, List.mem_map, List.not_mem_nil,
        or_false]
      rintro l (rfl | ⟨name, hname, rfl⟩ | rfl)
      · decide +kernel
      · rw [bullet, String.toList_append, List.mem_append, not_or]
        exact ⟨by decide, h missing rfl name hname⟩
      · exact List.not_mem_nil
    refine ⟨heading, _, ?_, read?_eq_none _ (by simp), readResult_heading missing
      ((Text.endLines [(hint documentation).toList]).splitOn '\n')⟩
    rw [htext, Text.splitOn_endLines hplain, List.append_assoc]
    rfl

/-- A report tells what its outcome does. -/
theorem read_report {o : Outcome} (h : o.IsPlain) :
    Account.read (text .err (lines o)) = .ofOutcome o := by
  obtain ⟨l, ls, hverdict, hl, hresult⟩ := readResult_verdict o.documentation h.missing
  have hlines : (text .err (lines o)).toList.splitOn '\n' =
      (o.warnings.map fun e => (warning e).toList) ++ l :: ls := by
    have hwarnings : (text .err (o.warnings.map fun e => (.err, warning e))).toList =
        Text.endLines (o.warnings.map fun e => (warning e).toList) := by
      simpa only [List.map_map, Function.comp_def] using toList_text_err (o.warnings.map warning)
    rw [lines, text_append, String.toList_append, hwarnings, Text.splitOn_endLines, hverdict]
    intro line hline
    obtain ⟨e, he, rfl⟩ := List.mem_map.mp hline
    exact newline_not_mem_warning (h.warnings e he)
  have hnotices : ∀ line ∈ o.warnings.map fun e => (warning e).toList, isNotice line = true := by
    intro line hline
    obtain ⟨e, -, rfl⟩ := List.mem_map.mp hline
    rw [isNotice, read?_warning]
    rfl
  have hstop : ¬ isNotice l = true := by
    rw [isNotice, hl]
    exact Bool.false_ne_true
  have hread : (o.warnings.map fun e => (warning e).toList).filterMap Notice.read? =
      o.warnings.map .ofError := by
    simp only [List.filterMap_map, Function.comp_def, read?_warning, List.filterMap_eq_map']
  simp only [Account.read, Account.ofOutcome, hlines, List.takeWhile_append_of_pos hnotices,
    List.dropWhile_append_of_pos hnotices, List.takeWhile_cons_of_neg hstop,
    List.dropWhile_cons_of_neg hstop, List.append_nil, hread, hresult]

/-! ## Reports of two outcomes -/

/-- Warnings that tell the same: both are about a missing header at the same location, or both about
an unreadable one, with the same location and reason one after the other. -/
inductive TellsSame : SourceError → SourceError → Prop
  | missing (location : String) : TellsSame (.missing location) (.missing location)
  | unreadable {location reason location' reason' : String}
      (h : location ++ ": " ++ reason = location' ++ ": " ++ reason') :
      TellsSame (.unreadable location reason) (.unreadable location' reason')

theorem tellsSame_of_ofError {e e' : SourceError} (h : Notice.ofError e = .ofError e') :
    TellsSame e e' := by
  cases e with
  | missing location =>
    cases e' with
    | missing location' =>
      obtain rfl := Notice.missing.inj h
      exact .missing location
    | unreadable => cases h
  | unreadable =>
    cases e' with
    | missing => cases h
    | unreadable => exact .unreadable (Notice.unreadable.inj h)

theorem error_iff_of_map {r r' : Except Shortfall Coverage}
    (h : (r.map fun _ => ()) = r'.map fun _ => ()) (shortfall : Shortfall) :
    r = .error shortfall ↔ r' = .error shortfall := by
  cases r with
  | ok =>
    cases r' with
    | ok => exact iff_of_false nofun nofun
    | error => cases h
  | error =>
    cases r' with
    | ok => cases h
    | error =>
      cases h
      exact Iff.rfl

/-- A report is unambiguous.  Where what it shows on a line holds no line feed, outcomes that are
reported alike to streams that take everything end alike, with the same missing symbols in the same
order, and come with as many warnings, which tell the same one by one.  The documents may be
anything.  Standard output gets something exactly when the exit code is 0. -/
theorem outcome_of_same_report {o o' : Outcome} (h : o.IsPlain) (h' : o'.IsPlain)
    (hsame : deliver (fun _ => false) (lines o) = deliver (fun _ => false) (lines o')) :
    o.isSuccess = o'.isSuccess ∧
    (∀ shortfall, o.result = .error shortfall ↔ o'.result = .error shortfall) ∧
    List.Forall₂ TellsSame o.warnings o'.warnings ∧
    ((deliver (fun _ => false) (lines o)).out ≠ "" ↔ o.exitCode = 0) := by
  have herr : text .err (lines o) = text .err (lines o') := by
    rw [deliver_open, deliver_open] at hsame
    exact congrArg Delivery.err hsame
  have haccount : Account.ofOutcome o = .ofOutcome o' := by
    rw [← read_report h, ← read_report h', herr]
  have hresult := error_iff_of_map (congrArg Account.result haccount)
  have hwarnings : List.Forall₂ (· = ·) (o.warnings.map Notice.ofError)
      (o'.warnings.map Notice.ofError) := by
    rw [List.forall₂_eq_eq_eq]
    exact congrArg Account.warnings haccount
  rw [List.forall₂_map_left_iff, List.forall₂_map_right_iff] at hwarnings
  refine ⟨?_, hresult, hwarnings.imp fun _ _ => tellsSame_of_ofError, out_ne_empty_iff o⟩
  unfold Outcome.isSuccess
  cases hr : o.result with
  | ok =>
    cases hr' : o'.result with
    | ok => rfl
    | error shortfall => simp [(hresult shortfall).mpr hr'] at hr
  | error shortfall =>
    rw [(hresult shortfall).mp hr]

/-- A failing check with bullets in its names and in a document, and a reason after its location. -/
def earlyReason : Outcome :=
  ⟨.error (.undocumented ["", "  - a"]), [.missing "error: none", .unreadable "a" "b: c"],
    ["x/d\n  - z.md"]⟩

/-- The same check with a longer location and another document of the same name. -/
def lateReason : Outcome :=
  ⟨.error (.undocumented ["", "  - a"]), [.missing "error: none", .unreadable "a: b" "c"],
    ["y/d\n  - z.md"]⟩

/-- Where the location ends and the reason starts is all that the two reports do not tell. -/
theorem outcome_of_same_report_lateReason :
    earlyReason.IsPlain ∧ lateReason.IsPlain ∧
    deliver (fun _ => false) (lines earlyReason) = deliver (fun _ => false) (lines lateReason) ∧
    List.Forall₂ TellsSame earlyReason.warnings lateReason.warnings := by
  have hnames : ∀ names, earlyReason.result = .error (.undocumented names) →
      ∀ name ∈ names, '\n' ∉ name.toList := by
    rintro names ⟨⟩
    decide
  have hearly : earlyReason.IsPlain := ⟨by decide, hnames⟩
  have hlate : lateReason.IsPlain := ⟨by decide, hnames⟩
  have hsame : deliver (fun _ => false) (lines earlyReason) =
      deliver (fun _ => false) (lines lateReason) := by
    decide +kernel
  obtain ⟨-, -, hwarnings, -⟩ := outcome_of_same_report hearly hlate hsame
  exact ⟨hearly, hlate, hsame, hwarnings⟩

end Report

end DocCoverage
