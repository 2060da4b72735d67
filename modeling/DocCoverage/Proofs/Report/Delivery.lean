import DocCoverage.Report

/-!
# Delivering a report

Only the line of a check that passes goes to standard output, and it is the last one; all other lines
go to the error stream.  So a standard output that takes nothing stops no report but that of a check
that passes, and then it gets nothing.

    every line is accepted  →  both streams get their full texts           (deliver_of_accepted)
    a report is not refused  ↔  every line is accepted                     (refused_eq_none_iff)
    a stream gets nothing  ↔  no line is for it                              (text_eq_empty_iff)
    the check fails  →  all lines are for the error stream                 (stream_of_mem_lines)
    the check passes  →  lines = warnings ++ [the line of success]         (lines_of_isSuccess)
-/

namespace DocCoverage.Report

/-- The line of a check that passes. -/
def success : String :=
  "helper documentation matches headers"

/-- Streams that take all lines that there are for them get their full texts. -/
theorem deliver_of_accepted {refuses : Stream → Bool} {ls : List (Stream × String)}
    (h : ∀ l ∈ ls, refuses l.1 = false) :
    deliver refuses ls = ⟨text .out ls, text .err ls, none⟩ := by
  have htake : (ls.takeWhile fun l => !refuses l.1) = ls := by
    have hall : ∀ l ∈ ls, (!refuses l.1) = true := fun l hl => by simp [h l hl]
    have happend : ((ls ++ []).takeWhile fun l => !refuses l.1) = ls ++ [].takeWhile _ :=
      List.takeWhile_append_of_pos hall
    simpa using happend
  have hfind : (ls.find? fun l => refuses l.1) = none := by
    rw [List.find?_eq_none]
    intro l hl
    simp [h l hl]
  simp [deliver, htake, hfind]

/-- Writing ends at the first line that its stream refuses. -/
theorem deliver_of_refused {refuses : Stream → Bool} {ls ls' : List (Stream × String)}
    {l : Stream × String} (h : ∀ l ∈ ls, refuses l.1 = false) (hl : refuses l.1 = true) :
    deliver refuses (ls ++ l :: ls') = ⟨text .out ls, text .err ls, some l.1⟩ := by
  have htake : ((ls ++ l :: ls').takeWhile fun l => !refuses l.1) = ls := by
    rw [List.takeWhile_append_of_pos (fun l hl => by simp [h l hl])]
    simp [hl]
  have hfind : ((ls ++ l :: ls').find? fun l => refuses l.1) = some l := by
    have hnone : (ls.find? fun l => refuses l.1) = none := by
      rw [List.find?_eq_none]
      intro l hl
      simp [h l hl]
    rw [List.find?_append, hnone, Option.none_or]
    exact List.find?_cons_of_pos hl
  simp [deliver, htake, hfind]

/-- A report is refused if some stream refuses a line that is for it. -/
theorem refused_eq_none_iff {refuses : Stream → Bool} {ls : List (Stream × String)} :
    (deliver refuses ls).refused = none ↔ ∀ l ∈ ls, refuses l.1 = false := by
  simp only [deliver, Option.map_eq_none_iff, List.find?_eq_none, Bool.not_eq_true]

theorem text_append (s : Stream) (ls ls' : List (Stream × String)) :
    text s (ls ++ ls') = text s ls ++ text s ls' := by
  apply String.toList_injective
  simp only [text, List.flatMap_append, String.toList_append, String.toList_join]

/-- A stream stays empty only if no line is for it, since every line brings a line feed. -/
theorem text_eq_empty_iff {s : Stream} {ls : List (Stream × String)} :
    text s ls = "" ↔ ∀ l ∈ ls, l.1 ≠ s := by
  induction ls with
  | nil => exact iff_of_true rfl nofun
  | cons l ls ih =>
    have hcons : text s (l :: ls) = text s [l] ++ text s ls := text_append s [l] ls
    rw [hcons, String.append_eq_empty_iff, ih, List.forall_mem_cons]
    refine and_congr_left fun _ => ?_
    by_cases h : l.1 = s
    · have hfeed : '\n' ∈ (text s [l]).toList := by
        simp [text, h]
      refine iff_of_false (fun hempty => ?_) (fun hne => hne h)
      rw [hempty] at hfeed
      cases hfeed
    · refine iff_of_true ?_ h
      simp [text, h]

/-- Lines for the error stream leave standard output empty. -/
theorem text_out_eq_empty {ls : List (Stream × String)} (h : ∀ l ∈ ls, l.1 = .err) :
    text .out ls = "" := by
  rw [text_eq_empty_iff]
  intro l hl
  rw [h l hl]
  decide

variable {o : Outcome}

theorem stream_of_mem_warnings {l : Stream × String}
    (hl : l ∈ o.warnings.map fun e => (Stream.err, warning e)) : l.1 = .err := by
  obtain ⟨e, -, rfl⟩ := List.mem_map.mp hl
  rfl

/-- A check that fails is reported on the error stream. -/
theorem stream_of_mem_lines (h : o.isSuccess = false) {l : Stream × String} (hl : l ∈ lines o) :
    l.1 = .err := by
  rcases List.mem_append.mp hl with hl | hl
  · exact stream_of_mem_warnings hl
  · unfold Outcome.isSuccess at h
    unfold verdict at hl
    cases hr : o.result with
    | ok found => simp [hr] at h
    | error shortfall =>
      cases shortfall with
      | noSymbols => simp_all
      | noDocumentation => simp_all
      | undocumented missing =>
        simp only [hr] at hl
        obtain ⟨line, -, rfl⟩ := List.mem_map.mp hl
        rfl

/-- A check that passes is reported with one line on standard output, after all warnings. -/
theorem lines_of_isSuccess (h : o.isSuccess = true) :
    lines o = (o.warnings.map fun e => (.err, warning e)) ++ [(.out, success)] := by
  unfold Outcome.isSuccess at h
  unfold lines verdict
  cases hr : o.result with
  | ok found => rfl
  | error shortfall => simp [hr] at h

theorem text_out_of_isSuccess (h : o.isSuccess = true) : text .out (lines o) = success ++ "\n" := by
  have hnil : (o.warnings.map fun e => (Stream.err, warning e)).flatMap
      (fun l => if l.1 = .out then [l.2, "\n"] else []) = [] := by
    rw [List.flatMap_eq_nil_iff]
    intro l hl
    simp [stream_of_mem_warnings hl]
  rw [text, lines_of_isSuccess h, List.flatMap_append, hnil]
  rfl

/-- Standard output gets something for a check that passes, and for no other. -/
theorem out_ne_empty_iff (o : Outcome) :
    (deliver (fun _ => false) (lines o)).out ≠ "" ↔ o.exitCode = 0 := by
  rw [deliver_open]
  unfold Outcome.exitCode
  cases hs : o.isSuccess with
  | true =>
    have hne : success ++ "\n" ≠ "" := by decide +kernel
    rw [text_out_of_isSuccess hs]
    exact iff_of_true hne rfl
  | false =>
    rw [text_out_eq_empty fun l hl => stream_of_mem_lines hs hl]
    exact iff_of_false (fun h => h rfl) (by decide)

end DocCoverage.Report
