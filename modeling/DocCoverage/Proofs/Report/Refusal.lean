import DocCoverage.Proofs.Coverage.Verdict
import DocCoverage.Proofs.Report.Delivery

/-!
# Streams that refuse a report

All lines of a report but the last one are for the error stream.  So where a stream refuses a line,
nothing has reached standard output yet, and the error stream holds all lines before this one.

    every line but the last one is for the error stream                        (lines_pairwise)
    all lines are accepted, or a first one is refused, after lines on the error stream only
                                                                                (delivery_cases)
    the line of a check that passes is delivered  →  every warning was  (deliver_refusing)
-/

namespace DocCoverage.Report

/-- What a stream holds. -/
def Delivery.held (d : Delivery) : Stream → String
  | .out => d.out
  | .err => d.err

theorem lines_pairwise (o : Outcome) : (lines o).Pairwise fun l _ => l.1 = .err := by
  cases h : o.isSuccess with
  | true =>
    rw [lines_of_isSuccess h, List.pairwise_append]
    refine ⟨?_, List.pairwise_singleton _ _, fun l hl _ _ => stream_of_mem_warnings hl⟩
    exact List.pairwise_of_forall_mem_list fun l hl _ _ => stream_of_mem_warnings hl
  | false => exact List.pairwise_of_forall_mem_list fun l hl _ _ => stream_of_mem_lines h hl

/-- Either all lines are accepted, or there is a first one that is refused.  The lines before it are
for the error stream and are accepted. -/
theorem delivery_cases (o : Outcome) (refuses : Stream → Bool) :
    ((∀ l ∈ lines o, refuses l.1 = false) ∧
      deliver refuses (lines o) = ⟨text .out (lines o), text .err (lines o), none⟩) ∨
    ∃ before l after, lines o = before ++ l :: after ∧ refuses l.1 = true ∧
      (∀ m ∈ before, m.1 = .err) ∧ (l.1 = .out → after = []) ∧
      deliver refuses (lines o) = ⟨"", text .err before, some l.1⟩ := by
  cases hfind : (lines o).find? fun l => refuses l.1 with
  | none =>
    have hall : ∀ l ∈ lines o, refuses l.1 = false := by
      simpa using hfind
    exact .inl ⟨hall, deliver_of_accepted hall⟩
  | some l =>
    obtain ⟨hl, before, after, hlines, hbefore⟩ := List.find?_eq_some_iff_append.mp hfind
    obtain ⟨-, hlast, herr⟩ := List.pairwise_append.mp (hlines ▸ lines_pairwise o)
    have hstream : ∀ m ∈ before, m.1 = .err := fun m hm => herr m hm l List.mem_cons_self
    refine .inr ⟨before, l, after, hlines, hl, hstream, fun hout => ?_, ?_⟩
    · rw [List.eq_nil_iff_forall_not_mem]
      intro m hm
      have hl' := (List.pairwise_cons.mp hlast).1 m hm
      rw [hout] at hl'
      cases hl'
    · rw [hlines, deliver_of_refused (by simpa using hbefore) hl, text_out_eq_empty hstream]

/-- A stream that refuses everything stops a report if there is anything for it. -/
theorem refused_ne_none_iff (o : Outcome) (s : Stream) :
    (deliver (· == s) (lines o)).refused ≠ none ↔ text s (lines o) ≠ "" := by
  rw [Ne, Ne, not_iff_not, refused_eq_none_iff, text_eq_empty_iff]
  exact forall₂_congr fun _ _ => beq_eq_false_iff_ne

section

variable {o : Outcome} {refuses : Stream → Bool}

theorem deliver_of_refused_eq_none (h : (deliver refuses (lines o)).refused = none) :
    deliver refuses (lines o) = ⟨text .out (lines o), text .err (lines o), none⟩ :=
  deliver_of_accepted (refused_eq_none_iff.mp h)

theorem out_of_refused_ne_none (h : (deliver refuses (lines o)).refused ≠ none) :
    (deliver refuses (lines o)).out = "" := by
  rcases delivery_cases o refuses with ⟨-, hd⟩ | ⟨before, l, after, -, -, -, -, hd⟩
  · rw [hd] at h
    exact absurd rfl h
  · rw [hd]

/-- An error stream that works gets all of its text. -/
theorem err_of_accepted (h : refuses .err = false) :
    (deliver refuses (lines o)).err = text .err (lines o) := by
  rcases delivery_cases o refuses with ⟨-, hd⟩ | ⟨before, ⟨s, line⟩, after, hlines, hl, -, hlast, hd⟩
  · rw [hd]
  · cases s with
    | err =>
      rw [h] at hl
      cases hl
    | out =>
      have hline : text .err [(Stream.out, line)] = "" := by
        rw [text_eq_empty_iff]
        simp
      rw [hd, hlines, hlast rfl, text_append, hline, String.append_empty]

theorem refused_of_accepted {s other : Stream} (h : refuses s = false)
    (hother : (deliver refuses (lines o)).refused = some other) : other ≠ s := by
  rintro rfl
  rcases delivery_cases o refuses with ⟨-, hd⟩ | ⟨before, l, after, -, hl, -, -, hd⟩
  · rw [hd] at hother
    cases hother
  · rw [hd] at hother
    cases hother
    rw [h] at hl
    cases hl

end

/-- A stream that refuses everything holds nothing. -/
theorem held_of_refuses (o : Outcome) {refuses : Stream → Bool} {s : Stream} (h : refuses s = true) :
    (deliver refuses (lines o)).held s = "" := by
  have hnone : text s ((lines o).takeWhile fun l => !refuses l.1) = "" := by
    rw [text_eq_empty_iff]
    rintro l hl rfl
    have haccepted := List.all_eq_true.mp List.all_takeWhile l hl
    rw [h] at haccepted
    cases haccepted
  cases s with
  | out => exact hnone
  | err => exact hnone

/-- What comes of a report if streams refuse everything.  A refusing error stream stops it if there is
anything for it, a refusing standard output if the check passes.  A stream that works gets all of its
text, or a beginning of it if the other one has stopped the report; and standard output gets nothing
before the error stream has got everything.  The exit code goes by the full texts. -/
theorem deliver_refusing (o : Outcome) :
    (((deliver (· == .err) (lines o)).refused ≠ none ↔
        (deliver (fun _ => false) (lines o)).err ≠ "") ∧
      ((deliver (· == .err) (lines o)).refused ≠ none →
        (deliver (· == .err) (lines o)).out = "")) ∧
    (((deliver (· == .out) (lines o)).refused ≠ none ↔ ∃ found, o.result = .ok found) ∧
      (deliver (· == .out) (lines o)).err = (deliver (fun _ => false) (lines o)).err) ∧
    (∀ refuses s, refuses s = true → (deliver refuses (lines o)).held s = "") ∧
    (∀ refuses s, refuses s = false →
      (deliver refuses (lines o)).held s = (deliver (fun _ => false) (lines o)).held s ∨
      ∃ other rest, other ≠ s ∧ (deliver refuses (lines o)).refused = some other ∧
        (deliver (fun _ => false) (lines o)).held s = (deliver refuses (lines o)).held s ++ rest) ∧
    (∀ refuses, (deliver refuses (lines o)).out ≠ "" →
      (deliver refuses (lines o)).refused = none ∧
        (deliver refuses (lines o)).err = (deliver (fun _ => false) (lines o)).err) ∧
    (o.exitCode = 0 ↔ (deliver (fun _ => false) (lines o)).out ≠ "") := by
  refine ⟨⟨?_, out_of_refused_ne_none⟩, ⟨?_, ?_⟩, fun _ _ => held_of_refuses o, ?_, ?_,
    (out_ne_empty_iff o).symm⟩
  · rw [refused_ne_none_iff, deliver_open]
  · rw [refused_ne_none_iff, ← Outcome.exitCode_eq_zero_iff, ← out_ne_empty_iff, deliver_open]
  · rw [err_of_accepted rfl, deliver_open]
  · intro refuses s hs
    cases hr : (deliver refuses (lines o)).refused with
    | none =>
      left
      rw [deliver_of_refused_eq_none hr, deliver_open]
    | some other =>
      right
      refine ⟨other, ?_⟩
      cases s with
      | out =>
        have hout : (deliver refuses (lines o)).out = "" :=
          out_of_refused_ne_none (by rw [hr]; exact Option.some_ne_none other)
        refine ⟨(deliver (fun _ => false) (lines o)).out, refused_of_accepted hs hr, rfl, ?_⟩
        simp only [Delivery.held, hout, String.empty_append]
      | err =>
        refine ⟨"", refused_of_accepted hs hr, rfl, ?_⟩
        rw [String.append_empty]
        exact (congrArg Delivery.err (deliver_open (lines o))).trans (err_of_accepted hs).symm
  · intro refuses hout
    have hnone : (deliver refuses (lines o)).refused = none := by
      apply Classical.byContradiction
      intro hne
      exact hout (out_of_refused_ne_none hne)
    refine ⟨hnone, ?_⟩
    rw [deliver_of_refused_eq_none hnone, deliver_open]

end DocCoverage.Report
