import DocCoverage.Proofs.Trail.Course

/-!
# Events on lines

An event is written on one line.  Its message and the names of its fields are fixed, a number is
written with digits, and a location in quotes shows its line feeds as letters.  Other locations are
written as they are; so the lines of a course are lines if no location of a source has a control
character.

    '\n' ∉ quote s                                              (Text.newline_not_mem_quote)
    '\n' ∉ e.line            if no field of e has one               (Event.newline_not_mem_line)
    '\n' ∉ e.line            for the events of a course             (Trail.newline_not_mem_line)
-/

namespace DocCoverage

namespace Text

theorem not_mem_intercalate {α : Type} {x : α} {sep : List α} {parts : List (List α)}
    (hsep : x ∉ sep) (hparts : ∀ part ∈ parts, x ∉ part) : x ∉ sep.intercalate parts := by
  unfold List.intercalate
  rw [List.mem_flatten]
  rintro ⟨part, hmem, hx⟩
  induction parts with
  | nil => cases hmem
  | cons first rest ih =>
    cases rest with
    | nil =>
      obtain rfl := List.mem_singleton.mp hmem
      exact hparts _ List.mem_cons_self hx
    | cons second rest =>
      rw [List.intersperse_cons_cons, List.mem_cons, List.mem_cons] at hmem
      rcases hmem with rfl | rfl | hmem
      · exact hparts _ List.mem_cons_self hx
      · exact hsep hx
      · exact ih (fun part hpart => hparts part (List.mem_cons_of_mem first hpart)) hmem

theorem newline_not_mem_toDigits {b : Nat} (hb : 1 < b) (n : Nat) : '\n' ∉ Nat.toDigits b n := by
  induction n using Nat.strongRecOn with
  | _ n ih =>
    have hdigit : ∀ k : Nat, '\n' ∉ [k.digitChar] := fun k hmem =>
      Nat.digitChar_ne '\n' rfl (List.mem_singleton.mp hmem).symm
    rw [Nat.toDigits_eq_if hb]
    split
    · exact hdigit n
    · next hn =>
      rw [List.mem_append, not_or]
      exact ⟨ih (n / b) (Nat.div_lt_self (by omega) hb), hdigit (n % b)⟩

theorem newline_not_mem_toString (n : Nat) : '\n' ∉ (toString n).toList := by
  rw [Nat.toString_eq_ofList_toDigits, String.toList_ofList]
  exact newline_not_mem_toDigits (by decide) n

theorem newline_not_mem_quoteChar (c : Char) : '\n' ∉ quoteChar c := by
  unfold quoteChar
  split
  · decide
  split
  · decide
  split
  · decide
  split
  · decide
  split
  · decide
  split
  · decide
  split
  · rw [List.mem_append, List.mem_append, not_or, not_or]
    exact ⟨⟨by decide, newline_not_mem_toDigits (by decide) _⟩, by decide⟩
  · next hfeed _ _ _ _ =>
    rw [List.mem_singleton]
    exact Ne.symm hfeed

/-- Text in quotes stays on its line. -/
theorem newline_not_mem_quote (s : String) : '\n' ∉ (quote s).toList := by
  unfold quote
  rw [String.toList_ofList, List.mem_append, List.mem_cons, List.mem_flatMap, not_or, not_or]
  refine ⟨⟨by decide, ?_⟩, by decide⟩
  rintro ⟨c, -, hc⟩
  exact newline_not_mem_quoteChar c hc

/-- A control character: one before the space, or one from the delete character up to the space that
does not break. -/
def isControl (c : Char) : Bool :=
  c.toNat < 0x20 || (0x7F ≤ c.toNat && c.toNat < 0xA0)

/-- A text without control characters. -/
def IsPlain (s : String) : Prop :=
  ∀ c ∈ s.toList, isControl c = false

instance (s : String) : Decidable (IsPlain s) :=
  List.decidableBAll (fun c => isControl c = false) s.toList

theorem IsPlain.newline_not_mem {s : String} (h : IsPlain s) : '\n' ∉ s.toList := fun hmem =>
  Bool.noConfusion (h '\n' hmem)

end Text

theorem Fault.newline_not_mem_message (fault : Fault) : '\n' ∉ fault.message.toList := by
  cases fault <;> decide +kernel

theorem SourceError.newline_not_mem_message {cause : SourceError}
    (hlocation : '\n' ∉ cause.location.toList)
    (hreason : ∀ location reason, cause = .unreadable location reason → '\n' ∉ reason.toList) :
    '\n' ∉ cause.message.toList := by
  cases cause with
  | missing location =>
    show '\n' ∉ (location ++ " does not exist").toList
    rw [String.toList_append, List.mem_append, not_or]
    exact ⟨hlocation, by decide +kernel⟩
  | unreadable location reason =>
    show '\n' ∉ ("failed to read " ++ location ++ ": " ++ reason).toList
    rw [String.toList_append, String.toList_append, String.toList_append, List.mem_append,
      List.mem_append, List.mem_append, not_or, not_or, not_or]
    exact ⟨⟨⟨by decide +kernel, hlocation⟩, by decide +kernel⟩, hreason _ _ rfl⟩

/-- The reason why a source cannot be read is a fault of the file tree. -/
theorem Source.reason_of_content_eq_error {t : FileTree} {s : Source} {location reason : String}
    (h : s.content t = .error (.unreadable location reason)) : ∃ fault : Fault, reason = fault.message := by
  unfold Source.content at h
  split at h
  · cases h
  · cases h
  · split at h
    · cases h
    · next fault _ =>
      unfold SourceError.ofFault at h
      split at h
      · cases h
      · cases h
        exact ⟨fault, rfl⟩

theorem Severity.newline_not_mem_label (severity : Severity) : '\n' ∉ severity.label.toList := by
  cases severity <;> decide +kernel

theorem Role.newline_not_mem_label (role : Role) : '\n' ∉ role.label.toList := by
  cases role <;> decide +kernel

namespace Event

theorem newline_not_mem_message (e : Event) : '\n' ∉ e.message.toList := by
  cases e <;> dsimp only [message] <;> decide +kernel

theorem newline_not_mem_field_name {e : Event} {f : String × String} (hf : f ∈ e.fields) :
    '\n' ∉ f.1.toList := by
  have hnames : ∀ name ∈ e.fields.map Prod.fst, '\n' ∉ name.toList := by
    cases e <;> dsimp only [fields, List.map] <;> decide +kernel
  exact hnames f.1 (List.mem_map_of_mem hf)

/-- An event is on one line if the values of its fields are. -/
theorem newline_not_mem_line {e : Event} (h : ∀ f ∈ e.fields, '\n' ∉ f.2.toList) :
    '\n' ∉ e.line.toList := by
  unfold line
  rw [String.toList_intercalate]
  refine Text.not_mem_intercalate (by decide) fun part hpart => ?_
  obtain ⟨word, hword, rfl⟩ := List.mem_map.mp hpart
  rw [List.mem_cons, List.mem_cons, List.mem_map] at hword
  rcases hword with rfl | rfl | ⟨f, hf, rfl⟩
  · exact e.severity.newline_not_mem_label
  · exact e.newline_not_mem_message
  · rw [String.toList_append, String.toList_append, List.mem_append, List.mem_append, not_or,
      not_or]
    exact ⟨⟨newline_not_mem_field_name hf, by decide +kernel⟩, h f hf⟩

theorem newline_not_mem_line_of_count {e : Event} {n : Nat}
    (h : e.fields = [("count", toString n)]) : '\n' ∉ e.line.toList := by
  refine newline_not_mem_line fun f hf => ?_
  rw [h] at hf
  obtain rfl := List.mem_singleton.mp hf
  exact Text.newline_not_mem_toString n

theorem Tells.newline_not_mem_line {m : Matcher} {role : Role} {t : FileTree} {s : Source} {e : Event}
    (h : Tells m role t s e) (hs : '\n' ∉ s.location.toList) : '\n' ∉ e.line.toList := by
  refine Event.newline_not_mem_line ?_
  rcases h with ⟨h, -⟩ | @⟨cause, h⟩
  · simp only [fields, List.forall_mem_cons]
    exact ⟨Text.newline_not_mem_quote _, Text.newline_not_mem_toString _, role.newline_not_mem_label,
      nofun⟩
  · have hcause : '\n' ∉ cause.location.toList := by
      rwa [Source.location_of_content_eq_error h]
    have hmessage : '\n' ∉ cause.message.toList := by
      refine SourceError.newline_not_mem_message hcause ?_
      rintro location reason rfl
      obtain ⟨fault, rfl⟩ := Source.reason_of_content_eq_error h
      exact fault.newline_not_mem_message
    simp only [fields, List.forall_mem_cons]
    exact ⟨hcause, hmessage, role.newline_not_mem_label, nofun⟩

end Event

namespace Trail

/-- Each event of a course is on one line. -/
theorem newline_not_mem_line {c : Checker} {t : FileTree} {events : List Event}
    (h : Course c t events) (hplain : ∀ s ∈ c.headers ++ c.docs, '\n' ∉ s.location.toList) :
    ∀ e ∈ events, '\n' ∉ e.line.toList := by
  refine forall_mem_of_course h ?_ fun n => ?_
  · intro role s hs e he
    exact he.newline_not_mem_line (hplain s hs)
  · exact ⟨Event.newline_not_mem_line_of_count rfl, Event.newline_not_mem_line_of_count rfl,
      Event.newline_not_mem_line_of_count rfl⟩

end Trail

end DocCoverage
