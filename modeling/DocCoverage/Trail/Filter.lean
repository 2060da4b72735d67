import DocCoverage.Trail.Directive

/-!
# Filters

A filter is a list of directives.  The most specific directive that covers an event decides whether
it is shown, of equally specific ones the last; an event that no directive covers is not shown.  A
filter is written as directives with commas between them.  Texts that are no directives are noticed
and passed over, and only where no directive is left the configured level counts.
-/

namespace DocCoverage

/-- Which events of a trail are shown. -/
structure Filter where
  directives : List Directive
  deriving DecidableEq, Repr

namespace Filter

def decider? (f : Filter) (e : Event) : Option Directive :=
  (f.directives.filter (·.covers e)).foldl
    (fun best? d =>
      match best? with
      | none => some d
      | some best => if d.outranks best then some d else some best)
    none

def shows (f : Filter) (e : Event) : Bool :=
  match f.decider? e with
  | some d => d.level.admits e.severity
  | none => false

/-- The texts between the commas that are not empty. -/
def parts (text : String) : List (List Char) :=
  (text.toList.splitOn ',').filter (!·.isEmpty)

/-- The directives of a text, without those that are refused. -/
def directivesOf (text : String) : List Directive :=
  (parts text).filterMap fun p => (Directive.read p).toOption

/-- The filter of a text, with a level for the case that it holds no directive. -/
def ofText (text : String) (level : Threshold) : Filter :=
  if (directivesOf text).isEmpty then ⟨[.everywhere level]⟩ else ⟨directivesOf text⟩

/-- The notice about a part of a text that is no directive. -/
def notice? (part : List Char) : Option String :=
  match Directive.read part with
  | .ok _ => none
  | .error why => some ("ignoring `" ++ String.ofList part ++ "`: " ++ why.message)

def notices (text : String) : List String :=
  (parts text).filterMap notice?

/-- The threshold that a configured level names. -/
def levelOr (level : String) (fallback : Threshold) : Threshold :=
  (Threshold.ofName? level.toList).getD fallback

end Filter

end DocCoverage
