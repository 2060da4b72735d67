import DocCoverage.Trail.Event
import DocCoverage.Trail.FieldValue

/-!
# Filter directives

A directive says which events to show:

    level                     all events up to a level
    target                    all events whose origin starts with the target
    target=level              those of them up to a level
    target[span{field}]=level events with the field, inside the span

Each part in brackets may be left out, and a field may name its value, as a number or as a pattern.
A level is a name in any case or a number from 0 (off) to 5 (trace).  Blanks around a directive do
not count when its parts are told apart, but the parts are cut from the text with its blanks at the
places that were found in the text without them; so only a directive without blanks means what it
says.

Places are counted in characters.  Counted in bytes they are the same but for a text with blanks in
front of characters beyond ASCII: such a text would be cut elsewhere, or could not be cut at all where
the place is inside a character, and that is not described here.
-/

namespace DocCoverage

/-- Events are shown up to a severity, or not at all. -/
abbrev Threshold := Option Severity

/-- The severities by rank, the gravest having the least. -/
def Severity.rank : Severity → Nat
  | .error => 1
  | .warn => 2
  | .info => 3
  | .debug => 4
  | .trace => 5

def Threshold.admits (t : Threshold) (s : Severity) : Bool :=
  match t with
  | none => false
  | some limit => s.rank ≤ limit.rank

/-- The threshold with a name, in any mix of ASCII letter cases. -/
def Threshold.ofName? (name : List Char) : Option Threshold :=
  let lower := String.ofList (name.map Char.toLower)
  if lower = "off" then some none
  else if lower = "error" then some (some .error)
  else if lower = "warn" then some (some .warn)
  else if lower = "info" then some (some .info)
  else if lower = "debug" then some (some .debug)
  else if lower = "trace" then some (some .trace)
  else none

def Threshold.ofNumber? (n : Nat) : Option Threshold :=
  match n with
  | 0 => some none
  | 1 => some (some .error)
  | 2 => some (some .warn)
  | 3 => some (some .info)
  | 4 => some (some .debug)
  | 5 => some (some .trace)
  | _ => none

/-- The number that digits write, with a plus sign in front or without. -/
def plainNumber? (s : List Char) : Option Nat :=
  let digits := match s with
    | '+' :: rest => rest
    | _ => s
  if digits.isEmpty || !digits.all Char.isDigit then none
  else some (digits.foldl (fun n c => n * 10 + (c.toNat - '0'.toNat)) 0)

/-- The threshold that a directive names. -/
def Threshold.ofText? (s : List Char) : Option Threshold :=
  ((plainNumber? s).bind ofNumber?).or (ofName? s)

/-- Which events to show. -/
structure Directive where
  /-- What the origin of an event has to start with. -/
  target : Option String
  /-- Whether events have to be inside a certain span. -/
  inSpan : Bool
  /-- The fields that an event has to have. -/
  fields : List String
  /-- Whether a field has to have a certain value. -/
  hasValue : Bool
  level : Threshold
  deriving DecidableEq, Repr

namespace Directive

inductive Refusal where
  | malformed
  | unknownLevel
  /-- The value of a field is neither a number nor a pattern. -/
  | noPattern (why : Pattern.Refusal)
  deriving DecidableEq, Repr

def Refusal.message : Refusal → String
  | .malformed => "invalid filter directive"
  | .noPattern why => "invalid field filter: " ++ why.message
  | .unknownLevel =>
    "error parsing level filter: expected one of " ++
      "\"off\", \"error\", \"warn\", \"info\", \"debug\", \"trace\", or a number 0-5"

/-- The directive that shows all events up to a threshold. -/
def everywhere (level : Threshold) : Directive :=
  ⟨none, false, [], false, level⟩

/-- A character that a directive may start with, when it does not start with a bracket. -/
def mayStart (c : Char) : Bool :=
  c == '-' || c == ':' || c == '_' || isAlphanumeric c

/-- The part of a text from one place up to another. -/
def slice (s : List Char) (start stop : Nat) : List Char :=
  (s.take stop).drop start

/-- Reads the level of a directive from a place on. -/
def withLevel (whole : List Char) (start : Nat) (d : Directive) : Except Refusal Directive :=
  let written := whole.drop start
  if written.isEmpty then .ok { d with level := some .trace }
  else
    match Threshold.ofText? written with
    | some level => .ok { d with level }
    | none => .error .unknownLevel

/-- Reads what follows the brackets; `rest` starts at the place `pos`. -/
def afterBrackets (whole : List Char) (pos : Nat) (rest : List Char) (d : Directive) :
    Except Refusal Directive :=
  match rest with
  | [] => .ok { d with level := some .trace }
  | '=' :: _ => withLevel whole (pos + 1) d
  | _ => .error .malformed

/-- Reads a field with its closing characters; `rest` starts at the place `pos`. -/
def withField (whole : List Char) (pos : Nat) (rest : List Char) (d : Directive) :
    Except Refusal Directive :=
  let stop := pos + (rest.takeWhile (· != '}')).length
  let field := slice whole pos stop
  match rest.dropWhile (· != '}') with
  | [] => .error .malformed
  | _ :: rest =>
    if field.isEmpty then .error .malformed
    else
      match FieldValue.refusal? field, rest with
      | some why, _ => .error (.noPattern why)
      | none, ']' :: rest =>
        afterBrackets whole (stop + 2) rest
          { d with
            fields := [String.ofList (field.takeWhile (· != '='))]
            hasValue := field.contains '=' }
      | none, _ => .error .malformed

/-- Reads what is inside the brackets; `rest` starts at the place `pos`. -/
def withSpan (whole : List Char) (pos : Nat) (rest : List Char) (d : Directive) :
    Except Refusal Directive :=
  let name := rest.takeWhile fun c => c != ']' && c != '{'
  let stop := pos + name.length
  match rest.drop name.length with
  | ']' :: rest => afterBrackets whole (stop + 1) rest { d with inSpan := true }
  | '{' :: rest =>
    withField whole (stop + 1) rest { d with inSpan := !(slice whole pos stop).isEmpty }
  | _ => .error .malformed

def read (whole : List Char) : Except Refusal Directive :=
  match trim whole with
  | [] => .error .malformed
  | '[' :: rest => withSpan whole 1 rest (everywhere none)
  | c :: cs =>
    if !mayStart c then .error .malformed
    else
      let head := (c :: cs).takeWhile fun c => c != '=' && c != '['
      let target := some (String.ofList (whole.take head.length))
      match (c :: cs).drop head.length with
      | '=' :: _ => withLevel whole (head.length + 1) { everywhere none with target }
      | '[' :: rest => withSpan whole (head.length + 1) rest { everywhere none with target }
      | _ =>
        match Threshold.ofText? whole with
        | some level => .ok (everywhere level)
        | none => .ok { everywhere (some .trace) with target := some (String.ofList whole) }

/-- Whether a directive can decide about events outside all spans. -/
def isStatic (d : Directive) : Bool :=
  !d.inSpan && !d.hasValue

def covers (d : Directive) (e : Event) : Bool :=
  d.isStatic && d.target.all (fun target => target.toList.isPrefixOf e.origin.toList)
    && d.fields.all fun name => ("message" :: e.fields.map Prod.fst).contains name

/-- How much of an origin a directive names. -/
def targetSize (d : Directive) : Nat :=
  match d.target with
  | none => 0
  | some target => target.utf8ByteSize + 1

/-- Whether a directive is at least as specific as another that covers the same event: it names more
of the origin, or as much and more fields, or as many that come no earlier in the alphabet. -/
def outranks (d b : Directive) : Bool :=
  if d.targetSize ≠ b.targetSize then b.targetSize < d.targetSize
  else if d.fields.length ≠ b.fields.length then b.fields.length < d.fields.length
  else !d.fields.lex b.fields fun x y => decide (x < y)

end Directive

end DocCoverage
