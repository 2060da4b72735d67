import DocCoverage.Pattern.Reader

/-!
# Values of fields in directives

The text of a field is its name, or its name and a value with an equals sign between them; what a
second equals sign starts does not count.  A value is a number, infinity and the lack of a number
included, or else a pattern.
-/

namespace DocCoverage.FieldValue

/-- The value that the text of a field names. -/
def ofField? (field : List Char) : Option (List Char) :=
  match field.dropWhile (· != '=') with
  | _ :: value => some (value.takeWhile (· != '='))
  | [] => none

def dropSign : List Char → List Char
  | '+' :: s => s
  | '-' :: s => s
  | s => s

/-- Whether a text is an exponent with its letter, or empty. -/
def isExponent : List Char → Bool
  | [] => true
  | c :: s => (c == 'e' || c == 'E') && !(dropSign s).isEmpty && (dropSign s).all Char.isDigit

/-- Whether a text writes a number.  There is a digit before the point or after it. -/
def isNumber (s : List Char) : Bool :=
  let s := dropSign s
  let whole := s.takeWhile Char.isDigit
  if ["inf", "infinity", "nan"].contains (String.ofList (s.map Char.toLower)) then true
  else
    match s.drop whole.length with
    | '.' :: s =>
      !(whole.isEmpty && !s.head?.any Char.isDigit) && isExponent (s.dropWhile Char.isDigit)
    | s => !whole.isEmpty && isExponent s

/-- Why the text of a field names a value that nothing can be compared with, if it does. -/
def refusal? (field : List Char) : Option Pattern.Refusal :=
  (ofField? field).bind fun value => if isNumber value then none else Pattern.refusal? value

end DocCoverage.FieldValue
