import DocCoverage.Text.Alphanumeric
import DocCoverage.Text.Substitute
import DocCoverage.Settings.Basic

/-!
# Paths with references

A configured path is a template.  `$NAME`, `${NAME}` and `${NAME:-default}` refer to the
environment, `$$` is a dollar sign, and so is a dollar sign that starts none of these.  A `~` at the
very front, alone or before a slash, is the home directory.  The values are not read again, except
that `{{root}}` becomes the text of the root last of all, wherever it came from.

    resolve env root t = root.join ((expand env t) with {{root}} replaced)

    segments ('$' :: s)  = (reference s).1 :: segments (s.drop (reference s).2)   (segments_dollar)
    segments (c :: s)    = .char c :: segments s             where c is not '$'   (segments_cons)
-/

namespace DocCoverage

abbrev Environment := List (String × String)

/-- The value of a variable.  Some names never have one. -/
def Environment.get? (env : Environment) (name : String) : Option String :=
  if name = "" ∨ name.toList.any (fun c => c == '=' || c == '\x00') then none
  else env.lookup name

/-- The home directory, as far as the environment gives it.  A system may also look it up for the user
where `HOME` is not set or empty; here there is none then. -/
def Environment.home? (env : Environment) : Option String :=
  (env.get? "HOME").filter (· != "")

inductive Segment where
  | char (c : Char)
  | variable (name : List Char) (fallback : Option (List Char))
  deriving DecidableEq, Repr

namespace Template

/-- A character of a variable's name outside braces. -/
def isNameChar (c : Char) : Bool :=
  isAlphanumeric c || c == '_'

/-- Splits what stands between braces at its first `:-`, unless it starts there. -/
def splitDefault (inner : List Char) : List Char × Option (List Char) :=
  if [':', '-'].isPrefixOf inner then (inner, none)
  else go [] inner
where
  /-- `before` holds the characters before the text, the last one first. -/
  go (before : List Char) : List Char → List Char × Option (List Char)
    | [] => (before.reverse, none)
    | ':' :: '-' :: rest => (before.reverse, some rest)
    | c :: rest => go (c :: before) rest

/-- What a dollar sign stands for, judged by the text after it, and how much of that text belongs to
it. -/
def reference : List Char → Segment × Nat
  | '{' :: rest =>
    if rest.contains '}' then
      let inner := rest.takeWhile (· != '}')
      let (name, fallback) := splitDefault inner
      (.variable name fallback, inner.length + 2)
    else (.char '$', 0)
  | '$' :: _ => (.char '$', 1)
  | rest =>
    let name := rest.takeWhile isNameChar
    if name.isEmpty then (.char '$', 0) else (.variable name none, name.length)

/-- Adds the segments of a text, the latest first, to those `done` before it.  The next `skip`
characters belong to a reference that is `done`. -/
def segmentsFrom : (skip : Nat) → (done : List Segment) → List Char → List Segment
  | _, done, [] => done
  | skip + 1, done, _ :: s => segmentsFrom skip done s
  | 0, done, c :: s =>
    if c == '$' then segmentsFrom (reference s).2 ((reference s).1 :: done) s
    else segmentsFrom 0 (.char c :: done) s

def segments (s : List Char) : List Segment :=
  (segmentsFrom 0 [] s).reverse

/-! ## Lemmas on segments -/

/-- What is done before only stands before what is added. -/
theorem segmentsFrom_eq_append (skip : Nat) (done : List Segment) (s : List Char) :
    segmentsFrom skip done s = segmentsFrom skip [] s ++ done := by
  induction s generalizing skip done with
  | nil => simp [segmentsFrom]
  | cons c s ih =>
    cases skip with
    | succ skip => simpa [segmentsFrom] using ih skip done
    | zero =>
      by_cases h : (c == '$') = true
      · simp only [segmentsFrom, if_pos h]
        rw [ih _ (_ :: done), ih _ [_]]
        simp
      · simp only [segmentsFrom, if_neg h]
        rw [ih _ (_ :: done), ih _ [_]]
        simp

theorem segmentsFrom_skip (skip : Nat) (done : List Segment) (s : List Char) :
    segmentsFrom skip done s = segmentsFrom 0 done (s.drop skip) := by
  induction s generalizing skip with
  | nil => simp [segmentsFrom]
  | cons c s ih =>
    cases skip with
    | succ skip => simpa [segmentsFrom] using ih skip
    | zero => rfl

@[simp] theorem segments_nil : segments [] = [] := rfl

theorem segments_cons {c : Char} (h : c ≠ '$') (s : List Char) :
    segments (c :: s) = .char c :: segments s := by
  have hc : ¬ (c == '$') = true := by simpa using h
  simp only [segments, segmentsFrom, if_neg hc]
  rw [segmentsFrom_eq_append]
  simp

theorem segments_dollar (s : List Char) :
    segments ('$' :: s) = (reference s).1 :: segments (s.drop (reference s).2) := by
  simp only [segments, segmentsFrom, beq_self_eq_true, if_true]
  rw [segmentsFrom_eq_append, segmentsFrom_skip]
  simp

/-! ## Filling in -/

/-- What a segment stands for, or the name of its variable if that is neither set nor has a
default. -/
def fill (env : Environment) : Segment → Except String (List Char)
  | .char c => .ok [c]
  | .variable name fallback =>
    match env.get? (String.ofList name), fallback with
    | some value, _ => .ok value.toList
    | none, some text => .ok text
    | none, none => .error (String.ofList name)

/-- Replaces a `~` at the front by the home directory, if there is one. -/
def expandHome (home? : Option String) (s : List Char) : List Char :=
  match home?, s with
  | some home, ['~'] => home.toList
  | some home, '~' :: '/' :: rest => home.toList ++ '/' :: rest
  | _, s => s

/-- Fills in all references.  Only a `~` that the template itself starts with is the home
directory. -/
def expand (env : Environment) (s : List Char) : Except String (List Char) := do
  let filled := (← (segments s).mapM (fill env)).flatten
  return if s.head? = some '~' then expandHome env.home? filled else filled

def rootMark : List Char :=
  ['{', '{', 'r', 'o', 'o', 't', '}', '}']

def resolve (env : Environment) (root : Path) (t : String) : Except String Path := do
  let expanded ← expand env t.toList
  return root.join ⟨String.ofList (Text.substitute rootMark root.text.toList expanded)⟩

end Template

end DocCoverage
