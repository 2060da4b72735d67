import DocCoverage.Proofs.Toml.Items
import DocCoverage.Proofs.Toml.Spelling

/-!
# Writing documents

A document is written line by line.  A line defines the value of a bare key or is the header of a
table.  Numbers are written in decimal, strings in quotation marks and arrays on one line; how the
characters of strings are escaped is free.

    value (write w d ++ '\n' :: rest) = some (value of d, '\n' :: rest)       (value_write)
    statements (write w ls) = some (the statements of ls)                  (statements_writeAll)
-/

namespace DocCoverage.Toml

/-- A value that can be written on one line. -/
inductive Datum where
  | number (n : UInt32)
  | text (t : String)
  | texts (ts : List String)
  deriving DecidableEq, Repr

/-- A line of a document. -/
inductive Line where
  | define (key : String) (d : Datum)
  | header (key : String)
  deriving DecidableEq, Repr

def Datum.value : Datum → Value
  | .number n => .integer n.toNat
  | .text t => .string t
  | .texts ts => .array (ts.map .string)

def Datum.write (w : Spelling) : Datum → List Char
  | .number n => Nat.toDigits 10 n.toNat
  | .text t => w.quote t
  | .texts ts => '[' :: ([',', ' '].intercalate (ts.map w.quote) ++ [']'])

namespace Line

/-- The bare key on a line. -/
def name : Line → String
  | .define k _ => k
  | .header k => k

def statement : Line → Statement
  | .define k d => .define [k] d.value
  | .header k => .header [k]

def write (w : Spelling) : Line → List Char
  | .define k d => k.toList ++ ' ' :: '=' :: ' ' :: (d.write w ++ ['\n'])
  | .header k => '[' :: (k.toList ++ [']', '\n'])

/-- The text of some lines. -/
def writeAll (w : Spelling) (ls : List Line) : List Char :=
  ls.flatMap (write w)

end Line

/-- Whether a key can be written without quotes. -/
def isBareKey (k : String) : Bool :=
  !k.toList.isEmpty && k.toList.all isBareChar

/-! ## Numbers -/

theorem isDigit_of_mem_toDigits {n : Nat} {c : Char} (h : c ∈ Nat.toDigits 10 n) :
    c.isDigit = true :=
  Nat.isDigit_of_mem_toDigits (by omega) (by omega) h

theorem isPlainChar_of_isDigit {c : Char} (h : c.isDigit = true) : isPlainChar c = true := by
  have hne : ∀ d, d.isDigit = false → c ≠ d := by
    rintro d hd rfl
    simp [h] at hd
  simp [isPlainChar, isBlank, hne]

theorem ofDigits_toDigits (n : Nat) : ofDigits 10 (Nat.toDigits 10 n) = n := by
  have hfold : ∀ (s : List Char) (m : Nat), (∀ c ∈ s, c.isDigit = true) →
      s.foldl (fun n c => n * 10 + (hexValue? c).getD 0) m = Nat.ofDigitChars 10 s m := by
    intro s
    induction s with
    | nil => simp
    | cons c s ih =>
      intro m hs
      simp only [List.mem_cons, forall_eq_or_imp] at hs
      rw [List.foldl_cons, ih _ hs.2]
      simp [hexValue?, hs.1, Nat.ofDigitChars_cons, Nat.mul_comm]
  unfold ofDigits
  rw [hfold _ _ fun _ => isDigit_of_mem_toDigits]
  exact Nat.ofDigitChars_ten_toDigits

/-- Only zero is written with a zero in front. -/
theorem toDigits_head?_eq_zero {n : Nat} (h : (Nat.toDigits 10 n).head? = some '0') : n = 0 := by
  induction n using Nat.strongRecOn with
  | _ n ih =>
    rw [Nat.toDigits_eq_if (by omega)] at h
    split at h
    · next hn =>
      have hdigit : ∀ d, d < 10 → d.digitChar = '0' → d = 0 := by decide
      exact hdigit n hn (by simpa using h)
    · next hn =>
      rw [List.head?_append, Option.or_of_isSome (by simp [Nat.toDigits_ne_nil])] at h
      have := ih (n / 10) (by omega) h
      omega

theorem decimal?_toDigits (n : Nat) : decimal? (Nat.toDigits 10 n) = some (Nat.toDigits 10 n) := by
  have hdigits : digits? Char.isDigit (Nat.toDigits 10 n) = some (Nat.toDigits 10 n) := by
    have hall : ∀ c ∈ Nat.toDigits 10 n, c.isDigit = true := fun _ => isDigit_of_mem_toDigits
    simpa [digits?, List.splitOn_eq_singleton Nat.underscore_not_in_toDigits,
      Nat.toDigits_ne_nil] using hall
  have hzero : ¬ ((Nat.toDigits 10 n).head? = some '0' ∧ Nat.toDigits 10 n ≠ ['0']) := by
    rintro ⟨hhead, hne⟩
    obtain rfl := toDigits_head?_eq_zero hhead
    exact hne rfl
  simp [decimal?, hdigits, hzero]

theorem integer?_eq_decimal? {s : List Char} (h : ∀ c ∈ s, c.isDigit = true) :
    integer? s = (decimal? s).map fun d => (ofDigits 10 d : Int) := by
  unfold integer?
  split
  · simp at h
  · simp at h
  · simp at h
  · unfold splitSign
    split
    · next hsign =>
      split at hsign <;> simp_all
    · next hsign =>
      split at hsign <;> simp_all

theorem ofPlain_toDigits (n : UInt32) :
    ofPlain (Nat.toDigits 10 n.toNat) = some (.integer n.toNat) := by
  have hall : ∀ c ∈ Nat.toDigits 10 n.toNat, c.isDigit = true := fun _ => isDigit_of_mem_toDigits
  have hword : ∀ s : List Char, (∃ c ∈ s, c.isDigit = false) → Nat.toDigits 10 n.toNat ≠ s := by
    rintro s ⟨c, hc, hd⟩ rfl
    simp [hall c hc] at hd
  have hfits : integerFits (n.toNat : Int) = true := by
    have hlt : n.toNat < 2 ^ 32 := n.toNat_lt
    have hpow : (2 : Nat) ^ 32 < Nat.pow 2 128 := by decide
    simp only [integerFits]
    rw [if_neg (by omega)]
    simp only [Int.natAbs_natCast, decide_eq_true_eq]
    omega
  have hint : integer? (Nat.toDigits 10 n.toNat) = some (n.toNat : Int) := by
    simp [integer?_eq_decimal? hall, decimal?_toDigits, ofDigits_toDigits]
  unfold ofPlain
  rw [if_neg (hword _ ⟨'t', by decide, by decide⟩), if_neg (hword _ ⟨'f', by decide, by decide⟩),
    hint]
  simp [hfits]

theorem plain_toDigits (n : UInt32) (rest : List Char) :
    plain (Nat.toDigits 10 n.toNat ++ '\n' :: rest) = some (.integer n.toNat, '\n' :: rest) := by
  have hplain : ∀ c ∈ Nat.toDigits 10 n.toNat, isPlainChar c = true :=
    fun _ hc => isPlainChar_of_isDigit (isDigit_of_mem_toDigits hc)
  have hend : ¬ isPlainChar '\n' = true := by decide
  unfold plain
  rw [List.takeWhile_append_of_pos hplain, List.dropWhile_append_of_pos hplain,
    List.takeWhile_cons_of_neg hend, List.dropWhile_cons_of_neg hend, List.append_nil]
  simp [ofPlain_toDigits]

/-- A value that does not start with a mark is read without quotes. -/
theorem valueUpTo_eq_plain (depth : Nat) {s : List Char}
    (h : ∀ c ∈ ['"', '\'', '[', '{'], s.head? ≠ some c) : valueUpTo depth s = plain s := by
  simp only [List.mem_cons, List.not_mem_nil, or_false, forall_eq_or_imp, forall_eq] at h
  cases depth with
  | zero =>
    unfold valueUpTo
    split <;> simp_all
  | succ depth =>
    unfold valueUpTo
    split <;> simp_all

/-- A value that starts with a quotation mark is a string. -/
theorem valueUpTo_eq_string (depth : Nat) {q : Char} (h : q = '"' ∨ q = '\'') (s : List Char) :
    valueUpTo depth (q :: s) = (string (q :: s)).map (Prod.map Value.string id) := by
  rcases h with rfl | rfl <;> cases depth <;> rfl

/-! ## Strings and arrays of strings -/

theorem valueUpTo_array (depth : Nat) (rest : List Char) :
    valueUpTo (depth + 1) ('[' :: rest) =
      (separated (valueUpTo depth) ']' rest.length [] rest).map fun (vs, s) => (.array vs, s) :=
  rfl

theorem valueUpTo_quote (depth : Nat) (w : Spelling) (t : String) {rest : List Char}
    (h : rest.head? ≠ some '"') :
    valueUpTo depth (w.quote t ++ rest) = some (.string t, rest) := by
  have hread := string_quote w t h
  rw [Spelling.quote, List.cons_append] at hread ⊢
  rw [valueUpTo_eq_string depth (.inl rfl), hread]
  rfl

/-- A string may stand in an array. -/
theorem isItem_quote (depth : Nat) (w : Spelling) (t : String) :
    IsItem (valueUpTo depth) ']' (w.quote t) (.string t) where
  starts := ⟨'"', _, rfl, by decide⟩
  reads rest h := by
    apply valueUpTo_quote
    rcases h with h | h <;> simp [h]

theorem forall₂_isItem_quote (depth : Nat) (w : Spelling) (ts : List String) :
    List.Forall₂ (IsItem (valueUpTo depth) ']') (ts.map w.quote) (ts.map .string) := by
  induction ts with
  | nil => exact .nil
  | cons t ts ih => exact .cons (isItem_quote depth w t) ih

/-- What is written for a value on one line is read as this value. -/
theorem value_write (w : Spelling) (d : Datum) (rest : List Char) :
    value (d.write w ++ '\n' :: rest) = some (d.value, '\n' :: rest) := by
  cases d with
  | number n =>
    have hhead : ∀ c ∈ ['"', '\'', '[', '{'],
        (Nat.toDigits 10 n.toNat ++ '\n' :: rest).head? ≠ some c := by
      intro c hc h
      rw [List.head?_append, Option.or_of_isSome (by simp [Nat.toDigits_ne_nil])] at h
      have hdigit := isDigit_of_mem_toDigits (List.mem_of_head? h)
      simp only [List.mem_cons, List.not_mem_nil, or_false] at hc
      rcases hc with rfl | rfl | rfl | rfl <;> revert hdigit <;> decide
    show valueUpTo maxDepth (Nat.toDigits 10 n.toNat ++ '\n' :: rest) = _
    rw [valueUpTo_eq_plain _ hhead, plain_toDigits]
    rfl
  | text t => exact valueUpTo_quote maxDepth w t (by simp)
  | texts ts =>
    simp only [Datum.write, List.cons_append, List.append_assoc, List.nil_append]
    show valueUpTo (79 + 1) _ = _
    rw [valueUpTo_array, separated_items_length (by decide) (forall₂_isItem_quote 79 w ts)]
    rfl

/-! ## Lines -/

theorem isBareKey_iff {k : String} :
    isBareKey k = true ↔ k.toList ≠ [] ∧ ∀ c ∈ k.toList, isBareChar c = true := by
  simp [isBareKey]

theorem exists_toList_eq_cons {k : String} (hk : isBareKey k = true) :
    ∃ c cs, k.toList = c :: cs ∧ isBareChar c = true := by
  obtain ⟨hne, hall⟩ := isBareKey_iff.1 hk
  obtain ⟨c, cs, hcs⟩ := List.exists_cons_of_ne_nil hne
  rw [hcs] at hall
  exact ⟨c, cs, hcs, hall c List.mem_cons_self⟩

theorem ne_of_isBareChar {c d : Char} (h : isBareChar c = true) (hd : isBareChar d = false) :
    c ≠ d := by
  rintro rfl
  simp [h] at hd

theorem skipBlanks_of_head {s : List Char} (h : ∀ c, s.head? = some c → isBlank c = false) :
    skipBlanks s = s := by
  cases s with
  | nil => rfl
  | cons c s => exact List.dropWhile_cons_of_neg (by simp [h c rfl])

theorem skipBlanks_bare {k : String} (hk : isBareKey k = true) (s : List Char) :
    skipBlanks (k.toList ++ s) = k.toList ++ s := by
  obtain ⟨c, cs, hcs, hc⟩ := exists_toList_eq_cons hk
  apply skipBlanks_of_head
  simp [hcs, isBlank, ne_of_isBareChar hc (d := ' ') (by decide),
    ne_of_isBareChar hc (d := '\t') (by decide)]

theorem skipBlanks_write (w : Spelling) (d : Datum) (s : List Char) :
    skipBlanks (d.write w ++ s) = d.write w ++ s := by
  apply skipBlanks_of_head
  cases d with
  | number n =>
    intro c hc
    rw [Datum.write, List.head?_append, Option.or_of_isSome (by simp [Nat.toDigits_ne_nil])] at hc
    have hplain := isPlainChar_of_isDigit (isDigit_of_mem_toDigits (List.mem_of_head? hc))
    simp only [isPlainChar, Bool.not_eq_true', Bool.or_eq_false_iff] at hplain
    simp [hplain]
  | text t => simp [Datum.write, Spelling.quote, isBlank]
  | texts ts => simp [Datum.write, isBlank]

/-- A bare part of a key is read up to the first character that is not one of a key. -/
theorem keyPart_bare {k : String} (hk : isBareKey k = true) {s : List Char}
    (hs : ∀ c, s.head? = some c → isBareChar c = false) :
    keyPart (k.toList ++ s) = some (k, s) := by
  obtain ⟨c, cs, hcs, hc⟩ := exists_toList_eq_cons hk
  have hall := (isBareKey_iff.1 hk).2
  have hhead : ((k.toList ++ s).head?).any isBareChar = true := by
    simpa [hcs] using hc
  have hstop : s.takeWhile isBareChar = [] ∧ s.dropWhile isBareChar = s := by
    cases s with
    | nil => simp
    | cons d s => simp [hs d rfl]
  unfold keyPart
  rw [if_pos hhead, List.takeWhile_append_of_pos hall, List.dropWhile_append_of_pos hall]
  simp [hstop]

/-- A key of one bare part is read together with the blanks behind it. -/
theorem key_bare {k : String} (hk : isBareKey k = true) {s : List Char}
    (hs : ∀ c, s.head? = some c → isBareChar c = false) (hdot : (skipBlanks s).head? ≠ some '.') :
    key (k.toList ++ s) = some ([k], skipBlanks s) := by
  show keyUpTo (79 + 1) _ = _
  unfold keyUpTo
  simp only [keyPart_bare hk hs]
  split
  · next h => simp [h] at hdot
  · rfl

/-- A line that starts neither with a blank nor with a comment holds more. -/
theorem finishLine_eq_none {c : Char} (hc : c ∉ [' ', '\t', '#', '\n', '\r', '\ufeff'])
    (s : List Char) : finishLine (c :: s) = none := by
  simp only [List.mem_cons, List.not_mem_nil, or_false, not_or] at hc
  simp [finishLine, skipBlanks, isBlank, skipComment, newline?, hc]

theorem closedKey_bare {k : String} (hk : isBareKey k = true) {close s rest : List Char}
    (hs : ∀ c, s.head? = some c → isBareChar c = false) (hdot : (skipBlanks s).head? ≠ some '.')
    (hclose : skipBlanks s = close ++ rest) :
    closedKey close (k.toList ++ s) = some ([k], rest) := by
  unfold closedKey
  rw [skipBlanks_bare hk, key_bare hk hs hdot, hclose]
  simp

theorem statement_eq_define {s : List Char} (h : s.head? ≠ some '[') :
    statement s =
      match closedKey ['='] s with
      | none => none
      | some (ks, s) => (value (skipBlanks s)).map fun (v, s) => (.define ks v, s) := by
  unfold statement
  split
  · simp at h
  · simp at h
  · rfl

theorem statement_eq_header {s : List Char} (h : s.head? ≠ some '[') :
    statement ('[' :: s) = (closedKey [']'] s).map fun (ks, s) => (.header ks, s) := by
  unfold statement
  split
  · next hs => simp_all
  · next hs =>
    obtain rfl := (List.cons.inj hs).2
    rfl
  · next hs => exact absurd rfl (hs s)

namespace Line

variable (w : Spelling) {l : Line}

/-- A line starts with its key or with the mark of a header. -/
theorem exists_write_eq_cons (h : isBareKey l.name = true) :
    ∃ c s, l.write w = c :: s ∧ c ∉ [' ', '\t', '#', '\n', '\r', '\ufeff'] := by
  cases l with
  | define k d =>
    obtain ⟨c, cs, hcs, hc⟩ := exists_toList_eq_cons h
    refine ⟨c, _, congrArg (· ++ _) hcs, fun hmem => ?_⟩
    simp only [List.mem_cons, List.not_mem_nil, or_false] at hmem
    rcases hmem with rfl | rfl | rfl | rfl | rfl | rfl <;> revert hc <;> decide
  | header k => exact ⟨'[', _, rfl, by decide⟩

/-- A line is read as its statement, up to the line end. -/
theorem statement_write (h : isBareKey l.name = true) (rest : List Char) :
    Toml.statement (l.write w ++ rest) = some (l.statement, '\n' :: rest) := by
  have hopen : ∀ s, (l.name.toList ++ s).head? ≠ some '[' := by
    intro s
    obtain ⟨c, cs, hcs, hc⟩ := exists_toList_eq_cons h
    simpa [hcs] using ne_of_isBareChar hc (by decide)
  cases l with
  | define k d =>
    have hkey : closedKey ['='] (k.toList ++ ' ' :: '=' :: ' ' :: (d.write w ++ '\n' :: rest)) =
        some ([k], ' ' :: (d.write w ++ '\n' :: rest)) :=
      closedKey_bare h (by simp [isBareChar]) (by simp [skipBlanks, isBlank]) rfl
    have hblank : skipBlanks (' ' :: (d.write w ++ '\n' :: rest)) = d.write w ++ '\n' :: rest :=
      skipBlanks_write w d _
    simp only [name] at hopen
    simp only [write, statement, List.append_assoc, List.cons_append, List.nil_append]
    rw [statement_eq_define (hopen _), hkey]
    simp [hblank, value_write]
  | header k =>
    have hkey : closedKey [']'] (k.toList ++ ']' :: '\n' :: rest) = some ([k], '\n' :: rest) :=
      closedKey_bare h (by simp [isBareChar]) (by simp [skipBlanks, isBlank]) rfl
    simp only [name] at hopen
    simp only [write, statement, List.append_assoc, List.cons_append, List.nil_append]
    rw [statement_eq_header (hopen _), hkey]
    rfl

/-- A line takes one step. -/
theorem statementsFrom_write (h : isBareKey l.name = true) (fuel : Nat) (done : List Statement)
    (rest : List Char) :
    statementsFrom (fuel + 1) done (l.write w ++ rest) =
      statementsFrom fuel (l.statement :: done) rest := by
  obtain ⟨c, s, hcs, hc⟩ := exists_write_eq_cons w h
  have hfinish : finishLine (l.write w ++ rest) = none := by
    rw [hcs]
    exact finishLine_eq_none hc _
  have hblanks : skipBlanks (l.write w ++ rest) = l.write w ++ rest := by
    apply skipBlanks_of_head
    simp only [List.mem_cons, List.not_mem_nil, or_false, not_or] at hc
    simp [hcs, isBlank, hc]
  simp only [statementsFrom, hfinish, hblanks, statement_write w h]
  rfl

theorem length_le_length_writeAll (ls : List Line) : ls.length ≤ (writeAll w ls).length := by
  induction ls with
  | nil => simp
  | cons l ls ih =>
    have hpos : 0 < (l.write w).length := by
      cases l <;> simp only [write, List.length_append, List.length_cons] <;> omega
    simp only [writeAll, List.flatMap_cons, List.length_append, List.length_cons] at ih ⊢
    omega

theorem statementsFrom_writeAll {ls : List Line} (h : ∀ l ∈ ls, isBareKey l.name = true)
    (fuel : Nat) (hfuel : ls.length < fuel) (done : List Statement) :
    statementsFrom fuel done (writeAll w ls) = some (done.reverse ++ ls.map statement) := by
  induction ls generalizing fuel done with
  | nil =>
    obtain ⟨fuel, rfl⟩ : ∃ n, fuel = n + 1 := ⟨fuel - 1, by simp at hfuel; omega⟩
    simp [statementsFrom, writeAll, finishLine, skipBlanks, skipComment]
  | cons l ls ih =>
    obtain ⟨fuel, rfl⟩ : ∃ n, fuel = n + 1 := ⟨fuel - 1, by simp at hfuel; omega⟩
    simp only [List.mem_cons, forall_eq_or_imp] at h
    have hrest := ih h.2 fuel (by simp at hfuel; omega) (l.statement :: done)
    simp only [writeAll, List.flatMap_cons] at hrest ⊢
    rw [statementsFrom_write w h.1, hrest]
    simp

/-- The text of some lines is read as their statements. -/
theorem statements_writeAll {ls : List Line} (h : ∀ l ∈ ls, isBareKey l.name = true) :
    statements (writeAll w ls) = some (ls.map statement) := by
  have hmark : skipMark (writeAll w ls) = writeAll w ls := by
    cases ls with
    | nil => rfl
    | cons l ls =>
      obtain ⟨c, s, hcs, hc⟩ := exists_write_eq_cons w (h l List.mem_cons_self)
      simp only [writeAll, List.flatMap_cons, hcs, List.cons_append]
      unfold skipMark
      split
      · next heq => exact absurd (by simp [(List.cons.inj heq).1]) hc
      · rfl
  have hlength := length_le_length_writeAll w ls
  unfold statements
  rw [hmark, statementsFrom_writeAll w h _ (by omega)]
  rfl

end Line

end DocCoverage.Toml
