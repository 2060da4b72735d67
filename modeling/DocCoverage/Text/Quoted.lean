import DocCoverage.Text.Hidden

/-!
# Text in quotes

A text is quoted so that it stays on one line and shows what it holds: quotes and backslashes get a
backslash in front, common control characters have a letter, and all other hidden characters are
written by their number.
-/

namespace DocCoverage.Text

/-- How a character is written in quotes. -/
def quoteChar (c : Char) : List Char :=
  if c = '"' then ['\\', '"']
  else if c = '\\' then ['\\', '\\']
  else if c = '\n' then ['\\', 'n']
  else if c = '\r' then ['\\', 'r']
  else if c = '\t' then ['\\', 't']
  else if c = '\x00' then ['\\', '0']
  else if isHidden c then ['\\', 'u', '\x7b'] ++ Nat.toDigits 16 c.toNat ++ ['\x7d']
  else [c]

def quote (s : String) : String :=
  String.ofList ('"' :: s.toList.flatMap quoteChar ++ ['"'])

end DocCoverage.Text
