/-!
# Quoted names

Descriptions of objects show names between double quotes. Quotes, backslashes and control characters are
written with a backslash, so that a description stays on one line.
-/

namespace Playback.Text

/-- The characters by which a control character is written: its code in hexadecimal between braces. -/
def escapeCode (n : Nat) : List Char :=
  ['\\', 'u', '\x7b'] ++ Nat.toDigits 16 n ++ ['\x7d']

/-- How a character is written inside quotes. -/
def escape (c : Char) : List Char :=
  if c = '"' then ['\\', '"']
  else if c = '\\' then ['\\', '\\']
  else if c = '\n' then ['\\', 'n']
  else if c = '\r' then ['\\', 'r']
  else if c = '\t' then ['\\', 't']
  else if c.toNat = 0 then ['\\', '0']
  else if c.toNat < 32 ∨ (127 ≤ c.toNat ∧ c.toNat < 160) then escapeCode c.toNat
  else [c]

/-- A name between quotes. -/
def quoted (s : String) : String :=
  String.ofList ('"' :: s.toList.flatMap escape ++ ['"'])

end Playback.Text
