import ClassAtlas.Text.Runs
import ClassAtlas.Text.UnprintableTable

/-!
# Texts quoted for a message

A text that a message repeats is put in double quotes. Quotes, backslashes, the usual control
characters and everything unprintable are escaped, so that the message stays on one line.
-/

namespace ClassAtlas.Text

/-- The character is shown as it is when it is quoted. -/
def isPrintable (c : Char) : Bool :=
  if c.toNat < 127 then 32 ≤ c.toNat
  else if c.toNat = 127 then false
  else !inRuns unprintableRuns c.toNat

/-- The characters that stand for one character inside quotes. -/
def quotedChar (c : Char) : List Char :=
  if c = '"' then ['\\', '"']
  else if c = '\\' then ['\\', '\\']
  else if c = '\n' then ['\\', 'n']
  else if c = '\t' then ['\\', 't']
  else if c = '\r' then ['\\', 'r']
  else if c.toNat = 0 then ['\\', '0']
  else if isPrintable c then [c]
  else ['\\', 'u', '{'] ++ Nat.toDigits 16 c.toNat ++ ['}']

/-- The text in double quotes. -/
def quoted (text : String) : String :=
  "\"" ++ String.ofList (text.toList.flatMap quotedChar) ++ "\""

end ClassAtlas.Text
