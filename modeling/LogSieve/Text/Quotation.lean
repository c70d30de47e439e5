import LogSieve.Text.Visible
/-!
# Quoting a text in a message

A message shows a text from outside in double quotes, with everything that cannot be
seen in it spelled out. A single quote stands as it is.
-/
namespace LogSieve.Text

/-- A character inside a quotation. -/
def spelled (c : Char) : List Char :=
  if c = '"' then ['\\', '"']
  else if c = '\\' then ['\\', '\\']
  else if c = '\n' then ['\\', 'n']
  else if c = '\r' then ['\\', 'r']
  else if c = '\t' then ['\\', 't']
  else if c.toNat = 0 then ['\\', '0']
  else if isVisible c then [c]
  else ['\\', 'u', '\x7b'] ++ Nat.toDigits 16 c.toNat ++ ['\x7d']

def quotation (text : String) : String := String.ofList ('"' :: text.toList.flatMap spelled ++ ['"'])

end LogSieve.Text
