import ClauseLearning.Text.Hidden

/-!
Texts between double quotes, on one line and free of characters that do not show.
-/

namespace ClauseLearning.Text

/-- How a character is written between quotes: the quote, the backslash and the usual controls
behind a backslash, other hidden characters by their number. -/
def quotedChar (c : Char) : List Char :=
  if c = '"' then ['\\', '"']
  else if c = '\\' then ['\\', '\\']
  else if c = '\t' then ['\\', 't']
  else if c = '\r' then ['\\', 'r']
  else if c = '\n' then ['\\', 'n']
  else if c = '\x00' then ['\\', '0']
  else if isHidden c then
    '\\' :: 'u' :: '\x7b' :: Nat.toDigits 16 c.toNat ++ ['\x7d']
  else [c]

def quoted (s : String) : String :=
  String.ofList ('"' :: s.toList.flatMap quotedChar ++ ['"'])

end ClauseLearning.Text
