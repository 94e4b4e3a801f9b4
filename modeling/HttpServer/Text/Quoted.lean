import HttpServer.Text.Printable

/-!
# Quoted text in messages

A message that repeats a piece of a request puts it between double quotes. The quote, the backslash
and the common controls have short escapes; every other character that cannot be shown is written
by its number, as in `\u{200b}`.
-/

namespace HttpServer

/-- The written form of one character between quotes. -/
def escapeChar (c : Char) : List Char :=
  if c = '"' then ['\\', '"']
  else if c = '\\' then ['\\', '\\']
  else if c = '\n' then ['\\', 'n']
  else if c = '\r' then ['\\', 'r']
  else if c = '\t' then ['\\', 't']
  else if c.toNat = 0 then ['\\', '0']
  else if isPrintable c then [c]
  else ['\\', 'u', '\x7b'] ++ Nat.toDigits 16 c.toNat ++ ['\x7d']

/-- A text between double quotes, with every character that cannot be shown escaped. -/
def quoted (s : String) : String :=
  String.ofList ('"' :: s.toList.flatMap escapeChar ++ ['"'])

end HttpServer
