import LinkedSheet.Text.Printable

/-!
Texts in double quotes for messages: quotes and backslashes are escaped, line breaks and tabs have
short escapes, and a character that would not show is written by its code point.
-/
namespace LinkedSheet.Text

def hexDigits (n : Nat) : List Char :=
  Nat.toDigits 16 n

/-- One character inside quotes of the given kind. -/
def escaped (quote : Char) (c : Char) : List Char :=
  if c = '\x00' then ['\\', '0']
  else if c = '\t' then ['\\', 't']
  else if c = '\r' then ['\\', 'r']
  else if c = '\n' then ['\\', 'n']
  else if c = '\\' ∨ c = quote then ['\\', c]
  else if isPrintable c then [c]
  else ['\\', 'u', '\x7b'] ++ hexDigits c.toNat ++ ['\x7d']

def quoted (s : String) : String :=
  String.ofList ('"' :: s.toList.flatMap (escaped '"') ++ ['"'])

def quotedChar (c : Char) : String :=
  String.ofList ('\'' :: escaped '\'' c ++ ['\''])

end LinkedSheet.Text
