import TagRental.Text.Graphic

/-!
# Quoted characters and strings

Where a message repeats something that somebody else wrote --- a stray character in a tag, a string
in the configuration file, the name of a serial device --- it shows it between quotes, with
everything that would not be seen on a terminal escaped.

Three decisions make up the format: the four control characters that have a letter of their own
(`\0`, `\t`, `\n`, `\r`), the backslash and the *surrounding* quote (the other quote stands for
itself), and `\u` with the code point in lower-case hexadecimal for the rest of what is not graphic.
-/

namespace TagRental
namespace Text

/-- One character as it stands between quotes of the given kind. -/
def quoteChar (quote c : Char) : List Char :=
  if c = '\x00' then ['\\', '0']
  else if c = '\t' then ['\\', 't']
  else if c = '\n' then ['\\', 'n']
  else if c = '\r' then ['\\', 'r']
  else if c = '\\' ∨ c = quote then ['\\', c]
  else if isGraphic c then [c]
  else ['\\', 'u', '\x7b'] ++ Nat.toDigits 16 c.toNat ++ ['\x7d']

/-- A character between single quotes. -/
def quotedChar (c : Char) : String :=
  String.ofList ('\'' :: quoteChar '\'' c ++ ['\''])

/-- A text between double quotes. -/
def quoted (s : String) : String :=
  String.ofList ('"' :: s.toList.flatMap (quoteChar '"') ++ ['"'])

example : quoted "a\"b\\c\t'" = "\"a\\\"b\\\\c\\t'\"" := by decide

example : quotedChar '\'' = "'\\''" ∧ quotedChar '\x01' = "'\\u\x7b1\x7d'" := by decide

end Text
end TagRental
