import ModuleAtlas.Text.Printable

/-!
# Quoted text

Text in quotes, as it is shown in messages. Single quotes are used unless the text holds a single
quote and no double quote; the quote in use, backslashes and everything unprintable are escaped.
-/

namespace ModuleAtlas.Text.Quoted

def hexDigit (value : Nat) : Char :=
  if value < 10 then Char.ofNat (48 + value) else Char.ofNat (87 + value)

/-- The low `width` hexadecimal digits of a number. -/
def hexDigits : Nat → Nat → List Char
  | 0, _ => []
  | width + 1, value => hexDigits width (value / 16) ++ [hexDigit (value % 16)]

def quoteFor (characters : List Char) : Char :=
  if characters.contains '\'' && !characters.contains '"' then '"' else '\''

def escape (quote character : Char) : List Char :=
  if character = quote || character = '\\' then ['\\', character]
  else if character = '\n' then ['\\', 'n']
  else if character = '\r' then ['\\', 'r']
  else if character = '\t' then ['\\', 't']
  else if isPrintable character then [character]
  else if character.toNat < 0x100 then '\\' :: 'x' :: hexDigits 2 character.toNat
  else if character.toNat < 0x10000 then '\\' :: 'u' :: hexDigits 4 character.toNat
  else '\\' :: 'U' :: hexDigits 8 character.toNat

def quoteList (characters : List Char) : List Char :=
  let quote := quoteFor characters
  quote :: (characters.flatMap (escape quote) ++ [quote])

def quote (text : String) : String :=
  String.ofList (quoteList text.toList)

end ModuleAtlas.Text.Quoted
