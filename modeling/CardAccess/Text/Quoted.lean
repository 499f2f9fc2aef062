import CardAccess.Text.Hidden

/-!
# Quoted text

`quoted` shows a text inside a message on one line, with every character visible:
hidden characters are spelled out by their codes, quotes and backslashes carry a
backslash.  `quotedSingle` shows one character in single quotes.
-/

namespace CardAccess
namespace Text

/-- The number of a character in hexadecimal, without leading zeros. -/
def codeText (c : Char) : String := String.ofList (Nat.toDigits 16 c.toNat)

/-- A character as it appears in a quoted text, up to the quotes. -/
def spelled (c : Char) : String :=
  if c = '\\' then "\\\\"
  else if c = '\t' then "\\t"
  else if c = '\n' then "\\n"
  else if c = '\r' then "\\r"
  else if c.toNat = 0 then "\\0"
  else if isHidden c then "\\u\x7b" ++ codeText c ++ "\x7d"
  else c.toString

def spelledBetween (quote c : Char) : String :=
  if c = quote then "\\" ++ c.toString else spelled c

def singleQuote : Char := '\x27'

/-- A text in double quotes on one line, every character of it visible. -/
def quoted (text : String) : String :=
  "\"" ++ String.join (text.toList.map (spelledBetween '"')) ++ "\""

def quotedSingle (c : Char) : String :=
  singleQuote.toString ++ spelledBetween singleQuote c ++ singleQuote.toString

end Text
end CardAccess
