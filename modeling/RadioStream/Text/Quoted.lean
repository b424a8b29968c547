import RadioStream.Text.Unwritable
/-!
# Quoted text

A text between double quotes, as messages show the value they complain about.
The usual backslash escapes stand for tab, line ends, the double quote, the
backslash and the null character; any other character that cannot be shown is
written as its code point in braces. A single quote stands for itself.
-/

namespace RadioStream.Text

/-- A number in lower-case hexadecimal, without leading zeros. -/
def hex (n : Nat) : String := String.ofList (Nat.toDigits 16 n)

/-- A number in hexadecimal behind the mark 0x. -/
def hexMarked (n : Nat) : String := "0x" ++ hex n

/-- A byte as the mark 0x and two hexadecimal digits. -/
def hexByte (b : UInt8) : String :=
  if b < 16 then "0x0" ++ hex b.toNat else hexMarked b.toNat

/-- How one character stands between the quotes. -/
def quoteChar (c : Char) : List Char :=
  match c with
  | '\t' => ['\\', 't']
  | '\r' => ['\\', 'r']
  | '\n' => ['\\', 'n']
  | '"' => ['\\', '"']
  | '\\' => ['\\', '\\']
  | '\x00' => ['\\', '0']
  | c =>
    if isUnwritable c then
      ['\\', 'u', '\x7b'] ++ Nat.toDigits 16 c.toNat ++ ['\x7d']
    else [c]

/-- The text between double quotes. -/
def quote (s : String) : String :=
  String.ofList (['"'] ++ s.toList.flatMap quoteChar ++ ['"'])

end RadioStream.Text
