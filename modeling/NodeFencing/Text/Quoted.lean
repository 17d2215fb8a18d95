/-
Texts in quotes.

A quoted text stands between double quotes.  A quote and a backslash take a backslash
before them, five controls have short names, other characters that cannot be shown
are written by their number in braces, and everything else stands as it is.
-/
import NodeFencing.Text.Hex
import NodeFencing.Text.Printable

namespace NodeFencing.Text

/-- How one character is written between quotes. -/
def quoteChar (c : Char) : List Char :=
  match c with
  | '"' => ['\\', '"']
  | '\\' => ['\\', '\\']
  | '\n' => ['\\', 'n']
  | '\r' => ['\\', 'r']
  | '\t' => ['\\', 't']
  | '\x00' => ['\\', '0']
  | c =>
    if isPrintable c then [c]
    else ['\\', 'u', '\x7b'] ++ Hex.digits c.toNat ++ ['\x7d']

/-- A text in quotes. -/
def quote (s : String) : String :=
  String.ofList ('"' :: s.toList.flatMap quoteChar ++ ['"'])

end NodeFencing.Text
