/-
Quoting of a text inside an error message: in double quotes, with a
backslash form for quotes, backslashes and the usual control characters, and
the code point in braces for whatever else cannot be shown as itself.
-/
import PartPlan.Text.Printable

namespace PartPlan.Text

/-- The lower-case hexadecimal digits of a natural number, without padding. -/
def hexChars (n : Nat) : List Char := Nat.toDigits 16 n

/-- One character inside quotes. -/
def quoteChar (c : Char) : List Char :=
  match c with
  | '"' => ['\\', '"']
  | '\\' => ['\\', '\\']
  | '\n' => ['\\', 'n']
  | '\r' => ['\\', 'r']
  | '\t' => ['\\', 't']
  | '\x00' => ['\\', '0']
  | _ =>
    if isPrintable c then [c]
    else ['\\', 'u', '\x7b'] ++ hexChars c.toNat ++ ['\x7d']

/-- A text in double quotes. -/
def quoted (s : String) : String :=
  String.ofList ('"' :: s.toList.flatMap quoteChar ++ ['"'])

end PartPlan.Text
