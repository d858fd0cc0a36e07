/-
Replica.Text.Quoted — text between double quotes, as error messages show it.

Tab, carriage return, line feed, NUL, the double quote and the backslash have
two-character escapes; any other hidden character is written by its code in
lower-case hexadecimal between braces; everything else stands as it is.
-/
import Replica.Text.Visible

namespace Replica.Text

def hexDigit (n : Nat) : Char := (Nat.digitChar n)

/-- A code point in lower-case hexadecimal, without leading zeros. -/
def hexCode (n : Nat) : String := String.ofList (Nat.toDigits 16 n)

/-- A code point in four hexadecimal digits. -/
def hexCode4 (n : Nat) : String :=
  String.ofList [hexDigit (n / 4096 % 16), hexDigit (n / 256 % 16), hexDigit (n / 16 % 16), hexDigit (n % 16)]

/-- How one character is written inside quotes. -/
def quotedChar (c : Char) : String :=
  match c with
  | '\t' => "\\t"
  | '\r' => "\\r"
  | '\n' => "\\n"
  | '\x00' => "\\0"
  | '"' => "\\\""
  | '\\' => "\\\\"
  | c => if isHidden c then "\\u\x7b" ++ hexCode c.toNat ++ "\x7d" else c.toString

/-- Text between double quotes with escapes. -/
def quoted (s : String) : String :=
  "\"" ++ String.join (s.toList.map quotedChar) ++ "\""

end Replica.Text
