/-
Replica.Json.Printer — the compact text of a JSON value.

No blanks are written. Numbers that are not whole are written with the fewest digits
that read back, positionally from `1e-5` up to below `1e16` and always with a
fraction there, and with a signed exponent elsewhere. In strings the quote, the
backslash and the control characters below the space are escaped.
-/
import Replica.Json.Basic
import Replica.Number.Decimal
import Replica.Text.Quoted

namespace Replica.Json

/-- Numbers are positional from place -5 to place 15; an exponent has no padding. -/
def numberLayout : DecimalLayout := ⟨-5, 15, 1, false⟩

/-- The text of a binary64 number. -/
def realText (x : Double) : String :=
  let (digits, place) := x.shortest
  String.ofList ((if x.negative then ['-'] else []) ++ numberLayout.magnitudeText digits place)

/-- How one character is written inside a string. -/
def stringChar (c : Char) : String :=
  match c with
  | '"' => "\\\""
  | '\\' => "\\\\"
  | '\n' => "\\n"
  | '\r' => "\\r"
  | '\t' => "\\t"
  | '\x08' => "\\b"
  | '\x0c' => "\\f"
  | c => if c.toNat < 32 then "\\u" ++ Text.hexCode4 c.toNat else c.toString

def writeString (out : String) (s : String) : String :=
  s.toList.foldl (fun out c => out ++ stringChar c) (out.push '"') |>.push '"'

mutual

def write (out : String) : Json → String
  | null => out ++ "null"
  | bool true => out ++ "true"
  | bool false => out ++ "false"
  | int n => out ++ toString n
  | real x => out ++ realText x
  | str s => writeString out s
  | arr [] => out ++ "[]"
  | arr (item :: items) => (writeItems (write (out.push '[') item) items).push ']'
  | obj [] => out ++ "\x7b\x7d"
  | obj ((k, v) :: entries) =>
    (writeEntries (write ((writeString (out.push '\x7b') k).push ':') v) entries).push '\x7d'

/-- Append the items after the first. -/
def writeItems (out : String) : List Json → String
  | [] => out
  | item :: items => writeItems (write (out.push ',') item) items

/-- Append the entries after the first. -/
def writeEntries (out : String) : List (String × Json) → String
  | [] => out
  | (k, v) :: entries =>
    writeEntries (write ((writeString (out.push ',') k).push ':') v) entries

end

/-- The compact text of a value. -/
def text (j : Json) : String := write "" j

end Replica.Json
