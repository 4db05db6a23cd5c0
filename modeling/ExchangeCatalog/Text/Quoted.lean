import ExchangeCatalog.Text.Invisible

/-!
# Quoted text

Messages and descriptions show a text between double quotes, so that its limits and its invisible
characters can be seen. An apostrophe needs no escape there.

## Main definitions

* `Text.escaped` — how one character is written between the quotes
* `Text.quoted` — a text between double quotes
-/

namespace ExchangeCatalog.Text

/-- One character between double quotes: the usual two-character escapes, the number of a character
that would not show, and any other character as it is. -/
def escaped (c : Char) : List Char :=
  match c with
  | '\x00' => ['\\', '0']
  | '\t' => ['\\', 't']
  | '\r' => ['\\', 'r']
  | '\n' => ['\\', 'n']
  | '"' => ['\\', '"']
  | '\\' => ['\\', '\\']
  | _ => if isInvisible c then "\\u\x7b".toList ++ Nat.toDigits 16 c.toNat ++ ['\x7d'] else [c]

/-- A text between double quotes. -/
def quoted (s : String) : String := String.ofList ('"' :: s.toList.flatMap escaped ++ ['"'])

end ExchangeCatalog.Text
