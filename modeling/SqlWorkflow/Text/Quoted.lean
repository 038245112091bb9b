import SqlWorkflow.Text.Printable

/-!
# Texts quoted for display

A text inside a message or inside a rendered list stands between double quotes.  Quotes,
backslashes and the usual control characters get a backslash; characters that would not show get
their code point in braces.
-/

namespace SqlWorkflow.Text

/-- The hexadecimal digits of a number, without leading zeros. -/
def hexDigits (n : Nat) : List Char :=
  (Nat.toDigits 16 n).map Char.toLower

/-- One character inside display quotes. -/
def displayChar (c : Char) : List Char :=
  match c with
  | '\x00' => ['\\', '0']
  | '\t' => ['\\', 't']
  | '\r' => ['\\', 'r']
  | '\n' => ['\\', 'n']
  | '"' => ['\\', '"']
  | '\\' => ['\\', '\\']
  | c =>
    if isPrintable c then [c]
    else ['\\', 'u', '\x7b'] ++ hexDigits c.toNat ++ ['\x7d']

/-- The text between double quotes, with everything escaped that would not show. -/
def displayQuoted (s : String) : String :=
  String.ofList ('"' :: s.toList.flatMap displayChar ++ ['"'])

end SqlWorkflow.Text
