import HiddenEquation.Text.Shapeless

/-!
# Quoted characters

How a diagnostic shows a single character: in single quotes, with the usual escapes for the
quote itself, the backslash, NUL and the line characters, and with the number of the code
point where the character has no shape of its own.
-/

namespace HiddenEquation.Text

/-- A number in lower-case hexadecimal digits. -/
def hexadecimal (n : Nat) : String := String.ofList (Nat.toDigits 16 n)

/-- A character as it stands between single quotes. -/
def escapeQuoted (c : Char) : String :=
  match c with
  | '\x00' => "\\0"
  | '\t' => "\\t"
  | '\n' => "\\n"
  | '\r' => "\\r"
  | '\\' => "\\\\"
  | '\'' => "\\'"
  | c =>
    if isShapeless c then "\\u\x7b" ++ hexadecimal c.toNat ++ "\x7d" else String.singleton c

/-- A character in single quotes. -/
def quotedChar (c : Char) : String := "'" ++ escapeQuoted c ++ "'"

end HiddenEquation.Text
