import ScriptCheck.Text.Extender
import ScriptCheck.Text.Printable

/-!
# Quoted text

A text is shown between double quotes.  Six characters have an escape of one letter; grapheme
extenders and unprintable characters are written by their number; all others stand for themselves.
-/

namespace ScriptCheck.Text.Quoted

/-- The letter after the backslash, for the characters that have one. -/
def letter? : Char → Option Char
  | '\x00' => some '0'
  | '\t' => some 't'
  | '\n' => some 'n'
  | '\r' => some 'r'
  | '"' => some '"'
  | '\\' => some '\\'
  | _ => none

/-- A character by its number, in lower-case hexadecimal without leading zeros. -/
def byNumber (c : Char) : List Char :=
  "\\u\x7b".toList ++ Nat.toDigits 16 c.toNat ++ ['\x7d']

/-- The form of `c` between the quotes. -/
def encodeChar (c : Char) : List Char :=
  match letter? c with
  | some l => ['\\', l]
  | none => if isExtender c || !isPrintable c then byNumber c else [c]

/-- `text` between double quotes. -/
def encode (text : String) : String :=
  String.ofList ('"' :: text.toList.flatMap encodeChar ++ ['"'])

end ScriptCheck.Text.Quoted
