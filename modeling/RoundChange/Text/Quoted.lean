/-
# Quoted text

How a diagnostic quotes a text: between quotation marks, with a backslash before
a quotation mark or a backslash, with `\0`, `\t`, `\n` and `\r` for those four
controls, and with its number in braces for every other character that has no
visible form of its own.  An apostrophe stays as it is.
-/

import RoundChange.Text.Combining
import RoundChange.Text.Unprintable

namespace RoundChange
namespace Quoted

/-- A character by its number: `\u`, then the least hexadecimal digits, in braces. -/
def byNumber (c : Char) : List Char :=
  '\\' :: 'u' :: '\x7b' :: (Nat.toDigits 16 c.toNat ++ ['\x7d'])

/-- One character inside quotation marks. -/
def escape (c : Char) : List Char :=
  match c with
  | '\x00' => ['\\', '0']
  | '\t' => ['\\', 't']
  | '\n' => ['\\', 'n']
  | '\r' => ['\\', 'r']
  | '"' => ['\\', '"']
  | '\\' => ['\\', '\\']
  | c => if isCombining c || isUnprintable c then byNumber c else [c]

/-- A text between quotation marks. -/
def quote (text : List Char) : List Char := '"' :: (text.flatMap escape ++ ['"'])

/-- A visible letter, a quotation mark, a line feed and a combining accent. -/
example : quote ['é', '"', '\n', '\u0301'] = ['"', 'é', '\\', '"', '\\', 'n',
    '\\', 'u', '\x7b', '3', '0', '1', '\x7d', '"'] := by decide +kernel

end Quoted
end RoundChange
