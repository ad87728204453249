/-
# Blanks, literals and strings of JSON

The readers of the smallest parts.  A string that is decoded (`Json.string`) has
its escapes replaced, where two escapes may spell one character as a surrogate
pair; in a string that is only skipped (`Json.skipString`) the form of the escapes
is checked and nothing more.

Each step of a reader that repeats itself takes a character away, so the text it
starts from bounds its steps; when they are used up nothing is left to read.
-/

import RoundChange.Json.Fault
import RoundChange.Text.Hex

namespace RoundChange
namespace Json

/-- Reads a value from the front of a text. -/
abbrev Reader (α : Type) := StateT (List Char) (Except Fault) α

/-- The four characters that may stand between the parts of a text. -/
def isBlank (c : Char) : Bool := c = ' ' || c = '\t' || c = '\n' || c = '\r'

/-- The first character that is no blank, which stays in the text. -/
def peek? : Reader (Option Char) := fun text =>
  let text := text.dropWhile isBlank
  .ok (text.head?, text)

/-- Takes one character away. -/
def advance : Reader Unit := fun text => .ok ((), text.tail)

/-- The text goes on with just these characters. -/
def literal (expected : List Char) : Reader Unit :=
  expected.forM fun c text =>
    match text with
    | [] => .error .truncated
    | x :: rest => if x = c then .ok ((), rest) else .error .malformed

/-- Fewer bytes of UTF-8 are left than the four that an escape has behind its `u`. -/
def fewerThanFourBytes (text : List Char) : Bool :=
  (text.take 4).foldl (fun bytes c => bytes + c.utf8Size) 0 < 4

/-- The number that four hexadecimal digits spell. -/
def fourDigits : Reader Nat := fun text =>
  if fewerThanFourBytes text then .error .truncated
  else match text with
    | a :: b :: c :: d :: rest =>
      match Hex.value? a, Hex.value? b, Hex.value? c, Hex.value? d with
      | some a, some b, some c, some d => .ok (((a * 16 + b) * 16 + c) * 16 + d, rest)
      | _, _, _, _ => .error .malformed
    | _ => .error .malformed

/-- The second half of a surrogate pair that starts with `high`, read from its
escape on. -/
def secondHalf (high : Nat) : Reader Char := do
  literal ['\\', 'u']
  let low ← fourDigits
  if 0xDC00 ≤ low ∧ low < 0xE000 then
    return Char.ofNat (0x10000 + (high - 0xD800) * 0x400 + (low - 0xDC00))
  else throw .malformed

/-- What the escape with this letter stands for, if it needs nothing more. -/
def simpleEscape? (letter : Char) : Option Char :=
  match letter with
  | '"' => some '"'
  | '\\' => some '\\'
  | '/' => some '/'
  | 'b' => some '\x08'
  | 'f' => some '\x0c'
  | 'n' => some '\n'
  | 'r' => some '\r'
  | 't' => some '\t'
  | _ => none

/-- The character that an escape stands for, read from behind its backslash on. -/
def escape : Reader Char := fun text =>
  match text with
  | [] => .error .truncated
  | 'u' :: rest => (do
      let n ← fourDigits
      if n < 0xD800 ∨ 0xE000 ≤ n then return Char.ofNat n
      else if n < 0xDC00 then secondHalf n
      else throw .malformed : Reader Char).run rest
  | letter :: rest =>
    match simpleEscape? letter with
    | some c => .ok (c, rest)
    | none => .error .malformed

/-- Checks the form of an escape, from behind its backslash on. -/
def skipEscape : Reader Unit := fun text =>
  match text with
  | [] => .error .truncated
  | 'u' :: rest => (discard fourDigits : Reader Unit).run rest
  | letter :: rest => if (simpleEscape? letter).isSome then .ok ((), rest) else .error .malformed

/-- A string from behind its first quotation mark on, in no more steps than `steps` has
characters. -/
def stringWithin : List Char → Reader (List Char)
  | [] => throw .truncated
  | _ :: steps => fun text =>
    match text with
    | [] => .error .truncated
    | '"' :: rest => .ok ([], rest)
    | '\\' :: rest => (do
        let c ← escape
        let cs ← stringWithin steps
        return c :: cs : Reader (List Char)).run rest
    | c :: rest =>
      if c.toNat < 0x20 then .error .malformed
      else (do return c :: (← stringWithin steps) : Reader (List Char)).run rest

/-- A string from behind its first quotation mark on. -/
def string : Reader (List Char) := fun text => stringWithin text text

/-- A string that is not decoded, from behind its first quotation mark on, in no more
steps than `steps` has characters. -/
def skipStringWithin : List Char → Reader Unit
  | [] => throw .truncated
  | _ :: steps => fun text =>
    match text with
    | [] => .error .truncated
    | '"' :: rest => .ok ((), rest)
    | '\\' :: rest => (do skipEscape; skipStringWithin steps : Reader Unit).run rest
    | c :: rest =>
      if c.toNat < 0x20 then .error .malformed else (skipStringWithin steps).run rest

/-- A string that is not decoded, from behind its first quotation mark on. -/
def skipString : Reader Unit := fun text => skipStringWithin text text

/-- A plain character, an escape, a surrogate pair, and half of a pair, which is read
over but not decoded. -/
example : string.run ['a', '\\', 'n', '\\', 'u', 'd', '8', '3', 'd', '\\', 'u', 'd', 'e', '0', '0',
      '"', ','] = .ok (['a', '\n', '😀'], [',']) ∧
    string.run ['\\', 'u', 'd', '8', '0', '0', '"'] = .error .malformed ∧
    skipString.run ['\\', 'u', 'd', '8', '0', '0', '"'] = .ok ((), []) := ⟨rfl, rfl, rfl⟩

end Json
end RoundChange
