namespace RouteDocs
namespace Yaml

/-!
# Characters

Which characters a text may hold, which of them separate tokens and lines, and
which characters are written by escapes.
-/

/-- Whether a character can stand in a text at all. -/
def isAllowed (character : Char) : Bool :=
  let code := character.toNat
  [0x9, 0xA, 0xD, 0x85].contains code || (decide (0x20 ≤ code) && decide (code ≤ 0x7E)) ||
    (decide (0xA0 ≤ code) && decide (code ≤ 0xFFFD)) || decide (0x10000 ≤ code)

def byteOrderMark : Char := '\uFEFF'

/-- The end of a line in its common form. -/
def lineFeed : Char := '\n'

/-- The text with every common end of a line written as a line feed: a carriage
return alone or before a line feed, and the next-line character.  The line and
paragraph separators stay what they are, because a scalar keeps them. -/
def unifyLineEnds (characters : List Char) : List Char :=
  match characters with
  | '\r' :: '\n' :: rest => lineFeed :: unifyLineEnds rest
  | character :: rest =>
    (if character == '\r' || character == '\u0085' then lineFeed else character) ::
      unifyLineEnds rest
  | [] => []

def isBreak (character : Char) : Bool :=
  character == lineFeed || character == '\u2028' || character == '\u2029'

/-- Whether a character separates words on a line. -/
def isBlank (character : Char) : Bool :=
  character == ' ' || character == '\t'

/-- Whether a mark is set off by what follows: a blank, the end of the line or
the end of the text. -/
def isApart (rest : List Char) : Bool :=
  match rest with
  | [] => true
  | next :: _ => isBlank next || isBreak next

/-- The marks that bound and separate what stands in brackets. -/
def flowMarks : List Char := [',', '[', ']', '\x7b', '\x7d']

/-- The character that one escaped character stands for. -/
def escaped? (character : Char) : Option Char :=
  let code? :=
    match character with
    | '0' => some 0x0
    | 'a' => some 0x7
    | 'b' => some 0x8
    | 't' => some 0x9
    | '\t' => some 0x9
    | 'n' => some 0xA
    | 'v' => some 0xB
    | 'f' => some 0xC
    | 'r' => some 0xD
    | 'e' => some 0x1B
    | ' ' => some 0x20
    | '"' => some 0x22
    | '/' => some 0x2F
    | '\\' => some 0x5C
    | 'N' => some 0x85
    | '_' => some 0xA0
    | 'L' => some 0x2028
    | 'P' => some 0x2029
    | _ => none
  code?.map Char.ofNat

/-- How many digits follow an escaped letter that begins the number of a character. -/
def codeLength? (character : Char) : Option Nat :=
  match character with
  | 'x' => some 2
  | 'u' => some 4
  | 'U' => some 8
  | _ => none

/-- The character with a number; the surrogates are none. -/
def charOfCode? (code : Nat) : Option Char :=
  if code < 0xD800 ∨ (0xDFFF < code ∧ code ≤ 0x10FFFF) then some (Char.ofNat code) else none

end Yaml
end RouteDocs
