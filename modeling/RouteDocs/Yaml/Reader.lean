import RouteDocs.Decimal.Numeral
import RouteDocs.Yaml.Gap
import RouteDocs.Yaml.Layout

namespace RouteDocs
namespace Yaml

/-!
# Reading tokens

The text is read one character at a time; what follows the character is only
looked at.  A bare scalar ends at a colon or a comment with a blank between, at
a line that does not stand further to the right than its block, and inside
brackets also at a comma or a bracket.  Blank lines and comments leave no
tokens.

Anchors, tags, directives and scalars in the form of blocks are refused.
-/

/-- What is being read.  The texts of scalars are kept from back to front. -/
inductive Mode where
  | between
  | comment
  /-- Inside a mark around a document, with the characters still to come. -/
  | boundary (left : Nat)
  | bare (text : List Char) (gap : Gap)
  | single (text : List Char) (gap : Gap)
  /-- Behind a quote that stands before another one and means itself. -/
  | singleQuote (text : List Char)
  | double (text : List Char) (gap : Gap)
  | escape (text : List Char)
  /-- Inside the number of a character, with the digits still to come. -/
  | code (text : List Char) (left value : Nat)

structure Progress where
  mode : Mode := .between
  here : Place := {}
  layout : Layout := {}

/-- Whether a mark around a document stands at the beginning of a text. -/
def isBoundary (mark : String) (text : List Char) : Bool :=
  mark.toList.isPrefixOf text && isApart (text.drop mark.length)

def beginMark : String := "---"

def endMark : String := "..."

/-- The characters with which no token begins. -/
def reserved : List Char := "&*!|>%@\x60\t".toList

namespace Progress

def advance (progress : Progress) (character : Char) : Progress :=
  { progress with here := progress.here.after character }

/-- Whether one of the marks around a document stands here. -/
def isAtBoundary (progress : Progress) (text : List Char) : Bool :=
  progress.here.column == 0 && (isBoundary beginMark text || isBoundary endMark text)

/-- The layout and mode behind the first character of a token. -/
def beginToken (layout : Layout) (here : Place) (character : Char) (rest : List Char) :
    Option (Layout × Mode) :=
  let text := character :: rest
  let between (layout? : Option Layout) : Option (Layout × Mode) :=
    layout?.map fun layout => (layout, .between)
  if here.column == 0 && isBoundary beginMark text then
    (layout.putBoundary .beginDocument).map fun layout => (layout, .boundary 2)
  else if here.column == 0 && isBoundary endMark text then
    (layout.putBoundary .endDocument).map fun layout => (layout, .boundary 2)
  else if character == '[' then between (layout.openBracket .openList here)
  else if character == '\x7b' then between (layout.openBracket .openMap here)
  else if character == ']' then between (layout.closeBracket .closeList)
  else if character == '\x7d' then between (layout.closeBracket .closeMap)
  else if character == ',' then between layout.putComma
  else if character == '-' && isApart rest then between (layout.putDash here)
  else if character == '?' && (layout.inFlow || isApart rest) then
    between (layout.putKeyMark here)
  else if character == ':' && (layout.inFlow || isApart rest) then
    between (layout.putValueMark here)
  else if reserved.contains character then none
  else
    (layout.beginScalar here).map fun layout =>
      (layout,
        if character == '\'' then .single [] .none
        else if character == '"' then .double [] .none
        else .bare [character] .none)

/-- Go on by a character between two tokens. -/
def stepBetween (progress : Progress) (character : Char) (rest : List Char) : Option Progress :=
  let layout := progress.layout
  let next := { progress.advance character with mode := .between }
  if character == byteOrderMark && progress.here.column == 0 then some next
  else if character == ' ' then some next
  else if character == '\t' && (layout.inFlow || !layout.keyAllowed) then some next
  else if character == '#' then some { next with mode := .comment }
  else if isBreak character then some { next with layout := layout.passLine }
  else
    match layout.dropStale progress.here with
    | none => none
    | some layout =>
      let layout := layout.closeBlocks fun indent => decide (progress.here.column < indent)
      (beginToken layout progress.here character rest).map fun (layout, mode) =>
        { next with layout := layout, mode := mode }

/-- Whether a bare scalar with a gap behind its last word ends before a
character that is neither a blank nor a line end. -/
def endsBare (progress : Progress) (gap : Gap) (character : Char) (rest : List Char) : Bool :=
  let layout := progress.layout
  (gap.endsLine && !layout.inFlow && !layout.isInside progress.here.column) ||
  progress.isAtBoundary (character :: rest) ||
  (character == '#' && !gap.isNone) ||
  (character == ':' && isApart rest) ||
  (layout.inFlow && flowMarks.contains character)

/-- Whether a colon inside brackets is glued to a mark, which is refused. -/
def isGlued (progress : Progress) (character : Char) (rest : List Char) : Bool :=
  progress.layout.inFlow && character == ':' &&
    rest.head?.any fun next => next == '?' || flowMarks.contains next

/-- The layout behind a bare scalar.  If its line has ended, a key may follow. -/
def putBare (layout : Layout) (text : List Char) (gap : Gap) : Layout :=
  { layout.put (.bare text.reverse) with keyAllowed := layout.keyAllowed || gap.endsLine }

/-- Go on by a character of a bare scalar or behind it. -/
def stepBare (progress : Progress) (text : List Char) (gap : Gap) (character : Char)
    (rest : List Char) : Option Progress :=
  let next := progress.advance character
  if isBreak character then some { next with mode := .bare text (gap.addBreak character) }
  else if isBlank character then
    if character == '\t' && gap.endsLine && !progress.layout.isInside progress.here.column then none
    else some { next with mode := .bare text (gap.addBlank character) }
  else if progress.endsBare gap character rest then
    stepBetween { progress with layout := putBare progress.layout text gap } character rest
  else if progress.isGlued character rest then none
  else some { next with mode := .bare (character :: (gap.folded ++ text)) .none }

/-- Go on by a character inside quotes.  `mode` says how a text and a gap are
kept, and `word` how a character of a word is read behind a text. -/
def stepQuoted (progress : Progress) (mode : List Char -> Gap -> Mode)
    (word : List Char -> Option Progress) (text : List Char) (gap : Gap) (character : Char)
    (rest : List Char) : Option Progress :=
  let next := progress.advance character
  if isBreak character then some { next with mode := mode text (gap.addBreak character) }
  else if isBlank character then some { next with mode := mode text (gap.addBlank character) }
  else if progress.isAtBoundary (character :: rest) then none
  else word (gap.folded ++ text)

/-- Go on behind the closing quote of a scalar. -/
def closeQuoted (progress : Progress) (text : List Char) : Progress :=
  { progress with mode := .between, layout := progress.layout.put (.quoted text.reverse) }

/-- Go on by a character behind a backslash.  An escaped line end leaves
nothing behind. -/
def stepEscape (progress : Progress) (text : List Char) (character : Char) : Option Progress :=
  let next := progress.advance character
  if isBreak character then some { next with mode := .double text (.lines none []) }
  else
    match codeLength? character with
    | some length => some { next with mode := .code text length 0 }
    | none =>
      (escaped? character).map fun meant => { next with mode := .double (meant :: text) .none }

/-- Go on by a digit of the number of a character. -/
def stepCode (progress : Progress) (text : List Char) (left value : Nat) (character : Char) :
    Option Progress :=
  let next := progress.advance character
  match Decimal.digitValue? 16 character with
  | none => none
  | some digit =>
    let value := 16 * value + digit
    if left ≤ 1 then
      (charOfCode? value).map fun meant => { next with mode := .double (meant :: text) .none }
    else some { next with mode := .code text (left - 1) value }

/-- Go on by one character. -/
def step (progress : Progress) (character : Char) (rest : List Char) : Option Progress :=
  let next := progress.advance character
  match progress.mode with
  | .between => progress.stepBetween character rest
  | .comment => if isBreak character then progress.stepBetween character rest else some next
  | .boundary left =>
    some { next with mode := if left ≤ 1 then .between else .boundary (left - 1) }
  | .bare text gap => progress.stepBare text gap character rest
  | .single text gap =>
    progress.stepQuoted .single
      (fun text =>
        if character != '\'' then some { next with mode := .single (character :: text) .none }
        else if rest.head? == some '\'' then some { next with mode := .singleQuote text }
        else some (next.closeQuoted text))
      text gap character rest
  | .singleQuote text => some { next with mode := .single (character :: text) .none }
  | .double text gap =>
    progress.stepQuoted .double
      (fun text =>
        if character == '"' then some (next.closeQuoted text)
        else if character == '\\' then some { next with mode := .escape text }
        else some { next with mode := .double (character :: text) .none })
      text gap character rest
  | .escape text => progress.stepEscape text character
  | .code text left value => progress.stepCode text left value character

def finish (progress : Progress) : Option (List Token) :=
  match progress.mode with
  | .between => progress.layout.finish
  | .comment => progress.layout.finish
  | .boundary _ => progress.layout.finish
  | .bare text gap => (putBare progress.layout text gap).finish
  | _ => none

def run (progress : Progress) (characters : List Char) : Option (List Token) :=
  match characters with
  | [] => progress.finish
  | character :: rest =>
    match progress.step character rest with
    | some after => run after rest
    | none => none

end Progress

def tokens? (text : String) : Option (List Token) :=
  if text.toList.all isAllowed then Progress.run {} (unifyLineEnds text.toList) else none

end Yaml
end RouteDocs
