import RouteDocs.Yaml.Token

namespace RouteDocs
namespace Yaml

/-!
# Layout

Which blocks are open and where a key may stand.  A block is open as long as
its column is not passed to the left.  Inside brackets there are no blocks.

That something is a key shows only at the colon behind it.  So the layout
remembers, for every level of brackets, the latest place where a key may have
begun.  Such a key stands on one line and is not long.  At the colon the tokens
that announce the key are put in before it.
-/

/-- A place where a key may have begun. -/
structure KeyCandidate where
  place : Place
  /-- How many tokens come before the key. -/
  number : Nat
  /-- Whether nothing but a key can stand at this place. -/
  required : Bool

namespace KeyCandidate

/-- The greatest number of bytes from the beginning of a key to its colon. -/
def lengthLimit : Nat := 1024

/-- Whether a colon at the given place comes too late for the key. -/
def isStale (candidate : KeyCandidate) (here : Place) : Bool :=
  decide (candidate.place.line < here.line) ||
    decide (candidate.place.offset + lengthLimit < here.offset)

end KeyCandidate

/-- The tokens so far and what their layout allows next. -/
structure Layout where
  tokens : List Token := []
  count : Nat := 0
  /-- The columns of the open blocks, the innermost in front. -/
  indents : List Nat := []
  keyAllowed : Bool := true
  /-- The candidate at the present level of brackets. -/
  candidate : Option KeyCandidate := none
  /-- The candidates outside each open bracket, the innermost in front. -/
  enclosing : List (Option KeyCandidate) := []

namespace Layout

/-- Whether a bracket is open. -/
def inFlow (layout : Layout) : Bool :=
  !layout.enclosing.isEmpty

/-- Whether a column lies to the right of the innermost block. -/
def isInside (layout : Layout) (column : Nat) : Bool :=
  layout.indents.head?.all fun indent => decide (indent < column)

def put (layout : Layout) (token : Token) : Layout :=
  { layout with tokens := token :: layout.tokens, count := layout.count + 1 }

/-- Add a token before those that have come since the given number of tokens. -/
def putAt (layout : Layout) (number : Nat) (token : Token) : Layout :=
  let since := layout.count - number
  { layout with
    tokens := layout.tokens.take since ++ token :: layout.tokens.drop since
    count := layout.count + 1 }

/-- Begin a block in a column to the right of the innermost block.  Its token
comes behind the given number of tokens. -/
def openBlock (layout : Layout) (number : Nat) (token : Token) (column : Nat) : Layout :=
  if !layout.inFlow && layout.isInside column then
    { layout.putAt number token with indents := column :: layout.indents }
  else layout

/-- End the innermost blocks as long as their columns are passed. -/
def closeBlocks (layout : Layout) (isPassed : Nat -> Bool) : Layout :=
  if layout.inFlow then layout
  else
    let closed := (layout.indents.takeWhile isPassed).length
    { layout with
      tokens := List.replicate closed .endBlock ++ layout.tokens
      count := layout.count + closed
      indents := layout.indents.dropWhile isPassed }

/-- Give up the candidate.  A required key cannot be given up. -/
def dropCandidate (layout : Layout) : Option Layout :=
  if layout.candidate.any KeyCandidate.required then none
  else some { layout with candidate := none }

/-- Give up every candidate for which it is too late. -/
def dropStale (layout : Layout) (here : Place) : Option Layout :=
  let stale (candidate : KeyCandidate) : Bool := candidate.isStale here
  let kept (candidate? : Option KeyCandidate) : Option KeyCandidate :=
    candidate?.filter fun candidate => !stale candidate
  if (layout.candidate :: layout.enclosing).any fun candidate? =>
      candidate?.any fun candidate => candidate.required && stale candidate then none
  else
    some { layout with
      candidate := kept layout.candidate
      enclosing := layout.enclosing.map kept }

/-- Remember that a key may begin here.  In the column of a block it must. -/
def propose (layout : Layout) (here : Place) : Option Layout :=
  if layout.keyAllowed then
    layout.dropCandidate.map fun layout =>
      { layout with
        candidate := some
          { place := here
            number := layout.count
            required := !layout.inFlow && layout.indents.head? == some here.column } }
  else some layout

def passLine (layout : Layout) : Layout :=
  if layout.inFlow then layout else { layout with keyAllowed := true }

def beginScalar (layout : Layout) (here : Place) : Option Layout :=
  (layout.propose here).map fun layout => { layout with keyAllowed := false }

def openBracket (layout : Layout) (token : Token) (here : Place) : Option Layout :=
  (layout.propose here).map fun layout =>
    { layout.put token with
      enclosing := layout.candidate :: layout.enclosing
      candidate := none
      keyAllowed := true }

def closeBracket (layout : Layout) (token : Token) : Option Layout :=
  layout.dropCandidate.map fun layout =>
    { layout.put token with
      candidate := layout.enclosing.head?.join
      enclosing := layout.enclosing.tail
      keyAllowed := false }

def putComma (layout : Layout) : Option Layout :=
  layout.dropCandidate.map fun layout => { layout.put .comma with keyAllowed := true }

/-- Begin a block at a mark that may stand only where a key may.  Inside
brackets the mark may stand anywhere. -/
def openBlockAt (layout : Layout) (token : Token) (here : Place) : Option Layout :=
  if layout.inFlow || layout.keyAllowed then
    some (layout.openBlock layout.count token here.column)
  else none

def putDash (layout : Layout) (here : Place) : Option Layout :=
  ((layout.openBlockAt .beginItems here).bind dropCandidate).map fun layout =>
    { layout.put .dash with keyAllowed := true }

def putKeyMark (layout : Layout) (here : Place) : Option Layout :=
  ((layout.openBlockAt .beginEntries here).bind dropCandidate).map fun layout =>
    { layout.put .keyMark with keyAllowed := !layout.inFlow }

/-- Add the mark of a value.  If a key may have begun, it did. -/
def putValueMark (layout : Layout) (here : Place) : Option Layout :=
  match layout.candidate with
  | some candidate =>
    let announced := (layout.putAt candidate.number .keyMark).openBlock candidate.number
      .beginEntries candidate.place.column
    some { announced.put .valueMark with candidate := none, keyAllowed := false }
  | none =>
    (layout.openBlockAt .beginEntries here).map fun layout =>
      { layout.put .valueMark with keyAllowed := !layout.inFlow }

/-- Add a mark around a document.  It ends every block. -/
def putBoundary (layout : Layout) (token : Token) : Option Layout :=
  (layout.closeBlocks fun _ => true).dropCandidate.map fun layout =>
    { layout.put token with keyAllowed := false }

/-- The tokens of a text that ends here. -/
def finish (layout : Layout) : Option (List Token) :=
  (layout.closeBlocks fun _ => true).dropCandidate.map fun layout => layout.tokens.reverse

end Layout
end Yaml
end RouteDocs
