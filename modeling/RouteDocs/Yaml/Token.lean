import RouteDocs.Yaml.Character

namespace RouteDocs
namespace Yaml

/-!
# Tokens

A text is cut into scalars and marks.  Where blocks begin and end is said by
tokens too, so that nobody behind this stage needs to look at columns.
-/

inductive Token where
  | bare (text : List Char)
  | quoted (text : List Char)
  /-- The mark of an item. -/
  | dash
  /-- The mark of a key, which is written only before a key that is no simple one. -/
  | keyMark
  | valueMark
  | comma
  | openList
  | closeList
  | openMap
  | closeMap
  | beginItems
  | beginEntries
  | endBlock
  | beginDocument
  | endDocument
deriving DecidableEq

/-- A place in a text: how many bytes lie before it, its line and its column. -/
structure Place where
  offset : Nat := 0
  line : Nat := 0
  column : Nat := 0

/-- The place behind a character. -/
def Place.after (place : Place) (character : Char) : Place :=
  let offset := place.offset + character.utf8Size
  if isBreak character then { offset := offset, line := place.line + 1 }
  else { place with offset := offset, column := place.column + 1 }

end Yaml
end RouteDocs
