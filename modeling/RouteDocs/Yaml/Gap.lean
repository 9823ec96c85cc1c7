import RouteDocs.Yaml.Character

namespace RouteDocs
namespace Yaml

/-!
# Gaps inside scalars

A scalar may go on over several lines.  What stands between two of its words is
folded.  Blanks on one line stay as they are.  Around a line end blanks are
lost; one line feed becomes a space, and of several the first is lost.  A
separator of lines or paragraphs is never lost, and a line end that is escaped
leaves nothing behind.
-/

/-- What has been read since the last word of a scalar. -/
inductive Gap where
  /-- Blanks on the line of the word, from back to front. -/
  | blanks (text : List Char)
  /-- Line ends: the first one, unless it was escaped, and the later ones from
  back to front. -/
  | lines (first : Option Char) (later : List Char)

namespace Gap

def none : Gap := .blanks []

def isNone (gap : Gap) : Bool :=
  match gap with
  | .blanks text => text.isEmpty
  | .lines _ _ => false

def endsLine (gap : Gap) : Bool :=
  match gap with
  | .blanks _ => false
  | .lines _ _ => true

def addBlank (gap : Gap) (character : Char) : Gap :=
  match gap with
  | .blanks text => .blanks (character :: text)
  | .lines first later => .lines first later

def addBreak (gap : Gap) (character : Char) : Gap :=
  match gap with
  | .blanks _ => .lines (some character) []
  | .lines first later => .lines first (character :: later)

/-- What the gap leaves in the scalar, from back to front. -/
def folded (gap : Gap) : List Char :=
  match gap with
  | .blanks text => text
  | .lines Option.none later => later
  | .lines (some first) later =>
    if first == lineFeed then if later.isEmpty then [' '] else later
    else later ++ [first]

end Gap
end Yaml
end RouteDocs
