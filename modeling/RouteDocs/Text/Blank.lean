namespace RouteDocs
namespace Text

/-!
# White space and the pieces between separators

White space is the Unicode property of that name: twenty-five code points.
Names, versions, methods and the parts of a shorthand are all trimmed by it.
-/

/-- The white space characters as closed ranges of code points, ascending and apart. -/
def blankRanges : List (Nat × Nat) :=
  [(0x9, 0xD), (0x20, 0x20), (0x85, 0x85), (0xA0, 0xA0), (0x1680, 0x1680), (0x2000, 0x200A),
   (0x2028, 0x2029), (0x202F, 0x202F), (0x205F, 0x205F), (0x3000, 0x3000)]

def isBlank (character : Char) : Bool :=
  blankRanges.any fun range =>
    decide (range.1 ≤ character.toNat) && decide (character.toNat ≤ range.2)

/-- Drop the white space in front. -/
def trimFront (characters : List Char) : List Char :=
  characters.dropWhile isBlank

/-- Drop the white space at the end: a blank is kept exactly when something
that is not blank follows it. -/
def trimBack : List Char -> List Char
  | [] => []
  | character :: rest =>
    match trimBack rest with
    | [] => if isBlank character then [] else [character]
    | kept => character :: kept

/-- Drop the white space at both ends. -/
def trimList (characters : List Char) : List Char :=
  trimBack (trimFront characters)

def trim (text : String) : String :=
  String.ofList (trimList text.toList)

/-- The pieces of a text between the occurrences of a separator.  There is
one piece more than there are separators, so the empty text is one empty piece. -/
def pieces (separator : Char) : List Char -> List (List Char)
  | [] => [[]]
  | character :: rest =>
    match pieces separator rest with
    | [] => [[]]
    | piece :: others =>
      if character = separator then [] :: piece :: others
      else (character :: piece) :: others

def splitFirst (separator : Char) : List Char -> Option (List Char × List Char)
  | [] => none
  | character :: rest =>
    if character = separator then some ([], rest)
    else
      match splitFirst separator rest with
      | some (before, after) => some (character :: before, after)
      | none => none

/-- The text in front of an ending, when the text has that ending. -/
def withoutEnding (ending characters : List Char) : Option (List Char) :=
  if ending.isSuffixOf characters then some (characters.take (characters.length - ending.length))
  else none

end Text
end RouteDocs
