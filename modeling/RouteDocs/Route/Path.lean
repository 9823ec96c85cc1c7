import RouteDocs.Text.Blank

namespace RouteDocs
namespace Path

/-!
# Paths

A path may mark a placeholder by a colon in front of its name or by braces
around it.  The normal form uses braces, begins with a slash, has no two
slashes in a row, and ends with a slash only when it is nothing else.
-/

/-- Whether a character can stand in a name behind a colon. -/
def isNameCharacter (character : Char) : Bool :=
  character.isAlphanum || character == '_'

/-- Whether a text begins with such a character. -/
def beginsName (characters : List Char) : Bool :=
  match characters with
  | [] => false
  | character :: _ => isNameCharacter character

/-- Write a name behind a colon between braces.  `inside` says whether the
text so far ends inside such a name. -/
def brace (inside : Bool) (characters : List Char) : List Char :=
  match characters with
  | [] => if inside then ['\x7d'] else []
  | character :: rest =>
    if inside && isNameCharacter character then character :: brace true rest
    else
      let opened := character == ':' && beginsName rest
      (if inside then ['\x7d'] else []) ++
        (if opened then '\x7b' else character) :: brace opened rest

/-- Leave out every slash that follows a slash.  `afterSlash` says whether the
text so far ends with one. -/
def collapse (afterSlash : Bool) (characters : List Char) : List Char :=
  match characters with
  | [] => []
  | character :: rest =>
    if character = '/' then
      if afterSlash then collapse true rest else '/' :: collapse true rest
    else character :: collapse false rest

def dropLastSlash (characters : List Char) : List Char :=
  if 1 < characters.length && characters.getLast? == some '/' then characters.dropLast
  else characters

def normalize (path : String) : String :=
  String.ofList (dropLastSlash ('/' :: collapse true (brace false (Text.trimList path.toList))))

/-- The names between braces, in order.  `candidate` is the text behind an
open brace, if there is one; a name is not empty and has no slash in it. -/
def placeholdersFrom (candidate : Option (List Char)) (characters : List Char) :
    List (List Char) :=
  match characters with
  | [] => []
  | character :: rest =>
    match candidate with
    | none => placeholdersFrom (if character = '\x7b' then some [] else none) rest
    | some name =>
      if character = '\x7d' then
        if name.isEmpty then placeholdersFrom none rest else name :: placeholdersFrom none rest
      else if character = '/' then placeholdersFrom none rest
      else placeholdersFrom (some (name ++ [character])) rest

/-- The names of the placeholders of a path, in order of appearance. -/
def placeholders (path : String) : List String :=
  (placeholdersFrom none path.toList).map String.ofList

end Path
end RouteDocs
