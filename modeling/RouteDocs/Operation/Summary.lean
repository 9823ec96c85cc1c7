import RouteDocs.Text.Blank
import RouteDocs.Text.Word

namespace RouteDocs

/-!
# Summaries

The summary of an operation is made by a template.  A template is cut into
pieces once, before any value is known, so what a value contributes is never
cut again.  A placeholder is a word between two open and two closed braces,
with blanks around the word or without; a word that names no value stays as
it is written.
-/

/-- The values that a summary is made of. -/
structure SummaryValues where
  summary : String
  action : String
  autoAlias : String

/-- A piece of a template. -/
inductive Piece where
  | literal (character : Char)
  /-- A placeholder with its word and with all that it is written with. -/
  | placeholder (word written : List Char)
deriving DecidableEq

namespace Piece

def written (piece : Piece) : List Char :=
  match piece with
  | .literal character => [character]
  | .placeholder _ all => all

/-- What stands in the summary for a piece. -/
def fill (values : SummaryValues) (piece : Piece) : List Char :=
  match piece with
  | .literal character => [character]
  | .placeholder word all =>
    if word = "summary".toList then values.summary.toList
    else if word = "action".toList then values.action.toList
    else if word = "autoAlias".toList then values.autoAlias.toList
    else all

/-- The word of the placeholder at the beginning of a text, with the text
behind the placeholder. -/
def placeholder? (characters : List Char) : Option (List Char × List Char) :=
  match characters with
  | '\x7b' :: '\x7b' :: inside =>
    let fromWord := inside.dropWhile Text.isBlank
    let word := fromWord.takeWhile Text.isWord
    match (fromWord.dropWhile Text.isWord).dropWhile Text.isBlank with
    | '\x7d' :: '\x7d' :: rest => if word.isEmpty then none else some (word, rest)
    | _ => none
  | _ => none

/-- The pieces of a template.  `skip` counts the characters in front that
belong to a placeholder already found. -/
def ofTemplate (skip : Nat) (characters : List Char) : List Piece :=
  match characters with
  | [] => []
  | character :: rest =>
    match skip with
    | more + 1 => ofTemplate more rest
    | 0 =>
      match placeholder? (character :: rest) with
      | some (word, after) =>
        let all := (character :: rest).take (rest.length + 1 - after.length)
        .placeholder word all :: ofTemplate (rest.length - after.length) rest
      | none => .literal character :: ofTemplate 0 rest

end Piece

/-- How summaries are made. -/
inductive SummaryTemplate where
  | pattern (text : String)
  | function (make : SummaryValues -> String)

namespace SummaryTemplate

def standard : SummaryTemplate :=
  .pattern "\x7b\x7bsummary\x7d\x7d\n            (\x7b\x7baction\x7d\x7d)\x7b\x7bautoAlias\x7d\x7d"

/-- The summary, without blanks at its ends. -/
def render (template : SummaryTemplate) (values : SummaryValues) : String :=
  match template with
  | .function make => Text.trim (make values)
  | .pattern text =>
    let filled := (Piece.ofTemplate 0 text.toList).flatMap (Piece.fill values)
    String.ofList (Text.trimList filled)

end SummaryTemplate
end RouteDocs
