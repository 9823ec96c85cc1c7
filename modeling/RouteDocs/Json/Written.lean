import RouteDocs.Json.Basic
import RouteDocs.Decimal.Shortest

namespace RouteDocs
namespace Json

/-!
# Written JSON

A value is written either on one line without blanks, or over several lines
with two blanks per level.  Both forms keep the order of object keys.  Inside a
text only the quote, the backslash and the control characters are escaped.
-/

def hexDigit (value : Nat) : Char :=
  if value < 10 then Char.ofNat (48 + value) else Char.ofNat (87 + value)

/-- The escaped form of one character. -/
def escape (character : Char) : List Char :=
  match character with
  | '"' => ['\\', '"']
  | '\\' => ['\\', '\\']
  | '\n' => ['\\', 'n']
  | '\r' => ['\\', 'r']
  | '\t' => ['\\', 't']
  | _ =>
    let code := character.toNat
    if code = 8 then ['\\', 'b']
    else if code = 12 then ['\\', 'f']
    else if code < 32 then ['\\', 'u', '0', '0', hexDigit (code / 16), hexDigit (code % 16)]
    else [character]

def quote (text : String) : String :=
  String.ofList (['"'] ++ text.toList.flatMap escape ++ ['"'])

/-- The written form of a value without parts; lists and objects have none. -/
def scalar (value : Json) : String :=
  match value with
  | .null => "null"
  | .bool true => "true"
  | .bool false => "false"
  | .integer number => toString number
  | .real number => Decimal.render number
  | .text characters => quote characters
  | .list _ => ""
  | .object _ => ""

def braced (inside : String) : String :=
  "\x7b" ++ inside ++ "\x7d"

def bracketed (inside : String) : String :=
  "[" ++ inside ++ "]"

mutual

/-- The value on one line, without blanks. -/
def compact (value : Json) : String :=
  match value with
  | .list items => bracketed (",".intercalate (compactItems items))
  | .object entries => braced (",".intercalate (compactEntries entries))
  | .null => scalar .null
  | .bool flag => scalar (.bool flag)
  | .integer number => scalar (.integer number)
  | .real number => scalar (.real number)
  | .text characters => scalar (.text characters)

def compactItems (items : List Json) : List String :=
  match items with
  | [] => []
  | item :: rest => compact item :: compactItems rest

def compactEntries (entries : List (String × Json)) : List String :=
  match entries with
  | [] => []
  | (key, value) :: rest => (quote key ++ ":" ++ compact value) :: compactEntries rest

end

/-- A line break followed by the blanks of a level. -/
def lineBreak (level : Nat) : String :=
  "\n" ++ String.ofList (List.replicate (2 * level) ' ')

/-- Parts on lines of their own, one level further in; without parts nothing. -/
def block (level : Nat) (parts : List String) : String :=
  match parts with
  | [] => ""
  | _ :: _ =>
    lineBreak (level + 1) ++ ("," ++ lineBreak (level + 1)).intercalate parts ++ lineBreak level

mutual

/-- The value over several lines, beginning at the given level. -/
def indented (level : Nat) (value : Json) : String :=
  match value with
  | .list items => bracketed (block level (indentedItems (level + 1) items))
  | .object entries => braced (block level (indentedEntries (level + 1) entries))
  | .null => scalar .null
  | .bool flag => scalar (.bool flag)
  | .integer number => scalar (.integer number)
  | .real number => scalar (.real number)
  | .text characters => scalar (.text characters)

def indentedItems (level : Nat) (items : List Json) : List String :=
  match items with
  | [] => []
  | item :: rest => indented level item :: indentedItems level rest

def indentedEntries (level : Nat) (entries : List (String × Json)) : List String :=
  match entries with
  | [] => []
  | (key, value) :: rest =>
    (quote key ++ ": " ++ indented level value) :: indentedEntries level rest

end

/-- The value over several lines. -/
def pretty (value : Json) : String :=
  indented 0 value

end Json
end RouteDocs
