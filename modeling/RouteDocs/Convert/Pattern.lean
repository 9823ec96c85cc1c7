namespace RouteDocs

/-!
# Patterns

A pattern describes a set of texts and is shown in documents as a regular
expression.  Patterns that depend on free text, such as a currency symbol, are
built from parts, so that the described set is known besides the spelling.
A free text is spelled with a backslash in front of every character that means
something in a regular expression.
-/

/-- A regular expression by its parts. -/
inductive Pattern where
  /-- One character that means only itself. -/
  | character (symbol : Char)
  /-- One of the ten ASCII digits. -/
  | digit
  /-- A free text, exactly as it is. -/
  | exactly (text : List Char)
  | sequence (first second : Pattern)
  | either (first second : Pattern)
  /-- A pattern several times in a row, at least `least` and, where said, at most `most` times. -/
  | repeated (body : Pattern) (least : Nat) (most : Option Nat)

namespace Pattern

/-- Whether a character means something in a regular expression. -/
def isSpecial (character : Char) : Bool :=
  "\\.+*?()|[]\x7b\x7d^$#&-~".toList.contains character

/-- A free text as a regular expression that describes the text alone. -/
def escape (text : List Char) : List Char :=
  text.flatMap fun character => if isSpecial character then ['\\', character] else [character]

/-- Whether the spelling is one unit, to which a count can be attached. -/
def isUnit (pattern : Pattern) : Bool :=
  match pattern with
  | .character _ => true
  | .digit => true
  | _ => false

def grouped (body : String) : String :=
  "(?:" ++ body ++ ")"

def countMark (least : Nat) (most : Option Nat) : String :=
  match least, most with
  | 0, some 1 => "?"
  | 0, none => "*"
  | 1, none => "+"
  | _, none => "\x7b" ++ toString least ++ ",\x7d"
  | _, some bound =>
    if least = bound then "\x7b" ++ toString least ++ "\x7d"
    else "\x7b" ++ toString least ++ "," ++ toString bound ++ "\x7d"

/-- The spelling of a pattern.  Alternatives stand in a group, and so does
everything that is counted and longer than one unit. -/
def spelling (pattern : Pattern) : String :=
  match pattern with
  | .character symbol => String.ofList [symbol]
  | .digit => "[0-9]"
  | .exactly text => String.ofList (escape text)
  | .sequence first second => first.spelling ++ second.spelling
  | .either first second => grouped (first.spelling ++ "|" ++ second.spelling)
  | .repeated body least most =>
    (if body.isUnit then body.spelling else grouped body.spelling) ++ countMark least most

/-- The spelling for a text that is described as a whole. -/
def anchored (pattern : Pattern) : String :=
  "^" ++ pattern.spelling ++ "$"

/-- The spelling for a text that contains the given part. -/
def around (part : String) : String :=
  ".*" ++ String.ofList (escape part.toList) ++ ".*"

end Pattern
end RouteDocs
