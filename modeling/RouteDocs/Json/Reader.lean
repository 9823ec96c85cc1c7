import RouteDocs.Json.Basic

namespace RouteDocs
namespace Json

/-!
# Reading JSON

Reading has two passes.  The first cuts the text into tokens: brackets, commas
and colons, quoted texts, and words, a word being everything else up to the
next blank or bracket.  The second replays the tokens over a stack of open
lists and objects.  Both passes go once through their input.

At most 127 lists and objects may be open at once.  A repeated key keeps its
first place and takes its last value.
-/

/-- The pieces a JSON text consists of. -/
inductive Token where
  | openList
  | closeList
  | openObject
  | closeObject
  | comma
  | colon
  | text (value : String)
  | word (characters : List Char)

def punctuation? (character : Char) : Option Token :=
  match character with
  | '[' => some .openList
  | ']' => some .closeList
  | '\x7b' => some .openObject
  | '\x7d' => some .closeObject
  | ',' => some .comma
  | ':' => some .colon
  | _ => none

/-- The blanks that may stand between tokens. -/
def isGap (character : Char) : Bool :=
  character == ' ' || character == '\n' || character == '\r' || character == '\t'

def unescape? (letter : Char) : Option Char :=
  match letter with
  | '"' => some '"'
  | '\\' => some '\\'
  | '/' => some '/'
  | 'b' => some (Char.ofNat 8)
  | 'f' => some (Char.ofNat 12)
  | 'n' => some '\n'
  | 'r' => some '\r'
  | 't' => some '\t'
  | _ => none

/-- Where the first pass stands.  Collected characters are kept in reverse. -/
inductive Scan where
  | between
  | word (collected : List Char)
  | quoted (collected : List Char)
  | escaped (collected : List Char)
  /-- Inside a numbered escape: digits still missing, and their value so far.
  A high half of a pair waits for its low half. -/
  | numbered (collected : List Char) (missing value : Nat) (high? : Option Nat)
  /-- Behind a high half: a backslash, then the letter of another numbered escape. -/
  | half (collected : List Char) (high : Nat) (slash : Bool)

/-- Finish a numbered escape.  A low half joins the high half before it; a half
on its own is no character. -/
def Scan.numberedDone (collected : List Char) (code : Nat) (high? : Option Nat) : Option Scan :=
  let isHigh := decide (0xD800 ≤ code ∧ code < 0xDC00)
  let isLow := decide (0xDC00 ≤ code ∧ code < 0xE000)
  match high? with
  | some high =>
    if isLow then
      some (.quoted (Char.ofNat (0x10000 + (high - 0xD800) * 0x400 + (code - 0xDC00)) :: collected))
    else none
  | none =>
    if isHigh then some (.half collected code false)
    else if isLow then none
    else some (.quoted (Char.ofNat code :: collected))

/-- A character between tokens. -/
def Scan.atGap (character : Char) : Scan × List Token :=
  if isGap character then (.between, [])
  else
    match punctuation? character with
    | some token => (.between, [token])
    | none => if character = '"' then (.quoted [], []) else (.word [character], [])

/-- One step of the first pass: the next state and the tokens completed by it. -/
def Scan.step (scan : Scan) (character : Char) : Option (Scan × List Token) :=
  match scan with
  | .between => some (Scan.atGap character)
  | .word collected =>
    if isGap character || (punctuation? character).isSome || character == '"' then
      let (next, tokens) := Scan.atGap character
      some (next, .word collected.reverse :: tokens)
    else some (.word (character :: collected), [])
  | .quoted collected =>
    if character = '"' then some (.between, [.text (String.ofList collected.reverse)])
    else if character = '\\' then some (.escaped collected, [])
    else if character.toNat < 32 then none
    else some (.quoted (character :: collected), [])
  | .escaped collected =>
    if character = 'u' then some (.numbered collected 4 0 none, [])
    else
      match unescape? character with
      | some plain => some (.quoted (plain :: collected), [])
      | none => none
  | .numbered collected missing value high? =>
    match Decimal.digitValue? 16 character with
    | some digit =>
      let code := 16 * value + digit
      if missing ≤ 1 then
        match Scan.numberedDone collected code high? with
        | some next => some (next, [])
        | none => none
      else some (.numbered collected (missing - 1) code high?, [])
    | none => none
  | .half collected high slash =>
    if slash then
      if character = 'u' then some (.numbered collected 4 0 (some high), []) else none
    else if character = '\\' then some (.half collected high true, [])
    else none

/-- The tokens of a text, from a state of the first pass on, behind those
already collected in reverse. -/
def tokensFrom (scan : Scan) (collected : List Token) (characters : List Char) :
    Option (List Token) :=
  match characters with
  | [] =>
    match scan with
    | .between => some collected.reverse
    | .word word => some (Token.word word.reverse :: collected).reverse
    | _ => none
  | character :: rest =>
    match scan.step character with
    | some (next, tokens) => tokensFrom next (tokens.reverse ++ collected) rest
    | none => none

/-- Collect digits into a significand of at most sixty-four bits.  The first
digit that does not fit ends the collection; the result tells how many digits
were taken and how many were left. -/
def collectDigits (significand : Nat) (digits : List Char) : Nat × Nat × Nat :=
  match digits with
  | [] => (significand, 0, 0)
  | digit :: rest =>
    let next := 10 * significand + (digit.toNat - 48)
    if next < UInt64.size then
      let (collected, taken, left) := collectDigits next rest
      (collected, taken + 1, left)
    else (significand, 0, rest.length + 1)

/-- Divide by a power of ten, in steps whose power is a finite number. -/
def divideByPower (number : Float) (power : Nat) : Float :=
  if power ≤ 308 then number / Float.ofScientific 1 false power
  else if number == 0.0 then number
  else divideByPower (number / Float.ofScientific 1 false 308) (power - 308)
termination_by power

/-- A significand times a power of ten: one multiplication or division of the
nearest numbers.  A result beyond the finite numbers is refused. -/
def scaleSignificand (significand : Nat) (power : Int) : Option Float :=
  let number := Decimal.ofNat significand
  match power with
  | .ofNat up =>
    if up ≤ 308 then
      let scaled := number * Float.ofScientific 1 false up
      if scaled.isFinite then some scaled else none
    else if significand = 0 then some number
    else none
  | .negSucc down => some (divideByPower number (down + 1))

/-- The digits in front of and behind the point, and the exponent, of a number literal. -/
structure Literal where
  negative : Bool
  whole : List Char
  fraction? : Option (List Char)
  exponent? : Option (Bool × List Char)

/-- Read a number literal: no superfluous zero in front, at least one digit
behind a point and in an exponent. -/
def Literal.read? (word : List Char) : Option Literal :=
  let (negative, unsigned) :=
    match word with
    | '-' :: rest => (true, rest)
    | _ => (false, word)
  let whole := unsigned.takeWhile Decimal.isDigit
  let afterWhole := unsigned.dropWhile Decimal.isDigit
  let wholeFits :=
    match whole with
    | [] => false
    | ['0'] => true
    | '0' :: _ => false
    | _ => true
  let (fraction?, afterFraction) :=
    match afterWhole with
    | '.' :: rest => (some (rest.takeWhile Decimal.isDigit), rest.dropWhile Decimal.isDigit)
    | _ => (none, afterWhole)
  let exponent?? : Option (Option (Bool × List Char)) :=
    match afterFraction with
    | [] => some none
    | mark :: rest =>
      if mark = 'e' ∨ mark = 'E' then
        let (down, digits) := Decimal.splitSign rest
        if !digits.isEmpty && digits.all Decimal.isDigit then some (some (down, digits)) else none
      else none
  match exponent?? with
  | some exponent? =>
    if wholeFits && fraction? != some [] then some ⟨negative, whole, fraction?, exponent?⟩ else none
  | none => none

/-- The real a literal stands for.  Digits that no longer fit the significand
are dropped and only move the point. -/
def Literal.real? (literal : Literal) : Option Float :=
  let (wholePart, _, wholeLeft) := collectDigits 0 literal.whole
  let (significand, fractionTaken, _) := collectDigits wholePart (literal.fraction?.getD [])
  let point := Int.ofNat wholeLeft - Int.ofNat fractionTaken
  let size? :=
    match literal.exponent? with
    | none => scaleSignificand significand point
    | some (down, digits) =>
      let size := Decimal.digitsValue digits
      if size < Nat.pow 2 31 then
        scaleSignificand significand (if down then point - size else point + size)
      else if significand ≠ 0 ∧ down = false then none
      else some 0.0
  size?.map fun size => if literal.negative then -size else size

/-- The value of a literal: an integer when it has neither point nor exponent
and fits sixty-four bits, signed when negative; otherwise a real.  Negative
zero is a real. -/
def Literal.value? (literal : Literal) : Option Json :=
  let size := Decimal.digitsValue literal.whole
  if literal.fraction?.isNone && literal.exponent?.isNone then
    if literal.negative then
      if 0 < size ∧ size ≤ Nat.pow 2 63 then some (.integer (-Int.ofNat size))
      else literal.real?.map .real
    else if size < UInt64.size then some (.integer (Int.ofNat size))
    else literal.real?.map .real
  else literal.real?.map .real

def wordValue? (word : List Char) : Option Json :=
  match String.ofList word with
  | "null" => some .null
  | "true" => some (.bool true)
  | "false" => some (.bool false)
  | _ =>
    match Literal.read? word with
    | some literal => literal.value?
    | none => none

/-- A list or object that is still open.  Items and entries are kept in reverse. -/
inductive Frame where
  | list (items : List Json)
  | object (entries : List (String × Json)) (key? : Option String)

/-- What may come next. -/
inductive Expect where
  | first
  | next
  /-- The colon behind a key. -/
  | colon
  | value
  /-- A comma or the end of the innermost list or object. -/
  | separator
  /-- Nothing: the value is complete. -/
  | finished (value : Json)

structure Build where
  frames : List Frame
  expect : Expect

/-- Put a finished value into the innermost open list or object. -/
def Build.give (frames : List Frame) (value : Json) : Option Build :=
  match frames with
  | [] => some ⟨[], .finished value⟩
  | .list items :: outer => some ⟨.list (value :: items) :: outer, .separator⟩
  | .object entries (some key) :: outer =>
    some ⟨.object ((key, value) :: entries) none :: outer, .separator⟩
  | .object _ none :: _ => none

/-- Whether a value may stand here: not where an object expects a key. -/
def Build.takesValue (build : Build) : Bool :=
  match build.expect, build.frames with
  | .value, _ => true
  | .first, .object _ _ :: _ => false
  | .first, _ => true
  | .next, .object _ _ :: _ => false
  | .next, _ => true
  | _, _ => false

/-- Open a list or an object, within the limit of nesting. -/
def Build.enter (build : Build) (frame : Frame) : Option Build :=
  if build.takesValue && decide (build.frames.length < 127) then
    some ⟨frame :: build.frames, .first⟩
  else none

/-- One step of the second pass. -/
def Build.step (build : Build) (token : Token) : Option Build :=
  match token, build.frames, build.expect with
  | .openList, _, _ => build.enter (.list [])
  | .openObject, _, _ => build.enter (.object [] none)
  | .closeList, .list items :: outer, .first => Build.give outer (.list items.reverse)
  | .closeList, .list items :: outer, .separator => Build.give outer (.list items.reverse)
  | .closeObject, .object entries none :: outer, .first =>
    Build.give outer (.object (Entries.ofPairs entries.reverse))
  | .closeObject, .object entries none :: outer, .separator =>
    Build.give outer (.object (Entries.ofPairs entries.reverse))
  | .comma, _ :: _, .separator => some ⟨build.frames, .next⟩
  | .colon, _, .colon => some ⟨build.frames, .value⟩
  | .text key, .object entries none :: outer, .first =>
    some ⟨.object entries (some key) :: outer, .colon⟩
  | .text key, .object entries none :: outer, .next =>
    some ⟨.object entries (some key) :: outer, .colon⟩
  | .text value, _, _ => if build.takesValue then Build.give build.frames (.text value) else none
  | .word word, _, _ =>
    if build.takesValue then
      match wordValue? word with
      | some value => Build.give build.frames value
      | none => none
    else none
  | _, _, _ => none

def Build.run (build : Build) (tokens : List Token) : Option Build :=
  match tokens with
  | [] => some build
  | token :: rest =>
    match build.step token with
    | some next => Build.run next rest
    | none => none

/-- The value a text writes, when the text is JSON. -/
def read? (text : String) : Option Json :=
  match tokensFrom .between [] text.toList with
  | some tokens =>
    match Build.run ⟨[], .first⟩ tokens with
    | some ⟨[], .finished value⟩ => some value
    | _ => none
  | none => none

end Json
end RouteDocs
