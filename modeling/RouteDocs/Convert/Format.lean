import RouteDocs.Convert.Pattern
import RouteDocs.Rule.Basic

namespace RouteDocs
namespace Format

/-!
# Formats with a pattern and an example

Kinds of texts that have a form of their own are shown with a pattern and with
one example of it.
-/

def emailExample : String := "user@example.com"

def urlExample : String := "https://example.com"

/-- The pattern of a hardware address, with dashes, colons or points. -/
def macPattern : String :=
  "^(?:(?:[0-9A-Fa-f]\x7b2\x7d-)\x7b5\x7d|(?:[0-9A-Fa-f]\x7b2\x7d:)\x7b5\x7d)" ++
  "[0-9A-Fa-f]\x7b2\x7d$" ++
  "|^(?:[0-9A-Fa-f]\x7b4\x7d\\.)\x7b2\x7d[0-9A-Fa-f]\x7b4\x7d$"

def macExample : String := "01:C8:95:4B:65:FE"

/-- The pattern of a card number; blanks and dashes may stand between digits. -/
def luhnPattern : String := "^[0-9](?:[0-9 -]*[0-9])?$"

/-- The example of a card number.  Its check digit is right. -/
def luhnExample : String := "4242424242424242"

def objectIdPattern : String := "^[0-9a-fA-F]\x7b24\x7d$"

def objectIdExample : String := "507f1f77bcf86cd799439011"

def dateExample : String := "2024-01-01T00:00:00.000Z"

/-- The example of a date written as a number of milliseconds; the same moment. -/
def epochExample : Int := 1704067200000

def alphaPattern : String := "^[a-zA-Z]+$"

def numericPattern : String := "^-?[0-9]+(?:\\.[0-9]+)?$"

def alphanumPattern : String := "^[a-zA-Z0-9]+$"

def alphadashPattern : String := "^[a-zA-Z0-9_-]+$"

def hexPattern : String := "^[0-9a-fA-F]+$"

def base64Pattern : String :=
  "^(?:[A-Za-z0-9+/]\x7b4\x7d)*(?:[A-Za-z0-9+/]\x7b2\x7d==|[A-Za-z0-9+/]\x7b3\x7d=)?$"

def singleLinePattern : String := "^[^\\r\\n]*$"

def markPattern (limits : TextLimits) : Option String :=
  if limits.alpha then some alphaPattern
  else if limits.numeric then some numericPattern
  else if limits.alphanum then some alphanumPattern
  else if limits.alphadash then some alphadashPattern
  else if limits.hex then some hexPattern
  else if limits.base64 then some base64Pattern
  else if limits.singleLine then some singleLinePattern
  else none

/-- The part of a universal identifier that depends on the version. -/
def uuidMiddle (version : Option Nat) : String :=
  match version with
  | some number =>
    if 1 ≤ number ∧ number ≤ 5 then
      toString number ++ "[0-9a-fA-F]\x7b3\x7d-[89abAB][0-9a-fA-F]\x7b3\x7d"
    else "[0-9a-fA-F]\x7b4\x7d-[0-9a-fA-F]\x7b4\x7d"
  | none => "[0-9a-fA-F]\x7b4\x7d-[0-9a-fA-F]\x7b4\x7d"

/-- The pattern of a universal identifier.  Only the versions one to five have
a pattern of their own. -/
def uuidPattern (version : Option Nat) : String :=
  "^[0-9a-fA-F]\x7b8\x7d-[0-9a-fA-F]\x7b4\x7d-" ++ uuidMiddle version ++ "-[0-9a-fA-F]\x7b12\x7d$"

/-- The example of a universal identifier.  A version without one of its own
shows the example of version four. -/
def uuidExample (version : Option Nat) : String :=
  match version with
  | some 1 => "6ba7b810-9dad-11d1-80b4-00c04fd430c8"
  | some 2 => "000003e8-2d6c-21ef-9100-325096b39f47"
  | some 3 => "a3bb189e-8bf9-3888-9912-ace4e6543002"
  | some 5 => "a6edc906-2f9f-5fb2-a373-efac406f0ef2"
  | _ => "10ba038e-48da-487b-96e8-8d3b99b6d18a"

end Format

namespace CurrencyFormat

/-- The separator between groups of three digits; a comma unless said. -/
def thousand (format : CurrencyFormat) : String :=
  format.thousandSeparator.getD ","

/-- The separator in front of the fraction; a point unless said. -/
def decimal (format : CurrencyFormat) : String :=
  format.decimalSeparator.getD "."

def symbolShape (format : CurrencyFormat) : Pattern :=
  match format.symbol with
  | none => .exactly []
  | some symbol =>
    if format.symbolOptional then .repeated (.exactly symbol.toList) 0 (some 1)
    else .exactly symbol.toList

/-- The pattern of the whole units: groups of three digits, or digits without groups. -/
def unitsShape (format : CurrencyFormat) : Pattern :=
  .either
    (.sequence (.repeated .digit 1 (some 3))
      (.repeated
        (.sequence (.exactly format.thousand.toList) (.repeated .digit 3 (some 3))) 0 none))
    (.repeated .digit 1 none)

/-- The pattern of the fraction: at most two digits, or none at all. -/
def fractionShape (format : CurrencyFormat) : Pattern :=
  .repeated (.sequence (.exactly format.decimal.toList) (.repeated .digit 1 (some 2))) 0 (some 1)

def shape (format : CurrencyFormat) : Pattern :=
  .sequence (.repeated (.character '-') 0 (some 1))
    (.sequence format.symbolShape (.sequence format.unitsShape format.fractionShape))

/-- The pattern of an amount as shown; a custom pattern is shown as it is. -/
def pattern (format : CurrencyFormat) : String :=
  match format.customPattern with
  | some custom => custom
  | none => format.shape.anchored

/-- An amount written in the format.  A custom pattern has no example. -/
def example? (format : CurrencyFormat) : Option String :=
  match format.customPattern with
  | some _ => none
  | none =>
    some (format.symbol.getD "" ++ "12" ++ format.thousand ++ "345" ++ format.decimal ++ "67")

end CurrencyFormat
end RouteDocs
