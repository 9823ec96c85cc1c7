import RouteDocs.Text.Blank

namespace RouteDocs

/-!
# Versions of the document format

A document is written for one of two lines of the format.  The lines differ
in how they spell a nullable type, an exclusive bound and an example.
-/

/-- A supported line of the document format. -/
inductive Version where
  | v30
  | v31
deriving DecidableEq

namespace Version

def line (version : Version) : String :=
  match version with
  | .v30 => "3.0"
  | .v31 => "3.1"

/-- Examples are a list; the earlier line has a single example. -/
def examplesArray (version : Version) : Bool :=
  version == .v31

/-- An exclusive bound is a number of its own; in the earlier line it is a
mark on the inclusive bound. -/
def numericExclusiveBounds (version : Version) : Bool :=
  version == .v31

@[simp] theorem examplesArray_v30 : v30.examplesArray = false := rfl

@[simp] theorem examplesArray_v31 : v31.examplesArray = true := rfl

@[simp] theorem numericExclusiveBounds_v30 : v30.numericExclusiveBounds = false := rfl

@[simp] theorem numericExclusiveBounds_v31 : v31.numericExclusiveBounds = true := rfl

/-- The line a version text belongs to: the name of the line, alone or
followed by a point and anything else. -/
def ofText? (text : String) : Option Version :=
  let trimmed := Text.trimList text.toList
  let belongs (version : Version) : Bool :=
    trimmed == version.line.toList || (version.line.toList ++ ['.']).isPrefixOf trimmed
  if belongs .v30 then some .v30
  else if belongs .v31 then some .v31
  else none

end Version
end RouteDocs
