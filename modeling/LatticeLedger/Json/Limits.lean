import LatticeLedger.Json.Value

/-!
# Limits of a careful reader

A reader that keeps a whole text before it looks for anything in it holds every part of the text
to the same limits: containers are nested no deeper than a bound, every number is within the range
of double precision, and every name and every string has a text, which one with half of a surrogate
pair has not.
-/

namespace LatticeLedger.Json

/-- The number of containers that may be nested within each other. -/
def nestingLimit : Nat := 127

namespace Value

mutual

/-- Whether a value keeps the limits when `levels` containers may still be nested. -/
def keepsLimits (levels : Nat) : Value → Bool
  | .null | .bool _ => true
  | .number literal => literal.inRange
  | .string body => body.text?.isSome
  | .array items => 0 < levels && itemsKeepLimits (levels - 1) items
  | .object members => 0 < levels && membersKeepLimits (levels - 1) members

/-- Whether all items of an array keep the limits. -/
def itemsKeepLimits (levels : Nat) : List Value → Bool
  | [] => true
  | item :: rest => item.keepsLimits levels && itemsKeepLimits levels rest

/-- Whether all members of an object keep the limits. -/
def membersKeepLimits (levels : Nat) : List (Body × Value) → Bool
  | [] => true
  | (name, value) :: rest =>
    name.text?.isSome && value.keepsLimits levels && membersKeepLimits levels rest

end

/-- The value of a text that keeps the limits throughout. -/
def ofLimitedText? (text : String) : Option Value :=
  (ofText? text).filter fun value => value.keepsLimits nestingLimit

end Value

end LatticeLedger.Json
