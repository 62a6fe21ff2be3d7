/-
  GatewayCache.Text.Case

  ASCII letters in lower case. All other characters stay as they are.
-/

namespace GatewayCache.Text

/-- Characters with ASCII capital letters turned into small ones. -/
def lower (cs : List Char) : List Char := cs.map Char.toLower

/-- A string with ASCII capital letters turned into small ones. -/
def lowered (s : String) : String := String.ofList (lower s.toList)

end GatewayCache.Text
