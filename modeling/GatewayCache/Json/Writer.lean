/-
  GatewayCache.Json.Writer

  Writing JSON bytes without blanks.

  Each function writes one kind of value; lists and maps take the written forms
  of their parts.
-/

import GatewayCache.Json.Quoted
import GatewayCache.Text.Decimal

namespace GatewayCache.Json

/-- The bytes of the word `null`. -/
def nullWord : List UInt8 := [0x6E, 0x75, 0x6C, 0x6C]

/-- A truth value. -/
def boolean : Bool → List UInt8
  | true => [0x74, 0x72, 0x75, 0x65]
  | false => [0x66, 0x61, 0x6C, 0x73, 0x65]

/-- A natural number. -/
def natural (n : Nat) : List UInt8 :=
  (Text.Decimal.write n).map fun c => UInt8.ofNat c.toNat

/-- A list of written values. -/
def list (items : List (List UInt8)) : List UInt8 :=
  0x5B :: (List.intercalate [0x2C] items ++ [0x5D])

/-- A name with a written value. -/
def member (m : String × List UInt8) : List UInt8 := quoted m.1 ++ 0x3A :: m.2

/-- A map of names to written values. -/
def map (members : List (String × List UInt8)) : List UInt8 :=
  0x7B :: (List.intercalate [0x2C] (members.map member) ++ [0x7D])

end GatewayCache.Json
