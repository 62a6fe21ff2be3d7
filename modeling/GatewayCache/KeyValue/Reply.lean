/-
  GatewayCache.KeyValue.Reply

  Replies of a key-value server, and reading values out of them.

  A reply with an error in it, at any depth, is no value. Numbers may come as
  integers or be spelled in text, texts may come as bytes, as simple strings or
  as integers. A single run of bytes counts as a list of one.
-/

import GatewayCache.Text.Blank
import GatewayCache.Text.Decimal
import GatewayCache.Text.Utf8

namespace GatewayCache

/-- A reply of a key-value server. -/
inductive ServerReply where
  | bulk (bytes : List UInt8)
  | nothing
  | integer (n : Int64)
  | simple (text : String)
  | error (text : String)
  | array (items : List ServerReply)
deriving Repr

namespace ServerReply

/-- Whether there is an error in a reply. -/
def hasError : ServerReply → Bool
  | .error _ => true
  | .array items => items.attach.any fun r => r.1.hasError
  | _ => false
termination_by r => sizeOf r
decreasing_by
  have := List.sizeOf_lt_of_mem r.2
  simp only [array.sizeOf_spec]
  omega

/-- The integer reply with a line as its text. Blanks around the number do not
    count; a line that spells no number is as good as an error. -/
def ofIntegerLine (s : String) : ServerReply :=
  match Text.Decimal.readSigned (Text.trim s.toList) with
  | some n => .integer (Int64.ofInt n)
  | none => .error "no integer"

/-- A number of 64 bits. A negative integer stands for the number that has the
    same bits. -/
def natural? : ServerReply → Option Nat
  | .integer n => some n.toUInt64.toNat
  | .simple s => Text.Decimal.read Text.Decimal.word64 s.toList
  | .bulk bs =>
      (Text.Utf8.decode? bs).bind fun s => Text.Decimal.read Text.Decimal.word64 s.toList
  | _ => none

/-- A text. -/
def text? : ServerReply → Option String
  | .bulk bs => Text.Utf8.decode? bs
  | .simple s => some s
  | .integer n =>
      let digits := String.ofList (Text.Decimal.write n.toInt.natAbs)
      some (if n < 0 then "-" ++ digits else digits)
  | _ => none

/-- A list of texts. -/
def texts? : ServerReply → Option (List String)
  | .array items => items.mapM text?
  | .bulk bs => (Text.Utf8.decode? bs).map ([·])
  | .nothing => some []
  | _ => none

/-- A byte: a number, of which the lowest eight bits count. -/
def byte? (r : ServerReply) : Option UInt8 :=
  match r with
  | .integer _ => r.natural?.map UInt8.ofNat
  | .simple s => (Text.Decimal.read 255 s.toList).map UInt8.ofNat
  | .bulk bs =>
      (Text.Utf8.decode? bs).bind fun s => (Text.Decimal.read 255 s.toList).map UInt8.ofNat
  | _ => none

/-- Bytes, or nothing: the outer `none` is a reply of another kind. -/
def bytes? : ServerReply → Option (Option (List UInt8))
  | .bulk bs => some (some bs)
  | .nothing => some none
  | .array items => (items.mapM byte?).map some
  | _ => none

end ServerReply

end GatewayCache
