/-
  GatewayCache.Json.Reader

  Reading JSON bytes as a document.

  The whole input has to be one value with blanks around it. A value that is
  never used only has to have the right shape: its texts may be ill-formed and
  its numbers out of range.
-/

import GatewayCache.Json.Number
import GatewayCache.Json.Quoted

namespace GatewayCache.Json

/-- The four blanks of the format. -/
def isBlankByte (b : UInt8) : Bool := b == 0x20 || b == 0x0A || b == 0x0D || b == 0x09

def skipBlanks (bs : List UInt8) : List UInt8 := bs.dropWhile isBlankByte

/-- The document that the units of a quoted text stand for. -/
def documentOfUnits (us : List Unit16) : Document :=
  match textOfUnits? us with
  | some s => .text s
  | none => .unreadable

/-- A word or a number in front. -/
def scanPlain : List UInt8 → Option (Document × List UInt8)
  | 0x6E :: 0x75 :: 0x6C :: 0x6C :: rest => some (.null, rest)
  | 0x74 :: 0x72 :: 0x75 :: 0x65 :: rest => some (.boolean true, rest)
  | 0x66 :: 0x61 :: 0x6C :: 0x73 :: 0x65 :: rest => some (.boolean false, rest)
  | bs => scanNumber bs

mutual

/-- A value in front, and what stands behind it. Every call takes one unit of
    fuel. -/
def scanValue : Nat → List UInt8 → Option (Document × List UInt8)
  | 0, _ => none
  | fuel + 1, bs =>
      match skipBlanks bs with
      | 0x22 :: rest => (scanQuoted rest).map fun p => (documentOfUnits p.1, p.2)
      | 0x5B :: rest =>
          match skipBlanks rest with
          | 0x5D :: others => some (.list [], others)
          | others => (scanItems fuel others).map fun p => (.list p.1, p.2)
      | 0x7B :: rest =>
          match skipBlanks rest with
          | 0x7D :: others => some (.map [], others)
          | others => (scanMembers fuel others).map fun p => (.map p.1, p.2)
      | others => scanPlain others

/-- The items of a list that is not empty, up to the closing bracket. -/
def scanItems : Nat → List UInt8 → Option (List Document × List UInt8)
  | 0, _ => none
  | fuel + 1, bs =>
      match scanValue fuel bs with
      | none => none
      | some (d, rest) =>
          match skipBlanks rest with
          | 0x2C :: others => (scanItems fuel others).map fun p => (d :: p.1, p.2)
          | 0x5D :: others => some ([d], others)
          | _ => none

/-- The members of a map that is not empty, up to the closing brace. -/
def scanMembers : Nat → List UInt8 → Option (List (Document × Document) × List UInt8)
  | 0, _ => none
  | fuel + 1, bs =>
      match skipBlanks bs with
      | 0x22 :: rest =>
          match scanQuoted rest with
          | none => none
          | some (us, rest) =>
              match skipBlanks rest with
              | 0x3A :: rest =>
                  match scanValue fuel rest with
                  | none => none
                  | some (d, rest) =>
                      let member := (documentOfUnits us, d)
                      match skipBlanks rest with
                      | 0x2C :: others =>
                          (scanMembers fuel others).map fun p => (member :: p.1, p.2)
                      | 0x7D :: others => some ([member], others)
                      | _ => none
              | _ => none
      | _ => none

end

/-- The document that the whole input spells. Each call consumes a byte or is
    followed by one that does, so twice the length is fuel enough. -/
def read (bs : List UInt8) : Option Document :=
  match scanValue (2 * bs.length + 2) bs with
  | none => none
  | some (d, rest) => if (skipBlanks rest).isEmpty then some d else none

/-- The document that a text spells. -/
def readText (s : String) : Option Document := read (Text.Utf8.encode s)

end GatewayCache.Json
