/-
  GatewayCache.Key

  The key that a request's answer is stored under: cache key derivation, section 4.1
  of the specification. `derive` is its `derive_cache_key`, `requestLine` the canonical
  string of its first step, `negotiation` the allow-list of the second, and `suffix` what
  its third and fourth steps append. `hashOfBody` is the digest that a client sends as
  its body hash.

  Three texts are digested one after the other. The first is the request line:
  the method, the path and the query with its pairs sorted. The second is the
  digest of the first, followed by the fields that negotiate the content. The
  third is the digest of the second, followed by the client's body hash and the
  lifetime it asks for; it is left out when the request has neither. The last
  digest is the key. Host, scheme and all other fields take no part.
-/

import GatewayCache.CacheControl
import GatewayCache.Digest
import GatewayCache.Http.Message
import GatewayCache.Text.Form

namespace GatewayCache

open GatewayCache.Http

/-- The name of a stored entry. -/
structure CacheKey where
  hash : String
deriving DecidableEq, Repr, Inhabited

instance : Ord CacheKey := ⟨fun a b => compare a.hash b.hash⟩

namespace CacheKey

/-! ## The request line -/

/-- Pairs in the order of their names, pairs of one name in the order of their
    values. -/
def pairLe (a b : String × String) : Bool :=
  decide (a.1 < b.1) || (a.1 == b.1 && decide (a.2 ≤ b.2))

/-- The pairs of the query, as they come. -/
def queryPairs (t : Target) : List (String × String) :=
  match t.query with
  | none => []
  | some q => Text.Form.read (Text.Utf8.encode q)

/-- The query with its pairs sorted. -/
def sortedQuery (t : Target) : String :=
  String.ofList (Text.Form.write ((queryPairs t).mergeSort pairLe))

/-- The method, the path and the sorted query. -/
def requestLine (r : Request) : String :=
  r.method.text ++ "|" ++ r.target.path ++ "|" ++ sortedQuery r.target

/-! ## Content negotiation -/

/-- The fields that choose between variants of a resource. -/
def negotiationNames : List FieldName :=
  [FieldName.accept, FieldName.acceptEncoding, FieldName.acceptLanguage]

/-- The values of a field as one text: repaired, trimmed and joined. -/
def negotiated? (f : Fields) (n : FieldName) : Option String :=
  if f.has n then
    some (String.intercalate "," ((f.values n).map fun v => Text.trimmed (Text.Utf8.read v.bytes)))
  else none

/-- What one negotiating field adds to the second text. -/
def negotiationPart (f : Fields) (n : FieldName) : String :=
  match negotiated? f n with
  | none => ""
  | some value => "|" ++ n.text ++ "=" ++ value

/-- What all negotiating fields add to the second text. -/
def negotiation (f : Fields) : String := String.join (negotiationNames.map (negotiationPart f))

/-! ## Body hash and requested lifetime -/

/-- The hash of the body as the client gives it. -/
def bodyHash? (f : Fields) : Option String :=
  ((f.firstText? FieldName.bodyHash).map Text.trimmed).filter (· != "")

/-- The lifetime that a client asks for, by the directive that names it. -/
inductive LifetimeClass where
  | shared (seconds : Nat)
  | plain (seconds : Nat)
deriving DecidableEq, Repr

/-- The text of a lifetime class. -/
def LifetimeClass.text : LifetimeClass → String
  | .shared n => "smax=" ++ String.ofList (Text.Decimal.write n)
  | .plain n => "max=" ++ String.ofList (Text.Decimal.write n)

/-- The lifetime class of a request with a body. Only a request that declares
    its answer public has one. -/
def lifetimeClass? (r : Request) : Option LifetimeClass :=
  let c := CacheControl.ofFields r.fields
  if r.method.carriesBody && c.isPublic then
    match c.positiveSharedMaxAge with
    | some n => some (.shared n)
    | none => c.positiveMaxAge.map .plain
  else none

/-- What the body hash and the lifetime class add to the third text. -/
def suffix (r : Request) : String :=
  (match bodyHash? r.fields with
    | none => ""
    | some h => "|body=" ++ h) ++
  (match lifetimeClass? r with
    | none => ""
    | some c => "|ttl=" ++ c.text)

/-! ## The key -/

/-- The second digested text. -/
def variantText (r : Request) : String :=
  Digest.hexOfText (requestLine r) ++ negotiation r.fields

/-- The third digested text, for a request that has a suffix. -/
def finalText? (r : Request) : Option String :=
  if suffix r = "" then none else some (Digest.hexOfText (variantText r) ++ suffix r)

/-- The key of a request. -/
def derive (r : Request) : CacheKey :=
  ⟨Digest.hexOfText ((finalText? r).getD (variantText r))⟩

/-- The texts that are digested on the way to the key. -/
def digestedTexts (r : Request) : List String :=
  requestLine r :: variantText r :: (finalText? r).toList

/-- The key is the digest of the last text. -/
theorem derive_eq (r : Request) :
    ∃ t ∈ digestedTexts r, derive r = ⟨Digest.hexOfText t⟩ := by
  unfold derive digestedTexts
  cases finalText? r with
  | none => exact ⟨variantText r, by simp, rfl⟩
  | some t => exact ⟨t, by simp, rfl⟩

/-- The hash of a body in the form in which clients send it. -/
def hashOfBody (body : List UInt8) : String := Digest.hexOfBytes body

end CacheKey

end GatewayCache
