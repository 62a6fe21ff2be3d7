/-
  GatewayCache.Validators

  Whether a client's validators match a stored response, so that the client
  may keep the copy it has: the conditional matcher, section 4.3 of the
  specification. `confirms` is its `conditional_matches`.

  A list of entity tags decides alone if there is one. Otherwise the date of
  the last modification decides. What cannot be read never matches.
-/

import GatewayCache.Http.Date
import GatewayCache.Http.Message
import GatewayCache.Text.Blank

namespace GatewayCache.Validators

open GatewayCache.Http

/-- The opaque part of an entity tag: without blanks and without quotes around
    it. -/
def opaqueTag (cs : List Char) : List Char := Text.unquote (Text.trim cs)

/-- The tags of a list, separated by commas. -/
def listedTags (value : String) : List (List Char) := (value.toList.splitOn ',').map opaqueTag

/-- All tags that a request lists. -/
def requestedTags (request : Request) : List (List Char) :=
  (request.fields.texts FieldName.ifNoneMatch).flatMap listedTags

/-- Whether a listed tag is the stored one, or the asterisk, which stands for
    all tags. -/
def tagMatches (request : Request) (stored : Fields) : Bool :=
  match stored.firstText? FieldName.etag with
  | none => false
  | some tag =>
      (requestedTags request).any fun t => t == ['*'] || t == opaqueTag tag.toList

/-- The date in a field, as seconds since the epoch. -/
def dateOf (f : Fields) (n : FieldName) : Option Nat :=
  (f.firstText? n).bind fun t => Date.read (Text.trim t.toList)

/-- Whether the stored response was last modified no later than the client's
    date. -/
def dateMatches (request : Request) (stored : Fields) : Bool :=
  match dateOf request.fields FieldName.ifModifiedSince, dateOf stored FieldName.lastModified with
  | some client, some modified => modified ≤ client
  | _, _ => false

/-- Whether the copy that the client holds is still the stored response. -/
def confirms (request : Request) (stored : Fields) : Bool :=
  if request.fields.has FieldName.ifNoneMatch then tagMatches request stored
  else if request.fields.has FieldName.ifModifiedSince then dateMatches request stored
  else false

end GatewayCache.Validators
