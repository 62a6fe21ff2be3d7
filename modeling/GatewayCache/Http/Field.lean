/-
  GatewayCache.Http.Field

  Header fields: names, values, and lists of both in the order they came in.

  A name is a token and is kept in lower case. A value is any sequence of
  visible bytes, spaces and tabs, and is readable as text when all its bytes
  are ASCII. Both types carry the proof of their form, so a name that was read
  back from its own text is the same name.
-/

import GatewayCache.Text.Case
import GatewayCache.Text.Utf8

namespace GatewayCache.Http

/-- The codes of token characters: letters, digits and fifteen signs. -/
def isTokenCode (n : Nat) : Bool :=
  (0x30 ≤ n && n ≤ 0x39) || (0x41 ≤ n && n ≤ 0x5A) || (0x61 ≤ n && n ≤ 0x7A)
    || n == 0x21 || (0x23 ≤ n && n ≤ 0x27) || n == 0x2A || n == 0x2B || n == 0x2D || n == 0x2E
    || (0x5E ≤ n && n ≤ 0x60) || n == 0x7C || n == 0x7E

/-- The characters with the given bytes as their codes. -/
def charsOfBytes (bs : List UInt8) : List Char := bs.map fun b => Char.ofNat b.toNat

/-! ## Names -/

/-- A field name in normal form: one to 65535 token characters without capital
    letters. -/
def isNormalName (cs : List Char) : Bool :=
  decide (0 < cs.length) && decide (cs.length ≤ 65535)
    && cs.all fun c => isTokenCode c.toNat && !(0x41 ≤ c.toNat && c.toNat ≤ 0x5A)

/-- The name of a header field. -/
structure FieldName where
  text : String
  normal : isNormalName text.toList = true
deriving DecidableEq

instance : Repr FieldName := ⟨fun n p => reprPrec n.text p⟩

namespace FieldName

/-- The name that some characters spell, in either case. -/
def ofChars? (cs : List Char) : Option FieldName :=
  if h : isNormalName (Text.lower cs) = true then
    some ⟨String.ofList (Text.lower cs), by rw [String.toList_ofList]; exact h⟩
  else none

/-- The name that some bytes spell, in either case. -/
def ofBytes? (bs : List UInt8) : Option FieldName := ofChars? (charsOfBytes bs)

/-- The name that a text spells, in either case. -/
def ofText? (s : String) : Option FieldName := ofChars? s.toList

theorem ext {m n : FieldName} (h : m.text = n.text) : m = n := by
  cases m; cases n; simp_all

/-- Characters that are no capital letters stay as they are. -/
theorem map_toLower_of_normal {cs : List Char} (h : isNormalName cs = true) :
    Text.lower cs = cs := by
  simp only [isNormalName, Bool.and_eq_true, List.all_eq_true] at h
  have keep : ∀ c ∈ cs, c.toLower = c := by
    intro c hc
    have hn := (h.2 c hc).2
    unfold Char.toLower
    split
    · rename_i hup
      simp only [Char.toNat, Bool.not_eq_true', Bool.and_eq_false_iff, decide_eq_false_iff_not,
        Nat.not_le] at hn
      have h1 : (65 : UInt32).toNat ≤ c.val.toNat := UInt32.le_iff_toNat_le.1 hup.1
      have h2 : c.val.toNat ≤ (90 : UInt32).toNat := UInt32.le_iff_toNat_le.1 hup.2
      have e1 : (65 : UInt32).toNat = 65 := rfl
      have e2 : (90 : UInt32).toNat = 90 := rfl
      omega
    · rfl
  exact (List.map_congr_left keep).trans (List.map_id' cs)

/-- Reading a name's own text gives the name back. -/
theorem ofText?_text (n : FieldName) : ofText? n.text = some n := by
  have h := map_toLower_of_normal n.normal
  unfold ofText? ofChars?
  rw [dif_pos (by rw [h]; exact n.normal)]
  congr 1
  apply ext
  simp only [h, String.ofList_toList]

def accept : FieldName := ⟨"accept", by decide⟩
def acceptEncoding : FieldName := ⟨"accept-encoding", by decide⟩
def acceptLanguage : FieldName := ⟨"accept-language", by decide⟩
def authorization : FieldName := ⟨"authorization", by decide⟩
def bodyHash : FieldName := ⟨"x-body-hash", by decide⟩
def cacheControl : FieldName := ⟨"cache-control", by decide⟩
def contentLength : FieldName := ⟨"content-length", by decide⟩
def contentType : FieldName := ⟨"content-type", by decide⟩
def etag : FieldName := ⟨"etag", by decide⟩
def ifModifiedSince : FieldName := ⟨"if-modified-since", by decide⟩
def ifNoneMatch : FieldName := ⟨"if-none-match", by decide⟩
def lastModified : FieldName := ⟨"last-modified", by decide⟩
def vary : FieldName := ⟨"vary", by decide⟩

end FieldName

/-! ## Values -/

/-- The bytes of field values: everything but control characters, and the tab. -/
def isValueByte (b : UInt8) : Bool := (0x20 ≤ b.toNat && b.toNat != 0x7F) || b.toNat == 0x09

/-- The bytes of readable field values: visible ASCII, the space and the tab. -/
def isReadableByte (b : UInt8) : Bool :=
  (0x20 ≤ b.toNat && b.toNat ≤ 0x7E) || b.toNat == 0x09

/-- The value of a header field. -/
structure FieldValue where
  bytes : List UInt8
  valid : bytes.all isValueByte = true
deriving DecidableEq

instance : Repr FieldValue := ⟨fun v p => reprPrec v.bytes p⟩

namespace FieldValue

/-- The value with the given bytes. -/
def ofBytes? (bs : List UInt8) : Option FieldValue :=
  if h : bs.all isValueByte = true then some ⟨bs, h⟩ else none

/-- The value with the bytes of a text. -/
def ofText? (s : String) : Option FieldValue := ofBytes? (Text.Utf8.encode s)

/-- The value as text, if it is readable. -/
def text? (v : FieldValue) : Option String :=
  if v.bytes.all isReadableByte then some (String.ofList (charsOfBytes v.bytes)) else none

/-- The text that a value is kept as: ill-formed parts are repaired. -/
def stored (v : FieldValue) : String := v.text?.getD (Text.Utf8.read v.bytes)

theorem ofBytes?_bytes (v : FieldValue) : ofBytes? v.bytes = some v := by
  simp [ofBytes?, v.valid]

end FieldValue

/-! ## Field lists -/

/-- Header fields in the order they came in. -/
structure Fields where
  lines : List (FieldName × FieldValue)
deriving DecidableEq, Repr

namespace Fields

/-- No fields. -/
def empty : Fields := ⟨[]⟩

instance : Inhabited Fields := ⟨empty⟩

/-- The values under a name, in order. -/
def values (f : Fields) (n : FieldName) : List FieldValue :=
  (f.lines.filter fun l => l.1 == n).map (·.2)

/-- The first value under a name. -/
def first? (f : Fields) (n : FieldName) : Option FieldValue := (f.values n).head?

/-- Whether there is a value under a name. -/
def has (f : Fields) (n : FieldName) : Bool := !(f.values n).isEmpty

/-- The readable values under a name, as texts. -/
def texts (f : Fields) (n : FieldName) : List String := (f.values n).filterMap FieldValue.text?

/-- The first value under a name, if there is one and it is readable. -/
def firstText? (f : Fields) (n : FieldName) : Option String :=
  (f.first? n).bind FieldValue.text?

@[simp] theorem values_empty (n : FieldName) : empty.values n = [] := rfl

theorem values_append (f g : List (FieldName × FieldValue)) (n : FieldName) :
    Fields.values ⟨f ++ g⟩ n = Fields.values ⟨f⟩ n ++ Fields.values ⟨g⟩ n := by
  simp [values]

end Fields

end GatewayCache.Http
