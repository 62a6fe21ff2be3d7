/-
  GatewayCache.Http.Message

  Requests and responses, and building them out of bytes.

  A part that has no valid form is a fault. Parts are checked in the order in
  which they are sent: the method, the target and then the fields of a request,
  the status and then the fields of a response.
-/

import GatewayCache.Http.Field
import GatewayCache.Http.Target

namespace GatewayCache.Http

/-! ## Methods -/

/-- A method is a token. -/
def isMethodText (cs : List Char) : Bool := !cs.isEmpty && cs.all fun c => isTokenCode c.toNat

/-- The method of a request; upper and lower case differ. -/
structure Method where
  text : String
  token : isMethodText text.toList = true
deriving DecidableEq

instance : Repr Method := ⟨fun m p => reprPrec m.text p⟩

namespace Method

/-- The method that some bytes spell. -/
def ofBytes? (bs : List UInt8) : Option Method :=
  if h : isMethodText (charsOfBytes bs) = true then
    some ⟨String.ofList (charsOfBytes bs), by rw [String.toList_ofList]; exact h⟩
  else none

def get : Method := ⟨"GET", by decide⟩
def head : Method := ⟨"HEAD", by decide⟩
def post : Method := ⟨"POST", by decide⟩
def put : Method := ⟨"PUT", by decide⟩
def patch : Method := ⟨"PATCH", by decide⟩

/-- The methods that carry a body for the server to act on. -/
def carriesBody (m : Method) : Bool := m == post || m == put || m == patch

/-- The methods that only ask for a resource. -/
def onlyAsks (m : Method) : Bool := m == get || m == head

end Method

/-! ## Messages -/

/-- A request without its body. -/
structure Request where
  method : Method
  target : Target
  fields : Fields
deriving Repr

/-- A response without its body. -/
structure Response where
  status : UInt16
  fields : Fields
deriving Repr

/-- Why a message could not be built. -/
inductive BuildFault where
  | method
  | target
  | fieldName
  | fieldValue
  | status
deriving DecidableEq, Repr

/-- The fields with the given names and values. -/
def Fields.build (lines : List (List UInt8 × List UInt8)) : Except BuildFault Fields := do
  let built ← lines.mapM fun l => do
    let some name := FieldName.ofBytes? l.1 | throw .fieldName
    let some value := FieldValue.ofBytes? l.2 | throw .fieldValue
    pure (name, value)
  pure ⟨built⟩

/-- The request with the given method, target and fields. -/
def Request.build (method target : List UInt8) (lines : List (List UInt8 × List UInt8)) :
    Except BuildFault Request := do
  let some m := Method.ofBytes? method | throw .method
  let some t := Target.ofBytes? target | throw .target
  let fields ← Fields.build lines
  pure ⟨m, t, fields⟩

/-- The response with the given status and fields. A status has three digits. -/
def Response.build (status : Nat) (lines : List (List UInt8 × List UInt8)) :
    Except BuildFault Response := do
  if status < 100 || 999 < status then throw .status
  let fields ← Fields.build lines
  pure ⟨UInt16.ofNat status, fields⟩

end GatewayCache.Http
