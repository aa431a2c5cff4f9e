import ServerProbe.Json.Basic
import ServerProbe.Text.Quoted
/-!
JSON-RPC messages: requests, notifications and responses, with payloads left as documents.
-/

namespace ServerProbe.Rpc

/-- What pairs a response with its request. Ids given out by a client are numbers. -/
inductive Id where
  | number (value : Int)
  | text (value : String)
deriving DecidableEq, Repr

namespace Id

def toJson : Id → Json
  | number n => .int n
  | text s => .str s

/-- An id is a string or an integer of 64 bits; nothing else is one. -/
def ofJson? : Json → Option Id
  | .str s => some (text s)
  | v => v.asInt?.map number

def number? : Id → Option Int
  | number n => some n
  | text _ => none

def render : Id → String
  | number n => toString n
  | text s => Text.quoted s

end Id

structure ErrorObject where
  code : Int
  message : String
  data : Option Json
deriving Repr

namespace ErrorObject

def invalidRequestCode : Int := -32600

def methodNotFoundCode : Int := -32601

def internalCode : Int := -32603

def of (code : Int) (message : String) : ErrorObject := ⟨code, message, none⟩

def methodNotFound (method : String) : ErrorObject :=
  of methodNotFoundCode ("Method not found: " ++ method)

def internal (message : String) : ErrorObject := of internalCode message

def render (e : ErrorObject) : String := e.message ++ " (code " ++ toString e.code ++ ")"

end ErrorObject

/-- A result, or an error object: never both. -/
abbrev Outcome : Type := Except ErrorObject Json

structure Request where
  id : Id
  method : String
  params : Option Json
deriving Repr

structure Notification where
  method : String
  params : Option Json
deriving Repr

structure Response where
  id : Id
  outcome : Outcome
deriving Repr

/-- Params that were left out count as null. -/
def Notification.paramsOrNull (n : Notification) : Json := Json.orNull n.params

inductive Message where
  | request (r : Request)
  | notification (n : Notification)
  | response (r : Response)
deriving Repr

def Message.method? : Message → Option String
  | .request r => some r.method
  | .notification n => some n.method
  | .response _ => none

def sameOption : Option Json → Option Json → Bool
  | none, none => true
  | some a, some b => a.same b
  | _, _ => false

def ErrorObject.same (a b : ErrorObject) : Bool :=
  a.code == b.code && a.message == b.message && sameOption a.data b.data

/-- Equality of messages, payloads being compared as documents. -/
def Message.same : Message → Message → Bool
  | .request a, .request b => a.id == b.id && a.method == b.method && sameOption a.params b.params
  | .notification a, .notification b => a.method == b.method && sameOption a.params b.params
  | .response ⟨i, .ok a⟩, .response ⟨j, .ok b⟩ => i == j && a.same b
  | .response ⟨i, .error a⟩, .response ⟨j, .error b⟩ => i == j && a.same b
  | _, _ => false

end ServerProbe.Rpc
