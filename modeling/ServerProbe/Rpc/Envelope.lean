import ServerProbe.Rpc.Message
import ServerProbe.Json.Printer
import ServerProbe.Json.Shape
/-!
JSON-RPC 2.0 envelopes: a message as a document, and back. `Message.ofJson` checks what the protocol
demands of an envelope and nothing of its payload.
-/

namespace ServerProbe.Rpc

def version : String := "2.0"

inductive EnvelopeFault where
  | notAnObject
  | unsupportedVersion (seen : String)
  | methodNotString
  | invalidId (seen : String)
  | missingMethod
  | missingId
  | resultAndError
  | malformedError (fault : ShapeFault)
  | invalidParams
deriving DecidableEq, Repr

def EnvelopeFault.message : EnvelopeFault → String
  | notAnObject => "message is not a JSON object"
  | unsupportedVersion seen => "unsupported jsonrpc version: " ++ seen
  | methodNotString => "`method` must be a string"
  | invalidId seen => "`id` must be an integer or a string, got " ++ seen
  | missingMethod => "message has an `id` but neither `method` nor `result`/`error`"
  | missingId => "response is missing `id`"
  | resultAndError => "response carries both `result` and `error`"
  | malformedError fault => "malformed `error` object: " ++ fault.message
  | invalidParams => "`params` must be an object or an array"

/-! ### Writing -/

def ErrorObject.toJson (e : ErrorObject) : Json :=
  .ofPresent [("code", some (.int e.code)), ("message", some (.str e.message)), ("data", e.data)]

/-- The envelope of a message. Absent params and data are left out. -/
def Message.toJson : Message → Json
  | .request r =>
    .ofPresent [("jsonrpc", some (.str version)), ("id", some r.id.toJson),
      ("method", some (.str r.method)), ("params", r.params)]
  | .notification n =>
    .ofPresent [("jsonrpc", some (.str version)), ("method", some (.str n.method)),
      ("params", n.params)]
  | .response ⟨id, .ok result⟩ =>
    .ofPresent [("jsonrpc", some (.str version)), ("id", some id.toJson), ("result", some result)]
  | .response ⟨id, .error e⟩ =>
    .ofPresent [("jsonrpc", some (.str version)), ("id", some id.toJson), ("error", some e.toJson)]

/-! ### Reading -/

/-- An error object whose fields are still being collected. -/
structure ErrorFields where
  code : Option Int
  message : Option String
  data : Option Json

def ErrorFields.put (e : ErrorFields) (name : String) (v : Json) : Json.Shaped ErrorFields :=
  match name with
  | "code" => v.toI64.map fun n => { e with code := some n }
  | "message" => v.toText.map fun s => { e with message := some s }
  | _ => .ok { e with data := if v.isNull then none else some v }

def ErrorObject.shape : RecordShape :=
  ⟨"struct ResponseError", [("code", false), ("message", false), ("data", true)], false⟩

def ErrorObject.ofJson (v : Json) : Json.Shaped ErrorObject := do
  let e ← shape.visit ErrorFields.put ⟨none, none, none⟩ v
  let code ← Json.required "code" e.code
  let message ← Json.required "message" e.message
  return ⟨code, message, e.data⟩

/-- An id read on its own, outside an envelope. -/
def Id.read (v : Json) : Json.Shaped Id :=
  match Id.ofJson? v with
  | some id => .ok id
  | none => .error (.noVariant "RequestId")

/-- Params are an object or an array; null counts as absent. -/
def readParams : Option Json → Except EnvelopeFault (Option Json)
  | none | some .null => .ok none
  | some (.obj ms) => .ok (some (.obj ms))
  | some (.arr vs) => .ok (some (.arr vs))
  | some _ => .error .invalidParams

def readVersion : Option Json → Except EnvelopeFault Unit
  | some (.str s) => if s == version then .ok () else .error (.unsupportedVersion (Json.quote s))
  | some v => .error (.unsupportedVersion v.compact)
  | none => .error (.unsupportedVersion "<missing>")

def readId : Option Json → Except EnvelopeFault (Option Id)
  | none => .ok none
  | some v =>
    match Id.ofJson? v with
    | some id => .ok (some id)
    | none => .error (.invalidId v.compact)

def readMethod : Option Json → Except EnvelopeFault (Option String)
  | none => .ok none
  | some (.str s) => .ok (some s)
  | some _ => .error .methodNotString

/-- The outcome of a response, of which exactly one of `result` and `error` is present. -/
def readOutcome : Option Json → Option Json → Except EnvelopeFault Outcome
  | some result, none => .ok (.ok result)
  | none, some e =>
    match ErrorObject.ofJson e with
    | .ok e => .ok (.error e)
    | .error fault => .error (.malformedError fault)
  | some _, some _ => .error .resultAndError
  | none, none => .error .missingMethod

/-- A message without a method is a response, and has to have an id. -/
def readResponse (id : Option Id) (result error : Option Json) : Except EnvelopeFault Message :=
  match id with
  | none => .error (if result.isSome || error.isSome then .missingId else .missingMethod)
  | some id => (readOutcome result error).map fun outcome => .response ⟨id, outcome⟩

/-- The message an envelope holds. A method with an id is a request, a method alone a
notification, and an id with a result or an error a response. -/
def Message.ofJson : Json → Except EnvelopeFault Message
  | .obj ms => do
    readVersion (Json.find? "jsonrpc" ms)
    let id ← readId (Json.find? "id" ms)
    let method ← readMethod (Json.find? "method" ms)
    match method with
    | some method =>
      let params ← readParams (Json.find? "params" ms)
      return match id with
        | some id => .request ⟨id, method, params⟩
        | none => .notification ⟨method, params⟩
    | none => readResponse id (Json.find? "result" ms) (Json.find? "error" ms)
  | _ => .error .notAnObject

end ServerProbe.Rpc
