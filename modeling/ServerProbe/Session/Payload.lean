import ServerProbe.Json.Basic
/-!
Params of the messages that a client sends on its own behalf.
-/

namespace ServerProbe.Payload

def object : List (String × Json) → Json := Json.ofMembers

/-- The params of the handshake: what the client can do, rooted at a directory if one is given. -/
def handshake (root : Option String) : Json :=
  let synchronization := object [("dynamicRegistration", .bool false), ("willSave", .bool false),
    ("willSaveWaitUntil", .bool false), ("didSave", .bool false)]
  let textDocument := object [
    ("synchronization", synchronization),
    ("publishDiagnostics", object [("relatedInformation", .bool false)]),
    ("hover", object [("contentFormat", .ofStrings ["markdown", "plaintext"])]),
    ("definition", object [("linkSupport", .bool true)]),
    ("references", object []),
    ("completion", object [("completionItem", object [("snippetSupport", .bool false)])]),
    ("documentSymbol", object [("hierarchicalDocumentSymbolSupport", .bool true)])]
  let workspace := object [("workspaceFolders", .bool true), ("configuration", .bool true),
    ("applyEdit", .bool true), ("workspaceEdit", object [("documentChanges", .bool true)])]
  let folders (uri : String) : Json := .arr [object [("uri", .str uri), ("name", .str "workspace")]]
  Json.ofPresent [
    ("processId", some (.int 0)),
    ("clientInfo", some (object [("name", .str "lsprobe"), ("version", .str "0.1.0")])),
    ("rootUri", some (Json.orNull (root.map .str))),
    ("capabilities", some (object [("textDocument", textDocument), ("workspace", workspace)])),
    ("workspaceFolders", root.map folders)]

def didOpen (uri language : String) (version : Int) (text : String) : Json :=
  object [("textDocument", object [("uri", .str uri), ("languageId", .str language),
    ("version", .int version), ("text", .str text)])]

def didChange (uri : String) (version : Int) (text : String) : Json :=
  object [("textDocument", object [("uri", .str uri), ("version", .int version)]),
    ("contentChanges", .arr [object [("text", .str text)]])]

def didClose (uri : String) : Json := object [("textDocument", object [("uri", .str uri)])]

def cancel (id : Nat) : Json := object [("id", .nat id)]

end ServerProbe.Payload
