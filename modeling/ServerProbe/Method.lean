import ServerProbe.Text.Blank
/-!
Method names: the ones with a part in the life of a session, which names may be sent at all, and the
server capability that a request depends on.
-/

namespace ServerProbe.Method

def initializeRequest : String := "initialize"

def initializedNotice : String := "initialized"

def shutdown : String := "shutdown"

def exit : String := "exit"

def cancelRequest : String := "$/cancelRequest"

def didOpen : String := "textDocument/didOpen"

def didChange : String := "textDocument/didChange"

def didClose : String := "textDocument/didClose"

def applyEdit : String := "workspace/applyEdit"

def startsWith (start s : String) : Bool := start.toList.isPrefixOf s.toList

/-- Names that begin with a dollar sign and a slash may be ignored by whoever receives them. -/
def isOptional (method : String) : Bool := startsWith "$/" method

/-- A name is not empty, does not begin with the reserved `rpc.`, and holds no blanks or controls. -/
def isValid (method : String) : Bool :=
  !method.isEmpty && !startsWith "rpc." method
    && !method.toList.any fun c => Text.isBlank c || Text.isControl c

/-- The capability a server advertises when it answers a request method. -/
def capability? : String → Option String
  | "textDocument/hover" => some "hoverProvider"
  | "textDocument/definition" => some "definitionProvider"
  | "textDocument/declaration" => some "declarationProvider"
  | "textDocument/typeDefinition" => some "typeDefinitionProvider"
  | "textDocument/implementation" => some "implementationProvider"
  | "textDocument/references" => some "referencesProvider"
  | "textDocument/completion" => some "completionProvider"
  | "textDocument/signatureHelp" => some "signatureHelpProvider"
  | "textDocument/documentSymbol" => some "documentSymbolProvider"
  | "textDocument/documentHighlight" => some "documentHighlightProvider"
  | "textDocument/codeAction" => some "codeActionProvider"
  | "textDocument/formatting" => some "documentFormattingProvider"
  | "textDocument/rename" => some "renameProvider"
  | "textDocument/foldingRange" => some "foldingRangeProvider"
  | "textDocument/inlayHint" => some "inlayHintProvider"
  | "textDocument/semanticTokens/full" => some "semanticTokensProvider"
  | "textDocument/prepareCallHierarchy" => some "callHierarchyProvider"
  | "workspace/symbol" => some "workspaceSymbolProvider"
  | _ => none

end ServerProbe.Method
