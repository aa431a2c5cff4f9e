import ServerProbe.Document.Staging
/-!
Handlers that a rehearsed session can register: the one that applies workspace edits, and scripted
ones that log their calls under a tag.
-/

namespace ServerProbe.Mock

open Rpc (Notification)

/-- Where a scripted handler of requests panics, if it does. -/
inductive Panic where
  | never
  | whenCalled
  | whenDue
deriving DecidableEq, Repr

inductive Reply where
  /-- An object with the params it was called with. -/
  | echo
  | outcome (o : Rpc.Outcome)
deriving Repr

structure Script where
  delay : Option Span
  panic : Panic
  reply : Reply
deriving Repr

inductive Handler where
  | workspaceEdits
  | notice (tag : Json)
  | request (tag : Json) (script : Script)
deriving Repr

inductive Handled where
  | notice (tag params : Json)
  | request (tag params : Json)
deriving Repr

def Handler.loggedNotice (n : Notification) : Handler → List Handled
  | notice tag => [.notice tag n.paramsOrNull]
  | _ => []

def Handler.loggedRequest (params : Option Json) : Handler → List Handled
  | request tag _ => [.request tag (Json.orNull params)]
  | _ => []

def Reply.outcomeFor (params : Option Json) : Reply → Rpc.Outcome
  | echo => .ok (.ofMembers [("echo", Json.orNull params)])
  | outcome o => o

def sleep {η : Type} (length : Span) : Routine η Unit := do
  let start ← Routine.question .now
  Routine.question (.moment (start + length.nanos))

def Script.run (params : Option Json) (s : Script) : Routine Handler HandlerEnd :=
  match s.panic with
  | .whenCalled => pure .panicked
  | .whenDue => do
    sleep (s.delay.getD .zero)
    return .panicked
  | .never => do
    sleep (s.delay.getD .zero)
    return .returned (s.reply.outcomeFor params)

/-- What a handler does with a server request. -/
def Handler.run (params : Option Json) : Handler → Routine Handler HandlerEnd
  | workspaceEdits => do return .returned (.ok (← WorkspaceEdit.applyParams params).toJson)
  | notice _ => pure .panicked
  | request _ script => script.run params

end ServerProbe.Mock
