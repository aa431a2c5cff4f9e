import ServerProbe.Connection.Step
import ServerProbe.Dialogue
import ServerProbe.Check.Failure
import ServerProbe.Check.Record
import ServerProbe.File.Tree
/-!
Routines: what users of a connection and handlers of server requests do, one question after the other.

A routine is a dialogue with the surroundings of a client: its connection, the clock, what others have
recorded, and the files.
-/

namespace ServerProbe

open Rpc (Notification)

/-- What a routine may ask of its surroundings. Some questions wait: for a reply, for a state, for
something to be seen, or for a moment to come. -/
inductive Question (η : Type) where
  | command (c : Command η)
  /-- The session as it is. -/
  | session
  | now
  | reply (id : Nat)
  /-- A state, or the end of the session. -/
  | reached (state : Session.State)
  | moment (t : Time)
  /-- How many notifications have come so far. -/
  | seenSoFar
  /-- A notification after the first `skip` ones, none of which is lost to whoever waits: nobody is more
  than the 1024 behind that a channel holds. -/
  | nextNotification (skip : Nat) (wanted : Notification → Bool) (deadline : Time)
  | recordedNotification (waiter : Record.Waiter Notification) (wanted : Notification → Bool)
    (deadline : Time)
  | recordedEvent (waiter : Record.Waiter Event) (wanted : Event → Bool) (deadline : Time)
  | readFile (path : String)
  | writeFile (path text : String)
  | makeDirectory (path : String)
  | resolvePath (path : String)

/-- The answer to a question. A command has none when the connection has stopped, and a wait with a
deadline none when it has passed. -/
abbrev Question.Answer {η : Type} : Question η → Type
  | command c => Option c.Answer
  | session => Session
  | now => Time
  | reply _ => Answered
  | reached _ => Session.State
  | moment _ => Unit
  | seenSoFar => Nat
  | nextNotification _ _ _ | recordedNotification _ _ _ => Option Notification
  | recordedEvent _ _ _ => Option Event
  | readFile _ => Except FileFault String
  | writeFile _ _ | makeDirectory _ => Except FileFault Unit
  | resolvePath _ => Except FileFault String

abbrev Routine (η : Type) : Type → Type := Dialogue (Question η) Question.Answer

namespace Routine

variable {η α : Type}

def question (q : Question η) : Routine η q.Answer := Dialogue.question q

abbrev Fallible (η ε α : Type) : Type := ExceptT ε (Routine η) α

/-- A step of a fallible routine whose failure is given another form. -/
def orElse {ε ε' : Type} (r : Routine η (Except ε α)) (form : ε → ε') : Fallible η ε' α :=
  ExceptT.mk do return (← r).mapError form

end Routine
end ServerProbe
