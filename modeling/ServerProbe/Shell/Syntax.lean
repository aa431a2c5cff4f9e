/-!
The syntax of shell scripts, as far as they can be run.

A word is made of parts. Parts between quotes are neither split into fields nor read as patterns.
-/

namespace ServerProbe.Shell

/-- Which part of a value a pattern takes away. -/
inductive Trim where
  | shortestStart
  | longestStart
  | shortestEnd
  | longestEnd
deriving DecidableEq, Repr

/-- Where the output or the input of a command goes to or comes from. -/
inductive Channel where
  | input
  | output
  | errors
deriving DecidableEq, Repr

mutual

inductive Part where
  | text (chars : List Char) (quoted : Bool)
  | parameter (name : List Char) (use : Use) (quoted : Bool)
  /-- What a script writes, without the line ends at its end. -/
  | written (script : List Command) (quoted : Bool)

/-- What is made of the value of a parameter. -/
inductive Use where
  | value
  | length
  | trimmed (trim : Trim) (pattern : List Part)
  /-- Another word where the parameter is unset, or also where it is empty. -/
  | otherwise (orEmpty : Bool) (word : List Part)
  /-- Another word where the parameter is set, and not empty if `orEmpty`. -/
  | provided (orEmpty : Bool) (word : List Part)

inductive Redirect where
  | write (channel : Channel) (path : List Part)
  | append (channel : Channel) (path : List Part)
  | read (path : List Part)
  /-- Output goes where another channel's goes. -/
  | same (channel target : Channel)

inductive Command where
  | simple (assignments : List (List Char × List Part)) (words : List (List Part))
    (redirects : List Redirect)
  | group (body : List Command)
  | subshell (body : List Command)
  /-- Runs the body for as long as the condition succeeds, or until it does. -/
  | loop (untilSuccess : Bool) (condition body : List Command)
  | branch (condition yes no : List Command)
  | each (name : List Char) (words : List (List Part)) (body : List Command)
  | choose (subject : List Part) (arms : List (List (List Part) × List Command))
  | define (name : List Char) (body : Command)
  | both (first second : Command)
  | either (first second : Command)
  | negate (c : Command)
  | pipe (first second : Command)
  | redirected (c : Command) (redirects : List Redirect)

end

abbrev Word : Type := List Part

abbrev Script : Type := List Command

end ServerProbe.Shell
