import ServerProbe.Rpc.Message
import ServerProbe.Span
/-!
The calls a client has made and what is remembered of them.

Ids count up from one and are never used twice. A call that is cancelled or times out stays in
quarantine for a while, so that a late response can be told from one to nothing; a call that was
answered is remembered until enough others have been. Deadlines wait in a queue that may hold entries
of calls that are gone; they are dropped when they come to its front.
-/

namespace ServerProbe

/-- A moment, in nanoseconds after the start. -/
abbrev Time : Type := Nat

structure Call where
  method : String
  timeout : Option Span
  deadline : Option Time
deriving DecidableEq, Repr

/-- A call whose response would come too late. -/
structure Abandoned where
  method : String
  expires : Time
deriving DecidableEq, Repr

/-- What the id of a response refers to. -/
inductive Lookup where
  | outstanding (id : Nat) (call : Call)
  | late (method : String)
  | duplicate (method : String)
  | unknown
deriving DecidableEq, Repr

structure CallTable where
  next : Nat
  /-- The outstanding calls, the latest first. -/
  calls : List (Nat × Call)
  /-- Deadlines with the ids they were set for, in increasing order. -/
  deadlines : List (Time × Nat)
  quarantine : List (Nat × Abandoned)
  /-- The answered calls that are still remembered, the earliest first. -/
  answered : List (Nat × String)
  window : Nat
deriving DecidableEq, Repr

namespace CallTable

/-- How many answered calls are remembered. -/
def greatestHistory : Nat := 1024

/-- The longest quarantine: a day. -/
def greatestWindow : Span := .ofSeconds 86400

def fresh (quarantine : Span) : CallTable :=
  ⟨1, [], [], [], [], min quarantine.nanos greatestWindow.nanos⟩

def find? {α : Type} (id : Nat) : List (Nat × α) → Option α
  | [] => none
  | (k, v) :: rest => if k == id then some v else find? id rest

def without {α : Type} (id : Nat) (entries : List (Nat × α)) : List (Nat × α) :=
  entries.filter fun e => e.1 != id

def call? (t : CallTable) (id : Nat) : Option Call := find? id t.calls

/-- Whether one entry of the queue comes before another: by deadline, then by id. -/
def precedes (a b : Time × Nat) : Bool :=
  decide (a.1 < b.1) || (a.1 == b.1 && decide (a.2 ≤ b.2))

def enqueue (entry : Time × Nat) : List (Time × Nat) → List (Time × Nat)
  | [] => [entry]
  | e :: rest => if precedes entry e then entry :: e :: rest else e :: enqueue entry rest

/-- The end of time: deadlines that would come later are not set. -/
def endOfTime : Time := UInt64.size / 2 * 1000000000

def deadlineAfter (now : Time) (timeout : Option Span) : Option Time :=
  timeout.bind fun t => if now + t.nanos < endOfTime then some (now + t.nanos) else none

def insert (t : CallTable) (now : Time) (method : String) (timeout : Option Span) : Nat × CallTable :=
  let deadline := deadlineAfter now timeout
  (t.next,
    { t with
      next := t.next + 1
      calls := (t.next, ⟨method, timeout, deadline⟩) :: t.calls
      deadlines :=
        match deadline with
        | some d => enqueue (d, t.next) t.deadlines
        | none => t.deadlines })

/-- Removes a call that was registered but not sent. -/
def forget (t : CallTable) (id : Nat) : CallTable := { t with calls := without id t.calls }

def rememberAnswered (t : CallTable) (id : Nat) (method : String) : CallTable :=
  let kept := if t.answered.length == greatestHistory then t.answered.drop 1 else t.answered
  { t with answered := kept ++ [(id, method)] }

/-- Ends the quarantine of ids whose time is over. -/
def release (t : CallTable) (now : Time) : CallTable :=
  { t with quarantine := t.quarantine.filter fun q => decide (now < q.2.expires) }

/-- Puts the id of an abandoned call in quarantine. -/
def abandon (t : CallTable) (now : Time) (id : Nat) (method : String) : CallTable :=
  let t := t.release now
  { t with quarantine := (id, ⟨method, now + t.window⟩) :: without id t.quarantine }

/-- What a number refers to that no outstanding call has. -/
def remembered (t : CallTable) (id : Nat) : Lookup :=
  match find? id t.quarantine with
  | some a => .late a.method
  | none =>
    match find? id t.answered with
    | some method => .duplicate method
    | none => .unknown

/-- The number of an id that a call could have. -/
def number? : Rpc.Id → Option Nat
  | .number (.ofNat n) => some n
  | _ => none

/-- Claims the call that a response belongs to. -/
def takeForResponse (t : CallTable) (now : Time) (id : Rpc.Id) : Lookup × CallTable :=
  match id.number? with
  | none => (.unknown, t)
  | some _ =>
    match number? id with
    | none => (.unknown, t.release now)
    | some n =>
      match t.call? n with
      | some call => (.outstanding n call, { t with calls := without n t.calls }.rememberAnswered n call.method)
      | none => ((t.release now).remembered n, t.release now)

/-- Removes a call for good, and expects no response to it. -/
def cancel (t : CallTable) (now : Time) (id : Nat) : Option (Call × CallTable) :=
  (t.call? id).map fun call => (call, { t with calls := without id t.calls }.abandon now id call.method)

/-- Whether an entry of the queue belongs to an outstanding call. -/
def isLive (t : CallTable) (entry : Time × Nat) : Bool :=
  match t.call? entry.2 with
  | some call => call.deadline == some entry.1
  | none => false

/-- The earliest deadline of an outstanding call, with the queue freed of what comes before it. -/
def nextDeadline (t : CallTable) : Option Time × CallTable :=
  let live := t.deadlines.dropWhile fun e => !t.isLive e
  (live.head?.map Prod.fst, { t with deadlines := live })

/-- Takes the entries of a queue that are due, and abandons the calls they belong to. -/
def expireFrom (now : Time) : List (Time × Nat) → CallTable → List (Nat × Call) × CallTable
  | [], t => ([], { t with deadlines := [] })
  | e :: rest, t =>
    if now < e.1 then ([], { t with deadlines := e :: rest })
    else if t.isLive e then
      match t.cancel now e.2 with
      | some (call, t) =>
        let (expired, t) := expireFrom now rest t
        ((e.2, call) :: expired, t)
      | none => expireFrom now rest t
    else expireFrom now rest t

/-- Removes every call whose deadline is not after `now`. -/
def expire (t : CallTable) (now : Time) : List (Nat × Call) × CallTable :=
  expireFrom now t.deadlines t

/-- The ids of the outstanding calls, in order of issue. -/
def outstanding (t : CallTable) : List Nat := (t.calls.map Prod.fst).reverse

def clear (t : CallTable) : CallTable := { t with calls := [], deadlines := [] }

end CallTable
end ServerProbe
