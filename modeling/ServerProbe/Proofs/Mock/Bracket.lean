import ServerProbe.Check.Workspace
import ServerProbe.Proofs.Connection.Holders
import ServerProbe.Proofs.Mock.Farewell
/-!
Requests about a file that is open for as long as they take. The file is closed whatever came of the
request, and when it cannot be closed that is what is reported. Who holds the file besides need not
care: only for the last holder can closing fail, and then the answer of the request is lost.
-/

namespace ServerProbe.Mock

variable {ρ : Type}

/-! ### The routine -/

section Routine

variable (ws : Workspace) (name uri method : String) (params : Json)

abbrev openQuestion (text : String) : Question Handler :=
  .command (.openDocument uri (Workspace.languageOf (ws.path name)) text)

abbrev closeQuestion : Question Handler := .command (.closeDocument uri)

def unreadable (fault : FileFault) : CheckFailure :=
  .assertion ("cannot read " ++ ws.path name ++ ": " ++ fault.message)

/-- What is reported of a request, by what became of closing the file. -/
def reported (answer : Answered) : Except Failure Bool → Except CheckFailure Json
  | .error failure => .error (.client failure)
  | .ok _ => answer.mapError .client

/-- What is left to do once the request has come to its answer. -/
def releasing (answer : Answered) : Routine Handler (Except CheckFailure Json) :=
  .ask (closeQuestion uri) fun closed => .done (reported answer (Client.flatten closed))

def whileOpen : Routine Handler (Except CheckFailure Json) :=
  (Client.request method (some params) none).bind (releasing uri)

theorem requestWhileOpen_eq : (ws.requestWhileOpen name uri method params).run =
    Dialogue.ask (.readFile (ws.path name)) fun read =>
      match read with
      | .error fault => .done (.error (unreadable ws name fault))
      | .ok text => .ask (openQuestion ws name uri text) fun opened =>
        match Client.flatten opened with
        | .error failure => .done (.error (.client failure))
        | .ok _ => whileOpen uri method params := by
  refine congrArg (Dialogue.ask _) (funext fun read => ?_)
  cases read with
  | error fault => rfl
  | ok text =>
      refine congrArg (Dialogue.ask _) (funext fun opened => ?_)
      have asked : ((ExceptT.lift (Client.request method (some params) none) >>= fun answer => do
          let _ ← Workspace.clientStep (Client.closeDocument uri)
          Workspace.clientStep (pure answer) :
            Routine.Fallible Handler CheckFailure Json)).run = whileOpen uri method params := by
        refine (Dialogue.bind_assoc _ _ _).trans ?_
        refine congrArg (Dialogue.bind _) (funext fun answer => ?_)
        refine congrArg (Dialogue.ask _) (funext fun closed => ?_)
        rcases closed with _ | failure | last <;> rfl
      rcases opened with _ | failure | first
      · rfl
      · rfl
      · exact asked

end Routine

/-! ### Who holds a file -/

/-- How many hold the document under a URI open. -/
def World.holders (w : World ρ) (uri : String) : Nat := w.connection.documents.count uri

/-- What happens elsewhere leaves a document alone and the client alive. -/
def Beat.Apart (uri : String) : Beat ρ → Prop
  | own _ => True
  | other _ i => ∀ command, i = .command command → command.uri? ≠ some uri
  | aside w w' _ => w'.stopped = w.stopped

/-- A question that is not about a document. -/
def Sparing (uri : String) (q : Question Handler) : Prop :=
  ∀ command, q = .command command → command.uri? ≠ some uri

section Holders

variable {u v w : World ρ} {uri : String} {beats : List (Beat ρ)}

theorem Beat.Apart.keepsLive {b : Beat ρ} (apart : b.Apart uri) : b.KeepsLive := by
  cases b with
  | aside w w' kept => exact apart
  | _ => trivial

theorem Flow.lives (flow : Flow u beats v) (live : u.stopped = false)
    (apart : ∀ b ∈ beats, b.Apart uri) : v.stopped = false :=
  (flow.stopped fun b held => (apart b held).keepsLive).trans live

theorem Beat.Apart.inputs {b : Beat ρ} (apart : b.Apart uri)
    (own : ∀ a, b = .own a → Sparing uri a.question) :
    ∀ e ∈ b.inputs, ∀ command, e.2 = .command command → command.uri? ≠ some uri := by
  intro e held command same
  cases b with
  | own a =>
      obtain ⟨w, q⟩ := a
      cases q with
      | command c =>
          rw [Beat.inputs] at held
          split at held
          · cases held
          · obtain rfl := List.mem_singleton.mp held
            obtain rfl := Input.command.inj same
            exact own _ rfl c rfl
      | _ => cases held
  | other w i =>
      obtain rfl := List.mem_singleton.mp held
      exact apart command same
  | aside w w' kept => cases held

/-- The holders of a document stay as long as nothing is about it. -/
theorem Flow.holders (flow : Flow u beats v) (apart : ∀ b ∈ beats, b.Apart uri)
    (own : ∀ a ∈ asks beats, Sparing uri a.question) : v.holders uri = u.holders uri := by
  have kept : v.connection.documents.find? uri = u.connection.documents.find? uri := by
    rw [flow.connection]
    refine Connection.run_apart _ fun e held => ?_
    obtain ⟨b, there, given⟩ := List.mem_flatMap.mp held
    refine (apart b there).inputs (fun a same => ?_) e given
    exact own a (mem_asks.mpr (same ▸ there))
  simp only [World.holders, DocumentStore.count, kept]

theorem next_command (live : u.stopped = false) (c : Command Handler) :
    (Ask.next ⟨u, .command c⟩).connection = (u.connection.handle u.now c).2.1 := by
  have next := Beat.next_connection (.own ⟨u, .command c⟩)
  rw [Beat.inputs_live live, Beat.run_single] at next
  exact next

theorem opened_holders (live : u.stopped = false) {language text : String} {first : Bool}
    (opened : (u.answer (.command (.openDocument uri language text))).2 = some (some (.ok first))) :
    (Ask.next ⟨u, .command (.openDocument uri language text)⟩).holders uri = u.holders uri + 1 := by
  rw [answer_command live] at opened
  rw [World.holders, next_command live]
  exact (u.connection.openDocument_counted uri language text).1 first
    (Option.some.inj (Option.some.inj opened))

theorem unopened_holders (live : u.stopped = false) {language text : String}
    {answer : Option (Except Failure Bool)} {failure : Failure}
    (answered : (u.answer (.command (.openDocument uri language text))).2 = some answer)
    (refused : Client.flatten answer = .error failure) :
    (Ask.next ⟨u, .command (.openDocument uri language text)⟩).holders uri = u.holders uri := by
  rw [answer_command live] at answered
  obtain rfl := Option.some.inj answered
  rw [World.holders, next_command live]
  exact (u.connection.openDocument_counted uri language text).2 failure refused

theorem closed_holders (live : u.stopped = false) {n : Nat} (held : u.holders uri = n + 1)
    {answer : Option (Except Failure Bool)}
    (answered : (u.answer (closeQuestion uri)).2 = some answer) :
    u.connection.LetsGo n (Client.flatten answer) ((Ask.next ⟨u, closeQuestion uri⟩).holders uri) := by
  rw [answer_command live] at answered
  obtain rfl := Option.some.inj answered
  rw [World.holders, next_command live]
  exact Connection.closeDocument_letsGo held

end Holders

/-! ### How a request ends -/

/-- A request asks for nothing but to be sent and answered. -/
theorem request_confined (method : String) (params : Option Json) (timeout : Option Span) :
    Confined (fun q => q = .command (.request method params timeout) ∨ ∃ id, q = .reply id)
      (Client.request method params timeout) := by
  refine Confined.bind (r := Client.startRequest method params timeout) ?_ fun sent => ?_
  · unfold Client.startRequest
    split
    · exact .done
    · exact .ask (.inl rfl) fun _ => .done
  · cases sent with
    | error failure => exact .done
    | ok id => exact .ask (.inr ⟨id, rfl⟩) fun _ => .done

/-- A routine that waits for replies only goes on to its end, or to where a reply is missing. -/
theorem Confined.drives {α : Type} {r : Routine Handler α}
    (confined : Confined (fun q => Prompt ρ q ∨ ∃ id, q = .reply id) r) (w : World ρ) :
    ∃ (own : List (Ask ρ)) (u : World ρ) (s : Routine Handler α), Stretch w r (own.map .own) u s ∧
      ((∃ a, s = .done a) ∨ ∃ id next, s = .ask (.reply id) next ∧ (u.answer (.reply id)).2 = none) := by
  induction confined generalizing w with
  | @done a => exact ⟨[], w, .done a, ⟨.nil, .nil⟩, .inl ⟨a, rfl⟩⟩
  | @ask q next waits later ih =>
      cases answered : (w.answer q).2 with
      | some a =>
          obtain ⟨own, u, s, rest, stage⟩ := ih a (w.answer q).1
          have first : Stretch w (.ask q next) [.own ⟨w, q⟩] (w.answer q).1 (next a) :=
            ⟨.cons (b := .own ⟨w, q⟩) .nil, .cons answered .nil⟩
          exact ⟨⟨w, q⟩ :: own, u, s, first.append rest, stage⟩
      | none =>
          rcases waits with prompt | ⟨id, rfl⟩
          · have given := prompt w
            rw [answered] at given
            cases given
          · exact ⟨[], w, .ask (.reply id) next, ⟨.nil, .nil⟩, .inr ⟨id, next, rfl, answered⟩⟩

theorem requestWhileOpen_confined (ws : Workspace) (name uri method : String) (params : Json) :
    Confined (fun q => Prompt ρ q ∨ ∃ id, q = .reply id)
      (ws.requestWhileOpen name uri method params).run := by
  rw [requestWhileOpen_eq]
  refine .ask (.inl fun w => rfl) fun read => ?_
  cases read with
  | error fault => exact .done
  | ok text =>
      refine .ask (.inl (command_prompt _)) fun opened => ?_
      have requested : Confined (fun q => Prompt ρ q ∨ ∃ id, q = .reply id)
          (whileOpen uri method params) := by
        refine Confined.bind ((request_confined method (some params) none).mono fun q own => ?_)
          fun answer => .ask (.inl (command_prompt _)) fun _ => .done
        rcases own with rfl | reply
        · exact .inl (command_prompt _)
        · exact .inr reply
      rcases opened with _ | failure | first
      · exact .done
      · exact .done
      · exact requested

section Ends

variable (ws : Workspace) (name uri method : String) (params : Json)

/-- A file was opened, a request about it came to this answer, and then, in the world `z`, the file was
to be closed. -/
inductive Held (beats : List (Beat ρ)) (answer : Answered) (z : World ρ) : Prop
  | intro {before during after : List (Beat ρ)} {u : World ρ} {text : String} {first : Bool}
      (parts : beats = before ++ .own ⟨u, openQuestion ws name uri text⟩ ::
        (during ++ .own ⟨z, closeQuestion uri⟩ :: after))
      (opened : (u.answer (openQuestion ws name uri text)).2 = some (some (.ok first)))
      (came : Asked (Client.request method (some params) none) (asks during) (.done answer))

/-- How a request about a file has ended: the file could not be read, or not opened, or was held for as
long as the request took. What is reported then is the answer, if the file could be closed. -/
inductive Ends (w : World ρ) (beats : List (Beat ρ)) (v : World ρ) : Except CheckFailure Json → Prop
  | unread (fault : FileFault) (kept : v.holders uri = w.holders uri) :
      Ends w beats v (.error (unreadable ws name fault))
  | unopened (failure : Failure) (kept : v.holders uri = w.holders uri) :
      Ends w beats v (.error (.client failure))
  | released {z : World ρ} {answer : Answered} {closed : Except Failure Bool}
      (held : Held ws name uri method params beats answer z)
      (closes : z.connection.LetsGo (w.holders uri) closed (v.holders uri)) :
      Ends w beats v (reported answer closed)

variable {ws name uri method params} {w v : World ρ} {beats : List (Beat ρ)}
  {s : Routine Handler (Except CheckFailure Json)} {result : Except CheckFailure Json}

/-- The part of a request from the opening of its file on. -/
theorem Ends.of_opened {u : World ρ} {before rest : List (Beat ρ)} {text : String} {first : Bool}
    (flow : Flow w (before ++ .own ⟨u, openQuestion ws name uri text⟩ :: rest) v)
    (live : w.stopped = false)
    (apart : ∀ b ∈ before ++ .own ⟨u, openQuestion ws name uri text⟩ :: rest, b.Apart uri)
    (reads : u.holders uri = w.holders uri)
    (opened : (u.answer (openQuestion ws name uri text)).2 = some (some (.ok first)))
    (asked : Asked (whileOpen uri method params) (asks rest) (.done result)) :
    Ends ws name uri method params w (before ++ .own ⟨u, openQuestion ws name uri text⟩ :: rest) v
      result := by
  obtain ⟨apartBefore, apartRest⟩ := List.forall_mem_append.mp apart
  have apartRest := (List.forall_mem_cons.mp apartRest).2
  obtain ⟨upto, onwards⟩ := flow.split
  obtain ⟨answer, early, late, split, came, last⟩ := asked.of_bind_done
  cases last with
  | @cons z _ _ closed late _ answered finish =>
      obtain ⟨rfl, same⟩ := finish.of_done
      obtain rfl := Dialogue.done.inj same
      obtain ⟨during, after, rfl, rfl, silent⟩ := asks_split split
      obtain ⟨apartDuring, apartAfter⟩ := List.forall_mem_append.mp apartRest
      have apartAfter := (List.forall_mem_cons.mp apartAfter).2
      obtain ⟨working, ending⟩ := onwards.split
      have liveOpen : u.stopped = false := upto.lives live apartBefore
      have liveNext : (Ask.next ⟨u, openQuestion ws name uri text⟩).stopped = false :=
        (Beat.comes_own ⟨u, openQuestion ws name uri text⟩).stopped.trans liveOpen
      have liveClose : z.stopped = false := working.lives liveNext apartDuring
      have spares : ∀ a ∈ asks during, Sparing uri a.question := by
        intro a held command same
        rcases ((request_confined method (some params) none).asked came).2 a held with own | ⟨id, own⟩
        · obtain rfl := Question.command.inj (same.symm.trans own)
          exact fun about => by cases about
        · cases same.symm.trans own
      have held : z.holders uri = w.holders uri + 1 := by
        have kept := working.holders apartDuring spares
        rw [← reads, ← opened_holders liveOpen opened]
        exact kept
      have rests : v.holders uri = (Ask.next ⟨z, closeQuestion uri⟩).holders uri :=
        ending.holders apartAfter fun a held => by
          rw [silent] at held
          cases held
      refine .released ⟨rfl, opened, came⟩ ?_
      rw [rests]
      exact closed_holders liveClose held answered

theorem Ends.of_refused {u : World ρ} {before rest : List (Beat ρ)} {text : String}
    {opened : Option (Except Failure Bool)} {failure : Failure}
    (flow : Flow w (before ++ .own ⟨u, openQuestion ws name uri text⟩ :: rest) v)
    (live : w.stopped = false)
    (apart : ∀ b ∈ before ++ .own ⟨u, openQuestion ws name uri text⟩ :: rest, b.Apart uri)
    (reads : u.holders uri = w.holders uri)
    (answered : (u.answer (openQuestion ws name uri text)).2 = some opened)
    (refused : Client.flatten opened = .error failure)
    (asked : Asked (.done (.error (.client failure))) (asks rest) (.done result)) :
    Ends ws name uri method params w (before ++ .own ⟨u, openQuestion ws name uri text⟩ :: rest) v
      result := by
  obtain ⟨silent, same⟩ := asked.of_done
  obtain rfl := Dialogue.done.inj same
  obtain ⟨apartBefore, apartRest⟩ := List.forall_mem_append.mp apart
  obtain ⟨upto, onwards⟩ := flow.split
  refine .unopened failure ?_
  calc v.holders uri
    _ = (Ask.next ⟨u, openQuestion ws name uri text⟩).holders uri :=
      onwards.holders (List.forall_mem_cons.mp apartRest).2 fun a held => by
        rw [silent] at held
        cases held
    _ = u.holders uri := unopened_holders (upto.lives live apartBefore) answered refused
    _ = w.holders uri := reads

theorem Ends.of_stretch (live : w.stopped = false)
    (stretch : Stretch w (ws.requestWhileOpen name uri method params).run beats v (.done result))
    (apart : ∀ b ∈ beats, b.Apart uri) : Ends ws name uri method params w beats v result := by
  obtain ⟨flow, asked⟩ := stretch
  rw [requestWhileOpen_eq] at asked
  generalize parts : asks beats = own at asked
  cases asked with
  | @cons x _ _ read own _ answered later =>
      have reading : Sparing uri (.readFile (ws.path name)) := fun command same => by cases same
      cases read with
      | error fault =>
          obtain ⟨rfl, same⟩ := later.of_done
          obtain rfl := Dialogue.done.inj same
          refine .unread fault (flow.holders apart fun a held => ?_)
          rw [parts] at held
          obtain rfl := List.mem_singleton.mp held
          exact reading
      | ok text =>
          cases later with
          | @cons u _ _ opened own _ asked onwards =>
              have parts : asks beats = [⟨x, .readFile (ws.path name)⟩] ++
                ⟨u, openQuestion ws name uri text⟩ :: own := parts
              obtain ⟨before, rest, rfl, first, rfl⟩ := asks_split parts
              obtain ⟨upto, ending⟩ := flow.split
              obtain ⟨apartBefore, apartRest⟩ := List.forall_mem_append.mp apart
              have reads : u.holders uri = w.holders uri := upto.holders apartBefore fun a held => by
                rw [first] at held
                obtain rfl := List.mem_singleton.mp held
                exact reading
              rcases opened with _ | failure | fresh
              · exact .of_refused flow live apart reads asked rfl onwards
              · exact .of_refused flow live apart reads asked rfl onwards
              · exact .of_opened flow live apart reads asked onwards

/-- A file that can be read and opened at once. -/
theorem opening_stretch {text : String} {first : Bool}
    (read : (w.answer (.readFile (ws.path name))).2 = some (.ok text))
    (opened : (w.answer (openQuestion ws name uri text)).2 = some (some (.ok first))) :
    Stretch w (ws.requestWhileOpen name uri method params).run
      [.own ⟨w, .readFile (ws.path name)⟩, .own ⟨w, openQuestion ws name uri text⟩]
      (Ask.next ⟨w, openQuestion ws name uri text⟩) (whileOpen uri method params) := by
  refine ⟨.cons (b := .own ⟨w, .readFile (ws.path name)⟩)
    (.cons (b := .own ⟨w, openQuestion ws name uri text⟩) .nil), ?_⟩
  rw [requestWhileOpen_eq]
  exact .cons read (.cons opened .nil)

/-- A request that has come to its answer, and the closing of its file. -/
theorem releasing_stretch {u z : World ρ} {answer : Answered} {closed : Option (Except Failure Bool)}
    (came : Stretch u (Client.request method (some params) none) beats z (.done answer))
    (closes : (z.answer (closeQuestion uri)).2 = some closed) :
    Stretch u (whileOpen uri method params) (beats ++ [.own ⟨z, closeQuestion uri⟩])
      (Ask.next ⟨z, closeQuestion uri⟩) (.done (reported answer (Client.flatten closed))) := by
  have first : Stretch u (whileOpen uri method params) beats z (releasing uri answer) :=
    ⟨came.flow, came.asked.bind (releasing uri)⟩
  exact first.append ⟨.cons (b := .own ⟨z, closeQuestion uri⟩) .nil, .cons closes .nil⟩

/-- A file that is opened at once, and closed as soon as the request has come to its answer. -/
theorem holding_stretch {z : World ρ} {text : String} {first : Bool} {answer : Answered}
    {closed : Option (Except Failure Bool)}
    (read : (w.answer (.readFile (ws.path name))).2 = some (.ok text))
    (opened : (w.answer (openQuestion ws name uri text)).2 = some (some (.ok first)))
    (came : Stretch (Ask.next ⟨w, openQuestion ws name uri text⟩)
      (Client.request method (some params) none) beats z (.done answer))
    (closes : (z.answer (closeQuestion uri)).2 = some closed) (apart : ∀ b ∈ beats, b.Apart uri) :
    ∃ all, Stretch w (ws.requestWhileOpen name uri method params).run all
        (Ask.next ⟨z, closeQuestion uri⟩) (.done (reported answer (Client.flatten closed))) ∧
      Held ws name uri method params all answer z ∧ ∀ b ∈ all, b.Apart uri := by
  refine ⟨_, (opening_stretch read opened).append (releasing_stretch came closes), ?_, ?_⟩
  · have parts : [.own ⟨w, .readFile (ws.path name)⟩, .own ⟨w, openQuestion ws name uri text⟩]
          ++ (beats ++ [.own ⟨z, closeQuestion uri⟩]) =
        [.own ⟨w, .readFile (ws.path name)⟩] ++ .own ⟨w, openQuestion ws name uri text⟩ ::
          (beats ++ .own ⟨z, closeQuestion uri⟩ :: []) := rfl
    exact .intro parts opened came.asked
  · refine List.forall_mem_append.mpr ⟨?_, ?_⟩
    · exact List.forall_mem_cons.mpr ⟨trivial, List.forall_mem_singleton.mpr trivial⟩
    · exact List.forall_mem_append.mpr ⟨apart, List.forall_mem_singleton.mpr trivial⟩

/-- What becomes of a request about a file, at any stage: it goes on to its end, or to where it waits for
the reply; and it ends as told. -/
structure Bracketed (ws : Workspace) (name uri method : String) (params : Json) (w : World ρ)
    (beats : List (Beat ρ)) (v : World ρ) (s : Routine Handler (Except CheckFailure Json)) : Prop where
  proceeds : ∃ (own : List (Ask ρ)) (u : World ρ) (t : Routine Handler (Except CheckFailure Json)),
    Stretch w (ws.requestWhileOpen name uri method params).run (beats ++ own.map .own) u t ∧
      ((∃ result, t = .done result) ∨
        ∃ id next, t = .ask (.reply id) next ∧ (u.answer (.reply id)).2 = none)
  ended : ∀ result, s = .done result → Ends ws name uri method params w beats v result

/-- A file is held open for as long as a request about it takes, whatever happens meanwhile that is not
about the file. If others hold it too, or if the session is initialized and the link up when the file is
to be closed, then the answer of the request is reported, a failure included, and the file has as many
holders as before. Otherwise the failure to close it is reported in the place of the answer, and if it is
the session that forbids closing the file, the request stays a holder. -/
theorem requestWhileOpen_bracketed (live : w.stopped = false)
    (stretch : Stretch w (ws.requestWhileOpen name uri method params).run beats v s)
    (apart : ∀ b ∈ beats, b.Apart uri) : Bracketed ws name uri method params w beats v s := by
  refine ⟨?_, ?_⟩
  · have confined : Confined (fun q => Prompt ρ q ∨ ∃ id, q = .reply id) s :=
      ((requestWhileOpen_confined ws name uri method params).asked stretch.asked).1
    obtain ⟨own, u, t, rest, stage⟩ := confined.drives v
    exact ⟨own, u, t, stretch.append rest, stage⟩
  · rintro result rfl
    exact .of_stretch live stretch apart

end Ends

/-! ### A file nobody else holds -/

/-- A response of the server to the call with an id. -/
def response (id result : String) : Input Handler :=
  .received (Framing.frame (Utf8.encode
    ("\x7b\"jsonrpc\":\"2.0\",\"id\":" ++ id ++ ",\"result\":" ++ result ++ "\x7d")))

/-- A world with one file, in which the session has been initialized. -/
def library : World Unit :=
  (disturb (World.fresh .standard ⟨[], [([], none), (["a"], some (Utf8.encode "x"))]⟩)
    [.command (.request Method.initializeRequest none none),
      response "1" "\x7b\"capabilities\":\x7b\x7d\x7d"]).2

/-- Asking about that file. -/
def hovering : Routine Handler (Except CheckFailure Json) :=
  (Workspace.requestWhileOpen ⟨"/"⟩ "a" "file:///a" "textDocument/hover" (.obj [])).run

/-- The world once the file has been opened. -/
def opened : World Unit := Ask.next ⟨library, openQuestion ⟨"/"⟩ "a" "file:///a" "x"⟩

/-- The request is answered, but somebody else has asked for a shutdown before. -/
def outpaced : List (Beat Unit) × World Unit × Routine Handler Answered :=
  among opened [[], [.command (.request Method.shutdown none none), response "2" "5"]]
    (Client.request "textDocument/hover" (some (.obj [])) none)

theorem outpaced_end : outpaced.2.1.stopped = false ∧ outpaced.2.1.holders "file:///a" = 0 + 1 ∧
    outpaced.2.1.connection.state = .shuttingDown ∧ outpaced.2.1.connection.session.reason = none := by
  decide +kernel

def value? : Routine Handler Answered → Option Json
  | .done (.ok value) => some value
  | _ => none

theorem done_of_value? {r : Routine Handler Answered} (h : (value? r).isSome) :
    ∃ value, r = .done (.ok value) := by
  cases r with
  | ask q next => cases h
  | done answer =>
      cases answer with
      | error failure => cases h
      | ok value => exact ⟨value, rfl⟩

def accepted : Option (Option (Except Failure Bool)) → Bool
  | some (some (.ok _)) => true
  | _ => false

theorem ok_of_accepted {answer : Option (Option (Except Failure Bool))} (h : accepted answer = true) :
    ∃ first, answer = some (some (.ok first)) := by
  rcases answer with _ | _ | failure | first
  · cases h
  · cases h
  · cases h
  · exact ⟨first, rfl⟩

theorem library_opens : library.stopped = false ∧ library.holders "file:///a" = 0 ∧
    (library.answer (.readFile (Workspace.path ⟨"/"⟩ "a"))).2 = some (.ok "x") ∧
    accepted (library.answer (openQuestion ⟨"/"⟩ "a" "file:///a" "x")).2 = true := by
  decide +kernel

/-- A request whose answer is never reported, although it was a result: somebody else shuts the session
down, so the file cannot be closed any more. It keeps a holder that nobody is. -/
theorem answer_lost : ∃ (beats : List (Beat Unit)) (v z : World Unit) (value : Json),
    library.stopped = false ∧
    Stretch library hovering beats v
      (.done (.error (.client (.sessionNotReady Method.didClose .shuttingDown)))) ∧
    (∀ b ∈ beats, b.Apart "file:///a") ∧
    Held ⟨"/"⟩ "a" "file:///a" "textDocument/hover" (.obj []) beats (.ok value) z ∧
    library.holders "file:///a" = 0 ∧ v.holders "file:///a" = 1 := by
  obtain ⟨alive, unheld, read, goes⟩ := library_opens
  obtain ⟨first, opens⟩ := ok_of_accepted goes
  have work : Stretch opened (Client.request "textDocument/hover" (some (.obj [])) none)
      outpaced.1 outpaced.2.1 outpaced.2.2 := by
    unfold outpaced
    exact among_stretch _ _ _
  obtain ⟨value, answered⟩ : ∃ value, outpaced.2.2 = .done (.ok value) :=
    done_of_value? (by decide +kernel)
  rw [answered] at work
  obtain ⟨live, held, stopping, ongoing⟩ := outpaced_end
  have refusal : outpaced.2.1.connection.session.refusal Method.didClose =
      .sessionNotReady Method.didClose .shuttingDown := by
    simp only [Session.refusal, ongoing]
    exact congrArg (Failure.sessionNotReady Method.didClose) stopping
  have closes := answer_command live (.closeDocument "file:///a")
  obtain ⟨refused, left⟩ := (closed_holders live held closes).of_forbidden rfl
    (by rw [stopping]; decide)
  rw [refusal] at refused
  have apart : ∀ b ∈ outpaced.1, b.Apart "file:///a" := by
    unfold outpaced
    refine among_all (fun _ => trivial) (List.forall_mem_cons.mpr ⟨fun i none => (by cases none), ?_⟩) _ _
    refine List.forall_mem_singleton.mpr (List.forall_mem_cons.mpr ⟨fun w => ?_, ?_⟩)
    · rintro command same
      cases same
      exact fun about => by cases about
    · exact List.forall_mem_singleton.mpr fun w command same => by cases same
  obtain ⟨beats, whole, held, apart⟩ := holding_stretch read opens work closes apart
  rw [refused] at whole
  exact ⟨beats, _, _, value, alive, whole, apart, held, unheld, left⟩

/-! ### A file that others hold -/

/-- The same world, in which somebody else has opened the file. -/
def shared : World Unit := (disturb library [.command (.openDocument "file:///a" "plaintext" "x")]).2

/-- The client is closed while the reply is waited for. -/
def severed : List (Beat Unit) × World Unit × Routine Handler (Except CheckFailure Json) :=
  among shared [[], [], [], [.command .close]] hovering

def severance? : Routine Handler (Except CheckFailure Json) → Option String
  | .done (.error (.client (.transportClosed reason))) => some reason
  | _ => none

theorem done_of_severance? {r : Routine Handler (Except CheckFailure Json)} {reason : String}
    (h : severance? r = some reason) : r = .done (.error (.client (.transportClosed reason))) := by
  unfold severance? at h
  split at h
  · rw [Option.some.inj h]
  · cases h

/-- The end of the session is reported, and the file is still held by the other one. -/
theorem requestWhileOpen_bracketed_shared : ∃ (beats : List (Beat Unit)) (v : World Unit),
    shared.stopped = false ∧
    Stretch shared hovering beats v
      (.done (.error (.client (.transportClosed "connection closed by client")))) ∧
    (∀ b ∈ beats, b.Apart "file:///a") ∧
    shared.holders "file:///a" = 1 ∧ v.holders "file:///a" = 1 ∧
    Bracketed ⟨"/"⟩ "a" "file:///a" "textDocument/hover" (.obj []) shared beats v
      (.done (.error (.client (.transportClosed "connection closed by client")))) := by
  obtain ⟨live, before, after, severs⟩ : shared.stopped = false ∧ shared.holders "file:///a" = 1 ∧
      severed.2.1.holders "file:///a" = 1 ∧
      severance? severed.2.2 = some "connection closed by client" := by decide +kernel
  have stretch : Stretch shared hovering severed.1 severed.2.1 severed.2.2 := by
    unfold severed
    exact among_stretch _ _ _
  rw [done_of_severance? severs] at stretch
  have apart : ∀ b ∈ severed.1, b.Apart "file:///a" := by
    unfold severed
    refine among_all (fun _ => trivial) (fun inputs held i given w command same => ?_) _ _
    simp only [List.mem_cons, List.not_mem_nil, or_false] at held
    rcases held with rfl | rfl | rfl | rfl
    · cases given
    · cases given
    · cases given
    · obtain rfl := List.mem_singleton.mp given
      cases same
      exact fun about => by cases about
  exact ⟨_, _, live, stretch, apart, before, after,
    requestWhileOpen_bracketed live stretch apart⟩

end ServerProbe.Mock
