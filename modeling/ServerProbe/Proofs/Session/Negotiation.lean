import ServerProbe.Session.Capabilities
/-!
What the result of a handshake has to say for capabilities to be the ones it advertises, and that
reading a result yields exactly these.
-/

namespace ServerProbe

theorem Json.asString?_eq_some {v : Json} {text : String} : v.asString? = some text ↔ v = .str text := by
  cases v <;> simp [Json.asString?]

/-- A server is told of by its name, and by a version where that is given as a text. -/
structure ServerInfo.ToldIn (info : ServerInfo) (about : Json) : Prop where
  name : about.get? "name" = some (.str info.name)
  version : ∀ v, info.version = some v ↔ about.get? "version" = some (.str v)

/-- Capabilities as a result advertises them: the very object that the result has under that name, and
the server that it tells of, if it does. -/
structure Capabilities.AdvertisedIn (caps : Capabilities) (result : Json) : Prop where
  entire : result.get? "capabilities" = some caps.advertised
  object : ∃ members, caps.advertised = .obj members
  server : ∀ info, caps.server = some info ↔
    ∃ about, result.get? "serverInfo" = some about ∧ info.ToldIn about

theorem ServerInfo.ofJson?_eq_some {about : Json} {info : ServerInfo} :
    ServerInfo.ofJson? about = some info ↔ info.ToldIn about := by
  constructor
  · intro read
    obtain ⟨_, held, read⟩ := Option.bind_eq_some_iff.mp read
    obtain ⟨name, text, read⟩ := Option.bind_eq_some_iff.mp read
    obtain rfl := Option.some.inj read
    refine ⟨Json.asString?_eq_some.mp text ▸ held, fun v => ?_⟩
    rw [Option.bind_eq_some_iff]
    simp only [Json.asString?_eq_some, exists_eq_right]
  · intro told
    have version : (about.get? "version").bind Json.asString? = info.version := by
      refine Option.ext fun v => ?_
      rw [told.version, Option.bind_eq_some_iff]
      simp only [Json.asString?_eq_some, exists_eq_right]
    simp only [ofJson?, told.name, version, Json.asString?, Option.bind_eq_bind, Option.bind_some,
      Option.pure_def]

theorem Capabilities.ofResult_eq_ok {result : Json} {caps : Capabilities} :
    Capabilities.ofResult result = .ok caps ↔ caps.AdvertisedIn result := by
  have told (about : Option Json) (info : ServerInfo) : about.bind ServerInfo.ofJson? = some info ↔
      ∃ v, about = some v ∧ info.ToldIn v := by
    simp only [Option.bind_eq_some_iff, ServerInfo.ofJson?_eq_some]
  constructor
  · intro read
    cases result with
    | obj members =>
        simp only [ofResult] at read
        split at read
        next advertised held =>
          obtain rfl := Except.ok.inj read
          exact ⟨held, ⟨advertised, rfl⟩, told _⟩
        all_goals cases read
    | _ => cases read
  · rintro ⟨entire, ⟨advertised, object⟩, server⟩
    rw [object] at entire
    have servers : (result.get? "serverInfo").bind ServerInfo.ofJson? = caps.server :=
      Option.ext fun info => (told _ info).trans (server info).symm
    cases result with
    | obj members =>
        simp only [Json.get?] at entire servers
        simp only [ofResult, entire, servers]
        rw [← object]
    | _ => cases entire

end ServerProbe
