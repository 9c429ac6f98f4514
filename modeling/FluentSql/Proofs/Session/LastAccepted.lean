import FluentSql.Session

/-!
# The query accepted last

What is asked of a session is accepted or rejected, or it has no bearing on the query. A session
holds on to the query accepted last, whatever is rejected after it, and reports an error as long as
the latest decision was to reject. All this holds in any language, and whatever becomes of the file
of the history.
-/

namespace FluentSql

/-- What is asked of a session. -/
inductive Request
  /-- To take an edited text. -/
  | edit (text : String)
  /-- To start over with a table. -/
  | showTable (table : String)
  /-- To add an action to the current query. -/
  | perform (action : Action)
  /-- To go back in the history. -/
  | previous
  /-- To go forth in the history. -/
  | next
  /-- To forget which entry of the history was shown last. -/
  | clearCursor
  /-- To look for entries of the history. -/
  | search (needle : String)

/-- What is decided on a request. -/
inductive Verdict
  /-- A query is taken, with its text. -/
  | accepted (text : String) (q : Query)
  /-- The text does not stand for a query. -/
  | rejected (e : Error)
  /-- The query is not concerned. -/
  | ignored

namespace Verdict

/-- The text and the query that are taken. -/
def accepted? : Verdict → Option (String × Query)
  | accepted text q => some (text, q)
  | rejected _ | ignored => none

/-- The text and the query taken last, if the latest decision comes first. -/
def lastAccepted? (log : List Verdict) : Option (String × Query) :=
  log.findSome? accepted?

/-- The error of the last decision that concerned the query, if the latest decision comes first. -/
def lastError? : List Verdict → Option Error
  | [] | accepted .. :: _ => none
  | rejected e :: _ => some e
  | ignored :: earlier => lastError? earlier

/-- Nothing was taken last if nothing was taken at all. -/
theorem lastAccepted?_eq_none_iff {log : List Verdict} :
    lastAccepted? log = none ↔ ∀ text q, accepted text q ∉ log := by
  rw [lastAccepted?, List.findSome?_eq_none_iff]
  constructor
  · intro h text q hmem
    cases h _ hmem
  · rintro h (⟨text, q⟩ | _ | _) hmem
    · exact absurd hmem (h text q)
    · rfl
    · rfl

/-- An error is the last one if nothing that concerned the query was decided after it. -/
theorem lastError?_eq_some_iff {log : List Verdict} {e : Error} :
    lastError? log = some e ↔
      ∃ later earlier, log = later ++ rejected e :: earlier ∧ ∀ v ∈ later, v = ignored := by
  constructor
  · intro h
    induction log with
    | nil => cases h
    | cons v log ih =>
      cases v with
      | accepted => cases h
      | rejected =>
        cases h
        exact ⟨[], log, rfl, by simp⟩
      | ignored =>
        obtain ⟨later, earlier, rfl, hlater⟩ := ih h
        exact ⟨ignored :: later, earlier, rfl, by simpa using hlater⟩
  · rintro ⟨later, earlier, rfl, hlater⟩
    induction later with
    | nil => rfl
    | cons v later ih =>
      obtain ⟨hv, hrest⟩ := List.forall_mem_cons.mp hlater
      rw [hv]
      exact ih hrest

end Verdict

/-- What is decided on a request, where `query` is the query accepted last. A text is accepted if
the language makes a query of it, and an action if there is a query to add it to. -/
def Request.verdict (language : Language) (indent : Nat) (query : Option Query) : Request → Verdict
  | edit text =>
    match language.compile text with
    | .ok q => .accepted text q
    | .error e => .rejected e
  | showTable table => .accepted ((Query.table table).toScript indent) (.table table)
  | perform action =>
    match query with
    | some q => .accepted ((action.apply q).toScript indent) (action.apply q)
    | none => .ignored
  | previous | next | clearCursor | search _ => .ignored

namespace Session

/-- The session after a request at a time. -/
def serve (s : Session) (now : Timestamp) : Request → Session
  | .edit text => (s.edit now text).1
  | .showTable table => s.showTable now table
  | .perform action => s.perform now action
  | .previous => s.previous.1
  | .next => s.next.1
  | .clearCursor => s.clearCursor
  | .search _ => s

/-! ### One request -/

/-- What a decision does to the state of a session. -/
def Effect (s t : Session) : Verdict → Prop
  | .accepted text q => t.text = text ∧ t.query = some q ∧ t.error = none
  | .rejected e => t = { s with error := some e }
  | .ignored => t.text = s.text ∧ t.query = s.query ∧ t.error = s.error ∧
      t.history.entries = s.history.entries ∧ t.storage = s.storage

/-- A request has the effect that was decided on. -/
theorem effect_serve (s : Session) (now : Timestamp) (request : Request) :
    s.Effect (s.serve now request) (request.verdict s.language s.config.indent s.query) := by
  cases request with
  | edit text =>
    simp only [serve, Session.edit, Request.verdict]
    cases s.language.compile text with
    | ok q => exact ⟨rfl, rfl, rfl⟩
    | error e => exact rfl
  | showTable table => exact ⟨rfl, rfl, rfl⟩
  | perform action =>
    simp only [serve, Session.perform, Request.verdict]
    cases s.query with
    | some q => exact ⟨rfl, rfl, rfl⟩
    | none => exact ⟨rfl, rfl, rfl, rfl, rfl⟩
  | previous => exact ⟨rfl, rfl, rfl, History.entries_moveTo _ _, rfl⟩
  | next => exact ⟨rfl, rfl, rfl, History.entries_moveTo _ _, rfl⟩
  | clearCursor | search => exact ⟨rfl, rfl, rfl, rfl, rfl⟩

/-! ### Runs -/

/-- With these settings, some run of a new session reaches the state, where the decisions of the run
are logged, the latest first. A session that is opened anew is a new one, with a log of its own. -/
inductive Logs (config : Config) : Session → List Verdict → Prop
  | start {storage : Storage} {s : Session} (h : start? config storage = some s) : Logs config s []
  | withLanguage {s : Session} {log : List Verdict} (h : Logs config s log) (language : Language) :
      Logs config (s.withLanguage language) log
  | serve {s : Session} {log : List Verdict} (h : Logs config s log) (now : Timestamp)
      (request : Request) :
      Logs config (s.serve now request)
        (request.verdict s.language config.indent ((Verdict.lastAccepted? log).map (·.2)) :: log)
  /-- Others may write the file of the history, and writing it may fail. -/
  | interfere {s : Session} {log : List Verdict} (h : Logs config s log) (storage : Storage) :
      Logs config { s with storage } log

/-- The state shows the query accepted last, and the error if the latest decision was to reject. -/
structure Shows (config : Config) (s : Session) (log : List Verdict) : Prop where
  /-- The settings are those of the start. -/
  config_eq : s.config = config
  /-- The text is that of the query accepted last. -/
  text_eq : s.text = (Verdict.lastAccepted? log).elim "" (·.1)
  /-- The query is the one accepted last. -/
  query_eq : s.query = (Verdict.lastAccepted? log).map (·.2)
  /-- The error is that of the last decision. -/
  error_eq : s.error = Verdict.lastError? log

/-- The configuration is not changed by any request. -/
theorem config_serve (s : Session) (now : Timestamp) (request : Request) :
    (s.serve now request).config = s.config := by
  cases request with
  | edit text =>
    rw [serve, Session.edit]
    cases s.language.compile text <;> rfl
  | perform action =>
    rw [serve, Session.perform]
    cases s.query <;> rfl
  | showTable | previous | next | clearCursor | search => rfl

/-- What a decision does is what the log says of it. -/
theorem Shows.effect {config : Config} {s t : Session} {log : List Verdict}
    (h : s.Shows config log) {verdict : Verdict} (hconfig : t.config = s.config)
    (heffect : s.Effect t verdict) : t.Shows config (verdict :: log) := by
  cases verdict with
  | accepted text q =>
    obtain ⟨htext, hquery, herror⟩ := heffect
    exact ⟨hconfig.trans h.config_eq, htext, hquery, herror⟩
  | rejected e =>
    obtain rfl : t = { s with error := some e } := heffect
    exact ⟨h.config_eq, h.text_eq, h.query_eq, rfl⟩
  | ignored =>
    obtain ⟨htext, hquery, herror, -⟩ := heffect
    exact ⟨hconfig.trans h.config_eq, htext.trans h.text_eq, hquery.trans h.query_eq,
      herror.trans h.error_eq⟩

/-- In every state of a run the session shows the query accepted last. -/
theorem Logs.shows {config : Config} {s : Session} {log : List Verdict} (h : Logs config s log) :
    s.Shows config log := by
  induction h with
  | start h =>
    obtain ⟨history, -, rfl⟩ := Option.map_eq_some_iff.mp h
    exact ⟨rfl, rfl, rfl, rfl⟩
  | withLanguage _ _ ih | interfere _ _ ih =>
    exact ⟨ih.config_eq, ih.text_eq, ih.query_eq, ih.error_eq⟩
  | @serve s _ _ now request ih =>
    refine ih.effect (config_serve s now request) ?_
    rw [← ih.query_eq, ← ih.config_eq]
    exact effect_serve s now request

/-- An edit is answered with what the language makes of the text. -/
theorem edit_snd (s : Session) (now : Timestamp) (text : String) :
    (s.edit now text).2 = s.language.compile text := by
  rw [Session.edit]
  cases s.language.compile text <;> rfl

/-- In every state of a run the session shows the text and the query accepted last, with the SQL of
the query, or none if none was accepted, and the error if the latest decision on the query was to
reject. A text that is rejected changes nothing but the error, an action without a query changes
nothing, what is accepted clears the error, and navigation leaves text, query, error and history as
they are. -/
theorem Logs.shows_last_accepted {config : Config} {s : Session} {log : List Verdict}
    (h : Logs config s log) :
    s.Shows config log ∧
      s.sql = ((Verdict.lastAccepted? log).map fun (_, q) =>
        if config.pretty then q.toSql config.indent else q.toCompactSql) ∧
      (s.query = none ↔ ∀ text q, Verdict.accepted text q ∉ log) ∧
      (∀ e, s.error = some e ↔ ∃ later earlier,
        log = later ++ Verdict.rejected e :: earlier ∧ ∀ v ∈ later, v = Verdict.ignored) ∧
      ∀ now : Timestamp,
        (∀ request, s.Effect (s.serve now request)
          (request.verdict s.language config.indent s.query)) ∧
        (∀ text, (s.edit now text).2 = s.language.compile text) ∧
        (s.query = none → ∀ action, s.perform now action = s) := by
  have hshows := h.shows
  refine ⟨hshows, ?_, ?_, fun e => ?_, fun now => ⟨fun request => ?_, s.edit_snd now, ?_⟩⟩
  · rw [sql, hshows.query_eq, hshows.config_eq, Option.map_map]
    rfl
  · rw [hshows.query_eq, Option.map_eq_none_iff]
    exact Verdict.lastAccepted?_eq_none_iff
  · rw [hshows.error_eq]
    exact Verdict.lastError?_eq_some_iff
  · rw [← hshows.config_eq]
    exact s.effect_serve now request
  · intro hquery action
    rw [Session.perform, hquery]

/-- A session in which texts are names of tables keeps the last one when no name is given. -/
theorem Logs.shows_last_accepted_tables :
    let now : Timestamp := ⟨2024, 1, 2, 3, 4, 5, 0⟩
    let tables : Language := ⟨"table", [], fun text =>
      if text = "" then .error (.notAQuery .string) else .ok (.table text)⟩
    let first : Session := ⟨{}, .script, "", none, none, .empty 500, .memory⟩
    let s := (((first.withLanguage tables).serve now (.edit "t")).serve now (.edit "")).serve now
      .previous
    let log := [.ignored, .rejected (.notAQuery .string), .accepted "t" (.table "t")]
    Logs {} s log ∧ s.text = "t" ∧ s.query = some (.table "t") ∧
      s.error = some (.notAQuery .string) := by
  intro now tables first s log
  have hlogs : Logs {} s log :=
    ((((Logs.start (rfl : start? {} .memory = some first)).withLanguage tables).serve now
      (.edit "t")).serve now (.edit "")).serve now .previous
  obtain ⟨hshows, -, -, herror, -⟩ := hlogs.shows_last_accepted
  exact ⟨hlogs, hshows.text_eq, hshows.query_eq, (herror _).mpr ⟨[.ignored], _, rfl, by simp⟩⟩

end Session

end FluentSql
