import LspClient.Proofs.Client.Refused
import LspClient.Proofs.Client.Replies
import LspClient.Proofs.Json.Scalars

/-! Calls of the server: objects that name a method. One that is numbered with an integer of 64 bits is a request,
and is replied to under its number. Any other passes for a notification, also if it has a number of another kind,
and is not replied to. -/
namespace LspClient

variable {fields : List (String × Json)} {method : String} {id : Int}

namespace Message

def Names (fields : List (String × Json)) (method : String) : Prop :=
  fields.lookup "method" = some (.string method)

def Numbers (fields : List (String × Json)) (id : Int) : Prop :=
  fields.lookup "id" = some (.integer id) ∧ -Int.pow 2 63 ≤ id ∧ id < Int.pow 2 63

theorem numberRead : (fields.lookup "id").bind Json.int64? = some id ↔ Numbers fields id := by
  rw [Option.bind_eq_some_iff]
  constructor
  · rintro ⟨value, held, read⟩
    obtain ⟨rfl, ranged⟩ := Json.wholeRead.mp read
    exact ⟨held, ranged⟩
  · rintro ⟨held, ranged⟩
    exact ⟨_, held, Json.wholeRead.mpr ⟨rfl, ranged⟩⟩

theorem numberedRequest (names : Names fields method) (numbers : Numbers fields id) :
    ofJson? (.object fields) = some (.request id method (fields.lookup "params")) := by
  have names : fields.lookup "method" = _ := names
  simp [ofJson?, Json.fields?, numberRead.mpr numbers, names, Json.string?]

theorem unnumberedNotification (names : Names fields method) (unnumbered : ∀ id, ¬ Numbers fields id) :
    ofJson? (.object fields) = some (.notification method (fields.lookup "params")) := by
  have names : fields.lookup "method" = _ := names
  have none : (fields.lookup "id").bind Json.int64? = none :=
    Option.eq_none_iff_forall_ne_some.mpr fun id read => unnumbered id (numberRead.mp read)
  simp [ofJson?, Json.fields?, none, names, Json.string?]

end Message

namespace Client
open Message (Names Numbers)

variable {config : Config} {nextId : Int} {c : Client} {body : String}

structure Offered (c : Client) (body : String) (fields : List (String × Json)) (method : String) : Prop where
  offers : c.Offers body
  parsed : Json.parse? body = some (.object fields)
  names : Names fields method

theorem unreadRefusal (rest : Utf8.Octets) (c : Client) :
    (c.updateServer fun s => {s with unread := rest}).quiet.refusal = c.refusal := by
  cases server : c.server <;> simp [quiet, refusal, writable, updateServer, server, Server.reads]

theorem offeredCall {m : Message} (offers : c.Offers body) (parsed : Message.parse? body = some m) :
    ∃ heard : Client, heard.refusal = c.refusal ∧ heard.log = c.deeds ++ [.heard m] ∧
      Taken heard m (c.perform .take).quiet := by
  obtain ⟨s, rest, took, same⟩ := offeredTaken offers parsed
  refine ⟨(c.quiet.readOn s rest).note (.heard m), ?_, rfl, ?_⟩
  · exact (congrArg refusal same).symm.trans (unreadRefusal rest c)
  · rw [took, ← same]
    exact hearTaken m _

inductive Replied (c : Client) (id : Int) (method : String) (params : Option Json) (deeds : List Event) : Prop where
  | wrote {result error} (clear : c.refusal = none)
      (reply : Reply (.request id method params) (.response id result error))
      (added : deeds = c.deeds ++ [.heard (.request id method params), .wrote (.response id result error)]) :
      Replied c id method params deeds
  | shut {result error} (shut : c.refusal ≠ none)
      (reply : Reply (.request id method params) (.response id result error))
      (added : deeds = c.deeds ++ [.heard (.request id method params), .lost (.response id result error)]) :
      Replied c id method params deeds

theorem numberedReplied (offered : c.Offered body fields method) (numbers : Numbers fields id) :
    Replied c id method (fields.lookup "params") (c.perform .take).deeds := by
  have parsed : Message.parse? body = _ :=
    (congrArg (·.bind Message.ofJson?) offered.parsed).trans (Message.numberedRequest offered.names numbers)
  obtain ⟨heard, clear, log, taken⟩ := offeredCall offered.offers parsed
  have reply := replyReply id method (fields.lookup "params")
  obtain ⟨result, error, own⟩ := replyResponse id method (fields.lookup "params")
  rw [own] at reply
  generalize after : (c.perform .take).quiet = quiet at taken
  have deeds : (c.perform .take).deeds = quiet.log := congrArg Client.log after
  cases taken with
  | request =>
    rw [own] at deeds
    rcases triedCases (.response id result error) heard with ⟨open', same⟩ | ⟨shut, same⟩
    · rw [same] at deeds
      exact .wrote (clear ▸ open') reply (deeds.trans (by simp [told, log]))
    · rw [same] at deeds
      exact .shut (clear ▸ shut) reply (deeds.trans (by simp [note, log]))

theorem unnumberedHeard (offered : c.Offered body fields method) (unnumbered : ∀ id, ¬ Numbers fields id) :
    (c.perform .take).deeds = c.deeds ++ [.heard (.notification method (fields.lookup "params"))] := by
  have parsed : Message.parse? body = _ := (congrArg (·.bind Message.ofJson?) offered.parsed).trans
    (Message.unnumberedNotification offered.names unnumbered)
  generalize fields.lookup "params" = params at parsed
  obtain ⟨heard, _, log, taken⟩ := offeredCall offered.offers parsed
  generalize after : (c.perform .take).quiet = quiet at taken
  have deeds : (c.perform .take).deeds = quiet.log := congrArg Client.log after
  have same : quiet.log = heard.log := by cases taken <;> rfl
  exact (deeds.trans same).trans log

structure Sorted (c : Client) : Prop where
  request : ∀ {fields method}, Names fields method → ∀ id, Numbers fields id ↔
    Message.ofJson? (.object fields) = some (.request id method (fields.lookup "params"))
  notification : ∀ {fields method}, Names fields method → ((∀ id, ¬ Numbers fields id) ↔
    Message.ofJson? (.object fields) = some (.notification method (fields.lookup "params")))
  replied : ∀ {body fields method id}, c.Offered body fields method → Numbers fields id →
    Replied c id method (fields.lookup "params") (c.perform .take).deeds
  unanswered : ∀ {body fields method}, c.Offered body fields method → (∀ id, ¬ Numbers fields id) →
    (c.perform .take).deeds = c.deeds ++ [.heard (.notification method (fields.lookup "params"))]

theorem sorted (config : Config) (nextId : Int) (moves : List Move) : Sorted ((new config nextId).play moves) where
  request {fields _} names id := by
    refine ⟨Message.numberedRequest names, fun read => ?_⟩
    by_cases numbered : ∃ id', Numbers fields id'
    · obtain ⟨id', numbers⟩ := numbered
      cases read.symm.trans (Message.numberedRequest names numbers)
      exact numbers
    · cases read.symm.trans (Message.unnumberedNotification names (not_exists.mp numbered))
  notification names := by
    refine ⟨Message.unnumberedNotification names, fun read id numbers => ?_⟩
    cases read.symm.trans (Message.numberedRequest names numbers)
  replied := numberedReplied
  unanswered := unnumberedHeard

def lettered : List (String × Json) :=
  [("id", .string "a"), ("jsonrpc", .string "2.0"), ("method", .string "workspace/applyEdit")]

def letter : String := (Json.object lettered).compact

def greetingText : String := (Message.response 1 (some .null) none).body

def awaitingAnswer : Client := (new sampleConfig 1).play [.host (.start none), .spawn, .introduce,
  .server (.writes (Utf8.ofString (Frame.write greetingText ++ Frame.write letter))), .take]

/-- The client runs and takes up a request whose number is a text, yet writes nothing. -/
theorem letterUnanswered : awaitingAnswer.Offered letter lettered "workspace/applyEdit" ∧
    awaitingAnswer.phase = .running ∧ awaitingAnswer.refusal = none ∧
    Message.parse? letter = some (.notification "workspace/applyEdit" none) ∧
    (awaitingAnswer.perform .take).deeds =
      awaitingAnswer.deeds ++ [.heard (.notification "workspace/applyEdit" none)] := by
  have parsed : Json.parse? letter = some (.object lettered) := by decide +kernel
  have run : awaitingAnswer.listening = true ∧
      awaitingAnswer.server = some (awaitingAnswer.server.getD default) ∧
      Frame.read true (awaitingAnswer.server.getD default).unread = .body letter [] ∧
      (awaitingAnswer.server.getD default).writes = true ∧ awaitingAnswer.phase = .running ∧
      awaitingAnswer.refusal = none := by decide +kernel
  obtain ⟨listening, server, frame, writes, running, clear⟩ := run
  have offered : awaitingAnswer.Offered letter lettered "workspace/applyEdit" :=
    ⟨⟨listening, _, _, server, writes ▸ frame⟩, parsed, rfl⟩
  have unnumbered : ∀ id, ¬ Numbers lettered id := nofun
  have notified : Message.parse? letter = _ :=
    (congrArg (·.bind Message.ofJson?) parsed).trans (Message.unnumberedNotification offered.names unnumbered)
  have heard := unnumberedHeard offered unnumbered
  have bare : lettered.lookup "params" = none := by decide
  rw [bare] at notified heard
  exact ⟨offered, running, clear, notified, heard⟩

end Client
end LspClient
