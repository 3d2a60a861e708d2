import LspClient.Proofs.Client.Aftermath
import LspClient.Proofs.Client.Correlation
import LspClient.Proofs.Client.Handshake
import LspClient.Proofs.Json.Scalars
import LspClient.Proofs.Message

/-! Responses with an error. An error that can be read fails the request, whatever result stands beside it. Any
other is dropped with the rest of what is not understood, and the response counts as a success. -/
namespace LspClient

inductive ResponseError.Readable : Json → ResponseError → Prop where
  | object {fields code text} (ranged : Message.IsCode code)
      (coded : fields.lookup "code" = some (.integer code))
      (told : fields.lookup "message" = some (.string text)) :
      Readable (.object fields) ⟨code, text, (fields.lookup "data").bind data?⟩
  | array {code text data} (ranged : Message.IsCode code) :
      Readable (.array [.integer code, .string text, data]) ⟨code, text, data? data⟩

theorem Json.codeInteger {code : Int} (ranged : Message.IsCode code) : Json.int32? (.integer code) = some code :=
  if_pos ranged

theorem Json.codeRead {value : Json} {code : Int} (read : value.int32? = some code) :
    value = .integer code ∧ Message.IsCode code := by
  cases value with
  | integer n =>
    by_cases ranged : Message.IsCode n
    · cases (codeInteger ranged).symm.trans read
      exact ⟨rfl, ranged⟩
    · have none : Json.int32? (.integer n) = none := if_neg ranged
      cases none.symm.trans read
  | null | bool | real | string | array | object => cases read

namespace ResponseError

variable {error : Json} {e : ResponseError}

theorem readableRead (readable : Readable error e) : ofJson? error = some e := by
  cases readable with
  | object ranged coded told => simp [ofJson?, coded, told, Json.codeInteger ranged, Json.string?]
  | array ranged => simp [ofJson?, Json.codeInteger ranged, Json.string?]

theorem readReadable (read : ofJson? error = some e) : Readable error e := by
  unfold ofJson? at read
  split at read
  · rename_i fields
    simp only [Option.bind_eq_bind, Option.bind_eq_some_iff, Option.some.injEq] at read
    obtain ⟨_, coded, code, asCode, _, told, text, asText, rfl⟩ := read
    obtain ⟨rfl, ranged⟩ := Json.codeRead asCode
    cases Json.textRead asText
    exact .object ranged coded told
  · simp only [Option.bind_eq_bind, Option.bind_eq_some_iff, Option.some.injEq] at read
    obtain ⟨code, asCode, text, asText, rfl⟩ := read
    obtain ⟨rfl, ranged⟩ := Json.codeRead asCode
    cases Json.textRead asText
    exact .array ranged
  · cases read

theorem unreadableDropped (unreadable : ∀ e, ¬ Readable error e) : ofJson? error = none :=
  Option.eq_none_iff_forall_ne_some.mpr fun e read => unreadable e (readReadable read)

end ResponseError

structure Message.Erring (body : String) (id : Int) (result : Option Json) (error : Json) : Prop where
  object : ∃ fields, Json.parse? body = some (.object fields) ∧ fields.lookup "method" = none ∧
    (fields.lookup "id").bind Json.int64? = some id ∧ fields.lookup "result" = result ∧
      fields.lookup "error" = some error
  present : error ≠ .null

theorem Message.erringParsed {body : String} {id : Int} {result : Option Json} {error : Json}
    (erring : Erring body id result error) :
    parse? body = some (.response id result (ResponseError.ofJson? error)) := by
  obtain ⟨fields, parsed, bare, own, beside, held⟩ := erring.object
  simp [parse?, parsed, ofJson?, Json.fields?, bare, own, beside, held]

namespace Client
open Message (Erring)
open ResponseError (Readable)

variable {config : Config} {nextId : Int} {c after : Client} {id : Int} {body : String}

def Offers (c : Client) (body : String) : Prop :=
  c.listening = true ∧ ∃ s rest, c.server = some s ∧ Frame.read s.writes s.unread = .body body rest

theorem offeredTaken {m : Message} (offers : c.Offers body) (parsed : Message.parse? body = some m) :
    ∃ s : Server, ∃ rest, (c.perform .take) = (c.updateServer fun s => {s with unread := rest}).hear m ∧
      (c.updateServer fun s => {s with unread := rest}).quiet = c.quiet.readOn s rest := by
  obtain ⟨listening, s, rest, server, frame⟩ := offers
  refine ⟨s, rest, ?_, readOnQuiet server rest⟩
  simp [perform, take?, listening, server, frame, receive, parsed]

theorem turnPumping (turn : Turn c after) (pumping : after.link = .pumping) : c.link = .pumping ∨
    ∃ id result error, c.link = .handshake id ∧ .heard (.response id result error) ∈ after.log := by
  cases turn with
  | host held free done =>
    cases done with
    | start => cases pumping
    | _ => exact .inl pumping
  | taken listening server hearing =>
    cases hearing with
    | request =>
      simp only [triedLink] at pumping
      exact .inl pumping
    | ready awaited => exact .inr ⟨_, _, none, awaited, by simp [note]; exact .inr rfl⟩
    | rejected | tooLate | readyLost => cases pumping
    | _ => exact .inl pumping
  | spawned | introduced | spawnRefused | orphaned | introduceLost | gaveUp | lost | parted => cases pumping
  | exitTold =>
    simp only [triedLink] at pumping
    exact .inl pumping
  | _ => exact .inl pumping

theorem reachedResponded (reached : Reached config nextId c) (pumping : c.link = .pumping) :
    Responded config c.log := by
  induction reached with
  | new => cases pumping
  | @turn c after before turn ih =>
    obtain ⟨es, log⟩ := askedLog (reachedAsked before turn)
    rcases turnPumping turn pumping with pumped | ⟨id, result, error, awaited, heard⟩
    · exact log ▸ respondedLater (ih pumped) es
    · exact ⟨id, result, error, log ▸ List.mem_append_left es (reachedIntroduced before awaited).1, heard⟩

theorem unheardHandshake (reached : Reached config nextId c) (listening : c.listening = true)
    (wrote : .wrote (introduction config id) ∈ c.log) (unheard : Unheard id c.log) : c.link = .handshake id := by
  cases link : c.link with
  | handshake id' => rw [reachedSole reached wrote (reachedIntroduced reached link).1]
  | pumping =>
    obtain ⟨id', result, error, wrote', heard⟩ := reachedResponded reached link
    rw [← reachedSole reached wrote wrote'] at heard
    exact absurd heard (unheard result error)
  | _ => simp [Client.listening, link] at listening

inductive Given (id : Int) (name uri : String) (m : Message) (outcome : Outcome) (c after : Client) : Prop where
  | atOnce (log : after.deeds = c.deeds ++ [.heard m, .resolved (.pull name) outcome])
  | onReturn (log : after.deeds = c.deeds ++ [.heard m]) (early : after.asking = some ⟨id, name, uri, some outcome⟩)

def Introducing (config : Config) (id : Int) (log : List Event) : Prop :=
  .wrote (introduction config id) ∈ log ∧ Unheard id log

structure Refused (config : Config) (c : Client) : Prop where
  started : ∀ body id result error e, c.Offers body → Erring body id result error → Readable error e →
    Introducing config id c.deeds → Condemned (.handshake e.code e.message) (c.perform .take)
  pulled : ∀ body id result error e name uri, c.Offers body → Erring body id result error → Readable error e →
    Asking c.deeds id name uri → (c.perform .take).store = c.store ∧
      Given id name uri (.response id result (some e)) (.failed (.protocol e.code e.message)) c (c.perform .take)
  -- a call that returns after the error returns with it, or with the failure of its own write
  returned : ∀ id name uri failure, c.asking = some ⟨id, name, uri, some (.failed failure)⟩ →
    ∃ own, .resolved (.pull name) (.failed own) ∈ (c.perform .ask).deeds ∧ (c.perform .ask).store = c.store
  answered : ∀ {κ : Type} (r : Router κ) body id result error e owner, Erring body id result error →
    Readable error e → r.owner? id = some owner → ∃ m, Message.parse? body = some m ∧
      r.handle m = ((r.release id).1, [.answer id owner (.error e)])
  startedAnyway : ∀ body id result error, c.Offers body → Erring body id result error →
    (∀ e, ¬ Readable error e) → Awaiting config id c.deeds → Lossless (c.perform .take).deeds →
      Ruled result none (c.perform .take)
  -- an error that cannot be read gives a pull what is stored, after a report that may stand beside it
  pulledAnyway : ∀ body id result error name uri, c.Offers body → Erring body id result error →
    (∀ e, ¬ Readable error e) → Asking c.deeds id name uri →
      (c.perform .take).store = keep uri (.ok (result.getD .null)) c.store ∧
        Given id name uri (.response id result none) (.items ((c.perform .take).diagnostics uri)) c (c.perform .take)
  answeredAnyway : ∀ {κ : Type} (r : Router κ) body id result error owner, Erring body id result error →
    (∀ e, ¬ Readable error e) → r.owner? id = some owner → ∃ m, Message.parse? body = some m ∧
      r.handle m = ((r.release id).1, [.answer id owner (.ok (result.getD .null))])

section
variable {result : Option Json} {error : Json}

theorem erringTaken (offers : c.Offers body) (erring : Erring body id result error) :
    ∃ s rest, Taken ((c.quiet.readOn s rest).note (.heard (.response id result (ResponseError.ofJson? error))))
      (.response id result (ResponseError.ofJson? error)) (c.perform .take).quiet := by
  obtain ⟨s, rest, took, same⟩ := offeredTaken offers (Message.erringParsed erring)
  refine ⟨s, rest, ?_⟩
  rw [took, ← same]
  exact hearTaken _ _

theorem erringPulled {name uri : String} (reached : Reached config nextId c.quiet) (offers : c.Offers body)
    (erring : Erring body id result error) (asking : Asking c.deeds id name uri) :
    (c.perform .take).store = keep uri (Router.outcome result (ResponseError.ofJson? error)) c.store ∧
      Given id name uri (.response id result (ResponseError.ofJson? error))
        (pullOutcome (Router.outcome result (ResponseError.ofJson? error)) ((c.perform .take).diagnostics uri))
        c (c.perform .take) := by
  obtain ⟨s, rest, taken⟩ := erringTaken offers erring
  have waitless : Waitless c.quiet := reachedWaitless reached
  have owner : c.quiet.router.owner? id = some (.pull name uri) := askingOwner reached asking
  obtain ⟨stored, ⟨_, log⟩ | ⟨asks, log, early⟩⟩ := takenOwn (c := c.quiet.readOn s rest) waitless owner taken
  · exact ⟨stored, .atOnce log⟩
  · exact ⟨stored, .onReturn log (early.trans (earlyAsking (reachedSending reached) owner asks))⟩

theorem earlyReturned {id : Int} {name uri : String} {failure : Failure}
    (asking : c.asking = some ⟨id, name, uri, some (.failed failure)⟩) :
    ∃ own, .resolved (.pull name) (.failed own) ∈ (c.perform .ask).deeds ∧ (c.perform .ask).store = c.store := by
  cases pipe : c.refusal with
  | none =>
    have quiet := askSent asking pipe
    have log : (c.perform .ask).deeds = _ := congrArg Client.log quiet
    have store : (c.perform .ask).quiet.store = _ := congrArg Client.store quiet
    exact ⟨failure, by simp [log, Pull.news], store⟩
  | some refused =>
    have quiet := askLost asking pipe
    have log : (c.perform .ask).deeds = _ := congrArg Client.log quiet
    have store : (c.perform .ask).quiet.store = _ := congrArg Client.store quiet
    exact ⟨refused, by simp [log], store⟩

end

theorem refused (config : Config) (nextId : Int) (moves : List Move) :
    Refused config ((new config nextId).play moves) := by
  have reached := playReached config nextId moves
  generalize (new config nextId).play moves = c at reached
  have linked {id : Int} {body : String} (offers : c.Offers body) (introducing : Introducing config id c.deeds) :
      c.link = .handshake id :=
    unheardHandshake (c := c.quiet) reached offers.1 introducing.1 introducing.2
  exact {
    started := fun body id result error e offers erring readable introducing => by
      obtain ⟨s, rest, taken⟩ := erringTaken offers erring
      rw [ResponseError.readableRead readable] at taken
      have awaited := linked offers introducing
      have link : (c.perform .take).quiet.link = .failing (.handshake e.code e.message) :=
        takenFails (c := (c.quiet.readOn s rest).note (.heard (.response id result (some e)))) awaited taken
      exact failingCondemned (performReached reached .take) link
    pulled := fun body id result error e name uri offers erring readable asking => by
      obtain ⟨stored, given⟩ := erringPulled reached offers erring asking
      rw [ResponseError.readableRead readable] at stored given
      exact ⟨stored, given⟩
    returned := fun id name uri failure asking => earlyReturned asking
    answered := fun r body id result error e owner erring readable known => by
      refine ⟨_, Message.erringParsed erring, ?_⟩
      rw [ResponseError.readableRead readable]
      exact Router.handleKnown known result (some e)
    startedAnyway := fun body id result error offers erring unreadable awaiting lossless => by
      obtain ⟨s, rest, taken⟩ := erringTaken offers erring
      rw [ResponseError.unreadableDropped unreadable] at taken
      obtain ⟨starting, awaited⟩ := awaitingLink reached awaiting
      exact takenRules (performReached reached .take) awaited starting lossless taken
    pulledAnyway := fun body id result error name uri offers erring unreadable asking => by
      obtain ⟨stored, given⟩ := erringPulled reached offers erring asking
      rw [ResponseError.unreadableDropped unreadable] at stored given
      exact ⟨stored, given⟩
    answeredAnyway := fun r body id result error owner erring unreadable known => by
      refine ⟨_, Message.erringParsed erring, ?_⟩
      rw [ResponseError.unreadableDropped unreadable]
      exact Router.handleKnown known result none }

def complaint : Json := .object [("code", .integer 2147483648), ("message", .string "no")]

def complaintFields : List (String × Json) :=
  [("error", complaint), ("id", .integer 1), ("jsonrpc", .string "2.0")]

def complaining : String := (Json.object complaintFields).compact

def complained : Client := (new sampleConfig 1).play [.host (.start none), .spawn, .introduce,
  .server (.writes (Utf8.ofString (Frame.write complaining)))]

/-- The server answers the first request with an error, yet the client runs. -/
theorem complaintUnseen : complained.Offers complaining ∧ Erring complaining 1 none complaint ∧
    Introducing sampleConfig 1 complained.deeds ∧ (complained.perform .take).phase = .running ∧
    .resolved .start .done ∈ (complained.perform .take).deeds := by
  have parsed : Json.parse? complaining = some (.object complaintFields) := by decide +kernel
  have run : complained.listening = true ∧ complained.quiet.link = .handshake 1 ∧
      complained.server = some (complained.server.getD default) ∧
      Frame.read true (complained.server.getD default).unread = .body complaining [] ∧
      (complained.server.getD default).writes = true ∧ (complained.perform .take).phase = .running ∧
      .resolved .start .done ∈ (complained.perform .take).deeds := by decide +kernel
  obtain ⟨listening, awaited, server, frame, writes, ends⟩ := run
  exact ⟨⟨listening, _, _, server, writes ▸ frame⟩, ⟨⟨_, parsed, rfl, rfl, rfl, rfl⟩, nofun⟩,
    reachedIntroduced (playReached sampleConfig 1 _) awaited, ends⟩

end Client
end LspClient
