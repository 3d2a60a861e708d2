import LspClient.Proofs.Client.Refused
import LspClient.Proofs.Client.Rejected
import LspClient.Proofs.Client.Shelf

/-! What a close leaves of the diagnostics of its document: nothing, until the server publishes for it or reports on
it in full. A pull that was made before the close counts as well. -/
namespace LspClient.Client

variable {config : Config} {nextId : Int} {c after : Client} {log : List Event} {uri : String}

def Restored (log : List Event) (uri : String) (es : List Event) (entry : Option (List Diagnostic)) : Prop :=
  ∃ first e last, es = first ++ e :: last ∧ Puts (log ++ first) uri e entry

def Since (log : List Event) (uri : String) (c : Client) : Prop :=
  ∃ es, c.log = log ++ es ∧ (c.store.get? uri = none ∨ Restored log uri es (c.store.get? uri))

theorem restoredMore {es : List Event} {entry : Option (List Diagnostic)} (restored : Restored log uri es entry)
    (fs : List Event) : Restored log uri (es ++ fs) entry := by
  obtain ⟨first, e, last, rfl, puts⟩ := restored
  exact ⟨first, e, last ++ fs, by simp, puts⟩

theorem sinceSame {es : List Event} (since : Since log uri c) (grown : after.log = c.log ++ es)
    (same : after.store.get? uri = c.store.get? uri) : Since log uri after := by
  obtain ⟨fs, whole, entry⟩ := since
  refine ⟨fs ++ es, by rw [grown, whole, List.append_assoc], ?_⟩
  rw [same]
  exact entry.imp_right fun restored => restoredMore restored es

theorem sinceStored {es : List Event} (since : Since log uri c) (grown : after.log = c.log ++ es)
    (stored : Stored c.log es uri (c.store.get? uri) (after.store.get? uri)) : Since log uri after := by
  rcases stored with ⟨_, same⟩ | ⟨first, e, last, rfl, puts, _⟩
  · exact sinceSame since grown same
  · obtain ⟨fs, whole, _⟩ := since
    refine ⟨fs ++ (first ++ e :: last), by rw [grown, whole, List.append_assoc], .inr ?_⟩
    exact ⟨fs ++ first, e, last, by simp, by rwa [← List.append_assoc, ← whole]⟩

theorem stoppedStore (turn : Turn c after) (stopping : c.phase = .stopping) (stopped : after.phase = .stopped) :
    after.store = [] ∨ after.store = c.store := by
  have going : c.phase ≠ .stopped := by simp [stopping]
  cases turn with
  | finished => exact .inl rfl
  | host held free done =>
    cases done with
    | closeUnsent | closeSent => exact absurd stopped going
    | _ => exact .inr rfl
  | taken listening server hearing =>
    cases hearing with
    | request => exact .inr (triedSame Client.store _ _ rfl rfl)
    | published | pullForestalled | pullAnswered => exact absurd stopped going
    | _ => exact .inr rfl
  | exitTold => exact .inr (triedSame Client.store _ c rfl rfl)
  | _ => exact .inr rfl

theorem turnSince (reached : Reached config nextId c) (since : Since log uri c) (turn : Turn c after) :
    Since log uri after := by
  obtain ⟨es, grown, ⟨stopping, stopped⟩ | stored⟩ := shelvesStored reached (reachedShelves reached turn)
  · rcases stoppedStore turn stopping stopped with empty | same
    · obtain ⟨fs, whole, _⟩ := since
      exact ⟨fs ++ es, by rw [grown, whole, List.append_assoc], .inl (by rw [empty]; rfl)⟩
    · exact sinceSame since grown (by rw [same])
  · exact sinceStored since grown (stored uri)

theorem playSince (reached : Reached config nextId c.quiet) (since : Since log uri c.quiet) (moves : List Move) :
    Since log uri (c.play moves).quiet := by
  induction moves generalizing c with
  | nil => exact since
  | cons move moves ih =>
    exact ih (performReached reached move) (turnSince reached since (reachedTurn reached move))

def Closes (c : Client) (uri : String) : Prop := (c.hostCall (.didClose uri)).2 = .flag true

theorem closedEmpty (closes : c.Closes uri) :
    (c.perform (.host (.didClose uri))).store.get? uri = none := by
  obtain ⟨held, free⟩ := answeredFree closes nofun
  obtain ⟨after, done, same⟩ := documentCalled (show Call.document? (.didClose uri) = some uri from rfl) held free
  change (c.hostCall (.didClose uri)).1.quiet.store.get? uri = none
  rw [same]
  change after.store.get? uri = none
  rw [show (c.hostCall (.didClose uri)).2 = _ from closes] at done
  cases done with
  | closeUnsent | closeSent => rw [Table.getErase, if_pos rfl]

theorem writtenOffers {body : String} {s : Server} (listening : c.listening = true) (alive : c.exited = false)
    (server : c.server = some {s with unread := []}) (writes : s.writes = true)
    (small : (Utf8.ofString body).length ≤ Frame.limit) :
    (c.perform (.server (.writes (Utf8.ofString (Frame.write body))))).Offers body ∧
      (c.perform (.server (.writes (Utf8.ofString (Frame.write body))))).router = c.router := by
  have frame : Frame.read s.writes (Utf8.ofString (Frame.write body) ++ []) = .body body [] := Frame.readWritten small
  rw [List.append_nil] at frame
  generalize Utf8.ofString (Frame.write body) = octets at frame
  have same : c.perform (.server (.writes octets)) = {c with server := some {s with unread := octets}} := by
    simp [perform, serverAct, alive, updateServer, server, writes]
  rw [same]
  exact ⟨⟨listening, _, _, rfl, frame⟩, rfl⟩

structure Reports (body : String) (id : Int) (items : List Diagnostic) : Prop where
  response : ∃ result, Message.parse? body = some (.response id result none) ∧
    Diagnostic.report? (result.getD .null) = some items

theorem reportStored {body : String} {id : Int} {name : String} {items : List Diagnostic}
    (reached : Reached config nextId c.quiet) (offers : c.Offers body) (asking : Asking c.deeds id name uri)
    (reports : Reports body id items) : (c.perform .take).diagnostics uri = items := by
  obtain ⟨result, parsed, report⟩ := reports.response
  obtain ⟨s, rest, took, same⟩ := offeredTaken offers parsed
  have taken := hearTaken (.response id result none) (c.updateServer fun s => {s with unread := rest})
  rw [same, ← took] at taken
  have owner : c.quiet.router.owner? id = some (.pull name uri) := askingOwner reached asking
  have waitless : Waitless c.quiet := reachedWaitless reached
  have stored := (takenOwn (c := c.quiet.readOn s rest) waitless owner taken).1
  have kept : (c.perform .take).store = keep uri (.ok (result.getD .null)) c.store := stored
  simp [diagnostics, kept, keep, Except.toOption, report, Table.getPut]

/-- After a close. Here the log is that of the client with the close as its last event. -/
structure Cleared (closed : Client) (uri : String) : Prop where
  empty : closed.diagnostics uri = []
  -- whatever is shown later was published or reported since, and for nothing else is it shown again
  since : ∀ moves, (closed.play moves).diagnostics uri = [] ∨
    ∃ es, (closed.play moves).deeds = closed.deeds ++ es ∧
      Restored closed.deeds uri es (some ((closed.play moves).diagnostics uri))
  late : ∀ moves id name body items, Asking closed.deeds id name uri →
    Asking (closed.play moves).deeds id name uri → (closed.play moves).Offers body → Reports body id items →
      ((closed.play moves).perform .take).diagnostics uri = items

theorem cleared (config : Config) (nextId : Int) (moves : List Move) (uri : String)
    (closes : ((new config nextId).play moves).Closes uri) :
    Cleared (((new config nextId).play moves).perform (.host (.didClose uri))) uri := by
  have reached := playReached config nextId moves
  generalize (new config nextId).play moves = c at *
  have empty := closedEmpty closes
  have reached := performReached reached (.host (.didClose uri))
  generalize c.perform (.host (.didClose uri)) = closed at *
  exact {
    empty := by simp [diagnostics, empty]
    since := fun moves => by
      have start : Since closed.deeds uri closed.quiet := ⟨[], (List.append_nil _).symm, .inl empty⟩
      obtain ⟨es, grown, none | restored⟩ := playSince reached start moves
      · exact .inl (congrArg (Option.getD · []) none)
      · cases shown : (closed.play moves).store.get? uri with
        | none => exact .inl (congrArg (Option.getD · []) shown)
        | some items =>
          rw [show (closed.play moves).diagnostics uri = items from congrArg (Option.getD · []) shown]
          exact .inr ⟨es, grown, shown ▸ restored⟩
    late := fun moves id name body items _ asking offers reports =>
      reportStored (playOn reached moves) offers asking reports }

def reportText : String :=
  "\x7b\"id\":2,\"result\":\x7b\"items\":[\x7b\"message\":\"m\"," ++
    "\"range\":\x7b\"start\":\x7b\"line\":0,\"character\":0\x7d,\"end\":\x7b\"line\":0,\"character\":1\x7d\x7d\x7d]\x7d\x7d"

def reportJson : Json :=
  .object [("items", .array [.object [("message", .string "m"), ("range", .object [
    ("end", .object [("character", .integer 1), ("line", .integer 0)]),
    ("start", .object [("character", .integer 0), ("line", .integer 0)])])]])]

def reported : Diagnostic := ⟨⟨⟨0, 0⟩, ⟨0, 1⟩⟩, none, none, none, "m"⟩

def pulling : List Move := [.host (.start none), .spawn, .introduce,
  .server (.writes (Message.response 1 (some .null) none).octets), .take,
  .host (.didOpen sampleDocument), .host (.pull "p" "file:///a.lus"), .ask]

def asked : Client := (new sampleConfig 1).play pulling

theorem askedCleared : asked.Closes "file:///a.lus" ∧
    Cleared (asked.perform (.host (.didClose "file:///a.lus"))) "file:///a.lus" := by
  have closes : asked.Closes "file:///a.lus" := by
    rw [Closes]
    decide +kernel
  exact ⟨closes, cleared sampleConfig 1 pulling "file:///a.lus" closes⟩

def closing : Client := (asked.hostCall (.didClose "file:///a.lus")).1

/-- The client runs and the close succeeds. The host does nothing more, yet what it closed is shown again. -/
theorem lateShown : asked.phase = .running ∧ (asked.hostCall (.didClose "file:///a.lus")).2 = .flag true ∧
    closing.diagnostics "file:///a.lus" = [] ∧
    (closing.play [.server (.writes (Utf8.ofString (Frame.write reportText))), .take]).diagnostics
      "file:///a.lus" = [reported] := by
  have run : asked.phase = .running ∧ (asked.hostCall (.didClose "file:///a.lus")).2 = .flag true ∧
      closing.diagnostics "file:///a.lus" = [] ∧ closing.listening = true ∧ closing.exited = false ∧
      closing.router.owner? 2 = some (.pull "p" "file:///a.lus") ∧
      closing.server = some .fresh := by decide +kernel
  obtain ⟨running, answered, empty, listening, alive, owner, server⟩ := run
  have reached : Reached sampleConfig 1 closing.quiet :=
    performReached (playReached sampleConfig 1 pulling) (.host (.didClose "file:///a.lus"))
  have small : (Utf8.ofString reportText).length ≤ Frame.limit := by decide +kernel
  obtain ⟨offers, router⟩ := writtenOffers (s := .fresh) listening alive server rfl small
  have reached := performReached reached (.server (.writes (Utf8.ofString (Frame.write reportText))))
  have asking := (reachedAwaits reached 2 (.pull "p" "file:///a.lus")).mp
    ((congrArg (Router.owner? · 2) router).trans owner)
  have parsed : Message.parse? reportText = some (.response 2 (some reportJson) none) := by decide +kernel
  have reports : Reports reportText 2 [reported] := ⟨_, parsed, by decide⟩
  have shown := reportStored reached offers asking reports
  refine ⟨running, answered, empty, ?_⟩
  rw [play, List.foldl_cons, List.foldl_cons, List.foldl_nil]
  exact shown

end LspClient.Client
