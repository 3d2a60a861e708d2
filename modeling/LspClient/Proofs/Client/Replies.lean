import Mathlib.Data.List.Forall2
import LspClient.Proofs.Client.Conversation
import LspClient.Proofs.Client.Intake

/-! Requests of the server. As long as its input is open, each gets one reply, in the order in which they came,
and nothing else gets one. -/
namespace LspClient

def Message.isRequest : Message → Bool
  | .request .. => true
  | _ => false

def askedItems : Option Json → Nat
  | some (.object fields) =>
    match fields.lookup "items" with
    | some (.array items) => items.length
    | _ => 0
  | _ => 0

inductive Reply : Message → Message → Prop where
  | configuration {id params} : Reply (.request id "workspace/configuration" params)
      (.response id (some (.array (List.replicate (askedItems params) .null))) none)
  | acknowledged {id method params} (known : method = "client/registerCapability" ∨
      method = "client/unregisterCapability" ∨ method = "window/workDoneProgress/create") :
      Reply (.request id method params) (.response id (some .null) none)
  | unknown {id method params} (other : method ∉ ["workspace/configuration", "client/registerCapability",
      "client/unregisterCapability", "window/workDoneProgress/create"]) :
      Reply (.request id method params)
        (.response id none (some ⟨-32601, "Method not found: " ++ method, none⟩))

theorem askedReply (params : Option Json) :
    (((params.bind (Json.field? "items")).bind Json.items?).getD []).map (fun _ => Json.null) =
      List.replicate (askedItems params) .null := by
  rw [List.map_const']
  congr 1
  unfold askedItems
  split
  · rename_i fields
    simp only [Option.bind_some, Json.field?]
    split
    · rename_i items found
      simp [found, Json.items?]
    · rename_i other
      cases found : fields.lookup "items" with
      | none => rfl
      | some value => cases value <;> simp_all [Json.items?]
  · rename_i other
    cases params with
    | none => rfl
    | some value => cases value <;> simp_all [Json.field?]

theorem replyReply (id : Int) (method : String) (params : Option Json) :
    Reply (.request id method params) (Router.replyTo id method params) := by
  unfold Router.replyTo
  split
  · rename_i settings
    simp only [settings, askedReply]
    exact .configuration
  · rename_i other
    split
    · rename_i known
      exact .acknowledged (by simpa [Router.acknowledged] using known)
    · rename_i unknown
      exact .unknown fun member => (List.mem_cons.mp member).elim other unknown

def Event.isExchange : Event → Bool
  | .heard m => m.isRequest
  | .wrote m => m.isReply
  | _ => false

namespace Client

variable {config : Config} {nextId : Int} {c after : Client}

def requests (log : List Event) : List Message := (hearings log).filter Message.isRequest

def replies (log : List Event) : List Message := (written log).filter Message.isReply

def Apart (es : List Event) : Prop := ∀ e ∈ es, e.isExchange = false

theorem apartNone : Apart [] := List.forall_mem_nil _

theorem apartOne {e : Event} (apart : e.isExchange = false) : Apart [e] := by simpa [Apart] using apart

theorem apartAppend {first last : List Event} (before : Apart first) (after : Apart last) :
    Apart (first ++ last) := List.forall_mem_append.mpr ⟨before, after⟩

theorem apartRequests {es : List Event} (apart : Apart es) : requests es = [] := by
  rw [requests, List.filter_eq_nil_iff]
  intro m member
  obtain ⟨e, own, same⟩ := List.mem_filterMap.mp member
  have apart := apart e own
  cases e <;> simp_all [Event.isExchange]

theorem apartReplies {es : List Event} (apart : Apart es) : replies es = [] := by
  rw [replies, List.filter_eq_nil_iff]
  intro m member
  have apart := apart _ (memWritten.mpr member)
  simpa [Event.isExchange] using apart

inductive Exchange (c after : Client) : Prop where
  | apart {es} (log : after.log = c.log ++ es) (apart : Apart es)
  | replied {id method params} (log : after.log = c.log ++
      [.heard (.request id method params), .wrote (Router.replyTo id method params)])
  | shut (shut : after.refusal ≠ none) (opened : ¬ after.Unopened) (present : after.server ≠ none)

theorem apartForsaken (c : Client) : Apart c.forsaken := everyForsaken (fun _ => rfl) c

theorem apartDeathNote (c : Client) : Apart c.deathNote := everyDeathNote rfl c

theorem apartOpens (documents : List TextDocument) :
    Apart ((Request.initialized :: documents.map Request.didOpen).map .wrote) := by
  intro e member
  obtain ⟨m, own, rfl⟩ := List.mem_map.mp member
  exact (freeOpening documents m own).1

theorem apartNews (a : Pull) : Apart a.news := everyNews (fun _ _ => rfl) a

theorem calledExchange {call answer} (done : Called c call answer after) :
    Exchange c (after.note (.called call answer)) := by
  cases done with
  | drop => exact .apart (List.append_assoc _ _ _) (apartAppend (apartDeathNote c) (apartOne rfl))
  | stopUnstarted | stopOver | openSent | openLost | changeSent | changeLost | closeSent | closeLost
    | pullIdle => exact .apart (List.append_assoc _ [_] [_]) (apartAppend (apartOne rfl) (apartOne rfl))
  | start | startAgain | stop | openForeign | openOver | openAgain | openQueued | changeUnknown | changeOver
    | changeQueued | closeUnknown | closeUnsent => exact .apart rfl (apartOne rfl)

theorem takenExchange {m} {s : Server} {rest} (listening : c.listening = true)
    (taken : Taken ((c.readOn s rest).note (.heard m)) m after) : Exchange c after := by
  cases taken with
  | @request asked method params =>
    rcases triedCases (Router.replyTo asked method params)
      ((c.readOn s rest).note (.heard (.request asked method params))) with
        ⟨_, same⟩ | ⟨shut, same⟩ <;> rw [same]
    · exact .replied (List.append_assoc _ [_] [_])
    · exact .shut shut (listeningOpened listening) (by simp [note, readOn])
  | published | other | unasked | pullForestalled | shutdownAnswered | rejected | tooLate =>
    exact .apart rfl (apartOne rfl)
  | pullAnswered => exact .apart (List.append_assoc _ [_] [_]) (apartAppend (apartOne rfl) (apartOne rfl))
  | @readyLost id result failure first m rest' awaited starting clear split =>
    have all : Apart ((first ++ m :: rest').map .wrote) := split ▸ apartOpens c.queued
    rw [List.map_append] at all
    have before := (List.forall_mem_append.mp all).1
    exact .apart (openedLog s rest _ c _ _)
      (apartAppend (apartAppend (apartOne rfl) before) (apartOne rfl))
  | ready =>
    exact .apart (openedLog s rest _ c _ _)
      (apartAppend (apartAppend (apartOne rfl) (apartOpens _)) (apartOne rfl))

theorem turnExchange (turn : Turn c after) : Exchange c after := by
  cases turn with
  | host held free done => exact calledExchange done
  | taken listening server hearing => exact takenExchange listening hearing
  | idle | spawnRefused | skipped | exitUntold | served | elsewhere =>
    exact .apart (List.append_nil _).symm apartNone
  | pullOpened | pullShut | spawned | introduced | introduceLost | lost | stopVoid | shutdownOpened | shutdownShut
    | shutdownSent | shutdownLost | finished => exact .apart rfl (apartOne rfl)
  | @pullSent a asking =>
    exact .apart rfl (apartAppend (apartOne rfl) (apartAppend (apartNews a) (apartOne rfl)))
  | pullLost => exact .apart rfl (apartAppend (apartOne rfl) (apartAppend (apartOne rfl) (apartOne rfl)))
  | orphaned => exact .apart rfl (apartDeathNote _)
  | gaveUp =>
    exact .apart (failureLog _ c) (apartAppend (apartForsaken c) (apartAppend (apartDeathNote c) (apartOne rfl)))
  | parted =>
    exact .apart (List.append_assoc _ [_] _) (apartAppend (apartOne rfl) (apartForsaken c))
  | exitTold =>
    rcases triedCases Request.exit c with ⟨_, same⟩ | ⟨_, same⟩ <;> rw [same] <;>
      exact .apart rfl (apartOne rfl)

def Clear (c : Client) : Prop := c.refusal = none ∨ c.Unopened ∨ c.server = none

theorem saidUnopened (said : Said c after) (unopened : after.Unopened) : c.Unopened := by
  cases said with
  | nothing log mute clear before => exact before unopened
  | edited edit log pipe link =>
    rw [Unopened, link] at unopened
    exact unopened
  | stuck log mute shut opened | told running pipe tell log opened | replied pipe log opened
    | introduced before starting log opened | ready starting awaited pipe log opened
    | readyLost starting awaited clear split log shut opened | shutdown registered stopping pipe log opened
    | exit waiting answered pipe log opened =>
    exact absurd unopened opened

theorem turnClear (reached : Reached config nextId c) (turn : Turn c after) (clear : Clear after) : Clear c := by
  have said := reachedSaid reached turn
  rcases clear with pipe | unopened | none
  · exact (saidPipe said pipe).imp_right .inl
  · exact .inr (.inl (saidUnopened said unopened))
  · rcases turnLessened turn with less | ⟨waiting, _⟩
    · exact .inr (.inr ((lessenedNone less).mp none))
    · exact .inr (.inl (.inr (.inl ⟨_, waiting⟩)))

def Paired (log : List Event) : Prop := List.Forall₂ Reply (requests log) (replies log)

theorem requestsAppend (log es : List Event) : requests (log ++ es) = requests log ++ requests es := by
  rw [requests, hearingsAppend, List.filter_append]
  rfl

theorem repliesAppend (log es : List Event) : replies (log ++ es) = replies log ++ replies es := by
  rw [replies, writtenAppend, List.filter_append]
  rfl

theorem pairedReplied {log : List Event} (paired : Paired log) (id : Int) (method : String)
    (params : Option Json) :
    Paired (log ++ [.heard (.request id method params), .wrote (Router.replyTo id method params)]) := by
  have request : requests [.heard (.request id method params), .wrote (Router.replyTo id method params)] =
      [.request id method params] := rfl
  have reply : replies [.heard (.request id method params), .wrote (Router.replyTo id method params)] =
      [Router.replyTo id method params] := by
    simp [replies, written, replyIsReply]
  rw [Paired, requestsAppend, repliesAppend, request, reply]
  exact List.rel_append paired (.cons (replyReply id method params) .nil)

theorem exchangePaired (exchange : Exchange c after) (clear : Clear after) (paired : Paired c.log) :
    Paired after.log := by
  cases exchange with
  | apart log apart =>
    rw [Paired, log, requestsAppend, repliesAppend, apartRequests apart, apartReplies apart, List.append_nil,
      List.append_nil]
    exact paired
  | @replied id method params log => exact log ▸ pairedReplied paired id method params
  | shut shut opened present => exact (clear.elim shut (·.elim opened present)).elim

theorem reachedPaired (reached : Reached config nextId c) (clear : Clear c) : Paired c.log := by
  induction reached with
  | new => exact .nil
  | turn before turn ih =>
    exact exchangePaired (turnExchange turn) clear (ih (turnClear before turn clear))

def Dropped (log : List Event) : Prop := ∃ answer, .called .drop answer ∈ log

/-- Why a client that is past its life need not reply: it never had a server, its start failed, it was dropped,
it has told its server to exit, or the server reads nothing more. -/
def Parted (c : Client) : Prop :=
  c.link = .idle ∨ StartFailed c.log ∨ Dropped c.log ∨ .wrote Request.exit ∈ c.log ∨
    ∃ s, c.server = some s ∧ s.reads = false

def Past (c : Client) : Prop := c.phase = .stopped ∨ c.teardown = .awaitingExit

theorem turnIdle (turn : Turn c after) (used : c.phase ≠ .created) (idle : c.link = .idle) :
    after.link = .idle := by
  have deaf : c.listening ≠ true := by simp [listening, idle]
  cases turn with
  | host held free done =>
    cases done with
    | start fresh => exact absurd fresh used
    | _ => exact idle
  | skipped listening | taken listening => exact absurd listening deaf
  | spawnRefused waiting | spawned waiting | orphaned waiting | introduced waiting | introduceLost waiting
    | lost waiting | parted waiting | gaveUp waiting => cases idle.symm.trans waiting
  | exitTold => exact (triedLink _ _).trans idle
  | _ => exact idle

theorem partedLater (reached : Reached config nextId c) (turn : Turn c after) (used : c.phase ≠ .created)
    (parted : Parted c) : Parted after := by
  obtain ⟨es, log⟩ := askedLog (reachedAsked reached turn)
  rcases parted with idle | ⟨failure, member⟩ | ⟨answer, member⟩ | member | ⟨s, server, deaf⟩
  · exact .inl (turnIdle turn used idle)
  · exact .inr (.inl ⟨failure, by simp [log, member]⟩)
  · exact .inr (.inr (.inl ⟨answer, by simp [log, member]⟩))
  · exact .inr (.inr (.inr (.inl (by simp [log, member]))))
  · rcases turnLessened turn with ⟨f, same, less⟩ | ⟨waiting, _⟩
    · refine .inr (.inr (.inr (.inr ⟨f s, by simp [same, server], Bool.eq_false_iff.mpr fun reads => ?_⟩)))
      exact nomatch deaf.symm.trans ((less s server).1 reads)
    · exact nomatch server.symm.trans ((reachedHoused reached).bare (.inr ⟨_, waiting⟩))

theorem turnParted (reached : Reached config nextId c) (turn : Turn c after) (early : ¬ c.Past)
    (past : after.Past) : Parted after := by
  have coherent := reachedCoherent reached
  cases turn with
  | host held free done =>
    cases done with
    | stopUnstarted fresh => exact .inl (coherent.created fresh).1
    | drop => exact .inr (.inr (.inl ⟨.nothing, by simp [note]⟩))
    | start =>
      rcases past with past | past
      · cases past
      · exact absurd (.inr past) early
    | stop =>
      rcases past with past | past
      · exact absurd (.inl past) early
      · cases past
    | _ => exact absurd past early
  | @taken s rest m after listening server hearing =>
    cases hearing with
    | request =>
      rw [Past, triedPhase, triedTeardown] at past
      exact absurd past early
    | ready =>
      rcases past with past | past
      · cases past
      · exact absurd (.inr past) early
    | _ => exact absurd past early
  | gaveUp => exact .inr (.inl (failedStart _ _))
  | stopVoid =>
    rcases past with past | past
    · exact absurd (.inl past) early
    · cases past
  | shutdownOpened | shutdownShut => rcases past with past | past <;> cases past
  | shutdownSent | shutdownLost =>
    rcases past with past | past
    · exact absurd (.inl past) early
    · cases past
  | @exitTold id waiting answered attached =>
    rcases triedCases Request.exit c with ⟨_, same⟩ | ⟨shut, same⟩ <;> rw [same]
    · exact .inr (.inr (.inr (.inl (by simp [told]))))
    · have present := (reachedHoused reached).attached attached
      cases server : c.server with
      | none => exact absurd server present
      | some s =>
        -- attached and yet unable to write: only because the server reads nothing more
        refine .inr (.inr (.inr (.inr ⟨s, server, Bool.eq_false_iff.mpr fun reads => shut ?_⟩)))
        exact refusalClear.mpr ⟨attached, by rw [writable, server]; exact reads⟩
  | exitUntold waiting answered detached =>
    have stopping := teardownStopping coherent (.inr (.inl ⟨_, waiting⟩))
    rcases (coherent.stopping stopping).2 with ⟨_, attached⟩ | ⟨exiting, _⟩
    · cases detached.symm.trans attached
    · cases waiting.symm.trans exiting
  | finished waiting => exact absurd (.inr waiting) early
  | _ => exact absurd past early

theorem reachedParted (reached : Reached config nextId c) (past : c.Past) : Parted c := by
  induction reached with
  | new => rcases past with past | past <;> cases past
  | @turn c after before turn ih =>
    by_cases earlier : c.Past
    · have used : c.phase ≠ .created := by
        rcases earlier with stopped | exiting
        · simp [stopped]
        · simp [teardownStopping (reachedCoherent before) (.inr (.inr exiting))]
      exact partedLater before turn used (ih earlier)
    · exact turnParted before turn earlier past

structure Engaged (c : Client) : Prop where
  reads : ∀ s, c.server = some s → s.reads = true
  started : ¬ StartFailed c.deeds
  kept : ¬ Dropped c.deeds
  unexited : .wrote Request.exit ∉ c.deeds

theorem attachedRefusal (reached : Reached config nextId c.quiet) (engaged : Engaged c)
    (attached : c.attached = true) : c.refusal = none := by
  have present : c.server ≠ none := (reachedHoused reached).attached attached
  cases server : c.server with
  | none => exact absurd server present
  | some s => exact refusalClear.mpr ⟨attached, by rw [writable, server]; exact engaged.reads s server⟩

theorem engagedClear (reached : Reached config nextId c.quiet) (engaged : Engaged c) : Clear c.quiet := by
  have coherent := reachedCoherent reached
  by_cases past : c.quiet.Past
  · rcases reachedParted reached past with idle | failed | dropped | exited | ⟨s, server, deaf⟩
    · exact .inr (.inl (.inl idle))
    · exact absurd failed engaged.started
    · exact absurd dropped engaged.kept
    · exact absurd exited engaged.unexited
    · exact nomatch deaf.symm.trans (engaged.reads s server)
  · have open' (attached : c.attached = true) : Clear c.quiet :=
      .inl (attachedRefusal (c := c) reached engaged attached)
    cases phase : c.quiet.phase with
    | created => exact .inr (.inl (.inl (coherent.created phase).1))
    | starting =>
      rcases (coherent.starting phase).2 with ⟨launching | launched, _⟩ | ⟨_, introduced⟩ | failing
      · exact .inr (.inl (.inr (.inl launching)))
      · exact .inr (.inl (.inr (.inr launched)))
      · exact open' introduced
      · cases attached : c.attached with
        | true => exact open' attached
        | false => exact .inr (.inr ((reachedHoused reached).refused phase failing attached))
    | running => exact open' (coherent.running phase).2.2
    | stopping =>
      rcases (coherent.stopping phase).2 with ⟨_, still⟩ | ⟨exiting, _⟩
      · exact open' still
      · exact absurd (.inr exiting) past
    | stopped => exact absurd (.inl phase) past

structure Responsive (speech : Utf8.Octets) (c : Client) : Prop where
  answered : Engaged c → List.Forall₂ Reply (requests c.deeds) (replies c.deeds)
  prompted : ∀ before m rest, c.deeds = before ++ .wrote m :: rest → m.isReply = true →
    ∃ earlier q, before = earlier ++ [.heard q] ∧ Reply q m
  heard : hearings c.deeds <+: messages c.growing speech
  rested : c.Resting → ¬ StartFailed c.deeds → hearings c.deeds = messages c.growing speech

theorem responsive (config : Config) (nextId : Int) (moves : List Move) :
    Responsive ((new config nextId).speech moves) ((new config nextId).play moves) := by
  have reached := playReached config nextId moves
  have accounts := newAccounts config nextId moves
  generalize (new config nextId).play moves = c at reached accounts
  exact {
    answered := fun engaged => reachedPaired reached (engagedClear reached engaged)
    prompted := fun before m rest split reply => by
      have answering := (reachedAllowed reached before m rest split).1 reply
      obtain ⟨earlier, id, method, params, heard, same⟩ := answering
      exact ⟨earlier, _, heard, same ▸ replyReply id method params⟩
    heard := by
      rw [accountsMessages accounts]
      exact List.prefix_append _ _
    rested := restMessages reached accounts }

end Client
end LspClient
