import LspClient.Proofs.Client.Conversation

/-! Calls about documents that fail. Queue, store and wire are as before, but a call that came too late or whose
message was lost has already counted its change, or tracked or given up its document. -/
namespace LspClient.Client
open TextDocument

variable {config : Config} {nextId : Int} {c after : Client}

def Call.document? : Call → Option String
  | .didOpen d => some d.uri
  | .didChange uri _ | .didClose uri => some uri
  | _ => none

inductive Leaves (c : Client) : Call → Failure → Table Int32 → Prop where
  | openOver {d} (past : c.Over) : Leaves c (.didOpen d) (.invalidState c.phase) c.documents
  | openLost {d failure} (running : c.phase = .running) (unknown : c.documents.get? d.uri = none)
      (stuck : c.refusal = some failure) :
      Leaves c (.didOpen d) failure (c.documents.put d.uri d.version)
  | changeOver {uri text version} (past : c.Over) (known : c.documents.get? uri = some version) :
      Leaves c (.didChange uri text) (.invalidState c.phase) (c.documents.put uri (version + 1))
  | changeLost {uri text version failure} (running : c.phase = .running)
      (known : c.documents.get? uri = some version) (stuck : c.refusal = some failure) :
      Leaves c (.didChange uri text) failure (c.documents.put uri (version + 1))
  | closeLost {uri failure} (running : c.phase = .running) (known : c.documents.get? uri ≠ none)
      (stuck : c.refusal = some failure) :
      Leaves c (.didClose uri) failure (c.documents.erase uri)

theorem leavesOther {call : Call} {uri other : String} {failure : Failure} {documents : Table Int32}
    (about : call.document? = some uri) (away : other ≠ uri) (leaves : Leaves c call failure documents) :
    documents.get? other = c.documents.get? other := by
  cases leaves with
  | openOver => rfl
  | openLost | changeOver | changeLost =>
    cases about
    rw [Table.getPut, if_neg away]
  | closeLost =>
    cases about
    rw [Table.getErase, if_neg away]

theorem leavesLoud {call : Call} {failure : Failure} {documents : Table Int32}
    (leaves : Leaves c.quiet call failure documents) : Leaves c call failure documents := by
  cases leaves with
  | openOver past => exact .openOver past
  | openLost running unknown stuck => exact .openLost running unknown stuck
  | changeOver past known => exact .changeOver past known
  | changeLost running known stuck => exact .changeLost running known stuck
  | closeLost running known stuck => exact .closeLost running known stuck

theorem documentCalled {call : Call} {uri : String} (about : call.document? = some uri) (held : c.held = true)
    (free : c.asking = none) : ∃ after, Called c.quiet call (c.hostCall call).2 after ∧
      (c.hostCall call).1.quiet = after.note (.called call (c.hostCall call).2) := by
  refine hostCalled held free (.inl ?_)
  cases call <;> first | rfl | cases about

theorem answeredFree {call : Call} {answer : Answer} (answered : (c.hostCall call).2 = answer)
    (some : answer ≠ .nothing) : c.held = true ∧ c.asking = none := by
  refine Decidable.byContradiction fun busy => some ?_
  rw [← answered, hostCall, if_neg]
  simpa using busy

structure Unmoved (c after : Client) : Prop where
  queued : after.queued = c.queued
  store : after.store = c.store
  written : written after.log = written c.log
  phase : after.phase = c.phase

theorem calledRejected {call : Call} {uri : String} {failure : Failure} (about : call.document? = some uri)
    (done : Called c call (.failed failure) after) :
    Leaves c call failure after.documents ∧ Unmoved c (after.note (.called call (.failed failure))) := by
  have same (e : Event) (silent : Client.written [e] = []) : Client.written (c.log ++ [e]) = Client.written c.log := by
    rw [writtenAppend, silent, List.append_nil]
  have lost (m : Message) (e : Event) (silent : Client.written [e] = []) :
      Client.written (c.log ++ [.lost m] ++ [e]) = Client.written c.log := by
    rw [writtenAppend, silent, List.append_nil]
    exact same _ rfl
  cases done with
  | startAgain => cases about
  | openOver past => exact ⟨.openOver past, rfl, rfl, same _ rfl, rfl⟩
  | changeOver past known => exact ⟨.changeOver past known, rfl, rfl, same _ rfl, rfl⟩
  | openLost running unknown stuck => exact ⟨.openLost running unknown stuck, rfl, rfl, lost _ _ rfl, rfl⟩
  | changeLost running known stuck => exact ⟨.changeLost running known stuck, rfl, rfl, lost _ _ rfl, rfl⟩
  | closeLost running known stuck => exact ⟨.closeLost running known stuck, rfl, rfl, lost _ _ rfl, rfl⟩

def Announced (log : List Event) (uri : String) : Prop :=
  ∃ d : TextDocument, d.uri = uri ∧
    (.wrote (Request.didOpen d) ∈ log ∨ .lost (Request.didOpen d) ∈ log)

theorem announcedLater {log : List Event} {uri : String} (announced : Announced log uri) (es : List Event) :
    Announced (log ++ es) uri := by
  obtain ⟨d, same, told⟩ := announced
  exact ⟨d, same, told.imp (List.mem_append_left es) (List.mem_append_left es)⟩

def AllAnnounced (c : Client) : Prop :=
  c.phase = .running → ∀ uri, c.documents.get? uri ≠ none → Announced c.log uri

theorem announcedSame {es : List Event} (all : AllAnnounced c) (log : after.log = c.log ++ es)
    (phase : after.phase = .running → c.phase = .running) (documents : after.documents = c.documents) :
    AllAnnounced after := by
  intro running uri known
  exact log ▸ announcedLater (all (phase running) uri (documents ▸ known)) es

theorem announcedPut {es : List Event} {uri : String} {version : Int32} (all : AllAnnounced c)
    (log : after.log = c.log ++ es) (phase : c.phase = .running)
    (documents : after.documents = c.documents.put uri version) (own : Announced after.log uri) :
    AllAnnounced after := by
  intro _ other known
  rw [documents, Table.getPut] at known
  by_cases same : other = uri
  · exact same ▸ own
  · rw [if_neg same] at known
    exact log ▸ announcedLater (all phase other known) es

theorem announcedErased {es : List Event} {uri : String} (all : AllAnnounced c)
    (log : after.log = c.log ++ es) (phase : after.phase = .running → c.phase = .running)
    (documents : after.documents = c.documents.erase uri) : AllAnnounced after := by
  intro running other known
  rw [documents, Table.getErase] at known
  by_cases same : other = uri
  · simp [same] at known
  · rw [if_neg same] at known
    exact log ▸ announcedLater (all (phase running) other known) es

theorem announcedEarly (early : after.Early) : AllAnnounced after :=
  fun running => absurd early (runningLate running)

theorem calledAnnounced {call answer} (all : AllAnnounced c) (done : Called c call answer after) :
    AllAnnounced (after.note (.called call answer)) := by
  cases done with
  | start | stopUnstarted => exact fun running => nomatch running
  | drop => exact fun running => nomatch running
  | openSent own running unknown clear =>
    exact announcedPut all (List.append_assoc _ _ _) running rfl ⟨_, rfl, .inl (by simp [note, told])⟩
  | openLost running unknown stuck =>
    exact announcedPut all (List.append_assoc _ _ _) running rfl ⟨_, rfl, .inr (by simp [note])⟩
  | changeSent running known clear | changeLost running known stuck =>
    refine announcedPut all (List.append_assoc _ _ _) running rfl ?_
    refine announcedLater (announcedLater ?_ _) _
    exact all running _ (by simp [known])
  | changeOver past known =>
    exact fun running => by rcases past with past | past <;> simp [note, past] at running
  | openQueued own early | changeQueued early => exact announcedEarly early
  | closeUnsent idle => exact fun running => absurd running idle
  | closeSent | closeLost => exact announcedErased all (List.append_assoc _ _ _) id rfl
  | startAgain | stop | openForeign | openOver | openAgain | changeUnknown | closeUnknown =>
    exact announcedSame all rfl id rfl
  | stopOver | pullIdle =>
    exact announcedSame all (List.append_assoc _ _ _) id rfl

theorem readyAnnounced {id : Int} {es : List Event} (synced : Synced c) (starting : c.phase = .starting)
    (awaited : c.link = .handshake id)
    (log : after.log = c.log ++ es) (opened : ∀ d ∈ c.queued, .wrote (Request.didOpen d) ∈ es)
    (documents : after.documents = c.documents) : AllAnnounced after := by
  intro _ uri known
  have unflushed := synced.unflushed (.inr starting) (.inr ⟨id, awaited⟩)
  obtain ⟨queued, tracked, _⟩ := synced.early (.inr starting) unflushed
  obtain ⟨d, found⟩ := Option.ne_none_iff_exists'.mp (trackedPresent tracked (documents ▸ known))
  obtain ⟨member, same⟩ := lookName found
  refine ⟨d, same, .inl ?_⟩
  rw [log]
  exact List.mem_append_right _ (opened d (queued ▸ member))

theorem takenAnnounced {m} {s : Server} {rest} (synced : Synced c) (all : AllAnnounced c)
    (taken : Taken ((c.readOn s rest).note (.heard m)) m after) : AllAnnounced after := by
  cases taken with
  | @request id method params =>
    rcases triedCases (Router.replyTo id method params)
      ((c.readOn s rest).note (.heard (.request id method params))) with ⟨_, same⟩ | ⟨_, same⟩ <;>
      rw [same] <;> exact announcedSame all (List.append_assoc _ [_] [_]) (fun running => running) rfl
  | published | other | unasked | pullForestalled | shutdownAnswered | rejected | tooLate =>
    exact announcedSame all (heardLog s rest _ c) id rfl
  | pullAnswered => exact announcedSame all (List.append_assoc _ _ _) id rfl
  | readyLost => exact announcedSame all (openedLog s rest _ c _ _) id rfl
  | ready awaited starting clear =>
    exact readyAnnounced synced starting awaited (openedLog s rest _ c _ _)
      (fun d member => List.mem_append_left _ (List.mem_cons_of_mem _
        (List.mem_map_of_mem (List.mem_cons_of_mem _ (List.mem_map_of_mem member))))) rfl

theorem turnAnnounced (synced : Synced c) (all : AllAnnounced c) (turn : Turn c after) :
    AllAnnounced after := by
  cases turn with
  | host held free done => exact calledAnnounced all done
  | taken listening server hearing => exact takenAnnounced synced all hearing
  | idle | skipped | exitUntold | served | elsewhere | spawnRefused =>
    exact announcedSame all (List.append_nil _).symm id rfl
  | pullOpened | pullShut | pullSent | pullLost | spawned | orphaned | introduced | introduceLost | lost
    | stopVoid | shutdownSent | shutdownLost => exact announcedSame all rfl id rfl
  | parted => exact announcedSame all (List.append_assoc _ _ _) id rfl
  | exitTold =>
    rcases triedCases Request.exit c with ⟨_, same⟩ | ⟨_, same⟩ <;> rw [same] <;>
      exact announcedSame all rfl id rfl
  | gaveUp | shutdownOpened | shutdownShut | finished => exact fun running => nomatch running

theorem reachedAnnouncing (reached : Reached config nextId c) : AllAnnounced c := by
  induction reached with
  | new => exact fun running => nomatch running
  | turn before turn ih => exact turnAnnounced (reachedSynced before) ih turn

structure Rejected (c : Client) : Prop where
  leaves : ∀ call uri failure, call.document? = some uri → (c.hostCall call).2 = .failed failure →
    Leaves c call failure (c.hostCall call).1.documents
  others : ∀ call uri failure, call.document? = some uri → (c.hostCall call).2 = .failed failure →
    ∀ other, other ≠ uri → (c.hostCall call).1.documents.get? other = c.documents.get? other
  kept : ∀ call uri failure, call.document? = some uri → (c.hostCall call).2 = .failed failure →
    (c.hostCall call).1.queued = c.queued ∧ (c.hostCall call).1.store = c.store ∧
      (c.hostCall call).1.sent = c.sent ∧ (c.hostCall call).1.phase = c.phase
  -- an open that succeeds while the client runs is of a document that was announced, or should have been
  opened : c.phase = .running → ∀ d, (c.hostCall (.didOpen d)).2 = .flag true →
    Announced (c.hostCall (.didOpen d)).1.deeds d.uri
  -- unless a message was lost, the server was told of what counts as announced
  told : ∀ uri, Lossless c.deeds → Announced c.deeds uri →
    ∃ d : TextDocument, d.uri = uri ∧ Request.didOpen d ∈ c.sent

theorem openedTracked {d : TextDocument} (running : c.phase = .running)
    (answered : (c.hostCall (.didOpen d)).2 = .flag true) :
    (c.hostCall (.didOpen d)).1.phase = .running ∧
      (c.hostCall (.didOpen d)).1.documents.get? d.uri ≠ none := by
  obtain ⟨held, free⟩ := answeredFree answered nofun
  obtain ⟨after, done, same⟩ := @documentCalled c (.didOpen d) d.uri rfl held free
  have phase := congrArg Client.phase same
  have documents := congrArg Client.documents same
  simp only [quiet, note] at phase documents
  rw [answered] at done
  rw [phase, documents]
  cases done with
  | openAgain own known => exact ⟨running, known⟩
  | openQueued own early => exact absurd early (runningLate running)
  | openSent => exact ⟨running, by simp [Table.getPut]⟩

theorem rejected (config : Config) (nextId : Int) (moves : List Move) :
    Rejected ((new config nextId).play moves) := by
  have reached := playReached config nextId moves
  generalize (new config nextId).play moves = c at reached
  have cases' (call : Call) (uri : String) (failure : Failure) (about : call.document? = some uri)
      (failed : (c.hostCall call).2 = .failed failure) :
      Leaves c call failure (c.hostCall call).1.documents ∧ Unmoved c.quiet (c.hostCall call).1.quiet := by
    obtain ⟨held, free⟩ := answeredFree failed nofun
    obtain ⟨after, done, same⟩ := documentCalled about held free
    have documents := congrArg Client.documents same
    simp only [quiet, note] at documents
    rw [failed] at done same
    rw [documents, same]
    obtain ⟨leaves, unmoved⟩ := calledRejected about done
    exact ⟨leavesLoud leaves, unmoved⟩
  exact {
    leaves := fun call uri failure about failed => (cases' call uri failure about failed).1
    others := fun call uri failure about failed other away =>
      leavesOther about away (cases' call uri failure about failed).1
    kept := fun call uri failure about failed => by
      obtain ⟨queued, store, wire, phase⟩ := (cases' call uri failure about failed).2
      refine ⟨queued, store, ?_, phase⟩
      rw [← sentQuiet, ← sentQuiet c]
      exact wire
    opened := fun running d answered => by
      obtain ⟨still, known⟩ := openedTracked running answered
      exact reachedAnnouncing (performReached reached (.host (.didOpen d))) still d.uri known
    told := fun uri lossless announced => by
      obtain ⟨d, same, told⟩ := announced
      refine ⟨d, same, ?_⟩
      rw [← sentQuiet]
      exact memWritten.mp (told.resolve_right (lossless _)) }

def bereaved : Client := (new sampleConfig 1).play [.host (.start none), .spawn, .introduce,
  .server (.writes (Message.response 1 (some .null) none).octets), .take, .server .exits]

/-- The open fails, yet the document is tracked, and to open it again succeeds with nothing written. -/
theorem openUntold : bereaved.phase = .running ∧ bereaved.documents = [] ∧
    (bereaved.hostCall (.didOpen sampleDocument)).2 = .failed (.io .brokenPipe) ∧
    (bereaved.hostCall (.didOpen sampleDocument)).1.documents = [("file:///a.lus", 1)] ∧
    ((bereaved.hostCall (.didOpen sampleDocument)).1.hostCall (.didOpen sampleDocument)).2 = .flag true ∧
    Request.didOpen sampleDocument ∉
      ((bereaved.hostCall (.didOpen sampleDocument)).1.hostCall (.didOpen sampleDocument)).1.sent := by
  decide +kernel

end LspClient.Client
