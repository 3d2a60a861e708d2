import LspClient.Proofs.Client.Sync
import LspClient.Proofs.Client.Pulls

/-! What one client writes to its server, in order: it introduces itself, announces that it is ready and
what lies on the desk, talks about documents and pulls, asks to shut down, and says that it exits. Only
replies come in between. -/
namespace LspClient

def Message.isReply : Message → Bool
  | .response .. => true
  | _ => false

namespace Client

variable {config : Config} {nextId : Int} {c after : Client}

inductive Says : Event → Message → Prop where
  | opened {d} : Says (.called (.didOpen d) (.flag true)) (Request.didOpen d)
  | changed {uri text version} :
      Says (.called (.didChange uri text) (.flag true)) (Request.didChange uri version text)
  | closed {uri} : Says (.called (.didClose uri) (.flag true)) (Request.didClose uri)
  | pulled {name uri id} : Says (.called (.pull name uri) .nothing) (Request.diagnostic id uri)

inductive Spoken : List Event → List Message → Prop where
  | nothing : Spoken [] []
  | other {log ms e} (before : Spoken log ms) : Spoken (log ++ [e]) ms
  | reply {log ms m} (before : Spoken log ms) (reply : m.isReply = true) : Spoken log (ms ++ [m])
  | call {log ms e m} (before : Spoken log ms) (speaks : Says e m) : Spoken (log ++ [e]) (ms ++ [m])

def Replies (ms : List Message) : Prop := ∀ m ∈ ms, m.isReply = true

def introduction (config : Config) (id : Int) : Message :=
  Request.introduce id config.rootUri introducedAs 0

def Greeted (config : Config) (log : List Event) : Prop :=
  ∃ id replies, written log = introduction config id :: replies ∧ Replies replies

def Cut (config : Config) (log : List Event) : Prop :=
  ∃ before rest lost, log = before ++ .wrote Request.initialized :: rest ∧ Greeted config before ∧
    written rest ++ lost = (desk before).map Request.didOpen

def Talking (config : Config) (log : List Event) : Prop :=
  ∃ before rest traffic, log = before ++ .wrote Request.initialized :: rest ∧ Greeted config before ∧
    written rest = (desk before).map Request.didOpen ++ traffic ∧ Spoken rest traffic

def Stopping (config : Config) (log : List Event) : Prop :=
  ∃ before rest id, log = before ++ .wrote (Request.shutdown id) :: rest ∧ Talking config before ∧
    Replies (written rest)

def Left (config : Config) (log : List Event) : Prop :=
  ∃ before rest, log = before ++ .wrote Request.exit :: rest ∧ Stopping config before ∧
    written rest = []

theorem spokenLater {log : List Event} {ms : List Message} (spoken : Spoken log ms) (es : List Event) :
    Spoken (log ++ es) ms := by
  induction es generalizing log with
  | nil => rwa [List.append_nil]
  | cons e rest ih =>
    rw [← List.singleton_append, ← List.append_assoc]
    exact ih (.other spoken)

section
variable {log es : List Event} (silent : written es = [])
include silent

theorem writtenSilent : written (log ++ es) = written log := by
  rw [writtenAppend, silent, List.append_nil]

theorem greetedLater (greeted : Greeted config log) : Greeted config (log ++ es) := by
  rwa [Greeted, writtenSilent silent]

theorem cutLater (cut : Cut config log) : Cut config (log ++ es) := by
  obtain ⟨before, rest, lost, split, greeted, opens⟩ := cut
  exact ⟨before, rest ++ es, lost, by simp [split], greeted, by rwa [writtenSilent silent]⟩

theorem talkingLater (talking : Talking config log) : Talking config (log ++ es) := by
  obtain ⟨before, rest, traffic, split, greeted, wire, spoken⟩ := talking
  exact ⟨before, rest ++ es, traffic, by simp [split], greeted, by rwa [writtenSilent silent],
    spokenLater spoken es⟩

theorem stoppingLater (stopping : Stopping config log) : Stopping config (log ++ es) := by
  obtain ⟨before, rest, id, split, talking, replies⟩ := stopping
  exact ⟨before, rest ++ es, id, by simp [split], talking, by rwa [writtenSilent silent]⟩

theorem leftLater (left : Left config log) : Left config (log ++ es) := by
  obtain ⟨before, rest, split, stopping, nothing⟩ := left
  exact ⟨before, rest ++ es, by simp [split], stopping, by rwa [writtenSilent silent]⟩

end

section
variable {log es : List Event} {m : Message}

theorem repliesNone : Replies [] := fun _ member => absurd member List.not_mem_nil

theorem repliesAdded {ms : List Message} (replies : Replies ms) (reply : m.isReply = true) :
    Replies (ms ++ [m]) := by
  intro other member
  rcases List.mem_append.mp member with old | new
  · exact replies other old
  · exact List.mem_singleton.mp new ▸ reply

theorem greetedReply (greeted : Greeted config log) (one : written es = [m])
    (reply : m.isReply = true) : Greeted config (log ++ es) := by
  obtain ⟨id, replies, wire, all⟩ := greeted
  exact ⟨id, replies ++ [m], by simp [writtenAppend, wire, one], repliesAdded all reply⟩

theorem talkingReply (talking : Talking config log) (one : written es = [m])
    (reply : m.isReply = true) : Talking config (log ++ es) := by
  obtain ⟨before, rest, traffic, split, greeted, wire, spoken⟩ := talking
  exact ⟨before, rest ++ es, traffic ++ [m], by simp [split], greeted,
    by simp [writtenAppend, wire, one], .reply (spokenLater spoken es) reply⟩

theorem stoppingReply (stopping : Stopping config log) (one : written es = [m])
    (reply : m.isReply = true) : Stopping config (log ++ es) := by
  obtain ⟨before, rest, id, split, talking, replies⟩ := stopping
  exact ⟨before, rest ++ es, id, by simp [split], talking,
    by rw [writtenAppend, one]; exact repliesAdded replies reply⟩

theorem talkingSaid {e : Event} (talking : Talking config log) (one : written es = [m])
    (last : written [e] = []) (speaks : Says e m) : Talking config (log ++ (es ++ [e])) := by
  obtain ⟨before, rest, traffic, split, greeted, wire, spoken⟩ := talking
  refine ⟨before, rest ++ es ++ [e], traffic ++ [m], by simp [split], greeted, ?_,
    .call (spokenLater spoken es) speaks⟩
  simp [writtenAppend, wire, one, last]

theorem talkingNow {e : Event} (talking : Talking config log) (speaks : Says e m)
    (last : written [e] = []) : Talking config (log ++ [.wrote m, e]) :=
  talkingSaid talking (rfl : written [.wrote m] = [m]) last speaks

theorem talkingTold {documents} (talking : Talking config log) (tell : Tell c m es documents) :
    Talking config (log ++ .wrote m :: es) := by
  cases tell with
  | opened => exact talkingNow talking .opened rfl
  | changed => exact talkingNow talking .changed rfl
  | closed => exact talkingNow talking .closed rfl
  | @pulled a asking =>
    have one : written (.wrote (Request.diagnostic a.id a.uri) :: a.news) = [Request.diagnostic a.id a.uri] := by
      rw [← List.singleton_append, writtenAppend, muteWritten (muteNews a)]
      rfl
    exact talkingSaid talking one rfl .pulled

end

def Spoke (config : Config) (log : List Event) : Prop :=
  written log = [] ∨ Greeted config log ∨ Cut config log ∨ Talking config log ∨ Stopping config log ∨
    Left config log

theorem spokeLater {log es : List Event} (silent : written es = []) (spoke : Spoke config log) :
    Spoke config (log ++ es) := by
  rcases spoke with nothing | greeted | cut | talking | stopping | left
  · exact .inl (by rw [writtenSilent silent, nothing])
  · exact .inr (.inl (greetedLater silent greeted))
  · exact .inr (.inr (.inl (cutLater silent cut)))
  · exact .inr (.inr (.inr (.inl (talkingLater silent talking))))
  · exact .inr (.inr (.inr (.inr (.inl (stoppingLater silent stopping)))))
  · exact .inr (.inr (.inr (.inr (.inr (leftLater silent left)))))

structure Conversing (config : Config) (c : Client) : Prop where
  greeting : c.topic = .greeting → c.refusal = none → Greeted config c.log
  documents : c.topic = .documents → c.refusal = none → Talking config c.log
  leaving : c.topic = .leaving → c.refusal = none → Stopping config c.log
  spoke : Spoke config c.log

theorem attachedClear (pipe : c.refusal = none) : c.attached = true := (refusalClear.mp pipe).1

theorem clearTopic (coherent : Coherent c) (pipe : c.refusal = none) :
    c.topic = .greeting ∨ c.topic = .documents ∨ c.topic = .leaving := by
  have attached := attachedClear pipe
  cases phase : c.phase with
  | created => simp [(coherent.created phase).2.2] at attached
  | stopped => simp [(coherent.stopped phase).1] at attached
  | starting => exact .inl (by simp [topic, phase])
  | running => exact .inr (.inl (by simp [topic, phase]))
  | stopping => cases teardown : c.teardown <;> simp [topic, phase, teardown]

theorem runningTopic (running : c.phase = .running) : c.topic = .documents := by simp [topic, running]

theorem startingTopic (starting : c.phase = .starting) : c.topic = .greeting := by simp [topic, starting]

theorem stillConversing {es : List Event} (conversing : Conversing config c)
    (log : after.log = c.log ++ es) (silent : written es = [])
    (clear : after.refusal = none → c.refusal = none ∧ after.topic = c.topic) :
    Conversing config after := by
  obtain ⟨greeting, documents, leaving, spoke⟩ := conversing
  constructor
  · intro now pipe
    obtain ⟨pipe, same⟩ := clear pipe
    exact log ▸ greetedLater silent (greeting (same ▸ now) pipe)
  · intro now pipe
    obtain ⟨pipe, same⟩ := clear pipe
    exact log ▸ talkingLater silent (documents (same ▸ now) pipe)
  · intro now pipe
    obtain ⟨pipe, same⟩ := clear pipe
    exact log ▸ stoppingLater silent (leaving (same ▸ now) pipe)
  · exact log ▸ spokeLater silent spoke

theorem replyIsReply (id : Int) (method : String) (params : Option Json) :
    (Router.replyTo id method params).isReply = true := by
  obtain ⟨result, error, same⟩ := replyResponse id method params
  rw [same]
  rfl

theorem greetedHeard {m : Message} (greeted : Greeted config c.log) :
    Greeted config (c.log ++ [.heard m]) := by
  have silent : written [.heard m] = [] := rfl
  exact greetedLater silent greeted

theorem openedTalking {id result} (greeted : Greeted config c.log) (queued : c.queued = desk c.log) :
    Talking config (c.log ++ (.heard (.response id result none) ::
      (Request.initialized :: c.queued.map Request.didOpen).map .wrote ++ [.resolved .start .done])) := by
  let before := c.log ++ [.heard (.response id result none)]
  let opens : List Event := (c.queued.map Request.didOpen).map .wrote
  have desks : desk before = c.queued := by
    rw [queued]
    exact steadyDesk (by simp [Steady]) c.log
  have wire : written (opens ++ [.resolved .start .done]) = (desk before).map Request.didOpen := by
    rw [desks, writtenAppend, writtenMap]
    exact List.append_nil _
  refine ⟨before, opens ++ [.resolved .start .done], [], by simp [before, opens],
    greetedHeard greeted, by rw [wire, List.append_nil], ?_⟩
  exact spokenLater .nothing _

theorem openedCut {id result} {first rest : List Message} {m : Message} {last : List Event}
    (greeted : Greeted config c.log) (queued : c.queued = desk c.log)
    (split : c.queued.map Request.didOpen = first ++ m :: rest)
    (lost : written (.lost m :: last) = []) :
    Cut config (c.log ++ (.heard (.response id result none) ::
      (Request.initialized :: first).map .wrote ++ .lost m :: last)) := by
  let before := c.log ++ [.heard (.response id result none)]
  have desks : desk before = c.queued := by
    rw [queued]
    exact steadyDesk (by simp [Steady]) c.log
  refine ⟨before, first.map .wrote ++ .lost m :: last, m :: rest, by simp [before],
    greetedHeard greeted, ?_⟩
  rw [writtenAppend, writtenMap, lost, List.append_nil, desks, split]

theorem saidConversing (coherent : Coherent c) (piped : Piped c) (synced : Synced c) (same : c.config = config)
    (conversing : Conversing config c) (said : Said c after) : Conversing config after := by
  cases said with
  | nothing log mute clear => exact stillConversing conversing log (muteWritten mute) clear
  | @stuck first m last log mute shut =>
    exact stillConversing conversing log (lostWritten m mute) fun pipe => absurd pipe shut
  | edited edit log pipe link phase topic =>
    exact stillConversing conversing log rfl fun clear => ⟨pipe ▸ clear, topic⟩
  | told running pipe tell log opened phase =>
    have talking := log ▸ talkingTold (conversing.documents (runningTopic running) pipe) tell
    have topic := runningTopic phase
    exact ⟨by simp [topic], fun _ _ => talking, by simp [topic], .inr (.inr (.inr (.inl talking)))⟩
  | @replied id method params pipe log opened phase topic =>
    have reply := replyIsReply id method params
    rcases clearTopic coherent pipe with now | now | now
    · have greeted := log ▸ greetedReply (conversing.greeting now pipe) rfl reply
      exact ⟨fun _ _ => greeted, by simp [topic, now], by simp [topic, now], .inr (.inl greeted)⟩
    · have talking := log ▸ talkingReply (conversing.documents now pipe) rfl reply
      exact ⟨by simp [topic, now], fun _ _ => talking, by simp [topic, now],
        .inr (.inr (.inr (.inl talking)))⟩
    · have stopping := log ▸ stoppingReply (conversing.leaving now pipe) rfl reply
      exact ⟨by simp [topic, now], by simp [topic, now], fun _ _ => stopping,
        .inr (.inr (.inr (.inr (.inl stopping))))⟩
  | introduced unopened starting log opened phase =>
    have greeted : Greeted config after.log := by
      refine ⟨c.nextId, [], ?_, by simp [Replies]⟩
      rw [log, writtenAppend, (piped.unopened unopened).2, introduction, ← same]
      rfl
    have topic := startingTopic phase
    exact ⟨fun _ _ => greeted, by simp [topic], by simp [topic], .inr (.inl greeted)⟩
  | @ready id result starting awaited pipe log opened phase =>
    have greeted := conversing.greeting (startingTopic starting) pipe
    have unflushed := synced.unflushed (.inr starting) (.inr ⟨id, awaited⟩)
    have talking : Talking config after.log := log ▸
      openedTalking greeted (synced.early (.inr starting) unflushed).1
    have topic := runningTopic phase
    exact ⟨by simp [topic], fun _ _ => talking, by simp [topic], .inr (.inr (.inr (.inl talking)))⟩
  | @readyLost id result first m rest failure starting awaited clear split log shut opened phase =>
    cases first with
    | nil => exact stillConversing conversing log (heardWritten rfl) fun pipe => absurd pipe shut
    | cons head first =>
      obtain ⟨rfl, opens⟩ := List.cons.inj split
      have greeted := conversing.greeting (startingTopic starting) (clear (by simp))
      have unflushed := synced.unflushed (.inr starting) (.inr ⟨id, awaited⟩)
      have cut : Cut config after.log := log ▸
        openedCut greeted (synced.early (.inr starting) unflushed).1 opens rfl
      exact ⟨fun _ pipe => absurd pipe shut, fun _ pipe => absurd pipe shut, fun _ pipe => absurd pipe shut,
        .inr (.inr (.inl cut))⟩
  | @shutdown id registered stopping pipe log opened phase topic =>
    have talking := conversing.documents (by simp [Client.topic, stopping, registered]) pipe
    have stopping : Stopping config after.log := ⟨c.log, [], id, log, talking, by simp [Replies, written]⟩
    exact ⟨by simp [topic], by simp [topic], fun _ _ => stopping,
      .inr (.inr (.inr (.inr (.inl stopping))))⟩
  | exit waiting answered pipe log opened phase shut =>
    have past := teardownStopping coherent (.inr (.inl ⟨_, waiting⟩))
    have stopping := conversing.leaving (by simp [topic, past, waiting]) pipe
    have left : Left config after.log := ⟨c.log, [], log, stopping, rfl⟩
    exact ⟨fun _ clear => absurd clear shut, fun _ clear => absurd clear shut,
      fun _ clear => absurd clear shut, .inr (.inr (.inr (.inr (.inr left))))⟩

theorem newConversing (config : Config) (nextId : Int) : Conversing config (new config nextId) :=
  ⟨nofun, nofun, nofun, .inl rfl⟩

theorem reachedConversing (reached : Reached config nextId c) : Conversing config c := by
  induction reached with
  | new => exact newConversing config nextId
  | turn before turn ih =>
    exact saidConversing (reachedCoherent before) (reachedPiped before) (reachedSynced before)
      (reachedConfig before) ih (reachedSaid before turn)

def Answering (before : List Event) (m : Message) : Prop :=
  ∃ first id method params, before = first ++ [.heard (.request id method params)] ∧
    m = Router.replyTo id method params

/-- Since its slot was opened, the request to shut down was written and a response with its number was heard,
unless the server's output has ended. -/
def Released (before : List Event) : Prop :=
  ∃ first id rest, before = first ++ .awaits id .shutdown :: rest ∧
    .wrote (Request.shutdown id) ∈ rest ∧ (¬ Unheard id rest ∨ .ended ∈ before)

def Allowed (log : List Event) : Prop :=
  ∀ before m rest, log = before ++ .wrote m :: rest →
    (m.isReply = true → Answering before m) ∧ (m = Request.exit → Released before)

theorem allowedLater {log es : List Event} (allowed : Allowed log)
    (new : ∀ first m rest, es = first ++ .wrote m :: rest →
      (m.isReply = true → Answering (log ++ first) m) ∧ (m = Request.exit → Released (log ++ first))) :
    Allowed (log ++ es) := by
  intro before m rest split
  rcases splitAppend split with ⟨short, _, earlier⟩ | ⟨first, same, added⟩
  · exact allowed before m short earlier
  · exact same ▸ new first m rest added

def Free (ms : List Message) : Prop := ∀ m ∈ ms, m.isReply = false ∧ m ≠ Request.exit

theorem allowedFree {log es : List Event} (allowed : Allowed log) (free : Free (written es)) :
    Allowed (log ++ es) := by
  refine allowedLater allowed fun first m rest split => ?_
  have member : m ∈ written es := by
    rw [split, ← List.singleton_append, writtenAppend, writtenAppend]
    simp [written]
  obtain ⟨reply, exit⟩ := free m member
  exact ⟨fun own => by simp [reply] at own, fun own => absurd own exit⟩

theorem tellFree {m es documents} (tell : Tell c m es documents) :
    Free (written (.wrote m :: es)) := by
  cases tell with
  | @pulled a asking =>
    rw [← List.singleton_append, writtenAppend, writtenAppend, muteWritten (muteNews a)]
    simp [Free, written, Request.diagnostic, Request.exit, Message.isReply]
  | _ =>
    simp [Free, written, Request.didOpen, Request.didChange, Request.didClose, Request.exit,
      Message.isReply]

theorem freeOpening (ds : List TextDocument) : Free (Request.initialized :: ds.map Request.didOpen) := by
  simp [Free, Request.didOpen, Request.initialized, Request.exit, Message.isReply]

theorem saidAllowed (allowed : Allowed c.log) (released : ∀ id, c.teardown = .awaitingReply id →
    c.router.owner? id = none → c.refusal = none → Released c.log) (said : Said c after) :
    Allowed after.log := by
  cases said with
  | nothing log mute => exact log ▸ allowedFree allowed (by simp [muteWritten mute, Free])
  | stuck log mute => exact log ▸ allowedFree allowed (by simp [lostWritten _ mute, Free])
  | edited edit log => exact log ▸ allowedFree allowed (by simp [written, Free])
  | told running pipe tell log => exact log ▸ allowedFree allowed (tellFree tell)
  | @replied id method params pipe log =>
    refine log ▸ allowedLater allowed fun first m rest split => ?_
    rcases splitPair split with ⟨_, same, _⟩ | ⟨head, same, _⟩
    · cases same
    · cases same
      refine ⟨fun _ => ⟨c.log, _, _, _, by rw [head], rfl⟩, fun exit => ?_⟩
      have reply := replyIsReply id method params
      rw [exit] at reply
      cases reply
  | introduced unopened starting log =>
    exact log ▸ allowedFree allowed
      (by simp [written, Free, Request.introduce, Request.exit, Message.isReply])
  | @ready id result starting awaited pipe log =>
    have silent : written [.resolved .start .done] = [] := rfl
    exact log ▸ allowedFree allowed (heardWritten silent ▸ freeOpening c.queued)
  | @readyLost id result first m rest failure starting awaited clear split log =>
    have lost : written [.lost m] = [] := rfl
    have free : Free first := fun m' member =>
      freeOpening c.queued m' (split ▸ List.mem_append_left (m :: rest) member)
    exact log ▸ allowedFree allowed (heardWritten lost ▸ free)
  | shutdown registered stopping pipe log =>
    exact log ▸ allowedFree allowed
      (by simp [written, Free, Request.shutdown, Request.exit, Message.isReply])
  | exit waiting answered pipe log =>
    refine log ▸ allowedLater allowed fun first m rest split => ?_
    obtain ⟨rfl, same, _⟩ := splitOne split
    cases same
    refine ⟨fun reply => absurd reply Bool.false_ne_true, fun _ => ?_⟩
    rw [List.append_nil]
    exact released _ waiting answered pipe

theorem turnRegistered {id : Int} (turn : Turn c after) (registered : after.teardown = .registered id) :
    c.teardown = .registered id ∨ after.log = c.log ++ [.awaits id .shutdown] := by
  cases turn with
  | host held free done =>
    cases done with
    | stop => cases registered
    | _ => exact .inl registered
  | taken listening server hearing =>
    cases hearing with
    | request =>
      rw [triedTeardown] at registered
      exact .inl registered
    | _ => exact .inl registered
  | shutdownOpened | shutdownShut =>
    cases registered
    exact .inr rfl
  | stopVoid | finished | exitTold | exitUntold | shutdownSent | shutdownLost => cases registered
  | _ => exact .inl registered

theorem turnAwaiting {id : Int} (turn : Turn c after) (waiting : after.teardown = .awaitingReply id)
    (pipe : after.refusal = none) : c.teardown = .awaitingReply id ∨
      c.teardown = .registered id ∧ after.log = c.log ++ [.wrote (Request.shutdown id)] := by
  cases turn with
  | host held free done =>
    cases done with
    | stop => cases waiting
    | _ => exact .inl waiting
  | taken listening server hearing =>
    cases hearing with
    | request =>
      rw [triedTeardown] at waiting
      exact .inl waiting
    | _ => exact .inl waiting
  | stopVoid | finished | exitTold | exitUntold | shutdownOpened | shutdownShut => cases waiting
  | shutdownSent registered =>
    cases waiting
    exact .inr ⟨registered, rfl⟩
  | shutdownLost registered stuck =>
    have shut : c.refusal = none := pipe
    simp [stuck] at shut
  | _ => exact .inl waiting

theorem reachedRegistered (reached : Reached config nextId c) {id : Int}
    (registered : c.teardown = .registered id) : .awaits id .shutdown ∈ c.log := by
  induction reached with
  | new => cases registered
  | @turn c after before turn ih =>
    obtain ⟨es, log⟩ := askedLog (reachedAsked before turn)
    rcases turnRegistered turn registered with earlier | now
    · simp [log, ih earlier]
    · simp [now]

theorem reachedAwaiting (reached : Reached config nextId c) {id : Int}
    (waiting : c.teardown = .awaitingReply id) (pipe : c.refusal = none) :
    ∃ first rest, c.log = first ++ .awaits id .shutdown :: rest ∧ .wrote (Request.shutdown id) ∈ rest := by
  induction reached with
  | new => cases waiting
  | @turn c after before turn ih =>
    rcases turnAwaiting turn waiting pipe with earlier | ⟨registered, log⟩
    · obtain ⟨es, log⟩ := askedLog (reachedAsked before turn)
      have stopping := teardownStopping (reachedCoherent before) (.inr (.inl ⟨_, earlier⟩))
      have opened := stoppingOpened (reachedCoherent before) stopping
      have clear := (saidPipe (reachedSaid before turn) pipe).resolve_right opened
      obtain ⟨first, rest, split, wrote⟩ := ih earlier clear
      exact ⟨first, rest ++ es, by simp [log, split], List.mem_append_left es wrote⟩
    · obtain ⟨first, rest, split⟩ := List.append_of_mem (reachedRegistered before registered)
      exact ⟨first, rest ++ [.wrote (Request.shutdown id)], by simp [log, split], by simp⟩

theorem reachedReleased (reached : Reached config nextId c) {id : Int}
    (waiting : c.teardown = .awaitingReply id) (answered : c.router.owner? id = none)
    (pipe : c.refusal = none) : Released c.log := by
  obtain ⟨first, rest, split, wrote⟩ := reachedAwaiting reached waiting pipe
  refine ⟨first, id, rest, split, wrote, ?_⟩
  have used : ¬ Awaits c.log id .shutdown := by
    rw [← reachedAwaits reached, answered]
    simp
  by_cases ended : .ended ∈ c.log
  · exact .inr ended
  refine .inl fun unheard => used ⟨ended, first, rest, split, fun e member => ?_⟩
  -- the slot was not given up either, since nothing was lost
  cases e with
  | heard m =>
    cases m with
    | response own result error =>
      simp only [Event.frees, beq_eq_false_iff_ne]
      rintro rfl
      exact unheard result error member
    | _ => rfl
  | lost m => exact absurd (by simp [split, member]) ((reachedPiped reached).clear pipe m)
  | _ => rfl

theorem reachedAllowed (reached : Reached config nextId c) : Allowed c.log := by
  induction reached with
  | new => exact fun before m rest split => by simp [new] at split
  | turn before turn ih =>
    exact saidAllowed ih (fun _ waiting answered pipe => reachedReleased before waiting answered pipe)
      (reachedSaid before turn)

structure Conversation where
  number : Int
  greetings : List Message
  opened : List TextDocument
  calls : List Event
  traffic : List Message
  lastNumber : Int
  farewells : List Message
  greeted : Replies greetings
  spoken : Spoken calls traffic
  parting : Replies farewells

namespace Conversation

def upToShutdown (config : Config) (v : Conversation) : List Message :=
  introduction config v.number :: v.greetings ++
    Request.initialized :: v.opened.map Request.didOpen ++ v.traffic

def wire (config : Config) (v : Conversation) : List Message :=
  v.upToShutdown config ++ Request.shutdown v.lastNumber :: v.farewells ++ [Request.exit]

def Fits (v : Conversation) (log : List Event) : Prop :=
  ∀ before rest, log = before ++ .wrote Request.initialized :: rest →
    v.opened = desk before ∧ v.calls = rest

end Conversation

theorem memWritten {m : Message} {log : List Event} : .wrote m ∈ log ↔ m ∈ written log := by
  constructor
  · intro member
    obtain ⟨before, rest, split⟩ := List.append_of_mem member
    rw [split, ← List.singleton_append, writtenAppend, writtenAppend]
    simp [written]
  · intro member
    obtain ⟨e, own, same⟩ := List.mem_filterMap.mp member
    cases e <;> simp at same
    exact same ▸ own

theorem repliesUnready {ms : List Message} (replies : Replies ms) : Request.initialized ∉ ms :=
  fun member => nomatch replies _ member

theorem shutdownUnready (id : Int) :
    Event.wrote Request.initialized ≠ .wrote (Request.shutdown id) := by
  simp [Request.initialized, Request.shutdown]

theorem exitUnready : Event.wrote Request.initialized ≠ .wrote Request.exit := by
  simp [Request.initialized, Request.exit]

theorem spokenUnready {log : List Event} {ms : List Message} (spoken : Spoken log ms) :
    Request.initialized ∉ ms := by
  induction spoken with
  | nothing => simp
  | other _ ih => exact ih
  | reply _ reply ih =>
    rw [List.mem_append, List.mem_singleton, not_or]
    exact ⟨ih, fun same => nomatch same ▸ reply⟩
  | call _ speaks ih =>
    rw [List.mem_append, List.mem_singleton, not_or]
    refine ⟨ih, fun same => ?_⟩
    cases speaks <;>
      simp [Request.initialized, Request.didOpen, Request.didChange, Request.didClose,
        Request.diagnostic] at same

theorem greetedUnready {log : List Event} (greeted : Greeted config log) :
    .wrote Request.initialized ∉ log := by
  obtain ⟨id, replies, wire, all⟩ := greeted
  rw [memWritten, wire, List.mem_cons, not_or]
  exact ⟨by simp [introduction, Request.introduce, Request.initialized], repliesUnready all⟩

theorem talkingConversation {log es : List Event} {farewells : List Message}
    (talking : Talking config log) (lastNumber : Int) (parting : Replies farewells)
    (unready : .wrote Request.initialized ∉ es) :
    ∃ v : Conversation, v.upToShutdown config = written log ∧ v.lastNumber = lastNumber ∧
      v.farewells = farewells ∧ v.Fits (log ++ es) := by
  obtain ⟨before, rest, traffic, split, greeted, opens, spoken⟩ := talking
  have first := greetedUnready greeted
  have last : .wrote Request.initialized ∉ rest ++ es := by
    rw [List.mem_append, not_or, memWritten, opens, List.mem_append, not_or]
    refine ⟨⟨?_, spokenUnready spoken⟩, unready⟩
    simp [Request.didOpen, Request.initialized]
  obtain ⟨number, greetings, wire, replies⟩ := greeted
  refine ⟨⟨number, greetings, desk before, rest ++ es, traffic, lastNumber, farewells, replies,
    spokenLater spoken es, parting⟩, ?_, rfl, rfl, ?_⟩
  · rw [split, ← List.singleton_append, writtenAppend, writtenAppend, opens, wire]
    simp [Conversation.upToShutdown, written]
  · intro before' rest' same
    have splits : before ++ .wrote Request.initialized :: (rest ++ es) =
        before' ++ .wrote Request.initialized :: rest' := by simpa [split] using same
    obtain ⟨rfl, rfl⟩ := splitUnique splits first last
    exact ⟨rfl, rfl⟩

theorem unreadyFits {log : List Event} (unready : .wrote Request.initialized ∉ log) (v : Conversation) :
    v.Fits log := fun before rest split => absurd (by simp [split]) unready

theorem greetedConversation {log : List Event} (greeted : Greeted config log) :
    ∃ v : Conversation, written log <+: v.wire config ∧ v.Fits log := by
  have unready := greetedUnready greeted
  obtain ⟨number, greetings, wire, replies⟩ := greeted
  refine ⟨⟨number, greetings, [], [], [], 0, [], replies, .nothing, repliesNone⟩, ?_,
    unreadyFits unready _⟩
  rw [wire]
  simp [Conversation.wire, Conversation.upToShutdown]

theorem cutConversation {log : List Event} (cut : Cut config log) :
    ∃ v : Conversation, written log <+: v.wire config ∧ v.Fits log := by
  obtain ⟨before, rest, lost, split, greeted, opens⟩ := cut
  have first := greetedUnready greeted
  have last : .wrote Request.initialized ∉ rest := by
    intro member
    have opened : Request.initialized ∈ (desk before).map Request.didOpen :=
      opens ▸ List.mem_append_left lost (memWritten.mp member)
    simp [Request.didOpen, Request.initialized] at opened
  obtain ⟨number, greetings, wire, replies⟩ := greeted
  refine ⟨⟨number, greetings, desk before, rest, [], 0, [], replies, spokenLater .nothing rest,
    repliesNone⟩, ?_, fun before' rest' same => ?_⟩
  · rw [split, ← List.singleton_append, writtenAppend, writtenAppend, wire]
    simp [Conversation.wire, Conversation.upToShutdown, written, ← opens]
  · obtain ⟨rfl, rfl⟩ := splitUnique (split.symm.trans same) first last
    exact ⟨rfl, rfl⟩

theorem spokeConversation {log : List Event} (spoke : Spoke config log) :
    ∃ v : Conversation, written log <+: v.wire config ∧ v.Fits log := by
  rcases spoke with nothing | greeted | cut | talking | stopping | left
  · have unready : .wrote Request.initialized ∉ log := by simp [memWritten, nothing]
    exact ⟨⟨0, [], [], [], [], 0, [], repliesNone, .nothing, repliesNone⟩, by simp [nothing],
      unreadyFits unready _⟩
  · exact greetedConversation greeted
  · exact cutConversation cut
  · have unready : .wrote Request.initialized ∉ ([] : List Event) := by simp
    obtain ⟨v, wire, _, _, fits⟩ := talkingConversation talking 0 repliesNone unready
    rw [List.append_nil] at fits
    refine ⟨v, ?_, fits⟩
    rw [← wire, Conversation.wire, List.append_assoc]
    exact List.prefix_append _ _
  · obtain ⟨before, rest, id, split, talking, replies⟩ := stopping
    have unready : .wrote Request.initialized ∉ .wrote (Request.shutdown id) :: rest := by
      rw [List.mem_cons, not_or, memWritten]
      exact ⟨shutdownUnready id, repliesUnready replies⟩
    obtain ⟨v, wire, number, farewells, fits⟩ := talkingConversation talking id replies unready
    refine ⟨v, ?_, split ▸ fits⟩
    rw [split, ← List.singleton_append, writtenAppend, writtenAppend, ← wire, Conversation.wire, number,
      farewells]
    exact ⟨[Request.exit], by simp [written]⟩
  · obtain ⟨between, last, split, stopping, nothing⟩ := left
    obtain ⟨before, rest, id, earlier, talking, replies⟩ := stopping
    have unready : .wrote Request.initialized ∉
        .wrote (Request.shutdown id) :: (rest ++ .wrote Request.exit :: last) := by
      rw [List.mem_cons, not_or, List.mem_append, not_or, List.mem_cons, not_or, memWritten, memWritten,
        nothing]
      exact ⟨shutdownUnready id, repliesUnready replies, exitUnready, List.not_mem_nil⟩
    obtain ⟨v, wire, number, farewells, fits⟩ := talkingConversation talking id replies unready
    have whole : log = before ++
        .wrote (Request.shutdown id) :: (rest ++ .wrote Request.exit :: last) := by
      rw [split, earlier, List.append_assoc]
      rfl
    have silent : written (.wrote Request.exit :: last) = [Request.exit] := by
      rw [← List.singleton_append, writtenAppend, nothing]
      rfl
    refine ⟨v, ?_, whole ▸ fits⟩
    rw [whole, ← List.singleton_append, writtenAppend, writtenAppend, writtenAppend, silent, ← wire,
      Conversation.wire, number, farewells]
    exact ⟨[], by simp [written]⟩

/-- What a client writes is the beginning of a conversation, whatever its host and its server do. A
reply follows its request, and the exit follows the answer to the request to shut down or the end of the
server's output. -/
theorem wireOrder (config : Config) (nextId : Int) (moves : List Move) :
    ∃ v : Conversation, ((new config nextId).play moves).sent <+: v.wire config ∧
      v.Fits ((new config nextId).play moves).deeds ∧
      Allowed ((new config nextId).play moves).deeds := by
  have reached := playReached config nextId moves
  obtain ⟨v, wire, fits⟩ := spokeConversation (reachedConversing reached).spoke
  refine ⟨v, ?_, fits, reachedAllowed reached⟩
  rw [← sentQuiet]
  exact wire

end Client
end LspClient
