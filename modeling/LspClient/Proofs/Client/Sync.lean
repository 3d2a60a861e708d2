import LspClient.Proofs.Client.Replica
import LspClient.Proofs.Client.Said

/-! Document synchronisation. Before the client tries to flush its queue that is the host's desk; while it
runs and nothing was lost the server's replica is. -/
namespace LspClient.Client
open TextDocument

variable {config : Config} {nextId : Int} {c after : Client}

def Tracked (documents : Table Int32) (ds : List TextDocument) : Prop :=
  ∀ uri, documents.get? uri = (look uri ds).map (·.version)

section
variable {documents : Table Int32} {ds : List TextDocument} (tracked : Tracked documents ds)
include tracked

theorem trackedAbsent {uri : String} (unknown : documents.get? uri = none) : look uri ds = none := by
  rw [tracked uri] at unknown
  simpa using unknown

theorem trackedPresent {uri : String} (known : documents.get? uri ≠ none) : look uri ds ≠ none := by
  rw [tracked uri] at known
  simpa using known

theorem trackedVersion {uri : String} {version : Int32} (known : documents.get? uri = some version) :
    ∃ d, look uri ds = some d ∧ d.version = version := by
  rw [tracked uri] at known
  simpa using known

theorem placeNew {d : TextDocument} (unknown : documents.get? d.uri = none) :
    place d ds = ds ++ [d] := by
  simp [place, trackedAbsent tracked unknown]

theorem placeAgain {d : TextDocument} (known : documents.get? d.uri ≠ none) : place d ds = ds := by
  have present := Option.isSome_iff_ne_none.mpr (trackedPresent tracked known)
  simp [place, present]

theorem trackedOpened {d : TextDocument} (unknown : documents.get? d.uri = none) :
    Tracked (documents.put d.uri d.version) (ds ++ [d]) := by
  intro uri
  rw [Table.getPut, lookAppend, tracked uri]
  by_cases same : uri = d.uri
  · simp [same, trackedAbsent tracked unknown]
  · simp [same, Ne.symm same]

theorem amendRevise {uri : String} {version : Int32} (text : String) (unique : (names ds).Nodup)
    (known : documents.get? uri = some version) :
    amend uri text ds = revise uri text (fun _ => version + 1) ds := by
  obtain ⟨d, found, same⟩ := trackedVersion tracked known
  refine reviseAlike unique fun e other => ?_
  have alike : d = e := Option.some.inj (found.symm.trans other)
  rw [← alike, same]

theorem trackedChanged {uri : String} {version : Int32} (text : String)
    (known : documents.get? uri = some version) :
    Tracked (documents.put uri (version + 1)) (revise uri text (fun _ => version + 1) ds) := by
  intro other
  obtain ⟨d, found, _⟩ := trackedVersion tracked known
  rw [Table.getPut, lookRevise, tracked other]
  by_cases same : other = uri
  · simp [same, found]
  · simp [same]

theorem trackedClosed (uri : String) :
    Tracked (documents.erase uri) (ds.filter fun d => d.uri != uri) := by
  intro other
  rw [Table.getErase, lookErase, tracked other]
  by_cases same : other = uri <;> simp [same]

end

def Unflushed (log : List Event) : Prop := .wrote Request.initialized ∉ log

theorem unflushedAppend {log es : List Event} : Unflushed (log ++ es) ↔ Unflushed log ∧ Unflushed es := by
  simp only [Unflushed, List.mem_append, not_or]

theorem muteUnflushed {es : List Event} (mute : Mute es) : Unflushed es := fun member =>
  nomatch mute _ member

theorem lostUnflushed {first last : List Event} (m : Message) (mute : Mute (first ++ last)) :
    Unflushed (first ++ .lost m :: last) := by
  have unsaid := muteUnflushed mute
  simpa [Unflushed] using unsaid

def Ungreeted (c : Client) : Prop := c.Unopened ∨ ∃ id, c.link = .handshake id

theorem turnUngreeted (coherent : Coherent c) (turn : Turn c after) (ungreeted : after.Ungreeted) : c.Ungreeted := by
  have same (link : after.link = c.link) : c.Ungreeted := by
    simpa only [Ungreeted, Unopened, link] using ungreeted
  cases turn with
  | host held free done =>
    cases done with
    | start fresh => exact .inl (.inl (coherent.created fresh).1)
    | _ => exact same rfl
  | @taken s rest m after listening server hearing =>
    cases hearing with
    | request => exact same (triedLink _ ((c.readOn s rest).note _))
    | rejected | tooLate | readyLost | ready => simp [Ungreeted, Unopened] at ungreeted
    | _ => exact same rfl
  | exitTold => exact same (triedLink _ _)
  | spawned waiting => exact .inl (.inr (.inl ⟨_, waiting⟩))
  | introduced waiting => exact .inl (.inr (.inr waiting))
  | spawnRefused | orphaned | introduceLost | lost | gaveUp | parted =>
    simp [Ungreeted, Unopened, startFailed] at ungreeted
  | _ => exact same rfl

structure Synced (c : Client) : Prop where
  early : c.Early → Unflushed c.log → c.queued = desk c.log ∧ Tracked c.documents (desk c.log) ∧
    replay (written c.log) = some []
  unflushed : c.Early → c.Ungreeted → Unflushed c.log
  running : c.phase = .running → Lossless c.log →
    replay (written c.log) = some (desk c.log) ∧ Tracked c.documents (desk c.log)
  replayed : ∃ replica, replay (written c.log) = some replica

theorem stillSynced {es : List Event} (synced : Synced c) (log : after.log = c.log ++ es)
    (wire : replay (written after.log) = replay (written c.log)) (steady : Steady es)
    (early : after.Early → Unflushed es ∧ c.Early ∧ after.queued = c.queued ∧ after.documents = c.documents)
    (ungreeted : after.Ungreeted → c.Ungreeted)
    (running : after.phase = .running → Lossless after.log →
      c.phase = .running ∧ after.documents = c.documents) : Synced after := by
  have desks : desk after.log = desk c.log := by rw [log, steadyDesk steady]
  constructor
  · intro before unflushed
    obtain ⟨_, before, queued, documents⟩ := early before
    rw [queued, documents, desks, wire]
    exact synced.early before (unflushedAppend.mp (log ▸ unflushed)).1
  · intro before open'
    obtain ⟨kept, before, _⟩ := early before
    exact log ▸ unflushedAppend.mpr ⟨synced.unflushed before (ungreeted open'), kept⟩
  · intro now lossless
    obtain ⟨now, documents⟩ := running now lossless
    rw [documents, desks, wire]
    exact synced.running now (losslessAppend.mp (log ▸ lossless)).1
  · rw [wire]
    exact synced.replayed

theorem replaySame {es : List Event} (log : after.log = c.log ++ es) (silent : written es = []) :
    replay (written after.log) = replay (written c.log) := by
  rw [log, writtenAppend, silent, List.append_nil]

theorem replayOne {es : List Event} {m : Message} (log : after.log = c.log ++ es)
    (one : written es = [m]) (silent : Notice.read? m = none) :
    replay (written after.log) = replay (written c.log) := by
  rw [log, writtenAppend, one, replaySilent silent]

theorem overEarly (past : c.Over) : ¬ c.Early := by
  rintro (early | early) <;> rcases past with past | past <;> simp [early] at past

theorem overSynced {replica} (past : after.Over) (wire : replay (written after.log) = some replica) :
    Synced after where
  early early := absurd early (overEarly past)
  unflushed early := absurd early (overEarly past)
  running running := by rcases past with past | past <;> simp [running] at past
  replayed := ⟨replica, wire⟩

theorem editEarly {call queued documents} {ds : List TextDocument} (unique : (names ds).Nodup)
    (same : c.queued = ds) (tracked : Tracked c.documents ds) (edit : Edit c call queued documents) :
    queued = deskStep ds (.called call (.flag true)) ∧
      Tracked documents (deskStep ds (.called call (.flag true))) := by
  cases edit with
  | again own known =>
    have kept := placeAgain tracked known
    simp only [deskStep, kept]
    exact ⟨same, tracked⟩
  | opened own _ unknown =>
    have new := placeNew tracked unknown
    simp only [deskStep, new, same, true_and]
    exact trackedOpened tracked unknown
  | @changed uri text version _ known =>
    have amended := amendRevise tracked text unique known
    simp only [deskStep, amended, same]
    exact ⟨foldChangeRevise uri (version + 1) text unique, trackedChanged tracked text known⟩
  | closed _ known =>
    simp only [deskStep, clear, same, true_and]
    exact trackedClosed tracked _

theorem editRunning {call queued documents} {ds : List TextDocument} (running : c.phase = .running)
    (tracked : Tracked c.documents ds) (edit : Edit c call queued documents) :
    documents = c.documents ∧ deskStep ds (.called call (.flag true)) = ds := by
  cases edit with
  | again own known => exact ⟨rfl, placeAgain tracked known⟩
  | opened own early => exact absurd early (runningLate running)
  | changed early => exact absurd early (runningLate running)
  | closed idle => exact absurd running idle

theorem editedSynced {call} (synced : Synced c) (edit : Edit c call after.queued after.documents)
    (log : after.log = c.log ++ [.called call (.flag true)]) (phase : after.phase = c.phase)
    (ungreeted : after.Ungreeted → c.Ungreeted) : Synced after := by
  have wire : written after.log = written c.log := by
    rw [log, writtenAppend]
    exact List.append_nil _
  have same : Unflushed after.log ↔ Unflushed c.log := by simp [log, Unflushed]
  constructor
  · intro early unflushed
    have before : c.Early := by simpa [Early, phase] using early
    obtain ⟨queued, tracked, replayed⟩ := synced.early before (same.mp unflushed)
    obtain ⟨queued', tracked'⟩ := editEarly (deskUnique c.log) queued tracked edit
    rw [log, deskAppend, ← log, wire]
    exact ⟨queued', tracked', replayed⟩
  · intro early open'
    exact same.mpr (synced.unflushed (by simpa [Early, phase] using early) (ungreeted open'))
  · intro running lossless
    have now : c.phase = .running := phase ▸ running
    obtain ⟨replayed, tracked⟩ := synced.running now (losslessAppend.mp (log ▸ lossless)).1
    obtain ⟨documents, kept⟩ := editRunning now tracked edit
    rw [log, deskAppend, kept, documents, ← log, wire]
    exact ⟨replayed, tracked⟩
  · rw [wire]
    exact synced.replayed

theorem tellSynced {m es documents} {log : List Event} (unique : (names (desk log)).Nodup)
    (replayed : replay (written log) = some (desk log)) (tracked : Tracked c.documents (desk log))
    (tell : Tell c m es documents) :
    replay (written (log ++ .wrote m :: es)) = some (desk (log ++ .wrote m :: es)) ∧
      Tracked documents (desk (log ++ .wrote m :: es)) := by
  cases tell with
  | @opened d own unknown =>
    have absent := trackedAbsent tracked unknown
    have desks : desk (log ++ [.wrote (Request.didOpen d), .called (.didOpen d) (.flag true)]) =
        desk log ++ [d] := by
      rw [← placeNew tracked unknown]
      simp [desk, deskStep]
    rw [desks, writtenAppend]
    exact ⟨replayOpened replayed absent, trackedOpened tracked unknown⟩
  | @changed uri text version known =>
    obtain ⟨d, found, same⟩ := trackedVersion tracked known
    have desks : desk (log ++ [.wrote (Request.didChange uri (version + 1) text),
        .called (.didChange uri text) (.flag true)]) =
        revise uri text (fun _ => version + 1) (desk log) := by
      rw [← amendRevise tracked text unique known]
      simp [desk, deskStep]
    rw [desks, writtenAppend]
    exact ⟨replayChanged replayed found (same ▸ versionNext d.version), trackedChanged tracked text known⟩
  | @closed uri known =>
    have present := trackedPresent tracked known
    have desks : desk (log ++ [.wrote (Request.didClose uri), .called (.didClose uri) (.flag true)]) =
        (desk log).filter fun d => d.uri != uri := by
      simp [desk, deskStep, clear]
    rw [desks, writtenAppend]
    exact ⟨replayClosed replayed present, trackedClosed tracked uri⟩
  | @pulled a asking =>
    have steady : Steady (.wrote (Request.diagnostic a.id a.uri) ::
        (a.news ++ [.called (.pull a.name a.uri) .nothing])) :=
      steadyCons.mpr ⟨by simp, steadyAppend.mpr ⟨muteSteady (muteNews a), by simp [Steady]⟩⟩
    have wire : written (.wrote (Request.diagnostic a.id a.uri) ::
        (a.news ++ [.called (.pull a.name a.uri) .nothing])) = [Request.diagnostic a.id a.uri] := by
      rw [← List.singleton_append, writtenAppend, writtenAppend, muteWritten (muteNews a)]
      rfl
    rw [steadyDesk steady, writtenAppend, wire, replaySilent rfl]
    exact ⟨replayed, tracked⟩

theorem readySynced {id : Int} (synced : Synced c) (starting : c.phase = .starting)
    (awaited : c.link = .handshake id) :
    replay (written c.log ++ (Request.initialized :: c.queued.map Request.didOpen)) =
      some (desk c.log) := by
  have unflushed := synced.unflushed (.inr starting) (.inr ⟨id, awaited⟩)
  obtain ⟨queued, _, replayed⟩ := synced.early (.inr starting) unflushed
  have greeted := (replaySilent Notice.readReady).trans replayed
  have opened := replayOpens greeted (by simpa using deskUnique c.log)
  rw [queued]
  simpa using opened

theorem cutSynced {id : Int} {first rest : List Message} {m : Message} (synced : Synced c)
    (starting : c.phase = .starting) (awaited : c.link = .handshake id)
    (split : Request.initialized :: c.queued.map Request.didOpen = first ++ m :: rest) :
    ∃ replica, replay (written c.log ++ first) = some replica := by
  have whole := readySynced synced starting awaited
  rw [split, ← List.append_assoc, replayAppend] at whole
  cases cut : replay (written c.log ++ first) with
  | none => simp [cut] at whole
  | some replica => exact ⟨replica, rfl⟩

theorem cutUnflushed {queued : List TextDocument} {first rest : List Message} {m : Message} {es : List Event}
    (split : Request.initialized :: queued.map Request.didOpen = first ++ m :: rest)
    (unflushed : Unflushed (first.map .wrote ++ es)) : first = [] := by
  cases first with
  | nil => rfl
  | cons n first =>
    obtain ⟨rfl, _⟩ := List.cons.inj split
    simp [Unflushed] at unflushed

theorem saidSynced (piped : Piped c) (synced : Synced c) (ungreeted : after.Ungreeted → c.Ungreeted)
    (said : Said c after) : Synced after := by
  cases said with
  -- the phase may pass from created to starting here: the queue is the desk in both
  | nothing log mute still closed course =>
    have wire := replaySame log (muteWritten mute)
    rcases course with past | ⟨phase, queued, documents⟩
    · obtain ⟨replica, replayed⟩ := synced.replayed
      exact overSynced past (wire.trans replayed)
    · refine stillSynced synced log wire (muteSteady mute)
        (fun early => ⟨muteUnflushed mute, ?_, queued, documents⟩) ungreeted fun running _ => ⟨?_, documents⟩
      · rcases phase with same | ⟨created, _⟩
        · simpa [Early, same] using early
        · exact .inl created
      · rcases phase with same | ⟨_, starting⟩
        · exact same ▸ running
        · simp [starting] at running
  | @stuck first m last log mute shut opened early =>
    have wire := replaySame log (lostWritten m mute)
    have steady : Steady (first ++ .lost m :: last) := lostSteady m mute
    refine stillSynced synced log wire steady (fun before => ?_) ungreeted fun running lossless => ?_
    · obtain ⟨phase, queued, documents⟩ := early before
      exact ⟨lostUnflushed m mute, by simpa [Early, phase] using before, queued, documents⟩
    · exact absurd (by simp [log]) (lossless m)
  | edited edit log same link phase => exact editedSynced synced edit log phase ungreeted
  | told running pipe tell log opened phase =>
    obtain ⟨replayed, tracked⟩ := synced.running running (piped.clear pipe)
    obtain ⟨replayed', tracked'⟩ := tellSynced (deskUnique c.log) replayed tracked tell
    rw [← log] at replayed' tracked'
    have late := runningLate phase
    exact ⟨fun early => absurd early late, fun early => absurd early late, fun _ _ => ⟨replayed', tracked'⟩,
      _, replayed'⟩
  | @replied id method params pipe log opened phase topic queued documents =>
    obtain ⟨result, error, reply⟩ := replyResponse id method params
    have silent : Notice.read? (Router.replyTo id method params) = none := by rw [reply]; rfl
    exact stillSynced synced log (replayOne log rfl silent) (by simp [Steady])
      (fun early => ⟨by simp [Unflushed, reply, Request.initialized], by simpa [Early, phase] using early,
        queued, documents⟩) ungreeted fun running _ => ⟨phase ▸ running, documents⟩
  | introduced unopened starting log opened phase queued documents =>
    exact stillSynced synced log (replayOne log rfl rfl) (by simp [Steady])
      (fun _ => ⟨by simp [Unflushed, Request.introduce, Request.initialized], .inr starting, queued, documents⟩)
      ungreeted fun running _ => by simp [phase] at running
  | ready starting awaited pipe log opened phase documents =>
    have unflushed := synced.unflushed (.inr starting) (.inr ⟨_, awaited⟩)
    obtain ⟨_, tracked, _⟩ := synced.early (.inr starting) unflushed
    have desks : desk after.log = desk c.log := by
      rw [log]
      exact steadyDesk (heardSteady (by simp [Steady])) c.log
    have replayed : replay (written after.log) = some (desk after.log) := by
      rw [desks, ← readySynced synced starting awaited, log, writtenAppend, heardWritten rfl]
    rw [← documents, ← desks] at tracked
    have late := runningLate phase
    exact ⟨fun early => absurd early late, fun early => absurd early late, fun _ _ => ⟨replayed, tracked⟩,
      _, replayed⟩
  | @readyLost id result first m rest failure starting awaited clear split log shut opened phase link queued
      documents =>
    obtain ⟨replica, replayed⟩ := cutSynced synced starting awaited split
    have wire : replay (written after.log) = some replica := by
      rw [log, writtenAppend, heardWritten rfl]
      exact replayed
    refine ⟨fun _ unflushed => ?_, fun _ ungreeted => ?_, fun running => ?_, _, wire⟩
    · rw [log, unflushedAppend, List.cons_append, ← List.singleton_append, unflushedAppend] at unflushed
      have none := cutUnflushed split unflushed.2.2
      have desks : desk after.log = desk c.log := by
        rw [log, none]
        exact steadyDesk (by simp [Steady]) c.log
      have wire : written after.log = written c.log := by simp [log, none, written]
      rw [queued none, documents, desks, wire]
      exact synced.early (.inr starting) (synced.unflushed (.inr starting) (.inr ⟨id, awaited⟩))
    · simp [Ungreeted, Unopened, link] at ungreeted
    · cases phase.symm.trans running
  | shutdown registered stopping pipe log opened phase =>
    obtain ⟨replica, replayed⟩ := synced.replayed
    exact overSynced (.inl phase) ((replayOne log rfl rfl).trans replayed)
  | exit waiting answered pipe log opened phase =>
    obtain ⟨replica, replayed⟩ := synced.replayed
    exact overSynced (.inl phase) ((replayOne log rfl rfl).trans replayed)

theorem saidGrows (said : Said c after) : ∃ es, after.log = c.log ++ es := by
  cases said with
  | nothing log | stuck log | edited _ log | told _ _ _ log | replied _ log | introduced _ _ log
    | ready _ _ _ log | readyLost _ _ _ _ log | shutdown _ _ _ log | exit _ _ _ log => exact ⟨_, log⟩

theorem saidUnflushed (unflushed : c.Early → Unflushed c.log) (lossless : Lossless after.log)
    (said : Said c after) (early : after.Early) : Unflushed after.log := by
  have same (phase : after.phase = c.phase) : c.Early := by simpa [Early, phase] using early
  cases said with
  | nothing log mute _ _ course =>
    obtain ⟨phase, _⟩ := course.resolve_left fun past => overEarly past early
    refine log ▸ unflushedAppend.mpr ⟨unflushed ?_, muteUnflushed mute⟩
    rcases phase with kept | ⟨created, _⟩
    · exact same kept
    · exact .inl created
  | @stuck _ m _ log => exact absurd (by simp [log]) (lossless m)
  | @readyLost _ _ _ m _ _ _ _ _ _ log => exact absurd (by simp [log]) (lossless m)
  | edited _ log _ _ phase =>
    exact log ▸ unflushedAppend.mpr ⟨unflushed (same phase), by simp [Unflushed]⟩
  | @replied id method params _ log _ phase =>
    obtain ⟨result, error, reply⟩ := replyResponse id method params
    exact log ▸ unflushedAppend.mpr ⟨unflushed (same phase), by simp [Unflushed, reply, Request.initialized]⟩
  | introduced _ starting log =>
    exact log ▸ unflushedAppend.mpr ⟨unflushed (.inr starting),
      by simp [Unflushed, Request.introduce, Request.initialized]⟩
  | told _ _ _ _ _ running | ready _ _ _ _ _ running => exact absurd early (runningLate running)
  | shutdown _ _ _ _ _ stopping | exit _ _ _ _ _ stopping => exact absurd early (overEarly (.inl stopping))

theorem reachedUnflushed (reached : Reached config nextId c) (early : c.Early) (lossless : Lossless c.log) :
    Unflushed c.log := by
  induction reached with
  | new => simp [Unflushed, new]
  | turn before turn ih =>
    have said := reachedSaid before turn
    obtain ⟨es, log⟩ := saidGrows said
    exact saidUnflushed (fun early => ih early (losslessAppend.mp (log ▸ lossless)).1) lossless said early

theorem newSynced (config : Config) (nextId : Int) : Synced (new config nextId) where
  early _ _ := ⟨rfl, fun _ => rfl, rfl⟩
  unflushed _ _ := by simp [Unflushed, new]
  running running := nomatch running
  replayed := ⟨[], rfl⟩

theorem reachedSynced (reached : Reached config nextId c) : Synced c := by
  induction reached with
  | new => exact newSynced config nextId
  | turn before turn ih =>
    have ungreeted := turnUngreeted (reachedCoherent before) turn
    exact saidSynced (reachedPiped before) ih ungreeted (reachedSaid before turn)

end LspClient.Client
