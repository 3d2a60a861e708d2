import LspClient.Proofs.Client.Shelf
import LspClient.Proofs.Peer.Joined

/-! What a client keeps of what the stand-in said. Once it has heard all of it, what lies under a URI are the
findings in the text that the stand-in holds. -/
namespace LspClient.Client
open StandIn (echo hearing attend Attends Publishes noted)

variable {config : Config} {nextId : Int} {c after : Client} {log : List Event} {uri : String}

def Closings (log : List Event) : Prop :=
  ∀ before uri rest, log = before ++ .called (.didClose uri) (.flag true) :: rest →
    (∃ first, before = first ++ [.wrote (Request.didClose uri)]) ∨ replay (written before) = some []

theorem closingsLater {es : List Event} (closings : Closings log)
    (new : ∀ first uri rest, es = first ++ .called (.didClose uri) (.flag true) :: rest →
      (∃ start, log ++ first = start ++ [.wrote (Request.didClose uri)]) ∨
        replay (written (log ++ first)) = some []) : Closings (log ++ es) := by
  intro before uri rest split
  rcases splitAppend split with ⟨short, _, early⟩ | ⟨first, same, late⟩
  · exact closings before uri short early
  · exact same ▸ new first uri rest late

theorem closingsSteady {es : List Event} (closings : Closings log) (steady : Steady es) : Closings (log ++ es) :=
  closingsLater closings fun _ _ _ split => (steady _ (splitMember split) _ rfl).elim

theorem tellClosings {m es documents} (closings : Closings log) (tell : Tell c m es documents) :
    Closings (log ++ .wrote m :: es) := by
  refine closingsLater closings fun first uri rest split => ?_
  cases tell with
  | closed =>
    rcases splitPair split with ⟨_, other, _⟩ | ⟨first, own, _⟩
    · cases other
    · cases own
      exact .inl ⟨log, by rw [first]⟩
  | opened | changed =>
    rcases splitPair split with ⟨_, other, _⟩ | ⟨_, other, _⟩ <;> cases other
  | @pulled a asking =>
    rcases List.mem_cons.mp (splitMember split) with other | member
    · cases other
    · rcases List.mem_append.mp member with early | last
      · exact nomatch muteNews a _ early
      · cases List.mem_singleton.mp last

theorem editClosings {call queued documents} (closings : Closings log) (edit : Edit c call queued documents)
    (early : c.phase ≠ .running → replay (written log) = some []) :
    Closings (log ++ [.called call (.flag true)]) := by
  refine closingsLater closings fun first uri rest split => ?_
  obtain ⟨none, same, _⟩ := splitOne split
  cases edit with
  | closed idle => exact .inr (by simpa [none] using early idle)
  | again | opened | changed => cases same

theorem saidClosings (synced : Synced c) (unflushed : c.Early → Unflushed c.log) (going : ¬ after.Over)
    (closings : Closings c.log) (said : Said c after) : Closings after.log := by
  cases said with
  | nothing log mute => exact log ▸ closingsSteady closings (muteSteady mute)
  | stuck log mute => exact log ▸ closingsSteady closings (lostSteady _ mute)
  | edited edit log _ _ phase =>
    have early : c.phase ≠ .running → c.Early := by
      intro idle
      rw [Over, phase] at going
      cases now : c.phase with
      | created => exact .inl now
      | starting => exact .inr now
      | running => exact absurd now idle
      | stopping => exact absurd (.inl now) going
      | stopped => exact absurd (.inr now) going
    exact log ▸ editClosings closings edit fun idle =>
      (synced.early (early idle) (unflushed (early idle))).2.2
  | told _ _ tell log => exact log ▸ tellClosings closings tell
  | replied _ log | introduced _ _ log | shutdown _ _ _ log | exit _ _ _ log =>
    exact log ▸ closingsSteady closings (by simp [Steady])
  | ready _ _ _ log | readyLost _ _ _ _ log =>
    exact log ▸ closingsSteady closings (heardSteady (by simp [Steady]))

theorem reachedClosings (reached : Reached config nextId c) (going : ¬ c.Over) (lossless : Lossless c.log) :
    Closings c.log := by
  induction reached with
  | new => exact fun before uri rest split => by simp [new] at split
  | @turn c after before turn ih =>
    have earlier : ¬ c.Over := fun past => going (courseOver past (reachedCourse before turn))
    have said := reachedSaid before turn
    obtain ⟨es, log⟩ := saidGrows said
    have lossless' := (losslessAppend.mp (log ▸ lossless)).1
    exact saidClosings (reachedSynced before) (fun early => reachedUnflushed before early lossless') going
      (ih earlier lossless') said

theorem silentHearings {rest : List Event} (untouched : Untouched log uri rest) :
    ∀ x ∈ hearings rest, ¬ Publishes uri x := by
  rintro x member ⟨params, rfl, names⟩
  obtain ⟨e, own, heard⟩ := List.mem_filterMap.mp member
  obtain ⟨first, last, split⟩ := List.append_of_mem own
  cases e with
  | heard m =>
    cases heard
    exact untouched first _ last _ split (.published (Prod.ext names rfl))
  | _ => cases heard

theorem publishesSame {other text : String} (publishes : Publishes uri (StandIn.publishing other text)) :
    other = uri := by
  obtain ⟨params, same, names⟩ := publishes
  obtain ⟨params', same', names'⟩ := StandIn.publishingNames other text
  cases same.symm.trans same'
  exact names'.symm.trans names

theorem attendsTold {s s' : StandIn} {m x : Message} {replies : List Message} (attends : Attends s m s' replies)
    (told : x ∈ replies) (publishes : Publishes uri x) : x = StandIn.publishing uri (s'.textOf uri) := by
  have foreign {y : Message} (same : x = y) (other : ∀ params,
      y ≠ .notification "textDocument/publishDiagnostics" (some params)) : False := by
    obtain ⟨params, own, _⟩ := publishes
    exact other params (same.symm.trans own)
  cases attends with
  | opened | changed =>
    cases List.mem_singleton.mp told
    rw [publishesSame publishes, StandIn.textOfSet, if_pos rfl]
  | closed =>
    cases List.mem_singleton.mp told
    rw [publishesSame publishes, StandIn.textOfForget, if_pos rfl]
  | greets | pulled => exact (foreign (List.mem_singleton.mp told) nofun).elim
  | ready =>
    rcases List.mem_cons.mp told with log | last
    · exact (foreign log (by simp)).elim
    · exact (foreign (List.mem_singleton.mp last) nofun).elim
  | reply => cases told

theorem numberAlone {e e' : Event} {id : Int} (increasing : (numbers log).Pairwise (· < ·)) (member : e ∈ log)
    (member' : e' ∈ log) (own : e.number? = some id) (own' : e'.number? = some id) : e' = e := by
  obtain ⟨before, rest, split⟩ := List.append_of_mem member
  obtain ⟨early, late⟩ := @numberOnce log before rest e id increasing split (by simp [numbers, own])
  rcases List.mem_append.mp (split ▸ member') with before' | rest'
  · exact absurd (List.mem_filterMap.mpr ⟨e', before', own'⟩) early
  · rcases List.mem_cons.mp rest' with same | rest'
    · exact same
    · exact absurd (List.mem_filterMap.mpr ⟨e', rest', own'⟩) late

section
variable {config : Config} (fair : StandIn.Fair config (written log)) (whole : hearings log = echo (written log))
include fair whole

theorem heardOrigin {before rest : List Event} {x : Message} (split : log = before ++ .heard x :: rest)
    (untouched : Untouched (before ++ [.heard x]) uri rest) :
    ∃ s m s' replies, m ∈ written log ∧ Attends s m s' replies ∧ x ∈ replies ∧
      s'.textOf uri = (hearing (written log)).textOf uri := by
  have said : echo (written log) = hearings before ++ x :: hearings rest := by
    rw [← whole, split, hearingsAppend]
    rfl
  obtain ⟨start, m, later, pre, post, wrote, here, _, last⟩ := StandIn.attendOrigin said
  rw [wrote] at fair ⊢
  have voiced : ∀ n ∈ start ++ m :: later, Voiced config n := fun n member => (fair n member).1
  obtain ⟨voiced, own, voicedLater⟩ : (∀ n ∈ start, Voiced config n) ∧ Voiced config m ∧
      ∀ n ∈ later, Voiced config n := by
    simpa only [List.forall_mem_append, List.forall_mem_cons] using voiced
  have serves := StandIn.hearingServes voiced
  have attends := StandIn.handleVoiced serves.accepts own
  have next : hearing (start ++ [m]) = ((hearing start).handle m).1 := StandIn.hearingAppend start [m]
  have after : hearing (start ++ m :: later) = (attend (hearing (start ++ [m])) later).1 := by
    rw [← StandIn.hearingAppend, List.append_assoc]
    rfl
  refine ⟨hearing start, m, _, _, by simp, attends, here ▸ (by simp), ?_⟩
  have silent := silentHearings untouched
  rw [last] at silent
  rw [after, ← next]
  refine (StandIn.attendText (next ▸ StandIn.attendsServes serves attends) voicedLater fun y member => ?_).symm
  exact silent y (List.mem_append_right _ member)

theorem publishedText {before rest : List Event} {params : Json} {items : List Diagnostic}
    (split : log = before ++ .heard (.notification "textDocument/publishDiagnostics" (some params)) :: rest)
    (names : Diagnostic.published params = (uri, items))
    (untouched : Untouched (before ++ [.heard (.notification "textDocument/publishDiagnostics" (some params))])
      uri rest) : items = noted ((hearing (written log)).textOf uri) := by
  obtain ⟨s, m, s', replies, _, attends, told, text⟩ := heardOrigin fair whole split untouched
  have said := attendsTold attends told ⟨params, rfl, by rw [names]⟩
  rw [text] at said
  injection said with _ same
  rw [Option.some.inj same, StandIn.publishingRead (StandIn.hearingNarrow fair uri)] at names
  exact (Prod.mk.inj names).2.symm

theorem answeredText {before rest : List Event} {id : Int} {name : String} {result : Option Json}
    {items : List Diagnostic} (increasing : (numbers log).Pairwise (· < ·))
    (opened : ∀ id uri, .wrote (Request.diagnostic id uri) ∈ log → ∃ name, .awaits id (.pull name uri) ∈ log)
    (split : log = before ++ .heard (.response id result none) :: rest) (asking : Asking before id name uri)
    (report : Diagnostic.report? (result.getD .null) = some items)
    (untouched : Untouched (before ++ [.heard (.response id result none)]) uri rest) :
    items = noted ((hearing (written log)).textOf uri) := by
  obtain ⟨s, m, s', replies, wrote, attends, told, text⟩ := heardOrigin fair whole split untouched
  have slot : .awaits id (.pull name uri) ∈ log := by
    obtain ⟨_, first, last, early, _⟩ := asking
    simp [split, early]
  have narrow := StandIn.hearingNarrow fair uri
  rw [← text] at narrow ⊢
  cases attends with
  | greets =>
    cases List.mem_singleton.mp told
    exact nomatch numberAlone increasing slot (memWritten.mpr wrote) rfl rfl
  | pulled =>
    cases List.mem_singleton.mp told
    obtain ⟨_, slot'⟩ := opened _ _ (memWritten.mpr wrote)
    injection numberAlone increasing slot slot' rfl rfl with _ owner
    injection owner with _ same
    rw [same] at report
    exact Option.some.inj (report.symm.trans (StandIn.reportingRead narrow))
  | opened | changed | closed => cases List.mem_singleton.mp told
  | ready => simp [StandIn.afterInitialized] at told
  | reply => cases told

theorem silentText {before rest : List Event} (heeds : Heeds log) (split : log = before ++ rest)
    (untouched : Untouched before uri rest) :
    (hearing (written log)).textOf uri = (hearing (written before)).textOf uri := by
  obtain ⟨more, early⟩ := heeds before ⟨rest, split.symm⟩
  have wrote : written log = written before ++ written rest := by rw [split, writtenAppend]
  have voiced : ∀ m ∈ written before ++ written rest, Voiced config m := fun m member =>
    (fair m (wrote ▸ member)).1
  obtain ⟨first, last⟩ := List.forall_mem_append.mp voiced
  have heard : hearings before ++ hearings rest =
      hearings before ++ (more ++ (attend (hearing (written before)) (written rest)).2) := by
    rw [← hearingsAppend, ← split, whole, wrote, StandIn.echoAppend, ← early, List.append_assoc]
  have silent := silentHearings untouched
  rw [List.append_cancel_left heard] at silent
  rw [wrote, StandIn.hearingAppend]
  exact StandIn.attendText (StandIn.hearingServes first) last fun x member =>
    silent x (List.mem_append_right _ member)

theorem closedText {before rest : List Event} (heeds : Heeds log) (closings : Closings log)
    (split : log = before ++ .called (.didClose uri) (.flag true) :: rest)
    (untouched : Untouched (before ++ [.called (.didClose uri) (.flag true)]) uri rest) :
    (hearing (written log)).textOf uri = "" := by
  have early : written (before ++ [.called (.didClose uri) (.flag true)]) = written before := by
    rw [writtenAppend]
    exact List.append_nil _
  have voiced : ∀ m ∈ written before, Voiced config m := by
    intro m member
    refine (fair m ?_).1
    rw [split, writtenAppend]
    exact List.mem_append_left _ member
  rw [silentText fair whole heeds (by rw [split, List.append_assoc]; rfl) untouched, early]
  rcases closings before uri rest split with ⟨first, told⟩ | unopened
  · have last : written before = written first ++ [Request.didClose uri] := by rw [told, writtenAppend]; rfl
    rw [last, StandIn.hearingAppend, attend, attend, StandIn.handleClosed, StandIn.textOfForget, if_pos rfl]
  · rw [StandIn.hearingReplica voiced unopened uri]
    rfl

theorem latestText {entry : Option (List Diagnostic)} (increasing : (numbers log).Pairwise (· < ·))
    (opened : ∀ id uri, .wrote (Request.diagnostic id uri) ∈ log → ∃ name, .awaits id (.pull name uri) ∈ log)
    (heeds : Heeds log) (closings : Closings log) (latest : Latest log uri entry) :
    entry.getD [] = noted ((hearing (written log)).textOf uri) := by
  rcases latest with ⟨untouched, rfl⟩ | ⟨before, e, rest, split, puts, untouched⟩
  · rw [silentText fair whole heeds (List.nil_append log).symm untouched]
    exact StandIn.notedEmpty.symm
  · cases puts with
    | published names => exact publishedText fair whole split names untouched
    | answered asking report => exact answeredText fair whole increasing opened split asking report untouched
    | closed =>
      rw [closedText fair whole heeds closings split untouched]
      exact StandIn.notedEmpty.symm

end

end LspClient.Client
