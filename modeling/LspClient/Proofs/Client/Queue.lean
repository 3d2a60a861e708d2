import LspClient.Proofs.Client.Aftermath
import LspClient.Proofs.Client.Faithful

/-! The queue of documents that wait to be announced. Until the client says that it is ready each tracked document
waits in it once, the longest open first, with all that was changed since; once the client runs it is empty. So a
change that is accepted is folded into its document, or written at once, and is lost only with a start that
fails: that drops the queue, and so does a flush that cannot be written to its end, before the client stops. -/
namespace LspClient.Client
open TextDocument

variable {config : Config} {nextId : Int} {c after : Client}

def ClosedAgain (log : List Event) (uri : String) : Prop :=
  ∀ before d since, log = before ++ .called (.didOpen d) (.flag true) :: since → d.uri = uri →
    .called (.didClose uri) (.flag true) ∈ since

/-- The period for which a document is open: what was before, the opening that began it, and all since then. To open
the document again does not begin another. -/
structure Period (log before : List Event) (d : TextDocument) (since : List Event) : Prop where
  split : log = before ++ .called (.didOpen d) (.flag true) :: since
  new : ClosedAgain before d.uri
  unclosed : .called (.didClose d.uri) (.flag true) ∉ since

def OpenSince (log : List Event) (d : TextDocument) (n : Nat) : Prop :=
  ∃ before first since, Period log before first since ∧ before.length = n ∧ d = edited first since

section
variable {log before since before' since' : List Event} {d d' : TextDocument} {e : Event} {m n : Nat}

theorem editUri (d : TextDocument) (e : Event) : (edit d e).uri = d.uri := by
  unfold edit
  split
  · split <;> rfl
  · rfl

theorem editedUri (d : TextDocument) (es : List Event) : (edited d es).uri = d.uri := by
  induction es generalizing d with
  | nil => rfl
  | cons e rest ih => exact (ih (edit d e)).trans (editUri d e)

theorem periodApart {first : List Event} (period : Period log before d since)
    (later : ClosedAgain (before ++ .called (.didOpen d) (.flag true) :: first) d.uri)
    (inside : since = first ++ .called (.didOpen d') (.flag true) :: since') : False := by
  have closed := later before d first rfl rfl
  exact period.unclosed (inside ▸ List.mem_append_left _ closed)

theorem periodOnce (period : Period log before d since) (other : Period log before' d' since')
    (same : d.uri = d'.uri) : before = before' := by
  -- the two openings are one event of the log, or the later of them lies in the period of the earlier
  rcases splitAppend (period.split.symm.trans other.split) with ⟨short, inside, start⟩ | ⟨first, start, rest⟩
  · exact (periodApart other (start ▸ same ▸ period.new) inside).elim
  · cases first with
    | nil => exact (start.trans (List.append_nil before)).symm
    | cons e first =>
      obtain ⟨rfl, inside⟩ := List.cons.inj rest
      exact (periodApart period (start ▸ same.symm ▸ other.new) inside).elim

theorem openOnce (one : OpenSince log d m) (two : OpenSince log d n) : m = n := by
  obtain ⟨before, first, since, period, rfl, now⟩ := one
  obtain ⟨before', first', since', period', rfl, now'⟩ := two
  have same : first.uri = first'.uri := by rw [← editedUri first since, ← now, now', editedUri]
  rw [periodOnce period period' same]

theorem openWithin (opened : OpenSince log d n) : n < log.length := by
  obtain ⟨before, first, since, period, rfl, _⟩ := opened
  rw [period.split, List.length_append, List.length_cons]
  omega

theorem openLater (opened : OpenSince log d n) (kept : e ≠ .called (.didClose d.uri) (.flag true)) :
    OpenSince (log ++ [e]) (edit d e) n := by
  obtain ⟨before, first, since, ⟨split, new, unclosed⟩, length, rfl⟩ := opened
  rw [editedUri] at kept
  refine ⟨before, first, since ++ [e], ⟨by simp [split], new, ?_⟩, length, ?_⟩
  · simpa [unclosed] using kept.symm
  · rw [edited, edited, List.foldl_append]
    rfl

theorem absentClosed {uri : String} (absent : look uri (desk log) = none) : ClosedAgain log uri := by
  rintro before d since split rfl
  -- a document that was placed stays on the desk until it is closed
  refine Decidable.byContradiction fun unclosed => ?_
  have placed : look d.uri (desk (before ++ [.called (.didOpen d) (.flag true)])) =
      some ((look d.uri (desk before)).getD d) := by
    rw [deskAppend]
    exact placeHolds d (desk before)
  have found := lookSteps placed unclosed
  rw [List.append_assoc, List.singleton_append, ← split, absent] at found
  cases found

theorem openNow (absent : look d.uri (desk log) = none) :
    OpenSince (log ++ [.called (.didOpen d) (.flag true)]) d log.length :=
  ⟨log, d, [], ⟨rfl, absentClosed absent, by simp⟩, rfl, rfl⟩

end

def newcomers (ds : List TextDocument) : Event → List TextDocument
  | .called (.didOpen d) (.flag true) => if (look d.uri ds).isSome then [] else [d]
  | _ => []

theorem unclosedAll {e : Event} (other : ∀ uri, e ≠ .called (.didClose uri) (.flag true)) (ds : List TextDocument) :
    (ds.filter fun d => e ≠ .called (.didClose d.uri) (.flag true)) = ds :=
  List.filter_eq_self.mpr fun d _ => decide_eq_true (other d.uri)

theorem deskStepParts (ds : List TextDocument) (e : Event) : deskStep ds e =
    (ds.filter fun d => e ≠ .called (.didClose d.uri) (.flag true)).map (edit · e) ++ newcomers ds e := by
  unfold deskStep
  split
  · rename_i d
    have kept : ds.map (edit · (.called (.didOpen d) (.flag true))) = ds := List.map_id ds
    rw [unclosedAll (by simp), kept, place, newcomers]
    split
    · exact (List.append_nil ds).symm
    · rfl
  · rename_i uri text
    have none : newcomers ds (.called (.didChange uri text) (.flag true)) = [] := rfl
    rw [unclosedAll (by simp), none, List.append_nil, amend, revise]
    exact List.map_congr_left fun d _ => by simp only [edit, eq_comm]
  · rename_i uri
    have kept (ds : List TextDocument) : ds.map (edit · (.called (.didClose uri) (.flag true))) = ds := List.map_id ds
    have none : newcomers ds (.called (.didClose uri) (.flag true)) = [] := rfl
    rw [kept, none, List.append_nil, clear]
    exact List.filter_congr fun d _ => by by_cases own : d.uri = uri <;> simp [own, Ne.symm]
  · rename_i unopened unchanged unclosed
    have kept (d : TextDocument) : edit d e = d := by
      unfold edit
      split
      · exact absurd rfl (unchanged _ _)
      · rfl
    have none : newcomers ds e = [] := by
      unfold newcomers
      split
      · exact absurd rfl (unopened _)
      · rfl
    rw [unclosedAll fun uri same => unclosed uri same, none, List.append_nil]
    simp only [kept, List.map_id']

section
variable {log : List Event} {e : Event}

theorem newcomerOpens {d : TextDocument} (new : d ∈ newcomers (desk log) e) :
    OpenSince (log ++ [e]) d log.length := by
  unfold newcomers at new
  split at new
  · split at new
    · cases new
    · rename_i absent
      cases List.mem_singleton.mp new
      exact openNow (Option.not_isSome_iff_eq_none.mp absent)
  · cases new

theorem newcomerAlone (R : TextDocument → TextDocument → Prop) (ds : List TextDocument) (e : Event) :
    (newcomers ds e).Pairwise R := by
  unfold newcomers
  split
  · split
    · exact .nil
    · exact List.pairwise_singleton R _
  · exact .nil

structure Ranked (log : List Event) : Prop where
  opened : ∀ d ∈ desk log, ∃ n, OpenSince log d n
  order : (desk log).Pairwise fun d e => ∃ m n, OpenSince log d m ∧ OpenSince log e n ∧ m < n

theorem rankedStep (ranked : Ranked log) (e : Event) : Ranked (log ++ [e]) := by
  have parts := (deskAppend log e).trans (deskStepParts (desk log) e)
  constructor
  · intro d member
    rw [parts] at member
    rcases List.mem_append.mp member with old | new
    · obtain ⟨q, stays, rfl⟩ := List.mem_map.mp old
      obtain ⟨lay, kept⟩ := List.mem_filter.mp stays
      obtain ⟨n, opened⟩ := ranked.opened q lay
      exact ⟨n, openLater opened (of_decide_eq_true kept)⟩
    · exact ⟨_, newcomerOpens new⟩
  · rw [parts, List.pairwise_append, List.pairwise_map, List.pairwise_filter]
    refine ⟨ranked.order.imp ?_, newcomerAlone _ _ e, ?_⟩
    · rintro d q ⟨m, n, first, second, less⟩ kept kept'
      exact ⟨m, n, openLater first (of_decide_eq_true kept), openLater second (of_decide_eq_true kept'), less⟩
    -- the new document begins with this event, all others began with an earlier one
    · intro d old q new
      obtain ⟨r, stays, rfl⟩ := List.mem_map.mp old
      obtain ⟨lay, kept⟩ := List.mem_filter.mp stays
      obtain ⟨m, opened⟩ := ranked.opened r lay
      exact ⟨m, log.length, openLater opened (of_decide_eq_true kept), newcomerOpens new, openWithin opened⟩

theorem deskRanked (log : List Event) : Ranked log := by
  induction log using List.reverseRecOn with
  | nil => exact ⟨nofun, .nil⟩
  | append_singleton log e ih => exact rankedStep ih e

theorem deskOrder (log : List Event) :
    (desk log).Pairwise fun d e => ∀ m n, OpenSince log d m → OpenSince log e n → m < n := by
  refine (deskRanked log).order.imp ?_
  rintro d e ⟨m, n, first, second, less⟩ m' n' first' second'
  rwa [openOnce first' first, openOnce second' second]

end

def Drained (c : Client) : Prop := c.phase = .running → c.queued = []

theorem calledDrained {call answer} (drained : Drained c) (done : Called c call answer after) : Drained after := by
  cases done with
  | openQueued _ early | changeQueued early => exact fun running => absurd early (runningLate running)
  | closeUnsent idle => exact fun running => absurd running idle
  | start | stopUnstarted | drop => exact nofun
  | _ => exact drained

theorem triedDrained (m : Message) (drained : Drained c) : Drained (c.tried m) := by
  rw [Drained, triedPhase, triedSame Client.queued m c rfl rfl]
  exact drained

theorem takenDrained {m : Message} (drained : Drained c) (taken : Taken c m after) : Drained after := by
  cases taken with
  | request => exact triedDrained _ drained
  | readyLost _ starting => exact fun running => nomatch starting.symm.trans running
  | ready => exact fun _ => rfl
  | _ => exact drained

theorem turnDrained (drained : Drained c) (turn : Turn c after) : Drained after := by
  cases turn with
  | host held free done =>
    have kept := calledDrained drained done
    exact kept
  | @taken s rest m _ listening server hearing =>
    exact takenDrained (c := (c.readOn s rest).note (.heard m)) drained hearing
  | exitTold => exact triedDrained Request.exit drained
  | gaveUp | finished | shutdownOpened | shutdownShut => exact nofun
  | _ => exact drained

theorem reachedDrained (reached : Reached config nextId c) : Drained c := by
  induction reached with
  | new => exact nofun
  | turn before turn ih => exact turnDrained ih turn

theorem flushedFailing (reached : Reached config nextId c.quiet) (early : c.Early) (flushed : ¬ Unflushed c.deeds) :
    c.phase = .starting ∧ ∃ failure, c.link = .failing failure := by
  have coherent := quietCoherent (reachedCoherent reached)
  have greeted : ¬ c.Ungreeted := fun ungreeted =>
    flushed ((reachedSynced reached).unflushed early ungreeted)
  rcases early with created | starting
  · exact absurd (.inl (.inl (coherent.created created).1)) greeted
  rcases (coherent.starting starting).2 with ⟨launch | launched, _⟩ | ⟨awaited, _⟩ | failing
  · exact absurd (.inl (.inr (.inl launch))) greeted
  · exact absurd (.inl (.inr (.inr launched))) greeted
  · exact absurd (.inr awaited) greeted
  · exact ⟨starting, failing⟩

section
variable {uri text : String}

def Folded (uri text : String) (ds later : List TextDocument) : Prop :=
  ∃ front d back, ds = front ++ d :: back ∧ d.uri = uri ∧
    later = front ++ {d with version := d.version + 1, text := text} :: back

theorem foldChangeAt {front back : List TextDocument} {d : TextDocument} (version : Int32) (text : String)
    (away : ∀ q ∈ front, q.uri ≠ d.uri) : foldChange d.uri version text (front ++ d :: back) =
      front ++ {d with version := version, text := text} :: back := by
  induction front with
  | nil => exact if_pos rfl
  | cons q front ih =>
    obtain ⟨other, away⟩ := List.forall_mem_cons.mp away
    rw [List.cons_append, foldChange, if_neg other, ih away]
    rfl

theorem foldChangeFolded {ds : List TextDocument} {d : TextDocument} (text : String) (found : look uri ds = some d) :
    Folded uri text ds (foldChange uri (d.version + 1) text ds) := by
  obtain ⟨own, front, back, split, away⟩ := List.find?_eq_some_iff_append.mp found
  have own : d.uri = uri := by simpa using own
  subst own
  refine ⟨front, d, back, split, rfl, ?_⟩
  rw [split]
  exact foldChangeAt _ text fun q member => by simpa using away q member

theorem changeKept (reached : Reached config nextId c.quiet)
    (accepted : (c.hostCall (.didChange uri text)).2 = .flag true) :
    c.Early ∧ (Unflushed c.deeds → Folded uri text c.queued (c.hostCall (.didChange uri text)).1.queued) ∨
      c.phase = .running ∧ ∃ version, c.documents.get? uri = some version ∧
        (c.hostCall (.didChange uri text)).1.sent = c.sent ++ [Request.didChange uri (version + 1) text] := by
  obtain ⟨held, free⟩ := answeredFree accepted nofun
  obtain ⟨after, done, same⟩ := @documentCalled c (.didChange uri text) uri rfl held free
  have queued := congrArg Client.queued same
  simp only [quiet, note] at queued
  have sent : (c.hostCall (.didChange uri text)).1.sent = written after.log := by
    rw [← sentQuiet, same]
    exact (writtenAppend after.log _).trans (List.append_nil _)
  rw [accepted] at done
  rw [queued, sent]
  cases done with
  | changeQueued early known =>
    refine .inl ⟨early, fun unflushed => ?_⟩
    obtain ⟨lies, tracked, _⟩ := (reachedSynced reached).early early unflushed
    obtain ⟨d, found, rfl⟩ := trackedVersion tracked known
    exact foldChangeFolded text (lies ▸ found)
  | @changeSent _ _ version running known clear =>
    refine .inr ⟨running, version, known, ?_⟩
    rw [← sentQuiet c]
    exact writtenAppend c.deeds _

theorem changeAccepted (reached : Reached config nextId c.quiet) (held : c.held = true) (early : c.Early)
    (uri text : String) : (c.hostCall (.didChange uri text)).2 = .flag (c.documents.get? uri).isSome := by
  have free : c.asking = none := unaskedPhase (quietCoherent (reachedCoherent reached)) (runningLate · early)
  obtain ⟨after, done, _⟩ := @documentCalled c (.didChange uri text) uri rfl held free
  generalize (c.hostCall (.didChange uri text)).2 = answer at done
  cases done with
  | changeUnknown unknown =>
    have unknown : c.documents.get? uri = none := unknown
    rw [unknown, Option.isSome_none]
  | changeQueued _ known =>
    have known : c.documents.get? uri = some _ := known
    rw [known, Option.isSome_some]
  | changeOver past => exact absurd past (goingOn (.inl early))
  | changeSent running | changeLost running => exact absurd early (runningLate running)

end

structure Waiting (config : Config) (c : Client) : Prop where
  unique : (names c.queued).Nodup
  tracked : ∀ uri, uri ∈ names c.queued ↔ c.documents.get? uri ≠ none
  version : ∀ d ∈ c.queued, c.documents.get? d.uri = some d.version
  opened : ∀ d ∈ c.queued, ∃ n, OpenSince c.deeds d n
  order : c.queued.Pairwise fun d e => ∀ m n, OpenSince c.deeds d m → OpenSince c.deeds e n → m < n
  own : ∀ d ∈ c.queued, config.selector.accepts d = true

structure InLine (config : Config) (c : Client) : Prop where
  waiting : c.Early → Unflushed c.deeds → Waiting config c
  -- with a flush that was cut off the start has failed, and the receiving side is about to say so
  torn : c.Early → ¬ Unflushed c.deeds →
    (c.perform .giveUp).phase = .stopped ∧ ∀ more, (c.play more).phase ≠ .running
  running : c.phase = .running → c.queued = []
  failed : StartFailed c.deeds → c.queued = []
  states : c.held = true → c.Early ∨ c.phase = .running ∨ StartFailed c.deeds
  accepts : c.held = true → c.Early → ∀ uri text,
    (c.hostCall (.didChange uri text)).2 = .flag (c.documents.get? uri).isSome
  -- what is accepted is folded into a document that waits, or written
  kept : ∀ uri text, (c.hostCall (.didChange uri text)).2 = .flag true →
    c.Early ∧ (Unflushed c.deeds → Folded uri text c.queued (c.hostCall (.didChange uri text)).1.queued) ∨
      c.phase = .running ∧ ∃ version, c.documents.get? uri = some version ∧
        (c.hostCall (.didChange uri text)).1.sent = c.sent ++ [Request.didChange uri (version + 1) text]
  -- what waits is written, in the order of the queue, when the client begins to run
  announced : ∀ move, c.phase ≠ .running → (c.perform move).phase = .running →
    (c.perform move).sent = c.sent ++ Request.initialized :: c.queued.map Request.didOpen

theorem earlyWaiting (reached : Reached config nextId c.quiet) (early : c.Early) (unflushed : Unflushed c.deeds) :
    Waiting config c := by
  obtain ⟨lies, tracked, _⟩ := (reachedSynced reached).early early unflushed
  have lies : c.queued = desk c.deeds := lies
  have tracked : Tracked c.documents c.queued := lies ▸ tracked
  have unique : (names c.queued).Nodup := lies ▸ deskUnique c.deeds
  exact {
    unique := unique
    tracked := fun uri => by
      rw [tracked uri, Ne, Option.map_eq_none_iff, lookNone, Decidable.not_not]
    version := fun d member => by
      rw [tracked d.uri, lookMember unique member]
      rfl
    opened := lies ▸ (deskRanked c.deeds).opened
    order := lies ▸ deskOrder c.deeds
    own := lies ▸ deskAccepted (reachedAccepting reached) }

theorem flushTorn (reached : Reached config nextId c.quiet) (early : c.Early) (flushed : ¬ Unflushed c.deeds) :
    (c.perform .giveUp).phase = .stopped ∧ ∀ more, (c.play more).phase ≠ .running := by
  obtain ⟨starting, failure, failing⟩ := flushedFailing reached early flushed
  refine ⟨?_, deafenedIdle reached (.inr ⟨failure, failing⟩) (by simp [starting])⟩
  have failed : c.perform .giveUp = c.failStart failure := by rw [perform, giveUp, failing]
  rw [failed]
  rfl

theorem heldStates (reached : Reached config nextId c.quiet) (held : c.held = true) :
    c.Early ∨ c.phase = .running ∨ StartFailed c.deeds := by
  cases phase : c.phase with
  | created => exact .inl (.inl phase)
  | starting => exact .inl (.inr phase)
  | running => exact .inr (.inl rfl)
  | stopping =>
    have coherent := reachedCoherent reached
    exact absurd (coherent.held held) (stoppingBusy coherent phase)
  | stopped => exact .inr (.inr (reachedStops (c := c.quiet) reached held phase))

theorem inLine (config : Config) (nextId : Int) (moves : List Move) :
    InLine config ((new config nextId).play moves) := by
  have reached := playReached config nextId moves
  generalize (new config nextId).play moves = c at reached
  exact {
    waiting := earlyWaiting reached
    torn := flushTorn reached
    running := fun running => reachedDrained (c := c.quiet) reached running
    failed := fun ⟨failure, member⟩ => by
      obtain ⟨_, _, queued⟩ := ((reachedDecided reached).failed _ member).resolve_left nofun
      exact queued
    states := heldStates reached
    accepts := changeAccepted reached
    kept := fun uri text => changeKept reached
    announced := fun move idle running => by
      have running : (c.perform move).quiet.phase = .running := running
      rw [← sentQuiet, ← sentQuiet c]
      exact (turnAnnounces (c := c.quiet) idle running (reachedTurn reached move)).2 }

def flushCut : Client := (new sampleConfig 1).play [.host (.didOpen sampleDocument), .host (.start none), .spawn,
  .introduce, .server (.endsInput 1), .server (.writes (Message.response 1 none none).octets), .take]

def changedThenRefused : List Move := [.host (.didOpen sampleDocument),
  .host (.didChange sampleDocument.uri "z"), .host (.start none), .spawn, .introduce, .server (.writes
    (Message.response 1 none (some ⟨-32603, "no", none⟩)).octets), .take, .giveUp]

/-- A tracked document does not wait when the flush was cut off, nor does a change that is still accepted; and
one that was folded into its document goes with a start that fails. -/
theorem cutOffForgets : (flushCut.held = true ∧ flushCut.phase = .starting ∧ flushCut.queued = [] ∧
    flushCut.documents.get? sampleDocument.uri = some 1 ∧
    (flushCut.hostCall (.didChange sampleDocument.uri "z")).2 = .flag true ∧
    (flushCut.hostCall (.didChange sampleDocument.uri "z")).1.queued = [] ∧
    (flushCut.hostCall (.didChange sampleDocument.uri "z")).1.sent = flushCut.sent) ∧
    .called (.didChange sampleDocument.uri "z") (.flag true) ∈
      ((new sampleConfig 1).play changedThenRefused).deeds ∧
    ((new sampleConfig 1).play changedThenRefused).held = true ∧
    ((new sampleConfig 1).play changedThenRefused).queued = [] ∧
    ((new sampleConfig 1).play changedThenRefused).sent = [introduction sampleConfig 1] := by
  decide +kernel

example : ((new sampleConfig 1).play [.host (.didOpen sampleDocument),
    .host (.didOpen ⟨"file:///b.lus", "lustre", 1, "y"⟩), .host (.didClose "file:///a.lus"),
    .host (.didOpen sampleDocument), .host (.start none), .host (.didChange "file:///b.lus" "z")]).queued =
    [⟨"file:///b.lus", "lustre", 2, "z"⟩, sampleDocument] := by
  decide +kernel

end LspClient.Client
