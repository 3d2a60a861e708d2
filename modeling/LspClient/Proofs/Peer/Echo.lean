import Mathlib.Data.List.Induction
import LspClient.Proofs.Peer.Sendable

/-! What the stand-in says to the messages of a client that has not begun to stop: its echo. The texts it holds
are those of the client's notices, and each of its messages has one origin. -/
namespace LspClient.StandIn
open Client (Voiced Replies introduction)
open TextDocument (look lookAppend lookRevise lookErase)

variable {config : Config} {s : StandIn} {m : Message} {ms : List Message}

def publishing (uri text : String) : Message :=
  .notification "textDocument/publishDiagnostics" (some (.ofFields [
    ("uri", .string uri), ("diagnostics", diagnosticsJson text)]))

def reporting (id : Int) (text : String) : Message :=
  .response id (some (.ofFields [("kind", .string "full"), ("items", diagnosticsJson text)])) none

theorem lookupFilter (uri other : String) (ds : List (String × String)) :
    (ds.filter fun d => d.1 != uri).lookup other = if other = uri then none else ds.lookup other := by
  induction ds with
  | nil => simp
  | cons d ds ih =>
    obtain ⟨name, text⟩ := d
    by_cases gone : name = uri
    · subst gone
      rw [List.filter_cons_of_neg (by simp), ih, List.lookup_cons]
      by_cases same : other = name
      · simp [same]
      · simp [same, beq_false_of_ne same]
    · rw [List.filter_cons_of_pos (by simpa using gone), List.lookup_cons, List.lookup_cons, ih]
      by_cases same : other = name
      · simp [same, gone]
      · simp [beq_false_of_ne same]

theorem textOfSet (s : StandIn) (uri text other : String) :
    (s.setText uri text).textOf other = if other = uri then text else s.textOf other := by
  rw [textOf, setText, List.lookup_cons, lookupFilter]
  by_cases same : other = uri
  · simp [same]
  · simp [beq_false_of_ne same, same, textOf]

theorem textOfForget (s : StandIn) (uri other : String) :
    (s.forget uri).textOf other = if other = uri then "" else s.textOf other := by
  rw [textOf, forget, lookupFilter]
  by_cases same : other = uri
  · simp [same]
  · simp [same, textOf]

inductive Attends (s : StandIn) : Message → StandIn → List Message → Prop where
  | greets {id root name} : Attends s (Request.introduce id root name 0) s [.response id (some greeting) none]
  | ready : Attends s Request.initialized s afterInitialized
  | opened {d} : Attends s (Request.didOpen d) (s.setText d.uri d.text) [publishing d.uri d.text]
  | changed {uri version text} :
      Attends s (Request.didChange uri version text) (s.setText uri text) [publishing uri text]
  | closed {uri} : Attends s (Request.didClose uri) (s.forget uri) [publishing uri ""]
  | pulled {id uri} : Attends s (Request.diagnostic id uri) s [reporting id (s.textOf uri)]
  | reply {m : Message} (reply : m.isReply = true) : Attends s m s []

theorem publishText (s : StandIn) (uri : String) : s.publish uri = publishing uri (s.textOf uri) := rfl

theorem handleOpened (s : StandIn) (d : TextDocument) :
    s.handle (Request.didOpen d) = (s.setText d.uri d.text, [publishing d.uri d.text]) := by
  rw [Notice.openedFields]
  simp [handle, notice, documentUri?, openedText?, Json.field?, Json.string?, List.lookup_cons, publishText,
    textOfSet]

theorem handleClosed (s : StandIn) (uri : String) :
    s.handle (Request.didClose uri) = (s.forget uri, [publishing uri ""]) := by
  simp [Request.didClose, handle, notice, documentUri?, Json.ofFields, Json.orderFields, Json.insertField,
    Json.field?, Json.string?, publishText, textOfForget]

theorem handlePulled (s : StandIn) (id : Int) (uri : String) :
    s.handle (Request.diagnostic id uri) = (s, [reporting id (s.textOf uri)]) := by
  simp [Request.diagnostic, handle, answer, documentUri?, Json.ofFields, Json.orderFields, Json.insertField,
    Json.field?, Json.string?, reporting]

theorem handleVoiced (accepts : s.rejects = false) (voiced : Voiced config m) :
    Attends s m (s.handle m).1 (s.handle m).2 := by
  cases voiced with
  | @introduced id =>
    have said : s.handle (introduction config id) = (s, [.response id (some greeting) none]) := by
      simp [introduction, Request.introduce, handle, answer, accepts]
    rw [said]
    exact .greets
  | ready => exact .ready
  | @opened d =>
    rw [handleOpened]
    exact .opened
  | @changed uri version text =>
    have said : s.handle (Request.didChange uri version text) =
        (s.setText uri text, [publishing uri text]) := by
      rw [Notice.changedFields]
      simp [handle, notice, documentUri?, changedText?, Json.field?, Json.string?, List.lookup_cons, publishText,
        textOfSet]
    rw [said]
    exact .changed
  | @closed uri =>
    rw [handleClosed]
    exact .closed
  | @pulled id uri =>
    rw [handlePulled]
    exact .pulled
  | reply reply =>
    cases m with
    | response => exact .reply rfl
    | request | notification => cases reply

def attend : StandIn → List Message → StandIn × List Message
  | s, [] => (s, [])
  | s, m :: ms => ((attend (s.handle m).1 ms).1, (s.handle m).2 ++ (attend (s.handle m).1 ms).2)

theorem attendAppend (s : StandIn) (ms ns : List Message) : attend s (ms ++ ns) =
    ((attend (attend s ms).1 ns).1, (attend s ms).2 ++ (attend (attend s ms).1 ns).2) := by
  induction ms generalizing s with
  | nil => rfl
  | cons m ms ih => simp only [List.cons_append, attend, ih, List.append_assoc]

structure Serves (s : StandIn) : Prop where
  accepts : s.rejects = false
  stays : s.exitCode = none

theorem attendReplies (s : StandIn) (all : Replies ms) : attend s ms = (s, []) := by
  induction ms generalizing s with
  | nil => rfl
  | cons m ms ih =>
    obtain ⟨reply, others⟩ := List.forall_mem_cons.mp all
    cases m with
    | response => rw [attend, ih _ others]; rfl
    | request | notification => cases reply

theorem attendsServes {after : StandIn} {replies : List Message} (serves : Serves s)
    (attends : Attends s m after replies) : Serves after := by
  obtain ⟨accepts, stays⟩ := serves
  cases attends <;> exact ⟨accepts, stays⟩

theorem handleServes (serves : Serves s) (voiced : Voiced config m) : Serves (s.handle m).1 :=
  attendsServes serves (handleVoiced serves.accepts voiced)

theorem attendServes (serves : Serves s) (voiced : ∀ m ∈ ms, Voiced config m) : Serves (attend s ms).1 := by
  induction ms generalizing s with
  | nil => exact serves
  | cons m ms ih =>
    rw [List.forall_mem_cons] at voiced
    exact ih (handleServes serves voiced.1) voiced.2

theorem attendOrigin {first last : List Message} {x : Message} (said : (attend s ms).2 = first ++ x :: last) :
    ∃ before m after pre post, ms = before ++ m :: after ∧
      ((attend s before).1.handle m).2 = pre ++ x :: post ∧ first = (attend s before).2 ++ pre ∧
        last = post ++ (attend (attend s (before ++ [m])).1 after).2 := by
  induction ms generalizing s first with
  | nil => simp [attend] at said
  | cons m ms ih =>
    rcases splitAppend said with ⟨post, whole, here⟩ | ⟨pre, whole, later⟩
    · exact ⟨[], m, ms, first, post, rfl, here, rfl, whole⟩
    · obtain ⟨before, n, after, pre', post, split, here, rfl, rfl⟩ := ih later
      refine ⟨m :: before, n, after, pre', post, by rw [split]; rfl, here, ?_, rfl⟩
      rw [whole, ← List.append_assoc]
      rfl

def Publishes (uri : String) (m : Message) : Prop :=
  ∃ params, m = .notification "textDocument/publishDiagnostics" (some params) ∧
    (Diagnostic.published params).1 = uri

theorem publishingRead {uri text : String} (narrow : Narrow text) :
    Diagnostic.published (.ofFields [("uri", .string uri), ("diagnostics", diagnosticsJson text)]) =
      (uri, noted text) := by
  simp [Diagnostic.published, Diagnostic.listUnder, Json.ofFields, Json.field?, Json.lookupOrder, Json.lookupCons,
    Json.string?, diagnosticsRead narrow]

theorem reportingRead {text : String} (narrow : Narrow text) :
    Diagnostic.report? (.ofFields [("kind", .string "full"), ("items", diagnosticsJson text)]) =
      some (noted text) := by
  simp [Diagnostic.report?, Diagnostic.listUnder, Json.ofFields, Json.field?, Json.lookupOrder, Json.lookupCons,
    Json.string?, diagnosticsRead narrow]

theorem publishingNames (uri text : String) : Publishes uri (publishing uri text) :=
  ⟨_, rfl, by simp [Diagnostic.published, Json.ofFields, Json.field?, Json.lookupOrder, Json.lookupCons,
    Json.string?]⟩

theorem attendsText {after : StandIn} {replies : List Message} {uri : String} (attends : Attends s m after replies)
    (silent : ∀ x ∈ replies, ¬ Publishes uri x) : after.textOf uri = s.textOf uri := by
  have away {other text : String} (silent : ∀ x ∈ [publishing other text], ¬ Publishes uri x) :
      uri ≠ other := by
    rintro rfl
    exact silent _ List.mem_cons_self (publishingNames uri text)
  cases attends with
  | opened | changed => rw [textOfSet, if_neg (away silent)]
  | closed => rw [textOfForget, if_neg (away silent)]
  | greets | ready | pulled | reply => rfl

theorem attendText {uri : String} (serves : Serves s) (voiced : ∀ m ∈ ms, Voiced config m)
    (silent : ∀ x ∈ (attend s ms).2, ¬ Publishes uri x) : (attend s ms).1.textOf uri = s.textOf uri := by
  induction ms generalizing s with
  | nil => rfl
  | cons m ms ih =>
    rw [List.forall_mem_cons] at voiced
    obtain ⟨now, later⟩ := List.forall_mem_append.mp silent
    have attends := handleVoiced serves.accepts voiced.1
    exact (ih (attendsServes serves attends) voiced.2 later).trans (attendsText attends now)

def echo (ms : List Message) : List Message := (attend (fresh false) ms).2

def hearing (ms : List Message) : StandIn := (attend (fresh false) ms).1

theorem freshServes : Serves (fresh false) := ⟨rfl, rfl⟩

theorem hearingServes (voiced : ∀ m ∈ ms, Voiced config m) : Serves (hearing ms) :=
  attendServes freshServes voiced

theorem echoAppend (ms ns : List Message) : echo (ms ++ ns) = echo ms ++ (attend (hearing ms) ns).2 := by
  rw [echo, attendAppend]
  rfl

theorem hearingAppend (ms ns : List Message) : hearing (ms ++ ns) = (attend (hearing ms) ns).1 := by
  rw [hearing, attendAppend]
  rfl

theorem echoPrefix {ns : List Message} (part : ms <+: ns) : echo ms <+: echo ns := by
  obtain ⟨rest, rfl⟩ := part
  rw [echoAppend]
  exact List.prefix_append _ _

def asking : Message :=
  .request 1 "workspace/configuration" (some (.ofFields [
    ("items", .array [.ofFields [("section", .string "lustreLsp")]])]))

structure Carried (x : Message) : Prop where
  asks : ∀ id method params, x = .request id method params → x = asking
  right : ∀ id result error, x = .response id result error → error = none
  same : x.normal = x
  ranged : x.Ranged
  plain : Json.Plain Json.depthLimit x.toJson

def NarrowTexts (s : StandIn) : Prop := ∀ uri, Narrow (s.textOf uri)

theorem narrowEmpty : Narrow "" := nofun

theorem attendsNarrow {after : StandIn} {replies : List Message} (attends : Attends s m after replies)
    (small : (Utf8.ofString m.body).length ≤ Frame.limit) (narrow : NarrowTexts s) : NarrowTexts after := by
  cases attends with
  | opened =>
    have text := smallNarrow (Nat.le_trans (Message.openedLong _) small)
    intro uri
    rw [textOfSet]
    split
    · exact text
    · exact narrow uri
  | changed =>
    have text := smallNarrow (Nat.le_trans (Message.changedLong _ _ _) small)
    intro uri
    rw [textOfSet]
    split
    · exact text
    · exact narrow uri
  | closed =>
    intro uri
    rw [textOfForget]
    split
    · exact narrowEmpty
    · exact narrow uri
  | greets | ready | pulled | reply => exact narrow

theorem publishingCarried {uri text : String} (narrow : Narrow text) : Carried (publishing uri text) where
  asks := nofun
  right := nofun
  same := rfl
  ranged := trivial
  plain := by
    refine Message.noticePlain _ (Json.plainFields ?_)
    simp only [List.forall_mem_cons, List.not_mem_nil, false_imp_iff, implies_true, and_true]
    exact ⟨.string uri, diagnosticsPlain narrow⟩

theorem reportingCarried {id : Int} {text : String} (range : Message.IsId id) (narrow : Narrow text) :
    Carried (reporting id text) where
  asks := nofun
  right _ _ _ same := by cases same; rfl
  same := rfl
  ranged := ⟨range, nofun⟩
  plain := by
    refine Message.resultPlain range (Json.plainFields ?_)
    simp only [List.forall_mem_cons, List.not_mem_nil, false_imp_iff, implies_true, and_true]
    exact ⟨.string _, diagnosticsPlain narrow⟩

theorem greetingCarried {id : Int} (range : Message.IsId id) : Carried (.response id (some greeting) none) where
  asks := nofun
  right _ _ _ same := by cases same; rfl
  same := rfl
  ranged := ⟨range, nofun⟩
  plain := by
    refine Message.resultPlain range (Json.plainFields ?_)
    simp only [List.forall_mem_cons, List.not_mem_nil, false_imp_iff, implies_true, and_true]
    refine ⟨Json.plainFields ?_, Json.plainFields ?_⟩
    · simp only [List.forall_mem_cons, List.not_mem_nil, false_imp_iff, implies_true, and_true]
      refine ⟨.integer (by decide) (by decide), Json.plainFields ?_⟩
      simp [Json.Plain.bool]
    · simp [Json.Plain.string]

theorem loggedCarried (line : String) : Carried (.notification "window/logMessage" (some (.ofFields [
    ("type", .integer 3), ("message", .string line)]))) where
  asks := nofun
  right := nofun
  same := rfl
  ranged := trivial
  plain := by
    refine Message.noticePlain _ (Json.plainFields ?_)
    simp only [List.forall_mem_cons, List.not_mem_nil, false_imp_iff, implies_true, and_true]
    exact ⟨.integer (by decide) (by decide), .string line⟩

theorem askingCarried : Carried asking where
  asks := fun _ _ _ _ => rfl
  right := nofun
  same := rfl
  ranged := by
    change Message.IsId 1
    decide
  plain := by
    refine Message.requestPlain (by decide) _ (Json.plainFields (List.forall_mem_singleton.mpr ?_))
    refine .array (List.forall_mem_singleton.mpr (Json.plainFields (List.forall_mem_singleton.mpr ?_)))
    exact .string _

theorem attendsCarried {after : StandIn} {replies : List Message} (attends : Attends s m after replies)
    (ranged : m.Ranged) (small : (Utf8.ofString m.body).length ≤ Frame.limit) (narrow : NarrowTexts s) :
    ∀ x ∈ replies, Carried x := by
  cases attends with
  | greets => exact List.forall_mem_singleton.mpr (greetingCarried ranged)
  | ready => exact List.forall_mem_cons.mpr ⟨loggedCarried _, List.forall_mem_singleton.mpr askingCarried⟩
  | opened =>
    have text := smallNarrow (Nat.le_trans (Message.openedLong _) small)
    exact List.forall_mem_singleton.mpr (publishingCarried text)
  | changed =>
    have text := smallNarrow (Nat.le_trans (Message.changedLong _ _ _) small)
    exact List.forall_mem_singleton.mpr (publishingCarried text)
  | closed => exact List.forall_mem_singleton.mpr (publishingCarried narrowEmpty)
  | pulled => exact List.forall_mem_singleton.mpr (reportingCarried ranged (narrow _))
  | reply => exact nofun

def Fair (config : Config) (ms : List Message) : Prop :=
  ∀ m ∈ ms, Voiced config m ∧ m.Ranged ∧ (Utf8.ofString m.body).length ≤ Frame.limit

theorem fairFirst {more : List Message} (fair : Fair config (ms ++ more)) : Fair config ms :=
  fun m member => fair m (List.mem_append_left _ member)

theorem fairServes (fair : Fair config ms) : Serves (hearing ms) :=
  hearingServes fun m member => (fair m member).1

theorem attendNarrow (serves : Serves s) (fair : Fair config ms) (narrow : NarrowTexts s) :
    NarrowTexts (attend s ms).1 := by
  induction ms generalizing s with
  | nil => exact narrow
  | cons m ms ih =>
    obtain ⟨⟨voiced, ranged, small⟩, fair⟩ := List.forall_mem_cons.mp fair
    have attends := handleVoiced serves.accepts voiced
    exact ih (attendsServes serves attends) fair (attendsNarrow attends small narrow)

theorem hearingNarrow (fair : Fair config ms) (uri : String) : Narrow ((hearing ms).textOf uri) :=
  attendNarrow freshServes fair (fun _ => narrowEmpty) uri

theorem attendCarried (serves : Serves s) (fair : Fair config ms) (narrow : NarrowTexts s) :
    ∀ x ∈ (attend s ms).2, Carried x := by
  induction ms generalizing s with
  | nil => exact nofun
  | cons m ms ih =>
    obtain ⟨⟨voiced, ranged, small⟩, fair⟩ := List.forall_mem_cons.mp fair
    have attends := handleVoiced serves.accepts voiced
    refine List.forall_mem_append.mpr ⟨attendsCarried attends ranged small narrow, ?_⟩
    exact ih (attendsServes serves attends) fair (attendsNarrow attends small narrow)

theorem echoCarried (fair : Fair config ms) : ∀ x ∈ echo ms, Carried x :=
  attendCarried freshServes fair fun _ => narrowEmpty

def shownText (replica : List TextDocument) (uri : String) : String :=
  ((look uri replica).map (·.text)).getD ""

theorem attendsReplica {after : StandIn} {replies : List Message} {replica later : List TextDocument}
    (attends : Attends s m after replies) (own : ∀ uri, s.textOf uri = shownText replica uri)
    (before : replay ms = some replica) (now : replay (ms ++ [m]) = some later) (uri : String) :
    after.textOf uri = shownText later uri := by
  have silent (read : Notice.read? m = none) : s.textOf uri = shownText later uri := by
    rw [replaySilent read, before] at now
    rw [own, Option.some.inj now]
  cases attends with
  | @opened d =>
    rw [replayNotice before (Notice.readOpened d), Notice.apply] at now
    split at now
    · cases now
    · rename_i absent
      rw [Option.not_isSome_iff_eq_none] at absent
      rw [← Option.some.inj now, textOfSet, shownText, lookAppend]
      by_cases same : uri = d.uri
      · simp [same, absent]
      · simp [same, Ne.symm same, own, shownText]
  | @changed other version text =>
    rw [replayNotice before (Notice.readChanged other version text), Notice.apply] at now
    split at now
    · rename_i d found
      split at now
      · rw [← Option.some.inj now, textOfSet, shownText, lookRevise]
        by_cases same : uri = other
        · simp [same, found]
        · simp [same, own, shownText]
      · cases now
    · cases now
  | @closed other =>
    rw [replayNotice before (Notice.readClosed other), Notice.apply] at now
    split at now
    · rw [← Option.some.inj now, textOfForget, shownText, lookErase]
      by_cases same : uri = other
      · simp [same]
      · simp [same, own, shownText]
    · cases now
  | greets | ready | pulled => exact silent rfl
  | reply reply =>
    refine silent ?_
    cases m with
    | response => rfl
    | request | notification => cases reply

theorem hearingReplica {replica : List TextDocument} (voiced : ∀ m ∈ ms, Voiced config m)
    (followed : replay ms = some replica) (uri : String) :
    (hearing ms).textOf uri = shownText replica uri := by
  induction ms using List.reverseRecOn generalizing replica uri with
  | nil =>
    cases followed
    rfl
  | append_singleton ms m ih =>
    obtain ⟨earlier, last⟩ := List.forall_mem_append.mp voiced
    cases before : replay ms with
    | none =>
      rw [replayAppend, before] at followed
      cases followed
    | some held =>
      have attends := handleVoiced (hearingServes earlier).accepts (last m List.mem_cons_self)
      rw [hearingAppend]
      exact attendsReplica attends (ih earlier before) before followed uri

end LspClient.StandIn
