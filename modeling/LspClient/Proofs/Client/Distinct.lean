import LspClient.Session
import LspClient.Proofs.Document
import LspClient.Proofs.Client.Rejected
import LspClient.Proofs.Client.Veil

/-! Files as documents. A rooted path names a document as it reads with `/` for `\`. Two files whose names differ are
open side by side: each is tracked with its own version and goes to the server with its own latest text. -/
namespace LspClient

structure LustreFile where
  path : String
  text : String
  rooted : path.toList.head? = some '/'
  lustre : Path.Lustre (Utf8.ofString path)

namespace LustreFile

def uri (f : LustreFile) : String := "file://" ++ Uri.slashed f.path

def document (f : LustreFile) : TextDocument := ⟨f.uri, Language.lustre, 1, f.text⟩

theorem documentMade (f : LustreFile) :
    TextDocument.ofPath? (Utf8.ofString f.path) f.text = some f.document := by
  rw [TextDocument.ofLustre f.lustre, Uri.ofSlashed f.rooted]
  rfl

theorem pathOpens (f : LustreFile) (s : Session) :
    s.act (.didOpenPath (Utf8.ofString f.path) f.text) = s.hostCall (.didOpen f.document) := by
  simp only [Session.act, f.documentMade]

theorem uriAlike {f g : LustreFile} : f.uri = g.uri ↔ Uri.slashed f.path = Uri.slashed g.path := by
  simp [uri]

end LustreFile

namespace Client
open TextDocument (look)

variable {config : Config} {nextId : Int} {c : Client} {d : TextDocument} {uri : String}

structure Ready (c : Client) : Prop where
  held : c.held = true
  free : c.asking = none
  going : c.Early ∨ c.phase = .running

def since (c after : Client) : List Event := after.deeds.drop c.deeds.length

theorem playDeeds (moves : List Move) (c : Client) : (c.play moves).deeds = c.deeds ++ c.since (c.play moves) := by
  obtain ⟨es, grown⟩ := deedsGrow moves c
  rw [since, grown, List.drop_left]

theorem playLossless {moves : List Move} (lossless : Lossless (c.play moves).deeds) : Lossless c.deeds := by
  rw [playDeeds] at lossless
  exact (losslessAppend.mp lossless).1

def standing (log : List Event) (d : TextDocument) : TextDocument := (look d.uri (desk log)).getD d

theorem openPlaces (own : c.config.selector.accepts d = true) (ready : Ready c)
    (lossless : Lossless (c.perform (.host (.didOpen d))).deeds) : (c.hostCall (.didOpen d)).2 = .flag true ∧
      desk (c.perform (.host (.didOpen d))).deeds = place d (desk c.deeds) := by
  obtain ⟨after, done, same⟩ := documentCalled (show Call.document? (.didOpen d) = some d.uri from rfl) ready.held
    ready.free
  have log : (c.perform (.host (.didOpen d))).deeds =
      after.log ++ [.called (.didOpen d) (c.hostCall (.didOpen d)).2] := congrArg Client.log same
  rw [log] at lossless ⊢
  generalize (c.hostCall (.didOpen d)).2 = answer at *
  rw [deskAppend]
  cases done with
  | openForeign foreign => exact nomatch own.symm.trans foreign
  | openOver past => exact absurd past (goingOn ready.going)
  | openAgain | openQueued => exact ⟨rfl, rfl⟩
  | openSent => exact ⟨rfl, congrArg (place d) (deskAppend _ _)⟩
  | openLost => exact absurd (by simp) (lossless (Request.didOpen d))

structure Holds (c : Client) (uri : String) (d : TextDocument) : Prop where
  tracked : c.documents.get? uri = some d.version
  waits : c.Early → look uri c.queued = some d
  announced : c.phase = .running → ∃ first : TextDocument, first.uri = uri ∧ Request.didOpen first ∈ c.sent
  followed : c.phase = .running → ∃ replica, replay c.sent = some replica ∧ look uri replica = some d

theorem goingTracked (reached : Reached config nextId c.quiet) (going : c.Early ∨ c.phase = .running)
    (lossless : Lossless c.deeds) : Tracked c.documents (desk c.deeds) := by
  have synced := reachedSynced reached
  rcases going with early | running
  · exact (synced.early early (reachedUnflushed reached early lossless)).2.1
  · exact (synced.running running lossless).2

theorem deskHolds (reached : Reached config nextId c.quiet) (going : c.Early ∨ c.phase = .running)
    (lossless : Lossless c.deeds) (found : look uri (desk c.deeds) = some d) : Holds c uri d := by
  have synced := reachedSynced reached
  have sent : written c.deeds = c.sent := sentQuiet c
  have known : c.documents.get? uri = some d.version := by
    rw [goingTracked reached going lossless uri, found]
    rfl
  exact {
    tracked := known
    waits := fun early => by
      have queued : c.queued = desk c.deeds :=
        (synced.early early (reachedUnflushed reached early lossless)).1
      rw [queued, found]
    announced := fun running => by
      obtain ⟨first, own, wrote | lost⟩ := reachedAnnouncing reached running uri (by simp [quiet, known])
      · exact ⟨first, own, sent ▸ memWritten.mp wrote⟩
      · exact absurd lost (lossless _)
    followed := fun running => ⟨_, sent ▸ (synced.running running lossless).1, found⟩ }

structure StaysOpen (c : Client) (d : TextDocument) (last : Client) : Prop where
  accepted : (c.hostCall (.didOpen d)).2 = .flag true
  -- the document has the text of the last change, or that of the opening if there was no change
  held : last.Early ∨ last.phase = .running → Holds last d.uri
    (edited (standing c.deeds d) ((c.perform (.host (.didOpen d))).since last))
  first : c.documents.get? d.uri = none → standing c.deeds d = d

theorem openStays (reached : Reached config nextId c.quiet) (own : config.selector.accepts d = true)
    (ready : Ready c) (moves : List Move)
    (lossless : Lossless ((c.perform (.host (.didOpen d))).play moves).deeds)
    (unclosed : .called (.didClose d.uri) (.flag true) ∉
      (c.perform (.host (.didOpen d))).since ((c.perform (.host (.didOpen d))).play moves)) :
    StaysOpen c d ((c.perform (.host (.didOpen d))).play moves) := by
  have same : c.config = config := reachedConfig (c := c.quiet) reached
  have opening := playLossless lossless
  obtain ⟨accepted, placed⟩ := openPlaces (same ▸ own) ready opening
  have found : look d.uri (desk (c.perform (.host (.didOpen d))).deeds) = some (standing c.deeds d) := by
    rw [placed]
    exact placeHolds d _
  have reached' := playOn (performReached reached (.host (.didOpen d))) moves
  have grown := playDeeds moves (c.perform (.host (.didOpen d)))
  exact {
    accepted := accepted
    held := fun going => deskHolds reached' going lossless (grown ▸ lookSteps found unclosed)
    first := fun unknown => by
      have before : Lossless c.deeds := @playLossless c [.host (.didOpen d)] opening
      rw [standing, trackedAbsent (goingTracked reached ready.going before) unknown]
      rfl }

structure TwoFiles where
  config : Config
  nextId : Int
  one : LustreFile
  two : LustreFile
  before : List Move
  between : List Move
  after : List Move

namespace TwoFiles

def start (r : TwoFiles) : Client := (new r.config r.nextId).play r.before

def opened (r : TwoFiles) : Client := r.start.perform (.host (.didOpen r.one.document))

def middle (r : TwoFiles) : Client := r.opened.play r.between

def openedBoth (r : TwoFiles) : Client := r.middle.perform (.host (.didOpen r.two.document))

def last (r : TwoFiles) : Client := r.openedBoth.play r.after

structure Undisturbed (r : TwoFiles) : Prop where
  selector : r.config.selector = [.lustreFiles]
  first : Ready r.start
  second : Ready r.middle
  lossless : Lossless r.last.deeds
  one : .called (.didClose r.one.uri) (.flag true) ∉ r.opened.since r.last
  two : .called (.didClose r.two.uri) (.flag true) ∉ r.openedBoth.since r.last

end TwoFiles

structure Distinct (r : TwoFiles) : Prop where
  opens : ∀ f ∈ [r.one, r.two], ∀ s : Session,
    s.act (.didOpenPath (Utf8.ofString f.path) f.text) = s.hostCall (.didOpen f.document)
  apart : r.one.uri ≠ r.two.uri
  one : StaysOpen r.start r.one.document r.last
  two : StaysOpen r.middle r.two.document r.last

theorem distinct (r : TwoFiles) (undisturbed : r.Undisturbed)
    (other : Uri.slashed r.one.path ≠ Uri.slashed r.two.path) : Distinct r := by
  have accepted (f : LustreFile) : r.config.selector.accepts f.document = true :=
    undisturbed.selector ▸ TextDocument.lustreAccepted (Uri.slashed f.path) 1 f.text
  have started : Reached r.config r.nextId r.start.quiet := playReached r.config r.nextId r.before
  have halfway : Reached r.config r.nextId r.middle.quiet := playOn (performReached started _) r.between
  -- all that follows the first opening is one run
  have whole : r.last = r.opened.play (r.between ++ .host (.didOpen r.two.document) :: r.after) :=
    (playAppend r.opened r.between (.host (.didOpen r.two.document) :: r.after)).symm
  have lossless := undisturbed.lossless
  have unclosed := undisturbed.one
  exact {
    opens := fun f _ => f.pathOpens
    apart := fun same => other (LustreFile.uriAlike.mp same)
    one := by
      rw [whole] at lossless unclosed ⊢
      exact openStays started (accepted r.one) undisturbed.first _ lossless unclosed
    two := openStays halfway (accepted r.two) undisturbed.second r.after lossless undisturbed.two }

def lustreAt (path text : String) (rooted : path.toList.head? = some '/')
    (lustre : Path.extension? (Utf8.ofString path) = some (Utf8.encode ['l', 'u', 's'])) : LustreFile :=
  ⟨path, text, rooted, ['l', 'u', 's'], lustre, by decide⟩

def sideBySide : TwoFiles where
  config := sampleConfig
  nextId := 1
  one := lustreAt "/a.lus" "x" (by decide +kernel) (by decide +kernel)
  two := lustreAt "/b.lus" "y" (by decide +kernel) (by decide +kernel)
  before := [.host (.start none), .spawn]
  between := [.host (.didChange "file:///a.lus" "z"), .introduce,
    .server (.writes (Message.response 1 (some .null) none).octets), .take]
  after := [.host (.didChange "file:///b.lus" "w")]

def isLost : Event → Bool
  | .lost _ => true
  | _ => false

theorem losslessFrom {log : List Event} (none : log.any isLost = false) : Lossless log := by
  intro m lost
  exact Bool.false_ne_true (none.symm.trans (List.any_eq_true.mpr ⟨_, lost, rfl⟩))

theorem sideBySideDistinct : sideBySide.Undisturbed ∧
    Uri.slashed sideBySide.one.path ≠ Uri.slashed sideBySide.two.path ∧ Distinct sideBySide := by
  have other : Uri.slashed sideBySide.one.path ≠ Uri.slashed sideBySide.two.path := by decide +kernel
  have started : sideBySide.start.held = true ∧ sideBySide.start.asking = none ∧
      sideBySide.start.phase = .starting := by decide +kernel
  have run : sideBySide.middle.held = true ∧ sideBySide.middle.asking = none ∧
      sideBySide.middle.phase = .running ∧
      sideBySide.last.deeds.any isLost = false ∧
      .called (.didClose sideBySide.one.uri) (.flag true) ∉ sideBySide.opened.since sideBySide.last ∧
      .called (.didClose sideBySide.two.uri) (.flag true) ∉ sideBySide.openedBoth.since sideBySide.last := by
    decide +kernel
  obtain ⟨held, free, running, none, one, two⟩ := run
  have undisturbed : sideBySide.Undisturbed :=
    ⟨rfl, ⟨started.1, started.2.1, .inl (.inr started.2.2)⟩, ⟨held, free, .inr running⟩, losslessFrom none, one, two⟩
  exact ⟨undisturbed, other, distinct sideBySide undisturbed other⟩

def oneName : TwoFiles where
  config := sampleConfig
  nextId := 1
  one := lustreAt "/a/b.lus" "x" (by decide +kernel) (by decide +kernel)
  two := lustreAt "/a\\b.lus" "y" (by decide +kernel) (by decide +kernel)
  before := []
  between := []
  after := []

/-- The second file is opened with success, yet the client has but one document, and that is the first. -/
theorem nameShared : oneName.Undisturbed ∧ oneName.one.path ≠ oneName.two.path ∧ oneName.one.uri = oneName.two.uri ∧
    (oneName.middle.hostCall (.didOpen oneName.two.document)).2 = .flag true ∧
    oneName.last.documents = [("file:///a/b.lus", 1)] ∧ oneName.last.queued = [oneName.one.document] := by
  have undisturbed : oneName.Undisturbed :=
    ⟨rfl, ⟨rfl, rfl, .inl (.inl rfl)⟩, ⟨by decide +kernel, by decide +kernel, .inl (.inl (by decide +kernel))⟩,
      losslessFrom (by decide +kernel), by decide +kernel, by decide +kernel⟩
  refine ⟨undisturbed, ?_⟩
  decide +kernel

end Client
end LspClient
