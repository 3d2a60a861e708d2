import Mathlib.Data.List.Forall2
import LspClient.Proofs.Client.Padded
import LspClient.Proofs.Session

/-! Sessions whose servers write frames with bodies that are no messages, and the same sessions without them. The
two run side by side: after each step they have given the same reports, and their clients differ in nothing but
unread output. -/
namespace LspClient
open Utf8 (Octets)
open Weave

namespace Client

variable {config : Config} {nextId : Int} {c d : Client} {w more : Weave}

def Dry (c : Client) : Prop := ∃ s, c.server = some s ∧ s.writes = false

theorem playDry (reached : Reached config nextId c.quiet) (dry : Dry c) (moves : List Move) :
    Dry (c.play moves) := by
  induction moves generalizing c with
  | nil => exact dry
  | cons move moves ih =>
    refine ih (performReached reached move) ?_
    obtain ⟨s, server, silent⟩ := dry
    rcases turnLessened (reachedTurn reached move) with ⟨f, same, less⟩ | ⟨waiting, _⟩
    · have same : (c.perform move).server = c.server.map f := same
      refine ⟨f s, by rw [same, server, Option.map_some], Bool.eq_false_iff.mpr fun writes => ?_⟩
      exact nomatch silent.symm.trans ((less s server).2 writes)
    · exact nomatch server.symm.trans ((reachedHoused reached).bare (.inr ⟨_, waiting⟩))

theorem actDry (a : Act) {next : Int} (played : Played c) (later : c.nextId ≤ next) (dry : Dry c) :
    Dry (act a {c with nextId := next}).1 := by
  obtain ⟨config, nextId, before, own⟩ := renumberedPlayed played later
  obtain ⟨moves, _, same⟩ := actGoes a {c with nextId := next}
  have reached : Reached config nextId ({c with nextId := next} : Client).quiet :=
    own ▸ playReached config nextId before
  have dry : Dry ({c with nextId := next} : Client) := dry
  rw [same]
  exact playDry reached dry (a.move :: moves)

end Client

namespace Session
open Client

variable {s t : Session} {more : Nat → Weave} {i : Nat}

inductive Beat where
  | step (a : Step)
  | woven (chunks : List Weave) (andEnds : Bool)

def Beat.kept : Beat → Step
  | .step a => a
  | .woven chunks andEnds => .serverWrites (chunks.map Weave.kept) andEnds

def Beat.whole : Beat → Step
  | .step a => a
  | .woven chunks andEnds => .serverWrites (chunks.map Weave.whole) andEnds

def Beat.chunks : Beat → List Weave
  | .step (.serverSends messages) => messages.map fun m => thread false (Utf8.ofString (Frame.write m.compact))
  | .step (.serverWrites chunks _) => chunks.map (thread false)
  | .woven chunks _ => chunks
  | .step _ => []

def isOpen (s : Session) (i : Nat) : Bool :=
  ((s.clients[i]?).bind (·.server)).any fun s => s.alive && s.writes

def poured (i : Nat) : Session → List Weave → Weave
  | _, [] => []
  | s, chunk :: chunks =>
    (if s.isOpen i then chunk else []) ++ poured i (s.actOn i (.server (.writes chunk.kept))).1 chunks

def output (i : Nat) : Session → List Beat → Weave
  | _, [] => []
  | s, beat :: beats =>
    (if s.served? = some i then poured i s beat.chunks else []) ++ output i (s.step beat.kept).1 beats

def DryAt (i : Nat) (s : Session) : Prop := ∃ c : Client, s.clients[i]? = some c ∧ Dry c

theorem passesDry (calm : Calm s) (dry : DryAt i s) (passed : Passes s t) : DryAt i t := by
  induction passed with
  | same => exact dry
  | @acted t passed index a ih =>
    obtain ⟨c, own, parched⟩ := ih
    have calm := passesCalm calm passed
    unfold actOn
    split
    · exact ⟨c, own, parched⟩
    · rename_i d there
      by_cases here : index = i
      · subst here
        cases own.symm.trans there
        have bound : index < t.clients.length := (List.getElem?_eq_some_iff.mp own).1
        have member := List.mem_of_getElem? own
        exact ⟨_, by simp [List.getElem?_set_self bound],
          actDry a (calm.played c member) (calm.numbers c member) parched⟩
      · exact ⟨c, by simpa [List.getElem?_set_ne here] using own, parched⟩
  | joined _ config ih =>
    obtain ⟨c, own, dry⟩ := ih
    have bound := (List.getElem?_eq_some_iff.mp own).1
    exact ⟨c, by rw [List.getElem?_append_left bound, own], dry⟩

theorem dryShut (dry : DryAt i s) : s.isOpen i = false := by
  obtain ⟨c, own, s', server, silent⟩ := dry
  simp [isOpen, own, server, silent]

theorem pouredDry (calm : Calm s) (dry : DryAt i s) (chunks : List Weave) : poured i s chunks = [] := by
  induction chunks generalizing s with
  | nil => rfl
  | cons chunk chunks ih =>
    have acted : Passes s (s.actOn i (.server (.writes chunk.kept))).1 := .acted .same _ _
    rw [poured, dryShut dry, ih (passesCalm calm acted) (passesDry calm dry acted)]
    rfl

theorem outputDry (calm : Calm s) (dry : DryAt i s) (beats : List Beat) : output i s beats = [] := by
  induction beats generalizing s with
  | nil => rfl
  | cons beat beats ih =>
    have passed : Passes s (s.step beat.kept).1 := actPasses s beat.kept
    rw [output, pouredDry calm dry, ih (passesCalm calm passed) (passesDry calm dry passed), ite_self]
    rfl

structure Inlaid (more : Nat → Weave) (s t : Session) : Prop where
  origin : t.origin = s.origin
  machine : t.machine = s.machine
  nextId : t.nextId = s.nextId
  length : t.clients.length = s.clients.length
  clients : ∀ (i : Nat) (c d : Client), s.clients[i]? = some c → t.clients[i]? = some d → ∃ w, Padded (more i) w c d
  coming : ∀ i, s.clients.length ≤ i → Woven (more i)
  calm : Calm s
  calm' : Calm t

theorem inlaidPair {c : Client} (inlaid : Inlaid more s t) (own : s.clients[i]? = some c) :
    ∃ (d : Client) (w : Weave), t.clients[i]? = some d ∧ Padded (more i) w c d := by
  have bound := (List.getElem?_eq_some_iff.mp own).1
  have bound' : i < t.clients.length := inlaid.length ▸ bound
  have own' := List.getElem?_eq_getElem bound'
  obtain ⟨w, padded⟩ := inlaid.clients i c _ own own'
  exact ⟨_, w, own', padded⟩

theorem inlaidNone (inlaid : Inlaid more s t) : s.clients[i]? = none ↔ t.clients[i]? = none := by
  rw [List.getElem?_eq_none_iff, List.getElem?_eq_none_iff, inlaid.length]

theorem inlaidView {β : Type} (inlaid : Inlaid more s t) (f : Client → β) (blind : ∀ u c, f (c.reread u) = f c)
    (i : Nat) : (t.clients[i]?).map f = (s.clients[i]?).map f := by
  cases own : s.clients[i]? with
  | none => rw [(inlaidNone inlaid).mp own]
  | some c =>
    obtain ⟨d, w, own', padded⟩ := inlaidPair inlaid own
    rw [own', padded.same, Option.map_some, Option.map_some, blind]

theorem inlaidSet {before : Nat → Weave} (inlaid : Inlaid before s t) {c d : Client} {w : Weave} {next : Int}
    (padded : Padded (more i) w c d) (others : ∀ j, j ≠ i → before j = more j)
    (calm : Calm {s with clients := s.clients.set i c, nextId := next})
    (calm' : Calm {t with clients := t.clients.set i d, nextId := next}) (bound : i < s.clients.length) :
    Inlaid more {s with clients := s.clients.set i c, nextId := next}
      {t with clients := t.clients.set i d, nextId := next} where
  origin := inlaid.origin
  machine := inlaid.machine
  nextId := rfl
  length := by simp [inlaid.length]
  clients := by
    intro j c' d' own own'
    by_cases here : i = j
    · subst here
      simp only [List.getElem?_set_self bound, List.getElem?_set_self (inlaid.length ▸ bound),
        Option.some.injEq] at own own'
      exact ⟨w, own ▸ own' ▸ padded⟩
    · simp only [List.getElem?_set_ne here] at own own'
      exact others j (Ne.symm here) ▸ inlaid.clients j c' d' own own'
  coming := by
    intro j later
    rw [List.length_set] at later
    have apart : j ≠ i := by omega
    exact others j apart ▸ inlaid.coming j later
  calm := calm
  calm' := calm'

theorem actOnSome {c : Client} (own : s.clients[i]? = some c) (a : Client.Act) :
    s.actOn i a = ({s with
      clients := s.clients.set i (Client.act a {c with nextId := s.nextId}).1
      nextId := (Client.act a {c with nextId := s.nextId}).1.nextId}, (Client.act a {c with nextId := s.nextId}).2) := by
  simp only [actOn, own]

theorem actOnNone (own : s.clients[i]? = none) (a : Client.Act) : s.actOn i a = (s, .nothing) := by
  simp only [actOn, own]

theorem inlaidActs {before : Nat → Weave} (inlaid : Inlaid before s t) {c d : Client} {a a' : Client.Act}
    (own : s.clients[i]? = some c) (own' : t.clients[i]? = some d) (others : ∀ j, j ≠ i → before j = more j)
    (padded : ∃ w, Padded (more i) w (Client.act a {c with nextId := s.nextId}).1
      (Client.act a' {d with nextId := t.nextId}).1) : Inlaid more (s.actOn i a).1 (t.actOn i a').1 := by
  obtain ⟨w, padded⟩ := padded
  have calm := actOnCalm inlaid.calm i a
  have calm' := actOnCalm inlaid.calm' i a'
  have number : (Client.act a' {d with nextId := t.nextId}).1.nextId =
      (Client.act a {c with nextId := s.nextId}).1.nextId := by rw [padded.same]; rfl
  rw [actOnSome own] at calm ⊢
  rw [actOnSome own', number] at calm' ⊢
  exact inlaidSet inlaid padded others calm calm' (List.getElem?_eq_some_iff.mp own).1

theorem sameEverywhere {before : Nat → Weave} (own : before i = more i)
    (others : ∀ j, j ≠ i → before j = more j) : before = more := by
  funext j
  by_cases here : j = i
  · rw [here, own]
  · exact others j here

theorem renumberedPadded {c d : Client} {w more : Weave} (padded : Padded more w c d) (next : Int) :
    Padded more w {c with nextId := next} {d with nextId := next} where
  unread := padded.unread
  same := by rw [padded.same]; rfl
  woven := padded.woven
  bare := padded.bare

theorem inlaidRenewed {c d : Client} {w : Weave} (inlaid : Inlaid more s t) (own : s.clients[i]? = some c)
    (own' : t.clients[i]? = some d) (padded : Padded (more i) w c d) :
    Padded (more i) w {c with nextId := s.nextId} {d with nextId := s.nextId} ∧
      ({c with nextId := s.nextId} : Client).Resting ∧ ({d with nextId := s.nextId} : Client).Resting :=
  ⟨renumberedPadded padded s.nextId,
    renumberedResting (inlaid.calm.resting c (List.mem_of_getElem? own)) s.nextId,
    renumberedResting (inlaid.calm'.resting d (List.mem_of_getElem? own')) s.nextId⟩

theorem actOnInlaid (inlaid : Inlaid more s t) {a : Client.Act} (silent : a.move.isWrite = false)
    (ended : DryAt i (s.actOn i a).1 → more i = []) :
    Inlaid more (s.actOn i a).1 (t.actOn i a).1 ∧ (t.actOn i a).2 = (s.actOn i a).2 := by
  cases own : s.clients[i]? with
  | none =>
    rw [actOnNone own, actOnNone ((inlaidNone inlaid).mp own)]
    exact ⟨inlaid, rfl⟩
  | some c =>
    obtain ⟨d, w, own', padded⟩ := inlaidPair inlaid own
    have member := List.mem_of_getElem? own
    obtain ⟨renewed, resting, resting'⟩ := inlaidRenewed inlaid own own' padded
    obtain ⟨config, nextId, moves, played⟩ :=
      renumberedPlayed (inlaid.calm.played c member) (inlaid.calm.numbers c member)
    have reached := played ▸ playReached config nextId moves
    have awaits : (Client.act a {c with nextId := s.nextId}).1.Expects (whole (more i)) false := by
      -- if the act has ended the output, nothing is to come
      intro server present silent
      rw [ended ⟨_, by simp [actOnSome own, List.getElem?_set_self (List.getElem?_eq_some_iff.mp own).1],
        server, present, silent⟩]
      exact ⟨rfl, rfl⟩
    have acted := silentPadded reached resting resting' renewed silent awaits
    have answer : (Client.act a {d with nextId := s.nextId}).2 = (Client.act a {c with nextId := s.nextId}).2 := by
      rw [renewed.same]
      exact actAnswer _ _
    refine ⟨inlaidActs inlaid own own' (fun _ _ => rfl) (inlaid.nextId ▸ acted), ?_⟩
    rw [actOnSome own, actOnSome own', inlaid.nextId, answer]

theorem writesInlaid {before : Nat → Weave} {chunk : Weave} (inlaid : Inlaid before s t)
    (pours : before i = (if s.isOpen i then chunk else []) ++ more i) (others : ∀ j, j ≠ i → before j = more j) :
    Inlaid more (s.actOn i (.server (.writes chunk.kept))).1 (t.actOn i (.server (.writes chunk.whole))).1 := by
  cases own : s.clients[i]? with
  | none =>
    have same : before = more := sameEverywhere (by simp [pours, isOpen, own]) others
    rw [actOnNone own, actOnNone ((inlaidNone inlaid).mp own)]
    exact same ▸ inlaid
  | some c =>
    obtain ⟨d, w, own', padded⟩ := inlaidPair inlaid own
    obtain ⟨renewed, resting, resting'⟩ := inlaidRenewed inlaid own own' padded
    refine inlaidActs inlaid own own' others ?_
    rw [inlaid.nextId]
    by_cases able : ∃ s, c.server = some s ∧ s.alive = true ∧ s.writes = true
    · obtain ⟨server, present, alive, writes⟩ := able
      have opened : s.isOpen i = true := by simp [isOpen, own, present, alive, writes]
      rw [pours, opened, if_pos rfl] at renewed
      exact writesPadded resting renewed present alive writes
    · have shut (server : Server) (present : c.server = some server) :
          ¬ (server.alive = true ∧ server.writes = true) := fun open' => able ⟨server, present, open'⟩
      have shut' (server : Server) (present : d.server = some server) :
          ¬ (server.alive = true ∧ server.writes = true) := by
        rw [padded.same] at present
        obtain ⟨server', present', rfl⟩ := Option.map_eq_some_iff.mp present
        exact shut server' present'
      have closed : s.isOpen i = false := by
        cases present : c.server with
        | none => simp [isOpen, own, present]
        | some server => simpa [isOpen, own, present] using shut server present
      rw [pours, closed, if_neg Bool.false_ne_true, List.nil_append] at renewed
      rw [writesIdle resting shut, writesIdle resting' shut']
      exact ⟨w, renewed⟩

theorem pouredInlaid {before : Nat → Weave} {chunks : List Weave} (inlaid : Inlaid before s t)
    (pours : before i = poured i s chunks ++ more i) (others : ∀ j, j ≠ i → before j = more j) :
    Inlaid more (chunks.foldl (fun s chunk => (s.actOn i (.server (.writes chunk.kept))).1) s)
      (chunks.foldl (fun s chunk => (s.actOn i (.server (.writes chunk.whole))).1) t) := by
  induction chunks generalizing s t before with
  | nil =>
    have same : before = more := sameEverywhere pours others
    exact same ▸ inlaid
  | cons chunk chunks ih =>
    -- what is still to come once the first chunk is written
    let next (j : Nat) : Weave :=
      if j = i then poured i (s.actOn i (.server (.writes chunk.kept))).1 chunks ++ more i else more j
    have own : next i = poured i (s.actOn i (.server (.writes chunk.kept))).1 chunks ++ more i := if_pos rfl
    have rest (j : Nat) (apart : j ≠ i) : next j = more j := if_neg apart
    have written : Inlaid next (s.actOn i (.server (.writes chunk.kept))).1
        (t.actOn i (.server (.writes chunk.whole))).1 := by
      refine writesInlaid inlaid ?_ fun j apart => ?_
      · rw [pours, poured, own, List.append_assoc]
      · rw [others j apart, rest j apart]
    exact ih written own rest

theorem inlaidLaunched (inlaid : Inlaid more s t) (i : Nat) :
    ((t.clients[i]?).bind (·.server)).isSome = ((s.clients[i]?).bind (·.server)).isSome := by
  have asked (x : Option Client) : (x.bind (·.server)).isSome = (x.map (·.server.isSome)).getD false := by
    cases x <;> rfl
  rw [asked, asked, inlaidView inlaid (·.server.isSome) fun u c => Option.isSome_map]

theorem inlaidServed (inlaid : Inlaid more s t) : t.served? = s.served? := by
  simp only [served?, inlaid.length, inlaidLaunched inlaid]

theorem silentInlaid {acts : List ServerAct} (inlaid : Inlaid more s t)
    (silent : ∀ act ∈ acts, (Client.Act.server act).move.isWrite = false)
    (ended : DryAt i (acts.foldl (fun s a => (s.actOn i (.server a)).1) s) → more i = []) :
    Inlaid more (acts.foldl (fun s a => (s.actOn i (.server a)).1) s)
      (acts.foldl (fun s a => (s.actOn i (.server a)).1) t) := by
  induction acts generalizing s t with
  | nil => exact inlaid
  | cons act acts ih =>
    have acted := actOnCalm inlaid.calm i (.server act)
    have passed : Passes (s.actOn i (.server act)).1
        (acts.foldl (fun s a => (s.actOn i (.server a)).1) (s.actOn i (.server act)).1) :=
      List.foldlRecOn acts _ .same fun _ passed a _ => .acted passed _ (.server a)
    refine ih (actOnInlaid inlaid (silent act (.head _)) fun dry => ?_).1
      (fun act member => silent act (.tail _ member)) ended
    exact ended (passesDry acted dry passed)

theorem serverActsInlaid {chunks : List Weave} {acts : List ServerAct}
    (inlaid : Inlaid (fun j => (if s.served? = some j then poured j s chunks else []) ++ more j) s t)
    (silent : ∀ act ∈ acts, (Client.Act.server act).move.isWrite = false)
    (ended : ∀ i, DryAt i (s.serverActs (chunks.map (fun chunk => .writes chunk.kept) ++ acts)).1 → more i = []) :
    Inlaid more (s.serverActs (chunks.map (fun chunk => .writes chunk.kept) ++ acts)).1
        (t.serverActs (chunks.map (fun chunk => .writes chunk.whole) ++ acts)).1 ∧
      (t.serverActs (chunks.map (fun chunk => .writes chunk.whole) ++ acts)).2 =
        (s.serverActs (chunks.map (fun chunk => .writes chunk.kept) ++ acts)).2 := by
  have served := inlaidServed inlaid
  unfold serverActs at ended ⊢
  rw [served]
  cases who : s.served? with
  | none =>
    simp only [who, reduceCtorEq, if_false, List.nil_append] at inlaid
    exact ⟨inlaid, rfl⟩
  | some i =>
    simp only [who, List.foldl_append, List.foldl_map] at ended ⊢
    simp only [who, Option.some.injEq] at inlaid
    refine ⟨silentInlaid (pouredInlaid inlaid ?_ fun j apart => ?_) silent (ended i), trivial⟩
    · rw [if_pos rfl]
    · rw [if_neg (Ne.symm apart), List.nil_append]

theorem inlaidLast (inlaid : Inlaid more s t) : s.clients.getLast? = none ∧ t.clients.getLast? = none ∨
    ∃ c d i w, s.clients.getLast? = some c ∧ t.clients.getLast? = some d ∧ Padded (more i) w c d := by
  rw [List.getLast?_eq_getElem?, List.getLast?_eq_getElem?, inlaid.length]
  cases own : s.clients[s.clients.length - 1]? with
  | none => exact .inl ⟨rfl, (inlaidNone inlaid).mp own⟩
  | some c =>
    obtain ⟨d, w, own', padded⟩ := inlaidPair inlaid own
    exact .inr ⟨c, d, _, w, rfl, own', padded⟩

theorem inlaidHeld (inlaid : Inlaid more s t) : s.held? = none ∧ t.held? = none ∨
    ∃ c d i w, s.held? = some c ∧ t.held? = some d ∧ Padded (more i) w c d := by
  unfold held?
  rcases inlaidLast inlaid with ⟨none, none'⟩ | ⟨c, d, i, w, last, last', padded⟩
  · rw [none, none']
    exact .inl ⟨rfl, rfl⟩
  · have same : d.held = c.held := by rw [padded.same]; rfl
    rw [last, last']
    cases held : c.held with
    | false => exact .inl ⟨by simp [held], by simp [same, held]⟩
    | true => exact .inr ⟨c, d, i, w, by simp [held], by simp [same, held], padded⟩

theorem actOnLastInlaid (inlaid : Inlaid more s t) (call : Call)
    (ended : ∀ i, DryAt i (s.actOnLast (.host call)).1 → more i = []) :
    Inlaid more (s.actOnLast (.host call)).1 (t.actOnLast (.host call)).1 ∧
      (t.actOnLast (.host call)).2 = (s.actOnLast (.host call)).2 := by
  rw [actOnLast, actOnLast, inlaid.length]
  exact actOnInlaid inlaid rfl (ended _)

theorem startLastInlaid (inlaid : Inlaid more s t) (ended : ∀ i, DryAt i s.startLast.1 → more i = []) :
    Inlaid more s.startLast.1 t.startLast.1 ∧ t.startLast.2 = s.startLast.2 := by
  rcases inlaidLast inlaid with ⟨none, none'⟩ | ⟨c, d, i, w, last, last', padded⟩
  · simp only [startLast, none, none']
    exact ⟨inlaid, trivial⟩
  · have config : d.config = c.config := by rw [padded.same]; rfl
    have machine : t.refused c.config = s.refused c.config := by rw [refused, refused, inlaid.machine]
    rw [startLastActs last] at ended
    obtain ⟨acted, answered⟩ := actOnLastInlaid inlaid _ ended
    refine ⟨?_, ?_⟩
    · rwa [startLastActs last, startLastActs last', config, machine]
    · have launched : (((t.actOnLast (.host (.start (s.refused c.config)))).1.clients.getLast?).bind (·.server)).isSome =
          (((s.actOnLast (.host (.start (s.refused c.config)))).1.clients.getLast?).bind (·.server)).isSome := by
        rw [List.getLast?_eq_getElem?, List.getLast?_eq_getElem?, acted.length, inlaidLaunched acted]
      -- the two answers are the same function of these
      simp only [startLast, last, last', config, machine]
      generalize s.actOnLast (.host (.start (s.refused c.config))) = first at answered launched
      generalize t.actOnLast (.host (.start (s.refused c.config))) = second at answered launched
      rcases first with ⟨after, answer⟩
      rcases second with ⟨after', answer'⟩
      obtain rfl : answer' = answer := answered
      cases answer' with
      | nothing =>
        simp only at launched ⊢
        rw [launched]
        split <;> rfl
      | flag | failed => rfl

theorem withHeldInlaid {f g : Client → Session × Answer} (inlaid : Inlaid more s t)
    (ended : ∀ i, DryAt i (s.withHeld f).1 → more i = [])
    (each : ∀ c d i w, Padded (more i) w c d → (∀ i, DryAt i (f c).1 → more i = []) →
      Inlaid more (f c).1 (g d).1 ∧ (g d).2 = (f c).2) :
    Inlaid more (s.withHeld f).1 (t.withHeld g).1 ∧ (t.withHeld g).2 = (s.withHeld f).2 := by
  unfold withHeld at ended ⊢
  rcases inlaidHeld inlaid with ⟨none, none'⟩ | ⟨c, d, i, w, held, held', padded⟩
  · rw [none, none']
    exact ⟨inlaid, rfl⟩
  · rw [held] at ended ⊢
    rw [held']
    exact each c d i w padded ended

theorem hostCallInlaid (inlaid : Inlaid more s t) (call : Call)
    (ended : ∀ i, DryAt i (s.hostCall call).1 → more i = []) :
    Inlaid more (s.hostCall call).1 (t.hostCall call).1 ∧ (t.hostCall call).2 = (s.hostCall call).2 := by
  refine withHeldInlaid inlaid ended fun c d i w _ ended => ?_
  obtain ⟨acted, answered⟩ := actOnLastInlaid inlaid call ended
  exact ⟨acted, congrArg Answer.ofClient answered⟩

theorem joinedInlaid (inlaid : Inlaid more s t) (config : Config) :
    Inlaid more {s with clients := s.clients ++ [.new config s.nextId]}
      {t with clients := t.clients ++ [.new config t.nextId]} where
  origin := inlaid.origin
  machine := inlaid.machine
  nextId := inlaid.nextId
  length := by simp [inlaid.length]
  clients := by
    intro i c d own own'
    rw [inlaid.nextId] at own'
    by_cases old : i < s.clients.length
    · rw [List.getElem?_append_left old] at own
      rw [List.getElem?_append_left (inlaid.length ▸ old)] at own'
      exact inlaid.clients i c d own own'
    · rw [List.getElem?_append_right (Nat.le_of_not_lt old)] at own
      rw [List.getElem?_append_right (inlaid.length ▸ Nat.le_of_not_lt old), inlaid.length] at own'
      cases own.symm.trans own'
      have fresh : c.unread = [] := by
        rw [List.mem_singleton.mp (List.mem_of_getElem? own)]
        rfl
      refine ⟨_, paddedSelf c (.inr ?_)⟩
      rw [fresh]
      exact inlaid.coming i (Nat.le_of_not_lt old)
  coming := by
    intro i later
    rw [List.length_append] at later
    exact inlaid.coming i (Nat.le_trans (Nat.le_add_right _ _) later)
  calm := joinedCalm inlaid.calm config
  calm' := joinedCalm inlaid.calm' config

theorem activateInlaid (inlaid : Inlaid more s t) (ended : ∀ i, DryAt i s.activate.1 → more i = []) :
    Inlaid more s.activate.1 t.activate.1 ∧ t.activate.2 = s.activate.2 := by
  unfold activate at ended ⊢
  rw [inlaid.origin]
  cases origin : s.origin with
  | client => exact ⟨inlaid, rfl⟩
  | extension context =>
    have held : t.held?.isSome = s.held?.isSome := by
      rcases inlaidHeld inlaid with ⟨none, none'⟩ | ⟨c, d, i, w, held, held', _⟩
      · rw [none, none']
      · rw [held, held']
        rfl
    simp only [origin, held] at ended ⊢
    split
    · exact ⟨inlaid, rfl⟩
    · rename_i free
      rw [if_neg free] at ended
      have joined := joinedInlaid inlaid context.config
      rw [inlaid.origin, origin] at joined
      exact startLastInlaid joined ended

def Beat.acts : Beat → List ServerAct
  | .step (.serverWrites _ andEnds) | .woven _ andEnds => if andEnds then [.endsOutput] else []
  | .step (.serverMurmurs octets) => [.murmurs octets]
  | .step .serverEndsOutput => [.endsOutput]
  | .step .serverExits => [.exits]
  | .step _ => []

def Beat.isServed : Beat → Bool
  | .woven .. | .step (.serverSends _) | .step (.serverWrites ..) | .step (.serverMurmurs _)
  | .step .serverEndsOutput | .step .serverExits => true
  | .step _ => false

theorem servedActs {beat : Beat} (served : beat.isServed = true) (s : Session) :
    s.act beat.kept = s.serverActs (beat.chunks.map (fun chunk => .writes chunk.kept) ++ beat.acts) ∧
      s.act beat.whole = s.serverActs (beat.chunks.map (fun chunk => .writes chunk.whole) ++ beat.acts) := by
  cases beat with
  | woven chunks andEnds =>
    simp only [act, Beat.kept, Beat.whole, Beat.chunks, Beat.acts, List.map_map]
    exact ⟨rfl, rfl⟩
  | step a =>
    cases a with
    | serverSends | serverWrites =>
      simp only [act, Beat.kept, Beat.whole, Beat.chunks, Beat.acts, List.map_map, Function.comp_def, keptThread,
        wholeThread, List.append_nil, and_self]
    | serverMurmurs | serverEndsOutput | serverExits => exact ⟨rfl, rfl⟩
    | _ => cases served

theorem actsSilent (beat : Beat) : ∀ act ∈ beat.acts, (Client.Act.server act).move.isWrite = false := by
  intro act member
  cases beat with
  | woven chunks andEnds =>
    cases andEnds with
    | true => rw [List.mem_singleton.mp member]; rfl
    | false => cases member
  | step a =>
    cases a with
    | serverWrites chunks andEnds =>
      cases andEnds with
      | true => rw [List.mem_singleton.mp member]; rfl
      | false => cases member
    | serverMurmurs | serverEndsOutput | serverExits => rw [List.mem_singleton.mp member]; rfl
    | _ => cases member

theorem actInlaid {beat : Beat}
    (inlaid : Inlaid (fun i => (if s.served? = some i then poured i s beat.chunks else []) ++ more i) s t)
    (ended : ∀ i, DryAt i (s.act beat.kept).1 → more i = []) :
    Inlaid more (s.act beat.kept).1 (t.act beat.whole).1 ∧ (t.act beat.whole).2 = (s.act beat.kept).2 := by
  cases served : beat.isServed with
  | true =>
    rw [(servedActs served s).1] at ended ⊢
    rw [(servedActs served t).2]
    exact serverActsInlaid inlaid (actsSilent beat) ended
  | false =>
    cases beat with
    | woven => cases served
    | step a =>
      have silent : (Beat.step a).chunks = [] := by cases a <;> first | rfl | cases served
      simp only [silent, poured, ite_self, List.nil_append] at inlaid
      simp only [Beat.kept, Beat.whole] at ended ⊢
      cases a with
      | start => exact withHeldInlaid inlaid ended fun c d i w _ ended => startLastInlaid inlaid ended
      | activate => exact activateInlaid inlaid ended
      | stop | drop | didOpen | didChange | didClose | pull =>
        simp only [act] at ended ⊢
        exact hostCallInlaid inlaid _ ended
      | didOpenPath path text =>
        cases read : TextDocument.ofPath? path text with
        | some d =>
          simp only [act, read] at ended ⊢
          exact hostCallInlaid inlaid (.didOpen d) ended
        | none =>
          simp only [act, read] at ended ⊢
          exact withHeldInlaid inlaid ended fun _ _ _ _ _ _ => ⟨inlaid, rfl⟩
      | diagnostics uri =>
        refine withHeldInlaid inlaid ended fun c d i w padded _ => ⟨inlaid, ?_⟩
        rw [padded.same]
        rfl
      | clearOutput => exact withHeldInlaid inlaid ended fun _ _ _ _ _ _ => ⟨inlaid, rfl⟩
      | snapshot => exact ⟨inlaid, rfl⟩
      | _ => cases served

theorem reportsInlaid {before : Nat → Weave} {s' t' : Session} (inlaid : Inlaid before s t)
    (inlaid' : Inlaid more s' t') : t'.held?.map (·.phase) = s'.held?.map (·.phase) ∧ t.added t' = s.added s' := by
  constructor
  · rcases inlaidHeld inlaid' with ⟨none, none'⟩ | ⟨c, d, i, w, held, held', padded⟩
    · rw [none, none']
    · rw [held, held', padded.same]
      rfl
  · rw [added, added]
    congr 1
    refine List.ext_getElem? fun i => ?_
    simp only [List.getElem?_mapIdx]
    rw [inlaidView inlaid (fun c => c.log.length) fun _ _ => rfl]
    exact inlaidView inlaid' (fun c => c.log.drop _) (fun _ _ => rfl) i

theorem stepInlaid {beat : Beat} {beats : List Beat} (inlaid : Inlaid (fun i => output i s (beat :: beats)) s t) :
    Inlaid (fun i => output i (s.step beat.kept).1 beats) (s.step beat.kept).1 (t.step beat.whole).1 ∧
      (t.step beat.whole).2 = (s.step beat.kept).2 := by
  have calm := passesCalm inlaid.calm (actPasses s beat.kept)
  obtain ⟨acted, answered⟩ : Inlaid (fun i => output i (s.step beat.kept).1 beats) (s.act beat.kept).1
      (t.act beat.whole).1 ∧ (t.act beat.whole).2 = (s.act beat.kept).2 :=
    actInlaid inlaid fun i dry => outputDry calm dry beats
  obtain ⟨phase, events⟩ := reportsInlaid inlaid acted
  refine ⟨acted, ?_⟩
  simp only [step, answered, phase, events]

theorem runOn (steps : List Step) (s : Session) (reports : List Report) :
    steps.foldl (fun (s, reports) a =>
      let (s, report) := s.step a
      (s, reports ++ [report])) (s, reports) = ((s.run steps).1, reports ++ (s.run steps).2) := by
  induction steps generalizing s reports with
  | nil => simp [run]
  | cons a steps ih =>
    simp only [run, List.foldl_cons, List.nil_append]
    rw [ih, ih _ [(s.step a).2], List.append_assoc]

theorem runCons (a : Step) (steps : List Step) (s : Session) :
    s.run (a :: steps) = (((s.step a).1.run steps).1, (s.step a).2 :: ((s.step a).1.run steps).2) :=
  runOn steps (s.step a).1 [(s.step a).2]

theorem runInlaid {beats : List Beat} (inlaid : Inlaid (fun i => output i s beats) s t) :
    Inlaid (fun _ => []) (s.run (beats.map Beat.kept)).1 (t.run (beats.map Beat.whole)).1 ∧
      (t.run (beats.map Beat.whole)).2 = (s.run (beats.map Beat.kept)).2 := by
  induction beats generalizing s t with
  | nil => exact ⟨inlaid, rfl⟩
  | cons beat beats ih =>
    obtain ⟨stepped, report⟩ := stepInlaid inlaid
    obtain ⟨later, reports⟩ := ih stepped
    rw [List.map_cons, List.map_cons, runCons, runCons, report, reports]
    exact ⟨later, rfl⟩

structure Unmoved (s : Session) : Prop where
  -- the same answers and phases are reported, and the same events: messages, shown lines, results of calls,
  -- completions
  reports : ∀ beats : List Beat, (∀ i, Woven (output i s beats)) →
    (s.run (beats.map Beat.whole)).2 = (s.run (beats.map Beat.kept)).2
  -- the clients come to the same states and diagnostics. Only their unread output may differ
  clients : ∀ beats : List Beat, (∀ i, Woven (output i s beats)) →
    List.Forall₂ (fun c d => d = c.reread d.unread) (s.run (beats.map Beat.kept)).1.clients
      (s.run (beats.map Beat.whole)).1.clients

theorem unmovedFresh (calm : Calm s) (fresh : ∀ c ∈ s.clients, c.unread = []) : Unmoved s := by
  have inlaid (beats : List Beat) (woven : ∀ i, Woven (output i s beats)) :
      Inlaid (fun i => output i s beats) s s := by
    refine ⟨rfl, rfl, rfl, rfl, fun i c d own own' => ?_, fun i _ => woven i, calm, calm⟩
    cases own.symm.trans own'
    refine ⟨_, paddedSelf c (.inr ?_)⟩
    rw [fresh c (List.mem_of_getElem? own)]
    exact woven i
  refine ⟨fun beats woven => (runInlaid (inlaid beats woven)).2, fun beats woven => ?_⟩
  have after := (runInlaid (inlaid beats woven)).1
  refine List.forall₂_iff_get.mpr ⟨after.length.symm, fun i bound bound' => ?_⟩
  obtain ⟨w, padded⟩ := after.clients i _ _ (List.getElem?_eq_getElem bound) (List.getElem?_eq_getElem bound')
  have same := rereadSelf ((s.run (beats.map Beat.whole)).1.clients[i])
  conv at same => lhs; rw [padded.same, rereadTwice, ← padded.same]
  exact same.symm

/-- Frames without a message go unnoticed in every session of a configured client and of an extension. -/
structure Unnoticed : Prop where
  sessions : ∀ (machine : Machine) (config : Config), Unmoved (ofConfig machine config)
  extensions : ∀ (machine : Machine) (context : Context), Unmoved (ofContext machine context)

theorem unnoticed : Unnoticed where
  sessions machine config := by
    refine unmovedFresh (ofConfigCalm machine config []) fun c member => ?_
    rw [List.mem_singleton.mp member]
    rfl
  extensions machine context :=
    unmovedFresh (ofContextCalm machine context []) fun c member => nomatch member

end Session
end LspClient
