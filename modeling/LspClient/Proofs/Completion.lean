import Mathlib.Data.List.Induction
import LspClient.Completion
import LspClient.Proofs.Split

/-! A completion behaves as a cell that is filled at most once and emptied at most once, however its reader and its
completer take turns. What it answers depends on what was done before alone: on the first thing that the completer
did, and on whether the value was read since. -/
namespace LspClient

variable {α : Type}

inductive Use (α : Type) where
  | isReady
  | tryTake
  | wait
  | drop
  | complete (value : α)
  | dropCompleter
  deriving DecidableEq, Repr

inductive Told (α : Type) where
  | done
  | unable
  | ready (yes : Bool)
  | blocked
  | found (value : Option α)
  deriving DecidableEq, Repr

namespace Use

def Reads (u : Use α) : Prop := u = .tryTake ∨ u = .wait

def resolves? : Use α → Option (Option α)
  | .complete value => some (some value)
  | .dropCompleter => some none
  | _ => none

end Use

namespace Completion

def Taken.told : Taken α → Told α
  | .gone => .unable
  | .blocked => .blocked
  | .found value => .found value

def use (c : Completion α) : Use α → Completion α × Told α
  | .isReady =>
    let (c, yes) := c.isReady
    (c, match yes with
      | some yes => .ready yes
      | none => .unable)
  | .tryTake =>
    let (c, taken) := c.tryTake
    (c, taken.told)
  | .wait =>
    let (c, taken) := c.wait
    (c, taken.told)
  | .drop => (c.drop, .done)
  | .complete value =>
    match c.complete? value with
    | some c => (c, .done)
    | none => (c, .unable)
  | .dropCompleter => (c.dropCompleter, .done)

def after (c : Completion α) (uses : List (Use α)) : Completion α := uses.foldl (fun c u => (c.use u).1) c

def answers (c : Completion α) : List (Use α) → List (Told α)
  | [] => []
  | u :: uses => (c.use u).2 :: answers (c.use u).1 uses

end Completion

namespace Cell

def isReady : Cell α → Bool
  | .unresolved => false
  | _ => true

def take : Cell α → Cell α × Option α
  | .holding value => (.empty, some value)
  | cell => (cell, none)

def resolve (found : Option α) : Cell α → Cell α
  | .unresolved =>
    match found with
    | some value => .holding value
    | none => .empty
  | cell => cell

end Cell

/-- A cell with those who hold it: without its reader there is no cell, and nobody may be left to complete it. -/
structure Promise (α : Type) where
  cell : Option (Cell α)
  completer : Bool
  deriving DecidableEq, Repr

namespace Promise

def fresh : Promise α := ⟨some .unresolved, true⟩

def resolve (found : Option α) (p : Promise α) : Promise α := ⟨p.cell.map (Cell.resolve found), false⟩

def use (p : Promise α) : Use α → Promise α × Told α
  | .isReady => (p, (p.cell.map fun cell => .ready cell.isReady).getD .unable)
  | .tryTake =>
    match p.cell with
    | some cell => ({p with cell := some cell.take.1}, .found cell.take.2)
    | none => (p, .unable)
  | .wait =>
    match p.cell with
    | some .unresolved => (p, .blocked)
    | some cell => ({p with cell := none}, .found cell.take.2)
    | none => (p, .unable)
  | .drop => ({p with cell := none}, .done)
  | .complete value => if p.completer then (p.resolve (some value), .done) else (p, .unable)
  | .dropCompleter => (if p.completer then p.resolve none else p, .done)

def after (p : Promise α) (uses : List (Use α)) : Promise α := uses.foldl (fun p u => (p.use u).1) p

def answers (p : Promise α) : List (Use α) → List (Told α)
  | [] => []
  | u :: uses => (p.use u).2 :: answers (p.use u).1 uses

end Promise

namespace Completion

inductive Shows : Completion α → Promise α → Prop where
  | waiting : Shows ⟨some .listening, ⟨none, true⟩⟩ ⟨some .unresolved, true⟩
  | sent (value : α) : Shows ⟨some .listening, ⟨some value, false⟩⟩ ⟨some (.holding value), false⟩
  | forsaken : Shows ⟨some .listening, ⟨none, false⟩⟩ ⟨some .empty, false⟩
  | kept (value : α) : Shows ⟨some (.settled (some value)), ⟨none, false⟩⟩ ⟨some (.holding value), false⟩
  | spent : Shows ⟨some (.settled none), ⟨none, false⟩⟩ ⟨some .empty, false⟩
  | gone (completer : Bool) : Shows ⟨none, ⟨none, completer⟩⟩ ⟨none, completer⟩

variable {c : Completion α} {p : Promise α} {u : Use α} {uses past : List (Use α)} {value : α}

theorem showsCell (shows' : Shows c p) : c.cell = p.cell := by cases shows' <;> rfl

theorem useShows (shows' : Shows c p) (u : Use α) :
    Shows (c.use u).1 (p.use u).1 ∧ (c.use u).2 = (p.use u).2 := by
  cases shows' with
  | waiting => cases u <;> exact ⟨by constructor, rfl⟩
  | sent value => cases u <;> exact ⟨by constructor, rfl⟩
  | forsaken => cases u <;> exact ⟨by constructor, rfl⟩
  | kept value => cases u <;> exact ⟨by constructor, rfl⟩
  | spent => cases u <;> exact ⟨by constructor, rfl⟩
  | gone completer => cases completer <;> cases u <;> exact ⟨by constructor, rfl⟩

theorem afterShows (shows' : Shows c p) (uses : List (Use α)) : Shows (c.after uses) (p.after uses) := by
  induction uses generalizing c p with
  | nil => exact shows'
  | cons u uses ih => exact ih (useShows shows' u).1

theorem answersShow (shows' : Shows c p) (uses : List (Use α)) : c.answers uses = p.answers uses := by
  induction uses generalizing c p with
  | nil => rfl
  | cons u uses ih =>
    obtain ⟨next, same⟩ := useShows shows' u
    rw [answers, Promise.answers, same, ih next]

end Completion

namespace Use

variable {past : List (Use α)} {u v : Use α} {value other : α}

def resolution (past : List (Use α)) : Option (Option α) := past.findSome? resolves?

def Spent (past : List (Use α)) : Prop :=
  ∃ before u after, past = before ++ u :: after ∧ (u = .drop ∨ u = .wait ∧ resolution before ≠ none)

def Offers (value : α) (past : List (Use α)) : Prop :=
  ∃ before after, past = before ++ .complete value :: after ∧ resolution before = none ∧ ∀ u ∈ after, ¬ u.Reads

theorem resolutionLater (more : List (Use α)) (resolved : resolution past ≠ none) :
    resolution (past ++ more) = resolution past := by
  rw [resolution, List.findSome?_append]
  cases found : past.findSome? resolves? with
  | none => exact absurd found resolved
  | some found' => rw [Option.some_or, resolution, found]

theorem resolutionFirst (more : List (Use α)) (unresolved : resolution past = none) :
    resolution (past ++ more) = resolution more := by
  rw [resolution, List.findSome?_append, show past.findSome? resolves? = none from unresolved, Option.none_or]
  rfl

theorem resolutionLast (u : Use α) (unresolved : resolution past = none) :
    resolution (past ++ [u]) = u.resolves? := by
  rw [resolutionFirst [u] unresolved, resolution, List.findSome?_singleton]

theorem spentLater (more : List (Use α)) (spent : Spent past) : Spent (past ++ more) := by
  obtain ⟨before, u, after, rfl, ends⟩ := spent
  exact ⟨before, u, after ++ more, by simp, ends⟩

theorem spentLast : Spent (past ++ [u]) ↔ Spent past ∨ u = .drop ∨ u = .wait ∧ resolution past ≠ none := by
  constructor
  · rintro ⟨before, v, after, split, ends⟩
    rcases splitLast split with ⟨_, rfl, rfl⟩ | ⟨short, _, rfl⟩
    · exact .inr ends
    · exact .inl ⟨before, v, short, rfl, ends⟩
  · rintro (spent | ends)
    · exact spentLater [u] spent
    · exact ⟨past, u, [], rfl, ends⟩

theorem offersLast : Offers value (past ++ [u]) ↔
    Offers value past ∧ ¬ u.Reads ∨ u = .complete value ∧ resolution past = none := by
  constructor
  · rintro ⟨before, after, split, first, unread⟩
    rcases splitLast split with ⟨_, rfl, same⟩ | ⟨short, rfl, rfl⟩
    · exact .inr ⟨same.symm, first⟩
    · rw [List.forall_mem_append, List.forall_mem_singleton] at unread
      exact .inl ⟨⟨before, short, rfl, first, unread.1⟩, unread.2⟩
  · rintro (⟨⟨before, after, rfl, first, unread⟩, own⟩ | ⟨rfl, first⟩)
    · refine ⟨before, after ++ [u], by simp, first, ?_⟩
      exact List.forall_mem_append.mpr ⟨unread, List.forall_mem_singleton.mpr own⟩
    · exact ⟨past, [], rfl, first, nofun⟩

theorem offersResolution (offers : Offers value past) : resolution past = some (some value) := by
  obtain ⟨before, after, rfl, first, _⟩ := offers
  rw [resolutionFirst _ first]
  rfl

theorem offersOver {more : List (Use α)} (resolved : resolution past ≠ none) (reads : u.Reads) :
    ¬ Offers value (past ++ u :: more) := by
  rintro ⟨before, after, split, first, unread⟩
  rcases splitAppend split with ⟨short, rfl, _⟩ | ⟨later, rfl, _⟩
  · exact unread u (by simp) reads
  · rw [resolutionLater later resolved] at first
    exact resolved first

end Use

namespace Promise
open Use

variable {past : List (Use α)} {p : Promise α} {u : Use α}

inductive Stands (past : List (Use α)) : Promise α → Prop where
  | unresolved (held : ¬ Spent past) (unresolved : resolution past = none) : Stands past ⟨some .unresolved, true⟩
  | holding {value} (held : ¬ Spent past) (offers : Offers value past) :
      Stands past ⟨some (.holding value), false⟩
  | empty (held : ¬ Spent past) (resolved : resolution past ≠ none) (none : ∀ value, ¬ Offers value past) :
      Stands past ⟨some .empty, false⟩
  | gone (spent : Spent past) : Stands past ⟨none, (resolution past).isNone⟩

theorem heldLast (held : ¬ Spent past) (alive : u ≠ .drop) (waits : u = .wait → resolution past = none) :
    ¬ Spent (past ++ [u]) := by
  rw [spentLast]
  rintro (spent | gone | ⟨wait, resolved⟩)
  · exact held spent
  · exact alive gone
  · exact resolved (waits wait)

theorem goneLast (spent : Spent (past ++ [u])) {completer : Bool}
    (same : completer = (resolution (past ++ [u])).isNone) : Stands (past ++ [u]) ⟨none, completer⟩ :=
  same ▸ .gone spent

theorem emptyLast (held : ¬ Spent past) (resolved : resolution past ≠ none) (alive : u ≠ .drop) (wait : u ≠ .wait)
    (none : ∀ value, ¬ Offers value (past ++ [u])) : Stands (past ++ [u]) ⟨some .empty, false⟩ :=
  .empty (heldLast held alive fun own => absurd own wait) (by rwa [resolutionLater [u] resolved]) none

theorem useUnresolved (held : ¬ Spent past) (unresolved : resolution past = none) (u : Use α) :
    Stands (past ++ [u]) ((⟨some .unresolved, true⟩ : Promise α).use u).1 := by
  have last := resolutionLast u unresolved
  cases u with
  | isReady | tryTake | wait => exact .unresolved (heldLast held nofun fun _ => unresolved) last
  | drop => exact goneLast (spentLast.mpr (.inr (.inl rfl))) (by rw [last]; rfl)
  | complete value => exact .holding (heldLast held nofun nofun) (offersLast.mpr (.inr ⟨rfl, unresolved⟩))
  | dropCompleter =>
    refine .empty (heldLast held nofun nofun) (by rw [last]; exact Option.some_ne_none _) fun value offers => ?_
    have own := (offersResolution offers).symm.trans last
    cases own

theorem useHolding {value : α} (held : ¬ Spent past) (offers : Offers value past) (u : Use α) :
    Stands (past ++ [u]) ((⟨some (.holding value), false⟩ : Promise α).use u).1 := by
  have resolved : resolution past ≠ none := by simp [offersResolution offers]
  have last := resolutionLater [u] resolved
  have spent : (resolution (past ++ [u])).isNone = false := by simp [last, offersResolution offers]
  have unread : ¬ u.Reads → Offers value (past ++ [u]) := fun own => offersLast.mpr (.inl ⟨offers, own⟩)
  cases u with
  | isReady | complete | dropCompleter =>
    exact .holding (heldLast held nofun nofun) (unread (by rintro (own | own) <;> cases own))
  | tryTake => exact emptyLast held resolved nofun nofun fun _ => offersOver resolved (.inl rfl)
  | wait => exact goneLast (spentLast.mpr (.inr (.inr ⟨rfl, resolved⟩))) spent.symm
  | drop => exact goneLast (spentLast.mpr (.inr (.inl rfl))) spent.symm

theorem useEmpty (held : ¬ Spent past) (resolved : resolution past ≠ none) (none : ∀ value, ¬ Offers value past)
    (u : Use α) : Stands (past ++ [u]) ((⟨some .empty, false⟩ : Promise α).use u).1 := by
  have last := resolutionLater [u] resolved
  have spent : (resolution (past ++ [u])).isNone = false := by
    rw [last, Option.isNone_eq_false_iff, Option.isSome_iff_ne_none]
    exact resolved
  have unoffered : ∀ value, ¬ Offers value (past ++ [u]) := fun value offers => by
    rcases offersLast.mp offers with ⟨earlier, _⟩ | ⟨_, unresolved⟩
    · exact none value earlier
    · exact resolved unresolved
  cases u with
  | isReady | tryTake | complete | dropCompleter => exact emptyLast held resolved nofun nofun unoffered
  | wait => exact goneLast (spentLast.mpr (.inr (.inr ⟨rfl, resolved⟩))) spent.symm
  | drop => exact goneLast (spentLast.mpr (.inr (.inl rfl))) spent.symm

theorem useGone (spent : Spent past) (u : Use α) :
    Stands (past ++ [u]) ((⟨none, (resolution past).isNone⟩ : Promise α).use u).1 := by
  have spent := spentLater [u] spent
  cases first : resolution past with
  | none =>
    have last := resolutionLast u first
    cases u <;> exact goneLast spent (by rw [last]; rfl)
  | some found =>
    have last := resolutionLater [u] (by simp [first] : resolution past ≠ none)
    cases u <;> exact goneLast spent (by rw [last, first])

theorem useStands (stands : Stands past p) (u : Use α) : Stands (past ++ [u]) (p.use u).1 := by
  cases stands with
  | unresolved held unresolved => exact useUnresolved held unresolved u
  | holding held offers => exact useHolding held offers u
  | empty held resolved none => exact useEmpty held resolved none u
  | gone spent => exact useGone spent u

theorem afterStands (past : List (Use α)) : Stands past (fresh.after past) := by
  induction past using List.reverseRecOn with
  | nil => exact .unresolved (fun ⟨_, _, _, split, _⟩ => by simp at split) rfl
  | append_singleton past u ih =>
    rw [after, List.foldl_append]
    exact useStands ih u

end Promise

namespace Completion
open Use Promise

def told (past : List (Use α)) (u : Use α) : Told α := (((pending : Completion α).after past).use u).2

structure OneShot (past : List (Use α)) : Prop where
  agrees : (pending : Completion α).answers past = Promise.fresh.answers past
  cell : ((pending : Completion α).after past).cell = (Promise.fresh.after past).cell
  unresolved : told past .isReady = .ready false ↔ ¬ Spent past ∧ resolution past = none
  resolved : told past .isReady = .ready true ↔ ¬ Spent past ∧ resolution past ≠ none
  stays : ∀ more, told past .isReady = .ready true → ¬ Spent (past ++ more) →
    told (past ++ more) .isReady = .ready true
  keeps : ∀ more u, told (past ++ .isReady :: more) u = told (past ++ more) u
  found : ∀ u value, u.Reads → (told past u = .found (some value) ↔ ¬ Spent past ∧ Offers value past)
  once : ∀ u value more v other, told past u = .found (some value) →
    told (past ++ u :: more) v ≠ .found (some other)
  tried : told past .tryTake = .found none ↔ ¬ Spent past ∧ ∀ value, ¬ Offers value past
  waited : told past .wait = .found none ↔
    ¬ Spent past ∧ resolution past ≠ none ∧ ∀ value, ¬ Offers value past
  blocked : told past .wait = .blocked ↔ ¬ Spent past ∧ resolution past = none
  forsaken : resolution past = some none → ¬ Spent past → told past .isReady = .ready true ∧
    told past .tryTake = .found none ∧ told past .wait = .found none
  -- without a reader the completer is used up all the same, and nobody finds what it leaves
  harmless : ∀ value, Spent past → resolution past = none → told past (.complete value) = .done ∧
    ∀ u, u.Reads → told (past ++ [.complete value]) u = .unable
  -- one that is ready from the beginning is a pending one that was completed
  completed : ∀ value, (ready value).answers past =
    ((pending : Completion α).after [.complete value]).answers past

theorem toldCell (past : List (Use α)) (u : Use α) : told past u = ((Promise.fresh.after past).use u).2 :=
  (useShows (afterShows .waiting past) u).2

theorem toldReady (past : List (Use α)) :
    (told past .isReady = .ready false ↔ ¬ Spent past ∧ resolution past = none) ∧
      (told past .isReady = .ready true ↔ ¬ Spent past ∧ resolution past ≠ none) := by
  rw [toldCell]
  have stands := afterStands past
  generalize Promise.fresh.after past = p at stands
  cases stands with
  | unresolved held unresolved => simp [Promise.use, Cell.isReady, held, unresolved]
  | holding held offers => simp [Promise.use, Cell.isReady, held, offersResolution offers]
  | empty held resolved none => simp [Promise.use, Cell.isReady, held, resolved]
  | gone spent => simp [Promise.use, spent]

theorem toldFound (past : List (Use α)) {u : Use α} (reads : u.Reads) (value : α) :
    told past u = .found (some value) ↔ ¬ Spent past ∧ Offers value past := by
  rw [toldCell]
  have stands := afterStands past
  generalize Promise.fresh.after past = p at stands
  cases stands with
  | unresolved held unresolved =>
    have none : ¬ Offers value past := fun offers => by simp [offersResolution offers] at unresolved
    rcases reads with rfl | rfl <;> simp [Promise.use, Cell.take, none]
  | @holding own held offers =>
    have only : Offers value past ↔ own = value := by
      refine ⟨fun other => ?_, fun same => same ▸ offers⟩
      have both := (offersResolution offers).symm.trans (offersResolution other)
      simpa using both
    rcases reads with rfl | rfl <;> simp [Promise.use, Cell.take, held, only]
  | empty held resolved none => rcases reads with rfl | rfl <;> simp [Promise.use, Cell.take, none]
  | gone spent => rcases reads with rfl | rfl <;> simp [Promise.use, spent]

theorem toldNothing (past : List (Use α)) :
    (told past .tryTake = .found none ↔ ¬ Spent past ∧ ∀ value, ¬ Offers value past) ∧
      (told past .wait = .found none ↔ ¬ Spent past ∧ resolution past ≠ none ∧ ∀ value, ¬ Offers value past) ∧
      (told past .wait = .blocked ↔ ¬ Spent past ∧ resolution past = none) := by
  rw [toldCell, toldCell]
  have stands := afterStands past
  generalize Promise.fresh.after past = p at stands
  cases stands with
  | unresolved held unresolved =>
    have none : ∀ value, ¬ Offers value past := fun value offers => by simp [offersResolution offers] at unresolved
    simp [Promise.use, Cell.take, held, unresolved, none]
  | @holding value held offers =>
    have some : ∃ value, Offers value past := ⟨value, offers⟩
    simp [Promise.use, Cell.take, held, offersResolution offers, some]
  | empty held resolved none => simp [Promise.use, Cell.take, held, resolved, none]
  | gone spent => simp [Promise.use, spent]

theorem foundReads {past : List (Use α)} {u : Use α} {found : Option α} (told' : told past u = .found found) :
    u.Reads := by
  rw [toldCell] at told'
  cases u with
  | tryTake => exact .inl rfl
  | wait => exact .inr rfl
  | isReady =>
    cases held : (Promise.fresh.after past).cell <;> simp [Promise.use, held] at told'
  | complete value =>
    rw [Promise.use] at told'
    split at told' <;> cases told'
  | drop | dropCompleter => cases told'

theorem afterSpent {past : List (Use α)} (spent : Spent past) :
    Promise.fresh.after past = ⟨none, (resolution past).isNone⟩ := by
  have stands := afterStands past
  generalize Promise.fresh.after past = p at stands
  cases stands with
  | unresolved held | holding held | empty held => exact absurd spent held
  | gone => rfl

theorem toldSpent {past : List (Use α)} {u : Use α} (spent : Spent past) (reads : u.Reads) :
    told past u = .unable := by
  rw [toldCell, afterSpent spent]
  rcases reads with rfl | rfl <;> rfl

theorem toldOrphan {past : List (Use α)} (spent : Spent past) (unresolved : resolution past = none) (value : α) :
    told past (.complete value) = .done := by
  rw [toldCell, afterSpent spent, unresolved]
  rfl

theorem oneShot (past : List (Use α)) : OneShot past where
  agrees := answersShow .waiting past
  cell := showsCell (afterShows .waiting past)
  unresolved := (toldReady past).1
  resolved := (toldReady past).2
  stays more ready held := by
    have resolved := ((toldReady past).2.mp ready).2
    exact (toldReady _).2.mpr ⟨held, by rwa [resolutionLater more resolved]⟩
  keeps more u := by
    rw [toldCell, toldCell, Promise.after, List.foldl_append, Promise.after, List.foldl_append]
    rfl
  found u value reads := toldFound past reads value
  once u value more v other found again := by
    have reads := foundReads found
    have offers := ((toldFound past reads value).mp found).2
    have later := ((toldFound _ (foundReads again) other).mp again).2
    exact offersOver (by simp [offersResolution offers]) reads later
  tried := (toldNothing past).1
  waited := (toldNothing past).2.1
  blocked := (toldNothing past).2.2
  forsaken dropped held := by
    have resolved : resolution past ≠ none := by simp [dropped]
    have none : ∀ value, ¬ Offers value past := fun value offers => by
      simp [offersResolution offers] at dropped
    exact ⟨(toldReady past).2.mpr ⟨held, resolved⟩, (toldNothing past).1.mpr ⟨held, none⟩,
      (toldNothing past).2.1.mpr ⟨held, resolved, none⟩⟩
  harmless value spent unresolved :=
    ⟨toldOrphan spent unresolved value, fun _ reads => toldSpent (spentLater _ spent) reads⟩
  completed value := (answersShow (.kept value) past).trans (answersShow (.sent value) past).symm

end Completion
end LspClient
