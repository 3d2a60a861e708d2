import Mathlib.Data.List.Nodup
import LspClient.Proofs.Client.Replies
import LspClient.Switchboard

/-! The callbacks of a switchboard. Each one that was registered waits, was called once, or was dropped, and
it waits for the next response with its number, as long as it is the latest of this number and nothing is
cancelled or closed. -/
namespace LspClient.Switchboard

inductive Ends (id : Int) : Op → Prop where
  | renewed : Ends id (.register id)
  | cancelled : Ends id (.cancel id)
  | answered {result error} : Ends id (.handle (.response id result error))
  | closed : Ends id .close

def Waits (ops : List Op) (place : Nat) (id : Int) : Prop :=
  ∃ before rest, ops = before ++ .register id :: rest ∧ before.length = place ∧ .close ∉ before ∧
    ∀ op ∈ rest, ¬ Ends id op

inductive Answers : Op → Int → Except ResponseError Json → Prop where
  | failed {id result error} : Answers (.handle (.response id result (some error))) id (.error error)
  | result {id value} : Answers (.handle (.response id (some value) none)) id (.ok value)
  | nothing {id} : Answers (.handle (.response id none none)) id (.ok .null)

inductive Drops (ops : List Op) : Op → Nat → Prop where
  | late {id} (closed : .close ∈ ops) : Drops ops (.register id) ops.length
  | renewed {id place} (waits : Waits ops place id) : Drops ops (.register id) place
  | cancelled {id place} (waits : Waits ops place id) : Drops ops (.cancel id) place
  | closed {id place} (waits : Waits ops place id) : Drops ops .close place

inductive Aside : Op → Prop where
  | asked {id method params} : Aside (.handle (.request id method params))
  | noted {method params} : Aside (.handle (.notification method params))
  | listening {name} : Aside (.listen name)

variable {κ : Type}

inductive Operated (callback : κ) (s : Switchboard κ) : Op → Switchboard κ → Effect κ → Prop where
  | refused {id} (closed : s.router.closed = true) :
      Operated callback s (.register id) s {dropped := [callback]}
  | registered {id} (listening : s.router.closed = false) :
      Operated callback s (.register id)
        {s with router := ⟨(s.router.release id).1.pending ++ [(id, callback)], false⟩}
        {dropped := (s.router.owner? id).toList}
  | cancelled {id} : Operated callback s (.cancel id) {s with router := (s.router.release id).1}
      {flag := some (s.router.owner? id).isSome, dropped := (s.router.owner? id).toList}
  | listening {name} : Operated callback s (.listen name) {s with listener := some name} {}
  | asked {id method params} :
      Operated callback s (.handle (.request id method params)) s {reply := some (Router.replyTo id method params)}
  | noted {method params told lines} :
      Operated callback s (.handle (.notification method params)) s {told := told, lines := lines}
  | answered {id result error owner} (known : s.router.owner? id = some owner) :
      Operated callback s (.handle (.response id result error)) {s with router := (s.router.release id).1}
        {called := [(id, owner, Router.outcome result error)]}
  | unknown {id result error} (unknown : s.router.owner? id = none) :
      Operated callback s (.handle (.response id result error)) s {}
  | closed : Operated callback s .close {s with router := ⟨[], true⟩} {dropped := s.router.pending.map Prod.snd}

theorem notedEffect (method : String) (params : Option Json) (listener : Option String) :
    ∃ told lines, (Router.notified (κ := κ) method params).foldl (deliver listener) {} =
      {told := told, lines := lines} := by
  unfold Router.notified
  repeat' split
  all_goals exact ⟨_, _, rfl⟩

theorem operated (callback : κ) (op : Op) (s : Switchboard κ) :
    Operated callback s op (s.operate callback op).1 (s.operate callback op).2 := by
  cases op with
  | register id =>
    cases closed : s.router.closed with
    | true =>
      simp only [operate, Router.registerClosed closed]
      exact .refused closed
    | false =>
      have own : s.router.register id callback =
          (⟨(s.router.release id).1.pending ++ [(id, callback)], false⟩, s.router.owner? id) := by
        simp [Router.register, Router.release, closed]
      simp only [operate, own]
      exact .registered closed
  | cancel id => exact .cancelled
  | listen name => exact .listening
  | handle m =>
    cases m with
    | request id method params => exact .asked
    | notification method params =>
      obtain ⟨told, lines, same⟩ := notedEffect (κ := κ) method params s.listener
      simp only [operate, Router.handle, same]
      exact .noted
    | response id result error =>
      cases owner : s.router.owner? id with
      | some owner' =>
        simp only [operate, Router.handleKnown owner]
        exact .answered owner
      | none =>
        simp only [operate, Router.handleUnknown owner]
        exact .unknown owner
  | close => exact .closed

theorem asideOperated {s s' : Switchboard κ} {callback : κ} {op : Op} {e : Effect κ} (aside : Aside op)
    (operated : Operated callback s op s' e) : s'.router = s.router ∧ e.called = [] ∧ e.dropped = [] := by
  cases aside <;> cases operated <;> exact ⟨rfl, rfl, rfl⟩

theorem operatedReply {s s' : Switchboard κ} {callback : κ} {op : Op} {e : Effect κ}
    (operated : Operated callback s op s' e) :
    (∃ m, e.reply = some m) ↔ ∃ id method params, op = .handle (.request id method params) := by
  cases operated with
  | asked => exact ⟨fun _ => ⟨_, _, _, rfl⟩, fun _ => ⟨_, rfl⟩⟩
  | _ => exact ⟨nofun, nofun⟩

def Keyed (s : Switchboard κ) : Prop := (s.router.pending.map Prod.fst).Nodup

def held (s : Switchboard κ) : List κ := s.router.pending.map Prod.snd

variable {s s' : Switchboard κ} {callback owner : κ} {op : Op} {e : Effect κ} {id : Int}

theorem lookupMember {slots : List (Int × κ)} (keyed : (slots.map Prod.fst).Nodup) :
    slots.lookup id = some owner ↔ (id, owner) ∈ slots := by
  induction slots with
  | nil => simp
  | cons slot slots ih =>
    obtain ⟨first, own⟩ := slot
    rw [List.map_cons, List.nodup_cons] at keyed
    by_cases here : id = first
    · subst here
      have once : (id, owner) ∉ slots := fun member => keyed.1 (List.mem_map.mpr ⟨_, member, rfl⟩)
      simp [once, eq_comm]
    · rw [List.lookup_cons, beq_false_of_ne here, ih keyed.2]
      simp [here]

theorem releasedSplit {before rest : List (Int × κ)} (keyed : Keyed s)
    (split : s.router.pending = before ++ (id, owner) :: rest) :
    (s.router.release id).1.pending = before ++ rest := by
  rw [Keyed, split, List.map_append, List.map_cons, List.nodup_middle, List.nodup_cons] at keyed
  have others : ∀ slot ∈ before ++ rest, (slot.1 != id) = true := fun slot member =>
    bne_iff_ne.mpr fun same => keyed.1 (List.map_append ▸ List.mem_map.mpr ⟨slot, member, same⟩)
  have kept := List.filter_eq_self.mpr others
  rw [List.filter_append] at kept
  simp [Router.release, split, kept]

theorem releasedHeld (keyed : Keyed s) (id : Int) :
    ((s.router.release id).1.pending.map Prod.snd ++ (s.router.owner? id).toList).Perm s.held := by
  cases known : s.router.owner? id with
  | none =>
    rw [Router.releaseUnknown known]
    simp [held]
  | some owner =>
    obtain ⟨before, rest, split⟩ := List.append_of_mem ((lookupMember keyed).mp known)
    rw [releasedSplit keyed split, held, split, List.map_append, List.map_append, List.append_assoc]
    exact (List.perm_append_singleton owner _).append_left _

theorem releasedKeyed (keyed : Keyed s) (id : Int) : ((s.router.release id).1.pending.map Prod.fst).Nodup :=
  keyed.sublist (List.filter_sublist.map Prod.fst)

theorem releasedMember {slot : Int × κ} :
    slot ∈ (s.router.release id).1.pending ↔ slot ∈ s.router.pending ∧ slot.1 ≠ id := by
  simp [Router.release]

theorem operatedKeyed (keyed : Keyed s) (operated : Operated callback s op s' e) : Keyed s' := by
  cases operated with
  | refused | listening | asked | noted | unknown => exact keyed
  | cancelled | answered => exact releasedKeyed keyed _
  | closed => exact List.nodup_nil
  | @registered id listening =>
    rw [Keyed, List.map_append, List.map_singleton, List.nodup_append_comm, List.singleton_append, List.nodup_cons]
    refine ⟨fun member => ?_, releasedKeyed keyed id⟩
    obtain ⟨slot, own, same⟩ := List.mem_map.mp member
    exact (releasedMember.mp own).2 same

def called (e : Effect κ) : List κ := e.called.map fun call => call.2.1

def newcomers (callback : κ) : Op → List κ
  | .register _ => [callback]
  | _ => []

theorem balanced (keyed : Keyed s) (operated : Operated callback s op s' e) :
    (s'.held ++ (called e ++ e.dropped)).Perm (s.held ++ newcomers callback op) := by
  cases operated with
  | refused | listening | asked | noted | unknown => exact .refl _
  | cancelled => simpa [held, called, newcomers] using releasedHeld keyed _
  | @answered id result error owner known =>
    have released := releasedHeld keyed id
    rw [known] at released
    simpa [held, called, newcomers] using released
  | closed => simp [held, called, newcomers]
  | @registered id listening =>
    have swapped : ([callback] ++ (s.router.owner? id).toList).Perm ((s.router.owner? id).toList ++ [callback]) :=
      List.perm_append_comm
    have released := (releasedHeld keyed id).append_right [callback]
    rw [List.append_assoc] at released
    simpa [held, called, newcomers] using (swapped.append_left _).trans released

variable {ops : List Op} {place : Nat}

theorem waitsOpen (waits : Waits ops place id) : .close ∉ ops := by
  obtain ⟨before, rest, rfl, _, open', going⟩ := waits
  rintro member
  rcases List.mem_append.mp member with early | late
  · exact open' early
  · rcases List.mem_cons.mp late with own | late
    · cases own
    · exact going _ late .closed

theorem waitsMore : Waits (ops ++ [op]) place id ↔
    Waits ops place id ∧ ¬ Ends id op ∨ op = .register id ∧ place = ops.length ∧ .close ∉ ops := by
  constructor
  · rintro ⟨before, rest, split, length, open', going⟩
    rcases List.eq_nil_or_concat rest with rfl | ⟨rest, last, rfl⟩
    · obtain ⟨rfl, own⟩ := List.append_inj' split rfl
      cases own
      exact .inr ⟨rfl, length.symm, open'⟩
    · have ends : ops ++ [op] = (before ++ .register id :: rest) ++ [last] := by simp [split]
      obtain ⟨rfl, own⟩ := List.append_inj' ends rfl
      cases own
      rw [List.concat_eq_append, List.forall_mem_append, List.forall_mem_singleton] at going
      exact .inl ⟨⟨before, rest, rfl, length, open', going.1⟩, going.2⟩
  · rintro (⟨⟨before, rest, rfl, length, open', going⟩, going'⟩ | ⟨rfl, rfl, open'⟩)
    · refine ⟨before, rest ++ [op], by simp, length, open', ?_⟩
      exact List.forall_mem_append.mpr ⟨going, List.forall_mem_singleton.mpr going'⟩
    · exact ⟨ops, [], rfl, rfl, open', List.forall_mem_nil _⟩

theorem endsRegister {other : Int} : Ends id (.register other) ↔ id = other :=
  ⟨fun | .renewed => rfl, fun same => same ▸ .renewed⟩

theorem endsCancel {other : Int} : Ends id (.cancel other) ↔ id = other :=
  ⟨fun | .cancelled => rfl, fun same => same ▸ .cancelled⟩

theorem endsAnswered {other : Int} {result : Option Json} {error : Option ResponseError} :
    Ends id (.handle (.response other result error)) ↔ id = other :=
  ⟨fun | .answered => rfl, fun same => same ▸ .answered⟩

theorem asideWaits {waits begins : Prop} (aside : Aside op) :
    waits ↔ waits ∧ ¬ Ends id op ∨ op = .register id ∧ begins := by
  have goes : ¬ Ends id op := by
    cases aside <;> rintro ⟨⟩
  have other : op ≠ .register id := by
    cases aside <;> rintro ⟨⟩
  simp [goes, other]

structure Kept (ops : List Op) (s : Switchboard Nat) : Prop where
  keyed : Keyed s
  closed : s.router.closed = true ↔ .close ∈ ops
  waiting : ∀ id place, (id, place) ∈ s.router.pending ↔ Waits ops place id

theorem keptMore {s s' : Switchboard Nat} {e : Effect Nat} (kept : Kept ops s)
    (operated : Operated ops.length s op s' e) : Kept (ops ++ [op]) s' where
  keyed := operatedKeyed kept.keyed operated
  closed := by
    rw [List.mem_append, List.mem_singleton, ← kept.closed]
    cases operated <;> simp_all [Router.release]
  waiting id place := by
    rw [waitsMore, ← kept.waiting, ← kept.closed]
    cases operated with
    | refused closed =>
      have none : ¬ (id, place) ∈ s.router.pending := fun member =>
        waitsOpen ((kept.waiting id place).mp member) (kept.closed.mp closed)
      simp [none, closed]
    | @registered other listening =>
      rw [List.mem_append, releasedMember, List.mem_singleton, endsRegister, Prod.mk.injEq]
      simp [listening, eq_comm]
    | @cancelled other => simp [releasedMember, endsCancel]
    | answered => simp [releasedMember, endsAnswered]
    | @unknown other result error unknown =>
      have none : (id, place) ∈ s.router.pending → id ≠ other := fun member same => by
        cases unknown.symm.trans ((lookupMember kept.keyed).mpr (same ▸ member))
      simpa [endsAnswered] using none
    | closed =>
      have ends : Ends id .close := .closed
      simp [ends]
    | listening => exact asideWaits .listening
    | asked => exact asideWaits .asked
    | noted => exact asideWaits .noted

theorem runMore (ops : List Op) (op : Op) :
    run (ops ++ [op]) = (((after ops).operate ops.length op).1, (run ops).2 ++ [effect ops op]) := by
  simp [run, after, effect, List.zipIdx_append]

theorem runKept (ops : List Op) : Kept ops (after ops) := by
  induction ops using List.reverseRecOn with
  | nil => exact ⟨List.nodup_nil, by simp [after, run, empty, Router.empty], fun id place => by
      simp [after, run, empty, Router.empty, Waits]⟩
  | append_singleton ops op ih =>
    rw [after, runMore]
    exact keptMore ih (operated ops.length op (after ops))

theorem answersOutcome {other : Int} {result : Option Json} {error : Option ResponseError}
    {r : Except ResponseError Json} :
    Answers (.handle (.response other result error)) id r ↔ id = other ∧ r = Router.outcome result error := by
  constructor
  · rintro (_ | _ | _) <;> exact ⟨rfl, rfl⟩
  · rintro ⟨rfl, rfl⟩
    cases error with
    | some e => exact .failed
    | none =>
      cases result with
      | some value => exact .result
      | none => exact .nothing

section
variable {s s' : Switchboard Nat} {e : Effect Nat} (kept : Kept ops s) (operated : Operated ops.length s op s' e)
include kept

theorem ownerWaits : s.router.owner? id = some place ↔ Waits ops place id :=
  (lookupMember kept.keyed).trans (kept.waiting id place)

include operated

theorem calledWaits {r : Except ResponseError Json} :
    (id, place, r) ∈ e.called ↔ Waits ops place id ∧ Answers op id r := by
  cases operated with
  | @answered other result error owner known =>
    rw [List.mem_singleton, Prod.mk.injEq, Prod.mk.injEq, answersOutcome]
    constructor
    · rintro ⟨rfl, rfl, same⟩
      exact ⟨(ownerWaits kept).mp known, rfl, same⟩
    · rintro ⟨waits, rfl, same⟩
      cases known.symm.trans ((ownerWaits kept).mpr waits)
      exact ⟨rfl, rfl, same⟩
  | @unknown other result error unknown =>
    refine ⟨nofun, ?_⟩
    rintro ⟨waits, answers⟩
    obtain ⟨rfl, _⟩ := answersOutcome.mp answers
    cases unknown.symm.trans ((ownerWaits kept).mpr waits)
  | refused | registered | cancelled | listening | asked | noted | closed =>
    exact ⟨nofun, fun ⟨_, answers⟩ => nomatch answers⟩

theorem droppedDrops : place ∈ e.dropped ↔ Drops ops op place := by
  cases operated with
  | @refused other closed =>
    have gone := kept.closed.mp closed
    rw [List.mem_singleton]
    constructor
    · rintro rfl
      exact .late gone
    · rintro (_ | waits | _ | _)
      · rfl
      · exact absurd gone (waitsOpen waits)
  | @registered other listening =>
    rw [Option.mem_toList, ownerWaits kept]
    refine ⟨.renewed, ?_⟩
    rintro (gone | waits | _ | _)
    · cases listening.symm.trans (kept.closed.mpr gone)
    · exact waits
  | cancelled =>
    rw [Option.mem_toList, ownerWaits kept]
    exact ⟨.cancelled, fun | .cancelled waits => waits⟩
  | closed =>
    rw [List.mem_map]
    constructor
    · rintro ⟨⟨id, _⟩, member, rfl⟩
      exact .closed ((kept.waiting id _).mp member)
    · rintro (_ | _ | _ | waits)
      exact ⟨_, (kept.waiting _ place).mpr waits, rfl⟩
  | listening | asked | noted | unknown | answered => exact ⟨nofun, nofun⟩

end

def pending (ops : List Op) : List Nat := (after ops).held

def allCalled (ops : List Op) : List Nat := (run ops).2.flatMap called

def allDropped (ops : List Op) : List Nat := (run ops).2.flatMap Effect.dropped

def registered (ops : List Op) : List Nat := ops.zipIdx.flatMap fun (op, place) => newcomers place op

theorem registeredMore (ops : List Op) (op : Op) :
    registered (ops ++ [op]) = registered ops ++ newcomers ops.length op := by
  simp [registered, List.zipIdx_append]

theorem runBalanced (ops : List Op) :
    (pending ops ++ (allCalled ops ++ allDropped ops)).Perm (registered ops) := by
  induction ops using List.reverseRecOn with
  | nil => exact .refl _
  | append_singleton ops op ih =>
    have step := balanced (runKept ops).keyed (operated ops.length op (after ops))
    rw [← effect] at step
    rw [registeredMore, pending, after, allCalled, allDropped, runMore, List.flatMap_append, List.flatMap_append,
      List.flatMap_singleton, List.flatMap_singleton]
    -- what the operation moves comes after what was there, so the parts are counted
    rw [List.perm_iff_count] at ih step ⊢
    intro place
    have before := ih place
    have moved := step place
    simp only [List.count_append, pending, allCalled, allDropped] at before moved ⊢
    omega

theorem newcomerPlace {callback : κ} (op : Op) (owner : κ) :
    owner ∈ newcomers callback op ↔ (∃ id, op = .register id) ∧ owner = callback := by
  cases op <;> simp [newcomers]

theorem registeredPlace (ops : List Op) (place : Nat) :
    place ∈ registered ops ↔ ∃ id, ops[place]? = some (.register id) := by
  induction ops using List.reverseRecOn with
  | nil => simp [registered]
  | append_singleton ops op ih =>
    rw [registeredMore, List.mem_append, ih, newcomerPlace]
    rcases Nat.lt_trichotomy place ops.length with early | rfl | late
    · simp [List.getElem?_append_left early, Nat.ne_of_lt early]
    · simp
    · have past : (ops ++ [op]).length ≤ place := by
        rw [List.length_append, List.length_singleton]
        exact late
      simp [List.getElem?_eq_none past, Nat.ne_of_gt late, Nat.le_of_lt late]

theorem registeredNodup (ops : List Op) : (registered ops).Nodup := by
  induction ops using List.reverseRecOn with
  | nil => exact List.nodup_nil
  | append_singleton ops op ih =>
    rw [registeredMore, List.nodup_append]
    refine ⟨ih, by cases op <;> simp [newcomers], ?_⟩
    rintro place earlier _ newer rfl
    obtain ⟨id, own⟩ := (registeredPlace ops place).mp earlier
    obtain ⟨_, rfl⟩ := (newcomerPlace op place).mp newer
    simp at own

theorem registeredOnce (ops : List Op) (place : Nat) : (pending ops).count place + (allCalled ops).count place +
    (allDropped ops).count place = (registered ops).count place := by
  rw [← (runBalanced ops).count_eq, List.count_append, List.count_append, Nat.add_assoc]

/-- After these operations, whatever comes next. -/
structure Conserved (ops : List Op) : Prop where
  -- each callback that was registered is pending, was called, or was dropped, and this once
  once : ∀ place id, ops[place]? = some (.register id) →
    (pending ops).count place + (allCalled ops).count place + (allDropped ops).count place = 1
  pending : ∀ id place, (id, place) ∈ (after ops).router.pending ↔ Waits ops place id
  latest : ∀ id place other, Waits ops place id → Waits ops other id → place = other
  called : ∀ op id place result,
    (id, place, result) ∈ (effect ops op).called ↔ Waits ops place id ∧ Answers op id result
  dropped : ∀ op place, place ∈ (effect ops op).dropped ↔ Drops ops op place
  cancelled : ∀ id, ∃ flag, (effect ops (.cancel id)).flag = some flag ∧ (flag = true ↔ ∃ place, Waits ops place id)
  closed : .close ∈ ops → (after ops).router.pending = [] ∧ ∀ op, (effect ops op).called = []
  aside : ∀ op, Aside op → (after (ops ++ [op])).router = (after ops).router ∧ (effect ops op).called = [] ∧
    (effect ops op).dropped = []
  replied : ∀ op, (∃ m, (effect ops op).reply = some m) ↔ ∃ id method params, op = .handle (.request id method params)
  reply : ∀ id method params m, (effect ops (.handle (.request id method params))).reply = some m →
    Reply (.request id method params) m

theorem conserved (ops : List Op) : Conserved ops := by
  have kept := runKept ops
  have step (op : Op) : ∃ s', Operated ops.length (after ops) op s' (effect ops op) :=
    ⟨_, operated ops.length op (after ops)⟩
  exact {
    once := fun place id held => by
      have member := (registeredPlace ops place).mpr ⟨id, held⟩
      rw [registeredOnce, List.count_eq_one_of_mem (registeredNodup ops) member]
    pending := kept.waiting
    latest := fun id place other waits waits' =>
      Option.some.inj (((ownerWaits kept).mpr waits).symm.trans ((ownerWaits kept).mpr waits'))
    called := fun op id place result =>
      let ⟨_, operated⟩ := step op
      calledWaits kept operated
    dropped := fun op place =>
      let ⟨_, operated⟩ := step op
      droppedDrops kept operated
    cancelled := fun id => by
      refine ⟨_, rfl, ?_⟩
      rw [Option.isSome_iff_exists]
      exact exists_congr fun place => ownerWaits kept
    closed := fun closed => by
      have none (id : Int) (place : Nat) : ¬ Waits ops place id := fun waits => waitsOpen waits closed
      refine ⟨List.eq_nil_iff_forall_not_mem.mpr fun (id, place) member => ?_, fun op => ?_⟩
      · exact none id place ((kept.waiting id place).mp member)
      · obtain ⟨_, operated⟩ := step op
        exact List.eq_nil_iff_forall_not_mem.mpr fun (id, place, _) member =>
          none id place ((calledWaits kept operated).mp member).1
    aside := fun op aside => by
      rw [after, runMore]
      exact asideOperated aside (operated ops.length op (after ops))
    replied := fun op =>
      let ⟨_, operated⟩ := step op
      operatedReply operated
    reply := fun id method params m replied => by
      cases replied
      exact replyReply id method params }

end LspClient.Switchboard
