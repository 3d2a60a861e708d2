import LspClient.Message
import LspClient.Proofs.Frame.Written

/-! An output into which frames were inserted whose bodies are no messages. Each octet is marked, so one stream
says what was written with the insertions and what without. However much of it has come, the front is a frame of
its own, or an inserted one, or not yet complete. -/
namespace LspClient
open Utf8 (Octets)

abbrev Weave := List (Bool × UInt8)

namespace Weave

def thread (inserted : Bool) (octets : Octets) : Weave := octets.map (inserted, ·)

def whole (w : Weave) : Octets := w.map Prod.snd

def kept (w : Weave) : Octets := (w.filter fun octet => !octet.1).map Prod.snd

def Framed (frame : Octets) (text : String) : Prop := Frame.read true frame = .body text []

/-- Whole frames are inserted, between frames, and their bodies are no messages. What follows the last inserted
frame may be anything. -/
inductive Woven : Weave → Prop
  | rest (octets : Octets) : Woven (thread false octets)
  | frame {frame : Octets} {text : String} {w : Weave} (framed : Framed frame text) (woven : Woven w) :
      Woven (thread false frame ++ w)
  | inserted {frame : Octets} {text : String} {w : Weave} (framed : Framed frame text)
      (unread : Message.parse? text = none) (woven : Woven w) : Woven (thread true frame ++ w)

variable {w more : Weave} {octets rest : Octets} {text : String} {inserted : Bool}

@[simp] theorem wholeThread (inserted : Bool) (octets : Octets) : whole (thread inserted octets) = octets := by
  have same : Prod.snd ∘ (inserted, ·) = @id UInt8 := rfl
  rw [whole, thread, List.map_map, same, List.map_id]

@[simp] theorem keptThread (octets : Octets) : kept (thread false octets) = octets := by
  have all : (thread false octets).filter (fun octet => !octet.1) = thread false octets := by
    rw [List.filter_eq_self]
    simp [thread]
  rw [kept, all]
  exact wholeThread false octets

@[simp] theorem keptInserted (octets : Octets) : kept (thread true octets) = [] := by
  have none : (thread true octets).filter (fun octet => !octet.1) = [] := by
    rw [List.filter_eq_nil_iff]
    simp [thread]
  rw [kept, none, List.map_nil]

@[simp] theorem wholeAppend (w more : Weave) : whole (w ++ more) = whole w ++ whole more := List.map_append

@[simp] theorem keptAppend (w more : Weave) : kept (w ++ more) = kept w ++ kept more := by
  rw [kept, List.filter_append, List.map_append]
  rfl

theorem threadAppend (inserted : Bool) (octets rest : Octets) :
    thread inserted (octets ++ rest) = thread inserted octets ++ thread inserted rest := List.map_append

theorem threadSplit (split : thread inserted octets = w ++ more) :
    ∃ first last, octets = first ++ last ∧ w = thread inserted first ∧ more = thread inserted last := by
  obtain ⟨first, last, same, front, back⟩ := List.map_eq_append_iff.mp split
  exact ⟨first, last, same, front.symm, back.symm⟩

theorem framedSome (framed : Framed octets text) : octets ≠ [] := by
  rintro rfl
  cases framed

theorem framedRead (framed : Framed octets text) (growing : Bool) (rest : Octets) :
    Frame.read growing (octets ++ rest) = .body text rest := by
  have decided : Frame.read true octets ≠ .starved := by rw [framed]; nofun
  rw [Frame.readMore decided, framed]
  rfl

theorem framedPart (framed : Framed (octets ++ rest) text) (some : rest ≠ []) :
    Frame.read true octets = .starved := by
  refine Decidable.byContradiction fun decided => ?_
  rw [Framed, Frame.readMore decided] at framed
  cases front : Frame.read true octets with
  | body text' rest' =>
    rw [front] at framed
    have left := (Frame.Outcome.body.inj framed).2
    exact some (List.append_eq_nil_iff.mp left).2
  | ended | fault | starved => rw [front] at framed; cases framed

theorem writtenFramed {body : String} (small : (Utf8.ofString body).length ≤ Frame.limit) :
    Framed (Utf8.ofString (Frame.write body)) body := by
  have read : Frame.read true (Utf8.ofString (Frame.write body) ++ []) = .body body [] := Frame.readWritten small
  rwa [List.append_nil] at read

theorem rowWoven {row : List (Bool × String)} (small : ∀ frame ∈ row, (Utf8.ofString frame.2).length ≤ Frame.limit)
    (mute : ∀ frame ∈ row, frame.1 = true → Message.parse? frame.2 = none) :
    Woven (row.flatMap fun frame => thread frame.1 (Utf8.ofString (Frame.write frame.2))) := by
  induction row with
  | nil => exact .rest []
  | cons frame row ih =>
    have framed := writtenFramed (small frame (.head _))
    have woven := ih (fun frame member => small frame (.tail _ member)) fun frame member => mute frame (.tail _ member)
    rw [List.flatMap_cons]
    cases inserted : frame.1 with
    | false => exact .frame framed woven
    | true => exact .inserted framed (mute frame (.head _) inserted) woven

inductive Front (more : Weave) : Weave → Prop
  | own (octets : Octets) : Front more (thread false octets)
  | frame {frame : Octets} {text : String} {w : Weave} (framed : Framed frame text) (woven : Woven (w ++ more)) :
      Front more (thread false frame ++ w)
  | inserted {frame : Octets} {text : String} {w : Weave} (framed : Framed frame text)
      (unread : Message.parse? text = none) (woven : Woven (w ++ more)) : Front more (thread true frame ++ w)
  | part {first last : Octets} {text : String} {later : Weave} (framed : Framed (first ++ last) text)
      (unread : Message.parse? text = none) (left : last ≠ []) (begun : first ≠ [])
      (rest : more = thread true last ++ later) (woven : Woven later) : Front more (thread true first)

theorem wovenFront (woven : Woven (w ++ more)) : Front more w := by
  generalize split : w ++ more = all at woven
  cases woven with
  | rest octets =>
    obtain ⟨first, _, _, rfl, _⟩ := threadSplit split.symm
    exact .own first
  | @frame frame text later framed woven =>
    rcases List.append_eq_append_iff.mp split with ⟨short, front, _⟩ | ⟨next, rfl, rfl⟩
    · obtain ⟨first, _, _, rfl, _⟩ := threadSplit front
      exact .own first
    · exact .frame framed woven
  | @inserted frame text later framed unread woven =>
    rcases List.append_eq_append_iff.mp split with ⟨short, front, rfl⟩ | ⟨next, rfl, rfl⟩
    · -- the stream stops within the insertion, which may be at its beginning or at its end
      obtain ⟨first, last, rfl, rfl, rfl⟩ := threadSplit front
      by_cases begun : first = []
      · subst begun
        exact .own []
      by_cases left : last = []
      · subst left
        have whole : thread true first ++ [] = thread true first := List.append_nil _
        rw [List.append_nil] at framed
        exact whole ▸ .inserted framed unread woven
      · exact .part framed unread left begun rfl woven
    · exact .inserted framed unread woven

theorem wovenRead (woven : Woven (thread false octets ++ more)) (read : Frame.read true octets = .body text rest) :
    Woven (thread false rest ++ more) := by
  have decided : Frame.read true octets ≠ .starved := by rw [read]; nofun
  generalize split : thread false octets ++ more = all at woven
  cases woven with
  | rest all =>
    obtain ⟨_, last, _, _, rfl⟩ := threadSplit split.symm
    rw [← threadAppend]
    exact .rest _
  | @frame frame text later framed woven =>
    rcases List.append_eq_append_iff.mp split with ⟨short, front, rfl⟩ | ⟨next, front, rfl⟩
    · obtain ⟨first, last, same, start, rfl⟩ := threadSplit front
      have start : octets = first := by simpa using congrArg whole start
      subst start
      rw [same, Framed, Frame.readMore decided, read] at framed
      obtain ⟨rfl, rfl⟩ := List.append_eq_nil_iff.mp (Frame.Outcome.body.inj framed).2
      exact woven
    · obtain ⟨first, last, rfl, start, rfl⟩ := threadSplit front
      have start : frame = first := by simpa using congrArg whole start
      subst start
      cases (framedRead framed true last).symm.trans read
      exact woven
  | @inserted frame text later framed unread woven =>
    -- the first octet cannot be both inserted and the stream's own
    obtain ⟨b, frame, rfl⟩ := List.exists_cons_of_ne_nil (framedSome framed)
    cases octets with
    | nil => cases read
    | cons a octets => simp [thread] at split

end Weave
end LspClient
