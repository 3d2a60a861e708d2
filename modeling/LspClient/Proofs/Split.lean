/-! Where an event stands in a log. A split names what comes before the event and what comes after it. -/
namespace LspClient

variable {α : Type} {x y : α} {xs ys before rest before' rest' : List α}

theorem splitMember (split : xs = before ++ x :: rest) : x ∈ xs := by simp [split]

theorem splitAppend (split : xs ++ ys = before ++ x :: rest) :
    (∃ short, rest = short ++ ys ∧ xs = before ++ x :: short) ∨
      ∃ first, before = xs ++ first ∧ ys = first ++ x :: rest := by
  rcases List.append_eq_append_iff.mp split with ⟨first, before', ys'⟩ | ⟨short, xs', rest'⟩
  · exact .inr ⟨first, before', ys'⟩
  · cases short with
    | nil => exact .inr ⟨[], by simpa using xs'.symm, by simpa using rest'.symm⟩
    | cons z short =>
      obtain ⟨same, rest'⟩ := List.cons.inj rest'
      exact .inl ⟨short, rest', by rw [xs', same]⟩

theorem splitOne (split : [y] = before ++ x :: rest) : before = [] ∧ x = y ∧ rest = [] := by
  cases before with
  | nil =>
    obtain ⟨same, none⟩ := List.cons.inj split
    exact ⟨rfl, same.symm, none.symm⟩
  | cons z before => simp at split

theorem splitPair {z : α} (split : [y, z] = before ++ x :: rest) :
    before = [] ∧ x = y ∧ rest = [z] ∨ before = [y] ∧ x = z ∧ rest = [] := by
  have split : [y] ++ [z] = before ++ x :: rest := split
  rcases splitAppend split with ⟨short, last, first⟩ | ⟨first, start, last⟩
  · obtain ⟨none, same, empty⟩ := splitOne first
    exact .inl ⟨none, same, by rw [last, empty]; rfl⟩
  · obtain ⟨none, same, empty⟩ := splitOne last
    exact .inr ⟨by rw [start, none]; rfl, same, empty⟩

theorem splitLast (split : xs ++ [y] = before ++ x :: rest) :
    rest = [] ∧ before = xs ∧ x = y ∨ ∃ short, rest = short ++ [y] ∧ xs = before ++ x :: short := by
  rcases splitAppend split with earlier | ⟨first, start, last⟩
  · exact .inr earlier
  · obtain ⟨none, same, empty⟩ := splitOne last
    exact .inl ⟨empty, by rw [start, none, List.append_nil], same⟩

theorem splitTwice (split : before ++ x :: rest = before' ++ y :: rest') :
    before = before' ∧ x = y ∧ rest = rest' ∨ y ∈ rest ∧ x ∈ before' ∨ y ∈ before ∧ x ∈ rest' := by
  rcases splitAppend split with ⟨short, last, start⟩ | ⟨first, start, last⟩
  · exact .inr (.inr ⟨by simp [start], by simp [last]⟩)
  · cases first with
    | nil =>
      obtain ⟨same, rest⟩ := List.cons.inj last
      exact .inl ⟨by simp [start], same, rest⟩
    | cons z first =>
      obtain ⟨same, last⟩ := List.cons.inj last
      exact .inr (.inl ⟨by simp [last], by simp [start, same]⟩)

theorem splitUnique (split : before ++ x :: rest = before' ++ x :: rest') (first : x ∉ before)
    (last : x ∉ rest) : before = before' ∧ rest = rest' := by
  rcases splitTwice split with ⟨start, _, finish⟩ | ⟨later, _⟩ | ⟨earlier, _⟩
  · exact ⟨start, finish⟩
  · exact absurd later last
  · exact absurd earlier first

theorem splitPrefix (part : xs <+: before ++ x :: rest) (unreached : x ∉ xs) : xs <+: before := by
  obtain ⟨later, whole⟩ := part
  rcases splitAppend whole with ⟨short, _, start⟩ | ⟨first, start, _⟩
  · exact absurd (splitMember start) unreached
  · exact ⟨first, start.symm⟩

end LspClient
