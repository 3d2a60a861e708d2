import Mathlib.Data.String.Basic
import LspClient.Json.Value

/-! Looking up the fields of an object that was put in order: the last field of a name counts, and fields
that stand in order already stay where they are. -/
namespace LspClient.Json

variable {fields held : List (String × Json)} {name : String} {value : Json}

theorem lookupCons (other name : String) (value : Json) (fields : List (String × Json)) :
    ((name, value) :: fields).lookup other = if other = name then some value else fields.lookup other := by
  by_cases same : other = name
  · simp [same]
  · simp [List.lookup_cons, same, beq_false_of_ne same]

theorem lookupInsert (name other : String) (value : Json) (fields : List (String × Json)) :
    (insertField name value fields).lookup other =
      if other = name then some value else fields.lookup other := by
  induction fields with
  | nil => exact lookupCons other name value []
  | cons field fields ih =>
    obtain ⟨first, own⟩ := field
    unfold insertField
    split
    · exact lookupCons other name value _
    split
    · rename_i replaced
      subst replaced
      rw [lookupCons, lookupCons]
      by_cases same : other = name <;> simp [same]
    · rename_i different
      rw [lookupCons, lookupCons, ih]
      by_cases here : other = first
      · subst here
        simp [Ne.symm different]
      · simp [here]

theorem lookupOrder (name : String) (fields : List (String × Json)) :
    (orderFields fields).lookup name = fields.reverse.lookup name := by
  suffices all : ∀ held, (fields.foldl (fun held f => insertField f.1 f.2 held) held).lookup name =
      (fields.reverse ++ held).lookup name by simpa [orderFields] using all []
  induction fields with
  | nil => exact fun held => rfl
  | cons field fields ih =>
    intro held
    rw [List.foldl_cons, ih, List.reverse_cons, List.append_assoc, List.lookup_append, List.lookup_append,
      lookupInsert, List.singleton_append, lookupCons]

theorem insertLast (below : ∀ field ∈ held, field.1 < name) :
    insertField name value held = held ++ [(name, value)] := by
  induction held with
  | nil => rfl
  | cons field held ih =>
    rw [List.forall_mem_cons] at below
    rw [insertField, if_neg (lt_asymm below.1), if_neg (ne_of_gt below.1), ih below.2, List.cons_append]

theorem orderOrdered (ordered : Ordered fields) : orderFields fields = fields := by
  suffices all : ∀ held, Ordered (held ++ fields) →
      fields.foldl (fun held f => insertField f.1 f.2 held) held = held ++ fields by
    simpa [orderFields] using all [] ordered
  clear ordered
  induction fields with
  | nil => simp
  | cons field fields ih =>
    intro held ordered
    have below : ∀ earlier ∈ held, earlier.1 < field.1 := by
      rw [Ordered, List.map_append, List.pairwise_append] at ordered
      exact fun earlier member =>
        ordered.2.2 earlier.1 (List.mem_map_of_mem member) field.1 (by simp)
    rw [List.foldl_cons, insertLast below, ih, List.append_assoc, List.singleton_append]
    rwa [List.append_assoc, List.singleton_append]

end LspClient.Json
