/-! Values under names. The latest value put under a name is the one found. -/
namespace LspClient

abbrev Table (α : Type) := List (String × α)

namespace Table
variable {α : Type}

def get? (name : String) : Table α → Option α
  | [] => none
  | (key, value) :: rest => if key = name then some value else get? name rest

def erase (name : String) (t : Table α) : Table α := t.filter fun e => e.1 ≠ name

def put (name : String) (value : α) (t : Table α) : Table α := (name, value) :: erase name t

def names (t : Table α) : List String := t.map Prod.fst

theorem getErase (name other : String) (t : Table α) :
    get? other (erase name t) = if other = name then none else get? other t := by
  induction t with
  | nil => simp [erase, get?]
  | cons e rest ih =>
    obtain ⟨key, value⟩ := e
    simp only [erase, List.filter_cons] at ih ⊢
    by_cases hk : key = name
    · by_cases ho : other = name <;> simp_all [get?, eq_comm]
    · by_cases ho : other = name <;> simp_all [get?]

theorem getPut (name other : String) (value : α) (t : Table α) :
    get? other (put name value t) = if other = name then some value else get? other t := by
  by_cases ho : other = name
  · simp [put, get?, ho]
  · simp [put, get?, getErase, ho, Ne.symm ho]

end Table
end LspClient
