import Mathlib.Data.List.TakeWhile
import LspClient.Text.Blank

/-! Trimming takes the blanks off the ends of a text and leaves what stands between them. -/
namespace LspClient.Text

def Blank (cs : List Char) : Prop := ∀ c ∈ cs, isBlank c = true

theorem blankReturn : Blank ['\r'] := List.forall_mem_singleton.mpr rfl

variable {cs tail : List Char} {c : Char}

theorem blankReverse : Blank cs.reverse ↔ Blank cs := by simp [Blank]

theorem trimEndSplit (cs : List Char) : ∃ tail, cs = trimEnd cs ++ tail ∧ Blank tail := by
  refine ⟨(cs.reverse.takeWhile isBlank).reverse, ?_, blankReverse.mpr fun c => List.mem_takeWhile_imp⟩
  rw [trimEnd, ← List.reverse_append, List.takeWhile_append_dropWhile, List.reverse_reverse]

theorem trimEndBlank (blank : Blank tail) (cs : List Char) : trimEnd (cs ++ tail) = trimEnd cs := by
  rw [trimEnd, List.reverse_append, List.dropWhile_append_of_pos (blankReverse.mpr blank), trimEnd]

theorem trimEndSolid (solid : isBlank c = false) (cs tail : List Char) :
    trimEnd (cs ++ c :: tail) = cs ++ c :: trimEnd tail := by
  have stops : (c :: cs.reverse).dropWhile isBlank = c :: cs.reverse := by simp [solid]
  rw [trimEnd, List.reverse_append, List.reverse_cons, List.append_assoc, List.singleton_append,
    List.dropWhile_append, stops, trimEnd]
  split
  · rename_i none
    rw [List.isEmpty_iff.mp none]
    simp
  · simp

theorem trimEndEmpty : trimEnd cs = [] ↔ Blank cs := by
  rw [trimEnd, List.reverse_eq_nil_iff, List.dropWhile_eq_nil_iff, ← blankReverse]
  rfl

theorem trimBlank (blank : Blank tail) (cs : List Char) : trim (cs ++ tail) = trim cs := by
  rw [trim, trimStart, List.dropWhile_append, trim, trimStart]
  split
  · rename_i none
    rw [List.isEmpty_iff.mp none, List.dropWhile_eq_nil_iff.mpr blank]
  · exact trimEndBlank blank _

theorem trimSolidAll (solid : ∀ c ∈ cs, isBlank c = false) : trim cs = cs := by
  have front : ∀ {ds : List Char}, (∀ c ∈ ds, isBlank c = false) → ds.dropWhile isBlank = ds := by
    intro ds solid
    cases ds with
    | nil => rfl
    | cons c ds => simp [solid c List.mem_cons_self]
  have back : cs.reverse.dropWhile isBlank = cs.reverse :=
    front fun c member => solid c (List.mem_reverse.mp member)
  rw [trim, trimStart, front solid, trimEnd, back, List.reverse_reverse]

theorem digitSolid (digit : c.isDigit = true) : isBlank c = false := by
  have bounds := Char.isDigit_iff_toNat.mp digit
  simp only [Char.reduceToNat] at bounds
  simp only [isBlank, Bool.or_eq_false_iff, Bool.and_eq_false_iff, decide_eq_false_iff_not, beq_eq_false_iff_ne]
  omega

end LspClient.Text
