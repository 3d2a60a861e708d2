import LspClient.Json.Value

/-! Scalars read off JSON: which values are texts, counts and whole numbers of 64 bits. -/
namespace LspClient.Json

variable {value : Json} {name text : String} {n : Nat} {whole : Int}

theorem textRead (read : value.string? = some text) : value = .string text := by
  cases value with
  | string own => cases read; rfl
  | null | bool | integer | real | array | object => cases read

theorem textMember : (value.field? name).bind string? = some text ↔ value.field? name = some (.string text) := by
  rw [Option.bind_eq_some_iff]
  constructor
  · rintro ⟨own, held, read⟩
    rw [held, textRead read]
  · exact fun held => ⟨_, held, rfl⟩

theorem rangeNat {bound : Int} {m : Nat} (same : (m : Int) = bound) :
    ((0 ≤ whole ∧ whole < bound) ∧ whole.toNat = n) ↔ whole = n ∧ n < m := by
  omega

theorem countRead : value.nat64? = some n ↔ value = .integer n ∧ n < Nat.pow 2 64 := by
  cases value with
  | integer whole =>
    have bound : ((Nat.pow 2 64 : Nat) : Int) = Int.pow 2 64 := rfl
    rw [nat64?, Option.ite_none_right_eq_some, Option.some.injEq, rangeNat bound, integer.injEq]
  | null | bool | real | string | array | object => simp [nat64?]

theorem wholeRead : value.int64? = some whole ↔ value = .integer whole ∧ -Int.pow 2 63 ≤ whole ∧ whole < Int.pow 2 63 := by
  cases value with
  | integer own =>
    rw [int64?, Option.ite_none_right_eq_some, Option.some.injEq, integer.injEq]
    constructor
    · rintro ⟨ranged, rfl⟩
      exact ⟨rfl, ranged⟩
    · rintro ⟨rfl, ranged⟩
      exact ⟨ranged, rfl⟩
  | null | bool | real | string | array | object => simp [int64?]

def Counts (value : Json) (name : String) (n : Nat) : Prop :=
  value.field? name = some (.integer n) ∧ n < Nat.pow 2 64

theorem countMember : (value.field? name).bind nat64? = some n ↔ value.Counts name n := by
  simp only [Option.bind_eq_some_iff, countRead, Counts]
  constructor
  · rintro ⟨_, held, rfl, small⟩
    exact ⟨held, small⟩
  · rintro ⟨held, small⟩
    exact ⟨_, held, rfl, small⟩

theorem countsOnce {m : Nat} (counts : value.Counts name n) (counts' : value.Counts name m) : n = m := by
  have same := counts.1.symm.trans counts'.1
  injection same with same
  injection same with same
  exact Int.ofNat_inj.mp same

end LspClient.Json
