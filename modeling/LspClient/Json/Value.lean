import LspClient.Decimal.Shortest

/-! JSON values. Numbers are integers or 64-bit binary numbers; the fields of an object stand in
increasing order of their names, each name once. Names compare by scalar value, which is also
the order of their UTF-8 octets. -/
namespace LspClient

inductive Json where
  | null
  | bool (value : Bool)
  | integer (value : Int)
  | real (value : Binary64)
  | string (value : String)
  | array (items : List Json)
  | object (fields : List (String × Json))
  deriving Repr, Inhabited

namespace Json

mutual
def decEq : (a b : Json) → Decidable (a = b)
  | .null, .null => .isTrue rfl
  | .bool a, .bool b => decidable_of_iff (a = b) (by simp)
  | .integer a, .integer b => decidable_of_iff (a = b) (by simp)
  | .real a, .real b => decidable_of_iff (a = b) (by simp)
  | .string a, .string b => decidable_of_iff (a = b) (by simp)
  | .array a, .array b => @decidable_of_iff _ (a = b) (by simp) (decEqItems a b)
  | .object a, .object b => @decidable_of_iff _ (a = b) (by simp) (decEqFields a b)
  | .null, .bool _ | .null, .integer _ | .null, .real _ | .null, .string _ | .null, .array _
  | .null, .object _ | .bool _, .null | .bool _, .integer _ | .bool _, .real _ | .bool _, .string _
  | .bool _, .array _ | .bool _, .object _ | .integer _, .null | .integer _, .bool _
  | .integer _, .real _ | .integer _, .string _ | .integer _, .array _ | .integer _, .object _
  | .real _, .null | .real _, .bool _ | .real _, .integer _ | .real _, .string _ | .real _, .array _
  | .real _, .object _ | .string _, .null | .string _, .bool _ | .string _, .integer _
  | .string _, .real _ | .string _, .array _ | .string _, .object _ | .array _, .null
  | .array _, .bool _ | .array _, .integer _ | .array _, .real _ | .array _, .string _
  | .array _, .object _ | .object _, .null | .object _, .bool _ | .object _, .integer _
  | .object _, .real _ | .object _, .string _ | .object _, .array _ => .isFalse nofun

def decEqItems : (a b : List Json) → Decidable (a = b)
  | [], [] => .isTrue rfl
  | [], _ :: _ | _ :: _, [] => .isFalse nofun
  | a :: as, b :: bs =>
    @decidable_of_iff _ (a = b ∧ as = bs) (by simp)
      (@instDecidableAnd _ _ (decEq a b) (decEqItems as bs))

def decEqFields : (a b : List (String × Json)) → Decidable (a = b)
  | [], [] => .isTrue rfl
  | [], _ :: _ | _ :: _, [] => .isFalse nofun
  | (m, a) :: as, (n, b) :: bs =>
    @decidable_of_iff _ ((m = n ∧ a = b) ∧ as = bs) (by simp)
      (@instDecidableAnd _ _ (@instDecidableAnd _ _ inferInstance (decEq a b)) (decEqFields as bs))
end

instance : DecidableEq Json := decEq

def insertField (name : String) (value : Json) : List (String × Json) → List (String × Json)
  | [] => [(name, value)]
  | (other, held) :: rest =>
    if name < other then (name, value) :: (other, held) :: rest
    else if name = other then (name, value) :: rest
    else (other, held) :: insertField name value rest

def orderFields (fields : List (String × Json)) : List (String × Json) :=
  fields.foldl (fun held f => insertField f.1 f.2 held) []

def ofFields (fields : List (String × Json)) : Json := .object (orderFields fields)

def field? (name : String) : Json → Option Json
  | .object fields => fields.lookup name
  | _ => none

def fields? : Json → Option (List (String × Json))
  | .object fields => some fields
  | _ => none

def items? : Json → Option (List Json)
  | .array items => some items
  | _ => none

def string? : Json → Option String
  | .string s => some s
  | _ => none

def int64? : Json → Option Int
  | .integer n => if -Int.pow 2 63 ≤ n ∧ n < Int.pow 2 63 then some n else none
  | _ => none

def nat64? : Json → Option Nat
  | .integer n => if 0 ≤ n ∧ n < Int.pow 2 64 then some n.toNat else none
  | _ => none

def int32? : Json → Option Int
  | .integer n => if -Int.pow 2 31 ≤ n ∧ n < Int.pow 2 31 then some n else none
  | _ => none

def ofOption (encode : α → Json) : Option α → Json
  | some a => encode a
  | none => .null

def Ordered (fields : List (String × Json)) : Prop :=
  (fields.map Prod.fst).Pairwise (· < ·)

theorem orderedNil : Ordered [] := List.Pairwise.nil

end Json
end LspClient
