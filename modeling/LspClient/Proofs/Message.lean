import LspClient.Message
import LspClient.Proofs.Json.RoundTrip
import LspClient.Proofs.Frame.Written

/-! A message that is written, framed, read and parsed is the message again, up to its normal form. -/
namespace LspClient

namespace Message

def IsId (id : Int) : Prop := -Int.pow 2 63 ≤ id ∧ id < Int.pow 2 63

instance (id : Int) : Decidable (IsId id) := inferInstanceAs (Decidable (_ ∧ _))

def IsCode (code : Int) : Prop := -Int.pow 2 31 ≤ code ∧ code < Int.pow 2 31

instance (code : Int) : Decidable (IsCode code) := inferInstanceAs (Decidable (_ ∧ _))

def Ranged : Message → Prop
  | .request id .. => IsId id
  | .response id _ error => IsId id ∧ ∀ e ∈ error, IsCode e.code
  | .notification .. => True

variable {m : Message} {id : Int} {error : ResponseError}

theorem idRead (range : IsId id) : Json.int64? (.integer id) = some id := if_pos range

theorem errorRead (range : IsCode error.code) : ResponseError.ofJson? error.toJson =
    some ⟨error.code, error.message, error.data.bind ResponseError.data?⟩ := by
  have code : Json.int32? (.integer error.code) = some error.code := if_pos range
  cases held : error.data <;>
    simp [ResponseError.toJson, ResponseError.ofJson?, Json.ofFields, Json.lookupOrder, Json.lookupCons, held,
      code, Json.string?]

theorem messageRead (ranged : m.Ranged) : ofJson? m.toJson = some m.normal := by
  cases m with
  | request id method params =>
    have id := idRead ranged
    cases params <;>
      simp [toJson, ofJson?, Json.ofFields, Json.fields?, Json.lookupOrder, Json.lookupCons, optional, id,
        Json.string?, normal]
  | response id result error =>
    have id := idRead ranged.1
    cases error with
    | none =>
      simp [toJson, ofJson?, Json.ofFields, Json.fields?, Json.lookupOrder, Json.lookupCons, id, normal]
    | some error =>
      have error := errorRead (ranged.2 error rfl)
      simp [toJson, ofJson?, Json.ofFields, Json.fields?, Json.lookupOrder, Json.lookupCons, id, normal, error]
  | notification method params =>
    cases params <;>
      simp [toJson, ofJson?, Json.ofFields, Json.fields?, Json.lookupOrder, Json.lookupCons, optional,
        Json.string?, normal]

/-- What a text of at most `Frame.limit` octets can carry. -/
structure Sendable (m : Message) : Prop where
  ranged : m.Ranged
  plain : Json.Plain Json.depthLimit m.toJson
  small : (Utf8.ofString m.body).length ≤ Frame.limit

theorem bodyParsed (sendable : Sendable m) : parse? m.body = some m.normal := by
  rw [parse?, body, Json.parseCompact sendable.plain]
  exact messageRead sendable.ranged

theorem normalText (m : Message) : m.normal.toJson = m.toJson ∨
    ∃ id result code text, m = .response id result (some ⟨code, text, some .null⟩) := by
  cases m with
  | request | notification => exact .inl rfl
  | response id result error =>
    cases error with
    | none => exact .inl rfl
    | some error =>
      obtain ⟨code, text, data⟩ := error
      cases data with
      | none => exact .inl rfl
      | some data =>
        cases data with
        | null => exact .inr ⟨id, result, code, text, rfl⟩
        | bool | integer | real | string | array | object => exact .inl rfl

theorem errorText (id : Int) (result : Option Json) (error : ResponseError) :
    (response id result (some error)).toJson =
      .object [("error", error.toJson), ("id", .integer id), ("jsonrpc", .string "2.0")] := by
  have first : "id" < "jsonrpc" := by decide
  have second : "error" < "id" := by decide
  simp only [toJson, Json.ofFields, Json.orderFields, Json.insertField, List.foldl_cons, List.foldl_nil, first,
    second, if_true]

theorem bareText (code : Int) (text : String) : (ResponseError.mk code text none).toJson =
    .object [("code", .integer code), ("message", .string text)] := by
  have after : ¬ "message" < "code" := by decide
  have other : "message" ≠ "code" := by decide
  simp only [ResponseError.toJson, Json.ofFields, Json.orderFields, Json.insertField, Option.toList_none,
    List.map_nil, List.append_nil, List.foldl_cons, List.foldl_nil, after, other, if_false]

theorem nullText (code : Int) (text : String) : (ResponseError.mk code text (some .null)).toJson =
    .object [("code", .integer code), ("data", .null), ("message", .string text)] := by
  have after : ¬ "message" < "code" := by decide
  have other : "message" ≠ "code" := by decide
  have later : ¬ "data" < "code" := by decide
  have further : "data" ≠ "code" := by decide
  have before : "data" < "message" := by decide
  simp only [ResponseError.toJson, Json.ofFields, Json.orderFields, Json.insertField, Option.toList_some,
    List.map_cons, List.map_nil, List.cons_append, List.nil_append, List.foldl_cons, List.foldl_nil, after,
    other, later, further, before, if_true, if_false]

theorem bareOrdered (a b : Json) : Json.Ordered [("code", a), ("message", b)] := by
  have order : "code" < "message" := by decide
  exact List.pairwise_pair.mpr order

theorem barePlain {depth : Nat} {code : Int} {text : String}
    (plain : Json.Plain depth (ResponseError.mk code text (some .null)).toJson) :
    Json.Plain depth (ResponseError.mk code text none).toJson := by
  rw [nullText] at plain
  rw [bareText]
  cases plain with
  | object ordered each =>
    refine .object (bareOrdered _ _) ?_
    intro field member
    refine each field ?_
    simp only [List.mem_cons, List.not_mem_nil, or_false] at member ⊢
    exact member.imp id .inr

theorem bareShort (code : Int) (text : String) :
    (Utf8.encode (Json.chars (ResponseError.mk code text none).toJson)).length ≤
      (Utf8.encode (Json.chars (ResponseError.mk code text (some .null)).toJson)).length := by
  rw [bareText, nullText]
  simp only [Json.chars, Json.fieldChars, Utf8.encodeAppend, Utf8.encodeCons, List.length_append]
  omega

theorem rangedNormal (ranged : m.Ranged) : m.normal.Ranged := by
  cases m with
  | request | notification => exact ranged
  | response id result error =>
    cases error with
    | none => exact ranged
    | some error =>
      refine ⟨ranged.1, ?_⟩
      rintro _ ⟨⟩
      exact ranged.2 error rfl

theorem errorPlain {depth : Nat} {result other : Option Json} {one two : ResponseError}
    (kept : ∀ {depth}, Json.Plain depth one.toJson → Json.Plain depth two.toJson)
    (plain : Json.Plain depth (response id result (some one)).toJson) :
    Json.Plain depth (response id other (some two)).toJson := by
  rw [errorText] at plain ⊢
  cases plain with
  | object ordered each =>
    rw [List.forall_mem_cons] at each
    exact .object ordered (List.forall_mem_cons.mpr ⟨kept each.1, each.2⟩)

theorem errorShort {result other : Option Json} {one two : ResponseError}
    (short : (Utf8.encode (Json.chars two.toJson)).length ≤ (Utf8.encode (Json.chars one.toJson)).length) :
    (Utf8.ofString (response id other (some two)).body).length ≤
      (Utf8.ofString (response id result (some one)).body).length := by
  rw [body, body, errorText, errorText]
  simp only [Utf8.ofString, Json.compact, String.toList_ofList, Json.chars, Json.fieldChars, Utf8.encodeAppend,
    Utf8.encodeCons, List.length_append]
  omega

theorem sendableNormal (sendable : Sendable m) : Sendable m.normal := by
  rcases normalText m with same | ⟨id, result, code, text, rfl⟩
  · exact ⟨rangedNormal sendable.ranged, same ▸ sendable.plain, by
      rw [body, same]
      exact sendable.small⟩
  · exact ⟨rangedNormal sendable.ranged, errorPlain barePlain sendable.plain,
      Nat.le_trans (errorShort (bareShort code text)) sendable.small⟩

def trip (messages : List Message) : List (Option Message) × Option Frame.Fault :=
  let (texts, fault) := Frame.bodies (messages.flatMap octets)
  (texts.map parse?, fault)

variable {messages : List Message}

theorem framesRead (sendable : ∀ m ∈ messages, Sendable m) :
    Frame.bodies (messages.flatMap octets) = (messages.map body, none) := by
  have small : ∀ text ∈ messages.map body, (Utf8.ofString text).length ≤ Frame.limit := by
    rw [List.forall_mem_map]
    exact fun m member => (sendable m member).small
  have read := Frame.bodiesWritten small
  rwa [List.flatMap_map] at read

theorem tripRead (sendable : ∀ m ∈ messages, Sendable m) :
    trip messages = (messages.map fun m => some m.normal, none) := by
  rw [trip, framesRead sendable]
  simp only [List.map_map, Prod.mk.injEq, and_true]
  exact List.map_congr_left fun m member => bodyParsed (sendable m member)

theorem tripAgain (sendable : ∀ m ∈ messages, Sendable m) :
    trip (messages.map normal) = ((messages.map normal).map some, none) := by
  have again : ∀ m ∈ messages.map normal, Sendable m := by
    rw [List.forall_mem_map]
    exact fun m member => sendableNormal (sendable m member)
  rw [tripRead again, List.map_map, List.map_map]
  simp only [Function.comp_def, normalIdempotent]

theorem tripInverse (messages : List Message) (sendable : ∀ m ∈ messages, Sendable m) :
    Frame.bodies (messages.flatMap octets) = (messages.map body, none) ∧
      trip messages = (messages.map fun m => some m.normal, none) ∧
      (∀ m : Message, m.normal.normal = m.normal) ∧
      trip (messages.map normal) = ((messages.map normal).map some, none) :=
  ⟨framesRead sendable, tripRead sendable, normalIdempotent, tripAgain sendable⟩

def refusal : Message := response 2 (some .null) (some ⟨-32601, "no", some .null⟩)

theorem refusalSendable : Sendable refusal := by
  refine ⟨⟨by decide, fun error held => ?_⟩, ?_, by decide +kernel⟩
  · cases held
    change IsCode (-32601)
    decide
  · rw [refusal, errorText, nullText]
    have fields : Json.Ordered [("code", .integer (-32601)), ("data", .null), ("message", .string "no")] := by
      unfold Json.Ordered
      decide
    have outer (error : Json) :
        Json.Ordered [("error", error), ("id", .integer 2), ("jsonrpc", .string "2.0")] := by
      change List.Pairwise (· < ·) ["error", "id", "jsonrpc"]
      decide
    refine .object (outer _) ?_
    simp only [List.forall_mem_cons, List.not_mem_nil, false_imp_iff, implies_true, and_true]
    refine ⟨.object fields ?_, .integer (by decide) (by decide), .string _⟩
    simp only [List.forall_mem_cons, List.not_mem_nil, false_imp_iff, implies_true, and_true]
    exact ⟨.integer (by decide) (by decide), .null, .string _⟩

theorem refusalTrip : (∀ m ∈ [refusal], Sendable m) ∧
    trip [refusal] = ([some (response 2 none (some ⟨-32601, "no", none⟩))], none) :=
  have sendable : ∀ m ∈ [refusal], Sendable m := List.forall_mem_singleton.mpr refusalSendable
  ⟨sendable, (tripInverse [refusal] sendable).2.1⟩

end Message
end LspClient
