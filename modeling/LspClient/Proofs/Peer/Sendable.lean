import LspClient.Proofs.Client.Conversation
import LspClient.Proofs.Client.Process
import LspClient.Proofs.Peer.Findings

/-! Which messages a text can carry: those of a client that has not begun to stop, and those of the stand-in. The
numbers in them are as their types say, so only the length of a message is in question. -/
namespace LspClient

namespace Json
variable {fields held : List (String × Json)} {depth : Nat}

theorem insertMember {name : String} {value : Json} {field : String × Json}
    (member : field ∈ insertField name value held) : field = (name, value) ∨ field ∈ held := by
  induction held with
  | nil => exact .inl (List.mem_singleton.mp member)
  | cons first held ih =>
    unfold insertField at member
    split at member
    · exact (List.mem_cons.mp member)
    split at member
    · exact (List.mem_cons.mp member).imp_right (List.mem_cons_of_mem first)
    · rcases List.mem_cons.mp member with own | later
      · exact .inr (own ▸ List.mem_cons_self)
      · exact (ih later).imp_right (List.mem_cons_of_mem first)

theorem insertOrdered (name : String) (value : Json) (ordered : Ordered held) :
    Ordered (insertField name value held) := by
  induction held with
  | nil => exact List.pairwise_singleton _ _
  | cons first held ih =>
    obtain ⟨below, ordered⟩ := List.pairwise_cons.mp ordered
    unfold insertField
    split
    · rename_i less
      refine List.pairwise_cons.mpr ⟨?_, List.pairwise_cons.mpr ⟨below, ordered⟩⟩
      exact List.forall_mem_cons.mpr ⟨less, fun other member => lt_trans less (below other member)⟩
    split
    · rename_i same
      exact List.pairwise_cons.mpr ⟨same ▸ below, ordered⟩
    · rename_i least different
      refine List.pairwise_cons.mpr ⟨fun other member => ?_, ih ordered⟩
      obtain ⟨field, own, rfl⟩ := List.mem_map.mp member
      rcases insertMember own with rfl | later
      · exact lt_of_le_of_ne (not_lt.mp least) (Ne.symm different)
      · exact below _ (List.mem_map_of_mem later)

theorem orderMember {field : String × Json} (member : field ∈ orderFields fields) : field ∈ fields := by
  suffices all : ∀ held, field ∈ fields.foldl (fun held f => insertField f.1 f.2 held) held →
      field ∈ fields ∨ field ∈ held by simpa using all [] member
  clear member
  induction fields with
  | nil => exact fun held member => .inr member
  | cons first fields ih =>
    intro held member
    rcases ih _ member with later | earlier
    · exact .inl (List.mem_cons_of_mem first later)
    · rcases insertMember earlier with own | before
      · exact .inl (List.mem_cons.mpr (.inl own))
      · exact .inr before

theorem orderFieldsOrdered (fields : List (String × Json)) : Ordered (orderFields fields) := by
  suffices all : ∀ held, Ordered held →
      Ordered (fields.foldl (fun held f => insertField f.1 f.2 held) held) from
    all [] orderedNil
  induction fields with
  | nil => exact fun held ordered => ordered
  | cons first fields ih => exact fun held ordered => ih _ (insertOrdered _ _ ordered)

theorem plainFields (each : ∀ field ∈ fields, Plain depth field.2) : Plain (depth + 1) (ofFields fields) :=
  .object (orderFieldsOrdered fields) fun field member => each field (orderMember member)

theorem escapedLong (c : Char) : c.utf8Size ≤ Utf8.size (escaped c) := by
  by_cases control : c.toNat < 0x20
  · have one : c.utf8Size = 1 := Char.utf8Size_eq_one_iff.mpr (UInt32.le_iff_toNat_le.mpr (by
      have small : c.val.toNat < 0x20 := control
      exact Nat.le_trans (Nat.le_of_lt small) (by decide)))
    have some : escaped c ≠ [] := by
      unfold escaped
      repeat' split
      all_goals nofun
    have long := Utf8.sizeLength (escaped c)
    have first := List.length_pos_iff.mpr some
    omega
  · unfold escaped
    repeat' split
    all_goals first
      | (subst c; decide)
      | (rw [Utf8.sizeCons]; exact Nat.le_add_right _ _)

theorem quotedLong (cs : List Char) : (Utf8.encode cs).length ≤ (Utf8.encode (quoted cs)).length := by
  have flat : Utf8.size cs ≤ Utf8.size (cs.flatMap escaped) := by
    induction cs with
    | nil => exact Nat.le_refl _
    | cons c cs ih =>
      have first := escapedLong c
      rw [Utf8.sizeCons, List.flatMap_cons, Utf8.sizeAppend]
      omega
  rw [quoted, Utf8.encodeLength, Utf8.encodeLength, List.cons_append, Utf8.sizeCons, Utf8.sizeAppend]
  omega

end Json

namespace Message
variable {method : String} {params : Json}

theorem noticeText (method : String) (params : Json) : (notification method (some params)).toJson =
    .object [("jsonrpc", .string "2.0"), ("method", .string method), ("params", params)] := by
  have ordered : Json.Ordered [("jsonrpc", .string "2.0"), ("method", .string method), ("params", params)] := by
    change List.Pairwise (· < ·) ["jsonrpc", "method", "params"]
    decide
  exact congrArg Json.object (Json.orderOrdered ordered)

theorem bodySize (m : Message) : (Utf8.ofString m.body).length = Utf8.size (Json.chars m.toJson) := by
  rw [body, Utf8.ofString, Json.compact, String.toList_ofList, Utf8.encodeLength]

theorem openedLong (d : TextDocument) :
    (Utf8.ofString d.text).length ≤ (Utf8.ofString (Request.didOpen d).body).length := by
  have long := Json.quotedLong d.text.toList
  rw [body, Notice.openedFields, noticeText]
  simp only [Utf8.ofString, Json.compact, String.toList_ofList, Json.chars, Json.fieldChars, Utf8.encodeAppend,
    Utf8.encodeCons, List.length_append]
  omega

theorem changedLong (uri : String) (version : Int32) (text : String) :
    (Utf8.ofString text).length ≤ (Utf8.ofString (Request.didChange uri version text).body).length := by
  have long := Json.quotedLong text.toList
  rw [body, Notice.changedFields, noticeText]
  simp only [Utf8.ofString, Json.compact, String.toList_ofList, Json.chars, Json.fieldChars, Json.itemChars,
    Utf8.encodeAppend, Utf8.encodeCons, List.length_append]
  omega

theorem idPlain {depth : Nat} {id : Int} (range : IsId id) : Json.Plain depth (.integer id) :=
  .integer range.1 (Int.lt_of_lt_of_le range.2 (by decide))

theorem versionPlain {depth : Nat} (version : Int32) : Json.Plain depth (.integer version) :=
  .integer (Int.le_trans (by decide) version.le_toInt) (Int.lt_of_lt_of_le version.toInt_lt (by decide))

theorem noticePlain (method : String) {params : Json} (plain : Json.Plain 126 params) :
    Json.Plain Json.depthLimit (notification method (some params)).toJson := by
  refine Json.plainFields ?_
  simp only [optional, Option.toList_some, List.map_cons, List.map_nil, List.forall_mem_append,
    List.forall_mem_cons, List.not_mem_nil, false_imp_iff, implies_true, and_true]
  exact ⟨⟨.string _, .string _⟩, plain⟩

theorem requestPlain {id : Int} (range : IsId id) (method : String) {params : Json}
    (plain : Json.Plain 126 params) : Json.Plain Json.depthLimit (request id method (some params)).toJson := by
  refine Json.plainFields ?_
  simp only [optional, Option.toList_some, List.map_cons, List.map_nil, List.forall_mem_append,
    List.forall_mem_cons, List.not_mem_nil, false_imp_iff, implies_true, and_true]
  exact ⟨⟨.string _, idPlain range, .string _⟩, plain⟩

theorem resultPlain {id : Int} (range : IsId id) {result : Json} (plain : Json.Plain 126 result) :
    Json.Plain Json.depthLimit (response id (some result) none).toJson := by
  refine Json.plainFields ?_
  simp only [Option.getD_some, List.forall_mem_cons, List.not_mem_nil, false_imp_iff, implies_true, and_true]
  exact ⟨.string _, idPlain range, plain⟩

theorem introducePlain {id : Int} (range : IsId id) (root : Option String) (name : String) :
    Json.Plain Json.depthLimit (Request.introduce id root name 0).toJson := by
  have capabilities : Json.Plain 125 (Request.clientCapabilities root.isSome) := by
    unfold Request.clientCapabilities
    refine Json.plainFields ?_
    simp only [List.forall_mem_cons, List.not_mem_nil, false_imp_iff, implies_true, and_true]
    refine ⟨Json.plainFields ?_, Json.plainFields ?_, Json.plainFields ?_⟩
    · simp only [List.forall_mem_cons, List.not_mem_nil, false_imp_iff, implies_true, and_true]
      refine ⟨Json.plainFields ?_, Json.plainFields ?_, Json.plainFields ?_⟩ <;>
        simp [Json.Plain.bool]
    · simp [Json.Plain.bool]
    · simp [Json.Plain.bool]
  have client : Json.Plain 125 (.ofFields [("name", .string name), ("version", .string Request.clientVersion)]) :=
    Json.plainFields (by simp [Json.Plain.string])
  have rootUri : Json.Plain 125 (Json.ofOption .string root) := by
    cases root with
    | none => exact .null
    | some uri => exact .string uri
  refine requestPlain range "initialize" (Json.plainFields ?_)
  simp only [List.forall_mem_append, List.forall_mem_cons, List.not_mem_nil, false_imp_iff, implies_true, and_true]
  refine ⟨⟨.integer (by decide) (by decide), client, rootUri, capabilities, .string _⟩, ?_⟩
  cases root with
  | none => simp
  | some uri =>
    simp only [Option.toList_some, List.map_cons, List.map_nil, List.forall_mem_singleton]
    refine .array (List.forall_mem_singleton.mpr (Json.plainFields ?_))
    simp [Json.Plain.string]

theorem namedPlain (uri : String) :
    Json.Plain 126 (.ofFields [("textDocument", .ofFields [("uri", .string uri)])]) := by
  refine Json.plainFields (List.forall_mem_singleton.mpr (Json.plainFields ?_))
  exact List.forall_mem_singleton.mpr (.string uri)

theorem openedPlain (d : TextDocument) :
    Json.Plain Json.depthLimit (Request.didOpen d).toJson := by
  refine noticePlain _ (Json.plainFields (List.forall_mem_singleton.mpr (Json.plainFields ?_)))
  simp only [List.forall_mem_cons, List.not_mem_nil, false_imp_iff, implies_true, and_true]
  exact ⟨.string _, .string _, versionPlain d.version, .string _⟩

theorem changedPlain (uri : String) (version : Int32) (text : String) :
    Json.Plain Json.depthLimit (Request.didChange uri version text).toJson := by
  refine noticePlain _ (Json.plainFields ?_)
  simp only [List.forall_mem_cons, List.not_mem_nil, false_imp_iff, implies_true, and_true]
  refine ⟨Json.plainFields ?_, .array (List.forall_mem_singleton.mpr (Json.plainFields ?_))⟩
  · simp only [List.forall_mem_cons, List.not_mem_nil, false_imp_iff, implies_true, and_true]
    exact ⟨.string _, versionPlain version⟩
  · exact List.forall_mem_singleton.mpr (.string text)

end Message

namespace Client
open Message

variable {config : Config} {nextId : Int} {c : Client}

inductive Voiced (config : Config) : Message → Prop where
  | introduced {id} : Voiced config (introduction config id)
  | ready : Voiced config Request.initialized
  | opened {d} : Voiced config (Request.didOpen d)
  | changed {uri version text} : Voiced config (Request.didChange uri version text)
  | closed {uri} : Voiced config (Request.didClose uri)
  | pulled {id uri} : Voiced config (Request.diagnostic id uri)
  | reply {m : Message} (reply : m.isReply = true) : Voiced config m

variable {m : Message}

theorem saysVoiced {e : Event} (speaks : Says e m) : Voiced config m := by
  cases speaks with
  | opened => exact .opened
  | changed => exact .changed
  | closed => exact .closed
  | pulled => exact .pulled

theorem spokenVoiced {log : List Event} {ms : List Message} (spoken : Spoken log ms) :
    ∀ m ∈ ms, Voiced config m := by
  induction spoken with
  | nothing => exact nofun
  | other _ ih => exact ih
  | reply _ reply ih => exact List.forall_mem_append.mpr ⟨ih, List.forall_mem_singleton.mpr (.reply reply)⟩
  | call _ speaks ih =>
    exact List.forall_mem_append.mpr ⟨ih, List.forall_mem_singleton.mpr (saysVoiced speaks)⟩

theorem greetedVoiced {log : List Event} (greeted : Greeted config log) :
    ∀ m ∈ written log, Voiced config m := by
  obtain ⟨id, replies, wire, all⟩ := greeted
  rw [wire]
  exact List.forall_mem_cons.mpr ⟨.introduced, fun m member => .reply (all m member)⟩

theorem talkingVoiced {log : List Event} (talking : Talking config log) :
    ∀ m ∈ written log, Voiced config m := by
  obtain ⟨before, rest, traffic, split, greeted, wire, spoken⟩ := talking
  rw [split, ← List.singleton_append, writtenAppend, writtenAppend, wire]
  refine List.forall_mem_append.mpr ⟨greetedVoiced greeted, List.forall_mem_append.mpr ⟨?_, ?_⟩⟩
  · exact List.forall_mem_singleton.mpr .ready
  · exact List.forall_mem_append.mpr ⟨List.forall_mem_map.mpr fun d _ => .opened, spokenVoiced spoken⟩

def Staying (c : Client) : Prop := ¬ c.Over ∨ ∃ id, c.teardown = .registered id

theorem earlyVoiced (reached : Reached config nextId c) (staying : c.Staying)
    (pipe : c.attached = true → c.refusal = none) : ∀ m ∈ written c.log, Voiced config m := by
  have coherent := reachedCoherent reached
  have unopened (before : c.Unopened) : ∀ m ∈ written c.log, Voiced config m := by
    rw [((reachedPiped reached).unopened before).2]
    exact nofun
  have conversing := reachedConversing reached
  cases phase : c.phase with
  | created => exact unopened (.inl (coherent.created phase).1)
  | starting =>
    cases attached : c.attached with
    | true => exact greetedVoiced (conversing.greeting (startingTopic phase) (pipe attached))
    | false =>
      rcases (coherent.starting phase).2 with ⟨link, _⟩ | ⟨_, introduced⟩ | failing
      · exact unopened (.inr link)
      · cases attached.symm.trans introduced
      · rw [bareUnwritten reached ((reachedHoused reached).refused phase failing attached)]
        exact nofun
  | running => exact talkingVoiced (conversing.documents (runningTopic phase) (pipe (coherent.running phase).2.2))
  | stopping =>
    obtain ⟨id, registered⟩ := staying.resolve_left fun going => going (.inl phase)
    have attached : c.attached = true := by
      rcases (coherent.stopping phase).2 with ⟨_, attached⟩ | ⟨awaits, _⟩
      · exact attached
      · cases registered.symm.trans awaits
    exact talkingVoiced (conversing.documents (by simp [topic, phase, registered]) (pipe attached))
  | stopped =>
    obtain ⟨id, registered⟩ := staying.resolve_left fun going => going (.inr phase)
    rcases (coherent.stopped phase).2 with idle | ⟨requested, _⟩
    · cases registered.symm.trans idle
    · cases registered.symm.trans requested

theorem voicedPlain (voiced : Voiced config m) (ranged : m.Ranged) (original : m.isReply = false) :
    Json.Plain Json.depthLimit m.toJson := by
  cases voiced with
  | introduced => exact introducePlain ranged _ _
  | ready => exact noticePlain _ (Json.plainFields nofun)
  | opened => exact openedPlain _
  | changed => exact changedPlain _ _ _
  | closed => exact noticePlain _ (namedPlain _)
  | pulled => exact requestPlain ranged _ (namedPlain _)
  | reply reply => exact nomatch original.symm.trans reply

end Client

namespace StandIn
open Message

theorem diagnosticsPlain {text : String} (narrow : Narrow text) : Json.Plain 125 (diagnosticsJson text) := by
  have number {depth n : Nat} (small : n < Nat.pow 2 32) : Json.Plain depth (.integer n) :=
    .integer (Int.le_trans (by decide) (Int.natCast_nonneg n))
      (Int.lt_of_lt_of_le (Int.ofNat_lt.mpr small) (by decide))
  have position {depth row column : Nat} (small : row < Nat.pow 2 32) (small' : column < Nat.pow 2 32) :
      Json.Plain (depth + 1) (positionJson row column) := by
    refine Json.plainFields ?_
    simp only [List.forall_mem_cons, List.not_mem_nil, false_imp_iff, implies_true, and_true]
    exact ⟨number small, number small'⟩
  refine .array (List.forall_mem_map.mpr fun finding member => Json.plainFields ?_)
  obtain ⟨small, small'⟩ := narrow finding member
  simp only [List.forall_mem_cons, List.not_mem_nil, false_imp_iff, implies_true, and_true]
  refine ⟨Json.plainFields ?_, .integer (by decide) (by decide), .string _, .string _⟩
  simp only [List.forall_mem_cons, List.not_mem_nil, false_imp_iff, implies_true, and_true]
  exact ⟨position small (Nat.lt_of_le_of_lt (Nat.le_add_right _ _) small'), position small small'⟩

end StandIn
end LspClient
