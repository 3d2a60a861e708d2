import LspClient.Proofs.Client.Desk

/-! The server's replica of the open documents. A `Notice` is read back from a message as any server
would read it; the replica takes up one notice after the other and refuses to open what is open, to
change or close what is not, and to go back in versions. Versions have 32 bits, so the greatest is
followed by the least. -/
namespace LspClient
open TextDocument

def Json.version? : Json → Option Int32
  | .integer n => if (Int32.ofInt n).toInt = n then some (.ofInt n) else none
  | _ => none

/-- A version goes up, unless it is the greatest: then it starts again from the least. -/
def NextVersion (old new : Int32) : Prop := old < new ∨ old = Int32.maxValue ∧ new = Int32.minValue

instance (old new : Int32) : Decidable (NextVersion old new) := by
  unfold NextVersion
  infer_instance

theorem versionNext (v : Int32) : NextVersion v (v + 1) := by
  by_cases last : v = Int32.maxValue
  · subst last
    exact .inr ⟨rfl, by decide⟩
  · have below : v.toInt ≤ 2147483647 := Int32.toInt_le v
    have above : -2147483648 ≤ v.toInt := Int32.le_toInt v
    have other : v.toInt ≠ 2147483647 := fun same => last (Int32.toInt_inj.mp same)
    left
    rw [Int32.lt_iff_toInt_lt, Int32.toInt_add, Int32.toInt_one, Int.bmod_def]
    omega

inductive Notice where
  | opened (document : TextDocument)
  | changed (uri : String) (version : Int32) (text : String)
  | closed (uri : String)
  deriving DecidableEq, Repr

namespace Notice

def document? (named : Json) : Option TextDocument := do
  some ⟨← (← named.field? "uri").string?, ← (← named.field? "languageId").string?,
    ← (← named.field? "version").version?, ← (← named.field? "text").string?⟩

def ofParams? (method : String) (params : Json) : Option Notice := do
  let named ← params.field? "textDocument"
  if method = "textDocument/didOpen" then some (.opened (← document? named))
  else if method = "textDocument/didClose" then some (.closed (← (← named.field? "uri").string?))
  else if method = "textDocument/didChange" then
    match ← (← params.field? "contentChanges").items? with
    | [change] =>
      some (.changed (← (← named.field? "uri").string?) (← (← named.field? "version").version?)
        (← (← change.field? "text").string?))
    | _ => none
  else none

def read? : Message → Option Notice
  | .notification method (some params) => ofParams? method params
  | _ => none

theorem openedFields (d : TextDocument) : Request.didOpen d = .notification "textDocument/didOpen"
    (some (.object [("textDocument", .object [("languageId", .string d.language), ("text", .string d.text),
      ("uri", .string d.uri), ("version", .integer d.version.toInt)])])) := by
  simp only [Request.didOpen, Json.ofFields, Json.orderFields, List.foldl_cons, List.foldl_nil,
    Json.insertField, String.reduceLT, String.reduceEq, if_true, if_false]

theorem changedFields (uri : String) (version : Int32) (text : String) :
    Request.didChange uri version text = .notification "textDocument/didChange"
      (some (.object [("contentChanges", .array [.object [("text", .string text)]]),
        ("textDocument", .object [("uri", .string uri), ("version", .integer version.toInt)])])) := by
  simp only [Request.didChange, Json.ofFields, Json.orderFields, List.foldl_cons, List.foldl_nil,
    Json.insertField, String.reduceLT, String.reduceEq, if_true, if_false]

theorem versionRead (v : Int32) : (Json.integer v.toInt).version? = some v := by
  simp [Json.version?]

theorem readOpened (d : TextDocument) : read? (Request.didOpen d) = some (.opened d) := by
  have version : read? (Request.didOpen d) = (Json.integer d.version.toInt).version?.bind fun version =>
      some (.opened {d with version := version}) := by
    rw [openedFields]
    exact Option.bind_assoc (Json.integer d.version.toInt).version? _ _
  rw [version, versionRead]
  rfl

theorem readChanged (uri : String) (version : Int32) (text : String) :
    read? (Request.didChange uri version text) = some (.changed uri version text) := by
  have bound : read? (Request.didChange uri version text) =
      (Json.integer version.toInt).version?.bind fun version => some (.changed uri version text) := by
    rw [changedFields]
    rfl
  rw [bound, versionRead]
  rfl

theorem readClosed (uri : String) : read? (Request.didClose uri) = some (.closed uri) := by
  simp [read?, ofParams?, Request.didClose, Json.ofFields, Json.orderFields, Json.insertField,
    Json.field?, Json.string?]

theorem readReady : read? Request.initialized = none := rfl

def apply (replica : List TextDocument) : Notice → Option (List TextDocument)
  | .opened d => if (look d.uri replica).isSome then none else some (replica ++ [d])
  | .changed uri version text =>
    match look uri replica with
    | some d =>
      if NextVersion d.version version then some (revise uri text (fun _ => version) replica) else none
    | none => none
  | .closed uri =>
    if (look uri replica).isSome then some (replica.filter fun d => d.uri != uri) else none

end Notice

def replay (ms : List Message) : Option (List TextDocument) :=
  (ms.filterMap Notice.read?).foldlM Notice.apply []

variable {ms : List Message} {m : Message} {replica : List TextDocument}

theorem replayAppend (ms ns : List Message) :
    replay (ms ++ ns) = (replay ms).bind fun replica =>
      (ns.filterMap Notice.read?).foldlM Notice.apply replica := by
  rw [replay, List.filterMap_append, List.foldlM_append]
  rfl

theorem replaySilent (silent : Notice.read? m = none) : replay (ms ++ [m]) = replay ms := by
  rw [replayAppend, List.filterMap_cons_none silent]
  cases replay ms <;> rfl

theorem replayNotice {notice : Notice} (before : replay ms = some replica)
    (read : Notice.read? m = some notice) : replay (ms ++ [m]) = notice.apply replica := by
  rw [replayAppend, before, List.filterMap_cons_some read]
  cases h : notice.apply replica <;> simp [h]

theorem replayOpened {d : TextDocument} (before : replay ms = some replica)
    (absent : look d.uri replica = none) :
    replay (ms ++ [Request.didOpen d]) = some (replica ++ [d]) := by
  rw [replayNotice before (Notice.readOpened d), Notice.apply, absent]
  rfl

theorem replayChanged {uri text : String} {version : Int32} {d : TextDocument}
    (before : replay ms = some replica) (present : look uri replica = some d)
    (newer : NextVersion d.version version) :
    replay (ms ++ [Request.didChange uri version text]) =
      some (revise uri text (fun _ => version) replica) := by
  simp only [replayNotice before (Notice.readChanged uri version text), Notice.apply, present,
    if_pos newer]

theorem replayClosed {uri : String} (before : replay ms = some replica)
    (present : look uri replica ≠ none) :
    replay (ms ++ [Request.didClose uri]) = some (replica.filter fun d => d.uri != uri) := by
  have held : (look uri replica).isSome = true := Option.isSome_iff_ne_none.mpr present
  simp only [replayNotice before (Notice.readClosed uri), Notice.apply, held, if_true]

theorem replayOpens {ds : List TextDocument} (before : replay ms = some replica)
    (unique : (names (replica ++ ds)).Nodup) :
    replay (ms ++ ds.map Request.didOpen) = some (replica ++ ds) := by
  induction ds generalizing ms replica with
  | nil => simpa using before
  | cons d rest ih =>
    have absent : look d.uri replica = none := by
      rw [lookNone]
      intro member
      rw [names, List.map_append, List.nodup_append] at unique
      exact unique.2.2 d.uri member d.uri (by simp) rfl
    have opened := replayOpened before absent
    simpa using ih opened (by simpa using unique)

end LspClient
