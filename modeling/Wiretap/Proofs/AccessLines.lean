/-
  Wiretap.Proofs.AccessLines
  ──────────────────────────
  **WHAT A LINE TELLS.**

  A line of the log is JSON text on a line of its own.  A reader that knows the names of the
  members, and nothing of how they are laid out, finds in it what the record held:

    • `Body.firstBytes_ok`         — the first bytes of a body, and whether there are more,
    • `Json.named_tree`            — members are found by name,
    • `AccessLine.isLine_of_line`  — the line of a record is read as the fields of the record,
    • `AccessLine.line_error_iff`  — there is no line exactly where the reader of a body stops.
-/
import Std.Data.String.ToNat
import Wiretap.Log.AccessLine
import Wiretap.Proofs.JsonText
import Wiretap.Proofs.Utf8

namespace Wiretap

/-! ## §1. The first bytes of a body. -/

namespace Coding.Decoder

/-- Whoever gets the first bytes gets a prefix of what is decoded, and all that was asked for
where there is so much. -/
theorem first_ok {d : Decoder} {coded found : Bytes} {wanted : Nat}
    (h : d.first coded wanted = .ok found) : found = (d.decode coded).bytes.take wanted := by
  unfold first at h
  simp only at h
  split at h
  next => exact (Except.ok.inj h).symm
  next =>
    split at h
    next => exact (Except.ok.inj h).symm
    next => cases h

end Coding.Decoder

namespace Body

/-- What comes out of the coding of a body whose bytes can be read. -/
def Decodes (b : Body) (disk : Disk) (decoded : Bytes) : Prop :=
  ∃ raw, b.raw disk = .ok raw ∧ decoded = (b.coding.decoder.decode raw).bytes

/-- The first bytes are the first bytes of the decoded content, and the flag tells whether there
are more. -/
theorem firstBytes_ok {b : Body} {disk : Disk} {limit : UInt64} {bytes : Bytes}
    {truncated : Bool} (h : b.firstBytes disk limit = .ok (bytes, truncated)) :
    ∃ decoded, b.Decodes disk decoded ∧ bytes = decoded.take limit.toNat
      ∧ (truncated = true ↔ limit.toNat < decoded.length) := by
  unfold firstBytes at h
  split at h
  next =>
    split at h
    next => cases h
    next raw hraw =>
      split at h
      next => cases h
      next found hfound =>
        have hprefix := Coding.Decoder.first_ok hfound
        obtain ⟨hbytes, htruncated⟩ := Prod.mk.inj (Except.ok.inj h)
        refine ⟨_, ⟨raw, hraw, rfl⟩, ?_, ?_⟩
        · -- one byte more was asked for than is given
          rw [← hbytes, hprefix, List.take_take, Nat.min_eq_left (Nat.le_succ _)]
        · rw [← htruncated, hprefix, List.length_take, decide_eq_true_eq]
          omega
  next =>
    split at h
    next => cases h
    next => cases h

/-- Below the largest limit nothing but a fault stops the reader. -/
theorem firstBytes_failed {b : Body} {disk : Disk} {limit : UInt64} {stop : ReadStop}
    (hlimit : limit.toNat + 1 < UInt64.size) (h : b.firstBytes disk limit = .error stop) :
    ∃ fault, stop = .failed fault := by
  unfold firstBytes at h
  rw [if_pos hlimit] at h
  split at h
  next fault _ =>
    cases h
    exact ⟨.disk fault, rfl⟩
  next =>
    split at h
    next fault _ =>
      cases h
      exact ⟨.coding fault, rfl⟩
    next => cases h

end Body

/-! ## §2. Members by name. -/

namespace Json

namespace Tree

variable {α : Type}

/-- The values of all members of a name. -/
def named (name : String) : Tree → List Tree
  | .object members => (members.filter (·.1 == name)).map (·.2)
  | _ => []

/-- The value of the only member of a name. -/
def field (read : Tree → Option α) (name : String) (t : Tree) : Option α :=
  match t.named name with
  | [v] => read v
  | _ => none

/-- The value of a member that may be missing. -/
def optionalField (read : Tree → Option α) (name : String) (t : Tree) : Option (Option α) :=
  match t.named name with
  | [] => some none
  | [v] => (read v).map some
  | _ => none

/-- A text. -/
def text? : Tree → Option String
  | .text s => some s
  | _ => none

/-- A truth value. -/
def bool? : Tree → Option Bool
  | .bool b => some b
  | _ => none

/-- A number that is written with digits only. -/
def natural? : Tree → Option Nat
  | .number token => (String.ofList token).toNat?
  | _ => none

/-- A value that may be null. -/
def orNull (read : Tree → Option α) : Tree → Option (Option α)
  | .null => some none
  | t => (read t).map some

/-- A list. -/
def list? (read : Tree → Option α) : Tree → Option (List α)
  | .array items => items.mapM read
  | _ => none

/-- A pair of texts. -/
def pair? : Tree → Option (String × String)
  | .array [.text a, .text b] => some (a, b)
  | _ => none

end Tree

theorem memberTrees_eq_map (members : List (String × Json)) :
    memberTrees members = members.map fun m => (m.1, m.2.tree) := by
  induction members with
  | nil => rfl
  | cons m rest ih => rw [memberTrees, ih, List.map_cons]

/-- Where no name stands twice, each member is the only one of its name. -/
theorem named_tree {members : List (String × Json)} (hnames : (members.map (·.1)).Nodup)
    {name : String} {v : Json} (h : (name, v) ∈ members) :
    (object members).tree.named name = [v.tree] := by
  rw [tree, memberTrees_eq_map, Tree.named]
  induction members with
  | nil => cases h
  | cons m rest ih =>
      rw [List.map_cons, List.nodup_cons] at hnames
      rcases List.mem_cons.mp h with rfl | hmem
      · have hothers : (rest.map fun m => (m.1, m.2.tree)).filter (·.1 == name) = [] := by
          refine List.filter_eq_nil_iff.mpr fun other hother => ?_
          obtain ⟨m, hm, rfl⟩ := List.mem_map.mp hother
          simp only [beq_iff_eq]
          rintro rfl
          exact hnames.1 (List.mem_map.mpr ⟨m, hm, rfl⟩)
        simp [hothers]
      · have hne : m.1 ≠ name := by
          rintro rfl
          exact hnames.1 (List.mem_map.mpr ⟨_, hmem, rfl⟩)
        simpa [hne] using ih hnames.2 hmem

theorem field_tree {α : Type} {members : List (String × Json)}
    (hnames : (members.map (·.1)).Nodup) {name : String} {v : Json} (h : (name, v) ∈ members)
    (read : Tree → Option α) : (object members).tree.field read name = read v.tree := by
  rw [Tree.field, named_tree hnames h]

theorem natural?_tree (n : Nat) : (natural n).tree.natural? = some n := by
  rw [tree, Tree.natural?, Decimal.digitText, ← Nat.repr_eq_ofList_toDigits, Nat.toNat?_repr]

theorem orNull_ofOption (s : Option String) : (ofOption s).tree.orNull Tree.text? = some s := by
  cases s <;> rfl

end Json

/-! ## §3. The fields of a line. -/

namespace AccessLine

open Json.Tree (text? natural? bool? orNull list? pair?)

/-- What a line tells of a body. -/
structure BodyFields where
  size : Nat
  text : Option String
  truncated : Bool
  deriving DecidableEq, Repr

/-- What a line tells of a record. -/
structure Fields where
  id : String
  method : String
  uri : String
  path : String
  route : String
  status : Option Nat
  user : Option User
  exception : Option String
  requestHeaders : RecordedHeaders
  responseHeaders : RecordedHeaders
  requestBody : Option BodyFields
  responseBody : Option BodyFields
  deriving DecidableEq, Repr

/-- Reads what is told of a user. -/
def readUser (t : Json.Tree) : Option User := do
  let realm ← t.field text? "realm"
  let username ← t.field text? "username"
  return ⟨realm, username⟩

/-- Reads what is told of a body. -/
def readBody (t : Json.Tree) : Option BodyFields := do
  let size ← t.field natural? "size"
  let text ← t.optionalField text? "text"
  let truncated ← t.field bool? "truncated"
  return ⟨size, text, truncated⟩

/-- Reads what is told of a record. -/
def readFields (t : Json.Tree) : Option Fields := do
  let id ← t.field text? "id"
  let method ← t.field text? "method"
  let uri ← t.field text? "uri"
  let path ← t.field text? "path"
  let route ← t.field text? "route"
  let status ← t.field (orNull natural?) "status"
  let user ← t.field (orNull readUser) "user"
  let exception ← t.field (orNull text?) "exception"
  let requestHeaders ← t.field (list? pair?) "request_headers"
  let responseHeaders ← t.field (list? pair?) "response_headers"
  let requestBody ← t.field (orNull readBody) "request_body"
  let responseBody ← t.field (orNull readBody) "response_body"
  return { id, method, uri, path, route, status, user, exception, requestHeaders,
           responseHeaders, requestBody, responseBody }

/-- Reads a line without its line end: UTF-8, JSON, and the members of a record. -/
def read? (bytes : Bytes) : Option Fields := do
  let text ← Utf8.decode? bytes
  let t ← Json.read? text
  readFields t

/-- What is told of a body that is there: its size as it was captured, and where bodies are
included, the text of the first decoded bytes, with a flag for more. -/
structure TellsBody (detail : BodyDetail) (disk : Disk) (b : Body) (told : BodyFields) : Prop where
  size : told.size = b.size
  hidden : detail.included = false → told.text = none ∧ told.truncated = false
  shown : detail.included = true → ∃ decoded, b.Decodes disk decoded
    ∧ told.text = some (Utf8.decodeLossy (decoded.take detail.most.toNat))
    ∧ (told.truncated = true ↔ detail.most.toNat < decoded.length)

/-- What is told of a record: its parts as they are, and its bodies. -/
structure Tells (detail : BodyDetail) (disk : Disk) (r : Record) (told : Fields) : Prop where
  id : told.id = r.id.text
  method : told.method = r.method
  uri : told.uri = r.uri
  path : told.path = r.path
  route : told.route = r.route
  status : told.status = r.status
  user : told.user = r.user
  exception : told.exception = r.exception
  requestHeaders : told.requestHeaders = r.requestHeaders
  responseHeaders : told.responseHeaders = r.responseHeaders
  requestBody : Option.Rel (TellsBody detail disk) r.requestBody told.requestBody
  responseBody : Option.Rel (TellsBody detail disk) r.responseBody told.responseBody

variable {detail : BodyDetail} {disk : Disk} {r : Record}

theorem readUser_tree (u : User) :
    readUser (Json.object [("realm", .text u.realm), ("username", .text u.username)]).tree
      = some u := rfl

theorem orNull_user (u : Option User) : (user u).tree.orNull readUser = some u := by
  cases u with
  | none => rfl
  | some u => exact congrArg (Option.map some) (readUser_tree u)

theorem orNull_status (code : Option Nat) :
    (status code).tree.orNull natural? = some code := by
  cases code with
  | none => rfl
  | some code => exact congrArg (Option.map some) (Json.natural?_tree code)

theorem list?_headers (h : RecordedHeaders) :
    (headers h).tree.list? pair? = some h := by
  rw [headers, Json.tree, Json.itemTrees_eq_map, list?, List.map_map]
  exact Utf8.mapM_eq_some fun _ _ => rfl

theorem readBody_hidden (size : Nat) :
    readBody (Json.object [("size", .natural size), ("truncated", .bool false)]).tree
      = some ⟨size, none, false⟩ := by
  show (Json.natural size).tree.natural?.bind (fun n => some (BodyFields.mk n none false)) = _
  rw [Json.natural?_tree]
  rfl

theorem readBody_shown (size : Nat) (text : String) (truncated : Bool) :
    readBody (Json.object [("size", .natural size), ("text", .text text),
      ("truncated", .bool truncated)]).tree = some ⟨size, some text, truncated⟩ := by
  show (Json.natural size).tree.natural?.bind
    (fun n => some (BodyFields.mk n (some text) truncated)) = _
  rw [Json.natural?_tree]
  rfl

/-- What is written of a body is read as what is to be told of it. -/
theorem orNull_body {b : Option Body} {v : Json} (h : body detail disk b = .ok v) :
    ∃ told, v.tree.orNull readBody = some told ∧ Option.Rel (TellsBody detail disk) b told := by
  cases b with
  | none =>
      cases h
      exact ⟨none, rfl, .none⟩
  | some b =>
      unfold body at h
      simp only at h
      split at h
      next hincluded =>
        cases hfirst : b.firstBytes disk detail.most with
        | error fault =>
            rw [hfirst] at h
            cases h
        | ok found =>
            obtain ⟨bytes, truncated⟩ := found
            rw [hfirst] at h
            cases h
            obtain ⟨decoded, hdecoded, rfl, htruncated⟩ := Body.firstBytes_ok hfirst
            refine ⟨_, congrArg (Option.map some) (readBody_shown _ _ _), .some ⟨rfl, ?_, ?_⟩⟩
            · intro hhidden
              rw [hincluded] at hhidden
              cases hhidden
            · exact fun _ => ⟨decoded, hdecoded, rfl, htruncated⟩
      next hincluded =>
        cases h
        exact ⟨_, congrArg (Option.map some) (readBody_hidden _),
          .some ⟨rfl, fun _ => ⟨rfl, rfl⟩, fun hshown => absurd hshown hincluded⟩⟩

theorem members_nodup (r : Record) (requestBody responseBody : Json) :
    ((members r requestBody responseBody).map (·.1)).Nodup := by
  show ["id", "timestamp", "method", "uri", "path", "route", "status", "duration_ms",
    "remote_addr", "user", "exception", "request_headers", "response_headers", "request_body",
    "response_body"].Nodup
  decide

/-- The members of a line are read as what is to be told of the record. -/
theorem readFields_members {v w : Json} (hv : body detail disk r.requestBody = .ok v)
    (hw : body detail disk r.responseBody = .ok w) :
    ∃ told, readFields (Json.object (members r v w)).tree = some told
      ∧ Tells detail disk r told := by
  obtain ⟨request, hrequest, htellsRequest⟩ := orNull_body hv
  obtain ⟨response, hresponse, htellsResponse⟩ := orNull_body hw
  have hfield : ∀ {α : Type} (read : Json.Tree → Option α) (name : String) (u : Json),
      (name, u) ∈ members r v w →
        (Json.object (members r v w)).tree.field read name = read u.tree :=
    fun read _ _ hmem => Json.field_tree (members_nodup r v w) hmem read
  refine ⟨{ id := r.id.text, method := r.method, uri := r.uri, path := r.path, route := r.route,
            status := r.status, user := r.user, exception := r.exception,
            requestHeaders := r.requestHeaders, responseHeaders := r.responseHeaders,
            requestBody := request, responseBody := response }, ?_,
    ⟨rfl, rfl, rfl, rfl, rfl, rfl, rfl, rfl, rfl, rfl, htellsRequest, htellsResponse⟩⟩
  unfold readFields
  rw [hfield text? "id" (.text r.id.text) (by simp [members]),
    hfield text? "method" (.text r.method) (by simp [members]),
    hfield text? "uri" (.text r.uri) (by simp [members]),
    hfield text? "path" (.text r.path) (by simp [members]),
    hfield text? "route" (.text r.route) (by simp [members]),
    hfield (orNull natural?) "status" (status r.status) (by simp [members]),
    hfield (orNull readUser) "user" (user r.user) (by simp [members]),
    hfield (orNull text?) "exception" (Json.ofOption r.exception) (by simp [members]),
    hfield (list? pair?) "request_headers" (headers r.requestHeaders) (by simp [members]),
    hfield (list? pair?) "response_headers" (headers r.responseHeaders) (by simp [members]),
    hfield (orNull readBody) "request_body" v (by simp [members]),
    hfield (orNull readBody) "response_body" w (by simp [members]),
    orNull_status, orNull_user, Json.orNull_ofOption, list?_headers, list?_headers, hrequest,
    hresponse]
  rfl

/-! ## §4. Lines. -/

/-- One line, with its line end, that tells of a record. -/
def IsLine (detail : BodyDetail) (disk : Disk) (r : Record) (bytes : Bytes) : Prop :=
  ∃ text told, bytes = text ++ [10] ∧ 10 ∉ text ∧ read? text = some told
    ∧ Tells detail disk r told

theorem line_ok {bytes : Bytes} (h : line detail disk r = .ok bytes) :
    ∃ v w, body detail disk r.requestBody = .ok v ∧ body detail disk r.responseBody = .ok w
      ∧ bytes = Utf8.encode (Json.object (members r v w)).render ++ [10] := by
  unfold line value at h
  cases hv : body detail disk r.requestBody with
  | error fault =>
      rw [hv] at h
      cases h
  | ok v =>
      cases hw : body detail disk r.responseBody with
      | error fault =>
          rw [hv, hw] at h
          cases h
      | ok w =>
          rw [hv, hw] at h
          have hbytes : Utf8.encode ((Json.object (members r v w)).render ++ "\n") = bytes :=
            Except.ok.inj h
          have hend : Utf8.encode "\n" = [10] := by decide
          rw [Utf8.encode_append, hend] at hbytes
          exact ⟨v, w, rfl, rfl, hbytes.symm⟩

/-- **The line of a record is read as the fields of the record**, whatever its texts hold. -/
theorem isLine_of_line {bytes : Bytes} (h : line detail disk r = .ok bytes) :
    IsLine detail disk r bytes := by
  obtain ⟨v, w, hv, hw, hbytes⟩ := line_ok h
  obtain ⟨told, hread, htells⟩ := readFields_members hv hw
  refine ⟨_, told, hbytes, ?_, ?_, htells⟩
  · -- a line end in the text would be a control character of it
    intro hmem
    have hchar := Utf8.char_mem_of_encode hmem (by decide)
    rw [Json.render, String.toList_ofList] at hchar
    exact absurd (Json.printable_chars _ _ hchar) (by decide)
  · simp only [read?, Utf8.decode?_encode, Json.read?_render, Option.bind_eq_bind,
      Option.bind_some]
    exact hread

/-- The reader of a body that the line would include is stopped. -/
theorem body_error_iff {b : Option Body} :
    (∃ stop, body detail disk b = .error stop) ↔ detail.included = true
      ∧ ∃ b', b = some b' ∧ ∃ stop, b'.firstBytes disk detail.most = .error stop := by
  cases b with
  | none => simp [body]
  | some b =>
      cases hincluded : detail.included with
      | false => simp [body, hincluded]
      | true =>
          cases hfirst : b.firstBytes disk detail.most <;>
            simp [body, hincluded, hfirst, bind, Except.bind, pure, Except.pure]

theorem line_error_or :
    (∃ stop, line detail disk r = .error stop) ↔
      (∃ stop, body detail disk r.requestBody = .error stop)
        ∨ ∃ stop, body detail disk r.responseBody = .error stop := by
  unfold line value
  cases body detail disk r.requestBody <;> cases body detail disk r.responseBody <;>
    simp [bind, Except.bind, pure, Except.pure]

/-- **A record has no line exactly where the reader of a body that would be included is
stopped.** -/
theorem line_error_iff :
    (∃ stop, line detail disk r = .error stop) ↔ detail.included = true
      ∧ ∃ b, (r.requestBody = some b ∨ r.responseBody = some b)
        ∧ ∃ stop, b.firstBytes disk detail.most = .error stop := by
  rw [line_error_or, body_error_iff, body_error_iff]
  constructor
  · rintro (⟨hincluded, b, hb, hfirst⟩ | ⟨hincluded, b, hb, hfirst⟩)
    · exact ⟨hincluded, b, Or.inl hb, hfirst⟩
    · exact ⟨hincluded, b, Or.inr hb, hfirst⟩
  · rintro ⟨hincluded, b, hb | hb, hfirst⟩
    · exact Or.inl ⟨hincluded, b, hb, hfirst⟩
    · exact Or.inr ⟨hincluded, b, hb, hfirst⟩

/-- A body that the line would include cannot be read: its file cannot, or its coding is not
kept to. -/
def Unreadable (detail : BodyDetail) (disk : Disk) (r : Record) : Prop :=
  detail.included = true ∧ ∃ b, (r.requestBody = some b ∨ r.responseBody = some b)
    ∧ ∃ fault, b.firstBytes disk detail.most = .error (.failed fault)

/-- Below the largest limit a record has no line exactly where one of its bodies cannot be
read. -/
theorem line_error_iff_unreadable (hmost : detail.most.toNat + 1 < UInt64.size) :
    (∃ stop, line detail disk r = .error stop) ↔ Unreadable detail disk r := by
  rw [line_error_iff]
  constructor
  · rintro ⟨hincluded, b, hb, stop, hfirst⟩
    obtain ⟨fault, rfl⟩ := Body.firstBytes_failed hmost hfirst
    exact ⟨hincluded, b, hb, fault, hfirst⟩
  · rintro ⟨hincluded, b, hb, fault, hfirst⟩
    exact ⟨hincluded, b, hb, .failed fault, hfirst⟩

end AccessLine

end Wiretap
