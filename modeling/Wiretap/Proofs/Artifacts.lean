/-
  Wiretap.Proofs.Artifacts
  ────────────────────────
  **AN ARTIFACT IS READ BACK.**

  An artifact has no field for a length and escapes nothing: a start line, a line for each
  header, an empty line, and the body as it is.  It can be read back all the same, because no
  line of the preamble holds a line end, and none but the last is empty:

      start line CRLF  name: value CRLF  …  name: value CRLF  CRLF  body

    • `Policy.filter_inLine`         — what is recorded of a header map stays in its line,
    • `Archive.cut_preamble`         — the preamble ends at the first empty line,
    • `Artifact.read?_preambles`     — the reader recovers start line, headers and body,
    • `Artifact.archive_reads_back`  — from every artifact that was archived.
-/
import Mathlib
import Wiretap.Proofs.Ledger
import Wiretap.Proofs.Characters
import Wiretap.Proofs.Settling
import Wiretap.Proofs.Utf8

namespace Wiretap

/-! ## §1. Header maps. -/

namespace Http

/-- A header map: its names are tokens in lower case, and its values hold no control characters
but tabs. -/
def Headers.IsMap (h : Headers) : Prop :=
  ∀ f ∈ h.fields, (∃ token, isToken token = true ∧ f.1 = Text.asciiLower token)
    ∧ f.2.all isValueByte = true

namespace Headers

/-- A field that is added is one of the fields, and the others were there. -/
theorem mem_fields_appendTo {name : String} {value : Bytes} {groups : List (String × List Bytes)}
    {f : String × Bytes} (h : f ∈ fields ⟨appendTo name value groups⟩) :
    f = (name, value) ∨ f ∈ fields ⟨groups⟩ := by
  induction groups with
  | nil => exact Or.inl (by simpa [appendTo, fields] using h)
  | cons group rest ih =>
      obtain ⟨n, values⟩ := group
      unfold appendTo at h
      split at h
      next hn =>
        subst hn
        simp only [fields, List.flatMap_cons, List.map_append, List.mem_append, List.map_cons,
          List.map_nil, List.mem_singleton] at h ⊢
        rcases h with (hold | hnew) | hbelow
        · exact Or.inr (Or.inl hold)
        · exact Or.inl hnew
        · exact Or.inr (Or.inr hbelow)
      next hn =>
        rcases List.mem_append.mp h with hhere | hbelow
        · exact Or.inr (List.mem_append_left _ hhere)
        · exact (ih hbelow).imp_right fun hmem => List.mem_append_right _ hmem

theorem append_isMap {h h' : Headers} (hmap : h.IsMap) {name : String} {value : Bytes}
    (hadd : h.append name value = .ok h') : h'.IsMap := by
  unfold append at hadd
  split at hadd
  next => cases hadd
  next hname =>
    split at hadd
    next => cases hadd
    next hvalue =>
      cases hadd
      intro f hf
      rcases mem_fields_appendTo hf with rfl | hold
      · refine ⟨⟨name, ?_, rfl⟩, by simpa using hvalue⟩
        simp only [Bool.or_eq_true, Bool.not_eq_true', not_or, Bool.not_eq_false] at hname
        exact hname.1
      · exact hmap f hold

/-- What was added field by field is a header map. -/
theorem ofFields_isMap {fields : List (String × Bytes)} {h : Headers}
    (hadd : ofFields fields = .ok h) : h.IsMap := by
  have hstart : empty.IsMap := fun _ hmem => nomatch hmem
  unfold ofFields at hadd
  generalize empty = before at hadd hstart
  induction fields generalizing before with
  | nil => cases hadd; exact hstart
  | cons f rest ih =>
      rw [List.foldlM_cons] at hadd
      cases hnext : before.append f.1 f.2 with
      | error fault => rw [hnext] at hadd; cases hadd
      | ok next =>
          rw [hnext] at hadd
          exact ih next hadd (append_isMap hstart hnext)

end Headers

end Http

/-- A text stays in its line. -/
def InLine (s : String) : Prop := ∀ c ∈ s.toList, c ≠ '\r' ∧ c ≠ '\n'

instance (s : String) : Decidable (InLine s) :=
  List.decidableBAll (fun c : Char => c ≠ '\r' ∧ c ≠ '\n') s.toList

/-- A token in lower case has no line end and no colon. -/
theorem Http.token_inLine {token : String} (h : isToken token = true) :
    InLine (Text.asciiLower token) ∧ ':' ∉ (Text.asciiLower token).toList := by
  have hchars : ∀ c ∈ (Text.asciiLower token).toList, c ≠ ':' ∧ c ≠ '\r' ∧ c ≠ '\n' := by
    intro c hc
    unfold Text.asciiLower at hc
    rw [String.toList_map] at hc
    obtain ⟨before, hmem, rfl⟩ := List.mem_map.mp hc
    unfold isToken at h
    simp only [Bool.and_eq_true, List.all_eq_true] at h
    have htoken := h.2 before hmem
    rcases Text.toLower_eq_or before with heq | hhigh
    · rw [heq]
      refine ⟨?_, ?_, ?_⟩ <;> rintro rfl <;> exact absurd htoken (by decide)
    · refine ⟨?_, ?_, ?_⟩ <;> intro heq <;> rw [heq] at hhigh <;> exact absurd hhigh (by decide)
  exact ⟨fun c hc => (hchars c hc).2, fun hc => (hchars _ hc).1 rfl⟩

/-- The text of a header value stays in its line, whatever its bytes stand for. -/
theorem Utf8.decodeLossy_inLine {value : Bytes} (h : value.all Http.isValueByte = true) :
    InLine (decodeLossy value) := by
  rw [List.all_eq_true] at h
  have hcontrol {c : Char} (hc : c ∈ (decodeLossy value).toList) (hlow : c.toNat < 32)
      (htab : c.toNat ≠ 9) (hnul : c ≠ '\x00') : False := by
    obtain ⟨b, hmem, hb⟩ := byte_mem_of_decodeLossy hc (by omega) hnul
    have hallowed := h b hmem
    unfold Http.isValueByte at hallowed
    simp only [Bool.or_eq_true, Bool.and_eq_true, decide_eq_true_eq, beq_iff_eq] at hallowed
    rcases hallowed with ⟨hhigh, -⟩ | rfl
    · have hhigh' : 32 ≤ b.toNat := hhigh
      omega
    · exact htab hb.symm
  intro c hc
  refine ⟨?_, ?_⟩ <;> rintro rfl <;> exact hcontrol hc (by decide) (by decide) (by decide)

namespace Policy

/-- **What is recorded of a header map stays in its line**, and no name has a colon. -/
theorem filter_inLine (p : Policy) {h : Http.Headers} (hmap : h.IsMap) {f : String × String}
    (hf : f ∈ p.filter h) : InLine f.1 ∧ ':' ∉ f.1.toList ∧ InLine f.2 := by
  obtain ⟨field, hmem, hfield⟩ := List.mem_filterMap.mp hf
  obtain ⟨⟨token, htoken, hname⟩, hvalue⟩ := hmap field hmem
  obtain ⟨hinLine, hcolon⟩ := Http.token_inLine htoken
  rw [← hname] at hinLine hcolon
  unfold filterField at hfield
  split at hfield
  next =>
    cases hfield
    exact ⟨hinLine, hcolon, Utf8.decodeLossy_inLine hvalue⟩
  next =>
    have hplaceholder : InLine redactedValue := by decide
    cases hfield
    exact ⟨hinLine, hcolon, hplaceholder⟩
  next => cases hfield

end Policy

/-! ## §2. The reader. -/

/-- The first line of an artifact. -/
inductive StartLine
  | request (method uri : String)
  | response (status : Option Nat)
  deriving DecidableEq, Repr

/-- The first line of the artifact of a direction. -/
def StartLine.of (r : Record) : Direction → StartLine
  | .request => .request r.method r.uri
  | .response => .response r.status

/-- A start line, where it has a space, is a request; else it is a status, or a dash. -/
def StartLine.read? (line : String) : Option StartLine :=
  match line.toList.span (· != ' ') with
  | (method, _ :: uri) => some (.request (String.ofList method) (String.ofList uri))
  | (_, []) => if line = "-" then some (.response none) else line.toNat?.map (.response ∘ some)

/-- What an artifact holds. -/
structure Artifact where
  start : StartLine
  headers : RecordedHeaders
  body : Bytes
  deriving DecidableEq

namespace Archive

/-- The end of a line. -/
def crlf : Bytes := [13, 10]

/-- The end of a line with an empty line behind it. -/
def blank : Bytes := [13, 10, 13, 10]

/-- What stands before the first empty line and behind it. -/
def cut : Bytes → Option (Bytes × Bytes)
  | [] => none
  | b :: rest =>
    if blank.isPrefixOf (b :: rest) then some ([], rest.drop 3)
    else (cut rest).map fun parts => (b :: parts.1, parts.2)

/-- The lines of a text in bytes. -/
def lines : Bytes → List Bytes
  | [] => [[]]
  | 13 :: 10 :: rest => [] :: lines rest
  | b :: rest =>
    match lines rest with
    | [] => [[b]]
    | line :: below => (b :: line) :: below

/-- A header line, up to its first colon and from behind the blank on. -/
def readHeader (line : String) : Option (String × String) :=
  match line.toList.span (· != ':') with
  | (name, ':' :: ' ' :: value) => some (String.ofList name, String.ofList value)
  | _ => none

end Archive

/-- Reads an artifact, of whichever direction. -/
def Artifact.read? (content : Bytes) : Option Artifact := do
  let (head, body) ← Archive.cut content
  match Archive.lines head with
  | [] => none
  | first :: rest =>
    let start ← (Utf8.decode? first).bind StartLine.read?
    let headers ← rest.mapM fun line => (Utf8.decode? line).bind Archive.readHeader
    some ⟨start, headers, body⟩

/-! ## §3. Cutting a preamble. -/

namespace Archive

/-- Lines with a line end between any two. -/
def unlines (first : Bytes) (rest : List Bytes) : Bytes := first ++ rest.flatMap (crlf ++ ·)

/-- A line without a line end is passed over. -/
theorem cut_append {line tail : Bytes} (h : (13 : UInt8) ∉ line) :
    cut (line ++ tail) = (cut tail).map fun parts => (line ++ parts.1, parts.2) := by
  induction line with
  | nil =>
      show cut tail = _
      cases cut tail <;> rfl
  | cons b line ih =>
      rw [List.mem_cons, not_or] at h
      have hfirst : blank.isPrefixOf (b :: (line ++ tail)) = false := by
        simp [blank, List.isPrefixOf, h.1]
      rw [List.cons_append, cut, hfirst, ih h.2]
      cases cut tail <;> rfl

/-- A line end that has no empty line behind it is passed over. -/
theorem cut_crlf {line tail : Bytes} (h : (13 : UInt8) ∉ line) (hne : line ≠ []) :
    cut (crlf ++ line ++ tail)
      = (cut tail).map fun parts => (crlf ++ line ++ parts.1, parts.2) := by
  obtain ⟨b, below, rfl⟩ := List.exists_cons_of_ne_nil hne
  have hb : (13 : UInt8) ≠ b := fun heq => h (heq ▸ List.mem_cons_self)
  have hhere : blank.isPrefixOf (13 :: 10 :: b :: (below ++ tail)) = false := by
    simp [blank, List.isPrefixOf, hb]
  have hnext : blank.isPrefixOf (10 :: b :: (below ++ tail)) = false := by
    simp [blank, List.isPrefixOf]
  show cut (13 :: 10 :: b :: (below ++ tail)) = _
  rw [cut, hhere, cut, hnext, ← List.cons_append, cut_append h]
  cases cut tail <;> rfl

/-- **The lines of a preamble end at the first empty line**, whatever the body is. -/
theorem cut_unlines {first : Bytes} {rest : List Bytes} (hfirst : (13 : UInt8) ∉ first)
    (hrest : ∀ line ∈ rest, (13 : UInt8) ∉ line ∧ line ≠ []) (body : Bytes) :
    cut (unlines first rest ++ blank ++ body) = some (unlines first rest, body) := by
  unfold unlines
  rw [List.append_assoc, List.append_assoc, cut_append hfirst]
  suffices hlines : cut (rest.flatMap (crlf ++ ·) ++ (blank ++ body))
      = some (rest.flatMap (crlf ++ ·), body) by
    rw [hlines]
    rfl
  -- by induction on the lines, each of which has something in it
  induction rest with
  | nil => rfl
  | cons line rest ih =>
      obtain ⟨hline, hne⟩ := hrest line List.mem_cons_self
      rw [List.flatMap_cons, List.append_assoc, cut_crlf hline hne,
        ih fun other hmem => hrest other (List.mem_cons_of_mem _ hmem)]
      rfl

/-- What is cut off is all that stands before the first empty line. -/
theorem cut_spec {content head body : Bytes} (h : cut content = some (head, body)) :
    content = head ++ blank ++ body ∧ ∀ i < head.length, ¬ blank <+: content.drop i := by
  induction content generalizing head with
  | nil => cases h
  | cons b rest ih =>
      rw [cut] at h
      split at h
      next hhere =>
        cases h
        refine ⟨?_, fun i hi => absurd hi (Nat.not_lt_zero i)⟩
        obtain ⟨tail, htail⟩ := List.isPrefixOf_iff_prefix.mp hhere
        obtain ⟨-, hrest⟩ := List.cons.inj htail
        rw [← htail, ← hrest]
        rfl
      next hhere =>
        obtain ⟨parts, hcut, hparts⟩ := Option.map_eq_some_iff.mp h
        cases hparts
        obtain ⟨hcontent, hnone⟩ := ih hcut
        refine ⟨congrArg (b :: ·) hcontent, fun i hi hprefix => ?_⟩
        cases i with
        | zero => exact hhere (List.isPrefixOf_iff_prefix.mpr hprefix)
        | succ i => exact hnone i (Nat.lt_of_succ_lt_succ hi) hprefix

/-- A line without a line end is the beginning of the first line. -/
theorem lines_append {line tail first : Bytes} {rest : List Bytes} (h : (13 : UInt8) ∉ line)
    (htail : lines tail = first :: rest) : lines (line ++ tail) = (line ++ first) :: rest := by
  induction line with
  | nil => exact htail
  | cons b line ih =>
      rw [List.mem_cons, not_or] at h
      rw [List.cons_append, lines, ih h.2]
      · rfl
      · exact fun _ heq _ => h.1 heq.symm

/-- The lines of a preamble are read back. -/
theorem lines_unlines {first : Bytes} {rest : List Bytes} (hfirst : (13 : UInt8) ∉ first)
    (hrest : ∀ line ∈ rest, (13 : UInt8) ∉ line) :
    lines (unlines first rest) = first :: rest := by
  unfold unlines
  suffices hlines : lines (rest.flatMap (crlf ++ ·)) = [] :: rest by
    rw [lines_append hfirst hlines, List.append_nil]
  induction rest with
  | nil => rfl
  | cons line rest ih =>
      have hbelow := ih fun other hmem => hrest other (List.mem_cons_of_mem _ hmem)
      show lines (13 :: 10 :: (line ++ rest.flatMap (crlf ++ ·))) = _
      rw [lines, lines_append (hrest line List.mem_cons_self) hbelow, List.append_nil]

end Archive

/-! ## §4. Reading a preamble. -/

/-- The line of a text in bytes has no line end. -/
theorem InLine.encode {s : String} (h : InLine s) : (13 : UInt8) ∉ Utf8.encode s := fun hmem =>
  (h _ (Utf8.char_mem_of_encode hmem (by decide))).1 rfl

theorem InLine.append {s t : String} (hs : InLine s) (ht : InLine t) : InLine (s ++ t) := by
  intro c hc
  rw [String.toList_append, List.mem_append] at hc
  exact hc.elim (hs c) (ht c)

theorem InLine.ofNat (n : Nat) : InLine (toString n) ∧ ' ' ∉ (toString n).toList
    ∧ toString n ≠ "-" := by
  have hdigits : ∀ c ∈ (toString n).toList, c.isDigit = true :=
    fun _ hc => Text.isDigit_of_mem_toString hc
  refine ⟨fun c hc => ⟨?_, ?_⟩, fun hc => absurd (hdigits _ hc) (by decide), fun heq => ?_⟩
  · rintro rfl
    exact absurd (hdigits _ hc) (by decide)
  · rintro rfl
    exact absurd (hdigits _ hc) (by decide)
  · have hdash : '-' ∈ (toString n).toList := by
      rw [heq]
      decide
    exact absurd (hdigits _ hdash) (by decide)

/-- What stands before the first character of a kind. -/
theorem span_append {before after : List Char} {stop : Char} (h : stop ∉ before) :
    (before ++ stop :: after).span (· != stop) = (before, stop :: after) := by
  have hall : ∀ c ∈ before, (c != stop) = true := by
    intro c hc
    simp only [bne_iff_ne]
    rintro rfl
    exact h hc
  rw [List.span_eq_takeWhile_dropWhile, List.takeWhile_append_of_pos hall,
    List.dropWhile_append_of_pos hall]
  simp

theorem span_all {chars : List Char} {stop : Char} (h : stop ∉ chars) :
    chars.span (· != stop) = (chars, []) := by
  have hall : ∀ c ∈ chars, (c != stop) = true := by
    intro c hc
    simp only [bne_iff_ne]
    rintro rfl
    exact h hc
  rw [List.span_eq_takeWhile_dropWhile, List.takeWhile_eq_self_iff.mpr hall,
    List.dropWhile_eq_nil_iff.mpr hall]

/-- A header line is read back. -/
theorem Archive.readHeader_line {f : String × String} (h : ':' ∉ f.1.toList) :
    readHeader (f.1 ++ ": " ++ f.2) = some f := by
  have hchars : (f.1 ++ ": " ++ f.2).toList = f.1.toList ++ ':' :: (' ' :: f.2.toList) := by
    simp
  unfold readHeader
  rw [hchars, span_append h]
  simp

/-- The text of the first line. -/
def StartLine.text : StartLine → String
  | .request method uri => method ++ " " ++ uri
  | .response status => (status.map toString).getD "-"

/-- A start line is read back, if the method has no space. -/
theorem StartLine.read?_text {start : StartLine}
    (h : ∀ method uri, start = .request method uri → ' ' ∉ method.toList) :
    read? start.text = some start := by
  cases start with
  | request method uri =>
      have hchars : (method ++ " " ++ uri).toList = method.toList ++ ' ' :: uri.toList := by simp
      unfold read? text
      rw [hchars, span_append (h method uri rfl)]
      simp
  | response status =>
      cases status with
      | none => decide
      | some n =>
          obtain ⟨-, hspace, hdash⟩ := InLine.ofNat n
          show read? (toString n) = _
          unfold read?
          rw [span_all hspace]
          dsimp only
          rw [if_neg hdash, show (toString n).toNat? = some n from Nat.toNat?_repr n]
          rfl

/-! ## §5. Artifacts. -/

/-- Method and URI have neither spaces nor line ends, and the headers of either direction are what
some policy leaves of some header map. -/
structure Legible (r : Record) : Prop where
  method : InLine r.method ∧ ' ' ∉ r.method.toList
  uri : InLine r.uri ∧ ' ' ∉ r.uri.toList
  headers : ∀ d, ∃ (p : Policy) (h : Http.Headers), h.IsMap ∧ r.headers d = p.filter h

namespace Artifact

variable {r r' : Record} {d d' : Direction} {body body' : Bytes}

/-- The text of a header, without the end of its line. -/
def headerText (f : String × String) : String := f.1 ++ ": " ++ f.2

theorem encode_join (texts : List String) :
    Utf8.encode (String.join texts) = texts.flatMap Utf8.encode := by
  unfold Utf8.encode
  rw [String.toList_join, List.flatMap_assoc]

/-- The line ends of a preamble in front of its header lines. -/
theorem crlf_shift (texts : List Bytes) :
    Archive.crlf ++ texts.flatMap (· ++ Archive.crlf)
      = texts.flatMap (Archive.crlf ++ ·) ++ Archive.crlf := by
  induction texts with
  | nil => rfl
  | cons text texts ih =>
      rw [List.flatMap_cons, List.flatMap_cons, List.append_assoc text, ih]
      simp only [List.append_assoc]

/-- A preamble in lines. -/
theorem preambles_eq (r : Record) (d : Direction) :
    Store.preambles r d = Archive.unlines (Utf8.encode (StartLine.of r d).text)
      ((r.headers d).map (Utf8.encode ∘ headerText)) ++ Archive.blank := by
  have hstart : Archive.startLine r d = (StartLine.of r d).text := by cases d <;> rfl
  have hend : Utf8.encode Archive.lineEnd = Archive.crlf := rfl
  have hheaders : Utf8.encode (String.join ((r.headers d).map Archive.headerLine))
      = ((r.headers d).map (Utf8.encode ∘ headerText)).flatMap (· ++ Archive.crlf) := by
    have hline : (fun f => Utf8.encode (Archive.headerLine f))
        = fun f => (Utf8.encode ∘ headerText) f ++ Archive.crlf :=
      funext fun f => Utf8.encode_append (headerText f) Archive.lineEnd
    rw [encode_join, List.flatMap_map, List.flatMap_map, hline]
  unfold Store.preambles Archive.preamble Archive.unlines
  rw [Utf8.encode_append, Utf8.encode_append, Utf8.encode_append, hstart, hend, hheaders,
    List.append_assoc (Utf8.encode _) Archive.crlf, crlf_shift]
  simp only [List.append_assoc]
  rfl

/-- The lines of a preamble have no line ends in them, and none but the last is empty. -/
theorem lines_plain (h : Legible r) (d : Direction) :
    (13 : UInt8) ∉ Utf8.encode (StartLine.of r d).text
      ∧ ∀ line ∈ (r.headers d).map (Utf8.encode ∘ headerText), (13 : UInt8) ∉ line ∧ line ≠ [] := by
  have hspace : InLine " " := by decide
  have hdash : InLine "-" := by decide
  have hcolon : InLine ": " := by decide
  constructor
  · refine InLine.encode ?_
    cases d with
    | request => exact (h.method.1.append hspace).append h.uri.1
    | response =>
        show InLine ((r.status.map toString).getD "-")
        cases r.status with
        | none => exact hdash
        | some n => exact (InLine.ofNat n).1
  · intro line hline
    obtain ⟨f, hf, rfl⟩ := List.mem_map.mp hline
    obtain ⟨p, headers, hmap, heq⟩ := h.headers d
    rw [heq] at hf
    obtain ⟨hname, -, hvalue⟩ := p.filter_inLine hmap hf
    refine ⟨((hname.append hcolon).append hvalue).encode, ?_⟩
    show Utf8.encode (f.1 ++ ": " ++ f.2) ≠ []
    rw [Utf8.encode_append, Utf8.encode_append, show Utf8.encode ": " = [58, 32] from rfl]
    simp

/-- **An artifact is read back**: start line, headers and body, whatever the body holds. -/
theorem read?_preambles (h : Legible r) (d : Direction) (body : Bytes) :
    read? (Store.preambles r d ++ body) = some ⟨.of r d, r.headers d, body⟩ := by
  obtain ⟨hfirst, hrest⟩ := lines_plain h d
  have hstart : StartLine.read? (StartLine.of r d).text = some (StartLine.of r d) := by
    refine StartLine.read?_text fun method uri heq => ?_
    cases d with
    | request =>
        cases heq
        exact h.method.2
    | response => cases heq
  have hheaders : ((r.headers d).map (Utf8.encode ∘ headerText)).mapM
      (fun line => (Utf8.decode? line).bind Archive.readHeader) = some (r.headers d) := by
    refine Utf8.mapM_eq_some fun f hf => ?_
    obtain ⟨p, headers, hmap, heq⟩ := h.headers d
    rw [heq] at hf
    rw [Function.comp_apply, Utf8.decode?_encode]
    exact Archive.readHeader_line (p.filter_inLine hmap hf).2.1
  unfold read?
  rw [preambles_eq, Archive.cut_unlines hfirst hrest]
  simp only [Option.bind_eq_bind, Option.bind_some]
  rw [Archive.lines_unlines hfirst fun line hmem => (hrest line hmem).1]
  simp only [Utf8.decode?_encode, Option.bind_some, hstart, hheaders]

/-- The preamble ends at the first empty line. -/
theorem blank_first (h : Legible r) (d : Direction) (body : Bytes) :
    Archive.blank <:+ Store.preambles r d
      ∧ ∀ i, Archive.blank <+: (Store.preambles r d ++ body).drop i →
        (Store.preambles r d).length ≤ i + Archive.blank.length := by
  obtain ⟨hfirst, hrest⟩ := lines_plain h d
  rw [preambles_eq]
  refine ⟨List.suffix_append _ _, fun i hi => ?_⟩
  obtain ⟨-, hnone⟩ := Archive.cut_spec (Archive.cut_unlines hfirst hrest body)
  rw [List.length_append]
  refine Nat.add_le_add_right (Nat.not_lt.mp fun hless => ?_) _
  exact hnone i hless hi

/-- **Whatever was archived is read back**, from memory or from a spill: the preamble ends at the
first empty line of the artifact, the reader recovers start line, headers and body, and no other
start line, headers or body make the same artifact.  Where nothing was captured, an artifact that
was there before is left alone. -/
theorem archive_reads_back {s : Store} (hs : s.Reachable) (hr : Legible r) {base directory : Path}
    (hok : (Archive.archive s base r).1 = .ok directory) (d : Direction)
    (hfresh : s.held d r.id = none →
      ((s.withDirectories directory).beforeArchiving r.id directory (Store.preambles r)
        d).disk.exists? (directory.join (Store.artifactName d)) = false) :
    ∃ content, (Archive.archive s base r).2.disk.read (directory.join (Store.artifactName d))
        = .ok content
      ∧ read? content = some ⟨.of r d, r.headers d, (s.held d r.id).getD []⟩
      ∧ Store.preambles r d <+: content ∧ Archive.blank <:+ Store.preambles r d
      ∧ (∀ i, Archive.blank <+: content.drop i →
        (Store.preambles r d).length ≤ i + Archive.blank.length)
      ∧ ∀ r' d' body, Legible r' → Store.preambles r' d' ++ body = content →
        StartLine.of r' d' = .of r d ∧ r'.headers d' = r.headers d
          ∧ body = (s.held d r.id).getD [] := by
  obtain ⟨kept, hk⟩ := hs.sound d r.id
  have hheld : (s.held d r.id).getD [] = kept
      ∧ (kept = [] → s.held d r.id = none) := by
    rw [hk.held]
    split
    next hnil => exact ⟨hnil.symm, fun _ => rfl⟩
    next hne => exact ⟨rfl, fun hnil => absurd hnil hne⟩
  rw [hheld.1]
  obtain ⟨-, harchived, -⟩ := Store.archive_archived hs.sound hok hk
  obtain ⟨hends, hfirst⟩ := blank_first hr d kept
  refine ⟨_, harchived fun hnil => hfresh (hheld.2 hnil), read?_preambles hr d kept,
    List.prefix_append _ _, hends, hfirst, ?_⟩
  intro r' d' body hr' heq
  have hread := read?_preambles hr' d' body
  rw [heq, read?_preambles hr d kept] at hread
  obtain ⟨hstart, hheaders, hbody⟩ := Artifact.mk.inj (Option.some.inj hread)
  exact ⟨hstart.symm, hheaders.symm, hbody.symm⟩

/-- A body in a spill that begins with empty lines. -/
def blankBody : Store :=
  ((⟨.ofDirectories [["b"], ["a"]] [], ⟨true, .ofText "/b", 2, .both ∅⟩, .zero⟩ : Store).write
    .request ⟨"abcd"⟩ [13, 10, 13, 10, 7]).2

/-- Two fields of one name, of which one is not text. -/
def hostTwice : Http.Headers := ⟨[("host", [[97], [32, 255]])]⟩

/-- A record of them. -/
def blankRecord : Record :=
  { Record.new ⟨"abcd"⟩ "GET" "/" ⟨0, 0⟩ with requestHeaders := Policy.empty.filter hostTwice }

theorem hostTwice_isMap : hostTwice.IsMap := by
  have hfields : Http.Headers.ofFields [("Host", [97]), ("HOST", [32, 255])] = .ok hostTwice := by
    cbv
  exact Http.Headers.ofFields_isMap hfields

theorem blankRecord_legible : Legible blankRecord := by
  have hget : InLine "GET" := by decide
  have hslash : InLine "/" := by decide
  have hgetSpace : ' ' ∉ "GET".toList := by decide
  have hslashSpace : ' ' ∉ "/".toList := by decide
  refine ⟨⟨hget, hgetSpace⟩, ⟨hslash, hslashSpace⟩, fun d => ?_⟩
  cases d with
  | request => exact ⟨.empty, hostTwice, hostTwice_isMap, rfl⟩
  | response => exact ⟨.empty, .empty, (fun _ hmem => nomatch hmem), rfl⟩

/-- The same of a body that begins with empty lines. -/
theorem archive_reads_back_of_blank_body :
    ∃ directory content, (Archive.archive blankBody (.ofText "/a") blankRecord).1 = .ok directory
      ∧ (Archive.archive blankBody (.ofText "/a") blankRecord).2.disk.read
        (directory.join (Store.artifactName .request)) = .ok content
      ∧ read? content = some ⟨.request "GET" "/", Policy.empty.filter hostTwice,
        [13, 10, 13, 10, 7]⟩ := by
  have hstart : Store.Reachable ⟨.ofDirectories [["b"], ["a"]] [], ⟨true, .ofText "/b", 2, .both ∅⟩,
      .zero⟩ := .start (Repository.buffer?_of_empty rfl)
  have hs : blankBody.Reachable := hstart.call (.write .request ⟨"abcd"⟩ [13, 10, 13, 10, 7])
  have hheld : blankBody.held .request blankRecord.id = some [13, 10, 13, 10, 7] := by
    decide +kernel
  have hisOk : (Archive.archive blankBody (.ofText "/a") blankRecord).1.isOk = true := by
    decide +kernel
  cases hok : (Archive.archive blankBody (.ofText "/a") blankRecord).1 with
  | error failure =>
      rw [hok] at hisOk
      cases hisOk
  | ok directory =>
      obtain ⟨content, hcontent, hread, -⟩ := archive_reads_back hs blankRecord_legible hok .request
        fun hnone => by rw [hheld] at hnone; cases hnone
      rw [hheld] at hread
      exact ⟨directory, content, rfl, hcontent, hread⟩

end Artifact

end Wiretap
