/-
  Wiretap.Proofs.Codings
  ──────────────────────
  **WHICH CODING A BODY IS READ WITH.**

  Codings that were applied one after another are listed in a header, on one line or on several.
  A list of more than one coding is left as it is, and so its body reads back raw.  A record is
  given the coding of the first line alone: that is the coding of the list as long as the first
  line does not name one that can be undone while others follow.

    • `ContentCoding.ofHeader_of_comma`   — a list with a comma is left as it is,
    • `ContentCoding.ofHeader_joined`     — so is a list on several lines,
    • `Recording.coding_eq_joined_iff`    — when the first line gives the coding of the list.
-/
import Mathlib.Data.List.TakeWhile
import Wiretap.Proofs.Custody
import Wiretap.Proofs.Characters

namespace Wiretap

/-! ## §1. Lists of codings. -/

namespace Text

/-- Trimming takes away blank characters only. -/
theorem mem_dropWhile_isBlank {c : Char} {cs : List Char} (h : c ∈ cs) (hc : isBlank c = false) :
    c ∈ cs.dropWhile isBlank := by
  rw [← List.takeWhile_append_dropWhile (p := isBlank) (l := cs)] at h
  rcases List.mem_append.mp h with hfront | hrest
  · have hblank := List.mem_takeWhile_imp hfront
    rw [hc] at hblank
    cases hblank
  · exact hrest

theorem mem_trim {c : Char} {s : String} (h : c ∈ s.toList) (hc : isBlank c = false) :
    c ∈ (trim s).toList := by
  rw [trim, String.toList_ofList, trimChars, List.mem_reverse]
  exact mem_dropWhile_isBlank (List.mem_reverse.mpr (mem_dropWhile_isBlank h hc)) hc

end Text

namespace ContentCoding

/-- A list of codings with a comma is left as it is. -/
theorem ofHeader_of_comma {line : String} (h : ',' ∈ line.toList) :
    ofHeader (some line) = .identity := by
  have hcomma : ',' ∈ (Text.asciiLower (Text.trim line)).toList :=
    Text.mem_asciiLower (Text.mem_trim h rfl)
  have hne : ∀ name : String, ',' ∉ name.toList → Text.asciiLower (Text.trim line) ≠ name := by
    rintro name hname rfl
    exact hname hcomma
  unfold ofHeader
  dsimp only
  -- none of the names that are known has a comma
  split
  next heq => exact absurd heq (hne _ (by decide))
  next heq => exact absurd heq (hne _ (by decide))
  next heq => exact absurd heq (hne _ (by decide))
  next => rfl

/-- The list that several lines make together. -/
def joined : List String → Option String
  | [] => none
  | lines => some (", ".intercalate lines)

/-- A list on more than one line is left as it is. -/
theorem ofHeader_joined {lines : List String} (h : 2 ≤ lines.length) :
    ofHeader (joined lines) = .identity := by
  match lines, h with
  | first :: second :: rest, _ =>
      refine ofHeader_of_comma ?_
      rw [String.toList_intercalate, List.map_cons, List.map_cons, List.intercalate_cons_cons]
      exact List.mem_append_left _ (List.mem_append_right _ (by decide))

theorem joined_of_length_le {lines : List String} (h : lines.length ≤ 1) :
    joined lines = lines.head? := by
  match lines, h with
  | [], _ => rfl
  | [line], _ => exact congrArg some (String.toList_inj.mp (by simp))

/-- The first line tells the coding of the whole list just where it is alone, or names none that
can be undone. -/
theorem ofHeader_head?_iff (lines : List String) :
    ofHeader lines.head? = ofHeader (joined lines)
      ↔ lines.length ≤ 1 ∨ ofHeader lines.head? = .identity := by
  by_cases h : lines.length ≤ 1
  · rw [joined_of_length_le h]
    exact iff_of_true rfl (Or.inl h)
  · rw [ofHeader_joined (by omega)]
    exact ⟨Or.inr, fun hor => hor.resolve_left h⟩

end ContentCoding

/-! ## §2. Bodies of records. -/

/-- A body that is not coded can be decoded whenever it can be read. -/
theorem Body.content_of_identity {b : Body} (h : b.coding = .identity) (disk : Disk) :
    b.content disk = (b.raw disk).mapError .disk := by
  unfold content
  rw [h]
  cases b.raw disk <;> rfl

/-- The headers of one half of an exchange. -/
def CompletedExchange.headers (e : CompletedExchange) : Direction → Http.Headers
  | .request => e.requestHeaders
  | .response => e.responseHeaders

namespace Recording

/-- The body of a record is that of the store, with the coding of the first line. -/
theorem assemble_body (p : Recording) (s : Store) (e : CompletedExchange) (d : Direction) :
    (p.assemble s e).body d = s.get d e.id (contentCoding (e.headers d)) := by
  cases d <;> rfl

theorem contentCoding_of_lines {h : Http.Headers} {lines : List String}
    (hlines : (h.values "content-encoding").map Http.readable? = lines.map some) :
    contentCoding h = lines.head? := by
  unfold contentCoding Http.Headers.text? Http.Headers.first?
  cases hvalues : h.values "content-encoding" with
  | nil =>
      rw [hvalues] at hlines
      rw [List.map_eq_nil_iff.mp hlines.symm]
      rfl
  | cons value rest =>
      rw [hvalues] at hlines
      cases lines with
      | nil => cases hlines
      | cons line lines => exact (List.cons.inj hlines).1

theorem coding_of_get {s : Store} {d : Direction} {id : ExchangeId} {coding : Option String}
    {body : Body} (h : s.get d id coding = some body) :
    body.coding = ContentCoding.ofHeader coding := by
  unfold Store.get at h
  split at h
  next =>
    obtain ⟨buffer, -, rfl⟩ := Option.map_eq_some_iff.mp h
    cases buffer <;> rfl
  next => cases h

/-- **The first line decides how a body is read.**  Take any header map whose codings are all
readable, on these lines.  The body of the record is read with the coding of the first of them,
and that is the coding of the whole list just where there is no second line, or the first names
no coding that can be undone.  The list itself, on several lines or with a comma in one, is left
as it is; so where the two agree, a body with more than one coding reads back raw and cannot fail
to be decoded. -/
theorem coding_eq_joined_iff (p : Recording) (s : Store) (e : CompletedExchange) (d : Direction)
    {lines : List String}
    (hlines : ((e.headers d).values "content-encoding").map Http.readable? = lines.map some)
    {body : Body} (hbody : (p.assemble s e).body d = some body) :
    body.coding = ContentCoding.ofHeader lines.head?
      ∧ (body.coding = ContentCoding.ofHeader (ContentCoding.joined lines)
          ↔ lines.length ≤ 1 ∨ ContentCoding.ofHeader lines.head? = .identity)
      ∧ (2 ≤ lines.length ∨ (∃ line ∈ lines, ',' ∈ line.toList) →
          ContentCoding.ofHeader (ContentCoding.joined lines) = .identity
          ∧ (body.coding = ContentCoding.ofHeader (ContentCoding.joined lines) →
              ∀ disk, body.content disk = (body.raw disk).mapError .disk)) := by
  rw [assemble_body, contentCoding_of_lines hlines] at hbody
  have hcoding := coding_of_get hbody
  refine ⟨hcoding, ?_, fun hlist => ?_⟩
  · rw [hcoding]
    exact ContentCoding.ofHeader_head?_iff lines
  · have hraw : ContentCoding.ofHeader (ContentCoding.joined lines) = .identity := by
      by_cases hmany : 2 ≤ lines.length
      · exact ContentCoding.ofHeader_joined hmany
      · -- a single line, and the comma is in it
        obtain ⟨line, hmem, hcomma⟩ := hlist.resolve_left hmany
        obtain rfl : lines = [line] := by
          match lines, hmany, hmem with
          | [only], _, hmem => rw [List.mem_singleton.mp hmem]
          | _ :: _ :: _, hmany, _ => simp at hmany
        have hone : ContentCoding.joined [line] = some line :=
          ContentCoding.joined_of_length_le (Nat.le_refl _)
        rw [hone]
        exact ContentCoding.ofHeader_of_comma hcomma
    exact ⟨hraw, fun hagree disk => Body.content_of_identity (hagree.trans hraw) disk⟩

/-- A store with a response of three bytes. -/
def answered : Store :=
  ((⟨.ofDirectories [["b"]] [], ⟨true, .ofText "/b", 16, .both ∅⟩, .zero⟩ : Store).write
    .response ⟨"x"⟩ [97, 98, 99]).2

/-- An exchange whose response has these lines of codings. -/
def codedExchange (lines : List Bytes) : CompletedExchange :=
  { id := ⟨"x"⟩, method := "GET", uri := "/", route := "", policy := none, status := none,
    requestHeaders := .empty, responseHeaders := ⟨[("content-encoding", lines)]⟩,
    started := ⟨0, 0⟩, duration := .zero, remote := none, user := none, exception := none }

/-- The same of a response that was coded twice, where the first line names an unknown coding:
`br` and then `gzip`. -/
theorem coding_eq_joined_of_unknown_first :
    let body : Body := ⟨.memory [97, 98, 99], .identity⟩
    ((⟨.empty, none⟩ : Recording).assemble answered
        (codedExchange [[98, 114], [103, 122, 105, 112]])).body .response = some body
      ∧ body.coding = ContentCoding.ofHeader (ContentCoding.joined ["br", "gzip"])
      ∧ body.content answered.disk = .ok [97, 98, 99] := by
  intro body
  have hbody : ((⟨.empty, none⟩ : Recording).assemble answered
      (codedExchange [[98, 114], [103, 122, 105, 112]])).body .response = some body := by
    decide +kernel
  have hlines : (((codedExchange [[98, 114], [103, 122, 105, 112]]).headers .response).values
      "content-encoding").map Http.readable? = ["br", "gzip"].map some := by decide +kernel
  obtain ⟨hfirst, hiff, hlist⟩ := coding_eq_joined_iff _ _ _ _ hlines hbody
  have hagree := hiff.mpr (Or.inr (by decide +kernel))
  exact ⟨hbody, hagree, ((hlist (Or.inl (Nat.le_refl _))).2 hagree answered.disk).trans rfl⟩

/-- A response with `gzip` on a first line and `br` on a second is read as one that `gzip` alone
was applied to, and cannot be decoded; on one line these codings leave it as it is. -/
theorem second_line_unread :
    let e := codedExchange [[103, 122, 105, 112], [98, 114]]
    ((e.headers .response).values "content-encoding").map Http.readable?
        = ["gzip", "br"].map some
      ∧ ContentCoding.ofHeader (ContentCoding.joined ["gzip", "br"]) = .identity
      ∧ (((⟨.empty, none⟩ : Recording).assemble answered e).body .response).map
          (fun body => (body.coding, body.content answered.disk))
        = some (.gzip, .error (.coding .gzipIncomplete)) := by
  decide +kernel

end Recording

end Wiretap
