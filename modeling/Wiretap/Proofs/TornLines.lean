/-
  Wiretap.Proofs.TornLines
  ────────────────────────
  **WHAT A FAULTY DISK MAKES OF THE LOG.**

  A line that cannot be written is not taken back.  A short one waits in the buffer and goes
  into the file with the next line that does; of a long one the part that landed stays where it
  is.  So the file and the buffer behind it hold a piece for every dispatch, also for those
  that were answered with an error, and the log agrees with the answers just as long as all
  these pieces are still in the buffer:

    • `LineFile.TakesIn`            — what a file and its buffer took in, kept by every operation,
    • `LineFile.writeLine_cases`    — the piece that one line leaves,
    • `FaultyDispatches.pieces`     — one piece for each dispatch,
    • `FaultyDispatches.exists_torn_run` — any line can be torn, and another stand behind it,
    • `FaultyDispatches.agrees_iff` — when the log agrees with the answers.
-/
import Mathlib.Data.List.Induction
import Wiretap.Proofs.LineLog

namespace Wiretap

/-! ## §1. A file and its buffer. -/

namespace LineFile

variable {f f₁ f' : LineFile} {disk disk₁ disk' : Disk} {data line bytes bytes' : Bytes}
  {outcome : Except Fault Unit}

/-- From one state to a later one, the file and its buffer took in some bytes behind all that
they held: the file grew by what came out of the buffer or past it, and the rest is in the
buffer. -/
structure TakesIn (f : LineFile) (disk : Disk) (bytes : Bytes) (f' : LineFile) (disk' : Disk) :
    Prop where
  handle : f'.handle = f.handle
  grows : ∀ {content}, disk.contentOf f.handle = some content →
    ∃ landed, disk'.contentOf f.handle = some (content ++ landed)
      ∧ landed ++ f'.pending = f.pending ++ bytes

namespace TakesIn

/-- Where nothing happens to the file, nothing is taken in. -/
theorem refl (f : LineFile) (h : disk'.contentOf f.handle = disk.contentOf f.handle) :
    f.TakesIn disk [] f disk' :=
  ⟨rfl, fun {content} hcontent => ⟨[], by simpa [h] using hcontent, by simp⟩⟩

theorem trans (h : f.TakesIn disk bytes f₁ disk₁) (h' : f₁.TakesIn disk₁ bytes' f' disk') :
    f.TakesIn disk (bytes ++ bytes') f' disk' := by
  refine ⟨h'.handle.trans h.handle, fun {content} hcontent => ?_⟩
  obtain ⟨landed, hfile, hheld⟩ := h.grows hcontent
  rw [← h.handle] at hfile
  obtain ⟨landed', hfile', hheld'⟩ := h'.grows hfile
  rw [h.handle, List.append_assoc] at hfile'
  refine ⟨landed ++ landed', hfile', ?_⟩
  calc landed ++ landed' ++ f'.pending
      = landed ++ (f₁.pending ++ bytes') := by rw [List.append_assoc, hheld']
    _ = f.pending ++ (bytes ++ bytes') := by rw [← List.append_assoc, hheld, List.append_assoc]

/-- What is put into the buffer is taken in. -/
theorem buffered (f : LineFile) (disk : Disk) (line : Bytes) :
    f.TakesIn disk line { f with pending := f.pending ++ line } disk :=
  ⟨rfl, fun {content} hcontent => ⟨[], by simpa using hcontent, rfl⟩⟩

end TakesIn

/-- What an append makes of a landing. -/
theorem append_eq {left : Bytes} {length : Nat} {landing : Landing}
    (hlength : ((disk.contentOf f.handle).getD []).length = length)
    (hlanding : land 1 disk.responses 0 length data = landing)
    (h : f.append disk data = (outcome, left, disk')) :
    left = data.drop landing.landed.length ∧ disk' = (disk.write 1 f.handle length data).2
      ∧ (outcome = .ok () ↔ landing.outcome = .complete) := by
  unfold append at h
  simp only [Disk.write, hlength, hlanding] at h ⊢
  split at h
  next hout =>
    cases h
    simp [hout]
  next hout =>
    cases h
    simp [hout]
  next hout =>
    cases h
    simp [hout]

/-- Data at the end of the file land from their beginning on, and the rest is given back. -/
theorem append_cases {left : Bytes} (h : f.append disk data = (outcome, left, disk')) :
    ∃ landed, landed ++ left = data ∧ (outcome = .ok () ↔ left = [])
      ∧ ∀ {content}, disk.contentOf f.handle = some content →
        disk'.contentOf f.handle = some (content ++ landed) := by
  generalize hlength : ((disk.contentOf f.handle).getD []).length = length
  generalize hlanding : land 1 disk.responses 0 length data = landing
  obtain ⟨hleft, hdisk, hout⟩ := append_eq hlength hlanding h
  have hrest : landing.landed ++ left = data := by
    obtain ⟨rest, hrest⟩ := land_prefix 1 disk.responses 0 length data
    rw [hlanding] at hrest
    rw [hleft, ← hrest, List.drop_left]
  refine ⟨landing.landed, hrest, ?_, fun {content} hcontent => ?_⟩
  · rw [hout, ← hlanding]
    constructor
    · intro hcomplete
      have hall := land_complete 1 disk.responses 0 length data hcomplete
      rw [hlanding] at hall
      rw [hall] at hrest
      exact List.append_right_eq_self.mp hrest
    · intro hnil
      rw [hnil, List.append_nil, ← hlanding] at hrest
      exact land_complete_of_landed 1 disk.responses 0 length data hrest
  · have hend : length = content.length := by rw [← hlength, hcontent, Option.getD_some]
    rw [hdisk, ← hlanding, hend]
    exact Disk.contentOf_eq_some.mpr
      (Disk.file?_write 1 data (Disk.contentOf_eq_some.mp hcontent))

/-- A flush takes in nothing; where it ends well the buffer is empty, and from an empty buffer it
does. -/
theorem flush_cases (h : f.flush disk = (outcome, f', disk')) :
    f.TakesIn disk [] f' disk' ∧ (outcome = .ok () ↔ f'.pending = [])
      ∧ (f.pending = [] → outcome = .ok ()) := by
  unfold flush at h
  simp only at h
  cases happend : f.append disk f.pending with
  | mk ended rest =>
      obtain ⟨left, disk₁⟩ := rest
      rw [happend] at h
      cases h
      obtain ⟨landed, hrest, hout, hfile⟩ := append_cases happend
      refine ⟨⟨rfl, fun {content} hcontent => ⟨landed, hfile hcontent, ?_⟩⟩, hout, ?_⟩
      · rw [List.append_nil]
        exact hrest
      · intro hnil
        rw [hnil] at hrest
        exact hout.mpr (List.append_eq_nil_iff.mp hrest).2

/-- What is left of a line that was not written: nothing of it; all of a short one, which may
wait in the buffer; or a part of a long one, which does not. -/
def IsRemnant (line piece : Bytes) : Prop :=
  piece = [] ∨ (line.length < capacity ∧ piece = line)
    ∨ (capacity ≤ line.length ∧ piece <+: line ∧ piece ≠ line)

theorem IsRemnant.isBeginning {piece : Bytes} (h : IsRemnant line piece) : piece <+: line := by
  rcases h with rfl | ⟨-, rfl⟩ | ⟨-, hpart, -⟩
  · exact List.nil_prefix
  · exact List.prefix_refl _
  · exact hpart

/-- A line that goes past the empty buffer: all of it, or a part. -/
theorem append_past (hempty : f.pending = []) {left : Bytes}
    (h : f.append disk line = (outcome, left, disk')) :
    ∃ piece, f.TakesIn disk piece f disk'
      ∧ ((outcome = .ok () ∧ piece = line) ∨ (outcome ≠ .ok () ∧ piece <+: line ∧ piece ≠ line)) := by
  obtain ⟨landed, hrest, hout, hfile⟩ := append_cases h
  refine ⟨landed, ⟨rfl, fun {content} hcontent => ⟨landed, hfile hcontent, ?_⟩⟩, ?_⟩
  · rw [hempty, List.append_nil, List.nil_append]
  · by_cases hnil : left = []
    · rw [hnil, List.append_nil] at hrest
      exact Or.inl ⟨hout.mpr hnil, hrest⟩
    · refine Or.inr ⟨fun hok => hnil (hout.mp hok), ⟨left, hrest⟩, ?_⟩
      intro hwhole
      rw [hwhole] at hrest
      exact hnil (List.append_right_eq_self.mp hrest)

/-- A line that is put away is taken in, and past an empty buffer if it is long; otherwise none
of it is, or a part of a long one. -/
theorem put_cases (h : f.put disk line = (outcome, f', disk')) :
    ∃ piece, f.TakesIn disk piece f' disk'
      ∧ ((outcome = .ok () ∧ piece = line ∧ (capacity ≤ line.length → f'.pending = []))
        ∨ (outcome ≠ .ok () ∧ (piece = []
          ∨ (capacity ≤ line.length ∧ piece <+: line ∧ piece ≠ line)))) := by
  have hcapacity : capacity = 8192 := rfl
  unfold put at h
  simp only at h
  split at h
  next hshort =>
    cases h
    refine ⟨line, .buffered f disk line, Or.inl ⟨rfl, rfl, ?_⟩⟩
    omega
  next hfull =>
    generalize hmade : (if capacity - f.pending.length < line.length then f.flush disk
      else (.ok (), f, disk)) = made at h
    obtain ⟨flushed, g, disk₁⟩ := made
    -- the buffer is emptied unless the line just fits; a long line only fits into an empty one
    have hg : f.TakesIn disk [] g disk₁
        ∧ (flushed = .ok () → capacity ≤ line.length → g.pending = []) := by
      split at hmade
      next =>
        obtain ⟨htakes, hout, -⟩ := flush_cases hmade
        exact ⟨htakes, fun hok _ => hout.mp hok⟩
      next hroom =>
        cases hmade
        refine ⟨.refl f rfl, fun _ hlong => List.eq_nil_of_length_eq_zero ?_⟩
        omega
    obtain ⟨htakes, hempty⟩ := hg
    cases flushed with
    | error fault =>
        cases h
        exact ⟨[], htakes, Or.inr ⟨nofun, Or.inl rfl⟩⟩
    | ok done =>
        simp only at h
        split at h
        next hlong =>
          cases happend : g.append disk₁ line with
          | mk ended rest =>
              obtain ⟨left, disk₂⟩ := rest
              rw [happend] at h
              cases h
              obtain ⟨piece, hpast, hpiece⟩ := append_past (hempty rfl hlong) happend
              refine ⟨piece, htakes.trans hpast, ?_⟩
              rcases hpiece with ⟨hok, hall⟩ | ⟨hfailed, hpart⟩
              · exact Or.inl ⟨hok, hall, fun _ => hempty rfl hlong⟩
              · exact Or.inr ⟨hfailed, Or.inr ⟨hlong, hpart⟩⟩
        next hshort =>
          cases h
          refine ⟨line, htakes.trans (.buffered g _ line), Or.inl ⟨rfl, rfl, ?_⟩⟩
          omega

/-- **The piece that a line leaves**: a line that is written is taken in, and all that was
waiting is in the file; of one that is not, a remnant is. -/
theorem writeLine_cases (h : f.writeLine disk line = (outcome, f', disk')) :
    ∃ piece, f.TakesIn disk piece f' disk'
      ∧ ((outcome = .ok () ∧ piece = line ∧ f'.pending = [])
        ∨ (outcome ≠ .ok () ∧ IsRemnant line piece)) := by
  unfold writeLine at h
  cases hput : f.put disk line with
  | mk putAway rest =>
      obtain ⟨g, disk₁⟩ := rest
      rw [hput] at h
      obtain ⟨piece, htakes, ⟨rfl, hpiece, hempty⟩ | ⟨hfailed, hpiece⟩⟩ := put_cases hput
      · obtain ⟨hflushed, hout, hnone⟩ := flush_cases h
        have htaken := htakes.trans hflushed
        rw [List.append_nil] at htaken
        refine ⟨piece, htaken, ?_⟩
        by_cases hok : outcome = .ok ()
        · exact Or.inl ⟨hok, hpiece, hout.mp hok⟩
        · -- behind a long line there is nothing to flush, so this one is short
          have hshort : ¬ capacity ≤ line.length := fun hlong => hok (hnone (hempty hlong))
          exact Or.inr ⟨hok, Or.inr (Or.inl ⟨Nat.not_le.mp hshort, hpiece⟩)⟩
      · cases putAway with
        | ok done => exact absurd rfl hfailed
        | error fault =>
            cases h
            refine ⟨piece, htakes, Or.inr ⟨hfailed, ?_⟩⟩
            rcases hpiece with hnil | hpart
            · exact Or.inl hnil
            · exact Or.inr (Or.inr hpart)

end LineFile

/-! ## §2. One dispatch. -/

/-- What a dispatch leaves in the file and its buffer: its line, if it was logged, and then
nothing is waiting; nothing, if it has no line; and otherwise a remnant of its line. -/
inductive Leaves (detail : BodyDetail) (c : Dispatched) : Bytes → Prop
  | line {line : Bytes} (hlogged : c.isLogged = true)
      (hline : AccessLine.line detail c.disk c.record = .ok line) : Leaves detail c line
  | nothing {stop : ReadStop} (hlost : c.isLogged = false)
      (hstop : AccessLine.line detail c.disk c.record = .error stop) : Leaves detail c []
  | remnant {line piece : Bytes} (hlost : c.isLogged = false)
      (hline : AccessLine.line detail c.disk c.record = .ok line)
      (hpiece : LineFile.IsRemnant line piece) : Leaves detail c piece

namespace Sink

variable {file file' : LineFile} {detail : BodyDetail} {disk disk' : Disk} {r : Record}
  {answer : SinkAnswer}

/-- **One dispatch**, whatever the disk answers: a piece is taken in, and where the record was
logged nothing waits. -/
theorem call_lines_cases
    (hcall : (lines file detail).call disk r = ⟨answer, lines file' detail, disk', []⟩) :
    ∃ piece, file.TakesIn disk piece file' disk' ∧ Leaves detail ⟨r, disk, answer⟩ piece
      ∧ (answer = .returned .ok → file'.pending = []) := by
  unfold call lines at hcall
  cases hline : AccessLine.line detail disk r with
  | error stop =>
      simp only [addLine_of_error hline] at hcall
      cases hcall
      have hlost := unwritten_ne_ok "json_lines" file.path stop
      refine ⟨[], .refl file rfl, .nothing ?_ hline, fun hok => absurd hok hlost⟩
      simpa [Dispatched.isLogged] using hlost
  | ok line =>
      simp only [addLine, hline] at hcall
      cases hwrite : file.writeLine disk line with
      | mk outcome rest =>
          obtain ⟨file₁, disk₁⟩ := rest
          rw [hwrite] at hcall
          obtain ⟨piece, htakes, ⟨hok, hall, hempty⟩ | ⟨hfailed, hpiece⟩⟩ :=
            LineFile.writeLine_cases hwrite
          · cases hok
            cases hcall
            rw [hall] at htakes
            exact ⟨line, htakes, .line rfl hline, fun _ => hempty⟩
          · cases outcome with
            | ok done => exact absurd rfl hfailed
            | error fault =>
                cases hcall
                have hlost := unwritten_ne_ok "json_lines" file₁.path (.failed (.disk fault))
                refine ⟨piece, htakes, .remnant ?_ hline hpiece, fun hok => absurd hok hlost⟩
                simpa [Dispatched.isLogged] using hlost

end Sink

/-! ## §3. Pieces of either kind. -/

/-- The pieces of the dispatches that were logged, one behind the other, or of those that were
not. -/
def piecesOf (logged : Bool) (items : List (Dispatched × Bytes)) : Bytes :=
  (items.filter fun item => item.1.isLogged == logged).flatMap (·.2)

section Pieces

variable {items : List (Dispatched × Bytes)} {item : Dispatched × Bytes} {landed left : Bytes}

theorem piecesOf_concat (logged : Bool) (items : List (Dispatched × Bytes))
    (item : Dispatched × Bytes) : piecesOf logged (items ++ [item])
      = piecesOf logged items ++ if item.1.isLogged = logged then item.2 else [] := by
  unfold piecesOf
  by_cases hlogged : item.1.isLogged = logged <;> simp [List.filter_append, hlogged]

theorem piecesOf_length (items : List (Dispatched × Bytes)) :
    (piecesOf true items).length + (piecesOf false items).length
      = (items.flatMap (·.2)).length := by
  induction items using List.reverseRecOn with
  | nil => rfl
  | append_singleton items item ih =>
      rw [piecesOf_concat, piecesOf_concat, List.flatMap_append]
      cases item.1.isLogged <;> simp at ih ⊢ <;> omega

/-- Where nothing was lost, all pieces are of those that were logged. -/
theorem piecesOf_true_of_lost_nil (h : piecesOf false items = []) :
    piecesOf true items = items.flatMap (·.2) := by
  induction items using List.reverseRecOn with
  | nil => rfl
  | append_singleton items item ih =>
      rw [piecesOf_concat, List.append_eq_nil_iff] at h
      rw [piecesOf_concat, ih h.1, List.flatMap_append]
      cases hlogged : item.1.isLogged with
      | true => simp
      | false =>
          have hnone : item.2 = [] := by simpa [hlogged] using h.2
          simp [hnone]

/-- If just as much landed as was logged, then what landed is what was logged, and what is left
is what was lost. -/
theorem landed_eq_of_length (hheld : landed ++ left = items.flatMap (·.2))
    (hflushed : ∀ n item, items[n]? = some item → item.1.isLogged = true →
      (items.take (n + 1)).flatMap (·.2) <+: landed)
    (hlength : landed.length = (piecesOf true items).length) :
    landed = piecesOf true items ∧ left = piecesOf false items := by
  have hsum := piecesOf_length items
  induction items using List.reverseRecOn generalizing left with
  | nil => simpa [piecesOf] using hheld
  | append_singleton items item ih =>
      cases hlogged : item.1.isLogged with
      | true =>
          -- all pieces landed, so there were none of the other kind
          have hall := hflushed items.length item (by simp) hlogged
          rw [List.take_of_length_le (by simp), ← hheld] at hall
          have hleft : left = [] := by
            have hle := hall.length_le
            rw [List.length_append] at hle
            exact List.eq_nil_of_length_eq_zero (by omega)
          rw [hleft, List.append_nil] at hheld
          have hlost : piecesOf false (items ++ [item]) = [] :=
            List.eq_nil_of_length_eq_zero (by rw [← hheld] at hsum; omega)
          exact ⟨by rw [piecesOf_true_of_lost_nil hlost, hheld], by rw [hleft, hlost]⟩
      | false =>
          have htrue : piecesOf true (items ++ [item]) = piecesOf true items := by
            simp [piecesOf_concat, hlogged]
          have hfalse : piecesOf false (items ++ [item]) = piecesOf false items ++ item.2 := by
            simp [piecesOf_concat, hlogged]
          rw [htrue] at hlength ⊢
          rw [hfalse]
          rw [List.flatMap_append, List.flatMap_singleton] at hheld
          -- what landed is too short to reach into the last piece
          have hsum' := piecesOf_length items
          obtain ⟨left', hleft'⟩ : landed <+: items.flatMap (·.2) :=
            List.prefix_of_prefix_length_le ⟨left, hheld⟩ (List.prefix_append _ item.2) (by omega)
          have hleft : left = left' ++ item.2 := by
            rw [← hleft', List.append_assoc] at hheld
            exact List.append_cancel_left hheld
          obtain ⟨hlanded, hlost⟩ := ih hleft' (fun n other hn hother => by
            have hlt : n < items.length := (List.getElem?_eq_some_iff.mp hn).1
            have hprefix := hflushed n other (by rw [List.getElem?_append_left hlt, hn]) hother
            rwa [List.take_append_of_le_length hlt] at hprefix) hlength hsum'
          exact ⟨hlanded, by rw [hleft, hlost]⟩

/-- What landed is what was logged just when what is left is what was lost. -/
theorem landed_eq_iff (hheld : landed ++ left = items.flatMap (·.2))
    (hflushed : ∀ n item, items[n]? = some item → item.1.isLogged = true →
      (items.take (n + 1)).flatMap (·.2) <+: landed) :
    landed = piecesOf true items ↔ left = piecesOf false items := by
  constructor
  · intro h
    exact (landed_eq_of_length hheld hflushed (congrArg List.length h)).2
  · intro h
    have hsum := piecesOf_length items
    rw [← hheld, h, List.length_append] at hsum
    exact (landed_eq_of_length hheld hflushed (by omega)).1

end Pieces

/-! ## §4. Any number of dispatches. -/

/-- Records are dispatched to a sink that adds lines, on a disk that answers as it likes.
Between two dispatches anything may happen on the disk, and to what it will answer, but not to
the file of the lines. -/
inductive FaultyDispatches (detail : BodyDetail) :
    LineFile → Disk → List Dispatched → LineFile → Disk → Prop
  | done (file : LineFile) (disk : Disk) : FaultyDispatches detail file disk [] file disk
  | elsewhere {file file' : LineFile} {disk disk₁ disk' : Disk} {calls : List Dispatched}
      (hkept : disk₁.contentOf file.handle = disk.contentOf file.handle)
      (rest : FaultyDispatches detail file disk₁ calls file' disk') :
      FaultyDispatches detail file disk calls file' disk'
  | dispatch {file file₁ file' : LineFile} {disk disk₁ disk' : Disk} {r : Record}
      {answer : SinkAnswer} {calls : List Dispatched}
      (hcall : (Sink.lines file detail).call disk r
        = ⟨answer, Sink.lines file₁ detail, disk₁, []⟩)
      (rest : FaultyDispatches detail file₁ disk₁ calls file' disk') :
      FaultyDispatches detail file disk (⟨r, disk, answer⟩ :: calls) file' disk'

namespace FaultyDispatches

variable {detail : BodyDetail} {file file' : LineFile} {disk disk' : Disk}
  {calls : List Dispatched} {content : Bytes}

/-- Any records can be dispatched one behind the other, whatever the disk answers to each. -/
theorem exists_run (detail : BodyDetail) (file : LineFile) (disk : Disk)
    (script : List (Record × List Response)) :
    ∃ calls file' disk', FaultyDispatches detail file disk calls file' disk'
      ∧ calls.map (fun c => (c.record, c.disk.responses)) = script := by
  induction script generalizing file disk with
  | nil => exact ⟨[], file, disk, .done file disk, rfl⟩
  | cons entry script ih =>
      obtain ⟨r, responses⟩ := entry
      obtain ⟨answer, file₁, disk₁, hcall, -⟩ :=
        Sink.exists_call_lines file detail { disk with responses } r
      obtain ⟨calls, file', disk', hrun, hscript⟩ := ih file₁ disk₁
      have hkept : ({ disk with responses } : Disk).contentOf file.handle
          = disk.contentOf file.handle := rfl
      exact ⟨_, file', disk', .elsewhere hkept (.dispatch hcall hrun),
        by rw [List.map_cons, hscript]⟩

/-- There is one piece for each dispatch; the file and its buffer take in these pieces and no
more, and all up to the last that was logged are in the file. -/
theorem pieces (hrun : FaultyDispatches detail file disk calls file' disk')
    (hcontent : disk.contentOf file.handle = some content) :
    ∃ pieces landed, List.Forall₂ (Leaves detail) calls pieces
      ∧ file'.handle = file.handle
      ∧ disk'.contentOf file.handle = some (content ++ landed)
      ∧ landed ++ file'.pending = file.pending ++ pieces.flatten
      ∧ ∀ n c, calls[n]? = some c → c.isLogged = true →
          file.pending ++ (pieces.take (n + 1)).flatten <+: landed := by
  induction hrun generalizing content with
  | done file disk =>
      exact ⟨[], [], .nil, rfl, by simpa using hcontent, by simp, by simp⟩
  | elsewhere hkept rest ih => exact ih (hkept.trans hcontent)
  | @dispatch file file₁ _ disk disk₁ _ r answer calls hcall rest ih =>
      obtain ⟨piece, htakes, hleaves, hempty⟩ := Sink.call_lines_cases hcall
      obtain ⟨landed, hfile, hheld⟩ := htakes.grows hcontent
      rw [← htakes.handle] at hfile
      obtain ⟨pieces, landed', hall, hhandle, hfile', hheld', hflushed⟩ := ih hfile
      rw [htakes.handle, List.append_assoc] at hfile'
      -- what lands behind the first dispatch stands behind what it took in
      have hbehind : ∀ front : List Bytes,
          file.pending ++ (piece :: front).flatten = landed ++ (file₁.pending ++ front.flatten) := by
        intro front
        rw [List.flatten_cons, ← List.append_assoc, ← hheld, List.append_assoc]
      refine ⟨piece :: pieces, landed ++ landed', .cons hleaves hall,
        hhandle.trans htakes.handle, hfile', ?_, ?_⟩
      · rw [List.append_assoc, hheld', hbehind]
      · intro n c hc hlogged
        rw [List.take_succ_cons, hbehind]
        cases n with
        | zero =>
            cases hc
            have hnone : file₁.pending = [] := hempty (by simpa [Dispatched.isLogged] using hlogged)
            rw [hnone]
            simp
        | succ n => exact (List.prefix_append_right_inj landed).mpr (hflushed n c hc hlogged)

end FaultyDispatches

/-! ## §5. A line that is torn. -/

namespace LineFile

variable {f f' : LineFile} {disk disk' : Disk} {line content : Bytes}
  {outcome : Except Fault Unit}

/-- The disk takes one byte of what is written next, and then has no room for more. -/
def Tears (disk : Disk) : Prop := disk.responses = [.short 1, .refuse .storageFull]

/-- Of more than one byte just the first lands. -/
theorem append_of_tears (h : Tears disk) (hline : 1 < line.length)
    (hcontent : disk.contentOf f.handle = some content) :
    ∃ left disk', f.append disk line = (.error .storageFull, left, disk')
      ∧ disk'.contentOf f.handle = some (content ++ line.take 1) := by
  obtain ⟨b, c, rest, rfl⟩ : ∃ b c rest, line = b :: c :: rest := by
    match line, hline with
    | b :: c :: rest, _ => exact ⟨b, c, rest, rfl⟩
  obtain ⟨disk', happend⟩ :
      ∃ disk', f.append disk (b :: c :: rest) = (.error .storageFull, c :: rest, disk') := by
    unfold Tears at h
    unfold append
    simp [Disk.write, h, land, Landing.after, Landing.landed]
  obtain ⟨landed, hrest, -, hfile⟩ := append_cases happend
  have hlanded : landed = [b] :=
    List.append_cancel_right (hrest.trans (List.singleton_append (l := c :: rest)).symm)
  refine ⟨c :: rest, disk', happend, ?_⟩
  rw [hfile hcontent, hlanded]
  rfl

/-- To flush an empty buffer asks nothing of the disk. -/
theorem flush_of_settled (h : f.Settled disk content)
    (hflush : f.flush disk = (outcome, f', disk')) :
    outcome = .ok () ∧ f'.Settled disk' content ∧ f'.handle = f.handle
      ∧ disk'.responses = disk.responses := by
  obtain ⟨htakes, hout, hok⟩ := flush_cases hflush
  obtain ⟨landed, hfile, hheld⟩ := htakes.grows h.content
  have hnone : landed = [] ∧ f'.pending = [] := by
    rw [h.pending] at hheld
    exact List.append_eq_nil_iff.mp hheld
  refine ⟨hok h.pending, ⟨?_, hnone.2⟩, htakes.handle, ?_⟩
  · rw [htakes.handle, hfile, hnone.1, List.append_nil]
  · have hland : ∀ length, land 1 disk.responses 0 length []
        = ⟨[], length, disk.responses, .complete⟩ := by simp [land]
    unfold flush append at hflush
    rw [h.pending] at hflush
    simp only [Disk.write, hland] at hflush
    cases hflush
    rfl

/-- A line of more than one byte is torn: it is not written, and its first byte is in the file. -/
theorem writeLine_of_tears (hsettled : f.Settled disk content) (h : Tears disk)
    (hline : 1 < line.length) :
    ∃ f' disk', f.writeLine disk line = (.error .storageFull, f', disk')
      ∧ disk'.contentOf f.handle = some (content ++ line.take 1) := by
  have hcapacity : capacity = 8192 := rfl
  have hspare : capacity - f.pending.length = capacity := by
    rw [hsettled.pending]
    rfl
  unfold writeLine put
  simp only [hspare]
  by_cases hshort : line.length < capacity
  · -- a short line goes through the buffer
    obtain ⟨left, disk', happend, hfile⟩ := append_of_tears h hline hsettled.content
    have hflush : flush { f with pending := f.pending ++ line } disk
        = (.error .storageFull, { f with pending := left }, disk') := by
      have hthrough : append { f with pending := line } disk line
          = (.error .storageFull, left, disk') := happend
      unfold flush
      simp only [hsettled.pending, List.nil_append, hthrough]
    rw [if_pos hshort]
    exact ⟨_, disk', hflush, hfile⟩
  · rw [if_neg hshort]
    generalize hmade : (if capacity < line.length then f.flush disk
      else (.ok (), f, disk)) = made
    obtain ⟨flushed, g, disk₁⟩ := made
    have hg : flushed = .ok () ∧ g.Settled disk₁ content ∧ g.handle = f.handle
        ∧ disk₁.responses = disk.responses := by
      split at hmade
      next => exact flush_of_settled hsettled hmade
      next =>
        cases hmade
        exact ⟨rfl, hsettled, rfl, rfl⟩
    obtain ⟨rfl, hempty, hhandle, hresponses⟩ := hg
    obtain ⟨left, disk', happend, hfile⟩ :=
      append_of_tears (hresponses.trans h) hline hempty.content
    simp only [if_pos (Nat.not_lt.mp hshort), happend]
    rw [hhandle] at hfile
    exact ⟨g, disk', rfl, hfile⟩

end LineFile

namespace FaultyDispatches

variable {detail : BodyDetail} {file : LineFile} {disk : Disk} {content : Bytes}

/-- Where no bodies are included every record has a line, and it has more than one byte. -/
theorem exists_line (hbare : detail.included = false) (disk : Disk) (r : Record) :
    ∃ line, AccessLine.line detail disk r = .ok line ∧ 1 < line.length := by
  cases hline : AccessLine.line detail disk r with
  | error fault =>
      have hincluded := (AccessLine.line_error_iff.mp ⟨fault, hline⟩).1
      rw [hbare] at hincluded
      cases hincluded
  | ok line =>
      obtain ⟨v, w, -, -, hbytes⟩ := AccessLine.line_ok hline
      have hopened : ∃ rest, (Json.object (AccessLine.members r v w)).render.toList
          = Char.ofNat 0x7B :: rest := ⟨_, String.toList_ofList⟩
      obtain ⟨rest, hopened⟩ := hopened
      obtain ⟨first, tail, hfirst, -⟩ := Utf8.piece_encodeChar (Char.ofNat 0x7B) []
      refine ⟨line, rfl, ?_⟩
      rw [hbytes, Utf8.encode, hopened, List.flatMap_cons, hfirst, List.length_append]
      simp only [List.cons_append, List.length_cons]
      omega

/-- The dispatch of a record whose line is torn fails, and a piece of the line stays. -/
theorem lost_dispatch (hbare : detail.included = false) (hsettled : file.Settled disk content)
    (htears : LineFile.Tears disk) (r : Record) :
    ∃ message file' disk' line piece,
      (Sink.lines file detail).call disk r
          = ⟨.returned (.failed "json_lines" message), Sink.lines file' detail, disk', []⟩
        ∧ AccessLine.line detail disk r = .ok line
        ∧ piece ≠ [] ∧ piece <+: line
        ∧ file'.handle = file.handle ∧ file'.Holds disk' (content ++ piece) := by
  obtain ⟨line, hline, hlong⟩ := exists_line hbare disk r
  obtain ⟨file', disk', hwrite, hbyte⟩ := LineFile.writeLine_of_tears hsettled htears hlong
  obtain ⟨piece, htakes, ⟨hok, -⟩ | ⟨-, hpiece⟩⟩ := LineFile.writeLine_cases hwrite
  · cases hok
  obtain ⟨landed, hfile, hheld⟩ := htakes.grows hsettled.content
  rw [hsettled.pending, List.nil_append] at hheld
  have hlanded : landed = line.take 1 :=
    List.append_cancel_left (Option.some.inj (hfile.symm.trans hbyte))
  have hcall : ∃ message, (Sink.lines file detail).call disk r
      = ⟨.returned (.failed "json_lines" message), Sink.lines file' detail, disk', []⟩ := by
    simp only [Sink.call, Sink.lines, Sink.addLine, hline, hwrite]
    exact ⟨_, rfl⟩
  obtain ⟨message, hcall⟩ := hcall
  refine ⟨message, file', disk', line, piece, hcall, hline, fun hnone => ?_, hpiece.isBeginning,
    htakes.handle, content ++ landed, ?_, by rw [List.append_assoc, hheld]⟩
  · -- one byte of the line is in the file
    rw [hnone, hlanded, List.append_eq_nil_iff, List.take_eq_nil_iff] at hheld
    rcases hheld.1 with hzero | hnil
    · cases hzero
    · rw [hnil] at hlong
      cases hlong
  · rw [htakes.handle]
    exact hfile

/-- On a disk that does what it is asked a record is logged: its line stands behind all that the
file and its buffer held. -/
theorem logged_dispatch {bytes : Bytes} (hbare : detail.included = false)
    (hr : disk.responses = []) (hholds : file.Holds disk bytes) (r : Record) :
    ∃ file' disk' line,
      (Sink.lines file detail).call disk r
          = ⟨.returned .ok, Sink.lines file' detail, disk', []⟩
        ∧ AccessLine.line detail disk r = .ok line
        ∧ disk'.contentOf file.handle = some (bytes ++ line) := by
  obtain ⟨line, hline, -⟩ := exists_line hbare disk r
  obtain ⟨file', disk', hwritten, -⟩ := LineFile.writeLine_of_responses_nil hr file line
  have hcall : (Sink.lines file detail).call disk r
      = ⟨.returned .ok, Sink.lines file' detail, disk', []⟩ := by
    simp only [Sink.call, Sink.lines, Sink.addLine_of_ok hline hwritten]
  have hdone := (LineFile.writeLine_ok hholds hwritten).content
  rw [Sink.handle_of_call_lines hcall] at hdone
  exact ⟨file', disk', line, hcall, hline, hdone⟩

/-- Of any two records the first can be torn: its dispatch fails, and what landed of its line
stands before the line of the second, which is logged. -/
theorem exists_torn_run (hbare : detail.included = false) (hsettled : file.Settled disk content)
    (lost logged : Record) :
    ∃ calls file' disk' first second piece, FaultyDispatches detail file disk calls file' disk'
      ∧ calls.map (fun c => (c.record, c.isLogged)) = [(lost, false), (logged, true)]
      ∧ List.Forall₂ (fun c line => AccessLine.line detail c.disk c.record = .ok line) calls
          [first, second]
      ∧ piece ≠ [] ∧ piece <+: first
      ∧ disk'.contentOf file.handle = some (content ++ piece ++ second) := by
  -- the disk takes one byte of the first line
  obtain ⟨torn, htorn⟩ : ∃ torn : Disk,
      torn = { disk with responses := [.short 1, .refuse .storageFull] } := ⟨_, rfl⟩
  have htears : LineFile.Tears torn := by
    rw [htorn]
    rfl
  have hkept : torn.contentOf file.handle = disk.contentOf file.handle := by
    rw [htorn]
    rfl
  have hstart : file.Settled torn content := ⟨hkept.trans hsettled.content, hsettled.pending⟩
  obtain ⟨message, file₁, disk₁, first, piece, hlost, hfirst, hpiece, hpart, hhandle, hholds⟩ :=
    lost_dispatch hbare hstart htears lost
  -- then it does what it is asked
  obtain ⟨free, hfree⟩ : ∃ free : Disk, free = { disk₁ with responses := [] } := ⟨_, rfl⟩
  have hresponses : free.responses = [] := by rw [hfree]
  have hkept₁ : free.contentOf file₁.handle = disk₁.contentOf file₁.handle := by
    rw [hfree]
    rfl
  have hholds₁ : file₁.Holds free (content ++ piece) := by
    obtain ⟨found, hfound, hheld⟩ := hholds
    exact ⟨found, hkept₁.trans hfound, hheld⟩
  obtain ⟨file₂, disk₂, second, hlogged, hsecond, hdone⟩ :=
    logged_dispatch hbare hresponses hholds₁ logged
  rw [hhandle] at hdone
  refine ⟨[⟨lost, torn, _⟩, ⟨logged, free, _⟩], file₂, disk₂, first, second, piece,
    .elsewhere hkept (.dispatch hlost (.elsewhere hkept₁ (.dispatch hlogged (.done ..)))),
    ?_, .cons hfirst (.cons hsecond .nil), hpiece, hpart, hdone⟩
  simp [Dispatched.isLogged, SinkResult.failed, SinkResult.ok]

end FaultyDispatches

/-! ## §6. The log and the answers. -/

namespace FaultyDispatches

variable {detail : BodyDetail} {file file' : LineFile} {disk disk' : Disk}
  {calls : List Dispatched}

/-- **The log agrees with the answers just as long as all that failed dispatches left is still in
the buffer.**  Behind what was in the file when it was opened there landed, in the order of the
dispatches, a beginning of what they left: the line of each that was logged, all of it, and
remnants of the others.  These are in the file as soon as a later dispatch is logged. -/
theorem agrees_iff {before : Disk} {path : Path}
    (hopen : LineFile.open? before path = (.ok file, disk))
    (hrun : FaultyDispatches detail file disk calls file' disk') :
    ∃ pieces landed, List.Forall₂ (Leaves detail) calls pieces
      ∧ disk'.contentOf file.handle
          = some (((before.file? file.handle.place).map (·.2)).getD [] ++ landed)
      ∧ landed ++ file'.pending = pieces.flatten
      ∧ (∀ n c, calls[n]? = some c → c.isLogged = true →
          (pieces.take (n + 1)).flatten <+: landed)
      ∧ (landed = piecesOf true (calls.zip pieces)
          ↔ file'.pending = piecesOf false (calls.zip pieces)) := by
  have hopened := LineFile.open?_settled hopen
  obtain ⟨pieces, landed, hleaves, -, hfile, hheld, hflushed⟩ := hrun.pieces hopened.content
  rw [hopened.pending, List.nil_append] at hheld
  simp only [hopened.pending, List.nil_append] at hflushed
  have hpieces : (calls.zip pieces).map (·.2) = pieces :=
    List.map_snd_zip (Nat.le_of_eq hleaves.length_eq.symm)
  refine ⟨pieces, landed, hleaves, hfile, hheld, hflushed, landed_eq_iff ?_ ?_⟩
  · rw [List.flatMap_def, hpieces, hheld]
  · intro n item hitem hlogged
    rw [List.flatMap_def, List.map_take, hpieces]
    exact hflushed n item.1 (List.getElem?_zip_eq_some.mp hitem).1 hlogged

/-- A disk with an empty log. -/
def emptyLog : Disk := (Disk.ofDirectories [] []).put ["log"] (.file 7 [])

/-- The log, opened. -/
def openedLog : LineFile := ⟨.ofText "/log", ⟨["log"], 7⟩, []⟩

/-- The disk behind it. -/
def openedDisk : Disk := (LineFile.open? emptyLog (.ofText "/log")).2

def lostRecord : Record := Record.new ⟨"a"⟩ "GET" "/" ⟨0, 0⟩

def loggedRecord : Record := Record.new ⟨"b"⟩ "GET" "/" ⟨0, 0⟩

theorem openedLog_settled : openedLog.Settled openedDisk [] := LineFile.open?_settled (rfl :
  LineFile.open? emptyLog (.ofText "/log") = (.ok openedLog, openedDisk))

/-- The same of two records, of which the first is torn. -/
theorem agrees_iff_of_torn :
    ∃ calls file' disk' pieces landed,
      FaultyDispatches ⟨false, 0⟩ openedLog openedDisk calls file' disk'
        ∧ calls.map (fun c => (c.record, c.isLogged))
            = [(lostRecord, false), (loggedRecord, true)]
        ∧ List.Forall₂ (Leaves ⟨false, 0⟩) calls pieces
        ∧ disk'.contentOf openedLog.handle = some landed
        ∧ landed ++ file'.pending = pieces.flatten
        ∧ (landed = piecesOf true (calls.zip pieces)
            ↔ file'.pending = piecesOf false (calls.zip pieces)) := by
  have hopen : LineFile.open? emptyLog (.ofText "/log") = (.ok openedLog, openedDisk) := rfl
  have hbare : (⟨false, 0⟩ : BodyDetail).included = false := rfl
  obtain ⟨calls, file', disk', _, _, _, hrun, hcalls, -⟩ :=
    exists_torn_run hbare openedLog_settled lostRecord loggedRecord
  obtain ⟨pieces, landed, hleaves, hfile, hheld, -, hagrees⟩ := agrees_iff hopen hrun
  exact ⟨calls, file', disk', pieces, landed, hrun, hcalls, hleaves, hfile, hheld, hagrees⟩

/-- The log and the answers disagree: the dispatch of the first record fails, a part of its line
is in the log, and the line of the second record, which is logged, stands right behind it. -/
theorem torn_line_in_log :
    ∃ calls file' disk' first second piece,
      LineFile.open? emptyLog (.ofText "/log") = (.ok openedLog, openedDisk)
        ∧ FaultyDispatches ⟨false, 0⟩ openedLog openedDisk calls file' disk'
        ∧ calls.map (fun c => (c.record, c.isLogged))
            = [(lostRecord, false), (loggedRecord, true)]
        ∧ List.Forall₂ (fun c line => AccessLine.line ⟨false, 0⟩ c.disk c.record = .ok line) calls
            [first, second]
        ∧ piece ≠ [] ∧ piece <+: first
        ∧ disk'.contentOf openedLog.handle = some (piece ++ second) := by
  have hbare : (⟨false, 0⟩ : BodyDetail).included = false := rfl
  obtain ⟨calls, file', disk', first, second, piece, hrun, hcalls, hlines, hpiece, hpart, hfile⟩ :=
    exists_torn_run hbare openedLog_settled lostRecord loggedRecord
  exact ⟨calls, file', disk', first, second, piece, rfl, hrun, hcalls, hlines, hpiece, hpart,
    hfile⟩

end FaultyDispatches

end Wiretap
