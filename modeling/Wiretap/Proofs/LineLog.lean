/-
  Wiretap.Proofs.LineLog
  ──────────────────────
  **THE LOG IS ITS LINES.**

  A sink that adds lines reads all that a line needs before it writes any of it, and its buffer
  is empty between two dispatches.  So as long as the file takes what is written to it, the log
  grows by one line for each record that was logged, and by nothing for any other:

    • `LineFile.append_ok`        — what an append that succeeds leaves behind,
    • `LineFile.writeLine_ok`     — a line goes behind all that was written before it,
    • `Sink.call_lines`           — one dispatch: a line and no error, or neither,
    • `Dispatches.settled`           — any number of them, with other work on the disk between,
    • `Dispatches.content_of_opened` — what is in the log after them.
-/
import Mathlib.Data.List.Forall2
import Wiretap.Proofs.AccessLines
import Wiretap.Proofs.ArchiveFiles
import Wiretap.Proofs.Dispatch

namespace Wiretap

/-! ## §1. Lines behind one another. -/

namespace LineFile

variable {f f' : LineFile} {disk disk' : Disk} {content written line : Bytes}

/-- The file and, behind it, the buffer hold these bytes. -/
def Holds (f : LineFile) (disk : Disk) (written : Bytes) : Prop :=
  ∃ content, disk.contentOf f.handle = some content ∧ content ++ f.pending = written

/-- The file holds these bytes, and the buffer holds none. -/
structure Settled (f : LineFile) (disk : Disk) (content : Bytes) : Prop where
  content : disk.contentOf f.handle = some content
  pending : f.pending = []

theorem Settled.holds (h : f.Settled disk content) : f.Holds disk content :=
  ⟨content, h.content, by rw [h.pending, List.append_nil]⟩

/-- What was appended is behind the content, all of it. -/
theorem append_ok {data left : Bytes} (hcontent : disk.contentOf f.handle = some content)
    (h : f.append disk data = (.ok (), left, disk')) :
    left = [] ∧ disk'.contentOf f.handle = some (content ++ data) := by
  have hfile := Disk.file?_write 1 data (Disk.contentOf_eq_some.mp hcontent)
  unfold append at h
  simp only [hcontent, Option.getD_some] at h
  split at h
  next hcomplete =>
    cases h
    have hlanded := land_complete 1 disk.responses 0 content.length data hcomplete
    refine ⟨?_, Disk.contentOf_eq_some.mpr ?_⟩
    · show data.drop (land 1 disk.responses 0 content.length data).landed.length = []
      rw [hlanded, List.drop_length]
    · rw [hfile]
      exact congrArg (fun landed => some (f.handle.stamp, content ++ landed)) hlanded
  next => cases h
  next => cases h

theorem flush_ok (h : f.Holds disk written) (hflush : f.flush disk = (.ok (), f', disk')) :
    f'.Settled disk' written := by
  obtain ⟨content, hcontent, rfl⟩ := h
  unfold flush at hflush
  simp only at hflush
  cases happend : f.append disk f.pending with
  | mk outcome rest =>
      rw [happend] at hflush
      cases hflush
      obtain ⟨hleft, hfile⟩ := append_ok hcontent happend
      exact ⟨hfile, hleft⟩

/-- A line that was put away stands behind what the file and the buffer held. -/
theorem put_ok (h : f.Holds disk written) (hput : f.put disk line = (.ok (), f', disk')) :
    f'.Holds disk' (written ++ line) := by
  obtain ⟨content, hcontent, rfl⟩ := h
  unfold put at hput
  simp only at hput
  split at hput
  next =>
    cases hput
    exact ⟨content, hcontent, (List.append_assoc ..).symm⟩
  next hfull =>
    split at hput
    next => cases hput
    next g disk₁ hmade =>
      -- before the line goes anywhere the buffer is empty, or it has just room for the line
      have hg : g.Holds disk₁ (content ++ f.pending)
          ∧ (capacity ≤ line.length → g.pending = []) := by
        split at hmade
        next =>
          have hsettled := flush_ok ⟨content, hcontent, rfl⟩ hmade
          exact ⟨hsettled.holds, fun _ => hsettled.pending⟩
        next hroom =>
          cases hmade
          refine ⟨⟨content, hcontent, rfl⟩, fun hlong => List.eq_nil_of_length_eq_zero ?_⟩
          have : capacity = 8192 := rfl
          omega
      obtain ⟨⟨before, hbefore, heq⟩, hempty⟩ := hg
      split at hput
      next hlong =>
        cases happend : g.append disk₁ line with
        | mk outcome rest =>
            rw [happend] at hput
            cases hput
            obtain ⟨-, hfile⟩ := append_ok hbefore happend
            rw [hempty hlong, List.append_nil] at heq
            refine ⟨_, hfile, ?_⟩
            rw [hempty hlong, List.append_nil, heq]
      next =>
        cases hput
        refine ⟨before, hbefore, ?_⟩
        rw [← heq, List.append_assoc]

/-- **A line that was written is in the file, behind all that was written before.** -/
theorem writeLine_ok (h : f.Holds disk written)
    (hwrite : f.writeLine disk line = (.ok (), f', disk')) :
    f'.Settled disk' (written ++ line) := by
  unfold writeLine at hwrite
  split at hwrite
  next => cases hwrite
  next g disk₁ hput => exact flush_ok (put_ok h hput) hwrite

theorem append_of_responses_nil (hr : disk.responses = []) (f : LineFile) (data : Bytes) :
    ∃ left disk', f.append disk data = (.ok (), left, disk') ∧ disk'.responses = [] := by
  obtain ⟨hcomplete, hresponses⟩ :=
    Disk.write_responses hr 1 f.handle ((disk.contentOf f.handle).getD []).length data
  unfold append
  simp only [hcomplete]
  exact ⟨_, _, rfl, hresponses⟩

theorem flush_of_responses_nil (hr : disk.responses = []) (f : LineFile) :
    ∃ f' disk', f.flush disk = (.ok (), f', disk') ∧ disk'.responses = [] := by
  obtain ⟨left, disk', happend, hresponses⟩ := append_of_responses_nil hr f f.pending
  unfold flush
  simp only [happend]
  exact ⟨_, disk', rfl, hresponses⟩

theorem put_of_responses_nil (hr : disk.responses = []) (f : LineFile) (line : Bytes) :
    ∃ f' disk', f.put disk line = (.ok (), f', disk') ∧ disk'.responses = [] := by
  obtain ⟨g, disk₁, hflush, hr₁⟩ := flush_of_responses_nil hr f
  obtain ⟨_, disk₂, happend₂, hr₂⟩ := append_of_responses_nil hr₁ g line
  obtain ⟨_, disk₃, happend₃, hr₃⟩ := append_of_responses_nil hr f line
  unfold put
  simp only [hflush]
  by_cases hroom : line.length < capacity - f.pending.length
  · exact ⟨_, disk, if_pos hroom, hr⟩
  · rw [if_neg hroom]
    by_cases hflushed : capacity - f.pending.length < line.length
    · simp only [if_pos hflushed, happend₂]
      split
      · exact ⟨g, disk₂, rfl, hr₂⟩
      · exact ⟨_, disk₁, rfl, hr₁⟩
    · simp only [if_neg hflushed, happend₃]
      split
      · exact ⟨f, disk₃, rfl, hr₃⟩
      · exact ⟨_, disk, rfl, hr⟩

/-- A disk that does what it is asked takes every line. -/
theorem writeLine_of_responses_nil (hr : disk.responses = []) (f : LineFile) (line : Bytes) :
    ∃ f' disk', f.writeLine disk line = (.ok (), f', disk') ∧ disk'.responses = [] := by
  obtain ⟨g, disk₁, hput, hr₁⟩ := put_of_responses_nil hr f line
  obtain ⟨f', disk', hflush, hr'⟩ := flush_of_responses_nil hr₁ g
  unfold writeLine
  simp only [hput]
  exact ⟨f', disk', hflush, hr'⟩

/-- A file that was opened is settled, and holds what it held before. -/
theorem open?_settled {path : Path} (h : open? disk path = (.ok f, disk')) :
    f.Settled disk' (((disk.file? f.handle.place).map (·.2)).getD []) := by
  unfold open? at h
  simp only at h
  split at h
  next => cases h
  next disk₁ hprepared =>
    -- the directories above are made first, which changes no file
    have habove : Disk.ChangesOnly (fun _ => False) disk disk₁ := by
      split at hprepared
      next above _ =>
        split at hprepared
        next =>
          cases hprepared
          exact .refl disk
        next =>
          have hmade : Disk.ChangesOnly (fun _ => False) disk (disk.makeDirectories above).2 :=
            Disk.makeDirectories_changesOnly disk above
          rwa [hprepared] at hmade
      next =>
        cases hprepared
        exact .refl disk
    split at h
    next handle disk₂ hopen =>
      cases h
      obtain ⟨-, hfile, -⟩ := Disk.openFile_ok (Disk.endsInSlash_of_openFile hopen) hopen
      refine ⟨Disk.contentOf_eq_some.mpr ?_, rfl⟩
      rw [hfile, habove.file? handle.place (fun h => h)]
      rfl
    next => cases h

end LineFile

/-! ## §2. One dispatch. -/

namespace Sink

variable {file file' : LineFile} {detail : BodyDetail} {disk disk' : Disk} {r : Record}
  {answer : SinkAnswer} {content : Bytes}

/-- The file takes the line of a record, if there is one. -/
def Takes (file : LineFile) (detail : BodyDetail) (disk : Disk) (r : Record) : Prop :=
  ∀ line, AccessLine.line detail disk r = .ok line → (file.writeLine disk line).1 = .ok ()

/-- Whatever keeps a line out of the file, the answer is not that all went well. -/
theorem unwritten_ne_ok (name : String) (path : Path) (stop : ReadStop) :
    unwritten name path stop ≠ .returned .ok := by
  cases stop <;> simp [unwritten, SinkResult.failed, SinkResult.ok]

theorem addLine_of_error {stop : ReadStop} (hline : AccessLine.line detail disk r = .error stop)
    (name : String) (file : LineFile) :
    addLine name file detail disk r = (unwritten name file.path stop, file, disk) := by
  simp only [addLine, hline]

theorem addLine_of_ok {line : Bytes} (hline : AccessLine.line detail disk r = .ok line)
    (hwrite : file.writeLine disk line = (.ok (), file', disk')) (name : String) :
    addLine name file detail disk r = (.returned .ok, file', disk') := by
  simp only [addLine, hline, hwrite]

theorem addLine_handle (name : String) (file : LineFile) (detail : BodyDetail) (disk : Disk)
    (r : Record) : (addLine name file detail disk r).2.1.handle = file.handle := by
  unfold addLine
  split
  next => rfl
  next line _ =>
    have hhandle := file.writeLine_handle disk line
    split
    next hwrite =>
      rw [hwrite] at hhandle
      exact hhandle
    next hwrite =>
      rw [hwrite] at hhandle
      exact hhandle

/-- A sink that adds lines goes on adding lines to the same file. -/
theorem exists_call_lines (file : LineFile) (detail : BodyDetail) (disk : Disk) (r : Record) :
    ∃ answer file' disk', (lines file detail).call disk r = ⟨answer, lines file' detail, disk', []⟩
      ∧ file'.handle = file.handle := by
  exact ⟨_, _, _, rfl, addLine_handle "json_lines" file detail disk r⟩

theorem handle_of_call_lines
    (hcall : (lines file detail).call disk r = ⟨answer, lines file' detail, disk', []⟩) :
    file'.handle = file.handle := by
  obtain ⟨answer₁, file₁, disk₁, heq, hhandle⟩ := exists_call_lines file detail disk r
  rw [heq] at hcall
  cases hcall
  exact hhandle

/-- **One dispatch**: a line is added and the answer has no error, or the record has no line,
nothing is added, and the answer is an error. -/
theorem call_lines (h : file.Settled disk content) (htakes : Takes file detail disk r)
    (hcall : (lines file detail).call disk r = ⟨answer, lines file' detail, disk', []⟩) :
    (answer = .returned .ok ∧ ∃ line, AccessLine.line detail disk r = .ok line
      ∧ file'.Settled disk' (content ++ line))
    ∨ (answer ≠ .returned .ok ∧ (∃ stop, AccessLine.line detail disk r = .error stop)
      ∧ file'.Settled disk' content) := by
  unfold call lines at hcall
  cases hline : AccessLine.line detail disk r with
  | error stop =>
      simp only [addLine_of_error hline] at hcall
      cases hcall
      exact Or.inr ⟨unwritten_ne_ok _ _ stop, ⟨stop, rfl⟩, h⟩
  | ok line =>
      have hok := htakes line hline
      cases hwrite : file.writeLine disk line with
      | mk outcome rest =>
          rw [hwrite] at hok
          cases hok
          simp only [addLine_of_ok hline hwrite] at hcall
          cases hcall
          exact Or.inl ⟨rfl, line, rfl, LineFile.writeLine_ok h.holds hwrite⟩

/-- A disk that does what it is asked takes the line of any record, and goes on to do so. -/
theorem call_of_responses_nil (hr : disk.responses = []) (file : LineFile) (detail : BodyDetail)
    (r : Record) :
    ∃ answer file' disk', Takes file detail disk r
      ∧ (lines file detail).call disk r = ⟨answer, lines file' detail, disk', []⟩
      ∧ disk'.responses = [] := by
  unfold call lines
  cases hline : AccessLine.line detail disk r with
  | error stop =>
      refine ⟨unwritten "json_lines" file.path stop, file, disk, fun line h => ?_, ?_, hr⟩
      · rw [hline] at h
        cases h
      · simp only [addLine_of_error hline]
  | ok line =>
      obtain ⟨file', disk', hwrite, hr'⟩ := LineFile.writeLine_of_responses_nil hr file line
      refine ⟨.returned .ok, file', disk', fun line' h => ?_, ?_, hr'⟩
      · rw [hline] at h
        cases h
        rw [hwrite]
      · simp only [addLine_of_ok hline hwrite]

end Sink

/-! ## §3. Any number of dispatches. -/

/-- One dispatch: the record, the disk that it met, and how it was answered. -/
structure Dispatched where
  record : Record
  disk : Disk
  answer : SinkAnswer

/-- Whether the record was logged. -/
def Dispatched.isLogged (c : Dispatched) : Bool := c.answer == .returned .ok

/-- Records are dispatched to a sink that adds lines, and the file of the lines takes each line.
Between two dispatches anything may happen on the disk, but not to that file. -/
inductive Dispatches (detail : BodyDetail) :
    LineFile → Disk → List Dispatched → LineFile → Disk → Prop
  | done (file : LineFile) (disk : Disk) : Dispatches detail file disk [] file disk
  | elsewhere {file file' : LineFile} {disk disk₁ disk' : Disk} {calls : List Dispatched}
      (hkept : disk₁.contentOf file.handle = disk.contentOf file.handle)
      (rest : Dispatches detail file disk₁ calls file' disk') :
      Dispatches detail file disk calls file' disk'
  | dispatch {file file₁ file' : LineFile} {disk disk₁ disk' : Disk} {r : Record}
      {answer : SinkAnswer} {calls : List Dispatched}
      (htakes : Sink.Takes file detail disk r)
      (hcall : (Sink.lines file detail).call disk r
        = ⟨answer, Sink.lines file₁ detail, disk₁, []⟩)
      (rest : Dispatches detail file₁ disk₁ calls file' disk') :
      Dispatches detail file disk (⟨r, disk, answer⟩ :: calls) file' disk'

namespace Dispatches

variable {detail : BodyDetail} {file file' : LineFile} {disk disk' : Disk}
  {calls : List Dispatched} {content : Bytes}

theorem handle (hrun : Dispatches detail file disk calls file' disk') :
    file'.handle = file.handle := by
  induction hrun with
  | done file disk => rfl
  | elsewhere hkept rest ih => exact ih
  | dispatch htakes hcall rest ih => exact ih.trans (Sink.handle_of_call_lines hcall)

/-- The log grows by the lines of the records that were logged, in their order, and the others
are those that have no line. -/
theorem settled (hrun : Dispatches detail file disk calls file' disk')
    (h : file.Settled disk content) :
    ∃ lines : List Bytes, file'.Settled disk' (content ++ lines.flatten)
      ∧ List.Forall₂ (fun c line => AccessLine.line detail c.disk c.record = .ok line)
          (calls.filter Dispatched.isLogged) lines
      ∧ ∀ c ∈ calls, c.isLogged = false
          ↔ ∃ stop, AccessLine.line detail c.disk c.record = .error stop := by
  induction hrun generalizing content with
  | done file disk => exact ⟨[], by simpa using h, .nil, fun _ hc => nomatch hc⟩
  | elsewhere hkept rest ih => exact ih ⟨hkept.trans h.content, h.pending⟩
  | @dispatch _ _ _ disk _ _ r answer calls htakes hcall rest ih =>
      rcases Sink.call_lines h htakes hcall with
        ⟨hanswer, line, hline, hsettled⟩ | ⟨hanswer, hstopped, hsettled⟩
      · obtain ⟨lines, hlines, hall, hrest⟩ := ih hsettled
        have hlogged : Dispatched.isLogged ⟨r, disk, answer⟩ = true := by
          simp [Dispatched.isLogged, hanswer]
        refine ⟨line :: lines, by simpa using hlines, ?_, List.forall_mem_cons.mpr ⟨?_, hrest⟩⟩
        · rw [List.filter_cons_of_pos hlogged]
          exact .cons hline hall
        · simp [hlogged, hline]
      · obtain ⟨lines, hlines, hall, hrest⟩ := ih hsettled
        have hlost : Dispatched.isLogged ⟨r, disk, answer⟩ = false := by
          simpa [Dispatched.isLogged] using hanswer
        refine ⟨lines, hlines, ?_, List.forall_mem_cons.mpr ⟨?_, hrest⟩⟩
        · rw [List.filter_cons_of_neg (by simp [hlost])]
          exact hall
        · exact iff_of_true hlost hstopped

/-- On a disk that does what it is asked, any records can be dispatched one after the other. -/
theorem exists_of_responses_nil (hr : disk.responses = []) (file : LineFile)
    (detail : BodyDetail) (records : List Record) :
    ∃ calls file' disk', Dispatches detail file disk calls file' disk'
      ∧ calls.map (·.record) = records := by
  induction records generalizing file disk with
  | nil => exact ⟨[], file, disk, .done file disk, rfl⟩
  | cons r records ih =>
      obtain ⟨answer, file₁, disk₁, htakes, hcall, hr₁⟩ :=
        Sink.call_of_responses_nil hr file detail r
      obtain ⟨calls, file', disk', hrun, hrecords⟩ := ih hr₁ file₁
      exact ⟨⟨r, disk, answer⟩ :: calls, file', disk', .dispatch htakes hcall hrun,
        congrArg (r :: ·) hrecords⟩

/-- **The log is what was in the file, and one line for each record that was logged**, in the
order of the dispatches.  Each line is read as its record; a record is left out exactly where
one of its bodies cannot be read. -/
theorem content_of_opened {before : Disk} {path : Path}
    (hmost : detail.most.toNat + 1 < UInt64.size)
    (hopen : LineFile.open? before path = (.ok file, disk))
    (hrun : Dispatches detail file disk calls file' disk') :
    ∃ lines : List Bytes,
      disk'.contentOf file.handle
          = some (((before.file? file.handle.place).map (·.2)).getD [] ++ lines.flatten)
        ∧ List.Forall₂ (fun c line => AccessLine.IsLine detail c.disk c.record line)
            (calls.filter Dispatched.isLogged) lines
        ∧ ∀ c ∈ calls, c.isLogged = false ↔ AccessLine.Unreadable detail c.disk c.record := by
  obtain ⟨lines, hsettled, hlines, hrest⟩ := hrun.settled (LineFile.open?_settled hopen)
  refine ⟨lines, ?_, hlines.imp fun _ _ hline => AccessLine.isLine_of_line hline,
    fun c hc => (hrest c hc).trans (AccessLine.line_error_iff_unreadable hmost)⟩
  have hcontent := hsettled.content
  rwa [hrun.handle] at hcontent

/-- A log with one line in it. -/
def grownLog : Disk := (Disk.ofDirectories [] []).put ["log"] (.file 7 [111, 107, 10])

/-- A record whose identifier and body hold what would end a text or a line. -/
def forgingRecord : Record :=
  { Record.new ⟨"a\"\n"⟩ "GET" "/" ⟨0, 0⟩ with
    requestBody := some ⟨.memory [34, 10, 255], .identity⟩ }

/-- A record whose body is too short for its coding. -/
def brokenRecord : Record :=
  { Record.new ⟨"b"⟩ "GET" "/" ⟨0, 0⟩ with responseBody := some ⟨.memory [0], .gzip⟩ }

theorem forgingRecord_readable (disk : Disk) :
    ¬ AccessLine.Unreadable ⟨true, 2⟩ disk forgingRecord := by
  rintro ⟨-, b, hb, fault, hfirst⟩
  rcases hb with hrequest | hresponse
  · cases hrequest
    cases hfirst
  · cases hresponse

theorem brokenRecord_unreadable (disk : Disk) :
    AccessLine.Unreadable ⟨true, 2⟩ disk brokenRecord :=
  ⟨rfl, _, Or.inr rfl, .coding .gzipIncomplete, rfl⟩

/-- The body of the first record is told by its size and its first two bytes. -/
theorem forgingRecord_body {disk : Disk} {told : AccessLine.Fields}
    (h : AccessLine.Tells ⟨true, 2⟩ disk forgingRecord told) :
    told.requestBody = some ⟨3, some "\"\n", true⟩ := by
  have hbody : Option.Rel (AccessLine.TellsBody ⟨true, 2⟩ disk)
      (some ⟨.memory [34, 10, 255], .identity⟩) told.requestBody := h.requestBody
  cases hshown : told.requestBody with
  | none =>
      rw [hshown] at hbody
      cases hbody
  | some b =>
      rw [hshown] at hbody
      cases hbody with
      | some hb =>
          obtain ⟨decoded, ⟨raw, hraw, rfl⟩, htext, htruncated⟩ := hb.shown rfl
          cases hraw
          obtain ⟨size, text, truncated⟩ := b
          have hdecoded : Utf8.decodeLossy [34, 10] = "\"\n" :=
            Utf8.decodeLossy_encode "\"\n"
          cases hb.size
          cases htruncated.mpr (by decide)
          rw [show text = some "\"\n" from htext.trans (congrArg some hdecoded)]

/-- The same of two records, of which the second has no line. -/
theorem content_of_opened_of_two :
    ∃ file disk calls file' disk' text told,
      LineFile.open? grownLog (.ofText "/log") = (.ok file, disk)
      ∧ Dispatches ⟨true, 2⟩ file disk calls file' disk'
      ∧ calls.map (fun c => (c.record, c.isLogged)) = [(forgingRecord, true), (brokenRecord, false)]
      ∧ disk'.contentOf file.handle = some ([111, 107, 10] ++ (text ++ [10])) ∧ 10 ∉ text
      ∧ AccessLine.read? text = some told ∧ told.id = "a\"\n"
      ∧ told.requestBody = some ⟨3, some "\"\n", true⟩ := by
  have hopen : LineFile.open? grownLog (.ofText "/log")
      = (.ok ⟨.ofText "/log", ⟨["log"], 7⟩, []⟩,
        (LineFile.open? grownLog (.ofText "/log")).2) := rfl
  generalize hdisk : (LineFile.open? grownLog (.ofText "/log")).2 = disk at hopen
  have hr : disk.responses = [] := by
    rw [← hdisk]
    rfl
  obtain ⟨calls, file', disk', hrun, hrecords⟩ :=
    exists_of_responses_nil hr ⟨.ofText "/log", ⟨["log"], 7⟩, []⟩ ⟨true, 2⟩
      [forgingRecord, brokenRecord]
  obtain ⟨lines, hcontent, hlines, hlogged⟩ := content_of_opened (by decide) hopen hrun
  obtain ⟨first, rest, rfl, hfirst, hrest⟩ := List.map_eq_cons_iff.mp hrecords
  obtain ⟨second, rest, rfl, hsecond, hnil⟩ := List.map_eq_cons_iff.mp hrest
  cases List.map_eq_nil_iff.mp hnil
  have hfirstLogged : first.isLogged = true := by
    rw [← Bool.not_eq_false, hlogged first (List.mem_cons_self ..), hfirst]
    exact forgingRecord_readable first.disk
  have hsecondLogged : second.isLogged = false := by
    rw [hlogged second (List.mem_cons_of_mem _ (List.mem_cons_self ..)), hsecond]
    exact brokenRecord_unreadable second.disk
  rw [List.filter_cons_of_pos hfirstLogged, List.filter_cons_of_neg (by simp [hsecondLogged])]
    at hlines
  obtain ⟨line, lines, ⟨text, told, rfl, hend, hread, htells⟩, hnone, rfl⟩ :=
    List.forall₂_cons_left_iff.mp hlines
  cases hnone
  rw [hfirst] at htells
  rw [List.flatten_singleton] at hcontent
  exact ⟨_, disk, _, file', disk', text, told, hopen, hrun,
    by simp only [List.map_cons, List.map_nil, hfirst, hsecond, hfirstLogged, hsecondLogged],
    hcontent, hend, hread, htells.id, forgingRecord_body htells⟩

end Dispatches

end Wiretap
