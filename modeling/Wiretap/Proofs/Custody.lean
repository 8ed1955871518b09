/-
  Wiretap.Proofs.Custody
  ──────────────────────
  **WHOSE BUFFERS ARE WHOSE.**

  At every moment an exchange waits for its end, or its record is in flight, or it has no
  buffers.  The bodies of a record in flight are those of the buffers of its exchange, and
  no other record is in flight for it (`Journal.Custody`).  Carrying records keeps this, and
  from the moment where the taps of an exchange are closed its buffers stay as they are,
  until its record ends (`Journal.Frozen`):

    • `Store.get_raw`           — a body reads as what its buffer holds,
    • `Journal.Custody.carries` — custody is kept while records are carried,
    • `Journal.Frozen.carries`  — and buffers stay frozen.
-/
import Wiretap.Proofs.Exits

namespace Wiretap

/-! ## §1. Bodies of records. -/

/-- The body of a direction. -/
def Record.body (r : Record) : Direction → Option Body
  | .request => r.requestBody
  | .response => r.responseBody

namespace Store

variable {s s' : Store} {d : Direction} {id : ExchangeId} {bytes : Bytes}

/-- What a body reads as, however it is coded, is what the buffer holds. -/
theorem get_raw (h : s.Keeps d id bytes)
    (hidle : s.repository.enabled = false → s.repository.buffer? d id = none)
    (coding : Option String) :
    (s.get d id coding).map (fun body => body.raw s.disk) = (s.held d id).map Except.ok := by
  have hheld := h.held
  unfold held at hheld ⊢
  unfold get
  cases hb : s.repository.buffer? d id with
  | none =>
      split
      next => rfl
      next => rfl
  | some buffer =>
      have henabled : s.repository.enabled = true := by
        by_contra hdisabled
        rw [hidle (by simpa using hdisabled)] at hb
        cases hb
      have hne : bytes ≠ [] := by
        intro hnil
        subst hnil
        rw [h.buffer?_nil] at hb
        cases hb
      rw [hb, if_neg hne] at hheld
      rw [if_pos henabled]
      -- the coding is not looked at, and the buffer can be read
      have hraw : (bodyOf (ContentCoding.ofHeader coding) buffer).raw s.disk
          = (bodyOf .identity buffer).raw s.disk := by
        cases buffer with
        | inMemory bytes => rfl
        | onDisk spill => rfl
      show some ((bodyOf (ContentCoding.ofHeader coding) buffer).raw s.disk)
        = Option.map Except.ok ((bodyOf .identity buffer).raw s.disk).toOption
      rw [hraw]
      have hsome : ((bodyOf .identity buffer).raw s.disk).toOption = some bytes := hheld
      cases hok : (bodyOf .identity buffer).raw s.disk with
      | ok found => rfl
      | error fault =>
          rw [hok] at hsome
          cases hsome

/-- A body that was looked up stays the one of its buffer while the buffer stays. -/
theorem get_of_buffer? (he : s'.repository.enabled = s.repository.enabled)
    (hb : s'.repository.buffer? d id = s.repository.buffer? d id) (coding : Option String) :
    s'.get d id coding = s.get d id coding := by
  unfold get
  rw [he, hb]

/-- The spills among the files of an exchange are its own. -/
theorem spillsOf_fileOf (id : ExchangeId) : SpillsOf (KeysOf id) (FileOf id) := by
  intro d id' p hspill hfile
  exact (FileOf.unique hfile ⟨d, Or.inl hspill⟩).symm

end Store

/-! ## §2. Custody. -/

namespace Journal

open Store

variable {j j' : Journal} {load load' : List Record} {waiting known : List ExchangeId}

/-- Who has the buffers: the exchanges that wait for their end, and the records in flight.
`known` are all exchanges that have begun. -/
structure Custody (waiting known : List ExchangeId) (j : Journal) (load : List Record) : Prop where
  ready : j.Ready
  distinct : (waiting ++ load.map Record.id).Nodup
  begun : ∀ id ∈ waiting ++ load.map Record.id, id ∈ known
  /-- Nobody else has buffers. -/
  others : ∀ d id, id ∉ waiting ++ load.map Record.id → j.store.repository.buffer? d id = none
  idle : j.store.repository.enabled = false → ∀ d id, j.store.repository.buffer? d id = none
  /-- The finalizer of a record in flight lets go of the buffers of its exchange. -/
  pending : ∀ r ∈ load, ∃ archive, r.finalizer = some (.settle archive)
  /-- The bodies of a record in flight are those of the buffers of its exchange. -/
  bodies : ∀ r ∈ load, ∀ d, ∃ coding, r.body d = j.store.get d r.id coding
  /-- The exchange of a record that has ended has no buffers. -/
  finished : ∀ id finalizer disposition, .finished id finalizer disposition ∈ j.history →
    id ∈ known ∧ id ∉ waiting ++ load.map Record.id
  /-- The exchange of a record that was handed to a sink waits no more. -/
  handed : ∀ sink r disk, .handed sink r disk ∈ j.history → r.id ∈ known ∧ r.id ∉ waiting
  /-- An exchange that neither waits nor has a record in flight has ended. -/
  ended : ∀ id ∈ known, id ∉ waiting ++ load.map Record.id →
    ∃ finalizer disposition, .finished id finalizer disposition ∈ j.history

/-- A journal of which the history is known up to notices of no record. -/
theorem Silent.mem_history (h : Silent j j') {notice : Notice}
    (hmem : notice ∈ j'.history) (habout : notice.mark? ≠ none ∨ notice.drop? ≠ none) :
    notice ∈ j.history := by
  obtain ⟨aside, hh, haside⟩ := h.history
  rw [hh] at hmem
  rcases List.mem_append.mp hmem with hmem | hmem
  · exact hmem
  · rcases habout with hmark | hdrop
    · exact absurd (haside notice hmem).1 hmark
    · exact absurd (haside notice hmem).2 hdrop

theorem Silent.history_subset (h : Silent j j') : j.history ⊆ j'.history := by
  obtain ⟨aside, hh, -⟩ := h.history
  rw [hh]
  exact List.subset_append_left j.history aside

/-- A notice of an end is a mark or a drop. -/
theorem finished_about (id : ExchangeId) (finalizer : Finalizer) (disposition : Disposition) :
    (Notice.finished id finalizer disposition).mark? ≠ none
      ∨ (Notice.finished id finalizer disposition).drop? ≠ none := by
  cases disposition with
  | delivered result => exact Or.inl (Option.some_ne_none _)
  | dropped => exact Or.inr (Option.some_ne_none _)

/-- A notice that a record was handed to a sink is a mark. -/
theorem handed_about (sink : Nat) (r : Record) (disk : Disk) :
    (Notice.handed sink r disk).mark? ≠ none ∨ (Notice.handed sink r disk).drop? ≠ none :=
  Or.inl (Option.some_ne_none _)

/-- What stands in the history after a call of a sink. -/
theorem mem_history_callSink {r : Record} {index : Nat} {notice : Notice}
    (h : notice ∈ (j.callSink r index).2.history) (hevent : ∀ event, notice ≠ .event event) :
    notice ∈ j.history ∨ notice = .handed index r j.store.disk := by
  cases hsink : j.delegate.sinks[index]? with
  | none =>
      unfold callSink at h
      rw [hsink] at h
      exact Or.inl h
  | some sink =>
      rw [(callSink_adds hsink).history] at h
      rcases List.mem_append.mp h with hmem | hmem
      · exact Or.inl hmem
      · rcases List.mem_cons.mp hmem with hmem | hmem
        · exact Or.inr hmem
        · obtain ⟨event, -, heq⟩ := List.mem_map.mp hmem
          exact absurd heq.symm (hevent event)

theorem history_subset_callSink (j : Journal) (r : Record) (index : Nat) :
    j.history ⊆ (j.callSink r index).2.history := by
  cases hsink : j.delegate.sinks[index]? with
  | none =>
      unfold callSink
      rw [hsink]
      exact List.Subset.refl _
  | some sink =>
      rw [(callSink_adds hsink).history]
      exact List.subset_append_left _ _

/-- What stands in the history after the end of a record. -/
theorem mem_history_finish {r : Record} {disposition : Disposition} {notice : Notice}
    (h : notice ∈ (j.finish r disposition).1.history) :
    notice ∈ j.history ∨ ∃ finalizer, notice = .finished r.id finalizer disposition := by
  rw [(finish_adds j r disposition).history] at h
  rcases List.mem_append.mp h with hmem | hmem
  · exact Or.inl hmem
  · obtain ⟨owed, howed, rfl⟩ := List.mem_map.mp hmem
    obtain ⟨finalizer, -, rfl⟩ := List.mem_map.mp howed
    exact Or.inr ⟨finalizer, rfl⟩

namespace Custody

/-- A change beside the repository leaves the bodies as they are. -/
theorem bodies_of_beside (h : Custody waiting known j load) (hb : Beside j j') :
    ∀ r ∈ load, ∀ d, ∃ coding, r.body d = j'.store.get d r.id coding := by
  intro r hr d
  obtain ⟨coding, hbody⟩ := h.bodies r hr d
  refine ⟨coding, hbody.trans (get_of_buffer? ?_ ?_ coding).symm⟩
  · rw [hb.repository]
  · rw [hb.repository]

theorem rest (h : Custody waiting known j load) (hs : j.Silent j') (hp : load.Perm load') :
    Custody waiting known j' load' := by
  have hids : (waiting ++ load.map Record.id).Perm (waiting ++ load'.map Record.id) :=
    (hp.map Record.id).append_left waiting
  constructor
  case ready => exact h.ready.beside hs.beside
  case distinct => exact hids.nodup_iff.mp h.distinct
  case begun => exact fun id hid => h.begun id (hids.mem_iff.mpr hid)
  case others =>
    intro d id hid
    rw [hs.beside.repository]
    exact h.others d id fun hmem => hid (hids.mem_iff.mp hmem)
  case idle =>
    rw [hs.beside.repository]
    exact h.idle
  case pending => exact fun r hr => h.pending r (hp.mem_iff.mpr hr)
  case bodies => exact fun r hr => h.bodies_of_beside hs.beside r (hp.mem_iff.mpr hr)
  case finished =>
    intro id finalizer disposition hmem
    obtain ⟨hknown, hnone⟩ := h.finished id finalizer disposition
      (hs.mem_history hmem (finished_about id finalizer disposition))
    exact ⟨hknown, fun hid => hnone (hids.mem_iff.mpr hid)⟩
  case handed =>
    exact fun sink r disk hmem =>
      h.handed sink r disk (hs.mem_history hmem (handed_about sink r disk))
  case ended =>
    intro id hknown hid
    obtain ⟨finalizer, disposition, hnotice⟩ :=
      h.ended id hknown fun hmem => hid (hids.mem_iff.mp hmem)
    exact ⟨finalizer, disposition, hs.history_subset hnotice⟩

theorem hands (h : Custody waiting known j load) {r : Record} (index : Nat) (hr : r ∈ load) :
    Custody waiting known (j.callSink r index).2 load := by
  have hb := callSink_beside j r index
  have hmem : r.id ∈ load.map Record.id := List.mem_map_of_mem hr
  constructor
  case ready => exact h.ready.beside hb
  case distinct => exact h.distinct
  case begun => exact h.begun
  case others =>
    rw [hb.repository]
    exact h.others
  case idle =>
    rw [hb.repository]
    exact h.idle
  case pending => exact h.pending
  case bodies => exact h.bodies_of_beside hb
  case finished =>
    intro id finalizer disposition hnotice
    rcases mem_history_callSink hnotice (fun _ heq => nomatch heq) with hold | hnew
    · exact h.finished id finalizer disposition hold
    · cases hnew
  case handed =>
    intro sink r' disk hnotice
    rcases mem_history_callSink hnotice (fun _ heq => nomatch heq) with hold | hnew
    · exact h.handed sink r' disk hold
    · cases hnew
      refine ⟨h.begun r.id (List.mem_append_right _ hmem), fun hwaits => ?_⟩
      exact (List.nodup_append.mp h.distinct).2.2 r.id hwaits r.id hmem rfl
  case ended =>
    intro id hknown hid
    obtain ⟨finalizer, disposition, hnotice⟩ := h.ended id hknown hid
    exact ⟨finalizer, disposition, history_subset_callSink j r index hnotice⟩

/-- A record in flight ends, and its exchange has no buffers any more. -/
theorem finishes {r : Record} (h : Custody waiting known j (r :: load))
    (disposition : Disposition) : Custody waiting known (j.finish r disposition).1 load := by
  obtain ⟨archive, hf⟩ := h.pending r List.mem_cons_self
  -- only the entries of the exchange of the record change, and they are gone
  have hstore := (finish_store j r disposition).2.1 archive hf
  have hchanges := settle_changesOnly h.ready.store.sound r archive disposition
  have hreleased := settle_released h.ready.store.sound r archive disposition
  rw [← hstore] at hchanges hreleased
  -- the exchange of the record leaves those that have something
  have hids : (waiting ++ (r :: load).map Record.id).Perm
      (r.id :: (waiting ++ load.map Record.id)) := List.perm_middle
  obtain ⟨hnew, hdistinct⟩ := List.nodup_cons.mp (hids.nodup_iff.mp h.distinct)
  have hless (id : ExchangeId) (hid : id ∈ waiting ++ load.map Record.id) :
      id ∈ waiting ++ (r :: load).map Record.id := hids.mem_iff.mpr (List.mem_cons_of_mem _ hid)
  constructor
  case ready => exact h.ready.finish r disposition
  case distinct => exact hdistinct
  case begun => exact fun id hid => h.begun id (hless id hid)
  case others =>
    intro d id hid
    by_cases hr : id = r.id
    · rw [hr]
      exact hreleased d
    · rw [hchanges.buffer? d id hr]
      refine h.others d id fun hmem => ?_
      rcases List.mem_cons.mp (hids.mem_iff.mp hmem) with heq | hmem
      · exact hr heq
      · exact hid hmem
  case idle =>
    intro he d id
    rw [hchanges.enabled] at he
    by_cases hr : id = r.id
    · rw [hr]
      exact hreleased d
    · rw [hchanges.buffer? d id hr]
      exact h.idle he d id
  case pending => exact fun r' hr' => h.pending r' (List.mem_cons_of_mem _ hr')
  case bodies =>
    intro r' hr' d
    obtain ⟨coding, hbody⟩ := h.bodies r' (List.mem_cons_of_mem _ hr') d
    -- the other records are of other exchanges
    have hother : r'.id ≠ r.id := by
      intro heq
      exact hnew (heq ▸ List.mem_append_right _ (List.mem_map_of_mem hr'))
    refine ⟨coding, hbody.trans (get_of_buffer? hchanges.enabled ?_ coding).symm⟩
    exact hchanges.buffer? d r'.id hother
  case finished =>
    intro id finalizer disposition' hnotice
    rcases mem_history_finish hnotice with hold | ⟨finalizer', heq⟩
    · obtain ⟨hknown, hnone⟩ := h.finished id finalizer disposition' hold
      exact ⟨hknown, fun hid => hnone (hless id hid)⟩
    · cases heq
      exact ⟨h.begun r.id (hids.mem_iff.mpr List.mem_cons_self), hnew⟩
  case handed =>
    intro sink r' disk hnotice
    rcases mem_history_finish hnotice with hold | ⟨finalizer', heq⟩
    · exact h.handed sink r' disk hold
    · cases heq
  case ended =>
    intro id hknown hid
    rw [(finish_adds j r disposition).history, r.endNotices_of_some hf]
    by_cases hr : id = r.id
    · exact ⟨.settle archive, disposition, by rw [hr]; simp⟩
    · obtain ⟨finalizer, disposition', hnotice⟩ := h.ended id hknown fun hmem => by
        rcases List.mem_cons.mp (hids.mem_iff.mp hmem) with heq | hmem
        · exact hr heq
        · exact hid hmem
      exact ⟨finalizer, disposition', List.mem_append_left _ hnotice⟩

/-- Custody is kept while records are carried. -/
theorem carries (h : Custody waiting known j load) (hc : Carries Somehow j load j' load') :
    Custody waiting known j' load' := by
  induction hc with
  | rest hs hp => exact h.rest hs hp
  | hands index hr => exact h.hands index hr
  | finishes hend => exact h.finishes _
  | trans hfirst hsecond ih ih' => exact ih' (ih h)

/-- Who waits can be told in any order. -/
theorem reorder {waiting' : List ExchangeId} (h : Custody waiting known j load)
    (hw : waiting'.Perm waiting) : Custody waiting' known j load := by
  have hids : (waiting' ++ load.map Record.id).Perm (waiting ++ load.map Record.id) :=
    hw.append_right _
  refine { h with distinct := hids.nodup_iff.mpr h.distinct, begun := ?_, others := ?_,
                  finished := ?_, handed := ?_, ended := ?_ }
  · exact fun id hid => h.begun id (hids.mem_iff.mp hid)
  · exact fun d id hid => h.others d id fun hmem => hid (hids.mem_iff.mpr hmem)
  · intro id finalizer disposition hnotice
    obtain ⟨hknown, hnone⟩ := h.finished id finalizer disposition hnotice
    exact ⟨hknown, fun hid => hnone (hids.mem_iff.mp hid)⟩
  · intro sink r disk hnotice
    obtain ⟨hknown, hnone⟩ := h.handed sink r disk hnotice
    exact ⟨hknown, fun hid => hnone (hw.mem_iff.mp hid)⟩
  · exact fun id hknown hid => h.ended id hknown fun hmem => hid (hids.mem_iff.mpr hmem)

/-- An exchange begins, of which nobody knew. -/
theorem begins (h : Custody waiting known j load) {id : ExchangeId} (hnew : id ∉ known) :
    Custody (waiting ++ [id]) (known ++ [id]) j load := by
  have hids : ((waiting ++ [id]) ++ load.map Record.id).Perm
      (id :: (waiting ++ load.map Record.id)) := by
    rw [List.append_assoc]
    exact List.perm_middle
  have hold {id' : ExchangeId} (hid : id' ∉ (waiting ++ [id]) ++ load.map Record.id) :
      id' ∉ waiting ++ load.map Record.id :=
    fun hmem => hid (hids.mem_iff.mpr (List.mem_cons_of_mem _ hmem))
  -- what was known before has another name
  have hother {id' : ExchangeId} (hknown : id' ∈ known) : id' ≠ id :=
    fun heq => hnew (heq ▸ hknown)
  refine { h with distinct := ?_, begun := ?_, others := ?_, finished := ?_, handed := ?_,
                  ended := ?_ }
  · exact hids.nodup_iff.mpr (List.nodup_cons.mpr ⟨fun hmem => hnew (h.begun id hmem), h.distinct⟩)
  · intro id' hmem
    rcases List.mem_cons.mp (hids.mem_iff.mp hmem) with rfl | hmem
    · exact List.mem_append_right _ (List.mem_singleton_self _)
    · exact List.mem_append_left _ (h.begun id' hmem)
  · exact fun d id' hid => h.others d id' (hold hid)
  · intro id' finalizer disposition hnotice
    obtain ⟨hknown, hnone⟩ := h.finished id' finalizer disposition hnotice
    refine ⟨List.mem_append_left _ hknown, fun hmem => ?_⟩
    rcases List.mem_cons.mp (hids.mem_iff.mp hmem) with heq | hmem
    · exact hother hknown heq
    · exact hnone hmem
  · intro sink r disk hnotice
    obtain ⟨hknown, hnone⟩ := h.handed sink r disk hnotice
    refine ⟨List.mem_append_left _ hknown, fun hmem => ?_⟩
    rcases List.mem_append.mp hmem with hmem | hmem
    · exact hnone hmem
    · exact hother hknown (List.mem_singleton.mp hmem)
  · intro id' hknown hid
    rcases List.mem_append.mp hknown with hknown | hmem
    · exact h.ended id' hknown (hold hid)
    · rw [List.mem_singleton.mp hmem] at hid
      exact absurd (hids.mem_iff.mpr List.mem_cons_self) hid

/-- A chunk is written for an exchange that waits. -/
theorem writes (h : Custody waiting known j load) {id : ExchangeId} (hid : id ∈ waiting)
    (d : Direction) (chunk : Bytes) (metrics : Metrics) :
    Custody waiting known
      { j with store := { (j.store.write d id chunk).2 with metrics } } load := by
  obtain ⟨bytes, hk⟩ := h.ready.store.sound d id
  have hchanges := write_changesOnly hk chunk
  have hwritten : (j.store.write d id chunk).2.Reachable := h.ready.store.call (.write d id chunk)
  refine { h with ready := ⟨hwritten.of_same rfl rfl, h.ready.apart⟩, others := ?_, idle := ?_,
                  bodies := ?_ }
  · intro d' id' hnone
    refine (hchanges.buffer? d' id' fun hkey => hnone ?_).trans (h.others d' id' hnone)
    rw [hkey.2]
    exact List.mem_append_left _ hid
  · intro he
    have hdisabled : j.store.repository.enabled = false := hchanges.enabled.symm.trans he
    -- a repository that is off holds nothing before and after
    have hsame : j.store.write d id chunk = (.ok (), j.store) := by
      unfold Store.write
      rw [hdisabled]
      rfl
    intro d' id'
    show (j.store.write d id chunk).2.repository.buffer? d' id' = none
    rw [hsame]
    exact h.idle hdisabled d' id'
  · intro r hr d'
    obtain ⟨coding, hbody⟩ := h.bodies r hr d'
    refine ⟨coding, hbody.trans (get_of_buffer? hchanges.enabled ?_ coding).symm⟩
    -- an exchange with a record in flight does not wait
    refine hchanges.buffer? d' r.id fun hkey => ?_
    exact (List.nodup_append.mp h.distinct).2.2 id hid r.id (List.mem_map_of_mem hr) hkey.2.symm

/-- The record of an exchange is made and handed over. -/
theorem assembles {e : CompletedExchange} (h : Custody (e.id :: waiting) known j load)
    (p : Recording) : Custody waiting known j (p.assemble j.store e :: load) := by
  -- the exchange does not wait any more, but its record is in flight
  have hids : ((e.id :: waiting) ++ load.map Record.id).Perm
      (waiting ++ (p.assemble j.store e :: load).map Record.id) := List.perm_middle.symm
  refine { h with distinct := hids.nodup_iff.mp h.distinct, begun := ?_, others := ?_,
                  pending := ?_, bodies := ?_, finished := ?_, handed := ?_, ended := ?_ }
  · exact fun id hid => h.begun id (hids.mem_iff.mpr hid)
  · exact fun d id hid => h.others d id fun hmem => hid (hids.mem_iff.mp hmem)
  · intro r hr
    rcases List.mem_cons.mp hr with rfl | hr
    · exact ⟨p.archive, rfl⟩
    · exact h.pending r hr
  · intro r hr d
    rcases List.mem_cons.mp hr with rfl | hr
    · cases d with
      | request => exact ⟨_, rfl⟩
      | response => exact ⟨_, rfl⟩
    · exact h.bodies r hr d
  · intro id finalizer disposition hnotice
    obtain ⟨hknown, hnone⟩ := h.finished id finalizer disposition hnotice
    exact ⟨hknown, fun hid => hnone (hids.mem_iff.mpr hid)⟩
  · intro sink r disk hnotice
    obtain ⟨hknown, hnone⟩ := h.handed sink r disk hnotice
    exact ⟨hknown, fun hid => hnone (List.mem_cons_of_mem _ hid)⟩
  · exact fun id hknown hid => h.ended id hknown fun hmem => hid (hids.mem_iff.mp hmem)

end Custody

/-! ## §3. Frozen buffers. -/

/-- Since its taps were closed at an earlier store, the buffers of an exchange are as they
were, until its record ends; and every sink was told what they held. -/
structure Frozen (earlier : Store) (id : ExchangeId) (waiting : List ExchangeId) (j : Journal)
    (load : List Record) : Prop where
  kept : id ∈ waiting ++ load.map Record.id →
    ∀ d bytes, earlier.Keeps d id bytes → j.store.Keeps d id bytes
  told : ∀ sink r disk, .handed sink r disk ∈ j.history → r.id = id →
    ∀ d, (r.body d).map (fun body => body.raw disk) = (earlier.held d id).map Except.ok

/-- What is kept stays kept beside the store. -/
theorem keeps_of_beside (hready : j.Ready) (hb : Beside j j') {d : Direction} {id : ExchangeId}
    {bytes : Bytes} (hk : j.store.Keeps d id bytes) : j'.store.Keeps d id bytes := by
  -- no sink writes to a spill
  have hspills : SpillsOf (fun _ _ => False) j.delegate.LogsTo :=
    fun d id p hspill hlog => hready.apart p hlog d id hspill
  exact hk.away hspills (.of_disk hb.disk hb.repository) not_false

namespace Frozen

variable {earlier : Store} {id : ExchangeId}

/-- What is kept is kept, wherever the exchange stands now. -/
theorem regroup {waiting' : List ExchangeId} (h : Frozen earlier id waiting j load)
    (hids : id ∈ waiting' ++ load'.map Record.id → id ∈ waiting ++ load.map Record.id) :
    Frozen earlier id waiting' j load' :=
  ⟨fun hid => h.kept (hids hid), h.told⟩

/-- A chunk is written for another exchange. -/
theorem writes (hcustody : Custody waiting known j load) (h : Frozen earlier id waiting j load)
    (d : Direction) {other : ExchangeId} (hother : id ≠ other) (chunk : Bytes) (metrics : Metrics) :
    Frozen earlier id waiting
      { j with store := { (j.store.write d other chunk).2 with metrics } } load := by
  refine ⟨fun hid d' bytes hk => ?_, h.told⟩
  obtain ⟨_, hentry⟩ := hcustody.ready.store.sound d other
  have hchanges := (write_changesOnly hentry chunk).withMetrics metrics
  exact (h.kept hid d' bytes hk).away (spillsOf_spill d other) hchanges fun hkey => hother hkey.2

/-- Buffers stay frozen while records are carried. -/
theorem carries (hearlier : earlier.Sound)
    (hcustody : Custody waiting known j load) (h : Frozen earlier id waiting j load)
    (hc : Carries Somehow j load j' load') : Frozen earlier id waiting j' load' := by
  induction hc with
  | rest hs hp =>
      constructor
      case kept =>
        intro hid d bytes hk
        have hids := (hp.map Record.id).append_left waiting
        exact keeps_of_beside hcustody.ready hs.beside (h.kept (hids.mem_iff.mpr hid) d bytes hk)
      case told =>
        exact fun sink r disk hmem =>
          h.told sink r disk (hs.mem_history hmem (handed_about sink r disk))
  | hands index hr =>
      rename_i j load r
      constructor
      case kept =>
        intro hid d bytes hk
        exact keeps_of_beside hcustody.ready (callSink_beside j r index) (h.kept hid d bytes hk)
      case told =>
        intro sink r' disk hmem hid d
        rcases mem_history_callSink hmem (fun _ heq => nomatch heq) with hold | hnew
        · exact h.told sink r' disk hold hid d
        · -- the bodies are read while the buffers are still there
          cases hnew
          obtain ⟨bytes, hk⟩ := hearlier d id
          have hnow := h.kept (List.mem_append_right _ (hid ▸ List.mem_map_of_mem hr)) d bytes hk
          obtain ⟨coding, hbody⟩ := hcustody.bodies r hr d
          rw [hbody, hid, get_raw hnow (fun he => hcustody.idle he d id) coding, hnow.held, hk.held]
  | finishes hend =>
      rename_i j load r disposition
      obtain ⟨archive, hf⟩ := hcustody.pending r List.mem_cons_self
      have hchanges := settle_changesOnly hcustody.ready.store.sound r archive disposition
      rw [← (finish_store j r disposition).2.1 archive hf] at hchanges
      constructor
      case kept =>
        intro hid d bytes hk
        have hids : (waiting ++ (r :: load).map Record.id).Perm
            (r.id :: (waiting ++ load.map Record.id)) := List.perm_middle
        have hother : id ≠ r.id := fun heq =>
          (List.nodup_cons.mp (hids.nodup_iff.mp hcustody.distinct)).1 (heq ▸ hid)
        have hbefore := h.kept (hids.mem_iff.mpr (List.mem_cons_of_mem _ hid)) d bytes hk
        exact hbefore.away (spillsOf_fileOf r.id) hchanges hother
      case told =>
        intro sink r' disk hmem
        rcases mem_history_finish hmem with hold | ⟨finalizer, heq⟩
        · exact h.told sink r' disk hold
        · cases heq
  | trans hfirst hsecond ih ih' =>
      exact ih' (hcustody.carries hfirst) (ih hcustody h)

end Frozen

end Journal

end Wiretap
