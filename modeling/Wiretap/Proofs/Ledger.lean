/-
  Wiretap.Proofs.Ledger
  ─────────────────────
  **THE STORE IS A MAP FROM KEYS TO BYTES.**

  The table, the modes of its buffers, their offsets and the files under them are a way to
  hold one plain map: a ledger that gives for each direction of each exchange the bytes
  written to it since it was last let go of.  Calls on any number of keys may follow each
  other in any order:

    • `Call.apply`          — what a call does to one entry of the ledger,
    • `Call.reply`          — what a call answers while no file fails,
    • `perform_keeps`       — one call keeps store and ledger together,
    • `performAll_mirrors`  — so does a run, and every way to look at the store shows the
      ledger.
-/
import Mathlib.Data.Set.Card
import Wiretap.Proofs.Calls

namespace Wiretap.Store

variable {s s' : Store} {d d' : Direction} {id id' : ExchangeId} {bytes : Bytes}
variable {ledger : Direction → ExchangeId → Bytes}

/-! ## §1. Calls on a ledger. -/

/-- Whether a call lets go of an exchange. -/
def Call.releases (id : ExchangeId) : Call → Bool
  | .write .. => false
  | .cleanup id' => id' == id
  | .persist id' => id' == id
  | .archiveInto id' _ _ => id' == id

/-- Whether a call is about a key. -/
def Call.concerns (d : Direction) (id : ExchangeId) : Call → Bool
  | .write d' id' _ => d' == d && id' == id
  | call => call.releases id

/-- What a call makes of the entry of a key: a chunk goes to its end, unless its identifier
cannot be a file name, and letting go of the exchange empties it. -/
def Call.apply (d : Direction) (id : ExchangeId) (held : Bytes) (call : Call) : Bytes :=
  match call with
  | .write d' id' chunk =>
    if d' = d ∧ id' = id ∧ id.isPathSafe = true then held ++ chunk else held
  | _ => if call.releases id then [] else held

/-- What a call answers while no file fails. -/
def Call.reply : Call → Except CaptureFailure Unit
  | .write _ id chunk =>
    if chunk = [] ∨ id.isPathSafe = true then .ok () else .error (.unusableId id)
  | _ => .ok ()

/-- The entry of a key behind a run of calls. -/
def ledgerOf (calls : List Call) (d : Direction) (id : ExchangeId) : Bytes :=
  calls.foldl (Call.apply d id) []

/-- A reply that tells of no file that could not be used. -/
def Undisturbed (reply : Except CaptureFailure Unit) : Prop :=
  ∀ failure, reply = .error failure → ¬ failure.OfFile

/-- A call that is not about a key leaves its entry. -/
theorem Call.apply_of_not_concerns {call : Call} (h : call.concerns d id = false)
    (held : Bytes) : call.apply d id held = held := by
  cases call with
  | write d' id' chunk =>
      show (if _ then _ else _) = _
      -- the entry grows only where all three hold, and the first two are not both so
      rw [if_neg]
      rintro ⟨rfl, rfl, -⟩
      simp [concerns] at h
  | cleanup id' => exact if_neg (by simpa [concerns] using h)
  | persist id' => exact if_neg (by simpa [concerns] using h)
  | archiveInto id' target preamble => exact if_neg (by simpa [concerns] using h)

theorem Call.touches_iff {call : Call} : call.Touches d id ↔ call.concerns d id = true := by
  cases call with
  | write d' id' chunk =>
      show d = d' ∧ id = id' ↔ _
      rw [eq_comm, @eq_comm _ id]
      simp only [concerns, Bool.and_eq_true, beq_iff_eq]
  | cleanup id' => exact eq_comm.trans beq_iff_eq.symm
  | persist id' => exact eq_comm.trans beq_iff_eq.symm
  | archiveInto id' target preamble => exact eq_comm.trans beq_iff_eq.symm

/-- A call about a key that lets go of nothing is a write to it. -/
theorem Call.eq_write {call : Call} (h : call.concerns d id = true)
    (hrel : call.releases id = false) : ∃ chunk, call = .write d id chunk := by
  cases call with
  | write d' id' chunk =>
      obtain ⟨rfl, rfl⟩ : d' = d ∧ id' = id := by simpa [concerns] using h
      exact ⟨chunk, rfl⟩
  | cleanup id' => exact absurd (h.symm.trans hrel) (by decide)
  | persist id' => exact absurd (h.symm.trans hrel) (by decide)
  | archiveInto id' target preamble => exact absurd (h.symm.trans hrel) (by decide)

theorem Call.apply_of_releases {call : Call} (h : call.releases id = true) (held : Bytes) :
    call.apply d id held = [] := by
  cases call with
  | write d' id' chunk => cases h
  | cleanup id' => exact if_pos h
  | persist id' => exact if_pos h
  | archiveInto id' target preamble => exact if_pos h

/-- The entry of a key is made by the calls about it, whatever calls stand between them. -/
theorem ledgerOf_filter (calls : List Call) (d : Direction) (id : ExchangeId) :
    ledgerOf (calls.filter fun call => call.concerns d id) d id = ledgerOf calls d id := by
  unfold ledgerOf
  generalize ([] : Bytes) = held
  -- by induction on the calls, from any entry
  induction calls generalizing held with
  | nil => rfl
  | cons call rest ih =>
      by_cases h : call.concerns d id = true
      · rw [List.filter_cons_of_pos h]
        exact ih _
      · rw [List.filter_cons_of_neg h, List.foldl_cons,
          Call.apply_of_not_concerns (by simpa using h)]
        exact ih _

/-- Until an exchange is let go of, its entries only grow. -/
theorem prefix_foldl_apply (calls : List Call) (held : Bytes)
    (h : ∀ call ∈ calls, call.releases id = false) :
    held <+: calls.foldl (Call.apply d id) held := by
  induction calls generalizing held with
  | nil => exact List.prefix_rfl
  | cons call rest ih =>
      have hstep : held <+: call.apply d id held := by
        have hkeep := h call List.mem_cons_self
        unfold Call.apply
        split
        next =>
          split
          next => exact List.prefix_append held _
          next => exact List.prefix_rfl
        next => rw [if_neg (by simp [hkeep])]
      exact hstep.trans (ih _ fun c hc => h c (List.mem_cons_of_mem call hc))

/-! ## §2. One call. -/

theorem sound_of_keeps (h : ∀ d id, s.Keeps d id (ledger d id)) : s.Sound :=
  fun d id => ⟨_, h d id⟩

/-- A call that lets go of an exchange leaves no buffer of it. -/
theorem perform_released (h : s.Sound) {call : Call} (hrel : call.releases id = true)
    (hreply : Undisturbed (s.perform call).1) (d : Direction) :
    (s.perform call).2.repository.buffer? d id = none := by
  cases call with
  | write d' id' chunk => cases hrel
  | cleanup id' =>
      obtain rfl : id' = id := by simpa [Call.releases] using hrel
      exact cleanup_released h id' d
  | persist id' =>
      obtain rfl : id' = id := by simpa [Call.releases] using hrel
      exact persist_released h id' d
  | archiveInto id' target preamble =>
      obtain rfl : id' = id := by simpa [Call.releases] using hrel
      cases hout : (s.archiveInto id' target preamble).1 with
      | ok artifacts => exact archiveInto_released h hout d
      | error failure =>
          -- an archive attempt that fails has met a file that does
          refine absurd (archiveInto_error hout) (hreply failure ?_)
          show (s.archiveInto id' target preamble).1.map _ = _
          rw [hout]
          rfl

/-- While no file fails, a write answers by its identifier alone. -/
theorem write_reply (he : s.repository.enabled = true) (h : s.Keeps d id bytes) (chunk : Bytes)
    (hreply : Undisturbed (s.write d id chunk).1) :
    (s.write d id chunk).1 = (Call.write d id chunk).reply := by
  show _ = if _ then _ else _
  rcases s.write_cases d id chunk with
    ⟨hidle, hw⟩ | ⟨-, hne, -, hrefused, hw⟩ | ⟨-, hne, hsafe, -, -, -⟩
  · -- the repository is on, so what was ignored is a chunk of no bytes
    have hempty : chunk = [] := by
      rcases hidle with hoff | hempty
      · rw [he] at hoff
        cases hoff
      · exact hempty
    rw [hw, if_pos (Or.inl hempty)]
  · rw [hw, if_neg (by simp [hne, hrefused])]
  · have hid := h.isPathSafe hsafe
    rw [if_pos (Or.inr hid)]
    cases hout : (s.write d id chunk).1 with
    | ok _ => rfl
    | error failure =>
        rcases write_error hout with hfile | ⟨hrefused, -⟩
        · exact absurd hfile (hreply failure hout)
        · rw [hid] at hrefused
          cases hrefused

/-- A call answers as it should while no file fails. -/
theorem perform_reply (he : s.repository.enabled = true)
    (h : ∀ d id, s.Keeps d id (ledger d id)) (call : Call)
    (hreply : Undisturbed (s.perform call).1) : (s.perform call).1 = call.reply := by
  cases call with
  | write d id chunk => exact write_reply he (h d id) chunk hreply
  | cleanup id => rfl
  | persist id => rfl
  | archiveInto id target preamble =>
      show (s.archiveInto id target preamble).1.map _ = _
      cases hout : (s.archiveInto id target preamble).1 with
      | ok artifacts => rfl
      | error failure =>
          refine absurd (archiveInto_error hout) (hreply failure ?_)
          show (s.archiveInto id target preamble).1.map _ = _
          rw [hout]
          rfl

/-- A write does to the entry of its key what it does to the ledger. -/
theorem write_keeps_apply (he : s.repository.enabled = true) (h : s.Keeps d id bytes)
    (chunk : Bytes) (hreply : Undisturbed (s.write d id chunk).1) :
    (s.write d id chunk).2.Keeps d id ((Call.write d id chunk).apply d id bytes) := by
  show (s.write d id chunk).2.Keeps d id (if _ then _ else _)
  obtain ⟨landed, hprefix, hkeeps, hall⟩ := write_keeps he h chunk
  have hout := write_reply he h chunk hreply
  by_cases hid : id.isPathSafe = true
  · obtain rfl : landed = chunk := hall (hout.trans (if_pos (Or.inr hid)))
    rw [if_pos ⟨rfl, rfl, hid⟩]
    exact hkeeps
  · -- where the identifier is no name, nothing is kept before or after
    have hnil : bytes ++ landed = [] := by
      by_contra hne
      exact hid (hkeeps.safe hne)
    obtain ⟨hbytes, hlanded⟩ := List.append_eq_nil_iff.mp hnil
    rw [if_neg (by simp [hid])]
    rw [hlanded, List.append_nil] at hkeeps
    exact hkeeps

/-- One call keeps store and ledger together. -/
theorem perform_keeps (he : s.repository.enabled = true)
    (h : ∀ d id, s.Keeps d id (ledger d id)) (call : Call)
    (hreply : Undisturbed (s.perform call).1) (d : Direction) (id : ExchangeId) :
    (s.perform call).2.Keeps d id (call.apply d id (ledger d id)) := by
  -- either the exchange is let go of, or the entry is written to, or it is another one
  by_cases hrel : call.releases id = true
  · rw [Call.apply_of_releases hrel]
    exact keeps_nil (perform_released (sound_of_keeps h) hrel hreply d)
  · by_cases hkey : call.concerns d id = true
    · obtain ⟨chunk, rfl⟩ := Call.eq_write hkey (by simpa using hrel)
      exact write_keeps_apply he (h d id) chunk hreply
    · rw [Call.apply_of_not_concerns (by simpa using hkey)]
      exact (h d id).away call.spillsOf (perform_changesOnly (sound_of_keeps h) call)
        fun ht => hkey (Call.touches_iff.mp ht)

/-! ## §3. A run of calls. -/

/-- A run of calls keeps store and ledger together, and answers as it should. -/
theorem performAll_keeps (calls : List Call) (he : s.repository.enabled = true)
    (h : ∀ d id, s.Keeps d id (ledger d id))
    (hreplies : ∀ reply ∈ (s.performAll calls).1, Undisturbed reply) :
    (∀ d id, (s.performAll calls).2.Keeps d id (calls.foldl (Call.apply d id) (ledger d id)))
      ∧ (s.performAll calls).1 = calls.map Call.reply
      ∧ (s.performAll calls).2.repository.threshold = s.repository.threshold
      ∧ (s.performAll calls).2.repository.enabled = true := by
  induction calls generalizing s ledger with
  | nil => exact ⟨h, rfl, rfl, he⟩
  | cons call rest ih =>
      -- by induction on the calls, with the ledger behind the first one
      have hreply : Undisturbed (s.perform call).1 := hreplies _ List.mem_cons_self
      have hc := perform_changesOnly (sound_of_keeps h) call
      obtain ⟨hkeeps, hout, hthreshold, hon⟩ := ih (hc.enabled.trans he)
        (perform_keeps he h call hreply)
        fun reply hmem => hreplies reply (List.mem_cons_of_mem _ hmem)
      refine ⟨hkeeps, ?_, hthreshold.trans hc.threshold, hon⟩
      show (s.perform call).1 :: _ = call.reply :: _
      rw [perform_reply he h call hreply, hout]

theorem performAll_replies_append (calls later : List Call) :
    (s.performAll (calls ++ later)).1
      = (s.performAll calls).1 ++ ((s.performAll calls).2.performAll later).1 := by
  induction calls generalizing s with
  | nil => rfl
  | cons call rest ih => exact congrArg (_ :: ·) ih

/-! ## §4. Looking at the store. -/

/-- The keys that have a buffer, as a list. -/
def keyList (r : Repository) : List (Direction × ExchangeId) :=
  Direction.all.flatMap fun d => (r.buffers.of d).keys.map fun text => (d, ⟨text⟩)

theorem mem_keyList (r : Repository) (d : Direction) (id : ExchangeId) :
    (d, id) ∈ keyList r ↔ (r.buffer? d id).isSome = true := by
  have hdir : d ∈ Direction.all := by cases d <;> decide
  simp only [keyList, List.mem_flatMap, List.mem_map, Std.ExtTreeMap.mem_keys]
  constructor
  · rintro ⟨d', -, text, hmem, heq⟩
    cases heq
    exact Std.ExtTreeMap.isSome_getElem?_iff_mem.mpr hmem
  · intro h
    exact ⟨d, hdir, id.text, Std.ExtTreeMap.isSome_getElem?_iff_mem.mp h, rfl⟩

theorem nodup_keyList (r : Repository) : (keyList r).Nodup := by
  have hpart (d : Direction) :
      ((r.buffers.of d).keys.map fun text => (d, (⟨text⟩ : ExchangeId))).Nodup := by
    refine List.Nodup.map ?_ Std.ExtTreeMap.nodup_keys
    intro a b h
    cases h
    rfl
  show ((_ : List (Direction × ExchangeId)) ++ (_ ++ [])).Nodup
  rw [List.append_nil]
  -- keys of different directions differ
  refine List.nodup_append.mpr ⟨hpart .request, hpart .response, ?_⟩
  intro a ha b hb hab
  obtain ⟨_, -, rfl⟩ := List.mem_map.mp ha
  obtain ⟨_, -, rfl⟩ := List.mem_map.mp hb
  cases hab

/-- The number of buffers is that of the keys which have one. -/
theorem activeBuffers_eq_ncard (r : Repository) :
    r.activeBuffers
      = Set.ncard {key : Direction × ExchangeId | (r.buffer? key.1 key.2).isSome = true} := by
  have hset : {key : Direction × ExchangeId | (r.buffer? key.1 key.2).isSome = true}
      = ↑(keyList r).toFinset := by
    ext ⟨d, id⟩
    simp [mem_keyList]
  rw [hset, Set.ncard_coe_finset, List.toFinset_card_of_nodup (nodup_keyList r)]
  show _ = (_ ++ (_ ++ [])).length
  simp [Repository.activeBuffers, PerDirection.of]

/-- Every way to look at the store shows the ledger. -/
structure Mirrors (s : Store) (ledger : Direction → ExchangeId → Bytes) : Prop where
  /-- There is a body just where there are bytes. -/
  get_isSome : ∀ d id, (s.get d id none).isSome = true ↔ ledger d id ≠ []
  /-- Its content is these bytes. -/
  content : ∀ d id body, s.get d id none = some body →
    body.content s.disk = .ok (ledger d id) ∧ body.size = (ledger d id).length
  size : ∀ d id, (s.repository.buffer? d id).map Buffer.size
    = if ledger d id = [] then none else some (ledger d id).length
  /-- A buffer is on disk just when it has outgrown the threshold. -/
  mode : ∀ d id, (s.repository.buffer? d id).map Buffer.mode
    = if ledger d id = [] then none
      else if s.repository.threshold < (ledger d id).length then some .onDisk else some .inMemory
  inMemory : ∀ d id held, s.repository.buffer? d id = some (.inMemory held) →
    held.length ≤ s.repository.threshold
  /-- All bytes of a buffer on disk are in the spill of its key. -/
  onDisk : ∀ d id spill, s.repository.buffer? d id = some (.onDisk spill) →
    s.disk.read (s.repository.bufferPath d id) = .ok (ledger d id)
  activeBuffers : s.repository.activeBuffers
    = Set.ncard {key : Direction × ExchangeId | ledger key.1 key.2 ≠ []}

/-- An entry that keeps bytes has a buffer just when there are some. -/
theorem Keeps.isSome_iff (h : s.Keeps d id bytes) :
    (s.repository.buffer? d id).isSome = true ↔ bytes ≠ [] := by
  have hkept := h.kept
  cases hb : s.repository.buffer? d id with
  | none =>
      rw [hb] at hkept
      exact iff_of_false (by decide) fun hne => hne hkept
  | some buffer =>
      rw [hb] at hkept
      simpa using hkept.1

/-- The body of a kept entry reads back as its bytes. -/
theorem Keeps.content (h : s.Keeps d id bytes) {body : Body} (hbody : s.get d id none = some body) :
    body.content s.disk = .ok bytes ∧ body.size = bytes.length := by
  unfold get at hbody
  split at hbody
  next =>
    obtain ⟨buffer, hb, rfl⟩ := Option.map_eq_some_iff.mp hbody
    have hholds := h.holds hb
    cases buffer with
    | inMemory held =>
        obtain ⟨rfl, -⟩ := hholds
        exact ⟨rfl, rfl⟩
    | onDisk spill =>
        obtain ⟨-, hbacked, -⟩ := hholds
        -- as many bytes are read as the file has, so none is cut off
        have hread : s.disk.readUpTo spill.path spill.offset = .ok bytes := by
          simp only [Disk.readUpTo, hbacked.find, hbacked.offset, bind, Except.bind,
            List.take_length]
        refine ⟨?_, hbacked.offset⟩
        simp only [bodyOf, Body.content, Body.raw, hread]
        rfl
  next => cases hbody

theorem Keeps.size (h : s.Keeps d id bytes) :
    (s.repository.buffer? d id).map Buffer.size
      = if bytes = [] then none else some bytes.length := by
  have hkept := h.kept
  cases hb : s.repository.buffer? d id with
  | none =>
      rw [hb] at hkept
      exact (if_pos hkept).symm
  | some buffer =>
      rw [hb] at hkept
      obtain ⟨hne, hholds⟩ := hkept
      rw [if_neg hne]
      cases buffer with
      | inMemory held => exact congrArg (some ·.length) hholds.1
      | onDisk spill => exact congrArg some hholds.2.1.offset

theorem Keeps.mode (h : s.Keeps d id bytes) :
    (s.repository.buffer? d id).map Buffer.mode
      = if bytes = [] then none
        else if s.repository.threshold < bytes.length then some .onDisk else some .inMemory := by
  have hkept := h.kept
  cases hb : s.repository.buffer? d id with
  | none =>
      rw [hb] at hkept
      exact (if_pos hkept).symm
  | some buffer =>
      rw [hb] at hkept
      obtain ⟨hne, hholds⟩ := hkept
      rw [if_neg hne]
      cases buffer with
      | inMemory held =>
          have hle := hholds.2
          exact (if_neg (by omega)).symm
      | onDisk spill => exact (if_pos hholds.2.2).symm

/-- A store that keeps a ledger shows it. -/
theorem mirrors_of_keeps (he : s.repository.enabled = true)
    (h : ∀ d id, s.Keeps d id (ledger d id)) : s.Mirrors ledger where
  get_isSome d id := by
    rw [← (h d id).isSome_iff]
    simp [get, he]
  content d id body hbody := (h d id).content hbody
  size d id := (h d id).size
  mode d id := (h d id).mode
  inMemory d id held hb := by
    obtain ⟨rfl, hle⟩ := (h d id).holds hb
    exact hle
  onDisk d id spill hb := by
    obtain ⟨hpath, hbacked, -⟩ := (h d id).holds hb
    rw [← hpath]
    exact Disk.read_eq_ok.mpr ⟨_, _, hbacked.find⟩
  activeBuffers := by
    rw [activeBuffers_eq_ncard]
    congr 1
    ext ⟨d, id⟩
    exact (h d id).isSome_iff

/-- **A run of calls on an empty store is one on a ledger.**  Whatever the calls are, what
the store shows is what they make of an empty ledger; they answer by their chunks and
identifiers alone; a buffer that went to disk stays there until its exchange is let go of;
and calls on other keys make no difference to an entry. -/
theorem performAll_mirrors (s : Store) (calls : List Call) (he : s.repository.enabled = true)
    (hempty : s.repository.buffers = .both ∅)
    (hreplies : ∀ reply ∈ (s.performAll calls).1, Undisturbed reply) :
    (s.performAll calls).2.Mirrors (ledgerOf calls)
      ∧ (s.performAll calls).1 = calls.map Call.reply
      ∧ (∀ earlier later d id, calls = earlier ++ later →
          (∀ call ∈ later, call.releases id = false) →
          ((s.performAll earlier).2.repository.buffer? d id).map Buffer.mode = some .onDisk →
          ((s.performAll calls).2.repository.buffer? d id).map Buffer.mode = some .onDisk)
      ∧ (∀ d id, ledgerOf calls d id
          = ledgerOf (calls.filter fun call => call.concerns d id) d id) := by
  have hstart : ∀ d id, s.Keeps d id [] := by
    intro d id
    refine keeps_nil ?_
    show (s.repository.buffers.of d)[id.text]? = none
    rw [hempty, PerDirection.of_both, Std.ExtTreeMap.getElem?_empty]
  obtain ⟨hkeeps, hout, hthreshold, hon⟩ := performAll_keeps calls he hstart hreplies
  have hmirrors : (s.performAll calls).2.Mirrors (ledgerOf calls) := mirrors_of_keeps hon hkeeps
  refine ⟨hmirrors, hout, ?_, fun d id => (ledgerOf_filter calls d id).symm⟩
  rintro earlier later d id rfl hlater hmode
  obtain ⟨hkeeps₁, -, hthreshold₁, hon₁⟩ := performAll_keeps earlier he hstart
    fun reply hmem => hreplies reply (by
      rw [performAll_replies_append]
      exact List.mem_append_left _ hmem)
  have hmirrors₁ : (s.performAll earlier).2.Mirrors (ledgerOf earlier) :=
    mirrors_of_keeps hon₁ hkeeps₁
  rw [hmirrors₁.mode] at hmode
  rw [hmirrors.mode]
  -- the entry only grows, so what was over the threshold stays over it
  have hgrow : ledgerOf earlier d id <+: ledgerOf (earlier ++ later) d id := by
    rw [ledgerOf, ledgerOf, List.foldl_append]
    exact prefix_foldl_apply later _ hlater
  have hle := hgrow.length_le
  split at hmode
  next => cases hmode
  next hne =>
    split at hmode
    next hlong =>
      rw [hthreshold₁] at hlong
      rw [hthreshold, if_neg, if_pos (by omega)]
      intro hnil
      rw [hnil] at hle
      simp only [List.length_nil] at hle
      omega
    next => cases hmode

/-- The same at a store with a threshold of four bytes: one body spills, another is cleaned
up, a third is archived, and a write under an identifier that is no name is refused. -/
theorem performAll_mirrors_of_spill :
    let s : Store := ⟨.ofDirectories [["b"], ["a"]] [], ⟨true, .ofText "/b", 4, .both ∅⟩, .zero⟩
    let calls : List Call := [.write .request ⟨"x"⟩ [1, 2, 3], .write .response ⟨"y"⟩ [7],
      .write .request ⟨"../z"⟩ [8], .write .request ⟨"x"⟩ [4, 5], .write .request ⟨"w"⟩ [6],
      .cleanup ⟨"y"⟩, .archiveInto ⟨"w"⟩ (.ofText "/a") fun _ => [0]]
    (s.performAll calls).2.Mirrors (ledgerOf calls)
      ∧ ledgerOf calls .request ⟨"x"⟩ = [1, 2, 3, 4, 5]
      ∧ ((s.performAll calls).2.repository.buffer? .request ⟨"x"⟩).map Buffer.mode = some .onDisk := by
  refine ⟨(performAll_mirrors _ _ rfl rfl ?_).1, by decide +kernel, by decide +kernel⟩
  intro reply hmem failure hfail
  have hreplies : ∀ reply ∈ ((⟨.ofDirectories [["b"], ["a"]] [], ⟨true, .ofText "/b", 4, .both ∅⟩,
      .zero⟩ : Store).performAll [.write .request ⟨"x"⟩ [1, 2, 3], .write .response ⟨"y"⟩ [7],
        .write .request ⟨"../z"⟩ [8], .write .request ⟨"x"⟩ [4, 5], .write .request ⟨"w"⟩ [6],
        .cleanup ⟨"y"⟩, .archiveInto ⟨"w"⟩ (.ofText "/a") fun _ => [0]]).1,
      reply = .ok () ∨ reply = .error (.unusableId ⟨"../z"⟩) := by decide +kernel
  rcases hreplies reply hmem with hok | herr
  · rw [hok] at hfail
    cases hfail
  · rw [herr] at hfail
    cases hfail
    exact not_false

end Wiretap.Store
