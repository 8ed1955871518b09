/-
  Wiretap.Proofs.Inflating
  ────────────────────────
  **EVERY DEFLATE STREAM IS READ, AND NO PART OF ONE IS.**

  The reader of the blocks follows the format: it finds the output of each word of bits that the
  format allows, and where the input ends inside the word it asks for more, whatever came out by
  then (`Inflates`).  This holds of the symbols of a block, of a block and of blocks in a row, and
  so of whole streams:

    • `inflate_append` — a stream gives its payload and leaves what comes behind it,
    • `inflate_part`   — a stream that is cut anywhere is incomplete.
-/
import Wiretap.Proofs.DeflateFormat

namespace Wiretap

namespace Coding

variable {literals distances code : CodeTree} {position budget limit : Nat}
variable {bits word word' : List Bool} {out out' : Bytes}

/-! ## §1. Copies. -/

/-- The value of a symbol is read with the bits behind it. -/
theorem readStretch_reads {stretches : Array Stretch} {symbol value : Nat}
    (h : StretchBits stretches symbol bits value) :
    Reads (readStretch stretches symbol) bits value := by
  cases h with
  | @value stretch more hstretch hmore =>
      have hread : readStretch stretches symbol = fun i => i.number stretch.extra >>= fun found =>
          .ok (stretch.base + found.1, found.2) := by
        funext i
        simp only [readStretch, hstretch]
        rfl
      rw [hread]
      exact (number_reads hmore).map (stretch.base + ·)

/-- No copy starts at the byte that it writes. -/
theorem distance_pos {symbol distance : Nat}
    (h : StretchBits distanceStretches symbol bits distance) : 0 < distance := by
  cases h with
  | value hstretch _ =>
      have hbase : ∀ stretch ∈ distanceStretches, 0 < stretch.base := by decide
      have hpos := hbase _ (Array.mem_of_getElem? hstretch)
      omega

/-- Bytes that repeat the output are what a copy writes. -/
theorem copyBack_repeats {distance : Nat} (hpos : 0 < distance) {new : Bytes}
    (hback : distance ≤ out.length) (h : Repeats distance out new) :
    copyBack distance new.length out.toArray = (out ++ new).toArray := by
  induction new generalizing out with
  | nil => rw [List.append_nil]; rfl
  | cons b new ih =>
      have hbyte : out[out.length - distance]? = some b := by
        have hfirst := h 0 (Nat.succ_pos new.length)
        rw [Nat.add_zero, List.getElem?_append_right (Nat.le_refl _), Nat.sub_self,
          List.getElem?_append_left (by omega)] at hfirst
        exact hfirst.symm
      have hnext : Repeats distance (out ++ [b]) new := fun k hk => by
        have hlater := h (k + 1) (Nat.succ_lt_succ hk)
        rw [List.append_cons, ← Nat.add_assoc, Nat.add_right_comm] at hlater
        rw [List.length_append]
        exact hlater
      rw [List.length_cons, copyBack, if_pos (by simpa using hback), List.size_toArray,
        List.getElem?_toArray, hbyte, Option.getD_some, List.push_toArray,
        ih (by rw [List.length_append]; omega) hnext, ← List.append_cons]

/-- The length and the distance of a copy, behind the symbol that begins it. -/
def readCopy (distances : CodeTree) (symbol : Nat) (i : BitInput) :
    Except DeflateFault ((Nat × Nat) × BitInput) := do
  let (length, i) ← readStretch lengthStretches symbol i
  let (symbol, i) ← distances.read i
  let (distance, i) ← readStretch distanceStretches symbol i
  return ((length, distance), i)

theorem readCopy_reads {extra extra' : List Bool} {symbol symbol' length distance : Nat}
    (hlength : StretchBits lengthStretches symbol extra length)
    (hword' : distances.Word word' symbol')
    (hdistance : StretchBits distanceStretches symbol' extra' distance) :
    Reads (readCopy distances symbol) (extra ++ (word' ++ extra')) (length, distance) :=
  (readStretch_reads hlength).bind <| (CodeTree.read_reads hword').bind <|
    (readStretch_reads hdistance).map (length, ·)

/-! ## §2. Readers of output. -/

/-- How an input stands in a stream: so many bits have been read, fewer are left than the budget,
and together they fill whole bytes. -/
structure BitInput.Stands (i : BitInput) (budget position : Nat) (ahead : List Bool) : Prop
    extends i.Ahead ahead where
  below : ahead.length < budget
  aligned : (position + ahead.length) % 8 = 0

/-- Behind a word, a budget that is smaller by no more than the word is still enough. -/
theorem BitInput.Stands.behind {i i' : BitInput} {budget' : Nat}
    (h : i.Stands budget position (word ++ bits)) (hahead : i'.Ahead bits)
    (hbudget : budget ≤ budget' + word.length) :
    i'.Stands budget' (position + word.length) bits where
  toAhead := hahead
  below := by
    have hbelow := h.below
    rw [List.length_append] at hbelow
    omega
  aligned := by
    have haligned := h.aligned
    rwa [List.length_append, ← Nat.add_assoc] at haligned

/-- What it means that a reader inflates a word behind `position` bits: where the word comes next,
the output is there and the reading goes on behind it; where the input ends inside the word, it is
incomplete. -/
abbrev Inflates (budget position : Nat) (read : BitInput → Inflated) (word : List Bool)
    (out : Bytes) : Prop :=
  Takes (fun i bits => i.Stands budget position bits) read word (fun i => ⟨out.toArray, .ok i⟩)
    (·.finish = .error .incomplete)

namespace Inflates

variable {budget' : Nat} {read full next : BitInput → Inflated}

/-- Output that is there already. -/
theorem pure (out : Bytes) : Inflates budget position (fun i => ⟨out.toArray, .ok i⟩) [] out where
  whole h := ⟨_, rfl, h.toAhead⟩
  part _ hpart hne := absurd (List.prefix_nil.mp hpart) hne

/-- Where the budget is spent, nothing is left to read. -/
theorem spent (h : ∀ i, (read i).finish = .error .incomplete) :
    Inflates 0 position read word out where
  whole hstands := absurd hstands.below (Nat.not_lt_zero _)
  part _ _ _ := h _

/-- A larger budget does as well. -/
theorem of_le (h : Inflates budget' position read word out) (hle : budget ≤ budget') :
    Inflates budget position read word out :=
  h.mono fun hstands => { hstands with below := Nat.lt_of_lt_of_le hstands.below hle }

/-- A value, and output behind it that depends on the value. -/
theorem after {α : Type} {readValue : BitInput → Except DeflateFault (α × BitInput)} {a : α}
    (budget' : Nat) (h : Reads readValue word a) (hbudget : budget ≤ budget' + word.length)
    (hfound : ∀ i i', readValue i = .ok (a, i') → full i = next i')
    (hcut : ∀ i, readValue i = .error .incomplete → (full i).finish = .error .incomplete)
    (hnext : Inflates budget' (position + word.length) next word' out) :
    Inflates budget position full (word ++ word') out :=
  (h.mono BitInput.Stands.toAhead).andThen
    (fun hstands hahead => hstands.behind hahead hbudget) hfound hcut hnext

end Inflates

/-! ## §3. Symbols. -/

theorem CodeTree.Word.length_pos {symbol : Nat} (h : code.Word word symbol) : 0 < word.length :=
  List.length_pos_iff.mpr h.ne_nil

-- `symbol - 257` is unfolded step by step here, which takes more depth than there is by default
set_option maxRecDepth 2000 in
/-- One symbol of a block, and the symbols behind it. -/
theorem readSymbols_succ (literals distances : CodeTree) (budget : Nat) (i : BitInput)
    (out : Array UInt8) :
    readSymbols literals distances (budget + 1) i out
      = match literals.read i with
        | .error fault => ⟨out, .error fault⟩
        | .ok (symbol, i) =>
          if symbol < endOfBlock then
            readSymbols literals distances budget i (out.push (UInt8.ofNat symbol))
          else if symbol = endOfBlock then ⟨out, .ok i⟩
          else
            match readCopy distances (symbol - 257) i with
            | .error fault => ⟨out, .error fault⟩
            | .ok ((length, distance), i) =>
              readSymbols literals distances budget i (copyBack distance length out) := by
  rfl

/-- A symbol that is cut. -/
theorem readSymbols_error {i : BitInput} {out : Array UInt8}
    (h : literals.read i = .error .incomplete) :
    (readSymbols literals distances (budget + 1) i out).finish = .error .incomplete := by
  rw [readSymbols_succ, h]

/-- A symbol that begins a copy. -/
theorem readSymbols_copy {symbol : Nat} {i i' : BitInput} {out : Array UInt8}
    (h : literals.read i = .ok (257 + symbol, i')) :
    readSymbols literals distances (budget + 1) i out
      = match readCopy distances symbol i' with
        | .error fault => ⟨out, .error fault⟩
        | .ok ((length, distance), i) =>
          readSymbols literals distances budget i (copyBack distance length out) := by
  have hlarge : 256 < 257 + symbol := by omega
  simp only [readSymbols_succ, h, endOfBlock, if_neg (Nat.lt_asymm hlarge),
    if_neg (Nat.ne_of_gt hlarge), Nat.add_sub_cancel_left]

/-- The symbols of a block, by induction on them; each takes at least one bit. -/
theorem readSymbols_inflates (h : Symbols literals distances bits out out')
    (budget position : Nat) :
    Inflates budget position (fun i => readSymbols literals distances budget i out.toArray) bits
      out' := by
  induction h generalizing budget position with
  | @finish word out hword =>
      cases budget with
      | zero => exact .spent fun _ => rfl
      | succ budget =>
          have hpos := hword.length_pos
          rw [← List.append_nil word]
          refine .after budget (CodeTree.read_reads hword) (by omega) ?_ ?_ (.pure out)
          · intro i i' hread
            simp only [readSymbols_succ, hread, Nat.lt_irrefl, if_true, if_false]
          · exact fun i hread => readSymbols_error hread
  | @literal word bits byte out out' hword _ ih =>
      cases budget with
      | zero => exact .spent fun _ => rfl
      | succ budget =>
          have hpos := hword.length_pos
          have hbyte : byte.toNat < endOfBlock := byte.toNat_lt
          refine .after budget (CodeTree.read_reads hword) (by omega) ?_ ?_ (ih budget _)
          · intro i i' hread
            simp only [readSymbols_succ, hread, if_pos hbyte, UInt8.ofNat_toNat, List.push_toArray]
          · exact fun i hread => readSymbols_error hread
  | @copy word extra word' extra' bits symbol symbol' distance out new out' hword hlength hword'
      hdistance hback hnew _ ih =>
      cases budget with
      | zero => exact .spent fun _ => rfl
      | succ budget =>
          have hpos := hword.length_pos
          have hcopy := copyBack_repeats (distance_pos hdistance) hback hnew
          refine .after budget (CodeTree.read_reads hword) (by omega)
            (fun i i' hread => readSymbols_copy hread) (fun i hread => readSymbols_error hread) ?_
          refine .after budget (readCopy_reads hlength hword' hdistance) (by omega) ?_ ?_
            (ih budget _)
          · intro i i' hread
            simp only [hread, hcopy]
          · intro i hread
            simp only [hread]

/-! ## §4. Codes. -/

/-- Listed numbers of three bits, the last one found first. -/
theorem readLengthLengths_reads {listed : List Nat} (h : ∀ length ∈ listed, length < 8)
    (done : List Nat) :
    Reads (fun i => readLengthLengths listed.length i done) (listed.flatMap (numberBits 3))
      (listed.reverse ++ done) := by
  induction listed generalizing done with
  | nil => exact .pure done
  | cons length listed ih =>
      have hsmall : ∀ later ∈ listed, later < 8 := fun later hlater =>
        h later (List.mem_cons_of_mem _ hlater)
      have hrest := ih hsmall (length :: done)
      rw [List.reverse_cons, List.append_assoc, List.singleton_append]
      exact (number_reads (h length List.mem_cons_self)).bind hrest

/-- The code lengths that a symbol adds to those in `done`, the last one first. -/
def readRun (symbol : Nat) (i : BitInput) (done : List Nat) :
    Except DeflateFault (List Nat × BitInput) :=
  if symbol < 16 then .ok ([symbol], i)
  else if symbol = 16 then
    match done with
    | [] => .error .corrupt
    | last :: _ => do
      let (more, i) ← i.number 2
      return (List.replicate (3 + more) last, i)
  else do
    let (more, i) ← i.number (if symbol = 17 then 3 else 7)
    return (List.replicate ((if symbol = 17 then 3 else 11) + more) 0, i)

theorem readRun_reads {symbol : Nat} {before new : List Nat}
    (h : LengthRun before symbol bits new) :
    Reads (fun i => readRun symbol i before.reverse) bits new.reverse := by
  cases h with
  | one hlength =>
      simp only [readRun, if_pos hlength]
      exact .pure _
  | @again before last more hmore =>
      rw [List.reverse_append, List.reverse_replicate]
      exact (number_reads hmore).map fun more => List.replicate (3 + more) last
  | @zeros before more hmore =>
      rw [List.reverse_replicate]
      exact (number_reads hmore).map fun more => List.replicate (3 + more) 0
  | @manyZeros before more hmore =>
      rw [List.reverse_replicate]
      exact (number_reads hmore).map fun more => List.replicate (11 + more) 0

theorem LengthRun.length_pos {symbol : Nat} {before new : List Nat}
    (h : LengthRun before symbol bits new) : 0 < new.length := by
  cases h with
  | one => exact Nat.one_pos
  | again => rw [List.length_replicate]; omega
  | zeros => rw [List.length_replicate]; omega
  | manyZeros => rw [List.length_replicate]; omega

/-- What is there at the end was there all along. -/
theorem Lengths.length_le {before all : List Nat} (h : Lengths code before bits all) :
    before.length ≤ all.length := by
  induction h with
  | finish => exact Nat.le_refl _
  | run _ _ _ ih => rw [List.length_append] at ih; omega

/-- Where code lengths are missing, the next symbol adds some. -/
theorem readLengths_of_lt {count : Nat} {done : List Nat} (h : done.length < count) (i : BitInput) :
    readLengths code count (budget + 1) i done = code.read i >>= fun found =>
      readRun found.1 found.2 done >>= fun run =>
        readLengths code count budget run.2 (run.1 ++ done) := by
  rw [readLengths, if_neg (Nat.ne_of_lt h), if_neg (Nat.lt_asymm h)]
  congr 1
  funext ⟨symbol, i⟩
  simp only [readRun]
  split
  · rfl
  · split
    · cases done with
      | nil => rfl
      | cons last done => simp only [bind_assoc, pure_bind]
    · simp only [bind_assoc, pure_bind]

/-- Code lengths up to the last one, by induction on them; the budget counts those missing. -/
theorem readLengths_reads {before all : List Nat} (h : Lengths code before bits all)
    (hbudget : all.length < before.length + budget) :
    Reads (fun i => readLengths code all.length budget i before.reverse) bits all.reverse := by
  induction h generalizing budget with
  | @finish all =>
      cases budget with
      | zero => omega
      | succ budget =>
          simp only [readLengths, List.length_reverse, if_true]
          exact .pure _
  | @run word extra bits symbol before new all hword hrun hrest ih =>
      have hpos := hrun.length_pos
      have hle := hrest.length_le
      rw [List.length_append] at hle
      have hmissing : before.reverse.length < all.length := by
        rw [List.length_reverse]
        omega
      cases budget with
      | zero => omega
      | succ budget =>
          have hlater : Reads (fun i => readLengths code all.length budget i
              (before ++ new).reverse) bits all.reverse :=
            ih (by rw [List.length_append]; omega)
          rw [List.reverse_append] at hlater
          simp only [readLengths_of_lt hmissing]
          exact (CodeTree.read_reads hword).bind ((readRun_reads hrun).bind hlater)

/-- The codes that a block brings. -/
theorem readCodes_reads {codes : CodeTree × CodeTree} (h : Codes bits codes) :
    Reads readCodes bits codes := by
  cases h with
  | @brought l d listed all code literals distances bits hl hd hfour hlisted hsmall hcode hlengths
      hcount hliterals hdistances =>
      have hinside : (decide (29 < l) || decide (29 < d)) = false := by
        rw [decide_eq_false (Nat.not_lt.mpr hl), decide_eq_false (Nat.not_lt.mpr hd)]
        rfl
      have hlistedReads := readLengthLengths_reads hsmall []
      rw [List.append_nil] at hlistedReads
      have hcodeFound : orCorrupt (CodeTree.ofLengths? false ((List.range 19).map fun symbol =>
          (((lengthOrder.zip listed.reverse.reverse).find? (·.1 == symbol)).map (·.2)).getD 0))
            = .ok code := by
        rw [List.reverse_reverse]
        exact congrArg orCorrupt hcode
      have hall : Reads (fun i => readLengths code (l + 257 + (d + 1)) (l + d + 259) i []) bits
          all.reverse := by
        rw [← hcount]
        exact readLengths_reads hlengths (by rw [List.length_nil]; omega)
      -- the lengths of both codes come in one row
      have hboth : Reads (fun i => readLengths code (l + 257 + (d + 1)) (l + d + 259) i [] >>=
          fun found => do
            let literals ← orCorrupt (CodeTree.ofLengths? true (found.1.reverse.take (l + 257)))
            let distances ← orCorrupt (CodeTree.ofLengths? true (found.1.reverse.drop (l + 257)))
            return ((literals, distances), found.2)) (bits ++ []) (literals, distances) := by
        refine hall.bind ?_
        simp only [List.reverse_reverse, hliterals, hdistances]
        exact .pure _
      rw [List.append_nil] at hboth
      refine (number_reads (Nat.lt_of_le_of_lt hl (by decide))).bind
        ((number_reads (Nat.lt_of_le_of_lt hd (by decide))).bind
          ((number_reads (n := listed.length - 4) ?_).bind ?_))
      · show listed.length - 4 < 16
        omega
      · simp only [hinside, Nat.sub_add_cancel hfour]
        refine hlistedReads.bind ?_
        simp only [hcodeFound]
        exact hboth

/-! ## §5. Stored bytes. -/

/-- What stands in front of stored bytes: their number and its complement. -/
theorem storedBytes_eq {data : Bytes} (h : data.length ≤ maxStored) :
    ∃ a b c d, storedBytes data = a :: b :: c :: d :: data
      ∧ Bytes.littleEndian [a, b] = data.length
      ∧ data.length + Bytes.littleEndian [c, d] = 65535 := by
  have hsize : Bytes.littleEndian (Bytes.ofNumber 2 data.length) = data.length :=
    Bytes.littleEndian_ofNumber (Nat.lt_succ_of_le h)
  have hrest : Bytes.littleEndian (Bytes.ofNumber 2 (maxStored - data.length))
      = maxStored - data.length :=
    Bytes.littleEndian_ofNumber (Nat.lt_succ_of_le (Nat.sub_le _ _))
  refine ⟨_, _, _, _, rfl, hsize, ?_⟩
  calc data.length + Bytes.littleEndian (Bytes.ofNumber 2 (maxStored - data.length))
      = data.length + (maxStored - data.length) := by rw [hrest]
    _ = maxStored := Nat.add_sub_cancel' h

/-- Stored bytes come out as they are. -/
theorem readStored_append {data : Bytes} (h : data.length ≤ maxStored) (out tail : Bytes) :
    readStored (storedBytes data ++ tail) out.toArray
      = ⟨(out ++ data).toArray, .ok (.ofBytes tail)⟩ := by
  obtain ⟨a, b, c, d, hdata, hsize, hsum⟩ := storedBytes_eq h
  have henough : ¬ (data ++ tail).length < data.length := by
    rw [List.length_append]
    omega
  simp only [hdata, List.cons_append, readStored, hsize, hsum, ne_eq, not_true_eq_false, if_false,
    if_neg henough, List.take_left, List.drop_left, Array.appendList_eq_append,
    List.toArray_appendList]

/-- Stored bytes that are cut are incomplete. -/
theorem readStored_part {data part : Bytes} (h : data.length ≤ maxStored)
    (hpart : part <+: storedBytes data) (hne : part ≠ storedBytes data) (out : Array UInt8) :
    (readStored part out).finish = .error .incomplete := by
  obtain ⟨a, b, c, d, hdata, hsize, hsum⟩ := storedBytes_eq h
  obtain ⟨rest, hrest⟩ := hpart
  rw [hdata] at hrest hne
  match part, hrest with
  | [], _ => rfl
  | [_], _ => rfl
  | [_, _], _ => rfl
  | [_, _, _], _ => rfl
  | _ :: _ :: _ :: _ :: part, hrest =>
      simp only [List.cons_append, List.cons.injEq] at hrest
      obtain ⟨rfl, rfl, rfl, rfl, rfl⟩ := hrest
      have hshort : part.length < (part ++ rest).length := by
        have hrest : rest ≠ [] := fun hnil => hne (by rw [hnil, List.append_nil])
        have hpos := List.length_pos_iff.mpr hrest
        rw [List.length_append]
        omega
      simp only [readStored, hsize, hsum, ne_eq, not_true_eq_false, if_false, if_pos hshort]

/-! ## §6. Blocks. -/

/-- The bits that fill up the byte begun are those left over from it. -/
theorem length_pending {i : BitInput} {budget : Nat} {padding : List Bool}
    (h : i.Stands budget position bits) (hpadding : padding.length < 8)
    (haligned : (position + padding.length) % 8 = 0) : i.pending.length = padding.length := by
  have hlength := h.toAhead.length
  have hpending := h.pending
  have hbits := h.aligned
  omega

/-- A stored block behind the bits that tell its layout. -/
theorem readStored_inflates {padding : List Bool} {data : Bytes} (hpadding : padding.length < 8)
    (haligned : (position + padding.length) % 8 = 0) (hsize : data.length ≤ maxStored)
    (out : Bytes) :
    Inflates budget position (fun i => readStored i.aligned out.toArray)
      (padding ++ bitsOfBytes (storedBytes data)) (out ++ data) where
  whole {i more} hstands := by
    have hahead := hstands.toAhead
    rw [List.append_assoc] at hahead
    obtain ⟨-, hrest⟩ := hahead.pending_eq (length_pending hstands hpadding haligned)
    obtain ⟨tail, htail, hmore⟩ := exists_of_bitsOfBytes_eq hrest
    refine ⟨.ofBytes tail, ?_, hmore ▸ BitInput.ofBytes_ahead tail⟩
    show readStored i.rest out.toArray = _
    rw [htail, readStored_append hsize]
  part {i bits} hstands hpart hne := by
    obtain ⟨cut, hcut⟩ := hpart
    rw [← hstands.bits, BitInput.bits, List.append_assoc] at hcut
    obtain ⟨hpending, hrest⟩ := List.append_inj hcut (length_pending hstands hpadding haligned)
    obtain ⟨missing, hmissing, -⟩ := exists_of_bitsOfBytes_eq hrest.symm
    refine readStored_part hsize ⟨missing, hmissing.symm⟩ (fun hwhole => hne ?_) _
    rw [← hstands.bits, BitInput.bits, hpending, ← hwhole]

/-- A block behind the bits that tell its layout; it is not longer than `limit`. -/
theorem readBlock_inflates {layout : Layout} (h : Block position layout bits out out')
    (hlimit : budget ≤ limit) :
    Inflates budget position (fun i => readBlock layout.kind limit i out.toArray) bits out' := by
  cases h with
  | stored hpadding haligned hsize => exact readStored_inflates hpadding haligned hsize out
  | fixed hsymbols => exact (readSymbols_inflates hsymbols limit position).of_le hlimit
  | @dynamic head bits codes _ _ hcodes hsymbols =>
      refine .after budget (readCodes_reads hcodes) (Nat.le_add_right budget _) ?_ ?_
        ((readSymbols_inflates hsymbols limit _).of_le hlimit)
      · intro i i' hread
        simp only [Layout.kind, readBlock, hread]
      · intro i hread
        simp only [Layout.kind, readBlock, hread]

theorem readBlockHead_reads (last : Bool) (layout : Layout) :
    Reads readBlockHead (headBits last layout) (last, layout.kind) :=
  (bit_reads last).bind ((number_reads layout.kind_lt).map (last, ·))

/-- A block behind its head, and the blocks after it, if it is not the last. -/
def readOn (limit budget : Nat) (last : Bool) (kind : Nat) (out : Array UInt8) (i : BitInput) :
    Inflated :=
  match readBlock kind limit i out with
  | ⟨out, .ok i⟩ => if last then ⟨out, .ok i⟩ else readBlocks limit budget i out
  | stopped => stopped

theorem readOn_inflates {last : Bool} {layout : Layout} {rest : List Bool} {between : Bytes}
    (h : Block position layout bits out between) (hlimit : budget ≤ limit)
    (hnext : Inflates budget (position + bits.length) (fun i =>
      if last then ⟨between.toArray, .ok i⟩ else readBlocks limit budget i between.toArray) rest
      out') :
    Inflates budget position (readOn limit budget last layout.kind out.toArray) (bits ++ rest)
      out' := by
  refine (readBlock_inflates h hlimit).andThen
    (fun hstands hahead => hstands.behind hahead (Nat.le_add_right budget _)) ?_ ?_ hnext
  · intro i i' hread
    simp only [readOn, hread]
  · intro i hread
    unfold readOn
    match readBlock layout.kind limit i out.toArray, hread with
    | ⟨_, .error _⟩, hread => exact hread

/-- A block with its head, and what is done behind it. -/
theorem readBlocks_head {last : Bool} {layout : Layout} {rest : List Bool} {between : Bytes}
    (h : Block (position + 3) layout bits out between) (hlimit : budget + 1 ≤ limit)
    (hnext : Inflates budget (position + 3 + bits.length) (fun i =>
      if last then ⟨between.toArray, .ok i⟩ else readBlocks limit budget i between.toArray) rest
      out') :
    Inflates (budget + 1) position (fun i => readBlocks limit (budget + 1) i out.toArray)
      (headBits last layout ++ (bits ++ rest)) out' := by
  have hless : budget + 1 ≤ budget + (headBits last layout).length :=
    Nat.add_le_add_left (Nat.succ_le_succ (Nat.zero_le 2)) budget
  refine .after budget (readBlockHead_reads last layout) hless ?_ ?_
    (readOn_inflates h (Nat.le_of_succ_le hlimit) hnext)
  · intro i i' hread
    simp only [readBlocks, hread]
    rfl
  · intro i hread
    simp only [readBlocks, hread]

/-- Blocks up to the last one, by induction on them.  None is longer than `limit`, and each takes
some of the budget. -/
theorem readBlocks_inflates {layouts : List Layout} (h : Blocks position layouts bits out out')
    (hlimit : budget ≤ limit) :
    Inflates budget position (fun i => readBlocks limit budget i out.toArray) bits out' := by
  induction h generalizing budget with
  | @last position layout bits out out' hblock =>
      cases budget with
      | zero => exact .spent fun _ => rfl
      | succ budget =>
          rw [← List.append_nil bits]
          exact readBlocks_head hblock hlimit (.pure out')
  | more hblock _ ih =>
      cases budget with
      | zero => exact .spent fun _ => rfl
      | succ budget => exact readBlocks_head hblock hlimit (ih (Nat.le_of_succ_le hlimit))

/-! ## §7. Streams. -/

/-- A deflate stream gives its payload and leaves what comes behind it. -/
theorem inflate_append {layouts : List Layout} {coded payload : Bytes}
    (h : IsDeflate layouts coded payload) (tail : Bytes) :
    ∃ i, inflate (coded ++ tail) = ⟨payload.toArray, .ok i⟩ ∧ i.aligned = tail := by
  obtain ⟨bits, fill, hcoded, hfill, hblocks⟩ := h
  have hlength := congrArg List.length hcoded
  rw [length_bitsOfBytes, List.length_append] at hlength
  have hahead := BitInput.ofBytes_ahead (coded ++ tail)
  rw [bitsOfBytes_append, hcoded, List.append_assoc] at hahead
  have hstands : (BitInput.ofBytes (coded ++ tail)).Stands (8 * (coded ++ tail).length + 1) 0
      (bits ++ (fill ++ bitsOfBytes tail)) := by
    refine ⟨hahead, ?_, ?_⟩
    · rw [List.length_append, List.length_append, List.length_append, length_bitsOfBytes]
      omega
    · rw [List.length_append, List.length_append, length_bitsOfBytes]
      omega
  obtain ⟨i, hread, hbehind⟩ := (readBlocks_inflates hblocks (Nat.le_refl _)).whole hstands
  have hpending : i.pending.length = fill.length := by
    have hlengths := hbehind.length
    have hlt := hbehind.pending
    rw [List.length_append, length_bitsOfBytes] at hlengths
    omega
  exact ⟨i, hread, bitsOfBytes_inj (hbehind.pending_eq hpending).2⟩

/-- A deflate stream that is cut is incomplete. -/
theorem inflate_part {layouts : List Layout} {coded payload part : Bytes}
    (h : IsDeflate layouts coded payload) (hpart : part <+: coded) (hne : part ≠ coded) :
    (inflate part).finish = .error .incomplete := by
  obtain ⟨bits, fill, hcoded, hfill, hblocks⟩ := h
  obtain ⟨missing, rfl⟩ := hpart
  have hmissing : 0 < missing.length :=
    List.length_pos_iff.mpr fun hnil => hne (by rw [hnil, List.append_nil])
  have hlength := congrArg List.length hcoded
  rw [length_bitsOfBytes, List.length_append, List.length_append] at hlength
  have hstands : (BitInput.ofBytes part).Stands (8 * part.length + 1) 0 (bitsOfBytes part) := by
    refine ⟨BitInput.ofBytes_ahead part, ?_, ?_⟩
    · rw [length_bitsOfBytes]
      omega
    · rw [length_bitsOfBytes]
      omega
  -- what is missing is at least a byte, and so more than what fills up the last one
  have hinside : bitsOfBytes part <+: bits := by
    refine List.prefix_of_prefix_length_le ?_ (List.prefix_append bits fill) ?_
    · rw [← hcoded, bitsOfBytes_append]
      exact List.prefix_append _ _
    · rw [length_bitsOfBytes]
      omega
  refine (readBlocks_inflates hblocks (Nat.le_refl _)).part hstands hinside fun hall => ?_
  have hsame := congrArg List.length hall
  rw [length_bitsOfBytes] at hsame
  omega

end Coding

end Wiretap
