/-
  Wiretap.Proofs.Shards
  ─────────────────────
  **ONE DIRECTORY FOR EACH EXCHANGE OF A DAY.**

  The directory of an exchange lies six names below the base of the archive: the date, four
  characters of the identifier, and the identifier.  A date can be read off its text, so two
  such directories are one only for one date and one identifier; and since all lie at the same
  depth, none lies in another:

    • `Time.Date.text_inj`          — dates with one text are one date,
    • `Archive.place_of_shardDirectory` — where the directory of an exchange lies,
    • `Archive.shardDirectory_apart`    — what it tells of the exchange.
-/
import Wiretap.Proofs.Places

namespace Wiretap

/-! ## §1. The text of a date. -/

namespace Time

/-- The characters of a padded number. -/
theorem toList_zeroPadded (width n : Nat) : (zeroPadded width n).toList
    = List.replicate (width - (Nat.toDigits 10 n).length) '0' ++ Nat.toDigits 10 n := by
  unfold zeroPadded
  exact String.toList_ofList

theorem isDigit_of_mem_zeroPadded {width n : Nat} {c : Char} (h : c ∈ (zeroPadded width n).toList) :
    c.isDigit = true := by
  rw [toList_zeroPadded, List.mem_append] at h
  rcases h with hzero | hdigit
  · rw [List.eq_of_mem_replicate hzero]
    rfl
  · exact Nat.isDigit_of_mem_toDigits (by decide) (by decide) hdigit

theorem zeroPadded_ne_nil (width n : Nat) : (zeroPadded width n).toList ≠ [] := by
  rw [toList_zeroPadded]
  exact List.append_ne_nil_of_right_ne_nil _ Nat.toDigits_ne_nil

/-- The number that is written can be read. -/
theorem ofDigitChars_zeroPadded (width n : Nat) :
    Nat.ofDigitChars 10 (zeroPadded width n).toList 0 = n := by
  rw [toList_zeroPadded, Nat.ofDigitChars_append, Nat.ofDigitChars_replicate_zero]
  simp

theorem zeroPadded_inj {width m n : Nat} (h : zeroPadded width m = zeroPadded width n) : m = n := by
  rw [← ofDigitChars_zeroPadded width m, h, ofDigitChars_zeroPadded]

/-- A year is written as a sign, which may be missing, and digits. -/
theorem toList_yearText (year : Int) : ∃ sign : List Char,
    (yearText year).toList = sign ++ (zeroPadded 4 year.natAbs).toList
      ∧ (∀ c ∈ sign, c.isDigit = false) ∧ (sign = ['-'] ↔ year < 0) := by
  unfold yearText
  by_cases hplain : 0 ≤ year ∧ year ≤ 9999
  · have habs : year.toNat = year.natAbs := by omega
    refine ⟨[], ?_, by simp, by simp [hplain.1]⟩
    simp [hplain, habs]
  · by_cases hsign : year < 0
    · have hnot : ¬ 0 ≤ year := by omega
      refine ⟨['-'], ?_, List.forall_mem_singleton.mpr rfl, by simp [hsign]⟩
      simp [hnot, hsign, String.toList_append]
    · have hlarge : ¬ year ≤ 9999 := by omega
      refine ⟨['+'], ?_, List.forall_mem_singleton.mpr rfl, by simp [hsign]⟩
      simp [hlarge, hsign, String.toList_append]

/-- Where characters of one kind are followed by those of another, the two parts can be told. -/
theorem append_inj_of_apart {a a' b b' : List Char} (ha : ∀ c ∈ a, c.isDigit = false)
    (ha' : ∀ c ∈ a', c.isDigit = false) (hb : ∀ c ∈ b, c.isDigit = true)
    (hb' : ∀ c ∈ b', c.isDigit = true) (h : a ++ b = a' ++ b') : a = a' ∧ b = b' := by
  rcases List.append_eq_append_iff.mp h with ⟨rest, rfl, rfl⟩ | ⟨rest, rfl, rfl⟩
  · have hnone : rest = [] := List.eq_nil_iff_forall_not_mem.mpr fun c hc => by
      have hdigit := hb c (List.mem_append_left _ hc)
      rw [ha' c (List.mem_append_right _ hc)] at hdigit
      cases hdigit
    simp [hnone]
  · have hnone : rest = [] := List.eq_nil_iff_forall_not_mem.mpr fun c hc => by
      have hdigit := hb' c (List.mem_append_left _ hc)
      rw [ha c (List.mem_append_right _ hc)] at hdigit
      cases hdigit
    simp [hnone]

theorem yearText_inj {y y' : Int} (h : yearText y = yearText y') : y = y' := by
  obtain ⟨sign, htext, hsign, hneg⟩ := toList_yearText y
  obtain ⟨sign', htext', hsign', hneg'⟩ := toList_yearText y'
  rw [← String.toList_inj, htext, htext'] at h
  obtain ⟨rfl, hdigits⟩ := append_inj_of_apart hsign hsign'
    (fun c hc => isDigit_of_mem_zeroPadded hc) (fun c hc => isDigit_of_mem_zeroPadded hc) h
  have habs : y.natAbs = y'.natAbs := zeroPadded_inj (String.toList_inj.mp hdigits)
  have hsame : y < 0 ↔ y' < 0 := hneg.symm.trans hneg'
  omega

/-- What stands before the last hyphen, and what stands behind it. -/
theorem append_hyphen_inj {a a' b b' : List Char} (hb : '-' ∉ b) (hb' : '-' ∉ b')
    (h : a ++ '-' :: b = a' ++ '-' :: b') : a = a' ∧ b = b' := by
  rcases List.append_eq_append_iff.mp h with ⟨rest, rfl, hrest⟩ | ⟨rest, rfl, hrest⟩
  · cases rest with
    | nil => simpa using hrest
    | cons c rest =>
        obtain ⟨rfl, rfl⟩ := List.cons.inj hrest
        exact absurd (by simp) hb
  · cases rest with
    | nil => simpa [eq_comm] using hrest
    | cons c rest =>
        obtain ⟨rfl, rfl⟩ := List.cons.inj hrest
        exact absurd (by simp) hb'

theorem hyphen_not_mem_zeroPadded (width n : Nat) : '-' ∉ (zeroPadded width n).toList := by
  intro hmem
  exact absurd (isDigit_of_mem_zeroPadded hmem) (by decide)

/-- The characters of a date: what stands before its last hyphen, and the day. -/
theorem Date.toList_text (d : Date) : d.text.toList
    = ((yearText d.year).toList ++ '-' :: (zeroPadded 2 d.month).toList)
      ++ '-' :: (zeroPadded 2 d.day).toList := by
  have hhyphen : ("-" : String).toList = ['-'] := rfl
  simp [text, String.toList_append, hhyphen]

/-- **Dates with one text are one date.** -/
theorem Date.text_inj {d d' : Date} (h : d.text = d'.text) : d = d' := by
  rw [← String.toList_inj, toList_text, toList_text] at h
  obtain ⟨hrest, hday⟩ := append_hyphen_inj (hyphen_not_mem_zeroPadded 2 d.day)
    (hyphen_not_mem_zeroPadded 2 d'.day) h
  obtain ⟨hyear, hmonth⟩ := append_hyphen_inj (hyphen_not_mem_zeroPadded 2 d.month)
    (hyphen_not_mem_zeroPadded 2 d'.month) hrest
  obtain ⟨year, month, day⟩ := d
  obtain ⟨year', month', day'⟩ := d'
  obtain rfl := yearText_inj (String.toList_inj.mp hyear)
  obtain rfl := zeroPadded_inj (String.toList_inj.mp hmonth)
  obtain rfl := zeroPadded_inj (String.toList_inj.mp hday)
  rfl

theorem slash_not_mem_yearText (year : Int) : '/' ∉ (yearText year).toList := by
  intro hmem
  unfold yearText at hmem
  have hdigits : ∀ n : Nat, '/' ∉ (zeroPadded 4 n).toList := fun n h =>
    absurd (isDigit_of_mem_zeroPadded h) (by decide)
  split at hmem
  next => exact hdigits _ hmem
  next =>
    rw [String.toList_append, List.mem_append] at hmem
    rcases hmem with hsign | hdigit
    · split at hsign
      · exact absurd hsign (by decide)
      · exact absurd hsign (by decide)
    · exact hdigits _ hdigit

/-- The text of a date is one name, and leads down. -/
theorem Date.isProper_text (d : Date) : Path.IsProper d.text := by
  have hdigits : ∀ n : Nat, '/' ∉ (zeroPadded 2 n).toList := fun n h =>
    absurd (isDigit_of_mem_zeroPadded h) (by decide)
  -- it ends with the last digit of the day
  have hlast : d.text.toList.getLast?
      = some ((zeroPadded 2 d.day).toList.getLast (zeroPadded_ne_nil 2 d.day)) := by
    rw [toList_text, List.getLast?_append, List.getLast?_cons,
      List.getLast?_eq_some_getLast (zeroPadded_ne_nil 2 d.day)]
    rfl
  refine Path.isProper_of_getLast? hlast ?_ ?_
  · intro hpoint
    have hdigit := isDigit_of_mem_zeroPadded (List.getLast_mem (zeroPadded_ne_nil 2 d.day))
    rw [hpoint] at hdigit
    cases hdigit
  · rw [toList_text]
    simp [slash_not_mem_yearText, hdigits]

end Time

/-! ## §2. The directory of an exchange. -/

namespace Archive

open Disk

variable {base target : Path} {date : Time.Date} {id : ExchangeId}

/-- The names of the directory of an exchange, below the base of the archive. -/
def shardNames (date : Time.Date) (id : ExchangeId) : List String :=
  date.text :: (id.text.toList.take shardDepth).map (fun c => String.ofList [c]) ++ [id.text]

theorem isProper_shard {c : Char} (h : ExchangeId.isPathSafeChar c = true) :
    Path.IsProper (String.ofList [c]) := by
  have hne : c ≠ '.' ∧ c ≠ '/' := by
    constructor <;> rintro rfl <;> exact absurd h (by decide)
  refine Path.isProper_of_getLast? (c := c) ?_ hne.1 ?_
  · simp
  · simpa using hne.2.symm

/-- Each of them is one name, and leads down. -/
theorem isProper_shardNames (h : id.isPathSafe = true) :
    ∀ name ∈ shardNames date id, Path.IsProper name := by
  intro name hmem
  simp only [shardNames, List.cons_append, List.mem_cons, List.mem_append, List.mem_map,
    List.not_mem_nil, or_false] at hmem
  rcases hmem with rfl | ⟨c, hc, rfl⟩ | rfl
  · exact date.isProper_text
  · simp only [ExchangeId.isPathSafe, Bool.and_eq_true, List.all_eq_true] at h
    exact isProper_shard (h.2 c (List.mem_of_mem_take hc))
  · exact Store.isProper_text h

/-- An exchange has a directory if its identifier is safe and long enough. -/
theorem shardDirectory_eq_ok : shardDirectory base date id = .ok target ↔
    id.isPathSafe = true ∧ shardDepth ≤ id.text.length
      ∧ target = (shardNames date id).foldl Path.join base := by
  unfold shardDirectory shardNames
  cases hsafe : id.isPathSafe with
  | false => simp
  | true =>
      by_cases hshort : id.text.length < shardDepth
      · have hnot : ¬ shardDepth ≤ id.text.length := Nat.not_le.mpr hshort
        simp [hshort, hnot]
      · simp [hshort, Nat.not_lt.mp hshort, eq_comm]

/-- The directories of exchanges lie six names below the base. -/
theorem length_shardNames (h : shardDepth ≤ id.text.length) :
    (shardNames date id).length = shardDepth + 2 := by
  have hlength : id.text.toList.length = id.text.length := String.length_toList
  simp only [shardNames, List.cons_append, List.length_cons, List.length_append, List.length_map,
    List.length_take, hlength, List.length_nil]
  omega

end Archive

/-! ## §3. Where it lies. -/

/-- A name below a path does not change where the path starts. -/
theorem Path.isAbsolute_join (p : Path) {name : String} (h : isName name = true) :
    (p.join name).isAbsolute = p.isAbsolute := by
  unfold isAbsolute
  rw [text_join p h]
  simp only [isName, Bool.and_eq_true, bne_iff_ne, List.all_eq_true] at h
  by_cases hnone : p.text = ""
  · -- the name takes the place of an empty path, and does not start with a slash
    have hhead : name.toList.head? ≠ some '/' := fun hc => h.2 _ (List.mem_of_mem_head? hc) rfl
    have hjoin : joinText p.text name = name := by simp [joinText, hnone]
    rw [hjoin, hnone]
    simpa using hhead
  · have hchars : p.text.toList ≠ [] := fun hnil =>
      hnone (String.toList_inj.mp (by simpa using hnil))
    have hfront : ∀ behind : String, (p.text ++ behind).toList.head? = p.text.toList.head? := by
      intro behind
      rw [String.toList_append, List.head?_append, List.head?_eq_some_head hchars, Option.some_or]
    have hhead : (joinText p.text name).toList.head? = p.text.toList.head? := by
      unfold joinText
      split
      · exact hfront name
      · rw [String.append_assoc]
        exact hfront ("/" ++ name)
    rw [hhead]

namespace Disk

variable {d : Disk} {base : Path} {names : List String} {p : Place}

/-- Names put below a path are followed where the path has led. -/
theorem steps_foldl_join (h : ∀ name ∈ names, Path.IsProper name) (base : Path) :
    (names.foldl Path.join base).steps = base.steps ++ names
      ∧ (names.foldl Path.join base).isAbsolute = base.isAbsolute := by
  induction names generalizing base with
  | nil => simp
  | cons name rest ih =>
      obtain ⟨hname, hrest⟩ := List.forall_mem_cons.mp h
      obtain ⟨hsteps, habsolute⟩ := ih hrest (base.join name)
      rw [Path.steps_join_of_isName base hname.1] at hsteps
      rw [Path.isAbsolute_join base hname.1] at habsolute
      exact ⟨by simpa using hsteps, habsolute⟩

theorem origin_foldl_join (h : ∀ name ∈ names, Path.IsProper name) (base : Path) :
    d.origin (names.foldl Path.join base) = d.origin base := by
  unfold origin
  rw [(steps_foldl_join h base).2]

/-- **Proper names lie right below the place of their base.** -/
theorem placeOf_foldl_join (h : ∀ name ∈ names, Path.IsProper name) (base : Path) :
    d.placeOf (names.foldl Path.join base) = d.placeOf base ++ names := by
  unfold placeOf
  rw [(steps_foldl_join h base).1, origin_foldl_join h base, List.foldl_append,
    foldl_follow_of_proper fun name hmem => (h name hmem).2]

theorem placeOf_join {name : String} (h : Path.IsProper name) (base : Path) :
    d.placeOf (base.join name) = d.placeOf base ++ [name] :=
  placeOf_foldl_join (List.forall_mem_singleton.mpr h) base

/-- The way to names below a base leads along the way of the base, and from there down. -/
theorem onWay_foldl_join (h : ∀ name ∈ names, Path.IsProper name)
    (hp : OnWay (d.origin (names.foldl Path.join base)) (names.foldl Path.join base).steps p) :
    OnWay (d.origin base) base.steps p
      ∨ ∃ front, front ≠ [] ∧ front <+: names ∧ p = d.placeOf base ++ front := by
  rw [(steps_foldl_join h base).1, origin_foldl_join h base] at hp
  obtain ⟨first, hne, hfirst, rfl⟩ := hp
  rcases Nat.le_total first.length base.steps.length with hshort | hlong
  · have hbase : first <+: base.steps :=
      List.prefix_of_prefix_length_le hfirst (List.prefix_append ..) hshort
    exact Or.inl ⟨first, hne, hbase, rfl⟩
  · obtain ⟨front, rfl⟩ : base.steps <+: first :=
      List.prefix_of_prefix_length_le (List.prefix_append ..) hfirst hlong
    have hfront : front <+: names := (List.prefix_append_right_inj base.steps).mp hfirst
    have hplace : (base.steps ++ front).foldl follow (d.origin base) = d.placeOf base ++ front := by
      rw [List.foldl_append]
      exact foldl_follow_of_proper fun name hmem => (h name (hfront.subset hmem)).2
    rw [hplace]
    by_cases hnone : front = []
    · -- this is the base itself
      subst hnone
      rw [List.append_nil] at hne ⊢
      exact Or.inl ⟨base.steps, hne, List.prefix_rfl, rfl⟩
    · exact Or.inr ⟨front, hnone, hfront, rfl⟩

end Disk

namespace Archive

variable {d : Disk} {base target target' : Path} {date date' : Time.Date} {id id' : ExchangeId}

theorem place_of_shardDirectory (h : shardDirectory base date id = .ok target) :
    d.placeOf target = d.placeOf base ++ shardNames date id := by
  obtain ⟨hsafe, -, rfl⟩ := shardDirectory_eq_ok.mp h
  exact Disk.placeOf_foldl_join (isProper_shardNames hsafe) base

/-- **The directory of an exchange lies in no other and is no other**: where one lies in
another, dates and identifiers are the same. -/
theorem shardDirectory_apart (h : shardDirectory base date id = .ok target)
    (h' : shardDirectory base date' id' = .ok target')
    (hin : d.placeOf target <+: d.placeOf target') : date = date' ∧ id = id' := by
  rw [place_of_shardDirectory h, place_of_shardDirectory h', List.prefix_append_right_inj] at hin
  have hnames : shardNames date id = shardNames date' id' := by
    apply hin.eq_of_length
    rw [length_shardNames (shardDirectory_eq_ok.mp h).2.1,
      length_shardNames (shardDirectory_eq_ok.mp h').2.1]
  -- the first name is the date, and the last the identifier
  have hfirst := congrArg List.head? hnames
  have hlast := congrArg List.getLast? hnames
  simp only [shardNames, List.cons_append, List.head?_cons, Option.some.injEq] at hfirst
  simp only [shardNames, List.getLast?_append, List.getLast?_singleton, Option.some_or,
    Option.some.injEq] at hlast
  exact ⟨Time.Date.text_inj hfirst, ExchangeId.text_inj.mp hlast⟩

end Archive

end Wiretap
