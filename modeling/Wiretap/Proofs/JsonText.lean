/-
  Wiretap.Proofs.JsonText
  ───────────────────────
  **JSON TEXT IS READ BACK.**

  A reader of JSON text without blanks, strict in what it takes: escapes are resolved, control
  characters inside a string are refused, and a number is what the grammar calls one, kept as it
  is written.  Whatever value is printed, the reader gives it back with no character left over,
  and the text has no control character in it:

    • `readText_append`   — a string of any characters is read up to its closing quote,
    • `readValue_chars`   — a value is read, and what is behind it is left over,
    • `read?_render`      — so the text of a value is read as that value,
    • `printable_chars`   — and it stays on one line.
-/
import Mathlib.Tactic.SplitIfs
import Wiretap.Proofs.JsonNumbers

namespace Wiretap.Json

/-! ## §1. What a text says. -/

/-- What a JSON text says, with numbers as they are written. -/
inductive Tree
  | null
  | bool (b : Bool)
  | number (token : List Char)
  | text (s : String)
  | array (items : List Tree)
  | object (members : List (String × Tree))

mutual

/-- What the text of a value says. -/
def tree : Json → Tree
  | .null => .null
  | .bool b => .bool b
  | .natural n => .number (Decimal.digitText n)
  | .double x => .number (doubleText x)
  | .text s => .text s
  | .array items => .array (itemTrees items)
  | .object members => .object (memberTrees members)

/-- What the texts of items say. -/
def itemTrees : List Json → List Tree
  | [] => []
  | v :: rest => tree v :: itemTrees rest

/-- What the texts of members say. -/
def memberTrees : List (String × Json) → List (String × Tree)
  | [] => []
  | (name, v) :: rest => (name, tree v) :: memberTrees rest

end

theorem itemTrees_eq_map (items : List Json) : itemTrees items = items.map tree := by
  induction items with
  | nil => rfl
  | cons v rest ih => rw [itemTrees, ih, List.map_cons]

/-! ## §2. Reading strings. -/

/-- The value of a hexadecimal digit. -/
def hexValue? (c : Char) : Option Nat :=
  if c.isDigit then some (c.toNat - 48)
  else if 'a' ≤ c ∧ c ≤ 'f' then some (c.toNat - 87)
  else if 'A' ≤ c ∧ c ≤ 'F' then some (c.toNat - 55)
  else none

/-- The character of a Unicode escape; half a surrogate pair is none. -/
def fromHex? (a b c d : Char) : Option Char := do
  let high := (← hexValue? a) * 16 + (← hexValue? b)
  let low := (← hexValue? c) * 16 + (← hexValue? d)
  let code := high * 256 + low
  if code.isValidChar then some (Char.ofNat code) else none

/-- The character that an escape of one letter stands for. -/
def fromLetter? : Char → Option Char
  | '"' => some '"'
  | '\\' => some '\\'
  | '/' => some '/'
  | 'b' => some (Char.ofNat 8)
  | 'f' => some (Char.ofNat 12)
  | 'n' => some '\n'
  | 'r' => some '\r'
  | 't' => some '\t'
  | _ => none

/-- What a reader of strings gives, with one character more in front. -/
def withChar (c : Char) (read : Option (List Char × List Char)) : Option (List Char × List Char) :=
  read.map fun (chars, rest) => (c :: chars, rest)

/-- The characters of a string up to its closing quote, and what is behind that. -/
def readText : List Char → Option (List Char × List Char)
  | [] => none
  | '"' :: rest => some ([], rest)
  | '\\' :: 'u' :: a :: b :: c :: d :: rest =>
    (fromHex? a b c d).bind fun char => withChar char (readText rest)
  | '\\' :: letter :: rest =>
    (fromLetter? letter).bind fun char => withChar char (readText rest)
  | c :: rest => if c.toNat < 32 then none else withChar c (readText rest)

/-- The Unicode escape of a control character stands for it. -/
theorem readText_unicode {c : Char} (h : c.toNat < 32) (rest : List Char) :
    readText ('\\' :: 'u' :: Text.hexFixed 4 c.toNat ++ rest) = withChar c (readText rest) := by
  have hread : ∀ n : Fin 32,
      fromHex? (Text.hexDigit (n / 16 / 16 / 16 % 16)) (Text.hexDigit (n / 16 / 16 % 16))
        (Text.hexDigit (n / 16 % 16)) (Text.hexDigit (n % 16)) = some (Char.ofNat n) := by decide
  have hc := hread ⟨c.toNat, h⟩
  simp only [Char.ofNat_toNat] at hc
  show readText ('\\' :: 'u' :: Text.hexDigit (c.toNat / 16 / 16 / 16 % 16)
    :: Text.hexDigit (c.toNat / 16 / 16 % 16) :: Text.hexDigit (c.toNat / 16 % 16)
    :: Text.hexDigit (c.toNat % 16) :: rest) = _
  rw [readText, hc, Option.bind_some]

theorem readText_letter {letter c c' : Char} (hc : c = c') (h : fromLetter? letter = some c')
    (hu : letter ≠ 'u') (rest : List Char) :
    readText ('\\' :: letter :: rest) = withChar c (readText rest) := by
  rw [readText, h, hc, Option.bind_some]
  rintro _ _ _ _ _ rfl
  exact absurd rfl hu

theorem readText_plain {c : Char} (hquote : c ≠ '"') (hslash : c ≠ '\\') (hcontrol : ¬c.toNat < 32)
    (rest : List Char) : readText (c :: rest) = withChar c (readText rest) := by
  rw [readText, if_neg hcontrol]
  · exact hquote
  · rintro _ _ _ _ _ rfl
    exact absurd rfl hslash
  · rintro _ _ rfl
    exact absurd rfl hslash

/-- What is printed for a character is read as that character. -/
theorem readText_charText (c : Char) (rest : List Char) :
    readText (charText c ++ rest) = withChar c (readText rest) := by
  unfold charText
  split_ifs with hquote hslash hline hreturn htab hback hfeed hcontrol
  · exact readText_letter hquote rfl (by decide) rest
  · exact readText_letter hslash rfl (by decide) rest
  · exact readText_letter hline rfl (by decide) rest
  · exact readText_letter hreturn rfl (by decide) rest
  · exact readText_letter htab rfl (by decide) rest
  · exact readText_letter hback rfl (by decide) rest
  · exact readText_letter hfeed rfl (by decide) rest
  · exact readText_unicode hcontrol rest
  · exact readText_plain hquote hslash hcontrol rest

/-- A string of any characters is read up to its closing quote. -/
theorem readText_append (chars rest : List Char) :
    readText (chars.flatMap charText ++ '"' :: rest) = some (chars, rest) := by
  induction chars with
  | nil => rfl
  | cons c chars ih =>
      rw [List.flatMap_cons, List.append_assoc, readText_charText, ih]
      rfl

/-! ## §3. Reading values. -/

/-- A word that is a value. -/
def readWord : List Char → Option (Tree × List Char)
  | 'n' :: 'u' :: 'l' :: 'l' :: rest => some (.null, rest)
  | 't' :: 'r' :: 'u' :: 'e' :: rest => some (.bool true, rest)
  | 'f' :: 'a' :: 'l' :: 's' :: 'e' :: rest => some (.bool false, rest)
  | _ => none

/-- A name with the colon behind it. -/
def readName : List Char → Option (String × List Char)
  | '"' :: rest =>
    match readText rest with
    | some (name, ':' :: rest) => some (String.ofList name, rest)
    | _ => none
  | _ => none

mutual

/-- A value, and what is behind it; `fuel` bounds the calls. -/
def readValue : (fuel : Nat) → List Char → Option (Tree × List Char)
  | 0, _ => none
  | _, [] => none
  | fuel + 1, c :: rest =>
    if isNumberChar c then
      let token := (c :: rest).takeWhile isNumberChar
      if isNumber token then some (.number token, (c :: rest).dropWhile isNumberChar) else none
    else if c = '"' then (readText rest).map fun (s, rest) => (.text (String.ofList s), rest)
    else if c = '[' then
      if rest.head? = some ']' then some (.array [], rest.tail)
      else (readItems fuel rest).map fun (items, rest) => (.array items, rest)
    else if c = Char.ofNat 0x7B then
      if rest.head? = some (Char.ofNat 0x7D) then some (.object [], rest.tail)
      else (readMembers fuel rest).map fun (members, rest) => (.object members, rest)
    else readWord (c :: rest)

/-- Items up to the closing bracket. -/
def readItems : (fuel : Nat) → List Char → Option (List Tree × List Char)
  | 0, _ => none
  | fuel + 1, cs =>
    match readValue fuel cs with
    | some (v, c :: rest) =>
      if c = ']' then some ([v], rest)
      else if c = ',' then (readItems fuel rest).map fun (items, rest) => (v :: items, rest)
      else none
    | _ => none

/-- Members up to the closing brace. -/
def readMembers : (fuel : Nat) → List Char → Option (List (String × Tree) × List Char)
  | 0, _ => none
  | fuel + 1, cs =>
    match readName cs with
    | none => none
    | some (name, rest) =>
      match readValue fuel rest with
      | some (v, c :: rest) =>
        if c = Char.ofNat 0x7D then some ([(name, v)], rest)
        else if c = ',' then
          (readMembers fuel rest).map fun (members, rest) => ((name, v) :: members, rest)
        else none
      | _ => none

end

theorem readValue_number {token rest : List Char} (h : isNumber token = true)
    (hrest : Past isNumberChar rest) (fuel : Nat) :
    readValue (fuel + 1) (token ++ rest) = some (.number token, rest) := by
  have hall := isNumberChar_of_isNumber h
  obtain ⟨htake, hdrop⟩ := span_append_of_past hall hrest
  cases token with
  | nil => cases h
  | cons c token =>
      have hc := hall c (List.mem_cons_self ..)
      rw [List.cons_append] at htake hdrop ⊢
      rw [readValue, if_pos hc, htake, hdrop, if_pos h]

theorem readValue_quote (fuel : Nat) (s : String) (rest : List Char) :
    readValue (fuel + 1) (stringText s ++ rest) = some (.text s, rest) := by
  show readValue (fuel + 1) ('"' :: (s.toList.flatMap charText ++ ['"'] ++ rest)) = _
  rw [List.append_assoc, readValue, if_neg (by decide), if_pos rfl, List.singleton_append,
    readText_append]
  simp

theorem readName_stringText (name : String) (rest : List Char) :
    readName (stringText name ++ ':' :: rest) = some (name, rest) := by
  show readName ('"' :: (name.toList.flatMap charText ++ ['"'] ++ ':' :: rest)) = _
  rw [List.append_assoc, List.singleton_append, readName, readText_append]
  simp

/-- No value starts with a closing bracket. -/
theorem readValue_bracket (fuel : Nat) (rest : List Char) :
    readValue fuel (']' :: rest) = none := by
  cases fuel <;> rfl

theorem readValue_array {fuel : Nat} {items : List Tree} {cs rest : List Char}
    (h : readItems fuel cs = some (items, rest)) :
    readValue (fuel + 1) ('[' :: cs) = some (.array items, rest) := by
  have hopen : cs.head? ≠ some ']' := by
    intro hhead
    obtain ⟨tail, rfl⟩ := List.head?_eq_some_iff.mp hhead
    cases fuel with
    | zero => cases h
    | succ fuel =>
        rw [readItems, readValue_bracket] at h
        cases h
  rw [readValue, if_neg (by decide), if_neg (by decide), if_pos rfl, if_neg hopen, h]
  rfl

theorem readValue_object {fuel : Nat} {members : List (String × Tree)} {cs rest : List Char}
    (h : readMembers fuel cs = some (members, rest)) :
    readValue (fuel + 1) (Char.ofNat 0x7B :: cs) = some (.object members, rest) := by
  have hopen : cs.head? ≠ some (Char.ofNat 0x7D) := by
    intro hhead
    obtain ⟨tail, rfl⟩ := List.head?_eq_some_iff.mp hhead
    cases fuel with
    | zero => cases h
    | succ fuel => cases h
  rw [readValue, if_neg (by decide), if_neg (by decide), if_neg (by decide), if_pos rfl,
    if_neg hopen, h]
  rfl

mutual

/-- What is printed for a value is read as what it says, with the rest left over. -/
theorem readValue_chars : ∀ (v : Json) (fuel : Nat) (rest : List Char),
    2 * v.chars.length + 1 ≤ fuel → Past isNumberChar rest →
      readValue fuel (v.chars ++ rest) = some (v.tree, rest)
  | .null, fuel + 1, rest, _, _ => rfl
  | .bool true, fuel + 1, rest, _, _ => rfl
  | .bool false, fuel + 1, rest, _, _ => rfl
  | .natural n, fuel + 1, rest, _, hrest => readValue_number (isNumber_digitText n) hrest fuel
  | .double x, fuel + 1, rest, _, hrest => readValue_number (isNumber_doubleText x) hrest fuel
  | .text s, fuel + 1, rest, _, _ => readValue_quote fuel s rest
  | .array [], fuel + 1, rest, _, _ => rfl
  | .array (v :: items), fuel + 1, rest, hfuel, _ => by
      have hitems := readItems_chars (v :: items) fuel rest (List.cons_ne_nil _ _)
        (by simp only [chars, List.length_append, List.length_cons] at hfuel; omega)
      show readValue (fuel + 1) ('[' :: (itemChars (v :: items) ++ [']'] ++ rest)) = _
      rw [List.append_assoc]
      exact readValue_array hitems
  | .object [], fuel + 1, rest, _, _ => rfl
  | .object (m :: members), fuel + 1, rest, hfuel, _ => by
      have hmembers := readMembers_chars (m :: members) fuel rest (List.cons_ne_nil _ _)
        (by simp only [chars, List.length_append, List.length_cons] at hfuel; omega)
      show readValue (fuel + 1)
        (Char.ofNat 0x7B :: (memberChars (m :: members) ++ [Char.ofNat 0x7D] ++ rest)) = _
      rw [List.append_assoc]
      exact readValue_object hmembers

/-- What is printed for items is read up to the closing bracket. -/
theorem readItems_chars : ∀ (items : List Json) (fuel : Nat) (rest : List Char), items ≠ [] →
    2 * (itemChars items).length + 2 ≤ fuel →
      readItems fuel (itemChars items ++ ']' :: rest) = some (itemTrees items, rest)
  | [v], fuel + 1, rest, _, hfuel => by
      have hv := readValue_chars v fuel (']' :: rest)
        (by simp only [itemChars] at hfuel; omega) (.cons rfl rest)
      simp only [readItems, itemChars, hv, itemTrees, if_true]
  | v :: w :: items, fuel + 1, rest, _, hfuel => by
      simp only [itemChars, List.length_append, List.length_cons] at hfuel
      have hv := readValue_chars v fuel (',' :: (itemChars (w :: items) ++ ']' :: rest))
        (by omega) (.cons rfl _)
      have hitems := readItems_chars (w :: items) fuel rest (List.cons_ne_nil _ _) (by omega)
      rw [itemChars, List.append_assoc, List.cons_append]
      simp only [readItems, hv, hitems]
      rfl

/-- What is printed for members is read up to the closing brace. -/
theorem readMembers_chars : ∀ (members : List (String × Json)) (fuel : Nat) (rest : List Char),
    members ≠ [] → 2 * (memberChars members).length + 2 ≤ fuel →
      readMembers fuel (memberChars members ++ Char.ofNat 0x7D :: rest)
        = some (memberTrees members, rest)
  | [(name, v)], fuel + 1, rest, _, hfuel => by
      simp only [memberChars, List.length_append, List.length_cons] at hfuel
      have hv := readValue_chars v fuel (Char.ofNat 0x7D :: rest) (by omega)
        (.cons rfl rest)
      rw [memberChars, List.append_assoc, List.cons_append]
      simp only [readMembers, readName_stringText, hv, memberTrees, if_true]
  | (name, v) :: m :: members, fuel + 1, rest, _, hfuel => by
      simp only [memberChars, List.length_append, List.length_cons] at hfuel
      have hv := readValue_chars v fuel
        (',' :: (memberChars (m :: members) ++ Char.ofNat 0x7D :: rest)) (by omega)
        (.cons rfl _)
      have hmembers := readMembers_chars (m :: members) fuel rest (List.cons_ne_nil _ _) (by omega)
      rw [memberChars, List.append_assoc, List.append_assoc, List.cons_append, List.cons_append]
      simp only [readMembers, readName_stringText, hv, hmembers]
      rfl

end

/-- The value that a text says, if it is the text of one value. -/
def read? (text : String) : Option Tree :=
  match readValue (2 * text.toList.length + 1) text.toList with
  | some (v, []) => some v
  | _ => none

/-- The text of a value is read as what it says. -/
theorem read?_render (v : Json) : read? v.render = some v.tree := by
  have hread := readValue_chars v (2 * v.chars.length + 1) [] (Nat.le_refl _) (fun _ h => nomatch h)
  rw [List.append_nil] at hread
  simp only [read?, render, String.toList_ofList, hread]

/-! ## §4. No control characters. -/

/-- A text without control characters of ASCII, and so without line ends. -/
def Printable (cs : List Char) : Prop := ∀ c ∈ cs, 32 ≤ c.toNat

instance (cs : List Char) : Decidable (Printable cs) :=
  List.decidableBAll (fun c : Char => 32 ≤ c.toNat) cs

theorem Printable.append {cs ds : List Char} (h : Printable cs) (h' : Printable ds) :
    Printable (cs ++ ds) :=
  fun c hc => (List.mem_append.mp hc).elim (h c) (h' c)

theorem Printable.cons {c : Char} {cs : List Char} (h : 32 ≤ c.toNat) (h' : Printable cs) :
    Printable (c :: cs) := by
  rintro d (_ | ⟨_, hd⟩)
  · exact h
  · exact h' d hd

theorem Printable.nil : Printable [] := fun _ hc => nomatch hc

theorem printable_of_isNumber {token : List Char} (h : isNumber token = true) :
    Printable token := by
  intro c hc
  have hchar := isNumberChar_of_isNumber h c hc
  simp only [isNumberChar, Bool.or_eq_true, beq_iff_eq] at hchar
  rcases hchar with ((((hdigit | rfl) | rfl) | rfl) | rfl) | rfl
  · have : '0'.toNat ≤ c.toNat := (Char.isDigit_iff_toNat.mp hdigit).1
    exact Nat.le_trans (by decide) this
  all_goals decide

theorem printable_charText (c : Char) : Printable (charText c) := by
  have hletter : ∀ d : Char, 32 ≤ d.toNat → Printable ['\\', d] := fun d hd =>
    .cons (by decide) (.cons hd .nil)
  unfold charText
  split_ifs with hquote hslash hline hreturn htab hback hfeed hcontrol
  · exact hletter _ (by decide)
  · exact hletter _ (by decide)
  · exact hletter _ (by decide)
  · exact hletter _ (by decide)
  · exact hletter _ (by decide)
  · exact hletter _ (by decide)
  · exact hletter _ (by decide)
  · have hdigits : ∀ n : Fin 32, Printable (Text.hexFixed 4 n) := by decide
    exact .cons (by decide) (.cons (by decide) (hdigits ⟨c.toNat, hcontrol⟩))
  · exact .cons (Nat.not_lt.mp hcontrol) .nil

theorem printable_stringText (s : String) : Printable (stringText s) := by
  refine .cons (by decide) (.append (fun c hc => ?_) (.cons (by decide) .nil))
  obtain ⟨d, -, hd⟩ := List.mem_flatMap.mp hc
  exact printable_charText d c hd

mutual

/-- No control character is printed, whatever strings a value has. -/
theorem printable_chars : ∀ v : Json, Printable v.chars
  | .null => by decide
  | .bool true => by decide
  | .bool false => by decide
  | .natural n => printable_of_isNumber (isNumber_digitText n)
  | .double x => printable_of_isNumber (isNumber_doubleText x)
  | .text s => printable_stringText s
  | .array items =>
      .cons (by decide) (.append (printable_itemChars items) (.cons (by decide) .nil))
  | .object members =>
      .cons (by decide) (.append (printable_memberChars members) (.cons (by decide) .nil))

theorem printable_itemChars : ∀ items : List Json, Printable (itemChars items)
  | [] => .nil
  | [v] => printable_chars v
  | v :: w :: rest =>
      .append (printable_chars v) (.cons (by decide) (printable_itemChars (w :: rest)))

theorem printable_memberChars : ∀ members : List (String × Json), Printable (memberChars members)
  | [] => .nil
  | [(name, v)] => .append (printable_stringText name) (.cons (by decide) (printable_chars v))
  | (name, v) :: m :: rest =>
      .append
        (.append (printable_stringText name) (.cons (by decide) (printable_chars v)))
        (.cons (by decide) (printable_memberChars (m :: rest)))

end

end Wiretap.Json
