import WaylandWebStream.Lib.Utf8

/-!
# JSON — values, what a text layer owes them, and a compact one

A value is what a derived deserializer looks at: an object keeps its
fields in order, duplicates included. Arrays and fractions are left out.
`TextLayer` is the contract of a printer and a parser that belong
together; `compact` is one, without whitespace, whose parser inverts its
printer (`parseValue_print`, by induction on the value).
-/

namespace WaylandWebStream

namespace Json

/-- The integers a JSON number keeps: what an `i64` or a `u64` holds. -/
structure Number where
  val : ℤ
  inRange : -2 ^ 63 ≤ val ∧ val < 2 ^ 64
  deriving DecidableEq

/-- A JSON value. -/
inductive Value
  | null
  | bool (b : Bool)
  | num (n : Number)
  | str (s : String)
  | obj (fields : List (String × Value))

/-- A number from an integer in range. -/
def Value.int (n : ℤ) (h : -2 ^ 63 ≤ n ∧ n < 2 ^ 64) : Value := .num ⟨n, h⟩

mutual

/-- How deep the objects nest. -/
def Value.depth : Value → ℕ
  | .obj fields => Value.depthFields fields + 1
  | _ => 0

def Value.depthFields : List (String × Value) → ℕ
  | [] => 0
  | (_, v) :: fields => max v.depth (Value.depthFields fields)

end

/-- The value of a field, where the object has exactly one of that name. -/
def field? (fields : List (String × Value)) (name : String) : Option Value :=
  match fields.filter fun f => f.1 = name with
  | [(_, v)] => some v
  | _ => none

/-- **A printer and a parser that belong together**, on values that do
not nest deeper than parsers allow. -/
structure TextLayer where
  toVec : Value → Bytes
  fromSlice : Bytes → Option Value
  fromSlice_toVec : ∀ v, v.depth < 128 → fromSlice (toVec v) = some v

/-! ## Compact text -/

def quote : Char := Char.ofNat 0x22
def backslash : Char := Char.ofNat 0x5C
def openBrace : Char := Char.ofNat 0x7B
def closeBrace : Char := Char.ofNat 0x7D

/-- The escapes of one letter. -/
def shortEscape (c : Char) : Option Char :=
  if c = quote then some quote
  else if c = backslash then some backslash
  else if c.toNat = 0x08 then some 'b'
  else if c.toNat = 0x09 then some 't'
  else if c.toNat = 0x0A then some 'n'
  else if c.toNat = 0x0C then some 'f'
  else if c.toNat = 0x0D then some 'r'
  else none

/-- One character of a string: escaped where it has to be. -/
def escape (c : Char) : List Char :=
  match shortEscape c with
  | some e => [backslash, e]
  | none =>
    if c.toNat < 0x20 then
      [backslash, 'u', '0', '0', (c.toNat / 16).digitChar, (c.toNat % 16).digitChar]
    else [c]

def quoted (s : String) : List Char := quote :: s.toList.flatMap escape ++ [quote]

mutual

/-- The text of a value, no whitespace in it. -/
def print : Value → List Char
  | .null => ['n', 'u', 'l', 'l']
  | .bool true => ['t', 'r', 'u', 'e']
  | .bool false => ['f', 'a', 'l', 's', 'e']
  | .num n => (if n.val < 0 then ['-'] else []) ++ Nat.toDigits 10 n.val.natAbs
  | .str s => quoted s
  | .obj fields => openBrace :: printFields true fields

/-- The rest of an object, from a field on. -/
def printFields (first : Bool) : List (String × Value) → List Char
  | [] => [closeBrace]
  | (name, v) :: fields => (if first then [] else [',']) ++ quoted name ++ ':' :: print v ++
      printFields false fields

end

/-- The character after a backslash, where one letter says it all. -/
def unescape (e : Char) : Option Char :=
  if e = quote then some quote
  else if e = backslash then some backslash
  else if e = '/' then some '/'
  else if e = 'b' then some (Char.ofNat 0x08)
  else if e = 't' then some (Char.ofNat 0x09)
  else if e = 'n' then some (Char.ofNat 0x0A)
  else if e = 'f' then some (Char.ofNat 0x0C)
  else if e = 'r' then some (Char.ofNat 0x0D)
  else none

/-- The value of a lower-case hexadecimal digit. -/
def hexVal (c : Char) : ℕ := if c.isDigit then c.toNat - 48 else c.toNat - 87

/-- The string up to its closing quote, and what follows it. A four-digit
escape is read as far as the compact printer writes them. -/
def readString : List Char → Option (List Char × List Char)
  | [] => none
  | c :: cs =>
    if c = quote then some ([], cs)
    else if c = backslash then
      match cs with
      | [] => none
      | e :: rest =>
        match unescape e with
        | some d => (readString rest).map fun (s, r) => (d :: s, r)
        | none =>
          match rest with
          | '0' :: '0' :: h :: l :: rest' =>
            if e = 'u' then (readString rest').map fun (s, r) =>
              (Char.ofNat (16 * hexVal h + hexVal l) :: s, r)
            else none
          | _ => none
    else (readString cs).map fun (s, r) => (c :: s, r)

/-- What is left after a fixed word. -/
def keyword (w cs : List Char) : Option (List Char) :=
  if w.isPrefixOf cs then some (cs.drop w.length) else none

/-- An integer, and what follows it. -/
def readNumber (negative : Bool) (cs : List Char) : Option (Value × List Char) :=
  let digits := cs.takeWhile Char.isDigit
  let n : ℤ := Nat.ofDigitChars 10 digits 0
  let val := if negative then -n else n
  if digits = [] then none
  else if h : -2 ^ 63 ≤ val ∧ val < 2 ^ 64 then some (.num ⟨val, h⟩, cs.dropWhile Char.isDigit)
  else none

mutual

/-- A value, and what follows it; the fuel bounds the values read. -/
def parseValue : ℕ → List Char → Option (Value × List Char)
  | 0, _ => none
  | _, [] => none
  | n + 1, c :: cs =>
    if c = quote then (readString cs).map fun (s, r) => (.str (String.ofList s), r)
    else if c = openBrace then (parseFields n true cs).map fun (fs, r) => (.obj fs, r)
    else if c = 'n' then (keyword ['u', 'l', 'l'] cs).map fun r => (.null, r)
    else if c = 't' then (keyword ['r', 'u', 'e'] cs).map fun r => (.bool true, r)
    else if c = 'f' then (keyword ['a', 'l', 's', 'e'] cs).map fun r => (.bool false, r)
    else if c = '-' then readNumber true cs
    else readNumber false (c :: cs)

/-- The rest of an object, from a field on. -/
def parseFields : ℕ → Bool → List Char → Option (List (String × Value) × List Char)
  | 0, _, _ => none
  | n + 1, first, cs => do
    if let some r := keyword [closeBrace] cs then
      return ([], r)
    let r ← if first then some cs else keyword [','] cs
    let r ← keyword [quote] r
    let (name, r) ← readString r
    let r ← keyword [':'] r
    let (v, r) ← parseValue n r
    let (fields, r) ← parseFields n false r
    return ((String.ofList name, v) :: fields, r)

end

/-! ### Strings -/

theorem unescape_shortEscape {c e : Char} (h : shortEscape c = some e) : unescape e = some c := by
  have hchar : ∀ n, c.toNat = n → c = Char.ofNat n := fun n hn => by
    rw [← hn, Char.ofNat_toNat]
  unfold shortEscape at h
  split at h
  · rename_i hc; cases h; rw [hc]; rfl
  split at h
  · rename_i hc; cases h; rw [hc]; rfl
  split at h
  · rename_i hc; cases h; rw [hchar _ hc]; rfl
  split at h
  · rename_i hc; cases h; rw [hchar _ hc]; rfl
  split at h
  · rename_i hc; cases h; rw [hchar _ hc]; rfl
  split at h
  · rename_i hc; cases h; rw [hchar _ hc]; rfl
  split at h
  · rename_i hc; cases h; rw [hchar _ hc]; rfl
  · cases h

theorem hexVal_digitChar : ∀ d, d < 16 → hexVal d.digitChar = d := by decide

/-- **What `escape` writes of a character reads as the character.** -/
theorem readString_escape (c : Char) (cs : List Char) :
    readString (escape c ++ cs) = (readString cs).map fun (s, r) => (c :: s, r) := by
  have hbackslash : backslash ≠ quote := by decide
  unfold escape
  cases hs : shortEscape c with
  | some e =>
    show readString (backslash :: e :: cs) = _
    rw [readString.eq_def]
    simp only [hbackslash, if_false, if_true, unescape_shortEscape hs]
  | none =>
    by_cases hc : c.toNat < 0x20
    · -- a control character without a letter of its own
      have hu : unescape 'u' = none := by decide
      have hval : Char.ofNat (16 * (c.toNat / 16) + c.toNat % 16) = c := by
        rw [Nat.div_add_mod, Char.ofNat_toNat]
      show readString ((if c.toNat < 0x20 then _ else [c]) ++ cs) = _
      rw [if_pos hc]
      show readString (backslash :: 'u' :: '0' :: '0' :: (c.toNat / 16).digitChar ::
        (c.toNat % 16).digitChar :: cs) = _
      rw [readString.eq_def]
      simp only [hbackslash, if_false, if_true, hu]
      rw [hexVal_digitChar _ (by omega), hexVal_digitChar _ (by omega), hval]
    · have hquote : c ≠ quote := by
        rintro rfl
        exact absurd hs (by decide)
      have hslash : c ≠ backslash := by
        rintro rfl
        exact absurd hs (by decide)
      show readString ((if c.toNat < 0x20 then _ else [c]) ++ cs) = _
      rw [if_neg hc, List.singleton_append, readString.eq_def]
      simp only [hquote, hslash, if_false]

theorem readString_escaped (s cs : List Char) :
    readString (s.flatMap escape ++ quote :: cs) = some (s, cs) := by
  induction s with
  | nil =>
    rw [List.flatMap_nil, List.nil_append, readString.eq_def]
    rfl
  | cons c s ih => rw [List.flatMap_cons, List.append_assoc, readString_escape, ih]; rfl

/-! ### Numbers -/

/-- What follows a value does not go on with a digit. -/
def Ends (cs : List Char) : Prop := ∀ c, cs.head? = some c → c.isDigit = false

theorem readNumber_toDigits (negative : Bool) (n : ℕ) {cs : List Char} (hcs : Ends cs)
    (hn : -2 ^ 63 ≤ (if negative then -(n : ℤ) else n) ∧
      (if negative then -(n : ℤ) else n) < 2 ^ 64) :
    readNumber negative (Nat.toDigits 10 n ++ cs) = some (.num ⟨_, hn⟩, cs) := by
  have hdigits : ∀ c ∈ Nat.toDigits 10 n, c.isDigit = true := fun c hc =>
    Nat.isDigit_of_mem_toDigits (by omega) (by omega) hc
  have hrest : cs.takeWhile Char.isDigit = [] ∧ cs.dropWhile Char.isDigit = cs := by
    cases cs with
    | nil => exact ⟨rfl, rfl⟩
    | cons c cs => simp [hcs c rfl]
  have htake : (Nat.toDigits 10 n ++ cs).takeWhile Char.isDigit = Nat.toDigits 10 n := by
    rw [List.takeWhile_append_of_pos hdigits, hrest.1, List.append_nil]
  have hdrop : (Nat.toDigits 10 n ++ cs).dropWhile Char.isDigit = cs := by
    rw [List.dropWhile_append_of_pos hdigits, hrest.2]
  unfold readNumber
  simp only [htake, hdrop, Nat.toDigits_ne_nil, if_false, Nat.ofDigitChars_ten_toDigits]
  rw [dif_pos hn]

/-! ### Values -/

mutual

/-- How many values there are to read, the fuel reading takes. -/
def size : Value → ℕ
  | .obj fields => sizeFields fields + 1
  | _ => 1

def sizeFields : List (String × Value) → ℕ
  | [] => 1
  | (_, v) :: fields => size v + sizeFields fields + 1

end

theorem keyword_append (w cs : List Char) : keyword w (w ++ cs) = some cs := by
  simp [keyword]

theorem keyword_cons (c : Char) (cs : List Char) : keyword [c] (c :: cs) = some cs :=
  keyword_append [c] cs

theorem ends_printFields (fields : List (String × Value)) (cs : List Char) :
    Ends (printFields false fields ++ cs) := by
  intro c hc
  cases fields with
  | nil =>
    cases hc
    rfl
  | cons f fields =>
    cases hc
    rfl

/-- The first character of a number is none that starts another value. -/
theorem digit_ne {c : Char} (hc : c.isDigit = true) : c ≠ quote ∧ c ≠ openBrace ∧ c ≠ 'n' ∧
    c ≠ 't' ∧ c ≠ 'f' ∧ c ≠ '-' := by
  refine ⟨?_, ?_, ?_, ?_, ?_, ?_⟩ <;>
    · rintro rfl
      exact absurd hc (by decide)

theorem parseValue_num (n : ℕ) (x : Number) {cs : List Char} (hcs : Ends cs) :
    parseValue (n + 1) (print (.num x) ++ cs) = some (.num x, cs) := by
  obtain ⟨val, hval⟩ := x
  by_cases hneg : val < 0
  · have habs : -((val.natAbs : ℕ) : ℤ) = val := by omega
    have hread := readNumber_toDigits true val.natAbs hcs
      (by simpa only [habs, Bool.false_eq_true, if_true, if_false] using hval)
    simp only [print, if_pos hneg]
    show parseValue (n + 1) ('-' :: (Nat.toDigits 10 val.natAbs ++ cs)) = _
    rw [parseValue]
    simp only [show '-' ≠ quote by decide, show '-' ≠ openBrace by decide,
      show '-' ≠ 'n' by decide, show '-' ≠ 't' by decide, show '-' ≠ 'f' by decide, if_false,
      if_true, hread, habs]
  · have habs : ((val.natAbs : ℕ) : ℤ) = val := by omega
    have hread := readNumber_toDigits false val.natAbs hcs
      (by simpa only [habs, Bool.false_eq_true, if_true, if_false] using hval)
    simp only [print, if_neg hneg, List.nil_append]
    cases hd : Nat.toDigits 10 val.natAbs with
    | nil => exact absurd hd Nat.toDigits_ne_nil
    | cons d ds =>
      have hdigit : d.isDigit = true :=
        Nat.isDigit_of_mem_toDigits (b := 10) (n := val.natAbs) (by omega) (by omega)
          (by rw [hd]; exact List.mem_cons_self)
      obtain ⟨h1, h2, h3, h4, h5, h6⟩ := digit_ne hdigit
      rw [hd] at hread
      rw [List.cons_append] at hread ⊢
      rw [parseValue]
      simp only [h1, h2, h3, h4, h5, h6, if_false, hread, habs, Bool.false_eq_true]

/-- Reading a field that is there: its name, its value, and the rest. -/
theorem parseFields_field (n : ℕ) (first : Bool) (name : String) (v : Value)
    (fields : List (String × Value)) (cs : List Char) :
    parseFields (n + 1) first (printFields first ((name, v) :: fields) ++ cs) =
      (readString (name.toList.flatMap escape ++ quote ::
        (':' :: (print v ++ (printFields false fields ++ cs))))).bind fun (name, r) =>
      (keyword [':'] r).bind fun r => (parseValue n r).bind fun (v, r) =>
      (parseFields n false r).bind fun (fields, r) =>
        some ((String.ofList name, v) :: fields, r) := by
  have hclose : ∀ cs, keyword [closeBrace] (quote :: cs) = none := fun cs => rfl
  have hcomma : ∀ cs, keyword [closeBrace] (',' :: cs) = none := fun cs => rfl
  cases first with
  | true =>
    have htext : printFields true ((name, v) :: fields) ++ cs =
        quote :: (name.toList.flatMap escape ++ quote ::
          (':' :: (print v ++ (printFields false fields ++ cs)))) := by
      simp [printFields, quoted]
    rw [htext, parseFields, hclose]
    rfl
  | false =>
    have htext : printFields false ((name, v) :: fields) ++ cs =
        ',' :: quote :: (name.toList.flatMap escape ++ quote ::
          (':' :: (print v ++ (printFields false fields ++ cs)))) := by
      simp [printFields, quoted]
    rw [htext, parseFields, hcomma]
    rfl

mutual

/-- **The parser inverts the printer**, on whatever follows. -/
theorem parseValue_print : ∀ (v : Value) (n : ℕ) (cs : List Char), size v ≤ n → Ends cs →
    parseValue n (print v ++ cs) = some (v, cs)
  | v, 0, cs, hn, _ => by
    cases v <;> simp [size] at hn
  | .null, n + 1, cs, _, _ => by
    show parseValue (n + 1) ('n' :: (['u', 'l', 'l'] ++ cs)) = _
    rw [parseValue]
    simp only [show 'n' ≠ quote by decide, show 'n' ≠ openBrace by decide, if_false, if_true,
      keyword_append, Option.map_some]
  | .bool true, n + 1, cs, _, _ => by
    show parseValue (n + 1) ('t' :: (['r', 'u', 'e'] ++ cs)) = _
    rw [parseValue]
    simp only [show 't' ≠ quote by decide, show 't' ≠ openBrace by decide,
      show 't' ≠ 'n' by decide, if_false, if_true, keyword_append, Option.map_some]
  | .bool false, n + 1, cs, _, _ => by
    show parseValue (n + 1) ('f' :: (['a', 'l', 's', 'e'] ++ cs)) = _
    rw [parseValue]
    simp only [show 'f' ≠ quote by decide, show 'f' ≠ openBrace by decide,
      show 'f' ≠ 'n' by decide, show 'f' ≠ 't' by decide, if_false, if_true, keyword_append,
      Option.map_some]
  | .num x, n + 1, cs, _, hcs => parseValue_num n x hcs
  | .str s, n + 1, cs, _, _ => by
    have hread := readString_escaped s.toList cs
    simp only [print, quoted, List.cons_append, List.append_assoc, List.nil_append]
    rw [parseValue, if_pos rfl, hread]
    simp
  | .obj fields, n + 1, cs, hn, _ => by
    have hfields := parseFields_print fields n true cs (by simp only [size] at hn; omega)
    rw [print, List.cons_append, parseValue, if_neg (by decide), if_pos rfl, hfields]
    rfl

theorem parseFields_print : ∀ (fields : List (String × Value)) (n : ℕ) (first : Bool)
    (cs : List Char), sizeFields fields ≤ n →
    parseFields n first (printFields first fields ++ cs) = some (fields, cs)
  | fields, 0, first, cs, hn => by
    cases fields <;> simp [sizeFields] at hn
  | [], n + 1, first, cs, _ => by
    rw [parseFields, printFields, keyword_append]
    rfl
  | (name, v) :: fields, n + 1, first, cs, hn => by
    simp only [sizeFields] at hn
    have hv := parseValue_print v n (printFields false fields ++ cs) (by omega)
      (ends_printFields fields cs)
    have hrest := parseFields_print fields n false cs (by omega)
    have hname := readString_escaped name.toList (':' :: (print v ++ (printFields false fields ++ cs)))
    rw [parseFields_field]
    simp only [hname, keyword_cons, hv, hrest, Option.bind_some, String.ofList_toList]

end

mutual

/-- There are no more values than characters. -/
theorem size_le_length : ∀ v : Value, size v ≤ (print v).length
  | .null => by simp [size, print]
  | .bool true => by simp [size, print]
  | .bool false => by simp [size, print]
  | .num x => by
    have hpos : 0 < (Nat.toDigits 10 x.val.natAbs).length :=
      List.length_pos_iff.2 Nat.toDigits_ne_nil
    simp only [size, print, List.length_append]
    omega
  | .str s => by simp [size, print, quoted]
  | .obj fields => by
    have hfields := sizeFields_le_length true fields
    simp only [size, print, List.length_cons]
    omega

theorem sizeFields_le_length : ∀ (first : Bool) (fields : List (String × Value)),
    sizeFields fields ≤ (printFields first fields).length
  | first, [] => by simp [sizeFields, printFields]
  | first, (name, v) :: fields => by
    have hv := size_le_length v
    have hfields := sizeFields_le_length false fields
    simp only [sizeFields, printFields, List.length_append, List.length_cons]
    omega

end

/-- **Compact JSON text in UTF-8**, and its parser. -/
def compact : TextLayer where
  toVec v := Utf8.encode (String.ofList (print v))
  fromSlice bs := (Utf8.decode? bs).bind fun s =>
    match parseValue s.toList.length s.toList with
    | some (v, []) => some v
    | _ => none
  fromSlice_toVec v _ := by
    have hparse := parseValue_print v (print v).length [] (size_le_length v) (fun _ h => by cases h)
    rw [List.append_nil] at hparse
    simp [hparse]

theorem length_compact (v : Value) :
    (compact.toVec v).length = ((print v).flatMap String.utf8EncodeChar).length := by
  simp [compact, Utf8.encode]

end Json

end WaylandWebStream
