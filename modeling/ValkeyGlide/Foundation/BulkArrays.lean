import Mathlib.Data.List.Basic
import Mathlib.Tactic.IntervalCases

/-!
# Arrays of bulk strings

The form in which requests are written: an array header, and one header for each string.
The length of a string is announced before it, so that it may hold any bytes.
`decodeArrays` reads back what `encodeArray` writes, one array after the other.
-/

namespace ValkeyGlide.Foundation

/-! ## Decimal numbers -/

def decimal (n : Nat) : List UInt8 := (Nat.toDigits 10 n).map fun digit => UInt8.ofNat digit.toNat

def digitByte (digit : Nat) : UInt8 := UInt8.ofNat (48 + digit)

variable {digit : Nat}

theorem digitChar_byte (hdigit : digit < 10) :
    UInt8.ofNat (Nat.digitChar digit).toNat = digitByte digit := by
  interval_cases digit <;> rfl

theorem decimal_of_lt {n : Nat} (hlt : n < 10) : decimal n = [digitByte n] := by
  rw [decimal, Nat.toDigits_of_lt_base hlt, List.map_singleton, digitChar_byte hlt]

theorem decimal_of_le {n : Nat} (hle : 10 ≤ n) :
    decimal n = decimal (n / 10) ++ [digitByte (n % 10)] := by
  rw [decimal, Nat.toDigits_eq_if (by decide), if_neg (Nat.not_lt.mpr hle), List.map_append,
    List.map_singleton, digitChar_byte (Nat.mod_lt _ (by decide)), decimal]

theorem digitByte_isDigit (hdigit : digit < 10) :
    (48 ≤ digitByte digit ∧ digitByte digit ≤ 57) ∧ (digitByte digit).toNat - 48 = digit := by
  interval_cases digit <;> exact ⟨by decide, rfl⟩

theorem decimal_induction {motive : Nat → Prop} (digit : ∀ n, n < 10 → motive n)
    (append : ∀ n, 10 ≤ n → motive (n / 10) → motive n) (n : Nat) : motive n := by
  induction n using Nat.strongRecOn with
  | ind n ih =>
    by_cases hlt : n < 10
    · exact digit n hlt
    · exact append n (by omega) (ih (n / 10) (by omega))

theorem decimal_eq_cons (n : Nat) : ∃ digit < 10, ∃ rest, decimal n = digitByte digit :: rest := by
  induction n using decimal_induction with
  | digit n hlt => exact ⟨n, hlt, [], decimal_of_lt hlt⟩
  | append n hle ih =>
    obtain ⟨digit, hdigit, rest, hdecimal⟩ := ih
    exact ⟨digit, hdigit, rest ++ [digitByte (n % 10)], by rw [decimal_of_le hle, hdecimal]; rfl⟩

/-- Reading digit by digit, with tenfold weight for what has been read before. -/
theorem read_decimal {α : Type*} {read : Nat → List UInt8 → α}
    (hread : ∀ value digit, digit < 10 → ∀ rest,
      read value (digitByte digit :: rest) = read (value * 10 + digit) rest)
    (value n : Nat) (rest : List UInt8) :
    read value (decimal n ++ rest) = read (value * 10 ^ (decimal n).length + n) rest := by
  induction n using decimal_induction generalizing rest with
  | digit n hlt =>
    rw [decimal_of_lt hlt, List.singleton_append, hread value n hlt, List.length_singleton,
      Nat.pow_one]
  | append n hle ih =>
    rw [decimal_of_le hle, List.append_assoc, ih, List.singleton_append,
      hread _ _ (Nat.mod_lt _ (by decide)), List.length_append, List.length_singleton,
      Nat.pow_succ, Nat.add_mul, Nat.mul_assoc, Nat.add_assoc, Nat.div_add_mod' n 10]

/-! ## Reading a line with a number -/

def lineBreak : List UInt8 := [13, 10]

def readNumber : Nat → List UInt8 → Option (Nat × List UInt8)
  | _, [] => none
  | value, byte :: rest =>
    if 48 ≤ byte ∧ byte ≤ 57 then readNumber (value * 10 + (byte.toNat - 48)) rest
    else if byte = 13 ∧ rest.head? = some 10 then some (value, rest.tail)
    else none

theorem readNumber_digitByte (value : Nat) (hdigit : digit < 10) (rest : List UInt8) :
    readNumber value (digitByte digit :: rest) = readNumber (value * 10 + digit) rest := by
  obtain ⟨hbyte, hvalue⟩ := digitByte_isDigit hdigit
  rw [readNumber, if_pos hbyte, hvalue]

theorem readNumber_decimal (value n : Nat) (rest : List UInt8) :
    readNumber value (decimal n ++ rest) =
      readNumber (value * 10 ^ (decimal n).length + n) rest :=
  read_decimal (fun value _ hdigit => readNumber_digitByte value hdigit) value n rest

theorem readNumber_lineBreak (value : Nat) (rest : List UInt8) :
    readNumber value (lineBreak ++ rest) = some (value, rest) := by
  rw [lineBreak, List.cons_append, readNumber, if_neg (by decide)]
  rfl

def readHeader (mark : UInt8) : List UInt8 → Option (Nat × List UInt8)
  | [] => none
  | byte :: rest => if byte = mark then readNumber 0 rest else none

def encodeHeader (mark : UInt8) (n : Nat) : List UInt8 := mark :: decimal n ++ lineBreak

@[simp] theorem readHeader_encodeHeader (mark : UInt8) (n : Nat) (rest : List UInt8) :
    readHeader mark (encodeHeader mark n ++ rest) = some (n, rest) := by
  rw [encodeHeader, List.cons_append, List.cons_append, readHeader, if_pos rfl,
    List.append_assoc, readNumber_decimal, readNumber_lineBreak, Nat.zero_mul, Nat.zero_add]

/-! ## Strings and arrays -/

def encodeBulk (text : List UInt8) : List UInt8 :=
  encodeHeader 36 text.length ++ (text ++ lineBreak)

def encodeArray (texts : List (List UInt8)) : List UInt8 :=
  encodeHeader 42 texts.length ++ texts.flatMap encodeBulk

def readBulk (input : List UInt8) : Option (List UInt8 × List UInt8) :=
  match readHeader 36 input with
  | none => none
  | some (length, rest) =>
    if (rest.drop length).take 2 = lineBreak then some (rest.take length, rest.drop (length + 2))
    else none

def readBulks : Nat → List UInt8 → Option (List (List UInt8) × List UInt8)
  | 0, input => some ([], input)
  | count + 1, input =>
    match readBulk input with
    | none => none
    | some (text, rest) => (readBulks count rest).map fun (texts, rest) => (text :: texts, rest)

def readArray (input : List UInt8) : Option (List (List UInt8) × List UInt8) :=
  match readHeader 42 input with
  | none => none
  | some (count, rest) => readBulks count rest

def decodeArraysFrom : Nat → List UInt8 → Option (List (List (List UInt8)))
  | _, [] => some []
  | 0, _ :: _ => none
  | fuel + 1, byte :: rest =>
    match readArray (byte :: rest) with
    | none => none
    | some (texts, rest) => (decodeArraysFrom fuel rest).map (texts :: ·)

def decodeArrays (input : List UInt8) : Option (List (List (List UInt8))) :=
  decodeArraysFrom input.length input

@[simp] theorem readBulk_encodeBulk (text rest : List UInt8) :
    readBulk (encodeBulk text ++ rest) = some (text, rest) := by
  have hbreak : ((text ++ (lineBreak ++ rest)).drop text.length).take 2 = lineBreak := by
    rw [List.drop_left]
    rfl
  have hrest : (text ++ (lineBreak ++ rest)).drop (text.length + 2) = rest := by
    rw [List.drop_append, List.drop_of_length_le (Nat.le_add_right _ 2)]
    simp [lineBreak]
  rw [readBulk, encodeBulk, List.append_assoc, readHeader_encodeHeader, List.append_assoc]
  simp only [hbreak, if_true, hrest, List.take_left]

theorem readBulks_flatMap (texts : List (List UInt8)) (rest : List UInt8) :
    readBulks texts.length (texts.flatMap encodeBulk ++ rest) = some (texts, rest) := by
  induction texts with
  | nil => rfl
  | cons text texts ih =>
    rw [List.length_cons, readBulks, List.flatMap_cons, List.append_assoc, readBulk_encodeBulk]
    simp [ih, Option.map_some]

theorem readArray_encodeArray (texts : List (List UInt8)) (rest : List UInt8) :
    readArray (encodeArray texts ++ rest) = some (texts, rest) := by
  rw [readArray, encodeArray, List.append_assoc, readHeader_encodeHeader]
  exact readBulks_flatMap texts rest

theorem exists_encodeArray_cons (texts : List (List UInt8)) :
    ∃ byte rest, encodeArray texts = byte :: rest :=
  ⟨42, _, rfl⟩

theorem decodeArraysFrom_flatMap (arrays : List (List (List UInt8))) {fuel : Nat}
    (hfuel : (arrays.flatMap encodeArray).length ≤ fuel) :
    decodeArraysFrom fuel (arrays.flatMap encodeArray) = some arrays := by
  induction arrays generalizing fuel with
  | nil => cases fuel <;> rfl
  | cons texts arrays ih =>
    obtain ⟨byte, tail, hbyte⟩ := exists_encodeArray_cons texts
    have hread := readArray_encodeArray texts (arrays.flatMap encodeArray)
    rw [List.flatMap_cons, hbyte, List.cons_append] at hfuel ⊢
    rw [hbyte, List.cons_append] at hread
    cases fuel with
    | zero => simp at hfuel
    | succ fuel =>
      have hrest : (arrays.flatMap encodeArray).length ≤ fuel := by
        simp only [List.length_cons, List.length_append] at hfuel
        omega
      simp [decodeArraysFrom, hread, ih hrest]

@[simp] theorem decodeArrays_flatMap (arrays : List (List (List UInt8))) :
    decodeArrays (arrays.flatMap encodeArray) = some arrays :=
  decodeArraysFrom_flatMap arrays le_rfl

end ValkeyGlide.Foundation
