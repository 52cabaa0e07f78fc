import Mathlib.Data.List.Basic

/-!
# Numerals

Numbers and bytes as texts, and their readers: decimal numerals with an optional sign, and
two hexadecimal digits for each byte. A reader takes more than a writer makes, such as a
plus sign or upper case digits; what is written it reads back.
-/

namespace SyncPlus

/-! ## Decimal -/

def decimal (n : Nat) : List Char := Nat.toDigits 10 n

def signedDecimal (i : Int) : List Char :=
  if i < 0 then '-' :: decimal i.natAbs else decimal i.natAbs

def parseDigits (text : List Char) : Option Nat :=
  if text ≠ [] ∧ text.all Char.isDigit then some (Nat.ofDigitChars 10 text 0) else none

/-- `str::parse` to an unsigned number below the bound. -/
def parseUnsigned (bound : Nat) (text : List Char) : Option Nat :=
  let digits := match text with
    | '+' :: digits => digits
    | digits => digits
  (parseDigits digits).filter (· < bound)

/-- `str::parse` to a number from `-bound` up to below the bound. -/
def parseSigned (bound : Nat) (text : List Char) : Option Int :=
  match text with
  | '-' :: digits => ((parseDigits digits).filter (· ≤ bound)).map fun n : Nat => -(n : Int)
  | digits => (parseUnsigned bound digits).map Int.ofNat

section

variable {n bound : Nat}

theorem isDigit_of_mem_decimal {c : Char} (h : c ∈ decimal n) : c.isDigit = true :=
  Nat.isDigit_of_mem_toDigits (by decide) (by decide) h

theorem decimal_ne_nil : decimal n ≠ [] := Nat.toDigits_ne_nil

@[simp] theorem parseDigits_decimal : parseDigits (decimal n) = some n := by
  rw [parseDigits, if_pos ⟨decimal_ne_nil, List.all_eq_true.mpr fun _ => isDigit_of_mem_decimal⟩]
  exact congrArg some Nat.ofDigitChars_ten_toDigits

/-- A numeral begins with no sign. -/
theorem exists_decimal (n : Nat) : ∃ c digits, decimal n = c :: digits ∧ c ≠ '+' ∧ c ≠ '-' := by
  obtain ⟨c, digits, h⟩ := List.exists_cons_of_ne_nil (decimal_ne_nil (n := n))
  have hdigit : c.isDigit = true := isDigit_of_mem_decimal (n := n) (h ▸ List.mem_cons_self)
  refine ⟨c, digits, h, ?_, ?_⟩
  · rintro rfl
    exact absurd hdigit (by decide)
  · rintro rfl
    exact absurd hdigit (by decide)

theorem parseUnsigned_decimal (h : n < bound) : parseUnsigned bound (decimal n) = some n := by
  obtain ⟨c, digits, hdecimal, hplus, _⟩ := exists_decimal n
  have hsame : parseUnsigned bound (decimal n) = (parseDigits (decimal n)).filter (· < bound) := by
    rw [hdecimal, parseUnsigned]
    intro digits' heq
    exact hplus (List.cons.inj heq).1
  rw [hsame, parseDigits_decimal, Option.filter_some, if_pos (decide_eq_true h)]

theorem parseSigned_signedDecimal {i : Int} (hlow : -bound ≤ i) (hhigh : i < bound) :
    parseSigned bound (signedDecimal i) = some i := by
  unfold signedDecimal
  split
  · rename_i hneg
    have hbound : decide (i.natAbs ≤ bound) = true := by
      rw [decide_eq_true_eq]
      omega
    rw [parseSigned, parseDigits_decimal, Option.filter_some, if_pos hbound, Option.map_some]
    congr 1
    omega
  · rename_i hpos
    have hbound : i.natAbs < bound := by omega
    obtain ⟨c, digits, hdecimal, _, hminus⟩ := exists_decimal i.natAbs
    have hsame : parseSigned bound (decimal i.natAbs) =
        (parseUnsigned bound (decimal i.natAbs)).map Int.ofNat := by
      rw [hdecimal, parseSigned]
      rintro digits' heq
      exact hminus (List.cons.inj heq).1
    rw [hsame, parseUnsigned_decimal hbound, Option.map_some]
    congr 1
    show (i.natAbs : Int) = i
    omega

end

/-! ## Hexadecimal -/

def hexDigit (n : UInt8) : Char :=
  if n < 10 then Char.ofNat (48 + n.toNat) else Char.ofNat (87 + n.toNat)

/-- Each byte as two lower case digits. -/
def encodeBytes (bytes : List UInt8) : List Char :=
  bytes.flatMap fun byte => [hexDigit (byte / 16), hexDigit (byte % 16)]

def hexValue (c : Char) : Option Nat :=
  if '0' ≤ c ∧ c ≤ '9' then some (c.toNat - '0'.toNat)
  else if 'a' ≤ c ∧ c ≤ 'f' then some (c.toNat - 'a'.toNat + 10)
  else if 'A' ≤ c ∧ c ≤ 'F' then some (c.toNat - 'A'.toNat + 10)
  else none

def isHexDigit (c : Char) : Bool := (hexValue c).isSome

/-- `u8::from_str_radix` of two characters, which takes a plus sign for the first. -/
def pairValue (c d : Char) : Option UInt8 :=
  if c = '+' then (hexValue d).map UInt8.ofNat
  else (hexValue c).bind fun high => (hexValue d).map fun low => UInt8.ofNat (16 * high + low)

/-- The bytes of a text, taken two characters at a time. -/
def parsePairs : List Char → Option (List UInt8)
  | c :: d :: text =>
      (pairValue c d).bind fun b => (parsePairs text).map fun bytes => b :: bytes
  | _ => some []

theorem hexValue_hexDigit {n : UInt8} (h : n.toNat < 16) :
    hexValue (hexDigit n) = some n.toNat ∧ hexDigit n ≠ '+' := by
  have hall : ∀ k < 16, hexValue (hexDigit (UInt8.ofNat k)) = some k ∧
      hexDigit (UInt8.ofNat k) ≠ '+' := by decide
  have hn := hall n.toNat h
  rwa [UInt8.ofNat_toNat] at hn

theorem toNat_halves (b : UInt8) :
    (b / 16).toNat = b.toNat / 16 ∧ (b % 16).toNat = b.toNat % 16 :=
  ⟨UInt8.toNat_div .., UInt8.toNat_mod ..⟩

theorem hexValue_high (b : UInt8) :
    hexValue (hexDigit (b / 16)) = some (b.toNat / 16) ∧ hexDigit (b / 16) ≠ '+' := by
  have hb := b.toNat_lt
  rw [← (toNat_halves b).1]
  exact hexValue_hexDigit (by rw [(toNat_halves b).1]; omega)

theorem hexValue_low (b : UInt8) : hexValue (hexDigit (b % 16)) = some (b.toNat % 16) := by
  rw [← (toNat_halves b).2]
  exact (hexValue_hexDigit (by rw [(toNat_halves b).2]; omega)).1

theorem isHexDigit_of_mem_encodeBytes {bytes : List UInt8} {c : Char}
    (h : c ∈ encodeBytes bytes) : isHexDigit c = true := by
  obtain ⟨b, _, hc⟩ := List.mem_flatMap.mp h
  rcases List.mem_cons.mp hc with rfl | hc
  · rw [isHexDigit, (hexValue_high b).1]
    rfl
  · obtain rfl := List.mem_singleton.mp hc
    rw [isHexDigit, hexValue_low]
    rfl

theorem pairValue_hexDigit (b : UInt8) :
    pairValue (hexDigit (b / 16)) (hexDigit (b % 16)) = some b := by
  obtain ⟨hhigh, hplus⟩ := hexValue_high b
  rw [pairValue, if_neg hplus, hhigh, hexValue_low, Option.bind_some, Option.map_some,
    Nat.div_add_mod, UInt8.ofNat_toNat]

@[simp] theorem parsePairs_encodeBytes (bytes : List UInt8) :
    parsePairs (encodeBytes bytes) = some bytes := by
  induction bytes with
  | nil => rfl
  | cons b bytes ih =>
      show parsePairs (hexDigit (b / 16) :: hexDigit (b % 16) :: encodeBytes bytes) =
        some (b :: bytes)
      rw [parsePairs, pairValue_hexDigit, ih]
      rfl

theorem length_encodeBytes (bytes : List UInt8) :
    (encodeBytes bytes).length = 2 * bytes.length := by
  induction bytes with
  | nil => rfl
  | cons byte bytes ih =>
      show (_ :: _ :: encodeBytes bytes).length = _
      rw [List.length_cons, List.length_cons, ih, List.length_cons]
      omega

theorem encodeBytes_inj {bytes bytes' : List UInt8} (h : encodeBytes bytes = encodeBytes bytes') :
    bytes = bytes' := by
  have hparsed := congrArg parsePairs h
  rw [parsePairs_encodeBytes, parsePairs_encodeBytes] at hparsed
  exact Option.some.inj hparsed

end SyncPlus
