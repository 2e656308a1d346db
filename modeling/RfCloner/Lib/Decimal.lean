/-
  Integers as Python text: `str(i)` and `int(s)`.

  `int` takes more than `str` makes: surrounding whitespace, a sign, underscores between digits,
  leading zeros, the decimal digits of every script, and no more than 4300 digits.  So it is not
  injective, and a program that keys things by the text of a number has to know which of the two it
  may compare.  `ofText_toText` is the round trip, `lt_of_ofText` the bound that makes it apply to
  whatever `int` has accepted.

  A `str` is its list of characters.
-/
import Mathlib.Data.List.TakeWhile
import Mathlib.Algebra.Group.Nat.Defs

namespace Decimal

/-! ## From text -/

/-- The zeros of the scripts with decimal digits, ASCII apart (Unicode 16).  The other nine digits
    of a script follow its zero. -/
def scriptZeros : List Nat :=
  [0x660, 0x6F0, 0x7C0, 0x966, 0x9E6, 0xA66, 0xAE6, 0xB66, 0xBE6, 0xC66, 0xCE6, 0xD66, 0xDE6, 0xE50,
    0xED0, 0xF20, 0x1040, 0x1090, 0x17E0, 0x1810, 0x1946, 0x19D0, 0x1A80, 0x1A90, 0x1B50, 0x1BB0,
    0x1C40, 0x1C50, 0xA620, 0xA8D0, 0xA900, 0xA9D0, 0xA9F0, 0xAA50, 0xABF0, 0xFF10, 0x104A0, 0x10D30,
    0x10D40, 0x11066, 0x110F0, 0x11136, 0x111D0, 0x112F0, 0x11450, 0x114D0, 0x11650, 0x116C0, 0x116D0,
    0x116DA, 0x11730, 0x118E0, 0x11950, 0x11BF0, 0x11C50, 0x11D50, 0x11DA0, 0x11F50, 0x16130, 0x16A60,
    0x16AC0, 0x16B50, 0x16D70, 0x1CCF0, 0x1D7CE, 0x1D7D8, 0x1D7E2, 0x1D7EC, 0x1D7F6, 0x1E140, 0x1E2F0,
    0x1E4F0, 0x1E5F1, 0x1E950, 0x1FBF0]

/-- The whitespace beyond ASCII. -/
def scriptSpaces : List Nat :=
  [0x85, 0xA0, 0x1680, 0x2000, 0x2001, 0x2002, 0x2003, 0x2004, 0x2005, 0x2006, 0x2007, 0x2008, 0x2009,
    0x200A, 0x2028, 0x2029, 0x202F, 0x205F, 0x3000]

/-- What `int` reads a character as: digits and whitespace of any script in ASCII, and any other
    character beyond ASCII as one that no number contains. -/
def toAscii (c : Char) : Char :=
  if c.toNat < 127 then c
  else if c.toNat ∈ scriptSpaces then ' '
  else
    match scriptZeros.find? fun z => decide (z ≤ c.toNat) && decide (c.toNat < z + 10) with
    | some z => (c.toNat - z).digitChar
    | none => '?'

/-- ASCII whitespace. -/
def isSpace (c : Char) : Bool := c == ' ' || (decide (9 ≤ c.toNat) && decide (c.toNat ≤ 13))

/-- A character of the digit part of a number. -/
def isDigitOrUnderscore (c : Char) : Bool := c.isDigit || c == '_'

/-- `sys.int_info.default_max_str_digits`. -/
def maxDigits : Nat := 4300

/-- A sign, and the rest. -/
def splitSign : List Char → Bool × List Char
  | '+' :: s => (false, s)
  | '-' :: s => (true, s)
  | s => (false, s)

/-- A number with its sign. -/
def signed (negative : Bool) (n : Nat) : Int := if negative then -n else n

/-- The value of a digit part, if every underscore in it stands between two digits. -/
def ofDigitPart (s : List Char) : Option Nat :=
  if (s.splitOn '_').any List.isEmpty then none
  else
    let digits := s.filter Char.isDigit
    if digits.length > maxDigits then none else some (Nat.ofDigitChars 10 digits 0)

/-- `int(s)`, `none` where it raises `ValueError`. -/
def ofText (s : List Char) : Option Int :=
  let (negative, s) := splitSign ((s.map toAscii).dropWhile isSpace)
  if !(s.dropWhile isDigitOrUnderscore).all isSpace then none
  else (ofDigitPart (s.takeWhile isDigitOrUnderscore)).map (signed negative)

/-! ## To text -/

/-- `str(i)`. -/
def toText (i : Int) : List Char :=
  if i < 0 then '-' :: Nat.toDigits 10 i.natAbs else Nat.toDigits 10 i.natAbs

/-! ## The round trip -/

section Digits

variable {c : Char} {s : List Char} {n : Nat}

theorem toNat_of_isDigit (h : c.isDigit = true) : 48 ≤ c.toNat ∧ c.toNat ≤ 57 := by
  rw [Char.isDigit, Bool.and_eq_true, decide_eq_true_eq, decide_eq_true_eq] at h
  exact ⟨UInt32.le_iff_toNat_le.mp h.1, UInt32.le_iff_toNat_le.mp h.2⟩

theorem isDigitOrUnderscore_of_isDigit (h : c.isDigit = true) : isDigitOrUnderscore c = true := by
  rw [isDigitOrUnderscore, h]
  rfl

theorem toAscii_of_lt (h : c.toNat < 127) : toAscii c = c := if_pos h

theorem isSpace_of_isDigit (h : c.isDigit = true) : isSpace c = false := by
  obtain ⟨hlo, hhi⟩ := toNat_of_isDigit h
  have hne : c ≠ ' ' := by
    rintro rfl
    exact absurd hlo (by decide)
  have hgt : ¬ c.toNat ≤ 13 := by omega
  simp [isSpace, hne, hgt]

/-- Digits are read as they are. -/
theorem map_toAscii_of_digits (h : ∀ c ∈ s, c.isDigit = true) : s.map toAscii = s := by
  have hself : ∀ c ∈ s, toAscii c = id c := by
    intro c hc
    have := (toNat_of_isDigit (h c hc)).2
    exact toAscii_of_lt (by omega)
  rw [List.map_congr_left hself, List.map_id]

/-- The digit part of a run of digits is all of it, and it has no underscores. -/
theorem ofDigitPart_of_digits (h : ∀ c ∈ s, c.isDigit = true) (hne : s ≠ []) :
    ofDigitPart s = if s.length > maxDigits then none else some (Nat.ofDigitChars 10 s 0) := by
  have hnot : ∀ c ∈ s, (c == '_') = false := by
    intro c hc
    rw [beq_eq_false_iff_ne]
    rintro rfl
    exact absurd (h _ hc) (by decide)
  have hsplit : (s.splitOn '_').any List.isEmpty = false := by
    rw [List.splitOn_eq_splitOnP, List.splitOnP_eq_singleton hnot]
    simpa using hne
  unfold ofDigitPart
  rw [hsplit, List.filter_eq_self.mpr h]
  rfl

theorem ofDigitPart_toDigits (h : n < 10 ^ maxDigits) : ofDigitPart (Nat.toDigits 10 n) = some n := by
  have hdigits : ∀ c ∈ Nat.toDigits 10 n, c.isDigit = true := fun c hc =>
    Nat.isDigit_of_mem_toDigits (by decide) (by decide) hc
  have hlen : (Nat.toDigits 10 n).length ≤ maxDigits :=
    (Nat.length_toDigits_le_iff (by decide) (by decide)).mpr h
  rw [ofDigitPart_of_digits hdigits Nat.toDigits_ne_nil, if_neg (by omega),
    Nat.ofDigitChars_ten_toDigits]

/-- Once its sign is off, a run of digits is read to its end. -/
theorem ofText_of_split {t : List Char} {negative : Bool} (hdigits : ∀ c ∈ s, c.isDigit = true)
    (hsplit : splitSign ((t.map toAscii).dropWhile isSpace) = (negative, s)) :
    ofText t = (ofDigitPart s).map (signed negative) := by
  have hpart : ∀ c ∈ s, isDigitOrUnderscore c = true := fun c hc =>
    isDigitOrUnderscore_of_isDigit (hdigits c hc)
  unfold ofText
  rw [hsplit]
  dsimp only
  rw [List.dropWhile_eq_nil_iff.mpr hpart, List.takeWhile_eq_self_iff.mpr hpart]
  rfl

end Digits

/-- **`int(str(i)) = i`**, while `i` has no more digits than `int` takes. -/
theorem ofText_toText {i : Int} (h : i.natAbs < 10 ^ maxDigits) : ofText (toText i) = some i := by
  have hdigits : ∀ c ∈ Nat.toDigits 10 i.natAbs, c.isDigit = true := fun c hc =>
    Nat.isDigit_of_mem_toDigits (by decide) (by decide) hc
  have hmap := map_toAscii_of_digits hdigits
  unfold toText
  by_cases hneg : i < 0
  · rw [if_pos hneg]
    have hsplit : splitSign ((('-' :: Nat.toDigits 10 i.natAbs).map toAscii).dropWhile isSpace)
        = (true, Nat.toDigits 10 i.natAbs) := by
      rw [List.map_cons, hmap]
      rfl
    rw [ofText_of_split hdigits hsplit, ofDigitPart_toDigits h, Option.map_some]
    exact congrArg some (show -(i.natAbs : Int) = i by omega)
  · rw [if_neg hneg]
    have hsplit : splitSign (((Nat.toDigits 10 i.natAbs).map toAscii).dropWhile isSpace)
        = (false, Nat.toDigits 10 i.natAbs) := by
      rw [hmap]
      cases hd : Nat.toDigits 10 i.natAbs with
      | nil => exact absurd hd Nat.toDigits_ne_nil
      | cons c s =>
        have hc : c.isDigit = true := hdigits c (hd ▸ List.mem_cons_self)
        rw [List.dropWhile_cons_of_neg (by rw [isSpace_of_isDigit hc]; exact Bool.false_ne_true)]
        have hplus : c ≠ '+' := by
          rintro rfl
          exact absurd hc (by decide)
        have hminus : c ≠ '-' := by
          rintro rfl
          exact absurd hc (by decide)
        unfold splitSign
        split
        · rename_i heq
          exact absurd (List.cons.inj heq).1 hplus
        · rename_i heq
          exact absurd (List.cons.inj heq).1 hminus
        · rfl
    rw [ofText_of_split hdigits hsplit, ofDigitPart_toDigits h, Option.map_some]
    exact congrArg some (show (i.natAbs : Int) = i by omega)

/-- The text of a number begins with its sign or a digit. -/
theorem toText_ne_cons {i : Int} {c : Char} {s : List Char} (hminus : c ≠ '-')
    (hdigit : c.isDigit = false) : toText i ≠ c :: s := by
  unfold toText
  split
  · exact fun h => hminus (List.cons.inj h).1.symm
  · intro h
    have hc := Nat.isDigit_of_mem_toDigits (b := 10) (by decide) (by decide)
      (h ▸ List.mem_cons_self : c ∈ Nat.toDigits 10 i.natAbs)
    rw [hdigit] at hc
    cases hc

/-- **Numbers are told apart by their text**, however many digits they have. -/
theorem toText_inj {i j : Int} (h : toText i = toText j) : i = j := by
  have hdigits : ∀ {n m : Nat}, Nat.toDigits 10 n = Nat.toDigits 10 m → n = m := by
    intro n m hnm
    rw [← Nat.ofDigitChars_ten_toDigits (n := n), hnm, Nat.ofDigitChars_ten_toDigits]
  have hminus : ∀ {n : Nat} {s : List Char}, Nat.toDigits 10 n ≠ '-' :: s := by
    intro n s hn
    have hc := Nat.isDigit_of_mem_toDigits (b := 10) (by decide) (by decide)
      (hn ▸ List.mem_cons_self : '-' ∈ Nat.toDigits 10 n)
    exact absurd hc (by decide)
  unfold toText at h
  split at h
  · split at h
    · have habs := hdigits (List.cons.inj h).2
      omega
    · exact absurd h.symm hminus
  · split at h
    · exact absurd h hminus
    · have habs := hdigits h
      omega

/-! ## The bound -/

/-- A run of digits is below the power of ten of its length. -/
theorem ofDigitChars_lt {s : List Char} (h : ∀ c ∈ s, c.isDigit = true) :
    Nat.ofDigitChars 10 s 0 < 10 ^ s.length := by
  induction s with
  | nil => exact Nat.one_pos
  | cons c s ih =>
    have hc := toNat_of_isDigit (h c List.mem_cons_self)
    have hs := ih fun d hd => h d (List.mem_cons_of_mem c hd)
    have hzero : '0'.toNat = 48 := rfl
    rw [Nat.ofDigitChars_cons, Nat.ofDigitChars_eq_ofDigitChars_zero, List.length_cons, Nat.pow_succ,
      hzero]
    have hmul : 10 ^ s.length * (10 * 0 + (c.toNat - 48)) ≤ 10 ^ s.length * 9 :=
      Nat.mul_le_mul_left _ (by omega)
    omega

/-- **What `int` accepts can be written back**: it has no more digits than `int` takes. -/
theorem lt_of_ofText {s : List Char} {i : Int} (h : ofText s = some i) :
    i.natAbs < 10 ^ maxDigits := by
  unfold ofText at h
  generalize splitSign ((s.map toAscii).dropWhile isSpace) = split at h
  obtain ⟨negative, s⟩ := split
  dsimp only at h
  split at h
  · cases h
  obtain ⟨n, hn, rfl⟩ := Option.map_eq_some_iff.mp h
  have hlt : n < 10 ^ maxDigits := by
    unfold ofDigitPart at hn
    split at hn
    · cases hn
    dsimp only at hn
    split at hn
    · cases hn
    · rename_i hlen
      obtain rfl := Option.some.inj hn
      refine Nat.lt_of_lt_of_le (ofDigitChars_lt fun c hc => (List.mem_filter.mp hc).2) ?_
      exact Nat.pow_le_pow_right (by decide) (Nat.not_lt.mp hlen)
  cases negative
  · exact hlt
  · show (-(n : Int)).natAbs < _
    rwa [Int.natAbs_neg]

/-- A machine word has few digits. -/
theorem lt_of_word {n : Nat} (h : n < 2 ^ 32) : n < 10 ^ maxDigits :=
  calc n < 10 ^ 10 := by omega
    _ ≤ 10 ^ maxDigits := Nat.pow_le_pow_right (by decide) (by decide)

example : ofText " +1_0\n".toList = some 10 := by decide +kernel

example : ofText ['\u0661', '\u0662'] = some 12 := by decide +kernel

end Decimal
