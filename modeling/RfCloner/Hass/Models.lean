/-
  The payloads that cross between the device and Home Assistant (`models.py`, `snapshot.py`).

  A Python `str` is its list of characters; the device holds text as UTF-8 bytes (`utf8`).  Python
  integers are unbounded.  The views are what `from_payload` makes of an answer that has every key,
  as the answers of `packages/api-actions.yaml` do.
-/
import RfCloner.Store.Types

namespace RfCloner

/-! ## Text -/

/-- A Python `str`. -/
abbrev Str := List Char

instance instLawfulBEqStr : LawfulBEq Str := inferInstance

/-- A text constant. -/
abbrev str (text : String) : Str := text.toList

/-- A `str` as the device receives it. -/
def utf8 (s : Str) : Bytes := s.flatMap String.utf8EncodeChar

/-- The text of some bytes, of which ASCII ones are characters each.  A name the store has validated
    is ASCII. -/
def ofUtf8 (b : Bytes) : Str :=
  if b.all (· < 128) then b.map fun byte => Char.ofNat byte.toNat
  else ((String.fromUTF8? ⟨b.toArray⟩).map String.toList).getD []

/-- A digit of `bridge_id_hex`. -/
def hexDigit (nibble : Nat) : Char := (str "0123456789abcdef").getD nibble '0'

/-- `bridge_id_hex`. -/
def BridgeId.hex (id : BridgeId) : Str :=
  id.1.flatMap fun byte => [hexDigit (byte.toNat / 16), hexDigit (byte.toNat % 16)]

/-! ## The views -/

/-- `CommandInfo`: one row of the registry listing. -/
structure CommandInfo where
  commandId : Int
  name : Str
  pulses : Int
  deriving DecidableEq

/-- `BridgeStatus`, without the state of a capture. -/
structure BridgeStatus where
  bridgeId : Str
  revision : Int
  nextCommandId : Int
  restoreIncomplete : Bool
  readOnly : Bool
  fault : Str
  lastResult : Str
  count : Int
  maxCommands : Int
  maxPulses : Int
  usedBytes : Int
  capacityBytes : Int
  commands : List CommandInfo
  deriving DecidableEq

/-- `ExportedCommand`: the portable form of one command. -/
structure ExportedCommand where
  schema : Int
  bridgeId : Str
  commandId : Int
  name : Str
  gapUs : Int
  repeatTimes : Int
  frequencyHz : Int
  modulation : Int
  timings : List Int
  deriving DecidableEq

/-- A `datetime`. -/
abbrev Timestamp := Int

/-- `Snapshot`: a copy of one bridge's registry. -/
structure Snapshot where
  bridgeId : Str
  revision : Int
  nextCommandId : Int
  capturedAt : Timestamp
  commands : List ExportedCommand
  deriving DecidableEq

/-! ## Identities are told apart by their text -/

theorem hexDigit_inj {a b : Nat} (ha : a < 16) (hb : b < 16) (h : hexDigit a = hexDigit b) :
    a = b := by
  have hall : ∀ a : Fin 16, ∀ b : Fin 16, hexDigit a.1 = hexDigit b.1 → a = b := by decide
  exact congrArg Fin.val (hall ⟨a, ha⟩ ⟨b, hb⟩ h)

theorem flatMap_hex_inj {a b : Bytes}
    (h : (a.flatMap fun byte => [hexDigit (byte.toNat / 16), hexDigit (byte.toNat % 16)])
      = b.flatMap fun byte => [hexDigit (byte.toNat / 16), hexDigit (byte.toNat % 16)]) : a = b := by
  induction a generalizing b with
  | nil =>
    cases b with
    | nil => rfl
    | cons y b => cases h
  | cons x a ih =>
    cases b with
    | nil => cases h
    | cons y b =>
      rw [List.flatMap_cons, List.flatMap_cons] at h
      obtain ⟨hhi, htail⟩ := List.cons.inj h
      obtain ⟨hlo, hrest⟩ := List.cons.inj htail
      have hx : x.toNat < 256 := x.toNat_lt
      have hy : y.toNat < 256 := y.toNat_lt
      have hhi' := hexDigit_inj (by omega) (by omega) hhi
      have hlo' := hexDigit_inj (by omega) (by omega) hlo
      have hxy : x = y := UInt8.toNat_inj.mp (by omega)
      rw [hxy, ih hrest]

theorem BridgeId.hex_inj {a b : BridgeId} (h : a.hex = b.hex) : a = b :=
  Subtype.ext (flatMap_hex_inj h)

/-! ## ASCII text -/

section Ascii

variable {c : Char} {byte : UInt8} {s : Str} {b : Bytes}

/-- An ASCII character is one byte. -/
theorem utf8EncodeChar_of_lt (h : c.toNat < 128) : String.utf8EncodeChar c = [UInt8.ofNat c.toNat] := by
  unfold String.utf8EncodeChar
  have hle : c.val.toNat ≤ 0x7f := Nat.le_of_lt_succ h
  simp only [if_pos hle]
  rfl

/-- A character whose encoding is ASCII is ASCII itself. -/
theorem lt_of_utf8EncodeChar (h : ∀ byte ∈ String.utf8EncodeChar c, byte < 128) : c.toNat < 128 := by
  by_contra hge
  have hgt : ¬ c.val.toNat ≤ 0x7f := fun hle => hge (Nat.lt_succ_of_le hle)
  unfold String.utf8EncodeChar at h
  simp only [if_neg hgt] at h
  have hbyte : ∀ n m : Nat, 128 ≤ m → m + n < 256 → ¬ UInt8.ofNat (n + m) < 128 := by
    intro n m hm hsum hlt
    have hlt' := UInt8.lt_iff_toNat_lt.mp hlt
    rw [UInt8.toNat_ofNat', Nat.mod_eq_of_lt (by omega)] at hlt'
    have h128 : (128 : UInt8).toNat = 128 := rfl
    omega
  split at h
  · exact hbyte _ 0xc0 (by omega) (by omega) (h _ List.mem_cons_self)
  · split at h
    · exact hbyte _ 0xe0 (by omega) (by omega) (h _ List.mem_cons_self)
    · exact hbyte _ 0xf0 (by omega) (by omega) (h _ List.mem_cons_self)

theorem utf8_ofUtf8 (h : ∀ byte ∈ b, byte < 128) : utf8 (ofUtf8 b) = b := by
  have hall : b.all (· < 128) = true := by simpa using h
  unfold ofUtf8 utf8
  rw [if_pos hall, List.flatMap_map]
  induction b with
  | nil => rfl
  | cons byte b ih =>
    have hlt := UInt8.lt_iff_toNat_lt.mp (h byte List.mem_cons_self)
    have h128 : (128 : UInt8).toNat = 128 := rfl
    have hnat : (Char.ofNat byte.toNat).toNat = byte.toNat := by
      rw [Char.ofNat, dif_pos (Or.inl (by omega))]
      rfl
    rw [List.flatMap_cons, utf8EncodeChar_of_lt (by omega), hnat, UInt8.ofNat_toNat,
      ih (fun d hd => h d (List.mem_cons_of_mem _ hd)) (by simp_all)]
    rfl

theorem ofUtf8_utf8 (h : ∀ byte ∈ utf8 s, byte < 128) : ofUtf8 (utf8 s) = s := by
  have hall : (utf8 s).all (· < 128) = true := by simpa using h
  unfold ofUtf8
  rw [if_pos hall]
  clear hall
  induction s with
  | nil => rfl
  | cons c s ih =>
    have hsplit : utf8 (c :: s) = String.utf8EncodeChar c ++ utf8 s := rfl
    rw [hsplit] at h ⊢
    have hc := lt_of_utf8EncodeChar fun byte hb => h byte (List.mem_append_left _ hb)
    rw [utf8EncodeChar_of_lt hc, List.singleton_append, List.map_cons,
      ih fun byte hb => h byte (List.mem_append_right _ hb), UInt8.toNat_ofNat',
      Nat.mod_eq_of_lt (by omega), Char.ofNat_toNat]

end Ascii

end RfCloner
