/-
  Fixed-width binary layouts, once and for all.

  A packed C struct, an array of integers and a record assembled from both are all the same
  thing on a byte store: a type whose values occupy exactly `width` bytes, with a bijection
  between the values and the byte strings of that length.  `FixedCodec α` bundles the two
  directions with the two round trips, so a layout is *built* from smaller layouts and its round
  trips are never proved again:

  * `FixedCodec.le8`, `le16`, `le32`, `sle32` - little-endian machine integers;
  * `FixedCodec.raw n`        - `n` opaque bytes (a `char[n]` field);
  * `FixedCodec.pair`         - one field after another, without padding;
  * `FixedCodec.map`          - a struct whose fields a product already lays out;
  * `encodeAll` / `decodeAll` - an array, element after element.

  The array part also gives what a reader of one element needs: `slice_encodeAll` finds element
  `i` of an encoded array at offset `i * width`.
-/
import Mathlib.Logic.Equiv.Defs
import Mathlib.Tactic.Ring
import Mathlib.Tactic.NormNum

/-- A byte string. -/
abbrev Bytes := List UInt8

/-- A byte string of a length fixed in advance: the C array `uint8_t[n]`. -/
abbrev ByteArr (n : Nat) := {bytes : Bytes // bytes.length = n}

/-! ## Naturals, least significant byte first -/

/-- The `w` little-endian bytes of `n`; what lies above `256 ^ w` is cut off. -/
def toLE : Nat → Nat → Bytes
  | 0, _ => []
  | w + 1, n => UInt8.ofNat (n % 256) :: toLE w (n / 256)

/-- The natural a little-endian byte string denotes. -/
def ofLE : Bytes → Nat
  | [] => 0
  | b :: bs => b.toNat + 256 * ofLE bs

@[simp] theorem length_toLE (w n : Nat) : (toLE w n).length = w := by
  induction w generalizing n with
  | zero => rfl
  | succ w ih => simp only [toLE, List.length_cons, ih]

theorem ofLE_toLE (w n : Nat) : ofLE (toLE w n) = n % 256 ^ w := by
  induction w generalizing n with
  | zero => rw [toLE, ofLE, pow_zero, Nat.mod_one]
  | succ w ih =>
    have hb : (UInt8.ofNat (n % 256)).toNat = n % 256 := by
      rw [UInt8.toNat_ofNat']
      exact Nat.mod_eq_of_lt (Nat.mod_lt _ (by norm_num))
    rw [toLE, ofLE, ih, hb, pow_succ', Nat.mod_mul]

theorem toLE_ofLE (l : Bytes) : toLE l.length (ofLE l) = l := by
  induction l with
  | nil => rfl
  | cons b bs ih =>
    have hb : b.toNat < 256 := b.toNat_lt
    have hlow : (b.toNat + 256 * ofLE bs) % 256 = b.toNat := by omega
    have hrest : (b.toNat + 256 * ofLE bs) / 256 = ofLE bs := by omega
    rw [List.length_cons, ofLE, toLE, hlow, hrest, ih, UInt8.ofNat_toNat]

theorem ofLE_lt (l : Bytes) : ofLE l < 256 ^ l.length := by
  induction l with
  | nil => simp [ofLE]
  | cons b bs ih =>
    have hb : b.toNat < 256 := b.toNat_lt
    rw [ofLE, List.length_cons, pow_succ]
    omega

/-! ## The bundle -/

/-- A layout of `α` on exactly `width` bytes. -/
structure FixedCodec (α : Type) where
  /-- Bytes one value occupies. -/
  width : Nat
  encode : α → Bytes
  /-- Total; only its values on strings of length `width` matter. -/
  decode : Bytes → α
  length_encode : ∀ a, (encode a).length = width
  decode_encode : ∀ a, decode (encode a) = a
  encode_decode : ∀ b : Bytes, b.length = width → encode (decode b) = b

namespace FixedCodec

variable {α β : Type}

attribute [simp] length_encode decode_encode

/-! ## Machine integers -/

/-- An unsigned integer of `w` bytes, from any conversion pair that is exact below `256 ^ w`. -/
def ofNatPair (w : Nat) (toNat : α → Nat) (ofNat : Nat → α) (hlt : ∀ a, toNat a < 256 ^ w)
    (hofTo : ∀ a, ofNat (toNat a) = a) (htoOf : ∀ n, n < 256 ^ w → toNat (ofNat n) = n) :
    FixedCodec α where
  width := w
  encode a := toLE w (toNat a)
  decode b := ofNat (ofLE b)
  length_encode _ := length_toLE _ _
  decode_encode a := by rw [ofLE_toLE, Nat.mod_eq_of_lt (hlt a), hofTo]
  encode_decode b hb := by
    have hlt := ofLE_lt b
    rw [hb] at hlt
    rw [htoOf _ hlt, ← hb, toLE_ofLE]

/-- `uint8_t`. -/
def le8 : FixedCodec UInt8 :=
  ofNatPair 1 UInt8.toNat UInt8.ofNat (fun a => a.toNat_lt) (fun _ => UInt8.ofNat_toNat)
    (fun n hn => by rw [UInt8.toNat_ofNat']; exact Nat.mod_eq_of_lt hn)

/-- `uint16_t`, little-endian. -/
def le16 : FixedCodec UInt16 :=
  ofNatPair 2 UInt16.toNat UInt16.ofNat (fun a => a.toNat_lt) (fun _ => UInt16.ofNat_toNat)
    (fun n hn => by rw [UInt16.toNat_ofNat']; exact Nat.mod_eq_of_lt hn)

/-- `uint32_t`, little-endian. -/
def le32 : FixedCodec UInt32 :=
  ofNatPair 4 UInt32.toNat UInt32.ofNat (fun a => a.toNat_lt) (fun _ => UInt32.ofNat_toNat)
    (fun n hn => by rw [UInt32.toNat_ofNat']; exact Nat.mod_eq_of_lt hn)

/-! ## Composite layouts -/

/-- The same bytes read through a bijection of the values. -/
def map (e : α ≃ β) (c : FixedCodec α) : FixedCodec β where
  width := c.width
  encode b := c.encode (e.symm b)
  decode b := e (c.decode b)
  length_encode b := c.length_encode _
  decode_encode b := by rw [c.decode_encode, e.apply_symm_apply]
  encode_decode b hb := by rw [e.symm_apply_apply, c.encode_decode b hb]

/-- One field after another, packed. -/
def pair (c : FixedCodec α) (d : FixedCodec β) : FixedCodec (α × β) where
  width := c.width + d.width
  encode p := c.encode p.1 ++ d.encode p.2
  decode b := (c.decode (b.take c.width), d.decode (b.drop c.width))
  length_encode p := by rw [List.length_append, c.length_encode, d.length_encode]
  decode_encode p := by
    have hlen : (c.encode p.1).length = c.width := c.length_encode p.1
    rw [List.take_left' hlen, List.drop_left' hlen, c.decode_encode, d.decode_encode]
  encode_decode b hb := by
    have htake : (b.take c.width).length = c.width := by rw [List.length_take]; omega
    have hdrop : (b.drop c.width).length = d.width := by rw [List.length_drop]; omega
    rw [c.encode_decode _ htake, d.encode_decode _ hdrop, List.take_append_drop]

/-- Two's complement `int32_t`, little-endian. -/
def sle32 : FixedCodec Int32 :=
  le32.map ⟨UInt32.toInt32, Int32.toUInt32, fun _ => rfl, fun _ => rfl⟩

/-- The first `n` bytes, padded with zeros where there are fewer. -/
def padTo (n : Nat) (b : Bytes) : ByteArr n :=
  ⟨b.take n ++ List.replicate (n - b.length) 0, by
    rw [List.length_append, List.length_take, List.length_replicate]; omega⟩

theorem padTo_val {n : Nat} {b : Bytes} (hb : b.length = n) : (padTo n b).1 = b := by
  show b.take n ++ List.replicate (n - b.length) 0 = b
  rw [List.take_of_length_le (by omega), hb, Nat.sub_self, List.replicate_zero, List.append_nil]

/-- `n` bytes taken as they are. -/
def raw (n : Nat) : FixedCodec (ByteArr n) where
  width := n
  encode a := a.1
  decode b := padTo n b
  length_encode a := a.2
  decode_encode a := Subtype.ext (padTo_val a.2)
  encode_decode _ hb := padTo_val hb

/-! ## Arrays -/

/-- The array `l`, element after element. -/
def encodeAll (c : FixedCodec α) (l : List α) : Bytes := l.flatMap c.encode

/-- The `len` bytes at `offset`. -/
def slice (offset len : Nat) (b : Bytes) : Bytes := (b.drop offset).take len

/-- An array of `n` elements read off the front of `b`. -/
def decodeAll (c : FixedCodec α) (n : Nat) (b : Bytes) : List α :=
  (List.range n).map fun i => c.decode (slice (i * c.width) c.width b)

@[simp] theorem length_encodeAll (c : FixedCodec α) (l : List α) :
    (c.encodeAll l).length = l.length * c.width := by
  induction l with
  | nil => simp [encodeAll]
  | cons a l ih =>
    have hcons : c.encodeAll (a :: l) = c.encode a ++ c.encodeAll l := rfl
    rw [hcons, List.length_append, c.length_encode, ih, List.length_cons, Nat.succ_mul, Nat.add_comm]

@[simp] theorem length_decodeAll (c : FixedCodec α) (n : Nat) (b : Bytes) :
    (c.decodeAll n b).length = n := by
  simp [decodeAll]

/-- Element `i` of an encoded array lies at offset `i * width`; what follows the array does not
    matter. -/
theorem slice_encodeAll (c : FixedCodec α) (l : List α) (rest : Bytes) {i : Nat}
    (hi : i < l.length) :
    slice (i * c.width) c.width (c.encodeAll l ++ rest) = c.encode l[i] := by
  induction l generalizing i with
  | nil => exact absurd hi (Nat.not_lt_zero i)
  | cons a l ih =>
    have hcons : c.encodeAll (a :: l) ++ rest = c.encode a ++ (c.encodeAll l ++ rest) :=
      List.append_assoc ..
    have hlen : (c.encode a).length = c.width := c.length_encode a
    rw [hcons]
    cases i with
    | zero =>
      show ((c.encode a ++ (c.encodeAll l ++ rest)).drop (0 * c.width)).take c.width = c.encode a
      rw [Nat.zero_mul, List.drop_zero, List.take_left' hlen]
    | succ i =>
      have hoff : (i + 1) * c.width = (c.encode a).length + i * c.width := by rw [hlen]; ring
      have hrest := ih (Nat.lt_of_succ_lt_succ hi)
      show ((c.encode a ++ (c.encodeAll l ++ rest)).drop ((i + 1) * c.width)).take c.width = _
      rw [hoff, List.drop_length_add_append]
      exact hrest

theorem decodeAll_encodeAll (c : FixedCodec α) (l : List α) :
    c.decodeAll l.length (c.encodeAll l) = l := by
  apply List.ext_getElem
  · exact c.length_decodeAll _ _
  · intro i hi hi'
    have hs := c.slice_encodeAll l [] hi'
    rw [List.append_nil] at hs
    simp only [decodeAll, List.getElem_map, List.getElem_range]
    rw [hs, c.decode_encode]

theorem encodeAll_decodeAll (c : FixedCodec α) :
    ∀ (n : Nat) (b : Bytes), b.length = n * c.width → c.encodeAll (c.decodeAll n b) = b
  | 0, b, hb => by
    have hnil : b = [] := List.eq_nil_of_length_eq_zero (by rw [hb, Nat.zero_mul])
    rw [hnil]
    rfl
  | n + 1, b, hb => by
    have hsplit : c.decodeAll (n + 1) b
        = c.decode (b.take c.width) :: c.decodeAll n (b.drop c.width) := by
      rw [decodeAll, List.range_succ_eq_map, List.map_cons, List.map_map]
      congr 1
      · rw [slice, Nat.zero_mul, List.drop_zero]
      · apply List.map_congr_left
        intro i _
        show c.decode (slice ((i + 1) * c.width) c.width b) = _
        rw [slice, slice, List.drop_drop]
        congr 3
        ring
    have hmul : (n + 1) * c.width = n * c.width + c.width := Nat.succ_mul n c.width
    have htake : (b.take c.width).length = c.width := by rw [List.length_take]; omega
    have hdrop : (b.drop c.width).length = n * c.width := by rw [List.length_drop]; omega
    have hcons : c.encodeAll (c.decodeAll (n + 1) b)
        = c.encode (c.decode (b.take c.width)) ++ c.encodeAll (c.decodeAll n (b.drop c.width)) := by
      rw [hsplit]
      rfl
    rw [hcons, c.encode_decode _ htake, c.encodeAll_decodeAll n _ hdrop, List.take_append_drop]

end FixedCodec
