/-
  What a cyclic redundancy check detects.

  A check of `w` bits is a register that is fed one bit at a time, the most significant end first:
  `shift` multiplies the register by `x` modulo the generator `poly`, and `feed` adds the bit at the
  top before it does.  Both are linear, and `shift` loses nothing when the generator has a constant
  term.  Feeding up to `w` bits is the same as adding all of them at once and shifting afterwards
  (`run_eq`), so a register that is fed two different words of that length ends up different, and
  stays different whatever comes next.

  `run_ne_of_burst` puts this together: **a change within `w` consecutive bits is always detected.**
-/
import Mathlib.Data.BitVec
import Mathlib.Logic.Function.Iterate

namespace Crc

variable {w : Nat}

/-- One step of the register: multiplication by `x`, modulo the generator. -/
def shift (poly crc : BitVec w) : BitVec w :=
  if crc.msb then crc <<< 1 ^^^ poly else crc <<< 1

/-- A bit at the top of the register. -/
def top (w : Nat) (bit : Bool) : BitVec w := if bit then BitVec.twoPow w (w - 1) else 0#w

/-- The register is fed a bit. -/
def feed (poly crc : BitVec w) (bit : Bool) : BitVec w := shift poly (crc ^^^ top w bit)

/-- The register is fed a word. -/
def run (poly crc : BitVec w) (bits : List Bool) : BitVec w := bits.foldl (feed poly) crc

/-- A word of up to `w` bits, from the top of the register. -/
def aligned (w : Nat) : List Bool → BitVec w
  | [] => 0#w
  | bit :: bits => top w bit ^^^ aligned w bits >>> 1

/-! ## The step -/

section Shift

variable (poly a b : BitVec w)

/-- The step, as a shift and what the top bit adds. -/
theorem shift_eq : shift poly a = a <<< 1 ^^^ (if a.msb then poly else 0#w) := by
  unfold shift
  split
  · rfl
  · rw [BitVec.xor_zero]

/-- **The step is linear.** -/
theorem shift_xor : shift poly (a ^^^ b) = shift poly a ^^^ shift poly b := by
  have htop : (if a.msb ^^ b.msb then poly else 0#w)
      = (if a.msb then poly else 0#w) ^^^ (if b.msb then poly else 0#w) := by
    cases a.msb <;> cases b.msb <;> simp
  rw [shift_eq, shift_eq, shift_eq, BitVec.shiftLeft_xor_distrib, BitVec.msb_xor, htop]
  ac_rfl

variable {poly} (hpoly : poly.getLsbD 0 = true)
include hpoly

/-- **The step loses nothing**, if the generator has a constant term. -/
theorem shift_injective : Function.Injective (shift poly) := by
  have hzero : ∀ a : BitVec w, shift poly a = 0#w → a = 0#w := by
    intro a h
    rw [shift_eq] at h
    cases hmsb : a.msb with
    | true =>
      -- the lowest bit of the result is that of the generator
      have hlow := congrArg (BitVec.getLsbD · 0) h
      simp [hmsb, hpoly] at hlow
    | false =>
      rw [hmsb, if_neg Bool.false_ne_true, BitVec.xor_zero] at h
      apply BitVec.eq_of_getLsbD_eq
      intro i hi
      rw [BitVec.getLsbD_zero]
      by_cases hlast : i + 1 < w
      · have hnext := congrArg (BitVec.getLsbD · (i + 1)) h
        rw [BitVec.getLsbD_shiftLeft, decide_eq_true hlast, decide_eq_false (by omega),
          BitVec.getLsbD_zero] at hnext
        exact hnext
      · have hi : i = w - 1 := by omega
        rw [hi, ← BitVec.msb_eq_getLsbD_last, hmsb]
  intro a b h
  have hdiff : shift poly (a ^^^ b) = 0#w := by
    rw [shift_xor, h, BitVec.xor_self]
  exact BitVec.xor_eq_zero_iff.mp (hzero _ hdiff)

/-- The register remembers what it was before a word. -/
theorem run_injective (bits : List Bool) : Function.Injective fun crc => run poly crc bits := by
  induction bits with
  | nil => exact fun a b h => h
  | cons bit bits ih =>
    intro a b h
    exact (BitVec.xor_left_inj _).mp (shift_injective hpoly (ih h))

end Shift

/-! ## A word that fits the register -/

section Word

theorem msb_top (hw : 0 < w) (bit : Bool) : (top w bit).msb = bit := by
  cases bit with
  | false => simp [top]
  | true =>
    rw [top, if_pos rfl, BitVec.msb_twoPow, decide_eq_true rfl, Bool.and_true]
    exact decide_eq_true (by omega)

theorem getLsbD_top {bit : Bool} {i : Nat} (hi : i + 1 < w) : (top w bit).getLsbD i = false := by
  cases bit with
  | false => simp [top]
  | true =>
    rw [top, if_pos rfl, BitVec.getLsbD_twoPow, decide_eq_false (by omega : ¬ w - 1 = i),
      Bool.and_false]

/-- A word leaves the bottom of the register free. -/
theorem getLsbD_aligned (bits : List Bool) : ∀ i, i + bits.length < w →
    (aligned w bits).getLsbD i = false := by
  induction bits with
  | nil => exact fun i _ => BitVec.getLsbD_zero
  | cons bit bits ih =>
    intro i hi
    rw [List.length_cons] at hi
    rw [aligned, BitVec.getLsbD_xor, getLsbD_top (by omega), BitVec.getLsbD_ushiftRight,
      ih _ (by omega)]
    rfl

theorem aligned_ushiftRight_shiftLeft {bits : List Bool} (h : bits.length < w) :
    aligned w bits >>> 1 <<< 1 = aligned w bits := by
  apply BitVec.eq_of_getLsbD_eq
  intro i hi
  rw [BitVec.getLsbD_shiftLeft, BitVec.getLsbD_ushiftRight, decide_eq_true hi]
  cases i with
  | zero => exact (getLsbD_aligned bits 0 (by omega)).symm
  | succ i =>
    have hi : 1 + (i + 1 - 1) = i + 1 := by omega
    rw [hi, decide_eq_false (by omega)]
    rfl

/-- A word that leaves room at the bottom of the register is shifted without the generator. -/
theorem shift_ushiftRight (poly : BitVec w) {bits : List Bool} (h : bits.length < w) :
    shift poly (aligned w bits >>> 1) = aligned w bits := by
  have hmsb : (aligned w bits >>> 1).msb = false := by
    rw [BitVec.msb_ushiftRight]
    rfl
  rw [shift_eq, hmsb, aligned_ushiftRight_shiftLeft h, if_neg Bool.false_ne_true, BitVec.xor_zero]

/-- **Feeding a word that fits is adding it and shifting afterwards.** -/
theorem run_eq (poly : BitVec w) (bits : List Bool) : ∀ crc : BitVec w, bits.length ≤ w →
    run poly crc bits = (shift poly)^[bits.length] (crc ^^^ aligned w bits) := by
  induction bits with
  | nil =>
    intro crc _
    rw [aligned, BitVec.xor_zero]
    rfl
  | cons bit bits ih =>
    intro crc h
    rw [List.length_cons] at h
    have hstep : feed poly crc bit ^^^ aligned w bits
        = shift poly (crc ^^^ aligned w (bit :: bits)) := by
      conv_lhs => rw [← shift_ushiftRight poly (by omega), feed, ← shift_xor, BitVec.xor_assoc]
      rfl
    calc run poly crc (bit :: bits) = run poly (feed poly crc bit) bits := rfl
      _ = (shift poly)^[bits.length] (feed poly crc bit ^^^ aligned w bits) := ih _ (by omega)
      _ = (shift poly)^[bits.length] (shift poly (crc ^^^ aligned w (bit :: bits))) := by rw [hstep]
      _ = (shift poly)^[(bit :: bits).length] (crc ^^^ aligned w (bit :: bits)) :=
        (Function.iterate_succ_apply _ _ _).symm

/-- Words of one length that fit are told apart by their place in the register. -/
theorem aligned_injective (bits : List Bool) : ∀ bits' : List Bool, bits'.length = bits.length →
    bits.length ≤ w → aligned w bits' = aligned w bits → bits' = bits := by
  induction bits with
  | nil => exact fun bits' hlen _ _ => List.eq_nil_of_length_eq_zero hlen
  | cons bit bits ih =>
    intro bits' hlen hle heq
    cases bits' with
    | nil => cases hlen
    | cons bit' bits' =>
      rw [List.length_cons, List.length_cons] at hlen
      rw [List.length_cons] at hle
      have hmsb : ∀ (b : Bool) (bs : List Bool), (aligned w (b :: bs)).msb = b := by
        intro b bs
        rw [aligned, BitVec.msb_xor, msb_top (by omega), BitVec.msb_ushiftRight]
        simp
      obtain rfl : bit' = bit := by rw [← hmsb bit' bits', heq, hmsb]
      have hrest : aligned w bits' >>> 1 = aligned w bits >>> 1 := (BitVec.xor_right_inj _).mp heq
      have hword : aligned w bits' >>> 1 <<< 1 = aligned w bits >>> 1 <<< 1 := by rw [hrest]
      rw [aligned_ushiftRight_shiftLeft (by omega), aligned_ushiftRight_shiftLeft (by omega)] at hword
      rw [ih bits' (by omega) (by omega) hword]

end Word

/-! ## Bursts -/

/-- Two words that differ, but within a window of `w` consecutive bits. -/
def Burst (w : Nat) (bits bits' : List Bool) : Prop :=
  ∃ pre mid mid' post, bits = pre ++ mid ++ post ∧ bits' = pre ++ mid' ++ post ∧
    mid'.length = mid.length ∧ mid.length ≤ w ∧ mid' ≠ mid

/-- **A burst is detected.** -/
theorem run_ne_of_burst {poly : BitVec w} (hpoly : poly.getLsbD 0 = true) {bits bits' : List Bool}
    (h : Burst w bits bits') (crc : BitVec w) : run poly crc bits' ≠ run poly crc bits := by
  obtain ⟨pre, mid, mid', post, rfl, rfl, hlen, hle, hne⟩ := h
  intro heq
  simp only [run, List.foldl_append] at heq
  -- what follows the burst does not undo it
  have hmid : run poly (run poly crc pre) mid' = run poly (run poly crc pre) mid :=
    run_injective hpoly post heq
  rw [run_eq poly mid' _ (by omega), run_eq poly mid _ hle, hlen] at hmid
  have halign := (shift_injective hpoly).iterate _ hmid
  exact hne (aligned_injective mid mid' hlen hle ((BitVec.xor_right_inj _).mp halign))

end Crc
