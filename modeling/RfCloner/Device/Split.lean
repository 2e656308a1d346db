/-
  Cutting a window into frames (`capture_validator.cpp`).

  `split_frames` is the inverse of joining.  What it makes of any window is well formed: frames that
  hold something and no long space, and a long space for each two neighbours.  Joining these gives the
  window back, but for the space it begins or ends with, when no two long spaces of the window are
  next to each other; and what is joined from well-formed parts is cut into these parts.
-/
import RfCloner.Device.SingleFrame
import RfCloner.Lib.Interleave
import Mathlib.Data.List.Chain

namespace RfCloner

/-! ## Gaps as spaces -/

/-- A space that `split_frames` cuts at. -/
abbrev LongSpace (frameGapMinUs : UInt32) (timing : Int32) : Prop :=
  timing < 0 ∧ magnitude timing ≥ frameGapMinUs

/-- No two long spaces are next to each other. -/
def Separated (frameGapMinUs : UInt32) (timings : Frame) : Prop :=
  timings.IsChain fun a b => ¬ (LongSpace frameGapMinUs a ∧ LongSpace frameGapMinUs b)

/-- The space that a gap is. -/
def space (gap : UInt32) : Int32 := Int32.ofInt (-(gap.toNat : Int))

/-- A gap that is a space of an `int32_t`. -/
structure IsGap (frameGapMinUs gap : UInt32) : Prop where
  long : frameGapMinUs ≤ gap
  positive : 0 < gap.toNat
  spaced : gap.toNat ≤ 2 ^ 31

section Space

variable {frameGapMinUs gap : UInt32} {timing : Int32}

theorem toInt_space (h : gap.toNat ≤ 2 ^ 31) : (space gap).toInt = -(gap.toNat : Int) :=
  Int32.toInt_ofInt_of_le (by omega) (by omega)

theorem toNat_magnitude (timing : Int32) : (magnitude timing).toNat = timing.toInt.natAbs := by
  have hle := Int32.le_toInt timing
  have hlt := Int32.toInt_lt timing
  have hfits : timing.toInt.natAbs < 2 ^ 32 := by omega
  exact UInt32.toNat_ofNat_of_lt' hfits

theorem toInt_neg_of_space (h : timing < 0) : timing.toInt < 0 := Int32.lt_iff_toInt_lt.mp h

/-- The gap that a space comes to is the space again. -/
theorem space_magnitude (h : timing < 0) : space (magnitude timing) = timing := by
  have hneg := toInt_neg_of_space h
  unfold space
  rw [toNat_magnitude, Int.ofNat_natAbs_of_nonpos hneg.le, neg_neg]
  exact Int32.ofInt_toInt timing

theorem isGap_magnitude (h : LongSpace frameGapMinUs timing) :
    IsGap frameGapMinUs (magnitude timing) := by
  have hneg := toInt_neg_of_space h.1
  have hle := Int32.le_toInt timing
  exact ⟨h.2, by rw [toNat_magnitude]; omega, by rw [toNat_magnitude]; omega⟩

theorem magnitude_space (h : IsGap frameGapMinUs gap) : magnitude (space gap) = gap := by
  apply UInt32.toNat_inj.mp
  rw [toNat_magnitude, toInt_space h.spaced]
  omega

theorem longSpace_space (h : IsGap frameGapMinUs gap) : LongSpace frameGapMinUs (space gap) := by
  refine ⟨Int32.lt_iff_toInt_lt.mpr ?_, ?_⟩
  · rw [toInt_space h.spaced]
    have := h.positive
    show _ < (0 : Int)
    omega
  · rw [magnitude_space h]
    exact h.long

theorem hasGap_eq_false_iff {frame : Frame} :
    hasGap frameGapMinUs frame = false ↔ ∀ timing ∈ frame, ¬ LongSpace frameGapMinUs timing := by
  simp [hasGap]

end Space

/-! ## The parts of a window -/

namespace SplitFrames

/-- The frames with the gaps between them. -/
def joined (split : SplitFrames) : Frame :=
  Interleave.join split.frames (split.gaps.map space)

/-- What a window can be cut into. -/
structure WellFormed (frameGapMinUs : UInt32) (split : SplitFrames) : Prop where
  nonempty : ∀ frame ∈ split.frames, frame ≠ []
  whole : ∀ frame ∈ split.frames, hasGap frameGapMinUs frame = false
  between : split.gaps.length = split.frames.length - 1
  gaps : ∀ gap ∈ split.gaps, IsGap frameGapMinUs gap

end SplitFrames

section Loop

variable {frameGapMinUs : UInt32}

/-- What the loop has collected it only adds to. -/
theorem splitLoop_result (timings : Frame) : ∀ (current : Frame) (result : SplitFrames),
    splitLoop frameGapMinUs current result timings
      = ⟨result.frames ++ (splitLoop frameGapMinUs current {} timings).frames,
          result.gaps ++ (splitLoop frameGapMinUs current {} timings).gaps⟩ := by
  induction timings with
  | nil =>
    intro current result
    unfold splitLoop
    split <;> simp
  | cons timing timings ih =>
    intro current result
    rw [splitLoop, splitLoop]
    split
    · split
      · exact ih current result
      · rw [ih, ih _ ⟨[] ++ [current], _⟩]
        simp
    · exact ih _ result

theorem splitLoop_long {current timings : Frame} {timing : Int32}
    (hlong : LongSpace frameGapMinUs timing) (hcurrent : current ≠ []) :
    splitLoop frameGapMinUs current {} (timing :: timings)
      = ⟨current :: (splitLoop frameGapMinUs [] {} timings).frames,
          magnitude timing :: (splitLoop frameGapMinUs [] {} timings).gaps⟩ := by
  rw [splitLoop, if_pos hlong, if_neg (by simpa using hcurrent), splitLoop_result]
  rfl

theorem splitLoop_short {current timings : Frame} {timing : Int32} {result : SplitFrames}
    (hshort : ¬ LongSpace frameGapMinUs timing) :
    splitLoop frameGapMinUs current result (timing :: timings)
      = splitLoop frameGapMinUs (current ++ [timing]) result timings := by
  rw [splitLoop, if_neg hshort]

/-- Every frame that is closed holds something. -/
theorem nonempty_of_splitFrames {timings frame : Frame}
    (h : frame ∈ (splitFrames timings frameGapMinUs).frames) : frame ≠ [] := by
  obtain ⟨last, collected, hcollected, hout⟩ := splitLoop_inv frameGapMinUs
    (P := fun _ result => ∀ frame ∈ result.frames, frame ≠ [])
    (fun _ _ _ _ hcurrent h =>
      List.forall_mem_append.mpr ⟨h, List.forall_mem_singleton.mpr hcurrent⟩)
    (fun _ _ _ _ h => h) timings [] {} (by simp)
  have hframe : frame ∈ (splitLoop frameGapMinUs [] {} timings).frames := h
  rw [hout] at hframe
  split at hframe
  · exact hcollected frame hframe
  · rename_i hlast
    have hne : last ≠ [] := by simpa using hlast
    exact List.forall_mem_append.mpr ⟨hcollected, List.forall_mem_singleton.mpr hne⟩ frame hframe

/-- Every gap is that of a long space. -/
theorem isGap_of_splitFrames {timings : Frame} {gap : UInt32}
    (h : gap ∈ (splitFrames timings frameGapMinUs).gaps) : IsGap frameGapMinUs gap := by
  obtain ⟨last, collected, hcollected, hout⟩ := splitLoop_inv frameGapMinUs
    (P := fun _ result => ∀ gap ∈ result.gaps, IsGap frameGapMinUs gap)
    (fun _ _ _ hlong _ h =>
      List.forall_mem_append.mpr ⟨h, List.forall_mem_singleton.mpr (isGap_magnitude hlong)⟩)
    (fun _ _ _ _ h => h) timings [] {} (by simp)
  have hgap : gap ∈ (splitLoop frameGapMinUs [] {} timings).gaps := List.mem_of_mem_take h
  rw [hout] at hgap
  split at hgap
  · exact hcollected gap hgap
  · exact hcollected gap hgap

variable (frameGapMinUs) in
/-- **Whatever the window, its parts are well formed.** -/
theorem wellFormed_splitFrames (timings : Frame) :
    (splitFrames timings frameGapMinUs).WellFormed frameGapMinUs where
  nonempty _ := nonempty_of_splitFrames
  whole _ := hasGap_of_splitFrames
  between := length_gaps frameGapMinUs timings
  gaps _ := isGap_of_splitFrames

/-- The window from a frame that is being collected on, up to a long space at its end. -/
theorem joined_splitLoop (timings : Frame) : ∀ current : Frame,
    Separated frameGapMinUs timings →
    (current = [] → ∀ first ∈ timings.head?, ¬ LongSpace frameGapMinUs first) →
    ∃ trailing, current ++ timings
        = (splitLoop frameGapMinUs current {} timings).joined ++ trailing ∧
      trailing.length ≤ 1 ∧ ∀ timing ∈ trailing, LongSpace frameGapMinUs timing := by
  induction timings with
  | nil =>
    intro current _ _
    refine ⟨[], ?_, by simp, nofun⟩
    cases current <;> simp [splitLoop, SplitFrames.joined]
  | cons timing timings ih =>
    intro current hsep hfirst
    have hrest : Separated frameGapMinUs timings := hsep.tail
    by_cases hlong : LongSpace frameGapMinUs timing
    · have hcurrent : current ≠ [] := fun hnil => hfirst hnil timing rfl hlong
      -- what follows a long space is not one
      have hnext : ∀ first ∈ timings.head?, ¬ LongSpace frameGapMinUs first := by
        intro first hhead hagain
        obtain ⟨later, rfl⟩ := List.head?_eq_some_iff.mp hhead
        exact (List.isChain_cons_cons.mp hsep).1 ⟨hlong, hagain⟩
      obtain ⟨trailing, hjoined, hone, hlongs⟩ := ih [] hrest fun _ => hnext
      rw [splitLoop_long hlong hcurrent]
      rw [List.nil_append] at hjoined
      cases hframes : (splitLoop frameGapMinUs [] {} timings).frames with
      | nil =>
        -- nothing but long spaces follows, and there is none of them
        have htrailing : timings = trailing := by
          rw [hjoined, SplitFrames.joined, hframes]
          rfl
        have hnil : timings = [] := by
          cases timings with
          | nil => rfl
          | cons first later =>
            exact absurd (hlongs first (htrailing ▸ List.mem_cons_self)) (hnext first rfl)
        refine ⟨[timing], ?_, by simp, by simpa using hlong⟩
        rw [hnil, SplitFrames.joined]
        simp
      | cons frame frames =>
        refine ⟨trailing, ?_, hone, hlongs⟩
        rw [SplitFrames.joined, hframes] at hjoined
        rw [SplitFrames.joined, List.map_cons, Interleave.join_cons_cons, space_magnitude hlong.1]
        rw [List.append_assoc, List.cons_append, ← hjoined]
    · rw [splitLoop_short hlong]
      obtain ⟨trailing, hjoined, hone, hlongs⟩ := ih (current ++ [timing]) hrest (by simp)
      exact ⟨trailing, by rw [← hjoined]; simp, hone, hlongs⟩

theorem joined_splitFrames (timings : Frame) : (splitFrames timings frameGapMinUs).joined
    = (splitLoop frameGapMinUs [] {} timings).joined := by
  rw [SplitFrames.joined, SplitFrames.joined, splitFrames, List.map_take, Interleave.join_take]

/-- **The window is the frames and the gaps between them**, but for a long space at either end. -/
theorem splitFrames_window {timings : Frame} (hsep : Separated frameGapMinUs timings) :
    ∃ leading trailing, timings = leading ++ (splitFrames timings frameGapMinUs).joined ++ trailing ∧
      leading.length ≤ 1 ∧ trailing.length ≤ 1 ∧
      ∀ timing ∈ leading ++ trailing, LongSpace frameGapMinUs timing := by
  rw [joined_splitFrames]
  cases timings with
  | nil => exact ⟨[], [], rfl, by simp, by simp, nofun⟩
  | cons timing timings =>
    by_cases hlong : LongSpace frameGapMinUs timing
    · -- a window that opens on a gap: nothing has been collected to close
      have hopen : splitLoop frameGapMinUs [] {} (timing :: timings)
          = splitLoop frameGapMinUs [] {} timings := by
        rw [splitLoop, if_pos hlong]
        rfl
      obtain ⟨trailing, hjoined, hone, hlongs⟩ := joined_splitLoop timings [] hsep.tail
        fun _ first hhead hagain => by
          obtain ⟨later, rfl⟩ := List.head?_eq_some_iff.mp hhead
          exact (List.isChain_cons_cons.mp hsep).1 ⟨hlong, hagain⟩
      refine ⟨[timing], trailing, ?_, by simp, hone, List.forall_mem_cons.mpr ⟨hlong, hlongs⟩⟩
      rw [hopen, List.append_assoc, ← hjoined]
      rfl
    · obtain ⟨trailing, hjoined, hone, hlongs⟩ := joined_splitLoop (timing :: timings) [] hsep
        fun _ first hhead => Option.some.inj hhead ▸ hlong
      exact ⟨[], trailing, hjoined, by simp, hone, hlongs⟩

/-! ## Cutting what has been joined -/

theorem splitLoop_append {frame : Frame} (hframe : hasGap frameGapMinUs frame = false)
    (timings : Frame) : ∀ (current : Frame) (result : SplitFrames),
    splitLoop frameGapMinUs current result (frame ++ timings)
      = splitLoop frameGapMinUs (current ++ frame) result timings := by
  rw [hasGap_eq_false_iff] at hframe
  induction frame with
  | nil => exact fun current result => by rw [List.nil_append, List.append_nil]
  | cons timing frame ih =>
    intro current result
    rw [List.forall_mem_cons] at hframe
    rw [List.cons_append, splitLoop_short hframe.1, ih hframe.2, List.append_assoc]
    rfl

theorem splitLoop_joined (frames : List Frame) : ∀ gaps : List UInt32,
    SplitFrames.WellFormed frameGapMinUs ⟨frames, gaps⟩ →
    splitLoop frameGapMinUs [] {} (SplitFrames.joined ⟨frames, gaps⟩) = ⟨frames, gaps⟩ := by
  induction frames with
  | nil =>
    intro gaps h
    have hnil : gaps = [] := List.length_eq_zero_iff.mp h.between
    rw [hnil]
    rfl
  | cons frame frames ih =>
    intro gaps h
    have hframe : frame ≠ [] := h.nonempty frame List.mem_cons_self
    have hwhole := h.whole frame List.mem_cons_self
    cases frames with
    | nil =>
      have hnil : gaps = [] := List.length_eq_zero_iff.mp h.between
      rw [hnil, SplitFrames.joined, Interleave.join_singleton]
      have hloop := splitLoop_append hwhole [] [] {}
      rw [List.append_nil, List.nil_append] at hloop
      rw [hloop, splitLoop, if_neg (by simpa using hframe)]
      rfl
    | cons next frames =>
      cases gaps with
      | nil => exact absurd h.between (by simp)
      | cons gap gaps =>
        have hgap := h.gaps gap List.mem_cons_self
        have hrest := ih gaps
          { nonempty := fun f hf => h.nonempty f (List.mem_cons_of_mem _ hf)
            whole := fun f hf => h.whole f (List.mem_cons_of_mem _ hf)
            between := Nat.succ.inj h.between
            gaps := fun g hg => h.gaps g (List.mem_cons_of_mem _ hg) }
        simp only [SplitFrames.joined] at hrest ⊢
        rw [List.map_cons, Interleave.join_cons_cons, splitLoop_append hwhole, List.nil_append,
          splitLoop_long (longSpace_space hgap) hframe, magnitude_space hgap, hrest]

/-- **What is joined from well-formed parts is cut into these parts.** -/
theorem splitFrames_joined {split : SplitFrames} (h : split.WellFormed frameGapMinUs) :
    splitFrames split.joined frameGapMinUs = split := by
  rw [splitFrames, splitLoop_joined split.frames split.gaps h]
  simp only [← h.between, List.take_length]

end Loop

/-! ## The parts in their places -/

section Places

variable {frameGapMinUs : UInt32} {split : SplitFrames}

/-- No pulse is lost, duplicated or moved: what the frames hold is the window without its long
    spaces. -/
theorem flatten_frames {timings leading trailing : Frame} (h : split.WellFormed frameGapMinUs)
    (hwindow : timings = leading ++ split.joined ++ trailing)
    (hlongs : ∀ timing ∈ leading ++ trailing, LongSpace frameGapMinUs timing) :
    split.frames.flatten = timings.filter fun timing => ¬ LongSpace frameGapMinUs timing := by
  have hnone (l : Frame) (hl : ∀ timing ∈ l, timing ∈ leading ++ trailing) :
      l.filter (fun timing => decide (¬ LongSpace frameGapMinUs timing)) = [] := by
    refine List.filter_eq_nil_iff.mpr fun timing hmem => ?_
    simpa using hlongs timing (hl timing hmem)
  have hjoined : split.joined.filter (fun timing => decide (¬ LongSpace frameGapMinUs timing))
      = split.frames.flatten := by
    refine Interleave.filter_join split.frames ?_ (fun frame hframe timing htiming => ?_) ?_
    · rw [List.length_map, h.between]
    · exact decide_eq_true (hasGap_eq_false_iff.mp (h.whole frame hframe) timing htiming)
    · rintro _ hspace
      obtain ⟨gap, hgap, rfl⟩ := List.mem_map.mp hspace
      exact decide_eq_false (not_not.mpr (longSpace_space (h.gaps gap hgap)))
  rw [hwindow, List.filter_append, List.filter_append, hjoined,
    hnone leading fun _ => List.mem_append_left _, hnone trailing fun _ => List.mem_append_right _,
    List.nil_append, List.append_nil]

/-- A gap is the space between the two frames beside it. -/
theorem infix_of_mem_neighbours {frame next : Frame} {gap : UInt32}
    (hmem : (frame, next, gap) ∈ split.neighbours) :
    frame ++ space gap :: next <:+: split.joined := by
  refine Interleave.infix_join split.frames ?_
  have hmap : split.frames.zip (split.frames.tail.zip (split.gaps.map space))
      = split.neighbours.map fun n => (n.1, n.2.1, space n.2.2) := by
    unfold SplitFrames.neighbours
    rw [List.zip_map_right, List.zip_map_right]
    rfl
  rw [hmap]
  exact List.mem_map.mpr ⟨_, hmem, rfl⟩

end Places

/-- **`split_frames` inverts joining.**  A window with no two long spaces next to each other is the
    join of what it is cut into, but for a long space at either end; and what is joined from
    well-formed parts is cut into these parts. -/
theorem split_inverts_join (frameGapMinUs : UInt32) :
    (∀ timings, Separated frameGapMinUs timings →
      let split := splitFrames timings frameGapMinUs
      (∀ frame ∈ split.frames, frame ≠ [] ∧ ∀ timing ∈ frame, ¬ LongSpace frameGapMinUs timing) ∧
      split.gaps.length = split.frames.length - 1 ∧
      (∀ gap ∈ split.gaps, frameGapMinUs ≤ gap ∧ (space gap).toInt = -(gap.toNat : Int)) ∧
      (∃ leading trailing, timings = leading ++ split.joined ++ trailing ∧
        leading.length ≤ 1 ∧ trailing.length ≤ 1 ∧
        ∀ timing ∈ leading ++ trailing, LongSpace frameGapMinUs timing) ∧
      split.frames.flatten = timings.filter (fun timing => ¬ LongSpace frameGapMinUs timing) ∧
      ∀ frame next gap, (frame, next, gap) ∈ split.neighbours →
        frame ++ space gap :: next <:+: timings) ∧
    ∀ split : SplitFrames, split.WellFormed frameGapMinUs →
      splitFrames split.joined frameGapMinUs = split := by
  refine ⟨fun timings hsep => ?_, fun split => splitFrames_joined⟩
  have hformed := wellFormed_splitFrames frameGapMinUs timings
  obtain ⟨leading, trailing, hwindow, hleading, htrailing, hlongs⟩ := splitFrames_window hsep
  refine ⟨fun frame hframe => ⟨hformed.nonempty frame hframe,
      hasGap_eq_false_iff.mp (hformed.whole frame hframe)⟩,
    hformed.between,
    fun gap hgap => ⟨(hformed.gaps gap hgap).long, toInt_space (hformed.gaps gap hgap).spaced⟩,
    ⟨leading, trailing, hwindow, hleading, htrailing, hlongs⟩,
    flatten_frames hformed hwindow hlongs, fun frame next gap hmem => ?_⟩
  have hjoined : (splitFrames timings frameGapMinUs).joined <:+: timings :=
    ⟨leading, trailing, hwindow.symm⟩
  exact (infix_of_mem_neighbours hmem).trans hjoined

/-- Two repeats of a frame, and the gap after them. -/
def twoRepeats : Frame := [350, -1050, 350, -10000, 350, -1050, 350, -10000]

/-- They are cut at the first gap, and the second is left over. -/
theorem two_repeats_split :
    splitFrames twoRepeats 5000 = ⟨[[350, -1050, 350], [350, -1050, 350]], [10000]⟩ ∧
    ∃ leading trailing, twoRepeats = leading ++ (splitFrames twoRepeats 5000).joined ++ trailing ∧
      leading.length ≤ 1 ∧ trailing.length ≤ 1 ∧
      ∀ timing ∈ leading ++ trailing, LongSpace 5000 timing := by
  have hsep : Separated 5000 twoRepeats := by
    unfold Separated
    decide
  obtain ⟨-, -, -, hwindow, -, -⟩ := (split_inverts_join 5000).1 twoRepeats hsep
  exact ⟨by decide, hwindow⟩

end RfCloner
