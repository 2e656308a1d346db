/-
  Taking what fits.

  A receiver with limits is offered one item after another and keeps those that fit beside what it
  has kept so far.  What it ends up with depends on the order of the offers in general
  (`take_induction`), and not at all when every offer fits beside the others (`key_mem_take`).
-/
import Mathlib.Data.List.Nodup

namespace Greedy

variable {α κ : Type} {fits : List α → α → Prop} [∀ kept, DecidablePred (fits kept)]
  {kept offered : List α} {c : α}

variable (fits) in
/-- What is kept of the offers, besides what has been kept before. -/
def take (kept : List α) : List α → List α
  | [] => kept
  | c :: offered => take (if fits kept c then kept ++ [c] else kept) offered

theorem take_cons : take fits kept (c :: offered)
    = take fits (if fits kept c then kept ++ [c] else kept) offered := rfl

theorem take_append {offered' : List α} :
    take fits kept (offered ++ offered') = take fits (take fits kept offered) offered' := by
  induction offered generalizing kept with
  | nil => rfl
  | cons c offered ih => exact ih

/-- What holds of what has been kept so far, and goes on holding when something that fits is added,
    holds in the end. -/
theorem take_induction {P : List α → Prop} (hkept : P kept)
    (hadd : ∀ kept c, c ∈ offered → P kept → fits kept c → P (kept ++ [c])) :
    P (take fits kept offered) := by
  induction offered generalizing kept with
  | nil => exact hkept
  | cons c offered ih =>
    rw [take_cons]
    refine ih ?_ fun kept d hd => hadd kept d (List.mem_cons_of_mem _ hd)
    split
    · rename_i hfits
      exact hadd kept c List.mem_cons_self hkept hfits
    · exact hkept

theorem subset_take : kept ⊆ take fits kept offered :=
  take_induction (P := fun l => kept ⊆ l) (List.Subset.refl _) fun _ _ _ h _ =>
    List.Subset.trans h (List.subset_append_left _ _)

/-- Only what was offered is kept. -/
theorem mem_of_mem_take (h : c ∈ take fits kept offered) : c ∈ kept ∨ c ∈ offered := by
  refine take_induction (P := fun l => ∀ c ∈ l, c ∈ kept ∨ c ∈ offered) (fun _ => Or.inl) ?_ c h
  intro l d hd hl _ e he
  rcases List.mem_append.mp he with he | he
  · exact hl e he
  · rw [List.mem_singleton.mp he]
    exact Or.inr hd

variable (fits kept offered) in
/-- What is kept of the offers is in their order. -/
theorem exists_sublist_take :
    ∃ l : List α, l.Sublist offered ∧ take fits kept offered = kept ++ l := by
  induction offered generalizing kept with
  | nil => exact ⟨[], List.Sublist.slnil, (List.append_nil kept).symm⟩
  | cons c offered ih =>
    rw [take_cons]
    split
    · obtain ⟨l, hsub, hl⟩ := ih (kept ++ [c])
      exact ⟨c :: l, hsub.cons_cons c, by rw [hl, List.append_assoc]; rfl⟩
    · obtain ⟨l, hsub, hl⟩ := ih kept
      exact ⟨l, hsub.cons c, hl⟩

variable (fits offered) in
theorem length_take_le : (take fits [] offered).length ≤ offered.length := by
  obtain ⟨l, hsub, hl⟩ := exists_sublist_take fits [] offered
  rw [hl]
  exact hsub.length_le

/-- **Counting is enough**: as many kept as offered are all of them. -/
theorem take_eq_of_length (h : (take fits [] offered).length = offered.length) :
    take fits [] offered = offered := by
  obtain ⟨l, hsub, hl⟩ := exists_sublist_take fits [] offered
  rw [hl] at h ⊢
  exact hsub.eq_of_length h

/-- **As long as every offer fits beside those before it, all of them are kept.** -/
theorem take_eq_self {k : Nat} (h : ∀ j < k, ∀ c, offered[j]? = some c →
    take fits [] (offered.take j) = offered.take j → fits (offered.take j) c) :
    take fits [] (offered.take k) = offered.take k := by
  induction k with
  | zero => rfl
  | succ k ih =>
    have hkept := ih fun j hj => h j (by omega)
    cases hc : offered[k]? with
    | none =>
      have hlen := List.getElem?_eq_none_iff.mp hc
      rw [List.take_of_length_le hlen] at hkept
      rw [List.take_of_length_le (by omega), hkept]
    | some c =>
      rw [List.take_add_one, hc, Option.toList_some, take_append, hkept, take_cons,
        if_pos (h k (Nat.lt_succ_self k) c hc hkept)]
      rfl

/-- **When an offer can only fail to fit because its key is already there, every key is kept.** -/
theorem key_mem_take (key : α → κ) {all : List α} (hkept : kept ⊆ all) (hall : offered ⊆ all)
    (hnodup : (kept.map key).Nodup)
    (hfits : ∀ kept c, kept ⊆ all → c ∈ all → (kept.map key).Nodup →
      (fits kept c ↔ key c ∉ kept.map key)) :
    ∀ c ∈ offered, key c ∈ (take fits kept offered).map key := by
  induction offered generalizing kept with
  | nil => exact fun c hc => (List.not_mem_nil hc).elim
  | cons d offered ih =>
    have hd : d ∈ all := hall List.mem_cons_self
    have hrest : offered ⊆ all := fun c hc => hall (List.mem_cons_of_mem _ hc)
    have hiff := hfits kept d hkept hd hnodup
    rw [take_cons]
    by_cases hdfits : fits kept d
    · rw [if_pos hdfits]
      have hkept' : kept ++ [d] ⊆ all := List.append_subset.mpr ⟨hkept, by simpa using hd⟩
      have hnodup' : ((kept ++ [d]).map key).Nodup := by
        rw [List.map_append, List.nodup_append]
        refine ⟨hnodup, List.nodup_singleton _, ?_⟩
        rintro x hx y hy rfl
        rw [List.map_singleton, List.mem_singleton] at hy
        exact hiff.mp hdfits (hy ▸ hx)
      intro c hc
      rcases List.mem_cons.mp hc with rfl | hc
      · exact List.mem_map_of_mem (subset_take (by simp))
      · exact ih hkept' hrest hnodup' c hc
    · rw [if_neg hdfits]
      intro c hc
      rcases List.mem_cons.mp hc with rfl | hc
      · obtain ⟨e, he, heq⟩ := List.mem_map.mp (not_not.mp (mt hiff.mpr hdfits))
        exact List.mem_map.mpr ⟨e, subset_take he, heq⟩
      · exact ih hkept hrest hnodup c hc

end Greedy
