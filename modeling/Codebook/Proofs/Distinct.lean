import Mathlib.Data.List.Basic
import Mathlib.Data.List.Induction
import Mathlib.Data.List.Nodup

namespace Codebook

-- What is left of a list without its repeats: every element once, where it came first.

variable {α β : Type} [BEq α] [LawfulBEq α]

theorem removeAll_singleton (item : α) (front : List α) :
    [item].removeAll front = if item ∈ front then [] else [item] := by
  by_cases hm : item ∈ front <;> simp [List.removeAll, hm]

theorem eraseDups_concat (front : List α) (item : α) :
    (front ++ [item]).eraseDups
      = if item ∈ front then front.eraseDups else front.eraseDups ++ [item] := by
  rw [List.eraseDups_append, removeAll_singleton]
  split <;> simp [List.eraseDups_cons]

theorem pairwise_idxOf_eraseDups (items : List α) :
    items.eraseDups.Pairwise fun a b => items.idxOf a < items.idxOf b := by
  induction items using List.reverseRecOn with
  | nil => exact List.Pairwise.nil
  | append_singleton front item ih =>
      -- what is in front keeps its place
      have hfront : front.eraseDups.Pairwise fun a b =>
          (front ++ [item]).idxOf a < (front ++ [item]).idxOf b := by
        refine ih.imp_of_mem fun {a b} ha hb hlt => ?_
        rwa [List.idxOf_append_of_mem (List.mem_eraseDups.mp ha),
          List.idxOf_append_of_mem (List.mem_eraseDups.mp hb)]
      rw [eraseDups_concat]
      split
      · exact hfront
      · rename_i hm
        refine List.pairwise_append.mpr ⟨hfront, List.pairwise_singleton _ _, ?_⟩
        intro a ha b hb
        obtain rfl := List.mem_singleton.mp hb
        have ha := List.mem_eraseDups.mp ha
        rw [List.idxOf_append_of_mem ha, List.idxOf_append_of_notMem hm]
        exact Nat.lt_add_right _ (List.idxOf_lt_length_iff.mpr ha)

-- The first of the items with one value comes in front of all items with a later value.
theorem pairwise_eraseDups_map {r : β → β → Prop} {items : List β} (h : items.Pairwise r)
    (f : β → α) :
    (items.map f).eraseDups.Pairwise fun a b =>
      ∃ first ∈ items, f first = a ∧ ∀ other ∈ items, f other = b → r first other := by
  refine (pairwise_idxOf_eraseDups (items.map f)).imp_of_mem fun {a b} ha hb hlt => ?_
  have ha := List.mem_eraseDups.mp ha
  have hb := List.mem_eraseDups.mp hb
  have hbefore := (List.mem_take_iff_idxOf_lt ha).mpr hlt
  have hnot := mt (List.mem_take_iff_idxOf_lt hb).mp (Nat.lt_irrefl _)
  rw [← List.map_take] at hbefore hnot
  obtain ⟨first, hfirst, rfl⟩ := List.mem_map.mp hbefore
  have hsplit := List.take_append_drop ((items.map f).idxOf b) items
  rw [← hsplit] at h
  refine ⟨first, List.mem_of_mem_take hfirst, rfl, fun other hother hvalue => ?_⟩
  rw [← hsplit] at hother
  rcases List.mem_append.mp hother with ho | ho
  · exact absurd (List.mem_map.mpr ⟨other, ho, hvalue⟩) hnot
  · exact (List.pairwise_append.mp h).2.2 first hfirst other ho

theorem eraseDups_filter (p : α → Bool) (items : List α) :
    (items.filter p).eraseDups = items.eraseDups.filter p := by
  induction items using List.reverseRecOn with
  | nil => rfl
  | append_singleton front item ih =>
      rw [eraseDups_concat, List.filter_append]
      by_cases hp : p item
      · have hone : [item].filter p = [item] := by simp [hp]
        rw [hone, eraseDups_concat, ih]
        by_cases hm : item ∈ front <;> simp [hp, hm]
      · have hnone : [item].filter p = [] := by simp [hp]
        rw [hnone, List.append_nil, ih]
        by_cases hm : item ∈ front <;> simp [hp, hm]

theorem eraseDups_map [BEq β] [LawfulBEq β] {f : α → β} {items : List α}
    (h : ∀ a ∈ items, ∀ b ∈ items, f a = f b → a = b) :
    (items.map f).eraseDups = items.eraseDups.map f := by
  induction items using List.reverseRecOn with
  | nil => rfl
  | append_singleton front item ih =>
      have hfront := ih fun a ha b hb =>
        h a (List.mem_append_left _ ha) b (List.mem_append_left _ hb)
      have hmem : f item ∈ front.map f ↔ item ∈ front := by
        refine ⟨fun hm => ?_, List.mem_map_of_mem⟩
        obtain ⟨other, ho, he⟩ := List.mem_map.mp hm
        exact h other (List.mem_append_left _ ho) item (by simp) he ▸ ho
      rw [List.map_append, List.map_singleton, eraseDups_concat, eraseDups_concat, hfront]
      by_cases hm : item ∈ front <;> simp [hm, hmem.mpr, mt hmem.mp]

theorem eraseDups_eq_self {items : List α} (h : items.Nodup) : items.eraseDups = items := by
  induction items using List.reverseRecOn with
  | nil => rfl
  | append_singleton front item ih =>
      obtain ⟨hfront, -, hapart⟩ := List.nodup_append.mp h
      have hm : item ∉ front := fun hm => hapart item hm item (by simp) rfl
      rw [eraseDups_concat, if_neg hm, ih hfront]

end Codebook
