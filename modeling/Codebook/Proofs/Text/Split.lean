import Codebook.Text.Split

namespace Codebook.Text

theorem splitOn_append_separator {separator : Char} {part : List Char} (h : separator ∉ part)
    (rest : List Char) :
    splitOn separator (part ++ separator :: rest) = part :: splitOn separator rest := by
  induction part with
  | nil => simp [splitOn]
  | cons c part ih =>
      obtain ⟨hc, hpart⟩ := not_or.mp (mt List.mem_cons.mpr h)
      simp [splitOn, ih hpart, Ne.symm hc]

theorem splitOn_of_notMem {separator : Char} {part : List Char} (h : separator ∉ part) :
    splitOn separator part = [part] := by
  induction part with
  | nil => rfl
  | cons c part ih =>
      obtain ⟨hc, hpart⟩ := not_or.mp (mt List.mem_cons.mpr h)
      simp [splitOn, ih hpart, Ne.symm hc]

-- Lines that each end with a separator, and one that is begun
theorem splitOn_flatMap {separator : Char} {ended : List (List Char)} {begun : List Char}
    (he : ∀ line ∈ ended, separator ∉ line) (hb : separator ∉ begun) :
    splitOn separator ((ended.flatMap fun line => line ++ [separator]) ++ begun)
      = ended ++ [begun] := by
  induction ended with
  | nil => exact splitOn_of_notMem hb
  | cons line rest ih =>
      obtain ⟨hline, hrest⟩ := List.forall_mem_cons.mp he
      rw [List.flatMap_cons, List.append_assoc, List.append_assoc, List.singleton_append,
        splitOn_append_separator hline, ih hrest, List.cons_append]

theorem length_splitOn (separator : Char) (text : List Char) :
    (splitOn separator text).length = text.count separator + 1 := by
  induction text with
  | nil => rfl
  | cons c rest ih =>
      by_cases hc : c = separator
      · simp [splitOn, hc, ih]
      · cases hrest : splitOn separator rest with
        | nil => exact absurd hrest (splitOn_ne_nil separator rest)
        | cons part more =>
            rw [hrest] at ih
            simpa [splitOn, hc, hrest] using ih

theorem splitOn_append (separator : Char) (front behind : List Char) :
    splitOn separator (front ++ separator :: behind)
      = splitOn separator front ++ splitOn separator behind := by
  induction front with
  | nil => simp [splitOn]
  | cons c front ih =>
      by_cases hc : c = separator
      · simp [splitOn, hc, ih]
      · simp only [List.cons_append, splitOn, hc, if_false, ih]
        cases hfront : splitOn separator front with
        | nil => exact absurd hfront (splitOn_ne_nil separator front)
        | cons part more => rfl

theorem notMem_of_mem_splitOn {separator : Char} {text part : List Char}
    (h : part ∈ splitOn separator text) : separator ∉ part := by
  induction text generalizing part with
  | nil =>
      rw [splitOn, List.mem_singleton] at h
      simp [h]
  | cons c rest ih =>
      cases hrest : splitOn separator rest with
      | nil => exact absurd hrest (splitOn_ne_nil _ _)
      | cons first more =>
          rw [hrest] at ih
          by_cases hc : c = separator
          · simp only [splitOn, hc, if_true, hrest] at h
            rcases List.mem_cons.mp h with rfl | h
            · simp
            · exact ih h
          · simp only [splitOn, hc, if_false, hrest] at h
            rcases List.mem_cons.mp h with rfl | h
            · have hfirst := ih List.mem_cons_self
              simp [hfirst, Ne.symm hc]
            · exact ih (List.mem_cons_of_mem _ h)

theorem mem_of_mem_splitOn {separator x : Char} {text part : List Char}
    (hp : part ∈ splitOn separator text) (hx : x ∈ part) : x ∈ text := by
  induction text generalizing part with
  | nil =>
      rw [splitOn, List.mem_singleton] at hp
      exact hp ▸ hx
  | cons c rest ih =>
      cases hs : splitOn separator rest with
      | nil => exact absurd hs (splitOn_ne_nil _ _)
      | cons first more =>
          rw [hs] at ih
          by_cases hc : c = separator
          · simp only [splitOn, hc, if_true, hs] at hp
            rcases List.mem_cons.mp hp with rfl | hp
            · simp at hx
            · exact List.mem_cons_of_mem _ (ih hp hx)
          · simp only [splitOn, hc, if_false, hs] at hp
            rcases List.mem_cons.mp hp with rfl | hp
            · rcases List.mem_cons.mp hx with rfl | hx
              · exact List.mem_cons_self
              · exact List.mem_cons_of_mem _ (ih List.mem_cons_self hx)
            · exact List.mem_cons_of_mem _ (ih (List.mem_cons_of_mem _ hp) hx)

end Codebook.Text
