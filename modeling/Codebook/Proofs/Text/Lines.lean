import Codebook.Proofs.Text.Blank
import Codebook.Proofs.Text.Split
import Codebook.Text.Lines
import Mathlib.Tactic.SplitIfs

namespace Codebook.Text

-- A row has its only line feed at its end, if it has one.
theorem exists_of_mem_rows {text row : List Char} (h : row ∈ rows text) :
    ∃ body, '\n' ∉ body ∧ (row = body ∨ row = body ++ ['\n']) := by
  induction text generalizing row with
  | nil => simp [rows] at h
  | cons c rest ih =>
      rw [rows] at h
      split at h
      · rename_i hc
        rcases List.mem_cons.mp h with rfl | h
        · exact ⟨[], by simp, .inr (by simp [hc])⟩
        · exact ih h
      · rename_i hc
        split at h
        · obtain rfl := List.mem_singleton.mp h
          exact ⟨[c], by simpa using Ne.symm hc, .inl rfl⟩
        · rename_i first more hrows
          rcases List.mem_cons.mp h with rfl | h
          · obtain ⟨body, hbody, hrow⟩ := @ih first (by simp [hrows])
            refine ⟨c :: body, by simp [hbody, Ne.symm hc], ?_⟩
            exact hrow.imp (congrArg (List.cons c)) (congrArg (List.cons c))
          · exact ih (by simp [hrows, h])

theorem rows_append_lineFeed {row : List Char} (h : '\n' ∉ row) (rest : List Char) :
    rows (row ++ '\n' :: rest) = (row ++ ['\n']) :: rows rest := by
  induction row with
  | nil => rw [List.nil_append, rows, if_pos rfl, List.nil_append]
  | cons c more ih =>
      obtain ⟨hc, hmore⟩ := not_or.mp (mt List.mem_cons.mpr h)
      rw [List.cons_append, rows, if_neg (Ne.symm hc), ih hmore]
      rfl

-- The lines of a source are its parts between line feeds, but an empty part at the end is none.

theorem rows_of_notMem {text : List Char} (hne : text ≠ []) (h : '\n' ∉ text) :
    rows text = [text] := by
  induction text with
  | nil => exact absurd rfl hne
  | cons c rest ih =>
      obtain ⟨hc, hrest⟩ := not_or.mp (mt List.mem_cons.mpr h)
      rw [rows, if_neg (Ne.symm hc)]
      cases rest with
      | nil => rfl
      | cons d rest => rw [ih (List.cons_ne_nil d rest) hrest]

theorem exists_shown {texts : List (List Char)} (h : ∀ text ∈ texts, '\n' ∉ text) :
    ∃ shown, (texts = shown ∨ texts = shown ++ [[]]) ∧
      (rows (['\n'].intercalate texts)).map trim = shown.map trim := by
  induction texts with
  | nil => exact ⟨[], .inl rfl, rfl⟩
  | cons text rest ih =>
      obtain ⟨htext, hrest⟩ := List.forall_mem_cons.mp h
      cases rest with
      | nil =>
          by_cases hne : text = []
          · exact ⟨[], .inr (by rw [hne, List.nil_append]), by rw [hne]; rfl⟩
          · refine ⟨[text], .inl rfl, ?_⟩
            rw [List.intercalate_singleton, rows_of_notMem hne htext]
      | cons next rest =>
          obtain ⟨shown, hshown, hrows⟩ := ih hrest
          refine ⟨text :: shown, hshown.imp (congrArg _) (congrArg _), ?_⟩
          rw [List.intercalate_cons_cons, List.append_assoc, List.singleton_append,
            rows_append_lineFeed htext, List.map_cons, List.map_cons, hrows,
            trim_append_blank (by decide)]

-- A text that is not empty is shown with all in front of it.
theorem exists_shown_behind {front : List (List Char)} {text : List Char}
    {after : List (List Char)} (h : ∀ part ∈ front ++ text :: after, '\n' ∉ part)
    (hne : text ≠ []) :
    ∃ behind, behind <+: after ∧
      (rows (['\n'].intercalate (front ++ text :: after))).map trim
        = (front ++ text :: behind).map trim := by
  obtain ⟨shown, hall | hcut, hrows⟩ := exists_shown h
  · exact ⟨after, List.prefix_rfl, by rw [hrows, hall]⟩
  rcases List.eq_nil_or_concat' after with rfl | ⟨behind, last, rfl⟩
  · have hlast := (List.append_inj' hcut rfl).2
    exact absurd (List.cons.inj hlast).1 hne
  · have hshown : (front ++ text :: behind) ++ [last] = shown ++ [[]] := by
      simpa using hcut
    exact ⟨behind, List.prefix_append behind [last],
      by rw [hrows, (List.append_inj' hshown rfl).1]⟩

-- A text is empty, or one line without a line feed, or a line with its line feed and a text behind.
theorem rows_induction {P : List Char → Prop} (nil : P [])
    (last : ∀ line, line ≠ [] → '\n' ∉ line → P line)
    (feed : ∀ line rest, '\n' ∉ line → P rest → P (line ++ '\n' :: rest)) (text : List Char) :
    P text := by
  induction hn : text.length using Nat.strong_induction_on generalizing text with
  | _ n ih =>
      by_cases hm : '\n' ∈ text
      · obtain ⟨line, rest, rfl, hline⟩ := List.eq_append_cons_of_mem hm
        have hlength : rest.length < n := by
          rw [← hn, List.length_append, List.length_cons]
          omega
        exact feed line rest hline (ih rest.length hlength rest rfl)
      · by_cases hne : text = []
        · exact hne ▸ nil
        · exact last text hne hm

-- What stands between line feeds, without the empty part behind the last one
def parts (text : List Char) : List (List Char) :=
  if (splitOn '\n' text).getLast? = some [] then (splitOn '\n' text).dropLast
  else splitOn '\n' text

theorem parts_of_notMem {line : List Char} (hne : line ≠ []) (h : '\n' ∉ line) :
    parts line = [line] := by
  simp [parts, splitOn_of_notMem h, hne]

theorem parts_append_lineFeed {line : List Char} (h : '\n' ∉ line) (rest : List Char) :
    parts (line ++ '\n' :: rest) = line :: parts rest := by
  have hne := splitOn_ne_nil '\n' rest
  simp only [parts, splitOn_append_separator h, List.getLast?_cons_of_ne_nil hne,
    List.dropLast_cons_of_ne_nil hne]
  split_ifs <;> rfl

theorem map_trim_rows (text : List Char) : (rows text).map trim = (parts text).map trim := by
  induction text using rows_induction with
  | nil => rfl
  | last line hne hline => rw [rows_of_notMem hne hline, parts_of_notMem hne hline]
  | feed line rest hline ih =>
      rw [rows_append_lineFeed hline, parts_append_lineFeed hline, List.map_cons, List.map_cons, ih,
        trim_append_blank (by decide)]

-- A row is shown without its line end, and that is blank.

theorem withoutLineEnd_of_notMem {row : List Char} (h : '\n' ∉ row) : withoutLineEnd row = row := by
  unfold withoutLineEnd
  split
  · rename_i body hrow
    exact absurd (List.mem_reverse.mp (hrow ▸ List.mem_cons_self)) h
  · rename_i body hrow
    exact absurd (List.mem_reverse.mp (hrow ▸ List.mem_cons_self)) h
  · rfl

theorem isPrefix_withoutLineEnd (body : List Char) :
    withoutLineEnd (body ++ ['\n']) <+: body := by
  unfold withoutLineEnd
  rw [List.reverse_append, List.reverse_singleton, List.singleton_append]
  split
  · rename_i rest hrow
    obtain ⟨-, hbody⟩ := List.cons.inj hrow
    exact ⟨['\r'], by rw [← List.reverse_cons, ← hbody, List.reverse_reverse]⟩
  · rename_i rest hrow
    obtain ⟨-, rfl⟩ := List.cons.inj hrow
    rw [List.reverse_reverse]
  · rename_i hnone
    exact absurd rfl (hnone body.reverse)

theorem noLineFeed_of_mem_lines {text line : String} (h : line ∈ lines text) :
    '\n' ∉ line.toList := by
  obtain ⟨row, hrow, rfl⟩ := List.mem_map.mp h
  obtain ⟨body, hbody, rfl | rfl⟩ := exists_of_mem_rows hrow
  · rwa [String.toList_ofList, withoutLineEnd_of_notMem hbody]
  · rw [String.toList_ofList]
    exact fun hm => hbody ((isPrefix_withoutLineEnd body).mem hm)

theorem exists_lineEnd (row : List Char) :
    ∃ ends, (∀ c ∈ ends, isBlank c) ∧ row = withoutLineEnd row ++ ends := by
  unfold withoutLineEnd
  split
  · rename_i body hrow
    have hblank : ∀ c ∈ ['\r', '\n'], isBlank c :=
      List.forall_mem_cons.mpr ⟨by decide, List.forall_mem_singleton.mpr (by decide)⟩
    refine ⟨['\r', '\n'], hblank, ?_⟩
    rw [← List.reverse_reverse row, hrow]
    simp
  · rename_i body hother hrow
    refine ⟨['\n'], List.forall_mem_singleton.mpr (by decide), ?_⟩
    rw [← List.reverse_reverse row, hrow, List.reverse_cons]
  · exact ⟨[], by simp, by rw [List.append_nil]⟩

-- What ends without a blank is shown as a whole.
theorem withoutLineEnd_append {front : List Char} (h : ∀ c ∈ front.getLast?, isBlank c = false)
    (trail : List Char) : ∃ behind, withoutLineEnd (front ++ trail) = front ++ behind := by
  obtain ⟨ends, hends, hrow⟩ := exists_lineEnd (front ++ trail)
  rcases List.append_eq_append_iff.mp hrow with ⟨behind, hshown, -⟩ | ⟨more, hfront, hmore⟩
  · exact ⟨behind, hshown⟩
  · rcases List.eq_nil_or_concat' more with rfl | ⟨init, last, rfl⟩
    · rw [List.append_nil] at hfront
      exact ⟨[], by rw [List.append_nil, ← hfront]⟩
    · -- the last character would stand in the line end
      have hlast : last ∈ front.getLast? := by
        rw [hfront, ← List.append_assoc, List.getLast?_concat]
        rfl
      have hblank := hends last (by simp [hmore])
      rw [h last hlast] at hblank
      exact absurd hblank Bool.false_ne_true

end Codebook.Text
