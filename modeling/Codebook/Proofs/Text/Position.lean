import Codebook.Text.Position
import Mathlib.Data.List.Induction

namespace Codebook

-- What a place says of the text in front of it, and what a span says of the text that it covers.

theorem byte_after (p : Position) (text : List Char) :
    (p.after text).byte = p.byte + byteLength text := by
  induction text generalizing p with
  | nil => rfl
  | cons c rest ih =>
      have hnext : (p.next c).byte = p.byte + c.utf8Size := by
        unfold Position.next
        split <;> rfl
      rw [Position.after_cons, ih, hnext, byteLength_cons, Nat.add_assoc]

theorem byte_after_start (text : List Char) :
    (Position.start.after text).byte = byteLength text := by
  rw [byte_after]
  exact Nat.zero_add _

theorem line_after (p : Position) (text : List Char) :
    (p.after text).line = p.line + text.count '\n' := by
  induction text generalizing p with
  | nil => rfl
  | cons c rest ih =>
      rw [Position.after_cons, ih, List.count_cons, Position.next]
      by_cases hc : c = '\n'
      · simp [hc]
        omega
      · simp [hc]

-- Within a line a place moves by columns.
theorem after_of_notMem {text : List Char} (h : '\n' ∉ text) (p : Position) :
    p.after text = ⟨p.byte + byteLength text, p.line, p.column + text.length⟩ := by
  induction text generalizing p with
  | nil => rfl
  | cons c rest ih =>
      obtain ⟨hc, hrest⟩ := not_or.mp (mt List.mem_cons.mpr h)
      have hnext : p.next c = ⟨p.byte + c.utf8Size, p.line, p.column + 1⟩ :=
        if_neg (Ne.symm hc)
      rw [Position.after_cons, ih hrest, hnext, byteLength_cons, List.length_cons, Nat.add_assoc,
        Nat.add_assoc, Nat.add_comm 1]

theorem utf8ByteSize_eq_byteLength (text : String) :
    text.utf8ByteSize = byteLength text.toList := by
  have hlist (cs : List Char) : (String.ofList cs).utf8ByteSize = byteLength cs := by
    induction cs with
    | nil => rfl
    | cons c rest ih =>
        rw [String.ofList_cons, String.utf8ByteSize_append, String.utf8ByteSize_singleton, ih]
        rfl
  rw [← hlist, String.ofList_toList]

theorem byteLength_pos {text : List Char} (h : text ≠ []) : 0 < byteLength text := by
  cases text with
  | nil => exact absurd rfl h
  | cons c rest => exact Nat.add_pos_left c.utf8Size_pos _

-- A text has one part in front of a byte.
theorem eq_of_byteLength_eq {front behind other rest : List Char}
    (h : front ++ behind = other ++ rest) (hb : byteLength front = byteLength other) :
    front = other := by
  induction front generalizing other with
  | nil =>
      by_contra hne
      have hpos := byteLength_pos (Ne.symm hne)
      rw [byteLength_nil] at hb
      omega
  | cons c front ih =>
      cases other with
      | nil =>
          have hpos := byteLength_pos (List.cons_ne_nil c front)
          rw [byteLength_nil] at hb
          omega
      | cons d other =>
          obtain ⟨rfl, htail⟩ := List.cons.inj h
          rw [byteLength_cons, byteLength_cons] at hb
          rw [ih htail (by omega)]

-- A place of a text: its line and its column are those of the text in front of it.
def Position.IsIn (p : Position) (text : List Char) : Prop :=
  ∃ front behind, text = front ++ behind ∧ p.byte = byteLength front ∧
    p.line = front.count '\n' ∧ p.column = (front.reverse.takeWhile (· != '\n')).length

theorem isIn_after (front behind : List Char) :
    (Position.start.after front).IsIn (front ++ behind) := by
  refine ⟨front, behind, rfl, ?_⟩
  induction front using List.reverseRecOn with
  | nil => exact ⟨rfl, rfl, rfl⟩
  | append_singleton front c ih =>
      obtain ⟨hbyte, hline, hcolumn⟩ := ih
      rw [Position.after_append, Position.after_cons, Position.after_nil, Position.next]
      split
      · rename_i hc
        subst hc
        simp [hbyte, hline]
      · rename_i hc
        simp [hbyte, hline, hcolumn, hc]

-- The place of a byte has the line of that byte.
theorem line_of_isIn {p : Position} {front behind : List Char} (h : p.IsIn (front ++ behind))
    (hb : p.byte = byteLength front) : p.line = front.count '\n' := by
  obtain ⟨other, rest, heq, hbyte, hline, -⟩ := h
  rw [hline, eq_of_byteLength_eq heq (hb.symm.trans hbyte)]

namespace Span

def IsIn (span : Span) (source : List Char) : Prop :=
  span.start.IsIn source ∧ span.stop.IsIn source

-- A span covers a text where it stands in a source.
def Covers (source : List Char) (span : Span) (text : List Char) : Prop :=
  ∃ front behind, source = front ++ (text ++ behind) ∧
    span = covering (Position.start.after front) text

section

variable {source text : List Char} {span : Span}

theorem Covers.slice_eq (h : span.Covers source text) :
    slice span.start.byte span.stop.byte source = text := by
  obtain ⟨front, behind, rfl, rfl⟩ := h
  rw [covering, byte_after (Position.start.after front), byte_after_start, ← List.append_assoc,
    slice_append]

theorem Covers.isIn (h : span.Covers source text) : span.IsIn source := by
  obtain ⟨front, behind, rfl, rfl⟩ := h
  have hstop := isIn_after (front ++ text) behind
  rw [List.append_assoc, Position.after_append] at hstop
  exact ⟨isIn_after front (text ++ behind), hstop⟩

theorem Covers.stop_eq (h : span.Covers source text) :
    span.stop.byte = span.start.byte + byteLength text := by
  obtain ⟨front, behind, rfl, rfl⟩ := h
  exact byte_after _ text

theorem Covers.start_le_stop (h : span.Covers source text) :
    span.start.byte ≤ span.stop.byte := by
  rw [h.stop_eq]
  exact Nat.le_add_right _ _

theorem Covers.start_lt_stop (h : span.Covers source text) (hne : text ≠ []) :
    span.start.byte < span.stop.byte := by
  have hpos := byteLength_pos hne
  rw [h.stop_eq]
  omega

end

-- What is covered from the start of one text to the end of another begins with the one and ends
-- with the other.
theorem Covers.join {source opening closing : List Char} {first last : Span}
    (hf : first.Covers source opening) (hl : last.Covers source closing)
    (h : first.stop.byte ≤ last.start.byte) :
    ∃ inside, (⟨first.start, last.stop⟩ : Span).Covers source (opening ++ (inside ++ closing)) := by
  obtain ⟨front, rest, hsource, rfl⟩ := hf
  obtain ⟨before, behind, rfl, rfl⟩ := hl
  simp only [covering, byte_after (Position.start.after front), byte_after_start] at h
  -- the text up to the second one is that up to the first one and what is between them
  have hfront : front ++ opening <+: before := by
    refine List.prefix_of_prefix_length_le ⟨rest, by simp [hsource]⟩
      (List.prefix_append before (closing ++ behind)) ?_
    by_contra hlong
    obtain ⟨more, hmore⟩ := List.prefix_of_prefix_length_le
      (List.prefix_append before (closing ++ behind)) ⟨rest, by simp [hsource]⟩
      (Nat.le_of_lt (Nat.lt_of_not_le hlong))
    have hlength := congrArg List.length hmore
    have hbytes := congrArg byteLength hmore
    have hne : more ≠ [] := by
      rintro rfl
      simp only [List.length_append, List.length_nil] at hlength hlong
      omega
    have hpos := byteLength_pos hne
    simp only [byteLength_append] at hbytes
    omega
  obtain ⟨inside, rfl⟩ := hfront
  refine ⟨inside, front, behind, by simp, ?_⟩
  simp [covering]

end Span
end Codebook
