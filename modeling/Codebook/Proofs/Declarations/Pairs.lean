import Codebook.Declarations.Block
import Mathlib.Data.List.Nodup
import Mathlib.Data.List.Infix

namespace Codebook.Declarations

open Codebook.Text

-- Lines that open and close blocks, by their numbers. The lines are paired when each that opens a
-- block has one that closes it in front of the next one that opens a block.

namespace Markers

section

variable (markers : Markers) (texts : List (List Char))

def OpensAt (i : Nat) : Prop := ∃ text ∈ texts[i]?, markers.opening.toList <:+: text

def ClosesAt (i : Nat) : Prop := texts[i]? = some markers.closing.toList

instance (i : Nat) : Decidable (markers.OpensAt texts i) :=
  inferInstanceAs (Decidable (∃ text ∈ texts[i]?, markers.opening.toList <:+: text))

instance (i : Nat) : Decidable (markers.ClosesAt texts i) :=
  inferInstanceAs (Decidable (texts[i]? = some markers.closing.toList))

-- A block that begins at one line is still open at a later one.
structure IsOpenAt (first i : Nat) : Prop where
  before : first < i
  opens : markers.OpensAt texts first
  notClosed : ∀ j, first < j → j < i → ¬ markers.ClosesAt texts j

-- A line that opens a block inside of a block
def NestsAt (i : Nat) : Prop := markers.OpensAt texts i ∧ ∃ first, markers.IsOpenAt texts first i

-- Each opening line has the first closing line behind it, and that is in front of the next one.
structure IsPaired (pairs : List (Nat × Nat)) : Prop where
  ordered : ∀ pair ∈ pairs, pair.1 < pair.2
  apart : pairs.Pairwise fun pair next => pair.2 < next.1
  openings : ∀ i, i ∈ pairs.map Prod.fst ↔ markers.OpensAt texts i
  closes : ∀ pair ∈ pairs, markers.ClosesAt texts pair.2
  first : ∀ pair ∈ pairs, ∀ i, pair.1 < i → i < pair.2 → ¬ markers.ClosesAt texts i

end

section

variable {markers : Markers} {texts : List (List Char)}

theorem OpensAt.lt {i : Nat} (h : markers.OpensAt texts i) : i < texts.length := by
  obtain ⟨text, htext, -⟩ := h
  exact (List.getElem?_eq_some_iff.mp htext).1

theorem ClosesAt.lt {i : Nat} (h : markers.ClosesAt texts i) : i < texts.length :=
  (List.getElem?_eq_some_iff.mp h).1

-- What lies behind a line does not change it.

theorem opensAt_append {i : Nat} (h : i < texts.length) (more : List (List Char)) :
    markers.OpensAt (texts ++ more) i ↔ markers.OpensAt texts i := by
  rw [OpensAt, List.getElem?_append_left h, OpensAt]

theorem closesAt_append {i : Nat} (h : i < texts.length) (more : List (List Char)) :
    markers.ClosesAt (texts ++ more) i ↔ markers.ClosesAt texts i := by
  rw [ClosesAt, List.getElem?_append_left h, ClosesAt]

theorem isOpenAt_append {first i : Nat} (h : i ≤ texts.length) (more : List (List Char)) :
    markers.IsOpenAt (texts ++ more) first i ↔ markers.IsOpenAt texts first i := by
  constructor
  · intro ⟨hbefore, hopens, hnot⟩
    refine ⟨hbefore, (opensAt_append (by omega) more).mp hopens, fun j hfirst hj hc => ?_⟩
    exact hnot j hfirst hj ((closesAt_append (by omega) more).mpr hc)
  · intro ⟨hbefore, hopens, hnot⟩
    refine ⟨hbefore, (opensAt_append (by omega) more).mpr hopens, fun j hfirst hj hc => ?_⟩
    exact hnot j hfirst hj ((closesAt_append (by omega) more).mp hc)

theorem nestsAt_append {i : Nat} (h : i < texts.length) (more : List (List Char)) :
    markers.NestsAt (texts ++ more) i ↔ markers.NestsAt texts i := by
  rw [NestsAt, opensAt_append h, NestsAt]
  simp only [isOpenAt_append (Nat.le_of_lt h) more]

-- Lines behind others that open no block
theorem not_opensAt_append {more : List (List Char)}
    (h : ∀ text ∈ more, ¬ markers.opening.toList <:+: text) {i : Nat} (hi : texts.length ≤ i) :
    ¬ markers.OpensAt (texts ++ more) i := by
  rintro ⟨text, htext, hopens⟩
  rw [List.getElem?_append_right hi] at htext
  exact h text (List.mem_of_getElem? htext) hopens

-- No line behind the last one opens a block.
theorem isPaired_iff {pairs : List (Nat × Nat)} : markers.IsPaired texts pairs ↔
    (∀ pair ∈ pairs, pair.1 < pair.2) ∧ (pairs.Pairwise fun pair next => pair.2 < next.1) ∧
      (∀ pair ∈ pairs, markers.OpensAt texts pair.1 ∧ markers.ClosesAt texts pair.2 ∧
        ∀ i < pair.2, pair.1 < i → ¬ markers.ClosesAt texts i) ∧
      ∀ i < texts.length, markers.OpensAt texts i → i ∈ pairs.map Prod.fst := by
  constructor
  · intro h
    refine ⟨h.ordered, h.apart, fun pair hp => ⟨?_, h.closes pair hp, ?_⟩, ?_⟩
    · exact (h.openings pair.1).mp (List.mem_map_of_mem hp)
    · exact fun i hlast hfirst => h.first pair hp i hfirst hlast
    · exact fun i _ => (h.openings i).mpr
  · intro ⟨hordered, hapart, hpairs, hopenings⟩
    refine ⟨hordered, hapart, fun i => ⟨fun hm => ?_, fun ho => hopenings i ho.lt ho⟩,
      fun pair hp => (hpairs pair hp).2.1, fun pair hp i hfirst hlast =>
        (hpairs pair hp).2.2 i hlast hfirst⟩
    obtain ⟨pair, hp, rfl⟩ := List.mem_map.mp hm
    exact (hpairs pair hp).1

instance (pairs : List (Nat × Nat)) : Decidable (markers.IsPaired texts pairs) :=
  decidable_of_iff' _ isPaired_iff

namespace IsPaired

variable {pairs : List (Nat × Nat)}

theorem snd_lt_length (h : markers.IsPaired texts pairs) {pair : Nat × Nat} (hm : pair ∈ pairs) :
    pair.2 < texts.length :=
  (h.closes pair hm).lt

-- Of two pairs the one that begins first ends before the other begins.
theorem snd_lt_fst (h : markers.IsPaired texts pairs) {pair next : Nat × Nat} (hp : pair ∈ pairs)
    (hn : next ∈ pairs) (hlt : pair.1 < next.1) : pair.2 < next.1 := by
  obtain ⟨i, hi, rfl⟩ := List.getElem_of_mem hp
  obtain ⟨j, hj, rfl⟩ := List.getElem_of_mem hn
  have hapart := List.pairwise_iff_getElem.mp h.apart
  have hordered := h.ordered pairs[j] hn
  rcases Nat.lt_trichotomy i j with hij | rfl | hji
  · exact hapart i j hi hj hij
  · omega
  · have hback := hapart j i hj hi hji
    omega

-- A block that is open at a line is closed at that line or behind it.
theorem exists_of_isOpenAt (h : markers.IsPaired texts pairs) {first i : Nat}
    (ho : markers.IsOpenAt texts first i) : ∃ last, (first, last) ∈ pairs ∧ i ≤ last := by
  obtain ⟨⟨_, last⟩, hm, rfl⟩ := List.mem_map.mp ((h.openings first).mpr ho.opens)
  refine ⟨last, hm, ?_⟩
  by_contra hlt
  exact ho.notClosed last (h.ordered _ hm) (by omega) (h.closes _ hm)

theorem not_isOpenAt (h : markers.IsPaired texts pairs) (first : Nat) :
    ¬ markers.IsOpenAt texts first texts.length := by
  intro ho
  obtain ⟨last, hm, hle⟩ := h.exists_of_isOpenAt ho
  have hlt := h.snd_lt_length hm
  omega

theorem not_nestsAt (h : markers.IsPaired texts pairs) (i : Nat) :
    ¬ markers.NestsAt texts i := by
  intro ⟨hopens, first, ho⟩
  obtain ⟨last, hm, hle⟩ := h.exists_of_isOpenAt ho
  obtain ⟨next, hn, rfl⟩ := List.mem_map.mp ((h.openings i).mpr hopens)
  have hlt := h.snd_lt_fst hm hn ho.before
  omega

-- There is one way to pair the lines.
theorem unique (h : markers.IsPaired texts pairs) {others : List (Nat × Nat)}
    (ho : markers.IsPaired texts others) : pairs = others := by
  have hincreasing {pairs : List (Nat × Nat)} (h : markers.IsPaired texts pairs) :
      pairs.Pairwise fun pair next => pair.1 < next.1 := by
    refine h.apart.imp_of_mem fun hp _ hlt => ?_
    have hordered := h.ordered _ hp
    omega
  have hsub {pairs others : List (Nat × Nat)} (h : markers.IsPaired texts pairs)
      (ho : markers.IsPaired texts others) : ∀ pair ∈ pairs, pair ∈ others := by
    rintro ⟨first, last⟩ hm
    obtain ⟨⟨_, other⟩, hother, rfl⟩ := List.mem_map.mp
      ((ho.openings first).mpr ((h.openings first).mp (List.mem_map_of_mem hm)))
    -- the closing line is the first one in both
    rcases Nat.lt_trichotomy last other with hlt | rfl | hlt
    · exact absurd (h.closes _ hm) (ho.first _ hother last (h.ordered _ hm) hlt)
    · exact hother
    · exact absurd (ho.closes _ hother) (h.first _ hm other (ho.ordered _ hother) hlt)
  have hnodup {pairs : List (Nat × Nat)} (h : markers.IsPaired texts pairs) : pairs.Nodup :=
    (hincreasing h).imp fun hlt heq => Nat.ne_of_lt hlt (congrArg Prod.fst heq)
  refine List.Perm.eq_of_pairwise ?_ (hincreasing h) (hincreasing ho) ?_
  · intro pair next _ _ hlt hgt
    omega
  · exact (List.perm_ext_iff_of_nodup (hnodup h) (hnodup ho)).mpr
      fun pair => ⟨hsub h ho pair, hsub ho h pair⟩

theorem nil (markers : Markers) : markers.IsPaired [] [] :=
  { ordered := by simp
    apart := List.Pairwise.nil
    openings := by simp [OpensAt]
    closes := by simp
    first := by simp }

-- Lines that open no block are passed over.
theorem append (h : markers.IsPaired texts pairs) {more : List (List Char)}
    (hm : ∀ text ∈ more, ¬ markers.opening.toList <:+: text) :
    markers.IsPaired (texts ++ more) pairs where
  ordered := h.ordered
  apart := h.apart
  openings i := by
    by_cases hi : i < texts.length
    · rw [opensAt_append hi, h.openings]
    · have hnone := not_opensAt_append hm (Nat.le_of_not_lt hi)
      have hnot := mt (fun hp => ((h.openings i).mp hp).lt) hi
      exact iff_of_false hnot hnone
  closes pair hp := (closesAt_append (h.snd_lt_length hp) more).mpr (h.closes pair hp)
  first pair hp i hfirst hlast := by
    have hlt := h.snd_lt_length hp
    rw [closesAt_append (by omega)]
    exact h.first pair hp i hfirst hlast

end IsPaired

-- Lines behind one that opens a block, none of which opens or closes one

section

variable {opening : List Char} {body : List (List Char)}
  (ho : markers.opening.toList <:+: opening)
  (hb : ∀ text ∈ body, ¬ markers.opening.toList <:+: text ∧ text ≠ markers.closing.toList)

theorem getElem?_behind (front : List (List Char)) (text : List Char) (behind : List (List Char))
    {i : Nat} (hi : front.length < i) :
    (front ++ text :: behind)[i]? = behind[i - (front.length + 1)]? := by
  have hlength : (front ++ [text]).length = front.length + 1 := List.length_append
  rw [List.append_cons, List.getElem?_append_right (by omega), hlength]

theorem mem_body {rest : List (List Char)} {text : List Char} {i : Nat} (hf : texts.length < i)
    (hl : i < texts.length + 1 + body.length)
    (h : (texts ++ opening :: (body ++ rest))[i]? = some text) : text ∈ body := by
  rw [getElem?_behind _ _ _ hf, List.getElem?_append_left (by omega)] at h
  exact List.mem_of_getElem? h

include hb

theorem not_opensAt_body (rest : List (List Char)) {i : Nat} (hf : texts.length < i)
    (hl : i < texts.length + 1 + body.length) :
    ¬ markers.OpensAt (texts ++ opening :: (body ++ rest)) i := by
  intro ⟨text, htext, hopens⟩
  exact (hb text (mem_body hf hl htext)).1 hopens

theorem not_closesAt_body (rest : List (List Char)) {i : Nat} (hf : texts.length < i)
    (hl : i < texts.length + 1 + body.length) :
    ¬ markers.ClosesAt (texts ++ opening :: (body ++ rest)) i := by
  intro hcl
  exact (hb _ (mem_body hf hl hcl)).2 rfl

theorem not_nestsAt_body {pairs : List (Nat × Nat)} (h : markers.IsPaired texts pairs)
    (rest : List (List Char)) {i : Nat} (hl : i < texts.length + 1 + body.length) :
    ¬ markers.NestsAt (texts ++ opening :: (body ++ rest)) i := by
  rcases Nat.lt_trichotomy i texts.length with hi | rfl | hi
  · rw [nestsAt_append hi]
    exact h.not_nestsAt i
  · rintro ⟨-, first, hopen⟩
    exact h.not_isOpenAt first ((isOpenAt_append (Nat.le_refl _) _).mp hopen)
  · exact fun hn => not_opensAt_body hb rest hi hl hn.1

include ho

theorem isOpenAt_body (rest : List (List Char)) :
    markers.IsOpenAt (texts ++ opening :: (body ++ rest)) texts.length
      (texts.length + 1 + body.length) where
  before := by omega
  opens := ⟨opening, by simp, ho⟩
  notClosed i hf hl := not_closesAt_body hb rest hf hl

-- The block is behind the others when the next line closes it.
theorem IsPaired.concat {pairs : List (Nat × Nat)} (h : markers.IsPaired texts pairs)
    (hc : ¬ markers.opening.toList <:+: markers.closing.toList) :
    markers.IsPaired (texts ++ opening :: (body ++ [markers.closing.toList]))
      (pairs ++ [(texts.length, texts.length + 1 + body.length)]) := by
  have hlast : (texts ++ opening :: (body ++ [markers.closing.toList]))[
      texts.length + 1 + body.length]? = some markers.closing.toList := by
    rw [getElem?_behind _ _ _ (by omega), Nat.add_sub_cancel_left, List.getElem?_concat_length]
  refine { ordered := ?_, apart := ?_, openings := ?_, closes := ?_, first := ?_ }
  · refine List.forall_mem_append.mpr ⟨h.ordered, List.forall_mem_singleton.mpr ?_⟩
    show texts.length < texts.length + 1 + body.length
    omega
  · refine List.pairwise_append.mpr ⟨h.apart, List.pairwise_singleton _ _, ?_⟩
    intro pair hp
    exact List.forall_mem_singleton.mpr (h.snd_lt_length hp)
  · intro i
    rw [List.map_append, List.mem_append, List.map_singleton, List.mem_singleton]
    rcases Nat.lt_trichotomy i texts.length with hi | rfl | hi
    · rw [opensAt_append hi, h.openings]
      exact or_iff_left (Nat.ne_of_lt hi)
    · exact iff_of_true (.inr rfl) ⟨opening, by simp, ho⟩
    · have hout : ¬ (i ∈ pairs.map Prod.fst ∨ i = texts.length) := by
        rintro (hp | rfl)
        · have hlt := ((h.openings i).mp hp).lt
          omega
        · exact absurd hi (Nat.lt_irrefl _)
      refine iff_of_false hout fun hopens => ?_
      have hlt := hopens.lt
      rw [List.length_append, List.length_cons, List.length_append, List.length_singleton] at hlt
      by_cases hl : i < texts.length + 1 + body.length
      · exact not_opensAt_body hb _ hi hl hopens
      · obtain rfl : i = texts.length + 1 + body.length := by omega
        obtain ⟨text, htext, hopening⟩ := hopens
        obtain rfl := Option.some.inj (hlast.symm.trans htext)
        exact hc hopening
  · refine List.forall_mem_append.mpr ⟨fun pair hp => ?_, List.forall_mem_singleton.mpr hlast⟩
    exact (closesAt_append (h.snd_lt_length hp) _).mpr (h.closes pair hp)
  · refine List.forall_mem_append.mpr ⟨fun pair hp i hfirst hlt => ?_,
      List.forall_mem_singleton.mpr fun i hf hl => not_closesAt_body hb _ hf hl⟩
    have hlength := h.snd_lt_length hp
    rw [closesAt_append (by omega)]
    exact h.first pair hp i hfirst hlt

end

end

end Markers

end Codebook.Declarations
