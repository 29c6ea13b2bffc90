import Codebook.Files.Path
import Codebook.Proofs.Text.Split

namespace Codebook.Files

open Codebook.Text

-- Where the path of a name below a folder leads, and what names stand on the way of a path.

theorem names_append (front behind : List Char) :
    names (String.ofList (front ++ '/' :: behind))
      = names (String.ofList front) ++ names (String.ofList behind) := by
  simp [names, segments, splitOn_append]

theorem names_empty : names "" = [] := by decide

-- The segment behind a slash at the end is empty.
theorem names_of_endsInSlash {front : List Char} :
    names (String.ofList (front ++ ['/'])) = names (String.ofList front) := by
  have hempty : names (String.ofList []) = [] := by decide
  rw [names_append, hempty, List.append_nil]

theorem names_below (folder name : String) :
    names (below folder name) = names folder ++ names name := by
  unfold below
  split
  · rename_i hend
    rcases Bool.or_eq_true_iff.mp hend with hempty | hslash
    · obtain rfl : folder = "" := String.isEmpty_iff.mp hempty
      rw [names_empty, String.empty_append, List.nil_append]
    · obtain ⟨front, hfront⟩ := List.getLast?_eq_some_iff.mp (of_decide_eq_true hslash)
      have hfolder : folder = String.ofList (front ++ ['/']) := by
        rw [← hfront, String.ofList_toList]
      have hwhole : folder ++ name = String.ofList (front ++ '/' :: name.toList) := by
        rw [← String.toList_inj, String.toList_append, hfront]
        simp
      rw [hwhole, names_append, hfolder, names_of_endsInSlash, String.ofList_toList]
  · have hwhole : folder ++ "/" ++ name
        = String.ofList (folder.toList ++ '/' :: name.toList) := by
      rw [← String.toList_inj]
      simp
    rw [hwhole, names_append, String.ofList_toList, String.ofList_toList]

theorem isEntry_iff {name : String} : isEntry name ↔ names name = [name] ∧ name ≠ ".." := by
  simp [isEntry]

theorem names_below_entry {name : String} (h : isEntry name) (folder : String) :
    names (below folder name) = names folder ++ [name] := by
  rw [names_below, (isEntry_iff.mp h).1]

theorem way_below {name : String} (h : isEntry name) (folder : String) :
    way (below folder name) = way folder ++ [name] := by
  have hup := (isEntry_iff.mp h).2
  rw [way, names_below_entry h, List.foldl_append, List.foldl_cons, List.foldl_nil, goOn,
    if_neg hup, way]

-- A name on a path is one segment of it.
theorem names_of_mem {path name : String} (h : name ∈ names path) : names name = [name] := by
  obtain ⟨segment, hsegment, rfl⟩ := List.mem_map.mp h
  obtain ⟨hin, hname⟩ := List.mem_filter.mp hsegment
  have hslash : '/' ∉ segment := notMem_of_mem_splitOn hin
  simp [names, segments, splitOn_of_notMem hslash, hname]

-- Going back takes a name off, so the way holds none but names that were gone on by.
theorem forall_mem_foldl_goOn {P : String → Prop} {above rest : List String}
    (ha : ∀ name ∈ above, P name) (hr : ∀ name ∈ rest, name ≠ ".." → P name) :
    ∀ name ∈ rest.foldl goOn above, P name := by
  induction rest generalizing above with
  | nil => exact ha
  | cons first rest ih =>
      obtain ⟨hfirst, hrest⟩ := List.forall_mem_cons.mp hr
      refine ih (fun name hm => ?_) hrest
      by_cases hup : first = ".."
      · rw [goOn, if_pos hup] at hm
        exact ha name ((List.dropLast_sublist above).mem hm)
      · rw [goOn, if_neg hup] at hm
        rcases List.mem_append.mp hm with hm | hm
        · exact ha name hm
        · rw [List.mem_singleton.mp hm]
          exact hfirst hup

theorem isEntry_of_mem_way {path name : String} (h : name ∈ way path) : isEntry name := by
  refine forall_mem_foldl_goOn (P := fun name => isEntry name) (by simp) ?_ name h
  intro name hm hup
  exact isEntry_iff.mpr ⟨names_of_mem hm, hup⟩

end Codebook.Files
