import JobRoster.Proofs.Files.Directories
import JobRoster.Proofs.Files.Joining

/-!
# Files of a directory

A name that is no path, put below a directory, leads to a file of that directory and nowhere else:
it is read, written and removed there. A directory that is not there has no such files.
-/

namespace JobRoster.Files

namespace FilePath

/-! ## Names below a directory -/

/-- A name that stands for a file of the directory it is put in. -/
structure IsFileName (name : String) : Prop where
  nonempty : name ≠ ""
  slash : '/' ∉ name.toList
  dot : name ≠ "."
  dots : name ≠ ".."

variable {dir : FilePath} {name : String}

theorem IsFileName.toList_ne_nil (h : IsFileName name) : name.toList ≠ [] := by
  simpa using h.nonempty

theorem pieces_join (h : IsFileName name) : (dir.join name).pieces = dir.pieces ++ [name] := by
  obtain ⟨lead, hlead, hjoin⟩ := exists_leads dir
  have hname : (splitSlashes name.toList).filter (· ≠ []) = [name.toList] := by
    simp [splitSlashes_of_not_mem h.slash, h.nonempty]
  have hfilter : (splitSlashes (lead ++ name.toList)).filter (· ≠ []) =
      (splitSlashes dir.text.toList).filter (· ≠ []) ++ [name.toList] := by
    generalize dir.text.toList = cs at hlead
    cases hlead with
    | nothing => exact hname
    | slash init =>
      rw [List.append_assoc, List.singleton_append, splitSlashes_append, splitSlashes_append,
        List.filter_append, List.filter_append, hname]
      simp [splitSlashes]
    | name _ =>
      rw [List.append_assoc, List.singleton_append, splitSlashes_append, List.filter_append, hname]
  unfold pieces
  rw [hjoin name h.slash, hfilter, List.map_append]
  simp [String.ofList_toList]

theorem isAbsolute_join (h : IsFileName name) : (dir.join name).isAbsolute = dir.isAbsolute := by
  obtain ⟨lead, hlead, hjoin⟩ := exists_leads dir
  unfold isAbsolute
  rw [hjoin name h.slash]
  generalize dir.text.toList = cs at hlead
  cases hlead with
  | nothing => exact isAbsolute_of_not_mem h.slash
  | slash init => simp
  | name hne =>
    obtain ⟨c, cs, rfl⟩ := List.exists_cons_of_ne_nil hne
    rfl

theorem getLast?_join (h : IsFileName name) :
    (dir.join name).text.toList.getLast? ≠ some '/' := by
  obtain ⟨lead, -, hjoin⟩ := exists_leads dir
  rw [hjoin name h.slash, List.getLast?_append]
  intro hlast
  cases hname : name.toList.getLast? with
  | none => exact h.toList_ne_nil (List.getLast?_eq_none_iff.1 hname)
  | some c =>
    rw [hname, Option.some_or] at hlast
    cases hlast
    exact h.slash (List.mem_of_getLast? hname)

theorem exists_text_join (dir : FilePath) (h : IsFileName name) :
    ∃ rest, (dir.join name).text = dir.text ++ rest := by
  rw [join, isAbsolute_of_not_mem h.slash, if_neg Bool.false_ne_true]
  split_ifs
  · exact ⟨name, rfl⟩
  · exact ⟨"/" ++ name, String.append_assoc⟩

/-- What leads to a file of a directory is no path unless the directory is. -/
theorem IsPath.of_join (h : IsFileName name) (hpath : (dir.join name).IsPath) :
    dir.text = "" ∨ dir.IsPath := by
  obtain ⟨rest, hrest⟩ := exists_text_join dir h
  by_cases hempty : dir.text = ""
  · exact .inl hempty
  · right
    have hnul := hpath.nul
    have hsize := hpath.size
    rw [hrest] at hnul hsize
    rw [String.toList_append, List.mem_append] at hnul
    rw [String.utf8ByteSize_append] at hsize
    exact ⟨hempty, fun hmem => hnul (.inl hmem), Nat.le_of_add_right_le hsize⟩

end FilePath

namespace FileTree

/-! ## Files of a directory -/

open FilePath

variable {tree : FileTree} {dir : FilePath} {place : Place} {name : String}

/-- The name and the path of a file in a directory are not too long, and no NUL is in them. -/
structure Fits (dir : FilePath) (name : String) : Prop where
  path : (dir.join name).IsPath
  size : name.utf8ByteSize ≤ maxNameBytes

theorem target_join (h : IsFileName name) (hpath : (dir.join name).IsPath) :
    tree.target (dir.join name) =
      tree.enter dir >>= fun place => tree.follow false place [name] := by
  rw [target_of_isPath hpath, pieces_join h, follow_concat, decide_eq_false (getLast?_join h),
    enter, startOf, startOf, isAbsolute_join h]

theorem follow_fileName (tree : FileTree) (h : IsFileName name) (place : Place) :
    tree.follow false place [name] =
      if maxNameBytes < name.utf8ByteSize then .error .nameTooLong
      else .ok (.named place name false) := by
  rw [follow, if_neg h.dot, if_neg h.dots]

/-- A name leads to nothing but a file of the directory. -/
theorem target_join_of_enter (h : IsFileName name) (hfits : Fits dir name)
    (henter : tree.enter dir = .ok place) :
    tree.target (dir.join name) = .ok (.named place name false) := by
  rw [target_join h hfits.path, henter]
  exact (follow_fileName tree h place).trans (if_neg (Nat.not_lt.2 hfits.size))

theorem target_join_of_error {error : IoError} (h : IsFileName name)
    (hpath : (dir.join name).IsPath) (henter : tree.enter dir = .error error) :
    tree.target (dir.join name) = .error error := by
  rw [target_join h hpath, henter]
  rfl

theorem find_join (h : IsFileName name) (hfits : Fits dir name)
    (henter : tree.enter dir = .ok place) :
    tree.find (dir.join name) =
      match tree.node? (place ++ [name]) with
      | none => .error .notFound
      | some node => .ok (place ++ [name], node) := by
  rw [find_of_named (target_join_of_enter h hfits henter)]
  rcases tree.node? (place ++ [name]) with _ | _ | _ <;> rfl

theorem find_join_of_error {error : IoError} (h : IsFileName name)
    (hpath : (dir.join name).IsPath) (henter : tree.enter dir = .error error) :
    tree.find (dir.join name) = .error error := by
  rw [find, target_join_of_error h hpath henter]
  rfl

theorem read_of_target_error {path : FilePath} {error : IoError}
    (htarget : tree.target path = .error error) : tree.read path = .error error := by
  rw [read, find, htarget]
  rfl

/-- What is not found in a directory that is there could be written. -/
theorem fits_of_read (h : IsFileName name) (henter : tree.enter dir = .ok place)
    (hread : tree.read (dir.join name) = .error .notFound) :
    Fits dir name ∧ tree.node? (place ++ [name]) = none := by
  have hnonempty : (dir.join name).text ≠ "" := by
    obtain ⟨lead, -, hjoin⟩ := exists_leads dir
    intro hempty
    have hlead := hjoin name h.slash
    rw [hempty] at hlead
    exact h.toList_ne_nil (List.append_eq_nil_iff.1 hlead.symm).2
  have hpath : (dir.join name).IsPath := by
    by_contra hnot
    obtain htarget | htarget := target_of_not_isPath tree hnonempty hnot
    · rw [read_of_target_error htarget] at hread
      cases hread
    · rw [read_of_target_error htarget] at hread
      cases hread
  have hsize : name.utf8ByteSize ≤ maxNameBytes := by
    by_contra hlong
    have htarget : tree.target (dir.join name) = .error .nameTooLong := by
      rw [target_join h hpath, henter]
      exact (follow_fileName tree h place).trans (if_pos (Nat.not_le.1 hlong))
    rw [read_of_target_error htarget] at hread
    cases hread
  refine ⟨⟨hpath, hsize⟩, ?_⟩
  rw [read, find_join h ⟨hpath, hsize⟩ henter] at hread
  rcases hnode : tree.node? (place ++ [name]) with _ | _ | _
  · rfl
  · rw [hnode] at hread
    cases hread
  · rw [hnode] at hread
    cases hread

theorem write_join (h : IsFileName name) (hfits : Fits dir name)
    (henter : tree.enter dir = .ok place) (hnode : tree.node? (place ++ [name]) ≠ some .directory)
    (bytes : ByteArray) :
    tree.write (dir.join name) bytes = (tree.written (place ++ [name]) bytes, .ok ()) := by
  rw [write, target_join_of_enter h hfits henter]
  simp only [hnode, decide_false, Bool.or_self, Bool.false_eq_true, if_false]
  rfl

theorem remove_join (h : IsFileName name) (hfits : Fits dir name)
    (henter : tree.enter dir = .ok place) :
    tree.remove (dir.join name) =
      match tree.node? (place ++ [name]) with
      | none => (tree, .error .notFound)
      | some .directory => (tree, .error .isADirectory)
      | some (.file _ _) => (tree.setNode (place ++ [name]) none, .ok ()) := by
  rw [remove, target_join_of_enter h hfits henter]
  dsimp only
  rcases tree.node? (place ++ [name]) with _ | _ | _ <;> rfl

theorem remove_join_of_error {error : IoError} (h : IsFileName name)
    (hpath : (dir.join name).IsPath) (henter : tree.enter dir = .error error) :
    tree.remove (dir.join name) = (tree, .error error) := by
  rw [remove, target_join_of_error h hpath henter]

end FileTree

end JobRoster.Files
