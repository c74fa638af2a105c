import Mathlib.Data.List.Induction
import Mathlib.Tactic.SplitIfs
import JobRoster.Files.FileTree

/-!
# Directories

A path is followed from directory to directory, and is followed to the same place for as long as the
directories on the way stay. Making a directory adds directories and changes nothing else.
-/

namespace JobRoster.Files

namespace FileTree

variable {tree before after : FileTree} {place other : Place}

/-! ## Nodes -/

theorem node?_of_ne_nil (h : place ≠ []) :
    tree.node? place = (tree.nodes.find? (·.1 = place)).map (·.2) := by
  have hempty : place.isEmpty = false := by simpa using h
  rw [node?, hempty]
  rfl

theorem node?_setNode_self (h : place ≠ []) (node : Option Node) :
    (tree.setNode place node).node? place = node := by
  have hnone : (tree.nodes.filter (·.1 ≠ place)).find? (·.1 = place) = none := by simp
  rw [node?_of_ne_nil h, setNode, List.find?_append, hnone, Option.none_or]
  cases node <;> simp

theorem node?_setNode_of_ne (h : other ≠ place) (node : Option Node) :
    (tree.setNode place node).node? other = tree.node? other := by
  by_cases hother : other = []
  · subst hother
    rfl
  · -- the new node is not the one that is looked for, and neither are those it is put in place of
    rw [node?_of_ne_nil hother, node?_of_ne_nil hother, setNode, List.find?_append]
    have hrest : (node.map ((place, ·))).toList.find? (·.1 = other) = none := by
      cases node <;> simp [Ne.symm h]
    have hsame : (tree.nodes.filter (·.1 ≠ place)).find? (·.1 = other) =
        tree.nodes.find? (·.1 = other) := by
      rw [List.find?_filter]
      congr 1
      funext entry
      by_cases hentry : entry.1 = other <;> simp [hentry, h]
    rw [hrest, Option.or_none, hsame]

/-- The tree with a file written at a place. -/
def written (tree : FileTree) (place : Place) (bytes : ByteArray) : FileTree :=
  { tree.setNode place (some (.file bytes tree.clock)) with clock := tree.clock + 1 }

theorem node?_written_self (h : place ≠ []) (bytes : ByteArray) :
    (tree.written place bytes).node? place = some (.file bytes tree.clock) :=
  node?_setNode_self h _

theorem node?_written_of_ne (h : other ≠ place) (bytes : ByteArray) :
    (tree.written place bytes).node? other = tree.node? other :=
  node?_setNode_of_ne h _

/-! ## What may change around a path -/

/-- All directories stay, and relative paths start from the same one. -/
structure KeepsDirectories (before after : FileTree) : Prop where
  working : after.working = before.working
  directory : ∀ place, before.node? place = some .directory → after.node? place = some .directory

/-- Nothing changes but that there may be new directories. -/
structure AddsDirectories (before after : FileTree) : Prop where
  working : after.working = before.working
  clock : after.clock = before.clock
  node : ∀ place, after.node? place = before.node? place ∨
    before.node? place = none ∧ after.node? place = some .directory

namespace AddsDirectories

theorem refl (tree : FileTree) : AddsDirectories tree tree :=
  ⟨rfl, rfl, fun _ => .inl rfl⟩

theorem trans {middle : FileTree} (h : AddsDirectories before middle)
    (h' : AddsDirectories middle after) : AddsDirectories before after where
  working := h'.working.trans h.working
  clock := h'.clock.trans h.clock
  node place := by
    obtain hsame | ⟨hnone, hnew⟩ := h'.node place
    · rw [hsame]
      exact h.node place
    · right
      refine ⟨?_, hnew⟩
      obtain hsame | ⟨hnone', _⟩ := h.node place
      · rw [← hsame, hnone]
      · exact hnone'

theorem keepsDirectories (h : AddsDirectories before after) : KeepsDirectories before after where
  working := h.working
  directory place hplace := by
    obtain hsame | ⟨hnone, _⟩ := h.node place
    · rw [hsame, hplace]
    · rw [hnone] at hplace
      cases hplace

theorem setNode (hnone : tree.node? place = none) :
    AddsDirectories tree (tree.setNode place (some .directory)) where
  working := rfl
  clock := rfl
  node other := by
    by_cases hother : other = place
    · subst hother
      right
      refine ⟨hnone, node?_setNode_self ?_ _⟩
      rintro rfl
      cases hnone
    · left
      exact node?_setNode_of_ne hother _

end AddsDirectories

/-- A place where no directory is can be given anything. -/
theorem keepsDirectories_of_node?_ne (hplace : tree.node? place ≠ some .directory)
    (hworking : after.working = tree.working)
    (hothers : ∀ other ≠ place, after.node? other = tree.node? other) :
    KeepsDirectories tree after where
  working := hworking
  directory other hother := by
    rw [hothers other ?_, hother]
    rintro rfl
    exact hplace hother

/-! ## Following paths -/

theorem KeepsDirectories.step (h : KeepsDirectories before after) {next : Place} {piece : String}
    (hstep : before.step place piece = .ok next) : after.step place piece = .ok next := by
  unfold FileTree.step at hstep ⊢
  split_ifs at hstep ⊢
  · exact hstep
  · exact hstep
  · cases hnode : before.node? (place ++ [piece]) with
    | none =>
      rw [hnode] at hstep
      cases hstep
    | some node =>
      rw [hnode] at hstep
      cases node with
      | directory =>
        rw [h.directory _ hnode]
        exact hstep
      | file bytes modified => cases hstep

end FileTree

/-- The steps of a path. -/
def FilePath.pieces (path : FilePath) : List String :=
  ((splitSlashes path.text.toList).filter (· ≠ [])).map String.ofList

/-- A text that can be a path. -/
structure FilePath.IsPath (path : FilePath) : Prop where
  nonempty : path.text ≠ ""
  nul : '\x00' ∉ path.text.toList
  size : path.text.utf8ByteSize ≤ FileTree.maxPathBytes

namespace FileTree

variable {tree before after : FileTree} {place : Place} {path : FilePath} {error : IoError}

/-- Where a path starts from. -/
def startOf (tree : FileTree) (path : FilePath) : Place :=
  if path.isAbsolute then [] else tree.working

/-- The directory that a path leads to. The empty one leads to where relative paths start from. -/
def enter (tree : FileTree) (path : FilePath) : Except IoError Place :=
  path.pieces.foldlM tree.step (tree.startOf path)

theorem enter_of_empty (h : path.text = "") : tree.enter path = .ok tree.working := by
  have hstart : tree.startOf path = tree.working := by
    simp [startOf, FilePath.isAbsolute, h]
  rw [enter, hstart, FilePath.pieces, h]
  rfl

theorem KeepsDirectories.foldlM_step (h : KeepsDirectories before after) {start : Place}
    {pieces : List String} (hwalk : pieces.foldlM before.step start = .ok place) :
    pieces.foldlM after.step start = .ok place := by
  induction pieces generalizing start with
  | nil => exact hwalk
  | cons piece pieces ih =>
    rw [List.foldlM_cons] at hwalk ⊢
    cases hstep : before.step start piece with
    | error error =>
      rw [hstep] at hwalk
      cases hwalk
    | ok next =>
      rw [hstep] at hwalk
      rw [h.step hstep]
      exact ih hwalk

theorem KeepsDirectories.enter (h : KeepsDirectories before after)
    (henter : before.enter path = .ok place) : after.enter path = .ok place := by
  unfold FileTree.enter startOf at henter ⊢
  rw [h.working]
  exact h.foldlM_step henter

theorem route_of_isPath (h : path.IsPath) :
    tree.route path = .ok (tree.startOf path, path.pieces) := by
  have hnonempty : path.text.toList.isEmpty = false := by simpa using h.nonempty
  have hnul : path.text.toList.contains '\x00' = false := by simpa using h.nul
  simp only [route, hnul, hnonempty, Nat.not_lt.2 h.size, Bool.false_eq_true, if_false]
  rfl

theorem target_of_isPath (h : path.IsPath) :
    tree.target path = tree.follow (path.text.toList.getLast? = some '/') (tree.startOf path)
      path.pieces := by
  unfold target
  rw [route_of_isPath h]
  rfl

/-- What is no path leads nowhere. -/
theorem target_of_not_isPath (tree : FileTree) (hnonempty : path.text ≠ "") (h : ¬path.IsPath) :
    tree.target path = .error .nulInPath ∨ tree.target path = .error .nameTooLong := by
  unfold target route
  by_cases hnul : '\x00' ∈ path.text.toList
  · left
    simp only [List.contains_iff_mem.2 hnul, if_true]
    rfl
  · right
    have hsize : maxPathBytes < path.text.utf8ByteSize := by
      by_contra hle
      exact h ⟨hnonempty, hnul, Nat.not_lt.1 hle⟩
    have hcontains : path.text.toList.contains '\x00' = false := by simpa using hnul
    simp only [hcontains, hsize, Bool.false_eq_true, if_false, if_true]
    rfl

/-- The last step of a path is taken in the directory that the others lead to. -/
theorem follow_concat (slash : Bool) (start : Place) (pieces : List String) (piece : String) :
    tree.follow slash start (pieces ++ [piece]) =
      pieces.foldlM tree.step start >>= fun parent => tree.follow slash parent [piece] := by
  induction pieces generalizing start with
  | nil => rfl
  | cons first pieces ih =>
    have hfollow : tree.follow slash start (first :: (pieces ++ [piece])) =
        tree.step start first >>= fun next => tree.follow slash next (pieces ++ [piece]) := by
      cases pieces <;> rfl
    rw [List.cons_append, hfollow, List.foldlM_cons, bind_assoc]
    exact congrArg _ (funext fun next => ih next)

/-- The directory that the last step of a path leads to. -/
def arrive (tree : FileTree) : Target → Except IoError Place
  | .here place => .ok place
  | .named parent name _ =>
    match tree.node? (parent ++ [name]) with
    | some .directory => .ok (parent ++ [name])
    | some (.file _ _) => .error .notADirectory
    | none => .error .notFound

theorem follow_arrive (slash : Bool) (place : Place) (piece : String) :
    tree.follow slash place [piece] >>= tree.arrive = tree.step place piece := by
  unfold follow step
  split_ifs <;> rfl

theorem enter_eq_of_isPath (tree : FileTree) (h : path.IsPath) :
    tree.enter path = tree.target path >>= tree.arrive := by
  rw [target_of_isPath h, enter]
  cases path.pieces using List.reverseRecOn with
  | nil => rfl
  | append_singleton pieces piece =>
    -- all steps but the last are taken alike
    rw [follow_concat, List.foldlM_append, bind_assoc]
    refine congrArg _ (funext fun parent => ?_)
    rw [follow_arrive]
    exact bind_pure _

theorem KeepsDirectories.follow (h : KeepsDirectories before after) {slash : Bool} {start : Place}
    {pieces : List String} {target : Target}
    (hfollow : before.follow slash start pieces = .ok target) :
    after.follow slash start pieces = .ok target := by
  cases pieces using List.reverseRecOn with
  | nil => exact hfollow
  | append_singleton pieces piece =>
    rw [follow_concat] at hfollow ⊢
    cases hwalk : pieces.foldlM before.step start with
    | error error =>
      rw [hwalk] at hfollow
      cases hfollow
    | ok parent =>
      rw [hwalk] at hfollow
      rw [h.foldlM_step hwalk]
      -- the last step reads nothing of the tree
      exact hfollow

theorem KeepsDirectories.target (h : KeepsDirectories before after) {target : Target}
    (hpath : path.IsPath) (htarget : before.target path = .ok target) :
    after.target path = .ok target := by
  rw [target_of_isPath hpath] at htarget ⊢
  unfold startOf at htarget ⊢
  rw [h.working]
  exact h.follow htarget

theorem arrive_named_eq_ok_iff (parent : Place) (name : String) (slash : Bool) :
    tree.arrive (.named parent name slash) = .ok place ↔
      tree.node? (parent ++ [name]) = some .directory ∧ place = parent ++ [name] := by
  rcases hnode : tree.node? (parent ++ [name]) with _ | _ | _
  · simp [arrive, hnode]
  · simp [arrive, hnode, eq_comm]
  · simp [arrive, hnode]

/-! ## What is at the end of a path -/

theorem find_of_named {parent : Place} {name : String} {slash : Bool}
    (htarget : tree.target path = .ok (.named parent name slash)) :
    tree.find path =
      match tree.node? (parent ++ [name]) with
      | none => .error .notFound
      | some .directory => .ok (parent ++ [name], .directory)
      | some node => if slash then .error .notADirectory else .ok (parent ++ [name], node) := by
  rw [find, htarget]
  rfl

/-- A path that leads to a directory, be it by a name or by another step. -/
theorem find_of_enter (hpath : path.IsPath) (henter : tree.enter path = .ok place) :
    tree.find path = .ok (place, .directory) ∧
      tree.makeDirectory path = (tree, .error .alreadyExists) := by
  rw [enter_eq_of_isPath _ hpath] at henter
  cases htarget : tree.target path with
  | error error =>
    rw [htarget] at henter
    cases henter
  | ok target =>
    rw [htarget] at henter
    cases target with
    | here place =>
      cases henter
      rw [find, makeDirectory, htarget]
      exact ⟨rfl, rfl⟩
    | named parent name slash =>
      obtain ⟨hnode, rfl⟩ := (arrive_named_eq_ok_iff parent name slash).1 henter
      rw [find_of_named htarget, makeDirectory, htarget]
      simp only [hnode, and_self]

/-! ## Making directories -/

/-- A directory that is there is left. -/
theorem ensureDirectory_of_enter (hpath : path.IsPath) (henter : tree.enter path = .ok place) :
    tree.ensureDirectory path = (tree, .ok ()) := by
  obtain ⟨hfind, hmake⟩ := find_of_enter hpath henter
  rw [ensureDirectory, hmake]
  simp only [isDirectory, hfind, if_true]

theorem makeDirectories_of_enter (hpath : path.text = "" ∨ path.IsPath)
    (henter : tree.enter path = .ok place) : tree.makeDirectories path = (tree, .ok ()) := by
  rw [makeDirectories, makeDirectoriesWithin]
  obtain hempty | hpath := hpath
  · simp [hempty]
  · have hnonempty : path.text.isEmpty = false := by simpa using hpath.nonempty
    rw [hnonempty, ensureDirectory_of_enter hpath henter]
    rfl

/-- What making a directory comes to if it succeeds. -/
structure Makes (before : FileTree) (path : FilePath) (after : FileTree) : Prop where
  adds : AddsDirectories before after
  enter : ∃ place, after.enter path = .ok place
  /-- The tree stays as it is if the directory is there. -/
  missing : after = before ∨ before.enter path = .error .notFound

theorem Makes.of_enter (henter : tree.enter path = .ok place) : Makes tree path tree :=
  ⟨.refl tree, ⟨place, henter⟩, .inl rfl⟩

theorem Makes.of_missing {parent : Place} {name : String} {slash : Bool} (hpath : path.IsPath)
    (htarget : tree.target path = .ok (.named parent name slash))
    (hnode : tree.node? (parent ++ [name]) = none) :
    Makes tree path (tree.setNode (parent ++ [name]) (some .directory)) := by
  have hadds : AddsDirectories tree (tree.setNode (parent ++ [name]) (some .directory)) :=
    .setNode hnode
  have hthere : (tree.setNode (parent ++ [name]) (some .directory)).node? (parent ++ [name]) =
      some .directory := node?_setNode_self (by simp) _
  refine ⟨hadds, ⟨parent ++ [name], ?_⟩, .inr ?_⟩
  · rw [enter_eq_of_isPath _ hpath, hadds.keepsDirectories.target hpath htarget]
    exact (arrive_named_eq_ok_iff parent name slash).2 ⟨hthere, rfl⟩
  · rw [enter_eq_of_isPath _ hpath, htarget]
    change tree.arrive (.named parent name slash) = _
    simp only [arrive, hnode]

/-- What cannot be made and is no directory. -/
theorem ensureDirectory_of_error (hmake : tree.makeDirectory path = (tree, .error error))
    (hfind : tree.isDirectory path = false) :
    tree.ensureDirectory path = (tree, .error error) := by
  rw [ensureDirectory, hmake]
  simp only [hfind, Bool.false_eq_true, if_false]

theorem ensureDirectory_of_target_error (htarget : tree.target path = .error error) :
    tree.ensureDirectory path = (tree, .error error) := by
  apply ensureDirectory_of_error
  · rw [makeDirectory, htarget]
  · rw [isDirectory, find, htarget]
    rfl

/-- Making one directory. Where it fails because something is not found, that is on the way. -/
theorem ensureDirectory_spec (tree : FileTree) (hnonempty : path.text ≠ "") :
    (∃ after, tree.ensureDirectory path = (after, .ok ()) ∧ Makes tree path after) ∨
      ∃ error, tree.ensureDirectory path = (tree, .error error) ∧
        (error = .notFound → tree.enter path = .error .notFound) := by
  by_cases hpath : path.IsPath
  · have henter := enter_eq_of_isPath tree hpath
    rcases htarget : tree.target path with error | place | ⟨parent, name, slash⟩
    · right
      refine ⟨error, ensureDirectory_of_target_error htarget, ?_⟩
      rintro rfl
      rw [henter, htarget]
      rfl
    · left
      rw [htarget] at henter
      exact ⟨tree, ensureDirectory_of_enter hpath henter, .of_enter henter⟩
    · rcases hnode : tree.node? (parent ++ [name]) with _ | _ | ⟨bytes, modified⟩
      · -- the only case in which the tree changes
        left
        refine ⟨_, ?_, .of_missing hpath htarget hnode⟩
        rw [ensureDirectory, makeDirectory, htarget]
        simp only [hnode]
      · left
        have hthere : tree.enter path = .ok (parent ++ [name]) := by
          rw [henter, htarget]
          exact (arrive_named_eq_ok_iff parent name slash).2 ⟨hnode, rfl⟩
        exact ⟨tree, ensureDirectory_of_enter hpath hthere, .of_enter hthere⟩
      · -- a file is in the way
        right
        refine ⟨.alreadyExists, ?_, nofun⟩
        apply ensureDirectory_of_error
        · rw [makeDirectory, htarget]
          simp only [hnode]
        · rw [isDirectory, find_of_named htarget]
          cases slash <;> simp only [hnode] <;> rfl
  · right
    obtain htarget | htarget := target_of_not_isPath tree hnonempty hpath
    · exact ⟨_, ensureDirectory_of_target_error htarget, nofun⟩
    · exact ⟨_, ensureDirectory_of_target_error htarget, nofun⟩

theorem makes_of_makeDirectoriesWithin {steps : Nat} {after : FileTree}
    (h : makeDirectoriesWithin steps tree path = (after, .ok ())) : Makes tree path after := by
  induction steps generalizing tree path after with
  | zero => cases h
  | succ steps ih =>
    rw [makeDirectoriesWithin] at h
    split_ifs at h with hempty
    · cases h
      exact .of_enter (enter_of_empty (by simpa using hempty))
    · have hnonempty : path.text ≠ "" := by simpa using hempty
      obtain ⟨made, hensure, hmakes⟩ | ⟨error, hensure, hmissing⟩ :=
        ensureDirectory_spec tree hnonempty
      · rw [hensure] at h
        cases h
        exact hmakes
      · rw [hensure] at h
        cases error with
        | notFound =>
          -- the directory that this one is in is made first
          dsimp only at h
          rcases hparent : makeDirectoriesWithin steps tree path.parent with ⟨middle, _ | ⟨⟩⟩
          · rw [hparent] at h
            cases h
          · rw [hparent] at h
            dsimp only at h
            obtain ⟨made, hensure', hmakes⟩ | ⟨error, hensure', _⟩ :=
              ensureDirectory_spec middle hnonempty
            · rw [hensure'] at h
              cases h
              exact ⟨(ih hparent).adds.trans hmakes.adds, hmakes.enter, .inr (hmissing rfl)⟩
            · rw [hensure'] at h
              cases h
        | _ => cases h

theorem makes_of_makeDirectories {after : FileTree}
    (h : tree.makeDirectories path = (after, .ok ())) : Makes tree path after :=
  makes_of_makeDirectoriesWithin h

end FileTree

end JobRoster.Files
