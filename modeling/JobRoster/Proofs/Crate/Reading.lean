import JobRoster.Proofs.Crate.Loading

/-!
# The files that are read

A module file is read in two steps: its text is split into items, and the items are collected. The
files that have been read are noted in order, and reading on never forgets one.
-/

namespace JobRoster.Files.Sources

theorem isFile_ofTexts (texts : List (FilePath × String)) (path : FilePath) :
    (ofTexts texts).isFile path = texts.any (·.1.same path) := by
  refine Bool.eq_iff_iff.2 ?_
  simp only [ofTexts, find?, Option.isSome_map, List.find?_isSome, List.any_eq_true,
    List.mem_reverse]

end JobRoster.Files.Sources

namespace JobRoster.Crate

open Files Syntax

/-- The items of a module's file. -/
def itemsOf (sources : Sources) (path : FilePath) : Except LoadError (List Item) :=
  match sources.read path with
  | .error error => .error (.io path error)
  | .ok text =>
    match parseFile text with
    | .error error => .error (.malformed path error)
    | .ok syntaxTree => .ok syntaxTree.items

section

variable {sources : Sources} {load : FileLoader}

theorem itemsOf_eq_ok {path : FilePath} {text : String} {file : Syntax.File}
    (hread : sources.read path = .ok text) (hparse : parseFile text = .ok file) :
    itemsOf sources path = .ok file.items := by
  simp only [itemsOf, hread, hparse]

/-- A text that is a source file and passes a test. -/
theorem exists_parsed_of_any (text : String) (test : Syntax.File → Bool)
    (h : (parseFile text).toOption.any test = true) :
    ∃ file, parseFile text = .ok file ∧ test file = true := by
  cases hfile : parseFile text with
  | error error => rw [hfile] at h; cases h
  | ok file => exact ⟨file, rfl, by rwa [hfile] at h⟩

/-- Reading a file collects its items into a new module. -/
theorem loadFile_succ (sources : Sources) (depth : Nat) (target : ModuleFile) (m : Module)
    (s : LoadState) :
    loadFile sources (depth + 1) target m s = (itemsOf sources target.file).bind fun items =>
      collectItems sources (loadFile sources depth)
        (ItemSite.ofFile s.modules.length target.file target.ownsDirectory)
        { s.addModule m with files := s.files ++ [target.file] } items := by
  rw [loadFile, itemsOf]
  cases sources.read target.file with
  | error error => rfl
  | ok text => cases h : parseFile text <;> simp only [h] <;> rfl

/-- A crate is what reading its root file gives. -/
theorem load_eq (sources : Sources) (name : String) (dependencies : List String)
    (root : FilePath) :
    Crate.load sources name dependencies root =
      (loadFile sources sources.depth ⟨root, true⟩ (Module.new [] none .crate)
        (LoadState.start name dependencies)).map LoadState.finish := by
  rw [Crate.load]
  cases loadFile sources sources.depth ⟨root, true⟩ (Module.new [] none .crate)
    (LoadState.start name dependencies) <;> rfl

theorem collectItems_cons (site : ItemSite) (s : LoadState) (item : Item) (items : List Item) :
    collectItems sources load site s (item :: items) =
      (collectItem sources load site s item).bind (collectItems sources load site · items) := by
  rw [collectItems]
  rfl

namespace LoadState

theorem files_addExtern (s : LoadState) (name : String) (macros : Bool) :
    (s.addExtern name macros).files = s.files := by
  unfold addExtern
  split <;> rfl

theorem files_addImports (leaves : List Import) (s : LoadState) (module : Nat)
    (scope : LoadState → Scope) :
    (leaves.foldl (fun s leaf => s.addImport module (scope s) leaf) s).files = s.files := by
  obtain ⟨f, hf⟩ := exists_addImports_eq leaves s module scope
  rw [hf]
  rfl

/-- An item that is no module is in a file that is read already. -/
theorem files_addItem (s : LoadState) (module : Nat) (file : FilePath)
    (attributes : List Syntax.Attribute) (visibility : Visibility) (kind : ItemKind) :
    (s.addItem module file attributes visibility kind).files = s.files := by
  cases kind with
  | useTree leadingColon tree => exact files_addImports _ s module _
  | externCrate ident newName =>
    have hcrates := files_addExtern s ident.name (attributes.any (·.path.isWord "macro_use"))
    cases newName <;> exact hcrates
  | _ => rfl

theorem Steps.files_subset {s s' : LoadState} (h : Steps s s') : s.files ⊆ s'.files := by
  induction h with
  | refl => exact List.Subset.refl _
  | tail _ hstep ih =>
    cases hstep with
    | item file attributes visibility kind _ =>
      rwa [files_addItem]
    | module ident visibility _ => exact ih
    | file file => exact List.Subset.trans ih (List.subset_append_left _ _)

/-- A file that has been read is noted. -/
theorem mem_files_of_loadFile {depth : Nat} {target : ModuleFile} {m : Module} {s s' : LoadState}
    (h : loadFile sources depth target m s = .ok s') : target.file ∈ s'.files := by
  cases depth with
  | zero => cases h
  | succ depth =>
    rw [loadFile_succ] at h
    cases hitems : itemsOf sources target.file with
    | error error => rw [hitems] at h; cases h
    | ok items =>
      rw [hitems] at h
      refine (steps_collectItems (fun _ _ _ _ => steps_loadFile) ?_ items h).files_subset ?_
      · simp [ItemSite.ofFile, addModule]
      · simp

end LoadState

end

end JobRoster.Crate
