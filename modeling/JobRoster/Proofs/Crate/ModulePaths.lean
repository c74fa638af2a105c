import JobRoster.Proofs.Crate.Nesting
import JobRoster.Proofs.Crate.Places
import JobRoster.Proofs.Files.Joining
import JobRoster.Proofs.Text.Segments

/-!
# The file of a module's path

Where no attribute gives a file, a module's path alone tells where its file is: below the directory
of the root, along the names of the modules around it. It does not matter which of these are written
in place, which have a file named for them and which one that stands for a directory.
-/

namespace JobRoster.Crate

open Files Syntax Text Place

theorem isStep_of_isIdentifier {name : String} (h : IsIdentifier name) :
    FilePath.IsStep name where
  slash hmem := absurd (h.isIdentContinue '/' hmem) (by decide)
  start := by
    cases hname : name.toList with
    | nil => exact absurd (String.toList_eq_nil_iff.1 hname) h.ne_empty
    | cons c cs =>
      refine ⟨c, cs, rfl, ?_⟩
      rintro rfl
      exact absurd (h.isIdentContinue '.' (hname ▸ List.mem_cons_self)) (by decide)

/-! ## Where modules look for files -/

/-- The directory that a file's modules have their files in. -/
def ModuleFile.childDir (target : ModuleFile) : FilePath :=
  (ItemSite.ofFile 0 target.file target.ownsDirectory).childDir

@[simp] theorem childDir_flat (file : FilePath) :
    (ModuleFile.mk file false).childDir = file.withoutExtension := rfl

@[simp] theorem childDir_nested (file : FilePath) :
    (ModuleFile.mk file true).childDir = file.parent := rfl

/-- The file of a module by the module's path alone: the one named for it, else the one that stands
    for the directory named for it. -/
def fileByPath? (sources : Sources) (dir : FilePath) (around : List String) (name : String) :
    Option ModuleFile :=
  let flat := (dir.below around).join (name ++ ".rs")
  let nested := (dir.below (around ++ [name])).join "mod.rs"
  if sources.isFile flat then some ⟨flat, false⟩
  else if sources.isFile nested then some ⟨nested, true⟩
  else none

/-- No module with a file of its own among the items has an attribute that gives one. -/
def PathFree (items : List Item) : Prop :=
  ∀ m ∈ fileModules items, m.attributes.findSome? filePath? = none

instance : DecidablePred PathFree :=
  fun items => inferInstanceAs
    (Decidable (∀ m ∈ fileModules items, m.attributes.findSome? filePath? = none))

variable {sources : Sources} {site : ItemSite} {dir : FilePath} {around : List String}
  {ident : Ident} {attributes : List Syntax.Attribute} {target : ModuleFile}

theorem moduleFile?_eq_fileByPath? (hpath : attributes.findSome? filePath? = none)
    (hdir : site.childDir = dir.below around) (name : String) :
    moduleFile? sources site name attributes = fileByPath? sources dir around name := by
  rw [moduleFile?, hpath, fileByPath?, hdir, FilePath.below_concat]

theorem ends_fileByPath? {name : String} (h : fileByPath? sources dir around name = some target) :
    sources.isFile target.file = true ∧
      (target = ⟨(dir.below around).join (name ++ ".rs"), false⟩ ∨
        target = ⟨(dir.below (around ++ [name])).join "mod.rs", true⟩) := by
  unfold fileByPath? at h
  dsimp only at h
  split at h
  next hflat => exact ⟨Option.some.inj h ▸ hflat, .inl (Option.some.inj h).symm⟩
  next =>
    split at h
    next hnested => exact ⟨Option.some.inj h ▸ hnested, .inr (Option.some.inj h).symm⟩
    next => cases h

theorem isStep_modFile : FilePath.IsStep "mod.rs" :=
  ⟨by decide, 'm', "od.rs".toList, by decide, by decide⟩

/-- Whichever file a module has, its own modules look for theirs in the directory named for it. -/
theorem childDir_of_fileByPath? (h : fileByPath? sources dir around ident.name = some target) :
    target.childDir = dir.below (around ++ [ident.name]) := by
  have hstep := isStep_of_isIdentifier ident.isIdentifier
  obtain ⟨-, rfl | rfl⟩ := ends_fileByPath? h
  · have hname : ident.name ++ ".rs" = ident.name ++ "." ++ "rs" := by
      rw [String.append_assoc]
      rfl
    have hback : ((dir.below around).join (ident.name ++ "." ++ "rs")).withoutExtension =
        (dir.below around).join ident.name :=
      FilePath.withoutExtension_join _ hstep (by decide) (by decide)
    rw [childDir_flat, hname, hback, FilePath.below_concat]
  · rw [childDir_nested, FilePath.below_concat, FilePath.parent_join_join _ hstep isStep_modFile]

/-! ## Places and paths -/

theorem PathFree.tail {item : Item} {items : List Item} (h : PathFree (item :: items)) :
    PathFree items :=
  fun m hm => h m (List.mem_append_right _ hm)

theorem PathFree.inside {visibility : Visibility} {inner items : List Item}
    (h : PathFree (.module attributes visibility ident (some inner) :: items))
    (htests : attributes.any isTestOnly = false) : PathFree inner := by
  intro m hm
  refine h (m.within ident.name) (List.mem_append_left _ ?_)
  rw [fileModulesOf, if_neg (by rw [htests]; exact Bool.false_ne_true)]
  exact List.mem_map_of_mem hm

theorem PathFree.attributes_eq {visibility : Visibility} {items : List Item}
    (h : PathFree (.module attributes visibility ident none :: items))
    (htests : attributes.any isTestOnly = false) : attributes.findSome? filePath? = none := by
  refine h ⟨[], ident, attributes⟩ (List.mem_append_left _ ?_)
  rw [fileModulesOf, if_neg (by rw [htests]; exact Bool.false_ne_true)]
  exact List.mem_cons_self

/-- The path of the module that a place is in. -/
def Place.path (p : Place) : List String :=
  p.state.modulePath p.site.module

theorem modulePath_addModule (s : LoadState) (m : Module) :
    (s.addModule m).modulePath s.modules.length = m.path := by
  simp [LoadState.modulePath, LoadState.addModule]

theorem path_inside (p : Place) (visibility : Visibility) (ident : Ident) :
    (p.inside visibility ident).path = p.path ++ [ident.name] :=
  modulePath_addModule _ _

theorem path_opening (depth : Nat) (target : ModuleFile) (m : Module) (s : LoadState) :
    (opening depth target m s).path = m.path :=
  modulePath_addModule s m

theorem path_inFile (p : Place) (depth : Nat) (target : ModuleFile) (visibility : Visibility)
    (ident : Ident) : (p.inFile depth target visibility ident).path = p.path ++ [ident.name] :=
  path_opening ..

/-- Wherever loading comes to, the files of modules are looked for along the path of the module. -/
theorem Place.Meets.childDir_eq {p q : Place} {items : List Item} {found : Item}
    (h : Meets sources p items q found)
    (hfree : ∀ path inner, itemsOf sources path = .ok inner → PathFree inner) (hp : p.Valid)
    (hdir : p.site.childDir = dir.below p.path) (hitems : PathFree items) :
    ∃ rest, q.site.childDir = dir.below q.path ∧ PathFree (found :: rest) := by
  refine (h.keeps (P := fun p items => p.site.childDir = dir.below p.path ∧ PathFree items) hp
    ⟨hdir, hitems⟩ ?later ?inside ?file).2
  case later =>
    intro p item items next hp ⟨hdir, hitems⟩ hnext
    have hpath : (p.after next).path = p.path := (steps_collect hp hnext).modulePath_eq hp
    exact ⟨by rw [hpath]; exact hdir, hitems.tail⟩
  case inside =>
    intro p attributes visibility ident inner items _ ⟨hdir, hitems⟩ htests
    have hchild : (p.inside visibility ident).site.childDir = p.site.childDir.join ident.name := rfl
    exact ⟨by rw [hchild, hdir, path_inside, FilePath.below_concat], hitems.inside htests⟩
  case file =>
    intro p attributes visibility ident items depth target inner _ ⟨hdir, hitems⟩ htests htarget
      hinner
    rw [moduleFile?_eq_fileByPath? (hitems.attributes_eq htests) hdir] at htarget
    have hchild : (p.inFile depth target visibility ident).site.childDir = target.childDir := rfl
    exact ⟨by rw [hchild, childDir_of_fileByPath? htarget, path_inFile], hfree _ _ hinner⟩

/-! ## Files that nest -/

/-- How deep the directory is that a file's modules have their files in. -/
def ModuleFile.rank (target : ModuleFile) : Nat :=
  target.file.components.length - if target.ownsDirectory then 1 else 0

mutual

theorem isIdentifier_of_around : ∀ item, ∀ m ∈ fileModulesOf item, ∀ name ∈ m.around,
    IsIdentifier name
  | .plain .., m, hm => by cases hm
  | .unknown, m, hm => by cases hm
  | .module attributes visibility ident (some items), m, hm => by
    rw [fileModulesOf] at hm
    split at hm
    · cases hm
    · obtain ⟨n, hn, rfl⟩ := List.mem_map.1 hm
      exact List.forall_mem_cons.2 ⟨ident.isIdentifier, isIdentifier_of_arounds items n hn⟩
  | .module attributes visibility ident none, m, hm => by
    rw [fileModulesOf] at hm
    split at hm
    · cases hm
    · rw [List.mem_singleton.1 hm]
      exact nofun

theorem isIdentifier_of_arounds : ∀ items, ∀ m ∈ fileModules items, ∀ name ∈ m.around,
    IsIdentifier name
  | [], m, hm => by cases hm
  | item :: items, m, hm => by
    obtain hm | hm := List.mem_append.1 hm
    · exact isIdentifier_of_around item m hm
    · exact isIdentifier_of_arounds items m hm

end

theorem childDir_inside (site : ItemSite) (around : List String) :
    (around.foldl (fun site name => site.inside site.module name) site).childDir =
      site.childDir.below around := by
  induction around generalizing site with
  | nil => rfl
  | cons name around ih => exact ih (site.inside site.module name)

/-- A file lies as deep as the directory of its modules, whichever of the two it is named for. -/
theorem rank_of_fileByPath? (h : fileByPath? sources dir around ident.name = some target) :
    target.rank = (dir.below around).components.length + 1 := by
  have hstep := isStep_of_isIdentifier ident.isIdentifier
  obtain ⟨-, rfl | rfl⟩ := ends_fileByPath? h
  · have hflat : FilePath.IsStep (ident.name ++ ".rs") := by
      obtain ⟨c, cs, hname, hc⟩ := hstep.start
      refine ⟨?_, c, cs ++ ".rs".toList, ?_, hc⟩
      · rw [String.toList_append, List.mem_append, not_or]
        exact ⟨hstep.slash, by decide⟩
      · rw [String.toList_append, hname, List.cons_append]
    exact FilePath.length_components_join _ hflat
  · rw [ModuleFile.rank, FilePath.below_concat, FilePath.length_components_join _ isStep_modFile,
      FilePath.length_components_join _ hstep]
    rfl

/-- Files by path nest ever deeper, so none asks for itself. -/
theorem acyclic_of_pathFree
    (hfree : ∀ path inner, itemsOf sources path = .ok inner → PathFree inner) (root : FilePath) :
    Acyclic sources ⟨root, true⟩ := by
  refine acyclic_of_rank ModuleFile.rank
    (fun target => target.rank ≤ target.childDir.components.length) ?_ ?_ ?_
  · rintro target target' ⟨hfile, hrole⟩
    rw [ModuleFile.rank, ModuleFile.rank, hfile, hrole]
  · have hle := FilePath.length_components_le_parent root
    change root.components.length - 1 ≤ root.parent.components.length
    omega
  · rintro target target' hrank ⟨files, hasked, hmem⟩
    unfold asked at hasked
    cases hinner : itemsOf sources target.file with
    | error error => rw [hinner] at hasked; cases hasked
    | ok inner =>
      rw [hinner] at hasked
      obtain rfl := Except.ok.inj hasked
      obtain ⟨m, hm, hfile⟩ := List.mem_map.1 hmem
      have hdir := childDir_inside (ItemSite.ofFile 0 target.file target.ownsDirectory) m.around
      have htarget : fileByPath? sources target.childDir m.around m.ident.name = some target' :=
        (moduleFile?_eq_fileByPath? (hfree _ _ hinner m hm) hdir _).symm.trans hfile
      have haround : ∀ name ∈ m.around, FilePath.IsStep name := fun name hname =>
        isStep_of_isIdentifier (isIdentifier_of_arounds inner m hm name hname)
      have hall : ∀ name ∈ m.around ++ [m.ident.name], FilePath.IsStep name :=
        List.forall_mem_append.2
          ⟨haround, by simpa using isStep_of_isIdentifier m.ident.isIdentifier⟩
      have hdeep := FilePath.length_components_below target.childDir haround
      have hdeeper := FilePath.length_components_below target.childDir hall
      -- the new file lies below the directory of the old one, by one step at least
      rw [rank_of_fileByPath? htarget, childDir_of_fileByPath? htarget, hdeep, hdeeper,
        List.length_append, List.length_singleton]
      omega

/-- Files by path can be read to the end. -/
theorem not_endless_of_pathFree {texts : List (FilePath × String)} {dependencies : List String}
    {name : String} {root : FilePath}
    (hfree : ∀ path inner, itemsOf (Sources.ofTexts texts) path = .ok inner → PathFree inner)
    (path : FilePath) :
    load (Sources.ofTexts texts) name dependencies root ≠ .error (.endless path) := by
  intro hload
  have hacyclic := acyclic_of_pathFree hfree root
  have hends := ending_ne_of_lt hacyclic (Nat.lt_add_of_pos_right Nat.two_pos)
  have hfollows := follows_loadFile (Sources.ofTexts texts) (2 * texts.length + 2) ⟨root, true⟩
    (Module.new [] none .crate) (LoadState.start name dependencies)
  refine hends ?_
  rw [← hfollows.ending, ← endingOf_map LoadState.finish]
  rw [load_eq] at hload
  exact congrArg endingOf hload

/-! ## The file of a module that is met -/

section

variable {name : String} {dependencies : List String} {root : FilePath} {q : Place}
  {visibility : Visibility}

theorem Reaches.moduleFile?_eq
    (h : Reaches sources name dependencies root q (.module attributes visibility ident none))
    (hfree : ∀ path inner, itemsOf sources path = .ok inner → PathFree inner)
    (htests : attributes.any isTestOnly = false) :
    moduleFile? sources q.site ident.name attributes =
      fileByPath? sources root.parent q.path ident.name := by
  obtain ⟨depth, items, -, hitems, hmeets⟩ := h
  have hpath : (Place.start name dependencies root depth).path = [] := path_opening ..
  have hstart : (Place.start name dependencies root depth).site.childDir =
      root.parent.below (Place.start name dependencies root depth).path := by
    rw [hpath]
    rfl
  obtain ⟨rest, hdir, hrest⟩ :=
    hmeets.childDir_eq hfree (Place.valid_opening ..) hstart (hfree root items hitems)
  exact moduleFile?_eq_fileByPath? (hrest.attributes_eq htests) hdir ident.name

theorem itemsOf_ne_moduleNotFound {path file : FilePath} {missing : String} :
    itemsOf sources path ≠ .error (.moduleNotFound missing file) := by
  unfold itemsOf
  split
  · exact nofun
  · split
    · exact nofun
    · exact nofun

/-- Where no attribute gives the file of a module, the module's path does. Whatever modules are
    around it, its items are those of the file that is named for it in the directory of its path,
    else of the one that stands for the directory named for it. Where there is neither, loading ends
    with the module's name and the file that declares it, and for no other reason does it end so. -/
theorem module_file_by_path (name : String) (externs : List String) {root : FilePath}
    {text : String} {more : List (FilePath × String)}
    (hfree : ∀ entry ∈ (root, text) :: more, ∀ file, parseFile entry.2 = .ok file →
      PathFree file.items) :
    let texts := (root, text) :: more
    let sources := Sources.ofTexts texts
    let reaches := Reaches sources (pathName name) (externs.map pathName) root
    (∀ q attributes visibility ident, attributes.any isTestOnly = false →
      reaches q (.module attributes visibility ident none) →
      match fileByPath? sources root.parent q.path ident.name with
      | some target => ∃ lower,
          let p := q.inFile lower target visibility ident
          q.collect sources (.module attributes visibility ident none) =
            (itemsOf sources target.file).bind (p.collectAll sources) ∧
          p.path = q.path ++ [ident.name] ∧ p.site.file = target.file ∧
          ∀ c, ofTexts name externs texts = .ok c →
            target.file ∈ c.files ∧ (c.module p.site.module).path = q.path ++ [ident.name]
      | none => ofTexts name externs texts = .error (.moduleNotFound ident.name q.site.file)) ∧
    ∀ missing file, ofTexts name externs texts = .error (.moduleNotFound missing file) →
      ∃ q attributes visibility ident, attributes.any isTestOnly = false ∧
        reaches q (.module attributes visibility ident none) ∧ ident.name = missing ∧
        q.site.file = file ∧ fileByPath? sources root.parent q.path ident.name = none := by
  intro texts sources reaches
  have hfree : ∀ path inner, itemsOf sources path = .ok inner → PathFree inner := by
    intro path inner hinner
    obtain ⟨entry, hentry, -, file, hparse, rfl⟩ := exists_text_of_itemsOf hinner
    exact hfree entry hentry file hparse
  refine ⟨fun q attributes visibility ident htests hreaches => ?_, fun missing file hload => ?_⟩
  · have hfile := hreaches.moduleFile?_eq hfree htests
    cases htarget : fileByPath? sources root.parent q.path ident.name with
    | none => exact hreaches.load_eq_error (Stops.missing htests (hfile.trans htarget)).collect_eq
    | some target =>
      -- loading would not end here only if the files asked for one another
      have hdepth : q.depth ≠ 0 := fun hzero =>
        not_endless_of_pathFree hfree target.file
          (hreaches.load_eq_error (Stops.endless htests (hfile.trans htarget) hzero).collect_eq)
      obtain ⟨lower, hlower⟩ := Nat.exists_eq_succ_of_ne_zero hdepth
      have hcollect : q.collect sources (.module attributes visibility ident none) =
          loadFile sources (lower + 1) target (q.declared visibility ident)
            (q.state.addName q.site.module ident.name) := by
        rw [collect_module_file htests, hfile, htarget, hlower]
      refine ⟨lower, ?_, path_inFile .., rfl, fun c hc => ?_⟩
      · rw [hcollect]
        exact loadFile_opening ..
      · obtain ⟨next, s, hnext, hsteps, rfl⟩ := hreaches.exists_next hc
        rw [hcollect] at hnext
        have hall := (LoadState.steps_loadFile hnext).trans hsteps
        refine ⟨hsteps.files_subset (LoadState.mem_files_of_loadFile hnext), ?_⟩
        rw [path_finish, LoadState.Steps.modulePath_eq hall (valid_inFile ..)]
        exact path_inFile ..
  · obtain hroot | ⟨q, found, hreaches, hstops⟩ := load_eq_error_cases rfl hload
    · exact absurd hroot itemsOf_ne_moduleNotFound
    · cases hstops with
      | @missing attributes visibility ident htests htarget =>
        exact ⟨q, attributes, visibility, ident, htests, hreaches, rfl, rfl,
          (hreaches.moduleFile?_eq hfree htests).symm.trans htarget⟩
      | unreadable _ _ _ hinner => exact absurd hinner itemsOf_ne_moduleNotFound

theorem eq_error_of_decide {result : Except LoadError Crate} {error : LoadError}
    (h : (match result with
      | .error first => decide (first = error)
      | .ok _ => false) = true) : result = .error error := by
  cases result with
  | error first => rw [of_decide_eq_true h]
  | ok c => cases h

/-- A module in place, one in a file that stands for its directory and one in a file named for it
    lead to a module that has no file. -/
theorem module_file_by_path_missing :
    let texts : List (FilePath × String) := [(⟨"src/lib.rs"⟩, "mod a \x7b mod b; \x7d"),
      (⟨"src/a/b/mod.rs"⟩, "mod c;"), (⟨"src/a/b/c.rs"⟩, "mod d;")]
    (∀ entry ∈ texts, ∀ file, parseFile entry.2 = .ok file → PathFree file.items) ∧
    ∃ q attributes visibility ident, attributes.any isTestOnly = false ∧
      Reaches (Sources.ofTexts texts) (pathName "app") [] ⟨"src/lib.rs"⟩ q
        (.module attributes visibility ident none) ∧
      ident.name = "d" ∧ q.site.file = ⟨"src/a/b/c.rs"⟩ ∧
      fileByPath? (Sources.ofTexts texts) ⟨"src"⟩ q.path "d" = none := by
  intro texts
  have hparsed : ∀ entry ∈ texts,
      (parseFile entry.2).toOption.all (fun file => decide (PathFree file.items)) = true := by
    decide +kernel
  have hfree : ∀ entry ∈ texts, ∀ file, parseFile entry.2 = .ok file → PathFree file.items := by
    intro entry hentry file hfile
    have hall := hparsed entry hentry
    rw [hfile] at hall
    exact of_decide_eq_true hall
  have herror : ofTexts "app" [] texts = .error (.moduleNotFound "d" ⟨"src/a/b/c.rs"⟩) := by
    exact eq_error_of_decide (by decide +kernel)
  have hparent : (FilePath.mk "src/lib.rs").parent = ⟨"src"⟩ := by decide +kernel
  obtain ⟨q, attributes, visibility, ident, htests, hreaches, hname, hfile, hnone⟩ :=
    (module_file_by_path "app" [] hfree).2 _ _ herror
  rw [hname, hparent] at hnone
  exact ⟨hfree, q, attributes, visibility, ident, htests, hreaches, hname, hfile, hnone⟩

end

end JobRoster.Crate
