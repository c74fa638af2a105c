import JobRoster.Proofs.Crate.Reading

/-!
# Items for tests

Items for tests alone never reach the crate: it is read as if they, and all that stands inside
them, were not written. The condition counts before an item or inside a module written in place;
at the top of a module's own file it is not looked at.
-/

namespace JobRoster.Crate

open Files Syntax

/-- Whether an item is for tests alone. -/
def isForTests : Item → Bool
  | .plain attributes _ _ | .module attributes _ _ _ => attributes.any isTestOnly
  | .unknown => false

/-- Deletes items that are for tests alone, at any depth: the first items are as written, the
    second what is left. Everything else stays where it is. -/
inductive DeletesTests : List Item → List Item → Prop where
  | nil : DeletesTests [] []
  | delete {item : Item} {items items' : List Item} (htests : isForTests item = true)
      (h : DeletesTests items items') : DeletesTests (item :: items) items'
  | keep (item : Item) {items items' : List Item} (h : DeletesTests items items') :
      DeletesTests (item :: items) (item :: items')
  /-- Inside a module that is written in place. -/
  | inModule (attributes : List Syntax.Attribute) (visibility : Visibility) (ident : Ident)
      {inner inner' items items' : List Item} (hinner : DeletesTests inner inner')
      (h : DeletesTests items items') :
      DeletesTests (.module attributes visibility ident (some inner) :: items)
        (.module attributes visibility ident (some inner') :: items')
  /-- Inside an implementation. -/
  | inImpl (attributes : List Syntax.Attribute) (visibility : Visibility) (content content' : Impl)
      {items items' : List Item} (h : DeletesTests items items') :
      DeletesTests (.plain attributes visibility (.impl content) :: items)
        (.plain attributes visibility (.impl content') :: items')

theorem DeletesTests.refl (items : List Item) : DeletesTests items items := by
  induction items with
  | nil => exact .nil
  | cons item items ih => exact .keep item ih

theorem DeletesTests.of_all {items : List Item} (h : items.all isForTests = true) :
    DeletesTests items [] := by
  induction items with
  | nil => exact .nil
  | cons item items ih =>
    rw [List.all_cons, Bool.and_eq_true] at h
    exact .delete h.1 (ih h.2)

/-! ## Collecting what is left -/

section Collecting

variable {sources sources' : Sources} {load load' : FileLoader} {s s' : LoadState}

theorem collectItem_of_isForTests {item : Item} (h : isForTests item = true) (site : ItemSite)
    (s : LoadState) : collectItem sources load site s item = .ok s := by
  cases item with
  | plain attributes visibility kind => exact (collectItem.eq_1 ..).trans (if_pos h)
  | module attributes visibility ident content => exact (collectItem.eq_2 ..).trans (if_pos h)
  | unknown => cases h

/-- Items that are for tests alone add nothing. -/
theorem collectItems_of_deletesTests {items items' : List Item} (h : DeletesTests items items')
    (site : ItemSite) (s : LoadState) :
    collectItems sources load site s items' = collectItems sources load site s items := by
  induction h generalizing site s with
  | nil => rfl
  | delete htests _ ih =>
    rw [collectItems_cons, collectItem_of_isForTests htests]
    exact ih site s
  | keep item _ ih => simp only [collectItems_cons, ih]
  | inModule attributes visibility ident _ _ ihInner ih =>
    simp only [collectItems_cons, collectItem, ihInner, ih]
  | inImpl attributes visibility content content' _ ih =>
    simp only [collectItems_cons, collectItem, LoadState.addItem, ih]

end Collecting

/-! ## Reading what is left -/

/-- What is left of sources when tests are deleted from `files`. Any other file may be gone. -/
structure DeletesTestsIn (files : List FilePath) (sources sources' : Sources) : Prop where
  depth : sources.depth ≤ sources'.depth
  fewer : ∀ path, sources'.isFile path = true → sources.isFile path = true
  kept : ∀ path ∈ files, sources.isFile path = true → sources'.isFile path = true
  items : ∀ path ∈ files, ∃ items items', itemsOf sources path = .ok items ∧
    itemsOf sources' path = .ok items' ∧ DeletesTests items items'

section Reading

variable {files : List FilePath} {sources sources' : Sources} {load load' : FileLoader}

/-- A module whose file is among those that stay has the same file as before. -/
theorem moduleFile?_of_deletesTestsIn (hdelete : DeletesTestsIn files sources sources')
    {site : ItemSite} {name : String} {attributes : List Syntax.Attribute} {target : ModuleFile}
    (h : moduleFile? sources site name attributes = some target) (hmem : target.file ∈ files) :
    moduleFile? sources' site name attributes = some target := by
  unfold moduleFile? at h ⊢
  cases hpath : attributes.findSome? filePath? with
  | some path => rwa [hpath] at h
  | none =>
    simp only [hpath] at h ⊢
    split at h
    next hflat =>
      obtain rfl := Option.some.inj h
      rw [if_pos (hdelete.kept _ hmem hflat)]
    next hflat =>
      split at h
      next hnested =>
        obtain rfl := Option.some.inj h
        rw [if_neg fun hflat' => hflat (hdelete.fewer _ hflat'),
          if_pos (hdelete.kept _ hmem hnested)]
      · cases h

/-- Reading a file goes by steps, notes the file, and still gives what it gave where all that it
    reads is among the files that stay. -/
structure Reproduces (files : List FilePath) (load load' : FileLoader) : Prop where
  steps : ∀ target m s s', load target m s = .ok s' → LoadState.Steps (s.addModule m) s'
  noted : ∀ target m s s', load target m s = .ok s' → target.file ∈ s'.files
  again : ∀ target m s s', load target m s = .ok s' → s'.files ⊆ files →
    load' target m s = .ok s'

mutual

theorem collectItem_reproduces (hdelete : DeletesTestsIn files sources sources')
    (hload : Reproduces files load load') {site : ItemSite} {s s' : LoadState}
    (hfiles : s'.files ⊆ files) : ∀ item,
      collectItem sources load site s item = .ok s' →
      collectItem sources' load' site s item = .ok s'
  | .plain attributes visibility kind, h => by rwa [collectItem] at h ⊢
  | .module attributes visibility ident (some items), h => by
    rw [collectItem] at h ⊢
    split at h
    next htests => rwa [if_pos htests]
    next htests =>
      rw [if_neg htests]
      refine collectItems_reproduces hdelete hload ?_ hfiles items h
      simp [ItemSite.inside, LoadState.addModule]
  | .module attributes visibility ident none, h => by
    rw [collectItem] at h ⊢
    split at h
    next htests => rwa [if_pos htests]
    next htests =>
      rw [if_neg htests]
      cases htarget : moduleFile? sources site ident.name attributes with
      | none => simp only [htarget] at h; cases h
      | some target =>
        simp only [htarget] at h
        have hmem : target.file ∈ files := hfiles (hload.noted _ _ _ _ h)
        simp only [moduleFile?_of_deletesTestsIn hdelete htarget hmem]
        exact hload.again _ _ _ _ h hfiles
  | .unknown, h => by rwa [collectItem] at h ⊢

theorem collectItems_reproduces (hdelete : DeletesTestsIn files sources sources')
    (hload : Reproduces files load load') {site : ItemSite} {s s' : LoadState}
    (hsite : site.module < s.modules.length) (hfiles : s'.files ⊆ files) :
    ∀ items, collectItems sources load site s items = .ok s' →
      collectItems sources' load' site s items = .ok s'
  | [], h => h
  | item :: items, h => by
    rw [collectItems_cons] at h ⊢
    cases hitem : collectItem sources load site s item with
    | error error => rw [hitem] at h; cases h
    | ok next =>
      rw [hitem] at h
      have hfirst : LoadState.Steps s next :=
        LoadState.steps_collectItem hload.steps hsite item hitem
      have hsite' : site.module < next.modules.length :=
        Nat.lt_of_lt_of_le hsite hfirst.length_le
      have hrest : LoadState.Steps next s' :=
        LoadState.steps_collectItems hload.steps hsite' items h
      rw [collectItem_reproduces hdelete hload (List.Subset.trans hrest.files_subset hfiles) item hitem]
      exact collectItems_reproduces hdelete hload hsite' hfiles items h

end

theorem loadFile_reproduces (hdelete : DeletesTestsIn files sources sources') {depth depth' : Nat}
    (hdepth : depth ≤ depth') :
    Reproduces files (loadFile sources depth) (loadFile sources' depth') := by
  refine ⟨fun _ _ _ _ => LoadState.steps_loadFile,
    fun _ _ _ _ => LoadState.mem_files_of_loadFile, ?_⟩
  induction depth generalizing depth' with
  | zero => intro target m s s' h; cases h
  | succ depth ih =>
    intro target m s s' h hfiles
    obtain ⟨depth', rfl⟩ : ∃ d, depth' = d + 1 := ⟨depth' - 1, by omega⟩
    obtain ⟨items, items', hitems, hitems', hdeleted⟩ :=
      hdelete.items target.file (hfiles (LoadState.mem_files_of_loadFile h))
    rw [loadFile_succ, hitems] at h
    rw [loadFile_succ, hitems']
    have hinner : Reproduces files (loadFile sources depth) (loadFile sources' depth') :=
      ⟨fun _ _ _ _ => LoadState.steps_loadFile,
        fun _ _ _ _ => LoadState.mem_files_of_loadFile, ih (by omega)⟩
    refine (collectItems_of_deletesTests hdeleted _ _).trans
      (collectItems_reproduces hdelete hinner ?_ hfiles items h)
    simp [ItemSite.ofFile, LoadState.addModule]

end Reading

/-- Deleting what is for tests alone leaves the crate as it is: all its modules with their names,
    bindings and globs, its constants and its declarations. -/
theorem load_of_deletesTestsIn {sources sources' : Sources} {name : String}
    {dependencies : List String} {root : FilePath} {c : Crate}
    (hload : load sources name dependencies root = .ok c)
    (hdelete : DeletesTestsIn c.files sources sources') :
    load sources' name dependencies root = .ok c := by
  rw [load_eq] at hload ⊢
  cases hfile : loadFile sources sources.depth ⟨root, true⟩ (Module.new [] none .crate)
      (LoadState.start name dependencies) with
  | error error => rw [hfile] at hload; cases hload
  | ok s =>
    rw [hfile] at hload
    obtain rfl : s.finish = c := Except.ok.inj hload
    have hagain := (loadFile_reproduces hdelete hdelete.depth).again _ _ _ _ hfile
      (List.Subset.refl _)
    rw [hagain]
    rfl

/-- Tests in a module of their own and beside the items of another. -/
theorem load_of_deletesTestsIn_inline :
    let texts (tests : String) := Sources.ofTexts [(⟨"lib.rs"⟩, "mod a; mod b;"),
      (⟨"a.rs"⟩, "struct A;"), (⟨"b.rs"⟩, tests)]
    let written := texts "mod tests { #![cfg(test)] struct B; } #[cfg(test)] struct C;"
    ∃ c, load written "app" [] ⟨"lib.rs"⟩ = .ok c ∧ c.decls.map (·.identity) = ["app::a::A"] ∧
      DeletesTestsIn c.files written (texts "") ∧ load (texts "") "app" [] ⟨"lib.rs"⟩ = .ok c := by
  intro texts written
  refine exists_loaded_of_any (fun c => c.decls.map (·.identity) = ["app::a::A"] ∧
    c.files = [⟨"lib.rs"⟩, ⟨"a.rs"⟩, ⟨"b.rs"⟩]) (by decide +kernel) fun c hload htest => ?_
  obtain ⟨hdecls, hfiles⟩ := of_decide_eq_true htest
  have hsame : ∀ path, written.isFile path = (texts "").isFile path := by
    intro path
    simp only [written, texts, Sources.isFile_ofTexts, List.any_cons, List.any_nil]
  -- the first two files stay as they are, the third becomes empty
  obtain ⟨lib, hlib, -⟩ := exists_parsed_of_any "mod a; mod b;" (fun _ => true)
    (by decide +kernel)
  obtain ⟨a, ha, -⟩ := exists_parsed_of_any "struct A;" (fun _ => true)
    (by decide +kernel)
  obtain ⟨b, hb, htests⟩ := exists_parsed_of_any
    "mod tests { #![cfg(test)] struct B; } #[cfg(test)] struct C;"
    (fun file => file.items.all isForTests) (by decide +kernel)
  obtain ⟨b', hb', hempty⟩ := exists_parsed_of_any ""
    (fun file => file.items.isEmpty) (by decide +kernel)
  have hdelete : DeletesTestsIn c.files written (texts "") := by
    refine ⟨Nat.le_refl _, fun path h => hsame path ▸ h, fun path _ h => hsame path ▸ h, ?_⟩
    simp only [hfiles, List.forall_mem_cons, List.not_mem_nil, false_imp_iff, implies_true, and_true]
    refine ⟨⟨_, _, itemsOf_eq_ok rfl hlib, itemsOf_eq_ok rfl hlib, .refl _⟩,
      ⟨_, _, itemsOf_eq_ok rfl ha, itemsOf_eq_ok rfl ha, .refl _⟩,
      ⟨_, _, itemsOf_eq_ok rfl hb, itemsOf_eq_ok rfl hb', ?_⟩⟩
    rw [List.isEmpty_iff.1 hempty]
    exact .of_all htests
  exact ⟨hdecls, hdelete, load_of_deletesTestsIn hload hdelete⟩

/-- At the top of its own file the condition does not keep a module out of the crate: its type is
    there, and is not once the module is deleted. -/
theorem load_ne_of_fileAttribute :
    let tests := "#![cfg(test)] struct N;"
    let texts (root : String) := Sources.ofTexts [(⟨"lib.rs"⟩, root), (⟨"tests.rs"⟩, tests)]
    (∃ file, parseFile tests = .ok file ∧ file.attributes.any isTestOnly = true) ∧
    (∃ c, load (texts "mod tests;") "app" [] ⟨"lib.rs"⟩ = .ok c ∧
      c.decls.map (·.identity) = ["app::tests::N"]) ∧
    ∃ c, load (texts "") "app" [] ⟨"lib.rs"⟩ = .ok c ∧ c.decls.map (·.identity) = [] := by
  refine ⟨exists_parsed_of_any _ (fun file => file.attributes.any isTestOnly) (by decide +kernel),
    exists_loaded_of_decide (by decide +kernel), exists_loaded_of_decide (by decide +kernel)⟩

end JobRoster.Crate
