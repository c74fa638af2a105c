import JobRoster.Proofs.Crate.Reading

/-!
# Files that ask for files

A module's file asks for the files of its modules, in order. A reading follows this and notes every
file that is opened, also where it fails or does not end; loading goes the same way.
-/

namespace JobRoster.Crate

open Files Syntax

/-! ## What a file asks for -/

/-- A module with a file of its own, as it is declared. -/
structure FileModule where
  /-- The names of the modules around it that are written in place. -/
  around : List String
  ident : Ident
  attributes : List Syntax.Attribute

namespace FileModule

/-- The module as seen from outside of another one. -/
def within (name : String) (m : FileModule) : FileModule :=
  { m with around := name :: m.around }

/-- The file of the module. -/
def file? (sources : Sources) (site : ItemSite) (m : FileModule) : Option ModuleFile :=
  moduleFile? sources (m.around.foldl (fun site name => site.inside site.module name) site)
    m.ident.name m.attributes

end FileModule

mutual

def fileModulesOf : Item → List FileModule
  | .module attributes _ ident content =>
    if attributes.any isTestOnly then []
    else
      match content with
      | some items => (fileModules items).map (·.within ident.name)
      | none => [⟨[], ident, attributes⟩]
  | .plain .. | .unknown => []

/-- The modules with a file of their own among items, in order. -/
def fileModules : List Item → List FileModule
  | [] => []
  | item :: items => fileModulesOf item ++ fileModules items

end

/-- The files that a module's file asks for, in order; nothing for a module that has none. -/
def asked (sources : Sources) (target : ModuleFile) : Except LoadError (List (Option ModuleFile)) :=
  (itemsOf sources target.file).map fun items =>
    (fileModules items).map
      (FileModule.file? sources (ItemSite.ofFile 0 target.file target.ownsDirectory))

/-! ## Readings -/

/-- How reading ends. -/
inductive Ending where
  | complete
  | failed
  | endless
deriving DecidableEq, Repr

def endingOf {α : Type} : Except LoadError α → Ending
  | .ok _ => .complete
  | .error (.endless _) => .endless
  | .error _ => .failed

theorem endingOf_error {α : Type} (error : LoadError) :
    endingOf (.error error : Except LoadError α) ≠ .complete := by
  cases error <;> simp [endingOf]

theorem eq_ok_of_toOption {α ε : Type} {result : Except ε α} {a : α}
    (h : result.toOption = some a) : result = .ok a := by
  cases result with
  | ok b => rw [Option.some.inj h]
  | error error => cases h

theorem exists_of_endingOf_endless {α : Type} {result : Except LoadError α}
    (h : endingOf result = .endless) : ∃ path, result = .error (.endless path) := by
  cases result with
  | ok a => cases h
  | error error =>
    cases error with
    | endless path => exact ⟨path, rfl⟩
    | io | malformed | moduleNotFound => cases h

theorem endingOf_map {α β : Type} (f : α → β) (result : Except LoadError α) :
    endingOf (result.map f) = endingOf result := by
  cases result with
  | error error => cases error <;> rfl
  | ok a => rfl

/-- The files that are opened one after another, until one cannot be read. -/
structure Reading where
  opened : List ModuleFile
  ending : Ending
deriving DecidableEq, Repr

namespace Reading

def nothing : Reading := ⟨[], .complete⟩

/-- The module has no file. -/
def missing : Reading := ⟨[], .failed⟩

/-- What is read next is not, unless all before it could be read. -/
def andThen (r next : Reading) : Reading :=
  if r.ending = .complete then ⟨r.opened ++ next.opened, next.ending⟩ else r

def inTurn : List Reading → Reading
  | [] => nothing
  | r :: rs => r.andThen (inTurn rs)

@[simp] theorem andThen_nothing (r : Reading) : r.andThen nothing = r := by
  unfold andThen
  split
  next h => rw [nothing, List.append_nil, ← h]
  · rfl

theorem andThen_assoc (r r' r'' : Reading) :
    (r.andThen r').andThen r'' = r.andThen (r'.andThen r'') := by
  unfold andThen
  split
  · simp only
    split
    · simp only [List.append_assoc]
    · rfl
  · rfl

@[simp] theorem inTurn_append (rs rs' : List Reading) :
    inTurn (rs ++ rs') = (inTurn rs).andThen (inTurn rs') := by
  induction rs with
  | nil => rfl
  | cons r rs ih => rw [List.cons_append, inTurn, inTurn, ih, andThen_assoc]

/-- Readings in turn do not end only where one of them does not. -/
theorem exists_endless_of_inTurn {rs : List Reading} (h : (inTurn rs).ending = .endless) :
    ∃ r ∈ rs, r.ending = .endless := by
  induction rs with
  | nil => cases h
  | cons r rs ih =>
    rw [inTurn, andThen] at h
    split at h
    · obtain ⟨r', hr', hend⟩ := ih h
      exact ⟨r', List.mem_cons_of_mem _ hr', hend⟩
    · exact ⟨r, List.mem_cons_self, h⟩

end Reading

/-- Opens a module's file and reads all that it asks for, in files that nest no deeper than
    `depth`. -/
def reading (sources : Sources) : (depth : Nat) → ModuleFile → Reading
  | 0, target => ⟨[target], .endless⟩
  | depth + 1, target =>
    match asked sources target with
    | .error _ => ⟨[target], .failed⟩
    | .ok files => Reading.andThen ⟨[target], .complete⟩
      (.inTurn (files.map fun file? => (file?.map (reading sources depth)).getD .missing))

/-! ## Reading as loading does it -/

/-- A load that starts from `s` goes as the reading says: it ends alike, and what it has read are
    the files that were opened. -/
structure Follows (s : LoadState) (result : Except LoadError LoadState) (r : Reading) : Prop where
  ending : endingOf result = r.ending
  files : ∀ s', result = .ok s' → s'.files = s.files ++ r.opened.map (·.file)

namespace Follows

variable {s : LoadState}

theorem nothing {s' : LoadState} (h : s'.files = s.files) : Follows s (.ok s') .nothing :=
  ⟨rfl, fun _ hs' => by rw [← Except.ok.inj hs', h]; simp [Reading.nothing]⟩

theorem of_files_eq {s' : LoadState} {result : Except LoadError LoadState} {r : Reading}
    (h : Follows s' result r) (hfiles : s'.files = s.files) : Follows s result r :=
  ⟨h.ending, hfiles ▸ h.files⟩

/-- A file is noted when it is opened. -/
theorem opening {s' : LoadState} {result : Except LoadError LoadState} {r : Reading}
    {target : ModuleFile} (h : Follows s' result r) (hfiles : s'.files = s.files ++ [target.file]) :
    Follows s result (Reading.andThen ⟨[target], .complete⟩ r) := by
  refine ⟨h.ending, fun next hnext => ?_⟩
  rw [h.files next hnext, hfiles, List.append_assoc]
  rfl

theorem bind {result : Except LoadError LoadState} {f : LoadState → Except LoadError LoadState}
    {r r' : Reading} (h : Follows s result r) (hf : ∀ s', result = .ok s' → Follows s' (f s') r') :
    Follows s (result.bind f) (r.andThen r') := by
  cases result with
  | error error =>
    have hfailed : r.ending ≠ .complete := h.ending ▸ endingOf_error error
    rw [Reading.andThen, if_neg hfailed]
    exact ⟨by rw [← h.ending]; cases error <;> rfl, fun _ hs' => by cases hs'⟩
  | ok next =>
    have hcomplete : r.ending = .complete := h.ending.symm
    rw [Reading.andThen, if_pos hcomplete]
    refine ⟨(hf next rfl).ending, fun s' hs' => ?_⟩
    rw [(hf next rfl).files s' hs', h.files next rfl, List.map_append, List.append_assoc]

end Follows

variable {sources : Sources} {load : FileLoader} {read : ModuleFile → Reading}

/-- What is read for a module with a file of its own. -/
def readingOf (sources : Sources) (read : ModuleFile → Reading) (site : ItemSite) (m : FileModule) :
    Reading :=
  ((m.file? sources site).map read).getD .missing

/-- Where a module's file is does not depend on which module it is declared in. -/
theorem file?_withModule (site : ItemSite) (module : Nat) (m : FileModule) :
    m.file? sources { site with module } = m.file? sources site := by
  obtain ⟨around, ident, attributes⟩ := m
  unfold FileModule.file?
  induction around generalizing site with
  | nil => rfl
  | cons name around ih => exact ih (site.inside site.module name)

theorem readingOf_withModule (site : ItemSite) (module : Nat) :
    readingOf sources read { site with module } = readingOf sources read site :=
  funext fun m => by rw [readingOf, readingOf, file?_withModule]

mutual

theorem follows_collectItem
    (hload : ∀ target m s, Follows s (load target m s) (read target)) (site : ItemSite) (s : LoadState) :
    ∀ item, Follows s (collectItem sources load site s item)
      (.inTurn ((fileModulesOf item).map (readingOf sources read site)))
  | .plain attributes visibility kind => by
    rw [collectItem, fileModulesOf]
    split
    · exact .nothing rfl
    · exact .nothing (LoadState.files_addItem ..)
  | .module attributes visibility ident (some items) => by
    rw [collectItem, fileModulesOf]
    split
    · exact .nothing rfl
    · have hinside : readingOf sources read site ∘ FileModule.within ident.name =
          readingOf sources read
            (site.inside (s.addName site.module ident.name).modules.length ident.name) :=
        readingOf_withModule (site.inside _ ident.name) site.module
      rw [List.map_map, hinside]
      exact (follows_collectItems hload _ _ items).of_files_eq rfl
  | .module attributes visibility ident none => by
    rw [collectItem, fileModulesOf]
    split
    · exact .nothing rfl
    · have htarget : (⟨[], ident, attributes⟩ : FileModule).file? sources site =
          moduleFile? sources site ident.name attributes := rfl
      simp only [List.map_cons, List.map_nil, readingOf, htarget, Reading.inTurn,
        Reading.andThen_nothing]
      cases moduleFile? sources site ident.name attributes with
      | some target => exact (hload target _ _).of_files_eq rfl
      | none => exact ⟨rfl, fun _ h => by cases h⟩
  | .unknown => by
    rw [collectItem, fileModulesOf]
    exact .nothing rfl

theorem follows_collectItems
    (hload : ∀ target m s, Follows s (load target m s) (read target)) (site : ItemSite) (s : LoadState) :
    ∀ items, Follows s (collectItems sources load site s items)
      (.inTurn ((fileModules items).map (readingOf sources read site)))
  | [] => by
    rw [collectItems, fileModules]
    exact .nothing rfl
  | item :: items => by
    rw [collectItems_cons, fileModules, List.map_append, Reading.inTurn_append]
    exact (follows_collectItem hload site s item).bind fun next _ =>
      follows_collectItems hload site next items

end

/-- A file whose items cannot be read is an error at once. -/
theorem endingOf_of_itemsOf {path : FilePath} {error : LoadError}
    (h : itemsOf sources path = .error error) :
    endingOf (.error error : Except LoadError LoadState) = .failed := by
  unfold itemsOf at h
  split at h
  · obtain rfl := Except.error.inj h
    rfl
  · split at h
    · obtain rfl := Except.error.inj h
      rfl
    · cases h

/-- A file is loaded as it is read. -/
theorem follows_loadFile (sources : Sources) (depth : Nat) (target : ModuleFile) (m : Module)
    (s : LoadState) :
    Follows s (loadFile sources depth target m s) (reading sources depth target) := by
  induction depth generalizing target m s with
  | zero => exact ⟨rfl, fun _ h => by cases h⟩
  | succ depth ih =>
    rw [loadFile_succ, reading, asked]
    cases hitems : itemsOf sources target.file with
    | error error =>
      have hending : endingOf (.error error : Except LoadError LoadState) = .failed :=
        endingOf_of_itemsOf hitems
      exact ⟨hending, fun _ h => by cases h⟩
    | ok items =>
      have hsite : (fun m => ((m.file? sources
            (ItemSite.ofFile 0 target.file target.ownsDirectory)).map
          (reading sources depth)).getD .missing) =
          readingOf sources (reading sources depth)
            (ItemSite.ofFile s.modules.length target.file target.ownsDirectory) :=
        readingOf_withModule (ItemSite.ofFile _ _ _) 0
      simp only [Except.map, List.map_map, Function.comp_def, hsite]
      refine Follows.opening (follows_collectItems ih _ _ items) ?_
      rfl

end JobRoster.Crate
