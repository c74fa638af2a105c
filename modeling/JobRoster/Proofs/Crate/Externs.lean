import JobRoster.Proofs.Crate.Reading
import JobRoster.Proofs.Text.ByteOrder

/-!
# The crates that may start a path

They are the dependencies, the crates that every crate may name, the crate itself, and those that
the files that were read name with `extern crate`, no matter where. Their names are kept in order,
each once, so that one can be looked for by halving.
-/

namespace JobRoster.Crate

open Files Syntax

/-! ## Names in order -/

/-- Names in the order of their bytes, each once. -/
def InOrder (names : List String) : Prop :=
  names.Pairwise fun a b => Text.bytes a < Text.bytes b

theorem inOrder_iff {names : List String} : InOrder names ↔ names.Pairwise (· < ·) := by
  simp only [InOrder, Text.bytes_lt_bytes_iff]

theorem pairwise_insertSorted {names : List String} (h : names.Pairwise (· < ·)) (name : String) :
    (insertSorted name names).Pairwise (· < ·) := by
  induction names with
  | nil => simp [insertSorted]
  | cons other names ih =>
    obtain ⟨hother, hnames⟩ := List.pairwise_cons.1 h
    unfold insertSorted
    split
    next hlt =>
      refine List.pairwise_cons.2 ⟨fun later hlater => ?_, h⟩
      obtain rfl | hlater := List.mem_cons.1 hlater
      · exact hlt
      · exact hlt.trans (hother later hlater)
    next hge =>
      split
      · exact h
      next hne =>
        refine List.pairwise_cons.2 ⟨fun later hlater => ?_, ih hnames⟩
        obtain rfl | hlater := mem_insertSorted.1 hlater
        · exact lt_of_le_of_ne (not_lt.1 hge) (Ne.symm hne)
        · exact hother later hlater

theorem inOrder_sortNames (names : List String) : InOrder (sortNames names) := by
  -- the fold starts from names that are in order already
  suffices h : ∀ sorted : List String, sorted.Pairwise (· < ·) →
      (names.foldl (fun sorted name => insertSorted name sorted) sorted).Pairwise (· < ·) from
    inOrder_iff.2 (h [] List.Pairwise.nil)
  induction names with
  | nil => exact fun _ h => h
  | cons name names ih => exact fun sorted h => ih _ (pairwise_insertSorted h name)

/-- Looks for a name by halving the names that are left, down to one. -/
def bisect (name : String) (names : List String) : Bool :=
  if h : 1 < names.length then
    if name < names[names.length / 2] then
      bisect name (names.take (names.length - names.length / 2))
    else bisect name (names.drop (names.length / 2))
  else names.head? = some name
termination_by names.length
decreasing_by
  · rw [List.length_take]
    omega
  · rw [List.length_drop]
    omega

/-- A name before one in the middle is not behind that one. -/
theorem contains_take {names : List String} (h : names.Pairwise (· < ·)) {middle count : Nat}
    (hmiddle : middle < names.length) (hcount : middle ≤ count) {name : String}
    (hlt : name < names[middle]) : (names.take count).contains name = names.contains name := by
  rw [Bool.eq_iff_iff, List.contains_iff_mem, List.contains_iff_mem]
  refine ⟨List.mem_of_mem_take, fun hmem => ?_⟩
  obtain ⟨index, hindex, rfl⟩ := List.mem_iff_getElem.1 hmem
  have hbefore : index < middle := by
    by_contra hge
    obtain heq | hgt := Nat.eq_or_lt_of_le (not_lt.1 hge)
    · simp only [heq, lt_irrefl] at hlt
    · exact lt_asymm hlt (List.pairwise_iff_getElem.1 h _ _ _ hindex hgt)
  refine List.mem_iff_getElem.2 ⟨index, ?_, List.getElem_take⟩
  rw [List.length_take]
  omega

/-- A name that is not before one in the middle is that one or behind it. -/
theorem contains_drop {names : List String} (h : names.Pairwise (· < ·)) {middle : Nat}
    (hmiddle : middle < names.length) {name : String} (hge : ¬ name < names[middle]) :
    (names.drop middle).contains name = names.contains name := by
  rw [Bool.eq_iff_iff, List.contains_iff_mem, List.contains_iff_mem]
  refine ⟨List.mem_of_mem_drop, fun hmem => ?_⟩
  obtain ⟨index, hindex, rfl⟩ := List.mem_iff_getElem.1 hmem
  have hafter : middle ≤ index := by
    by_contra hlt
    exact hge (List.pairwise_iff_getElem.1 h _ _ hindex _ (not_le.1 hlt))
  obtain ⟨behind, rfl⟩ := Nat.exists_eq_add_of_le hafter
  refine List.mem_iff_getElem.2 ⟨behind, ?_, List.getElem_drop⟩
  rw [List.length_drop]
  omega

/-- In names that are in order, every name is found. -/
theorem bisect_eq_contains {names : List String} (h : InOrder names) (name : String) :
    bisect name names = names.contains name := by
  rw [inOrder_iff] at h
  fun_induction bisect name names with
  | case1 names hlength hlt ih =>
    rw [ih (h.sublist (List.take_sublist _ _))]
    exact contains_take h _ (by omega) hlt
  | case2 names hlength hge ih =>
    rw [ih (h.sublist (List.drop_sublist _ _))]
    exact contains_drop h _ hge
  -- at most one name is left
  | case3 names hlength =>
    match names with
    | [] => rfl
    | [one] => simp [eq_comm]
    | _ :: _ :: _ => simp at hlength

/-! ## Crates that are named -/

mutual

/-- The crates that an item names, also inside of a module that is written in place. An item for
    tests names none, and `self` is the crate itself. -/
def cratesNamedBy : Item → List String
  | .plain attributes _ (.externCrate ident _) =>
    if attributes.any isTestOnly || ident.name = "self" then [] else [ident.name]
  | .module attributes _ _ (some items) => if attributes.any isTestOnly then [] else cratesNamed items
  | _ => []

/-- The crates that items name, in order. -/
def cratesNamed : List Item → List String
  | [] => []
  | item :: items => cratesNamedBy item ++ cratesNamed items

end

/-- A file among those that were read names a crate. -/
def NamedIn (sources : Sources) (files : List FilePath) (crate : String) : Prop :=
  ∃ path ∈ files, ∃ items, itemsOf sources path = .ok items ∧ crate ∈ cratesNamed items

namespace LoadState

/-- Between two states more files were read. The crates that were added are the ones named there,
    and those of `here`. -/
def AddsCrates (sources : Sources) (here : List String) (s s' : LoadState) : Prop :=
  ∃ files, s'.files = s.files ++ files ∧
    ∀ crate, crate ∈ s'.externs ↔
      crate ∈ s.externs ∨ crate ∈ here ∨ NamedIn sources files crate

namespace AddsCrates

variable {sources : Sources} {here here' : List String} {s s' s'' : LoadState}

theorem unread (hfiles : s'.files = s.files)
    (hcrates : ∀ crate, crate ∈ s'.externs ↔ crate ∈ s.externs ∨ crate ∈ here) :
    AddsCrates sources here s s' :=
  ⟨[], by simpa using hfiles, fun crate => by simp [hcrates crate, NamedIn]⟩

theorem trans (h : AddsCrates sources here s s') (h' : AddsCrates sources here' s' s'') :
    AddsCrates sources (here ++ here') s s'' := by
  obtain ⟨files, hfiles, hcrates⟩ := h
  obtain ⟨files', hfiles', hcrates'⟩ := h'
  refine ⟨files ++ files', by rw [hfiles', hfiles, List.append_assoc], fun crate => ?_⟩
  have hnamed : NamedIn sources (files ++ files') crate ↔
      NamedIn sources files crate ∨ NamedIn sources files' crate := by
    simp only [NamedIn, List.mem_append, or_and_right, exists_or]
  rw [hcrates', hcrates, hnamed, List.mem_append]
  tauto

end AddsCrates

/-- An item that is no module adds the crate it names, if it names one. -/
theorem addsCrates_addItem (sources : Sources) (s : LoadState) (module : Nat) (file : FilePath)
    {attributes : List Syntax.Attribute} (htests : attributes.any isTestOnly = false)
    (visibility : Visibility) (kind : ItemKind) :
    AddsCrates sources (cratesNamedBy (.plain attributes visibility kind)) s
      (s.addItem module file attributes visibility kind) := by
  refine .unread (files_addItem ..) fun crate => ?_
  cases kind with
  | externCrate ident newName =>
    have hadd : ∀ macros, (s.addExtern ident.name macros).externs =
        s.externs ++ cratesNamedBy (.plain attributes visibility (.externCrate ident newName)) := by
      intro macros
      rw [cratesNamedBy, htests]
      by_cases hself : ident.name = "self" <;> simp [addExtern, hself]
    have hexterns : (s.addItem module file attributes visibility (.externCrate ident newName)).externs =
        (s.addExtern ident.name (attributes.any (·.path.isWord "macro_use"))).externs := by
      cases newName <;> rfl
    rw [hexterns, hadd, List.mem_append]
  | useTree leadingColon tree =>
    have hsame : (s.addItem module file attributes visibility (.useTree leadingColon tree)).externs =
        s.externs := (sameCrates_addImports s _ _).externs
    simp [hsame, cratesNamedBy]
  | _ => simp [addItem, addDecl, addConst, addName, modifyModule, cratesNamedBy]

end LoadState

open LoadState

variable {sources : Sources} {load : FileLoader}

mutual

theorem addsCrates_collectItem
    (hload : ∀ target m s s', load target m s = .ok s' → AddsCrates sources [] s s')
    {site : ItemSite} {s s' : LoadState} :
    ∀ item, collectItem sources load site s item = .ok s' →
      AddsCrates sources (cratesNamedBy item) s s'
  | .plain attributes visibility kind, h => by
    rw [collectItem] at h
    split at h
    next htests =>
      obtain rfl := Except.ok.inj h
      exact .unread rfl fun crate => by cases kind <;> simp [cratesNamedBy, htests]
    next htests =>
      obtain rfl := Except.ok.inj h
      exact addsCrates_addItem sources s _ _ (Bool.not_eq_true _ ▸ htests) visibility kind
  | .module attributes visibility ident (some items), h => by
    rw [collectItem] at h
    rw [cratesNamedBy]
    split at h
    next htests =>
      obtain rfl := Except.ok.inj h
      rw [if_pos htests]
      exact .unread rfl fun crate => by simp
    next htests =>
      rw [if_neg htests]
      have hinside := addsCrates_collectItems hload items h
      exact hinside
  | .module attributes visibility ident none, h => by
    rw [collectItem] at h
    simp only [cratesNamedBy]
    split at h
    · obtain rfl := Except.ok.inj h
      exact .unread rfl fun crate => by simp
    · simp only at h
      split at h
      next target _ =>
        have hfile := hload target _ _ _ h
        exact hfile
      next => cases h
  | .unknown, h => by
    rw [collectItem] at h
    obtain rfl := Except.ok.inj h
    exact .unread rfl fun crate => by simp [cratesNamedBy]

theorem addsCrates_collectItems
    (hload : ∀ target m s s', load target m s = .ok s' → AddsCrates sources [] s s')
    {site : ItemSite} {s s' : LoadState} :
    ∀ items, collectItems sources load site s items = .ok s' →
      AddsCrates sources (cratesNamed items) s s'
  | [], h => by
    rw [collectItems] at h
    obtain rfl := Except.ok.inj h
    exact .unread rfl fun crate => by simp [cratesNamed]
  | item :: items, h => by
    rw [collectItems_cons] at h
    cases hitem : collectItem sources load site s item with
    | error error => rw [hitem] at h; cases h
    | ok next =>
      rw [hitem] at h
      rw [cratesNamed]
      exact (addsCrates_collectItem hload item hitem).trans (addsCrates_collectItems hload items h)

end

/-- Reading a file adds the crates that are named in it and in the files that it asks for. -/
theorem addsCrates_loadFile {depth : Nat} {target : ModuleFile} {m : Module} {s s' : LoadState}
    (h : loadFile sources depth target m s = .ok s') : AddsCrates sources [] s s' := by
  induction depth generalizing target m s s' with
  | zero => cases h
  | succ depth ih =>
    rw [loadFile_succ] at h
    cases hitems : itemsOf sources target.file with
    | error error => rw [hitems] at h; cases h
    | ok items =>
      rw [hitems] at h
      obtain ⟨files, hfiles, hcrates⟩ := addsCrates_collectItems (fun _ _ _ _ => ih) items h
      -- the file itself comes first, and then those that its items ask for
      refine ⟨target.file :: files, by simp [hfiles], fun crate => ?_⟩
      have hhere : NamedIn sources (target.file :: files) crate ↔
          crate ∈ cratesNamed items ∨ NamedIn sources files crate := by
        simp [NamedIn, hitems]
      rw [hcrates, hhere]
      simp [addModule]

/-- The crates that may start a path are just those that were there and those that were named. -/
theorem isExtern_iff_of_load {name : String} {dependencies : List String} {root : FilePath}
    {c : Crate} (h : Crate.load sources name dependencies root = .ok c) (crate : String) :
    c.isExtern crate = true ↔
      crate ∈ dependencies ∨ crate ∈ implicitExterns ∨ crate = name ∨
        NamedIn sources c.files crate := by
  rw [load_eq] at h
  cases hfile : loadFile sources sources.depth ⟨root, true⟩ (Module.new [] none .crate)
      (LoadState.start name dependencies) with
  | error error => rw [hfile] at h; cases h
  | ok s =>
    rw [hfile] at h
    obtain rfl : s.finish = c := Except.ok.inj h
    obtain ⟨files, hfiles, hcrates⟩ := addsCrates_loadFile hfile
    have hread : s.finish.files = files := by simpa [finish, start] using hfiles
    rw [isExtern, List.contains_iff_mem, hread]
    refine mem_sortNames.trans ((hcrates crate).trans ?_)
    simp only [start, List.mem_append, List.mem_singleton, List.not_mem_nil, false_or, or_assoc]

end JobRoster.Crate
