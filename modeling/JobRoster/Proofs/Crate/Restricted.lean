import JobRoster.Proofs.Crate.DeclaredNames
import JobRoster.Proofs.Crate.Enclosing
import JobRoster.Proofs.Crate.Places
import JobRoster.Proofs.Crate.TestItems

/-!
# Restricted visibilities

A restricted visibility names a module as a path does: from the root, from the module it stands in
or from the one around it, by words `super` further up and by names down again. Where that module is
the one it stands in or one around it, the scope that is kept is that module.
-/

namespace JobRoster.Crate

open Files Syntax Relation

/-! ## What a restriction denotes -/

/-- Names lead from a module down to another one. -/
inductive Descends (modules : List Module) : Nat → List String → Nat → Prop
  | here (module : Nat) : Descends modules module [] module
  | into {outer inner last : Nat} {m : Module} {name : String} {names : List String}
      (hm : modules[inner]? = some m) (hparent : m.parent = some outer)
      (hname : m.path.getLast? = some name) (rest : Descends modules inner names last) :
      Descends modules outer (name :: names) last

/-- Words `super` lead up from a module, and names behind them down. -/
inductive Leads (modules : List Module) : Nat → List String → Nat → Prop
  | names {module last : Nat} {names : List String} (h : Descends modules module names last) :
      Leads modules module names last
  | up {module outer last : Nat} {segments : List String}
      (h : Scope.parent? modules module = some outer) (rest : Leads modules outer segments last) :
      Leads modules module ("super" :: segments) last

/-- The module that a restriction denotes where it is written in `module`. -/
inductive RestrictsTo (modules : List Module) (module : Nat) : List String → Nat → Prop
  | crate {segments : List String} {named : Nat} (h : Leads modules 0 segments named) :
      RestrictsTo modules module ("crate" :: segments) named
  | self {segments : List String} {named : Nat} (h : Leads modules module segments named) :
      RestrictsTo modules module ("self" :: segments) named
  | super {outer : Nat} {segments : List String} {named : Nat}
      (hparent : Scope.parent? modules module = some outer)
      (h : Leads modules outer segments named) :
      RestrictsTo modules module ("super" :: segments) named

variable {modules : List Module} {module outer inner named : Nat} {names segments : List String}

/-! ## In the tree of modules -/

section Tree

variable (htree : ModuleTree modules)
  (hroot : ∃ m, modules[0]? = some m ∧ m.parent = none ∧ m.scope = .crate)
include htree hroot

theorem exists_of_parent? (h : Scope.parent? modules inner = some outer) :
    outer < inner ∧ ∃ m p name, modules[inner]? = some m ∧ modules[outer]? = some p ∧
      m.path = p.path ++ [name] ∧ p.declares name = true := by
  obtain ⟨m, hm, hparent⟩ := Option.bind_eq_some_iff.1 h
  have hlt : outer < inner := lt_of_parent htree hroot hm hparent
  obtain ⟨outer', p, name, -, hp, hparent', hpath, hname⟩ :=
    htree.below inner m hm (Nat.ne_zero_of_lt hlt)
  obtain rfl : outer = outer' := Option.some.inj (hparent.symm.trans hparent')
  exact ⟨hlt, m, p, name, hm, hp, hpath, hname⟩

theorem le_of_encloses (h : Encloses modules outer inner) : outer ≤ inner := by
  induction h with
  | refl => exact Nat.le_refl _
  | tail _ hparent ih =>
    exact Nat.le_trans (Nat.le_of_lt (exists_of_parent? htree hroot hparent).1) ih

/-- A module that is around another one has a shorter path. -/
theorem eq_or_length_lt (h : Encloses modules outer inner) {m p : Module}
    (hm : modules[inner]? = some m) (hp : modules[outer]? = some p) :
    outer = inner ∨ p.path.length < m.path.length := by
  induction h generalizing p with
  | refl => exact .inl rfl
  | @tail between outer hinner hparent ih =>
    obtain ⟨-, b, p', name, hb, hp', hpath, -⟩ := exists_of_parent? htree hroot hparent
    obtain rfl : p = p' := Option.some.inj (hp.symm.trans hp')
    have hshorter : p.path.length < b.path.length := by simp [hpath]
    refine .inr ?_
    obtain rfl | hlt := ih hb
    · obtain rfl : m = b := Option.some.inj (hm.symm.trans hb)
      exact hshorter
    · exact Nat.lt_trans hshorter hlt

/-- Of the modules around one, each has a path of its own. -/
theorem eq_of_path_eq (h : Encloses modules outer module) (h' : Encloses modules inner module)
    {m p : Module} (hm : modules[inner]? = some m) (hp : modules[outer]? = some p)
    (hpath : p.path = m.path) : outer = inner := by
  have hunique : Relator.RightUnique
      fun index parent => Scope.parent? modules index = some parent :=
    fun _ _ _ hparent hparent' => Option.some.inj (hparent.symm.trans hparent')
  -- there is one parent at most, so one of the two is around the other
  obtain hup | hup := ReflTransGen.total_of_right_unique hunique h h'
  · obtain rfl | hlt := eq_or_length_lt htree hroot hup hp hm
    · rfl
    · rw [hpath] at hlt
      exact absurd hlt (Nat.lt_irrefl _)
  · obtain rfl | hlt := eq_or_length_lt htree hroot hup hm hp
    · rfl
    · rw [hpath] at hlt
      exact absurd hlt (Nat.lt_irrefl _)

theorem mem_ancestry (h : Encloses modules outer inner) : outer ∈ ancestry modules inner := by
  induction h using ReflTransGen.head_induction_on with
  | refl => simp [ancestry, ancestryWithin]
  | head hparent _ ih =>
    obtain ⟨m, hm, hup⟩ := Option.bind_eq_some_iff.1 hparent
    rw [ancestry_of_parent htree hroot hm hup]
    exact List.mem_cons_of_mem _ ih

/-- The search for a path finds the module around that has it. -/
theorem enclosing?_eq (h : Encloses modules named module) {m : Module}
    (hm : modules[named]? = some m) :
    Scope.enclosing? modules (ancestry modules module) m.path = some named := by
  have hmem : named ∈ ancestry modules module := mem_ancestry htree hroot h
  cases hfind : Scope.enclosing? modules (ancestry modules module) m.path with
  | none =>
    have hnot := List.find?_eq_none.1 hfind named hmem
    simp [hm] at hnot
  | some found =>
    have hfound := List.find?_some hfind
    obtain ⟨p, hp, hpath⟩ := (Option.any_eq_true ..).1 hfound
    have haround : Encloses modules found module :=
      encloses_of_mem_ancestryWithin (List.mem_of_find?_eq_some hfind)
    rw [eq_of_path_eq htree hroot haround h hm hp (of_decide_eq_true hpath)]

/-- Names lead down along the path. -/
theorem Descends.exists_path (h : Descends modules outer names named) {p : Module}
    (hp : modules[outer]? = some p) :
    ∃ m, modules[named]? = some m ∧ m.path = p.path ++ names := by
  induction h generalizing p with
  | here module => exact ⟨p, hp, by simp⟩
  | @into outer inner last m name names hm hparent hname _ ih =>
    obtain ⟨-, m', p', name', hm', hp', hpath, -⟩ :=
      exists_of_parent? htree hroot (Option.bind_eq_some_iff.2 ⟨m, hm, hparent⟩)
    obtain rfl : m = m' := Option.some.inj (hm.symm.trans hm')
    obtain rfl : p = p' := Option.some.inj (hp.symm.trans hp')
    rw [hpath, List.getLast?_concat] at hname
    obtain rfl := Option.some.inj hname
    obtain ⟨m', hm', hpath'⟩ := ih hm
    exact ⟨m', hm', by rw [hpath', hpath, List.append_assoc, List.singleton_append]⟩

/-- No module is called `super`. -/
theorem Descends.head?_ne_super
    (hnames : ∀ m ∈ modules, ∀ name, m.declares name = true → Nameable name)
    (h : Descends modules outer names named) : names.head? ≠ some "super" := by
  cases h with
  | here => exact nofun
  | into hm hparent hname _ =>
    obtain ⟨-, m, p, name, hm', hp, hpath, hdeclares⟩ :=
      exists_of_parent? htree hroot (Option.bind_eq_some_iff.2 ⟨_, hm, hparent⟩)
    rw [Option.some.inj (hm.symm.trans hm'), hpath, List.getLast?_concat] at hname
    obtain rfl := Option.some.inj hname
    rintro ⟨⟩
    exact (hnames p (List.mem_of_getElem? hp) _ hdeclares).keyword (by decide)

variable (hnames : ∀ m ∈ modules, ∀ name, m.declares name = true → Nameable name)
include hnames

/-- The way that a restriction takes is followed to a module around the one that it is written
    in. -/
theorem Leads.follow?_eq (h : Leads modules outer segments named)
    (hnamed : Encloses modules named module) {p : Module} (hp : modules[outer]? = some p) :
    Scope.follow? modules module outer segments = some named := by
  induction h generalizing p with
  | @names outer last names hdown =>
    obtain ⟨m, hm, hpath⟩ := hdown.exists_path htree hroot hp
    have hsuper := hdown.head?_ne_super htree hroot hnames
    cases names with
    | nil =>
      cases hdown
      rfl
    | cons name names =>
      -- from the first name on, a module is looked for by its whole path
      rw [Scope.follow?, if_neg fun heq => hsuper (congrArg some heq), hp]
      dsimp only
      rw [← hpath]
      exact enclosing?_eq htree hroot hnamed hm
  | up hparent _ ih =>
    obtain ⟨-, -, q, -, -, hq, -⟩ := exists_of_parent? htree hroot hparent
    rw [Scope.follow?, if_pos rfl, hparent]
    exact ih hnamed hq

/-- A restriction that denotes a module around the one that it is written in names it. -/
theorem RestrictsTo.restricted?_eq (h : RestrictsTo modules module segments named)
    (hnamed : Encloses modules named module) (hmodule : module < modules.length) :
    Scope.restricted? modules module segments = some named := by
  cases h with
  | crate hleads =>
    obtain ⟨root, hfirst, -⟩ := htree.root
    exact hleads.follow?_eq htree hroot hnames hnamed hfirst
  | self hleads =>
    exact hleads.follow?_eq htree hroot hnames hnamed (List.getElem?_eq_getElem hmodule)
  | super hparent hleads =>
    obtain ⟨-, -, p, -, -, hp, -⟩ := exists_of_parent? htree hroot hparent
    rw [Scope.restricted?, hparent]
    exact hleads.follow?_eq htree hroot hnames hnamed hp

end Tree

/-! ## As much as is read -/

section Later

variable {later : List Module} (htree : ModuleTree later)
  (hroot : ∃ m, later[0]? = some m ∧ m.parent = none ∧ m.scope = .crate)
  (hgrows : ∀ (index : Nat) (m : Module), modules[index]? = some m →
    ∃ m', later[index]? = some m' ∧ m.Grows m')
include hgrows

/-- A module that is there already is as it will be. -/
theorem exists_earlier {m' : Module} (hm' : later[module]? = some m')
    (hmodule : module < modules.length) : ∃ m, modules[module]? = some m ∧ m.Grows m' := by
  obtain ⟨m'', hm'', hgrown⟩ := hgrows module _ (List.getElem?_eq_getElem hmodule)
  rw [Option.some.inj (hm'.symm.trans hm'')]
  exact ⟨_, List.getElem?_eq_getElem hmodule, hgrown⟩

theorem parent?_earlier (h : Scope.parent? later inner = some outer)
    (hinner : inner < modules.length) : Scope.parent? modules inner = some outer := by
  obtain ⟨m', hm', hparent⟩ := Option.bind_eq_some_iff.1 h
  obtain ⟨m, hm, hgrown⟩ := exists_earlier hgrows hm' hinner
  exact Option.bind_eq_some_iff.2 ⟨m, hm, hgrown.parent.symm.trans hparent⟩

include htree hroot

theorem encloses_earlier (h : Encloses later outer inner) (hinner : inner < modules.length) :
    Encloses modules outer inner := by
  induction h using ReflTransGen.head_induction_on with
  | refl => exact .refl
  | head hparent _ ih =>
    have hlt := (exists_of_parent? htree hroot hparent).1
    exact .head (parent?_earlier hgrows hparent hinner) (ih (Nat.lt_trans hlt hinner))

omit hgrows in
theorem Descends.le (h : Descends later outer names named) : outer ≤ named := by
  induction h with
  | here => exact Nat.le_refl _
  | into hm hparent _ _ ih =>
    have hlt := (exists_of_parent? htree hroot (Option.bind_eq_some_iff.2 ⟨_, hm, hparent⟩)).1
    exact Nat.le_trans (Nat.le_of_lt hlt) ih

theorem Descends.earlier (h : Descends later outer names named) (hnamed : named < modules.length) :
    Descends modules outer names named := by
  induction h with
  | here => exact .here _
  | into hm hparent hname hrest ih =>
    obtain ⟨m, hm', hgrown⟩ :=
      exists_earlier hgrows hm (Nat.lt_of_le_of_lt (hrest.le htree hroot) hnamed)
    exact .into hm' (hgrown.parent.symm.trans hparent) (by rw [← hgrown.path]; exact hname)
      (ih hnamed)

theorem Leads.earlier (h : Leads later outer segments named) (houter : outer < modules.length)
    (hnamed : named < modules.length) : Leads modules outer segments named := by
  induction h with
  | names hdown => exact .names (hdown.earlier htree hroot hgrows hnamed)
  | up hparent _ ih =>
    have hlt := (exists_of_parent? htree hroot hparent).1
    exact .up (parent?_earlier hgrows hparent houter) (ih (Nat.lt_trans hlt houter) hnamed)

theorem RestrictsTo.earlier (h : RestrictsTo later module segments named)
    (hmodule : module < modules.length) (hnamed : named < modules.length) :
    RestrictsTo modules module segments named := by
  cases h with
  | crate hleads =>
    exact .crate (hleads.earlier htree hroot hgrows (Nat.zero_lt_of_lt hmodule) hnamed)
  | self hleads => exact .self (hleads.earlier htree hroot hgrows hmodule hnamed)
  | super hparent hleads =>
    have hlt := (exists_of_parent? htree hroot hparent).1
    exact .super (parent?_earlier hgrows hparent hmodule)
      (hleads.earlier htree hroot hgrows (Nat.lt_trans hlt hmodule) hnamed)

end Later

/-! ## What a scope depends on -/

/-- The modules have the same paths and parents, whatever else they hold. -/
structure SameShape (modules modules' : List Module) : Prop where
  length : modules'.length = modules.length
  parent : ∀ index, Scope.parent? modules' index = Scope.parent? modules index
  path : ∀ index : Nat, modules'[index]?.map (·.path) = modules[index]?.map (·.path)

namespace SameShape

variable {modules' : List Module} (h : SameShape modules modules')
include h

theorem ancestry_eq (index : Nat) : ancestry modules' index = ancestry modules index := by
  have hwithin : ∀ steps index,
      ancestryWithin modules' steps index = ancestryWithin modules steps index := by
    intro steps
    induction steps with
    | zero => exact fun _ => rfl
    | succ steps ih =>
      intro index
      have hup : modules'[index]?.bind (·.parent) = modules[index]?.bind (·.parent) :=
        h.parent index
      rw [ancestryWithin, ancestryWithin, hup]
      cases modules[index]?.bind (·.parent) with
      | none => rfl
      | some parent => exact congrArg _ (ih parent)
  rw [ancestry, ancestry, h.length, hwithin]

theorem enclosing?_eq (around : List Nat) (target : List String) :
    Scope.enclosing? modules' around target = Scope.enclosing? modules around target := by
  have htest : ∀ (modules : List Module) (index : Nat), modules[index]?.any (·.path = target) =
      (modules[index]?.map (·.path)).any (· = target) := fun modules index => by
    cases modules[index]? <;> rfl
  refine congrArg (around.find? ·) (funext fun index => ?_)
  rw [htest, htest, h.path]

theorem follow?_eq (module current : Nat) (segments : List String) :
    Scope.follow? modules' module current segments =
      Scope.follow? modules module current segments := by
  induction segments generalizing current with
  | nil => rfl
  | cons segment segments ih =>
    have hpath := h.path current
    rw [Scope.follow?, Scope.follow?, h.parent, h.ancestry_eq]
    simp only [ih, h.enclosing?_eq]
    cases hstart : modules[current]? with
    | none =>
      rw [hstart, Option.map_none, Option.map_eq_none_iff] at hpath
      rw [hpath]
    | some start =>
      rw [hstart] at hpath
      obtain ⟨start', hstart', hsame⟩ := Option.map_eq_some_iff.1 hpath
      rw [hstart']
      dsimp only
      rw [hsame]

theorem ofVisibility_eq (module : Nat) (visibility : Visibility) :
    Scope.ofVisibility modules' module visibility =
      Scope.ofVisibility modules module visibility := by
  have hrestricted : ∀ segments, Scope.restricted? modules' module segments =
      Scope.restricted? modules module segments := by
    intro segments
    unfold Scope.restricted?
    simp only [h.follow?_eq, h.parent]
  cases visibility with
  | visible => rfl
  | inherited => rfl
  | restricted path => rw [Scope.ofVisibility, Scope.ofVisibility, hrestricted]

end SameShape

namespace LoadState

variable {s s' : LoadState}

theorem GrowsAt.sameShape (h : GrowsAt module s s') : SameShape s.modules s'.modules := by
  obtain ⟨f, hf, hs'⟩ := h
  have hafter : ∀ index : Nat, s'.modules[index]? =
      s.modules[index]?.map fun m => if module = index then f m else m := fun index => by
    rw [hs', List.getElem?_modify]
    rfl
  refine ⟨by rw [hs', List.length_modify], fun index => ?_, fun index => ?_⟩
  · rw [Scope.parent?, Scope.parent?, hafter]
    cases s.modules[index]? with
    | none => rfl
    | some m =>
      rw [Option.map_some, Option.bind_some, Option.bind_some]
      split
      · exact (hf m).parent
      · rfl
  · rw [hafter]
    cases s.modules[index]? with
    | none => rfl
    | some m =>
      rw [Option.map_some, Option.map_some, Option.map_some]
      split
      · rw [(hf m).path]
      · rfl

theorem GrowsAt.scopeOf_eq {grown : Nat} (h : GrowsAt grown s s') (module : Nat)
    (visibility : Visibility) : s'.scopeOf module visibility = s.scopeOf module visibility :=
  h.sameShape.ofVisibility_eq module visibility

end LoadState

/-! ## What is kept of an item -/

/-- The import is kept in a module with a scope. -/
def Import.KeptIn (m : Module) (scope : Scope) : Import → Prop
  | binding name target => ⟨name, target, scope⟩ ∈ m.bindings
  | glob target => ⟨target, scope⟩ ∈ m.globs

theorem Import.KeptIn.grows {m m' : Module} {scope : Scope} {leaf : Import}
    (h : leaf.KeptIn m scope) (hgrows : m.Grows m') : leaf.KeptIn m' scope := by
  cases leaf with
  | binding name target => exact hgrows.bindings h
  | glob target => exact hgrows.globs h

namespace LoadState

variable {s : LoadState}

theorem exists_kept_addImport {m : Module} (hm : s.modules[module]? = some m) (scope : Scope)
    (leaf : Import) :
    ∃ m', (s.addImport module scope leaf).modules[module]? = some m' ∧ leaf.KeptIn m' scope := by
  cases leaf with
  | binding name target =>
    refine ⟨_, by rw [addImport, addBinding, modifyModule, List.getElem?_modify, hm]; rfl, ?_⟩
    simp [Import.KeptIn]
  | glob target =>
    refine ⟨_, by rw [addImport, modifyModule, List.getElem?_modify, hm]; rfl, ?_⟩
    simp [Import.KeptIn]

/-- All imports of an item are kept with the scope of the item. -/
theorem exists_kept_addImports {leaves : List Import} (hleaves : ∀ leaf ∈ leaves, leaf.Spelled)
    (hmodule : module < s.modules.length) (visibility : Visibility) :
    ∃ m, (leaves.foldl (fun s leaf => s.addImport module (s.scopeOf module visibility) leaf)
      s).modules[module]? = some m ∧
        ∀ leaf ∈ leaves, leaf.KeptIn m (s.scopeOf module visibility) := by
  induction leaves generalizing s with
  | nil => exact ⟨_, List.getElem?_eq_getElem hmodule, nofun⟩
  | cons leaf leaves ih =>
    obtain ⟨hleaf, hrest⟩ := List.forall_mem_cons.1 hleaves
    have hgrows := @growsAt_addImport s module leaf hleaf (s.scopeOf module visibility)
    obtain ⟨m, hm, hkept⟩ := exists_kept_addImport (List.getElem?_eq_getElem hmodule)
      (s.scopeOf module visibility) leaf
    obtain ⟨m', hm', hall⟩ := ih hrest (hgrows.length_eq ▸ hmodule)
    obtain ⟨m'', hm'', hgrown⟩ :=
      (growsAt_addImports hrest (·.scopeOf module visibility)).exists_after hm
    obtain rfl : m' = m'' := Option.some.inj (hm'.symm.trans hm'')
    rw [hgrows.scopeOf_eq] at hall
    exact ⟨m', hm', List.forall_mem_cons.2 ⟨hkept.grows hgrown, hall⟩⟩

/-- Another crate that is renamed keeps its name with the scope of the item. -/
theorem exists_kept_addItem_renamed (hmodule : module < s.modules.length) (file : FilePath)
    (attributes : List Syntax.Attribute) (visibility : Visibility) (ident newName : Ident) :
    ∃ m, (s.addItem module file attributes visibility
      (.externCrate ident (some newName))).modules[module]? = some m ∧
        ⟨newName.name, externTarget ident.name, s.scopeOf module visibility⟩ ∈ m.bindings := by
  have hmodules := modules_addExtern s ident.name (attributes.any (·.path.isWord "macro_use"))
  have hthere : (s.addExtern ident.name
      (attributes.any (·.path.isWord "macro_use"))).modules[module]? = some s.modules[module] := by
    rw [hmodules]
    exact List.getElem?_eq_getElem hmodule
  obtain ⟨m, hm, hkept⟩ := exists_kept_addImport hthere (s.scopeOf module visibility)
    (.binding newName.name (externTarget ident.name))
  refine ⟨m, ?_, hkept⟩
  rw [← hm, addItem, scopeOf, scopeOf, hmodules]
  rfl

end LoadState

/-- The visibility that an item is written with. -/
def visibilityOf? : Item → Option Visibility
  | .plain _ visibility _ | .module _ visibility _ _ => some visibility
  | .unknown => none

/-- Whatever an item that is met at a place adds to a crate, and has a scope, has this one. -/
def Place.Keeps (q : Place) (c : Crate) (scope : Scope) : Item → Prop
  | .plain attributes _ (.type kind ident line generics) =>
    { module := q.site.module
      name := ident.name
      identity := q.state.identityOf q.site.module ident.name
      kind, generics, scope
      attributes := attributesOf attributes
      location := ⟨q.site.file, line⟩ } ∈ c.decls
  | .plain _ _ (.useTree leadingColon tree) =>
    ∀ leaf ∈ Import.ofTree ⟨leadingColon, []⟩ tree, leaf.KeptIn (c.module q.site.module) scope
  | .plain _ _ (.externCrate ident (some newName)) =>
    ⟨newName.name, LoadState.externTarget ident.name, scope⟩ ∈ (c.module q.site.module).bindings
  | .plain .. => True
  | .module _ _ ident _ =>
    let m := c.module q.state.modules.length
    m.parent = some q.site.module ∧
      m.path = (c.module q.site.module).path ++ [ident.name] ∧ m.scope = scope
  | .unknown => True

section Reading

variable {sources : Sources} {name : String} {dependencies : List String} {root : FilePath}
  {q : Place} {found : Item} {c : Crate}

/-- A module that is met is added before all that is in it. -/
theorem Place.steps_collect_module {attributes : List Syntax.Attribute} {visibility : Visibility}
    {ident : Ident} {content : Option (List Item)} {next : LoadState}
    (htests : attributes.any isTestOnly = false)
    (h : q.collect sources (.module attributes visibility ident content) = .ok next) :
    ((q.state.addName q.site.module ident.name).addModule (q.declared visibility ident)).Steps
      next := by
  cases content with
  | some inner =>
    rw [collect_module_inside htests] at h
    exact steps_collectAll (valid_inside ..) h
  | none =>
    rw [collect_module_file htests] at h
    split at h
    · exact LoadState.steps_loadFile h
    · cases h

theorem Place.keeps_plain {attributes : List Syntax.Attribute} {visibility : Visibility}
    {s : LoadState} (hvalid : q.Valid) (kind : ItemKind)
    (hsteps : (q.state.addItem q.site.module q.site.file attributes visibility kind).Steps s) :
    q.Keeps s.finish (q.state.scopeOf q.site.module visibility)
      (.plain attributes visibility kind) := by
  cases kind with
  | type kind ident line generics =>
    exact hsteps.decls_subset (List.mem_append_right _ (List.mem_singleton_self _))
  | useTree leadingColon tree =>
    have hspelled : ∀ leaf ∈ Import.ofTree ⟨leadingColon, []⟩ tree, leaf.Spelled :=
      Import.spelled_ofTree (by simp) tree
    obtain ⟨m, hm, hkept⟩ := LoadState.exists_kept_addImports hspelled hvalid visibility
    obtain ⟨m', hm', hgrows⟩ := hsteps.exists_after hm
    rw [Keeps, module_of_getElem? hm']
    exact fun leaf hleaf => (hkept leaf hleaf).grows hgrows
  | externCrate ident newName =>
    cases newName with
    | none => trivial
    | some newName =>
      obtain ⟨m, hm, hkept⟩ := LoadState.exists_kept_addItem_renamed hvalid q.site.file attributes
        visibility ident newName
      obtain ⟨m', hm', hgrows⟩ := hsteps.exists_after hm
      rw [Keeps, module_of_getElem? hm']
      exact hgrows.bindings hkept
  | _ => trivial

theorem Place.keeps_module {attributes : List Syntax.Attribute} {visibility : Visibility}
    {ident : Ident} {content : Option (List Item)} {s : LoadState}
    (hpath : s.modulePath q.site.module = q.state.modulePath q.site.module)
    (hsteps : ((q.state.addName q.site.module ident.name).addModule
      (q.declared visibility ident)).Steps s) :
    q.Keeps s.finish (q.state.scopeOf q.site.module visibility)
      (.module attributes visibility ident content) := by
  have hlast : ((q.state.addName q.site.module ident.name).addModule
      (q.declared visibility ident)).modules[q.state.modules.length]? =
        some (q.declared visibility ident) := by
    have hlength := (LoadState.growsAt_addName q.state q.site.module ident.name).length_eq
    simp [LoadState.addModule, hlength]
  obtain ⟨m, hm, hgrows⟩ := LoadState.Steps.exists_after hsteps hlast
  rw [Keeps, module_of_getElem? hm, path_finish, hpath]
  exact ⟨hgrows.parent, hgrows.path, hgrows.scope⟩

/-- What an item adds stays in the crate, with the scope that is read where it is met. -/
theorem Reaches.keeps (h : Reaches sources name dependencies root q found)
    (hload : load sources name dependencies root = .ok c) (htests : isForTests found = false)
    {visibility : Visibility} (hvisibility : visibilityOf? found = some visibility) :
    q.Keeps c (q.state.scopeOf q.site.module visibility) found := by
  obtain ⟨next, s, hnext, hsteps, rfl⟩ := h.exists_next hload
  cases found with
  | plain attributes visibility kind =>
    obtain rfl := Option.some.inj hvisibility
    rw [Place.collect_plain htests] at hnext
    obtain rfl := Except.ok.inj hnext
    exact Place.keeps_plain h.valid kind hsteps
  | module attributes visibility ident content =>
    obtain rfl := Option.some.inj hvisibility
    have hall : q.state.Steps s := (Place.steps_collect h.valid hnext).trans hsteps
    exact Place.keeps_module (hall.modulePath_eq h.valid)
      ((Place.steps_collect_module htests hnext).trans hsteps)
  | unknown => cases hvisibility

theorem visibleFromRoot_ofModule (module : Nat) :
    (Scope.ofModule module).visibleFromRoot = true ↔ module = 0 := by
  unfold Scope.ofModule
  split
  next hroot => simpa [Scope.visibleFromRoot] using hroot
  next hroot => simpa [Scope.visibleFromRoot] using hroot

theorem scopeOf_of_restrictsTo (h : Reaches sources name dependencies root q found)
    (hload : load sources name dependencies root = .ok c) {path : Syntax.Path} {named : Nat}
    (hrestricts : RestrictsTo c.modules q.site.module (ItemPath.ofSyntax path).segments named)
    (hnamed : Encloses c.modules named q.site.module) :
    q.state.scopeOf q.site.module (.restricted path) = Scope.ofModule named := by
  have htree := moduleTree_of_load hload
  have hroot := exists_root_of_load hload
  have hnames := nameable_of_load hload
  obtain ⟨next, s, hnext, hsteps, rfl⟩ := h.exists_next hload
  have hvalid : q.site.module < q.state.modules.length := h.valid
  have hall : q.state.Steps s := (Place.steps_collect hvalid hnext).trans hsteps
  have hgrows : ∀ (index : Nat) (m : Module), q.state.modules[index]? = some m →
      ∃ m', s.modules[index]? = some m' ∧ m.Grows m' := fun _ _ hm =>
    LoadState.Steps.exists_after hall hm
  have hnamedLt : named < q.state.modules.length :=
    Nat.lt_of_le_of_lt (le_of_encloses htree hroot hnamed) hvalid
  -- what there is of the crate by now is a tree too, and holds all modules on the way
  have hnamesNow : ∀ m ∈ q.state.modules, ∀ name, m.declares name = true → Nameable name := by
    intro m hm declared hdeclares
    obtain ⟨index, hindex⟩ := List.mem_iff_getElem?.1 hm
    obtain ⟨m', hm', hgrown⟩ := hgrows index m hindex
    exact hnames m' (List.mem_of_getElem? hm') declared
      (List.contains_iff_mem.1 (hgrown.declares _ hdeclares))
  have hrestricted := RestrictsTo.restricted?_eq ((ModuleTree.singleton .crate).steps h.steps)
    (h.steps.exists_root ⟨_, rfl, rfl, rfl⟩) hnamesNow
    (hrestricts.earlier htree hroot hgrows hvalid hnamedLt)
    (encloses_earlier htree hroot hgrows hnamed hvalid) hvalid
  rw [LoadState.scopeOf, Scope.ofVisibility, hrestricted]

/-- A restricted visibility that denotes the module it stands in or one around it has this module as
    its scope, and what it stands on is visible from the root where this is the root. Every scope of
    a crate, whatever it was written as, is the whole crate, the module that it is kept for or one
    around that, and so neither one inside of it nor one beside it. -/
theorem scopes_of_load (hload : load sources name dependencies root = .ok c) :
    (∀ q found path named, Reaches sources name dependencies root q found →
      isForTests found = false → visibilityOf? found = some (.restricted path) →
      RestrictsTo c.modules q.site.module (ItemPath.ofSyntax path).segments named →
      Encloses c.modules named q.site.module →
        q.Keeps c (Scope.ofModule named) found ∧
          ((Scope.ofModule named).visibleFromRoot = true ↔ named = 0)) ∧
    ScopesAround c.modules c.decls ∧
    ∀ outer inner, Encloses c.modules outer inner → outer ≠ inner →
      ¬ Encloses c.modules inner outer ∧
        Scope.parent? c.modules outer ≠ Scope.parent? c.modules inner := by
  have htree := moduleTree_of_load hload
  have hroot := exists_root_of_load hload
  refine ⟨?_, scopesAround_of_load hload, fun outer inner hencloses hne =>
    ⟨fun hback => ?_, fun hsame => ?_⟩⟩
  · intro q found path named hreaches htests hvisibility hrestricts hnamed
    have hkeeps := hreaches.keeps hload htests hvisibility
    rw [scopeOf_of_restrictsTo hreaches hload hrestricts hnamed] at hkeeps
    exact ⟨hkeeps, visibleFromRoot_ofModule named⟩
  · have hle := le_of_encloses htree hroot hencloses
    exact hne (Nat.le_antisymm hle (le_of_encloses htree hroot hback))
  · obtain heq | ⟨parent, hparent, haround⟩ := ReflTransGen.cases_head hencloses
    · exact hne heq.symm
    · have hle := le_of_encloses htree hroot haround
      have hlt := (exists_of_parent? htree hroot (hsame.trans hparent)).1
      omega

/-- Whether the items are a module in another one, with an item that is visible in the outer one. -/
def isNestedSuper : List Item → Bool
  | [.module outer _ _
      (some [.module inner _ _ (some [.plain attributes (.restricted path) _])])] =>
    !outer.any isTestOnly && !inner.any isTestOnly && !attributes.any isTestOnly &&
      (ItemPath.ofSyntax path).segments = ["super"]
  | _ => false

theorem scopes_of_load_nested :
    let sources := Sources.ofTexts
      [(⟨"lib.rs"⟩, "mod a \x7b mod b \x7b pub(super) struct S; \x7d \x7d")]
    ∃ c, load sources "app" [] ⟨"lib.rs"⟩ = .ok c ∧
      ∃ q attributes path kind, Reaches sources "app" [] ⟨"lib.rs"⟩ q
          (.plain attributes (.restricted path) kind) ∧
        RestrictsTo c.modules q.site.module (ItemPath.ofSyntax path).segments 1 ∧
        Encloses c.modules 1 q.site.module ∧
        q.Keeps c (.within 1) (.plain attributes (.restricted path) kind) := by
  intro sources
  refine exists_loaded_of_any (fun c => Scope.parent? c.modules 2 = some 1) (by decide +kernel)
    fun c hload htest => ?_
  have hparent : Scope.parent? c.modules 2 = some 1 := of_decide_eq_true htest
  have hitems : (itemsOf sources ⟨"lib.rs"⟩).toOption.any isNestedSuper = true := by
    decide +kernel
  cases hread : itemsOf sources ⟨"lib.rs"⟩ with
  | error error => rw [hread] at hitems; cases hitems
  | ok items =>
    rw [hread] at hitems
    change isNestedSuper items = true at hitems
    unfold isNestedSuper at hitems
    split at hitems
    next outer visibility a inner visibility' b attributes path kind =>
      simp only [Bool.and_eq_true, Bool.not_eq_true', decide_eq_true_eq] at hitems
      obtain ⟨⟨⟨houter, hinner⟩, htests⟩, hpath⟩ := hitems
      let q := ((Place.start "app" [] ⟨"lib.rs"⟩ 3).inside visibility a).inside visibility' b
      have hreaches : Reaches sources "app" [] ⟨"lib.rs"⟩ q
          (.plain attributes (.restricted path) kind) :=
        ⟨3, _, rfl, hread, .inside houter (.inside hinner (.here q _ []))⟩
      have hmodule : q.site.module = 2 := rfl
      have hrestricts : RestrictsTo c.modules q.site.module (ItemPath.ofSyntax path).segments 1 := by
        rw [hmodule, hpath]
        exact .super hparent (.names (.here 1))
      have hnamed : Encloses c.modules 1 q.site.module := by
        rw [hmodule]
        exact .single hparent
      exact ⟨q, attributes, path, kind, hreaches, hrestricts, hnamed,
        ((scopes_of_load hload).1 q _ path 1 hreaches htests rfl hrestricts hnamed).1⟩
    next => cases hitems

end Reading

end JobRoster.Crate
