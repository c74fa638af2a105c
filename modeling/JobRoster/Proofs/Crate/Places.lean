import JobRoster.Proofs.Crate.Reading

/-!
# Where items are met

Loading goes through the items of the root's file, and from a module into its items, in place or in
a file of their own. A place is where this has come to. Loading ends with what becomes of the items
that are met: it fails as one of them does, and a crate that is loaded has what each of them adds.
-/

namespace JobRoster.Crate

open Files Syntax

/-- Where items are read: how deep files may nest from here, the site, and what is read so far. -/
structure Place where
  depth : Nat
  site : ItemSite
  state : LoadState

namespace Place

/-- What becomes of an item that is met here. -/
def collect (sources : Sources) (p : Place) (item : Item) : Except LoadError LoadState :=
  collectItem sources (loadFile sources p.depth) p.site p.state item

/-- What becomes of the items from here on. -/
def collectAll (sources : Sources) (p : Place) (items : List Item) : Except LoadError LoadState :=
  collectItems sources (loadFile sources p.depth) p.site p.state items

/-- The same site when more is read. -/
def after (p : Place) (next : LoadState) : Place :=
  { p with state := next }

/-- The module that is declared here. -/
def declared (p : Place) (visibility : Visibility) (ident : Ident) : Module :=
  .new (p.state.modulePath p.site.module ++ [ident.name]) (some p.site.module)
    (p.state.scopeOf p.site.module visibility)

/-- Inside of a module whose items are written in place. -/
def inside (p : Place) (visibility : Visibility) (ident : Ident) : Place where
  depth := p.depth
  site := p.site.inside (p.state.addName p.site.module ident.name).modules.length ident.name
  state := (p.state.addName p.site.module ident.name).addModule (p.declared visibility ident)

/-- At the start of a module's file. -/
def opening (depth : Nat) (target : ModuleFile) (m : Module) (s : LoadState) : Place where
  depth
  site := .ofFile s.modules.length target.file target.ownsDirectory
  state := { s.addModule m with files := s.files ++ [target.file] }

/-- At the start of the file of a module that is declared here. -/
def inFile (p : Place) (depth : Nat) (target : ModuleFile) (visibility : Visibility)
    (ident : Ident) : Place :=
  opening depth target (p.declared visibility ident) (p.state.addName p.site.module ident.name)

/-- At the start of the root's file. -/
def start (name : String) (dependencies : List String) (root : FilePath) (depth : Nat) : Place :=
  opening depth ⟨root, true⟩ (.new [] none .crate) (.start name dependencies)

variable {sources : Sources} {p q : Place} {item found : Item} {items inner : List Item}
  {attributes : List Syntax.Attribute} {visibility : Visibility} {ident : Ident}
  {content : Option (List Item)} {target : ModuleFile} {s : LoadState} {error : LoadError}

/-! ## What becomes of items -/

theorem collectAll_cons (p : Place) (item : Item) (items : List Item) :
    p.collectAll sources (item :: items) =
      (p.collect sources item).bind fun next => (p.after next).collectAll sources items :=
  collectItems_cons _ _ _ _

theorem collect_plain (h : attributes.any isTestOnly = false) (kind : ItemKind) :
    p.collect sources (.plain attributes visibility kind) =
      .ok (p.state.addItem p.site.module p.site.file attributes visibility kind) := by
  rw [collect, collectItem, if_neg (by rw [h]; exact Bool.false_ne_true)]

theorem collect_module_inside (h : attributes.any isTestOnly = false) :
    p.collect sources (.module attributes visibility ident (some inner)) =
      (p.inside visibility ident).collectAll sources inner := by
  rw [collect, collectItem, if_neg (by rw [h]; exact Bool.false_ne_true)]
  rfl

theorem collect_module_file (h : attributes.any isTestOnly = false) :
    p.collect sources (.module attributes visibility ident none) =
      match moduleFile? sources p.site ident.name attributes with
      | some target => loadFile sources p.depth target (p.declared visibility ident)
        (p.state.addName p.site.module ident.name)
      | none => .error (.moduleNotFound ident.name p.site.file) := by
  rw [collect, collectItem, if_neg (by rw [h]; exact Bool.false_ne_true)]
  rfl

theorem loadFile_opening (depth : Nat) (target : ModuleFile) (m : Module) (s : LoadState) :
    loadFile sources (depth + 1) target m s =
      (itemsOf sources target.file).bind ((opening depth target m s).collectAll sources) :=
  loadFile_succ sources depth target m s

/-! ## Items that are met -/

/-- From the items at a place, loading comes to an item at another one. -/
inductive Meets (sources : Sources) : Place → List Item → Place → Item → Prop
  | here (p : Place) (item : Item) (items : List Item) : Meets sources p (item :: items) p item
  /-- The first item is read. -/
  | later {p q : Place} {item found : Item} {items : List Item} {next : LoadState}
      (h : p.collect sources item = .ok next)
      (rest : Meets sources (p.after next) items q found) :
      Meets sources p (item :: items) q found
  /-- The first item is a module, and the item is in it. -/
  | inside {p q : Place} {found : Item} {items inner : List Item}
      {attributes : List Syntax.Attribute} {visibility : Visibility} {ident : Ident}
      (h : attributes.any isTestOnly = false)
      (within : Meets sources (p.inside visibility ident) inner q found) :
      Meets sources p (.module attributes visibility ident (some inner) :: items) q found
  /-- The first item is a module, and the item is in its file. -/
  | file {p q : Place} {found : Item} {items inner : List Item}
      {attributes : List Syntax.Attribute} {visibility : Visibility} {ident : Ident} {depth : Nat}
      {target : ModuleFile} (h : attributes.any isTestOnly = false)
      (htarget : moduleFile? sources p.site ident.name attributes = some target)
      (hdepth : p.depth = depth + 1) (hinner : itemsOf sources target.file = .ok inner)
      (within : Meets sources (p.inFile depth target visibility ident) inner q found) :
      Meets sources p (.module attributes visibility ident none :: items) q found

theorem collect_module_opening {depth : Nat} (h : attributes.any isTestOnly = false)
    (htarget : moduleFile? sources p.site ident.name attributes = some target)
    (hdepth : p.depth = depth + 1) (hinner : itemsOf sources target.file = .ok inner) :
    p.collect sources (.module attributes visibility ident none) =
      (p.inFile depth target visibility ident).collectAll sources inner := by
  rw [collect_module_file h, htarget, hdepth]
  change loadFile sources (depth + 1) target _ _ = _
  rw [loadFile_opening, hinner]
  rfl

/-- Loading fails where an item that is met does. -/
theorem Meets.eq_error (h : Meets sources p items q found)
    (hfound : q.collect sources found = .error error) :
    p.collectAll sources items = .error error := by
  induction h with
  | here p item items => rw [collectAll_cons, hfound]; rfl
  | later hnext _ ih =>
    rw [collectAll_cons, hnext]
    exact ih hfound
  | inside htests _ ih =>
    rw [collectAll_cons, collect_module_inside htests, ih hfound]
    rfl
  | file htests htarget hdepth hinner _ ih =>
    rw [collectAll_cons, collect_module_opening htests htarget hdepth hinner, ih hfound]
    rfl

/-- The module that items are added to is there. -/
def Valid (p : Place) : Prop :=
  p.site.module < p.state.modules.length

theorem valid_inside (p : Place) (visibility : Visibility) (ident : Ident) :
    (p.inside visibility ident).Valid := by
  simp [Valid, inside, ItemSite.inside, LoadState.addModule]

theorem valid_opening (depth : Nat) (target : ModuleFile) (m : Module) (s : LoadState) :
    (opening depth target m s).Valid := by
  simp [Valid, opening, ItemSite.ofFile, LoadState.addModule]

theorem valid_inFile (p : Place) (depth : Nat) (target : ModuleFile) (visibility : Visibility)
    (ident : Ident) : (p.inFile depth target visibility ident).Valid :=
  valid_opening ..

theorem steps_collect {next : LoadState} (hp : p.Valid) (h : p.collect sources item = .ok next) :
    p.state.Steps next :=
  LoadState.steps_collectItem (fun _ _ _ _ => LoadState.steps_loadFile) hp item h

theorem steps_collectAll (hp : p.Valid) (h : p.collectAll sources items = .ok s) :
    p.state.Steps s :=
  LoadState.steps_collectItems (fun _ _ _ _ => LoadState.steps_loadFile) hp items h

theorem valid_after {next : LoadState} (hp : p.Valid) (h : p.collect sources item = .ok next) :
    (p.after next).Valid :=
  Nat.lt_of_lt_of_le hp (steps_collect hp h).length_le

/-- What holds of a place and the items at it, and is kept on the way, holds wherever an item is
    met. -/
theorem Meets.keeps {P : Place → List Item → Prop} (h : Meets sources p items q found)
    (hp : p.Valid) (hstart : P p items)
    (hlater : ∀ {p item items next}, p.Valid → P p (item :: items) →
      p.collect sources item = .ok next → P (p.after next) items)
    (hinside : ∀ {p attributes visibility ident inner items}, p.Valid →
      P p (.module attributes visibility ident (some inner) :: items) →
      attributes.any isTestOnly = false → P (p.inside visibility ident) inner)
    (hfile : ∀ {p attributes visibility ident items depth target inner}, p.Valid →
      P p (.module attributes visibility ident none :: items) →
      attributes.any isTestOnly = false →
      moduleFile? sources p.site ident.name attributes = some target →
      itemsOf sources target.file = .ok inner →
      P (p.inFile depth target visibility ident) inner) :
    q.Valid ∧ ∃ rest, P q (found :: rest) := by
  induction h with
  | here p item items => exact ⟨hp, items, hstart⟩
  | later hnext _ ih => exact ih (valid_after hp hnext) (hlater hp hstart hnext)
  | inside htests _ ih => exact ih (valid_inside ..) (hinside hp hstart htests)
  | file htests htarget hdepth hinner _ ih =>
    exact ih (valid_opening ..) (hfile hp hstart htests htarget hinner)

/-- Whatever is read on the way to an item has been added. -/
theorem Meets.steps (h : Meets sources p items q found) (hp : p.Valid) :
    p.state.Steps q.state := by
  refine ((h.keeps (P := fun r _ => p.state.Steps r.state) hp .refl ?later ?inside ?file).2).elim
    fun _ hsteps => hsteps
  case later => exact fun hr hsteps hnext => hsteps.trans (steps_collect hr hnext)
  case inside =>
    exact fun {r attributes visibility ident inner items} hr hsteps _ =>
      hsteps.tail (.module ident visibility hr)
  case file =>
    exact fun {r attributes visibility ident items depth target inner} hr hsteps _ _ _ =>
      (hsteps.tail (.module ident visibility hr)).tail (.file target.file)

theorem exists_collect_of_collectAll (hp : p.Valid)
    (h : p.collectAll sources (item :: items) = .ok s) :
    ∃ next, p.collect sources item = .ok next ∧ next.Steps s := by
  rw [collectAll_cons] at h
  cases hitem : p.collect sources item with
  | error error => rw [hitem] at h; cases h
  | ok next =>
    rw [hitem] at h
    exact ⟨next, rfl, steps_collectAll (p := p.after next) (valid_after hp hitem) h⟩

/-- Where loading does not fail, all that is met is read, and nothing of it is lost. -/
theorem Meets.exists_next (h : Meets sources p items q found) (hp : p.Valid)
    (hall : p.collectAll sources items = .ok s) :
    ∃ next, q.collect sources found = .ok next ∧ next.Steps s := by
  induction h generalizing s with
  | here p item items => exact exists_collect_of_collectAll hp hall
  | later hnext _ ih =>
    rw [collectAll_cons, hnext] at hall
    exact ih (valid_after hp hnext) hall
  | inside htests _ ih =>
    obtain ⟨t, ht, hrest⟩ := exists_collect_of_collectAll hp hall
    rw [collect_module_inside htests] at ht
    obtain ⟨next, hnext, hsteps⟩ := ih (valid_inside ..) ht
    exact ⟨next, hnext, hsteps.trans hrest⟩
  | file htests htarget hdepth hinner _ ih =>
    obtain ⟨t, ht, hrest⟩ := exists_collect_of_collectAll hp hall
    rw [collect_module_opening htests htarget hdepth hinner] at ht
    obtain ⟨next, hnext, hsteps⟩ := ih (valid_opening ..) ht
    exact ⟨next, hnext, hsteps.trans hrest⟩

/-! ## Where loading fails -/

/-- Why an item cannot be read here. Only a module in a file of its own can fail by itself. -/
inductive Stops (sources : Sources) (p : Place) : Item → LoadError → Prop
  | missing {attributes : List Syntax.Attribute} {visibility : Visibility} {ident : Ident}
      (h : attributes.any isTestOnly = false)
      (htarget : moduleFile? sources p.site ident.name attributes = none) :
      Stops sources p (.module attributes visibility ident none)
        (.moduleNotFound ident.name p.site.file)
  | endless {attributes : List Syntax.Attribute} {visibility : Visibility} {ident : Ident}
      {target : ModuleFile} (h : attributes.any isTestOnly = false)
      (htarget : moduleFile? sources p.site ident.name attributes = some target)
      (hdepth : p.depth = 0) :
      Stops sources p (.module attributes visibility ident none) (.endless target.file)
  | unreadable {attributes : List Syntax.Attribute} {visibility : Visibility} {ident : Ident}
      {target : ModuleFile} {error : LoadError} (h : attributes.any isTestOnly = false)
      (htarget : moduleFile? sources p.site ident.name attributes = some target)
      (hdepth : p.depth ≠ 0) (hinner : itemsOf sources target.file = .error error) :
      Stops sources p (.module attributes visibility ident none) error

section

variable {depth : Nat}

/-- Whatever makes the items of files fail that nest less deep, is something that is met. -/
def FailsInside (sources : Sources) (depth : Nat) : Prop :=
  ∀ lower, depth = lower + 1 → ∀ target m s items error,
    (opening lower target m s).collectAll sources items = .error error →
      ∃ q found, Meets sources (opening lower target m s) items q found ∧
        Stops sources q found error

mutual

theorem exists_stop_of_collect (hfiles : FailsInside sources depth) {p : Place}
    (hdepth : p.depth = depth) : ∀ item, p.collect sources item = .error error →
      ∃ q found, (∀ items, Meets sources p (item :: items) q found) ∧ Stops sources q found error
  | .plain attributes visibility kind, h => by
    rw [collect, collectItem] at h
    split at h <;> cases h
  | .module attributes visibility ident (some inner), h => by
    cases htests : attributes.any isTestOnly with
    | true =>
      rw [collect, collectItem, if_pos htests] at h
      cases h
    | false =>
      rw [collect_module_inside htests] at h
      obtain ⟨q, found, hmeets, hstops⟩ :=
        exists_stop_of_collectAll (p := p.inside visibility ident) hfiles hdepth inner h
      exact ⟨q, found, fun items => .inside htests hmeets, hstops⟩
  | .module attributes visibility ident none, h => by
    cases htests : attributes.any isTestOnly with
    | true =>
      rw [collect, collectItem, if_pos htests] at h
      cases h
    | false =>
      rw [collect_module_file htests] at h
      cases htarget : moduleFile? sources p.site ident.name attributes with
      | none =>
        rw [htarget] at h
        obtain rfl := Except.error.inj h
        exact ⟨p, _, fun items => .here p _ items, .missing htests htarget⟩
      | some target =>
        rw [htarget, hdepth] at h
        cases depth with
        | zero =>
          obtain rfl := Except.error.inj h
          exact ⟨p, _, fun items => .here p _ items, .endless htests htarget hdepth⟩
        | succ lower =>
          dsimp only at h
          rw [loadFile_opening] at h
          cases hinner : itemsOf sources target.file with
          | error error =>
            rw [hinner] at h
            obtain rfl := Except.error.inj h
            exact ⟨p, _, fun items => .here p _ items,
              .unreadable htests htarget (by simp [hdepth]) hinner⟩
          | ok inner =>
            rw [hinner] at h
            obtain ⟨q, found, hmeets, hstops⟩ := hfiles lower rfl target _ _ inner _ h
            exact ⟨q, found, fun items => .file htests htarget hdepth hinner hmeets, hstops⟩
  | .unknown, h => by
    rw [collect, collectItem] at h
    cases h

theorem exists_stop_of_collectAll (hfiles : FailsInside sources depth) {p : Place}
    (hdepth : p.depth = depth) : ∀ items, p.collectAll sources items = .error error →
      ∃ q found, Meets sources p items q found ∧ Stops sources q found error
  | [], h => by
    rw [collectAll, collectItems] at h
    cases h
  | item :: items, h => by
    rw [collectAll_cons] at h
    cases hitem : p.collect sources item with
    | error first =>
      rw [hitem] at h
      have hfirst : p.collect sources item = .error error := hitem.trans h
      obtain ⟨q, found, hmeets, hstops⟩ := exists_stop_of_collect hfiles hdepth item hfirst
      exact ⟨q, found, hmeets items, hstops⟩
    | ok next =>
      rw [hitem] at h
      obtain ⟨q, found, hmeets, hstops⟩ :=
        exists_stop_of_collectAll (p := p.after next) hfiles hdepth items h
      exact ⟨q, found, .later hitem hmeets, hstops⟩

end

theorem failsInside (sources : Sources) (depth : Nat) : FailsInside sources depth := by
  induction depth with
  | zero => exact nofun
  | succ depth ih =>
    rintro lower hlower target m s items error h
    obtain rfl : depth = lower := Nat.succ.inj hlower
    exact exists_stop_of_collectAll (p := opening depth target m s) ih rfl items h

end

theorem Stops.collect_eq (h : Stops sources q found error) :
    q.collect sources found = .error error := by
  cases h with
  | missing htests htarget => rw [collect_module_file htests, htarget]
  | endless htests htarget hdepth =>
    rw [collect_module_file htests, htarget, hdepth]
    rfl
  | @unreadable attributes visibility ident target _ htests htarget hdepth hinner =>
    obtain ⟨lower, hlower⟩ := Nat.exists_eq_succ_of_ne_zero hdepth
    rw [collect_module_file htests, htarget, hlower]
    change loadFile sources (lower + 1) target _ _ = _
    rw [loadFile_opening, hinner]
    rfl

/-- Items fail as one that is met does. -/
theorem collectAll_eq_error_iff :
    p.collectAll sources items = .error error ↔
      ∃ q found, Meets sources p items q found ∧ Stops sources q found error := by
  constructor
  · exact exists_stop_of_collectAll (failsInside sources p.depth) rfl items
  · rintro ⟨q, found, hmeets, hstops⟩
    exact hmeets.eq_error hstops.collect_eq

end Place

/-! ## From the root -/

/-- Loading the crate of a root file comes to an item. -/
def Reaches (sources : Sources) (name : String) (dependencies : List String) (root : FilePath)
    (q : Place) (found : Item) : Prop :=
  ∃ depth items, sources.depth = depth + 1 ∧ itemsOf sources root = .ok items ∧
    Place.Meets sources (Place.start name dependencies root depth) items q found

section

variable {sources : Sources} {name : String} {dependencies : List String} {root : FilePath}
  {q : Place} {found : Item} {error : LoadError} {c : Crate}

theorem load_eq_collectAll {depth : Nat} {items : List Item} (hdepth : sources.depth = depth + 1)
    (hitems : itemsOf sources root = .ok items) :
    load sources name dependencies root =
      ((Place.start name dependencies root depth).collectAll sources items).map
        LoadState.finish := by
  rw [load_eq, hdepth, Place.loadFile_opening, hitems]
  rfl

theorem Reaches.valid (h : Reaches sources name dependencies root q found) : q.Valid := by
  obtain ⟨depth, items, -, -, hmeets⟩ := h
  exact (hmeets.keeps (P := fun _ _ => True) (Place.valid_opening ..) trivial
    (fun _ _ _ => trivial) (fun _ _ _ => trivial) (fun _ _ _ _ _ => trivial)).1

theorem Reaches.steps (h : Reaches sources name dependencies root q found) :
    ((LoadState.start name dependencies).addModule (Module.new [] none .crate)).Steps q.state := by
  obtain ⟨depth, items, -, -, hmeets⟩ := h
  exact .head (.file root) (hmeets.steps (Place.valid_opening ..))

theorem Reaches.load_eq_error (h : Reaches sources name dependencies root q found)
    (hfound : q.collect sources found = .error error) :
    load sources name dependencies root = .error error := by
  obtain ⟨depth, items, hdepth, hitems, hmeets⟩ := h
  rw [load_eq_collectAll hdepth hitems, hmeets.eq_error hfound]
  rfl

/-- What is met while a crate is loaded is in the crate. -/
theorem Reaches.exists_next (h : Reaches sources name dependencies root q found)
    (hload : load sources name dependencies root = .ok c) :
    ∃ next s, q.collect sources found = .ok next ∧ next.Steps s ∧ s.finish = c := by
  obtain ⟨depth, items, hdepth, hitems, hmeets⟩ := h
  rw [load_eq_collectAll hdepth hitems] at hload
  cases hall : (Place.start name dependencies root depth).collectAll sources items with
  | error error => rw [hall] at hload; cases hload
  | ok s =>
    rw [hall] at hload
    obtain ⟨next, hnext, hsteps⟩ := hmeets.exists_next (Place.valid_opening ..) hall
    exact ⟨next, s, hnext, hsteps, Except.ok.inj hload⟩

theorem path_finish (s : LoadState) (index : Nat) :
    (s.finish.module index).path = s.modulePath index := by
  rw [Crate.module, LoadState.modulePath, List.getD_eq_getElem?_getD]
  change (s.modules[index]?.getD _).path = _
  cases s.modules[index]? <;> rfl

/-- Loading fails at once, or as an item does that it comes to. -/
theorem load_eq_error_cases {depth : Nat} (hdepth : sources.depth = depth + 1)
    (h : load sources name dependencies root = .error error) :
    itemsOf sources root = .error error ∨
      ∃ q found, Reaches sources name dependencies root q found ∧
        Place.Stops sources q found error := by
  cases hitems : itemsOf sources root with
  | error first =>
    rw [load_eq, hdepth, Place.loadFile_opening, hitems] at h
    exact .inl (congrArg Except.error (Except.error.inj h))
  | ok items =>
    rw [load_eq_collectAll hdepth hitems] at h
    have hall : (Place.start name dependencies root depth).collectAll sources items =
        .error error := by
      cases hcollect : (Place.start name dependencies root depth).collectAll sources items with
      | ok s => rw [hcollect] at h; cases h
      | error first =>
        rw [hcollect] at h
        exact congrArg Except.error (Except.error.inj h)
    obtain ⟨q, found, hmeets, hstops⟩ := Place.collectAll_eq_error_iff.1 hall
    exact .inr ⟨q, found, ⟨depth, items, hdepth, hitems, hmeets⟩, hstops⟩

end

end JobRoster.Crate
