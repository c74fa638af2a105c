import JobRoster.Package.Basic
import JobRoster.Proofs.Crate.Interning
import JobRoster.Proofs.Crate.Reference
import JobRoster.Proofs.Job.Extraction
import JobRoster.Proofs.Pass.Uncancelled

/-!
# Type paths of different jobs

Every declaration is looked for by itself. That two of them do not end up with one path follows from
what a module offers under one name: its own declarations come before what its bindings name, and
both before what its globs bring in. Globs among themselves know no such order.
-/

namespace JobRoster.Crate

open Files Text

variable {c : Crate}

/-- Modules of one path are one module, as far as the root reaches them. -/
def ModulesApart (c : Crate) : Prop :=
  ∀ first < c.modules.length, ∀ second < c.modules.length,
    isReachable c first = true → isReachable c second = true →
      (c.module first).path = (c.module second).path → first = second

/-- No binding that the root can see is called like a type that is declared beside it. -/
def BindingsApart (c : Crate) : Prop :=
  ∀ decl ∈ c.decls, isReachable c decl.module = true →
    ∀ binding ∈ (c.module decl.module).bindings, binding.scope.visibleFromRoot = true →
      binding.name ≠ decl.name

/-- No two globs of a module that the root reaches bring in types of one name. -/
def GlobsApart (c : Crate) : Prop :=
  ∀ module < c.modules.length, isReachable c module = true →
    ∀ first ∈ c.decls, ∀ second ∈ c.decls, first.name = second.name →
      isGlobExported c first module = true → isGlobExported c second module = true →
        first.identity = second.identity

instance (c : Crate) : Decidable c.ModulesApart :=
  inferInstanceAs (Decidable (∀ first < c.modules.length, ∀ second < c.modules.length,
    isReachable c first = true → isReachable c second = true →
      (c.module first).path = (c.module second).path → first = second))

instance (c : Crate) : Decidable c.BindingsApart :=
  inferInstanceAs (Decidable (∀ decl ∈ c.decls, isReachable c decl.module = true →
    ∀ binding ∈ (c.module decl.module).bindings, binding.scope.visibleFromRoot = true →
      binding.name ≠ decl.name))

instance (c : Crate) : Decidable c.GlobsApart :=
  inferInstanceAs (Decidable (∀ module < c.modules.length, isReachable c module = true →
    ∀ first ∈ c.decls, ∀ second ∈ c.decls, first.name = second.name →
      isGlobExported c first module = true → isGlobExported c second module = true →
        first.identity = second.identity))

/-- No name in a module that the root reaches stands for two types. -/
structure NamesOnce (c : Crate) : Prop where
  modules : c.ModulesApart
  bindings : c.BindingsApart
  globs : c.GlobsApart

instance (c : Crate) : Decidable c.NamesOnce :=
  decidable_of_iff (c.ModulesApart ∧ c.BindingsApart ∧ c.GlobsApart)
    ⟨fun ⟨hmodules, hbindings, hglobs⟩ => ⟨hmodules, hbindings, hglobs⟩,
      fun ⟨hmodules, hbindings, hglobs⟩ => ⟨hmodules, hbindings, hglobs⟩⟩

/-! ## One name in one module -/

/-- A declaration that its module offers under its own name is the only one of that name. -/
theorem OffersDirectly.eq_of_declared (hnames : c.NamesOnce) {decl other : Decl}
    (hdecl : decl ∈ c.decls) (hplaced : decl.Placed c.name c.modules)
    (hother : other.Placed c.name c.modules) (hreachable : isReachable c decl.module = true)
    (h : OffersDirectly c other decl.module decl.name) : decl.identity = other.identity := by
  generalize hmodule : decl.module = module at h
  generalize hname : decl.name = name at h
  cases h with
  | declared => rw [hplaced.identity_eq, hother.identity_eq, hmodule, hname]
  | bound h =>
    obtain ⟨binding, hmem, hvisible, hcalled, -⟩ := mem_boundNames_iff.1 h
    exact absurd (hcalled.trans hname.symm)
      (hnames.bindings decl hdecl hreachable binding (hmodule ▸ hmem) hvisible)
  | globbed h =>
    have hdeclares := hplaced.declares
    rw [hmodule, hname, (isGlobExported_iff.1 h).1] at hdeclares
    cases hdeclares

theorem binds_of_mem_boundNames {decl : Decl} {module : Nat} {name : String}
    (h : name ∈ boundNames c decl module) : (c.module module).binds name = true := by
  obtain ⟨binding, hmem, -, hname, -⟩ := mem_boundNames_iff.1 h
  exact List.any_eq_true.2 ⟨binding, hmem, decide_eq_true hname⟩

/-- A module that the root reaches offers one type at most under a name. -/
theorem OffersDirectly.eq_of_name (hnames : c.NamesOnce) {first second : Decl}
    (hfirst : first ∈ c.decls) (hsecond : second ∈ c.decls)
    (hplaced : ∀ decl ∈ c.decls, decl.Placed c.name c.modules) {module : Nat}
    (hlt : module < c.modules.length) (hreachable : isReachable c module = true) {name : String}
    (h : OffersDirectly c first module name) (h' : OffersDirectly c second module name) :
    first.identity = second.identity := by
  cases h with
  | declared =>
    exact eq_of_declared hnames hfirst (hplaced first hfirst) (hplaced second hsecond) hreachable h'
  | bound h =>
    cases h' with
    | declared =>
      exact (eq_of_declared hnames hsecond (hplaced second hsecond) (hplaced first hfirst)
        hreachable (.bound h)).symm
    | bound h' =>
      -- the name denotes one thing in the module
      obtain ⟨-, -, -, -, hdenotes⟩ := mem_boundNames_iff.1 h
      obtain ⟨-, -, -, -, hdenotes'⟩ := mem_boundNames_iff.1 h'
      exact Option.some.inj (hdenotes.symm.trans hdenotes')
    | globbed h' =>
      have hbinds := binds_of_mem_boundNames h
      rw [(isGlobExported_iff.1 h').2.1] at hbinds
      cases hbinds
  | globbed h =>
    generalize hname : first.name = name at h'
    cases h' with
    | declared =>
      exact (eq_of_declared hnames hsecond (hplaced second hsecond) (hplaced first hfirst)
        hreachable (hname ▸ .globbed h)).symm
    | bound h' =>
      have hbinds := binds_of_mem_boundNames h'
      rw [← hname, (isGlobExported_iff.1 h).2.1] at hbinds
      cases hbinds
    | globbed h' => exact hnames.globs module hlt hreachable first hfirst second hsecond hname h h'

/-! ## Type paths -/

theorem identity_eq_of_referencePath? (htree : ModuleTree c.modules) (hnames : c.NamesOnce)
    (hplaced : ∀ decl ∈ c.decls, decl.Placed c.name c.modules) {first second : Decl}
    (hfirst : first ∈ c.decls) (hsecond : second ∈ c.decls) {path : String}
    (h : referencePath? c first = some path) (h' : referencePath? c second = some path) :
    first.identity = second.identity := by
  obtain ⟨module, name, hlt, hreachable, hoffers, hpath⟩ :=
    offersDirectly_of_referencePath? (hplaced first hfirst) h
  obtain ⟨module', name', hlt', hreachable', hoffers', hpath'⟩ :=
    offersDirectly_of_referencePath? (hplaced second hsecond) h'
  have hident : ∀ segment ∈ (c.module module).path ++ [name], IsIdentifier segment :=
    List.forall_mem_append.2 ⟨(spelled_module htree module).path,
      List.forall_mem_singleton.2 (hoffers.isIdentifier htree (hplaced first hfirst))⟩
  have hident' : ∀ segment ∈ (c.module module').path ++ [name'], IsIdentifier segment :=
    List.forall_mem_append.2 ⟨(spelled_module htree module').path,
      List.forall_mem_singleton.2 (hoffers'.isIdentifier htree (hplaced second hsecond))⟩
  have hcanonical : c.canonicalIn ((c.module module).path ++ [name]) [] =
      c.canonicalIn ((c.module module').path ++ [name']) [] := by
    simpa only [canonicalIn_eq_extend, List.append_nil] using hpath.symm.trans hpath'
  -- one path, hence one module and one name in it
  obtain ⟨hmodules, hnamed⟩ := List.append_inj' (canonicalIn_injective hident hident' hcanonical) rfl
  obtain rfl : name = name' := List.singleton_inj.1 hnamed
  obtain rfl : module = module' := hnames.modules _ hlt _ hlt' hreachable hreachable' hmodules
  exact hoffers.eq_of_name hnames hfirst hsecond hplaced hlt hreachable hoffers'

/-- Types that the root can name have different paths, if no name in a module that it reaches stands
    for two types, and so have the jobs of a pass that are of different declarations. -/
theorem referencePath?_injective {sources : Sources} {name : String} {dependencies : List String}
    {root : FilePath} (hload : load sources name dependencies root = .ok c)
    (hnames : c.NamesOnce) :
    (∀ first ∈ c.decls, ∀ second ∈ c.decls, first.identity ≠ second.identity →
      ∀ path path', referencePath? c first = some path → referencePath? c second = some path' →
        path ≠ path') ∧
    ∀ (settings : Settings) (marker : Option Symbol) (cancel : Cancellation) (jobs : List Job),
      (runPass settings c.host marker cancel).result = .ok jobs →
        (jobs.map (·.identity)).Nodup → (jobs.map (·.typePath)).Nodup := by
  have htree : ModuleTree c.modules := moduleTree_of_load hload
  have hplaced : ∀ decl ∈ c.decls, decl.Placed c.name c.modules := placed_decls_of_load hload
  refine ⟨?_, ?_⟩
  · rintro first hfirst second hsecond hne path _ h h' rfl
    exact hne (identity_eq_of_referencePath? htree hnames hplaced hfirst hsecond h h')
  · intro settings marker cancel jobs hjobs hnodup
    have hnamed : ∀ job ∈ jobs, ∃ decl ∈ c.decls,
        job.identity = decl.identity ∧ referencePath? c decl = some job.typePath := by
      intro job hjob
      obtain ⟨resolved, hmem, hextract⟩ := exists_extract_of_runPass hjobs job hjob
      rw [host_decls] at hmem
      obtain ⟨decl, hdecl, rfl⟩ := List.mem_map.1 hmem
      exact ⟨decl, hdecl, typePath_of_extract hextract⟩
    rw [List.Nodup, List.pairwise_map] at hnodup ⊢
    refine hnodup.imp_of_mem fun {job other} hjob hother hne htype => hne ?_
    obtain ⟨decl, hdecl, hidentity, hpath⟩ := hnamed job hjob
    obtain ⟨decl', hdecl', hidentity', hpath'⟩ := hnamed other hother
    rw [hidentity, hidentity']
    exact identity_eq_of_referencePath? htree hnames hplaced hdecl hdecl' hpath (htype ▸ hpath')

/-- What the candidates of a crate are extracted to. -/
def found (c : Crate) (settings : Settings) : List Extracted :=
  resultsOf settings c.host (c.host.symbolNamed? settings.marker)

/-- A pass that is not cancelled reports the jobs that were found, in order. -/
theorem exists_runPass_never {c : Crate} {settings : Settings}
    (hsound : Extracted.diagnostics (c.found settings) = [])
    (hids : ((Extracted.jobs (c.found settings)).map Job.id).Nodup) :
    ∃ jobs, (runPass settings c.host (c.host.symbolNamed? settings.marker) .never).result =
      .ok jobs ∧ jobs.Perm (Extracted.jobs (c.found settings)) := by
  refine ⟨_, ?_, sortedJobs_perm _⟩
  rw [runPass_never]
  exact roster_eq_ok_iff.2 ⟨hsound, hids, rfl⟩

/-- Two types of one name, one exported by a glob and one under a name of its own. -/
theorem referencePath?_injective_renamed :
    ∃ c, load (.ofTexts [(⟨"lib.rs"⟩, "mod m;"),
        (⟨"m.rs"⟩, "mod a; mod b; pub use a::*; pub use b::N as M;"),
        (⟨"m/a.rs"⟩, "#[jobkit::recurring_job(\"* * * * *\")] pub struct N;"),
        (⟨"m/b.rs"⟩, "#[jobkit::recurring_job(\"@daily\")] pub struct N;")])
        "app" ["jobkit"] ⟨"lib.rs"⟩ = .ok c ∧
      c.NamesOnce ∧
      c.decls.map (fun decl => (decl.identity, referencePath? c decl)) =
        [("app::m::a::N", some "app::m::N"), ("app::m::b::N", some "app::m::M")] ∧
      ∃ jobs, (runPass Settings.default c.host (c.host.symbolNamed? Settings.default.marker)
          .never).result = .ok jobs ∧ jobs.length = 2 ∧ (jobs.map (·.identity)).Nodup ∧
        (jobs.map (·.typePath)).Nodup := by
  refine exists_loaded_of_any (fun c => c.NamesOnce ∧
      c.decls.map (fun decl => (decl.identity, referencePath? c decl)) =
        [("app::m::a::N", some "app::m::N"), ("app::m::b::N", some "app::m::M")] ∧
      Extracted.diagnostics (c.found Settings.default) = [] ∧
      (Extracted.jobs (c.found Settings.default)).map Job.id = ["app::m::a::N", "app::m::b::N"] ∧
      (Extracted.jobs (c.found Settings.default)).map (·.identity) =
        ["app::m::a::N", "app::m::b::N"])
    (by decide +kernel) fun c hload htest => ?_
  obtain ⟨hnames, hreferences, hsound, hids, hidentities⟩ := of_decide_eq_true htest
  obtain ⟨jobs, hjobs, hperm⟩ := exists_runPass_never hsound (hids ▸ by decide)
  have hnodup : (jobs.map (·.identity)).Nodup :=
    (hperm.map _).nodup_iff.2 (hidentities ▸ by decide)
  have hlength : jobs.length = 2 := by
    rw [hperm.length_eq, ← List.length_map (·.identity), hidentities]
    rfl
  exact ⟨hnames, hreferences, jobs, hjobs, hlength, hnodup,
    (referencePath?_injective hload hnames).2 _ _ _ jobs hjobs hnodup⟩

/-- Two globs of one module bring in types of one name, and both get the path of that name. -/
theorem referencePath?_not_injective :
    ∃ c, load (.ofTexts [(⟨"lib.rs"⟩, "mod m;"),
        (⟨"m.rs"⟩, "mod a; mod b; pub use a::*; pub use b::*;"),
        (⟨"m/a.rs"⟩, "#[jobkit::recurring_job(\"* * * * *\")] pub struct N;"),
        (⟨"m/b.rs"⟩, "#[jobkit::recurring_job(\"@daily\")] pub struct N;")])
        "app" ["jobkit"] ⟨"lib.rs"⟩ = .ok c ∧
      (∃ first ∈ c.decls, ∃ second ∈ c.decls, first.identity ≠ second.identity ∧
        referencePath? c first = some "app::m::N" ∧
          referencePath? c second = some "app::m::N") ∧
      ∃ jobs, (runPass Settings.default c.host (c.host.symbolNamed? Settings.default.marker)
          .never).result = .ok jobs ∧ (jobs.map (·.identity)).Nodup ∧
        ¬ (jobs.map (·.typePath)).Nodup := by
  refine exists_loaded_of_any (fun c =>
      (∃ first ∈ c.decls, ∃ second ∈ c.decls, first.identity ≠ second.identity ∧
        referencePath? c first = some "app::m::N" ∧
          referencePath? c second = some "app::m::N") ∧
      Extracted.diagnostics (c.found Settings.default) = [] ∧
      (Extracted.jobs (c.found Settings.default)).map Job.id = ["app::m::a::N", "app::m::b::N"] ∧
      (Extracted.jobs (c.found Settings.default)).map (·.identity) =
        ["app::m::a::N", "app::m::b::N"] ∧
      (Extracted.jobs (c.found Settings.default)).map (·.typePath) = ["app::m::N", "app::m::N"])
    (by decide +kernel) fun c hload htest => ?_
  obtain ⟨hsame, hsound, hids, hidentities, htypes⟩ := of_decide_eq_true htest
  obtain ⟨jobs, hjobs, hperm⟩ := exists_runPass_never hsound (hids ▸ by decide)
  refine ⟨hsame, jobs, hjobs, (hperm.map _).nodup_iff.2 (hidentities ▸ by decide), ?_⟩
  rw [(hperm.map _).nodup_iff, htypes]
  decide

end JobRoster.Crate
