import JobRoster.Proofs.Crate.Interning
import JobRoster.Proofs.Crate.Reference
import JobRoster.Proofs.Job.Extraction
import JobRoster.Proofs.Package.TypePaths
import JobRoster.Proofs.Settings.Valid
import JobRoster.Proofs.Unit.Whole

/-!
# What a unit is read as

For settings that pass their check and stay names where a unit puts them, the text made for the jobs
of a pass is source: it is read as the tree that the jobs stand for. The check alone does not make it
so, since it reads a setting as one path, whatever blanks and comments it has.
-/

namespace JobRoster

open Files Syntax Text

variable {settings : Settings} {moduleIdentity : String} {jobs : List Job} {registry : List Token}

/-! ## Units of valid settings -/

theorem sizeAll_lt_of_implTokens {method : Ident} {calls : List (List String)} {tokens : List Token}
    (h : ImplTokens moduleIdentity method registry calls tokens) :
    Token.sizeAll registry < Token.sizeAll tokens := by
  cases h
  simp only [Token.sizeAll_append, Token.sizeAll_mapLines, Token.sizeAll, Token.size]
  omega

/-- A text that starts with a comment has no mark and no line for a shell before it. -/
theorem parseFile_of_tokenize {text : String} {tokens : List Token} {rest : List Char}
    (hstart : text.toList = '/' :: rest) (htokens : tokenize text.toList = .ok tokens) :
    parseFile text = Parser.readAll (File.parse (Grammar.for tokens)) tokens endLine := by
  have hmark : dropByteOrderMark text.toList = text.toList := by
    have hne : some '/' ≠ some byteOrderMark := by decide
    rw [hstart]
    exact if_neg hne
  have hline : dropInterpreterLine text.toList = text.toList := by
    rw [hstart]
    rfl
  rw [parseFile, hmark, hline, readText, htokens]
  rfl

theorem parsePath_eq_ok {text : String} {path : Path} (h : parsePath text = .ok path) :
    ∃ tokens close, tokenize text.toList = .ok tokens ∧
      Path.parse (Grammar.for tokens) false ⟨tokens, endLine, none⟩ =
        .ok (path, ⟨[], close, none⟩) := by
  rw [parsePath, readText] at h
  cases htokens : tokenize text.toList with
  | error error =>
    rw [htokens] at h
    cases h
  | ok tokens =>
    rw [htokens] at h
    obtain ⟨close, hread⟩ := Parser.eq_ok_of_readAll h
    exact ⟨tokens, close, rfl, hread⟩

theorem exists_calledMethod (hvalid : settings.Valid) :
    ∃ method, parseIdent settings.calledMethod = .ok method := by
  unfold Settings.calledMethod
  split
  · exact hvalid.method
  · exact hvalid.methodWithOptions

/-- Settings that stay names where a unit puts them: none ends the comment or the type that it is put
    into, and the registry is a type where a type stands. -/
structure Settings.Spliceable (settings : Settings) : Prop extends settings.Contained where
  notTry : ∀ tokens, tokenize settings.registry.toList = .ok tokens →
    Ahead.word "try" tokens = false

theorem spliceable_default : Settings.default.Spliceable where
  jobTrait := by decide +kernel
  registryMark := by decide +kernel
  registry := by decide +kernel
  methodMark := by decide +kernel
  method := by decide +kernel
  notTry tokens htokens := by
    have htest : (tokenize Settings.default.registry.toList).toOption.all
        (fun tokens => Ahead.word "try" tokens = false) = true := by decide +kernel
    rw [htokens] at htest
    exact of_decide_eq_true htest

/-- A unit of such settings is a source file, and it holds what it should. -/
theorem exists_parseFile_render (hvalid : settings.Valid) (hspliceable : settings.Spliceable)
    (hidentity : IsIdentifier moduleIdentity)
    (hnames : ∀ job ∈ jobs, ∀ segment ∈ segmentsBelow moduleIdentity job.typePath,
      IsIdentifier segment ∧ segment ∉ Lexer.unraw) :
    ∃ target method line, parsePath settings.registry = .ok target ∧
      parseIdent settings.calledMethod = .ok method ∧
      parseFile (render settings moduleIdentity jobs).text =
        .ok (unitFile moduleIdentity target method (jobs.map settings.callArguments) line) := by
  obtain ⟨target, htarget⟩ := hvalid.registry
  obtain ⟨method, hmethod⟩ := exists_calledMethod hvalid
  obtain ⟨registry, close, hregistry, hpath⟩ := parsePath_eq_ok htarget
  obtain ⟨nameLine, hname, hreserved⟩ := tokenize_of_parseIdent hmethod
  obtain ⟨tokens, more, htrait, himpl, htokens⟩ :=
    tokenize_render hspliceable.toContained hidentity hregistry hname hnames
  obtain ⟨after, hstart⟩ := exists_slash_of_render settings moduleIdentity jobs
  have hsize : Token.sizeAll registry + 1 ≤ Token.sizeAll (tokens ++ more) := by
    have hlt := sizeAll_lt_of_implTokens himpl
    rw [Token.sizeAll_append]
    omega
  -- the unit is longer than the registry, so its rules are nested deeper than those for it alone
  obtain ⟨depth, hdepth⟩ : ∃ depth, 2 * Token.sizeAll (tokens ++ more) + 2 = depth + 4 :=
    ⟨2 * Token.sizeAll (tokens ++ more) - 2, by omega⟩
  have htype : ReadsAsType (depth + 3) registry target :=
    readsAsType_of_parsePath hpath (hspliceable.notTry registry hregistry) (by omega)
  obtain ⟨line, hfile⟩ := readAll_unit htype hreserved htrait himpl endLine
  refine ⟨target, method, line, htarget, hmethod, ?_⟩
  rw [parseFile_of_tokenize hstart htokens, Grammar.for, hdepth, hfile]

/-! ## Units of a pass -/

namespace Crate

variable {c : Crate}

/-- The segments of a reference path below the crate are identifiers. -/
theorem isIdentifier_of_referencePath? (htree : ModuleTree c.modules) (hname : IsIdentifier c.name)
    {decl : Decl} (hplaced : decl.Placed c.name c.modules) {path : String}
    (h : referencePath? c decl = some path) :
    ∀ segment ∈ segmentsBelow c.name path, IsIdentifier segment := by
  obtain ⟨module, name, -, -, hoffers, rfl⟩ := offersDirectly_of_referencePath? hplaced h
  have hbelow : ∀ segment ∈ (c.module module).path ++ [name], IsIdentifier segment := by
    intro segment hsegment
    obtain hpath | hlast := List.mem_append.1 hsegment
    · exact (spelled_module htree module).path segment hpath
    · rw [List.mem_singleton.1 hlast]
      exact hoffers.isIdentifier htree hplaced
  have hall : ∀ segment ∈ c.name :: ((c.module module).path ++ [name]), IsIdentifier segment :=
    List.forall_mem_cons.2 ⟨hname, hbelow⟩
  have hsplit : splitSegments (c.canonicalIn (c.module module).path [name]) =
      c.name :: ((c.module module).path ++ [name]) :=
    splitSegments_joinSegments (List.cons_ne_nil _ _) fun segment hsegment =>
      (hall segment hsegment).colon_not_mem
  simpa [segmentsBelow, hsplit] using hbelow

/-- The jobs of a pass name their types by identifiers below the crate. -/
theorem isIdentifier_of_runPass {sources : Sources} {name : String} {dependencies : List String}
    {root : FilePath} (hload : load sources name dependencies root = .ok c)
    (hname : IsIdentifier c.name) {settings : Settings} {marker : Option Symbol}
    {cancel : Cancellation} {jobs : List Job}
    (hjobs : (runPass settings c.host marker cancel).result = .ok jobs) :
    ∀ job ∈ jobs, ∀ segment ∈ segmentsBelow c.name job.typePath, IsIdentifier segment := by
  intro job hjob
  obtain ⟨resolved, hmem, hextract⟩ := exists_extract_of_runPass hjobs job hjob
  rw [host_decls] at hmem
  obtain ⟨decl, hdecl, rfl⟩ := List.mem_map.1 hmem
  obtain ⟨-, hpath⟩ := typePath_of_extract hextract
  exact isIdentifier_of_referencePath? (moduleTree_of_load hload) hname
    (placed_decls_of_load hload decl hdecl) hpath

/-- What a unit is made of for the jobs of a pass is read back as source: one trait, and one
    implementation of it for the registry, whose method makes a call for each job and returns the
    registry. -/
theorem parseFile_render_of_runPass {sources : Sources} {name : String}
    {dependencies : List String} {root : FilePath}
    (hload : load sources name dependencies root = .ok c) (hname : IsIdentifier c.name)
    {pass : Settings} {marker : Option Symbol} {cancel : Cancellation} {jobs : List Job}
    (hjobs : (runPass pass c.host marker cancel).result = .ok jobs)
    (hnames : ∀ job ∈ jobs, ∀ segment ∈ segmentsBelow c.name job.typePath, segment ∉ Lexer.unraw)
    {settings : Settings} (hvalid : settings.validate = .ok ())
    (hspliceable : settings.Spliceable) :
    ∃ target method line, parsePath settings.registry = .ok target ∧
      parseIdent settings.calledMethod = .ok method ∧
      parseFile (render settings c.name jobs).text =
        .ok (unitFile c.name target method (jobs.map settings.callArguments) line) :=
  exists_parseFile_render (Settings.validate_eq_ok_iff.1 hvalid) hspliceable hname
    fun job hjob segment hsegment =>
      ⟨isIdentifier_of_runPass hload hname hjobs job hjob segment hsegment,
        hnames job hjob segment hsegment⟩

/-- A type in a module whose name is a keyword. -/
theorem parseFile_render_of_runPass_raw :
    ∃ c, load (.ofTexts [(⟨"lib.rs"⟩, "pub mod r#fn;"),
        (⟨"fn.rs"⟩, "#[jobkit::recurring_job(\"@daily\")] pub struct N;")])
        "app" ["jobkit"] ⟨"lib.rs"⟩ = .ok c ∧ IsIdentifier c.name ∧
      Settings.default.validate = .ok () ∧ Settings.default.Spliceable ∧
      ∃ jobs, (runPass Settings.default c.host (c.host.symbolNamed? Settings.default.marker)
          .never).result = .ok jobs ∧ jobs.map (·.typePath) = ["app::fn::N"] ∧
        (∀ job ∈ jobs, ∀ segment ∈ segmentsBelow c.name job.typePath, segment ∉ Lexer.unraw) ∧
        ∃ target method line, parsePath Settings.default.registry = .ok target ∧
          parseIdent Settings.default.calledMethod = .ok method ∧
          parseFile (render Settings.default c.name jobs).text =
            .ok (unitFile c.name target method (jobs.map Settings.default.callArguments) line) := by
  refine exists_loaded_of_any (fun c => c.name = "app" ∧
      Extracted.diagnostics (c.found Settings.default) = [] ∧
      (Extracted.jobs (c.found Settings.default)).map Job.id = ["app::fn::N"] ∧
      (Extracted.jobs (c.found Settings.default)).map (·.typePath) = ["app::fn::N"])
    (by decide +kernel) fun c hload htest => ?_
  obtain ⟨hcrate, hsound, hids, htypes⟩ := of_decide_eq_true htest
  obtain ⟨jobs, hjobs, hperm⟩ := exists_runPass_never hsound (hids ▸ by decide)
  have hpaths : jobs.map (·.typePath) = ["app::fn::N"] :=
    List.perm_singleton.1 (htypes ▸ hperm.map _)
  have hname : IsIdentifier c.name := hcrate ▸ by decide
  have hvalid : Settings.default.validate = .ok () := by decide +kernel
  have hnames : ∀ job ∈ jobs, ∀ segment ∈ segmentsBelow c.name job.typePath,
      segment ∉ Lexer.unraw := by
    intro job hjob
    have hpath : job.typePath ∈ ["app::fn::N"] := hpaths ▸ List.mem_map_of_mem hjob
    rw [hcrate, List.mem_singleton.1 hpath]
    decide +kernel
  exact ⟨hname, hvalid, spliceable_default, jobs, hjobs, hpaths, hnames,
    parseFile_render_of_runPass hload hname hjobs hnames hvalid spliceable_default⟩

/-- The check admits a trait with a line break in its path, and the comment that names the trait ends
    there. -/
theorem parseFile_render_ne_of_lineFeed :
    let settings := { Settings.default with jobTrait := "jobkit::\nRecurringJob" }
    settings.validate = .ok () ∧
      ∃ c, load (.ofTexts [(⟨"lib.rs"⟩, "pub struct N;")]) "app" ["jobkit"] ⟨"lib.rs"⟩ = .ok c ∧
        IsIdentifier c.name ∧ (runPass settings c.host none .never).result = .ok [] ∧
        ∀ file, parseFile (render settings c.name []).text ≠ .ok file := by
  refine ⟨by decide +kernel, exists_loaded_of_any (fun c => c.name = "app") (by decide +kernel)
    fun c _ hcrate => ?_⟩
  have hname : c.name = "app" := of_decide_eq_true hcrate
  refine ⟨hname ▸ by decide, ?_, fun file hfile => ?_⟩
  · unfold runPass
    dsimp only
    split <;> rfl
  have hnone : (parseFile (render
      { Settings.default with jobTrait := "jobkit::\nRecurringJob" } "app" []).text).toOption.isNone =
        true := by
    -- the characters of the parts, since the text as a whole is slow to evaluate
    simp only [parseFile, render, unitHeading_eq, unitTrait_eq, unitImpl_eq, String.toList_append,
      List.map_nil, String.join_nil]
    decide +kernel
  rw [hname] at hfile
  rw [hfile] at hnone
  cases hnone

end Crate

end JobRoster
