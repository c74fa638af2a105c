import Mathlib.Data.List.Forall2
import JobRoster.Proofs.Text.Delimited
import JobRoster.Proofs.Unit.Tokens

/-!
# Units read back

What a unit registers can be read back from its text: each literal and each type shows where it ends,
so each line does, and no line can be taken for the end of the method, whatever the texts of the jobs
hold. Two rosters with one text register the same.
-/

namespace JobRoster

open Syntax Text Lexer

/-! ## Literals -/

theorem selfDelimited_literal :
    SelfDelimited (fun _ : String => True) fun value => (Text.literal value).toList := by
  intro value value' _ _ rest rest' _ _ heq
  have hbody : literalBody value.toList ++ '"' :: rest = literalBody value'.toList ++ '"' :: rest' := by
    simpa [Text.literal] using heq
  have hread : some (value.toList, rest) = some (value'.toList, rest') := by
    rw [← scanCooked_literalBody, ← scanCooked_literalBody, hbody]
  obtain ⟨hvalue, hrest⟩ := Prod.mk.inj (Option.some.inj hread)
  exact ⟨String.toList_inj.1 hvalue, hrest⟩

theorem toList_arguments (value : String) (values : List String) :
    (", ".intercalate ((value :: values).map Text.literal)).toList =
      (Text.literal value).toList ++
        values.flatMap fun value => [',', ' '] ++ (Text.literal value).toList := by
  induction values generalizing value with
  | nil => simp
  | cons next values ih =>
    rw [List.flatMap_cons, List.append_assoc, ← ih next]
    simp [String.intercalate_cons_cons, String.toList_append]

theorem selfDelimited_arguments :
    SelfDelimited (fun values : List String => values ≠ []) fun values =>
      (", ".intercalate (values.map Text.literal)).toList ++ [')'] := by
  have hmore : SelfDelimited (fun values : List String => ∀ value ∈ values, True) fun values =>
      (values.flatMap fun value => [',', ' '] ++ (Text.literal value).toList) ++ [')'] :=
    (selfDelimited_literal.behind [',', ' ']).list (fun _ _ _ => trivial) (fun _ => trivial) (by simp)
  -- a first value, and more of them that each have a comma in front
  refine (selfDelimited_literal.pair hmore fun _ _ _ _ => trivial).image (fun p => p.1 :: p.2) ?_ ?_
  · intro values hne
    obtain ⟨value, values, rfl⟩ := List.exists_cons_of_ne_nil hne
    exact ⟨(value, values), ⟨trivial, fun _ _ => trivial⟩, rfl⟩
  · rintro ⟨value, values⟩ -
    simp only [toList_arguments, List.append_assoc]

/-! ## Types -/

theorem pathSegment_eq_or (segment : String) :
    pathSegment segment = segment ∨ pathSegment segment = "r#" ++ segment := by
  unfold pathSegment
  split
  · exact .inl rfl
  · exact .inr rfl

theorem delimited_identifier : Delimited IsIdentifier EndsName String.toList := by
  intro name name' hname hname' rest rest' hrest hrest' heq
  have htake : some (name.toList, rest) = some (name'.toList, rest') := by
    rw [← takeIdent?_name hname hrest, ← takeIdent?_name hname' hrest', heq]
  obtain ⟨hsame, hrest⟩ := Prod.mk.inj (Option.some.inj htake)
  exact ⟨String.toList_inj.1 hsame, hrest⟩

/-- A name is not taken for a marked one. -/
theorem ne_rawMark {lead name : String} (hlead : IsLead lead) (hname : IsIdentifier name)
    {rest : List Char} (hrest : EndsName rest) (more : List Char) :
    lead.toList ++ (name.toList ++ rest) ≠ 'r' :: '#' :: more := by
  obtain rfl | rfl := hlead
  · intro heq
    -- the name would be `r`, but no name ends before a mark
    have hmark : takeIdent? ('r' :: '#' :: more) = some (['r'], '#' :: more) := by
      have hstart : isIdentStart 'r' = true := by decide
      have hcontinue : isIdentContinue '#' = false := by decide
      simp [takeIdent?, hstart, hcontinue]
    have htake : takeIdent? ('r' :: '#' :: more) = some (name.toList, rest) := by
      rw [← heq]
      exact takeIdent?_name hname hrest
    rw [hmark] at htake
    obtain ⟨-, rfl⟩ := Prod.mk.inj (Option.some.inj htake)
    exact (hrest '#' rfl).2 (by decide)
  · rw [show (":" : String).toList = [':'] from rfl]
    simp

theorem delimited_pathSegment {lead : String} (hlead : IsLead lead) :
    Delimited IsIdentifier EndsName fun segment => (pathSegment (lead ++ segment)).toList := by
  intro segment segment' hsegment hsegment' rest rest' hrest hrest' heq
  have hplain := delimited_identifier.behind lead.toList
  dsimp only at heq
  -- where only one of the two is marked, the other would have to start with the mark
  obtain hsame | hsame := pathSegment_eq_or (lead ++ segment) <;>
    obtain hsame' | hsame' := pathSegment_eq_or (lead ++ segment') <;>
    simp only [hsame, hsame', String.toList_append, List.append_assoc] at heq
  · exact hplain hsegment hsegment' hrest hrest' (by simpa using heq)
  · exact absurd heq (ne_rawMark hlead hsegment hrest _)
  · exact absurd heq.symm (ne_rawMark hlead hsegment' hrest' _)
  · exact hplain hsegment hsegment' hrest hrest' (by simpa using heq)

theorem selfDelimited_belowRoot :
    SelfDelimited (fun segments : List String => ∀ segment ∈ segments, IsIdentifier segment)
      fun segments => belowRoot segments ++ ['>'] := by
  have hsegment : Delimited IsIdentifier EndsName fun segment =>
      [':', ':'] ++ (pathSegment segment).toList := by
    simpa using (delimited_pathSegment (.inl rfl)).behind [':', ':']
  exact hsegment.list (fun _ _ _ => endsName_cons (by decide +kernel) (by decide) _)
    (fun _ => endsName_cons (by decide +kernel) (by decide) _) (by simp)

/-- A path of the crate: its name, and one or more identifiers below. -/
def Below (moduleIdentity path : String) : Prop :=
  ∃ segment segments, (∀ name ∈ segment :: segments, IsIdentifier name) ∧
    joinSegments (moduleIdentity :: segment :: segments) = path

/-- What is written below the crate are the segments, behind what the name of the crate leaves, which
    is the same for every path. -/
theorem exists_segmentsBelow (moduleIdentity : String) :
    ∃ before lead, IsLead lead ∧ ∀ segment segments,
      (∀ name ∈ segment :: segments, IsIdentifier name) →
        segmentsBelow moduleIdentity (joinSegments (moduleIdentity :: segment :: segments)) =
          before ++ (lead ++ segment) :: segments := by
  obtain ⟨root, pieces, lead, hlead, hsplit⟩ := exists_splitSegments_append moduleIdentity
  refine ⟨if root = moduleIdentity then pieces else root :: pieces, lead, hlead, ?_⟩
  intro segment segments hnames
  rw [segmentsBelow, joinSegments_cons_cons, hsplit, splitSegments_lead hlead hnames]
  by_cases hroot : root = moduleIdentity <;> simp [hroot]

theorem belowRoot_append (segments more : List String) :
    belowRoot (segments ++ more) = belowRoot segments ++ belowRoot more :=
  List.flatMap_append

theorem selfDelimited_typeReference (moduleIdentity : String) :
    SelfDelimited (Below moduleIdentity) fun path =>
      (typeReference moduleIdentity path).toList ++ ['>'] := by
  obtain ⟨before, lead, hlead, hbelow⟩ := exists_segmentsBelow moduleIdentity
  have hends : ∀ segments : List String, ∀ rest, EndsName (belowRoot segments ++ ['>'] ++ rest) := by
    intro segments rest
    rw [List.append_assoc]
    exact endsName_belowRoot segments (endsName_cons (by decide +kernel) (by decide) _)
  have hpair := (delimited_pathSegment hlead).pair selfDelimited_belowRoot
    fun segments _ rest _ => hends segments rest
  refine (hpair.behind ("crate".toList ++ belowRoot before ++ [':', ':'])).image
    (fun p => joinSegments (moduleIdentity :: p.1 :: p.2)) ?_ ?_
  · rintro path ⟨segment, segments, hnames, hjoined⟩
    exact ⟨(segment, segments), List.forall_mem_cons.1 hnames, hjoined⟩
  · rintro ⟨segment, segments⟩ ⟨hsegment, hsegments⟩
    rw [toList_typeReference, hbelow _ _ (List.forall_mem_cons.2 ⟨hsegment, hsegments⟩)]
    simp only [belowRoot_append, belowRoot_cons, List.append_assoc, List.cons_append,
      List.nil_append]

/-! ## Lines -/

/-- What a line says of a job: the path of its type, and what is passed on. -/
def Settings.call (settings : Settings) (job : Job) : String × List String :=
  (job.typePath, settings.callArguments job)

/-- The line of a call, up to the semicolon. -/
def callLine (settings : Settings) (moduleIdentity : String) (call : String × List String) :
    List Char :=
  ("        self." ++ settings.calledMethod ++ "::<").toList ++
    ((typeReference moduleIdentity call.1).toList ++ ['>'] ++
      (['('] ++ ((", ".intercalate (call.2.map Text.literal)).toList ++ [')'])))

theorem toList_line (settings : Settings) (moduleIdentity : String) (job : Job) :
    ("        " ++ registration settings moduleIdentity job ++ "\n").toList =
      callLine settings moduleIdentity (settings.call job) ++ [';', '\n'] := by
  rw [registration_eq]
  simp [callLine, Settings.call, String.toList_append]

theorem selfDelimited_callLine (settings : Settings) (moduleIdentity : String) :
    SelfDelimited (fun call : String × List String => Below moduleIdentity call.1 ∧ call.2 ≠ [])
      (callLine settings moduleIdentity) :=
  ((selfDelimited_typeReference moduleIdentity).pair (selfDelimited_arguments.behind ['('])
    fun _ _ _ _ => trivial).behind _

/-- The lines of a method are read back up to the line that returns the registry. -/
theorem selfDelimited_lines (settings : Settings) (moduleIdentity : String) :
    SelfDelimited (fun calls : List (String × List String) =>
        ∀ call ∈ calls, Below moduleIdentity call.1 ∧ call.2 ≠ [])
      fun calls => (calls.flatMap fun call => callLine settings moduleIdentity call ++ [';', '\n']) ++
        implEnd.toList := by
  have hline : SelfDelimited
      (fun call : String × List String => Below moduleIdentity call.1 ∧ call.2 ≠ [])
      fun call => callLine settings moduleIdentity call ++ [';', '\n'] :=
    (selfDelimited_callLine settings moduleIdentity).before fun _ => trivial
  refine hline.list (fun _ _ _ => trivial) (fun _ => trivial) ?_
  -- both start with `self`, but a line goes on with a method
  rintro call - rest rest' heq
  simp [callLine, implEnd, String.toList_append] at heq

/-! ## Units -/

/-- Two jobs that are registered by the same call. -/
structure SameCall (template : Template) (a b : Job) : Prop where
  typePath : a.typePath = b.typePath
  id : a.id = b.id
  cron : a.cron = b.cron
  queue : template = .withOptions → a.queue = b.queue
  timeZone : template = .withOptions → a.timeZone = b.timeZone

theorem sameCall_of_call_eq {settings : Settings} {a b : Job}
    (h : settings.call a = settings.call b) : SameCall settings.template a b := by
  simp only [Settings.call, Settings.callArguments, Prod.mk.injEq] at h
  obtain ⟨hpath, harguments⟩ := h
  cases htemplate : settings.template with
  | basic =>
    obtain ⟨hid, hcron⟩ : a.id = b.id ∧ a.cron = b.cron := by simpa [htemplate] using harguments
    exact ⟨hpath, hid, hcron, nofun, nofun⟩
  | withOptions =>
    obtain ⟨hid, hcron, hqueue, hzone⟩ :
        a.id = b.id ∧ a.cron = b.cron ∧ a.queue = b.queue ∧ a.timeZone = b.timeZone := by
      simpa [htemplate] using harguments
    exact ⟨hpath, hid, hcron, fun _ => hqueue, fun _ => hzone⟩

theorem toList_lines (settings : Settings) (moduleIdentity : String) (jobs : List Job) :
    (String.join (jobs.map fun job =>
      "        " ++ registration settings moduleIdentity job ++ "\n")).toList =
      (jobs.map settings.call).flatMap fun call =>
        callLine settings moduleIdentity call ++ [';', '\n'] := by
  induction jobs with
  | nil => rfl
  | cons job jobs ih =>
    rw [List.map_cons, String.join_cons, String.toList_append, toList_line, ih, List.map_cons,
      List.flatMap_cons]

/-- The calls of a unit. Nothing but what they say differs between two units of one crate. -/
theorem calls_eq_of_render_eq {settings : Settings} {moduleIdentity : String} {jobs jobs' : List Job}
    (hjobs : ∀ job ∈ jobs, Below moduleIdentity job.typePath)
    (hjobs' : ∀ job ∈ jobs', Below moduleIdentity job.typePath)
    (h : (render settings moduleIdentity jobs).text = (render settings moduleIdentity jobs').text) :
    jobs.map settings.call = jobs'.map settings.call := by
  have hvalid : ∀ jobs : List Job, (∀ job ∈ jobs, Below moduleIdentity job.typePath) →
      ∀ call ∈ jobs.map settings.call, Below moduleIdentity call.1 ∧ call.2 ≠ [] := by
    intro jobs hjobs call hcall
    obtain ⟨job, hjob, rfl⟩ := List.mem_map.1 hcall
    exact ⟨hjobs job hjob, callArguments_ne_nil settings job⟩
  have hchars := congrArg String.toList h
  simp only [render, unitImpl_eq, String.toList_append, List.append_assoc, toList_lines,
    List.append_cancel_left_eq] at hchars
  exact (selfDelimited_lines settings moduleIdentity).eq_of_write_eq (hvalid jobs hjobs)
    (hvalid jobs' hjobs') hchars

/-- A unit can be read back: for one crate and one choice of settings, the text tells how many jobs
    there are and, in their order, everything that the calls say of each. -/
theorem forall₂_sameCall_of_render_eq {settings : Settings} {moduleIdentity : String}
    {jobs jobs' : List Job} (hjobs : ∀ job ∈ jobs, Below moduleIdentity job.typePath)
    (hjobs' : ∀ job ∈ jobs', Below moduleIdentity job.typePath)
    (h : (render settings moduleIdentity jobs).text = (render settings moduleIdentity jobs').text) :
    List.Forall₂ (SameCall settings.template) jobs jobs' := by
  have hcalls := calls_eq_of_render_eq hjobs hjobs' h
  have hpairs : List.Forall₂ (fun a b => settings.call a = settings.call b) jobs jobs' := by
    rw [← List.forall₂_eq_eq_eq] at hcalls
    exact List.forall₂_map_right_iff.1 (List.forall₂_map_left_iff.1 hcalls)
  exact hpairs.imp fun _ _ => sameCall_of_call_eq

/-- A job that looks like source: a quote and a comma, the end of a call, the end of a method. -/
def quotingJob (identity : String) : Job where
  identity
  typePath := "my_app::r::fn"
  id := "nightly\", \"hourly"
  cron := ");\n        self\n"
  queue := "\x00\\1"
  timeZone := ""
  location := ⟨⟨"src/lib.rs"⟩, 1⟩

theorem forall₂_sameCall_of_quotingJob :
    (∀ job ∈ [quotingJob "my_app::r::fn"], Below "my_app" job.typePath) ∧
    (∀ job ∈ [quotingJob "my_app::hidden::fn"], Below "my_app" job.typePath) ∧
    (render { Settings.default with template := .withOptions } "my_app"
      [quotingJob "my_app::r::fn"]).text =
      (render { Settings.default with template := .withOptions } "my_app"
        [quotingJob "my_app::hidden::fn"]).text ∧
    List.Forall₂ (SameCall .withOptions) [quotingJob "my_app::r::fn"]
      [quotingJob "my_app::hidden::fn"] := by
  have hbelow : ∀ identity, ∀ job ∈ [quotingJob identity], Below "my_app" job.typePath := by
    intro identity job hjob
    obtain rfl := List.mem_singleton.1 hjob
    exact ⟨"r", ["fn"], by decide +kernel, rfl⟩
  exact ⟨hbelow _, hbelow _, rfl,
    @forall₂_sameCall_of_render_eq { Settings.default with template := .withOptions } "my_app" _ _
      (hbelow _) (hbelow _) rfl⟩

end JobRoster
