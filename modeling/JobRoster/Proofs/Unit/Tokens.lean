import JobRoster.Proofs.Unit.Names

/-!
# The tokens of a unit

What a unit is made of once it is read: the tokens of a trait and of its implementation, with one
call for each job, on whatever lines they come to stand.
-/

namespace JobRoster

open Syntax Text Lexer

variable {line line' : Nat} {rest : List Char}

/-! ## Calls -/

/-- The method that a template calls. -/
def Settings.calledMethod (settings : Settings) : String :=
  match settings.template with
  | .basic => settings.method
  | .withOptions => settings.methodWithOptions

/-- What a template passes on of a job. -/
def Settings.callArguments (settings : Settings) (job : Job) : List String :=
  match settings.template with
  | .basic => [job.id, job.cron]
  | .withOptions => [job.id, job.cron, job.queue, job.timeZone]

theorem registration_eq (settings : Settings) (moduleIdentity : String) (job : Job) :
    registration settings moduleIdentity job =
      "self." ++ settings.calledMethod ++ "::<" ++ typeReference moduleIdentity job.typePath ++
        ">(" ++ ", ".intercalate ((settings.callArguments job).map Text.literal) ++ ");" := by
  unfold registration Settings.calledMethod Settings.callArguments
  cases settings.template <;> rfl

theorem callArguments_ne_nil (settings : Settings) (job : Job) :
    settings.callArguments job ≠ [] := by
  unfold Settings.callArguments
  split <;> exact List.cons_ne_nil _ _

/-- Literals with commas between. -/
inductive ArgumentTokens : List String → List Token → Prop
  | last (value : String) (line : Nat) : ArgumentTokens [value] [.literal (.str value) line]
  | more {values : List String} {tokens : List Token} (value : String) (line comma : Nat)
      (joint : Bool) (after : ArgumentTokens values tokens) :
      ArgumentTokens (value :: values)
        (.literal (.str value) line :: .punct ',' joint comma :: tokens)

theorem reads_arguments {values : List String} (hvalues : values ≠ []) (line : Nat)
    (rest : List Char) :
    ∃ line' tokens, ArgumentTokens values tokens ∧
      Reads line ((", ".intercalate (values.map Text.literal)).toList ++ ')' :: rest) line'
        (')' :: rest) tokens := by
  induction values generalizing line with
  | nil => exact absurd rfl hvalues
  | cons value values ih =>
    cases values with
    | nil =>
      obtain ⟨line', hreads⟩ := Reads.literal (skipIdent_cons (d := ')') (by decide) rest) value line
      exact ⟨line', _, .last value line, by simpa using hreads⟩
    | cons next values =>
      obtain ⟨after, hreads⟩ := Reads.literal (skipIdent_cons (d := ',') (by decide)
        (' ' :: ((", ".intercalate ((next :: values).map Text.literal)).toList ++ ')' :: rest)))
        value line
      obtain ⟨line', tokens, htokens, hmore⟩ := ih (List.cons_ne_nil _ _) after
      have hcomma := Reads.markBefore (c := ',') (by decide) (by decide) (by decide)
        (by decide : isPunctuation ' ' = false) after
        ((", ".intercalate ((next :: values).map Text.literal)).toList ++ ')' :: rest)
      have hall := hreads.trans (hcomma.trans (.blank (by decide) hmore))
      refine ⟨line', _, .more value line after false htokens, ?_⟩
      simpa [String.intercalate_cons_cons, String.toList_append] using hall

theorem exists_quote_of_arguments (value : String) (values : List String) :
    ∃ after, (", ".intercalate ((value :: values).map Text.literal)).toList = '"' :: after := by
  cases values <;>
    simp [String.intercalate_cons_cons, String.toList_append, Text.literal]

/-! ## Paths -/

/-- Segments as they are written below the root of a path. -/
def belowRoot (segments : List String) : List Char :=
  segments.flatMap fun segment => ':' :: ':' :: (pathSegment segment).toList

@[simp] theorem belowRoot_cons (segment : String) (segments : List String) :
    belowRoot (segment :: segments) =
      ':' :: ':' :: (pathSegment segment).toList ++ belowRoot segments := rfl

theorem toList_joinSegments (root : String) (segments : List String) :
    (joinSegments (root :: segments.map pathSegment)).toList = root.toList ++ belowRoot segments := by
  induction segments generalizing root with
  | nil => simp [belowRoot]
  | cons segment segments ih => simp [joinSegments_cons_cons, String.toList_append, ih]

theorem endsName_belowRoot (segments : List String) (hrest : EndsName rest) :
    EndsName (belowRoot segments ++ rest) := by
  cases segments with
  | nil => exact hrest
  | cons => exact endsName_cons (by decide +kernel) (by decide) _

theorem reads_belowRoot {segments : List String}
    (hnames : ∀ segment ∈ segments, IsIdentifier segment ∧ segment ∉ unraw) (hrest : EndsName rest)
    (line : Nat) :
    ∃ tokens below, SegmentTokens tokens below ∧ below.map (·.ident.name) = segments ∧
      (∀ segment ∈ below, Ahead.reserved.contains segment.ident.text = false) ∧
      Reads line (belowRoot segments ++ rest) line rest tokens := by
  induction segments with
  | nil => exact ⟨[], [], .nil, rfl, nofun, .refl _ _⟩
  | cons segment segments ih =>
    obtain ⟨⟨hsegment, hkeyword⟩, hsegments⟩ := List.forall_mem_cons.1 hnames
    obtain ⟨tokens, below, hbelow, hsame, hplain, hreads⟩ := ih hsegments
    obtain ⟨ident, hsegmentName, hident, hname⟩ :=
      reads_pathSegment hsegment hkeyword (endsName_belowRoot segments hrest) line
    obtain ⟨joint, hseparator⟩ :=
      Reads.separator line ((pathSegment segment).toList ++ (belowRoot segments ++ rest))
    refine ⟨_, _, .cons line line joint ident line hbelow, ?_, ?_, ?_⟩
    · rw [List.map_cons, hsegmentName, hsame]
    · exact List.forall_mem_cons.2 ⟨hident, hplain⟩
    · simpa using hseparator.trans (hname.trans hreads)

/-! ## Calls -/

def selfIdent : Ident := .plain "self" (by decide +kernel)

def crateIdent : Ident := .plain "crate" (by decide +kernel)

def fnIdent : Ident := .plain "fn" (by decide +kernel)

def implIdent : Ident := .plain "impl" (by decide +kernel)

def forIdent : Ident := .plain "for" (by decide +kernel)

/-- The call of a method on the registry, with a type and literals, on whatever lines it stands. -/
inductive CallTokens (method : Ident) (values : List String) : List Token → Prop
  | intro {path arguments : List Token} {below : List PathSegment} (start name line close : Nat)
      (joint : Bool) (hpath : SegmentTokens path below)
      (hnames : ∀ segment ∈ below, Ahead.reserved.contains segment.ident.text = false)
      (harguments : ArgumentTokens values arguments) :
      CallTokens method values
        (.ident selfIdent start :: .punct '.' joint start :: .ident method name ::
          .punct ':' true line :: .punct ':' true line :: .punct '<' false line ::
          .ident crateIdent line :: (path ++ [.punct '>' false line,
            .group .paren arguments line close, .punct ';' false close]))

/-- The segments of a path below the crate, where it is one of this crate. -/
def segmentsBelow (moduleIdentity path : String) : List String :=
  match splitSegments path with
  | [] => []
  | root :: segments => if root = moduleIdentity then segments else root :: segments

theorem toList_typeReference (moduleIdentity path : String) :
    (typeReference moduleIdentity path).toList =
      "crate".toList ++ belowRoot (segmentsBelow moduleIdentity path) := by
  unfold typeReference segmentsBelow
  cases hsplit : splitSegments path with
  | nil => exact absurd hsplit (splitSegments_ne_nil path)
  | cons root segments => exact toList_joinSegments _ _

theorem toList_registration (settings : Settings) (moduleIdentity : String) (job : Job) :
    (registration settings moduleIdentity job).toList =
      "self".toList ++ '.' :: (settings.calledMethod.toList ++ ':' :: ':' :: '<' ::
        ("crate".toList ++ (belowRoot (segmentsBelow moduleIdentity job.typePath) ++ '>' :: '(' ::
          ((", ".intercalate ((settings.callArguments job).map Text.literal)).toList ++
            [')', ';'])))) := by
  rw [registration_eq]
  simp only [String.toList_append, List.append_assoc, toList_typeReference]
  rfl

/-- The type that a method is called with, in angle brackets. -/
theorem reads_typeArgument {segments : List String}
    (hnames : ∀ segment ∈ segments, IsIdentifier segment ∧ segment ∉ unraw) (line : Nat)
    (rest : List Char) :
    ∃ tokens below, SegmentTokens tokens below ∧
      (∀ segment ∈ below, Ahead.reserved.contains segment.ident.text = false) ∧
      Reads line (':' :: ':' :: '<' :: ("crate".toList ++ (belowRoot segments ++ '>' :: '(' :: rest)))
        line ('(' :: rest)
        (.punct ':' true line :: .punct ':' true line :: .punct '<' false line ::
          .ident crateIdent line :: (tokens ++ [.punct '>' false line])) := by
  have hangle : EndsName ('>' :: '(' :: rest) := endsName_cons (by decide +kernel) (by decide) _
  obtain ⟨tokens, below, hbelow, -, hplain, hreads⟩ := reads_belowRoot hnames hangle line
  refine ⟨tokens, below, hbelow, hplain, ?_⟩
  refine .cons (.markBefore (by decide) (by decide) (by decide) (by decide) line _) ?_
  refine .cons (.markBefore (by decide) (by decide) (by decide) (by decide) line _) ?_
  refine .cons (.markBefore (c := '<') (d := 'c') (by decide) (by decide) (by decide) (by decide) line _) ?_
  refine .cons (.word crateIdent.isIdentifier (endsName_belowRoot segments hangle) line) ?_
  exact .trans hreads (.markBefore (by decide) (by decide) (by decide) (by decide) line _)

theorem reads_argumentGroup {values : List String} (hvalues : values ≠ []) (line : Nat)
    (rest : List Char) :
    ∃ close tokens, ArgumentTokens values tokens ∧
      Reads line ('(' :: ((", ".intercalate (values.map Text.literal)).toList ++ ')' :: rest)) close
        rest [.group .paren tokens line close] := by
  obtain ⟨close, tokens, htokens, hreads⟩ := reads_arguments hvalues line rest
  obtain ⟨value, values, rfl⟩ := List.exists_cons_of_ne_nil hvalues
  -- a quote follows the parenthesis, so it does not start the spelling of an error
  obtain ⟨after, hafter⟩ := exists_quote_of_arguments value values
  have hstart : expansionError.isPrefixOf
      ('(' :: ((", ".intercalate ((value :: values).map Text.literal)).toList ++ ')' :: rest)) =
        false := by
    rw [hafter]
    rfl
  exact ⟨close, tokens, htokens, .group hstart (by decide) hreads (by decide) (.refl _ _)⟩

/-- What a call has behind its method. -/
theorem reads_behindMethod {segments values : List String}
    (hnames : ∀ segment ∈ segments, IsIdentifier segment ∧ segment ∉ unraw) (hvalues : values ≠ [])
    (line : Nat) (rest : List Char) :
    ∃ close path below arguments, SegmentTokens path below ∧
      (∀ segment ∈ below, Ahead.reserved.contains segment.ident.text = false) ∧
      ArgumentTokens values arguments ∧
      Reads line (':' :: ':' :: '<' :: ("crate".toList ++ (belowRoot segments ++ '>' :: '(' ::
          ((", ".intercalate (values.map Text.literal)).toList ++ ')' :: ';' :: '\n' :: rest))))
        close ('\n' :: rest)
        (.punct ':' true line :: .punct ':' true line :: .punct '<' false line ::
          .ident crateIdent line :: (path ++ [.punct '>' false line,
            .group .paren arguments line close, .punct ';' false close])) := by
  obtain ⟨path, below, hbelow, hplain, htype⟩ := reads_typeArgument hnames line
    ((", ".intercalate (values.map Text.literal)).toList ++ ')' :: ';' :: '\n' :: rest)
  obtain ⟨close, arguments, harguments, hgroup⟩ :=
    reads_argumentGroup hvalues line (';' :: '\n' :: rest)
  have hend : Reads close (';' :: '\n' :: rest) close ('\n' :: rest) [.punct ';' false close] :=
    .markBefore (by decide) (by decide) (by decide) (by decide) close rest
  refine ⟨close, path, below, arguments, hbelow, hplain, harguments, ?_⟩
  simpa using htype.trans (hgroup.trans hend)

theorem reads_call {method : Ident} {nameLine : Nat} {settings : Settings} {moduleIdentity : String}
    {job : Job} (htokens : tokenize settings.calledMethod.toList = .ok [.ident method nameLine])
    (hmark : settings.calledMethod.toList.head? ≠ some byteOrderMark)
    (hclosed : ClosesComments settings.calledMethod.toList)
    (hnames : ∀ segment ∈ segmentsBelow moduleIdentity job.typePath,
      IsIdentifier segment ∧ segment ∉ unraw)
    (hline : 1 ≤ line) (rest : List Char) :
    ∃ line' tokens, line ≤ line' ∧ CallTokens method (settings.callArguments job) tokens ∧
      Reads line ((registration settings moduleIdentity job).toList ++ '\n' :: rest) line'
        ('\n' :: rest) tokens := by
  rw [toList_registration]
  simp only [List.append_assoc, List.cons_append, List.nil_append]
  generalize htext : "crate".toList ++ (belowRoot (segmentsBelow moduleIdentity job.typePath) ++
    '>' :: '(' :: ((", ".intercalate ((settings.callArguments job).map Text.literal)).toList ++
      ')' :: ';' :: '\n' :: rest)) = path
  obtain ⟨name, hle, hmethod⟩ := reads_of_tokenize_before htokens hmark hclosed (d := ':') (by decide)
    (.inr fun token htoken => ⟨method, nameLine, List.mem_singleton.1 htoken⟩) hline
    (':' :: '<' :: path)
  -- the text behind the method is read from the line that the method ends on
  obtain ⟨close, pathTokens, below, arguments, hbelow, hplain, hvalues, hreads⟩ :=
    reads_behindMethod hnames (callArguments_ne_nil settings job) name rest
  rw [htext] at hreads
  have hself := Reads.word selfIdent.isIdentifier (endsName_cons (d := '.') (by decide +kernel) (by decide)
    (settings.calledMethod.toList ++ ':' :: ':' :: '<' :: path)) line
  have hpoint := Reads.mark (c := '.') (by decide) (by decide) line
    (settings.calledMethod.toList ++ ':' :: ':' :: '<' :: path)
  exact ⟨close, _, Nat.le_trans hle hreads.le, .intro line _ name close _ hbelow hplain hvalues,
    hself.cons (hpoint.cons (hmethod.cons hreads))⟩

/-! ## Bodies -/

/-- One call after another, and the registry in the end. -/
inductive BodyTokens (method : Ident) : List (List String) → List Token → Prop
  | last (line : Nat) : BodyTokens method [] [.ident selfIdent line]
  | call {values : List String} {calls : List (List String)} {tokens more : List Token}
      (hcall : CallTokens method values tokens) (after : BodyTokens method calls more) :
      BodyTokens method (values :: calls) (tokens ++ more)

theorem reads_body {method : Ident} {nameLine : Nat} {settings : Settings} {moduleIdentity : String}
    {jobs : List Job} (htokens : tokenize settings.calledMethod.toList = .ok [.ident method nameLine])
    (hmark : settings.calledMethod.toList.head? ≠ some byteOrderMark)
    (hclosed : ClosesComments settings.calledMethod.toList)
    (hnames : ∀ job ∈ jobs, ∀ segment ∈ segmentsBelow moduleIdentity job.typePath,
      IsIdentifier segment ∧ segment ∉ unraw)
    (hline : 1 ≤ line) (rest : List Char) :
    ∃ line' tokens, BodyTokens method (jobs.map settings.callArguments) tokens ∧
      Reads line ((String.join (jobs.map fun job =>
        "        " ++ registration settings moduleIdentity job ++ "\n")).toList ++
          "        self\n    ".toList ++ '\x7d' :: rest) line' ('\x7d' :: rest) tokens := by
  induction jobs generalizing line with
  | nil =>
    have hself : Reads line ("self".toList ++ '\n' :: (List.replicate 4 ' ' ++ '\x7d' :: rest)) line
        ('\n' :: (List.replicate 4 ' ' ++ '\x7d' :: rest)) [.ident selfIdent line] :=
      .word selfIdent.isIdentifier (endsName_cons (by decide +kernel) (by decide) _) line
    have hfeed : Reads line ('\n' :: (List.replicate 4 ' ' ++ '\x7d' :: rest)) (line + 1)
        ('\x7d' :: rest) [] := .blank (by decide) (.spaces 4 (.refl _ _))
    exact ⟨line + 1, _, .last line, .spaces 8 (hself.trans hfeed)⟩
  | cons job jobs ih =>
    obtain ⟨hjob, hjobs⟩ := List.forall_mem_cons.1 hnames
    have htext : (String.join ((job :: jobs).map fun job =>
        "        " ++ registration settings moduleIdentity job ++ "\n")).toList ++
          "        self\n    ".toList ++ '\x7d' :: rest =
        List.replicate 8 ' ' ++ ((registration settings moduleIdentity job).toList ++ '\n' ::
          ((String.join (jobs.map fun job =>
            "        " ++ registration settings moduleIdentity job ++ "\n")).toList ++
              "        self\n    ".toList ++ '\x7d' :: rest)) := by
      rw [List.map_cons, String.join_cons]
      simp only [String.toList_append, List.append_assoc]
      rfl
    rw [htext]
    obtain ⟨middle, tokens, hle, hcall, hreads⟩ :=
      reads_call htokens hmark hclosed hjob hline
        ((String.join (jobs.map fun job =>
            "        " ++ registration settings moduleIdentity job ++ "\n")).toList ++
              "        self\n    ".toList ++ '\x7d' :: rest)
    obtain ⟨last, more, hbody, hmore⟩ := ih hjobs (Nat.le_succ_of_le (Nat.le_trans hline hle))
    exact ⟨last, _, .call hcall hbody, .spaces 8 (hreads.trans (.blank (by decide) hmore))⟩

/-! ## Units -/

def receiverText : String := "(&mut self) -> &mut Self"

def declaredText : String := "(&mut self) -> &mut Self;"

def traitHeadText : String := "pub trait RecurringJobRegistrationExt"

def implHeadText : String := "impl RecurringJobRegistrationExt for"

/-- What the documentation of the trait says. -/
def traitDoc : String := " Registers every recurring job declared in this crate."

def extensionIdent : Ident := .plain extensionTrait (by decide +kernel)

def methodIdent (moduleIdentity : String) : Ident :=
  .plain (methodName moduleIdentity) (isIdentifier_methodName moduleIdentity)

def receiverTokens : List Token :=
  let mutToken := Token.ident (.plain "mut" (by decide +kernel)) 1
  [.group .paren [.punct '&' false 1, mutToken, .ident selfIdent 1] 1 1, .punct '-' true 1,
    .punct '>' false 1, .punct '&' false 1, mutToken, .ident (.plain "Self" (by decide +kernel)) 1]

def traitHeadTokens : List Token :=
  [.ident (.plain "pub" (by decide +kernel)) 1, .ident (.plain "trait" (by decide +kernel)) 1,
    .ident extensionIdent 1]

def implHeadTokens : List Token :=
  [.ident implIdent 1, .ident extensionIdent 1, .ident forIdent 1]

theorem tokenize_receiverText : tokenize receiverText.toList = .ok receiverTokens := rfl

theorem tokenize_declaredText :
    tokenize declaredText.toList = .ok (receiverTokens ++ [.punct ';' false 1]) := rfl

theorem tokenize_traitHeadText : tokenize traitHeadText.toList = .ok traitHeadTokens := rfl

theorem tokenize_implHeadText : tokenize implHeadText.toList = .ok implHeadTokens := rfl

/-- The method of a unit, with what follows its name. -/
def methodTokens (moduleIdentity : String) (line lines : Nat) (tokens : List Token) : List Token :=
  .ident fnIdent line :: .ident (methodIdent moduleIdentity) line ::
    Token.mapLines (· + lines) tokens

/-- The trait of a unit, on whatever lines it stands. -/
inductive TraitTokens (moduleIdentity : String) : List Token → Prop
  | intro (doc head «open» line lines close : Nat) :
      TraitTokens moduleIdentity
        (docAttribute false traitDoc.toList doc ++ (Token.mapLines (· + head) traitHeadTokens ++
          [.group .brace
            (methodTokens moduleIdentity line lines (receiverTokens ++ [.punct ';' false 1]))
            «open» close]))

/-- The implementation of the trait for a registry, on whatever lines it stands. -/
inductive ImplTokens (moduleIdentity : String) (method : Ident) (registry : List Token)
    (calls : List (List String)) : List Token → Prop
  | intro {body : List Token} (hbody : BodyTokens method calls body)
      (head type «open» line lines bodyOpen bodyClose close : Nat) :
      ImplTokens moduleIdentity method registry calls
        (Token.mapLines (· + head) implHeadTokens ++ (Token.mapLines (· + type) registry ++
          [.group .brace
            (methodTokens moduleIdentity line lines receiverTokens ++
              [.group .brace body bodyOpen bodyClose])
            «open» close]))

theorem reads_method (moduleIdentity : String) {text : String} {tokens : List Token} {d : Char}
    (htokens : tokenize text.toList = .ok tokens) (hstart : text.toList.head? = some '(')
    (hclosed : ClosesComments text.toList) (hd : d ∈ stops) (hpunct : isPunctuation d = false)
    (hline : 1 ≤ line) (rest : List Char) :
    ∃ line' lines, line ≤ line' ∧
      Reads line ("fn ".toList ++ ((methodName moduleIdentity).toList ++ (text.toList ++ d :: rest)))
        line' (d :: rest) (methodTokens moduleIdentity line lines tokens) := by
  have hmark : text.toList.head? ≠ some byteOrderMark := by
    rw [hstart]
    decide
  obtain ⟨line', hle, hreceiver⟩ :=
    reads_of_tokenize_before htokens hmark hclosed hd (.inl hpunct) hline rest
  have hparen : EndsName (text.toList ++ d :: rest) := by
    obtain ⟨after, hcons⟩ := List.head?_eq_some_iff.1 hstart
    rw [hcons]
    exact endsName_cons (by decide +kernel) (by decide) _
  have hfn : Reads line ("fn".toList ++ ' ' :: ((methodName moduleIdentity).toList ++
      (text.toList ++ d :: rest))) line (' ' :: ((methodName moduleIdentity).toList ++
        (text.toList ++ d :: rest))) [.ident fnIdent line] :=
    .word fnIdent.isIdentifier (endsName_cons (by decide +kernel) (by decide) _) line
  have hname : Reads line ((methodName moduleIdentity).toList ++ (text.toList ++ d :: rest))
      line (text.toList ++ d :: rest) [.ident (methodIdent moduleIdentity) line] :=
    .word _ hparen line
  exact ⟨line', line - 1, hle, .cons hfn (.blank (by decide) (.cons hname hreceiver))⟩

theorem reads_doc (line : Nat) (rest : List Char) :
    Reads line ("///".toList ++ (traitDoc.toList ++ '\n' :: rest)) (line + 1) rest
      (docAttribute false traitDoc.toList line) := by
  have hfeed : '\n' ∉ traitDoc.toList := by decide +kernel
  have htake : takeLine (traitDoc.toList ++ '\n' :: rest) = (traitDoc.toList, '\n' :: rest) := by
    have hline : takeLine (traitDoc.toList ++ ['\n']) = (traitDoc.toList, ['\n']) := by
      decide +kernel
    have hfeed : '\n' ∈ traitDoc.toList ++ ['\n'] := by simp
    have hall := takeLine_append hfeed rest
    rw [hline] at hall
    simpa using hall
  have hreturn : hasBareReturn traitDoc.toList = false := by decide +kernel
  have hcomment : comment? ("///".toList ++ (traitDoc.toList ++ '\n' :: rest)) =
      some (.doc false traitDoc.toList, '\n' :: rest) := by
    have hdoc : comment? ("///".toList ++ (traitDoc.toList ++ '\n' :: rest)) =
        docComment? false (some (takeLine (traitDoc.toList ++ '\n' :: rest))) := rfl
    rw [hdoc, htake, docComment?, hreturn]
    rfl
  have hline : lineAfter line ("///".toList ++ (traitDoc.toList ++ '\n' :: rest)) ('\n' :: rest) =
      line := by
    simp [lineAfter, List.count_eq_zero.2 hfeed]
  have hreads : Reads line ("///".toList ++ (traitDoc.toList ++ '\n' :: rest)) (line + 1) rest
      (docAttribute false traitDoc.toList line ++ []) := by
    refine .doc hcomment ?_
    rw [hline]
    exact .blank (by decide) (.refl _ _)
  simpa using hreads

/-- The text of a trait before the name of its method. -/
def traitBefore : String :=
  "/// Registers every recurring job declared in this crate.\n" ++ "pub trait " ++ extensionTrait ++
    " \x7b\n" ++ "    fn "

theorem traitBefore_eq :
    traitBefore = "///" ++ traitDoc ++ "\n" ++ traitHeadText ++ " \x7b\n    " ++ "fn " := by
  decide +kernel

theorem traitAfter_eq :
    "(&mut self) -> &mut Self;\n" ++ "\x7d\n\n" = declaredText ++ "\n\x7d\n\n" := by
  decide +kernel

theorem unitTrait_eq (moduleIdentity : String) :
    unitTrait moduleIdentity =
      traitBefore ++ methodName moduleIdentity ++ ("(&mut self) -> &mut Self;\n" ++ "\x7d\n\n") :=
  String.append_assoc

theorem toList_unitTrait (moduleIdentity : String) (rest : List Char) :
    (unitTrait moduleIdentity).toList ++ rest =
      "///".toList ++ (traitDoc.toList ++ '\n' :: (traitHeadText.toList ++ ' ' :: '\x7b' :: '\n' ::
        (List.replicate 4 ' ' ++ ("fn ".toList ++ ((methodName moduleIdentity).toList ++
          (declaredText.toList ++ '\n' :: '\x7d' :: '\n' :: '\n' :: rest)))))) := by
  rw [unitTrait_eq, traitBefore_eq, traitAfter_eq]
  simp only [String.toList_append, List.append_assoc]
  rfl

theorem reads_trait (moduleIdentity : String) (hline : 1 ≤ line) (rest : List Char) :
    ∃ line' tokens, line ≤ line' ∧ TraitTokens moduleIdentity tokens ∧
      Reads line ((unitTrait moduleIdentity).toList ++ rest) line' rest tokens := by
  rw [toList_unitTrait]
  generalize hbody : "fn ".toList ++ ((methodName moduleIdentity).toList ++
    (declaredText.toList ++ '\n' :: '\x7d' :: '\n' :: '\n' :: rest)) = body
  obtain ⟨head, hhead, hheadReads⟩ := reads_of_tokenize_before tokenize_traitHeadText
    (by decide +kernel) (by decide +kernel) (d := ' ') (by decide) (.inl (by decide))
    (Nat.le_succ_of_le hline) ('\x7b' :: '\n' :: (List.replicate 4 ' ' ++ body))
  obtain ⟨close, lines, hclose, hmethod⟩ := reads_method moduleIdentity tokenize_declaredText
    (by decide +kernel) (by decide +kernel) (d := '\n') (by decide) (by decide)
    (Nat.le_add_left 1 head) ('\x7d' :: '\n' :: '\n' :: rest)
  rw [hbody] at hmethod
  have hend : Reads close ('\n' :: '\x7d' :: '\n' :: '\n' :: rest) (close + 1)
      ('\x7d' :: '\n' :: '\n' :: rest) [] := .blank (by decide) (.refl _ _)
  have hinside := hmethod.trans hend
  rw [List.append_nil] at hinside
  have hbrace : Reads head ('\x7b' :: '\n' :: (List.replicate 4 ' ' ++ body)) (close + 1 + 1 + 1) rest
      [.group .brace _ head (close + 1)] :=
    .group rfl (by decide) (.blank (by decide) (.spaces 4 hinside)) (by decide)
      (.blank (by decide) (.blank (by decide) (.refl _ _)))
  exact ⟨_, _, by omega, .intro line _ head (head + 1) lines (close + 1),
    (reads_doc line _).trans (hheadReads.trans (.blank (by decide) hbrace))⟩

/-- The text of an implementation before the registry. -/
def implBefore : String :=
  "impl " ++ extensionTrait ++ " for "

/-- The text of an implementation behind the name of its method. -/
def implMethod : String :=
  "(&mut self) -> &mut Self \x7b\n"

/-- The text of an implementation behind its calls. -/
def implEnd : String :=
  "        self\n    \x7d\n\x7d\n"

theorem implBefore_eq : implBefore = implHeadText ++ " " := by
  decide +kernel

theorem implMethod_eq : implMethod = receiverText ++ " \x7b\n" := by
  decide +kernel

theorem implEnd_eq : implEnd = "        self\n    " ++ "\x7d\n\x7d\n" := by
  decide +kernel

theorem unitImpl_eq (settings : Settings) (moduleIdentity : String) (jobs : List Job) :
    unitImpl settings moduleIdentity jobs =
      implBefore ++ settings.registry ++ " \x7b\n" ++ "    fn " ++ methodName moduleIdentity ++
        implMethod ++ String.join (jobs.map fun job =>
          "        " ++ registration settings moduleIdentity job ++ "\n") ++ implEnd := rfl

theorem toList_unitImpl (settings : Settings) (moduleIdentity : String) (jobs : List Job) :
    (unitImpl settings moduleIdentity jobs).toList =
      implHeadText.toList ++ ' ' :: (settings.registry.toList ++ ' ' :: '\x7b' :: '\n' ::
        (List.replicate 4 ' ' ++ ("fn ".toList ++ ((methodName moduleIdentity).toList ++
          (receiverText.toList ++ ' ' :: '\x7b' :: '\n' ::
            ((String.join (jobs.map fun job =>
              "        " ++ registration settings moduleIdentity job ++ "\n")).toList ++
              "        self\n    ".toList ++ '\x7d' :: '\n' :: '\x7d' :: '\n' :: [])))))) := by
  rw [unitImpl_eq, implBefore_eq, implMethod_eq, implEnd_eq]
  simp only [String.toList_append, List.append_assoc]
  rfl

/-- Names whose text stays where it is put: none starts with a byte order mark, ends in a line comment
    or ends the comment that it is put into. -/
structure Settings.Contained (settings : Settings) : Prop where
  jobTrait : '\n' ∉ settings.jobTrait.toList
  registryMark : settings.registry.toList.head? ≠ some byteOrderMark
  registry : ClosesComments settings.registry.toList
  methodMark : settings.calledMethod.toList.head? ≠ some byteOrderMark
  method : ClosesComments settings.calledMethod.toList

variable {settings : Settings} {moduleIdentity : String} {jobs : List Job} {method : Ident}
  {nameLine : Nat} {registry : List Token}

theorem reads_impl (hcontained : settings.Contained)
    (hregistry : tokenize settings.registry.toList = .ok registry)
    (hmethod : tokenize settings.calledMethod.toList = .ok [.ident method nameLine])
    (hnames : ∀ job ∈ jobs, ∀ segment ∈ segmentsBelow moduleIdentity job.typePath,
      IsIdentifier segment ∧ segment ∉ unraw) (hline : 1 ≤ line) :
    ∃ line' tokens,
      ImplTokens moduleIdentity method registry (jobs.map settings.callArguments) tokens ∧
        Reads line (unitImpl settings moduleIdentity jobs).toList line' [] tokens := by
  rw [toList_unitImpl]
  generalize hbody : (String.join (jobs.map fun job =>
    "        " ++ registration settings moduleIdentity job ++ "\n")).toList ++
      "        self\n    ".toList ++ '\x7d' :: '\n' :: '\x7d' :: '\n' :: [] = body
  generalize hafter : "fn ".toList ++ ((methodName moduleIdentity).toList ++
    (receiverText.toList ++ ' ' :: '\x7b' :: '\n' :: body)) = after
  obtain ⟨head, hhead, hheadReads⟩ := reads_of_tokenize_before tokenize_implHeadText
    (by decide +kernel) (by decide +kernel) (d := ' ') (by decide) (.inl (by decide)) hline
    (settings.registry.toList ++ ' ' :: '\x7b' :: '\n' :: (List.replicate 4 ' ' ++ after))
  have hline : 1 ≤ head := by omega
  obtain ⟨type, htype, htypeReads⟩ := reads_of_tokenize_before hregistry hcontained.registryMark
    hcontained.registry (d := ' ') (by decide) (.inl (by decide)) hline
    ('\x7b' :: '\n' :: (List.replicate 4 ' ' ++ after))
  obtain ⟨«open», lines, hopen, hmethodReads⟩ := reads_method moduleIdentity tokenize_receiverText
    (by decide +kernel) (by decide +kernel) (d := ' ') (by decide) (by decide)
    (Nat.le_add_left 1 type) ('\x7b' :: '\n' :: body)
  rw [hafter] at hmethodReads
  obtain ⟨last, tokens, hbodyTokens, hbodyReads⟩ := reads_body hmethod hcontained.methodMark
    hcontained.method hnames (Nat.le_add_left 1 «open») ['\n', '\x7d', '\n']
  rw [hbody] at hbodyReads
  have hinner : Reads «open» ('\x7b' :: '\n' :: body) (last + 1) ['\x7d', '\n']
      [.group .brace tokens «open» last] :=
    .group rfl (by decide) (.blank (by decide) hbodyReads) (by decide)
      (.blank (by decide) (.refl _ _))
  have houter : Reads type ('\x7b' :: '\n' :: (List.replicate 4 ' ' ++ after)) (last + 1 + 1) []
      [.group .brace (methodTokens moduleIdentity (type + 1) lines receiverTokens ++
        [.group .brace tokens «open» last]) type (last + 1)] :=
    .group rfl (by decide)
      (.blank (by decide) (.spaces 4 (hmethodReads.trans (.blank (by decide) hinner))))
      (by decide) (.blank (by decide) (.refl _ _))
  exact ⟨_, _, .intro hbodyTokens _ _ type (type + 1) lines «open» last (last + 1),
    hheadReads.trans (.blank (by decide) (htypeReads.trans (.blank (by decide) houter)))⟩

/-! ## The comment at the top -/

/-- The first line of a unit. -/
def headingMark : String := "// <auto-generated/>\n"

/-- The second line of a unit up to the name of the crate. -/
def headingCrate : String := "// Recurring job registrations for crate `"

/-- The third line of a unit. -/
def headingNote : String := "// Produced by jobgen; edits are overwritten on the next build.\n"

/-- The fourth line of a unit up to the trait of the jobs. -/
def headingTrait : String := "// Every registered type must implement `"

theorem headingMark_eq : headingMark = "// <auto-generated/>" ++ "\n" := by
  decide +kernel

theorem headingNote_eq :
    headingNote = "// Produced by jobgen; edits are overwritten on the next build." ++ "\n" := by
  decide +kernel

theorem unitHeading_eq (settings : Settings) (moduleIdentity : String) :
    unitHeading settings moduleIdentity =
      headingMark ++ headingCrate ++ moduleIdentity ++ "`.\n" ++ headingNote ++ headingTrait ++
        settings.jobTrait ++ "`.\n\n" := rfl

/-- A text that starts a line comment and does not end it. -/
def LeadsComment (lead : String) : Prop :=
  lead.toList = '/' :: '/' :: ' ' :: lead.toList.drop 3 ∧ '\n' ∉ lead.toList.drop 3

instance : DecidablePred LeadsComment :=
  fun lead => inferInstanceAs (Decidable (lead.toList = '/' :: '/' :: ' ' :: lead.toList.drop 3 ∧
    '\n' ∉ lead.toList.drop 3))

theorem reads_comment {lead : String} (hlead : LeadsComment lead) {text : List Char}
    (htext : '\n' ∉ text) (line : Nat) (rest : List Char) :
    Reads line (lead.toList ++ (text ++ '\n' :: rest)) (line + 1) rest [] := by
  obtain ⟨hslashes, hfeed⟩ := hlead
  have hall : '\n' ∉ lead.toList.drop 3 ++ text := by
    rw [List.mem_append, not_or]
    exact ⟨hfeed, htext⟩
  have hreads := Reads.lineComment hall line rest
  rw [hslashes]
  simpa using hreads

theorem reads_heading (hcontained : settings.Contained) (hidentity : IsIdentifier moduleIdentity)
    (line : Nat) (rest : List Char) :
    Reads line ((unitHeading settings moduleIdentity).toList ++ rest) (line + 5) rest [] := by
  have hfeed : isIdentContinue '\n' = false := by decide +kernel
  have hname : '\n' ∉ moduleIdentity.toList ++ ['`', '.'] := by
    have hnot : '\n' ∉ moduleIdentity.toList := fun hmem => by
      rw [hidentity.isIdentContinue _ hmem] at hfeed
      cases hfeed
    simp [hnot]
  have htrait : '\n' ∉ settings.jobTrait.toList ++ ['`', '.'] := by
    simp [hcontained.jobTrait]
  have hleadMark : LeadsComment "// <auto-generated/>" := by decide +kernel
  have hleadCrate : LeadsComment headingCrate := by decide +kernel
  have hleadNote : LeadsComment "// Produced by jobgen; edits are overwritten on the next build." := by
    decide +kernel
  have hleadTrait : LeadsComment headingTrait := by decide +kernel
  have hmark := reads_comment hleadMark List.not_mem_nil line
  have hcrate := reads_comment hleadCrate hname (line + 1)
  have hnote := reads_comment hleadNote List.not_mem_nil (line + 2)
  have hjob := reads_comment hleadTrait htrait (line + 3)
  have hblank : Reads (line + 4) ('\n' :: rest) (line + 5) rest [] :=
    .blank (by decide) (.refl _ _)
  have hall := (hmark _).trans ((hcrate _).trans ((hnote _).trans ((hjob _).trans hblank)))
  rw [unitHeading_eq, headingMark_eq, headingNote_eq]
  simp only [String.toList_append, List.append_assoc]
  simpa using hall

/-! ## Whole units -/

theorem exists_slash_of_render (settings : Settings) (moduleIdentity : String) (jobs : List Job) :
    ∃ after, (render settings moduleIdentity jobs).text.toList = '/' :: after := by
  have hmark : headingMark.toList = '/' :: headingMark.toList.drop 1 := by decide +kernel
  rw [render, unitHeading_eq]
  simp only [String.toList_append, List.append_assoc]
  rw [hmark, List.cons_append]
  exact ⟨_, rfl⟩

theorem tokenize_render (hcontained : settings.Contained) (hidentity : IsIdentifier moduleIdentity)
    (hregistry : tokenize settings.registry.toList = .ok registry)
    (hmethod : tokenize settings.calledMethod.toList = .ok [.ident method nameLine])
    (hnames : ∀ job ∈ jobs, ∀ segment ∈ segmentsBelow moduleIdentity job.typePath,
      IsIdentifier segment ∧ segment ∉ unraw) :
    ∃ tokens more, TraitTokens moduleIdentity tokens ∧
      ImplTokens moduleIdentity method registry (jobs.map settings.callArguments) more ∧
        tokenize (render settings moduleIdentity jobs).text.toList = .ok (tokens ++ more) := by
  obtain ⟨middle, tokens, hle, htrait, htraitReads⟩ := reads_trait moduleIdentity
    (Nat.le_add_left 1 5) (unitImpl settings moduleIdentity jobs).toList
  obtain ⟨last, more, himpl, himplReads⟩ :=
    reads_impl hcontained hregistry hmethod hnames (Nat.le_trans (by omega : 1 ≤ 1 + 5) hle)
  refine ⟨tokens, more, htrait, himpl, tokenize_eq_ok_iff.2 ⟨last, ?_⟩⟩
  have hmark : dropByteOrderMark (render settings moduleIdentity jobs).text.toList =
      (render settings moduleIdentity jobs).text.toList := by
    obtain ⟨after, hslash⟩ := exists_slash_of_render settings moduleIdentity jobs
    have hne : some '/' ≠ some byteOrderMark := by decide
    rw [hslash]
    exact if_neg hne
  rw [hmark, render]
  simp only [String.toList_append, List.append_assoc]
  exact (reads_heading hcontained hidentity 1 _).trans (htraitReads.trans himplReads)

end JobRoster
