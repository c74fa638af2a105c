import JobRoster.Proofs.Syntax.Lines
import JobRoster.Proofs.Syntax.SingleTokens

/-!
# A text inside another

A text that is put into a larger one has the tokens there that it has alone, on other lines. What
follows it must end its last token, and a line comment in it must end inside it.
-/

namespace JobRoster.Syntax

open JobRoster.Text

namespace Lexer

variable {cs rest more : List Char} {d : Char}

/-! ## Comments -/

/-- Whether a line feed follows every pair of slashes, so that no line comment runs on behind the
    text. -/
def ClosesComments (cs : List Char) : Prop :=
  ∀ tail ∈ cs.tails, ['/', '/'] <+: tail → '\n' ∈ tail

instance : DecidablePred ClosesComments :=
  fun cs => inferInstanceAs (Decidable (∀ tail ∈ cs.tails, ['/', '/'] <+: tail → '\n' ∈ tail))

theorem ClosesComments.suffix (h : ClosesComments cs) (hsuffix : rest <:+ cs) :
    ClosesComments rest := by
  intro tail htail
  apply h
  exact (List.mem_tails _ _).2 (((List.mem_tails _ _).1 htail).trans hsuffix)

theorem ClosesComments.mem (h : ClosesComments ('/' :: '/' :: cs)) : '\n' ∈ cs := by
  have hmem : '\n' ∈ '/' :: '/' :: cs :=
    h _ ((List.mem_tails _ _).2 (List.suffix_refl _)) ⟨cs, rfl⟩
  simpa using hmem

theorem takeLine_cons {c : Char} (hc : c ≠ '\n')
    (hreturn : ∀ after, c = '\r' → cs ≠ '\n' :: after) :
    takeLine (c :: cs) = (c :: (takeLine cs).1, (takeLine cs).2) := by
  conv_lhs => unfold takeLine
  split <;> simp_all

theorem takeLine_append (h : '\n' ∈ cs) (more : List Char) :
    takeLine (cs ++ more) = ((takeLine cs).1, (takeLine cs).2 ++ more) := by
  fun_induction takeLine cs with
  | case1 => cases h
  | case2 cs => rfl
  | case3 cs => rfl
  | case4 c cs hfeed hreturn text rest hline ih =>
    have hc : c ≠ '\n' := hfeed
    have hmem : '\n' ∈ cs := by simpa [hc.symm] using h
    have hnot : ∀ after, c = '\r' → cs ++ more ≠ '\n' :: after := by
      intro after hc heq
      cases cs with
      | nil => cases hmem
      | cons c' cs => exact hreturn cs hc ((List.cons.inj heq).1 ▸ rfl)
    rw [List.cons_append, takeLine_cons hc hnot, ih hmem, hline]

theorem blockCommentEnd?_append {depth : Nat} (h : blockCommentEnd? depth cs = some rest)
    (more : List Char) : blockCommentEnd? depth (cs ++ more) = some (rest ++ more) := by
  fun_induction blockCommentEnd? depth cs with
  | case1 depth cs ih => exact ih h
  | case2 depth cs hdepth =>
    obtain rfl := Option.some.inj h
    simp [blockCommentEnd?, hdepth]
  | case3 depth cs hdepth ih => simpa [blockCommentEnd?, hdepth] using ih h
  | case4 depth c cs hopen hclose ih =>
    cases cs with
    | nil => cases h
    | cons c' cs =>
      have hopen : ∀ after, c = '/' → c' :: (cs ++ more) ≠ '*' :: after :=
        fun after hc heq => hopen cs hc ((List.cons.inj heq).1 ▸ rfl)
      have hclose : ∀ after, c = '*' → c' :: (cs ++ more) ≠ '/' :: after :=
        fun after hc heq => hclose cs hc ((List.cons.inj heq).1 ▸ rfl)
      simpa [blockCommentEnd?, hopen, hclose] using ih h
  | case5 => cases h

theorem blockComment?_append {text : List Char} (h : blockComment? cs = some (text, rest))
    (more : List Char) : blockComment? (cs ++ more) = some (text, rest ++ more) := by
  obtain ⟨after, hafter, heq⟩ := Option.map_eq_some_iff.1 h
  obtain ⟨rfl, rfl⟩ := Prod.mk.inj heq
  obtain ⟨taken, htaken⟩ := (leaves_of_blockCommentEnd? hafter).suffix
  have hwhole : ∀ rest : List Char, (taken ++ rest).take ((taken ++ rest).length - rest.length) =
      taken := by
    intro rest
    rw [List.length_append, Nat.add_sub_cancel, List.take_left]
  have hmore := blockCommentEnd?_append hafter more
  rw [← htaken, List.append_assoc] at hmore
  rw [← htaken, List.append_assoc]
  simp only [blockComment?, hmore, Option.map_some, hwhole]

theorem docComment?_append {inner : Bool} {read read' : Option (List Char × List Char)}
    {comment : Comment}
    (hread : ∀ text after, read = some (text, after) → read' = some (text, after ++ more))
    (h : docComment? inner read = some (comment, rest)) :
    docComment? inner read' = some (comment, rest ++ more) := by
  unfold docComment? at h
  split at h
  next text after =>
    rw [hread text after rfl]
    split at h
    · cases h
    next hreturn =>
      obtain ⟨rfl, rfl⟩ := Prod.mk.inj (Option.some.inj h)
      simp [docComment?, hreturn]
  next => cases h

theorem docLine_append {inner : Bool} {comment : Comment} (hfeed : '\n' ∈ cs)
    (h : docComment? inner (some (takeLine cs)) = some (comment, rest)) (more : List Char) :
    docComment? inner (some (takeLine (cs ++ more))) = some (comment, rest ++ more) := by
  refine docComment?_append (fun text after hread => ?_) h
  rw [takeLine_append hfeed, Option.some.inj hread]

theorem docBlock_append {inner : Bool} {comment : Comment}
    (h : docComment? inner (blockComment? cs) = some (comment, rest)) (more : List Char) :
    docComment? inner (blockComment? (cs ++ more)) = some (comment, rest ++ more) :=
  docComment?_append (fun _ _ hread => blockComment?_append hread more) h

theorem plainBlock_append {comment : Comment}
    (h : ((blockComment? cs).map fun body => (Comment.plain, body.2)) = some (comment, rest))
    (more : List Char) :
    ((blockComment? (cs ++ more)).map fun body => (Comment.plain, body.2)) =
      some (comment, rest ++ more) := by
  obtain ⟨⟨text, after⟩, hread, heq⟩ := Option.map_eq_some_iff.1 h
  obtain ⟨rfl, rfl⟩ := Prod.mk.inj heq
  rw [blockComment?_append hread]
  rfl

theorem comment?_append {comment : Comment} (h : comment? cs = some (comment, rest))
    (hclosed : ClosesComments cs) (more : List Char) :
    comment? (cs ++ more) = some (comment, rest ++ more) := by
  unfold comment? at h
  split at h
  next after =>
    have hfeed : '\n' ∈ after := by simpa using hclosed.mem
    obtain ⟨rfl, rfl⟩ := Prod.mk.inj (Option.some.inj h)
    simp [comment?, takeLine_append hfeed]
  next after hslash =>
    have hfeed : '\n' ∈ after := by simpa using hclosed.mem
    cases after with
    | nil => cases hfeed
    | cons c after =>
      have hc : c ≠ '/' := fun heq => hslash after (heq ▸ rfl)
      simpa [comment?, hc] using docLine_append hfeed h more
  next after =>
    have hfeed : '\n' ∈ after := by simpa using hclosed.mem
    simpa [comment?] using docLine_append hfeed h more
  case h_4 after _ hslash hmark =>
    have hfeed : '\n' ∈ after := hclosed.mem
    have htake := takeLine_append hfeed more
    obtain ⟨rfl, rfl⟩ := Prod.mk.inj (Option.some.inj h)
    cases after with
    | nil => cases hfeed
    | cons c after =>
      have hc : c ≠ '/' := fun heq => hslash after (heq ▸ rfl)
      have hc' : c ≠ '!' := fun heq => hmark after (heq ▸ rfl)
      rw [List.cons_append] at htake
      simp [comment?, hc, hc', htake]
  next after =>
    obtain ⟨rfl, rfl⟩ := Prod.mk.inj (Option.some.inj h)
    rfl
  next after => exact plainBlock_append h more
  case h_7 after hslash hstar =>
    cases after with
    | nil => cases h
    | cons c after =>
      have hc : c ≠ '/' := fun heq => hslash after (heq ▸ rfl)
      have hc' : c ≠ '*' := fun heq => hstar after (heq ▸ rfl)
      simpa [comment?, hc, hc'] using docBlock_append h more
  next after => exact docBlock_append h more
  case h_9 after hdoc hstar hslash hmark =>
    cases after with
    | nil => cases h
    | cons c after =>
      have hc : c ≠ '*' := fun heq => hslash after (heq ▸ rfl)
      have hc' : c ≠ '!' := fun heq => hmark after (heq ▸ rfl)
      simpa [comment?, hc, hc'] using plainBlock_append h more
  next => cases h

theorem comment?_slash {c : Char} (hslash : c ≠ '/') (hstar : c ≠ '*') (cs : List Char) :
    comment? ('/' :: c :: cs) = none := by
  simp [comment?, hslash, hstar]

/-- A token that starts with a slash is that slash alone. -/
theorem ne_of_leaf?_slash {c : Char} {leaf : Leaf}
    (h : leaf? ('/' :: c :: cs) = some (leaf, rest)) : c ≠ '/' ∧ c ≠ '*' := by
  have hliteral : literal? ('/' :: c :: cs) = none :=
    literal?_eq_none_of_isPunctuation (by decide) (by decide +kernel) _
  have hleads : literalLeads.any (·.isPrefixOf ('/' :: c :: cs)) = false := by
    simp [literalLeads, List.isPrefixOf]
  have hident : identifier? ('/' :: c :: cs) = none := identifier?_eq_none (by decide) _
  have herror : expansionError.isPrefixOf? ('/' :: c :: cs) = none := by
    have hparen : expansionError = '(' :: expansionError.tail := by decide
    rw [hparen]
    simp [List.isPrefixOf?]
  by_contra hnot
  have hcomment : c = '/' ∨ c = '*' := by
    by_contra hneither
    exact hnot (not_or.1 hneither)
  have hstarts : startsPunctuation ('/' :: c :: cs) = false := by
    rw [startsPunctuation_cons_cons, if_pos ⟨rfl, hcomment⟩]
  have hpunct : punct? ('/' :: c :: cs) = none := by
    rw [punct?_of_ne (by decide), hstarts]
    rfl
  simp [leaf?, hliteral, hpunct, hleads, hident, herror] at h

/-- What is a token on its own does not become a comment. -/
theorem comment?_append_eq_none {c : Char} {leaf : Leaf} (hd : d ∈ stops)
    (h : leaf? (c :: cs) = some (leaf, rest)) (more : List Char) :
    comment? (c :: cs ++ d :: more) = none := by
  by_cases hc : c = '/'
  · subst hc
    cases cs with
    | nil =>
      have hall : ∀ d ∈ stops, d ≠ '/' ∧ d ≠ '*' :=
        List.all_iff_forall_prop.1 (by decide)
      exact comment?_slash (hall d hd).1 (hall d hd).2 more
    | cons c cs =>
      obtain ⟨hslash, hstar⟩ := ne_of_leaf?_slash h
      exact comment?_slash hslash hstar _
  · exact comment?_cons_of_ne hc _

/-! ## Whole texts -/

variable {line line' : Nat} {tokens : List Token}

theorem lineAfter_append (lines : Nat) (cs rest more : List Char) :
    lineAfter (line + lines) (cs ++ more) (rest ++ more) = lineAfter line cs rest + lines := by
  simp only [lineAfter, List.count_append]
  omega

theorem Leaf.lineAfter_append (lines : Nat) (cs rest more : List Char) (leaf : Leaf) :
    leaf.lineAfter (line + lines) (cs ++ more) (rest ++ more) =
      leaf.lineAfter line cs rest + lines := by
  cases leaf with
  | literal value => exact Lexer.lineAfter_append lines cs rest more
  | punct c joint => rfl
  | ident ident => rfl

theorem Leaf.token_add (lines : Nat) (leaf : Leaf) :
    leaf.token (line + lines) = (leaf.token line).mapLine (· + lines) := by
  cases leaf <;> rfl

theorem docAttribute_add (lines : Nat) (inner : Bool) (text : List Char) :
    docAttribute inner text (line + lines) = Token.mapLines (· + lines) (docAttribute inner text line) := by
  cases inner <;> rfl

theorem Reads.suffix (h : Reads line cs line' rest tokens) : rest <:+ cs := by
  induction h with
  | refl line cs => exact List.suffix_refl cs
  | blank _ _ ih => exact suffix_cons_of_suffix ih
  | comment hcomment _ ih => exact ih.trans (shortens_comment? _ _ _ hcomment).suffix
  | doc hcomment _ ih => exact ih.trans (shortens_comment? _ _ _ hcomment).suffix
  | group _ _ _ _ _ ihinside ihafter =>
    exact suffix_cons_of_suffix ((suffix_cons_of_suffix ihafter).trans ihinside)
  | leaf _ _ _ _ hleaf _ ih => exact ih.trans (shortens_leaf? _ _ _ hleaf).suffix

/-- What is read from a text is read from it, further down, where the text is followed by a stop. A
    colon would be joined to punctuation, so before it stand names only. -/
theorem Reads.append_stop (h : Reads line cs line' rest tokens) (hd : d ∈ stops)
    (hclosed : ClosesComments cs)
    (hend : isPunctuation d = false ∨ ∀ token ∈ tokens, ∃ ident line, token = .ident ident line)
    (lines : Nat) (more : List Char) :
    Reads (line + lines) (cs ++ d :: more) (line' + lines) (rest ++ d :: more)
      (Token.mapLines (· + lines) tokens) := by
  have hstops : ∀ d ∈ stops, d ∉ expansionError :=
    List.all_iff_forall_prop.1 (by decide +kernel)
  induction h with
  | refl line cs => exact .refl _ _
  | @blank line line' c cs rest tokens hblank _ ih =>
    refine .blank hblank ?_
    have hline : (if c = '\n' then line + lines + 1 else line + lines) =
        (if c = '\n' then line + 1 else line) + lines := by
      split <;> omega
    rw [hline]
    exact ih (hclosed.suffix (List.suffix_cons c cs)) hend
  | @comment line line' cs cs' rest tokens hcomment _ ih =>
    refine .comment (comment?_append hcomment hclosed _) ?_
    rw [lineAfter_append]
    exact ih (hclosed.suffix (shortens_comment? _ _ _ hcomment).suffix) hend
  | @doc line line' cs cs' rest text inner tokens hcomment _ ih =>
    rw [Token.mapLines_append, ← docAttribute_add]
    refine .doc (comment?_append hcomment hclosed _) ?_
    rw [lineAfter_append]
    refine ih (hclosed.suffix (shortens_comment? _ _ _ hcomment).suffix) ?_
    exact hend.imp_right fun hall token htoken => hall token (List.mem_append_right _ htoken)
  | @group line close line' opening closing cs cs' rest delimiter content tokens hstart hopen hinside
      hclose _ ihinside ihafter =>
    have hnames : isPunctuation d = false := by
      refine hend.resolve_right fun hall => ?_
      obtain ⟨ident, line, htoken⟩ := hall _ List.mem_cons_self
      cases htoken
    have hstart' : expansionError.isPrefixOf (opening :: cs ++ d :: more) = false := by
      rw [isPrefixOf_append_stop (hstops d hd), hstart]
    have hclosed : ClosesComments cs := hclosed.suffix (List.suffix_cons opening cs)
    have hafter : ClosesComments cs' :=
      hclosed.suffix ((List.suffix_cons closing cs').trans hinside.suffix)
    exact .group hstart' hopen (ihinside hclosed (.inl hnames)) hclose (ihafter hafter (.inl hnames))
  | @leaf line line' c cs cs' rest leaf tokens hblank hcomment hopen hclose hleaf _ ih =>
    have hpunct : cs' = [] → isPunctuation d = true → ∀ c joint, leaf ≠ .punct c joint := by
      rintro - hpunctuation c joint rfl
      obtain hnot | hall := hend
      · rw [hpunctuation] at hnot
        cases hnot
      · obtain ⟨ident, line, htoken⟩ := hall _ List.mem_cons_self
        cases htoken
    have hopen' : (if expansionError.isPrefixOf (c :: cs ++ d :: more) then none else opens? c) =
        none := by
      rw [isPrefixOf_append_stop (hstops d hd)]
      exact hopen
    have hafter : Reads (leaf.lineAfter (line + lines) (c :: cs ++ d :: more) (cs' ++ d :: more))
        (cs' ++ d :: more) (line' + lines) (rest ++ d :: more) (Token.mapLines (· + lines) tokens) := by
      rw [Leaf.lineAfter_append]
      refine ih (hclosed.suffix (shortens_leaf? _ _ _ hleaf).suffix) ?_
      exact hend.imp_right fun hall token htoken => hall token (List.mem_cons_of_mem _ htoken)
    rw [Token.mapLines_cons, ← Leaf.token_add]
    exact .leaf hblank (comment?_append_eq_none hd hleaf more) hopen' hclose
      (leaf?_append hd hleaf hpunct more) hafter

theorem Reads.le (h : Reads line cs line' rest tokens) :
    line ≤ line' := by
  induction h with
  | refl => exact Nat.le_refl _
  | blank _ _ ih =>
    refine Nat.le_trans ?_ ih
    split <;> omega
  | comment _ _ ih => exact Nat.le_trans (Nat.le_add_right _ _) ih
  | doc _ _ ih => exact Nat.le_trans (Nat.le_add_right _ _) ih
  | group _ _ _ _ _ ihinside ihafter => exact Nat.le_trans ihinside ihafter
  | @leaf _ _ _ _ _ _ leaf _ _ _ _ _ _ _ ih =>
    refine Nat.le_trans ?_ ih
    cases leaf with
    | literal value => exact Nat.le_add_right _ _
    | punct c joint => exact Nat.le_refl _
    | ident ident => exact Nat.le_refl _

theorem Reads.cons {token : Token} {cs' rest' : List Char} {middle : Nat} {line'' : Nat}
    (h : Reads line cs middle cs' [token]) (h' : Reads middle cs' line'' rest' tokens) :
    Reads line cs line'' rest' (token :: tokens) :=
  h.trans h'

/-- The tokens of a text are read from it where it stands in another, before a stop. -/
theorem reads_of_tokenize_before (h : tokenize cs = .ok tokens) (hmark : cs.head? ≠ some byteOrderMark)
    (hclosed : ClosesComments cs) (hd : d ∈ stops)
    (hend : isPunctuation d = false ∨ ∀ token ∈ tokens, ∃ ident line, token = .ident ident line)
    (hline : 1 ≤ line) (rest : List Char) :
    ∃ line', line ≤ line' ∧
      Reads line (cs ++ d :: rest) line' (d :: rest) (Token.mapLines (· + (line - 1)) tokens) := by
  obtain ⟨last, hreads⟩ := reads_of_tokenize h
  have hdrop : dropByteOrderMark cs = cs := if_neg hmark
  rw [hdrop] at hreads
  have hmoved := hreads.append_stop hd hclosed hend (line - 1) rest
  rw [Nat.add_sub_cancel' hline] at hmoved
  exact ⟨_, Reads.le hmoved, hmoved⟩

end Lexer

end JobRoster.Syntax
