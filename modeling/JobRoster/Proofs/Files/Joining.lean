import Mathlib.Data.List.Induction
import JobRoster.Files.FilePath

/-!
# Building paths

A name put below a directory is one component more. The directory that a path is in, and the path
without its extension, give back what was joined: both lead to the directory of a module's own
modules, whatever text the first directory was given as.
-/

namespace JobRoster.Files

variable {cs ds : List Char}

/-! ## Pieces -/

theorem splitSlashes_of_not_mem (h : '/' ∉ cs) : splitSlashes cs = [cs] := by
  fun_induction splitSlashes cs with
  | case1 => rfl
  | case2 cs ih => simp at h
  | case3 c cs _ hnil ih => exact absurd hnil (splitSlashes_ne_nil cs)
  | case4 c cs _ piece pieces hsplit ih =>
    rw [hsplit] at ih
    obtain ⟨rfl, rfl⟩ : piece = cs ∧ pieces = [] := by
      simpa using ih fun hmem => h (List.mem_cons_of_mem c hmem)
    rfl

/-- A slash separates what is before it from what is behind it. -/
theorem splitSlashes_append (cs ds : List Char) :
    splitSlashes (cs ++ '/' :: ds) = splitSlashes cs ++ splitSlashes ds := by
  fun_induction splitSlashes cs with
  | case1 => rfl
  | case2 cs ih => rw [List.cons_append, splitSlashes, ih]; rfl
  | case3 c cs _ hnil ih => exact absurd hnil (splitSlashes_ne_nil cs)
  | case4 c cs hc piece pieces hsplit ih =>
    rw [hsplit] at ih
    rw [List.cons_append, splitSlashes.eq_3 c _ hc, ih]
    rfl

theorem not_mem_of_mem_splitSlashes : ∀ piece ∈ splitSlashes cs, '/' ∉ piece := by
  fun_induction splitSlashes cs with
  | case1 => simp
  | case2 cs ih => exact List.forall_mem_cons.2 ⟨List.not_mem_nil, ih⟩
  | case3 c cs _ hnil ih => exact absurd hnil (splitSlashes_ne_nil cs)
  | case4 c cs hc piece pieces hsplit ih =>
    rw [hsplit, List.forall_mem_cons] at ih
    refine List.forall_mem_cons.2 ⟨fun hmem => ?_, ih.2⟩
    obtain rfl | hmem := List.mem_cons.1 hmem
    · exact hc rfl
    · exact ih.1 hmem

theorem splitSlashes_joinSlashes {pieces : List (List Char)} (hne : pieces ≠ [])
    (h : ∀ piece ∈ pieces, '/' ∉ piece) : splitSlashes (joinSlashes pieces) = pieces := by
  induction pieces with
  | nil => exact absurd rfl hne
  | cons piece pieces ih =>
    obtain ⟨hpiece, hpieces⟩ := List.forall_mem_cons.1 h
    cases pieces with
    | nil => exact splitSlashes_of_not_mem hpiece
    | cons next pieces =>
      rw [joinSlashes, splitSlashes_append, splitSlashes_of_not_mem hpiece,
        ih (List.cons_ne_nil _ _) hpieces, List.singleton_append]
      exact List.cons_ne_nil _ _

theorem prefix_joinSlashes {pieces more : List (List Char)} (h : pieces <+: more) :
    joinSlashes pieces <+: joinSlashes more := by
  induction pieces generalizing more with
  | nil => exact List.nil_prefix
  | cons piece pieces ih =>
    obtain ⟨rest, rfl⟩ := h
    cases pieces with
    | nil =>
      cases rest with
      | nil => exact List.prefix_rfl
      | cons next rest => exact ⟨'/' :: joinSlashes (next :: rest), rfl⟩
    | cons next pieces =>
      obtain ⟨tail, htail⟩ := ih (List.prefix_append (next :: pieces) rest)
      refine ⟨tail, ?_⟩
      calc piece ++ '/' :: joinSlashes (next :: pieces) ++ tail
        _ = piece ++ '/' :: (joinSlashes (next :: pieces) ++ tail) := by
          rw [List.append_assoc, List.cons_append]
        _ = piece ++ '/' :: joinSlashes (next :: (pieces ++ rest)) := by rw [htail]; rfl

namespace FilePath

/-- A step below a directory: a name that is no dot and holds no slash. -/
structure IsStep (name : String) : Prop where
  slash : '/' ∉ name.toList
  start : ∃ c cs, name.toList = c :: cs ∧ c ≠ '.'

theorem IsStep.ne_nil {name : String} (h : IsStep name) : name.toList ≠ [] := by
  obtain ⟨c, cs, hname, -⟩ := h.start
  simp [hname]

theorem IsStep.ne_dot {name : String} (h : IsStep name) : name.toList ≠ ['.'] := by
  obtain ⟨c, cs, hname, hc⟩ := h.start
  simp [hname, hc]

theorem IsStep.not_isEmptyPiece {name : String} (h : IsStep name) :
    isEmptyPiece name.toList = false := by
  obtain ⟨c, cs, hname, hc⟩ := h.start
  simp [hname, isEmptyPiece, hc]

theorem dropEmptyPieces_append (pieces : List (List Char)) {piece : List Char}
    (h : isEmptyPiece piece = false) : dropEmptyPieces (pieces ++ [piece]) = pieces ++ [piece] := by
  simp [dropEmptyPieces, h]

theorem not_isEmptyPiece_of_getLast? {pieces : List (List Char)} :
    ∀ piece ∈ (dropEmptyPieces pieces).getLast?, isEmptyPiece piece = false := by
  intro piece hpiece
  rw [dropEmptyPieces, List.getLast?_reverse] at hpiece
  have hnot := List.head?_dropWhile_not isEmptyPiece pieces.reverse
  rw [Option.mem_def.1 hpiece] at hnot
  simpa using hnot

theorem prefix_dropEmptyPieces (pieces : List (List Char)) : dropEmptyPieces pieces <+: pieces := by
  have hsuffix := List.dropWhile_suffix isEmptyPiece (l := pieces.reverse)
  simpa [dropEmptyPieces] using List.reverse_prefix.2 hsuffix

/-- Pieces that are no step are not counted, wherever they stand. -/
theorem filter_dropEmptyPieces (pieces : List (List Char)) :
    (dropEmptyPieces pieces).filter (!isEmptyPiece ·) = pieces.filter (!isEmptyPiece ·) := by
  induction pieces using List.reverseRecOn with
  | nil => rfl
  | append_singleton pieces piece ih =>
    cases hpiece : isEmptyPiece piece with
    | false => rw [dropEmptyPieces_append pieces hpiece]
    | true =>
      have hdrop : dropEmptyPieces (pieces ++ [piece]) = dropEmptyPieces pieces := by
        simp [dropEmptyPieces, hpiece]
      rw [hdrop, ih, List.filter_append]
      simp [hpiece]

/-! ## The start of a text -/

theorem splitLead_join (cs : List Char) : (splitLead cs).1 ++ (splitLead cs).2 = cs := by
  unfold splitLead
  split <;> rfl

/-- A text that starts with none of the components that stand apart. -/
theorem splitLead_plain (hslash : cs.head? ≠ some '/') (hdot : cs ≠ ['.'])
    (hdots : ¬ ['.', '/'] <+: cs) : splitLead cs = ([], cs) := by
  refine splitLead.eq_4 cs ?_ hdot ?_
  · rintro rest rfl
    exact hslash rfl
  · rintro rest rfl
    exact hdots ⟨rest, rfl⟩

theorem splitLead_append (hne : cs ≠ []) (ds : List Char) :
    splitLead (cs ++ '/' :: ds) = ((splitLead cs).1, (splitLead cs).2 ++ '/' :: ds) := by
  fun_cases splitLead cs with
  | case1 cs => rfl
  | case2 => rfl
  | case3 cs => rfl
  | case4 cs hslash hdot hdots =>
    obtain ⟨c, cs, rfl⟩ := List.exists_cons_of_ne_nil hne
    refine splitLead_plain ?_ (by simp) ?_
    · rintro ⟨⟩
      exact hslash cs rfl
    · rintro ⟨rest, heq⟩
      obtain ⟨rfl, htail⟩ := List.cons.inj heq
      cases cs with
      | nil => exact hdot rfl
      | cons d cs =>
        obtain ⟨rfl, -⟩ := List.cons.inj htail
        exact hdots cs rfl

/-- The steps that are written between slashes. -/
def steps (cs : List Char) : List Component :=
  ((splitSlashes cs).filter fun piece => !isEmptyPiece piece).map pieceComponent

/-- The components of a text. -/
def componentsOf (cs : List Char) : List Component :=
  leadComponents (splitLead cs).1 ++ steps (splitLead cs).2

theorem components_eq (path : FilePath) : path.components = componentsOf path.text.toList :=
  rfl

@[simp] theorem steps_nil : steps [] = [] := rfl

theorem steps_append (cs ds : List Char) : steps (cs ++ '/' :: ds) = steps cs ++ steps ds := by
  rw [steps, splitSlashes_append, List.filter_append, List.map_append]
  rfl

theorem componentsOf_append (hne : cs ≠ []) (ds : List Char) :
    componentsOf (cs ++ '/' :: ds) = componentsOf cs ++ steps ds := by
  rw [componentsOf, splitLead_append hne, steps_append, ← List.append_assoc]
  rfl

theorem steps_joinSlashes {pieces : List (List Char)} (h : ∀ piece ∈ pieces, '/' ∉ piece) :
    steps (joinSlashes pieces) =
      (pieces.filter fun piece => !isEmptyPiece piece).map pieceComponent := by
  cases pieces with
  | nil => rfl
  | cons piece pieces => rw [steps, splitSlashes_joinSlashes (List.cons_ne_nil _ _) h]

theorem length_steps_of_isStep {name : String} (h : IsStep name) :
    (steps name.toList).length = 1 := by
  simp [steps, splitSlashes_of_not_mem h.slash, h.not_isEmptyPiece]

/-! ## Joining -/

/-- How the text of a directory goes on to a name below it. -/
inductive Leads : List Char → List Char → Prop
  /-- The directory has no text. -/
  | nothing : Leads [] []
  /-- The slash is there already. -/
  | slash (cs : List Char) : Leads (cs ++ ['/']) (cs ++ ['/'])
  | name {cs : List Char} (h : cs ≠ []) : Leads cs (cs ++ ['/'])

theorem isAbsolute_of_not_mem {name : String} (h : '/' ∉ name.toList) :
    (FilePath.mk name).isAbsolute = false :=
  decide_eq_false fun hhead => h (List.mem_of_head? hhead)

theorem exists_leads (dir : FilePath) : ∃ lead, Leads dir.text.toList lead ∧
    ∀ name : String, '/' ∉ name.toList → (dir.join name).text.toList = lead ++ name.toList := by
  obtain ⟨text⟩ := dir
  by_cases hempty : text = ""
  · subst hempty
    refine ⟨[], .nothing, fun name hname => ?_⟩
    simp [join, isAbsolute_of_not_mem hname]
  · have hne : text.toList ≠ [] := by simpa using hempty
    by_cases hlast : text.toList.getLast? = some '/'
    · obtain ⟨init, hinit⟩ := List.getLast?_eq_some_iff.1 hlast
      refine ⟨text.toList, ?_, fun name hname => ?_⟩
      · rw [hinit]
        exact .slash init
      · simp [join, isAbsolute_of_not_mem hname, hlast, String.toList_append]
    · refine ⟨text.toList ++ ['/'], .name hne, fun name hname => ?_⟩
      simp [join, isAbsolute_of_not_mem hname, hempty, hlast, String.toList_append]

theorem Leads.splitSlashes_append {lead : List Char} (h : Leads cs lead) :
    ∃ before, ∀ name : List Char, '/' ∉ name →
      splitSlashes (lead ++ name) = before ++ [name] := by
  cases h with
  | nothing => exact ⟨[], fun name hname => splitSlashes_of_not_mem hname⟩
  | slash init =>
    refine ⟨splitSlashes init, fun name hname => ?_⟩
    rw [List.append_assoc, List.singleton_append, Files.splitSlashes_append,
      splitSlashes_of_not_mem hname]
  | name _ =>
    refine ⟨splitSlashes cs, fun name hname => ?_⟩
    rw [List.append_assoc, List.singleton_append, Files.splitSlashes_append,
      splitSlashes_of_not_mem hname]

theorem IsStep.splitLead_eq {name : String} (h : IsStep name) :
    splitLead name.toList = ([], name.toList) := by
  obtain ⟨c, cs, hname, hc⟩ := h.start
  have hslash := h.slash
  rw [hname] at hslash ⊢
  refine splitLead_plain ?_ ?_ ?_
  · rintro ⟨⟩
    exact hslash List.mem_cons_self
  · rintro ⟨⟩
    exact hc rfl
  · rintro ⟨rest, heq⟩
    exact hc (List.cons.inj heq).1.symm

/-- A name below a directory is one component more. -/
theorem components_join (dir : FilePath) {name : String} (h : IsStep name) :
    (dir.join name).components = dir.components ++ steps name.toList := by
  obtain ⟨lead, hlead, hjoin⟩ := exists_leads dir
  rw [components_eq, components_eq, hjoin name h.slash]
  generalize dir.text.toList = cs at hlead ⊢
  cases hlead with
  | nothing =>
    rw [List.nil_append, componentsOf, h.splitLead_eq]
    rfl
  | slash init =>
    rw [List.append_assoc, List.singleton_append]
    cases init with
    | nil => rfl
    | cons c init =>
      have hdir : componentsOf (c :: init ++ ['/']) = componentsOf (c :: init) ++ steps [] :=
        componentsOf_append (List.cons_ne_nil c init) []
      rw [componentsOf_append (List.cons_ne_nil c init), hdir, steps_nil, List.append_nil]
  | name hne => rw [List.append_assoc, List.singleton_append, componentsOf_append hne]

theorem length_components_join (dir : FilePath) {name : String} (h : IsStep name) :
    (dir.join name).components.length = dir.components.length + 1 := by
  rw [components_join dir h, List.length_append, length_steps_of_isStep h]

/-- The directory along some names below another one. -/
def below (dir : FilePath) (names : List String) : FilePath :=
  names.foldl join dir

theorem below_concat (dir : FilePath) (names : List String) (name : String) :
    dir.below (names ++ [name]) = (dir.below names).join name := by
  rw [below, List.foldl_append]
  rfl

theorem length_components_below (dir : FilePath) {names : List String}
    (h : ∀ name ∈ names, IsStep name) :
    (dir.below names).components.length = dir.components.length + names.length := by
  induction names generalizing dir with
  | nil => rfl
  | cons name names ih =>
    obtain ⟨hname, hnames⟩ := List.forall_mem_cons.1 h
    have hbelow : dir.below (name :: names) = (dir.join name).below names := rfl
    rw [hbelow, ih _ hnames, length_components_join dir hname, List.length_cons]
    omega

/-! ## Back to the directory -/

theorem text_eq_of_toList {path : FilePath} (h : path.text.toList = cs) :
    path = ⟨String.ofList cs⟩ := by
  rw [← h, String.ofList_toList]

/-- The stem of a name with one extension. -/
theorem stemChars_append {stem : List Char} (hstem : stem ≠ []) {extension : List Char}
    (h : '.' ∉ extension) : stemChars (stem ++ '.' :: extension) = stem := by
  have hdrop : (stem ++ '.' :: extension).reverse.dropWhile (· ≠ '.') = '.' :: stem.reverse := by
    rw [List.reverse_append, List.reverse_cons, List.append_assoc, List.singleton_append,
      List.dropWhile_append_of_pos]
    · simp
    · intro c hc
      have hne : c ≠ '.' := fun heq => h (heq ▸ List.mem_reverse.1 hc)
      simpa using hne
  rw [stemChars, hdrop, List.drop_succ_cons, List.drop_zero]
  split
  next hnil => exact absurd (List.reverse_eq_nil_iff.1 hnil) hstem
  next => exact List.reverse_reverse stem

/-- A file named for a module leads to the directory named for it. -/
theorem withoutExtension_join (dir : FilePath) {name extension : String} (h : IsStep name)
    (hslash : '/' ∉ extension.toList) (hdot : '.' ∉ extension.toList) :
    (dir.join (name ++ "." ++ extension)).withoutExtension = dir.join name := by
  obtain ⟨lead, hlead, hjoin⟩ := exists_leads dir
  obtain ⟨before, hbefore⟩ := hlead.splitSlashes_append
  have hname : (name ++ "." ++ extension).toList = name.toList ++ '.' :: extension.toList := by
    simp [String.toList_append]
  have hfile : '/' ∉ (name ++ "." ++ extension).toList := by
    simp [hname, h.slash, hslash]
  rw [withoutExtension, hjoin _ hfile, hbefore _ hfile]
  simp only [List.getLast?_concat, List.dropLast_concat]
  rw [hname, stemChars_append h.ne_nil hdot, ← hbefore _ h.slash, joinSlashes_splitSlashes]
  exact (text_eq_of_toList (hjoin name h.slash)).symm

theorem parent_eq {before : List (List Char)} {piece : List Char}
    (h : dropEmptyPieces (splitSlashes (splitLead cs).2) = before ++ [piece]) :
    (FilePath.mk (String.ofList cs)).parent =
      ⟨String.ofList ((splitLead cs).1 ++ joinSlashes (dropEmptyPieces before))⟩ := by
  rw [parent]
  simp only [String.toList_ofList, h]
  split
  next hnil => exact absurd hnil (by simp)
  next => rw [List.dropLast_concat]

/-- What stands apart at the start of a text is not its last piece. -/
theorem getLast?_splitLead (hdot : cs ≠ ['.']) :
    (splitSlashes (splitLead cs).2).getLast? = (splitSlashes cs).getLast? := by
  have hcons : ∀ (piece : List Char) (cs : List Char),
      (piece :: splitSlashes cs).getLast? = (splitSlashes cs).getLast? := fun piece cs => by
    obtain ⟨first, rest, hsplit⟩ := List.exists_cons_of_ne_nil (splitSlashes_ne_nil cs)
    rw [hsplit, List.getLast?_cons_cons]
  fun_cases splitLead cs with
  | case1 cs => exact (hcons [] cs).symm
  | case2 => exact absurd rfl hdot
  | case3 cs => exact (hcons [] cs).trans (hcons ['.'] cs).symm
  | case4 cs => rfl

/-- The last piece of a joined path is the name. -/
theorem getLast?_splitSlashes_join (dir : FilePath) {name : String} (h : IsStep name) :
    (splitSlashes (dir.join name).text.toList).getLast? = some name.toList := by
  obtain ⟨lead, hlead, hjoin⟩ := exists_leads dir
  obtain ⟨before, hbefore⟩ := hlead.splitSlashes_append
  rw [hjoin name h.slash, hbefore _ h.slash, List.getLast?_concat]

/-- Behind a name a slash has to be put between. -/
theorem toList_join_of_getLast? {path : FilePath} {name file : String} (h : IsStep name)
    (hlast : (splitSlashes path.text.toList).getLast? = some name.toList)
    (hfile : '/' ∉ file.toList) :
    (path.join file).text.toList = path.text.toList ++ '/' :: file.toList := by
  obtain ⟨lead, hlead, hjoin⟩ := exists_leads path
  suffices hslash : lead = path.text.toList ++ ['/'] by
    rw [hjoin file hfile, hslash, List.append_assoc, List.singleton_append]
  generalize path.text.toList = cs at hlead hlast ⊢
  cases hlead with
  | nothing => exact absurd (Option.some.inj hlast).symm h.ne_nil
  | slash init =>
    rw [splitSlashes_append, List.getLast?_append] at hlast
    exact absurd (Option.some.inj hlast).symm h.ne_nil
  | name _ => rfl

/-- A file that stands for a directory leads back to it. -/
theorem parent_join_join (dir : FilePath) {name file : String} (h : IsStep name)
    (hfile : IsStep file) : ((dir.join name).join file).parent = dir.join name := by
  have hlast := getLast?_splitSlashes_join dir h
  have htext := toList_join_of_getLast? h hlast hfile.slash
  generalize dir.join name = path at hlast htext ⊢
  have hne : path.text.toList ≠ [] := fun hnil => by
    rw [hnil] at hlast
    exact h.ne_nil (Option.some.inj hlast).symm
  have hdot : path.text.toList ≠ ['.'] := fun hchars => by
    rw [hchars] at hlast
    exact h.ne_dot (Option.some.inj hlast).symm
  obtain ⟨init, hinit⟩ : ∃ init,
      splitSlashes (splitLead path.text.toList).2 = init ++ [name.toList] :=
    List.getLast?_eq_some_iff.1 ((getLast?_splitLead hdot).trans hlast)
  have hpieces :
      dropEmptyPieces (splitSlashes (splitLead (path.text.toList ++ '/' :: file.toList)).2) =
        splitSlashes (splitLead path.text.toList).2 ++ [file.toList] := by
    rw [splitLead_append hne, splitSlashes_append, splitSlashes_of_not_mem hfile.slash,
      dropEmptyPieces_append _ hfile.not_isEmptyPiece]
  rw [text_eq_of_toList htext, parent_eq hpieces, splitLead_append hne, hinit,
    dropEmptyPieces_append _ h.not_isEmptyPiece, ← hinit, joinSlashes_splitSlashes, splitLead_join]
  exact (text_eq_of_toList rfl).symm

/-! ## How deep a path is -/

/-- What stands apart at the start of a text stays apart from the pieces behind it. -/
theorem splitLead_joinSlashes {pieces : List (List Char)}
    (h : pieces <+: splitSlashes (splitLead cs).2)
    (hlast : ∀ piece ∈ pieces.getLast?, isEmptyPiece piece = false) :
    splitLead ((splitLead cs).1 ++ joinSlashes pieces) =
      ((splitLead cs).1, joinSlashes pieces) := by
  fun_cases splitLead cs with
  | case1 cs => rfl
  | case2 =>
    obtain rfl | rfl : pieces = [] ∨ pieces = [[]] := by
      simpa [splitLead, splitSlashes, List.prefix_cons_iff] using h
    · rfl
    · exact absurd (hlast [] rfl) (by decide)
  | case3 cs =>
    obtain rfl | ⟨more, rfl, -⟩ := List.prefix_cons_iff.1 h
    · rfl
    · cases more with
      | nil => exact absurd (hlast [] rfl) (by decide)
      | cons next more => rfl
  | case4 cs hslash hdot hdots =>
    rw [splitLead.eq_4 cs hslash hdot hdots] at h
    change splitLead (joinSlashes pieces) = ([], joinSlashes pieces)
    obtain ⟨rest, hrest⟩ : joinSlashes pieces <+: cs := by
      simpa [joinSlashes_splitSlashes] using prefix_joinSlashes h
    refine splitLead_plain ?_ ?_ ?_
    · intro hhead
      obtain ⟨tail, htail⟩ := List.head?_eq_some_iff.1 hhead
      rw [htail] at hrest
      exact hslash _ hrest.symm
    · intro hjoined
      have hne : pieces ≠ [] := by
        rintro rfl
        cases hjoined
      have hpieces := splitSlashes_joinSlashes hne fun piece hpiece =>
        not_mem_of_mem_splitSlashes piece (h.subset hpiece)
      rw [hjoined] at hpieces
      rw [← hpieces] at hlast
      exact absurd (hlast ['.'] rfl) (by decide)
    · rintro ⟨tail, htail⟩
      rw [← htail] at hrest
      exact hdots _ hrest.symm

theorem length_leadComponents_le (cs : List Char) : (leadComponents cs).length ≤ 1 := by
  unfold leadComponents
  split <;> simp

/-- A path has at most one component more than the directory it is in. -/
theorem length_components_le_parent (path : FilePath) :
    path.components.length ≤ path.parent.components.length + 1 := by
  obtain ⟨cs, rfl⟩ : ∃ cs, path = ⟨String.ofList cs⟩ := ⟨_, text_eq_of_toList rfl⟩
  have hfilter := filter_dropEmptyPieces (splitSlashes (splitLead cs).2)
  have hall := prefix_dropEmptyPieces (splitSlashes (splitLead cs).2)
  have hend := @not_isEmptyPiece_of_getLast? (splitSlashes (splitLead cs).2)
  obtain hnil | ⟨before, piece, hpieces⟩ :=
    List.eq_nil_or_concat (dropEmptyPieces (splitSlashes (splitLead cs).2))
  · rw [hnil] at hfilter
    have hsteps : steps (splitLead cs).2 = [] := by rw [steps, ← hfilter]; rfl
    have hlead := length_leadComponents_le (splitLead cs).1
    rw [components_eq, String.toList_ofList, componentsOf, hsteps, List.append_nil]
    omega
  · rw [List.concat_eq_append] at hpieces
    rw [hpieces] at hfilter hall hend
    have hpiece : isEmptyPiece piece = false := hend piece (by simp)
    have hstart : dropEmptyPieces before <+: splitSlashes (splitLead cs).2 :=
      (prefix_dropEmptyPieces before).trans ((List.prefix_append before [piece]).trans hall)
    have hslash : ∀ piece ∈ dropEmptyPieces before, '/' ∉ piece := fun piece hmem =>
      not_mem_of_mem_splitSlashes piece (hstart.subset hmem)
    -- of the pieces that count, only the last one is not in the directory
    rw [parent_eq hpieces, components_eq, components_eq, String.toList_ofList, String.toList_ofList,
      componentsOf, componentsOf, splitLead_joinSlashes hstart not_isEmptyPiece_of_getLast?,
      steps_joinSlashes hslash, filter_dropEmptyPieces, steps, ← hfilter]
    simp [hpiece, Nat.add_assoc]

end FilePath

end JobRoster.Files
