import Mathlib.Data.Fintype.Card
import Mathlib.Data.Finset.Prod
import JobRoster.Proofs.Crate.ModuleFiles

/-!
# How deep files nest

A file asks for the files of its modules, and these for others. Reading ends unless a file asks for
itself through others. Files that do not can nest no deeper than twice their number, since a file
is read in two roles: as one that stands for the directory it is in, or as one that has a directory
of its own name.
-/

namespace JobRoster.Crate

open Files Syntax Relation

variable {sources : Sources} {load : FileLoader}

/-! ## Limits that are not met -/

/-- Two loaders agree wherever the first one ends. -/
def Agrees (load load' : FileLoader) : Prop :=
  ∀ target m s, endingOf (load target m s) ≠ .endless → load' target m s = load target m s

section Limits

variable {load' : FileLoader}

mutual

theorem collectItem_agrees (hload : Agrees load load') {site : ItemSite} {s : LoadState} :
    ∀ item, endingOf (collectItem sources load site s item) ≠ .endless →
      collectItem sources load' site s item = collectItem sources load site s item
  | .plain attributes visibility kind, _ => by rw [collectItem, collectItem]
  | .module attributes visibility ident (some items), h => by
    rw [collectItem] at h ⊢
    rw [collectItem]
    split
    · rfl
    next htests =>
      rw [if_neg htests] at h
      exact collectItems_agrees hload items h
  | .module attributes visibility ident none, h => by
    rw [collectItem] at h ⊢
    rw [collectItem]
    split
    · rfl
    next htests =>
      rw [if_neg htests] at h
      cases htarget : moduleFile? sources site ident.name attributes with
      | none => rfl
      | some target =>
        simp only [htarget] at h ⊢
        exact hload _ _ _ h
  | .unknown, _ => by rw [collectItem, collectItem]

theorem collectItems_agrees (hload : Agrees load load') {site : ItemSite} {s : LoadState} :
    ∀ items, endingOf (collectItems sources load site s items) ≠ .endless →
      collectItems sources load' site s items = collectItems sources load site s items
  | [], _ => by rw [collectItems, collectItems]
  | item :: items, h => by
    rw [collectItems_cons] at h ⊢
    rw [collectItems_cons]
    cases hitem : collectItem sources load site s item with
    | error error =>
      rw [hitem] at h
      have hsame := collectItem_agrees hload item (by rw [hitem]; exact h)
      rw [hsame, hitem]
      rfl
    | ok next =>
      rw [hitem] at h
      have hsame := collectItem_agrees hload item (by rw [hitem]; simp [endingOf])
      rw [hsame, hitem]
      exact collectItems_agrees hload items h

end

/-- Where reading ends, a higher limit changes nothing. -/
theorem loadFile_agrees (sources : Sources) {depth depth' : Nat} (h : depth ≤ depth') :
    Agrees (loadFile sources depth) (loadFile sources depth') := by
  induction depth generalizing depth' with
  | zero => intro target m s hends; exact absurd rfl hends
  | succ depth ih =>
    intro target m s hends
    obtain ⟨depth', rfl⟩ : ∃ d, depth' = d + 1 := ⟨depth' - 1, by omega⟩
    rw [loadFile_succ] at hends ⊢
    rw [loadFile_succ]
    cases hitems : itemsOf sources target.file with
    | error error => rfl
    | ok items =>
      rw [hitems] at hends
      exact collectItems_agrees (ih (by omega)) items hends

end Limits

/-! ## Chains of files -/

/-- A file asks for another one. -/
def Includes (sources : Sources) (target target' : ModuleFile) : Prop :=
  ∃ files, asked sources target = .ok files ∧ some target' ∈ files

/-- The same file in the same role. -/
def ModuleFile.Same (target target' : ModuleFile) : Prop :=
  target.file.components = target'.file.components ∧
    target.ownsDirectory = target'.ownsDirectory

/-- A file asks for itself through others. -/
def IncludesItself (sources : Sources) (target : ModuleFile) : Prop :=
  ∃ target', TransGen (Includes sources) target target' ∧ target.Same target'

/-- Where reading meets the limit there is a chain of files as long as the limit. -/
theorem exists_chain_of_endless {depth : Nat} {target : ModuleFile}
    (h : (reading sources depth target).ending = .endless) :
    ∃ chain : List ModuleFile, chain.length = depth ∧
      (target :: chain).IsChain (Includes sources) := by
  induction depth generalizing target with
  | zero => exact ⟨[], rfl, .singleton target⟩
  | succ depth ih =>
    rw [reading] at h
    cases hasked : asked sources target with
    | error error => rw [hasked] at h; cases h
    | ok files =>
      rw [hasked] at h
      obtain ⟨r, hr, hendless⟩ := Reading.exists_endless_of_inTurn h
      obtain ⟨file?, hmem, rfl⟩ := List.mem_map.1 hr
      cases file? with
      | none => cases hendless
      | some next =>
        obtain ⟨chain, hlength, hchain⟩ := ih hendless
        exact ⟨next :: chain, by rw [List.length_cons, hlength],
          hchain.cons_cons ⟨files, hasked, hmem⟩⟩

/-- Items are read from one of the texts that there are. -/
theorem exists_text_of_itemsOf {texts : List (FilePath × String)} {path : FilePath}
    {items : List Item} (h : itemsOf (Sources.ofTexts texts) path = .ok items) :
    ∃ entry ∈ texts, entry.1.components = path.components ∧
      ∃ file, parseFile entry.2 = .ok file ∧ items = file.items := by
  cases hfind : Sources.find? texts path with
  | none => simp [itemsOf, Sources.ofTexts, hfind] at h
  | some text =>
    obtain ⟨entry, hentry, rfl⟩ := Option.map_eq_some_iff.1 hfind
    have hsame := List.find?_some hentry
    refine ⟨entry, List.mem_reverse.1 (List.mem_of_find?_eq_some hentry),
      of_decide_eq_true hsame, ?_⟩
    cases hparse : parseFile entry.2 with
    | error error => simp [itemsOf, Sources.ofTexts, hfind, hparse] at h
    | ok file =>
      simp only [itemsOf, Sources.ofTexts, hfind, hparse] at h
      exact ⟨file, rfl, (Except.ok.inj h).symm⟩

/-- What asks for files is one of the texts that there are. -/
theorem exists_text_of_asked {texts : List (FilePath × String)} {target : ModuleFile}
    {files : List (Option ModuleFile)} (h : asked (Sources.ofTexts texts) target = .ok files) :
    ∃ entry ∈ texts, entry.1.components = target.file.components ∧
      ∃ file, parseFile entry.2 = .ok file ∧ files = (fileModules file.items).map
        (FileModule.file? (Sources.ofTexts texts)
          (ItemSite.ofFile 0 target.file target.ownsDirectory)) := by
  unfold asked at h
  cases hitems : itemsOf (Sources.ofTexts texts) target.file with
  | error error => rw [hitems] at h; cases h
  | ok items =>
    obtain ⟨entry, hentry, hsame, file, hparse, rfl⟩ := exists_text_of_itemsOf hitems
    rw [hitems] at h
    exact ⟨entry, hentry, hsame, file, hparse, (Except.ok.inj h).symm⟩

theorem exists_related_of_mem_dropLast {α : Type} {R : α → α → Prop} {a : α} {as : List α}
    (h : (a :: as).IsChain R) : ∀ b ∈ (a :: as).dropLast, ∃ b', R b b' := by
  induction as generalizing a with
  | nil => simp
  | cons a' as ih =>
    rw [List.isChain_cons_cons] at h
    rw [List.dropLast_cons_cons, List.forall_mem_cons]
    exact ⟨⟨a', h.1⟩, ih h.2⟩

/-- Files that do not ask for themselves nest no deeper than twice their number. -/
theorem length_le_of_isChain {texts : List (FilePath × String)} {root : ModuleFile}
    {chain : List ModuleFile} (hchain : (root :: chain).IsChain (Includes (Sources.ofTexts texts)))
    (hcircle : ∀ target, ReflTransGen (Includes (Sources.ofTexts texts)) root target →
      ¬ IncludesItself (Sources.ofTexts texts) target) :
    chain.length ≤ 2 * texts.length := by
  let roleOf (target : ModuleFile) := (target.file.components, target.ownsDirectory)
  have hbelow : ((root :: chain).Pairwise (TransGen (Includes (Sources.ofTexts texts)))) :=
    (hchain.imp fun _ _ => TransGen.single).pairwise
  have hreached : ∀ target ∈ root :: chain,
      ReflTransGen (Includes (Sources.ofTexts texts)) root target := by
    intro target htarget
    rcases List.mem_cons.1 htarget with rfl | htarget
    · exact .refl
    · exact ((List.pairwise_cons.1 hbelow).1 target htarget).to_reflTransGen
  -- no two files of the chain are one file in one role
  have hdistinct : ((root :: chain).dropLast.map roleOf).Nodup := by
    refine List.pairwise_map.2 ((hbelow.imp_of_mem ?_).sublist (List.dropLast_sublist _))
    intro target target' htarget _ hincludes hsame
    exact hcircle target (hreached target htarget)
      ⟨target', hincludes, congrArg Prod.fst hsame, congrArg Prod.snd hsame⟩
  have hsubset : ((root :: chain).dropLast.map roleOf).toFinset ⊆
      (texts.map (·.1.components)).toFinset ×ˢ Finset.univ := by
    intro role hrole
    obtain ⟨target, htarget, rfl⟩ := List.mem_map.1 (List.mem_toFinset.1 hrole)
    obtain ⟨target', hincludes⟩ := exists_related_of_mem_dropLast hchain target htarget
    obtain ⟨files, hasked, -⟩ := hincludes
    obtain ⟨entry, hentry, hcomponents, -⟩ := exists_text_of_asked hasked
    rw [Finset.mem_product]
    exact ⟨List.mem_toFinset.2 (List.mem_map.2 ⟨entry, hentry, hcomponents⟩), Finset.mem_univ _⟩
  have hcard := Finset.card_le_card hsubset
  have hfew := List.toFinset_card_le (texts.map (·.1.components))
  rw [List.toFinset_card_of_nodup hdistinct, Finset.card_product, Finset.card_univ,
    Fintype.card_bool, List.length_map, List.length_dropLast, List.length_cons] at hcard
  rw [List.length_map] at hfew
  omega

/-- No file that the root asks for, itself or through others, asks for itself. -/
def Acyclic (sources : Sources) (root : ModuleFile) : Prop :=
  ∀ target, ReflTransGen (Includes sources) root target → ¬ IncludesItself sources target

/-- No file asks for itself where a rank that the file and its role determine grows along the way. -/
theorem acyclic_of_rank {root : ModuleFile} (rank : ModuleFile → Nat) (P : ModuleFile → Prop)
    (hsame : ∀ target target', target.Same target' → rank target = rank target') (hroot : P root)
    (hstep : ∀ target target', P target → Includes sources target target' →
      P target' ∧ rank target < rank target') : Acyclic sources root := by
  intro target hreached
  have hP : P target := by
    induction hreached with
    | refl => exact hroot
    | tail _ hincludes ih => exact (hstep _ _ ih hincludes).1
  have hgrows : ∀ target', TransGen (Includes sources) target target' →
      P target' ∧ rank target < rank target' := by
    intro target' hbelow
    induction hbelow with
    | single hincludes => exact hstep _ _ hP hincludes
    | tail _ hincludes ih =>
      obtain ⟨hnext, hlt⟩ := hstep _ _ ih.1 hincludes
      exact ⟨hnext, Nat.lt_trans ih.2 hlt⟩
  rintro ⟨target', hbelow, hagain⟩
  exact absurd (hsame _ _ hagain) (Nat.ne_of_lt (hgrows target' hbelow).2)

/-- Files that do not ask for themselves are read to the end, where they may nest deeper than twice
    their number. -/
theorem ending_ne_of_lt {texts : List (FilePath × String)} {root : ModuleFile} {depth : Nat}
    (hacyclic : Acyclic (Sources.ofTexts texts) root) (hdepth : 2 * texts.length < depth) :
    (reading (Sources.ofTexts texts) depth root).ending ≠ .endless := by
  intro hendless
  obtain ⟨chain, hlength, hchain⟩ := exists_chain_of_endless hendless
  have hle := length_le_of_isChain hchain hacyclic
  omega

theorem ending_ne_of_acyclic {texts : List (FilePath × String)} {root : ModuleFile}
    (hacyclic : Acyclic (Sources.ofTexts texts) root) :
    (reading (Sources.ofTexts texts) (2 * texts.length + 1) root).ending ≠ .endless :=
  ending_ne_of_lt hacyclic (Nat.lt_succ_self _)

/-! ## How many files are opened -/

namespace Reading

theorem length_inTurn_le {rs : List Reading} {bound : Nat}
    (h : ∀ r ∈ rs, r.opened.length ≤ bound) : (inTurn rs).opened.length ≤ rs.length * bound := by
  induction rs with
  | nil => simp [inTurn, nothing]
  | cons r rs ih =>
    rw [List.forall_mem_cons] at h
    have hrest := ih h.2
    rw [inTurn, andThen, List.length_cons, Nat.succ_mul]
    split
    · rw [List.length_append]
      omega
    · omega

end Reading

/-- A file asks for so many files at most, and files nest no deeper than `depth`. -/
theorem length_opened_le {bound : Nat}
    (hbound : ∀ target files, asked sources target = .ok files → files.length ≤ bound)
    (depth : Nat) (target : ModuleFile) :
    (reading sources depth target).opened.length ≤ (bound + 1) ^ depth := by
  induction depth generalizing target with
  | zero => exact Nat.le_refl _
  | succ depth ih =>
    have hpos : 1 ≤ (bound + 1) ^ depth := Nat.one_le_pow _ _ (Nat.succ_pos _)
    rw [reading, Nat.pow_succ, Nat.mul_succ]
    cases hasked : asked sources target with
    | error error => exact Nat.le_trans hpos (Nat.le_add_left _ _)
    | ok files =>
      have hinner : ∀ r ∈ files.map fun file? =>
          (file?.map (reading sources depth)).getD .missing,
          r.opened.length ≤ (bound + 1) ^ depth := by
        intro r hr
        obtain ⟨file?, -, rfl⟩ := List.mem_map.1 hr
        cases file? with
        | none => exact Nat.zero_le _
        | some next => exact ih next
      have hturn := Reading.length_inTurn_le hinner
      rw [List.length_map] at hturn
      have hmul := Nat.mul_le_mul_right ((bound + 1) ^ depth) (hbound target files hasked)
      rw [Nat.mul_comm _ bound]
      simp only [Reading.andThen, if_true, List.length_append, List.length_cons, List.length_nil]
      omega

/-- The number of modules with files of their own that a text declares. -/
def moduleCount (text : String) : Nat :=
  match parseFile text with
  | .ok file => (fileModules file.items).length
  | .error _ => 0

/-- The largest number of modules with files of their own that one of the texts declares. -/
def mostModules (texts : List (FilePath × String)) : Nat :=
  (texts.map fun entry => moduleCount entry.2).foldr max 0

theorem moduleCount_le_mostModules {texts : List (FilePath × String)} {entry : FilePath × String}
    (h : entry ∈ texts) : moduleCount entry.2 ≤ mostModules texts := by
  induction texts with
  | nil => cases h
  | cons first texts ih =>
    rw [mostModules, List.map_cons, List.foldr_cons]
    rcases List.mem_cons.1 h with rfl | h
    · exact Nat.le_max_left _ _
    · exact Nat.le_trans (ih h) (Nat.le_max_right _ _)

theorem length_asked_le {texts : List (FilePath × String)} {target : ModuleFile}
    {files : List (Option ModuleFile)} (h : asked (Sources.ofTexts texts) target = .ok files) :
    files.length ≤ mostModules texts := by
  obtain ⟨entry, hentry, -, file, hparse, rfl⟩ := exists_text_of_asked h
  have hcount : moduleCount entry.2 = (fileModules file.items).length := by
    rw [moduleCount, hparse]
  rw [List.length_map, ← hcount]
  exact moduleCount_le_mostModules hentry

/-- Reading always ends where no file asks for itself: neither the files that nest nor all that are
    opened can be more than the texts and the modules in them allow, and no higher limit changes
    anything. -/
theorem ofTexts_ends (name : String) (externs : List String) {texts : List (FilePath × String)}
    (hacyclic : ∀ entry ∈ texts.head?, Acyclic (Sources.ofTexts texts) ⟨entry.1, true⟩) :
    (∀ path, ofTexts name externs texts ≠ .error (.endless path)) ∧
    ∀ entry ∈ texts.head?,
      let sources := Sources.ofTexts texts
      let limit := 2 * texts.length + 1
      let opened := (reading sources limit ⟨entry.1, true⟩).opened
      (∀ depth, limit ≤ depth → ∀ m s, loadFile sources depth ⟨entry.1, true⟩ m s =
        loadFile sources limit ⟨entry.1, true⟩ m s) ∧
      opened.length ≤ (mostModules texts + 1) ^ limit ∧
      ∀ c, ofTexts name externs texts = .ok c → c.files = opened.map (·.file) := by
  cases texts with
  | nil =>
    exact ⟨fun _ h => (by cases h), fun _ h => (by cases h)⟩
  | cons entry texts =>
    have hends := ending_ne_of_acyclic (hacyclic entry rfl)
    have hfollows := follows_loadFile (Sources.ofTexts (entry :: texts))
      (2 * (entry :: texts).length + 1) ⟨entry.1, true⟩
    have hsame : ∀ depth, 2 * (entry :: texts).length + 1 ≤ depth → ∀ m s,
        loadFile (Sources.ofTexts (entry :: texts)) depth ⟨entry.1, true⟩ m s =
          loadFile (Sources.ofTexts (entry :: texts)) (2 * (entry :: texts).length + 1)
            ⟨entry.1, true⟩ m s := fun depth hdepth m s =>
      loadFile_agrees _ hdepth _ m s (by rw [(hfollows m s).ending]; exact hends)
    have hload : ofTexts name externs (entry :: texts) =
        (loadFile (Sources.ofTexts (entry :: texts)) (2 * (entry :: texts).length + 1)
          ⟨entry.1, true⟩ (Module.new [] none .crate)
          (LoadState.start (pathName name) (externs.map pathName))).map LoadState.finish :=
      (load_eq ..).trans (congrArg _ (hsame _ (Nat.le_succ _) _ _))
    have hstart := hfollows (Module.new [] none .crate)
      (LoadState.start (pathName name) (externs.map pathName))
    rw [hload]
    refine ⟨fun path h => ?_, fun other hother => ?_⟩
    · refine hends ?_
      rw [← hstart.ending, ← endingOf_map LoadState.finish, h, endingOf]
    · obtain rfl := Option.some.inj hother
      refine ⟨hsame, length_opened_le (fun _ _ => length_asked_le) _ _, fun c hc => ?_⟩
      cases hs : loadFile (Sources.ofTexts (entry :: texts)) (2 * (entry :: texts).length + 1)
          ⟨entry.1, true⟩ (Module.new [] none .crate)
          (LoadState.start (pathName name) (externs.map pathName)) with
      | error error => rw [hs] at hc; cases hc
      | ok s =>
        rw [hs] at hc
        rw [← Except.ok.inj hc]
        exact hstart.files s hs

/-- One file is given by an attribute and one by the name of its module; neither asks for more. -/
theorem ofTexts_ends_renamed :
    let texts : List (FilePath × String) := [(⟨"lib.rs"⟩, "#[path = \"b.rs\"] mod a; mod c;"),
      (⟨"b.rs"⟩, "struct B;"), (⟨"c.rs"⟩, "struct C;")]
    Acyclic (Sources.ofTexts texts) ⟨⟨"lib.rs"⟩, true⟩ ∧
      ∀ path, ofTexts "app" [] texts ≠ .error (.endless path) := by
  intro texts
  have hroot : asked (Sources.ofTexts texts) ⟨⟨"lib.rs"⟩, true⟩ =
      .ok [some ⟨⟨"b.rs"⟩, true⟩, some ⟨⟨"c.rs"⟩, false⟩] := eq_ok_of_toOption (by decide +kernel)
  have hb : asked (Sources.ofTexts texts) ⟨⟨"b.rs"⟩, true⟩ = .ok [] :=
    eq_ok_of_toOption (by decide +kernel)
  have hc : asked (Sources.ofTexts texts) ⟨⟨"c.rs"⟩, false⟩ = .ok [] :=
    eq_ok_of_toOption (by decide +kernel)
  have hacyclic : Acyclic (Sources.ofTexts texts) ⟨⟨"lib.rs"⟩, true⟩ := by
    refine acyclic_of_rank
      (fun target => if target.file.components = [.name "lib.rs"] then 0 else 1)
      (· ∈ [⟨⟨"lib.rs"⟩, true⟩, ⟨⟨"b.rs"⟩, true⟩, ⟨⟨"c.rs"⟩, false⟩])
      (fun target target' hsame => by rw [hsame.1]) List.mem_cons_self ?_
    rintro target target' hmem ⟨files, hasked, hfile⟩
    simp only [List.mem_cons, List.not_mem_nil, or_false] at hmem
    rcases hmem with rfl | rfl | rfl
    · obtain rfl := Except.ok.inj (hroot.symm.trans hasked)
      simp only [List.mem_cons, List.not_mem_nil, or_false, Option.some.injEq] at hfile
      rcases hfile with rfl | rfl <;> decide +kernel
    · obtain rfl := Except.ok.inj (hb.symm.trans hasked)
      cases hfile
    · obtain rfl := Except.ok.inj (hc.symm.trans hasked)
      cases hfile
  refine ⟨hacyclic, (ofTexts_ends "app" [] fun entry hentry => ?_).1⟩
  obtain rfl := Option.some.inj hentry
  exact hacyclic

/-- A file that is its own module is read without end, whatever the limit. -/
theorem loadFile_endless :
    let texts : List (FilePath × String) := [(⟨"lib.rs"⟩, "#[path = \"lib.rs\"] mod a;")]
    ∀ depth m s, ∃ path, loadFile (Sources.ofTexts texts) depth ⟨⟨"lib.rs"⟩, true⟩ m s =
      .error (.endless path) := by
  intro texts depth m s
  have hasked : asked (Sources.ofTexts texts) ⟨⟨"lib.rs"⟩, true⟩ =
      .ok [some ⟨⟨"lib.rs"⟩, true⟩] := eq_ok_of_toOption (by decide +kernel)
  have hendless : (reading (Sources.ofTexts texts) depth ⟨⟨"lib.rs"⟩, true⟩).ending = .endless := by
    induction depth with
    | zero => rfl
    | succ depth ih =>
      rw [reading, hasked]
      have hinner : Reading.inTurn [reading (Sources.ofTexts texts) depth ⟨⟨"lib.rs"⟩, true⟩] =
          reading (Sources.ofTexts texts) depth ⟨⟨"lib.rs"⟩, true⟩ := Reading.andThen_nothing _
      exact (congrArg Reading.ending hinner).trans ih
  exact exists_of_endingOf_endless ((follows_loadFile _ depth _ m s).ending.trans hendless)

end JobRoster.Crate
