import JobRoster.Pass.Run
import JobRoster.Proofs.Files.FileNames
import JobRoster.Proofs.Settings.Valid
import JobRoster.Unit.DirectorySink

/-!
# A directory holds what the memory would

A sink that publishes to a directory and one in memory that is called the same way hold the same
units. A file of the directory holds the text of its unit, or is not there if there is no such unit,
and all other files are left alone. The clock of the file tree shows which calls write: those that
publish a text that its file does not hold already.
-/

namespace JobRoster

open Files FilePath FileTree

/-- A name that valid settings may give to what they generate. -/
def AcceptedName (name : String) : Prop :=
  ∃ settings : Settings, settings.validate = .ok () ∧ settings.output = name

theorem AcceptedName.isFileName {name : String} (h : AcceptedName name) : IsFileName name := by
  obtain ⟨settings, hvalid, rfl⟩ := h
  have houtput := (Settings.validate_eq_ok_iff.1 hvalid).output
  simp only [Settings.isPlainFileName, Bool.and_eq_true, Bool.not_eq_true',
    List.contains_eq_mem, decide_eq_true_eq, decide_eq_false_iff_not] at houtput
  obtain ⟨⟨⟨⟨hempty, hslash⟩, -⟩, hdot⟩, hdots⟩ := houtput
  exact ⟨by simpa using hempty, hslash, hdot, hdots⟩

namespace Publication

/-- The name of the unit that a call is about. -/
def name : Publication → String
  | publish u => u.name
  | withdraw name => name

/-- A sink after some calls, whether they fail or not. -/
def applyAll {S : Type} [Sink S] (calls : List Publication) (sink : S) : S :=
  calls.foldl (fun sink call => (call.apply sink).1) sink

theorem applyAll_concat {S : Type} [Sink S] (calls : List Publication) (call : Publication)
    (sink : S) : applyAll (calls ++ [call]) sink = (call.apply (applyAll calls sink)).1 := by
  rw [applyAll, List.foldl_append]
  rfl

end Publication

namespace DirectorySink

variable {dir : FilePath} {place : Place} {name : String} {names : List String}

/-! ## What files hold -/

/-- The file of a name is in the directory `place` and holds a text, or is not there if there is
    none. -/
def Holds (sink : DirectorySink) (place : Place) (name : String) : Option String → Prop
  | some text => ∃ modified,
      sink.tree.find (sink.pathOf name) = .ok (place ++ [name], .file text.toUTF8 modified)
  | none => sink.tree.find (sink.pathOf name) = .error .notFound ∧
      sink.tree.node? (place ++ [name]) = none

/-- What is at the place of a file that holds a text, or of none. -/
inductive IsFileOf : Option String → Option Node → Prop
  | missing : IsFileOf none none
  | file (text : String) (modified : Nat) :
    IsFileOf (some text) (some (.file text.toUTF8 modified))

theorem IsFileOf.ne_directory {text : Option String} {node : Option Node}
    (h : IsFileOf text node) : node ≠ some .directory := by
  rintro rfl
  cases h

/-- Once the directory is made, its files hold what the memory does. Until then there are none. -/
structure Mirrors (dir : FilePath) (place : Place) (names : List String) (tree : FileTree)
    (memory : MemorySink) : Prop where
  made : ∃ made, tree.makeDirectories dir = (made, .ok ()) ∧ made.enter dir = .ok place ∧
    ∀ name ∈ names, IsFileOf (memory.get? name) (made.node? (place ++ [name]))
  missing : tree.enter dir = .error .notFound → ∀ name ∈ names, memory.get? name = none

theorem Mirrors.of_enter {tree : FileTree} {memory : MemorySink}
    (hdir : dir.text = "" ∨ dir.IsPath) (henter : tree.enter dir = .ok place)
    (hfiles : ∀ name ∈ names, IsFileOf (memory.get? name) (tree.node? (place ++ [name]))) :
    Mirrors dir place names tree memory where
  made := ⟨tree, makeDirectories_of_enter hdir henter, henter, hfiles⟩
  missing hmissing := by
    rw [henter] at hmissing
    cases hmissing

/-! ## Single calls -/

/-- What one call does to a directory sink, and to a sink in memory that was called the same way
    before. All calls are about `names`, `place` is where the directory is, and `after` is the file
    tree in the end. -/
structure Refines (place : Place) (names : List String) (call : Publication)
    (sink : DirectorySink) (memory : MemorySink) (after : FileTree) : Prop where
  done : call.apply sink = (⟨after, sink.dir⟩, .ok ())
  memoryDone : (call.apply memory).2 = .ok ()
  holds : ∀ name ∈ names,
    Holds ⟨after, sink.dir⟩ place name ((call.apply memory).1.get? name)
  /-- Nothing else changes but that the directory is made if it is not there. -/
  others : ∀ other ≠ place ++ [call.name], after.node? other = sink.tree.node? other ∨
    sink.tree.enter sink.dir = .error .notFound ∧ sink.tree.node? other = none ∧
      after.node? other = some .directory
  /-- A file that does not hold the text is written. -/
  written : ∀ u, call = .publish u →
    sink.tree.read (sink.pathOf u.name) ≠ .ok u.text.toUTF8 →
      after.node? (place ++ [u.name]) = some (.file u.text.toUTF8 sink.tree.clock) ∧
        after.clock = sink.tree.clock + 1
  /-- Where it does, nothing happens. -/
  kept : ∀ u, call = .publish u →
    sink.tree.read (sink.pathOf u.name) = .ok u.text.toUTF8 → after = sink.tree
  withdrawn : ∀ name, call = .withdraw name → after.clock = sink.tree.clock

theorem place_append_ne {other : String} (h : other ≠ name) : place ++ [other] ≠ place ++ [name] := by
  intro heq
  exact h (List.cons.inj (List.append_cancel_left heq)).1

/-- A unit whose file holds its text is left as it is. -/
theorem add_of_eq {sink : DirectorySink} {u : SourceUnit}
    (hread : sink.tree.read (sink.pathOf u.name) = .ok u.text.toUTF8) :
    sink.add u = (sink, .ok ()) := by
  unfold add
  dsimp only
  rw [hread]
  exact if_pos rfl

section Calls

variable {tree : FileTree} {memory : MemorySink}
  (hnames : ∀ name ∈ names, IsFileName name ∧ Fits dir name)
include hnames

theorem Mirrors.holds (h : Mirrors dir place names tree memory) (hname : name ∈ names) :
    Holds ⟨tree, dir⟩ place name (memory.get? name) := by
  obtain ⟨hfile, hfits⟩ := hnames name hname
  obtain ⟨made, hmake, henter, hfiles⟩ := h.made
  have hmakes := makes_of_makeDirectories hmake
  have hnode := hfiles name hname
  obtain rfl | hmissing := hmakes.missing
  · have hfind := find_join hfile hfits henter
    generalize hplace : made.node? (place ++ [name]) = node at hnode hfind
    generalize memory.get? name = text at hnode ⊢
    cases hnode with
    | missing => exact ⟨hfind, hplace⟩
    | file text modified => exact ⟨modified, hfind⟩
  · -- the directory is not there, and making it brings no files
    rw [h.missing hmissing name hname] at hnode ⊢
    refine ⟨find_join_of_error hfile hfits.path hmissing, ?_⟩
    obtain hsame | ⟨hnone, _⟩ := hmakes.adds.node (place ++ [name])
    · rw [hsame] at hnode
      generalize tree.node? (place ++ [name]) = node at hnode ⊢
      cases hnode
      rfl
    · exact hnone

theorem Mirrors.read_eq (h : Mirrors dir place names tree memory) (hname : name ∈ names) :
    tree.read (dir.join name) =
      match memory.get? name with
      | some text => .ok text.toUTF8
      | none => .error .notFound := by
  have hholds := h.holds hnames hname
  cases htext : memory.get? name with
  | none =>
    rw [htext] at hholds
    have hfind : tree.find (dir.join name) = .error .notFound := hholds.1
    rw [FileTree.read, hfind]
    rfl
  | some text =>
    rw [htext] at hholds
    obtain ⟨modified, hfind⟩ := hholds
    dsimp only [pathOf] at hfind
    rw [FileTree.read, hfind]
    rfl

/-- A unit whose file does not hold its text is written, after the directory is made. -/
theorem Mirrors.add_of_ne (h : Mirrors dir place names tree memory) {u : SourceUnit}
    (hname : u.name ∈ names) (hread : tree.read (dir.join u.name) ≠ .ok u.text.toUTF8) :
    ∃ made, tree.makeDirectories dir = (made, .ok ()) ∧ made.enter dir = .ok place ∧
      (DirectorySink.mk tree dir).add u =
        (⟨made.written (place ++ [u.name]) u.text.toUTF8, dir⟩, .ok ()) := by
  obtain ⟨hfile, hfits⟩ := hnames u.name hname
  obtain ⟨made, hmake, henter, hfiles⟩ := h.made
  have hwrite : (DirectorySink.mk tree dir).write (dir.join u.name) u.text.toUTF8 =
      (⟨made.written (place ++ [u.name]) u.text.toUTF8, dir⟩, .ok ()) := by
    unfold write
    rw [hmake]
    dsimp only
    rw [write_join hfile hfits henter (hfiles u.name hname).ne_directory]
    rfl
  refine ⟨made, hmake, henter, ?_⟩
  rw [← hwrite]
  unfold add
  dsimp only [pathOf]
  rw [h.read_eq hnames hname] at hread ⊢
  generalize memory.get? u.name = stored at hread ⊢
  cases stored with
  | none => rfl
  | some text =>
    have hne : text.toUTF8 ≠ u.text.toUTF8 := fun heq => hread (congrArg _ heq)
    exact if_neg hne

/-- What the file of a unit holds, if it is the text of the unit, is what the memory has. -/
theorem Mirrors.get?_of_read (h : Mirrors dir place names tree memory) {u : SourceUnit}
    (hname : u.name ∈ names) (hread : tree.read (dir.join u.name) = .ok u.text.toUTF8) :
    memory.get? u.name = some u.text := by
  rw [h.read_eq hnames hname] at hread
  cases htext : memory.get? u.name with
  | none =>
    rw [htext] at hread
    cases hread
  | some text =>
    rw [htext] at hread
    rw [String.toByteArray_inj.1 (Except.ok.inj hread)]

/-- What is published is in the file, whether it was written or there already. -/
theorem Mirrors.mirrors_add (h : Mirrors dir place names tree memory) {u : SourceUnit}
    (hname : u.name ∈ names) :
    Mirrors dir place names ((DirectorySink.mk tree dir).add u).1.tree (memory.add u) := by
  by_cases hread : tree.read (dir.join u.name) = .ok u.text.toUTF8
  · have htext := h.get?_of_read hnames hname hread
    have hadd : (DirectorySink.mk tree dir).add u = (⟨tree, dir⟩, .ok ()) := add_of_eq hread
    rw [hadd]
    obtain ⟨made, hmake, henter, hfiles⟩ := h.made
    refine ⟨⟨made, hmake, henter, fun name hmem => ?_⟩, fun hmissing => ?_⟩
    · by_cases hsame : name = u.name
      · rw [hsame, MemorySink.get?_add, ← htext]
        exact hfiles u.name hname
      · rw [MemorySink.get?_add_of_ne hsame]
        exact hfiles name hmem
    · rw [h.missing hmissing u.name hname] at htext
      cases htext
  · obtain ⟨made, hmake, henter, hadd⟩ := h.add_of_ne hnames hname hread
    obtain ⟨made', hmake', -, hfiles⟩ := h.made
    obtain rfl : made = made' := congrArg Prod.fst (hmake.symm.trans hmake')
    rw [hadd]
    have hkeeps : KeepsDirectories made (made.written (place ++ [u.name]) u.text.toUTF8) :=
      keepsDirectories_of_node?_ne (hfiles u.name hname).ne_directory rfl
        fun other hother => node?_written_of_ne hother _
    have hpath := (hnames u.name hname).2.path.of_join (hnames u.name hname).1
    refine .of_enter hpath (hkeeps.enter henter) fun name hmem => ?_
    by_cases hsame : name = u.name
    · subst hsame
      rw [MemorySink.get?_add, node?_written_self (by simp)]
      exact .file _ _
    · rw [MemorySink.get?_add_of_ne hsame, node?_written_of_ne (place_append_ne hsame)]
      exact hfiles name hmem

/-- Withdrawing a unit removes its file from the directory, or nothing if there is no such unit. -/
theorem Mirrors.remove_cases (h : Mirrors dir place names tree memory) (hname : name ∈ names) :
    (DirectorySink.mk tree dir).remove name = (⟨tree, dir⟩, .ok ()) ∧ memory.get? name = none ∨
      (DirectorySink.mk tree dir).remove name =
          (⟨tree.setNode (place ++ [name]) none, dir⟩, .ok ()) ∧
        tree.makeDirectories dir = (tree, .ok ()) := by
  obtain ⟨hfile, hfits⟩ := hnames name hname
  obtain ⟨made, hmake, henter, hfiles⟩ := h.made
  unfold DirectorySink.remove pathOf
  dsimp only
  obtain rfl | hmissing := (makes_of_makeDirectories hmake).missing
  · have hnode := hfiles name hname
    rw [remove_join hfile hfits henter]
    generalize made.node? (place ++ [name]) = node at hnode ⊢
    generalize memory.get? name = text at hnode ⊢
    cases hnode with
    | missing => exact .inl ⟨rfl, rfl⟩
    | file text modified => exact .inr ⟨rfl, hmake⟩
  · left
    rw [remove_join_of_error hfile hfits.path hmissing]
    exact ⟨rfl, h.missing hmissing name hname⟩

theorem Mirrors.mirrors_remove (h : Mirrors dir place names tree memory) (hname : name ∈ names) :
    Mirrors dir place names ((DirectorySink.mk tree dir).remove name).1.tree
      (memory.remove name) := by
  obtain ⟨made, hmake, henter, hfiles⟩ := h.made
  obtain ⟨hremove, hnone⟩ | ⟨hremove, hmake'⟩ := h.remove_cases hnames hname
  · -- nothing is withdrawn from the memory either
    have hsame : ∀ other, (memory.remove name).get? other = memory.get? other := by
      intro other
      by_cases hother : other = name
      · rw [hother, MemorySink.get?_remove, hnone]
      · exact MemorySink.get?_remove_of_ne hother memory
    rw [hremove]
    exact ⟨⟨made, hmake, henter, by simpa only [hsame] using hfiles⟩,
      by simpa only [hsame] using h.missing⟩
  · obtain rfl : made = tree := congrArg Prod.fst (hmake.symm.trans hmake')
    have hpath := (hnames name hname).2.path.of_join (hnames name hname).1
    have hkeeps : KeepsDirectories made (made.setNode (place ++ [name]) none) :=
      keepsDirectories_of_node?_ne (hfiles name hname).ne_directory rfl
        fun other hother => node?_setNode_of_ne hother _
    rw [hremove]
    refine .of_enter hpath (hkeeps.enter henter) fun other hmem => ?_
    by_cases hother : other = name
    · rw [hother, MemorySink.get?_remove, node?_setNode_self (by simp)]
      exact .missing
    · rw [MemorySink.get?_remove_of_ne hother]
      have hsame : (made.setNode (place ++ [name]) none).node? (place ++ [other]) =
          made.node? (place ++ [other]) := node?_setNode_of_ne (place_append_ne hother) none
      rw [hsame]
      exact hfiles other hmem

theorem Mirrors.refines_publish (h : Mirrors dir place names tree memory) {u : SourceUnit}
    (hname : u.name ∈ names) :
    ∃ after, Refines place names (.publish u) ⟨tree, dir⟩ memory after := by
  have hafter := h.mirrors_add hnames hname
  by_cases hread : tree.read (dir.join u.name) = .ok u.text.toUTF8
  · have hadd : (DirectorySink.mk tree dir).add u = (⟨tree, dir⟩, .ok ()) := add_of_eq hread
    rw [hadd] at hafter
    refine ⟨tree, hadd, rfl, fun name hmem => hafter.holds hnames hmem, fun _ _ => .inl rfl,
      ?_, fun _ _ _ => rfl, nofun⟩
    intro _ hcall hne
    cases hcall
    exact absurd hread hne
  · obtain ⟨made, hmake, -, hadd⟩ := h.add_of_ne hnames hname hread
    obtain ⟨hadds, -, hmissing⟩ := makes_of_makeDirectories hmake
    rw [hadd] at hafter
    refine ⟨_, hadd, rfl, fun name hmem => hafter.holds hnames hmem, ?_, ?_, ?_,
      nofun⟩
    · intro other hother
      have hsame : (made.written (place ++ [u.name]) u.text.toUTF8).node? other =
          made.node? other := node?_written_of_ne hother _
      rw [hsame]
      obtain rfl | hmissing := hmissing
      · exact .inl rfl
      · exact (hadds.node other).imp id fun ⟨hnone, hnew⟩ => ⟨hmissing, hnone, hnew⟩
    · intro _ hcall _
      cases hcall
      rw [node?_written_self (by simp), written, hadds.clock]
      exact ⟨rfl, rfl⟩
    · intro _ hcall heq
      cases hcall
      exact absurd heq hread

theorem Mirrors.refines_withdraw (h : Mirrors dir place names tree memory)
    (hname : name ∈ names) :
    ∃ after, Refines place names (.withdraw name) ⟨tree, dir⟩ memory after := by
  have hafter := h.mirrors_remove hnames hname
  obtain ⟨hremove, -⟩ | ⟨hremove, -⟩ := h.remove_cases hnames hname
  · rw [hremove] at hafter
    exact ⟨tree, hremove, rfl, fun name hmem => hafter.holds hnames hmem, fun _ _ => .inl rfl,
      nofun, nofun, fun _ _ => rfl⟩
  · rw [hremove] at hafter
    exact ⟨_, hremove, rfl, fun name hmem => hafter.holds hnames hmem,
      fun other hother => .inl (node?_setNode_of_ne hother _),
      nofun, nofun, fun _ _ => rfl⟩

/-- A call on both sinks keeps them the same. -/
theorem Mirrors.apply (h : Mirrors dir place names tree memory) {call : Publication}
    (hname : call.name ∈ names) :
    (∃ after, Refines place names call ⟨tree, dir⟩ memory after) ∧
      Mirrors dir place names (call.apply (DirectorySink.mk tree dir)).1.tree
        (call.apply memory).1 := by
  cases call with
  | publish u => exact ⟨h.refines_publish hnames hname, h.mirrors_add hnames hname⟩
  | withdraw name => exact ⟨h.refines_withdraw hnames hname, h.mirrors_remove hnames hname⟩

/-! ## All calls -/

theorem Mirrors.applyAll (h : Mirrors dir place names tree memory) {calls : List Publication}
    (hcalls : ∀ call ∈ calls, call.name ∈ names) :
    ∃ after, Publication.applyAll calls (DirectorySink.mk tree dir) = ⟨after, dir⟩ ∧
      Mirrors dir place names after (Publication.applyAll calls memory) := by
  induction calls using List.reverseRecOn with
  | nil => exact ⟨tree, rfl, h⟩
  | append_singleton calls call ih =>
    rw [List.forall_mem_append, List.forall_mem_singleton] at hcalls
    obtain ⟨middle, hmiddle, hmirrors⟩ := ih hcalls.1
    obtain ⟨⟨after, hrefines⟩, hafter⟩ := hmirrors.apply hnames hcalls.2
    rw [hrefines.done] at hafter
    rw [Publication.applyAll_concat, Publication.applyAll_concat, hmiddle, hrefines.done]
    exact ⟨after, rfl, hafter⟩

end Calls

/-- A sink in a directory that can be made, and that has no files of the names that are used once it
    is made, refines a sink in memory that is empty in the beginning. -/
theorem refines_memorySink (tree : FileTree) (dir : FilePath) (calls : List Publication)
    (hnames : ∀ call ∈ calls, AcceptedName call.name)
    (hmake : (tree.makeDirectories dir).2 = .ok ())
    (habsent : ∀ call ∈ calls,
      (tree.makeDirectories dir).1.read (dir.join call.name) = .error .notFound) :
    ∃ place, (tree.makeDirectories dir).1.enter dir = .ok place ∧
      ∀ past call rest, calls = past ++ call :: rest →
        ∃ after, Refines place (calls.map Publication.name) call
          (Publication.applyAll past ⟨tree, dir⟩) (Publication.applyAll past MemorySink.empty)
          after := by
  generalize hmade : tree.makeDirectories dir = made at *
  obtain ⟨made, done⟩ := made
  dsimp only at hmake habsent
  subst hmake
  obtain ⟨place, henter⟩ := (makes_of_makeDirectories hmade).enter
  refine ⟨place, henter, ?_⟩
  have hfits : ∀ call ∈ calls, (IsFileName call.name ∧ Fits dir call.name) ∧
      made.node? (place ++ [call.name]) = none := by
    intro call hcall
    have hfile := (hnames call hcall).isFileName
    obtain ⟨hfits, hnone⟩ := fits_of_read hfile henter (habsent call hcall)
    exact ⟨⟨hfile, hfits⟩, hnone⟩
  -- the invariant starts with no file and an empty memory
  have hstart : Mirrors dir place (calls.map Publication.name) tree MemorySink.empty := by
    refine ⟨⟨made, hmade, henter, ?_⟩, fun _ _ _ => rfl⟩
    rw [List.forall_mem_map]
    intro call hcall
    rw [(hfits call hcall).2]
    exact .missing
  have hall : ∀ name ∈ calls.map Publication.name, IsFileName name ∧ Fits dir name := by
    rw [List.forall_mem_map]
    exact fun call hcall => (hfits call hcall).1
  intro past call rest hcalls
  have hmem : ∀ other ∈ past ++ call :: rest, other.name ∈ calls.map Publication.name := by
    intro other hother
    exact List.mem_map_of_mem (hcalls ▸ hother)
  rw [List.forall_mem_append, List.forall_mem_cons] at hmem
  obtain ⟨middle, hmiddle, hmirrors⟩ := hstart.applyAll hall hmem.1
  rw [hmiddle]
  exact (hmirrors.apply hall hmem.2.1).1

/-- Files of a directory that is made for the first of them. -/
theorem refines_memorySink_made :
    let dir : FilePath := ⟨"out/gen"⟩
    let calls : List Publication := [.withdraw "b.rs", .publish ⟨"a.rs", "1"⟩,
      .publish ⟨"a.rs", "1"⟩, .publish ⟨"b.rs", "2"⟩, .publish ⟨"a.rs", "3"⟩, .withdraw "a.rs"]
    (∀ call ∈ calls, AcceptedName call.name) ∧
      (FileTree.empty.makeDirectories dir).2 = .ok () ∧
      (∀ call ∈ calls,
        (FileTree.empty.makeDirectories dir).1.read (dir.join call.name) = .error .notFound) ∧
      ∃ place, (FileTree.empty.makeDirectories dir).1.enter dir = .ok place ∧
        ∀ past call rest, calls = past ++ call :: rest →
          ∃ after, Refines place (calls.map Publication.name) call
            (Publication.applyAll past ⟨FileTree.empty, dir⟩)
            (Publication.applyAll past MemorySink.empty) after := by
  intro dir calls
  have hnames : ∀ call ∈ calls, AcceptedName call.name := by
    intro call hcall
    have hname : call.name = "a.rs" ∨ call.name = "b.rs" := by
      simp only [calls, List.mem_cons, List.not_mem_nil, or_false] at hcall
      obtain rfl | rfl | rfl | rfl | rfl | rfl := hcall <;> simp [Publication.name]
    obtain hname | hname := hname
    · exact ⟨{ Settings.default with output := "a.rs" }, by decide +kernel, hname.symm⟩
    · exact ⟨{ Settings.default with output := "b.rs" }, by decide +kernel, hname.symm⟩
  have hmake : (FileTree.empty.makeDirectories dir).2 = .ok () := by decide +kernel
  have habsent : ∀ call ∈ calls,
      (FileTree.empty.makeDirectories dir).1.read (dir.join call.name) = .error .notFound := by
    decide +kernel
  exact ⟨hnames, hmake, habsent, refines_memorySink FileTree.empty dir calls hnames hmake habsent⟩

end DirectorySink

end JobRoster
