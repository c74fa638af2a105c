import Mathlib.Logic.Relation
import JobRoster.Crate.Folding
import JobRoster.Proofs.Crate.Loading

/-!
# What constants fold to

What an expression folds to is given by rules, one for each shape of expression that can be a
constant, and a derivation is a tree of them. Folding finds the value of exactly those expressions
that have a derivation in which expressions nest no deeper than it allows. Constants that depend on
themselves have no derivation at all.
-/

namespace JobRoster.Crate

variable {c : Crate} {module : Nat} {e : ConstExpr} {value : ConstValue}

/-! ## The constant of a path -/

/-- The last constant of the crate that has the canonical path. -/
structure LastConst (c : Crate) (path : String) (item : ConstItem) : Prop where
  identity : item.identity = path
  last : ∃ before after, c.consts = before ++ item :: after ∧
    ∀ other ∈ after, other.identity ≠ path

/-- Looking a constant up by its path finds the last one, and nothing only if there is none. -/
theorem constNamed?_eq_some_iff {path : String} {item : ConstItem} :
    c.constNamed? path = some item ↔ c.LastConst path item := by
  unfold constNamed?
  rw [List.find?_eq_some_iff_append]
  constructor
  · rintro ⟨hidentity, after, before, hconsts, hafter⟩
    refine ⟨of_decide_eq_true hidentity, before.reverse, after.reverse, ?_, ?_⟩
    · rw [← List.reverse_reverse c.consts, hconsts]
      simp
    · simpa using hafter
  · rintro ⟨hidentity, before, after, hconsts, hafter⟩
    refine ⟨decide_eq_true hidentity, after.reverse, before.reverse, ?_, ?_⟩
    · rw [hconsts]
      simp
    · simpa using hafter

theorem LastConst.unique {path : String} {item item' : ConstItem} (h : c.LastConst path item)
    (h' : c.LastConst path item') : item' = item := by
  have hfound := constNamed?_eq_some_iff.2 h
  rw [constNamed?_eq_some_iff.2 h'] at hfound
  exact Option.some.inj hfound

/-! ## Derivations -/

mutual

/-- How an expression written in a module folds to a value. There is no rule for what is computed,
    and none for a path that denotes no constant. -/
inductive Folding (c : Crate) : (module : Nat) → ConstExpr → ConstValue → Type where
  | str (module : Nat) (text : String) : Folding c module (.str text) (.str text)
  | literal (module : Nat) (kind : LiteralKind) (text : String) :
    Folding c module (.literal kind text) (.other kind text)
  | concat {module : Nat} {parts : List ConstExpr} {values : List ConstValue}
    (each : Foldings c module parts values) :
    Folding c module (.concat parts) (.str (String.join (values.map ConstValue.text)))
  /-- The initialiser of a constant is folded where the constant is declared. -/
  | path {module : Nat} {path : ItemPath} {canonical : String} {item : ConstItem}
    {value : ConstValue} (denotes : resolvePath c module path = some canonical)
    (declared : c.LastConst canonical item)
    (initialiser : Folding c item.module item.value value) : Folding c module (.path path) value

/-- How the parts of an expression fold, one after another. -/
inductive Foldings (c : Crate) : (module : Nat) → List ConstExpr → List ConstValue → Type where
  | nil (module : Nat) : Foldings c module [] []
  | cons {module : Nat} {part : ConstExpr} {parts : List ConstExpr} {value : ConstValue}
    {values : List ConstValue} (first : Folding c module part value)
    (rest : Foldings c module parts values) :
    Foldings c module (part :: parts) (value :: values)

end

mutual

/-- How many steps the expression that nests deepest in a derivation is below the whole. -/
def Folding.nesting {module : Nat} {e : ConstExpr} {value : ConstValue} :
    Folding c module e value → Nat
  | .str _ _ => 0
  | .literal _ _ _ => 0
  | .concat each => each.nesting
  | .path _ _ initialiser => initialiser.nesting + 1

/-- The same for parts, each of which is one step below the whole. -/
def Foldings.nesting {module : Nat} {parts : List ConstExpr} {values : List ConstValue} :
    Foldings c module parts values → Nat
  | .nil _ => 0
  | .cons first rest => max (first.nesting + 1) rest.nesting

end

/-! ## Folding and derivations -/

theorem joinTexts_eq_join (values : List ConstValue) :
    joinTexts values = String.join (values.map ConstValue.text) := by
  rw [joinTexts, String.join, List.foldl_map]

mutual

/-- A derivation that the budget has room for is found. -/
theorem Folding.foldWithin_eq_some {module : Nat} {e : ConstExpr} {value : ConstValue} :
    ∀ (d : Folding c module e value) {budget : Nat}, d.nesting < budget →
      foldWithin c budget module e = some value
  | .str _ _, budget + 1, _ => rfl
  | .literal _ _ _, budget + 1, _ => rfl
  | .concat each, budget + 1, h => by
    have hparts := each.mapM_foldWithin (Nat.le_of_lt_succ h)
    rw [foldWithin, hparts, Option.map_some, joinTexts_eq_join]
  | .path denotes declared initialiser, budget + 1, h => by
    -- what the path denotes is one step below it, as deep in the derivation as in the budget
    have hvalue := initialiser.foldWithin_eq_some (Nat.lt_of_succ_lt_succ h)
    rw [foldWithin, denotes, Option.bind_some, constNamed?_eq_some_iff.2 declared]
    exact hvalue

theorem Foldings.mapM_foldWithin {module : Nat} {parts : List ConstExpr}
    {values : List ConstValue} : ∀ (d : Foldings c module parts values) {budget : Nat},
      d.nesting ≤ budget → (parts.mapM fun part => foldWithin c budget module part) = some values
  | .nil _, _, _ => rfl
  | .cons first rest, _, h => by
    obtain ⟨hfirst, hrest⟩ := Nat.max_le.mp h
    have hvalue := first.foldWithin_eq_some hfirst
    have hvalues := rest.mapM_foldWithin hrest
    simp [List.mapM_cons, hvalue, hvalues]

end

/-- Parts that all fold have derivations one after another. -/
theorem exists_foldings {budget : Nat} {parts : List ConstExpr} {values : List ConstValue}
    (hfold : ∀ part value, foldWithin c budget module part = some value →
      ∃ d : Folding c module part value, d.nesting < budget)
    (h : (parts.mapM fun part => foldWithin c budget module part) = some values) :
    ∃ d : Foldings c module parts values, d.nesting ≤ budget := by
  induction parts generalizing values with
  | nil =>
    obtain rfl : [] = values := by simpa using h
    exact ⟨.nil module, Nat.zero_le _⟩
  | cons part parts ih =>
    obtain ⟨value, hvalue, rest, hrest, rfl⟩ :
        ∃ value, foldWithin c budget module part = some value ∧ ∃ rest,
          (parts.mapM fun part => foldWithin c budget module part) = some rest ∧
            value :: rest = values := by
      simpa [List.mapM_cons, Option.bind_eq_some_iff] using h
    obtain ⟨first, hfirst⟩ := hfold part value hvalue
    obtain ⟨others, hothers⟩ := ih hrest
    exact ⟨.cons first others, Nat.max_le.mpr ⟨hfirst, hothers⟩⟩

/-- What is found has a derivation that the budget has room for. -/
theorem exists_folding_of_foldWithin {budget : Nat}
    (h : foldWithin c budget module e = some value) :
    ∃ d : Folding c module e value, d.nesting < budget := by
  -- on the budget, since a part and an initialiser are folded with one less
  induction budget generalizing module e value with
  | zero => cases h
  | succ budget ih =>
    cases e with
    | str text =>
      obtain rfl := Option.some.inj h
      exact ⟨.str module text, Nat.succ_pos _⟩
    | literal kind text =>
      obtain rfl := Option.some.inj h
      exact ⟨.literal module kind text, Nat.succ_pos _⟩
    | concat parts =>
      rw [foldWithin, Option.map_eq_some_iff] at h
      obtain ⟨values, hvalues, rfl⟩ := h
      obtain ⟨each, hnesting⟩ := exists_foldings (fun _ _ => ih) hvalues
      rw [joinTexts_eq_join]
      exact ⟨.concat each, Nat.lt_succ_of_le hnesting⟩
    | path path =>
      rw [foldWithin] at h
      split at h
      next item hitem =>
        obtain ⟨canonical, hdenotes, hdeclared⟩ := Option.bind_eq_some_iff.mp hitem
        obtain ⟨initialiser, hnesting⟩ := ih h
        exact ⟨.path hdenotes (constNamed?_eq_some_iff.1 hdeclared) initialiser,
          Nat.succ_lt_succ hnesting⟩
      next => cases h
    | computed description => cases h

/-! ## Constants that depend on one another -/

/-- An expression and the module that it is written in. -/
structure Written where
  module : Nat
  expr : ConstExpr

/-- What folding an expression asks for next. -/
inductive DependsOn (c : Crate) : Written → Written → Prop where
  | part {module : Nat} {parts : List ConstExpr} {part : ConstExpr} (mem : part ∈ parts) :
    DependsOn c ⟨module, .concat parts⟩ ⟨module, part⟩
  | initialiser {module : Nat} {path : ItemPath} {canonical : String} {item : ConstItem}
    (denotes : resolvePath c module path = some canonical)
    (declared : c.LastConst canonical item) :
    DependsOn c ⟨module, .path path⟩ ⟨item.module, item.value⟩

open Relation

theorem Foldings.exists_part {parts : List ConstExpr} {values : List ConstValue}
    (d : Foldings c module parts values) {part : ConstExpr} (h : part ∈ parts) :
    ∃ value, ∃ d' : Folding c module part value, d'.nesting < d.nesting := by
  induction parts generalizing values with
  | nil => cases h
  | cons first parts ih =>
    cases d with
    | cons dfirst drest =>
      obtain rfl | h := List.mem_cons.mp h
      · exact ⟨_, dfirst, Nat.le_max_left _ _⟩
      · obtain ⟨value, d', hlt⟩ := ih drest h
        exact ⟨value, d', Nat.lt_of_lt_of_le hlt (Nat.le_max_right _ _)⟩

/-- A derivation holds derivations of all that is asked for next. -/
theorem Folding.exists_next {w w' : Written} (d : Folding c w.module w.expr value)
    (h : DependsOn c w w') :
    ∃ value', ∃ d' : Folding c w'.module w'.expr value', d'.nesting < d.nesting := by
  cases h with
  | part mem =>
    cases d with
    | concat each => exact each.exists_part mem
  | initialiser denotes declared =>
    cases d with
    | path denotes' declared' initialiser =>
      -- a path denotes one constant, so the derivation has folded the one that is asked for
      obtain rfl := Option.some.inj (denotes.symm.trans denotes')
      obtain rfl := declared'.unique declared
      exact ⟨value, initialiser, Nat.lt_succ_self _⟩

theorem Folding.exists_later {w w' : Written} (d : Folding c w.module w.expr value)
    (h : TransGen (DependsOn c) w w') :
    ∃ value', ∃ d' : Folding c w'.module w'.expr value', d'.nesting < d.nesting := by
  induction h with
  | single h => exact d.exists_next h
  | tail _ h ih =>
    obtain ⟨_, d', hlt⟩ := ih
    obtain ⟨value'', d'', hlt'⟩ := d'.exists_next h
    exact ⟨value'', d'', Nat.lt_trans hlt' hlt⟩

/-- What depends on itself has no derivation: each would hold a smaller one. -/
theorem Folding.not_cyclic {w : Written} (h : TransGen (DependsOn c) w w) :
    ∀ {value : ConstValue}, Folding c w.module w.expr value → False := by
  intro value d
  induction hn : d.nesting using Nat.strongRecOn generalizing value with
  | ind n ih =>
    obtain ⟨value', d', hlt⟩ := d.exists_later h
    exact ih _ (hn ▸ hlt) d' rfl

/-- An expression folds to a value exactly if it has a derivation in which no expression is more than
    32 steps below it. One that depends on a circle of constants, directly or through others, folds
    to nothing. -/
theorem fold_eq_some_iff_folding (c : Crate) (module : Nat) (e : ConstExpr) :
    (∀ value, fold c module e = some value ↔ ∃ d : Folding c module e value, d.nesting ≤ 32) ∧
      ∀ w, ReflTransGen (DependsOn c) ⟨module, e⟩ w → TransGen (DependsOn c) w w →
        fold c module e = none := by
  have hfold : ∀ value, fold c module e = some value ↔
      ∃ d : Folding c module e value, d.nesting ≤ 32 := by
    intro value
    constructor
    · intro h
      obtain ⟨d, hlt⟩ := exists_folding_of_foldWithin h
      exact ⟨d, Nat.le_of_lt_succ hlt⟩
    · rintro ⟨d, hle⟩
      exact d.foldWithin_eq_some (Nat.lt_succ_of_le hle)
  refine ⟨hfold, fun w hreached hcircle => ?_⟩
  refine Option.eq_none_iff_forall_ne_some.mpr fun value h => ?_
  obtain ⟨d, -⟩ := (hfold value).mp h
  -- a derivation would hold one of what depends on itself
  obtain heq | hbelow := reflTransGen_iff_eq_or_transGen.mp hreached
  · subst heq
    exact Folding.not_cyclic hcircle d
  · obtain ⟨_, d', -⟩ := d.exists_later hbelow
    exact Folding.not_cyclic hcircle d'

/-- A constant that another module's is a part of. -/
example :
    ∃ c, load (.ofTexts [
          (⟨"lib.rs"⟩, "mod ids; const ID: &str = concat!(ids::PREFIX, \"report-\", 7);"),
          (⟨"ids.rs"⟩, "pub const PREFIX: &str = \"app.\";")]) "app" [] ⟨"lib.rs"⟩ = .ok c ∧
      fold c 0 (.path ⟨false, ["ID"]⟩) = some (.str "app.report-7") :=
  exists_loaded_of_decide (by decide +kernel)

end JobRoster.Crate
