import JobRoster.Crate.Resolution

/-!
# Constant folding

The constant that an expression stands for in a module. A path stands for the constant that it
denotes, which is folded in the module that declares it.
-/

namespace JobRoster.Crate

/-- The text of constants joined. -/
def joinTexts (values : List ConstValue) : String :=
  values.foldl (fun text value => text ++ value.text) ""

/-- Folds an expression in which expressions nest less deeply than `budget`, those behind paths
    included. -/
def foldWithin (c : Crate) : (budget : Nat) → (module : Nat) → ConstExpr → Option ConstValue
  | 0, _, _ => none
  | budget + 1, module, e =>
    match e with
    | .str value => some (.str value)
    | .literal kind text => some (.other kind text)
    | .concat parts =>
      (parts.mapM fun part => foldWithin c budget module part).map fun values =>
        .str (joinTexts values)
    | .path path =>
      match (resolvePath c module path).bind c.constNamed? with
      | some item => foldWithin c budget item.module item.value
      | none => none
    | .computed _ => none

/-- How deep expressions may nest. -/
def foldBudget : Nat := 33

/-- The constant that an expression written in a module stands for. -/
def fold (c : Crate) (module : Nat) (e : ConstExpr) : Option ConstValue :=
  foldWithin c foldBudget module e

end JobRoster.Crate
