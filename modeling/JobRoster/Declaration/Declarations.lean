import JobRoster.Declaration.Basic

/-!
# Declarations of a host

What a generator needs to know of type declarations, whatever program they come from. The structural
part can be asked of every declaration; symbols and constants are asked of few. A host says which of
its symbols are the same: names are never compared.
-/

namespace JobRoster

/-- A host's declarations `δ`, with attributes `α` whose arguments are expressions `ε`, and symbols
    `σ` that attributes denote. -/
structure Declarations (δ α ε σ : Type) where
  /-- The name of what is compiled. -/
  moduleIdentity : String
  decls : List δ
  kind : δ → TypeKind
  /-- How many generic parameters there are. -/
  generics : δ → Nat
  /-- The full path of a declaration. -/
  identity : δ → String
  /-- The path that generated code can name the type by, if there is one. -/
  typePath? : δ → Option String
  location : δ → Location
  attributes : δ → List α
  /-- The last segment of an attribute's path, as written. -/
  shortName : α → String
  /-- The arguments of an attribute, or why they cannot be read. -/
  arguments : α → Except String (List (Argument ε))
  /-- What an attribute's path denotes where it is written. -/
  symbol? : α → Option σ
  /-- What a full path denotes. -/
  symbolNamed? : String → Option σ
  /-- Whether two symbols are the same. If a host does not say, they are when they are equal. -/
  symbolsEqual : σ → σ → Bool := by exact fun a b => decide (a = b)
  constant? : ε → Option ConstValue
  /-- An expression as diagnostics show it. -/
  display : ε → String

namespace Declarations

variable {δ α ε σ : Type}

/-- Whether an attribute denotes the marker. -/
def denotes (host : Declarations δ α ε σ) (marker : σ) (attr : α) : Bool :=
  (host.symbol? attr).any (host.symbolsEqual · marker)

/-- Where symbols are the same when they are equal, the marker is denoted by its own symbol. -/
theorem denotes_iff {host : Declarations δ α ε σ}
    (h : ∀ a b, host.symbolsEqual a b = true ↔ a = b) {marker : σ} {attr : α} :
    host.denotes marker attr = true ↔ host.symbol? attr = some marker := by
  simp [denotes, Option.any_eq_true, h]

end Declarations

end JobRoster
