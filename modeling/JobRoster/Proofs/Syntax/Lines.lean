import JobRoster.Syntax.Token

/-!
# Tokens on other lines

The same tokens further down, or wherever their lines are taken to.
-/

namespace JobRoster.Syntax.Token

mutual

/-- The token with its lines changed. -/
def mapLine (f : Nat → Nat) : Token → Token
  | .ident name line => .ident name (f line)
  | .punct c joint line => .punct c joint (f line)
  | .literal value line => .literal value (f line)
  | .group delimiter content line close =>
    .group delimiter (mapLines f content) (f line) (f close)

/-- The tokens with their lines changed. -/
def mapLines (f : Nat → Nat) : List Token → List Token
  | [] => []
  | token :: tokens => mapLine f token :: mapLines f tokens

end

variable {f f' : Nat → Nat}

@[simp] theorem mapLines_nil : mapLines f [] = [] := rfl

@[simp] theorem mapLines_cons (token : Token) (tokens : List Token) :
    mapLines f (token :: tokens) = token.mapLine f :: mapLines f tokens := rfl

@[simp] theorem mapLines_append (tokens more : List Token) :
    mapLines f (tokens ++ more) = mapLines f tokens ++ mapLines f more := by
  induction tokens with
  | nil => rfl
  | cons token tokens ih => simp [ih]

@[simp] theorem length_mapLines (tokens : List Token) :
    (mapLines f tokens).length = tokens.length := by
  induction tokens with
  | nil => rfl
  | cons token tokens ih => simp [ih]

mutual

theorem mapLine_mapLine_of_leftInverse (h : Function.LeftInverse f' f) (token : Token) :
    (token.mapLine f).mapLine f' = token := by
  cases token with
  | group delimiter content line close =>
    simp [mapLine, h _, mapLines_mapLines_of_leftInverse h content]
  | _ => simp [mapLine, h _]

theorem mapLines_mapLines_of_leftInverse (h : Function.LeftInverse f' f) (tokens : List Token) :
    mapLines f' (mapLines f tokens) = tokens := by
  cases tokens with
  | nil => rfl
  | cons token tokens =>
    simp [mapLine_mapLine_of_leftInverse h token, mapLines_mapLines_of_leftInverse h tokens]

end

mutual

theorem mapLine_id (token : Token) : token.mapLine id = token := by
  cases token with
  | group delimiter content line close => simp [mapLine, mapLines_id content]
  | _ => rfl

theorem mapLines_id (tokens : List Token) : mapLines id tokens = tokens := by
  cases tokens with
  | nil => rfl
  | cons token tokens => simp [mapLine_id token, mapLines_id tokens]

end

/-! ## Sizes -/

theorem sizeAll_append (tokens more : List Token) :
    sizeAll (tokens ++ more) = sizeAll tokens + sizeAll more := by
  induction tokens with
  | nil => simp [sizeAll]
  | cons token tokens ih => simp [sizeAll, ih, Nat.add_assoc]

mutual

theorem size_mapLine (token : Token) : (token.mapLine f).size = token.size := by
  cases token with
  | group delimiter content line close => simp [mapLine, size, sizeAll_mapLines content]
  | _ => rfl

theorem sizeAll_mapLines (tokens : List Token) : sizeAll (mapLines f tokens) = sizeAll tokens := by
  cases tokens with
  | nil => rfl
  | cons token tokens => simp [sizeAll, size_mapLine token, sizeAll_mapLines tokens]

end

end JobRoster.Syntax.Token
