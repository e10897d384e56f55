import PathPattern.Yaml.Token

/-!
# YAML nodes

The grammar over tokens, as far as a flat record needs it. `head` tells what a node is by its
first token, and `skip` passes over a whole node, nested ones included. Tokens cut short by a
fault run out, which makes both give nothing. A place that calls for a node and holds none
reads as an empty plain scalar.
-/

namespace PathPattern.Yaml

/-- What a node is. -/
inductive Head where
  | scalar (plain : Bool) (text : List Char)
  | collection
  deriving DecidableEq, Repr

/-- Where a node stands: in brackets, or in a block, where a sequence that is the value of a
mapping need not be indented. -/
inductive Position where
  | flow
  | block
  | mappingValue
  deriving DecidableEq, Repr

/-- The node that starts here. -/
def head? (p : Position) : List Token → Option Head
  | .scalar plain text :: _ => some (.scalar plain text)
  | .openList :: _ => some .collection
  | .openMap :: _ => some .collection
  | .sequenceStart :: _ => if p = .flow then none else some .collection
  | .mappingStart :: _ => if p = .flow then none else some .collection
  | .entry :: _ => if p = .mappingValue then some .collection else none
  | _ => none

mutual

/-- The tokens after a node. -/
def skipNode : Nat → Position → List Token → Option (List Token)
  | 0, _, _ => none
  | steps + 1, p, tokens =>
    match tokens with
    | .scalar _ _ :: rest => some rest
    | .openList :: rest => skipList steps true rest
    | .openMap :: rest => skipMap steps true rest
    | .sequenceStart :: rest => if p = .flow then none else skipEntries steps true rest
    | .mappingStart :: rest => if p = .flow then none else skipMembers steps rest
    | .entry :: rest => if p = .mappingValue then skipEntries steps false (.entry :: rest) else none
    | _ => none

/-- The tokens after the entries of a block sequence; one that is not indented has no end
token. -/
def skipEntries : Nat → Bool → List Token → Option (List Token)
  | 0, _, _ => none
  | steps + 1, indented, tokens =>
    match tokens with
    | .entry :: rest =>
      match rest with
      | [] => none
      | .entry :: _ => skipEntries steps indented rest
      | .blockEnd :: _ => skipEntries steps indented rest
      | .key :: _ =>
        if indented then none else skipEntries steps indented rest
      | .value :: _ =>
        if indented then none else skipEntries steps indented rest
      | rest => skipNode steps .block rest >>= skipEntries steps indented
    | [] => none
    | .blockEnd :: rest => if indented then some rest else some (.blockEnd :: rest)
    | rest => if indented then none else some rest

/-- The tokens after the members of a block mapping. -/
def skipMembers : Nat → List Token → Option (List Token)
  | 0, _ => none
  | steps + 1, tokens =>
    match tokens with
    | .blockEnd :: rest => some rest
    | .key :: rest => skipBlockPart steps rest >>= skipBlockValue steps >>= skipMembers steps
    | _ => none

/-- The tokens after a key of a block mapping, or after a value, behind their mark. -/
def skipBlockPart : Nat → List Token → Option (List Token)
  | 0, _ => none
  | steps + 1, tokens =>
    match tokens with
    | [] => none
    | .key :: _ => some tokens
    | .value :: _ => some tokens
    | .blockEnd :: _ => some tokens
    | _ => skipNode steps .mappingValue tokens

/-- The tokens after the value of a block mapping, which may be missing. -/
def skipBlockValue : Nat → List Token → Option (List Token)
  | 0, _ => none
  | steps + 1, tokens =>
    match tokens with
    | [] => none
    | .value :: rest => skipBlockPart steps rest
    | rest => some rest

/-- The tokens after the elements of a list in brackets. -/
def skipList : Nat → Bool → List Token → Option (List Token)
  | 0, _, _ => none
  | steps + 1, first, tokens =>
    match tokens with
    | .closeList :: rest => some rest
    | .comma :: rest => if first then none else skipElement steps rest
    | rest => if first then skipElement steps rest else none

/-- The tokens after an element of a list in brackets and all that follow it; a single pair is
an element too. -/
def skipElement : Nat → List Token → Option (List Token)
  | 0, _ => none
  | steps + 1, tokens =>
    match tokens with
    | .closeList :: rest => some rest
    | .key :: rest => do
      let rest ← skipPairKey steps rest
      let rest ← skipPairValue steps rest
      skipList steps false rest
    | rest => skipNode steps .flow rest >>= skipList steps false

/-- The tokens after the key of a single pair. Where the key is missing, the mark that stands
there instead is passed over with it. -/
def skipPairKey : Nat → List Token → Option (List Token)
  | 0, _ => none
  | steps + 1, tokens =>
    match tokens with
    | .value :: rest => some rest
    | .comma :: rest => some rest
    | .closeList :: rest => some rest
    | rest => skipNode steps .flow rest

/-- The tokens after the value of a single pair, which may be missing. -/
def skipPairValue : Nat → List Token → Option (List Token)
  | 0, _ => none
  | steps + 1, tokens =>
    match tokens with
    | [] => none
    | .value :: .comma :: rest => some (.comma :: rest)
    | .value :: .closeList :: rest => some (.closeList :: rest)
    | .value :: rest => skipNode steps .flow rest
    | rest => some rest

/-- The tokens after the members of a map in brackets. -/
def skipMap : Nat → Bool → List Token → Option (List Token)
  | 0, _, _ => none
  | steps + 1, first, tokens =>
    match tokens with
    | .closeMap :: rest => some rest
    | .comma :: rest => if first then none else skipMember steps rest
    | rest => if first then skipMember steps rest else none

/-- The tokens after a member of a map in brackets and all that follow it. -/
def skipMember : Nat → List Token → Option (List Token)
  | 0, _ => none
  | steps + 1, tokens =>
    match tokens with
    | .closeMap :: rest => some rest
    | .key :: rest => do
      let rest ← skipFlowPart steps rest
      let rest ← skipFlowValue steps rest
      skipMap steps false rest
    | rest => skipNode steps .flow rest >>= skipMap steps false

/-- The tokens after a key of a map in brackets, or after a value, behind their mark. -/
def skipFlowPart : Nat → List Token → Option (List Token)
  | 0, _ => none
  | steps + 1, tokens =>
    match tokens with
    | [] => none
    | .value :: _ => some tokens
    | .comma :: _ => some tokens
    | .closeMap :: _ => some tokens
    | _ => skipNode steps .flow tokens

/-- The tokens after the value of a map in brackets, which may be missing. -/
def skipFlowValue : Nat → List Token → Option (List Token)
  | 0, _ => none
  | steps + 1, tokens =>
    match tokens with
    | [] => none
    | .value :: rest => skipFlowPart steps rest
    | rest => some rest

end

/-- The tokens after a node. The count of steps is more than any node takes among tokens that are
no more than the bound. -/
def skip (bound : Nat) (p : Position) (tokens : List Token) : Option (List Token) :=
  skipNode (4 * bound + 4) p tokens

end PathPattern.Yaml
