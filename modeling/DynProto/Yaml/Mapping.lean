import DynProto.Yaml.Token

/-!
# Mappings of scalars

A YAML text with at most one document, which is either empty or a mapping of scalars to scalars, is
taken as the list of its pairs. A scalar that is left out is an empty plain one. All else is
refused.
-/

namespace DynProto.Yaml

/-- The scalar in the place of one that is left out. -/
def ScalarNode.empty (tag : Option Bytes) : ScalarNode := ⟨.plain, tag, []⟩

/-- A key with its value. -/
abbrev Pair := ScalarNode × ScalarNode

/-- The properties in front of a node. -/
structure Properties where
  /-- Whether there are any. -/
  given : Bool := false
  /-- The tag in full, if there is one. -/
  tag : Option Bytes := none

/-- The properties with a tag. -/
def Properties.withTag? (handles : Handles) (tag : Tag) : Option Properties :=
  (tag.resolve? handles).map fun tag => ⟨true, some tag⟩

/-- The properties that come first, and the tokens behind them: an anchor and a tag, each at most
once, in any order. -/
def properties? (handles : Handles) : List Token → Option (Properties × List Token)
  | .anchor :: .tag tag :: rest => (Properties.withTag? handles tag).map (·, rest)
  | .tag tag :: .anchor :: rest => (Properties.withTag? handles tag).map (·, rest)
  | .tag tag :: rest => (Properties.withTag? handles tag).map (·, rest)
  | .anchor :: rest => some ({ given := true }, rest)
  | tokens => some ({}, tokens)

theorem length_of_properties? {handles : Handles} {tokens rest : List Token}
    {properties : Properties} (h : properties? handles tokens = some (properties, rest)) :
    rest.length ≤ tokens.length := by
  fun_cases properties? handles tokens <;> simp_all [properties?] <;> grind

/-- The scalar that comes first, and the tokens behind it. Behind properties it may be left out. -/
def scalar? (handles : Handles) (tokens : List Token) : Option (ScalarNode × List Token) :=
  match properties? handles tokens with
  | none => none
  | some (properties, .scalar style text :: rest) => some (⟨style, properties.tag, text⟩, rest)
  | some (_, .blockStart :: _) => none
  | some (_, .braceOpen :: _) => none
  | some (properties, rest) =>
    if properties.given then some (.empty properties.tag, rest) else none

theorem length_of_scalar? {handles : Handles} {tokens rest : List Token} {scalar : ScalarNode}
    (h : scalar? handles tokens = some (scalar, rest)) : rest.length ≤ tokens.length := by
  simp only [scalar?] at h
  split at h
  · cases h
  · rename_i hp
    cases h
    exact Nat.le_of_succ_le (length_of_properties? hp)
  · cases h
  · cases h
  · rename_i hp
    split at h
    · cases h
      exact length_of_properties? hp
    · cases h

/-- The scalar that comes first, unless it is left out before one of some tokens. -/
def scalarBefore? (ends : List Token) (handles : Handles) (tokens : List Token) :
    Option (ScalarNode × List Token) :=
  if tokens.head?.any ends.contains then some (.empty none, tokens) else scalar? handles tokens

theorem length_of_scalarBefore? {ends : List Token} {handles : Handles}
    {tokens rest : List Token} {scalar : ScalarNode}
    (h : scalarBefore? ends handles tokens = some (scalar, rest)) :
    rest.length ≤ tokens.length := by
  simp only [scalarBefore?] at h
  split at h
  · cases h
    exact Nat.le_refl _
  · exact length_of_scalar? h

/-- The value that comes first, with its indicator; without one it is left out. -/
def valueBefore? (ends : List Token) (handles : Handles) :
    List Token → Option (ScalarNode × List Token)
  | .value :: rest => scalarBefore? ends handles rest
  | tokens => some (.empty none, tokens)

theorem length_of_valueBefore? {ends : List Token} {handles : Handles}
    {tokens rest : List Token} {scalar : ScalarNode}
    (h : valueBefore? ends handles tokens = some (scalar, rest)) :
    rest.length ≤ tokens.length := by
  fun_cases valueBefore? ends handles tokens with
  | case1 => exact Nat.le_succ_of_le (length_of_scalarBefore? h)
  | case2 => simp_all [valueBefore?]

/-! ## Block form -/

/-- A pair in block form from behind the start of its key. -/
def blockPair? (handles : Handles) (tokens : List Token) : Option (Pair × List Token) := do
  let (key, rest) ← scalarBefore? [.key, .value, .blockEnd] handles tokens
  let (value, rest) ← valueBefore? [.key, .value, .blockEnd] handles rest
  some ((key, value), rest)

theorem length_of_blockPair? {handles : Handles} {tokens rest : List Token} {pair : Pair}
    (h : blockPair? handles tokens = some (pair, rest)) :
    rest.length ≤ tokens.length := by
  simp only [blockPair?, Option.bind_eq_bind, Option.bind_eq_some_iff] at h
  obtain ⟨⟨key, middle⟩, hk, ⟨value, last⟩, hv, he⟩ := h
  cases he
  exact Nat.le_trans (length_of_valueBefore? hv) (length_of_scalarBefore? hk)

/-- The pairs of a mapping in block form from behind its start, and the tokens behind its end. -/
def blockPairs? (handles : Handles) : List Token → Option (List Pair × List Token)
  | .blockEnd :: rest => some ([], rest)
  | .key :: rest =>
    match _h : blockPair? handles rest with
    | none => none
    | some (pair, rest) =>
      (blockPairs? handles rest).map fun (pairs, rest) => (pair :: pairs, rest)
  | _ => none
termination_by tokens => tokens.length
decreasing_by
  have := length_of_blockPair? _h
  simp only [List.length_cons]
  omega

/-! ## Flow form -/

/-- A pair between braces. A scalar in the place of a pair, with no start of a key in front, is a
key whose value is left out. -/
def flowPair? (handles : Handles) : List Token → Option (Pair × List Token)
  | .key :: rest => do
    let (key, rest) ← scalarBefore? [.value, .comma, .braceClose] handles rest
    let (value, rest) ← valueBefore? [.comma, .braceClose] handles rest
    some ((key, value), rest)
  | tokens => (scalar? handles tokens).map fun (key, rest) => ((key, .empty none), rest)

theorem length_of_flowPair? {handles : Handles} {tokens rest : List Token} {pair : Pair}
    (h : flowPair? handles tokens = some (pair, rest)) :
    rest.length ≤ tokens.length := by
  fun_cases flowPair? handles tokens with
  | case1 =>
    simp only [flowPair?, Option.bind_eq_bind, Option.bind_eq_some_iff] at h
    obtain ⟨⟨key, middle⟩, hk, ⟨value, last⟩, hv, he⟩ := h
    cases he
    exact Nat.le_succ_of_le
      (Nat.le_trans (length_of_valueBefore? hv) (length_of_scalarBefore? hk))
  | case2 =>
    simp only [flowPair?, Option.map_eq_some_iff] at h
    obtain ⟨⟨key, last⟩, hk, he⟩ := h
    cases he
    exact length_of_scalar? hk

/-- The pairs of a mapping between braces from behind the opening one, and the tokens behind the
closing one. A comma may stand behind the last pair. -/
def flowPairs? (handles : Handles) (tokens : List Token) : Option (List Pair × List Token) :=
  match tokens with
  | .braceClose :: rest => some ([], rest)
  | tokens =>
    match _h : flowPair? handles tokens with
    | some (pair, .comma :: rest) =>
      (flowPairs? handles rest).map fun (pairs, rest) => (pair :: pairs, rest)
    | some (pair, .braceClose :: rest) => some ([pair], rest)
    | _ => none
termination_by tokens.length
decreasing_by
  have := length_of_flowPair? _h
  simp only [List.length_cons] at this
  omega

/-! ## Documents -/

/-- The handles that directives introduce, and the tokens behind the mark that opens the document.
The version must be 1.1 or 1.2 and given at most once, and so must each handle. -/
def directives? (versioned : Bool) (handles : Handles) :
    List Token → Option (Handles × List Token)
  | .directive (.version major minor) :: rest =>
    if versioned || major != 1 || !(minor == 1 || minor == 2) then none
    else directives? true handles rest
  | .directive (.handle name first) :: rest =>
    if (handles.lookup name).isSome then none
    else directives? versioned ((name, first) :: handles) rest
  | .documentStart :: rest => some (handles ++ commonHandles, rest)
  | _ => none

/-- The pairs of a document's content, and the tokens behind it. -/
def content? (handles : Handles) (tokens : List Token) : Option (List Pair × List Token) := do
  let (properties, rest) ← properties? handles tokens
  match rest with
  | .blockStart :: rest => blockPairs? handles rest
  | .braceOpen :: rest => flowPairs? handles rest
  | .scalar _ _ :: _ => none
  | rest => if properties.given then some ([], rest) else none

/-- Whether the content of an opened document is left out. -/
def contentMissing : List Token → Bool
  | [] => true
  | .directive _ :: _ => true
  | .documentStart :: _ => true
  | .documentEnd :: _ => true
  | _ => false

/-- The pairs of a document, and the tokens behind it. -/
def document? : List Token → Option (List Pair × List Token)
  | [] => some ([], [])
  | first :: rest =>
    match first with
    | .directive _ | .documentStart => do
      let (handles, rest) ← directives? false [] (first :: rest)
      if contentMissing rest then some ([], rest) else content? handles rest
    | _ => content? commonHandles (first :: rest)

/-- The pairs of the mapping that a text holds; none if the text holds nothing. -/
def pairs? (text : String) : Option (List Pair) := do
  let tokens ← tokens? text
  let (pairs, rest) ← document? tokens
  if rest.all (· == .documentEnd) then some pairs else none

end DynProto.Yaml
