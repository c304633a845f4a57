import RowQuery.Form.Read
import RowQuery.Json.Reader

/-! # Reading queries from JSON text

A query is checked while its text is read, so that the first fault in the text decides: a part of
the wrong shape is refused at the end of that part, a tag as soon as it is read, and a part that is
not known is skipped without a closer look.
-/

namespace RowQuery.Form

open Json

/-- The part that a node writes, or the refusal of its shape. -/
def wanted {α : Type} : Option α → Except Fault α
  | some part => .ok part
  | none => .error .mismatched

/-- Whether the next token opens an array or an object. -/
def opensContainer (bytes : Bytes) : Bool :=
  match skipSeparators bytes with
  | 0x5B :: _ => true
  | 0x7B :: _ => true
  | _ => false

/-- A scalar of a certain shape. An array or object is refused before it is read. -/
def readLeaf {α : Type} (shape : Node → Option α) (bytes : Bytes) :
    Except Fault (α × Bytes) := do
  if opensContainer bytes then throw .mismatched
  let (node, rest) ← readScalar .full (skipSeparators bytes)
  return (← wanted (shape node), rest)

/-- A tag, which must be a text among `tags`. -/
def readTag (tags : List String) (bytes : Bytes) : Except Fault (Node × Bytes) := do
  let (tag, rest) ← readLeaf (tag? .outer tags) bytes
  return (.text tag, rest)

/-- The fields of a tagged object that is already opened. Each round reads a field. -/
def readTaggedFields (tags : List String) (depth : Nat) :
    (rounds : Nat) → (tagged : Bool) → (reversed : List (String × Node)) → Bytes →
      Except Fault (Node × Bytes)
  | 0, _, _, _ => .error .truncated
  | rounds + 1, tagged, reversed, bytes => do
    match ← nextName .full reversed.isEmpty bytes with
    | (none, rest) =>
      if tagged then return (.object reversed.reverse, rest) else throw .mismatched
    | (some name, rest) =>
      if name = "kind" then
        if tagged then throw .mismatched
        let (tag, rest) ← readTag tags (← afterColon rest)
        readTaggedFields tags depth rounds true ((name, tag) :: reversed) rest
      else
        let (entry, rest) ← readNode depth (← afterColon rest)
        readTaggedFields tags depth rounds tagged ((name, entry) :: reversed) rest

/-- A tagged form: an object or an array. Anything else is read and then refused. -/
def readTagged (tags : List String) (depth : Nat) (bytes : Bytes) :
    Except Fault (Node × Bytes) :=
  match skipSeparators bytes, depth with
  | 0x5B :: rest, depth + 1 => do
    match ← nextItem true rest with
    | (false, _) => throw .mismatched
    | (true, rest) =>
      let (tag, rest) ← readTag tags rest
      readItems .full (enoughSteps rest) depth false [tag] rest
  | 0x7B :: rest, depth + 1 => readTaggedFields tags depth (rest.length + 1) false [] rest
  | rest, _ => do
    let _ ← readScalar .full rest
    throw .mismatched

/-- The condition of a query, or null. -/
def readFilter (depth : Nat) (bytes : Bytes) : Except Fault (Option Expr × Bytes) :=
  match skipSeparators bytes with
  | 0x6E :: rest => (readWord [0x75, 0x6C, 0x6C] rest).map (none, ·)
  | rest => do
    let (node, rest) ← readTagged Expr.kinds depth rest
    return (some (← wanted (Expr.ofNode? node)), rest)

/-- The selectors of a list that is already opened. Each round reads one. -/
def readSelectorItems (depth : Nat) : (rounds : Nat) → (reversed : List Selector) → Bytes →
    Except Fault (List Selector × Bytes)
  | 0, _, _ => .error .truncated
  | rounds + 1, reversed, bytes => do
    match ← nextItem reversed.isEmpty bytes with
    | (false, rest) => return (reversed.reverse, rest)
    | (true, rest) =>
      let (node, rest) ← readTagged Selector.kinds depth rest
      let selector ← wanted (Selector.ofNode? node)
      readSelectorItems depth rounds (selector :: reversed) rest

/-- The selectors of a query. -/
def readSelectors (depth : Nat) (bytes : Bytes) : Except Fault (List Selector × Bytes) :=
  match skipSeparators bytes, depth with
  | 0x5B :: rest, depth + 1 => readSelectorItems depth (rest.length + 1) [] rest
  | 0x7B :: _, _ => .error .mismatched
  | rest, _ => do
    let _ ← readScalar .full rest
    throw .mismatched

/-- The parts of a query that are read so far. -/
structure Draft where
  /-- The path of the table. -/
  root : Option String := none
  /-- The condition, which may be null. -/
  filter : Option (Option Expr) := none
  /-- The selected columns. -/
  selectors : Option (List Selector) := none
  /-- Whether equal rows are given back once. -/
  distinct : Option Bool := none

/-- The query that is complete with defaults for what was left out. -/
def Draft.query (draft : Draft) : Except Fault Query := do
  return {
    root := ← wanted draft.root
    filter := draft.filter.getD none
    selectors := ← wanted draft.selectors
    distinct := draft.distinct.getD false }

/-- Whether a part is already read. -/
def Draft.has (draft : Draft) (name : String) : Bool :=
  match name with
  | "root_path" => draft.root.isSome
  | "filter" => draft.filter.isSome
  | "projections" => draft.selectors.isSome
  | "distinct" => draft.distinct.isSome
  | _ => false

/-- The number of containers that may be opened inside a query. -/
def queryDepth : Nat := nestingLimit - 1

/-- Read the part with a name, or skip it if it is not known. -/
def Draft.readPart (draft : Draft) (name : String) (bytes : Bytes) :
    Except Fault (Draft × Bytes) := do
  match name with
  | "root_path" =>
    let (root, rest) ← readLeaf Node.text? bytes
    return ({ draft with root := some root }, rest)
  | "filter" =>
    let (filter, rest) ← readFilter queryDepth bytes
    return ({ draft with filter := some filter }, rest)
  | "projections" =>
    let (selectors, rest) ← readSelectors queryDepth bytes
    return ({ draft with selectors := some selectors }, rest)
  | "distinct" =>
    let (distinct, rest) ← readLeaf Node.boolean? bytes
    return ({ draft with distinct := some distinct }, rest)
  | _ => return (draft, ← skipNode bytes)

/-- The fields of a query that is already opened. Each round reads one. -/
def readNamed : (rounds : Nat) → (first : Bool) → Draft → Bytes → Except Fault (Draft × Bytes)
  | 0, _, _, _ => .error .truncated
  | rounds + 1, first, draft, bytes => do
    match ← nextName .full first bytes with
    | (none, rest) => return (draft, rest)
    | (some name, rest) =>
      if draft.has name then throw .mismatched
      let (draft, rest) ← draft.readPart name (← afterColon rest)
      readNamed rounds false draft rest

/-- The parts of a query that are listed in order. Only the last one may be left out, and nothing
may follow it. -/
def readListed (draft : Draft) (first : Bool) : (names : List String) → Bytes →
    Except Fault (Draft × Bytes)
  | [], bytes =>
    match skipSeparators bytes with
    | 0x5D :: rest => .ok (draft, rest)
    | rest => .error (faultAt rest)
  | name :: names, bytes => do
    match ← nextItem first bytes with
    | (false, rest) => return (draft, rest)
    | (true, rest) =>
      let (draft, rest) ← draft.readPart name rest
      readListed draft false names rest

/-- The query that starts here. -/
def readQuery (bytes : Bytes) : Except Fault (Query × Bytes) :=
  match skipSeparators bytes with
  | 0x5B :: rest => do
    let (draft, rest) ← readListed {} true ["root_path", "filter", "projections", "distinct"] rest
    return (← draft.query, rest)
  | 0x7B :: rest => do
    let (draft, rest) ← readNamed (rest.length + 1) true {} rest
    return (← draft.query, rest)
  | rest => do
    let _ ← readScalar .full rest
    throw .mismatched

end RowQuery.Form

namespace RowQuery

/-- The query that a JSON text writes. -/
def Query.read (text : String) : Except Json.Fault Query := do
  let (query, rest) ← Form.readQuery (Json.bytesOf text)
  Json.ended rest
  return query

end RowQuery
