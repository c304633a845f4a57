import RowQuery.Json.Node

/-! # Parts of a form

The JSON form of a structure is an object that names its parts, or an array that lists them in their
fixed order. Names that the structure does not know are ignored; a known name must not stand twice.
A tagged structure also carries a tag, which selects the construct.
-/

namespace RowQuery

/-- Where a form stands. Inside another form, a tag may also be given by its position among the
tags, and the empty object counts as the unit. -/
inductive Place where
  | outer
  | inner
deriving DecidableEq

/-- The unit is null. -/
def isUnit (place : Place) : Node → Bool
  | .null => true
  | .object [] => place = .inner
  | _ => false

/-- The name that a plain choice gives: a text, or an object whose only field has that name and
holds the unit. -/
def choice? (place : Place) : Node → Option String
  | .text name => some name
  | .object [(name, content)] => if isUnit place content then some name else none
  | _ => none

/-- The tag that a node gives. -/
def tag? (place : Place) (tags : List String) : Node → Option String
  | .text name => if name ∈ tags then some name else none
  | .number (.integer index _) =>
    if place = .inner ∧ 0 ≤ index then tags[index.toNat]? else none
  | _ => none

/-- The content of a form: named, or listed in order. -/
inductive Content (α : Type) where
  | named (fields : List (String × α))
  | listed (items : List α)

/-- The parts of a structure by name. -/
structure Parts (α : Type) where
  /-- The known parts that are given. -/
  fields : List (String × α)
  /-- Whether the parts were listed in order. -/
  listed : Bool

namespace Content

variable {α : Type}

/-- The tag of a form and the content beside it. The tag stands first in a listed form and under
`key`, exactly once, in a named one. -/
def untag? (key : String) : Content α → Option (α × Content α)
  | .named fields =>
    match fields.filter (·.1 = key) with
    | [(_, tag)] => some (tag, .named (fields.filter (·.1 ≠ key)))
    | _ => none
  | .listed (tag :: items) => some (tag, .listed items)
  | .listed [] => none

/-- The parts of a structure whose parts have these names in order. -/
def parts? (names : List String) : Content α → Option (Parts α)
  | .named fields =>
    let known := fields.filter (·.1 ∈ names)
    if (known.map Prod.fst).Nodup then some ⟨known, false⟩ else none
  | .listed items =>
    if items.length ≤ names.length then some ⟨names.zip items, true⟩ else none

/-- A structure without parts: whatever is named is ignored, nothing may be listed. -/
def isBare : Content α → Bool
  | .named _ => true
  | .listed items => items.isEmpty

end Content

namespace Parts

variable {α β : Type}

/-- A part that must be given. -/
def required (parts : Parts α) (name : String) : Option α :=
  parts.fields.lookup name

/-- A part that falls back to a default when it is not given. -/
def orElse (parts : Parts α) (name : String) (fallback : β) (read : α → Option β) : Option β :=
  match parts.fields.lookup name with
  | some part => read part
  | none => some fallback

/-- A part without a default that may be absent, but only from a named form. -/
def orAbsent (parts : Parts α) (name : String) (read : α → Option (Option β)) :
    Option (Option β) :=
  match parts.fields.lookup name with
  | some part => read part
  | none => if parts.listed then none else some none

end Parts

namespace Node

/-- The content of an object or an array. -/
def content? : Node → Option (Content Node)
  | .object fields => some (.named fields)
  | .array items => some (.listed items)
  | _ => none

/-- The text of a node that is one. -/
def text? : Node → Option String
  | .text value => some value
  | _ => none

/-- The truth value of a node that is one. -/
def boolean? : Node → Option Bool
  | .boolean value => some value
  | _ => none

/-- The text of a node that is one, or nothing for null. -/
def optionalText? : Node → Option (Option String)
  | .null => some none
  | node => node.text?.map some

end Node

end RowQuery
