import RowQuery.Query

/-! # Paths

A dotted path names fields one inside the other. The root spellings name the node itself and have no
segments; in every other path each dot separates two segments, which may be empty.
-/

namespace RowQuery

/-- A dotted path. -/
structure Path where
  /-- The path as it is written. -/
  complete : String
deriving DecidableEq

namespace Path

/-- Whether a path names the node itself. -/
def isRoot (path : Path) : Bool :=
  path.complete = rootPath || path.complete = ""

/-- The parts of a text between dots. -/
def splitDots : List Char → List (List Char)
  | [] => [[]]
  | c :: rest =>
    if c = '.' then [] :: splitDots rest
    else
      match splitDots rest with
      | [] => [[c]]
      | first :: more => (c :: first) :: more

/-- A text has at least one part. -/
theorem splitDots_ne_nil (chars : List Char) : splitDots chars ≠ [] := by
  cases chars with
  | nil => simp [splitDots]
  | cons c rest =>
    simp only [splitDots]
    split
    · simp
    · split <;> simp

/-- A dot between two texts separates their parts. -/
theorem splitDots_append (first rest : List Char) :
    splitDots (first ++ '.' :: rest) = splitDots first ++ splitDots rest := by
  induction first with
  | nil => simp [splitDots]
  | cons c more ih =>
    simp only [List.cons_append, splitDots, ih]
    split
    · rfl
    · cases parts : splitDots more with
      | nil => exact absurd parts (splitDots_ne_nil more)
      | cons part parts => rfl

/-- The field names in the order in which they are followed. -/
def segments (path : Path) : List String :=
  if path.isRoot then [] else (splitDots path.complete.toList).map String.ofList

/-- Every path but the root spellings has a first segment. -/
theorem exists_segments {path : Path} (inner : path.isRoot = false) :
    ∃ first rest, path.segments = first :: rest := by
  rw [segments, if_neg (by rw [inner]; exact Bool.false_ne_true)]
  cases parts : splitDots path.complete.toList with
  | nil => exact absurd parts (splitDots_ne_nil _)
  | cons part rest => exact ⟨String.ofList part, rest.map String.ofList, rfl⟩

/-- Segments written as a path again. -/
def join (segments : List String) : String :=
  String.intercalate "." segments

end Path

end RowQuery
