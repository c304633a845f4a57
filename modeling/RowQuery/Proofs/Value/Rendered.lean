import RowQuery.Proofs.Decimal.Nearest
import RowQuery.Proofs.Value.Canonical

/-! # Rendered documents

What conversion makes of a document node, without reference to how it is found: the structure stays,
an integer beyond the signed words becomes the nearest float, and with inference a text in an ISO
layout becomes the canonical text of the value that it denotes. The canonical form of a tree is
rendered in this way (`RowQuery.Node.rendered_canonical`).
-/

namespace RowQuery

/-- Whether the second number is what conversion makes of the first. -/
inductive Number.Rendered : Number → Number → Prop where
  | kept {number : Number} (signed : number.Signed) : Rendered number number
  | widened {n : Int} {inRange : IntegerRange n} {x : Float} {finite : x.isFinite = true}
      (beyond : 9_223_372_036_854_775_808 ≤ n) (nearest : Binary64.Nearest x n) :
      Rendered (.integer n inRange) (.decimal x finite)

theorem Number.rendered_rounded (number : Number) : number.Rendered number.rounded := by
  by_cases signed : number.Signed
  · rw [rounded_eq_iff.mpr signed]
    exact .kept signed
  · cases number with
    | decimal => exact absurd trivial signed
    | integer n inRange =>
        have beyond : 9_223_372_036_854_775_808 ≤ n := Int.not_lt.mp signed
        have unsigned : (integer n inRange).toInt64? = none := if_neg (Int.not_lt.mpr beyond)
        rw [rounded_of_none unsigned]
        have whole : 0 ≤ n := by omega
        obtain ⟨m, rfl⟩ := Int.eq_ofNat_of_zero_le whole
        have positive : m ≠ 0 := by omega
        have below : m < 2 ^ 64 := Int.ofNat_lt.mp inRange.2
        exact .widened beyond (Binary64.nearest_ofNat positive below)

namespace Node

mutual

/-- Whether the second tree is what conversion makes of the first; `inferTemporal` says whether
texts are read as temporal values. -/
inductive Rendered (inferTemporal : Bool) : Node → Node → Prop where
  | null : Rendered inferTemporal .null .null
  | boolean (value : Bool) : Rendered inferTemporal (.boolean value) (.boolean value)
  | number {given shown : Number} (rendered : given.Rendered shown) :
      Rendered inferTemporal (.number given) (.number shown)
  /-- A text is kept if it is in no layout, and so is every text that is not probed. -/
  | text {written : String}
      (plain : inferTemporal = true → ∀ value, ¬ Value.Denotes written.toList value) :
      Rendered inferTemporal (.text written) (.text written)
  /-- A text in an ISO layout becomes the canonical text of its value. -/
  | temporal {written shown : String} {value : Value} (probed : inferTemporal = true)
      (denotes : Value.Denotes written.toList value) (renders : Value.Renders shown.toList value) :
      Rendered inferTemporal (.text written) (.text shown)
  | array {items shown : List Node} (each : RenderedItems inferTemporal items shown) :
      Rendered inferTemporal (.array items) (.array shown)
  | object {fields shown : List (String × Node)}
      (each : RenderedFields inferTemporal fields shown) :
      Rendered inferTemporal (.object fields) (.object shown)

/-- Whether this holds item by item. -/
inductive RenderedItems (inferTemporal : Bool) : List Node → List Node → Prop where
  | nil : RenderedItems inferTemporal [] []
  | cons {item shown : Node} {rest others : List Node}
      (first : Rendered inferTemporal item shown)
      (each : RenderedItems inferTemporal rest others) :
      RenderedItems inferTemporal (item :: rest) (shown :: others)

/-- Whether this holds entry by entry, under the same names in the same order. -/
inductive RenderedFields (inferTemporal : Bool) :
    List (String × Node) → List (String × Node) → Prop where
  | nil : RenderedFields inferTemporal [] []
  | cons {name : String} {entry shown : Node} {rest others : List (String × Node)}
      (first : Rendered inferTemporal entry shown)
      (each : RenderedFields inferTemporal rest others) :
      RenderedFields inferTemporal ((name, entry) :: rest) ((name, shown) :: others)

end

/-- The text of the value that a text is read as is the canonical one. -/
theorem rendered_text (inferTemporal : Bool) (written : String) :
    Rendered inferTemporal (.text written)
      (.text (if inferTemporal then Value.canonicalText written else written)) := by
  cases inferTemporal with
  | false => exact .text fun probed => absurd probed Bool.false_ne_true
  | true =>
      rw [if_pos rfl]
      rcases Value.infer_eq_iff.mp (Eq.refl (Value.infer written)) with denotes | ⟨plain, never⟩
      · exact .temporal rfl denotes ((Value.renders_iff denotes).mpr rfl)
      · rw [Value.canonicalText, plain]
        exact .text fun _ => never

mutual

/-- The canonical form of a tree is what conversion makes of it. -/
theorem rendered_canonical (inferTemporal : Bool) :
    (node : Node) → node.Rendered inferTemporal (node.canonical inferTemporal)
  | .null => .null
  | .boolean value => .boolean value
  | .number given => .number given.rendered_rounded
  | .text written => rendered_text inferTemporal written
  | .array items => .array (renderedItems_canonicalItems inferTemporal items)
  | .object fields => .object (renderedFields_canonicalFields inferTemporal fields)

theorem renderedItems_canonicalItems (inferTemporal : Bool) : (items : List Node) →
    RenderedItems inferTemporal items (canonicalItems inferTemporal items)
  | [] => .nil
  | item :: rest =>
    .cons (rendered_canonical inferTemporal item) (renderedItems_canonicalItems inferTemporal rest)

theorem renderedFields_canonicalFields (inferTemporal : Bool) :
    (fields : List (String × Node)) →
    RenderedFields inferTemporal fields (canonicalFields inferTemporal fields)
  | [] => .nil
  | (_, entry) :: rest =>
    .cons (rendered_canonical inferTemporal entry)
      (renderedFields_canonicalFields inferTemporal rest)

end

end Node

end RowQuery
