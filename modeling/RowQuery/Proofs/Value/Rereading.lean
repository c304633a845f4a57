import RowQuery.Proofs.Calendar.Rendering
import RowQuery.Proofs.Value.Canonical

/-! # Reading a converted document again

A value that is converted to a document node and read again is the same value, unless it holds an
instant outside the years 0 to 9999, whose text no layout accepts
(`RowQuery.Value.ofNode_toNode_iff`).
-/

namespace RowQuery.Value

/-! ### The instants of a value -/

mutual

/-- The instants in a value, in order. -/
def instants : Value → List Instant
  | .instant point => [point]
  | .list items => instantsOfItems items
  | .object fields => instantsOfFields fields
  | .multi _ items => instantsOfItems items
  | _ => []

/-- The instants in several values. -/
def instantsOfItems : List Value → List Instant
  | [] => []
  | item :: rest => item.instants ++ instantsOfItems rest

/-- The instants in the fields of an object. -/
def instantsOfFields : List (String × Value) → List Instant
  | [] => []
  | (_, entry) :: rest => entry.instants ++ instantsOfFields rest

end

theorem instants_ofNumber (number : Number) : (ofNumber number).instants = [] := by
  unfold ofNumber
  split <;> rfl

/-! ### Texts -/

/-- The text of a value that a layout gives is read as that value again, instants in far years
excepted. -/
theorem infer_display_iff {chars : List Char} {value : Value} (denotes : Denotes chars value) :
    infer value.display = value ↔ ∀ point ∈ value.instants, point.utc.date.FourDigits := by
  cases denotes with
  | @instant point isInstant =>
      have noLeap := Instant.second_le_of_isInstant isInstant
      rw [instants, List.forall_mem_singleton, infer_eq_instant_iff, display, Instant.text,
        String.toList_ofList, Instant.isInstant_chars_iff]
      exact and_iff_left noLeap
  | @localDateTime _ moment isDateTime =>
      refine iff_of_true (infer_eq_localDateTime_iff.mpr ?_) (List.forall_mem_nil _)
      rw [display, LocalDateTime.text, String.toList_ofList, LocalDateTime.isDateTime_chars_iff]
      exact LocalDateTime.writable_of_isDateTime isDateTime
  | @localDate date isDate =>
      refine iff_of_true (infer_eq_localDate_iff.mpr ?_) (List.forall_mem_nil _)
      rw [display, Date.text, String.toList_ofList]
      exact Date.isDate_iff.mpr ⟨Date.fourDigits_of_isDate isDate, rfl⟩
  | @localTime _ time isTime =>
      refine iff_of_true (infer_eq_localTime_iff.mpr ?_) (List.forall_mem_nil _)
      rw [display, Time.text, String.toList_ofList, Time.isTime_chars_iff]
      exact Time.second_le_of_isTime isTime

theorem infer_canonicalText_iff (written : String) :
    infer (canonicalText written) = infer written ↔
      ∀ point ∈ (infer written).instants, point.utc.date.FourDigits := by
  rcases infer_eq_iff.mp (Eq.refl (infer written)) with denotes | ⟨plain, -⟩
  · exact infer_display_iff denotes
  · rw [canonicalText, plain]
    exact iff_of_true plain (List.forall_mem_nil _)

/-! ### Trees -/

open Node

mutual

theorem ofNode_canonical_iff {inferTemporal : Bool} : (node : Node) →
    (ofNode inferTemporal (node.canonical inferTemporal) = ofNode inferTemporal node ↔
      ∀ point ∈ (ofNode inferTemporal node).instants, point.utc.date.FourDigits)
  | .null => iff_of_true rfl (List.forall_mem_nil _)
  | .boolean _ => iff_of_true rfl (List.forall_mem_nil _)
  | .number given => by
      rw [canonical, ofNode, ofNode, instants_ofNumber]
      exact iff_of_true given.ofNumber_rounded (List.forall_mem_nil _)
  | .text written => by
      rw [canonical, ofNode, ofNode]
      cases inferTemporal with
      | false => exact iff_of_true rfl (List.forall_mem_nil _)
      | true => exact infer_canonicalText_iff written
  | .array items => by
      rw [canonical, ofNode, ofNode, Value.list.injEq, ofItems_canonicalItems_iff items, instants]
  | .object fields => by
      rw [canonical, ofNode, ofNode, Value.object.injEq, ofFields_canonicalFields_iff fields,
        instants]

theorem ofItems_canonicalItems_iff {inferTemporal : Bool} : (items : List Node) →
    (ofItems inferTemporal (canonicalItems inferTemporal items) = ofItems inferTemporal items ↔
      ∀ point ∈ instantsOfItems (ofItems inferTemporal items), point.utc.date.FourDigits)
  | [] => iff_of_true rfl (List.forall_mem_nil _)
  | item :: rest => by
      rw [canonicalItems, ofItems, ofItems, List.cons.injEq, ofNode_canonical_iff item,
        ofItems_canonicalItems_iff rest, instantsOfItems, List.forall_mem_append]

theorem ofFields_canonicalFields_iff {inferTemporal : Bool} : (fields : List (String × Node)) →
    (ofFields inferTemporal (canonicalFields inferTemporal fields) =
        ofFields inferTemporal fields ↔
      ∀ point ∈ instantsOfFields (ofFields inferTemporal fields), point.utc.date.FourDigits)
  | [] => iff_of_true rfl (List.forall_mem_nil _)
  | (_, entry) :: rest => by
      rw [canonicalFields, ofFields, ofFields, List.cons.injEq, Prod.mk.injEq, eq_self, true_and,
        ofNode_canonical_iff entry, ofFields_canonicalFields_iff rest, instantsOfFields,
        List.forall_mem_append]

end

/-- A document node's value, converted to a node and read again, is the same value exactly if all
its instants are in the years 0 to 9999. -/
theorem ofNode_toNode_iff {inferTemporal : Bool} {node : Node} (wellFormed : node.WellFormed) :
    ofNode inferTemporal (ofNode inferTemporal node).toNode = ofNode inferTemporal node ↔
      ∀ point ∈ (ofNode inferTemporal node).instants,
        0 ≤ point.utc.date.year ∧ point.utc.date.year ≤ 9999 := by
  rw [toNode_ofNode inferTemporal wellFormed]
  exact ofNode_canonical_iff node

theorem ofNode_toNode_evening :
    let evening : Node := .array [.text "18:25", .text "2012-04-23T23:25:43-02:00",
      .object [("size", .number (.integer 18_446_744_073_709_551_615 (by decide)))]]
    evening.WellFormed ∧ ofNode true (ofNode true evening).toNode = ofNode true evening :=
  have wellFormed := ⟨trivial, trivial, ⟨by decide, trivial, trivial⟩, trivial⟩
  ⟨wellFormed, (ofNode_toNode_iff wellFormed).mpr (by decide)⟩

end RowQuery.Value
