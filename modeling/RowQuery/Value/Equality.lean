import RowQuery.Value.Basic

/-! # Structural equality

Two values are the same when they have one type and the same content: numbers of different types
never are, and floats are compared bit by bit, so that a NaN is the same as itself and zero differs
from minus zero. The test holds of every value and itself (`Value.same_self`) and of no two
different ones (`Value.eq_of_same`). `Value.feed` lists what a value hands to a hash function.
-/

namespace RowQuery.Value

mutual

/-- Whether two values have the same type and content. -/
def same : Value → Value → Bool
  | .integer a, .integer b => a == b
  | .float a, .float b => a.toBits == b.toBits
  | .text a, .text b => a == b
  | .boolean a, .boolean b => a == b
  | .instant a, .instant b => a == b
  | .localDateTime a, .localDateTime b => a == b
  | .localDate a, .localDate b => a == b
  | .localTime a, .localTime b => a == b
  | .null, .null => true
  | .list a, .list b => sameItems a b
  | .object a, .object b => sameFields a b
  | .multi m a, .multi n b => m == n && sameItems a b
  | _, _ => false

/-- Whether two lists hold the same values in the same order. -/
def sameItems : List Value → List Value → Bool
  | [], [] => true
  | a :: as, b :: bs => same a b && sameItems as bs
  | _, _ => false

/-- Whether two lists hold the same names and values in the same order. -/
def sameFields : List (String × Value) → List (String × Value) → Bool
  | [], [] => true
  | (m, a) :: as, (n, b) :: bs => m == n && same a b && sameFields as bs
  | _, _ => false

end

instance : BEq Value := ⟨same⟩

mutual

/-- A value is the same as itself. -/
theorem same_self (value : Value) : same value value = true := by
  cases value with
  | list items => simpa only [same] using sameItems_self items
  | object fields => simpa only [same] using sameFields_self fields
  | multi mode items => simp only [same, beq_self_eq_true, sameItems_self items, Bool.and_self]
  | null => rfl
  | _ => simp only [same, beq_self_eq_true]

/-- Values are the same as themselves. -/
theorem sameItems_self (items : List Value) : sameItems items items = true := by
  cases items with
  | nil => rfl
  | cons item rest => simp only [sameItems, same_self item, sameItems_self rest, Bool.and_self]

/-- Named values are the same as themselves. -/
theorem sameFields_self (fields : List (String × Value)) : sameFields fields fields = true := by
  cases fields with
  | nil => rfl
  | cons field rest =>
    obtain ⟨name, entry⟩ := field
    simp only [sameFields, beq_self_eq_true, same_self entry, sameFields_self rest, Bool.and_self]

end

mutual

/-- Structural equality identifies only equal values. -/
theorem eq_of_same {a b : Value} (equal : same a b = true) : a = b := by
  match a, b, equal with
  | .integer _, .integer _, equal => simpa [same] using equal
  | .float _, .float _, equal => exact congrArg _ (eq_of_toBits_eq (by simpa [same] using equal))
  | .text _, .text _, equal => simpa [same] using equal
  | .boolean _, .boolean _, equal => simpa [same] using equal
  | .instant _, .instant _, equal => simpa [same] using equal
  | .localDateTime _, .localDateTime _, equal => simpa [same] using equal
  | .localDate _, .localDate _, equal => simpa [same] using equal
  | .localTime _, .localTime _, equal => simpa [same] using equal
  | .null, .null, _ => rfl
  | .list _, .list _, equal => exact congrArg _ (eq_of_sameItems (by simpa [same] using equal))
  | .object _, .object _, equal => exact congrArg _ (eq_of_sameFields (by simpa [same] using equal))
  | .multi m a, .multi n b, equal =>
    have both : m = n ∧ sameItems a b = true := by simpa [same] using equal
    rw [both.1, eq_of_sameItems both.2]

/-- Structural equality identifies only equal lists. -/
theorem eq_of_sameItems {a b : List Value} (equal : sameItems a b = true) : a = b := by
  match a, b, equal with
  | [], [], _ => rfl
  | a :: as, b :: bs, equal =>
    have both : same a b = true ∧ sameItems as bs = true := by simpa [sameItems] using equal
    rw [eq_of_same both.1, eq_of_sameItems both.2]

/-- Structural equality identifies only equal lists of fields. -/
theorem eq_of_sameFields {a b : List (String × Value)} (equal : sameFields a b = true) : a = b := by
  match a, b, equal with
  | [], [], _ => rfl
  | (m, a) :: as, (n, b) :: bs, equal =>
    have all : (m = n ∧ same a b = true) ∧ sameFields as bs = true := by
      simpa [sameFields] using equal
    rw [all.1.1, eq_of_same all.1.2, eq_of_sameFields all.2]

end

instance : LawfulBEq Value where
  eq_of_beq := eq_of_same
  rfl := same_self _

instance : DecidableEq Value := fun a b =>
  decidable_of_iff (a == b) beq_iff_eq

/-- One item that a value hands to a hash function. -/
inductive Write where
  | kind (kind : Kind)
  | mode (mode : MatchMode)
  | count (count : Nat)
  | integer (value : Int64)
  | bits (bits : UInt64)
  | text (text : String)
  | boolean (value : Bool)
  | date (date : Date)
  | time (time : Time)
deriving DecidableEq

mutual

/-- What a value hands to a hash function, in order: its type, then its content. -/
def feed (value : Value) : List Write :=
  .kind value.kind :: match value with
    | .integer value => [.integer value]
    | .float value => [.bits value.toBits]
    | .text value => [.text value]
    | .boolean value => [.boolean value]
    | .instant value => [.date value.utc.date, .time value.utc.time]
    | .localDateTime value => [.date value.date, .time value.time]
    | .localDate value => [.date value]
    | .localTime value => [.time value]
    | .null => []
    | .list items => .count items.length :: feedItems items
    | .object fields => .count fields.length :: feedFields fields
    | .multi mode items => .mode mode :: .count items.length :: feedItems items

/-- What several values hand to a hash function. -/
def feedItems : List Value → List Write
  | [] => []
  | item :: rest => feed item ++ feedItems rest

/-- What named values hand to a hash function. -/
def feedFields : List (String × Value) → List Write
  | [] => []
  | (name, entry) :: rest => .text name :: feed entry ++ feedFields rest

end

end RowQuery.Value
