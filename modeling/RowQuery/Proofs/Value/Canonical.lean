import RowQuery.Proofs.Calendar.Canonical
import RowQuery.Proofs.Decimal.Finite
import RowQuery.Proofs.Fields
import RowQuery.Proofs.Value.Inference
import RowQuery.Value.Text

/-! # What conversion keeps of a document

The node of the value of a document node is the same tree with other leaves: an integer beyond the
signed words becomes a float, and with inference a text in an ISO layout becomes the text of its
value (`RowQuery.Value.toNode_ofNode`). Every other leaf, and all of the structure, is kept;
`RowQuery.Node.canonical_eq_iff` says for which trees nothing changes.
-/

namespace RowQuery

/-! ### Numbers -/

namespace Number

/-- Whether a number is a float or an integer of the signed 64-bit range. -/
def Signed : Number → Prop
  | .integer n _ => n < 9_223_372_036_854_775_808
  | .decimal _ _ => True

/-- The number with an integer beyond the signed range replaced by its float. -/
def rounded (number : Number) : Number :=
  match fits : number.toInt64? with
  | some _ => number
  | none => .decimal number.toFloat (isFinite_toFloat fits)

theorem rounded_of_some {number : Number} {word : Int64} (fits : number.toInt64? = some word) :
    number.rounded = number := by
  unfold rounded
  split
  · rfl
  · next none => cases none.symm.trans fits

theorem rounded_of_none {number : Number} (fits : number.toInt64? = none) :
    number.rounded = .decimal number.toFloat (isFinite_toFloat fits) := by
  unfold rounded
  split
  · next some => cases some.symm.trans fits
  · rfl

theorem rounded_eq_iff {number : Number} : number.rounded = number ↔ number.Signed := by
  cases number with
  | decimal x finite => exact iff_of_true (rounded_of_none rfl) trivial
  | integer n inRange =>
      by_cases small : n < 9_223_372_036_854_775_808
      · have fits : (integer n inRange).toInt64? = some (Int64.ofInt n) := if_pos small
        exact iff_of_true (rounded_of_some fits) small
      · have beyond : (integer n inRange).toInt64? = none := if_neg small
        refine iff_of_false ?_ small
        rw [rounded_of_none beyond]
        exact nofun

theorem ofInt64_of_toInt64? {number : Number} {word : Int64} (fits : number.toInt64? = some word) :
    ofInt64 word = number := by
  cases number with
  | decimal x finite => cases fits
  | integer n inRange =>
      by_cases small : n < 9_223_372_036_854_775_808
      · rw [toInt64?, if_pos small, Option.some.injEq] at fits
        have exact : word.toInt = n := by
          rw [← fits, Int64.toInt_ofInt_of_le inRange.1 small]
        simp only [ofInt64, exact]
      · rw [toInt64?, if_neg small] at fits
        cases fits

theorem toNode_ofNumber (number : Number) :
    (Value.ofNumber number).toNode = .number number.rounded := by
  cases fits : number.toInt64? with
  | some word =>
      rw [Value.ofNumber, fits, rounded_of_some fits]
      exact congrArg Node.number (ofInt64_of_toInt64? fits)
  | none =>
      have finite := isFinite_toFloat fits
      rw [Value.ofNumber, fits, rounded_of_none fits]
      dsimp only
      rw [Value.toNode, Value.floatNode, ofFloat?, dif_pos finite]

theorem ofNumber_rounded (number : Number) :
    Value.ofNumber number.rounded = Value.ofNumber number := by
  cases fits : number.toInt64? with
  | some word => rw [rounded_of_some fits]
  | none =>
      rw [rounded_of_none fits, Value.ofNumber, Value.ofNumber, fits]
      rfl

end Number

/-! ### Texts -/

namespace Value

variable {chars other : List Char} {value : Value} {written : String}

/-- The canonical texts of the temporal values. -/
inductive Renders (chars : List Char) : Value → Prop where
  | instant {point : Instant} (renders : Iso.RendersInstant chars point) :
      Renders chars (.instant point)
  | localDateTime {moment : LocalDateTime} (renders : Iso.RendersDateTime chars moment) :
      Renders chars (.localDateTime moment)
  | localDate {date : Date} (renders : Iso.RendersDate chars date) :
      Renders chars (.localDate date)
  | localTime {time : Time} (renders : Iso.RendersTime chars time) :
      Renders chars (.localTime time)

/-- The text of a value that a layout gives is the canonical one. -/
theorem renders_iff (denotes : Denotes chars value) :
    Renders other value ↔ other = value.display.toList := by
  cases denotes with
  | instant =>
      rw [display, Instant.text, String.toList_ofList, ← Iso.rendersInstant_iff]
      exact ⟨fun (.instant renders) => renders, .instant⟩
  | localDateTime =>
      rw [display, LocalDateTime.text, String.toList_ofList, ← Iso.rendersDateTime_iff]
      exact ⟨fun (.localDateTime renders) => renders, .localDateTime⟩
  | localDate =>
      rw [display, Date.text, String.toList_ofList, ← Iso.rendersDate_iff]
      exact ⟨fun (.localDate renders) => renders, .localDate⟩
  | localTime =>
      rw [display, Time.text, String.toList_ofList, ← Iso.rendersTime_iff]
      exact ⟨fun (.localTime renders) => renders, .localTime⟩

/-- The text of the value that a text is read as. -/
def canonicalText (written : String) : String :=
  (infer written).display

theorem Denotes.toNode_eq (denotes : Denotes chars value) : value.toNode = .text value.display := by
  cases denotes <;> rfl

theorem toNode_infer (written : String) :
    (infer written).toNode = .text (canonicalText written) := by
  rcases infer_eq_iff.mp (Eq.refl (infer written)) with denotes | ⟨plain, -⟩
  · exact denotes.toNode_eq
  · rw [canonicalText, plain]
    rfl

/-- A text is kept exactly if it is in no layout or the canonical text of the value that it
denotes. -/
theorem canonicalText_eq_iff : canonicalText written = written ↔
    ∀ value, Denotes written.toList value → Renders written.toList value := by
  rcases infer_eq_iff.mp (Eq.refl (infer written)) with denotes | ⟨plain, never⟩
  · constructor
    · intro kept value other
      rw [renders_iff other, ← denotes.unique other]
      exact congrArg String.toList kept.symm
    · intro each
      have same := (renders_iff denotes).mp (each _ denotes)
      exact String.toList_inj.mp same.symm
  · rw [canonicalText, plain]
    exact iff_of_true rfl fun value denotes => absurd denotes (never value)

end Value

/-! ### Trees -/

namespace Node

mutual

/-- The tree with every leaf as its value renders it; `inferTemporal` says whether texts are read as
temporal values. -/
def canonical (inferTemporal : Bool) : Node → Node
  | .null => .null
  | .boolean value => .boolean value
  | .number given => .number given.rounded
  | .text written => .text (if inferTemporal then Value.canonicalText written else written)
  | .array items => .array (canonicalItems inferTemporal items)
  | .object fields => .object (canonicalFields inferTemporal fields)

/-- Each node in canonical form. -/
def canonicalItems (inferTemporal : Bool) : List Node → List Node
  | [] => []
  | item :: rest => item.canonical inferTemporal :: canonicalItems inferTemporal rest

/-- Each entry in canonical form. -/
def canonicalFields (inferTemporal : Bool) : List (String × Node) → List (String × Node)
  | [] => []
  | (name, entry) :: rest =>
    (name, entry.canonical inferTemporal) :: canonicalFields inferTemporal rest

end

mutual

/-- Whether conversion keeps every leaf of a tree: its integers are signed words, and a text that
denotes a temporal value is the canonical text of that value. -/
def Preserved (inferTemporal : Bool) : Node → Prop
  | .null => True
  | .boolean _ => True
  | .number given => given.Signed
  | .text written => inferTemporal = true →
      ∀ value, Value.Denotes written.toList value → Value.Renders written.toList value
  | .array items => PreservedItems inferTemporal items
  | .object fields => PreservedFields inferTemporal fields

/-- Whether this holds of each node. -/
def PreservedItems (inferTemporal : Bool) : List Node → Prop
  | [] => True
  | item :: rest => item.Preserved inferTemporal ∧ PreservedItems inferTemporal rest

/-- Whether this holds of each entry. -/
def PreservedFields (inferTemporal : Bool) : List (String × Node) → Prop
  | [] => True
  | (_, entry) :: rest => entry.Preserved inferTemporal ∧ PreservedFields inferTemporal rest

end

theorem names_canonicalFields (inferTemporal : Bool) (fields : List (String × Node)) :
    Fields.names (canonicalFields inferTemporal fields) = Fields.names fields := by
  induction fields with
  | nil => rfl
  | cons field rest ih => exact congrArg (field.1 :: ·) ih

mutual

theorem canonical_eq_iff {inferTemporal : Bool} :
    (node : Node) → (node.canonical inferTemporal = node ↔ node.Preserved inferTemporal)
  | .null => iff_of_true rfl trivial
  | .boolean _ => iff_of_true rfl trivial
  | .number _ => by
      rw [canonical, Preserved, Node.number.injEq, Number.rounded_eq_iff]
  | .text written => by
      rw [canonical, Preserved, Node.text.injEq]
      cases inferTemporal with
      | false => exact iff_of_true rfl nofun
      | true =>
          rw [if_pos rfl, Value.canonicalText_eq_iff]
          exact (imp_iff_right rfl).symm
  | .array items => by
      rw [canonical, Preserved, Node.array.injEq, canonicalItems_eq_iff items]
  | .object fields => by
      rw [canonical, Preserved, Node.object.injEq, canonicalFields_eq_iff fields]

theorem canonicalItems_eq_iff {inferTemporal : Bool} : (items : List Node) →
    (canonicalItems inferTemporal items = items ↔ PreservedItems inferTemporal items)
  | [] => iff_of_true rfl trivial
  | item :: rest => by
      rw [canonicalItems, PreservedItems, List.cons.injEq, canonical_eq_iff item,
        canonicalItems_eq_iff rest]

theorem canonicalFields_eq_iff {inferTemporal : Bool} : (fields : List (String × Node)) →
    (canonicalFields inferTemporal fields = fields ↔ PreservedFields inferTemporal fields)
  | [] => iff_of_true rfl trivial
  | (_, entry) :: rest => by
      rw [canonicalFields, PreservedFields, List.cons.injEq, Prod.mk.injEq, eq_self, true_and,
        canonical_eq_iff entry, canonicalFields_eq_iff rest]

end

end Node

namespace Value

open Node

mutual

/-- The node of the value of a document node is the node in canonical form. -/
theorem toNode_ofNode (inferTemporal : Bool) : {node : Node} → node.WellFormed →
    (ofNode inferTemporal node).toNode = node.canonical inferTemporal
  | .null, _ => rfl
  | .boolean _, _ => rfl
  | .number given, _ => given.toNode_ofNumber
  | .text written, _ => by
      rw [ofNode, canonical]
      cases inferTemporal with
      | false => rfl
      | true => exact toNode_infer written
  | .array items, wellFormed => by
      rw [ofNode, canonical, toNode, toNodes_ofItems inferTemporal wellFormed]
  | .object fields, wellFormed => by
      obtain ⟨distinct, each⟩ := wellFormed
      -- The field names are distinct, so assembling the fields again changes nothing.
      rw [← names_canonicalFields inferTemporal fields] at distinct
      rw [ofNode, canonical, toNode, toFields_ofFields inferTemporal each,
        Fields.ofList_of_nodup distinct]

theorem toNodes_ofItems (inferTemporal : Bool) : {items : List Node} → WellFormedItems items →
    toNodes (ofItems inferTemporal items) = canonicalItems inferTemporal items
  | [], _ => rfl
  | _ :: _, ⟨first, others⟩ => by
      rw [ofItems, toNodes, canonicalItems, toNode_ofNode inferTemporal first,
        toNodes_ofItems inferTemporal others]

theorem toFields_ofFields (inferTemporal : Bool) : {fields : List (String × Node)} →
    WellFormedFields fields →
    toFields (ofFields inferTemporal fields) = canonicalFields inferTemporal fields
  | [], _ => rfl
  | (_, _) :: _, ⟨first, others⟩ => by
      rw [ofFields, toFields, canonicalFields, toNode_ofNode inferTemporal first,
        toFields_ofFields inferTemporal others]

end

end Value

end RowQuery
