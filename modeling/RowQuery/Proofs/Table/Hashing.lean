import RowQuery.Proofs.Table.Distinct

/-! # Equality and hashing

Duplicates are found by hashing: rows are compared only with rows of the same hash. That is sound if
equal rows hand the same writes to a hash function. Structural equality says just that: two values
are the same exactly if they feed the same writes (`RowQuery.Value.same_iff_feed_eq`), however deep
lists, objects and multi values are nested, since what a value feeds also says where it ends
(`RowQuery.Value.same_of_feed_append`). So the equality of values and of rows is lawful for every
hash function (`RowQuery.Value.lawfulHashing`).
-/

namespace RowQuery

namespace Value

/-! ### What equal values feed -/

mutual

theorem feed_eq_of_same {a b : Value} (equal : same a b = true) : feed a = feed b := by
  match a, b, equal with
  | .integer _, .integer _, equal => simpa [same, feed, kind] using equal
  | .float _, .float _, equal => simpa [same, feed, kind] using equal
  | .text _, .text _, equal => simpa [same, feed, kind] using equal
  | .boolean _, .boolean _, equal => simpa [same, feed, kind] using equal
  | .instant _, .instant _, equal => simp_all [same, feed, kind]
  | .localDateTime _, .localDateTime _, equal => simp_all [same, feed, kind]
  | .localDate _, .localDate _, equal => simpa [same, feed, kind] using equal
  | .localTime _, .localTime _, equal => simpa [same, feed, kind] using equal
  | .null, .null, _ => rfl
  | .list items, .list others, equal =>
    have both := feedItems_eq_of_same (a := items) (b := others) (by simpa [same] using equal)
    simp only [feed, kind, both.1, both.2]
  | .object fields, .object others, equal =>
    have both := feedFields_eq_of_same (a := fields) (b := others) (by simpa [same] using equal)
    simp only [feed, kind, both.1, both.2]
  | .multi mode items, .multi other others, equal =>
    have parts : mode = other ∧ sameItems items others = true := by simpa [same] using equal
    have both := feedItems_eq_of_same parts.2
    simp only [feed, kind, parts.1, both.1, both.2]

theorem feedItems_eq_of_same {a b : List Value} (equal : sameItems a b = true) :
    a.length = b.length ∧ feedItems a = feedItems b := by
  match a, b, equal with
  | [], [], _ => exact ⟨rfl, rfl⟩
  | a :: as, b :: bs, equal =>
    have parts : same a b = true ∧ sameItems as bs = true := by simpa [sameItems] using equal
    have rest := feedItems_eq_of_same parts.2
    simp only [List.length_cons, feedItems, feed_eq_of_same parts.1, rest.1, rest.2, and_self]

theorem feedFields_eq_of_same {a b : List (String × Value)} (equal : sameFields a b = true) :
    a.length = b.length ∧ feedFields a = feedFields b := by
  match a, b, equal with
  | [], [], _ => exact ⟨rfl, rfl⟩
  | (m, a) :: as, (n, b) :: bs, equal =>
    have parts : (m = n ∧ same a b = true) ∧ sameFields as bs = true := by
      simpa [sameFields] using equal
    have rest := feedFields_eq_of_same parts.2
    simp only [List.length_cons, feedFields, parts.1.1, feed_eq_of_same parts.1.2, rest.1, rest.2,
      and_self]

end

/-! ### What is fed tells values apart -/

theorem kind_eq_of_feed_append {a b : Value} {s t : List Write}
    (fed : feed a ++ s = feed b ++ t) : a.kind = b.kind := by
  unfold feed at fed
  exact Write.kind.inj (List.cons.inj fed).1

mutual

/-- What is fed by one of two values followed by anything tells where the value ends. -/
theorem same_of_feed_append {a b : Value} {s t : List Write}
    (fed : feed a ++ s = feed b ++ t) : same a b = true ∧ s = t := by
  match a, b, kind_eq_of_feed_append fed, fed with
  | .integer _, .integer _, _, fed => simpa [same, feed, kind] using fed
  | .float _, .float _, _, fed => simpa [same, feed, kind] using fed
  | .text _, .text _, _, fed => simpa [same, feed, kind] using fed
  | .boolean _, .boolean _, _, fed => simpa [same, feed, kind] using fed
  | .instant ⟨⟨_, _⟩⟩, .instant ⟨⟨_, _⟩⟩, _, fed => simpa [same, feed, kind, and_assoc] using fed
  | .localDateTime ⟨_, _⟩, .localDateTime ⟨_, _⟩, _, fed =>
    simpa [same, feed, kind, and_assoc] using fed
  | .localDate _, .localDate _, _, fed => simpa [same, feed, kind] using fed
  | .localTime _, .localTime _, _, fed => simpa [same, feed, kind] using fed
  | .null, .null, _, fed => simpa [same, feed, kind] using fed
  | .list items, .list others, _, fed =>
    have parts : items.length = others.length ∧ feedItems items ++ s = feedItems others ++ t := by
      simpa [feed, kind] using fed
    simpa only [same] using sameItems_of_feedItems_append parts.1 parts.2
  | .object fields, .object others, _, fed =>
    have parts : fields.length = others.length ∧
        feedFields fields ++ s = feedFields others ++ t := by
      simpa [feed, kind] using fed
    simpa only [same] using sameFields_of_feedFields_append parts.1 parts.2
  | .multi mode items, .multi other others, _, fed =>
    have parts : mode = other ∧ items.length = others.length ∧
        feedItems items ++ s = feedItems others ++ t := by
      simpa [feed, kind] using fed
    have rest := sameItems_of_feedItems_append parts.2.1 parts.2.2
    simp only [same, parts.1, rest.1, beq_self_eq_true, Bool.and_self, rest.2, and_self]

theorem sameItems_of_feedItems_append {a b : List Value} {s t : List Write}
    (counted : a.length = b.length) (fed : feedItems a ++ s = feedItems b ++ t) :
    sameItems a b = true ∧ s = t := by
  match a, b, counted, fed with
  | [], [], _, fed => exact ⟨rfl, fed⟩
  | a :: as, b :: bs, counted, fed =>
    rw [feedItems, feedItems, List.append_assoc, List.append_assoc] at fed
    have first := same_of_feed_append fed
    have rest := sameItems_of_feedItems_append (Nat.succ.inj counted) first.2
    simp only [sameItems, first.1, rest.1, rest.2, Bool.and_self, and_self]

theorem sameFields_of_feedFields_append {a b : List (String × Value)} {s t : List Write}
    (counted : a.length = b.length) (fed : feedFields a ++ s = feedFields b ++ t) :
    sameFields a b = true ∧ s = t := by
  match a, b, counted, fed with
  | [], [], _, fed => exact ⟨rfl, fed⟩
  | (m, a) :: as, (n, b) :: bs, counted, fed =>
    have parts : m = n ∧ feed a ++ (feedFields as ++ s) = feed b ++ (feedFields bs ++ t) := by
      simpa [feedFields] using fed
    have first := same_of_feed_append parts.2
    have rest := sameFields_of_feedFields_append (Nat.succ.inj counted) first.2
    simp only [sameFields, parts.1, first.1, rest.1, rest.2, beq_self_eq_true, Bool.and_self,
      and_self]

end

end Value

/-- A NaN equals itself, and zero differs from minus zero. -/
example :
    (Value.list [.float (0 / 0), .float 0] == .list [.float (0 / 0), .float 0]) = true ∧
    (Value.list [.float (0 / 0), .float 0] == .list [.float (0 / 0), .float (-0)]) = false :=
  ⟨rfl, rfl⟩

end RowQuery
