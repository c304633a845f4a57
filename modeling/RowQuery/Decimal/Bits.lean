/-! # Floats by their bits

Structural equality of floats is equality of their bits: zero differs from minus zero, and a NaN
equals itself.
-/

namespace RowQuery

/-- Floats with the same bits are the same float. -/
theorem eq_of_toBits_eq {a b : Float} (same : a.toBits = b.toBits) : a = b := by
  cases a with
  | ofModel a =>
    cases b with
    | ofModel b =>
      cases a
      cases b
      cases same
      rfl

instance decidableEqFloat : DecidableEq Float := fun a b =>
  if same : a.toBits = b.toBits then .isTrue (eq_of_toBits_eq same)
  else .isFalse fun equal => same (congrArg Float.toBits equal)

end RowQuery
