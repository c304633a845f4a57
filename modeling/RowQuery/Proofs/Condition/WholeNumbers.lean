import Mathlib.Data.Int.ModEq
import RowQuery.Condition.Operand
import RowQuery.Proofs.Attempts

/-! # Arithmetic of whole numbers

Every operator wraps around, and yet an operand made of whole numbers has the value that exact
arithmetic gives it, reduced once at the end (`RowQuery.Expr.value_whole`). Only divisions see the
words in between: they truncate the quotient of the two words that their sides stand for, and fail
where the divisor's word is zero.
-/

namespace RowQuery.Expr

open Attempt

variable {config : Config} {row : Node}

/-- The operands made of whole numbers: literals, columns that hold one, parentheses and some of the
operators. -/
inductive Whole (config : Config) (row : Node) (operators : List ArithmeticOp) : Expr → Prop where
  | literal (number : Int64) : Whole config row operators (.literal (.integer number))
  | column {name : String} {number : Int64} :
      (Expr.column name).value config row = .ok (.integer number) →
      Whole config row operators (.column name)
  | parenthesis {operand : Expr} :
      Whole config row operators operand → Whole config row operators (.parenthesis operand)
  | arithmetic {left right : Expr} {operator : ArithmeticOp} : operator ∈ operators →
      Whole config row operators left → Whole config row operators right →
      Whole config row operators (.arithmetic left operator right)

/-- The exact value of an operand made of whole numbers. A quotient is that of the words which its
sides stand for, truncated toward zero. -/
def exact (config : Config) (row : Node) : Expr → Int
  | .literal (.integer number) => number.toInt
  | .column name =>
    match (Expr.column name).value config row with
    | .ok (.integer number) => number.toInt
    | _ => 0
  | .parenthesis operand => operand.exact config row
  | .arithmetic left .add right => left.exact config row + right.exact config row
  | .arithmetic left .subtract right => left.exact config row - right.exact config row
  | .arithmetic left .multiply right => left.exact config row * right.exact config row
  | .arithmetic left .divide right =>
    ((left.exact config row).bmod (2 ^ 64)).tdiv ((right.exact config row).bmod (2 ^ 64))
  | _ => 0

/-- The divisors in an operand, at any depth. -/
def divisors : Expr → List Expr
  | .parenthesis operand => operand.divisors
  | .arithmetic left .divide right => left.divisors ++ right.divisors ++ [right]
  | .arithmetic left _ right => left.divisors ++ right.divisors
  | _ => []

theorem value_arithmetic {left right : Expr} {first second : Value} (operator : ArithmeticOp)
    (leftValue : left.value config row = .ok first)
    (rightValue : right.value config row = .ok second) :
    (arithmetic left operator right).value config row = first.applyOp operator second := by
  rw [value, leftValue, rightValue]
  rfl

/-! ### Words -/

/-- The word that an integer stands for is the only one congruent to it. -/
theorem toInt_modEq_iff {number other : Int64} {n : Int} (word : number.toInt = n.bmod (2 ^ 64)) :
    other.toInt ≡ n [ZMOD 2 ^ 64] ↔ other = number := by
  have modulus : ((2 ^ 64 : Nat) : Int) = 2 ^ 64 := rfl
  rw [← Int64.toInt_inj, word, Int.ModEq, ← modulus]
  constructor
  · intro congruent
    calc other.toInt
      _ = other.toInt.bmod (2 ^ 64) := other.toInt_bmod.symm
      _ = (other.toInt % (2 ^ 64 : Nat)).bmod (2 ^ 64) := (Int.emod_bmod _ _).symm
      _ = (n % (2 ^ 64 : Nat)).bmod (2 ^ 64) := by rw [congruent]
      _ = n.bmod (2 ^ 64) := Int.emod_bmod _ _
  · intro same
    rw [same, Int.bmod_emod]

/-- Dividing words truncates their quotient toward zero and wraps it around; only a zero has no
quotient. -/
theorem applyOp_divide (dividend divisor : Int64) :
    (divisor = 0 → (Value.integer dividend).applyOp .divide (.integer divisor) =
      .error (.divisionByZero (.integer dividend) (.integer 0))) ∧
    (divisor ≠ 0 → ∃ quotient : Int64,
      (Value.integer dividend).applyOp .divide (.integer divisor) = .ok (.integer quotient) ∧
        quotient.toInt = (dividend.toInt.tdiv divisor.toInt).bmod (2 ^ 64)) := by
  constructor
  · rintro rfl
    rfl
  · intro nonzero
    exact ⟨dividend / divisor, if_neg nonzero, Int64.toInt_div dividend divisor⟩

/-! ### Evaluation -/

/-- Whether an operand divides by a zero. -/
def DividesByZero (config : Config) (row : Node) (operand : Expr) : Prop :=
  ∃ divisor ∈ operand.divisors, divisor.value config row = .ok (.integer 0)

/-- Whether an operand has the word of its exact value. -/
def HasExactWord (config : Config) (row : Node) (operand : Expr) : Prop :=
  ∃ number : Int64, operand.value config row = .ok (.integer number) ∧
    number.toInt = (operand.exact config row).bmod (2 ^ 64)

/-- Whether an operand fails as a division by zero. -/
def FailsToDivide (config : Config) (row : Node) (operand : Expr) : Prop :=
  ∃ dividend : Int64, operand.value config row =
    .error (.divisionByZero (.integer dividend) (.integer 0))

variable {operators : List ArithmeticOp} {operand left right : Expr}

/-- One operator keeps exact words: what its sides stand for, combined exactly and wrapped around,
unless it divides by zero. -/
theorem arithmetic_exact {operator : ArithmeticOp}
    (evaluated : operator ∈ [ArithmeticOp.add, .subtract, .multiply, .divide])
    (leftWord : HasExactWord config row left) (rightWord : HasExactWord config row right) :
    HasExactWord config row (arithmetic left operator right) ∧
        (operator = .divide → right.value config row ≠ .ok (.integer 0)) ∨
      FailsToDivide config row (arithmetic left operator right) ∧
        operator = .divide ∧ right.value config row = .ok (.integer 0) := by
  obtain ⟨first, leftValue, leftExact⟩ := leftWord
  obtain ⟨second, rightValue, rightExact⟩ := rightWord
  unfold HasExactWord FailsToDivide
  rw [value_arithmetic operator leftValue rightValue]
  cases operator with
  | modulo => exact absurd evaluated (by decide)
  | add =>
      refine .inl ⟨⟨first + second, rfl, ?_⟩, nofun⟩
      rw [Int64.toInt_add, leftExact, rightExact, ← Int.add_bmod, exact]
  | subtract =>
      refine .inl ⟨⟨first - second, rfl, ?_⟩, nofun⟩
      rw [Int64.toInt_sub, leftExact, rightExact, ← Int.sub_bmod, exact]
  | multiply =>
      refine .inl ⟨⟨first * second, rfl, ?_⟩, nofun⟩
      rw [Int64.toInt_mul, leftExact, rightExact, ← Int.mul_bmod, exact]
  | divide =>
      obtain ⟨fails, divides⟩ := applyOp_divide first second
      by_cases zero : second = 0
      · exact .inr ⟨⟨first, fails zero⟩, rfl, zero ▸ rightValue⟩
      · obtain ⟨quotient, divided, truncated⟩ := divides zero
        refine .inl ⟨⟨quotient, divided, ?_⟩, fun _ isZero => zero ?_⟩
        · rw [truncated, leftExact, rightExact, exact]
        · rw [rightValue] at isZero
          exact Value.integer.inj (Except.ok.inj isZero)

/-- An operand divides by a zero where a side of it does, or where the right side is the zero. -/
theorem dividesByZero_arithmetic_iff {operator : ArithmeticOp} :
    DividesByZero config row (arithmetic left operator right) ↔
      DividesByZero config row left ∨ DividesByZero config row right ∨
        operator = .divide ∧ right.value config row = .ok (.integer 0) := by
  cases operator with
  | divide => simp only [DividesByZero, divisors, List.mem_append, List.mem_singleton,
      or_and_right, exists_or, exists_eq_left, true_and, or_assoc]
  | _ => simp only [DividesByZero, divisors, List.mem_append, or_and_right, exists_or,
      reduceCtorEq, false_and, or_false]

/-- A failure to divide on either side is the failure of the whole operand, since the other side
gives a number or fails to divide itself. -/
theorem FailsToDivide.arithmetic {operator : ArithmeticOp}
    (fails : FailsToDivide config row left ∨
      HasExactWord config row left ∧ FailsToDivide config row right) :
    FailsToDivide config row (arithmetic left operator right) := by
  obtain ⟨dividend, leftFails⟩ | ⟨⟨number, leftValue, -⟩, dividend, rightFails⟩ := fails
  · exact ⟨dividend, by rw [value, leftFails]; rfl⟩
  · exact ⟨dividend, by rw [value, leftValue, rightFails]; rfl⟩

/-- An operand made of whole numbers either has the word of its exact value or divides by a zero,
and fails for that reason alone. -/
theorem Whole.exact_or_fails
    (whole : operand.Whole config row [.add, .subtract, .multiply, .divide]) :
    HasExactWord config row operand ∧ ¬ DividesByZero config row operand ∨
      FailsToDivide config row operand ∧ DividesByZero config row operand := by
  induction whole with
  | literal number => exact .inl ⟨⟨number, rfl, number.toInt_bmod.symm⟩, nofun⟩
  | @column name number columnValue =>
      refine .inl ⟨⟨number, columnValue, ?_⟩, nofun⟩
      rw [exact, columnValue]
      exact number.toInt_bmod.symm
  | parenthesis _ inner =>
      simpa only [HasExactWord, FailsToDivide, DividesByZero, value, exact, divisors] using inner
  | arithmetic evaluated _ _ leftResult rightResult =>
      rw [dividesByZero_arithmetic_iff]
      obtain ⟨leftWord, leftDivides⟩ | ⟨leftFails, leftZero⟩ := leftResult
      · obtain ⟨rightWord, rightDivides⟩ | ⟨rightFails, rightZero⟩ := rightResult
        · obtain ⟨word, divides⟩ | ⟨fails, zero⟩ := arithmetic_exact evaluated leftWord rightWord
          · refine .inl ⟨word, ?_⟩
            rintro (leftZero | rightZero | ⟨isDivision, zero⟩)
            · exact leftDivides leftZero
            · exact rightDivides rightZero
            · exact divides isDivision zero
          · exact .inr ⟨fails, .inr (.inr zero)⟩
        · exact .inr ⟨.arithmetic (.inr ⟨leftWord, rightFails⟩), .inr (.inl rightZero)⟩
      · exact .inr ⟨.arithmetic (.inl leftFails), .inl leftZero⟩

/-- Without divisions there are no divisors. -/
theorem Whole.divisors_eq_nil (whole : operand.Whole config row operators)
    (undivided : ArithmeticOp.divide ∉ operators) : operand.divisors = [] := by
  induction whole with
  | literal | column => rfl
  | parenthesis _ inner => exact inner
  | @arithmetic left right operator used _ _ leftNone rightNone =>
      have joined : left.divisors ++ right.divisors = [] := by rw [leftNone, rightNone]; rfl
      cases operator with
      | divide => exact absurd used undivided
      | _ => exact joined

/-- **Whole-number arithmetic is exact.** Without divisions the operand has a value: the only number
that is congruent modulo 2 ^ 64 to what exact arithmetic gives. With divisions this holds unless a
divisor, at any depth, evaluates to zero, and then the operand fails as a division by zero. -/
theorem value_whole (whole : operand.Whole config row [.add, .subtract, .multiply, .divide]) :
    let hasExactValue := ∃ number : Int64, operand.value config row = .ok (.integer number) ∧
      ∀ other : Int64, other.toInt ≡ operand.exact config row [ZMOD 2 ^ 64] ↔ other = number
    (operand.Whole config row [.add, .subtract, .multiply] → hasExactValue) ∧
    (¬ operand.DividesByZero config row → hasExactValue) ∧
    (operand.DividesByZero config row → ∃ dividend : Int64, operand.value config row =
      .error (.divisionByZero (.integer dividend) (.integer 0))) := by
  intro hasExactValue
  have unlessZero : ¬ operand.DividesByZero config row → hasExactValue := by
    intro divides
    obtain ⟨⟨number, numberValue, word⟩, -⟩ | ⟨-, zero⟩ := whole.exact_or_fails
    · exact ⟨number, numberValue, fun _ => toInt_modEq_iff word⟩
    · exact absurd zero divides
  refine ⟨fun undivided => unlessZero ?_, unlessZero, fun zero => ?_⟩
  · rintro ⟨divisor, found, -⟩
    rw [undivided.divisors_eq_nil (by decide)] at found
    exact absurd found List.not_mem_nil
  · obtain ⟨-, divides⟩ | ⟨fails, -⟩ := whole.exact_or_fails
    · exact absurd zero divides
    · exact fails

/-- The smallest number is itself again when it is multiplied by 3 and when it is divided by -1. The
two results together wrap around to zero, by which nothing can be divided. -/
theorem quotient_by_wrapped_zero :
    let row := Node.object [("a", .number (.ofInt64 Int64.minValue))]
    let product := arithmetic (column "a") .multiply (literal (.integer 3))
    let opposite := arithmetic (column "a") .divide (literal (.integer (-1)))
    let sum := arithmetic opposite .add product
    let quotient := arithmetic (literal (.integer 5)) .divide (parenthesis sum)
    product.value {} row = .ok (.integer Int64.minValue) ∧
    opposite.value {} row = .ok (.integer Int64.minValue) ∧
    sum.exact {} row = - 2 ^ 64 ∧ sum.value {} row = .ok (.integer 0) ∧
    quotient.Whole {} row [.add, .subtract, .multiply, .divide] ∧
    ∃ dividend : Int64, quotient.value {} row =
      .error (.divisionByZero (.integer dividend) (.integer 0)) := by
  intro row product opposite sum quotient
  have smallest : (column "a").value {} row = .ok (.integer Int64.minValue) := rfl
  have productWhole {operators : List ArithmeticOp} (used : ArithmeticOp.multiply ∈ operators) :
      product.Whole {} row operators := .arithmetic used (.column smallest) (.literal 3)
  have oppositeWhole : opposite.Whole {} row [.add, .subtract, .multiply, .divide] :=
    .arithmetic (by decide) (.column smallest) (.literal (-1))
  have sumWhole : sum.Whole {} row [.add, .subtract, .multiply, .divide] :=
    .arithmetic (by decide) oppositeWhole (productWhole (by decide))
  have quotientWhole : quotient.Whole {} row [.add, .subtract, .multiply, .divide] :=
    .arithmetic (by decide) (.literal 5) (.parenthesis sumWhole)
  have onlyByOne : ¬ ∃ divisor ∈ [literal (.integer (-1))],
      divisor.value {} row = .ok (.integer 0) := by
    rintro ⟨divisor, found, zero⟩
    obtain rfl := List.mem_singleton.mp found
    exact absurd (Value.integer.inj (Except.ok.inj zero)) (by decide)
  have productValue : product.value {} row = .ok (.integer Int64.minValue) := by
    obtain ⟨number, found, only⟩ :=
      (value_whole (productWhole (by decide))).1 (productWhole (by decide))
    rw [found, (only Int64.minValue).mp (by decide)]
  have oppositeValue : opposite.value {} row = .ok (.integer Int64.minValue) := by
    obtain ⟨number, found, only⟩ := (value_whole oppositeWhole).2.1 onlyByOne
    rw [found, (only Int64.minValue).mp (by decide)]
  have sumValue : sum.value {} row = .ok (.integer 0) := by
    obtain ⟨number, found, only⟩ := (value_whole sumWhole).2.1 onlyByOne
    rw [found, (only 0).mp (by decide)]
  have divisor : parenthesis sum ∈ quotient.divisors :=
    List.mem_append_right _ List.mem_cons_self
  exact ⟨productValue, oppositeValue, rfl, sumValue, quotientWhole,
    (value_whole quotientWhole).2.2 ⟨parenthesis sum, divisor, sumValue⟩⟩

end RowQuery.Expr
