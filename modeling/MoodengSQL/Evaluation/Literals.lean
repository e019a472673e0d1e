import MoodengSQL.Core.Eval

/-!
# Integer literals

A number is written in decimal. The literals of the syntax tree have no sign, and
one that `i64` cannot hold is read as zero.
-/

namespace MoodengSQL

section Decimals

/-- Text that is a decimal number without a sign. -/
def IsDecimal (digits : List Char) : Prop := digits ≠ [] ∧ digits.all Char.isDigit = true

instance (digits : List Char) : Decidable (IsDecimal digits) :=
  inferInstanceAs (Decidable (_ ∧ _))

theorem IsDecimal.not_mem {digits : List Char} (decimal : IsDecimal digits) {c : Char}
    (other : c.isDigit = false) : c ∉ digits := by
  intro member
  have digit := List.all_eq_true.mp decimal.2 c member
  rw [other] at digit
  cases digit

/-- A decimal number is parsed if it is in range. -/
theorem parseI64_decimal {digits : String} (decimal : IsDecimal digits.toList) :
    parseI64 digits = if (digitsValue digits.toList : Int) < 2 ^ 63 then
      some (Int64.ofInt (digitsValue digits.toList)) else none := by
  have minus := decimal.not_mem (c := '-') rfl
  have plus := decimal.not_mem (c := '+') rfl
  have parsed : parseUnsigned digits = some (digitsValue digits.toList) := by
    unfold parseUnsigned
    dsimp only
    split
    · rename_i rest same
      exact absurd (same ▸ List.mem_cons_self) plus
    · exact if_pos decimal
  unfold parseI64
  split
  · rename_i rest same
    exact absurd (same ▸ List.mem_cons_self) minus
  · rw [parsed]
    have nonneg : (0 : Int) ≤ digitsValue digits.toList := Int.natCast_nonneg _
    simp only [Option.map_some, Int.ofNat_eq_natCast]
    have low : (-2 ^ 63 : Int) ≤ digitsValue digits.toList := by omega
    simp only [low, true_and]

/-- The digits of a number are a decimal number. -/
theorem isDecimal_toString (n : Nat) : IsDecimal (toString n).toList := by
  rw [Nat.toString_eq_ofList_toDigits, String.toList_ofList]
  refine ⟨Nat.toDigits_ne_nil, List.all_eq_true.mpr fun c member => ?_⟩
  exact Nat.isDigit_of_mem_toDigits (by decide) (by decide) member

/-- The digits of a number have its value. -/
theorem digitsValue_toString (n : Nat) : digitsValue (toString n).toList = n := by
  have same : ∀ (digits : List Char) (acc : Nat),
      digits.foldl (fun acc c => acc * 10 + (c.toNat - '0'.toNat)) acc =
        Nat.ofDigitChars 10 digits acc := by
    intro digits
    induction digits with
    | nil => exact fun acc => rfl
    | cons c rest ih =>
        intro acc
        rw [List.foldl_cons, ih, Nat.ofDigitChars_cons, Nat.mul_comm]
  rw [Nat.toString_eq_ofList_toDigits, String.toList_ofList, digitsValue, same,
    Nat.ofDigitChars_ten_toDigits]

end Decimals

section Reading

variable [Runtime]

theorem fromSqlLiteral_decimal {digits : String} (decimal : IsDecimal digits.toList) :
    Value.fromSqlLiteral (.number digits) =
      .int8 (if (digitsValue digits.toList : Int) < 2 ^ 63 then
        Int64.ofInt (digitsValue digits.toList) else 0) := by
  rw [Value.fromSqlLiteral, if_neg (decimal.not_mem rfl), parseI64_decimal decimal]
  split <;> rfl

end Reading

end MoodengSQL
