import Mathlib.Data.Rat.Floor
import TypeTrace.Ast.Literal
import TypeTrace.Proofs.ExactValue

/-!
# Equality of literals

What a literal denotes: a number, a text, a row of bytes, or one of the two constants that
are just themselves. Truth values and integers are numbers like the floats, and a NaN denotes
nothing. Equality of literals is equality of what they denote, without any rounding, so it is
an equivalence on all literals but the NaNs.

Main results:

* `isInteger_eq_castEqual`: integers are compared with floats by a guarded cast;
* `equal_iff_denoteSame`: equal literals denote the same;
* `equal_exact`: equality is exact, symmetric and transitive, and reflexive but for NaNs.
-/

namespace TypeTrace

/-- What a literal denotes. -/
inductive Value where
  | number (n : Number)
  | str (s : String)
  | bytes (bs : List UInt8)
  | none
  | ellipsis
  deriving DecidableEq

namespace Literal

/-- The value of a literal; a NaN has none. -/
def value? : Literal → Option Value
  | .none => some .none
  | .bool b => some (.number (.finite (if b then 1 else 0)))
  | .int i => some (.number (.finite i.toInt))
  | .float x => x.number?.map .number
  | .str s => some (.str s)
  | .bytes bs => some (.bytes bs)
  | .ellipsis => some .ellipsis

/-! ## Integers and floats -/

/-- Truth values and integers denote the number that they count as. -/
theorem value?_of_integer {l : Literal} {i : ℤ} (h : l.integer? = some i) :
    l.value? = some (.number (.finite i)) := by
  cases l with
  | bool b =>
      rcases Option.some.inj h with rfl
      cases b <;> rfl
  | int j =>
      rcases Option.some.inj h with rfl
      rfl
  | _ => exact nomatch h

/-- A literal that counts as an integer is that of a float if the float denotes the integer. -/
theorem isInteger_iff {l : Literal} {x : Binary64} {i : ℤ} (h : l.integer? = some i) :
    l.isInteger x = true ↔ x.number? = some (.finite i) := by
  rw [Binary64.number?_eq_finite_iff, ← Binary64.toInt?_eq_some_iff, isInteger, h]
  cases x.toInt? with
  | none => exact iff_of_false Bool.false_ne_true nofun
  | some j => rw [beq_iff_eq, Option.some.injEq, eq_comm]

/-- The integer next to a rational number in the direction of zero. -/
def truncate (q : ℚ) : ℤ := q.num.tdiv q.den

/-- An integer has nothing behind the point. -/
theorem truncate_intCast (i : ℤ) : truncate i = i := by
  rw [truncate, Rat.num_intCast, Rat.den_intCast, Nat.cast_one, Int.tdiv_one]

/-- A comparison of a 64-bit integer with a float by a cast behind guards: the float has to be
finite, to have no fraction and to lie in the range of the integers. Behind the guards no cast
is out of range. -/
def castEqual (i : Int64) (x : Binary64) : Bool :=
  x.isFinite && x.value - truncate x.value == 0 && decide (-2 ^ 63 ≤ x.value) &&
    decide (x.value < 2 ^ 63) && Int64.ofInt (truncate x.value) == i

/-- The guarded cast succeeds exactly on the float whose value is the integer. -/
theorem castEqual_iff {i : Int64} {x : Binary64} :
    castEqual i x = true ↔ x.isFinite = true ∧ x.value = i.toInt := by
  simp only [castEqual, Bool.and_eq_true, beq_iff_eq, decide_eq_true_eq, sub_eq_zero, and_assoc]
  refine and_congr_right fun _ => ?_
  constructor
  · rintro ⟨hwhole, hlow, hhigh, rfl⟩
    rw [hwhole] at hlow hhigh
    rw [Int64.toInt_ofInt_of_le (by exact_mod_cast hlow) (by exact_mod_cast hhigh)]
    exact hwhole
  · intro h
    have hlow := i.le_toInt
    have hhigh := i.toInt_lt
    rw [h, truncate_intCast]
    exact ⟨rfl, by exact_mod_cast hlow, by exact_mod_cast hhigh, Int64.ofInt_toInt i⟩

/-- The word of 64 bits that a truth value or an integer is compared as. -/
def word? : Literal → Option Int64
  | .bool b => some (if b then 1 else 0)
  | .int i => some i
  | _ => Option.none

/-- The number that a literal counts as is the value of its word. -/
theorem integer?_eq_word (l : Literal) : l.integer? = l.word?.map Int64.toInt := by
  cases l with
  | bool b => cases b <;> decide
  | _ => rfl

/-- The guarded cast decides whether a literal is the integer that a float denotes. -/
theorem isInteger_eq_castEqual (l : Literal) (x : Binary64) :
    l.isInteger x = l.word?.any (castEqual · x) := by
  cases hword : l.word? with
  | none => rw [isInteger, integer?_eq_word, hword, Option.map_none, Option.any_none]
  | some i =>
      have hinteger : l.integer? = some i.toInt := by
        rw [integer?_eq_word, hword, Option.map_some]
      rw [Bool.eq_iff_iff, isInteger_iff hinteger, Option.any_some, castEqual_iff,
        Binary64.number?_eq_finite_iff]

/-! ## Equality of values -/

/-- Both literals denote something, and it is the same. -/
def DenoteSame (a b : Literal) : Prop := ∃ v, a.value? = some v ∧ b.value? = some v

theorem DenoteSame.symm {a b : Literal} (h : a.DenoteSame b) : b.DenoteSame a := by
  rcases h with ⟨v, ha, hb⟩
  exact ⟨v, hb, ha⟩

theorem DenoteSame.trans {a b c : Literal} (h : a.DenoteSame b) (h' : b.DenoteSame c) :
    a.DenoteSame c := by
  rcases h with ⟨v, ha, hb⟩
  rcases h' with ⟨w, hb', hc⟩
  rw [hb] at hb'
  rcases Option.some.inj hb' with rfl
  exact ⟨v, ha, hc⟩

/-- What denotes the same as a literal with a value has this value. -/
theorem denoteSame_iff_of_value {a b : Literal} {v : Value} (h : a.value? = some v) :
    a.DenoteSame b ↔ b.value? = some v := by
  constructor
  · rintro ⟨w, ha, hb⟩
    rw [hb, ← ha, h]
  · exact fun hb => ⟨v, h, hb⟩

theorem value?_float_eq_some_iff {x : Binary64} {n : Number} :
    (Literal.float x).value? = some (.number n) ↔ x.number? = some n := by
  simp [value?]

/-- Truth values and integers are equal if they count as the same integer. -/
theorem equal_iff_of_integers {a b : Literal} {i j : ℤ} (ha : a.integer? = some i)
    (hb : b.integer? = some j) : a.equal b = true ↔ a.DenoteSame b := by
  have hequal : a.equal b = (i == j) := by
    cases a <;> cases b <;> simp_all [integer?, equal]
  rw [hequal, beq_iff_eq, denoteSame_iff_of_value (value?_of_integer ha), value?_of_integer hb,
    Option.some.injEq, Value.number.injEq, Number.finite.injEq, Int.cast_inj, eq_comm]

/-- A truth value or an integer equals a float, on either side, if the float denotes it. -/
theorem equal_float_iff_of_integer {l : Literal} {i : ℤ} (h : l.integer? = some i)
    (x : Binary64) :
    (l.equal (.float x) = true ↔ l.DenoteSame (.float x)) ∧
      ((Literal.float x).equal l = true ↔ (Literal.float x).DenoteSame l) := by
  have hsame : l.isInteger x = true ↔ l.DenoteSame (.float x) := by
    rw [isInteger_iff h, denoteSame_iff_of_value (value?_of_integer h), value?_float_eq_some_iff]
  have hsame' : l.isInteger x = true ↔ (Literal.float x).DenoteSame l :=
    hsame.trans ⟨.symm, .symm⟩
  cases l with
  | bool b => exact ⟨hsame, hsame'⟩
  | int j => exact ⟨hsame, hsame'⟩
  | _ => exact nomatch h

/-- Floats are equal if they denote the same number. -/
theorem equal_floats_iff {x y : Binary64} :
    (Literal.float x).equal (.float y) = true ↔ (Literal.float x).DenoteSame (.float y) := by
  rw [equal, Binary64.sameValue_iff]
  constructor
  · rintro ⟨n, hx, hy⟩
    exact ⟨.number n, value?_float_eq_some_iff.2 hx, value?_float_eq_some_iff.2 hy⟩
  · rintro ⟨v, hx, hy⟩
    rcases Option.map_eq_some_iff.1 hx with ⟨n, hn, rfl⟩
    exact ⟨n, hn, value?_float_eq_some_iff.1 hy⟩

/-- A truth value or an integer denotes a number, and so it equals only numbers. -/
theorem equal_iff_of_integer {a b : Literal} {i : ℤ} (ha : a.integer? = some i) :
    a.equal b = true ↔ a.DenoteSame b := by
  cases b with
  | bool q => exact equal_iff_of_integers ha rfl
  | int j => exact equal_iff_of_integers ha rfl
  | float x => exact (equal_float_iff_of_integer ha x).1
  | _ =>
      rw [denoteSame_iff_of_value (value?_of_integer ha)]
      cases a <;> simp_all [equal, integer?, value?]

/-- A float equals just the literals that denote the same number. -/
theorem equal_float_iff {x : Binary64} {b : Literal} :
    (Literal.float x).equal b = true ↔ (Literal.float x).DenoteSame b := by
  cases b with
  | bool q => exact (equal_float_iff_of_integer (l := .bool q) rfl x).2
  | int j => exact (equal_float_iff_of_integer (l := .int j) rfl x).2
  | float y => exact equal_floats_iff
  | _ => simp [equal, isInteger, integer?, DenoteSame, value?]

/-- Equal literals are those that denote the same. -/
theorem equal_iff_denoteSame {a b : Literal} : a.equal b = true ↔ a.DenoteSame b := by
  cases a with
  | bool p => exact equal_iff_of_integer rfl
  | int i => exact equal_iff_of_integer rfl
  | float x => exact equal_float_iff
  | none =>
      rw [denoteSame_iff_of_value rfl]
      cases b <;> simp [equal, isInteger, integer?, value?]
  | ellipsis =>
      rw [denoteSame_iff_of_value rfl]
      cases b <;> simp [equal, isInteger, integer?, value?]
  | str s =>
      rw [denoteSame_iff_of_value rfl]
      cases b <;> simp [equal, isInteger, integer?, value?, eq_comm (a := s)]
  | bytes bs =>
      rw [denoteSame_iff_of_value rfl]
      cases b <;> simp [equal, isInteger, integer?, value?, eq_comm (a := bs)]

/-- Two literals are equal exactly if they denote the same number, text or constant, whatever
kinds of numbers they are. So equality is symmetric and transitive on all literals, and every
literal but a NaN is equal to itself. Truth values and integers are compared with floats by
the guarded cast. -/
theorem equal_exact :
    (∀ a b : Literal, a.equal b = true ↔ ∃ v, a.value? = some v ∧ b.value? = some v) ∧
      (∀ a b : Literal, a.equal b = b.equal a) ∧
      (∀ a b c : Literal, a.equal b = true → b.equal c = true → a.equal c = true) ∧
      (∀ a : Literal, a.equal a = true ↔ ∀ x, a = .float x → x.isNaN = false) ∧
      ∀ (l : Literal) (x : Binary64), l.isInteger x = l.word?.any (castEqual · x) := by
  refine ⟨fun a b => equal_iff_denoteSame, fun a b => ?_, fun a b c hab hbc => ?_, fun a => ?_,
    isInteger_eq_castEqual⟩
  · rw [Bool.eq_iff_iff, equal_iff_denoteSame, equal_iff_denoteSame]
    exact ⟨.symm, .symm⟩
  · rw [equal_iff_denoteSame] at hab hbc ⊢
    exact hab.trans hbc
  · have hself : a.equal a = true ↔ a.value? ≠ Option.none := by
      rw [equal_iff_denoteSame, DenoteSame, Option.ne_none_iff_exists']
      exact exists_congr fun _ => and_self_iff
    rw [hself]
    cases a with
    | float x => simp [value?, Binary64.number?_eq_none_iff]
    | _ => simp [value?]

/-- The least integer of 64 bits is a float and the greatest is none, and `True`, `1` and `1.0`
are equal in a row. -/
theorem equal_outermostIntegers :
    let least : Literal := .int Int64.minValue
    let greatest : Literal := .int Int64.maxValue
    let one : Literal := .float ⟨0x3ff0000000000000⟩
    least.equal (.float ⟨0xc3e0000000000000⟩) = true ∧
      greatest.equal (.float ⟨0x43e0000000000000⟩) = false ∧
      (Literal.bool true).equal (.int 1) = true ∧ (Literal.int 1).equal one = true ∧
      (Literal.bool true).equal one = true :=
  ⟨by decide, by decide, by decide, by decide,
    equal_exact.2.2.1 _ (.int 1) _ (by decide) (by decide)⟩

end Literal

end TypeTrace
