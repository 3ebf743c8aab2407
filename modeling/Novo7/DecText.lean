import Mathlib.Data.List.Basic
import Novo7.Bytes

/-!
# Numbers as text

`int_to_string_dec` and `Uint_to_string_dec` put the digits of a number into a buffer of 12 bytes,
lowest first, and copy them from there in the opposite order. The sign is taken off by a negation in
the width of the number. `int_to_string_hex` has always 8 digits.

`decText_canonical_iff` says for which numbers the text is the decimal numeral.
-/

namespace Novo7

/-! ## Decimal -/

/-- `while(num > 0)`: what is stored in `sp0`, from its first byte on. The first argument bounds the
rounds. -/
def digitLoop : Nat → Nat → List UInt8
  | 0, _ => []
  | fuel + 1, num =>
    if 0 < num then UInt8.ofNat (num % 10 + 48) :: digitLoop fuel (num / 10) else []

/-- A conversion: the bytes stored in `sp0`, and the text. -/
structure DecRun where
  sp0 : List UInt8
  text : List UInt8
  deriving Repr, DecidableEq

/-- The conversion behind the test for zero: the sign `var6`, and a number that is not negative. -/
def decRun (negative : Bool) (num : Nat) : DecRun :=
  let sp0 := digitLoop num num
  ⟨sp0, (if negative then [45] else []) ++ sp0.reverse⟩

/-- `int_to_string_dec`; a loop on a number that is still negative has no round. -/
def intToStringDec (num : BitVec 32) : DecRun :=
  if num = 0 then ⟨[], [48]⟩
  else if num.toInt < 0 then decRun true (-num).toInt.toNat
  else decRun false num.toInt.toNat

/-- `Uint_to_string_dec`; an `unsigned` is never below zero. -/
def uintToStringDec (num : BitVec 32) : DecRun :=
  if num = 0 then ⟨[], [48]⟩ else decRun false num.toNat

/-! ## Hexadecimal -/

def hexDigits (spec : UInt8) : Nat → UInt8 := fun d =>
  if d < 10 then UInt8.ofNat (48 + d)
  else if spec = 88 then UInt8.ofNat (55 + d) else UInt8.ofNat (87 + d)

/-- `int_to_string_hex`, where `var2` is an `x` of either case. -/
def intToStringHex (num : BitVec 32) (spec : UInt8) : List UInt8 :=
  [48, spec] ++ ((List.range 8).map fun i => hexDigits spec (num.toNat / 16 ^ i % 16)).reverse

/-! ## Numerals -/

/-- The number that decimal digits stand for. -/
def decValue (digits : List UInt8) : Nat := digits.foldl (fun n c => 10 * n + (c.toNat - 48)) 0

/-- The decimal numeral of a number: digits only, with no zero in front of others. -/
structure Numeral (text : List UInt8) (n : Nat) : Prop where
  digits : ∀ c ∈ text, 48 ≤ c ∧ c ≤ 57
  nonempty : text ≠ []
  lead : text.head? = some 48 → text = [48]
  value : decValue text = n

/-- The numeral of an integer has a sign if it is negative, and only then. -/
def IntNumeral (text : List UInt8) (z : Int) : Prop :=
  if z < 0 then ∃ digits, text = 45 :: digits ∧ Numeral digits (-z).toNat
  else Numeral text z.toNat

/-- The value of a numeral with a sign. -/
def intValue : List UInt8 → Int
  | 45 :: digits => -(decValue digits : Int)
  | digits => decValue digits

theorem Numeral.head_ne {text : List UInt8} {n : Nat} (h : Numeral text n) : text.head? ≠ some 45 := by
  intro hhead
  cases text with
  | nil => cases hhead
  | cons c cs =>
      cases hhead
      exact absurd (h.digits 45 List.mem_cons_self).1 (by decide)

/-- A numeral reads back as its number. -/
theorem IntNumeral.reads_back {text : List UInt8} {z : Int} (h : IntNumeral text z) :
    intValue text = z := by
  unfold IntNumeral at h
  split at h
  · rename_i hneg
    obtain ⟨digits, rfl, hnum⟩ := h
    rw [intValue, hnum.value]
    omega
  · rename_i hnonneg
    have hvalue : intValue text = decValue text := by
      unfold intValue
      split
      · exact absurd rfl h.head_ne
      · rfl
    rw [hvalue, h.value]
    omega

/-! ## The digit loop -/

theorem digit_toNat (num : Nat) : (UInt8.ofNat (num % 10 + 48)).toNat = num % 10 + 48 := by
  rw [UInt8.toNat_ofNat']
  omega

theorem digit_range (num : Nat) :
    48 ≤ UInt8.ofNat (num % 10 + 48) ∧ UInt8.ofNat (num % 10 + 48) ≤ 57 := by
  rw [UInt8.le_iff_toNat_le, UInt8.le_iff_toNat_le, digit_toNat]
  exact ⟨by show 48 ≤ num % 10 + 48; omega, by show num % 10 + 48 ≤ 57; omega⟩

theorem digitLoop_digits : ∀ fuel num, ∀ c ∈ digitLoop fuel num, 48 ≤ c ∧ c ≤ 57
  | 0, _ => fun _ h => nomatch h
  | fuel + 1, num => by
      rw [digitLoop]
      split
      · exact List.forall_mem_cons.mpr ⟨digit_range num, digitLoop_digits fuel (num / 10)⟩
      · exact fun _ h => nomatch h

/-- The digits of a number in the opposite order, the lowest last. -/
theorem digitLoop_numeral : ∀ {fuel num : Nat}, num ≤ fuel → 0 < num →
    Numeral (digitLoop fuel num).reverse num ∧ (digitLoop fuel num).reverse.head? ≠ some 48 := by
  intro fuel
  induction fuel with
  | zero => omega
  | succ fuel ih =>
      intro num hfuel hpos
      have hdigit := digit_toNat num
      have hrange := digit_range num
      rw [digitLoop, if_pos hpos, List.reverse_cons]
      rcases Nat.lt_or_ge num 10 with hsmall | hlarge
      · -- the last round leaves nothing
        have hnil : digitLoop fuel (num / 10) = [] := by
          rw [Nat.div_eq_of_lt hsmall]
          cases fuel <;> rfl
        have hne : (UInt8.ofNat (num % 10 + 48)) ≠ 48 := by
          intro heq
          have := congrArg UInt8.toNat heq
          rw [hdigit] at this
          replace this : num % 10 + 48 = 48 := this
          omega
        rw [hnil]
        refine ⟨⟨?_, List.cons_ne_nil _ _, fun h => absurd (Option.some.inj h) hne, ?_⟩,
          fun h => hne (Option.some.inj h)⟩
        · exact List.forall_mem_singleton.mpr hrange
        · show 10 * 0 + ((UInt8.ofNat (num % 10 + 48)).toNat - 48) = num
          rw [hdigit]
          omega
      · obtain ⟨hnum, hlead⟩ := @ih (num / 10) (by omega) (by omega)
        have hhead : ((digitLoop fuel (num / 10)).reverse ++ [UInt8.ofNat (num % 10 + 48)]).head? ≠
            some 48 := by
          rwa [List.head?_append_of_ne_nil _ hnum.nonempty]
        refine ⟨⟨?_, List.append_ne_nil_of_right_ne_nil _ (List.cons_ne_nil _ _),
          fun h => absurd h hhead, ?_⟩, hhead⟩
        · exact List.forall_mem_append.mpr ⟨hnum.digits, List.forall_mem_singleton.mpr hrange⟩
        · show ((digitLoop fuel (num / 10)).reverse ++ [UInt8.ofNat (num % 10 + 48)]).foldl _ 0 = num
          rw [List.foldl_append]
          show 10 * decValue (digitLoop fuel (num / 10)).reverse + (_ - 48) = num
          rw [hnum.value, hdigit]
          omega

/-- A number of `k` digits has `k` rounds. -/
theorem digitLoop_length : ∀ {fuel k num : Nat}, num < 10 ^ k → (digitLoop fuel num).length ≤ k := by
  intro fuel
  induction fuel with
  | zero => exact fun _ => Nat.zero_le _
  | succ fuel ih =>
      intro k num hlt
      rw [digitLoop]
      split
      · cases k with
        | zero => omega
        | succ k =>
            rw [Nat.pow_succ] at hlt
            exact Nat.succ_le_succ (ih (by omega))
      · exact Nat.zero_le _

theorem numeral_zero : Numeral [48] 0 :=
  ⟨by simp, List.cons_ne_nil _ _, fun _ => rfl, rfl⟩

/-- A run on a number that is not zero. -/
theorem decRun_numeral (negative : Bool) {num : Nat} (hpos : 0 < num) :
    ∃ digits, (decRun negative num).text = (if negative then [45] else []) ++ digits ∧
      Numeral digits num :=
  ⟨_, rfl, (digitLoop_numeral (Nat.le_refl _) hpos).1⟩

/-- A 32-bit number has at most ten digits. -/
theorem decRun_fits {negative : Bool} {num : Nat} (hlt : num < 2 ^ 32) :
    (decRun negative num).sp0.length ≤ 12 :=
  digitLoop_length (Nat.lt_trans hlt (by decide))

/-! ## The conversions -/

theorem uintToStringDec_numeral (num : BitVec 32) : Numeral (uintToStringDec num).text num.toNat := by
  unfold uintToStringDec
  split
  · rename_i hzero
    rw [hzero]
    exact numeral_zero
  · rename_i hne
    have hpos : 0 < num.toNat := by
      refine Nat.pos_of_ne_zero fun h => hne (BitVec.eq_of_toNat_eq ?_)
      rw [h]
      rfl
    obtain ⟨digits, htext, hnum⟩ := decRun_numeral false hpos
    rw [htext]
    exact hnum

/-- The least number is its own negation; all others lose their sign. -/
theorem toInt_neg_of_ne {num : BitVec 32} (hne : num ≠ BitVec.intMin 32) :
    (-num).toInt = -num.toInt :=
  BitVec.toInt_neg_of_ne_intMin hne

theorem intToStringDec_numeral_iff (num : BitVec 32) :
    IntNumeral (intToStringDec num).text num.toInt ↔ num ≠ BitVec.intMin 32 := by
  constructor
  · rintro hnum rfl
    have htext : (intToStringDec (BitVec.intMin 32)).text = [45] := rfl
    have hneg : (BitVec.intMin 32).toInt < 0 := by decide
    rw [htext, IntNumeral, if_pos hneg] at hnum
    obtain ⟨digits, hdigits, hnum⟩ := hnum
    cases hdigits
    exact hnum.nonempty rfl
  · intro hne
    unfold intToStringDec
    split
    · rename_i hzero
      rw [hzero]
      exact numeral_zero
    · rename_i hzero
      have hint : num.toInt ≠ 0 := fun h => hzero (BitVec.eq_of_toInt_eq (h.trans rfl))
      split
      · rename_i hneg
        have hpos : 0 < (-num).toInt.toNat := by
          rw [toInt_neg_of_ne hne]
          omega
        obtain ⟨digits, htext, hnum⟩ := decRun_numeral true hpos
        rw [IntNumeral, if_pos hneg]
        rw [toInt_neg_of_ne hne] at hnum
        exact ⟨digits, htext, hnum⟩
      · rename_i hneg
        have hpos : 0 < num.toInt.toNat := by omega
        obtain ⟨digits, htext, hnum⟩ := decRun_numeral false hpos
        rw [IntNumeral, if_neg hneg, htext]
        exact hnum

/-- Whatever the number, the text is a sign and digits, at least one character. -/
theorem intToStringDec_chars (num : BitVec 32) :
    (intToStringDec num).text ≠ [] ∧ ∀ c ∈ (intToStringDec num).text, c = 45 ∨ 48 ≤ c ∧ c ≤ 57 := by
  have hrev (n : Nat) : ∀ c ∈ (digitLoop n n).reverse, c = 45 ∨ 48 ≤ c ∧ c ≤ 57 :=
    fun c hc => .inr (digitLoop_digits n n c (List.mem_reverse.mp hc))
  unfold intToStringDec
  split
  · exact ⟨List.cons_ne_nil _ _, by simp⟩
  · rename_i hzero
    split
    · exact ⟨List.cons_ne_nil _ _, List.forall_mem_cons.mpr ⟨.inl rfl, hrev _⟩⟩
    · rename_i hneg
      have hint : num.toInt ≠ 0 := fun h => hzero (BitVec.eq_of_toInt_eq (h.trans rfl))
      refine ⟨(digitLoop_numeral (Nat.le_refl _) ?_).1.nonempty, hrev _⟩
      omega

/-- For every 32-bit number: the digits fit in their buffer of 12 bytes, the unsigned text is the
numeral, and the signed text is the numeral, and so reads back, exactly if the number is not the
least one. -/
theorem decText_canonical_iff (num : BitVec 32) :
    ((intToStringDec num).sp0.length ≤ 12 ∧ (uintToStringDec num).sp0.length ≤ 12) ∧
      (Numeral (uintToStringDec num).text num.toNat ∧
        decValue (uintToStringDec num).text = num.toNat) ∧
      (IntNumeral (intToStringDec num).text num.toInt ∧
        intValue (intToStringDec num).text = num.toInt ↔ num ≠ BitVec.intMin 32) := by
  refine ⟨⟨?_, ?_⟩, ⟨uintToStringDec_numeral num, (uintToStringDec_numeral num).value⟩, ?_⟩
  · have hhigh := BitVec.toInt_lt (x := num)
    have hhigh' := BitVec.toInt_lt (x := -num)
    unfold intToStringDec
    split
    · exact Nat.zero_le _
    split <;> exact decRun_fits (by omega)
  · unfold uintToStringDec
    split
    · exact Nat.zero_le _
    · exact decRun_fits num.isLt
  · rw [← intToStringDec_numeral_iff]
    exact and_iff_left_of_imp IntNumeral.reads_back

/-- The text of the least number is a sign alone. -/
theorem leastInt_signOnly :
    (intToStringDec (BitVec.intMin 32)).text = [45] ∧
      ¬ IntNumeral (intToStringDec (BitVec.intMin 32)).text (BitVec.intMin 32).toInt :=
  ⟨rfl, fun h => absurd rfl ((intToStringDec_numeral_iff (BitVec.intMin 32)).mp h)⟩

end Novo7
