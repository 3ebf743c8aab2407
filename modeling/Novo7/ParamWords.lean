import Novo7.BootScript

/-!
# Numbers in scripts

`ParseParamVal` takes a value of a script for a number if it looks like one from its first two or
three characters. It leaves three words: the value, the sign and the sign behind the digits. The
settings of the boot menu need the first of them only, and `parseParamWords_eq` says that they get
the same. The grammar that is meant is stated on its own, with digits that are there.
`parseParamWords_exact_iff` says for which strings the two agree.
-/

namespace Novo7

open CString

/-! ## The program -/

/-- The words of `var1` that are used. -/
structure ParamWords where
  val : Nat
  sign : Int
  suffix : Int
  deriving Repr, DecidableEq

/-- A loop over digits, with what is left at its end; other characters than a sign are an error. -/
def numberScan (base : Nat) (digit : UInt8 → Option Nat) : List UInt8 → Nat →
    Option (Nat × List UInt8)
  | [], v => some (v, [])
  | c :: cs, v =>
    match digit c with
    | some d => numberScan base digit cs ((d + base * v) % 2 ^ 32)
    | none => if c = 43 ∨ c = 45 then some (v, c :: cs) else none

/-- A number is returned with all three words, an error with none. -/
def numParam (base : Nat) (digit : UInt8 → Option Nat) (sign : Int) (buf : List UInt8)
    (var1 : ParamWords) : Int × ParamWords :=
  match numberScan base digit buf 0 with
  | some (val, rest) => (1, ⟨val, sign, if rest.head? = some 45 then -1 else 1⟩)
  | none => (-1, var1)

/-- The length of a string, which is not counted beyond 128, in words. -/
def strWords (buf : List UInt8) : Nat := (min buf.length 128 + 3) / 4

def strParam (buf : List UInt8) (var1 : ParamWords) : Int × ParamWords :=
  (2, { var1 with val := strWords buf })

/-- The letter of a hexadecimal number. -/
def IsHexMark (c : Option UInt8) : Prop := c = some 120 ∨ c = some 88

instance (c : Option UInt8) : Decidable (IsHexMark c) := inferInstanceAs (Decidable (_ ∨ _))

/-- `ParseParamVal`, on the bytes of a string before the zero. -/
def parseParamWords (buf : List UInt8) (var1 : ParamWords) : Int × ParamWords :=
  if buf.head? = some 45 then
    if buf[1]? = some 48 then
      if IsHexMark buf[2]? then numParam 16 hexDigit (-1) (buf.drop 3) var1
      else strParam buf var1
    else if (buf[1]?.bind decDigit).isSome then numParam 10 decDigit (-1) (buf.drop 1) var1
    else strParam buf var1
  else if buf.head? = some 48 ∧ IsHexMark buf[1]? then numParam 16 hexDigit 1 (buf.drop 2) var1
  else if (buf.head?.bind decDigit).isSome then numParam 10 decDigit 1 buf var1
  else strParam buf var1

/-! ## The type and the first word -/

theorem numberLoop_eq {base : Nat} {digit : UInt8 → Option Nat} : ∀ {body : List UInt8} {v : Nat},
    numberLoop base digit body v = (numberScan base digit body v).map Prod.fst := by
  intro body
  induction body with
  | nil =>
      intro v
      rfl
  | cons c body ih =>
      intro v
      rw [numberLoop, numberScan]
      cases digit c with
      | some d => exact ih
      | none =>
          dsimp only
          split <;> rfl

/-- What a value is, with its first word, as the settings of the boot menu are read. -/
def SameParam (r : Int × ParamWords) : Option ParamVal → Prop
  | some v => r.1 = v.code ∧ r.2.val = v.word
  | none => r.1 = -1

theorem sameParam_num {base : Nat} {digit : UInt8 → Option Nat} {sign : Int} {body : List UInt8}
    {var1 : ParamWords} : SameParam (numParam base digit sign body var1)
      ((numberLoop base digit body 0).map (ParamVal.num · sign)) := by
  rw [numberLoop_eq, numParam]
  cases numberScan base digit body 0 with
  | none => rfl
  | some p => exact ⟨rfl, rfl⟩

theorem sameParam_str {buf : List UInt8} {var1 : ParamWords} (hlen : buf.length ≤ 128) :
    SameParam (strParam buf var1) (some (.str ((buf.length + 3) / 4))) := by
  refine ⟨rfl, ?_⟩
  show strWords buf = (buf.length + 3) / 4
  rw [strWords, Nat.min_eq_left hlen]

/-- Behind a minus. -/
theorem parseParamWords_minus (body : List UInt8) (var1 : ParamWords) :
    parseParamWords (45 :: body) var1 =
      if body.head? = some 48 then
        if IsHexMark body[1]? then numParam 16 hexDigit (-1) (body.drop 2) var1
        else strParam (45 :: body) var1
      else if (body.head?.bind decDigit).isSome then numParam 10 decDigit (-1) body var1
      else strParam (45 :: body) var1 := by
  cases body <;> rfl

/-- The values of `GetParam`, which are shorter, are taken the same way. -/
theorem parseParamWords_eq {buf : List UInt8} (hlen : buf.length ≤ 128) (var1 : ParamWords) :
    SameParam (parseParamWords buf var1) (parseParamVal buf) := by
  unfold parseParamVal
  dsimp only
  split
  · rename_i x rest
    rw [parseParamWords_minus, if_pos (show (48 :: x :: rest).head? = some 48 from rfl)]
    by_cases hx : x = 120 ∨ x = 88
    · rw [if_pos hx]
      have hmark : IsHexMark (48 :: x :: rest)[1]? := hx.imp (congrArg some) (congrArg some)
      rw [if_pos hmark]
      exact sameParam_num
    · rw [if_neg hx]
      have hmark : ¬ IsHexMark (48 :: x :: rest)[1]? :=
        fun h => hx (h.imp Option.some.inj Option.some.inj)
      rw [if_neg hmark]
      exact sameParam_str hlen
  · rename_i c rest hno
    rw [parseParamWords_minus]
    by_cases hc : c = 48
    · rw [if_neg (show ¬ (c ≠ 48 ∧ (decDigit c).isSome = true) from fun h => h.1 hc)]
      have hmark : ¬ IsHexMark (c :: rest)[1]? := by
        cases rest with
        | nil => rintro (h | h) <;> cases h
        | cons x rest => exact (hno x rest hc rfl).elim
      rw [if_pos (show (c :: rest).head? = some 48 from congrArg some hc), if_neg hmark]
      exact sameParam_str hlen
    · rw [if_neg (show ¬ (c :: rest).head? = some 48 from fun h => hc (Option.some.inj h))]
      by_cases hd : (decDigit c).isSome = true
      · rw [if_pos (show c ≠ 48 ∧ (decDigit c).isSome = true from ⟨hc, hd⟩)]
        rw [if_pos (show ((c :: rest).head?.bind decDigit).isSome = true from hd)]
        exact sameParam_num
      · rw [if_neg (show ¬ (c ≠ 48 ∧ (decDigit c).isSome = true) from fun h => hd h.2)]
        rw [if_neg (show ¬ ((c :: rest).head?.bind decDigit).isSome = true from hd)]
        exact sameParam_str hlen
  · rename_i c rest hno hno'
    by_cases hminus : c = 45
    · cases rest with
      | nil =>
          rw [hminus]
          exact sameParam_str hlen
      | cons d rest => exact (hno' d rest hminus rfl).elim
    · have hhead : ¬ (c :: rest).head? = some 45 := fun h => hminus (Option.some.inj h)
      rw [parseParamWords, if_neg hhead]
      by_cases hhex : c = 48 ∧ (rest.head? = some 120 ∨ rest.head? = some 88)
      · have hmark : (c :: rest).head? = some 48 ∧ IsHexMark (c :: rest)[1]? := by
          refine ⟨congrArg some hhex.1, ?_⟩
          cases rest <;> exact hhex.2
        rw [if_pos hhex, if_pos hmark]
        have hdrop : (c :: rest).drop 2 = rest.tail := by cases rest <;> rfl
        rw [hdrop]
        exact sameParam_num
      · have hmark : ¬ ((c :: rest).head? = some 48 ∧ IsHexMark (c :: rest)[1]?) := by
          rintro ⟨h48, hmark⟩
          refine hhex ⟨Option.some.inj h48, ?_⟩
          cases rest <;> exact hmark
        rw [if_neg hhex, if_neg hmark]
        by_cases hd : (decDigit c).isSome = true
        · rw [if_pos hd]
          rw [if_pos (show ((c :: rest).head?.bind decDigit).isSome = true from hd)]
          exact sameParam_num
        · rw [if_neg hd]
          rw [if_neg (show ¬ ((c :: rest).head?.bind decDigit).isSome = true from hd)]
          exact sameParam_str hlen
  · exact sameParam_str hlen

/-! ## The grammar -/

/-- The number that digits stand for. -/
def digitsNumber (base : Nat) (digit : UInt8 → Option Nat) (v : Nat) (digits : List UInt8) : Nat :=
  digits.foldl (fun v c => (digit c).getD 0 + base * v) v

/-- What may follow the digits. -/
def SuffixStart (rest : List UInt8) : Prop :=
  rest = [] ∨ rest.head? = some 43 ∨ rest.head? = some 45

/-- Digits, as many as there are, and what may follow them. -/
structure Digits (base : Nat) (digit : UInt8 → Option Nat) (v : Nat) (body : List UInt8) (w : Nat)
    (digits rest : List UInt8) : Prop where
  body : body = digits ++ rest
  all : ∀ c ∈ digits, (digit c).isSome = true
  rest : SuffixStart rest
  value : w = digitsNumber base digit v digits % 2 ^ 32

/-- A literal without its sign: decimal, or hexadecimal behind its prefix. -/
inductive Literal : List UInt8 → Nat → List UInt8 → Prop
  | dec {body digits rest : List UInt8} {w : Nat} (h : Digits 10 decDigit 0 body w digits rest)
      (hne : digits ≠ []) : Literal body w rest
  | hex {x : UInt8} {body digits rest : List UInt8} {w : Nat} (hx : IsHexMark (some x))
      (h : Digits 16 hexDigit 0 body w digits rest) (hne : digits ≠ []) :
      Literal (48 :: x :: body) w rest

/-- A string is a number with these words. -/
inductive IsNumber : List UInt8 → ParamWords → Prop
  | pos {body rest : List UInt8} {w : Nat} (h : Literal body w rest) :
      IsNumber body ⟨w, 1, if rest.head? = some 45 then -1 else 1⟩
  | neg {body rest : List UInt8} {w : Nat} (h : Literal body w rest) :
      IsNumber (45 :: body) ⟨w, -1, if rest.head? = some 45 then -1 else 1⟩

/-- A string starts like a number. -/
def StartsNumber : List UInt8 → Prop
  | 45 :: body => (body.head?.bind decDigit).isSome = true
  | body => (body.head?.bind decDigit).isSome = true

/-- `ParseParamVal` returns the numbers of the grammar as such, with all words, and strings that do
not start like a number with the count of their words. -/
structure ParsesExactly (buf : List UInt8) : Prop where
  number : ∀ var1 n, parseParamWords buf var1 = (1, n) ↔ IsNumber buf n
  string : ¬ StartsNumber buf → ∀ var1,
    parseParamWords buf var1 = (2, { var1 with val := (buf.length + 3) / 4 })
  allSet : ∀ var1 var1', (parseParamWords buf var1).1 = 1 →
    parseParamWords buf var1 = parseParamWords buf var1'

/-- A decimal number that is zero, or begins with one, behind a minus. -/
def MinusZero (buf : List UInt8) : Prop :=
  ∃ body n, buf = 45 :: 48 :: body ∧ ¬ IsHexMark body.head? ∧ IsNumber buf n

/-- A hexadecimal prefix with no digit behind it. -/
def EmptyHex (buf : List UInt8) : Prop :=
  ∃ x rest, IsHexMark (some x) ∧ SuffixStart rest ∧
    (buf = 48 :: x :: rest ∨ buf = 45 :: 48 :: x :: rest)

/-! ## Digits -/

section Scan

variable {base : Nat} {digit : UInt8 → Option Nat}

/-- A sign is no digit. -/
def SignFree (digit : UInt8 → Option Nat) : Prop := digit 43 = none ∧ digit 45 = none

theorem decDigit_signFree : SignFree decDigit := ⟨by decide, by decide⟩

theorem hexDigit_signFree : SignFree hexDigit := ⟨by decide, by decide⟩

theorem digitsNumber_cons (v : Nat) (c : UInt8) (digits : List UInt8) :
    digitsNumber base digit v (c :: digits) =
      digitsNumber base digit ((digit c).getD 0 + base * v) digits := rfl

/-- The value is only needed modulo the word. -/
theorem digitsNumber_mod (digits : List UInt8) : ∀ v, digitsNumber base digit (v % 2 ^ 32) digits %
    2 ^ 32 = digitsNumber base digit v digits % 2 ^ 32 := by
  induction digits with
  | nil => exact fun v => Nat.mod_mod _ _
  | cons c digits ih =>
      intro v
      rw [digitsNumber_cons, digitsNumber_cons, ← ih, ← ih ((digit c).getD 0 + base * v)]
      congr 2
      rw [Nat.add_mod, Nat.mul_mod, Nat.mod_mod, ← Nat.mul_mod, ← Nat.add_mod]

/-- The loop finds the digits that are there, and nothing else. -/
theorem numberScan_iff (hsign : SignFree digit) : ∀ {body : List UInt8} {v w : Nat}
    {rest : List UInt8}, v < 2 ^ 32 → (numberScan base digit body v = some (w, rest) ↔
      ∃ digits, Digits base digit v body w digits rest) := by
  intro body
  induction body with
  | nil =>
      intro v w rest hv
      constructor
      · intro h
        cases h
        refine ⟨[], rfl, fun _ hc => (List.not_mem_nil hc).elim, .inl rfl, ?_⟩
        exact (Nat.mod_eq_of_lt hv).symm
      · rintro ⟨digits, hbody, -, -, hvalue⟩
        obtain ⟨rfl, rfl⟩ := List.append_eq_nil_iff.mp hbody.symm
        rw [hvalue]
        show some (v, []) = _
        rw [show digitsNumber base digit v [] = v from rfl, Nat.mod_eq_of_lt hv]
  | cons c body ih =>
      intro v w rest hv
      rw [numberScan]
      cases hd : digit c with
      | some d =>
          dsimp only
          rw [ih (Nat.mod_lt _ (by decide))]
          constructor
          · rintro ⟨digits, hbody, hdigits, hrest, hvalue⟩
            refine ⟨c :: digits, by rw [hbody]; rfl, ?_, hrest, ?_⟩
            · exact List.forall_mem_cons.mpr ⟨by rw [hd]; rfl, hdigits⟩
            · rw [hvalue, digitsNumber_mod, digitsNumber_cons, hd]
              rfl
          · rintro ⟨digits, hbody, hdigits, hrest, hvalue⟩
            cases digits with
            | nil =>
                -- a digit does not start a suffix
                rw [List.nil_append] at hbody
                subst hbody
                rcases hrest with h | h | h
                · cases h
                · cases h
                  rw [hsign.1] at hd
                  cases hd
                · cases h
                  rw [hsign.2] at hd
                  cases hd
            | cons c' digits =>
                obtain ⟨hc, htail⟩ := List.cons.inj hbody
                subst hc
                refine ⟨digits, htail, (List.forall_mem_cons.mp hdigits).2, hrest, ?_⟩
                rw [hvalue, digitsNumber_mod, digitsNumber_cons, hd]
                rfl
      | none =>
          dsimp only
          have hnil {digits : List UInt8} (h : Digits base digit v (c :: body) w digits rest) :
              digits = [] := by
            cases digits with
            | nil => rfl
            | cons c' digits =>
                have := (List.forall_mem_cons.mp h.all).1
                rw [← (List.cons.inj h.body).1, hd] at this
                cases this
          constructor
          · intro h
            split at h
            · rename_i hs
              cases h
              refine ⟨[], rfl, fun _ hc => (List.not_mem_nil hc).elim, .inr ?_,
                (Nat.mod_eq_of_lt hv).symm⟩
              exact hs.imp (congrArg some) (congrArg some)
            · cases h
          · rintro ⟨digits, h⟩
            have hdigits := hnil h
            subst hdigits
            have hbody : c :: body = rest := h.body
            subst hbody
            have hs : c = 43 ∨ c = 45 := by
              rcases h.rest with hr | hr | hr
              · cases hr
              · exact .inl (Option.some.inj hr)
              · exact .inr (Option.some.inj hr)
            rw [if_pos hs, h.value, show digitsNumber base digit v [] = v from rfl,
              Nat.mod_eq_of_lt hv]

end Scan

/-! ## Numbers and what they start with -/

section Number

variable {base : Nat} {digit : UInt8 → Option Nat} {buf body t rest : List UInt8} {sign : Int}

/-- The words of a number. -/
def numWords (w : Nat) (sign : Int) (rest : List UInt8) : ParamWords :=
  ⟨w, sign, if rest.head? = some 45 then -1 else 1⟩

theorem numParam_iff (hsign : SignFree digit) {var1 n : ParamWords} :
    numParam base digit sign t var1 = (1, n) ↔
      ∃ digits w rest, Digits base digit 0 t w digits rest ∧ n = numWords w sign rest := by
  unfold numParam
  constructor
  · intro h
    split at h
    · rename_i w rest hscan
      obtain ⟨digits, hdigits⟩ := (numberScan_iff hsign (by decide)).mp hscan
      exact ⟨digits, w, rest, hdigits, (Prod.mk.inj h).2.symm⟩
    · exact absurd (Prod.mk.inj h).1 (by decide)
  · rintro ⟨digits, w, rest, hdigits, rfl⟩
    rw [(numberScan_iff hsign (by decide)).mpr ⟨digits, hdigits⟩]
    rfl

/-- A digit in front is not the start of a suffix. -/
theorem not_suffix_of_digit {c : UInt8} (h : (decDigit c).isSome = true) :
    ¬ SuffixStart (c :: t) := by
  rintro (h0 | h0 | h0)
  · cases h0
  · cases h0
    exact absurd h (by decide)
  · cases h0
    exact absurd h (by decide)

theorem Digits.ne_nil {w : Nat} {digits : List UInt8} (h : Digits base digit 0 t w digits rest)
    (ht : ¬ SuffixStart t) : digits ≠ [] := by
  rintro rfl
  exact ht (h.body ▸ h.rest)

/-- The digits of a decimal number start it. -/
theorem Digits.head {w : Nat} {digits : List UInt8} (h : Digits base digit 0 t w digits rest)
    (hne : digits ≠ []) : ∃ c cs, digits = c :: cs ∧ t = c :: (cs ++ rest) ∧ (digit c).isSome := by
  cases digits with
  | nil => exact absurd rfl hne
  | cons c cs => exact ⟨c, cs, rfl, h.body, h.all c List.mem_cons_self⟩

/-- A literal starts with a digit. -/
theorem Literal.starts {w : Nat} (h : Literal body w rest) :
    ∃ c cs, body = c :: cs ∧ (decDigit c).isSome = true := by
  cases h with
  | dec h hne =>
      obtain ⟨c, cs, -, hbody, hc⟩ := h.head hne
      exact ⟨c, _, hbody, hc⟩
  | @hex x body digits rest w hx h hne => exact ⟨48, x :: body, rfl, by decide⟩

/-- Behind a hexadecimal prefix. -/
theorem literal_hex_iff {x : UInt8} (hx : IsHexMark (some x)) {w : Nat} :
    Literal (48 :: x :: t) w rest ↔
      ∃ digits, digits ≠ [] ∧ Digits 16 hexDigit 0 t w digits rest := by
  constructor
  · intro h
    generalize hbody : 48 :: x :: t = body at h
    cases h with
    | dec h hne =>
        -- the letter neither is a digit nor starts a suffix
        subst hbody
        obtain ⟨c, cs, rfl, hbody, -⟩ := h.head hne
        have htail := (List.cons.inj hbody).2
        cases cs with
        | nil =>
            exfalso
            have hrest := h.rest
            rw [List.nil_append] at htail
            rw [← htail] at hrest
            rcases hx with hx | hx <;> cases hx <;> rcases hrest with h0 | h0 | h0 <;>
              exact absurd h0 (by simp)
        | cons d cs =>
            exfalso
            have hd := h.all d (List.mem_cons_of_mem _ List.mem_cons_self)
            rw [← (List.cons.inj htail).1] at hd
            rcases hx with hx | hx <;> cases hx <;> exact absurd hd (by decide)
    | hex hx' h hne =>
        obtain ⟨-, hbody⟩ := List.cons.inj hbody
        obtain ⟨-, hbody⟩ := List.cons.inj hbody
        exact ⟨_, hne, hbody ▸ h⟩
  · rintro ⟨digits, hne, h⟩
    exact .hex hx h hne

/-- Behind none. -/
theorem literal_dec_iff (hno : ∀ x t, body = 48 :: x :: t → ¬ IsHexMark (some x)) {w : Nat} :
    Literal body w rest ↔ ∃ digits, digits ≠ [] ∧ Digits 10 decDigit 0 body w digits rest := by
  constructor
  · intro h
    cases h with
    | dec h hne => exact ⟨_, hne, h⟩
    | hex hx h hne => exact absurd hx (hno _ _ rfl)
  · rintro ⟨digits, hne, h⟩
    exact .dec h hne

theorem isNumber_neg_iff {n : ParamWords} : IsNumber (45 :: body) n ↔
    ∃ w rest, Literal body w rest ∧ n = numWords w (-1) rest := by
  constructor
  · intro h
    cases h with
    | pos h =>
        obtain ⟨c, cs, hbody, hc⟩ := h.starts
        cases hbody
        exact absurd hc (by decide)
    | neg h => exact ⟨_, _, h, rfl⟩
  · rintro ⟨w, rest, h, rfl⟩
    exact .neg h

theorem isNumber_pos_iff (hhead : buf.head? ≠ some 45) {n : ParamWords} : IsNumber buf n ↔
    ∃ w rest, Literal buf w rest ∧ n = numWords w 1 rest := by
  constructor
  · intro h
    cases h with
    | pos h => exact ⟨_, _, h, rfl⟩
    | neg h => exact absurd rfl hhead
  · rintro ⟨w, rest, h, rfl⟩
    exact .pos h

/-- A string that is taken for a number: it is one if there is a digit. -/
theorem exact_of_num (hsign : SignFree digit) (hstart : StartsNumber buf)
    (hparse : ∀ var1, parseParamWords buf var1 = numParam base digit sign t var1)
    (hnum : ∀ n, IsNumber buf n ↔ ∃ w rest, (∃ digits, digits ≠ [] ∧
      Digits base digit 0 t w digits rest) ∧ n = numWords w sign rest) :
    ParsesExactly buf ↔ ¬ SuffixStart t := by
  constructor
  · intro h hsuffix
    have hempty : Digits base digit 0 t 0 [] t :=
      ⟨rfl, fun _ hc => (List.not_mem_nil hc).elim, hsuffix, rfl⟩
    have hone : parseParamWords buf ⟨0, 0, 0⟩ = (1, numWords 0 sign t) := by
      rw [hparse]
      exact (numParam_iff hsign).mpr ⟨[], 0, t, hempty, rfl⟩
    obtain ⟨w, rest, ⟨digits, hne, hdigits⟩, -⟩ := (hnum _).mp ((h.number _ _).mp hone)
    obtain ⟨c, cs, -, ht, hc⟩ := hdigits.head hne
    subst ht
    rcases hsuffix with h0 | h0 | h0
    · cases h0
    · cases h0
      rw [hsign.1] at hc
      cases hc
    · cases h0
      rw [hsign.2] at hc
      cases hc
  · intro hsuffix
    refine ⟨fun var1 n => ?_, fun hno => absurd hstart hno, fun var1 var1' hone => ?_⟩
    · rw [hparse, numParam_iff hsign, hnum]
      constructor
      · rintro ⟨digits, w, rest, hdigits, hn⟩
        exact ⟨w, rest, ⟨digits, hdigits.ne_nil hsuffix, hdigits⟩, hn⟩
      · rintro ⟨w, rest, ⟨digits, -, hdigits⟩, hn⟩
        exact ⟨digits, w, rest, hdigits, hn⟩
    · rw [hparse] at hone
      rw [hparse, hparse]
      unfold numParam at hone ⊢
      split at hone
      · rfl
      · exact absurd hone (show (-1 : Int) ≠ 1 by decide)

/-- A string that is not taken for a number. -/
theorem exact_of_str (hparse : ∀ var1, parseParamWords buf var1 = strParam buf var1) :
    ParsesExactly buf ↔ (∀ n, ¬ IsNumber buf n) ∧ (StartsNumber buf ∨ buf.length ≤ 128) := by
  have hwords : strWords buf = (buf.length + 3) / 4 ↔ buf.length ≤ 128 := by
    unfold strWords
    omega
  constructor
  · intro h
    refine ⟨fun n hn => ?_, ?_⟩
    · have hone := (h.number ⟨0, 0, 0⟩ n).mpr hn
      rw [hparse] at hone
      exact absurd (Prod.mk.inj hone).1 (by decide)
    · by_contra hno
      obtain ⟨hno, hlong⟩ := not_or.mp hno
      have hstr := h.string hno ⟨0, 0, 0⟩
      rw [hparse] at hstr
      exact hlong (hwords.mp (ParamWords.mk.inj (Prod.mk.inj hstr).2).1)
  · rintro ⟨hnone, hlen⟩
    refine ⟨fun var1 n => ?_, fun hno var1 => ?_, fun var1 var1' hone => ?_⟩
    · rw [hparse]
      exact iff_of_false (fun h => absurd (Prod.mk.inj h).1 (by decide)) (hnone n)
    · rw [hparse, strParam, hwords.mpr (hlen.resolve_left hno)]
    · rw [hparse] at hone
      exact absurd hone (show (2 : Int) ≠ 1 by decide)

end Number

/-! ## Strings that are parsed exactly -/

section Exact

variable {buf body t : List UInt8}

/-- A prefix without digits is what is left behind it. -/
theorem emptyHex_iff {x : UInt8} (hx : IsHexMark (some x)) :
    (EmptyHex (48 :: x :: t) ↔ SuffixStart t) ∧
      (EmptyHex (45 :: 48 :: x :: t) ↔ SuffixStart t) := by
  refine ⟨⟨?_, fun h => ⟨x, t, hx, h, .inl rfl⟩⟩, ⟨?_, fun h => ⟨x, t, hx, h, .inr rfl⟩⟩⟩
  · rintro ⟨x', rest, -, hrest, h | h⟩
    · cases h
      exact hrest
    · exact absurd (List.cons.inj h).1 (by decide)
  · rintro ⟨x', rest, -, hrest, h | h⟩
    · exact absurd (List.cons.inj h).1 (by decide)
    · cases h
      exact hrest

/-- Behind a minus. -/
theorem exact_neg : ParsesExactly (45 :: body) ↔ ¬ MinusZero (45 :: body) ∧
    ¬ EmptyHex (45 :: body) ∧ (StartsNumber (45 :: body) ∨ (45 :: body).length ≤ 128) := by
  have hparse := parseParamWords_minus body
  by_cases hzero : body.head? = some 48
  · -- a zero behind the minus
    obtain ⟨t, rfl⟩ : ∃ t, body = 48 :: t := ⟨body.tail, List.eq_cons_of_mem_head? hzero⟩
    have hstart : StartsNumber (45 :: 48 :: t) := show (decDigit 48).isSome = true by decide
    by_cases hx : IsHexMark t.head?
    · obtain ⟨x, t, rfl⟩ : ∃ x t', t = x :: t' := by
        cases t with
        | nil => rcases hx with h | h <;> cases h
        | cons x t => exact ⟨x, t, rfl⟩
      have hx : IsHexMark (some x) := hx
      have hno : ¬ MinusZero (45 :: 48 :: x :: t) := by
        rintro ⟨body', n, hbody, hmark, -⟩
        cases hbody
        exact hmark hx
      have hhex (var1 : ParamWords) : parseParamWords (45 :: 48 :: x :: t) var1 =
          numParam 16 hexDigit (-1) t var1 := by
        rw [hparse, if_pos hzero]
        exact if_pos hx
      have hnum (n : ParamWords) : IsNumber (45 :: 48 :: x :: t) n ↔
          ∃ w rest, (∃ digits, digits ≠ [] ∧ Digits 16 hexDigit 0 t w digits rest) ∧
            n = numWords w (-1) rest := by
        rw [isNumber_neg_iff]
        simp only [literal_hex_iff hx]
      rw [exact_of_num hexDigit_signFree hstart hhex hnum, (emptyHex_iff hx).2]
      exact ⟨fun h => ⟨hno, h, .inl hstart⟩, fun h => h.2.1⟩
    · have hmark : ¬ IsHexMark (48 :: t)[1]? := by
        cases t <;> exact hx
      have hempty : ¬ EmptyHex (45 :: 48 :: t) := by
        rintro ⟨x, rest, hx', -, h | h⟩
        · exact absurd (List.cons.inj h).1 (by decide)
        · cases h
          exact hx hx'
      rw [exact_of_str fun var1 => by rw [hparse, if_pos hzero, if_neg hmark]]
      constructor
      · rintro ⟨hnone, hlen⟩
        refine ⟨?_, hempty, hlen⟩
        rintro ⟨body', n, hbody, -, hn⟩
        exact hnone n hn
      · rintro ⟨hminus, -, hlen⟩
        exact ⟨fun n hn => hminus ⟨t, n, rfl, hx, hn⟩, hlen⟩
  · have hminus : ¬ MinusZero (45 :: body) := by
      rintro ⟨body', n, hbody, -⟩
      cases hbody
      exact hzero rfl
    have hempty : ¬ EmptyHex (45 :: body) := by
      rintro ⟨x, rest, -, -, h | h⟩
      · exact absurd (List.cons.inj h).1 (by decide)
      · cases h
        exact hzero rfl
    by_cases hdigit : (body.head?.bind decDigit).isSome = true
    · have hstart : StartsNumber (45 :: body) := hdigit
      obtain ⟨c, cs, rfl⟩ : ∃ c cs, body = c :: cs := by
        cases body with
        | nil => cases hdigit
        | cons c cs => exact ⟨c, cs, rfl⟩
      have hdec (var1 : ParamWords) : parseParamWords (45 :: c :: cs) var1 =
          numParam 10 decDigit (-1) (c :: cs) var1 := by
        rw [hparse, if_neg hzero, if_pos hdigit]
      have hnohex (x : UInt8) (t : List UInt8) (h : c :: cs = 48 :: x :: t) :
          ¬ IsHexMark (some x) := fun _ => hzero (by rw [h]; rfl)
      have hnum (n : ParamWords) : IsNumber (45 :: c :: cs) n ↔
          ∃ w rest, (∃ digits, digits ≠ [] ∧ Digits 10 decDigit 0 (c :: cs) w digits rest) ∧
            n = numWords w (-1) rest := by
        rw [isNumber_neg_iff]
        simp only [literal_dec_iff hnohex]
      rw [exact_of_num decDigit_signFree hstart hdec hnum]
      exact iff_of_true (not_suffix_of_digit hdigit) ⟨hminus, hempty, .inl hstart⟩
    · have hnone (n : ParamWords) : ¬ IsNumber (45 :: body) n := by
        rw [isNumber_neg_iff]
        rintro ⟨w, rest, h, -⟩
        obtain ⟨c, cs, rfl, hc⟩ := h.starts
        exact hdigit hc
      rw [exact_of_str fun var1 => by rw [hparse, if_neg hzero, if_neg hdigit]]
      exact ⟨fun h => ⟨hminus, hempty, h.2⟩, fun h => ⟨hnone, h.2.2⟩⟩

/-- Without a minus. -/
theorem exact_pos (hhead : buf.head? ≠ some 45) : ParsesExactly buf ↔ ¬ MinusZero buf ∧
    ¬ EmptyHex buf ∧ (StartsNumber buf ∨ buf.length ≤ 128) := by
  have hminus : ¬ MinusZero buf := by
    rintro ⟨body, n, rfl, -⟩
    exact hhead rfl
  have hstarts : StartsNumber buf ↔ (buf.head?.bind decDigit).isSome = true := by
    unfold StartsNumber
    split
    · exact absurd rfl hhead
    · exact Iff.rfl
  by_cases hhex : buf.head? = some 48 ∧ IsHexMark buf[1]?
  · obtain ⟨x, t, rfl⟩ : ∃ x t, buf = 48 :: x :: t := by
      obtain ⟨h0, h1⟩ := hhex
      rw [List.eq_cons_of_mem_head? h0] at h1 ⊢
      cases ht : buf.tail with
      | nil =>
          rw [ht] at h1
          rcases h1 with h | h <;> cases h
      | cons x t => exact ⟨x, t, rfl⟩
    have hx : IsHexMark (some x) := hhex.2
    have hstart : StartsNumber (48 :: x :: t) :=
      hstarts.mpr (show (decDigit 48).isSome = true by decide)
    have hparse (var1 : ParamWords) : parseParamWords (48 :: x :: t) var1 =
        numParam 16 hexDigit 1 t var1 := by
      rw [parseParamWords, if_neg hhead, if_pos hhex]
      rfl
    have hnum (n : ParamWords) : IsNumber (48 :: x :: t) n ↔
        ∃ w rest, (∃ digits, digits ≠ [] ∧ Digits 16 hexDigit 0 t w digits rest) ∧
          n = numWords w 1 rest := by
      rw [isNumber_pos_iff hhead]
      simp only [literal_hex_iff hx]
    rw [exact_of_num hexDigit_signFree hstart hparse hnum, (emptyHex_iff hx).1]
    exact ⟨fun h => ⟨hminus, h, .inl hstart⟩, fun h => h.2.1⟩
  · have hempty : ¬ EmptyHex buf := by
      rintro ⟨x, rest, hx, -, rfl | rfl⟩
      · exact hhex ⟨rfl, hx⟩
      · exact hhead rfl
    by_cases hdigit : (buf.head?.bind decDigit).isSome = true
    · obtain ⟨c, cs, rfl⟩ : ∃ c cs, buf = c :: cs := by
        cases buf with
        | nil => cases hdigit
        | cons c cs => exact ⟨c, cs, rfl⟩
      have hparse (var1 : ParamWords) : parseParamWords (c :: cs) var1 =
          numParam 10 decDigit 1 (c :: cs) var1 := by
        rw [parseParamWords, if_neg hhead, if_neg hhex, if_pos hdigit]
      have hnohex (x : UInt8) (t : List UInt8) (h : c :: cs = 48 :: x :: t) :
          ¬ IsHexMark (some x) := fun hx => hhex (by rw [h]; exact ⟨rfl, hx⟩)
      have hnum (n : ParamWords) : IsNumber (c :: cs) n ↔
          ∃ w rest, (∃ digits, digits ≠ [] ∧ Digits 10 decDigit 0 (c :: cs) w digits rest) ∧
            n = numWords w 1 rest := by
        rw [isNumber_pos_iff hhead]
        simp only [literal_dec_iff hnohex]
      rw [exact_of_num decDigit_signFree (hstarts.mpr hdigit) hparse hnum]
      exact iff_of_true (not_suffix_of_digit hdigit) ⟨hminus, hempty, .inl (hstarts.mpr hdigit)⟩
    · have hnone (n : ParamWords) : ¬ IsNumber buf n := by
        rw [isNumber_pos_iff hhead]
        rintro ⟨w, rest, h, -⟩
        obtain ⟨c, cs, rfl, hc⟩ := h.starts
        exact hdigit hc
      rw [exact_of_str fun var1 => by
        rw [parseParamWords, if_neg hhead, if_neg hhex, if_neg hdigit]]
      exact ⟨fun h => ⟨hminus, hempty, h.2⟩, fun h => ⟨hnone, h.2.2⟩⟩

end Exact

/-- For every string: `ParseParamVal` follows the grammar exactly if the string is not a decimal
number whose digits begin with a zero behind a minus, not a hexadecimal prefix without digits, and
not longer than 128 bytes unless it starts like a number. -/
theorem parseParamWords_exact_iff (buf : List UInt8) : ParsesExactly buf ↔ ¬ MinusZero buf ∧
    ¬ EmptyHex buf ∧ (StartsNumber buf ∨ buf.length ≤ 128) := by
  by_cases hhead : buf.head? = some 45
  · rw [List.eq_cons_of_mem_head? hhead]
    exact exact_neg
  · exact exact_pos hhead

/-- `-0` is taken for a string of one word, and `0x` for a number. -/
theorem minusZero_string :
    (parseParamWords (text "-0") ⟨7, 7, 7⟩ = (2, ⟨1, 7, 7⟩) ∧ IsNumber (text "-0") ⟨0, -1, 1⟩) ∧
      parseParamWords (text "0x") ⟨7, 7, 7⟩ = (1, ⟨0, 1, 1⟩) ∧ ¬ ParsesExactly (text "-0") := by
  have hstr : parseParamWords (text "-0") ⟨7, 7, 7⟩ = (2, ⟨1, 7, 7⟩) := by decide +kernel
  have hnum : IsNumber (text "-0") ⟨0, -1, 1⟩ := by
    refine @IsNumber.neg [48] [] 0 (@Literal.dec _ [48] _ _ ⟨rfl, ?_, .inl rfl, rfl⟩ ?_)
    · intro c hc
      rw [List.mem_singleton.mp hc]
      decide
    · exact List.cons_ne_nil _ _
  refine ⟨⟨hstr, hnum⟩, by decide +kernel, fun h => ?_⟩
  have hone := (h.number ⟨7, 7, 7⟩ _).mpr hnum
  rw [hstr] at hone
  exact absurd (Prod.mk.inj hone).1 (by decide)

end Novo7
