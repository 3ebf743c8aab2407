import Novo7.OsImg

/-!
# Base addresses of scripts

A segment and the script have a base address and a size, in two lines of their section. An address
with a minus behind it is the end of the area: the size is subtracted, when its line is read if that
comes first, otherwise when the address is. Whether it came first is told from the size being zero,
which a section before may have set.

`addressLines_right_iff` is about both kinds of section, and both orders of the lines.
-/

namespace Novo7

open Bytes CString

/-! ## Sections with an address -/

inductive AddressSection where
  | segment
  | scriptInfo

def AddressSection.sect : AddressSection → ImgSection
  | .segment => .segment
  | .scriptInfo => .scriptInfo

def AddressSection.baseName : AddressSection → List UInt8
  | .segment => text "img_base"
  | .scriptInfo => text "script_base"

def AddressSection.sizeName : AddressSection → List UInt8
  | .segment => text "img_size"
  | .scriptInfo => text "script_size"

def AddressSection.base (segmentNo : Int) : AddressSection → ImgField
  | .segment => .imageBaseAddr segmentNo
  | .scriptInfo => .baseAddr

def AddressSection.size (segmentNo : Int) : AddressSection → ImgField
  | .segment => .imageMaxSize segmentNo
  | .scriptInfo => .maxSize

/-- What an address that waits is adjusted by. -/
def AddressSection.amount : AddressSection → OsImg → Nat
  | .segment => fun s => s.sp8.val
  | .scriptInfo => fun s => s.word .maxSize

/-- A line that is neither of the two. The name of a segment is copied to no more than its field. -/
inductive OtherLine (a : AddressSection) : ScriptLine → Prop
  | comment : OtherLine a .comment
  | param {name val : List UInt8} (hbase : name ≠ a.baseName) (hsize : name ≠ a.sizeName)
      (hfit : a = .segment → name = text "img_name" → ∀ sp8,
        strncpySize val (4 * (parseParamWords val sp8).2.val % 2 ^ 32) ≤ 32) :
      OtherLine a (.param name val)

/-- The lines of a section: an address, a size and others. -/
inductive AddressLines (a : AddressSection) (base size : List UInt8) : List ScriptLine → Prop
  | baseFirst {before between behind : List ScriptLine} (hbefore : ∀ l ∈ before, OtherLine a l)
      (hbetween : ∀ l ∈ between, OtherLine a l) (hbehind : ∀ l ∈ behind, OtherLine a l) :
      AddressLines a base size (before ++ .param a.baseName base ::
        (between ++ .param a.sizeName size :: behind))
  | sizeFirst {before between behind : List ScriptLine} (hbefore : ∀ l ∈ before, OtherLine a l)
      (hbetween : ∀ l ∈ between, OtherLine a l) (hbehind : ∀ l ∈ behind, OtherLine a l) :
      AddressLines a base size (before ++ .param a.sizeName size ::
        (between ++ .param a.baseName base :: behind))

/-- The address that a number stands for, from the top of the memory if it has a minus. -/
def namedAddress (top : Nat) (n : ParamWords) : Nat :=
  if n.sign < 0 then wordSub top n.val else n.val

/-- The address that is meant, with the size that a minus behind the number is for. -/
def meantAddress (top : Nat) (n : ParamWords) (size : Nat) : Nat :=
  if n.suffix < 0 then wordSub (namedAddress top n) size else namedAddress top n

/-- After every section with these two lines, begun in this state, the address is the one meant. -/
def AddressRight (top : Nat) (a : AddressSection) (s : OsImg) (base size : List UInt8)
    (n : ParamWords) (w : Nat) : Prop :=
  ∀ ls s', AddressLines a base size ls → ls.foldlM (OsImg.line top) s = some s' →
    s'.word (a.base s.segmentNo) = meantAddress top n w

/-! ## Words -/

theorem wordSub_lt (a b : Nat) : wordSub a b < 2 ^ 32 := Nat.mod_lt _ (Nat.two_pow_pos _)

theorem wordSub_mod (a b : Nat) : wordSub a (b % 2 ^ 32) = wordSub a b := by
  unfold wordSub
  rw [Nat.mod_mod]

/-- Sizes that make no difference are the same. -/
theorem wordSub_inj {a b c : Nat} (hb : b < 2 ^ 32) (hc : c < 2 ^ 32)
    (h : wordSub a b = wordSub a c) : b = c := by
  unfold wordSub at h
  omega

theorem putBytes_frame {script : Int → UInt8} {pos i : Int} {bytes : List UInt8}
    (h : i < pos ∨ pos + bytes.length ≤ i) : putBytes script pos bytes i = script i :=
  if_neg fun hi => by omega

section Word

variable {s : OsImg} {f g : ImgField} {bytes : List UInt8}

/-- A store elsewhere. -/
theorem OsImg.word_put (h : f.pos + 4 ≤ g.pos ∨ g.pos + bytes.length ≤ f.pos) :
    (s.put g bytes).word f = s.word f := by
  unfold OsImg.word OsImg.put
  dsimp only
  rw [putBytes_frame (by omega), putBytes_frame (by omega), putBytes_frame (by omega),
    putBytes_frame (by omega)]

theorem OsImg.word_setWord_frame {w : Nat} (h : f.pos + 4 ≤ g.pos ∨ g.pos + 4 ≤ f.pos) :
    (s.setWord g w).word f = s.word f :=
  OsImg.word_put (by rw [length_leBytes]; exact h)

/-- A word that was stored. -/
theorem OsImg.word_setWord {w : Nat} : (s.setWord f w).word f = w % 2 ^ 32 := by
  have hbyte (i : Int) (h0 : 0 ≤ i) (h4 : i < 4) :
      putBytes s.script f.pos (leBytes 4 w) (f.pos + i) = (leBytes 4 w).getD i.toNat 0 := by
    have hpos : f.pos ≤ f.pos + i ∧ f.pos + i < f.pos + (leBytes 4 w).length := by
      rw [length_leBytes]
      omega
    rw [putBytes, if_pos hpos, show f.pos + i - f.pos = i by omega]
  have h0 := hbyte 0 (by decide) (by decide)
  rw [Int.add_zero] at h0
  unfold OsImg.word OsImg.setWord OsImg.put
  dsimp only
  rw [h0, hbyte 1 (by decide) (by decide), hbyte 2 (by decide) (by decide),
    hbyte 3 (by decide) (by decide)]
  exact leValue_leBytes 4 w

theorem OsImg.word_lt (s : OsImg) (f : ImgField) : s.word f < 2 ^ 32 :=
  Nat.lt_of_lt_of_eq (leValue_lt _) (show 256 ^ 4 = 2 ^ 32 by decide)

end Word

/-! ## Values -/

theorem numberScan_lt {base : Nat} {digit : UInt8 → Option Nat} (hsign : SignFree digit)
    {body rest : List UInt8} {w : Nat} (h : numberScan base digit body 0 = some (w, rest)) :
    w < 2 ^ 32 := by
  obtain ⟨digits, hdigits⟩ := (numberScan_iff hsign (Nat.two_pow_pos 32)).mp h
  rw [hdigits.value]
  exact Nat.mod_lt _ (Nat.two_pow_pos 32)

/-- What is parsed does not depend on the words before, but for those that a string leaves. -/
theorem parseParamWords_any (buf : List UInt8) :
    (∃ n : ParamWords, n.val < 2 ^ 32 ∧ ∀ var1, parseParamWords buf var1 = (1, n)) ∨
      (∃ w < 2 ^ 32, ∀ var1, parseParamWords buf var1 = (2, { var1 with val := w })) ∨
      ∀ var1, parseParamWords buf var1 = (-1, var1) := by
  have hstr : ∃ w < 2 ^ 32, ∀ var1, strParam buf var1 = (2, { var1 with val := w }) :=
    ⟨strWords buf, by unfold strWords; omega, fun _ => rfl⟩
  have hnum {base : Nat} {digit : UInt8 → Option Nat} (hsign : SignFree digit) (sign : Int)
      (t : List UInt8) :
      (∃ n : ParamWords, n.val < 2 ^ 32 ∧ ∀ var1, numParam base digit sign t var1 = (1, n)) ∨
        ∀ var1, numParam base digit sign t var1 = (-1, var1) := by
    unfold numParam
    cases hscan : numberScan base digit t 0 with
    | none => exact .inr fun _ => rfl
    | some p => exact .inl ⟨_, numberScan_lt hsign hscan, fun _ => rfl⟩
  unfold parseParamWords
  split_ifs
  · exact (hnum hexDigit_signFree _ _).imp_right .inr
  · exact .inr (.inl hstr)
  · exact (hnum decDigit_signFree _ _).imp_right .inr
  · exact .inr (.inl hstr)
  · exact (hnum hexDigit_signFree _ _).imp_right .inr
  · exact (hnum decDigit_signFree _ _).imp_right .inr
  · exact .inr (.inl hstr)

/-- A number, whatever the words were before. -/
theorem parseParamWords_number {buf : List UInt8} {var1 n : ParamWords}
    (h : parseParamWords buf var1 = (1, n)) (var1' : ParamWords) :
    parseParamWords buf var1' = (1, n) ∧ n.val < 2 ^ 32 := by
  rcases parseParamWords_any buf with ⟨n', hn', hall⟩ | ⟨w, -, hall⟩ | hall
  · rw [hall] at h
    cases h
    exact ⟨hall var1', hn'⟩
  · rw [hall] at h
    cases h
  · rw [hall] at h
    cases h

/-- A value of this word, whatever the words were before. -/
theorem parseParamWords_word {buf : List UInt8} {var1 : ParamWords}
    (h : (parseParamWords buf var1).1 ≠ -1) (var1' : ParamWords) :
    (parseParamWords buf var1').1 ≠ -1 ∧
      (parseParamWords buf var1').2.val = (parseParamWords buf var1).2.val ∧
      (parseParamWords buf var1).2.val < 2 ^ 32 := by
  rcases parseParamWords_any buf with ⟨n, hn, hall⟩ | ⟨w, hw, hall⟩ | hall
  · rw [hall, hall]
    exact ⟨show (1 : Int) ≠ -1 by decide, rfl, hn⟩
  · rw [hall, hall]
    exact ⟨show (2 : Int) ≠ -1 by decide, rfl, hw⟩
  · rw [hall] at h
    exact absurd rfl h

/-! ## The lines of a section -/

section Lines

variable {a : AddressSection} {top : Nat}

theorem AddressSection.disjoint (a : AddressSection) (k : Int) :
    (a.base k).pos + 4 ≤ (a.size k).pos ∨ (a.size k).pos + 4 ≤ (a.base k).pos := by
  cases a
  · exact .inr (show 36 + 44 * k + 32 + 4 ≤ 36 + 44 * k + 40 by omega)
  · exact .inr (show (772 : Int) + 4 ≤ 780 by decide)

/-- What other lines leave: the section, its two fields and the flag. -/
structure SameAddress (a : AddressSection) (s s' : OsImg) : Prop where
  sect : s'.sect = s.sect
  segmentNo : s'.segmentNo = s.segmentNo
  adjust : s'.adjustBaseAddr = s.adjustBaseAddr
  size : s'.word (a.size s.segmentNo) = s.word (a.size s.segmentNo)
  base : s'.word (a.base s.segmentNo) = s.word (a.base s.segmentNo)

theorem SameAddress.refl (s : OsImg) : SameAddress a s s := ⟨rfl, rfl, rfl, rfl, rfl⟩

theorem SameAddress.trans {s₁ s₂ s₃ : OsImg} (h₁ : SameAddress a s₁ s₂) (h₂ : SameAddress a s₂ s₃) :
    SameAddress a s₁ s₃ where
  sect := h₂.sect.trans h₁.sect
  segmentNo := h₂.segmentNo.trans h₁.segmentNo
  adjust := h₂.adjust.trans h₁.adjust
  size := (h₁.segmentNo ▸ h₂.size).trans h₁.size
  base := (h₁.segmentNo ▸ h₂.base).trans h₁.base

theorem SameAddress.line {s s' : OsImg} {l : ScriptLine} (hsect : s.sect = some a.sect)
    (hl : OtherLine a l) (h : s.line top l = some s') : SameAddress a s s' := by
  cases hl with
  | comment =>
      cases h
      exact .refl s
  | @param name val hbase hsize hfit =>
      obtain ⟨-, rfl⟩ := OsImg.line_param h
      cases a with
      | scriptInfo =>
          have hsect : s.sect = some .scriptInfo := hsect
          have hbase : name ≠ text "script_base" := hbase
          have hsize : name ≠ text "script_size" := hsize
          unfold OsImg.param
          simp only [hsect, if_neg hbase, if_neg hsize]
          exact ⟨hsect.symm, rfl, rfl, rfl, rfl⟩
      | segment =>
          have hsect : s.sect = some .segment := hsect
          have hbase : name ≠ text "img_base" := hbase
          have hsize : name ≠ text "img_size" := hsize
          unfold OsImg.param
          by_cases hname : name = text "img_name"
          · have hle := hfit rfl hname s.sp8
            rw [← length_strncpyBytes] at hle
            simp only [hsect, if_pos hname]
            refine ⟨hsect.symm, rfl, rfl, OsImg.word_put (.inr ?_), OsImg.word_put (.inr ?_)⟩
            · show 36 + 44 * s.segmentNo + _ ≤ 36 + 44 * s.segmentNo + 32
              dsimp only
              omega
            · show 36 + 44 * s.segmentNo + _ ≤ 36 + 44 * s.segmentNo + 40
              dsimp only
              omega
          · simp only [hsect, if_neg hname, if_neg hbase, if_neg hsize]
            exact ⟨hsect.symm, rfl, rfl, rfl, rfl⟩

theorem SameAddress.lines {ls : List ScriptLine} : ∀ {s s' : OsImg}, s.sect = some a.sect →
    (∀ l ∈ ls, OtherLine a l) → ls.foldlM (OsImg.line top) s = some s' → SameAddress a s s' := by
  induction ls with
  | nil =>
      rintro s s' - - ⟨⟩
      exact .refl s
  | cons l ls ih =>
      intro s s' hsect hls h
      rw [List.foldlM_cons] at h
      obtain ⟨s₁, hline, hrest⟩ := Option.bind_eq_some_iff.mp h
      have hfirst : SameAddress a s s₁ := .line hsect (hls l (List.mem_cons_self ..)) hline
      refine hfirst.trans (ih (hfirst.sect.trans hsect) (fun l' hl' => ?_) hrest)
      exact hls l' (List.mem_cons_of_mem _ hl')

theorem namedAddress_lt {n : ParamWords} (hn : n.val < 2 ^ 32) : namedAddress top n < 2 ^ 32 := by
  unfold namedAddress
  split
  · exact wordSub_lt _ _
  · exact hn

theorem fromTop_eq (n : ParamWords) :
    (fromTop top n).val = namedAddress top n ∧ (fromTop top n).suffix = n.suffix := by
  unfold fromTop namedAddress
  split <;> exact ⟨rfl, rfl⟩

theorem OsImg.param_base {s : OsImg} (hsect : s.sect = some a.sect) (val : List UInt8) :
    s.param top a.baseName val = s.base top (a.size s.segmentNo) (a.base s.segmentNo) := by
  cases a <;> unfold OsImg.param <;> rw [hsect] <;> rfl

theorem OsImg.param_size {s : OsImg} (hsect : s.sect = some a.sect) (val : List UInt8) :
    s.param top a.sizeName val = s.size (a.size s.segmentNo) (a.base s.segmentNo) a.amount := by
  cases a <;> unfold OsImg.param <;> rw [hsect] <;> rfl

/-- An address waits for a size that is zero. -/
theorem OsImg.base_eq (s : OsImg) (hn : s.sp8.val < 2 ^ 32) {size base : ImgField}
    (hdisjoint : base.pos + 4 ≤ size.pos ∨ size.pos + 4 ≤ base.pos) :
    (s.base top size base).sect = s.sect ∧ (s.base top size base).segmentNo = s.segmentNo ∧
      (s.base top size base).adjustBaseAddr =
        (if s.sp8.suffix < 0 ∧ s.word size = 0 then true else s.adjustBaseAddr) ∧
      (s.base top size base).word size = s.word size ∧
      (s.base top size base).word base =
        if s.sp8.suffix < 0 ∧ s.word size ≠ 0 then wordSub (namedAddress top s.sp8) (s.word size)
        else namedAddress top s.sp8 := by
  obtain ⟨hval, hsuffix⟩ : (fromTop top s.sp8).val = namedAddress top s.sp8 ∧
    (fromTop top s.sp8).suffix = s.sp8.suffix := fromTop_eq s.sp8
  have hmod : (fromTop top s.sp8).val % 2 ^ 32 = namedAddress top s.sp8 := by
    rw [hval]
    exact Nat.mod_eq_of_lt (namedAddress_lt hn)
  have hword (n : ParamWords) : OsImg.word { s with sp8 := n } size = s.word size := rfl
  unfold OsImg.base
  dsimp only
  rw [hsuffix, hword]
  by_cases hneg : s.sp8.suffix < 0
  · rw [if_pos hneg]
    by_cases hzero : s.word size = 0
    · rw [if_pos hzero, if_pos ⟨hneg, hzero⟩, if_neg fun h => h.2 hzero]
      exact ⟨rfl, rfl, rfl, OsImg.word_setWord_frame hdisjoint.symm, OsImg.word_setWord.trans hmod⟩
    · rw [if_neg hzero, if_neg fun h => hzero h.2, if_pos ⟨hneg, hzero⟩, hval]
      refine ⟨rfl, rfl, rfl, OsImg.word_setWord_frame hdisjoint.symm, OsImg.word_setWord.trans ?_⟩
      exact Nat.mod_eq_of_lt (wordSub_lt _ _)
  · rw [if_neg hneg, if_neg fun h => hneg h.1, if_neg fun h => hneg h.1]
    exact ⟨rfl, rfl, rfl, OsImg.word_setWord_frame hdisjoint.symm, OsImg.word_setWord.trans hmod⟩

/-- A size adjusts an address that waits. -/
theorem OsImg.size_eq (s : OsImg) {size base : ImgField} {amount : OsImg → Nat}
    (hdisjoint : base.pos + 4 ≤ size.pos ∨ size.pos + 4 ≤ base.pos)
    (hamount : wordSub (s.word base) (amount (s.setWord size s.sp8.val)) =
      wordSub (s.word base) s.sp8.val) :
    (s.size size base amount).sect = s.sect ∧
      (s.size size base amount).segmentNo = s.segmentNo ∧
      (s.size size base amount).adjustBaseAddr = false ∧
      (s.size size base amount).word size = s.sp8.val % 2 ^ 32 ∧
      (s.size size base amount).word base =
        if s.adjustBaseAddr = true then wordSub (s.word base) s.sp8.val else s.word base := by
  have hbase : (s.setWord size s.sp8.val).word base = s.word base :=
    OsImg.word_setWord_frame hdisjoint
  have hadjust : (s.setWord size s.sp8.val).adjustBaseAddr = s.adjustBaseAddr := rfl
  unfold OsImg.size
  dsimp only
  rw [hadjust, hbase, hamount]
  by_cases h : s.adjustBaseAddr = true
  · rw [if_pos h, if_pos h]
    refine ⟨rfl, rfl, rfl, ?_, OsImg.word_setWord.trans (Nat.mod_eq_of_lt (wordSub_lt _ _))⟩
    exact (OsImg.word_setWord_frame hdisjoint.symm).trans OsImg.word_setWord
  · rw [if_neg h, if_neg h]
    exact ⟨rfl, rfl, Bool.eq_false_iff.mpr h, OsImg.word_setWord, hbase⟩

/-- The line with the address. -/
theorem line_base {s s' : OsImg} {base : List UInt8} {n : ParamWords} (hsect : s.sect = some a.sect)
    (hbase : parseParamWords base s.sp8 = (1, n)) (hn : n.val < 2 ^ 32)
    (h : s.line top (.param a.baseName base) = some s') :
    s'.sect = s.sect ∧ s'.segmentNo = s.segmentNo ∧
      s'.adjustBaseAddr =
        (if n.suffix < 0 ∧ s.word (a.size s.segmentNo) = 0 then true else s.adjustBaseAddr) ∧
      s'.word (a.size s.segmentNo) = s.word (a.size s.segmentNo) ∧
      s'.word (a.base s.segmentNo) =
        if n.suffix < 0 ∧ s.word (a.size s.segmentNo) ≠ 0 then
          wordSub (namedAddress top n) (s.word (a.size s.segmentNo))
        else namedAddress top n := by
  obtain ⟨-, rfl⟩ := OsImg.line_param h
  rw [hbase, OsImg.param_base (by exact hsect)]
  exact OsImg.base_eq { s with var7 := 1, sp8 := n } hn (a.disjoint s.segmentNo)

/-- The line with the size. -/
theorem line_size {s s' : OsImg} {size : List UInt8} {w : Nat} (hsect : s.sect = some a.sect)
    (hsize : (parseParamWords size s.sp8).2.val = w) (hw : w < 2 ^ 32)
    (h : s.line top (.param a.sizeName size) = some s') :
    s'.sect = s.sect ∧ s'.segmentNo = s.segmentNo ∧ s'.adjustBaseAddr = false ∧
      s'.word (a.size s.segmentNo) = w ∧
      s'.word (a.base s.segmentNo) =
        if s.adjustBaseAddr = true then wordSub (s.word (a.base s.segmentNo)) w
        else s.word (a.base s.segmentNo) := by
  obtain ⟨-, rfl⟩ := OsImg.line_param h
  have hamount (s : OsImg) : wordSub (s.word (a.base s.segmentNo))
      (a.amount (s.setWord (a.size s.segmentNo) s.sp8.val)) =
      wordSub (s.word (a.base s.segmentNo)) s.sp8.val := by
    cases a with
    | segment => rfl
    | scriptInfo =>
        show wordSub _ (OsImg.word (s.setWord .maxSize s.sp8.val) .maxSize) = _
        rw [OsImg.word_setWord, wordSub_mod]
  have heq := OsImg.size_eq { s with var7 := (parseParamWords size s.sp8).1
                                     sp8 := (parseParamWords size s.sp8).2 }
    (a.disjoint s.segmentNo) (hamount _)
  rw [OsImg.param_size (by exact hsect)]
  rw [hsize, Nat.mod_eq_of_lt hw] at heq
  exact heq

/-! ## Sections -/

/-- One line among others. -/
theorem foldlM_mid {f : OsImg → ScriptLine → Option OsImg} {before rest : List ScriptLine}
    {l : ScriptLine} {s s' : OsImg} (h : (before ++ l :: rest).foldlM f s = some s') :
    ∃ s₁ s₂, before.foldlM f s = some s₁ ∧ f s₁ l = some s₂ ∧ rest.foldlM f s₂ = some s' := by
  rw [List.foldlM_append] at h
  obtain ⟨s₁, h₁, h⟩ := Option.bind_eq_some_iff.mp h
  rw [List.foldlM_cons] at h
  obtain ⟨s₂, h₂, h⟩ := Option.bind_eq_some_iff.mp h
  exact ⟨s₁, s₂, h₁, h₂, h⟩

/-- A line whose value is accepted. -/
theorem line_accepts (top : Nat) (s : OsImg) (name : List UInt8) {val : List UInt8}
    (h : (parseParamWords val s.sp8).1 ≠ -1) : ∃ s', s.line top (.param name val) = some s' :=
  ⟨_, if_neg h⟩

variable {s s' : OsImg} {base size : List UInt8} {n : ParamWords} {w : Nat}
  {before between behind : List ScriptLine}

/-- An address in front of its size uses the size from before, unless that is zero. -/
theorem address_baseFirst (hsect : s.sect = some a.sect) (hadjust : s.adjustBaseAddr = false)
    (hbase : ∀ sp8, parseParamWords base sp8 = (1, n)) (hn : n.val < 2 ^ 32)
    (hsize : ∀ sp8, (parseParamWords size sp8).2.val = w) (hw : w < 2 ^ 32)
    (hbefore : ∀ l ∈ before, OtherLine a l) (hbetween : ∀ l ∈ between, OtherLine a l)
    (hbehind : ∀ l ∈ behind, OtherLine a l)
    (h : (before ++ .param a.baseName base :: (between ++ .param a.sizeName size :: behind)).foldlM
      (OsImg.line top) s = some s') :
    s'.word (a.base s.segmentNo) = meantAddress top n
      (if s.word (a.size s.segmentNo) = 0 then w else s.word (a.size s.segmentNo)) := by
  obtain ⟨s₁, s₂, h₁, h₂, h⟩ := foldlM_mid h
  obtain ⟨s₃, s₄, h₃, h₄, h⟩ := foldlM_mid h
  have hs₁ := SameAddress.lines hsect hbefore h₁
  obtain ⟨hsect₂, hno₂, hadj₂, -, hbase₂⟩ := line_base (hs₁.sect.trans hsect) (hbase _) hn h₂
  have hsect₂ := hsect₂.trans (hs₁.sect.trans hsect)
  have hs₃ := SameAddress.lines hsect₂ hbetween h₃
  obtain ⟨hsect₄, hno₄, -, -, hbase₄⟩ :=
    line_size (hs₃.sect.trans hsect₂) (hsize _) hw h₄
  have hs₅ := SameAddress.lines (hsect₄.trans (hs₃.sect.trans hsect₂)) hbehind h
  have hno : s₁.segmentNo = s.segmentNo := hs₁.segmentNo
  have hno₃ : s₃.segmentNo = s.segmentNo := hs₃.segmentNo.trans (hno₂.trans hno)
  have hno₄ : s₄.segmentNo = s.segmentNo := hno₄.trans hno₃
  rw [hno, hs₁.size] at hadj₂ hbase₂
  rw [← hno₄, hs₅.base, hno₄, ← hno₃, hbase₄, hs₃.adjust, hadj₂, hno₃]
  have hbase₃ := hs₃.base
  rw [hno₂, hno] at hbase₃
  rw [hbase₃, hbase₂, hs₁.adjust, hadjust]
  unfold meantAddress
  by_cases hneg : n.suffix < 0 <;> by_cases hzero : s.word (a.size s.segmentNo) = 0 <;>
    simp [hneg, hzero]

/-- An address behind its size uses it. -/
theorem address_sizeFirst (hsect : s.sect = some a.sect)
    (hbase : ∀ sp8, parseParamWords base sp8 = (1, n)) (hn : n.val < 2 ^ 32)
    (hsize : ∀ sp8, (parseParamWords size sp8).2.val = w) (hw : w < 2 ^ 32) (hne : w ≠ 0)
    (hbefore : ∀ l ∈ before, OtherLine a l) (hbetween : ∀ l ∈ between, OtherLine a l)
    (hbehind : ∀ l ∈ behind, OtherLine a l)
    (h : (before ++ .param a.sizeName size :: (between ++ .param a.baseName base :: behind)).foldlM
      (OsImg.line top) s = some s') :
    s'.word (a.base s.segmentNo) = meantAddress top n w := by
  obtain ⟨s₁, s₂, h₁, h₂, h⟩ := foldlM_mid h
  obtain ⟨s₃, s₄, h₃, h₄, h⟩ := foldlM_mid h
  have hs₁ := SameAddress.lines hsect hbefore h₁
  obtain ⟨hsect₂, hno₂, hadj₂, hsize₂, -⟩ := line_size (hs₁.sect.trans hsect) (hsize _) hw h₂
  have hsect₂ := hsect₂.trans (hs₁.sect.trans hsect)
  have hs₃ := SameAddress.lines hsect₂ hbetween h₃
  obtain ⟨hsect₄, hno₄, -, -, hbase₄⟩ := line_base (hs₃.sect.trans hsect₂) (hbase _) hn h₄
  have hs₅ := SameAddress.lines (hsect₄.trans (hs₃.sect.trans hsect₂)) hbehind h
  have hno₁ : s₁.segmentNo = s.segmentNo := hs₁.segmentNo
  have hno₃ : s₃.segmentNo = s.segmentNo := hs₃.segmentNo.trans (hno₂.trans hno₁)
  have hno₄ : s₄.segmentNo = s.segmentNo := hno₄.trans hno₃
  have hsize₃ : s₃.word (a.size s.segmentNo) = w := by
    have h₃ := hs₃.size
    rw [hno₂, hno₁] at h₃
    rw [h₃, ← hno₁, hsize₂]
  rw [← hno₄, hs₅.base, hno₄, ← hno₃, hbase₄, hno₃, hsize₃]
  unfold meantAddress
  simp [hne]

end Lines

/-- For every section, from its first line on, whatever was before: with an address that is a number
and a size that is not zero, whose names are copied to no more than their fields, the address is the
one that is meant in both orders, exactly if it has no minus behind it or the size was zero or the
same before. -/
theorem addressLines_right_iff (top : Nat) (a : AddressSection) (s : OsImg) (base size : List UInt8)
    (n : ParamWords) (hsect : s.sect = some a.sect) (hadjust : s.adjustBaseAddr = false)
    (hbase : parseParamWords base ⟨0, 0, 0⟩ = (1, n))
    (hsize : (parseParamWords size ⟨0, 0, 0⟩).1 ≠ -1)
    (hne : (parseParamWords size ⟨0, 0, 0⟩).2.val ≠ 0) :
    AddressRight top a s base size n (parseParamWords size ⟨0, 0, 0⟩).2.val ↔
      (0 ≤ n.suffix ∨ s.word (a.size s.segmentNo) = 0 ∨
        s.word (a.size s.segmentNo) = (parseParamWords size ⟨0, 0, 0⟩).2.val) := by
  have hall (sp8 : ParamWords) := (parseParamWords_number hbase sp8).1
  have hn := (parseParamWords_number hbase ⟨0, 0, 0⟩).2
  have hword (sp8 : ParamWords) := (parseParamWords_word hsize sp8).2.1
  have hw := (parseParamWords_word hsize ⟨0, 0, 0⟩).2.2
  generalize (parseParamWords size ⟨0, 0, 0⟩).2.val = w at *
  constructor
  · intro h
    -- the section with no other lines
    have hcode (sp8 : ParamWords) : (parseParamWords base sp8).1 ≠ -1 := by
      rw [hall]
      exact show (1 : Int) ≠ -1 by decide
    obtain ⟨s₁, h₁⟩ := line_accepts top s a.baseName (hcode s.sp8)
    obtain ⟨s₂, h₂⟩ := line_accepts top s₁ a.sizeName (parseParamWords_word hsize s₁.sp8).1
    have hnone : ∀ l ∈ ([] : List ScriptLine), OtherLine a l :=
      fun _ hl => (List.not_mem_nil hl).elim
    have hrun : [ScriptLine.param a.baseName base, .param a.sizeName size].foldlM
        (OsImg.line top) s = some s₂ := by
      rw [List.foldlM_cons, h₁]
      show ([ScriptLine.param a.sizeName size].foldlM (OsImg.line top) s₁) = _
      rw [List.foldlM_cons, h₂]
      rfl
    have hright := h _ s₂ (.baseFirst hnone hnone hnone) hrun
    rw [address_baseFirst hsect hadjust hall hn hword hw hnone hnone hnone hrun] at hright
    by_contra hno
    obtain ⟨hneg, hzero, hsame⟩ : n.suffix < 0 ∧ s.word (a.size s.segmentNo) ≠ 0 ∧
        s.word (a.size s.segmentNo) ≠ w := by omega
    unfold meantAddress at hright
    rw [if_pos hneg, if_pos hneg, if_neg hzero] at hright
    exact hsame (wordSub_inj (s.word_lt _) hw hright)
  · intro h ls s' hls hrun
    cases hls with
    | baseFirst hbefore hbetween hbehind =>
        rw [address_baseFirst hsect hadjust hall hn hword hw hbefore hbetween hbehind hrun]
        unfold meantAddress
        rcases h with h | h | h
        · rw [if_neg (by omega), if_neg (by omega)]
        · rw [if_pos h]
        · rw [h, if_neg hne]
    | sizeFirst hbefore hbetween hbehind =>
        exact address_sizeFirst hsect hall hn hword hw hne hbefore hbetween hbehind hrun

/-- A segment that is new, with the end of its area in front of its size. -/
theorem addressLines_right_iff_segment :
    let s := (OsImg.start none false ⟨0, 0, 0⟩ fun _ => 0).enter (text "segment")
    AddressRight 0 .segment s (text "0x50000000-") (text "0x20000") ⟨0x50000000, 1, -1⟩
      (parseParamWords (text "0x20000") ⟨0, 0, 0⟩).2.val ↔
      ((0 : Int) ≤ -1 ∨ s.word (.imageMaxSize 0) = 0 ∨
        s.word (.imageMaxSize 0) = (parseParamWords (text "0x20000") ⟨0, 0, 0⟩).2.val) :=
  addressLines_right_iff 0 .segment _ _ _ ⟨0x50000000, 1, -1⟩ rfl rfl (by decide +kernel)
    (by decide +kernel) (by decide +kernel)

/-- A second section, whose address ends the area: the size of the first section is subtracted if
the address comes first. -/
theorem staleSize_base :
    (imgRun ["[script_info]", "script_size=0x10000", "[script_info]",
      "script_base=0x50000000-", "script_size=0x20000"]).map
        (fun r => (r.1, r.2.word .baseAddr)) = some (0, 0x4fff0000) ∧
    (imgRun ["[script_info]", "script_size=0x10000", "[script_info]",
      "script_size=0x20000", "script_base=0x50000000-"]).map
        (fun r => (r.1, r.2.word .baseAddr)) = some (0, 0x4ffe0000) := by
  decide +kernel

end Novo7
