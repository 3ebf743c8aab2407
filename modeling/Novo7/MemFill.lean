import Mathlib.Data.List.Nodup
import Novo7.Buffer
import Novo7.CNumber
import Novo7.CString
import Novo7.Machine

/-!
# Filling memory

`cmd_memfill` decodes a string with the escapes of C into a buffer of 16 kB, doubles it there as
long as that is of use, and sends the buffer as often as it takes. `Decoded` says what a string
stands for. `memfill_repeats`: for every string, address and size the commands fill the memory with
the decoded string repeated from its first byte, and every write into the buffer is inside.
-/

namespace Novo7

open Machine Buffer CNumber

/-! ## What a string stands for -/

/-- The escapes of a letter, and the backslash. -/
def escapeLetters : List (UInt8 × UInt8) :=
  [(97, 7), (98, 8), (102, 12), (110, 10), (114, 13), (116, 9), (118, 11), (92, 92)]

/-- The digits at the front of a text, at most `n`. -/
def digitRun (base n : Nat) (text : List UInt8) : List UInt8 :=
  (text.take n).takeWhile (isDigitOf base)

/-- The bytes that a string with escapes stands for. -/
inductive Decoded : List UInt8 → List UInt8 → Prop where
  | done : Decoded [] []
  | plain {c : UInt8} {text bytes : List UInt8} : c ≠ 92 → Decoded text bytes →
      Decoded (c :: text) (c :: bytes)
  | letter {c v : UInt8} {text bytes : List UInt8} : escapeLetters.lookup c = some v →
      Decoded text bytes → Decoded (92 :: c :: text) (v :: bytes)
  | hex {text bytes : List UInt8} : Decoded (text.drop (digitRun 16 2 text).length) bytes →
      Decoded (92 :: 120 :: text) (UInt8.ofNat (digitsValue 16 (digitRun 16 2 text)) :: bytes)
  | octal {c : UInt8} {text bytes : List UInt8} : isDigitOf 8 c = true →
      Decoded ((c :: text).drop (digitRun 8 3 (c :: text)).length) bytes →
      Decoded (92 :: c :: text)
        (UInt8.ofNat (digitsValue 8 (digitRun 8 3 (c :: text))) :: bytes)
  | other {c : UInt8} {text bytes : List UInt8} : escapeLetters.lookup c = none → c ≠ 120 →
      isDigitOf 8 c = false → Decoded text bytes → Decoded (92 :: c :: text) (92 :: c :: bytes)
  | last : Decoded [92] [92]

/-! ## The decoder -/

/-- `buf`: what it holds, and where it was written, as offsets and lengths. -/
structure FillBuffer where
  cells : Nat → UInt8
  written : List (Nat × Nat)

def FillBuffer.write (buf : FillBuffer) (off n : Nat) (src : Nat → UInt8) : FillBuffer :=
  ⟨store buf.cells off n src, (off, n) :: buf.written⟩

/-- `*dest++ = …` for each of some bytes. -/
def FillBuffer.emit (buf : FillBuffer) (dest : Nat) : List UInt8 → FillBuffer
  | [] => buf
  | c :: bytes => (buf.write dest 1 fun _ => c).emit (dest + 1) bytes

/-- The cases of the `switch` with a byte of their own. -/
def simpleEscape (c : UInt8) : Option UInt8 :=
  if c = 97 then some 7
  else if c = 98 then some 8
  else if c = 102 then some 12
  else if c = 110 then some 10
  else if c = 114 then some 13
  else if c = 116 then some 9
  else if c = 118 then some 11
  else if c = 92 then some 92
  else none

/-- A loop over digits: at most `n`, while `inRange`, each less its offset. -/
def scanDigits (base : Nat) (inRange : UInt8 → Bool) (offset : UInt8 → Nat) :
    Nat → Nat → List UInt8 → Nat × List UInt8
  | 0, val, fill => (val, fill)
  | _ + 1, val, [] => (val, [])
  | n + 1, val, c :: fill =>
    if inRange c then scanDigits base inRange offset n (base * val + c.toNat - offset c) fill
    else (val, c :: fill)

/-- `for(i = 0; i < 2 && (…); ++i)` of `case 'x'` -/
def scanHex (fill : List UInt8) : Nat × List UInt8 :=
  scanDigits 16
    (fun c => (48 ≤ c && c ≤ 57) || (65 ≤ c && c ≤ 70) || (97 ≤ c && c ≤ 102))
    (fun c => if 48 ≤ c ∧ c ≤ 57 then 48 else (if 65 ≤ c ∧ c ≤ 70 then 65 else 97) - 10) 2 0 fill

/-- `for(i = 0; i < 3 && *fill >= '0' && *fill <= '7'; ++i)` -/
def scanOctal (fill : List UInt8) : Nat × List UInt8 :=
  scanDigits 8 (fun c => 48 ≤ c && c ≤ 55) (fun _ => 48) 3 0 fill

/-- `switch( *++fill )`: the bytes put out, and the rest of the string. -/
def fillSwitch : List UInt8 → List UInt8 × List UInt8
  | [] => ([92], [])
  | c :: fill =>
    match simpleEscape c with
    | some v => ([v], fill)
    | none =>
      if c = 120 then ([UInt8.ofNat (scanHex fill).1], (scanHex fill).2)
      else if 48 ≤ c ∧ c ≤ 55 then
        ([UInt8.ofNat (scanOctal (c :: fill)).1], (scanOctal (c :: fill)).2)
      else ([92, c], fill)

/-- A round of the loop, behind the test for room. -/
def fillStep (c : UInt8) (fill : List UInt8) : List UInt8 × List UInt8 :=
  if c = 92 then fillSwitch fill else ([c], fill)

/-- `while( *fill )`: the buffer, the place of `dest`, and whether the string is too long. -/
def fillLoop : Nat → FillBuffer → Nat → List UInt8 → FillBuffer × Nat × Bool
  | 0, buf, dest, _ => (buf, dest, false)
  | _ + 1, buf, dest, [] => (buf, dest, false)
  | fuel + 1, buf, dest, c :: fill =>
    if dest ≥ 0x4000 - 1 then (buf, dest, true)
    else
      let step := fillStep c fill
      fillLoop fuel (buf.emit dest step.1) (dest + step.1.length) step.2

/-! ## The command -/

/-- `while( sizeOnce < size && 2 * sizeOnce < sizeof(buf) )` -/
def doubleLoop : Nat → FillBuffer → Nat → Nat → FillBuffer × Nat
  | 0, buf, _, sizeOnce => (buf, sizeOnce)
  | fuel + 1, buf, size, sizeOnce =>
    if sizeOnce < size ∧ u32 (2 * sizeOnce) < 0x4000 then
      doubleLoop fuel (buf.write sizeOnce sizeOnce buf.cells) size (u32 (sizeOnce * 2))
    else (buf, sizeOnce)

/-- A `BCMD_MEMWRITE` with its data. -/
structure MemWrite where
  address : Nat
  data : List UInt8
  deriving Repr, DecidableEq

/-- `while( size > 0 )` -/
def sendLoop (cells : Nat → UInt8) : Nat → Nat → Nat → Nat → List MemWrite
  | 0, _, _, _ => []
  | fuel + 1, address, size, sizeOnce =>
    if size > 0 then
      let sizeOnce := if sizeOnce > size then size else sizeOnce
      ⟨address, (List.range sizeOnce).map cells⟩ ::
        sendLoop cells fuel (u32 (address + sizeOnce)) (size - sizeOnce) sizeOnce
    else []

inductive MemfillError where
  | parameters
  | wrongAddress
  | tooLong
  | empty
  deriving Repr, DecidableEq

structure MemfillRun where
  commands : List MemWrite
  written : List (Nat × Nat)
  error : Option MemfillError

/-- `size` and `repeat`, from the last argument. -/
def fillSize : Option (List UInt8) → Nat × Bool
  | none => (1, true)
  | some text =>
    let size := u32 (strtoull text).1
    let endptr := (strtoull text).2.head?
    if endptr = some 107 then (u32 (size * 0x400), false)
    else if endptr = some 77 then (u32 (size * 0x100000), false)
    else if endptr = some 120 then (size, true)
    else (size, false)

/-- `if( repeat ) size *= fillLen` -/
def fillRepeat (size : Nat × Bool) (fillLen : Nat) : Nat :=
  if size.2 then u32 (size.1 * fillLen) else size.1

/-- `cmd_memfill` behind the test of its arguments; `cells` is what the stack holds at first. -/
def memfillRun (cells : Nat → UInt8) (address fill : List UInt8) (size : Option (List UInt8)) :
    MemfillRun :=
  if (strtoull address).2 ≠ [] then ⟨[], [], some .wrongAddress⟩
  else
    let filled := fillLoop fill.length ⟨cells, []⟩ 0 fill
    let fillLen := filled.2.1
    if filled.2.2 then ⟨[], filled.1.written, some .tooLong⟩
    else if fillLen = 0 then ⟨[], filled.1.written, some .empty⟩
    else
      let size := fillRepeat (fillSize size) fillLen
      let doubled := doubleLoop 14 filled.1 size fillLen
      ⟨sendLoop doubled.1.cells size (u32 (strtoull address).1) size doubled.2,
        doubled.1.written, none⟩

/-- `cmd_memfill` -/
def cmdMemfill (cells : Nat → UInt8) : List (List UInt8) → MemfillRun
  | [address, fill] => memfillRun cells address fill none
  | [address, fill, size] => memfillRun cells address fill (some size)
  | _ => ⟨[], [], some .parameters⟩

/-! ## The memory -/

/-- The bytes of a command, with their addresses: pointers have 32 bits. -/
def MemWrite.stores (w : MemWrite) : List (Nat × UInt8) :=
  (List.range w.data.length).map fun i => (u32 (w.address + i), w.data.getD i 0)

/-- The memory after some commands. -/
def memoryAfter (memory : Nat → UInt8) (commands : List MemWrite) : Nat → UInt8 :=
  commands.foldl (fun memory w => puts memory w.stores) memory

/-- The size that is asked for, in bytes. -/
def fillTotal (patternLen : Nat) : Option (List UInt8) → Nat
  | none => patternLen
  | some text =>
    let unit := (strtoull text).2.head?
    if unit = some 107 then (strtoull text).1 * 0x400
    else if unit = some 77 then (strtoull text).1 * 0x100000
    else if unit = some 120 then (strtoull text).1 * patternLen
    else (strtoull text).1

/-- The pattern repeated from its first byte. -/
def repeated (pattern : List UInt8) (i : Nat) : UInt8 := pattern.getD (i % pattern.length) 0

/-- The commands store `total` bytes from `address` on, each once and in order, those of the
repeated pattern, so that the memory holds them and is else as before. -/
structure FillsMemory (pattern : List UInt8) (address total : Nat) (commands : List MemWrite) :
    Prop where
  stores : commands.flatMap MemWrite.stores =
    (List.range total).map fun i => (u32 (address + i), repeated pattern i)
  filled : ∀ memory, ∀ i < total,
    memoryAfter memory commands (u32 (address + i)) = repeated pattern i
  kept : ∀ memory x, (∀ i < total, x ≠ u32 (address + i)) → memoryAfter memory commands x = memory x

/-- The arguments of a command with and without a size. -/
def memfillArgs (address fill : List UInt8) : Option (List UInt8) → List (List UInt8)
  | none => [address, fill]
  | some size => [address, fill, size]

/-! ## The decoder is right -/

/-- What holds of the 256 bytes holds of each. -/
theorem forall_byte {P : UInt8 → Prop} (h : ∀ n : Fin 256, P (UInt8.ofFin n)) (c : UInt8) : P c :=
  h c.toFin

theorem simpleEscape_eq (c : UInt8) : simpleEscape c = escapeLetters.lookup c :=
  forall_byte (P := fun c => simpleEscape c = escapeLetters.lookup c) (by decide +kernel) c

theorem digitRun_cons (base n : Nat) (c : UInt8) (text : List UInt8) :
    digitRun base (n + 1) (c :: text) =
      if isDigitOf base c then c :: digitRun base n text else [] := by
  rw [digitRun, List.take_succ_cons, List.takeWhile_cons]
  rfl

/-- A loop over digits whose range and offset are those of the base. -/
theorem scanDigits_eq {base : Nat} {inRange : UInt8 → Bool} {offset : UInt8 → Nat}
    (h : ∀ c, inRange c = isDigitOf base c ∧
      (inRange c = true → offset c ≤ c.toNat ∧ c.toNat = digitOf c + offset c)) (n : Nat) :
    ∀ val text, scanDigits base inRange offset n val text =
      ((digitRun base n text).foldl (fun n c => base * n + digitOf c) val,
        text.drop (digitRun base n text).length) := by
  induction n with
  | zero => exact fun _ _ => rfl
  | succ n ih =>
      intro val text
      cases text with
      | nil => rfl
      | cons c text =>
          obtain ⟨hrange, hoffset⟩ := h c
          rw [scanDigits, digitRun_cons, ← hrange]
          by_cases hin : inRange c = true
          · obtain ⟨hle, hdigit⟩ := hoffset hin
            rw [if_pos hin, if_pos hin, ih, List.foldl_cons, List.length_cons, List.drop_succ_cons,
              show base * val + c.toNat - offset c = base * val + digitOf c by omega]
          · rw [if_neg hin, if_neg hin]
            rfl

theorem scanHex_eq (text : List UInt8) :
    scanHex text = (digitsValue 16 (digitRun 16 2 text), text.drop (digitRun 16 2 text).length) :=
  scanDigits_eq (forall_byte (by decide +kernel)) 2 0 text

theorem scanOctal_eq (text : List UInt8) :
    scanOctal text = (digitsValue 8 (digitRun 8 3 text), text.drop (digitRun 8 3 text).length) :=
  scanDigits_eq (forall_byte (by decide +kernel)) 3 0 text

theorem octal_iff (c : UInt8) : (48 ≤ c ∧ c ≤ 55) ↔ isDigitOf 8 c = true :=
  forall_byte (P := fun c => (48 ≤ c ∧ c ≤ 55) ↔ isDigitOf 8 c = true) (by decide +kernel) c

theorem lookup_octal {c : UInt8} (h : isDigitOf 8 c = true) :
    escapeLetters.lookup c = none ∧ c ≠ 120 := by
  revert h
  exact forall_byte (P := fun c => isDigitOf 8 c = true → escapeLetters.lookup c = none ∧ c ≠ 120)
    (by decide +kernel) c

/-- The cases of the `switch`, with the digits as runs. -/
theorem fillSwitch_cons (c : UInt8) (text : List UInt8) :
    fillSwitch (c :: text) =
      match escapeLetters.lookup c with
      | some v => ([v], text)
      | none =>
        if c = 120 then ([UInt8.ofNat (digitsValue 16 (digitRun 16 2 text))],
          text.drop (digitRun 16 2 text).length)
        else if isDigitOf 8 c = true then
          ([UInt8.ofNat (digitsValue 8 (digitRun 8 3 (c :: text)))],
            (c :: text).drop (digitRun 8 3 (c :: text)).length)
        else ([92, c], text) := by
  rw [fillSwitch, simpleEscape_eq, scanHex_eq, scanOctal_eq]
  simp only [octal_iff]

/-- A string that is not empty: a round of the loop, and the rest of it. -/
theorem decoded_cons_iff {c : UInt8} {text bytes : List UInt8} :
    Decoded (c :: text) bytes ↔
      ∃ rest, bytes = (fillStep c text).1 ++ rest ∧ Decoded (fillStep c text).2 rest := by
  constructor
  · intro h
    cases h with
    | @plain _ _ rest hc hrest =>
        rw [fillStep, if_neg hc]
        exact ⟨rest, rfl, hrest⟩
    | @letter e v text rest hletter hrest =>
        rw [fillStep, if_pos rfl, fillSwitch_cons, hletter]
        exact ⟨rest, rfl, hrest⟩
    | @hex text rest hrest =>
        rw [fillStep, if_pos rfl, fillSwitch_cons]
        exact ⟨rest, rfl, hrest⟩
    | @octal e text rest hdigit hrest =>
        obtain ⟨hnone, hnotx⟩ := lookup_octal hdigit
        rw [fillStep, if_pos rfl, fillSwitch_cons, hnone]
        dsimp only
        rw [if_neg hnotx, if_pos hdigit]
        exact ⟨rest, rfl, hrest⟩
    | @other e text rest hnone hnotx hdigit hrest =>
        rw [fillStep, if_pos rfl, fillSwitch_cons, hnone]
        dsimp only
        rw [if_neg hnotx, hdigit, if_neg Bool.false_ne_true]
        exact ⟨rest, rfl, hrest⟩
    | last => exact ⟨[], rfl, .done⟩
  · rintro ⟨rest, rfl, hrest⟩
    by_cases hc : c = 92
    · subst hc
      rw [fillStep, if_pos rfl] at hrest ⊢
      cases text with
      | nil =>
          cases hrest
          exact .last
      | cons e text =>
          rw [fillSwitch_cons] at hrest ⊢
          cases hletter : escapeLetters.lookup e with
          | some v =>
              rw [hletter] at hrest
              exact .letter hletter hrest
          | none =>
              rw [hletter] at hrest
              dsimp only at hrest ⊢
              by_cases hx : e = 120
              · subst hx
                rw [if_pos rfl] at hrest ⊢
                exact .hex hrest
              · rw [if_neg hx] at hrest ⊢
                by_cases hdigit : isDigitOf 8 e = true
                · rw [if_pos hdigit] at hrest ⊢
                  exact .octal hdigit hrest
                · rw [if_neg hdigit] at hrest ⊢
                  exact .other hletter hx (Bool.not_eq_true _ ▸ hdigit) hrest
    · rw [fillStep, if_neg hc] at hrest ⊢
      exact .plain hc hrest

/-- A round puts out one byte or two, and goes on in the string. -/
theorem fillStep_bounds (c : UInt8) (text : List UInt8) :
    0 < (fillStep c text).1.length ∧ (fillStep c text).1.length ≤ 2 ∧
      (fillStep c text).2.length ≤ text.length := by
  have hdrop (text : List UInt8) (n : Nat) : (text.drop n).length ≤ text.length := by
    rw [List.length_drop]
    exact Nat.sub_le _ _
  unfold fillStep
  split
  · cases text with
    | nil => exact ⟨by decide, by decide, by decide⟩
    | cons e text =>
        rw [fillSwitch_cons]
        split
        · exact ⟨Nat.one_pos, Nat.le_succ _, Nat.le_succ _⟩
        · split
          · exact ⟨Nat.one_pos, Nat.le_succ _, Nat.le_succ_of_le (hdrop _ _)⟩
          · split
            · exact ⟨Nat.one_pos, Nat.le_succ _, hdrop _ _⟩
            · exact ⟨Nat.two_pos, Nat.le_refl _, Nat.le_succ _⟩
  · exact ⟨Nat.one_pos, Nat.le_succ _, Nat.le_refl _⟩

/-- Every string stands for some bytes. -/
theorem exists_decoded (fill : List UInt8) : ∃ bytes, Decoded fill bytes := by
  induction hlen : fill.length using Nat.strong_induction_on generalizing fill with
  | _ n ih =>
      cases fill with
      | nil => exact ⟨[], .done⟩
      | cons c text =>
          have hshort := (fillStep_bounds c text).2.2
          rw [List.length_cons] at hlen
          obtain ⟨rest, hrest⟩ := ih _ (by omega) (fillStep c text).2 rfl
          exact ⟨_, decoded_cons_iff.mpr ⟨rest, rfl, hrest⟩⟩

/-! ## The buffer -/

/-- Every write so far is inside the 16 kB. -/
def FillBuffer.Inside (buf : FillBuffer) : Prop := ∀ w ∈ buf.written, w.1 + w.2 ≤ 0x4000

theorem FillBuffer.Inside.write {buf : FillBuffer} (h : buf.Inside) {off n : Nat}
    (hroom : off + n ≤ 0x4000) (src : Nat → UInt8) : (buf.write off n src).Inside :=
  List.forall_mem_cons.mpr ⟨hroom, h⟩

theorem FillBuffer.Inside.emit {bytes : List UInt8} : ∀ {buf : FillBuffer} {dest : Nat},
    buf.Inside → dest + bytes.length ≤ 0x4000 → (buf.emit dest bytes).Inside := by
  induction bytes with
  | nil => exact fun h _ => h
  | cons c bytes ih =>
      intro buf dest h hroom
      rw [List.length_cons] at hroom
      exact ih (h.write (by omega) _) (by omega)

/-- Bytes put out one by one are a copy. -/
theorem emit_cells (bytes : List UInt8) : ∀ (buf : FillBuffer) (dest : Nat),
    (buf.emit dest bytes).cells = store buf.cells dest bytes.length fun i => bytes.getD i 0 := by
  induction bytes with
  | nil => exact fun _ _ => store_zero.symm
  | cons c bytes ih =>
      intro buf dest
      rw [FillBuffer.emit, ih, FillBuffer.write, store_append, List.length_cons, Nat.add_comm 1]
      refine store_congr fun i _ => ?_
      cases i with
      | zero => rfl
      | succ i => rw [if_neg (by omega), Nat.add_sub_cancel, List.getD_cons_succ]

/-- Whatever the string, the decoder stays inside the buffer. -/
theorem fillLoop_inside (fuel : Nat) : ∀ (buf : FillBuffer) (dest : Nat) (fill : List UInt8),
    buf.Inside → dest ≤ 0x4000 →
    (fillLoop fuel buf dest fill).1.Inside ∧ (fillLoop fuel buf dest fill).2.1 ≤ 0x4000 := by
  induction fuel with
  | zero => exact fun _ _ _ h hdest => ⟨h, hdest⟩
  | succ fuel ih =>
      intro buf dest fill h hdest
      cases fill with
      | nil => exact ⟨h, hdest⟩
      | cons c text =>
          obtain ⟨-, htwo, -⟩ := fillStep_bounds c text
          rw [fillLoop]
          split
          · exact ⟨h, hdest⟩
          · exact ih _ _ _ (h.emit (by omega)) (by omega)

/-- What the decoder leaves in the buffer, and that it does not find the string too long. -/
theorem fillLoop_decoded (fuel : Nat) : ∀ (buf : FillBuffer) (dest : Nat) (fill bytes : List UInt8),
    fill.length ≤ fuel → Decoded fill bytes → dest + bytes.length < 0x4000 →
    (fillLoop fuel buf dest fill).1.cells =
        store buf.cells dest bytes.length (fun i => bytes.getD i 0) ∧
      (fillLoop fuel buf dest fill).2 = (dest + bytes.length, false) := by
  induction fuel with
  | zero =>
      intro buf dest fill bytes hlen h _
      obtain rfl := List.length_eq_zero_iff.mp (Nat.le_zero.mp hlen)
      cases h
      exact ⟨store_zero.symm, rfl⟩
  | succ fuel ih =>
      intro buf dest fill bytes hlen h hroom
      cases fill with
      | nil =>
          cases h
          exact ⟨store_zero.symm, rfl⟩
      | cons c text =>
          obtain ⟨hone, -, hshort⟩ := fillStep_bounds c text
          obtain ⟨rest, rfl, hrest⟩ := decoded_cons_iff.mp h
          rw [List.length_cons] at hlen
          rw [List.length_append] at hroom
          obtain ⟨hcells, hend⟩ := ih (buf.emit dest (fillStep c text).1)
            (dest + (fillStep c text).1.length) (fillStep c text).2 rest (by omega) hrest (by omega)
          rw [fillLoop, if_neg (by omega)]
          dsimp only
          rw [hcells, hend, emit_cells, store_append, List.length_append, Nat.add_assoc]
          refine ⟨store_congr fun i _ => ?_, rfl⟩
          split
          · rename_i hi
            rw [List.getD_append _ _ _ _ hi]
          · rename_i hi
            rw [List.getD_append_right _ _ _ _ (Nat.le_of_not_lt hi)]

/-! ## Doubling -/

theorem periods {f : Nat → UInt8} {len : Nat} (hperiod : ∀ i, f (i + len) = f i) (k i : Nat) :
    f (i + len * k) = f i := by
  induction k with
  | zero => rfl
  | succ k ih => rw [Nat.mul_succ, ← Nat.add_assoc, hperiod, ih]

/-- Doubling stays inside the buffer, whatever it holds. -/
theorem doubleLoop_inside (fuel : Nat) : ∀ (buf : FillBuffer) (size sizeOnce : Nat), buf.Inside →
    sizeOnce ≤ 0x4000 → (doubleLoop fuel buf size sizeOnce).1.Inside := by
  induction fuel with
  | zero => exact fun _ _ _ h _ => h
  | succ fuel ih =>
      intro buf size sizeOnce h hle
      rw [doubleLoop]
      by_cases hgoes : sizeOnce < size ∧ u32 (2 * sizeOnce) < 0x4000
      · rw [if_pos hgoes]
        rw [u32_of_lt (by omega)] at hgoes
        rw [u32_of_lt (by omega)]
        exact ih _ size _ (h.write (by omega) _) (by omega)
      · rw [if_neg hgoes]
        exact h

/-- Doubling keeps a whole number of patterns in the buffer, and ends when it is of no more use. -/
theorem doubleLoop_spec {f : Nat → UInt8} {len : Nat} (hperiod : ∀ i, f (i + len) = f i)
    (fuel : Nat) : ∀ (buf : FillBuffer) (size sizeOnce : Nat), 0 < sizeOnce →
    sizeOnce ≤ 0x4000 → len ∣ sizeOnce → (∀ i < sizeOnce, buf.cells i = f i) →
    0x4000 ≤ sizeOnce * 2 ^ fuel →
    0 < (doubleLoop fuel buf size sizeOnce).2 ∧ len ∣ (doubleLoop fuel buf size sizeOnce).2 ∧
      (∀ i < (doubleLoop fuel buf size sizeOnce).2,
        (doubleLoop fuel buf size sizeOnce).1.cells i = f i) ∧
      ¬ ((doubleLoop fuel buf size sizeOnce).2 < size ∧
        u32 (2 * (doubleLoop fuel buf size sizeOnce).2) < 0x4000) := by
  induction fuel with
  | zero =>
      intro buf size sizeOnce hpos hle hdvd hcells henough
      rw [Nat.pow_zero, Nat.mul_one] at henough
      refine ⟨hpos, hdvd, hcells, fun hgoes => ?_⟩
      rw [doubleLoop, u32_of_lt (by omega)] at hgoes
      omega
  | succ fuel ih =>
      intro buf size sizeOnce hpos hle hdvd hcells henough
      rw [doubleLoop]
      by_cases hgoes : sizeOnce < size ∧ u32 (2 * sizeOnce) < 0x4000
      · rw [if_pos hgoes]
        rw [u32_of_lt (by omega)] at hgoes
        rw [u32_of_lt (by omega)]
        refine ih _ size (sizeOnce * 2) (by omega) (by omega) (Dvd.dvd.mul_right hdvd 2)
          (fun i hi => ?_) ?_
        · obtain ⟨k, rfl⟩ := hdvd
          show store buf.cells (len * k) (len * k) buf.cells i = f i
          by_cases hold : i < len * k
          · rw [store_out (.inl hold), hcells i hold]
          · rw [store_in (by omega) (by omega), hcells _ (by omega), ← periods hperiod k,
              Nat.sub_add_cancel (by omega)]
        · rw [Nat.pow_succ] at henough
          rw [Nat.mul_assoc, Nat.mul_comm 2]
          exact henough
      · rw [if_neg hgoes]
        exact ⟨hpos, hdvd, hcells, hgoes⟩

/-! ## Sending -/

theorem memWrite_stores (address n : Nat) (cells : Nat → UInt8) :
    (MemWrite.mk address ((List.range n).map cells)).stores =
      (List.range n).map fun i => (u32 (address + i), cells i) := by
  unfold MemWrite.stores
  rw [List.length_map, List.length_range]
  refine List.map_congr_left fun i hi => Prod.ext rfl ?_
  show ((List.range n).map cells).getD i 0 = cells i
  rw [List.getD_eq_getElem?_getD, List.getElem?_map, List.getElem?_range (List.mem_range.mp hi)]
  rfl

theorem sendLoop_zero (cells : Nat → UInt8) (fuel address sizeOnce : Nat) :
    sendLoop cells fuel address 0 sizeOnce = [] := by
  cases fuel with
  | zero => rfl
  | succ fuel => rw [sendLoop, if_neg (by omega)]

/-- Chunks of whole patterns keep the phase. -/
theorem sendLoop_stores {cells f : Nat → UInt8} {len : Nat} (hperiod : ∀ i, f (i + len) = f i)
    {sizeOnce : Nat} (hpos : 0 < sizeOnce) (hdvd : len ∣ sizeOnce)
    (hcells : ∀ i < sizeOnce, cells i = f i) (fuel : Nat) : ∀ address size, size ≤ fuel →
    (sendLoop cells fuel address size sizeOnce).flatMap MemWrite.stores =
      (List.range size).map fun i => (u32 (address + i), f i) := by
  induction fuel with
  | zero =>
      intro address size hsize
      rw [Nat.le_zero.mp hsize, sendLoop_zero]
      rfl
  | succ fuel ih =>
      intro address size hsize
      rw [sendLoop]
      by_cases hleft : size > 0
      · rw [if_pos hleft]
        dsimp only
        by_cases hcut : sizeOnce > size
        · rw [if_pos hcut, Nat.sub_self, sendLoop_zero, List.flatMap_singleton, memWrite_stores]
          refine List.map_congr_left fun i hi => Prod.ext rfl ?_
          exact hcells i (Nat.lt_trans (List.mem_range.mp hi) hcut)
        · rw [if_neg hcut, List.flatMap_cons, memWrite_stores, ih _ _ (by omega)]
          have hsplit : List.range size = List.range (sizeOnce + (size - sizeOnce)) := by
            rw [Nat.add_sub_cancel' (by omega)]
          rw [hsplit, List.range_add, List.map_append, List.map_map]
          congr 1
          · exact List.map_congr_left fun i hi => Prod.ext rfl (hcells i (List.mem_range.mp hi))
          · refine List.map_congr_left fun i _ => Prod.ext ?_ ?_
            · show u32 (u32 (address + sizeOnce) + i) = u32 (address + (sizeOnce + i))
              unfold u32
              omega
            · obtain ⟨k, rfl⟩ := hdvd
              exact (Nat.add_comm _ i ▸ periods hperiod k i).symm
      · rw [if_neg hleft, show size = 0 by omega]
        rfl

theorem memoryAfter_eq (commands : List MemWrite) : ∀ memory,
    memoryAfter memory commands = puts memory (commands.flatMap MemWrite.stores) := by
  induction commands with
  | nil => exact fun _ => rfl
  | cons w commands ih =>
      intro memory
      rw [List.flatMap_cons, puts_append]
      exact ih (puts memory w.stores)

/-- Fewer bytes than the memory has go to different addresses. -/
theorem fillsMemory_of_stores {pattern : List UInt8} {address total : Nat}
    {commands : List MemWrite} (htotal : total ≤ 2 ^ 32)
    (h : commands.flatMap MemWrite.stores =
      (List.range total).map fun i => (u32 (address + i), repeated pattern i)) :
    FillsMemory pattern address total commands := by
  have hnodup : ((commands.flatMap MemWrite.stores).map Prod.fst).Nodup := by
    rw [h, List.map_map]
    refine List.Nodup.map_on (fun i hi j hj heq => ?_) List.nodup_range
    have hilt := List.mem_range.mp hi
    have hjlt := List.mem_range.mp hj
    have hwords : (address + i) % 2 ^ 32 = (address + j) % 2 ^ 32 := heq
    omega
  refine ⟨h, fun memory i hi => ?_, fun memory x hx => ?_⟩
  · have hmem : (u32 (address + i), repeated pattern i) ∈ commands.flatMap MemWrite.stores := by
      rw [h]
      exact List.mem_map.mpr ⟨i, List.mem_range.mpr hi, rfl⟩
    rw [memoryAfter_eq]
    exact puts_stored hnodup hmem
  · rw [memoryAfter_eq, puts_kept]
    intro c hc
    rw [h] at hc
    obtain ⟨i, hi, rfl⟩ := List.mem_map.mp hc
    exact hx i (List.mem_range.mp hi)

/-! ## The law -/

/-- If the size fits a word, so do the numbers it is computed by. -/
theorem fillSize_total {len : Nat} (hpos : 0 < len) {size : Option (List UInt8)}
    (h : fillTotal len size < 2 ^ 32) :
    fillRepeat (fillSize size) len = fillTotal len size := by
  cases size with
  | none =>
      unfold fillTotal at h ⊢
      rw [fillSize, fillRepeat, if_pos rfl, Nat.one_mul, u32_of_lt h]
  | some text =>
      have hmul := Nat.le_mul_of_pos_right (strtoull text).1 hpos
      unfold fillTotal at h ⊢
      unfold fillSize
      dsimp only at h ⊢
      by_cases hkilo : (strtoull text).2.head? = some 107
      · rw [if_pos hkilo] at h ⊢
        rw [if_pos hkilo, fillRepeat, if_neg Bool.false_ne_true,
          u32_of_lt (show (strtoull text).1 < 2 ^ 32 by omega), u32_of_lt h]
      rw [if_neg hkilo] at h ⊢
      rw [if_neg hkilo]
      by_cases hmega : (strtoull text).2.head? = some 77
      · rw [if_pos hmega] at h ⊢
        rw [if_pos hmega, fillRepeat, if_neg Bool.false_ne_true,
          u32_of_lt (show (strtoull text).1 < 2 ^ 32 by omega), u32_of_lt h]
      rw [if_neg hmega] at h ⊢
      rw [if_neg hmega]
      by_cases htimes : (strtoull text).2.head? = some 120
      · rw [if_pos htimes] at h ⊢
        rw [if_pos htimes, fillRepeat, if_pos rfl,
          u32_of_lt (show (strtoull text).1 < 2 ^ 32 by omega), u32_of_lt h]
      · rw [if_neg htimes] at h ⊢
        rw [if_neg htimes, fillRepeat, if_neg Bool.false_ne_true, u32_of_lt h]

theorem repeated_period (pattern : List UInt8) (i : Nat) :
    repeated pattern (i + pattern.length) = repeated pattern i := by
  rw [repeated, Nat.add_mod_right]
  rfl

section Command

variable (cells : Nat → UInt8) {address fill pattern : List UInt8}

theorem cmdMemfill_args (size : Option (List UInt8)) :
    cmdMemfill cells (memfillArgs address fill size) = memfillRun cells address fill size := by
  cases size <;> rfl

/-- Every write of the command into its buffer is inside, whatever the arguments. -/
theorem memfillRun_inside (address fill : List UInt8) (size : Option (List UInt8)) :
    ∀ w ∈ (memfillRun cells address fill size).written, w.1 + w.2 ≤ 0x4000 := by
  have hnone : (FillBuffer.mk cells []).Inside := fun _ h => nomatch h
  obtain ⟨hinside, hlen⟩ := fillLoop_inside fill.length ⟨cells, []⟩ 0 fill hnone (Nat.zero_le _)
  unfold memfillRun
  dsimp only
  split
  · exact hnone
  · split
    · exact hinside
    · split
      · exact hinside
      · exact doubleLoop_inside 14 _ _ _ hinside hlen

/-- The buffer behind the decoder holds the pattern. -/
theorem fillLoop_pattern (hdecoded : Decoded fill pattern) (hshort : pattern.length < 0x4000) :
    ∃ buf : FillBuffer, fillLoop fill.length ⟨cells, []⟩ 0 fill = (buf, pattern.length, false) ∧
      ∀ i < pattern.length, buf.cells i = repeated pattern i := by
  obtain ⟨hcells, hend⟩ := fillLoop_decoded fill.length ⟨cells, []⟩ 0 fill pattern (Nat.le_refl _)
    hdecoded (by omega)
  rw [Nat.zero_add] at hend
  refine ⟨_, Prod.ext rfl hend, fun i hi => ?_⟩
  rw [hcells, store_in (Nat.zero_le _) (by omega), repeated, Nat.mod_eq_of_lt hi]
  rfl

/-- For every string, address and size, and whatever the buffer held at first. -/
theorem memfill_repeats {size : Option (List UInt8)} (hdecoded : Decoded fill pattern)
    (hpos : 0 < pattern.length) (hshort : pattern.length < 0x4000)
    (haddress : (strtoull address).2 = []) (htotal : fillTotal pattern.length size < 2 ^ 32) :
    let run := cmdMemfill cells (memfillArgs address fill size)
    run.error = none ∧ (∀ w ∈ run.written, w.1 + w.2 ≤ 0x4000) ∧
      FillsMemory pattern (u32 (strtoull address).1) (fillTotal pattern.length size)
        run.commands := by
  intro run
  have hrun : run = memfillRun cells address fill size := cmdMemfill_args cells size
  have hinside := memfillRun_inside cells address fill size
  obtain ⟨buf, hfilled, hcells⟩ := fillLoop_pattern cells hdecoded hshort
  rw [hrun]
  refine ⟨?_, hinside, ?_⟩
  all_goals
    unfold memfillRun
    rw [if_neg (not_not.mpr haddress), hfilled]
    dsimp only
    rw [if_neg Bool.false_ne_true, if_neg (Nat.ne_of_gt hpos)]
  rw [fillSize_total hpos htotal]
  obtain ⟨hsome, hdvd, hwhole, -⟩ := doubleLoop_spec (repeated_period pattern) 14 buf
    (fillTotal pattern.length size) pattern.length hpos (by omega) (Nat.dvd_refl _) hcells (by omega)
  exact fillsMemory_of_stores (Nat.le_of_lt htotal)
    (sendLoop_stores (repeated_period pattern) hsome hdvd hwhole _ _ _ (Nat.le_refl _))

end Command

/-- The string `\x41b`, five bytes long at 16: the digits of the number end at the second one. -/
theorem memfill_repeats_hex :
    let run := cmdMemfill (fun _ => 0) [CString.text "16", [92, 120, 52, 49, 98], CString.text "5"]
    run.error = none ∧ (∀ w ∈ run.written, w.1 + w.2 ≤ 0x4000) ∧
      FillsMemory [65, 98] 16 5 run.commands := by
  have hdecoded : Decoded [92, 120, 52, 49, 98] [65, 98] := .hex (.plain (by decide) .done)
  have haddress : strtoull (CString.text "16") = (16, []) := by decide +kernel
  have htotal : fillTotal ([65, 98] : List UInt8).length (some (CString.text "5")) = 5 := by
    decide +kernel
  have hsmall : fillTotal ([65, 98] : List UInt8).length (some (CString.text "5")) < 2 ^ 32 := by
    rw [htotal]
    decide
  have hfills := memfill_repeats (fun _ => 0) hdecoded (by decide) (by decide)
    (congrArg Prod.snd haddress) hsmall
  rw [haddress, htotal] at hfills
  exact hfills

example : Decoded [92, 56, 92] [92, 56, 92] := .other rfl (by decide) rfl .last

end Novo7
