import Novo7.ParamWords
import Novo7.ScriptRuns

/-!
# The scripts of operating systems

`parser_script_os_img` fills a `struct OSImageScript` from the ini file of a system. The sections
that it knows are the segments to load, the script, the logo and a global one; the section is a
variable that is not set before the first of them. Every store is kept, with the field it is meant
for, beside the bytes of the structure.
-/

namespace Novo7

open Bytes CString

/-! ## The structure -/

inductive ImgSection where
  | segment
  | scriptInfo
  | logoInfo
  | global
  deriving DecidableEq

/-- The fields of `struct OSImageScript` that are stored into. -/
inductive ImgField where
  | imageName (segmentNo : Int)
  | imageMaxSize (segmentNo : Int)
  | imageBaseAddr (segmentNo : Int)
  | startMode
  | maxSize
  | baseAddr
  | segmentSectionCount
  | logoFileName
  | logoShow
  | logoAddress
  | logoOff

def ImgField.pos : ImgField → Int
  | .imageName segmentNo => 36 + 44 * segmentNo
  | .imageMaxSize segmentNo => 36 + 44 * segmentNo + 32
  | .imageBaseAddr segmentNo => 36 + 44 * segmentNo + 40
  | .startMode => 32
  | .maxSize => 772
  | .baseAddr => 780
  | .segmentSectionCount => 784
  | .logoFileName => 788
  | .logoShow => 820
  | .logoAddress => 824
  | .logoOff => 828

def ImgField.size : ImgField → Nat
  | .imageName _ | .logoFileName => 32
  | _ => 4

/-- A store: the bytes, and the field that they are stored to the beginning of. -/
structure ImgPut where
  field : ImgField
  bytes : List UInt8

/-- Bytes around a structure after a store. -/
def putBytes (script : Int → UInt8) (pos : Int) (bytes : List UInt8) (i : Int) : UInt8 :=
  if pos ≤ i ∧ i < pos + bytes.length then bytes.getD (i - pos).toNat 0 else script i

/-- The parser between two lines. -/
structure OsImg where
  /-- `section`, if it is one of the sections -/
  sect : Option ImgSection
  segmentNo : Int
  adjustBaseAddr : Bool
  sp8 : ParamWords
  var7 : Int
  /-- the bytes of `*imgScript` and around it -/
  script : Int → UInt8
  puts : List ImgPut

def OsImg.put (s : OsImg) (field : ImgField) (bytes : List UInt8) : OsImg :=
  { s with
    script := putBytes s.script field.pos bytes
    puts := s.puts ++ [⟨field, bytes⟩] }

def OsImg.setWord (s : OsImg) (field : ImgField) (w : Nat) : OsImg := s.put field (leBytes 4 w)

/-- A word of the structure. -/
def OsImg.word (s : OsImg) (field : ImgField) : Nat :=
  leValue [s.script field.pos, s.script (field.pos + 1), s.script (field.pos + 2),
    s.script (field.pos + 3)]

/-- The bytes that `strncpy` stores. -/
def strncpyBytes (src : List UInt8) (count : Nat) : List UInt8 := (src ++ [0]).take count

theorem length_strncpyBytes (src : List UInt8) (count : Nat) :
    (strncpyBytes src count).length = strncpySize src count := by
  rw [strncpyBytes, List.length_take, List.length_append, strncpySize]
  rfl

/-- A difference of words. -/
def wordSub (a b : Nat) : Nat := (a + (2 ^ 32 - b % 2 ^ 32)) % 2 ^ 32

/-! ## Lines -/

section Param

variable (top : Nat)

/-- `if(sp8[1] < 0)`: the address is meant from the top of the memory. -/
def fromTop (w : ParamWords) : ParamWords :=
  if w.sign < 0 then { w with val := wordSub top w.val } else w

/-- A base address, with the field of the size that goes with it. -/
def OsImg.base (s : OsImg) (size base : ImgField) : OsImg :=
  let s := { s with sp8 := fromTop top s.sp8 }
  let s :=
    if s.sp8.suffix < 0 then
      if s.word size = 0 then { s with adjustBaseAddr := true }
      else { s with sp8 := { s.sp8 with val := wordSub s.sp8.val (s.word size) } }
    else s
  s.setWord base s.sp8.val

/-- A size: an address that waits for it is adjusted by the word that is read, or by the field. -/
def OsImg.size (s : OsImg) (size base : ImgField) (amount : OsImg → Nat) : OsImg :=
  let s := s.setWord size s.sp8.val
  if s.adjustBaseAddr then
    { s.setWord base (wordSub (s.word base) (amount s)) with adjustBaseAddr := false }
  else s

/-- `strncpy(field, paramVal, 4 * sp8[0])` -/
def OsImg.copy (s : OsImg) (field : ImgField) (val : List UInt8) : OsImg :=
  s.put field (strncpyBytes val (4 * s.sp8.val % 2 ^ 32))

/-- A parameter, after `ParseParamVal`. -/
def OsImg.param (s : OsImg) (name val : List UInt8) : OsImg :=
  match s.sect with
  | some .segment =>
    if name = text "img_name" then s.copy (.imageName s.segmentNo) val
    else if name = text "img_size" then
      s.size (.imageMaxSize s.segmentNo) (.imageBaseAddr s.segmentNo) fun s => s.sp8.val
    else if name = text "img_base" then
      s.base top (.imageMaxSize s.segmentNo) (.imageBaseAddr s.segmentNo)
    else s
  | some .scriptInfo =>
    if name = text "script_base" then s.base top .maxSize .baseAddr
    else if name = text "script_size" then s.size .maxSize .baseAddr fun s => s.word .maxSize
    else s
  | some .logoInfo =>
    if name = text "logo_name" then s.copy .logoFileName val
    else if name = text "logo_show" then s.setWord .logoShow s.sp8.val
    else if name = text "logo_address" then
      let s := { s with sp8 := fromTop top s.sp8 }
      s.setWord .logoAddress s.sp8.val
    else if name = text "logo_off" then s.setWord .logoOff s.sp8.val
    else s
  | some .global => if name = text "start_mode" then s.setWord .startMode s.sp8.val else s
  | none => s

/-- A section; one of another name leaves the last one. -/
def OsImg.enter (s : OsImg) (name : List UInt8) : OsImg :=
  let s :=
    if name = text "segment" then { s with sect := some .segment, segmentNo := s.segmentNo + 1 }
    else if name = text "script_info" then { s with sect := some .scriptInfo }
    else if name = text "logo_info" then { s with sect := some .logoInfo }
    else if name = text "global" then { s with sect := some .global }
    else s
  { s with adjustBaseAddr := false }

/-- A line; `none` where the parser returns -1. -/
def OsImg.line (s : OsImg) : ScriptLine → Option OsImg
  | .comment => some s
  | .sect name => some (s.enter name)
  | .param name val =>
    let (code, sp8) := parseParamWords val s.sp8
    if code = -1 then none else some ({ s with var7 := code, sp8 := sp8 }.param top name val)

end Param

/-- At the end of the script. -/
def OsImg.finished (s : OsImg) : OsImg :=
  s.setWord .segmentSectionCount ((s.segmentNo + 1) % 2 ^ 32).toNat

/-! ## The variable that is returned -/

@[simp] theorem OsImg.var7_put (s : OsImg) (field : ImgField) (bytes : List UInt8) :
    (s.put field bytes).var7 = s.var7 := rfl

@[simp] theorem OsImg.var7_base (s : OsImg) (top : Nat) (size base : ImgField) :
    (s.base top size base).var7 = s.var7 := by
  unfold OsImg.base OsImg.setWord
  dsimp only
  split
  · split <;> rfl
  · rfl

@[simp] theorem OsImg.var7_size (s : OsImg) (size base : ImgField) (amount : OsImg → Nat) :
    (s.size size base amount).var7 = s.var7 := by
  unfold OsImg.size OsImg.setWord
  dsimp only
  split <;> rfl

theorem OsImg.var7_param (s : OsImg) (top : Nat) (name val : List UInt8) :
    (s.param top name val).var7 = s.var7 := by
  unfold OsImg.param OsImg.copy OsImg.setWord
  dsimp only
  cases s.sect with
  | none => rfl
  | some sect => cases sect <;> simp only <;> split_ifs <;> simp

theorem OsImg.var7_enter (s : OsImg) (name : List UInt8) : (s.enter name).var7 = s.var7 := by
  unfold OsImg.enter
  dsimp only
  split_ifs <;> rfl

/-- What `ParseParamVal` returns. -/
theorem parseParamWords_code (buf : List UInt8) (var1 : ParamWords) :
    (parseParamWords buf var1).1 = -1 ∨ (parseParamWords buf var1).1 = 1 ∨
      (parseParamWords buf var1).1 = 2 := by
  have hnum (base : Nat) (digit : UInt8 → Option Nat) (sign : Int) (t : List UInt8) :
      (numParam base digit sign t var1).1 = -1 ∨ (numParam base digit sign t var1).1 = 1 ∨
        (numParam base digit sign t var1).1 = 2 := by
    unfold numParam
    split
    · exact .inr (.inl rfl)
    · exact .inl rfl
  unfold parseParamWords
  split_ifs
  · exact hnum _ _ _ _
  · exact .inr (.inr rfl)
  · exact hnum _ _ _ _
  · exact .inr (.inr rfl)
  · exact hnum _ _ _ _
  · exact hnum _ _ _ _
  · exact .inr (.inr rfl)

/-- A parameter that is accepted. -/
theorem OsImg.line_param {s s' : OsImg} {top : Nat} {name val : List UInt8}
    (h : s.line top (.param name val) = some s') :
    (parseParamWords val s.sp8).1 ≠ -1 ∧
      s' = { s with var7 := (parseParamWords val s.sp8).1
                    sp8 := (parseParamWords val s.sp8).2 }.param top name val := by
  unfold OsImg.line at h
  dsimp only at h
  split at h
  · cases h
  · rename_i hcode
    exact ⟨hcode, (Option.some.inj h).symm⟩

/-- `parser_script_os_img` -/
def osImgParser (top : Nat) : ScriptParser OsImg OsImg where
  line := OsImg.line top
  var7 := OsImg.var7
  finished := OsImg.finished
  stopped := id
  param_var7 := fun {s s' name val} h => by
    obtain ⟨hcode, rfl⟩ := OsImg.line_param h
    rw [OsImg.var7_param]
    exact (parseParamWords_code val s.sp8).resolve_left hcode
  comment_var7 := fun h => by
    cases h
    rfl
  sect_var7 := fun {s s' name} h => by
    cases h
    exact s.var7_enter name

/-- The parser as it is called: what `section`, `adjustBaseAddr` and `sp8` hold is not set. -/
def OsImg.start (sect : Option ImgSection) (adjustBaseAddr : Bool) (sp8 : ParamWords)
    (script : Int → UInt8) : OsImg :=
  ⟨sect, -1, adjustBaseAddr, sp8, -1, script, []⟩

/-- The parser on a script of these lines, and a structure that is all zero. -/
def imgRun (lines : List String) : Option (Int × OsImg) :=
  let script := lines.flatMap fun l => text l ++ [13, 10]
  parserLoop (osImgParser 0) (script.getD · 0) 100 100
    ⟨0, script.length, .start none false ⟨0, 0, 0⟩ fun _ => 0⟩

end Novo7
