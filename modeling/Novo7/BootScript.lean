import Mathlib.Data.List.GetD
import Mathlib.Data.List.Range
import Novo7.BootMenu
import Novo7.Bytes
import Novo7.CString

/-!
# The settings of the boot menu

`parser_script_os_sel` reads `boot.ini`, in memory, line by line: sections, one for each operating
system and one called `system`, and parameters. It takes a line's value up to the next carriage
return and its length up to the next line feed, and does not stop at the end of the file when these
are missing. An error after the first parameter ends it, but does not make it fail.

`bootMenu_safe_iff` says which of the files that it accepts make a menu that is safe.
-/

namespace Novo7

open Bytes CString

/-! ## Lines -/

inductive LineType where
  | error
  | comment
  | sect
  | param

/-- `while(c != '\n' && lineLen < scriptSize)`, for less than 512 characters. -/
def scriptLineLoop (mem : Nat → UInt8) (pos : Nat) (size : Int) : Nat → Nat → Option Nat
  | 0, _ => none
  | left + 1, n =>
    if mem (pos + n) ≠ 10 ∧ (n : Int) < size then scriptLineLoop mem pos size left (n + 1)
    else some (n + 1)

/-- `GetScriptLine` -/
def getScriptLine (mem : Nat → UInt8) (pos : Nat) (size : Int) : LineType × Nat :=
  match scriptLineLoop mem pos (size - 1) 511 1 with
  | none => (.error, 0)
  | some n =>
    if mem pos = 59 ∨ mem pos = 13 then (.comment, n)
    else if mem pos = 91 then (.sect, n)
    else (.param, n)

/-- What a string function sees of a buffer. -/
def cstr (bytes : List UInt8) : List UInt8 := bytes.takeWhile (· != 0)

def sectionNameLoop (mem : Nat → UInt8) : Nat → Nat → List UInt8
  | 0, _ => []
  | left + 1, pos => if mem pos = 93 then [] else mem pos :: sectionNameLoop mem left (pos + 1)

/-- `GetSectionName`: up to the bracket, 31 characters at most. -/
def getSectionName (mem : Nat → UInt8) (pos : Nat) : List UInt8 :=
  cstr (sectionNameLoop mem 31 (pos + 1))

/-- A character and what it adds to a name or a value. -/
def unlessBlank (c : UInt8) : List UInt8 := if c = 32 ∨ c = 9 then [] else [c]

/-- The first loop of `GetParam`, with where it ends; `none` when it does not. -/
def paramNameLoop (mem : Nat → UInt8) : Nat → Nat → Nat → Option (List UInt8 × Nat)
  | 0, _, _ => none
  | fuel + 1, pos, n =>
    if mem pos = 61 then some ([], pos)
    else
      let c := unlessBlank (mem pos)
      if n + c.length ≥ 31 then some (c, pos + 1)
      else (paramNameLoop mem fuel (pos + 1) (n + c.length)).map fun p => (c ++ p.1, p.2)

/-- `while(*script != '=')` -/
def findEquals (mem : Nat → UInt8) : Nat → Nat → Option Nat
  | 0, _ => none
  | fuel + 1, pos => if mem pos = 61 then some pos else findEquals mem fuel (pos + 1)

/-- The last loop of `GetParam`; the value is missing if it is too long. -/
def paramValLoop (mem : Nat → UInt8) : Nat → Nat → Nat → Option (Option (List UInt8))
  | 0, _, _ => none
  | fuel + 1, pos, n =>
    if mem pos = 13 then some (some [])
    else
      let c := unlessBlank (mem pos)
      if n + c.length ≥ 127 then some none
      else (paramValLoop mem fuel (pos + 1) (n + c.length)).map fun v => v.map (c ++ ·)

/-- `GetParam` -/
def getParam (mem : Nat → UInt8) (fuel pos : Nat) : Option (Option (List UInt8 × List UInt8)) := do
  let (name, pos) ← paramNameLoop mem fuel pos 0
  let pos ← findEquals mem fuel pos
  let val ← paramValLoop mem fuel (pos + 1) 0
  return val.map fun v => (cstr name, cstr v)

inductive ScriptLine where
  | comment
  | sect (name : List UInt8)
  | param (name val : List UInt8)

/-- A line and its length, an error, or no end. -/
inductive ReadLine where
  | line (l : ScriptLine) (n : Nat)
  | bad
  | endless

/-- What a round of the parser's loop reads. -/
def readLine (mem : Nat → UInt8) (fuel pos : Nat) (size : Int) : ReadLine :=
  match getScriptLine mem pos size with
  | (.error, _) => .bad
  | (.comment, n) => .line .comment n
  | (.sect, n) => .line (.sect (getSectionName mem pos)) n
  | (.param, n) =>
    match getParam mem fuel pos with
    | none => .endless
    | some none => .bad
    | some (some (name, val)) => .line (.param name val) n

/-! ## Values -/

def decDigit (c : UInt8) : Option Nat := if 48 ≤ c ∧ c ≤ 57 then some (c.toNat - 48) else none

def hexDigit (c : UInt8) : Option Nat :=
  if 48 ≤ c ∧ c ≤ 57 then some (c.toNat - 48)
  else if 65 ≤ c ∧ c ≤ 70 then some (c.toNat - 55)
  else if 97 ≤ c ∧ c ≤ 102 then some (c.toNat - 87)
  else none

/-- The digits up to the end or a sign; other characters are an error. -/
def numberLoop (base : Nat) (digit : UInt8 → Option Nat) : List UInt8 → Nat → Option Nat
  | [], v => some v
  | c :: cs, v =>
    match digit c with
    | some d => numberLoop base digit cs ((d + base * v) % 2 ^ 32)
    | none => if c = 43 ∨ c = 45 then some v else none

/-- What `ParseParamVal` returns and leaves in `var1[0]`, and in `var1[1]` for a number. -/
inductive ParamVal where
  | str (words : Nat)
  | num (val : Nat) (sign : Int)

def ParamVal.code : ParamVal → Int
  | .str _ => 2
  | .num _ _ => 1

def ParamVal.word : ParamVal → Nat
  | .str words => words
  | .num val _ => val

/-- `ParseParamVal`; `none` where it returns -1. -/
def parseParamVal (buf : List UInt8) : Option ParamVal :=
  let str := some (.str ((buf.length + 3) / 4))
  match buf with
  | 45 :: 48 :: x :: rest =>
    if x = 120 ∨ x = 88 then (numberLoop 16 hexDigit rest 0).map (.num · (-1)) else str
  | 45 :: c :: rest =>
    if c ≠ 48 ∧ (decDigit c).isSome then (numberLoop 10 decDigit (c :: rest) 0).map (.num · (-1))
    else str
  | c :: rest =>
    if c = 48 ∧ (rest.head? = some 120 ∨ rest.head? = some 88) then
      (numberLoop 16 hexDigit rest.tail 0).map (.num · 1)
    else if (decDigit c).isSome then (numberLoop 10 decDigit (c :: rest) 0).map (.num · 1)
    else str
  | [] => str

/-! ## The parser -/

/-- The parser between two lines. -/
structure OsSel where
  /-- `isSystemSect`, but for -1 -/
  isSystemSect : Option Bool
  /-- the names up to that of `curOS` -/
  osNames : List (List UInt8)
  /-- the bytes of `*bootIni` from `startOSName` on -/
  tail : Nat → UInt8
  var7 : Int
  /-- `sp24[1]` -/
  sign : Int

/-- A word of the bytes from `startOSName` on, as an `int`. -/
def OsSel.int (s : OsSel) (pos : Nat) : Int :=
  (leValue [s.tail pos, s.tail (pos + 1), s.tail (pos + 2), s.tail (pos + 3)] : Int).bmod (2 ^ 32)

/-- `sp24[0] * sp24[1]` is assigned to a word. -/
def OsSel.setInt (s : OsSel) (pos word : Nat) : OsSel :=
  { s with tail := store s.tail pos 4 (leBytes 4 ((word * s.sign) % 2 ^ 32).toNat) }

/-- A parameter. The pictures of a system are behind all that the menu uses. -/
def OsSel.param (s : OsSel) (name val : List UInt8) (v : ParamVal) : OsSel :=
  let sign := match v with | .num _ sign => sign | .str _ => s.sign
  let s := { s with var7 := v.code, sign := sign }
  if s.isSystemSect = some true then
    if name = text "start_os_name" then
      { s with tail := store s.tail 0 (strncpySize val (v.word * 4 % 2 ^ 32)) val }
    else if name = text "timeout" then s.setInt 36 v.word
    else if name = text "display_device" then s.setInt 40 v.word
    else if name = text "display_mode" then s.setInt 44 v.word
    else s
  else s

/-- A line; `none` where the parser returns -1. -/
def OsSel.line (s : OsSel) : ScriptLine → Option OsSel
  | .comment => some s
  | .sect name =>
    if name = text "system" then some { s with isSystemSect := some true }
    else if s.osNames.length < 8 then
      some { s with isSystemSect := some false, osNames := s.osNames ++ [name] }
    else none
  | .param name val => (parseParamVal val).map fun v => s.param name val v

/-- The settings when the parser stops before the end of the file. -/
def OsSel.stopped (s : OsSel) : BootIni := ⟨0, s.osNames, s.int 32, s.int 36⟩

/-- `strcmp(bootIni->startOSName, bootIni->osNames[var8]) == 0` -/
def OsSel.named (s : OsSel) (k : Nat) : Bool := strcmpEq s.tail 0 (s.osNames.getD k [])

/-- The settings at the end of the file. -/
def OsSel.finished (s : OsSel) : BootIni where
  osCount := s.osNames.length
  osNames := s.osNames
  startOSNum :=
    match (List.range 8).find? s.named with
    | some k => k
    | none => s.int 32
  timeout := s.int 36

/-- `while(scriptSize != 0)`, with what is returned and the settings; `none` when it does not
end. -/
def osSelLoop (mem : Nat → UInt8) (fuel : Nat) : Nat → Nat → Int → OsSel → Option (Int × BootIni)
  | 0, _, _, _ => none
  | left + 1, pos, size, s =>
    if size = 0 then some (s.var7 / 2 ^ 31, s.finished)
    else
      match readLine mem fuel pos size with
      | .endless => none
      | .bad => some (s.var7 / 2 ^ 31, s.stopped)
      | .line l n =>
        match s.line l with
        | none => some (-1, s.stopped)
        | some s' => osSelLoop mem fuel left (pos + n) (size - n) s'

/-- `parser_script_os_sel` on settings that are all zero; `sign` is what `sp24[1]` holds before. -/
def parserScriptOsSel (mem : Nat → UInt8) (size : Int) (sign : Int) (fuel : Nat) :
    Option (Int × BootIni) :=
  osSelLoop mem fuel fuel 0 size ⟨none, [], fun _ => 0, -1, sign⟩

/-! ## Files -/

/-- The file reads as lines, to its end. -/
inductive ScriptLines (mem : Nat → UInt8) (fuel : Nat) : Nat → Int → List ScriptLine → Prop
  | done (pos : Nat) : ScriptLines mem fuel pos 0 []
  | line {pos n : Nat} {size : Int} {l : ScriptLine} {ls : List ScriptLine} (hsize : size ≠ 0)
      (hread : readLine mem fuel pos size = .line l n)
      (hrest : ScriptLines mem fuel (pos + n) (size - n) ls) : ScriptLines mem fuel pos size (l :: ls)

/-- The name of the system to start is copied to no more than its 32 bytes, in lines that follow in
a section. -/
def StartNamesFit : Option Bool → List ScriptLine → Prop
  | _, [] => True
  | sect, .comment :: ls => StartNamesFit sect ls
  | _, .sect name :: ls => StartNamesFit (some (name == text "system")) ls
  | sect, .param name val :: ls =>
    (sect = some true → name = text "start_os_name" →
      ∀ v, parseParamVal val = some v → strncpySize val (v.word * 4 % 2 ^ 32) ≤ 32) ∧
      StartNamesFit sect ls

/-- There is a section of an operating system. -/
def HasSystem (ls : List ScriptLine) : Prop := ∃ name, .sect name ∈ ls ∧ name ≠ text "system"

section Loop

variable {mem : Nat → UInt8} {fuel : Nat} {b : BootIni}

/-- One round on a line. -/
theorem osSelLoop_line {left pos n : Nat} {size : Int} {s : OsSel} {l : ScriptLine}
    (hsize : size ≠ 0) (hread : readLine mem fuel pos size = .line l n)
    (h : osSelLoop mem fuel (left + 1) pos size s = some (0, b)) :
    ∃ s', s.line l = some s' ∧ osSelLoop mem fuel left (pos + n) (size - n) s' = some (0, b) := by
  rw [osSelLoop, if_neg hsize, hread] at h
  dsimp only at h
  cases hs : s.line l with
  | none =>
      rw [hs] at h
      cases h
  | some s' =>
      rw [hs] at h
      exact ⟨s', rfl, h⟩

/-- The settings of a file that is accepted and reads to its end. -/
theorem osSelLoop_whole {pos : Nat} {size : Int} {ls : List ScriptLine}
    (hls : ScriptLines mem fuel pos size ls) {left : Nat} {s : OsSel}
    (h : osSelLoop mem fuel left pos size s = some (0, b)) :
    ∃ s', ls.foldlM OsSel.line s = some s' ∧ b = s'.finished := by
  induction hls generalizing left s with
  | done pos =>
      cases left with
      | zero => cases h
      | succ left =>
          rw [osSelLoop, if_pos rfl] at h
          exact ⟨s, rfl, (Prod.mk.inj (Option.some.inj h)).2.symm⟩
  | @line pos n size l ls hsize hread hrest ih =>
      cases left with
      | zero => cases h
      | succ left =>
          obtain ⟨s₁, hline, hloop⟩ := osSelLoop_line hsize hread h
          obtain ⟨s', hfold, hb⟩ := ih hloop
          refine ⟨s', ?_, hb⟩
          rw [List.foldlM_cons, hline]
          exact hfold

/-- A file that is accepted without being read to its end has no systems. -/
theorem osSelLoop_stopped {left pos : Nat} {size : Int} {s : OsSel}
    (h : osSelLoop mem fuel left pos size s = some (0, b)) :
    (∃ ls, ScriptLines mem fuel pos size ls) ∨ b.osCount = 0 := by
  induction left generalizing pos size s with
  | zero => cases h
  | succ left ih =>
      by_cases hsize : size = 0
      · rw [hsize]
        exact .inl ⟨[], .done pos⟩
      cases hread : readLine mem fuel pos size with
      | endless =>
          rw [osSelLoop, if_neg hsize, hread] at h
          cases h
      | bad =>
          rw [osSelLoop, if_neg hsize, hread] at h
          exact .inr (congrArg BootIni.osCount (Prod.mk.inj (Option.some.inj h)).2.symm)
      | line l n =>
          obtain ⟨s', -, hloop⟩ := osSelLoop_line hsize hread h
          exact (ih hloop).imp (fun ⟨ls, hls⟩ => ⟨l :: ls, .line hsize hread hls⟩) id

end Loop

/-! ## The settings -/

theorem OsSel.param_eq (s : OsSel) (name val : List UInt8) (v : ParamVal) :
    (s.param name val v).isSystemSect = s.isSystemSect ∧
      (s.param name val v).osNames = s.osNames := by
  unfold OsSel.param OsSel.setInt
  dsimp only
  split
  · split
    · exact ⟨rfl, rfl⟩
    split
    · exact ⟨rfl, rfl⟩
    split
    · exact ⟨rfl, rfl⟩
    split <;> exact ⟨rfl, rfl⟩
  · exact ⟨rfl, rfl⟩

/-- The bytes of `startOSNum` are those of no other setting. -/
theorem OsSel.param_tail (s : OsSel) {name val : List UInt8} {v : ParamVal}
    (hfit : s.isSystemSect = some true → name = text "start_os_name" →
      strncpySize val (v.word * 4 % 2 ^ 32) ≤ 32)
    {i : Nat} (h0 : 32 ≤ i) (hi : i < 36) : (s.param name val v).tail i = s.tail i := by
  unfold OsSel.param OsSel.setInt
  dsimp only
  split
  · rename_i hsys
    split
    · rename_i hname
      have := hfit hsys hname
      exact store_frame _ _ (.inr (by omega))
    split
    · exact store_frame _ _ (.inl (by omega))
    split
    · exact store_frame _ _ (.inl (by omega))
    split
    · exact store_frame _ _ (.inl (by omega))
    · rfl
  · rfl

/-- A line adds a name for a section of a system only. -/
theorem OsSel.line_names {s s' : OsSel} {l : ScriptLine} (h : s.line l = some s') :
    s'.osNames ≠ [] ↔ s.osNames ≠ [] ∨ HasSystem [l] := by
  have hother (hl : ¬ HasSystem [l]) (hs : s'.osNames = s.osNames) :
      s'.osNames ≠ [] ↔ s.osNames ≠ [] ∨ HasSystem [l] := by
    rw [hs, or_iff_left hl]
  cases l with
  | comment =>
      cases h
      exact hother (by simp [HasSystem]) rfl
  | sect name =>
      unfold OsSel.line at h
      dsimp only at h
      split at h
      · rename_i hsys
        cases h
        exact hother (by simp [HasSystem, hsys]) rfl
      · rename_i hsys
        split at h
        · cases h
          refine iff_of_true (List.append_ne_nil_of_right_ne_nil _ (List.cons_ne_nil _ _)) (.inr ?_)
          exact ⟨name, List.mem_cons_self .., hsys⟩
        · cases h
  | param name val =>
      obtain ⟨v, -, rfl⟩ := Option.map_eq_some_iff.mp h
      exact hother (by simp [HasSystem]) (s.param_eq name val v).2

theorem lines_names {ls : List ScriptLine} : ∀ {s s' : OsSel}, ls.foldlM OsSel.line s = some s' →
    (s'.osNames ≠ [] ↔ s.osNames ≠ [] ∨ HasSystem ls) := by
  induction ls with
  | nil =>
      rintro s s' ⟨⟩
      simp [HasSystem]
  | cons l ls ih =>
      intro s s' h
      rw [List.foldlM_cons] at h
      obtain ⟨s₁, hline, hrest⟩ := Option.bind_eq_some_iff.mp h
      have hcons : HasSystem (l :: ls) ↔ HasSystem [l] ∨ HasSystem ls := by
        simp only [HasSystem, List.mem_cons, List.not_mem_nil, or_false]
        constructor
        · rintro ⟨name, hl | hls, hne⟩
          · exact .inl ⟨name, hl, hne⟩
          · exact .inr ⟨name, hls, hne⟩
        · rintro (⟨name, hl, hne⟩ | ⟨name, hls, hne⟩)
          · exact ⟨name, .inl hl, hne⟩
          · exact ⟨name, .inr hls, hne⟩
      rw [ih hrest, OsSel.line_names hline, hcons, or_assoc]

/-- Names that fit leave `startOSNum` alone. -/
theorem lines_tail {ls : List ScriptLine} : ∀ {s s' : OsSel},
    ls.foldlM OsSel.line s = some s' → StartNamesFit s.isSystemSect ls →
    ∀ i, 32 ≤ i → i < 36 → s'.tail i = s.tail i := by
  induction ls with
  | nil =>
      rintro s s' ⟨⟩ _ i _ _
      rfl
  | cons l ls ih =>
      intro s s' h hfit i h0 hi
      rw [List.foldlM_cons] at h
      obtain ⟨s₁, hline, hrest⟩ := Option.bind_eq_some_iff.mp h
      cases l with
      | comment =>
          cases hline
          exact ih hrest hfit i h0 hi
      | sect name =>
          unfold OsSel.line at hline
          dsimp only at hline
          split at hline
          · rename_i hsys
            cases hline
            refine ih hrest ?_ i h0 hi
            unfold StartNamesFit at hfit
            rwa [beq_iff_eq.mpr hsys] at hfit
          · rename_i hsys
            split at hline
            · cases hline
              refine ih hrest ?_ i h0 hi
              unfold StartNamesFit at hfit
              rwa [beq_eq_false_iff_ne.mpr hsys] at hfit
            · cases hline
      | param name val =>
          obtain ⟨v, hv, rfl⟩ := Option.map_eq_some_iff.mp hline
          obtain ⟨hname, hfit⟩ := hfit
          rw [← (s.param_eq name val v).1] at hfit
          rw [ih hrest hfit i h0 hi]
          exact s.param_tail (fun hsys hn => hname hsys hn v hv) h0 hi

/-- The search ends at the first name that is not set, at the latest. -/
theorem OsSel.finished_start {s : OsSel} (hzero : s.int 32 = 0) :
    0 ≤ s.finished.startOSNum ∧ s.finished.startOSNum ≤ s.finished.osCount := by
  show 0 ≤ (match (List.range 8).find? s.named with | some k => (k : Int) | none => s.int 32) ∧
    (match (List.range 8).find? s.named with | some k => (k : Int) | none => s.int 32) ≤
      (s.osNames.length : Int)
  cases hk : (List.range 8).find? s.named with
  | none =>
      dsimp only
      omega
  | some k =>
      obtain ⟨hnamed, -, hfirst⟩ := List.find?_range_eq_some.mp hk
      refine ⟨Int.natCast_nonneg k, Int.ofNat_le.mpr (Nat.le_of_not_lt fun hlt => ?_)⟩
      have hnot := hfirst _ hlt
      unfold OsSel.named at hnamed hnot
      rw [List.getD_eq_default _ _ (Nat.le_of_lt hlt)] at hnamed
      rw [List.getD_eq_default _ _ (Nat.le_refl _), hnamed] at hnot
      cases hnot

/-! ## Files that make a safe menu -/

/-- A file that is accepted, and in which the names of the system to start fit, makes a menu that is
safe, whatever keys are pressed and boots fail, if and only if it reads to its end and has a system. -/
theorem bootMenu_safe_iff (mem : Nat → UInt8) (size sign : Int) (fuel : Nat) (b : BootIni)
    (h : parserScriptOsSel mem size sign fuel = some (0, b))
    (hfit : ∀ ls, ScriptLines mem fuel 0 size ls → StartNamesFit none ls) :
    MenuSafe b ↔ ∃ ls, ScriptLines mem fuel 0 size ls ∧ HasSystem ls := by
  rw [menu_safe_iff]
  constructor
  · rintro ⟨hos, -⟩
    obtain ⟨ls, hls⟩ := (osSelLoop_stopped h).resolve_right (by omega)
    obtain ⟨s', hfold, rfl⟩ := osSelLoop_whole hls h
    refine ⟨ls, hls, ((lines_names hfold).mp fun hnil => ?_).resolve_left (· rfl)⟩
    replace hos : 1 ≤ (s'.osNames.length : Int) := hos
    rw [hnil] at hos
    exact absurd hos (by decide)
  · rintro ⟨ls, hls, hsys⟩
    obtain ⟨s', hfold, rfl⟩ := osSelLoop_whole hls h
    have hnames := (lines_names hfold).mpr (.inr hsys)
    have htail : ∀ i, 32 ≤ i → i < 36 → s'.tail i = 0 := lines_tail hfold (hfit ls hls)
    have hbytes : leValue [0, 0, 0, 0] = 0 := rfl
    have hzero : s'.int 32 = 0 := by
      unfold OsSel.int
      rw [htail 32 (by omega) (by omega), htail 33 (by omega) (by omega),
        htail 34 (by omega) (by omega), htail 35 (by omega) (by omega), hbytes]
      exact Int.zero_bmod
    refine ⟨?_, OsSel.finished_start hzero⟩
    have hlen := List.length_pos_iff.mpr hnames
    show 1 ≤ (s'.osNames.length : Int)
    omega

/-- A text in memory. -/
def fileText (s : String) (i : Nat) : UInt8 := (text s).getD i 0

/-- One system, and the parameter without which a file is not accepted. -/
theorem bootMenu_safe_iff_oneSystem : ∃ b,
    parserScriptOsSel (fileText "[x]\r\na=1\r\n") 10 0 20 = some (0, b) ∧
      (MenuSafe b ↔ ∃ ls, ScriptLines (fileText "[x]\r\na=1\r\n") 20 0 10 ls ∧ HasSystem ls) := by
  have hlines : ∀ ls, ScriptLines (fileText "[x]\r\na=1\r\n") 20 0 10 ls → StartNamesFit none ls := by
    intro ls hls
    cases hls with
    | line _ hread hrest =>
        cases hread.symm.trans (show _ = ReadLine.line (.sect (text "x")) 5 from rfl)
        cases hrest with
        | line _ hread hrest =>
            cases hread.symm.trans (show _ = ReadLine.line (.param (text "a") (text "1")) 5 from rfl)
            cases hrest with
            | done => exact ⟨fun hsys => absurd (Option.some.inj hsys) (by decide), trivial⟩
            | line hsize => exact absurd rfl hsize
  exact ⟨_, rfl, bootMenu_safe_iff _ _ 0 20 _ rfl hlines⟩

/-- A file with settings but no system is accepted. -/
theorem bootMenu_noSystem : ∃ b,
    parserScriptOsSel (fileText "[system]\r\na=1\r\n") 15 0 20 = some (0, b) ∧ ¬ MenuSafe b := by
  refine ⟨_, rfl, fun h => ?_⟩
  exact absurd ((menu_safe_iff _).mp h).1 (by decide)

end Novo7
