import Novo7.ScriptErrors

/-!
# Reading within a script

The functions that read a script look for a line feed, a bracket, an equals sign and a carriage
return, and only the first of these loops knows the size. Here they read from the list of bytes that
are left of the script, and give nothing when they read a byte behind it. `scanLine_readLine` says
that they read the same as the parsers do from memory; `parsers_consume_iff` is for which scripts no
byte behind the script is read.
-/

namespace Novo7

open CString

/-! ## Lines of a list of bytes -/

/-- `while(c != '\n' && lineLen < scriptSize)`, from `c` on: too long, or a length. -/
def lineLenScan (size : Nat) : Nat → List UInt8 → Nat → Option (Option Nat)
  | _, [], _ => none
  | 0, _ :: _, _ => some none
  | left + 1, c :: rest, n =>
    if c ≠ 10 ∧ n < size then lineLenScan size left rest (n + 1) else some (some (n + 1))

/-- The loop of `GetSectionName`, from `c` on. -/
def sectionNameScan : Nat → List UInt8 → Option (List UInt8)
  | _, [] => none
  | 0, c :: rest => if c = 93 ∨ rest ≠ [] then some [] else none
  | left + 1, c :: rest => if c = 93 then some [] else (sectionNameScan left rest).map (c :: ·)

/-- The first loop of `GetParam`, with what is left where it ends. -/
def paramNameScan : List UInt8 → Nat → Option (List UInt8 × List UInt8)
  | [], _ => none
  | c :: rest, n =>
    if c = 61 then some ([], c :: rest)
    else if n + (unlessBlank c).length ≥ 31 then some (unlessBlank c, rest)
    else (paramNameScan rest (n + (unlessBlank c).length)).map fun p => (unlessBlank c ++ p.1, p.2)

/-- `while(*script != '=')`, with what is behind it. -/
def findEqualsScan : List UInt8 → Option (List UInt8)
  | [] => none
  | c :: rest => if c = 61 then some rest else findEqualsScan rest

/-- The last loop of `GetParam`. -/
def paramValScan : List UInt8 → Nat → Option (Option (List UInt8))
  | [], _ => none
  | c :: rest, n =>
    if c = 13 then some (some [])
    else if n + (unlessBlank c).length ≥ 127 then some none
    else (paramValScan rest (n + (unlessBlank c).length)).map fun v => v.map (unlessBlank c ++ ·)

def getParamScan (script : List UInt8) : Option (Option (List UInt8 × List UInt8)) := do
  let (name, rest) ← paramNameScan script 0
  let rest ← findEqualsScan rest
  let val ← paramValScan rest 0
  return val.map fun v => (cstr name, cstr v)

/-- A line and its length, an error, or a byte behind the script. -/
inductive ScanLine where
  | line (l : ScriptLine) (n : Nat)
  | bad
  | pastEnd

/-- What a round of the parser's loop reads, of the bytes that are left. -/
def scanLine : List UInt8 → ScanLine
  | [] => .pastEnd
  | c :: rest =>
    match lineLenScan rest.length 511 rest 1 with
    | none => .pastEnd
    | some none => .bad
    | some (some n) =>
      if c = 59 ∨ c = 13 then .line .comment n
      else if c = 91 then
        match sectionNameScan 31 rest with
        | none => .pastEnd
        | some name => .line (.sect (cstr name)) n
      else
        match getParamScan (c :: rest) with
        | none => .pastEnd
        | some none => .bad
        | some (some (name, val)) => .line (.param name val) n

/-! ## Lengths of lines -/

theorem lineLenScan_le {size left n k : Nat} {rest : List UInt8}
    (h : lineLenScan size left rest n = some (some k)) : n < k ∧ k ≤ n + rest.length := by
  induction left generalizing rest n with
  | zero => cases rest <;> cases h
  | succ left ih =>
      cases rest with
      | nil => cases h
      | cons c rest =>
          rw [lineLenScan] at h
          rw [List.length_cons]
          split at h
          · have := ih h
            omega
          · cases h
            omega

theorem scanLine_le {script : List UInt8} {l : ScriptLine} {n : Nat}
    (h : scanLine script = .line l n) : 2 ≤ n ∧ n ≤ script.length := by
  cases script with
  | nil => cases h
  | cons c rest =>
      have hlen {k : Nat} (hk : lineLenScan rest.length 511 rest 1 = some (some k)) :
          2 ≤ k ∧ k ≤ (c :: rest).length := by
        have := lineLenScan_le hk
        rw [List.length_cons]
        omega
      rw [scanLine] at h
      cases hk : lineLenScan rest.length 511 rest 1 with
      | none =>
          rw [hk] at h
          cases h
      | some k =>
          rw [hk] at h
          cases k with
          | none => cases h
          | some k =>
              dsimp only at h
              split at h
              · cases h
                exact hlen hk
              split at h
              · split at h
                · cases h
                · cases h
                  exact hlen hk
              · split at h
                · cases h
                · cases h
                · cases h
                  exact hlen hk

/-! ## Scripts -/

section Loop

variable {σ ρ : Type} (P : ScriptParser σ ρ)

/-- `while(scriptSize != 0)`: the lengths of the lines that are stepped over, and whether a line is
rejected behind them; `none` when a byte behind the script is read. -/
def scanLoop (s : σ) (script : List UInt8) : Option (List Nat × Bool) :=
  if _hnil : script = [] then some ([], false)
  else
    match _hscan : scanLine script with
    | .pastEnd => none
    | .bad => some ([], true)
    | .line l n =>
      match P.line s l with
      | none => some ([], true)
      | some s' => (scanLoop s' (script.drop n)).map fun r => (n :: r.1, r.2)
termination_by script.length
decreasing_by
  have hn := (scanLine_le _hscan).1
  have hlen := List.length_pos_of_ne_nil _hnil
  rw [List.length_drop]
  omega

/-- The parser ends without a byte behind the script being read. It steps over no more than the
script, and over all of it if no line is rejected. -/
def ConsumesExactly (s : σ) (script : List UInt8) : Prop :=
  ∃ lens rejected, scanLoop P s script = some (lens, rejected) ∧ lens.sum ≤ script.length ∧
    (rejected = false → lens.sum = script.length)

/-- More than 512 bytes without a line feed. -/
def Overlong (script : List UInt8) : Prop :=
  512 < script.length ∧ 10 ∉ (script.drop 1).take 511

/-- There is a bracket, or there are enough bytes for the longest name. -/
def SectionEnds (script : List UInt8) : Prop :=
  93 ∈ (script.drop 1).take 33 ∨ 34 ≤ script.length

/-- There is an equals sign, and a carriage return or too many characters behind it. -/
def ParamEnds (script : List UInt8) : Prop :=
  ∃ name rest, script = name ++ 61 :: rest ∧ 61 ∉ name ∧
    (13 ∈ rest ∨ 127 ≤ (rest.flatMap unlessBlank).length)

/-- A line whose end is found in the script. -/
structure LineFits (script : List UInt8) : Prop where
  two : 2 ≤ script.length
  sect : ¬ Overlong script → script.head? = some 91 → SectionEnds script
  param : ¬ Overlong script → script.head? ≠ some 59 → script.head? ≠ some 13 →
    script.head? ≠ some 91 → ParamEnds script

/-- At every line, to the end of the script or to a line that is rejected, what is looked for is
found. -/
inductive ScriptFits : σ → List UInt8 → Prop
  | done (s : σ) : ScriptFits s []
  | line {s : σ} {script : List UInt8} (hfits : LineFits script)
      (hrest : ∀ l n s', scanLine script = .line l n → P.line s l = some s' →
        ScriptFits s' (script.drop n)) : ScriptFits s script

end Loop

/-! ## What is looked for -/

theorem lineLenScan_pastEnd {size left n : Nat} {rest : List UInt8}
    (hsize : size + 1 = n + rest.length) (hne : rest ≠ []) : lineLenScan size left rest n ≠ none := by
  induction left generalizing rest n with
  | zero =>
      cases rest with
      | nil => exact absurd rfl hne
      | cons c rest => exact Option.some_ne_none _
  | succ left ih =>
      cases rest with
      | nil => exact absurd rfl hne
      | cons c rest =>
          rw [lineLenScan]
          split
          · rename_i h
            rw [List.length_cons] at hsize
            exact ih (by omega) (List.ne_nil_of_length_pos (by omega))
          · exact Option.some_ne_none _

/-- The line is too long if there is no line feed as far as is looked. -/
theorem lineLenScan_bad {size left n : Nat} {rest : List UInt8}
    (hsize : size + 1 = n + rest.length) :
    lineLenScan size left rest n = some none ↔ left < rest.length ∧ 10 ∉ rest.take left := by
  induction left generalizing rest n with
  | zero =>
      cases rest with
      | nil => simp [lineLenScan]
      | cons c rest => simp [lineLenScan]
  | succ left ih =>
      cases rest with
      | nil => simp [lineLenScan]
      | cons c rest =>
          rw [List.length_cons] at hsize
          rw [lineLenScan, List.length_cons, List.take_succ_cons, List.mem_cons]
          by_cases hc : c = 10
          · rw [if_neg fun h => h.1 hc]
            refine iff_of_false nofun fun h => h.2 (.inl hc.symm)
          · by_cases hn : n < size
            · rw [if_pos ⟨hc, hn⟩, ih (by omega), Nat.add_lt_add_iff_right, not_or]
              exact ⟨fun h => ⟨h.1, Ne.symm hc, h.2⟩, fun h => ⟨h.1, h.2.2⟩⟩
            · rw [if_neg fun h => hn h.2]
              refine iff_of_false nofun fun h => ?_
              omega

theorem sectionNameScan_iff {left : Nat} {rest : List UInt8} :
    sectionNameScan left rest ≠ none ↔ 93 ∈ rest.take (left + 2) ∨ left + 2 ≤ rest.length := by
  induction left generalizing rest with
  | zero =>
      cases rest with
      | nil => simp [sectionNameScan]
      | cons c rest =>
          cases rest with
          | nil => by_cases hc : c = 93 <;> simp [sectionNameScan, hc, eq_comm]
          | cons d rest => simp [sectionNameScan]
  | succ left ih =>
      cases rest with
      | nil => simp [sectionNameScan]
      | cons c rest =>
          rw [sectionNameScan, show left + 1 + 2 = left + 2 + 1 from rfl, List.take_succ_cons,
            List.mem_cons, List.length_cons, Nat.add_le_add_iff_right]
          by_cases hc : c = 93
          · rw [if_pos hc]
            exact iff_of_true (Option.some_ne_none _) (.inl (.inl hc.symm))
          · rw [if_neg hc, Ne, Option.map_eq_none_iff, ← Ne, ih, or_iff_right (Ne.symm hc)]

/-- The name ends where an equals sign is found. -/
theorem paramNameScan_equals {script : List UInt8} {n : Nat} :
    (paramNameScan script n >>= fun p => findEqualsScan p.2) = findEqualsScan script := by
  induction script generalizing n with
  | nil => rfl
  | cons c rest ih =>
      rw [paramNameScan]
      by_cases hc : c = 61
      · rw [if_pos hc]
        rfl
      · rw [if_neg hc]
        have hskip : findEqualsScan (c :: rest) = findEqualsScan rest := if_neg hc
        split
        · exact hskip.symm
        · rw [hskip, ← ih (n := n + (unlessBlank c).length)]
          cases paramNameScan rest (n + (unlessBlank c).length) <;> rfl

theorem findEqualsScan_iff {script rest : List UInt8} : findEqualsScan script = some rest ↔
    ∃ name, script = name ++ 61 :: rest ∧ 61 ∉ name := by
  induction script with
  | nil => simp [findEqualsScan]
  | cons c script ih =>
      rw [findEqualsScan]
      by_cases hc : c = 61
      · rw [if_pos hc]
        constructor
        · rintro ⟨⟩
          exact ⟨[], by rw [hc]; rfl, List.not_mem_nil⟩
        · rintro ⟨name, hname, hno⟩
          cases name with
          | nil => exact congrArg some (List.cons.inj hname).2
          | cons d name =>
              obtain ⟨rfl, -⟩ := List.cons.inj hname
              exact absurd (hc ▸ List.mem_cons_self ..) hno
      · rw [if_neg hc, ih]
        constructor
        · rintro ⟨name, rfl, hno⟩
          exact ⟨c :: name, rfl, by simp [hno, Ne.symm hc]⟩
        · rintro ⟨name, hname, hno⟩
          cases name with
          | nil => exact absurd (List.cons.inj hname).1 hc
          | cons d name =>
              obtain ⟨-, hrest⟩ := List.cons.inj hname
              exact ⟨name, hrest, fun h => hno (List.mem_cons_of_mem _ h)⟩

theorem paramValScan_iff {rest : List UInt8} {n : Nat} (hn : n < 127) :
    paramValScan rest n ≠ none ↔ 13 ∈ rest ∨ 127 ≤ n + (rest.flatMap unlessBlank).length := by
  induction rest generalizing n with
  | nil => simp [paramValScan]; omega
  | cons c rest ih =>
      rw [paramValScan, List.mem_cons, List.flatMap_cons, List.length_append]
      by_cases hc : c = 13
      · rw [if_pos hc]
        exact iff_of_true (Option.some_ne_none _) (.inl (.inl hc.symm))
      · rw [if_neg hc, or_iff_right (Ne.symm hc)]
        split
        · exact iff_of_true (Option.some_ne_none _) (.inr (by omega))
        · rw [Ne, Option.map_eq_none_iff, ← Ne, ih (by omega), Nat.add_assoc]

theorem getParamScan_iff {script : List UInt8} : getParamScan script ≠ none ↔ ParamEnds script := by
  have hequals := @paramNameScan_equals script 0
  unfold getParamScan ParamEnds
  cases hname : paramNameScan script 0 with
  | none =>
      rw [hname] at hequals
      refine iff_of_false (fun h => h rfl) ?_
      rintro ⟨name, rest, hscript, hno, -⟩
      rw [findEqualsScan_iff.mpr ⟨name, hscript, hno⟩] at hequals
      cases hequals
  | some p =>
      rw [hname] at hequals
      replace hequals : findEqualsScan p.2 = findEqualsScan script := hequals
      show (findEqualsScan p.2 >>= _) ≠ none ↔ _
      rw [hequals]
      cases hfind : findEqualsScan script with
      | none =>
          refine iff_of_false (fun h => h rfl) ?_
          rintro ⟨name, rest, hscript, hno, -⟩
          rw [findEqualsScan_iff.mpr ⟨name, hscript, hno⟩] at hfind
          cases hfind
      | some rest =>
          have hval := @paramValScan_iff rest 0 (by decide)
          rw [Nat.zero_add] at hval
          obtain ⟨name, hscript, hno⟩ := findEqualsScan_iff.mp hfind
          have hends : (∃ name rest, script = name ++ 61 :: rest ∧ 61 ∉ name ∧
              (13 ∈ rest ∨ 127 ≤ (rest.flatMap unlessBlank).length)) ↔
              (13 ∈ rest ∨ 127 ≤ (rest.flatMap unlessBlank).length) := by
            constructor
            · rintro ⟨name', rest', hscript', hno', h⟩
              cases hfind.symm.trans (findEqualsScan_iff.mpr ⟨name', hscript', hno'⟩)
              exact h
            · exact fun h => ⟨name, rest, hscript, hno, h⟩
          rw [hends, ← hval]
          show (paramValScan rest 0 >>= _) ≠ none ↔ _
          cases paramValScan rest 0 with
          | none => exact iff_of_false (fun h => h rfl) fun h => h rfl
          | some v => exact iff_of_true (Option.some_ne_none _) (Option.some_ne_none _)

theorem overlong_iff {c : UInt8} {rest : List UInt8} :
    lineLenScan rest.length 511 rest 1 = some none ↔ Overlong (c :: rest) := by
  rw [lineLenScan_bad (Nat.add_comm _ _), Overlong, List.length_cons, List.drop_succ_cons,
    List.drop_zero]
  exact and_congr_left' Nat.succ_lt_succ_iff.symm

/-- A line is read within the script exactly if what is looked for is found. -/
theorem scanLine_iff {script : List UInt8} (hne : script ≠ []) :
    scanLine script ≠ .pastEnd ↔ LineFits script := by
  obtain ⟨c, rest, rfl⟩ := List.exists_cons_of_ne_nil hne
  have hhead (x : UInt8) : (c :: rest).head? = some x ↔ c = x :=
    ⟨fun h => Option.some.inj h, congrArg some⟩
  have hsect : sectionNameScan 31 rest ≠ none ↔ SectionEnds (c :: rest) := by
    rw [sectionNameScan_iff, SectionEnds, List.length_cons, List.drop_succ_cons, List.drop_zero]
    exact or_congr Iff.rfl Nat.succ_le_succ_iff.symm
  rw [scanLine]
  cases hlen : lineLenScan rest.length 511 rest 1 with
  | none =>
      refine iff_of_false (fun h => h rfl) fun h => ?_
      refine lineLenScan_pastEnd (Nat.add_comm _ _) (fun hrest => ?_) hlen
      have htwo := h.two
      rw [hrest] at htwo
      exact absurd htwo (show ¬ 2 ≤ 1 by decide)
  | some k =>
      have htwo : 2 ≤ (c :: rest).length := by
        cases rest with
        | nil => cases hlen
        | cons d rest => exact Nat.succ_le_succ (Nat.succ_le_succ (Nat.zero_le _))
      cases k with
      | none =>
          have hlong : Overlong (c :: rest) := overlong_iff.mp hlen
          exact iff_of_true nofun ⟨htwo, fun h => absurd hlong h, fun h => absurd hlong h⟩
      | some k =>
          have hshort : ¬ Overlong (c :: rest) := fun h => by
            rw [overlong_iff.mpr h] at hlen
            cases hlen
          dsimp only
          split
          · rename_i hc
            refine iff_of_true nofun ⟨htwo, fun _ h => ?_, fun _ h59 h13 => ?_⟩
            · rw [hhead] at h
              rcases hc with hc | hc <;> rw [h] at hc <;> exact absurd hc (by decide)
            · rw [Ne, hhead] at h59 h13
              exact absurd hc (not_or.mpr ⟨h59, h13⟩)
          · rename_i hcomment
            split
            · rename_i hc
              have hiff : LineFits (c :: rest) ↔ SectionEnds (c :: rest) := by
                refine ⟨fun h => h.sect hshort ((hhead _).mpr hc), ?_⟩
                refine fun h => ⟨htwo, fun _ _ => h, ?_⟩
                exact fun _ _ _ h91 => absurd ((hhead _).mpr hc) h91
              rw [hiff, ← hsect]
              cases sectionNameScan 31 rest with
              | none => exact iff_of_false (fun h => h rfl) fun h => h rfl
              | some name => exact iff_of_true nofun nofun
            · rename_i hc
              have hiff : LineFits (c :: rest) ↔ ParamEnds (c :: rest) := by
                obtain ⟨h59, h13⟩ := not_or.mp hcomment
                refine ⟨fun h => h.param hshort ?_ ?_ ?_, fun h => ⟨htwo, ?_, fun _ _ _ _ => h⟩⟩
                · exact fun h => h59 ((hhead _).mp h)
                · exact fun h => h13 ((hhead _).mp h)
                · exact fun h => hc ((hhead _).mp h)
                · exact fun _ h => absurd ((hhead _).mp h) hc
              rw [hiff, ← getParamScan_iff]
              cases getParamScan (c :: rest) with
              | none => exact iff_of_false (fun h => h rfl) fun h => h rfl
              | some p => cases p <;> exact iff_of_true nofun nofun

/-! ## From memory -/

/-- The script lies in memory at this place. -/
def ScriptHolds (mem : Nat → UInt8) (pos : Nat) (script : List UInt8) : Prop :=
  ∀ i (h : i < script.length), mem (pos + i) = script[i]

/-- What is read from memory where a byte behind the script is not. -/
def ScanLine.toRead : ScanLine → ReadLine
  | .line l n => .line l n
  | .bad => .bad
  | .pastEnd => .endless

section Memory

variable {mem : Nat → UInt8} {pos : Nat} {c : UInt8} {script rest : List UInt8}

theorem ScriptHolds.head (h : ScriptHolds mem pos (c :: rest)) : mem pos = c :=
  h 0 (Nat.succ_pos _)

theorem ScriptHolds.tail (h : ScriptHolds mem pos (c :: rest)) :
    ScriptHolds mem (pos + 1) rest := by
  intro i hi
  rw [Nat.add_assoc, Nat.add_comm 1 i]
  exact h (i + 1) (Nat.succ_lt_succ hi)

theorem ScriptHolds.drop (h : ScriptHolds mem pos script) (n : Nat) :
    ScriptHolds mem (pos + n) (script.drop n) := by
  intro i hi
  rw [List.length_drop] at hi
  rw [List.getElem_drop, Nat.add_assoc]
  exact h (n + i) (by omega)

theorem lineLenScan_mem {size left n : Nat} {r : Option Nat} (hmem : ScriptHolds mem (pos + n) rest)
    (h : lineLenScan size left rest n = some r) : scriptLineLoop mem pos size left n = r := by
  induction left generalizing rest n with
  | zero =>
      cases rest with
      | nil => cases h
      | cons c rest =>
          cases h
          rfl
  | succ left ih =>
      cases rest with
      | nil => cases h
      | cons c rest =>
          rw [lineLenScan] at h
          rw [scriptLineLoop, hmem.head]
          split at h
          · rename_i hc
            rw [if_pos ⟨hc.1, Int.ofNat_lt.mpr hc.2⟩]
            exact ih hmem.tail h
          · rename_i hc
            rw [if_neg fun h => hc ⟨h.1, Int.ofNat_lt.mp h.2⟩]
            exact Option.some.inj h

theorem sectionNameScan_mem {left : Nat} {r : List UInt8} (hmem : ScriptHolds mem pos rest)
    (h : sectionNameScan left rest = some r) : sectionNameLoop mem left pos = r := by
  induction left generalizing pos rest r with
  | zero =>
      cases rest with
      | nil => cases h
      | cons c rest =>
          rw [sectionNameScan] at h
          split at h
          · exact Option.some.inj h
          · cases h
  | succ left ih =>
      cases rest with
      | nil => cases h
      | cons c rest =>
          rw [sectionNameScan] at h
          rw [sectionNameLoop, hmem.head]
          split at h
          · rename_i hc
            rw [if_pos hc]
            exact Option.some.inj h
          · rename_i hc
            obtain ⟨r', hr, rfl⟩ := Option.map_eq_some_iff.mp h
            rw [if_neg hc, ih hmem.tail hr]

theorem paramNameScan_mem {fuel n : Nat} {p : List UInt8 × List UInt8}
    (hmem : ScriptHolds mem pos script) (hfuel : script.length ≤ fuel) (h : paramNameScan script n = some p) :
    ∃ e, paramNameLoop mem fuel pos n = some (p.1, e) ∧ ScriptHolds mem e p.2 := by
  induction script generalizing fuel pos n p with
  | nil => cases h
  | cons c rest ih =>
      obtain ⟨k, rfl⟩ : ∃ k, fuel = k + 1 :=
        ⟨fuel - 1, by rw [List.length_cons] at hfuel; omega⟩
      rw [paramNameScan] at h
      rw [paramNameLoop, hmem.head]
      dsimp only
      split at h
      · rename_i hc
        cases h
        exact ⟨pos, if_pos hc, hmem⟩
      · rename_i hc
        rw [if_neg hc]
        split at h
        · rename_i hlen
          cases h
          exact ⟨pos + 1, if_pos hlen, hmem.tail⟩
        · rename_i hlen
          obtain ⟨q, hq, rfl⟩ := Option.map_eq_some_iff.mp h
          obtain ⟨e, hloop, he⟩ := ih hmem.tail (Nat.le_of_succ_le_succ hfuel) hq
          refine ⟨e, ?_, he⟩
          rw [if_neg hlen, hloop]
          rfl

theorem findEqualsScan_mem {fuel : Nat} (hmem : ScriptHolds mem pos script)
    (hfuel : script.length ≤ fuel) (h : findEqualsScan script = some rest) :
    ∃ e, findEquals mem fuel pos = some e ∧ ScriptHolds mem (e + 1) rest := by
  induction script generalizing fuel pos with
  | nil => cases h
  | cons c script ih =>
      obtain ⟨k, rfl⟩ : ∃ k, fuel = k + 1 :=
        ⟨fuel - 1, by rw [List.length_cons] at hfuel; omega⟩
      rw [findEqualsScan] at h
      rw [findEquals, hmem.head]
      split at h
      · rename_i hc
        cases h
        exact ⟨pos, if_pos hc, hmem.tail⟩
      · rename_i hc
        rw [if_neg hc]
        exact ih hmem.tail (Nat.le_of_succ_le_succ hfuel) h

theorem paramValScan_mem {fuel n : Nat} {r : Option (List UInt8)} (hmem : ScriptHolds mem pos rest)
    (hfuel : rest.length ≤ fuel) (h : paramValScan rest n = some r) :
    paramValLoop mem fuel pos n = some r := by
  induction rest generalizing fuel pos n r with
  | nil => cases h
  | cons c rest ih =>
      obtain ⟨k, rfl⟩ : ∃ k, fuel = k + 1 :=
        ⟨fuel - 1, by rw [List.length_cons] at hfuel; omega⟩
      rw [paramValScan] at h
      rw [paramValLoop, hmem.head]
      dsimp only
      split at h
      · rename_i hc
        rw [if_pos hc]
        exact h
      · rename_i hc
        rw [if_neg hc]
        split at h
        · rename_i hlen
          rw [if_pos hlen]
          exact h
        · rename_i hlen
          obtain ⟨q, hq, rfl⟩ := Option.map_eq_some_iff.mp h
          rw [if_neg hlen, ih hmem.tail (Nat.le_of_succ_le_succ hfuel) hq]
          rfl

/-- What is left is no longer. -/
theorem paramNameScan_length {n : Nat} {p : List UInt8 × List UInt8}
    (h : paramNameScan script n = some p) : p.2.length ≤ script.length := by
  induction script generalizing n p with
  | nil => cases h
  | cons c rest ih =>
      rw [paramNameScan] at h
      split at h
      · cases h
        exact Nat.le_refl _
      split at h
      · cases h
        exact Nat.le_succ _
      · obtain ⟨q, hq, rfl⟩ := Option.map_eq_some_iff.mp h
        have hle := ih hq
        exact Nat.le_succ_of_le hle

theorem getParamScan_mem {fuel : Nat} {r : Option (List UInt8 × List UInt8)}
    (hmem : ScriptHolds mem pos script) (hfuel : script.length ≤ fuel)
    (h : getParamScan script = some r) : getParam mem fuel pos = some r := by
  unfold getParamScan at h
  obtain ⟨⟨name, rest⟩, hname, h⟩ := Option.bind_eq_some_iff.mp h
  obtain ⟨rest', hequals, h⟩ := Option.bind_eq_some_iff.mp h
  obtain ⟨v, hval, h⟩ := Option.bind_eq_some_iff.mp h
  have hrest : rest.length ≤ script.length := paramNameScan_length hname
  have hrest' : rest'.length ≤ rest.length := by
    obtain ⟨name', rfl, -⟩ := findEqualsScan_iff.mp hequals
    rw [List.length_append, List.length_cons]
    omega
  obtain ⟨e, hloop, he⟩ := paramNameScan_mem hmem hfuel hname
  obtain ⟨e', hloop', he'⟩ := findEqualsScan_mem he (show rest.length ≤ fuel by omega) hequals
  unfold getParam
  rw [hloop]
  show (findEquals mem fuel e >>= _) = _
  rw [hloop']
  show (paramValLoop mem fuel (e' + 1) 0 >>= _) = _
  rw [paramValScan_mem he' (by omega) hval]
  exact h

/-- What is read within the script is what the parsers read. -/
theorem scanLine_readLine (hmem : ScriptHolds mem pos script) (hscan : scanLine script ≠ .pastEnd) :
    readLine mem script.length pos script.length = (scanLine script).toRead := by
  cases script with
  | nil => exact absurd rfl hscan
  | cons c rest =>
      have hsize : ((c :: rest).length : Int) - 1 = rest.length := by
        rw [List.length_cons]
        omega
      rw [scanLine] at hscan ⊢
      rw [readLine, getScriptLine, hsize]
      cases hlen : lineLenScan rest.length 511 rest 1 with
      | none =>
          rw [hlen] at hscan
          exact absurd rfl hscan
      | some k =>
          rw [hlen] at hscan
          rw [lineLenScan_mem hmem.tail hlen, hmem.head]
          cases k with
          | none => rfl
          | some k =>
              dsimp only at hscan ⊢
              by_cases hcomment : c = 59 ∨ c = 13
              · simp only [if_pos hcomment]
                rfl
              simp only [if_neg hcomment] at hscan ⊢
              by_cases hc : c = 91
              · simp only [if_pos hc] at hscan ⊢
                cases hname : sectionNameScan 31 rest with
                | none =>
                    rw [hname] at hscan
                    exact absurd rfl hscan
                | some name =>
                    rw [getSectionName, sectionNameScan_mem hmem.tail hname]
                    rfl
              · simp only [if_neg hc] at hscan ⊢
                cases hparam : getParamScan (c :: rest) with
                | none =>
                    rw [hparam] at hscan
                    exact absurd rfl hscan
                | some p =>
                    rw [getParamScan_mem hmem (Nat.le_refl _) hparam]
                    cases p <;> rfl

theorem scanLine_reads (hmem : ScriptHolds mem pos script) (hscan : scanLine script ≠ .pastEnd) :
    ReadsLine mem pos script.length (scanLine script).toRead := by
  refine ⟨fun h => hscan ?_, script.length, scanLine_readLine hmem hscan⟩
  cases hline : scanLine script with
  | pastEnd => rfl
  | bad =>
      rw [hline] at h
      cases h
  | line l n =>
      rw [hline] at h
      cases h

end Memory

/-! ## Both parsers -/

section Loop

variable {σ ρ : Type} {P : ScriptParser σ ρ}

/-- One round. -/
theorem scanLoop_eq {s : σ} {script : List UInt8} (hne : script ≠ []) : scanLoop P s script =
    match scanLine script with
    | .pastEnd => none
    | .bad => some ([], true)
    | .line l n =>
      match P.line s l with
      | none => some ([], true)
      | some s' => (scanLoop P s' (script.drop n)).map fun r => (n :: r.1, r.2) := by
  rw [scanLoop, dif_neg hne]
  cases scanLine script <;> rfl

/-- The lengths are those of the script, at most. -/
theorem scanLoop_sum {s : σ} {script : List UInt8} {lens : List Nat} {rejected : Bool}
    (h : scanLoop P s script = some (lens, rejected)) : lens.sum ≤ script.length ∧
      (rejected = false → lens.sum = script.length) := by
  by_cases hne : script = []
  · rw [scanLoop, dif_pos hne] at h
    cases h
    rw [hne]
    exact ⟨Nat.le_refl _, fun _ => rfl⟩
  rw [scanLoop_eq hne] at h
  cases hscan : scanLine script with
  | pastEnd =>
      rw [hscan] at h
      cases h
  | bad =>
      rw [hscan] at h
      cases h
      exact ⟨Nat.zero_le _, nofun⟩
  | line l n =>
      rw [hscan] at h
      obtain ⟨htwo, hn⟩ := scanLine_le hscan
      cases hline : P.line s l with
      | none =>
          dsimp only at h
          rw [hline] at h
          cases h
          exact ⟨Nat.zero_le _, nofun⟩
      | some s' =>
          dsimp only at h
          rw [hline] at h
          obtain ⟨r, hr, hrest⟩ := Option.map_eq_some_iff.mp h
          cases hrest
          obtain ⟨hle, heq⟩ := scanLoop_sum hr
          rw [List.length_drop] at hle heq
          rw [List.sum_cons]
          exact ⟨by omega, fun hrej => by rw [heq hrej]; omega⟩
termination_by script.length
decreasing_by
  rw [List.length_drop]
  omega

theorem ConsumesExactly.of_some {s : σ} {script : List UInt8} {r : List Nat × Bool}
    (h : scanLoop P s script = some r) : ConsumesExactly P s script :=
  ⟨r.1, r.2, h, scanLoop_sum h⟩

/-- Within the script: at every line, what is looked for is found. -/
theorem consumes_iff {s : σ} {script : List UInt8} :
    ConsumesExactly P s script ↔ ScriptFits P s script := by
  constructor
  · rintro ⟨lens, rejected, h, -⟩
    induction hlen : script.length using Nat.strong_induction_on generalizing s script lens with
    | _ len ih =>
        by_cases hne : script = []
        · rw [hne]
          exact .done s
        rw [scanLoop_eq hne] at h
        refine .line ((scanLine_iff hne).mp fun hpast => ?_) fun l n s' hscan hline => ?_
        · rw [hpast] at h
          cases h
        · rw [hscan] at h
          dsimp only at h
          rw [hline] at h
          obtain ⟨r, hr, hrest⟩ := Option.map_eq_some_iff.mp h
          cases hrest
          obtain ⟨htwo, hn⟩ := scanLine_le hscan
          exact ih (script.drop n).length (by rw [List.length_drop]; omega) _ hr rfl
  · intro h
    induction h with
    | done s => exact .of_some (by rw [scanLoop, dif_pos rfl])
    | @line s script hfits hrest ih =>
        have hne : script ≠ [] := List.ne_nil_of_length_pos (by have := hfits.two; omega)
        have hscan := (scanLine_iff hne).mpr hfits
        have hround := @scanLoop_eq _ _ P s script hne
        cases hline : scanLine script with
        | pastEnd => exact absurd hline hscan
        | bad =>
            rw [hline] at hround
            exact .of_some hround
        | line l n =>
            rw [hline] at hround
            dsimp only at hround
            cases hl : P.line s l with
            | none =>
                rw [hl] at hround
                exact .of_some hround
            | some s' =>
                rw [hl] at hround
                obtain ⟨lens, rejected, hr, -⟩ := ih l n s' hline hl
                dsimp only at hround
                rw [hr] at hround
                exact .of_some hround

/-- A parser that stays within the script returns, whatever lies in memory behind it. -/
theorem ConsumesExactly.returns {mem : Nat → UInt8} {s : σ} {script : List UInt8}
    (h : ConsumesExactly P s script) : ∀ {pos : Nat}, ScriptHolds mem pos script →
      ∃ v b, ParserReturns P mem ⟨pos, script.length, s⟩ v b := by
  have hrun : ∀ {pos : Nat}, ScriptHolds mem pos script →
      ∃ ls c', Steps P mem ⟨pos, script.length, s⟩ ls c' ∧ ∃ v b, StopsWith P mem c' v b := by
    replace h := consumes_iff.mp h
    induction h with
    | done s =>
        intro pos _
        exact ⟨[], _, .refl _, _, _, .whole rfl⟩
    | @line s script hfits hrest ih =>
        intro pos hmem
        have hne : script ≠ [] := List.ne_nil_of_length_pos (by have := hfits.two; omega)
        have hsize : (script.length : Int) ≠ 0 :=
          Int.natCast_ne_zero.mpr fun h => hne (List.length_eq_zero_iff.mp h)
        have hscan := (scanLine_iff hne).mpr hfits
        have hread := scanLine_reads hmem hscan
        cases hline : scanLine script with
        | pastEnd => exact absurd hline hscan
        | bad =>
            rw [hline] at hread
            exact ⟨[], _, .refl _, _, _, .bad ⟨hsize, hread⟩⟩
        | line l n =>
            rw [hline] at hread
            cases hl : P.line s l with
            | none => exact ⟨[], _, .refl _, _, _, .rejected ⟨hsize, l, n, hread, hl⟩⟩
            | some s' =>
                obtain ⟨ls, c', hsteps, hstops⟩ := ih l n s' hline hl (hmem.drop n)
                have hn := (scanLine_le hline).2
                rw [List.length_drop, Int.ofNat_sub hn] at hsteps
                exact ⟨l :: ls, c', .step hsize hread hl hsteps, hstops⟩
  intro pos hmem
  obtain ⟨ls, c', hsteps, v, b, hstops⟩ := hrun hmem
  exact ⟨v, b, returns_iff.mpr ⟨ls, c', hsteps, hstops⟩⟩

end Loop

/-- For every script, and whatever the parsers' variables hold before: both parsers end without
reading behind the script, and step over it, exactly if at every line up to one that is rejected
what is looked for is found in the script. -/
theorem parsers_consume_iff (script : List UInt8) :
    (∀ top sect adjust sp8 img,
      ConsumesExactly (osImgParser top) (.start sect adjust sp8 img) script ↔
      ScriptFits (osImgParser top) (.start sect adjust sp8 img) script) ∧
    ∀ sign, ConsumesExactly osSelParser (.start sign) script ↔
      ScriptFits osSelParser (.start sign) script :=
  ⟨fun _ _ _ _ _ => consumes_iff, fun _ => consumes_iff⟩

/-- A script of one byte, and one whose value has no carriage return behind it. -/
theorem oneByte_readsPast : ¬ ConsumesExactly osSelParser (.start 0) [10] ∧
    ¬ ConsumesExactly osSelParser (.start 0) (text "a=1\n") := by
  constructor
  · rw [consumes_iff]
    intro h
    cases h with
    | line hfits _ => exact absurd hfits.two (by decide)
  · rintro ⟨lens, rejected, h, -⟩
    rw [scanLoop_eq (by decide)] at h
    cases h

end Novo7
