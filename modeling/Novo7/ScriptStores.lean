import Novo7.ImgStores
import Novo7.ScriptErrors

/-!
# What the script parsers store

Behind the settings of the boot menu, `parser_script_os_sel` fills the names of the pictures of each
system. Here its stores are counted by field; `OsSel.line_tail` says that they are those that the
settings come from. `parsers_store_iff` is about both parsers, and says for which scripts all stores
are inside their fields.
-/

namespace Novo7

open CString

/-! ## Stores of the settings -/

/-- The fields of `struct BootIni`. -/
inductive SelField where
  | osCount
  | osName (curOS : Nat)
  | startOSName
  | startOSNum
  | timeout
  | displayDevice
  | displayMode
  | fname (curOS : Int) (var8 : Nat)
  | filecount (curOS : Int)

def SelField.size : SelField → Nat
  | .osName _ | .startOSName | .fname _ _ => 32
  | _ => 4

def SelField.InRange : SelField → Prop
  | .osName curOS => curOS < 8
  | .fname curOS var8 => (0 ≤ curOS ∧ curOS < 8) ∧ var8 < 4
  | .filecount curOS => 0 ≤ curOS ∧ curOS < 8
  | _ => True

/-- Where a field is, from `startOSName` on, if the menu uses it. -/
def SelField.tailPos : SelField → Option Nat
  | .startOSName => some 0
  | .startOSNum => some 32
  | .timeout => some 36
  | .displayDevice => some 40
  | .displayMode => some 44
  | _ => none

/-- A store: as many bytes, to the beginning of a field. -/
structure SelPut where
  field : SelField
  bytes : Nat

def SelPut.Inside (p : SelPut) : Prop := p.bytes ≤ p.field.size ∧ p.field.InRange

def OsSel.curOS (s : OsSel) : Int := s.osNames.length - 1

/-- `sp4` in round `var8`: its digit is counted up. -/
def osShow (var8 : Nat) : List UInt8 := text "os_show[" ++ [UInt8.ofNat (48 + var8), 93]

/-- How many bytes of a value are copied. -/
def copySize (val : List UInt8) (v : ParamVal) : Nat := strncpySize val (v.word * 4 % 2 ^ 32)

def OsSel.paramPuts (s : OsSel) (name val : List UInt8) (v : ParamVal) : List SelPut :=
  if s.isSystemSect = some true then
    if name = text "start_os_name" then [⟨.startOSName, copySize val v⟩]
    else if name = text "timeout" then [⟨.timeout, 4⟩]
    else if name = text "display_device" then [⟨.displayDevice, 4⟩]
    else if name = text "display_mode" then [⟨.displayMode, 4⟩]
    else []
  else if s.isSystemSect = some false then
    match (List.range 4).find? fun var8 => name == osShow var8 with
    | some var8 => [⟨.fname s.curOS var8, copySize val v⟩, ⟨.filecount s.curOS, 4⟩]
    | none => []
  else []

/-- The stores of a line that is accepted; a section's name is copied with its zero. -/
def OsSel.linePuts (s : OsSel) : ScriptLine → List SelPut
  | .comment => []
  | .sect name =>
    if name = text "system" then [] else [⟨.osName s.osNames.length, name.length + 1⟩]
  | .param name val =>
    match parseParamVal val with
    | some v => s.paramPuts name val v
    | none => []

/-- The stores at the end of the script. -/
def OsSel.lastPuts : List SelPut := [⟨.osCount, 4⟩, ⟨.startOSNum, 4⟩]

/-- A name that is copied to no more than its field. -/
def OsSel.CopyFits (s : OsSel) (name val : List UInt8) : Prop :=
  ∀ v, parseParamVal val = some v →
    (s.isSystemSect = some true → name = text "start_os_name" → copySize val v ≤ 32) ∧
      (s.isSystemSect = some false → (∃ var8 < 4, name = osShow var8) → copySize val v ≤ 32)

/-- A section, of a system or not. -/
def ScriptLine.IsSect : ScriptLine → Prop
  | .sect _ => True
  | _ => False

section Runs

variable (mem : Nat → UInt8) (c : ScriptAt OsSel)

/-- In every run, as far as it goes: all stores are inside, with those at the end, and a parameter
before the first section stores nothing. -/
structure SelStoresRight : Prop where
  inside : ∀ ls c' l n s', Steps osSelParser mem c ls c' → c'.size ≠ 0 →
    ReadsLine mem c'.pos c'.size (.line l n) → c'.s.line l = some s' →
    ∀ p ∈ c'.s.linePuts l, p.Inside
  last : ∀ p ∈ OsSel.lastPuts, p.Inside
  unknown : ∀ ls c' name val, Steps osSelParser mem c ls c' → (∀ l ∈ ls, ¬ l.IsSect) →
    c'.s.linePuts (.param name val) = []

/-- At every parameter that a run gets over, a name fits. -/
def SelStoresWhen : Prop :=
  ∀ ls c' name val n s', Steps osSelParser mem c ls c' → c'.size ≠ 0 →
    ReadsLine mem c'.pos c'.size (.line (.param name val) n) →
    c'.s.line (.param name val) = some s' → c'.s.CopyFits name val

end Runs

/-! ## The settings -/

theorem OsSel.linePuts_param (s : OsSel) (name : List UInt8) {val : List UInt8} {v : ParamVal}
    (hv : parseParamVal val = some v) :
    s.linePuts (.param name val) = s.paramPuts name val v := by
  simp [OsSel.linePuts, hv]

/-- What a line changes of the settings is in one of its stores. -/
theorem OsSel.line_tail {s s' : OsSel} {l : ScriptLine} (h : s.line l = some s') {i : Nat}
    (hi : s'.tail i ≠ s.tail i) :
    ∃ p ∈ s.linePuts l, ∃ pos, p.field.tailPos = some pos ∧ pos ≤ i ∧ i < pos + p.bytes := by
  cases l with
  | comment =>
      cases h
      exact absurd rfl hi
  | sect name =>
      unfold OsSel.line at h
      dsimp only at h
      split_ifs at h <;> cases h <;> exact absurd rfl hi
  | param name val =>
      obtain ⟨v, hv, rfl⟩ := OsSel.line_param h
      have hstore {pos n : Nat} {bytes : List UInt8}
          (h : store s.tail pos n bytes i ≠ s.tail i) : pos ≤ i ∧ i < pos + n := by
        by_contra hno
        exact h (store_frame _ _ (by omega))
      rw [s.linePuts_param name hv]
      unfold OsSel.paramPuts
      unfold OsSel.param OsSel.setInt at hi
      dsimp only at hi ⊢
      split_ifs at hi ⊢
      · exact ⟨_, List.mem_singleton_self _, _, rfl, hstore hi⟩
      · exact ⟨_, List.mem_singleton_self _, _, rfl, hstore hi⟩
      · exact ⟨_, List.mem_singleton_self _, _, rfl, hstore hi⟩
      · exact ⟨_, List.mem_singleton_self _, _, rfl, hstore hi⟩
      all_goals exact absurd rfl hi

/-! ## Stores inside their fields -/

theorem sectionNameLoop_length (mem : Nat → UInt8) {left : Nat} : ∀ {pos : Nat},
    (sectionNameLoop mem left pos).length ≤ left := by
  induction left with
  | zero => exact Nat.le_refl _
  | succ left ih =>
      intro pos
      rw [sectionNameLoop]
      split
      · exact Nat.zero_le _
      · exact Nat.succ_le_succ ih

/-- The name of a section is shorter than its field. -/
theorem ReadsLine.sect_length {mem : Nat → UInt8} {pos n : Nat} {size : Int} {name : List UInt8}
    (h : ReadsLine mem pos size (.line (.sect name) n)) : name.length ≤ 31 := by
  obtain ⟨-, fuel, h⟩ := h
  unfold readLine at h
  split at h
  · cases h
  · cases h
  · cases h
    unfold getSectionName cstr
    exact (List.takeWhile_sublist _).length_le.trans (sectionNameLoop_length mem)
  · split at h <;> cases h

/-- A parameter's stores are inside, in a section of a system or the system's, if a name fits. -/
theorem OsSel.param_inside {s : OsSel} {name val : List UInt8} {v : ParamVal}
    (hv : parseParamVal val = some v)
    (hcur : s.isSystemSect = some false → 0 ≤ s.curOS ∧ s.curOS < 8) :
    (∀ p ∈ s.paramPuts name val v, p.Inside) ↔ s.CopyFits name val := by
  have hfits : s.CopyFits name val ↔
      (s.isSystemSect = some true → name = text "start_os_name" → copySize val v ≤ 32) ∧
        (s.isSystemSect = some false → (∃ var8 < 4, name = osShow var8) → copySize val v ≤ 32) := by
    constructor
    · exact fun h => h v hv
    · intro h v' hv'
      cases hv.symm.trans hv'
      exact h
  rw [hfits]
  unfold OsSel.paramPuts
  by_cases hsys : s.isSystemSect = some true
  · rw [if_pos hsys]
    have hother : ¬ s.isSystemSect = some false := by
      rw [hsys]
      decide
    by_cases hname : name = text "start_os_name"
    · rw [if_pos hname]
      simp [SelPut.Inside, SelField.size, SelField.InRange, hsys, hname]
    · rw [if_neg hname]
      refine iff_of_true ?_ ⟨fun _ h => absurd h hname, fun h => absurd h hother⟩
      split_ifs <;> simp [SelPut.Inside, SelField.size, SelField.InRange]
  · rw [if_neg hsys]
    by_cases hos : s.isSystemSect = some false
    · rw [if_pos hos]
      cases hfind : (List.range 4).find? fun var8 => name == osShow var8 with
      | none =>
          refine iff_of_true (fun p hp => (List.not_mem_nil hp).elim) ⟨fun h => absurd h hsys, ?_⟩
          rintro - ⟨var8, hlt, hname⟩
          have hno := List.find?_eq_none.mp hfind var8 (List.mem_range.mpr hlt)
          exact absurd (beq_iff_eq.mpr hname) hno
      | some var8 =>
          have hlt := List.mem_range.mp (List.mem_of_find?_eq_some hfind)
          have hname : (name == osShow var8) = true :=
            @List.find?_some _ (fun var8 => name == osShow var8) _ _ hfind
          have hex : ∃ var8 < 4, name = osShow var8 := ⟨var8, hlt, beq_iff_eq.mp hname⟩
          simp [SelPut.Inside, SelField.size, SelField.InRange, hos, hcur hos, hlt, hex]
    · rw [if_neg hos]
      exact iff_of_true (fun p hp => (List.not_mem_nil hp).elim)
        ⟨fun h => absurd h hsys, fun h => absurd h hos⟩

/-- What the lines of a run leave: a system while in its section, eight at most. -/
structure SelHolds (ls : List ScriptLine) (s : OsSel) : Prop where
  current : s.isSystemSect = some false → s.osNames ≠ []
  eight : s.osNames.length ≤ 8
  unknown : (∀ l ∈ ls, ¬ l.IsSect) → s.isSystemSect = none

theorem SelHolds.line {ls : List ScriptLine} {s s' : OsSel} {l : ScriptLine} (h : SelHolds ls s)
    (hline : s.line l = some s') : SelHolds (ls ++ [l]) s' := by
  have hmem {l : ScriptLine} (hls : ∀ l' ∈ ls ++ [l], ¬ l'.IsSect) : ∀ l' ∈ ls, ¬ l'.IsSect :=
    (List.forall_mem_append.mp hls).1
  cases l with
  | comment =>
      cases hline
      exact ⟨h.current, h.eight, fun hls => h.unknown (hmem hls)⟩
  | sect name =>
      have hsect {s' : OsSel} (hls : ∀ l' ∈ ls ++ [.sect name], ¬ l'.IsSect) :
          s'.isSystemSect = none :=
        absurd trivial (hls (.sect name) (List.mem_append_right _ (List.mem_singleton_self _)))
      unfold OsSel.line at hline
      dsimp only at hline
      split_ifs at hline with hname hlt
      · cases hline
        exact ⟨nofun, h.eight, hsect⟩
      · cases hline
        refine ⟨fun _ => List.append_ne_nil_of_right_ne_nil _ (List.cons_ne_nil _ _), ?_, hsect⟩
        rw [List.length_append]
        exact hlt
  | param name val =>
      obtain ⟨v, -, rfl⟩ := OsSel.line_param hline
      obtain ⟨hsys, hnames⟩ := s.param_eq name val v
      constructor
      · rw [hsys, hnames]
        exact h.current
      · rw [hnames]
        exact h.eight
      · rw [hsys]
        exact fun hls => h.unknown (hmem hls)

section Runs

variable {mem : Nat → UInt8} {size sign : Int}

theorem Steps.selHolds {ls : List ScriptLine} {c' : ScriptAt OsSel}
    (h : Steps osSelParser mem ⟨0, size, .start sign⟩ ls c') : SelHolds ls c'.s := by
  refine h.invariant (I := fun ls c' => SelHolds ls c'.s)
    ⟨fun h => absurd (show none = some false from h) nofun, Nat.zero_le _, fun _ => rfl⟩ ?_
  intro ls c' l n s' _ hholds _ _ hline
  exact hholds.line hline

theorem SelHolds.curOS {ls : List ScriptLine} {s : OsSel} (h : SelHolds ls s)
    (hos : s.isSystemSect = some false) : 0 ≤ s.curOS ∧ s.curOS < 8 := by
  have hpos := List.length_pos_of_ne_nil (h.current hos)
  have height := h.eight
  unfold OsSel.curOS
  omega

theorem selStores_iff : SelStoresRight mem ⟨0, size, .start sign⟩ ↔
    SelStoresWhen mem ⟨0, size, .start sign⟩ := by
  constructor
  · intro h ls c' name val n s' hsteps hsize hread hline v hv
    have hinside := h.inside _ _ _ _ _ hsteps hsize hread hline
    rw [c'.s.linePuts_param name hv] at hinside
    exact (OsSel.param_inside hv hsteps.selHolds.curOS).mp hinside v hv
  · intro h
    constructor
    · intro ls c' l n s' hsteps hsize hread hline
      have hholds := hsteps.selHolds
      cases l with
      | comment => exact fun p hp => (List.not_mem_nil hp).elim
      | sect name =>
          unfold OsSel.line at hline
          dsimp only at hline
          unfold OsSel.linePuts
          dsimp only
          split_ifs at hline ⊢ with hname hlt
          · exact fun p hp => (List.not_mem_nil hp).elim
          · intro p hp
            rw [List.mem_singleton.mp hp]
            exact ⟨Nat.succ_le_succ hread.sect_length, hlt⟩
      | param name val =>
          obtain ⟨v, hv, -⟩ := OsSel.line_param hline
          rw [c'.s.linePuts_param name hv]
          exact (OsSel.param_inside hv hholds.curOS).mpr (h _ _ _ _ _ _ hsteps hsize hread hline)
    · simp [OsSel.lastPuts, SelPut.Inside, SelField.size, SelField.InRange]
    · intro ls c' name val hsteps hls
      have hnone := hsteps.selHolds.unknown hls
      unfold OsSel.linePuts
      dsimp only
      cases parseParamVal val with
      | none => rfl
      | some v =>
          dsimp only
          unfold OsSel.paramPuts
          rw [hnone, if_neg nofun, if_neg nofun]

end Runs

/-! ## Both parsers -/

/-- For every script, whatever lies behind it and the variables held before: the stores of each
parser are inside their fields, and none is for a section that was not seen, exactly if the
parameters that it gets over fit. -/
theorem parsers_store_iff (mem : Nat → UInt8) (size : Int) :
    (∀ top sect adjust sp8 script,
      let c : ScriptAt OsImg := ⟨0, size, .start sect adjust sp8 script⟩
      ImgStoresRight top mem c ↔ ImgStoresWhen top mem c) ∧
    ∀ sign, let c : ScriptAt OsSel := ⟨0, size, .start sign⟩
      SelStoresRight mem c ↔ SelStoresWhen mem c :=
  ⟨fun _ _ _ _ _ => imgStores_iff rfl, fun _ => selStores_iff⟩

/-- A file name of 33 characters: 34 bytes are stored into the 32 of the name. -/
theorem longName_overruns :
    (imgRun ["[segment]", "img_name=c:\\linux\\kernel-3.0.8-a10-test.gz"]).map
      (fun r => r.2.puts.map (·.bytes.length)) = some [34, 4] ∧
    ¬ ∀ mem size, ImgStoresRight 0 mem ⟨0, size, .start none false ⟨0, 0, 0⟩ fun _ => 0⟩ := by
  have hsizes : (imgRun ["[segment]", "img_name=c:\\linux\\kernel-3.0.8-a10-test.gz"]).map
      (fun r => r.2.puts.map (·.bytes.length)) = some [34, 4] := by decide +kernel
  refine ⟨hsizes, fun h => ?_⟩
  obtain ⟨r, hr, hputs⟩ := Option.map_eq_some_iff.mp hsizes
  unfold imgRun at hr
  have hinside := (h _ _).result ⟨100, hr⟩
  have hlong : 34 ∈ r.2.puts.map (·.bytes.length) := by
    rw [hputs]
    exact List.mem_cons_self ..
  obtain ⟨p, hp, hlen⟩ := List.mem_map.mp hlong
  have hle := (hinside p hp).1.trans p.field.size_le
  omega

end Novo7
