import Novo7.Partitions

/-!
# The partition of the boot mode

`WriteMiscPart` of the boot loader looks for the entry `misc` in the partition table and puts the
boot mode into the first sector of the partition. It takes the number of entries from the table as
it is, does not look for the magic and takes the low word of the address, where `getPartitionData`
of the host tool checks the first two and takes both words. `writeMiscPart_right_iff` says for which
tables it writes where the host tool would.
-/

namespace Novo7

open Bytes CString

/-! ## The program -/

/-- What is written as the boot mode. -/
inductive BootMode where
  | fastboot
  | recovery
  | normal

def BootMode.val : BootMode → List UInt8
  | fastboot => text "boot-fastboot"
  | recovery => text "boot-recovery"
  | normal => text ""

/-- The bytes of the disk by sector, and what the stack holds behind `mbr`. -/
structure MiscEnv where
  disk : Nat → Nat → UInt8
  stack : Nat → UInt8

/-- The two sectors that are read into `mbr`. -/
def MiscEnv.mbr (env : MiscEnv) : List UInt8 :=
  (List.range 1024).map fun i => env.disk (i / 512) (i % 512)

/-- The memory from `mbr` on. -/
def MiscEnv.mem (env : MiscEnv) (i : Nat) : UInt8 :=
  if i < 1024 then env.disk (i / 512) (i % 512) else env.stack i

section Program

variable (env : MiscEnv)

def MiscEnv.word (off n : Nat) : Nat := leValue ((List.range n).map fun j => env.mem (off + j))

def MiscEnv.partCount : Nat := env.word 18 2

/-- `strcmp("misc", mbr.array[partNo].name) == 0` -/
def MiscEnv.named (partNo : Nat) : Bool := strcmpEq env.mem (20 + 64 * partNo + 28) (text "misc")

def MiscEnv.addrhi (partNo : Nat) : Nat := env.word (20 + 64 * partNo) 4

def MiscEnv.addrlo (partNo : Nat) : Nat := env.word (20 + 64 * partNo + 4) 4

/-- The loop over the entries, with those that are looked at and the one that is found. -/
def miscLoop : Nat → Nat → List Nat × Option Nat
  | 0, _ => ([], none)
  | left + 1, partNo =>
    if env.named partNo then ([partNo], some partNo)
    else (partNo :: (miscLoop left (partNo + 1)).1, (miscLoop left (partNo + 1)).2)

/-- A sector with 32 bytes cleared and the mode in front of them. -/
def withMode (mode : BootMode) (sector : Nat → UInt8) (i : Nat) : UInt8 :=
  if i < 32 then mode.val.getD i 0 else sector i

/-- A run: the entries that are looked at and the sectors that are written. -/
structure MiscRun where
  inspected : List Nat
  written : List (Nat × (Nat → UInt8))

/-- `WriteMiscPart` -/
def writeMiscPart (mode : BootMode) : MiscRun :=
  let r := miscLoop env env.partCount 0
  match r.2 with
  | none => ⟨r.1, []⟩
  | some partNo =>
    let sector := env.disk (env.addrlo partNo)
    if strcmpEq sector 0 mode.val then ⟨r.1, []⟩
    else ⟨r.1, [(env.addrlo partNo, withMode mode sector)]⟩

end Program

/-! ## The right sector -/

/-- The partition that the host tool finds under the name `misc`. -/
def hostMisc (mbr : List UInt8) : Option MbrPartition :=
  match getPartitionData mbr with
  | .ok pdata => pdata.partitions.find? fun p => p.name = text "misc"
  | .error _ => none

/-- Only entries that exist are looked at, and at most one sector is written: the first one of the
partition of the host tool, but for 32 bytes as it was. -/
structure MiscRun.Right (env : MiscEnv) (r : MiscRun) : Prop where
  inspected : ∀ k ∈ r.inspected, k < mbrMaxPartCount
  once : r.written.length ≤ 1
  target : ∀ w ∈ r.written, ∃ p, hostMisc env.mbr = some p ∧ w.1 = p.firstSector
  kept : ∀ w ∈ r.written, ∀ i, 32 ≤ i → w.2 i = env.disk w.1 i

/-- An entry is the first one called `misc`. -/
structure MiscEnv.FirstMisc (env : MiscEnv) (k : Nat) : Prop where
  lt : k < env.partCount
  named : env.named k = true
  first : ∀ j < k, env.named j = false

/-- The table is one of at most 15 entries, or the loop ends before; and where the mode is written,
the table has the magic and at most 15 entries and the address of the entry is one word. -/
structure MiscEnv.TableFits (env : MiscEnv) (mode : BootMode) : Prop where
  count : env.partCount ≤ mbrMaxPartCount ∨ ∃ k < mbrMaxPartCount, env.named k = true
  entry : ∀ k, env.FirstMisc k → strcmpEq (env.disk (env.addrlo k)) 0 mode.val = false →
    (env.mbr.drop 8).take 8 = text "softw311" ∧ env.partCount ≤ mbrMaxPartCount ∧ env.addrhi k = 0

section Loop

variable {env : MiscEnv}

/-- The loop looks at the entries up to the first `misc`. -/
theorem miscLoop_eq : ∀ {left partNo : Nat},
    (∃ k, partNo ≤ k ∧ k < partNo + left ∧ env.named k = true ∧
      (∀ j, partNo ≤ j → j < k → env.named j = false) ∧
      miscLoop env left partNo = (List.range' partNo (k + 1 - partNo), some k)) ∨
    (∀ j, partNo ≤ j → j < partNo + left → env.named j = false) ∧
      miscLoop env left partNo = (List.range' partNo left, none) := by
  intro left
  induction left with
  | zero => exact fun {partNo} => .inr ⟨fun j _ _ => by omega, rfl⟩
  | succ left ih =>
      intro partNo
      rw [miscLoop]
      by_cases hnamed : env.named partNo = true
      · rw [if_pos hnamed]
        refine .inl ⟨partNo, Nat.le_refl _, by omega, hnamed, fun j _ _ => by omega, ?_⟩
        rw [Nat.add_sub_cancel_left]
        rfl
      · rw [if_neg hnamed]
        rw [Bool.not_eq_true] at hnamed
        have hhead (j : Nat) (hj : partNo ≤ j) (h : partNo + 1 ≤ j → env.named j = false) :
            env.named j = false := by
          rcases Nat.eq_or_lt_of_le hj with rfl | hlt
          · exact hnamed
          · exact h hlt
        rcases @ih (partNo + 1) with ⟨k, hk0, hk1, hk, hfirst, heq⟩ | ⟨hnone, heq⟩
        · refine .inl ⟨k, by omega, by omega, hk, fun j hj hlt => hhead j hj fun h => hfirst j h hlt, ?_⟩
          rw [heq, show k + 1 - partNo = (k + 1 - (partNo + 1)) + 1 by omega, List.range'_succ]
        · refine .inr ⟨fun j hj hlt => hhead j hj fun h => hnone j h (by omega), ?_⟩
          rw [heq, List.range'_succ]

end Loop

/-! ## The two readings of the table -/

section Table

variable {env : MiscEnv}

theorem mem_mbr {i : Nat} (hi : i < 1024) :
    env.mem i = env.disk (i / 512) (i % 512) := if_pos hi

theorem mbr_eq : env.mbr = (List.range 1024).map env.mem :=
  List.map_congr_left fun _ hi => (mem_mbr (List.mem_range.mp hi)).symm

-- a list of 1024 bytes is not to be unfolded
attribute [irreducible] MiscEnv.mbr

/-- A word of the table, to the boot loader and to the host tool. -/
theorem field_mbr {off n : Nat} (h : off + n ≤ 1024) : field env.mbr off n = env.word off n := by
  rw [mbr_eq, field, take_drop_map_range _ h]
  rfl

theorem partCount_eq : field env.mbr 18 2 = env.partCount := field_mbr (by decide)

/-- A name of an entry that exists. -/
theorem named_iff {k : Nat} (hk : k < mbrMaxPartCount) :
    env.named k = true ↔ (mbrPartition env.mbr k).name = text "misc" := by
  unfold mbrMaxPartCount at hk
  have hfield : (env.mbr.drop (20 + 64 * k + 28)).take 12 =
      (List.range 12).map fun j => env.mem (20 + 64 * k + 28 + j) := by
    rw [mbr_eq, take_drop_map_range _ (by omega)]
  show _ ↔ ((env.mbr.drop (20 + 64 * k + 28)).take 12).takeWhile (· != 0) = _
  rw [hfield]
  refine strcmpEq_takeWhile env.mem (by decide) ?_ fun j hj => ?_
  · rw [List.length_map, List.length_range]
    decide
  · rw [List.getElem_map, List.getElem_range]

theorem firstSector_eq {k : Nat} (hk : k < mbrMaxPartCount) :
    (mbrPartition env.mbr k).firstSector = env.addrhi k * 2 ^ 32 + env.addrlo k := by
  unfold mbrMaxPartCount at hk
  show field env.mbr (20 + 64 * k) 4 * 2 ^ 32 + field env.mbr (20 + 64 * k + 4) 4 = _
  rw [field_mbr (by omega), field_mbr (by omega)]
  rfl

/-- The host tool finds the first `misc` of a table that it accepts. -/
theorem hostMisc_of_first {k : Nat} (hk : env.FirstMisc k)
    (hmagic : (env.mbr.drop 8).take 8 = text "softw311") (hcount : env.partCount ≤ mbrMaxPartCount) :
    hostMisc env.mbr = some (mbrPartition env.mbr k) := by
  have hdata : getPartitionData env.mbr =
      .ok ⟨field env.mbr 4 4, (List.range env.partCount).map (mbrPartition env.mbr)⟩ := by
    unfold getPartitionData
    rw [if_neg (not_not.mpr hmagic), partCount_eq, if_neg (Nat.not_lt.mpr hcount)]
  rw [hostMisc, hdata]
  dsimp only
  rw [List.find?_map, Option.map_eq_some_iff]
  refine ⟨k, List.find?_range_eq_some.mpr ⟨?_, List.mem_range.mpr hk.lt, fun j hj => ?_⟩, rfl⟩
  · exact decide_eq_true ((named_iff (Nat.lt_of_lt_of_le hk.lt hcount)).mp hk.named)
  · have hnot := hk.first j hj
    have hlt := Nat.lt_of_lt_of_le (Nat.lt_trans hj hk.lt) hcount
    show (!decide ((mbrPartition env.mbr j).name = text "misc")) = true
    rw [Bool.not_eq_true', decide_eq_false_iff_not, ← named_iff hlt, hnot]
    exact Bool.false_ne_true

theorem hostMisc_accepts {p : MbrPartition} (h : hostMisc env.mbr = some p) :
    (env.mbr.drop 8).take 8 = text "softw311" ∧ env.partCount ≤ mbrMaxPartCount := by
  unfold hostMisc getPartitionData at h
  by_cases hmagic : (env.mbr.drop 8).take 8 ≠ text "softw311"
  · rw [if_pos hmagic] at h
    cases h
  · rw [if_neg hmagic, partCount_eq] at h
    by_cases hcount : env.partCount > mbrMaxPartCount
    · rw [if_pos hcount] at h
      cases h
    · exact ⟨not_not.mp hmagic, Nat.not_lt.mp hcount⟩

end Table

/-! ## Where the boot mode goes -/

/-- For every content of the disk and the stack and every mode: the run looks only at entries that
exist and writes at most the first sector of the partition that the host tool finds, and only 32
bytes of it, exactly if the table fits. -/
theorem writeMiscPart_right_iff (env : MiscEnv) (mode : BootMode) :
    (writeMiscPart env mode).Right env ↔ env.TableFits mode := by
  unfold writeMiscPart
  rcases @miscLoop_eq env env.partCount 0 with ⟨k, -, hlt, hnamed, hfirst, heq⟩ | ⟨hnone, heq⟩
  · have hk : env.FirstMisc k := ⟨by omega, hnamed, fun j hj => hfirst j (Nat.zero_le j) hj⟩
    have hunique {k' : Nat} (hk' : env.FirstMisc k') : k' = k := by
      rcases Nat.lt_trichotomy k' k with h | h | h
      · exact absurd (hk.first k' h) (by rw [hk'.named]; exact Bool.noConfusion)
      · exact h
      · exact absurd (hk'.first k h) (by rw [hk.named]; exact Bool.noConfusion)
    have hcount : (∀ j ∈ List.range' 0 (k + 1 - 0), j < mbrMaxPartCount) ↔
        env.partCount ≤ mbrMaxPartCount ∨ ∃ j < mbrMaxPartCount, env.named j = true := by
      constructor
      · intro h
        exact .inr ⟨k, h k (List.mem_range'_1.mpr ⟨Nat.zero_le k, by omega⟩), hnamed⟩
      · rintro h j hj
        have hjk := (List.mem_range'_1.mp hj).2
        rcases h with h | ⟨m, hm, hm'⟩
        · have := hk.lt
          omega
        · have : k ≤ m := by
            by_contra hmk
            rw [hk.first m (by omega)] at hm'
            cases hm'
          omega
    rw [heq]
    dsimp only
    by_cases hsame : strcmpEq (env.disk (env.addrlo k)) 0 mode.val = true
    · rw [if_pos hsame]
      constructor
      · intro h
        refine ⟨hcount.mp h.inspected, fun k' hk' hdiff => ?_⟩
        rw [hunique hk', hsame] at hdiff
        cases hdiff
      · intro h
        exact ⟨hcount.mpr h.count, Nat.zero_le _, fun _ hw => (List.not_mem_nil hw).elim,
          fun _ hw => (List.not_mem_nil hw).elim⟩
    · rw [if_neg hsame]
      rw [Bool.not_eq_true] at hsame
      constructor
      · intro h
        refine ⟨hcount.mp h.inspected, fun k' hk' _ => ?_⟩
        obtain ⟨p, hhost, hsector⟩ := h.target _ (List.mem_singleton.mpr rfl)
        obtain ⟨hmagic, hle⟩ := hostMisc_accepts hhost
        rw [hostMisc_of_first hk hmagic hle] at hhost
        cases hhost
        dsimp only at hsector
        rw [firstSector_eq (Nat.lt_of_lt_of_le hk.lt hle)] at hsector
        rw [hunique hk']
        exact ⟨hmagic, hle, by omega⟩
      · intro h
        obtain ⟨hmagic, hle, hhi⟩ := h.entry k hk hsame
        refine ⟨hcount.mpr h.count, Nat.le_refl 1, ?_, ?_⟩
        · refine List.forall_mem_singleton.mpr ⟨_, hostMisc_of_first hk hmagic hle, ?_⟩
          rw [firstSector_eq (Nat.lt_of_lt_of_le hk.lt hle), hhi, Nat.zero_mul, Nat.zero_add]
        · exact List.forall_mem_singleton.mpr fun i hi => if_neg (by omega)
  · have hno (k : Nat) : ¬ env.FirstMisc k := fun hk => by
      have := hnone k (Nat.zero_le k) (by have := hk.lt; omega)
      rw [hk.named] at this
      cases this
    rw [heq]
    dsimp only
    constructor
    · intro h
      refine ⟨.inl ?_, fun k hk => absurd hk (hno k)⟩
      by_contra hgt
      have := h.inspected mbrMaxPartCount (List.mem_range'_1.mpr ⟨Nat.zero_le _, by omega⟩)
      exact absurd this (Nat.lt_irrefl _)
    · intro h
      refine ⟨fun j hj => ?_, Nat.zero_le _, fun _ hw => (List.not_mem_nil hw).elim,
        fun _ hw => (List.not_mem_nil hw).elim⟩
      have hjn := (List.mem_range'_1.mp hj).2
      rcases h.count with hle | ⟨m, hm, hm'⟩
      · omega
      · by_contra hge
        rw [hnone m (Nat.zero_le m) (by omega)] at hm'
        cases hm'

/-- A disk with the bytes of a table in its first sectors, and a sector of zeros everywhere else. -/
def tableDisk (mbr : List UInt8) : MiscEnv where
  disk sector i := if sector < 2 then mbr.getD (512 * sector + i) 0 else 0
  stack _ := 0

/-- A table without the magic, whose first entry is called `misc` and is at sector 5. -/
def foreignTable : List UInt8 :=
  List.replicate 18 0 ++ leBytes 2 1 ++ leBytes 4 0 ++ leBytes 4 5 ++ List.replicate 20 0 ++
    text "misc"

/-- Such a table makes the boot loader write into sector 5, which is no partition. -/
theorem foreignTable_written :
    ((writeMiscPart (tableDisk foreignTable) .fastboot).written.map Prod.fst = [5]) ∧
      ¬ (writeMiscPart (tableDisk foreignTable) .fastboot).Right (tableDisk foreignTable) := by
  have hwritten : (writeMiscPart (tableDisk foreignTable) .fastboot).written.map Prod.fst = [5] := by
    decide +kernel
  refine ⟨hwritten, fun h => ?_⟩
  obtain ⟨w, hw, -⟩ := List.mem_map.mp (show 5 ∈ _ from hwritten ▸ List.mem_cons_self)
  obtain ⟨p, hhost, -⟩ := h.target w hw
  have hmagic := (hostMisc_accepts hhost).1
  revert hmagic
  decide +kernel

end Novo7
