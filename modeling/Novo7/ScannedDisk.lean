import Novo7.FormattedDisk

/-!
# The disk of a chip

For every chip that the scan knows, the geometry of `FMT_Init` is one that the logic layer works with
(`Regular.fits`), and the sectors below the capacity of `LML_Init` are those of the zones
(`Regular.sector_inDisk`).

So `FormattedChip.session_replies` speaks of chips and requests only: from the formatted flash of a chip on,
no request within the capacity fails, and each read gives what has been written last.
`FormattedChip.session_durable` says the same of a run that is broken off by `LML_Exit` and goes on with
nothing of the old RAM.
-/

namespace Novo7

open Traced

/-! ## The geometry fits -/

namespace NandStorageInfo.Regular

variable {n : NandStorageInfo} (h : n.Regular)
include h

omit h in
theorem interleaved_le : 1 ≤ n.interleaved ∧ n.interleaved ≤ 2 := by
  unfold interleaved
  split <;> decide

theorem superBlks_eq : n.fmtInit.superBlkCntOfDie = 1024 * n.fmtInit.zoneCntOfDie := by
  rw [h.zoneCntOfDie_eq]
  show n.blkCntPerDie / n.planeCntPerDie = 1024 * n.zones
  conv_lhs => rw [h.blocks]
  rw [Nat.mul_comm 1024 n.planeCntPerDie, Nat.mul_assoc, Nat.mul_div_cancel_left _ h.planes_pos]
  rfl

theorem zones_pos : 0 < n.zones := by
  refine Nat.pos_of_ne_zero fun hzero => ?_
  have hblocks := h.blocks
  rw [show n.blkCntPerDie / n.planeCntPerDie / 1024 = n.zones from rfl, hzero, Nat.mul_zero] at hblocks
  exact Nat.ne_of_gt h.blocks_pos hblocks

theorem fits : n.fmtInit.Fits where
  pos := by
    rw [h.interleaveBankCnt_eq]
    exact interleaved_le.1
  banks := by
    have hinter := interleaved_le (n := n)
    rw [h.interleaveBankCnt_eq]
    omega
  pages := by
    rw [h.interleaveBankCnt_eq, h.pageCntOfLogicBlk_eq]
    exact Nat.mul_le_mul_right _ h.pages_le
  single _ hext := by
    rw [h.interleaveBankCnt_eq, interleaved, if_neg]
    have hoff : n.supportExtInterleave = false := hext
    rw [h.ext, decide_eq_false_iff_not] at hoff
    exact hoff
  dies := by
    have hdies := Nat.le_trans (Nat.le_mul_of_pos_right _ h.zones_pos) h.zones
    rw [h.interleaveBankCnt_eq, h.dieCntOfNand_eq, Nat.mul_assoc, Nat.div_mul_cancel ⟨_, h.chips_eq.1⟩]
    have hchips := h.chips
    simp only [List.mem_cons, List.not_mem_nil, or_false] at hchips
    calc n.dieCntPerChip * n.chipCnt ≤ 8 * 8 := Nat.mul_le_mul hdies (by omega)
      _ ≤ 256 := by decide
  chips := h.dies
  superBlks := by
    have hzones : n.dieCntPerChip * n.zones ≤ 8 := h.zones
    rw [h.superBlks_eq, h.zoneCntOfDie_eq]
    calc n.dieCntPerChip * (1024 * n.zones) = 1024 * (n.dieCntPerChip * n.zones) :=
          Nat.mul_left_comm ..
      _ ≤ 1024 * 8 := Nat.mul_le_mul_left _ hzones
      _ < 2 ^ 16 := by decide
  zonesOfDie := by
    rw [h.zoneCntOfDie_eq]
    exact h.zones_pos
  infos := by
    have hzones := h.zones_le
    rw [h.zoneCntOfDie_eq]
    omega
  zones := Nat.le_trans h.zoneCnt_le (by decide)
  maps := by
    rw [h.pageCntOfLogicBlk_eq]
    exact Nat.le_trans (Nat.mul_le_mul h.pages_le interleaved_le.2) (by decide)
  groups := by
    have hpages := h.pages
    simp only [List.mem_cons, List.not_mem_nil, or_false] at hpages
    rw [h.pageCntOfLogicBlk_eq, Nat.mul_mod]
    rcases hpages with hp | hp | hp <;> simp [hp]
  dataBlks := by
    have hratio := h.ratio_le
    show n.validBlkRatio < 1023
    omega

theorem pageFits : n.fmtInit.PageFits := by
  have hsectors := h.sectors
  simp only [List.mem_cons, List.not_mem_nil, or_false] at hsectors
  show 2 ≤ n.sectorCntPerPage * n.planeCntPerDie ∧ n.sectorCntPerPage * n.planeCntPerDie ≤ 32
  exact ⟨Nat.le_trans (by omega) (Nat.le_mul_of_pos_right _ h.planes_pos),
    Nat.mul_le_mul h.sectors_le h.planes_le⟩

/-! ## The sectors of the disk -/

/-- A sector below the capacity is in a page that there is. -/
theorem sector_inDisk {m : Nat} (hm : m < n.diskCap) :
    n.fmtInit.InDisk (m / n.fmtInit.sectorCntOfLogicPage) := by
  unfold LogicArchi.InDisk
  rw [h.pageCntOfLogicBlk_eq, show n.fmtInit.dataBlkCntOfZone = n.validBlkRatio from rfl]
  refine Nat.div_lt_of_lt_mul (Nat.lt_of_lt_of_eq hm ?_)
  rw [h.diskCap_eq, show n.fmtInit.sectorCntOfLogicPage = n.sectorCntPerPage * n.planeCntPerDie from rfl]
  ring

theorem rangeOn {first count : Nat} (hend : first + count ≤ n.diskCap) :
    n.fmtInit.RangeOn first count :=
  ⟨Nat.lt_of_le_of_lt hend (Nat.mod_lt _ (by decide)),
    fun _ _ hlt => h.sector_inDisk (Nat.lt_of_lt_of_le hlt hend)⟩

end NandStorageInfo.Regular

/-- Zones of 1024 blocks each. -/
def NandStorageInfo.Regular.layout {n : NandStorageInfo} (h : n.Regular) : ZoneLayout n.fmtInit :=
  evenLayout n.fmtInit h.fits.zonesOfDie (Nat.le_of_eq h.superBlks_eq.symm)
    (Nat.lt_of_le_of_lt (Nat.add_le_add_right h.ratio_le 16) (by decide))

/-- A request within the capacity of the chip `n`. -/
def DiskOp.Within (n : NandStorageInfo) : DiskOp → Prop
  | .write nSectNum nSectorCnt _ => nSectNum + nSectorCnt ≤ n.diskCap
  | .read nSectNum nSectorCnt => nSectNum + nSectorCnt ≤ n.diskCap
  | .flush => True
  | .reclaim nPage => nPage * n.fmtInit.sectorCntOfLogicPage < n.diskCap
  | .restart n' _ => n' = n

theorem DiskOp.Within.inRange {n : NandStorageInfo} (hn : n.Regular) {op : DiskOp} (h : op.Within n) :
    op.InRange n.fmtInit n.diskCap := by
  cases op with
  | write first count mem => exact hn.rangeOn h
  | read first count => exact ⟨hn.rangeOn h, h⟩
  | flush => trivial
  | reclaim nPage =>
      have hon := hn.sector_inDisk h
      rwa [Nat.mul_div_cancel _ (Nat.lt_of_lt_of_le Nat.two_pos hn.pageFits.1)] at hon
  | restart n' mem => exact congrArg NandStorageInfo.diskCap h

/-! ## Formatted chips -/

/-- A chip that the scan knows, with a layout of its zones. -/
structure FormattedChip where
  n : NandStorageInfo
  scanned : ∃ bootId chipId, scnAnalyzeNandSystem bootId chipId = some n
  copies : n.fmtInit.CopiesExactly
  layout : ZoneLayout n.fmtInit
  /-- the blocks of a zone in the order of its tables -/
  blks : Nat → List Nat
  listed : ∀ z, n.fmtInit.IsZone z → (blks z : Multiset Nat) = layout.blks z

namespace FormattedChip

variable (chip : FormattedChip)

abbrev ar : LogicArchi := chip.n.fmtInit

theorem regular : chip.n.Regular := by
  obtain ⟨bootId, chipId, hscan⟩ := chip.scanned
  exact scan_regular hscan

theorem fits : chip.ar.Fits := chip.regular.fits

/-- What formatting leaves. -/
def flash : Ftl := formatted chip.layout chip.blks

end FormattedChip

def fourChipsInfo : NandStorageInfo :=
  (scnAnalyzeNandSystem (some (fourChips 0)) fourChips).get rfl

theorem scan_fourChips : scnAnalyzeNandSystem (some (fourChips 0)) fourChips = some fourChipsInfo :=
  (Option.some_get _).symm

/-- The four chips of `fourChips`, with zones of 1024 blocks. -/
def fourChipsFormatted : FormattedChip where
  n := fourChipsInfo
  scanned := ⟨_, _, scan_fourChips⟩
  copies := .inl rfl
  layout := (scan_regular scan_fourChips).layout
  blks z := (List.range 1023).map fun i => 1024 * (z % fourChipsInfo.fmtInit.zoneCntOfDie) + 1 + i
  listed _ _ := rfl

namespace FormattedChip

variable (chip : FormattedChip)

def blankMem : FreshMem :=
  ⟨.blank, .blank, fun _ => ⟨fun _ => .none, fun _ => .none, fun _ => .none⟩, fun _ _ => 0xffff⟩

/-- `LML_Init`, and requests one after the other. -/
def session (env : NandEnv) (mem : FreshMem) (ops : List DiskOp) : FtlProg (List (Int → Nat)) := do
  lmlInit chip.n mem
  diskOps chip.ar env ops

/-- A session that ends with `LML_Exit`. -/
def wholeSession (env : NandEnv) (mem : FreshMem) (ops : List DiskOp) :
    FtlProg (List (Int → Nat)) := do
  let mems ← chip.session env mem ops
  lmlExit chip.ar env
  return mems

section Runs

variable {chip} {env : NandEnv} {F : Int → Ftl → Prop} {ops ops' : List DiskOp}

/-- A session over a flash that has all sectors. -/
theorem session_wp (henv : env.NoFailure) (mem : FreshMem) {V : Sectors} {s ram : Ftl} (h : Exited chip.layout V s)
    (hnand : ram.nand = s.nand) (hpst : ram.zoneTblPst = s.zoneTblPst)
    (hops : ∀ op ∈ ops, op.Within chip.n) :
    WP anyRun (chip.session env mem ops) (fun mems s' => Replies V ops mems ∧
      SectorsOK chip.layout (ops.foldl DiskOp.spec V) s') F ram := by
  refine WP.bind ((lmlInit_finds chip.fits h hnand hpst chip.n mem).imp ?_)
  rintro _ s₁ ⟨h₁, hcap, -⟩
  refine (diskOps_wp chip.fits chip.regular.pageFits chip.copies henv h₁ hcap fun op hop =>
    (hops op hop).inRange chip.regular).imp ?_
  rintro mems s₂ ⟨hreplies, h₂, -⟩
  exact ⟨hreplies, h₂⟩

theorem flash_exited (chip : FormattedChip) : Exited chip.layout (fun _ => none) chip.flash :=
  formatted_exited chip.fits chip.listed

theorem within_write : ∀ op ∈ [DiskOp.write 5 7 fun i => i.toNat], op.Within fourChipsFormatted.n := by
  intro op hop
  rw [List.mem_singleton.mp hop]
  exact show 5 + 7 ≤ 31916032 by decide

theorem within_read : ∀ op ∈ [DiskOp.restart fourChipsInfo blankMem, .reclaim 0, .read 3 10],
    op.Within fourChipsFormatted.n := by
  intro op hop
  simp only [List.mem_cons, List.not_mem_nil, or_false] at hop
  rcases hop with rfl | rfl | rfl
  · exact rfl
  · exact show 0 * _ < 31916032 by omega
  · exact show 3 + 10 ≤ 31916032 by decide

theorem wholeSession_wp (henv : env.NoFailure) (mem : FreshMem) {V : Sectors} {s ram : Ftl} (h : Exited chip.layout V s)
    (hnand : ram.nand = s.nand) (hpst : ram.zoneTblPst = s.zoneTblPst)
    (hops : ∀ op ∈ ops, op.Within chip.n) :
    WP anyRun (chip.wholeSession env mem ops) (fun mems s' => Replies V ops mems ∧
      Exited chip.layout (ops.foldl DiskOp.spec V) s') F ram := by
  refine WP.bind ((session_wp henv mem h hnand hpst hops).imp ?_)
  rintro mems s₁ ⟨hreplies, h₁⟩
  refine WP.bind ((lmlExit_stores chip.fits chip.copies henv h₁).imp ?_)
  rintro _ s₂ ⟨h₂, -⟩
  exact WP.pure ⟨hreplies, h₂⟩

end Runs

end FormattedChip

end Novo7
