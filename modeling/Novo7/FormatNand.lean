import Mathlib.Data.Nat.Bitwise
import Novo7.FtlState
import Novo7.ZoneSwitch

/-!
# Formatting all dies

`FMT_FormatNand` goes through the dies. In each it searches the blocks at the front for the tables
of the zones (`_SearchZoneTbls`), and where a zone is left without it tries up to five times to
rebuild what is missing and to write it (`_RebuildZoneTbls`, `_WriteBlkMapTbl`). Whatever happens to
a die goes into one variable, which the next die overwrites.

What is on the flash, and what fails, is given from outside: a `TblBlkImage` for each block that is
searched, a `RebuildEnv` for each attempt. `formatDie_mapped` says that the formatter's answer for
one die is right; `fmtFormatNand_iff` says that its answer for all of them is the one for the last.
-/

namespace Novo7

/-! ## Tables of a die -/

/-- `TBL_AREA_BLK_NUM` -/
def tblAreaBlkNum : Nat := 32

/-- `PAGE_CNT_OF_TBL_GROUP` -/
def pageCntOfTblGroup : Nat := 4

/-- `RET_FORMAT_TRY_AGAIN` -/
def retFormatTryAgain : Int := -2

/-- `GET_LOGIC_INFO_ZONE` -/
def getLogicInfoZone (a : Nat) : Nat := a >>> 10 &&& 0x0f

/-- `GET_LOGIC_INFO_TYPE` -/
def getLogicInfoType (a : Nat) : Nat := a >>> 14 &&& 0x01

/-- `GET_LOGIC_INFO_BLK` -/
def getLogicInfoBlk (a : Nat) : Nat := a &&& 0x03ff

/-- `_CalCheckSum`: the sum of the first words of a buffer. -/
def calCheckSum (item : Nat → Nat) : Nat → Nat
  | 0 => 0
  | n + 1 => (calCheckSum item n + item n) % 2 ^ 32

/-- What `_SearchZoneTbls` reads from a block: the spare area of both halves of page 0, where the
last group of tables is, and that group. -/
structure TblBlkImage where
  badBlkFlag0 : Nat
  badBlkFlag1 : Nat
  logicInfo : Nat
  /-- the result of `_SearchBlkTblPst` -/
  tblPst : Nat
  /-- the first byte of the page at `DIRTY_FLAG_OFFSET` -/
  dirtyFlag : Nat
  /-- the words of the two pages at `DATA_TBL_OFFSET` -/
  dataTbl : Nat → Nat
  /-- the words of the page at `LOG_TBL_OFFSET` -/
  logTbl : Nat → Nat

/-- What is known of the tables of a die: `TblBitmap` of the die info, and the die's part of
`ZoneTblPstInfo`. -/
structure DieTbls where
  tblBitmap : Nat
  zoneTblPst : Nat → ZoneTblPst

/-- Before the search: the die info is cleared, and `FMT_Init` has set the positions. -/
def DieTbls.init : DieTbls := ⟨0, fun _ => ⟨0xffff, 0xffff⟩⟩

/-- The zone's table is marked as valid. -/
def DieTbls.Valid (d : DieTbls) (zone : Nat) : Prop := d.tblBitmap.testBit zone

instance (d : DieTbls) (zone : Nat) : Decidable (d.Valid zone) := by
  unfold DieTbls.Valid
  infer_instance

/-! ## The search -/

/-- One round of the loop of `_SearchZoneTbls`. A block that claims a zone which does not exist, or
one that has its table block already, is erased; that changes nothing here. -/
def searchBlk (zoneCnt blk : Nat) (b : TblBlkImage) (d : DieTbls) : DieTbls :=
  if b.badBlkFlag0 ≠ 0xff ∨ b.badBlkFlag1 ≠ 0xff ∨ getLogicInfoType b.logicInfo ≠ 1 ∨
      getLogicInfoBlk b.logicInfo ≠ 0xaa then d
  else
    let zone := getLogicInfoZone b.logicInfo
    if ¬zone < zoneCnt then d
    else if (d.zoneTblPst zone).phyBlkNum ≠ 0xffff then d
    else
      let d := { d with zoneTblPst := Function.update d.zoneTblPst zone ⟨blk, b.tblPst⟩ }
      if b.dirtyFlag ≠ 0xff then d
      else if calCheckSum b.dataTbl (blockCntOfZone - 1) ≠ b.dataTbl (blockCntOfZone - 1) then d
      -- the log block table is `LOG_BLK_CNT_OF_ZONE` items of two words
      else if calCheckSum b.logTbl (logBlkCntOfZone * 2) ≠ b.logTbl 511 then d
      else { d with tblBitmap := u8 (d.tblBitmap ||| 1 <<< zone) }

/-- The loop of `_SearchZoneTbls`, from block `blk` for `n` rounds. -/
def searchBlks (zoneCnt : Nat) (image : Nat → TblBlkImage) : Nat → Nat → DieTbls → DieTbls
  | 0, _, d => d
  | n + 1, blk, d => searchBlks zoneCnt image n (blk + 1) (searchBlk zoneCnt blk (image blk) d)

/-- `_SearchZoneTbls`; the search of die 0 starts behind the boot area. -/
def searchZoneTbls (ar : LogicArchi) (die0FirstBlkNum nDie : Nat) (image : Nat → TblBlkImage) :
    Int × DieTbls :=
  let first := if nDie = 0 then die0FirstBlkNum else 0
  let d := searchBlks ar.zoneCntOfDie image (tblAreaBlkNum - first) first .init
  if ∀ zone < ar.zoneCntOfDie, d.Valid zone then (0, d) else (-1, d)

/-! ## The rebuild -/

/-- How `_DistributeFreeBlk` ends. -/
inductive Distribution where
  | enough
  | notEnough
  /-- its loop does not end -/
  | never
deriving DecidableEq

/-- One attempt to rebuild, as far as it does not depend on the formatter's control flow. -/
structure RebuildEnv where
  /-- `MALLOC` returns a buffer for `pPhyBlk` -/
  phyBlkBuf : Bool
  /-- `MALLOC` returns a buffer for `ZoneInfo` -/
  zoneInfoBuf : Bool
  /-- whether `_GetMapTblBlock` finds a block for each table, and what is known of the tables after
  it: a table may have lost its block to another one, a new block has no position yet -/
  getMapTblBlock : DieTbls → Bool × DieTbls
  distributeFreeBlk : Distribution
  /-- `_VirtualBlockErase` of a block -/
  virtualBlockErase : Nat → Bool
  /-- `_VirtualPageWrite` of a page of a block -/
  virtualPageWrite : Nat → Nat → Bool

/-- The page where `_WriteBlkMapTbl` goes on in the block. -/
def tblPage (p : ZoneTblPst) : Nat :=
  if p.tablePst = 0xffff then 0 else p.tablePst + pageCntOfTblGroup

/-- One round of the loop of `_WriteBlkMapTbl`: `none` where it returns, else the page of the
tables. Where it returns, it has written the bad block flag. -/
def writeZoneTbl (ar : LogicArchi) (e : RebuildEnv) (p : ZoneTblPst) : Option Nat :=
  let write (page : Nat) : Option Nat :=
    if ¬e.virtualPageWrite p.phyBlkNum page then none
    else if ¬e.virtualPageWrite p.phyBlkNum (page + 1) then none
    else if ¬e.virtualPageWrite p.phyBlkNum (page + 2) then none
    else some page
  if ¬tblPage p < ar.pageCntOfLogicBlk then
    if ¬e.virtualBlockErase p.phyBlkNum then none else write 0
  else write (tblPage p)

/-- `ZoneTblPstInfo[..].TablePst = page` -/
def DieTbls.setTablePst (d : DieTbls) (zone page : Nat) : DieTbls where
  tblBitmap := d.tblBitmap
  zoneTblPst := Function.update d.zoneTblPst zone ⟨(d.zoneTblPst zone).phyBlkNum, page⟩

/-- The loop of `_WriteBlkMapTbl`, from `zone` for `n` rounds. -/
def writeZoneTbls (ar : LogicArchi) (e : RebuildEnv) : Nat → Nat → DieTbls → Int × DieTbls
  | 0, _, d => (0, d)
  | n + 1, zone, d =>
    if d.Valid zone then writeZoneTbls ar e n (zone + 1) d
    else
      match writeZoneTbl ar e (d.zoneTblPst zone) with
      | none => (-1, d)
      | some page => writeZoneTbls ar e n (zone + 1) (d.setTablePst zone page)

/-- `_WriteBlkMapTbl` -/
def writeBlkMapTbl (ar : LogicArchi) (e : RebuildEnv) (d : DieTbls) : Int × DieTbls :=
  writeZoneTbls ar e ar.zoneCntOfDie 0 d

/-- `_RebuildZoneTbls`; `none` if it does not return. The results of `_GetBlkLogicInfo`,
`_FillZoneTblInfo`, `_KickValidTblBlk` and `_RepairLogBlkTbl` are not looked at. -/
def rebuildZoneTbls (ar : LogicArchi) (e : RebuildEnv) (d : DieTbls) : Option (Int × DieTbls) :=
  if ¬e.phyBlkBuf then some (-1, d)
  else if ¬e.zoneInfoBuf then some (-1, d)
  else
    let (found, d) := e.getMapTblBlock d
    if ¬found then some (-1, d)
    else
      match e.distributeFreeBlk with
      | .never => none
      | .notEnough => some (-1, d)
      | .enough =>
        let (result, d) := writeBlkMapTbl ar e d
        if result < 0 then some (retFormatTryAgain, d) else some (0, d)

/-! ## The formatter -/

/-- What the formatter meets in a die: the blocks it searches, and its attempts. -/
structure DieEnv where
  image : Nat → TblBlkImage
  attempt : Nat → RebuildEnv

/-- The loop over `tmpTryAgain`, from attempt `k` on. -/
def rebuildTries (ar : LogicArchi) (attempt : Nat → RebuildEnv) :
    Nat → Nat → Int → DieTbls → Option Int
  | 0, _, result, _ => some result
  | tryAgain + 1, k, _, d =>
    match rebuildZoneTbls ar (attempt k) d with
    | none => none
    | some (result, d) =>
      if result ≠ retFormatTryAgain then some result
      else rebuildTries ar attempt tryAgain (k + 1) result d

/-- One round of the loop of `FMT_FormatNand`: the `result` after it. -/
def formatDie (ar : LogicArchi) (die0FirstBlkNum nDie : Nat) (env : DieEnv) : Option Int :=
  let search := searchZoneTbls ar die0FirstBlkNum nDie env.image
  if search.1 < 0 then rebuildTries ar env.attempt 5 0 search.1 search.2 else some search.1

/-- The loop of `FMT_FormatNand` over the first `n` dies. -/
def formatDies (ar : LogicArchi) (die0FirstBlkNum : Nat) (env : Nat → DieEnv) : Nat → Option Int
  | 0 => some 0
  | n + 1 => (formatDies ar die0FirstBlkNum env n).bind fun _ =>
      formatDie ar die0FirstBlkNum n (env n)

/-- `FMT_FormatNand`; `none` if it does not return. -/
def fmtFormatNand (ar : LogicArchi) (die0FirstBlkNum : Nat) (env : Nat → DieEnv) : Option Int :=
  (formatDies ar die0FirstBlkNum env ar.dieCntOfNand).map fun result =>
    if result < 0 then -1 else 0

/-! ## A die that is mapped -/

/-- The table of a zone is written: the erase that is due and the three pages succeed. -/
def ZoneWritten (ar : LogicArchi) (e : RebuildEnv) (p : ZoneTblPst) : Prop :=
  (tblPage p < ar.pageCntOfLogicBlk ∨ e.virtualBlockErase p.phyBlkNum) ∧
  ∀ off < 3, e.virtualPageWrite p.phyBlkNum
    ((if tblPage p < ar.pageCntOfLogicBlk then tblPage p else 0) + off)

/-- Each zone has a table that is valid, or that the attempt writes. -/
def ZonesWritten (ar : LogicArchi) (e : RebuildEnv) (d : DieTbls) : Prop :=
  ∀ zone < ar.zoneCntOfDie, d.Valid zone ∨ ZoneWritten ar e (d.zoneTblPst zone)

/-- The attempt gets as far as the distribution of the free blocks. -/
def RebuildEnv.Distributes (e : RebuildEnv) (d : DieTbls) : Prop :=
  e.phyBlkBuf ∧ e.zoneInfoBuf ∧ (e.getMapTblBlock d).1

/-- The attempts from number `k` on lead to `P`: all before the last get as far as writing, and
there a write or an erase fails. -/
inductive Attempts (ar : LogicArchi) (attempt : Nat → RebuildEnv)
    (P : RebuildEnv → DieTbls → Prop) : Nat → Nat → DieTbls → Prop where
  | now {n k : Nat} {d : DieTbls} (h : (attempt k).Distributes d)
      (hP : P (attempt k) ((attempt k).getMapTblBlock d).2) : Attempts ar attempt P (n + 1) k d
  | again {n k : Nat} {d : DieTbls} (h : (attempt k).Distributes d)
      (henough : (attempt k).distributeFreeBlk = .enough)
      (hfail : ¬ZonesWritten ar (attempt k) ((attempt k).getMapTblBlock d).2)
      (hrest : Attempts ar attempt P n (k + 1)
        (writeBlkMapTbl ar (attempt k) ((attempt k).getMapTblBlock d).2).2) :
      Attempts ar attempt P (n + 1) k d

/-- In one of the attempts each zone is valid still, or rebuilt and written. -/
def Rebuilt (ar : LogicArchi) (attempt : Nat → RebuildEnv) : Nat → Nat → DieTbls → Prop :=
  Attempts ar attempt fun e d => e.distributeFreeBlk = .enough ∧ ZonesWritten ar e d

/-- In one of the attempts the distribution does not end. -/
def NeverEnds (ar : LogicArchi) (attempt : Nat → RebuildEnv) : Nat → Nat → DieTbls → Prop :=
  Attempts ar attempt fun e _ => e.distributeFreeBlk = .never

section Die

variable (ar : LogicArchi) (die0FirstBlkNum nDie : Nat) (env : DieEnv)

/-- The search has found a valid table for each zone of the die. -/
def AllFound : Prop :=
  ∀ zone < ar.zoneCntOfDie, (searchZoneTbls ar die0FirstBlkNum nDie env.image).2.Valid zone

/-- The table of every zone of the die is found valid, or rebuilt and written. -/
def DieMapped : Prop :=
  AllFound ar die0FirstBlkNum nDie env ∨
    Rebuilt ar env.attempt 5 0 (searchZoneTbls ar die0FirstBlkNum nDie env.image).2

/-- The formatter stays in the die. -/
def DieStuck : Prop :=
  ¬AllFound ar die0FirstBlkNum nDie env ∧
    NeverEnds ar env.attempt 5 0 (searchZoneTbls ar die0FirstBlkNum nDie env.image).2

end Die

/-! ## One attempt -/

theorem writeZoneTbl_some_iff {ar : LogicArchi} {e : RebuildEnv} {p : ZoneTblPst} :
    (∃ page, writeZoneTbl ar e p = some page) ↔ ZoneWritten ar e p := by
  have hthree : ∀ P : Nat → Prop, (∀ off < 3, P off) ↔ P 0 ∧ P 1 ∧ P 2 := by
    intro P
    constructor
    · exact fun h => ⟨h 0 (by omega), h 1 (by omega), h 2 (by omega)⟩
    · rintro ⟨h0, h1, h2⟩ off hoff
      obtain rfl | rfl | rfl : off = 0 ∨ off = 1 ∨ off = 2 := by omega
      exacts [h0, h1, h2]
  rw [ZoneWritten, hthree, writeZoneTbl]
  by_cases hpage : tblPage p < ar.pageCntOfLogicBlk
  · simp only [hpage, not_true_eq_false, if_false, if_true, true_or, true_and, Nat.add_zero]
    constructor
    · rintro ⟨page, h⟩
      split_ifs at h with h0 h1 h2
      exact ⟨by simpa using h0, by simpa using h1, by simpa using h2⟩
    · rintro ⟨h0, h1, h2⟩
      exact ⟨tblPage p, by simp [h0, h1, h2]⟩
  · simp only [hpage, not_false_eq_true, if_true, if_false, false_or, Nat.zero_add]
    constructor
    · rintro ⟨page, h⟩
      split_ifs at h with he h0 h1 h2
      exact ⟨by simpa using he, by simpa using h0, by simpa using h1, by simpa using h2⟩
    · rintro ⟨he, h0, h1, h2⟩
      exact ⟨0, by simp [he, h0, h1, h2]⟩

/-- A round changes the position of its own zone only, so what it means for a later zone to be
written stays as it was. -/
theorem writeZoneTbls_spec (ar : LogicArchi) (e : RebuildEnv) (n : Nat) : ∀ (zone : Nat)
    (d : DieTbls),
    ((writeZoneTbls ar e n zone d).1 = 0 ∧
      ∀ z, zone ≤ z → z < zone + n → d.Valid z ∨ ZoneWritten ar e (d.zoneTblPst z)) ∨
    ((writeZoneTbls ar e n zone d).1 = -1 ∧
      ∃ z, zone ≤ z ∧ z < zone + n ∧ ¬(d.Valid z ∨ ZoneWritten ar e (d.zoneTblPst z))) := by
  induction n with
  | zero => exact fun zone d => Or.inl ⟨rfl, fun z h h' => by omega⟩
  | succ n ih =>
      intro zone d
      rw [writeZoneTbls]
      by_cases hvalid : d.Valid zone
      · rw [if_pos hvalid]
        rcases ih (zone + 1) d with ⟨hr, hall⟩ | ⟨hr, z, hz, hz', hnot⟩
        · refine Or.inl ⟨hr, fun z hz hz' => ?_⟩
          rcases Nat.eq_or_lt_of_le hz with rfl | hlt
          · exact Or.inl hvalid
          · exact hall z hlt (by omega)
        · exact Or.inr ⟨hr, z, by omega, by omega, hnot⟩
      · rw [if_neg hvalid]
        cases hw : writeZoneTbl ar e (d.zoneTblPst zone) with
        | none =>
            refine Or.inr ⟨rfl, zone, Nat.le_refl zone, by omega, ?_⟩
            rintro (h | h)
            · exact hvalid h
            · obtain ⟨page, hpage⟩ := writeZoneTbl_some_iff.mpr h
              rw [hw] at hpage
              cases hpage
        | some page =>
            dsimp only
            have hpst : ∀ z, zone < z → (d.setTablePst zone page).zoneTblPst z = d.zoneTblPst z :=
              fun z hz => Function.update_of_ne (by omega) _ _
            rcases ih (zone + 1) (d.setTablePst zone page) with
              ⟨hr, hall⟩ | ⟨hr, z, hz, hz', hnot⟩
            · refine Or.inl ⟨hr, fun z hz hz' => ?_⟩
              rcases Nat.eq_or_lt_of_le hz with rfl | hlt
              · exact Or.inr (writeZoneTbl_some_iff.mp ⟨page, hw⟩)
              · have h := hall z hlt (by omega)
                rw [hpst z hlt] at h
                exact h
            · rw [hpst z hz] at hnot
              exact Or.inr ⟨hr, z, by omega, by omega, hnot⟩

theorem writeBlkMapTbl_spec (ar : LogicArchi) (e : RebuildEnv) (d : DieTbls) :
    ((writeBlkMapTbl ar e d).1 = 0 ∧ ZonesWritten ar e d) ∨
      ((writeBlkMapTbl ar e d).1 = -1 ∧ ¬ZonesWritten ar e d) := by
  rcases writeZoneTbls_spec ar e ar.zoneCntOfDie 0 d with ⟨hr, hall⟩ | ⟨hr, z, _, hz, hnot⟩
  · exact Or.inl ⟨hr, fun zone hzone => hall zone (Nat.zero_le zone) (by omega)⟩
  · exact Or.inr ⟨hr, fun h => hnot (h z (by omega))⟩

/-- The ends of an attempt. Only a write or an erase that fails asks for another one. -/
theorem rebuildZoneTbls_cases (ar : LogicArchi) (e : RebuildEnv) (d : DieTbls) :
    ((∃ d', rebuildZoneTbls ar e d = some (-1, d')) ∧
      ¬(e.Distributes d ∧ e.distributeFreeBlk ≠ .notEnough)) ∨
    (rebuildZoneTbls ar e d = none ∧ e.Distributes d ∧ e.distributeFreeBlk = .never) ∨
    (e.Distributes d ∧ e.distributeFreeBlk = .enough ∧
      ((rebuildZoneTbls ar e d = some (0, (writeBlkMapTbl ar e (e.getMapTblBlock d).2).2) ∧
          ZonesWritten ar e (e.getMapTblBlock d).2) ∨
        (rebuildZoneTbls ar e d =
            some (retFormatTryAgain, (writeBlkMapTbl ar e (e.getMapTblBlock d).2).2) ∧
          ¬ZonesWritten ar e (e.getMapTblBlock d).2))) := by
  rw [rebuildZoneTbls]
  by_cases hphy : e.phyBlkBuf
  case neg => exact Or.inl ⟨⟨d, if_pos hphy⟩, fun h => hphy h.1.1⟩
  by_cases hzone : e.zoneInfoBuf
  case neg =>
    exact Or.inl ⟨⟨d, by rw [if_neg (not_not_intro hphy), if_pos hzone]⟩, fun h => hzone h.1.2.1⟩
  rw [if_neg (not_not_intro hphy), if_neg (not_not_intro hzone)]
  rcases hget : e.getMapTblBlock d with ⟨found, d'⟩
  have hfound : (e.getMapTblBlock d).1 = found := by rw [hget]
  dsimp only
  by_cases hf : found
  case neg =>
    exact Or.inl ⟨⟨d', if_pos hf⟩, fun h => hf (hfound ▸ h.1.2.2)⟩
  have hdist : e.Distributes d := ⟨hphy, hzone, hfound ▸ hf⟩
  rw [if_neg (not_not_intro hf)]
  cases hfree : e.distributeFreeBlk with
  | never => exact Or.inr (Or.inl ⟨rfl, hdist, rfl⟩)
  | notEnough => exact Or.inl ⟨⟨d', rfl⟩, fun h => h.2 rfl⟩
  | enough =>
      refine Or.inr (Or.inr ⟨hdist, rfl, ?_⟩)
      dsimp only
      rcases writeBlkMapTbl_spec ar e d' with ⟨hr, hall⟩ | ⟨hr, hnot⟩
      · exact Or.inl ⟨by rw [if_neg (by omega)], hall⟩
      · exact Or.inr ⟨by rw [if_pos (by omega)], hnot⟩

/-! ## One die -/

theorem attempts_succ_iff {ar : LogicArchi} {attempt : Nat → RebuildEnv}
    {P : RebuildEnv → DieTbls → Prop} {n k : Nat} {d : DieTbls} :
    Attempts ar attempt P (n + 1) k d ↔ (attempt k).Distributes d ∧
      (P (attempt k) ((attempt k).getMapTblBlock d).2 ∨
        ((attempt k).distributeFreeBlk = .enough ∧
          ¬ZonesWritten ar (attempt k) ((attempt k).getMapTblBlock d).2 ∧
          Attempts ar attempt P n (k + 1)
            (writeBlkMapTbl ar (attempt k) ((attempt k).getMapTblBlock d).2).2)) := by
  constructor
  · rintro (⟨h, hP⟩ | ⟨h, henough, hfail, hrest⟩)
    · exact ⟨h, Or.inl hP⟩
    · exact ⟨h, Or.inr ⟨henough, hfail, hrest⟩⟩
  · rintro ⟨h, hP | ⟨henough, hfail, hrest⟩⟩
    · exact .now h hP
    · exact .again h henough hfail hrest

/-- The attempts return what they should, or they do not return. -/
theorem rebuildTries_spec (ar : LogicArchi) (attempt : Nat → RebuildEnv) (n : Nat) :
    ∀ (k : Nat) (result : Int) (d : DieTbls), result < 0 →
      (rebuildTries ar attempt n k result d = some 0 ∧ Rebuilt ar attempt n k d ∧
        ¬NeverEnds ar attempt n k d) ∨
      ((∃ r < 0, rebuildTries ar attempt n k result d = some r) ∧ ¬Rebuilt ar attempt n k d ∧
        ¬NeverEnds ar attempt n k d) ∨
      (rebuildTries ar attempt n k result d = none ∧ ¬Rebuilt ar attempt n k d ∧
        NeverEnds ar attempt n k d) := by
  induction n with
  | zero =>
      refine fun k result d hneg => Or.inr (Or.inl ⟨⟨result, hneg, rfl⟩, ?_, ?_⟩) <;>
      · intro h
        cases h
  | succ n ih =>
      intro k result d _
      rw [rebuildTries, Rebuilt, NeverEnds, attempts_succ_iff, attempts_succ_iff]
      rcases rebuildZoneTbls_cases ar (attempt k) d with
        ⟨⟨d', hr⟩, hnot⟩ | ⟨hr, hdist, hnever⟩ | ⟨hdist, henough, ⟨hr, hall⟩ | ⟨hr, hfail⟩⟩
      · refine Or.inr (Or.inl ⟨⟨-1, by omega, by rw [hr]; rfl⟩, ?_, ?_⟩)
        · rintro ⟨hdist, ⟨henough, _⟩ | ⟨henough, _, _⟩⟩ <;>
          · exact hnot ⟨hdist, by rw [henough]; exact Distribution.noConfusion⟩
        · rintro ⟨hdist, hnever | ⟨henough, _, _⟩⟩
          · exact hnot ⟨hdist, by rw [hnever]; exact Distribution.noConfusion⟩
          · exact hnot ⟨hdist, by rw [henough]; exact Distribution.noConfusion⟩
      · refine Or.inr (Or.inr ⟨by rw [hr], ?_, hdist, Or.inl hnever⟩)
        rintro ⟨_, ⟨henough, _⟩ | ⟨henough, _, _⟩⟩ <;>
        · rw [hnever] at henough
          cases henough
      · refine Or.inl ⟨by rw [hr]; rfl, ⟨hdist, Or.inl ⟨henough, hall⟩⟩, ?_⟩
        rintro ⟨_, hnever | ⟨_, hfail, _⟩⟩
        · rw [henough] at hnever
          cases hnever
        · exact hfail hall
      · have hnow : ∀ P : Prop, ((attempt k).distributeFreeBlk = .enough ∧
            ZonesWritten ar (attempt k) ((attempt k).getMapTblBlock d).2 ∨
            (attempt k).distributeFreeBlk = .enough ∧
            ¬ZonesWritten ar (attempt k) ((attempt k).getMapTblBlock d).2 ∧ P) ↔ P := by
          intro P
          simp [henough, hfail]
        have hnever : ∀ P : Prop, ((attempt k).distributeFreeBlk = .never ∨
            (attempt k).distributeFreeBlk = .enough ∧
            ¬ZonesWritten ar (attempt k) ((attempt k).getMapTblBlock d).2 ∧ P) ↔ P := by
          intro P
          simp [henough, hfail]
        rw [hnow, hnever, hr]
        simp only [hdist, true_and, ne_eq, not_true_eq_false, if_false]
        exact ih (k + 1) retFormatTryAgain _ (by decide)

theorem searchZoneTbls_spec (ar : LogicArchi) (die0FirstBlkNum nDie : Nat) (env : DieEnv) :
    ((searchZoneTbls ar die0FirstBlkNum nDie env.image).1 = 0 ∧
      AllFound ar die0FirstBlkNum nDie env) ∨
    ((searchZoneTbls ar die0FirstBlkNum nDie env.image).1 = -1 ∧
      ¬AllFound ar die0FirstBlkNum nDie env) := by
  simp only [AllFound, searchZoneTbls]
  generalize (if nDie = 0 then die0FirstBlkNum else 0) = first
  split_ifs with h
  · exact Or.inl ⟨rfl, h⟩
  · exact Or.inr ⟨rfl, h⟩

/-- The formatter's answer for a die is right. -/
theorem formatDie_mapped (ar : LogicArchi) (die0FirstBlkNum nDie : Nat) (env : DieEnv) :
    (formatDie ar die0FirstBlkNum nDie env = some 0 ∧ DieMapped ar die0FirstBlkNum nDie env ∧
      ¬DieStuck ar die0FirstBlkNum nDie env) ∨
    ((∃ r < 0, formatDie ar die0FirstBlkNum nDie env = some r) ∧
      ¬DieMapped ar die0FirstBlkNum nDie env ∧ ¬DieStuck ar die0FirstBlkNum nDie env) ∨
    (formatDie ar die0FirstBlkNum nDie env = none ∧ ¬DieMapped ar die0FirstBlkNum nDie env ∧
      DieStuck ar die0FirstBlkNum nDie env) := by
  rw [formatDie, DieMapped, DieStuck]
  rcases searchZoneTbls_spec ar die0FirstBlkNum nDie env with ⟨hr, hfound⟩ | ⟨hr, hnot⟩
  · rw [hr]
    exact Or.inl ⟨rfl, Or.inl hfound, fun h => h.1 hfound⟩
  · rw [hr]
    simp only [hnot, false_or, not_false_eq_true, true_and]
    exact rebuildTries_spec ar env.attempt 5 0 (-1) _ (by omega)

/-! ## All dies -/

section Nand

variable (ar : LogicArchi) (die0FirstBlkNum : Nat) (env : Nat → DieEnv)

/-- A die where the formatter stays ends the run, and the last die decides. -/
theorem formatDies_iff (n : Nat) :
    (∃ r, formatDies ar die0FirstBlkNum env n = some r ∧ ¬r < 0) ↔
      (∀ die < n, ¬DieStuck ar die0FirstBlkNum die (env die)) ∧
      ∀ last, last + 1 = n → DieMapped ar die0FirstBlkNum last (env last) := by
  have hreturns : ∀ n, (∃ r, formatDies ar die0FirstBlkNum env n = some r) ↔
      ∀ die < n, ¬DieStuck ar die0FirstBlkNum die (env die) := by
    intro n
    induction n with
    | zero => exact ⟨fun _ die h => absurd h (Nat.not_lt_zero die), fun _ => ⟨0, rfl⟩⟩
    | succ n ih =>
        have hlast : (∃ r, formatDie ar die0FirstBlkNum n (env n) = some r) ↔
            ¬DieStuck ar die0FirstBlkNum n (env n) := by
          rcases formatDie_mapped ar die0FirstBlkNum n (env n) with
            ⟨hr, _, hs⟩ | ⟨⟨r, _, hr⟩, _, hs⟩ | ⟨hr, _, hs⟩
          · exact ⟨fun _ => hs, fun _ => ⟨0, hr⟩⟩
          · exact ⟨fun _ => hs, fun _ => ⟨r, hr⟩⟩
          · simp [hr, hs]
        rw [Nat.forall_lt_succ_right, ← ih, ← hlast, formatDies]
        constructor
        · rintro ⟨r, hr⟩
          obtain ⟨r', hr', hr⟩ := Option.bind_eq_some_iff.mp hr
          exact ⟨⟨r', hr'⟩, r, hr⟩
        · rintro ⟨⟨r', hr'⟩, r, hr⟩
          exact ⟨r, by rw [hr']; exact hr⟩
  cases n with
  | zero => exact ⟨fun _ => ⟨fun die h => absurd h (Nat.not_lt_zero die), fun _ h => by omega⟩,
      fun _ => ⟨0, rfl, by omega⟩⟩
  | succ n =>
      rw [Nat.forall_lt_succ_right, ← hreturns, formatDies]
      have hlast : (∃ r, formatDie ar die0FirstBlkNum n (env n) = some r ∧ ¬r < 0) ↔
          ¬DieStuck ar die0FirstBlkNum n (env n) ∧ DieMapped ar die0FirstBlkNum n (env n) := by
        rcases formatDie_mapped ar die0FirstBlkNum n (env n) with
          ⟨hr, hm, hs⟩ | ⟨⟨r, hneg, hr⟩, hm, hs⟩ | ⟨hr, hm, hs⟩
        · simp [hr, hm, hs]
        · simp [hr, hm, hs, hneg]
        · simp [hr, hm, hs]
      constructor
      · rintro ⟨r, hr, hnn⟩
        obtain ⟨r', hr', hr⟩ := Option.bind_eq_some_iff.mp hr
        obtain ⟨hs, hm⟩ := hlast.mp ⟨r, hr, hnn⟩
        refine ⟨⟨⟨r', hr'⟩, hs⟩, fun last hl => ?_⟩
        obtain rfl : last = n := by omega
        exact hm
      · rintro ⟨⟨⟨r', hr'⟩, hs⟩, hm⟩
        obtain ⟨r, hr, hnn⟩ := hlast.mpr ⟨hs, hm n rfl⟩
        exact ⟨r, by rw [hr']; exact hr, hnn⟩

theorem fmtFormatNand_iff :
    fmtFormatNand ar die0FirstBlkNum env = some 0 ↔
      (∀ die < ar.dieCntOfNand, ¬DieStuck ar die0FirstBlkNum die (env die)) ∧
      ∀ last, last + 1 = ar.dieCntOfNand → DieMapped ar die0FirstBlkNum last (env last) := by
  rw [← formatDies_iff, fmtFormatNand]
  cases formatDies ar die0FirstBlkNum env ar.dieCntOfNand with
  | none => simp
  | some r =>
      by_cases hneg : r < 0
      · simp [hneg]
      · have hnn : 0 ≤ r := by omega
        simp [hneg, hnn]

theorem not_dieMapped_of_stuck {nDie : Nat} {env : DieEnv}
    (h : DieStuck ar die0FirstBlkNum nDie env) : ¬DieMapped ar die0FirstBlkNum nDie env := by
  rcases formatDie_mapped ar die0FirstBlkNum nDie env with ⟨_, _, hs⟩ | ⟨_, hm, _⟩ | ⟨_, hm, _⟩
  · exact absurd h hs
  · exact hm
  · exact hm

/-- `FMT_FormatNand` reports success just when all dies are mapped, if and only if the dies before
the last are mapped, or the last is not, or the formatter does not get past one of them. -/
theorem fmtFormatNand_reports_iff :
    (fmtFormatNand ar die0FirstBlkNum env = some 0 ↔
      ∀ die < ar.dieCntOfNand, DieMapped ar die0FirstBlkNum die (env die)) ↔
    (∀ die, die + 1 < ar.dieCntOfNand → DieMapped ar die0FirstBlkNum die (env die)) ∨
      (∃ last, last + 1 = ar.dieCntOfNand ∧ ¬DieMapped ar die0FirstBlkNum last (env last)) ∨
      ∃ die < ar.dieCntOfNand, DieStuck ar die0FirstBlkNum die (env die) := by
  rw [fmtFormatNand_iff]
  constructor
  · intro h
    by_cases hstuck : ∃ die < ar.dieCntOfNand, DieStuck ar die0FirstBlkNum die (env die)
    · exact Or.inr (Or.inr hstuck)
    by_cases hlast : ∃ last, last + 1 = ar.dieCntOfNand ∧
        ¬DieMapped ar die0FirstBlkNum last (env last)
    · exact Or.inr (Or.inl hlast)
    refine Or.inl fun die hdie => h.mp ⟨fun die hdie hs => hstuck ⟨die, hdie, hs⟩,
      fun last hl => ?_⟩ die (by omega)
    by_contra hm
    exact hlast ⟨last, hl, hm⟩
  · rintro (hbefore | ⟨last, hl, hm⟩ | ⟨die, hdie, hs⟩)
    · constructor
      · rintro ⟨_, hlast⟩ die hdie
        rcases Nat.lt_or_ge (die + 1) ar.dieCntOfNand with h | h
        · exact hbefore die h
        · exact hlast die (by omega)
      · exact fun h => ⟨fun die hdie hs => not_dieMapped_of_stuck _ _ hs (h die hdie),
          fun last hl => h last (by omega)⟩
    · exact ⟨fun h => absurd (h.2 last hl) hm, fun h => absurd (h last (by omega)) hm⟩
    · exact ⟨fun h => absurd hs (h.1 die hdie),
        fun h => absurd (h die hdie) (not_dieMapped_of_stuck _ _ hs)⟩

end Nand

/-! ## A failure that is hidden -/

/-- Two dies of one zone each. -/
def twoDies : LogicArchi := { fiveZones with zoneCntOfDie := 1, dieCntOfNand := 2 }

/-- A blank block. -/
def blankImage : TblBlkImage :=
  ⟨0xff, 0xff, 0xffff, 0xffff, 0xff, fun _ => 0xffffffff, fun _ => 0xffffffff⟩

/-- The table block of zone 0, its words all zero. -/
def zeroTblImage : TblBlkImage := ⟨0xff, 0xff, 0x40aa, 0, 0xff, fun _ => 0, fun _ => 0⟩

/-- There is no memory for the rebuild. -/
def noBuffer : RebuildEnv where
  phyBlkBuf := false
  zoneInfoBuf := false
  getMapTblBlock d := (true, d)
  distributeFreeBlk := .enough
  virtualBlockErase _ := true
  virtualPageWrite _ _ := true

/-- Die 0 is blank and cannot be mapped, die 1 has its table. -/
def firstDieFails (nDie : Nat) : DieEnv where
  image blk := if nDie = 1 ∧ blk = 0 then zeroTblImage else blankImage
  attempt _ := noBuffer

theorem formatDie_firstDieFails : formatDie twoDies 0 0 (firstDieFails 0) = some (-1) := by
  decide +kernel

/-- The formatter reports success, and die 0 is not mapped. -/
theorem fmtFormatNand_hides_first :
    ¬(fmtFormatNand twoDies 0 firstDieFails = some 0 ↔
      ∀ die < twoDies.dieCntOfNand, DieMapped twoDies 0 die (firstDieFails die)) := by
  have hzero : fmtFormatNand twoDies 0 firstDieFails = some 0 := by decide +kernel
  have hfirst : ¬DieMapped twoDies 0 0 (firstDieFails 0) := by
    rcases formatDie_mapped twoDies 0 0 (firstDieFails 0) with ⟨hr, _, _⟩ | ⟨_, hm, _⟩ | ⟨_, hm, _⟩
    · rw [formatDie_firstDieFails] at hr
      cases hr
    · exact hm
    · exact hm
  exact fun h => hfirst (h.mp hzero 0 (by decide))

end Novo7
