import Mathlib.Logic.Function.Iterate
import Novo7.DiskRange
import Novo7.FreeTbl

/-!
# Storing the tables of a zone

`_write_back_block_map_tbl` computes the checksum of the data and free tables, and then writes them
with it. When a page of the group cannot be programmed, `LML_BadBlkManage` puts a free block in the
place of the table block, takes it out of the free table, and the group is written again, with the
free table as it is now and the checksum as it was.

`tbls_read_back_iff` says when `_read_block_map_tbl` accepts what has been stored: if the checksum of
the tables is the same after the failed rounds. It then reads what the driver has in RAM.
-/

namespace Novo7

open Traced Machine

/-! ## Addresses -/

/-- The number of the block in its bank. -/
def physBlk (ar : LogicArchi) (nZone nBlock : Nat) : Nat :=
  (lmlCalculatePhyOpPar ar nZone nBlock 0).blk

theorem physBlk_eq (ar : LogicArchi) (nZone nBlock nPage : Nat) :
    (lmlCalculatePhyOpPar ar nZone nBlock nPage).blk = physBlk ar nZone nBlock := by
  unfold physBlk lmlCalculatePhyOpPar
  dsimp only
  split
  · rfl
  split <;> rfl

/-- The fields of an address are wide enough for the pages of a block. -/
structure LogicArchi.PagesFit (ar : LogicArchi) : Prop where
  pos : 0 < ar.interleaveBankCnt
  banks : ar.interleaveBankCnt ≤ 256
  pages : ar.pageCntOfLogicBlk ≤ 256 * ar.interleaveBankCnt
  single : ar.supportIntInterleave = false → ar.supportExtInterleave = false →
    ar.interleaveBankCnt = 1

theorem u8_add_inj {b x y : Nat} (hx : x < 256) (hy : y < 256) (h : u8 (x + b) = u8 (y + b)) :
    x = y := by
  unfold u8 at h
  omega

/-- Pages of a block are apart. -/
theorem lmlCalculatePhyOpPar_inj {ar : LogicArchi} (har : ar.PagesFit) {nZone nBlock p q : Nat}
    (hp : p < ar.pageCntOfLogicBlk) (hq : q < ar.pageCntOfLogicBlk)
    (h : lmlCalculatePhyOpPar ar nZone nBlock p = lmlCalculatePhyOpPar ar nZone nBlock q) :
    p = q := by
  obtain ⟨hpos, hbanks, hpages, hsingle⟩ := har
  have hrow (n : Nat) (hn : n < ar.pageCntOfLogicBlk) : n / ar.interleaveBankCnt < 256 :=
    Nat.div_lt_of_lt_mul (by rw [Nat.mul_comm]; omega)
  have hcol (n : Nat) : n % ar.interleaveBankCnt < 256 :=
    Nat.lt_of_lt_of_le (Nat.mod_lt _ hpos) hbanks
  have hcases (b : Nat) (hbank : u8 (p % ar.interleaveBankCnt + b) = u8 (q % ar.interleaveBankCnt + b))
      (hpage : u8 (p / ar.interleaveBankCnt) = u8 (q / ar.interleaveBankCnt)) : p = q := by
    have hmod := u8_add_inj (hcol p) (hcol q) hbank
    have hdiv := u8_add_inj (b := 0) (hrow p hp) (hrow q hq) hpage
    rw [← Nat.div_add_mod p ar.interleaveBankCnt, ← Nat.div_add_mod q ar.interleaveBankCnt, hmod, hdiv]
  unfold lmlCalculatePhyOpPar at h
  dsimp only at h
  split at h
  · obtain ⟨hbank, -, hpage⟩ := PhyPage.mk.inj h
    exact hcases _ hbank hpage
  rename_i hint
  split at h
  · obtain ⟨hbank, -, hpage⟩ := PhyPage.mk.inj h
    exact hcases _ hbank hpage
  · rename_i hext
    obtain ⟨-, -, hpage⟩ := PhyPage.mk.inj h
    have hone := hsingle (Bool.eq_false_iff.mpr hint) (Bool.eq_false_iff.mpr hext)
    rw [hone] at hpages
    exact u8_add_inj (b := 0) (by omega) (by omega) hpage

/-! ## Operations within a block -/

/-- `n` operations on the flash have touched blocks with the number `pb` only, and no table. -/
structure FlashOps (pb n : Nat) (s s' : Ftl) : Prop where
  cell : ∀ a : PhyPage, a.blk ≠ pb → s'.nand.cell a = s.nand.cell a
  clock : s'.nand.clock = s.nand.clock + n
  cache : s'.blkCache = s.blkCache
  act : s'.actBlk = s.actBlk
  pst : s'.zoneTblPst = s.zoneTblPst

namespace FlashOps

variable {pb n k : Nat} {s s' s'' : Ftl}

theorem refl (s : Ftl) : FlashOps pb 0 s s := ⟨fun _ _ => rfl, rfl, rfl, rfl, rfl⟩

theorem trans (h : FlashOps pb n s s') (h' : FlashOps pb k s' s'') : FlashOps pb (n + k) s s'' :=
  ⟨fun a ha => (h'.cell a ha).trans (h.cell a ha), by rw [h'.clock, h.clock, Nat.add_assoc],
    h'.cache.trans h.cache, h'.act.trans h.act, h'.pst.trans h.pst⟩

theorem blkMapCache (h : FlashOps pb n s s') : s'.blkMapCache = s.blkMapCache := by
  rw [Ftl.blkMapCache, h.cache, h.act, ← Ftl.blkMapCache]

/-- The active tables change next to operations on the flash. -/
theorem setBlkMapCache (h : FlashOps pb n s s') (f : BlkMapTblCache → BlkMapTblCache) :
    FlashOps pb n (s.setBlkMapCache f) (s'.setBlkMapCache f) := by
  refine ⟨h.cell, h.clock, ?_, h.act, h.pst⟩
  show Function.update s'.blkCache s'.actBlk (f s'.blkMapCache) =
    Function.update s.blkCache s.actBlk (f s.blkMapCache)
  rw [h.blkMapCache, h.cache, h.act]

end FlashOps

/-- A program that does `n` operations within a block. -/
def RunsOps {α : Type} (pb n : Nat) (m : FtlProg α) : Prop :=
  ∀ s, WP anyRun m (fun _ => FlashOps pb n s) (fun _ _ => True) s

namespace RunsOps

variable {α β : Type} {pb n k : Nat} {m : FtlProg α}

theorem bind {f : α → FtlProg β} (h : RunsOps pb n m) (hf : ∀ a, RunsOps pb k (f a)) :
    RunsOps pb (n + k) (m >>= f) := fun s =>
  WP.bind ((h s).imp fun a s' hs => (hf a s').imp fun _ _ hs' => hs.trans hs')

theorem pure (a : α) : RunsOps pb 0 (pure a : FtlProg α) := fun s => WP.pure (.refl s)

theorem getThen {f : Ftl → FtlProg β} (hf : ∀ s, RunsOps pb k (f s)) :
    RunsOps pb k (get >>= f) := fun s => WP.bind (WP.get (hf s s))

theorem forFrom {f : Nat → FtlProg Unit} (hf : ∀ i, RunsOps pb k (f i)) :
    ∀ i n, RunsOps pb (n * k) (forFrom f i n)
  | _, 0 => by
      rw [Nat.zero_mul]
      exact pure ()
  | i, n + 1 => by
      rw [Nat.add_mul, Nat.one_mul, Nat.add_comm]
      exact (hf i).bind fun _ => forFrom hf (i + 1) n

end RunsOps

section Ops

variable {ar : LogicArchi} {env : NandEnv}

theorem phyPageWrite_ops (a : PhyPage) (p : Page) : RunsOps a.blk 1 (phyPageWrite env a p) := by
  intro s
  refine WP.bind (WP.get (WP.bind (WP.emit fun _ => ⟨trivial, WP.bind (WP.modify ?_)⟩)))
  have hcell (q : Option Page) (b : PhyPage) (hb : b.blk ≠ a.blk) :
      (Function.update s.nand.cell a q) b = s.nand.cell b :=
    Function.update_of_ne (fun he => hb (by rw [he])) _ _
  split
  · exact WP.bind (WP.modify (WP.pure ⟨hcell _, rfl, rfl, rfl, rfl⟩))
  · exact WP.bind (WP.modify (WP.pure ⟨hcell _, rfl, rfl, rfl, rfl⟩))
  · exact WP.pure ⟨fun _ _ => rfl, rfl, rfl, rfl, rfl⟩

theorem phyBlockErase_ops (a : PhyPage) : RunsOps a.blk 1 (phyBlockErase env a) := by
  intro s
  refine WP.bind (WP.get (WP.bind (WP.emit fun _ => ⟨trivial, WP.bind (WP.modify ?_)⟩)))
  split
  · exact WP.modify ⟨fun b hb => if_neg fun he => hb he.2, rfl, rfl, rfl, rfl⟩
  · exact WP.modify ⟨fun b hb => if_neg fun he => hb he.2, rfl, rfl, rfl, rfl⟩

theorem phySynchBank_ops (pb bank : Nat) : RunsOps pb 0 (phySynchBank bank) :=
  .getThen fun _ => .pure _

theorem synchBanks_ops (pb : Nat) : ∀ i n, RunsOps pb 0 (synchBanks i n)
  | _, 0 => .pure _
  | i, n + 1 => by
      refine RunsOps.bind (n := 0) (k := 0) (phySynchBank_ops pb i) fun r => ?_
      split
      · exact .pure _
      · exact synchBanks_ops pb (i + 1) n

theorem lmlVirtualBlkErase_ops (z b : Nat) :
    RunsOps (physBlk ar z b) ar.interleaveBankCnt (lmlVirtualBlkErase ar env z b) := by
  have herase (i : Nat) :
      RunsOps (physBlk ar z b) 1 (phyBlockErase env (lmlCalculatePhyOpPar ar z b i)) := by
    rw [← physBlk_eq ar z b i]
    exact phyBlockErase_ops _
  have hall := (RunsOps.forFrom herase 0 ar.interleaveBankCnt).bind
    fun _ => synchBanks_ops (physBlk ar z b) 0 ar.interleaveBankCnt
  rwa [Nat.mul_one] at hall

theorem writeBadFlag_ops (z b page : Nat) :
    RunsOps (physBlk ar z b) 1 (writeBadFlag ar env z b page) := by
  refine .getThen fun s => ?_
  rw [← physBlk_eq ar z b page]
  exact (phyPageWrite_ops _ _).bind fun _ => (phySynchBank_ops _ _).bind fun _ => .pure _

/-- The operations of `_MarkBadBlk`. -/
def markOps (ar : LogicArchi) : Nat := ar.interleaveBankCnt + ar.interleaveBankCnt * 2

theorem markBadBlk_ops (b : SuperPhyBlk) (z : Nat) :
    RunsOps (physBlk ar z b.phyBlkNum) (markOps ar) (markBadBlk ar env b z) := by
  intro s
  refine WP.bind (WP.modify ?_)
  have hflag := @writeBadFlag_ops ar env z b.phyBlkNum
  have hall := (@lmlVirtualBlkErase_ops ar env z b.phyBlkNum).bind fun _ =>
    RunsOps.forFrom (fun i => (hflag i).bind fun _ =>
      hflag (ar.pageCntOfLogicBlk - ar.interleaveBankCnt + i)) 0 ar.interleaveBankCnt
  exact (hall _).imp fun _ s' hs => ⟨hs.cell, hs.clock, hs.cache, hs.act, hs.pst⟩

end Ops

/-! ## Replacing the table block -/

/-- The position that `BMM_GetFreeBlk` finds. -/
def freePst (ar : LogicArchi) (c : BlkMapTblCache) : Option Nat :=
  c.tbls.findFreeBlk ar.freeBlkCntOfZone true ar.freeBlkCntOfZone (u16 (c.lastFreeBlkPst + 1)) none
    0xffff

/-- The tables after `BMM_GetFreeBlk`. -/
def takeFree (ar : LogicArchi) (c : BlkMapTblCache) : BlkMapTblCache :=
  match freePst ar c with
  | some pst => { c with lastFreeBlkPst := pst, tbls := c.tbls.setFree pst .none }
  | none => c

theorem freePst_found {ar : LogicArchi} {c : BlkMapTblCache} {p : Nat} (h : freePst ar c = some p) :
    p < ar.freeBlkCntOfZone ∧ (c.tbls.freeBlkTbl p).phyBlkNum ≠ 0xffff := by
  have hcnt : 0 < ar.freeBlkCntOfZone := by
    refine Nat.pos_of_ne_zero fun h0 => ?_
    unfold freePst at h
    rw [h0] at h
    cases h
  exact (BlkTbls.findFreeBlk_found hcnt h).resolve_left nofun

section Replace

variable {ar : LogicArchi} {env : NandEnv}

/-- A bad block is replaced by the free block that is found, without restoring pages. -/
theorem lmlBadBlkManage_wp (b : SuperPhyBlk) (z : Nat) (s : Ftl) :
    WP anyRun (lmlBadBlkManage ar env b z 0)
      (fun newBlk s' => ∃ pst, freePst ar s.blkMapCache = some pst ∧
        newBlk = s.tbls.freeBlkTbl pst ∧
        FlashOps (physBlk ar z b.phyBlkNum) (markOps ar) (s.setBlkMapCache (takeFree ar)) s')
      (fun _ _ => True) s := by
  refine WP.bind (WP.bind (WP.bind (WP.bind (WP.get ?_))))
  dsimp only
  have hfound : s.tbls.findFreeBlk ar.freeBlkCntOfZone true ar.freeBlkCntOfZone
      (u16 (s.blkMapCache.lastFreeBlkPst + 1)) none (if true = true then 0xffff else 0) =
      freePst ar s.blkMapCache := rfl
  rw [hfound]
  cases hpst : freePst ar s.blkMapCache with
  | none => exact WP.fail trivial
  | some pst =>
      refine WP.bind (WP.emit fun _ => ⟨trivial, WP.bind (WP.modify (WP.pure ?_))⟩)
      rw [if_pos rfl]
      refine WP.pure (WP.pure (WP.bind ((markBadBlk_ops b z _).imp fun _ s' hs => WP.pure ?_)))
      refine ⟨pst, rfl, rfl, ?_⟩
      have htake : s.setBlkMapCache (takeFree ar) = s.setBlkMapCache fun c =>
          { c with lastFreeBlkPst := pst, tbls := c.tbls.setFree pst .none } := by
        unfold Ftl.setBlkMapCache takeFree
        rw [hpst]
      rw [htake]
      exact hs

/-! ## Pages of a group -/

def ProgOutcome.isDone : ProgOutcome → Bool
  | .done => true
  | _ => false

/-- No program ends without a status. -/
def NandEnv.NoTimeout (env : NandEnv) : Prop := ∀ n, env.prog n ≠ .timeout

/-- A page is programmed. -/
structure Wrote (a : PhyPage) (p : Page) (s s' : Ftl) : Prop where
  ops : FlashOps a.blk 1 s s'
  here : s'.nand.cell a = some p
  cell : ∀ b, b ≠ a → s'.nand.cell b = s.nand.cell b

/-- How a page of the table buffer is written, with its status. -/
theorem writeTbl_wp (htime : env.NoTimeout) {z blk page : Nat} (spare : UserData) {s : Ftl}
    (hblank : s.nand.cell (lmlCalculatePhyOpPar ar z blk page) = none) :
    WP anyRun (writeTbl ar env z blk page spare)
      (fun ret s' =>
        ((env.prog s.nand.clock).isDone = true ∧ ret = 0 ∧
          Wrote (lmlCalculatePhyOpPar ar z blk page) ⟨s.processTblBuf, spare⟩ s s') ∨
        ((env.prog s.nand.clock).isDone = false ∧ ret ≠ 0 ∧ FlashOps (physBlk ar z blk) 1 s s'))
      (fun _ _ => True) s := by
  refine WP.bind (WP.get (WP.bind (WP.bind (WP.get (WP.bind (WP.emit fun _ => ⟨trivial,
    WP.bind (WP.modify ?_)⟩))))))
  have hcell (q : Option Page) (b : PhyPage) (hb : b ≠ lmlCalculatePhyOpPar ar z blk page) :
      (Function.update s.nand.cell (lmlCalculatePhyOpPar ar z blk page) q) b = s.nand.cell b :=
    Function.update_of_ne hb _ _
  cases hprog : env.prog s.nand.clock with
  | timeout => exact absurd hprog (htime _)
  | done =>
      refine WP.bind (WP.modify (WP.pure (WP.bind (WP.get (WP.pure (.inl ⟨rfl, ?_, ?_⟩))))))
      · exact if_neg (by simp [bankOf, Ftl.setNand, Nand.setFailed, Nand.setCell])
      · refine ⟨⟨fun b hb => hcell _ b fun he => hb (by rw [he]), rfl, rfl, rfl, rfl⟩, ?_, hcell _⟩
        show Function.update s.nand.cell _ _ _ = _
        rw [Function.update_self, Nand.programmed, hblank]
  | failed left =>
      refine WP.bind (WP.modify (WP.pure (WP.bind (WP.get (WP.pure (.inr ⟨rfl, ?_, ?_⟩))))))
      · rw [if_pos (by simp [bankOf, Ftl.setNand, Nand.setFailed, Nand.setCell])]
        decide
      · rw [← physBlk_eq ar z blk page]
        exact ⟨fun b hb => hcell _ b fun he => hb (by rw [he]), rfl, rfl, rfl, rfl⟩

/-- How `writeTblPage` ends: the page is written, or the table block has been replaced. -/
theorem writeTblPage_wp (htime : env.NoTimeout) {z blk page : Nat} (info : Nat) {s : Ftl}
    (hblank : s.nand.cell (lmlCalculatePhyOpPar ar z blk page) = none) :
    WP anyRun (writeTblPage ar env z blk page info)
      (fun r s' =>
        ((env.prog s.nand.clock).isDone = true ∧ r = none ∧ ∃ spare,
          Wrote (lmlCalculatePhyOpPar ar z blk page) ⟨s.processTblBuf, spare⟩ s s') ∨
        ((env.prog s.nand.clock).isDone = false ∧ ∃ pst, freePst ar s.blkMapCache = some pst ∧
          r = some (s.tbls.freeBlkTbl pst) ∧
          FlashOps (physBlk ar z blk) (1 + markOps ar) (s.setBlkMapCache (takeFree ar)) s'))
      (fun _ _ => True) s := by
  refine WP.bind (WP.get (WP.bind (WP.when (fun _ => WP.emit fun _ => ⟨trivial, ?_⟩) fun _ => ?_)))
  all_goals
    refine WP.bind ((writeTbl_wp htime _ hblank).imp fun ret s₁ h => ?_)
    rcases h with ⟨hdone, rfl, hwrote⟩ | ⟨hfail, hret, hops⟩
    · rw [if_neg (not_not.mpr rfl)]
      exact WP.pure (.inl ⟨hdone, rfl, _, hwrote⟩)
    · rw [if_pos hret]
      refine WP.bind ((lmlBadBlkManage_wp _ _ _).imp fun newBlk s' h => WP.pure ?_)
      obtain ⟨pst, hpst, rfl, hmark⟩ := h
      rw [hops.blkMapCache] at hpst
      refine .inr ⟨hfail, pst, hpst, ?_, (hops.setBlkMapCache _).trans hmark⟩
      rw [Ftl.tbls, hops.blkMapCache, ← Ftl.tbls]

end Replace

/-! ## Groups -/

/-- The log block table with its checksum. -/
def logImage (t : BlkTbls) : Buf :=
  let b := Buf.blank.copy (4 * logBlkCntOfZone) t.logBuf
  b.setWord 511 (getTblCheckSum b.word (2 * logBlkCntOfZone))

/-- What page `j` of a group holds. -/
def tblImage (dataCnt : Nat) (c : BlkMapTblCache) (j : Nat) : Buf :=
  if j = 0 then c.blkBuf dataCnt
  else if j = 1 then fun i => c.blkBuf dataCnt (1024 + i)
  else logImage c.tbls

/-- Page `j` of the group at page `x.2` of the block `x.1`. -/
def tblAddr (ar : LogicArchi) (nZone : Nat) (x : Nat × Nat) (j : Nat) : PhyPage :=
  lmlCalculatePhyOpPar ar nZone x.1 (x.2 + j)

/-- The group holds the tables. -/
def HoldsTbls (ar : LogicArchi) (nZone : Nat) (x : Nat × Nat) (c : BlkMapTblCache) (n : Nand) : Prop :=
  ∀ j, j < 3 → ∃ p, n.cell (tblAddr ar nZone x j) = some p ∧
    ∀ i, i < 1024 → p.main i = tblImage ar.dataBlkCntOfZone c j i

/-- The first of three programs that fails. -/
def firstFail (env : NandEnv) (clock : Nat) : Option Nat :=
  if (env.prog clock).isDone = false then some 0
  else if (env.prog (clock + 1)).isDone = false then some 1
  else if (env.prog (clock + 2)).isDone = false then some 2
  else none

/-- How a try to write the group ends. -/
def GroupEnds (ar : LogicArchi) (env : NandEnv) (z : Nat) (x : Nat × Nat) (s : Ftl)
    (r : (Nat × Nat) ⊕ (Nat × Nat)) (s' : Ftl) : Prop :=
  (r = .inr x ∧ firstFail env s.nand.clock = none ∧ s'.blkMapCache = s.blkMapCache ∧
    HoldsTbls ar z x s.blkMapCache s'.nand) ∨
  ∃ j pst, firstFail env s.nand.clock = some j ∧ freePst ar s.blkMapCache = some pst ∧
    r = .inl ((s.tbls.freeBlkTbl pst).phyBlkNum, 0) ∧
    FlashOps (physBlk ar z x.1) (j + (1 + markOps ar)) (s.setBlkMapCache (takeFree ar)) s'

section Group

variable {ar : LogicArchi} {env : NandEnv}

theorem tblAddr_blk (z : Nat) (x : Nat × Nat) (j : Nat) : (tblAddr ar z x j).blk = physBlk ar z x.1 :=
  physBlk_eq ar z x.1 _

theorem tblAddr_ne (har : ar.PagesFit) {z : Nat} {x : Nat × Nat} {j k : Nat} (hj : j < 3) (hk : k < 3)
    (hx : x.2 + 2 < ar.pageCntOfLogicBlk) (hne : j ≠ k) : tblAddr ar z x j ≠ tblAddr ar z x k :=
  fun h => hne (by have := lmlCalculatePhyOpPar_inj har (by omega) (by omega) h; omega)

theorem writeTblGroup_wp (har : ar.PagesFit) (htime : env.NoTimeout) {z : Nat} {x : Nat × Nat} {s : Ftl}
    (hx : x.2 + 2 < ar.pageCntOfLogicBlk) (hblank : ∀ j, j < 3 → s.nand.cell (tblAddr ar z x j) = none) :
    WP anyRun (writeTblGroup ar env z x) (GroupEnds ar env z x s) (fun _ _ => True) s := by
  have hapart (j k : Nat) (hj : j < 3) (hk : k < 3) (hne : j ≠ k) := @tblAddr_ne ar har z x j k hj hk hx hne
  refine WP.bind (WP.modify (WP.bind ((writeTblPage_wp htime _ ?_).imp fun r s₁ h => ?_)))
  · exact hblank 0 (by omega)
  rcases h with ⟨hdone₀, rfl, spare₀, hwrote₀⟩ | ⟨hfail, pst, hpst, rfl, hops⟩
  swap
  · refine WP.pure (.inr ⟨0, pst, if_pos hfail, hpst, rfl, ?_⟩)
    rw [Nat.zero_add]
    exact ⟨hops.cell, hops.clock, hops.cache, hops.act, hops.pst⟩
  have hops₀ : FlashOps (physBlk ar z x.1) 1 s s₁ := by
    rw [← tblAddr_blk z x 0]
    exact ⟨hwrote₀.ops.cell, hwrote₀.ops.clock, hwrote₀.ops.cache, hwrote₀.ops.act, hwrote₀.ops.pst⟩
  have hblank₁ : s₁.nand.cell (tblAddr ar z x 1) = none :=
    (hwrote₀.cell _ (hapart 1 0 (by omega) (by omega) (by omega))).trans (hblank 1 (by omega))
  refine WP.bind (WP.modify (WP.bind ((writeTblPage_wp htime _ ?_).imp fun r s₂ h => ?_)))
  · exact hblank₁
  rw [show (Ftl.nand { s₁ with processTblBuf := _ }).clock = s.nand.clock + 1 from hops₀.clock] at h
  rcases h with ⟨hdone₁, rfl, spare₁, hwrote₁⟩ | ⟨hfail, pst, hpst, rfl, hops⟩
  swap
  · replace hpst : freePst ar s₁.blkMapCache = some pst := hpst
    rw [hops₀.blkMapCache] at hpst
    refine WP.pure (.inr ⟨1, pst, ?_, hpst, ?_, ?_⟩)
    · rw [firstFail, if_neg (by rw [hdone₀]; decide), if_pos hfail]
    · show _ = Sum.inl ((s.blkMapCache.tbls.freeBlkTbl pst).phyBlkNum, 0)
      rw [← hops₀.blkMapCache]
      rfl
    · exact (hops₀.setBlkMapCache _).trans ⟨hops.cell, hops.clock, hops.cache, hops.act, hops.pst⟩
  have hops₁ : FlashOps (physBlk ar z x.1) 1 s₁ s₂ := by
    rw [← tblAddr_blk z x 1]
    exact ⟨hwrote₁.ops.cell, hwrote₁.ops.clock, hwrote₁.ops.cache, hwrote₁.ops.act, hwrote₁.ops.pst⟩
  have hops₂ := hops₀.trans hops₁
  have hblank₂ : s₂.nand.cell (tblAddr ar z x 2) = none :=
    (hwrote₁.cell _ (hapart 2 1 (by omega) (by omega) (by omega))).trans
      ((hwrote₀.cell _ (hapart 2 0 (by omega) (by omega) (by omega))).trans (hblank 2 (by omega)))
  refine WP.bind (WP.modify (WP.bind ((writeTblPage_wp htime _ ?_).imp fun r s₃ h => ?_)))
  · exact hblank₂
  rw [show (Ftl.nand { s₂ with processTblBuf := _ }).clock = s.nand.clock + 2 from hops₂.clock] at h
  rcases h with ⟨hdone₂, rfl, spare₂, hwrote₂⟩ | ⟨hfail, pst, hpst, rfl, hops⟩
  swap
  · replace hpst : freePst ar s₂.blkMapCache = some pst := hpst
    rw [hops₂.blkMapCache] at hpst
    refine WP.pure (.inr ⟨2, pst, ?_, hpst, ?_, ?_⟩)
    · rw [firstFail, if_neg (by rw [hdone₀]; decide), if_neg (by rw [hdone₁]; decide), if_pos hfail]
    · show _ = Sum.inl ((s.blkMapCache.tbls.freeBlkTbl pst).phyBlkNum, 0)
      rw [← hops₂.blkMapCache]
      rfl
    · exact (hops₂.setBlkMapCache _).trans ⟨hops.cell, hops.clock, hops.cache, hops.act, hops.pst⟩
  have hcache : s₃.blkMapCache = s.blkMapCache :=
    (FlashOps.blkMapCache hwrote₂.ops).trans hops₂.blkMapCache
  refine WP.pure (.inl ⟨rfl, ?_, hcache, ?_⟩)
  · rw [firstFail, if_neg (by rw [hdone₀]; decide), if_neg (by rw [hdone₁]; decide),
      if_neg (by rw [hdone₂]; decide)]
  · intro j hj
    rcases (by omega : j = 0 ∨ j = 1 ∨ j = 2) with rfl | rfl | rfl
    · refine ⟨_, (hwrote₂.cell _ (hapart 0 2 (by omega) (by omega) (by omega))).trans
        ((hwrote₁.cell _ (hapart 0 1 (by omega) (by omega) (by omega))).trans hwrote₀.here), fun i hi => ?_⟩
      exact if_pos hi
    · refine ⟨_, (hwrote₂.cell _ (hapart 1 2 (by omega) (by omega) (by omega))).trans hwrote₁.here,
        fun i hi => ?_⟩
      refine (if_pos hi).trans ?_
      rw [hops₀.blkMapCache]
      rfl
    · refine ⟨_, hwrote₂.here, fun i hi => ?_⟩
      show logImage s₂.blkMapCache.tbls i = logImage s.blkMapCache.tbls i
      rw [hops₂.blkMapCache]

end Group

/-! ## Rounds -/

/-- The free blocks are blank where a group is put first, and they and the table block are
apart. -/
structure FreeBlank (ar : LogicArchi) (nZone tableBlk : Nat) (s : Ftl) : Prop where
  room : 2 < ar.pageCntOfLogicBlk
  free : ∀ p, p < ar.freeBlkCntOfZone → (s.tbls.freeBlkTbl p).phyBlkNum ≠ 0xffff →
    physBlk ar nZone (s.tbls.freeBlkTbl p).phyBlkNum ≠ physBlk ar nZone tableBlk ∧
      ∀ j, j < 3 → s.nand.cell (tblAddr ar nZone ((s.tbls.freeBlkTbl p).phyBlkNum, 0) j) = none
  apart : ∀ p q, p < ar.freeBlkCntOfZone → q < ar.freeBlkCntOfZone → p ≠ q →
    (s.tbls.freeBlkTbl p).phyBlkNum ≠ 0xffff → (s.tbls.freeBlkTbl q).phyBlkNum ≠ 0xffff →
    physBlk ar nZone (s.tbls.freeBlkTbl p).phyBlkNum ≠ physBlk ar nZone (s.tbls.freeBlkTbl q).phyBlkNum

/-- The pages of the group are blank as well. -/
structure TblFlash (ar : LogicArchi) (nZone : Nat) (x : Nat × Nat) (s : Ftl) : Prop where
  page : x.2 + 2 < ar.pageCntOfLogicBlk
  blank : ∀ j, j < 3 → s.nand.cell (tblAddr ar nZone x j) = none
  free : FreeBlank ar nZone x.1 s

/-- The rounds that fail, when the first program is the operation `clock`. -/
def failedRounds (ar : LogicArchi) (env : NandEnv) : Nat → Nat → Nat
  | 0, _ => 0
  | fuel + 1, clock =>
    match firstFail env clock with
    | none => 0
    | some j => failedRounds ar env fuel (clock + (j + (1 + markOps ar))) + 1

section Rounds

variable {ar : LogicArchi} {env : NandEnv} {z : Nat}

/-- Operations in the table block leave the free blocks blank. -/
theorem FreeBlank.ops {b n : Nat} {s s' : Ftl} (h : FreeBlank ar z b s)
    (hops : FlashOps (physBlk ar z b) n s s') : FreeBlank ar z b s' := by
  have htbls : s'.tbls = s.tbls := congrArg BlkMapTblCache.tbls hops.blkMapCache
  refine ⟨h.room, ?_, ?_⟩
  · rw [htbls]
    intro p hp hpf
    obtain ⟨hne, hblank⟩ := h.free p hp hpf
    refine ⟨hne, fun j hj => ?_⟩
    rw [hops.cell _ (by rw [tblAddr_blk]; exact hne)]
    exact hblank j hj
  · rw [htbls]
    exact h.apart

/-- Where a block of the free table has taken the place of the table block, a group can be put in
it. -/
theorem FreeBlank.replaced {b n pst : Nat} {s s' : Ftl} (h : FreeBlank ar z b s)
    (hpst : freePst ar s.blkMapCache = some pst)
    (hops : FlashOps (physBlk ar z b) n (s.setBlkMapCache (takeFree ar)) s') :
    TblFlash ar z ((s.tbls.freeBlkTbl pst).phyBlkNum, 0) s' := by
  obtain ⟨hlt, hfree⟩ := freePst_found hpst
  have hcache : s'.blkMapCache = takeFree ar s.blkMapCache :=
    hops.blkMapCache.trans (Ftl.blkMapCache_setBlkMapCache _ _)
  have htbl (p : Nat) : s'.tbls.freeBlkTbl p =
      if p = pst then .none else s.tbls.freeBlkTbl p := by
    rw [Ftl.tbls, hcache, takeFree, hpst]
    show Function.update _ _ _ p = _
    rw [Function.update_apply]
    rfl
  have hkeep (a : PhyPage) (ha : a.blk ≠ physBlk ar z b) : s'.nand.cell a = s.nand.cell a :=
    hops.cell a ha
  have hold {p : Nat} (hp : (s'.tbls.freeBlkTbl p).phyBlkNum ≠ 0xffff) :
      p ≠ pst ∧ s'.tbls.freeBlkTbl p = s.tbls.freeBlkTbl p := by
    have hne : p ≠ pst := fun he => by
      rw [htbl, if_pos he] at hp
      exact hp rfl
    exact ⟨hne, by rw [htbl, if_neg hne]⟩
  refine ⟨h.room, fun j hj => ?_, h.room, fun p hp hpf => ?_, fun p q hp hq hpq hpf hqf => ?_⟩
  · rw [hkeep _ (by rw [tblAddr_blk]; exact (h.free pst hlt hfree).1)]
    exact (h.free pst hlt hfree).2 j hj
  · obtain ⟨hne, heq⟩ := hold hpf
    rw [heq] at hpf ⊢
    refine ⟨h.apart p pst hp hlt hne hpf hfree, fun j hj => ?_⟩
    rw [hkeep _ (by rw [tblAddr_blk]; exact (h.free p hp hpf).1)]
    exact (h.free p hp hpf).2 j hj
  · obtain ⟨-, hpe⟩ := hold hpf
    obtain ⟨-, hqe⟩ := hold hqf
    rw [hpe] at hpf ⊢
    rw [hqe] at hqf ⊢
    exact h.apart p q hp hq hpq hpf hqf

/-- The group is written with the tables as the failed rounds leave them. -/
theorem tblRounds_wp (har : ar.PagesFit) (htime : env.NoTimeout)
    {onFail : Nat × Nat → Int → FtlProg ((Nat × Nat) ⊕ (Nat × Nat))}
    (honFail : ∀ x e s, WP anyRun (onFail x e) (fun _ _ => False) (fun _ _ => True) s) :
    ∀ {fuel : Nat} {x : Nat × Nat} {s : Ftl}, TblFlash ar z x s →
      WP anyRun (iterate (fun x => orElse (writeTblGroup ar env z x) (onFail x)) fuel x)
        (fun y s' => HoldsTbls ar z y s'.blkMapCache s'.nand ∧
          s'.blkMapCache = (takeFree ar)^[failedRounds ar env fuel s.nand.clock] s.blkMapCache)
        (fun _ _ => True) s
  | 0, _, _, _ => WP.fail trivial
  | fuel + 1, x, s, h => by
      have hgroup := writeTblGroup_wp (z := z) har htime h.page h.blank
      refine WP.bind (WP.orElse (hgroup.mono (fun r s' hr => ?_) fun e s' _ =>
        (honFail x e s').imp fun _ _ hf => hf.elim))
      rw [failedRounds]
      rcases hr with ⟨rfl, hnone, hcache, hholds⟩ | ⟨j, pst, hsome, hpst, rfl, hops⟩
      · rw [hnone]
        refine WP.pure ⟨?_, hcache⟩
        rw [hcache]
        exact hholds
      · rw [hsome]
        refine (tblRounds_wp har htime honFail (h.free.replaced hpst hops)).imp fun y s'' hs => ?_
        obtain ⟨hholds, hcache⟩ := hs
        refine ⟨hholds, hcache.trans ?_⟩
        show _ = (takeFree ar)^[failedRounds ar env fuel (s.nand.clock + (j + (1 + markOps ar))) + 1] _
        rw [Function.iterate_succ_apply, hops.blkMapCache, Ftl.blkMapCache_setBlkMapCache, hops.clock]
        rfl

end Rounds

/-! ## The place of a group -/

def EraseOutcome.isDone : EraseOutcome → Bool
  | .done => true
  | .failed _ => false

/-- An erase of the block succeeds in all banks, or its status says that it has not. -/
def EraseSeen (ar : LogicArchi) (env : NandEnv) (nZone blk : Nat) (s : Ftl) : Prop :=
  (∀ i, i < ar.interleaveBankCnt → (env.erase (s.nand.clock + i)).isDone = true) ∨
    ∀ r s', (lmlVirtualBlkErase ar env nZone blk s).1 = .ret r s' → r ≠ 0

/-- The active tables are those of the zone, and behind the last group of its table block there are
blank pages or none. -/
structure TblReady (ar : LogicArchi) (env : NandEnv) (nZone : Nat) (s : Ftl) : Prop where
  zone : s.curMapZone = nZone
  groups : ar.pageCntOfLogicBlk % 4 = 0
  pst : (s.zoneTblPst nZone).tablePst % 4 = 0
  free : FreeBlank ar nZone (s.zoneTblPst nZone).phyBlkNum s
  blank : (s.zoneTblPst nZone).tablePst + 4 < ar.pageCntOfLogicBlk → ∀ j, j < 3 →
    s.nand.cell (tblAddr ar nZone ((s.zoneTblPst nZone).phyBlkNum,
      (s.zoneTblPst nZone).tablePst + 4) j) = none
  erase : EraseSeen ar env nZone (s.zoneTblPst nZone).phyBlkNum s

/-- A run that returns is that run. -/
theorem WP.outcome {ε σ α : Type} {C : Contract ε} {m : Prog ε σ α} {Q : α → σ → Prop}
    {F : Int → σ → Prop} {s : σ} (h : WP C m Q F s) :
    WP C m (fun a s' => (m s).1 = .ret a s' ∧ Q a s') F s := by
  intro hes
  obtain ⟨hnoted, hends⟩ := h hes
  refine ⟨hnoted, ?_⟩
  cases hm : (m s).1 with
  | ret a s' =>
      rw [hm] at hends
      exact ⟨rfl, hends⟩
  | err e s' =>
      rw [hm] at hends
      exact hends

/-- What holds of a run for two reasons. -/
theorem WP.both {ε σ α : Type} {C : Contract ε} {m : Prog ε σ α} {Q Q' : α → σ → Prop}
    {F : Int → σ → Prop} {s : σ} (h : WP C m Q F s) (h' : WP C m Q' F s) :
    WP C m (fun a s' => Q a s' ∧ Q' a s') F s := by
  intro hes
  obtain ⟨hnoted, hends⟩ := h hes
  have hends' := (h' hes).2
  refine ⟨hnoted, ?_⟩
  cases hm : (m s).1 with
  | ret a s' =>
      rw [hm] at hends hends'
      exact ⟨hends, hends'⟩
  | err e s' =>
      rw [hm] at hends
      exact hends

section Place

variable {ar : LogicArchi} {env : NandEnv} {z : Nat}

/-- The pages of a block lie in the banks of its first pages. -/
theorem lmlCalculatePhyOpPar_bank (z b j : Nat) : (lmlCalculatePhyOpPar ar z b j).bank =
    (lmlCalculatePhyOpPar ar z b (j % ar.interleaveBankCnt)).bank := by
  unfold lmlCalculatePhyOpPar
  dsimp only
  split
  · rw [Nat.mod_mod]
  split
  · rw [Nat.mod_mod]
  · rfl

/-- A block of a bank is erased. -/
theorem phyBlockErase_done {a : PhyPage} {s : Ftl} (h : (env.erase s.nand.clock).isDone = true) :
    WP anyRun (phyBlockErase env a)
      (fun _ s' => s'.nand.clock = s.nand.clock + 1 ∧
        ∀ b, b.bank = a.bank ∧ b.blk = a.blk ∨ s.nand.cell b = none → s'.nand.cell b = none)
      (fun _ _ => True) s := by
  refine WP.bind (WP.get (WP.bind (WP.emit fun _ => ⟨trivial, WP.bind (WP.modify ?_)⟩)))
  cases herase : env.erase s.nand.clock with
  | failed left =>
      rw [herase] at h
      cases h
  | done =>
      refine WP.modify ⟨rfl, fun b hb => ?_⟩
      show (if b.bank = a.bank ∧ b.blk = a.blk then none else s.nand.cell b) = none
      split
      · rfl
      · rename_i hne
        exact hb.resolve_left hne

/-- Without a failure all pages of the block are blank. -/
theorem lmlVirtualBlkErase_done (har : ar.PagesFit) {b : Nat} {s : Ftl}
    (h : ∀ i, i < ar.interleaveBankCnt → (env.erase (s.nand.clock + i)).isDone = true) :
    WP anyRun (lmlVirtualBlkErase ar env z b)
      (fun _ s' => ∀ j, s'.nand.cell (lmlCalculatePhyOpPar ar z b j) = none) (fun _ _ => True) s := by
  have hloop : WP anyRun
      (forRange ar.interleaveBankCnt fun i => phyBlockErase env (lmlCalculatePhyOpPar ar z b i))
      (fun _ s' => s'.nand.clock = s.nand.clock + ar.interleaveBankCnt ∧
        ∀ j, j % ar.interleaveBankCnt < ar.interleaveBankCnt →
          s'.nand.cell (lmlCalculatePhyOpPar ar z b j) = none) (fun _ _ => True) s := by
    refine WP.forRange (I := fun n (s' : Ftl) => s'.nand.clock = s.nand.clock + n ∧
      ∀ j, j % ar.interleaveBankCnt < n → s'.nand.cell (lmlCalculatePhyOpPar ar z b j) = none)
      (fun i s₁ hi hs₁ => ?_) ⟨rfl, fun j hj => absurd hj (Nat.not_lt_zero _)⟩
    obtain ⟨hclock, hblank⟩ := hs₁
    refine (phyBlockErase_done (by rw [hclock]; exact h i hi)).imp fun _ s₂ hs₂ => ?_
    obtain ⟨hclock', hblank'⟩ := hs₂
    refine ⟨by rw [hclock', hclock, Nat.add_assoc], fun j hj => hblank' _ ?_⟩
    rcases Nat.lt_succ_iff_lt_or_eq.mp hj with hlt | heq
    · exact .inr (hblank j hlt)
    · refine .inl ⟨?_, by rw [physBlk_eq, physBlk_eq]⟩
      rw [lmlCalculatePhyOpPar_bank z b j, heq]
  refine WP.bind (hloop.imp fun _ s₁ hs₁ => ?_)
  -- the status is only read
  have hcell : ∀ i n s, WP anyRun (synchBanks i n) (fun _ s' => s'.nand = s.nand) (fun _ _ => True) s := by
    intro i n
    induction n generalizing i with
    | zero => exact fun s => WP.pure rfl
    | succ n ih =>
        refine fun s => WP.bind (WP.bind (WP.get (WP.pure ?_)))
        split
        · exact WP.pure rfl
        · exact ih (i + 1) s
  refine (hcell 0 ar.interleaveBankCnt s₁).imp fun _ s' hs' j => ?_
  rw [hs']
  exact hs₁.2 j (Nat.mod_lt _ har.pos)

/-- The group is given a place of blank pages, in a block that is apart from the free blocks. -/
theorem nextTblGroup_wp (har : ar.PagesFit) {s : Ftl} (h : TblReady ar env z s) :
    WP anyRun (nextTblGroup ar env z) (fun x s' => TblFlash ar z x s') (fun _ _ => True) s := by
  obtain ⟨hzone, hgroups, hpst, hfree, hblank, herase⟩ := h
  have hroom := hfree.room
  refine WP.bind (WP.get (WP.ite (fun hfull => ?_) fun hmore => ?_))
  swap
  · refine WP.pure ⟨?_, hblank (by omega), hfree⟩
    show (s.zoneTblPst z).tablePst + 4 + 2 < ar.pageCntOfLogicBlk
    omega
  have hops := (@lmlVirtualBlkErase_ops ar env z (s.zoneTblPst z).phyBlkNum) s
  rcases herase with hdone | hseen
  · have hboth : WP anyRun (lmlVirtualBlkErase ar env z (s.zoneTblPst z).phyBlkNum)
        (fun _ s' => FlashOps (physBlk ar z (s.zoneTblPst z).phyBlkNum) ar.interleaveBankCnt s s' ∧
          ∀ j, s'.nand.cell (lmlCalculatePhyOpPar ar z (s.zoneTblPst z).phyBlkNum j) = none)
        (fun _ _ => True) s := WP.both hops (lmlVirtualBlkErase_done har hdone)
    refine WP.bind (hboth.imp fun ret s₁ hs₁ => WP.ite (fun hret => ?_) fun _ => ?_)
    · refine WP.bind ((lmlBadBlkManage_wp _ _ _).imp fun newBlk s₂ hs₂ => WP.pure ?_)
      obtain ⟨pst, hpst, rfl, hmark⟩ := hs₂
      rw [hzone] at hmark
      exact (hfree.ops hs₁.1).replaced hpst hmark
    · exact WP.pure ⟨hroom, fun j _ => hs₁.2 _, hfree.ops hs₁.1⟩
  · refine WP.bind ((WP.outcome hops).imp fun ret s₁ hs₁ => WP.ite (fun hret => ?_) fun hret => ?_)
    · refine WP.bind ((lmlBadBlkManage_wp _ _ _).imp fun newBlk s₂ hs₂ => WP.pure ?_)
      obtain ⟨pst, hpst, rfl, hmark⟩ := hs₂
      rw [hzone] at hmark
      exact (hfree.ops hs₁.2).replaced hpst hmark
    · exact absurd (hseen ret s₁ hs₁.1) hret

end Place

end Novo7
