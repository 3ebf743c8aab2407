import Novo7.LogRoom
import Novo7.PhysicalAddress

/-!
# Pages of super blocks

Where no operation on the flash fails, each operation of the logic layer has one effect on the flash:
it programs a blank page of a super block, erases a super block or leaves the flash alone
(`phyPageWrite_puts`, `lmlVirtualBlkErase_clears`, `copyPage_puts`, `copyPage0_puts`). Super blocks of
a die that are different have no page in common (`mem_superBlk_iff`, `pageAddr_inj`), so what is
done in one block is not seen in another.

A copy takes the sectors of a page and its page number along: `Copied`.
-/

namespace Novo7

open Traced

/-! ## Addresses -/

/-- A geometry for which nothing is lost in the fields of an address, and whose zones, blocks and pages
have numbers that are not the marks `0xff` and `0xffff`. -/
structure LogicArchi.Fits (ar : LogicArchi) : Prop extends ar.PagesFit where
  dies : ar.dieCntOfNand * ar.interleaveBankCnt ≤ 256
  chips : 0 < ar.dieCntOfChip
  superBlks : ar.dieCntOfChip * ar.superBlkCntOfDie < 2 ^ 16
  zonesOfDie : 0 < ar.zoneCntOfDie
  infos : ar.zoneCntOfDie ≤ 16
  zones : ar.dieCntOfNand * ar.zoneCntOfDie ≤ 0xff
  /-- the page map of a log block, with its checksum, fills at most one page -/
  maps : ar.pageCntOfLogicBlk ≤ 1022
  /-- a table block consists of groups of four pages -/
  groups : ar.pageCntOfLogicBlk % 4 = 0
  dataBlks : ar.dataBlkCntOfZone < 1023

theorem LogicArchi.Fits.pageCnt_pos {ar : LogicArchi} (har : ar.Fits) : 0 < ar.pageCntOfLogicBlk :=
  Nat.lt_of_lt_of_le har.pos (Nat.div_le_self _ _)

/-- A super block of a zone that there is. -/
structure LogicArchi.IsSuperBlk (ar : LogicArchi) (nZone nBlock : Nat) : Prop where
  zone : nZone < ar.dieCntOfNand * ar.zoneCntOfDie
  blk : nBlock < ar.superBlkCntOfDie

/-- What is programmed in each page of the flash. -/
abbrev Cells := PhyPage → Option Page

section Address

variable {ar : LogicArchi}

/-- The pages of the blocks that a super block consists of. -/
def superBlk (ar : LogicArchi) (nZone nBlock : Nat) : Set PhyPage :=
  { a | ∃ i, a.bank = (lmlCalculatePhyOpPar ar nZone nBlock i).bank ∧
    a.blk = (lmlCalculatePhyOpPar ar nZone nBlock i).blk }

theorem pageAddr_mem (ar : LogicArchi) (z b q : Nat) :
    lmlCalculatePhyOpPar ar z b q ∈ superBlk ar z b := ⟨q, rfl, rfl⟩

/-- The address before it is stored. -/
theorem pageAddr_eq (har : ar.Fits) {z b : Nat} (h : ar.IsSuperBlk z b) (q : Nat) :
    (ar.supportIntInterleave = true ∧ lmlCalculatePhyOpPar ar z b q =
      ⟨q % ar.interleaveBankCnt + ar.dieOf z * ar.interleaveBankCnt, b,
        u8 (q / ar.interleaveBankCnt)⟩) ∨
    ar.supportIntInterleave = false ∧ lmlCalculatePhyOpPar ar z b q =
      ⟨q % ar.interleaveBankCnt + ar.dieOf z / ar.dieCntOfChip * ar.interleaveBankCnt,
        b + ar.dieOf z % ar.dieCntOfChip * ar.superBlkCntOfDie, u8 (q / ar.interleaveBankCnt)⟩ := by
  have hdie : ar.dieOf z < ar.dieCntOfNand := Nat.div_lt_of_lt_mul (by
    rw [Nat.mul_comm]
    exact h.zone)
  have hmod := Nat.mod_lt q har.pos
  have hbank {d : Nat} (hd : d < ar.dieCntOfNand) :
      q % ar.interleaveBankCnt + d * ar.interleaveBankCnt < 256 := by
    have hrow := Nat.mul_le_mul_right ar.interleaveBankCnt (Nat.succ_le_of_lt hd)
    have hdies := har.dies
    rw [Nat.succ_mul] at hrow
    omega
  have hchip : ar.dieOf z / ar.dieCntOfChip < ar.dieCntOfNand :=
    Nat.lt_of_le_of_lt (Nat.div_le_self _ _) hdie
  have hblk : b + ar.dieOf z % ar.dieCntOfChip * ar.superBlkCntOfDie < 2 ^ 16 := by
    have hrow := Nat.mul_le_mul_right ar.superBlkCntOfDie
      (Nat.succ_le_of_lt (Nat.mod_lt (ar.dieOf z) har.chips))
    have hblks := har.superBlks
    have hlt := h.blk
    rw [Nat.succ_mul] at hrow
    omega
  have hlow : b < 2 ^ 16 := Nat.lt_of_le_of_lt (Nat.le_add_right _ _) hblk
  have hu8 {n : Nat} (hn : n < 256) : u8 n = n := Nat.mod_eq_of_lt hn
  have hu16 {n : Nat} (hn : n < 2 ^ 16) : u16 n = n := Nat.mod_eq_of_lt hn
  unfold lmlCalculatePhyOpPar
  rw [show z / ar.zoneCntOfDie = ar.dieOf z from rfl]
  cases hint : ar.supportIntInterleave with
  | true =>
      refine .inl ⟨rfl, ?_⟩
      simp only [if_true, hu8 (hbank hdie), hu16 hlow]
  | false =>
      refine .inr ⟨rfl, ?_⟩
      cases hext : ar.supportExtInterleave with
      | true =>
          simp only [if_true, Bool.false_eq_true, if_false, hu8 (hbank hchip), hu16 hblk]
      | false =>
          have hone := har.single hint hext
          have hsingle := hbank hchip
          rw [hone, Nat.mod_one, Nat.zero_add, Nat.mul_one] at hsingle
          simp only [Bool.false_eq_true, if_false, hu8 hsingle, hu16 hblk, hone, Nat.mod_one,
            Nat.zero_add, Nat.mul_one, Nat.div_one]

/-- A super block has no page of another one of its die, and none of another die. -/
theorem mem_superBlk_iff (har : ar.Fits) {z b z' b' : Nat} (h : ar.IsSuperBlk z b)
    (h' : ar.IsSuperBlk z' b') (q : Nat) :
    lmlCalculatePhyOpPar ar z b q ∈ superBlk ar z' b' ↔ ar.dieOf z = ar.dieOf z' ∧ b = b' := by
  constructor
  · rintro ⟨i, hbank, hblk⟩
    have hq := Nat.mod_lt q har.pos
    have hi := Nat.mod_lt i har.pos
    rcases pageAddr_eq har h q with ⟨hint, he⟩ | ⟨hint, he⟩ <;>
      rcases pageAddr_eq har h' i with ⟨hint', he'⟩ | ⟨hint', he'⟩
    · rw [he, he'] at hbank hblk
      exact ⟨(place_inj hq hi hbank).1, hblk⟩
    · rw [hint] at hint'
      cases hint'
    · rw [hint] at hint'
      cases hint'
    · rw [he, he'] at hbank hblk
      obtain ⟨hmod, hsame⟩ := place_inj h.blk h'.blk hblk
      refine ⟨?_, hsame⟩
      rw [← Nat.div_add_mod (ar.dieOf z) ar.dieCntOfChip, (place_inj hq hi hbank).1, hmod,
        Nat.div_add_mod]
  · rintro ⟨hdie, rfl⟩
    refine ⟨q, ?_⟩
    rcases pageAddr_eq har h q with ⟨hint, he⟩ | ⟨hint, he⟩ <;>
      rcases pageAddr_eq har h' q with ⟨hint', he'⟩ | ⟨hint', he'⟩
    · rw [he, he', hdie]
      exact ⟨rfl, rfl⟩
    · rw [hint] at hint'
      cases hint'
    · rw [hint] at hint'
      cases hint'
    · rw [he, he', hdie]
      exact ⟨rfl, rfl⟩

/-- Pages of super blocks with different numbers are different. -/
theorem pageAddr_inj (har : ar.Fits) {z b b' q q' : Nat} (h : ar.IsSuperBlk z b)
    (h' : ar.IsSuperBlk z b') (hq : q < ar.pageCntOfLogicBlk) (hq' : q' < ar.pageCntOfLogicBlk)
    (heq : lmlCalculatePhyOpPar ar z b q = lmlCalculatePhyOpPar ar z b' q') : b = b' ∧ q = q' := by
  have hmem : lmlCalculatePhyOpPar ar z b q ∈ superBlk ar z b' := heq ▸ pageAddr_mem ar z b' q'
  obtain ⟨-, rfl⟩ := (mem_superBlk_iff har h h' q).mp hmem
  exact ⟨rfl, lmlCalculatePhyOpPar_inj har.toPagesFit hq hq' heq⟩

end Address

/-! ## What is left behind -/

/-- Nothing but the flash and the buffers of the driver has changed, and no bank reports a failure. -/
structure Flashed (s s' : Ftl) : Prop where
  eq : s' = { s with nand := s'.nand, tempBuf := s'.tempBuf, processTblBuf := s'.processTblBuf }
  clear : s'.Clear

namespace Flashed

variable {s s' s'' : Ftl}

theorem refl (h : s.Clear) : Flashed s s := ⟨rfl, h⟩

theorem trans (h : Flashed s s') (h' : Flashed s' s'') : Flashed s s'' :=
  ⟨by rw [h'.eq, h.eq], h'.clear⟩

theorem blkCache (h : Flashed s s') : s'.blkCache = s.blkCache := by rw [h.eq]

theorem actBlk (h : Flashed s s') : s'.actBlk = s.actBlk := by rw [h.eq]

theorem pageCache (h : Flashed s s') : s'.pageCache = s.pageCache := by rw [h.eq]

theorem actPage (h : Flashed s s') : s'.actPage = s.actPage := by rw [h.eq]

theorem logicalCtl (h : Flashed s s') : s'.logicalCtl = s.logicalCtl := by rw [h.eq]

theorem blkMapCache (h : Flashed s s') : s'.blkMapCache = s.blkMapCache := by
  rw [Ftl.blkMapCache, h.blkCache, h.actBlk]
  rfl

theorem tbls (h : Flashed s s') : s'.tbls = s.tbls := congrArg BlkMapTblCache.tbls h.blkMapCache

theorem curMapZone (h : Flashed s s') : s'.curMapZone = s.curMapZone :=
  congrArg BlkMapTblCache.zoneNum h.blkMapCache

theorem pageMapCache (h : Flashed s s') : s'.pageMapCache = s.pageMapCache := by
  rw [Ftl.pageMapCache, h.pageCache, h.actPage]
  rfl

theorem pageMapTbl (h : Flashed s s') : s'.pageMapTbl = s.pageMapTbl :=
  congrArg PageMapTblCache.pageMapTbl h.pageMapCache

end Flashed

/-- The sectors of a page are the same. -/
def SameSectors (ar : LogicArchi) (b b' : Buf) : Prop :=
  ∀ i < 256 * ar.sectorCntOfLogicPage, b i = b' i

namespace SameSectors

variable {ar : LogicArchi} {b b' b'' : Buf}

theorem refl (b : Buf) : SameSectors ar b b := fun _ _ => rfl

theorem symm (h : SameSectors ar b b') : SameSectors ar b' b := fun i hi => (h i hi).symm

theorem trans (h : SameSectors ar b b') (h' : SameSectors ar b' b'') : SameSectors ar b b'' :=
  fun i hi => (h i hi).trans (h' i hi)

theorem copySectors_full (src dst : Buf) :
    SameSectors ar (copySectors ar.fullBitmapOfLogicPage src dst) src := fun i hi => by
  unfold copySectors LogicArchi.fullBitmapOfLogicPage
  rw [if_pos (fullBitmap_testBit (Nat.div_lt_of_lt_mul hi))]

end SameSectors

/-- A page with the sectors and the page number of another. -/
structure Copied (ar : LogicArchi) (src p : Page) : Prop where
  main : SameSectors ar p.main src.main
  page : p.spare.logicPageNum = src.spare.logicPageNum

theorem Copied.refl (ar : LogicArchi) (p : Page) : Copied ar p p := ⟨.refl _, rfl⟩

/-! ## Operations -/

section Operations

variable {ar : LogicArchi} {env : NandEnv} {F : Int → Ftl → Prop} {s : Ftl}

theorem setNand_flashed {f : Nand → Nand} (h : ∀ bank, (f s.nand).failed bank = false) :
    Flashed s (s.setNand f) := ⟨rfl, h⟩

theorem synchPage_gives (hs : s.Clear) (b page : Nat) :
    WP anyRun (synchPage ar b page) (fun ret s' => ret = 0 ∧ s' = s) F s := by
  refine WP.bind (WP.get (WP.bind (WP.get (WP.pure ⟨?_, rfl⟩))))
  rw [hs]
  rfl

variable (henv : env.NoFailure)
include henv

theorem phyPageRead_gives (hs : s.Clear) (a : PhyPage) :
    WP anyRun (phyPageRead env a) (fun r s' => r = (0, s.nand.read a) ∧ Flashed s s' ∧
      s'.nand.cell = s.nand.cell ∧ s'.tempBuf = s.tempBuf) F s := by
  refine WP.bind (WP.get (WP.bind (WP.emit fun _ => ⟨trivial, WP.bind (WP.modify ?_)⟩)))
  rw [henv.read]
  exact WP.pure ⟨rfl, setNand_flashed hs, rfl, rfl⟩

theorem phyPageWrite_puts (hs : s.Clear) {a : PhyPage} (p : Page) (hblank : s.nand.cell a = none) :
    WP anyRun (phyPageWrite env a p) (fun r s' => r = 0 ∧ Flashed s s' ∧
      s'.nand.cell = Function.update s.nand.cell a (some p)) F s := by
  refine WP.bind (WP.get (WP.bind (WP.emit fun _ => ⟨trivial, WP.bind (WP.modify ?_)⟩)))
  rw [henv.prog]
  refine WP.bind (WP.modify (WP.pure ⟨rfl, ⟨rfl, setFailed_clear (n := s.nand) hs _⟩, ?_⟩))
  show Function.update s.nand.cell a (some (s.nand.programmed a p)) = _
  rw [Nand.programmed, hblank]

theorem phyBlockErase_clears (hs : s.Clear) (a : PhyPage) :
    WP anyRun (phyBlockErase env a) (fun _ s' => Flashed s s' ∧
      s'.nand.cell = fun b => if b.bank = a.bank ∧ b.blk = a.blk then none else s.nand.cell b)
      F s := by
  refine WP.bind (WP.get (WP.bind (WP.emit fun _ => ⟨trivial, WP.bind (WP.modify ?_)⟩)))
  rw [henv.erase]
  exact WP.modify ⟨⟨rfl, setFailed_clear (n := s.nand) hs _⟩, rfl⟩

omit henv in
theorem synchBanks_gives (hs : s.Clear) : ∀ (i n : Nat),
    WP anyRun (synchBanks i n) (fun ret s' => ret = 0 ∧ s' = s) F s
  | _, 0 => WP.pure ⟨rfl, rfl⟩
  | i, n + 1 => by
      refine WP.bind (WP.bind (WP.get (WP.pure ?_)))
      rw [hs]
      exact WP.ite (fun hneg => absurd hneg (by decide)) fun _ => synchBanks_gives hs (i + 1) n

/-- All pages of a super block are blank, and no other page is touched. -/
theorem lmlVirtualBlkErase_clears (hpos : 0 < ar.interleaveBankCnt) (hs : s.Clear) (z b : Nat) :
    WP anyRun (lmlVirtualBlkErase ar env z b) (fun r s' => r = 0 ∧ Flashed s s' ∧
      (∀ a ∈ superBlk ar z b, s'.nand.cell a = none) ∧
      ∀ a, a ∉ superBlk ar z b → s'.nand.cell a = s.nand.cell a) F s := by
  have hloop : WP anyRun
      (forRange ar.interleaveBankCnt fun i => phyBlockErase env (lmlCalculatePhyOpPar ar z b i))
      (fun _ s' => Flashed s s' ∧
        (∀ a i, i < ar.interleaveBankCnt → a.bank = (lmlCalculatePhyOpPar ar z b i).bank →
          a.blk = (lmlCalculatePhyOpPar ar z b i).blk → s'.nand.cell a = none) ∧
        ∀ a, a ∉ superBlk ar z b → s'.nand.cell a = s.nand.cell a) F s := by
    refine WP.forRange (I := fun n (s' : Ftl) => Flashed s s' ∧
      (∀ a i, i < n → a.bank = (lmlCalculatePhyOpPar ar z b i).bank →
        a.blk = (lmlCalculatePhyOpPar ar z b i).blk → s'.nand.cell a = none) ∧
      ∀ a, a ∉ superBlk ar z b → s'.nand.cell a = s.nand.cell a) (fun i s₁ hi h₁ => ?_)
      ⟨.refl hs, fun _ i hi => absurd hi (Nat.not_lt_zero i), fun _ _ => rfl⟩
    obtain ⟨hfl, hblank, hother⟩ := h₁
    refine (phyBlockErase_clears henv hfl.clear _).imp ?_
    rintro _ s₂ ⟨hfl', hcell⟩
    refine ⟨hfl.trans hfl', fun a j hj hbank hblk => ?_, fun a ha => ?_⟩
    · rw [hcell]
      dsimp only
      split
      · rfl
      · rename_i hout
        rcases Nat.lt_succ_iff_lt_or_eq.mp hj with hlt | rfl
        · exact hblank a j hlt hbank hblk
        · exact absurd ⟨hbank, hblk⟩ hout
    · rw [hcell]
      dsimp only
      rw [if_neg fun hin => ha ⟨i, hin⟩]
      exact hother a ha
  refine WP.bind (hloop.imp ?_)
  rintro _ s₁ ⟨hfl, hblank, hother⟩
  refine (synchBanks_gives hfl.clear 0 _).imp ?_
  rintro r s₂ ⟨hr, rfl⟩
  refine ⟨hr, hfl, ?_, hother⟩
  rintro a ⟨i, hbank, hblk⟩
  refine hblank a (i % ar.interleaveBankCnt) (Nat.mod_lt i hpos) ?_ ?_
  · rw [hbank, lmlCalculatePhyOpPar_bank]
  · rw [hblk, physBlk_eq, physBlk_eq]

theorem readTemp_gives (hs : s.Clear) (z b page bitmap : Nat) :
    WP anyRun (readTemp ar env z b page bitmap) (fun r s' =>
      r = (0, (s.nand.read (lmlCalculatePhyOpPar ar z b page)).spare) ∧ Flashed s s' ∧
      s'.nand.cell = s.nand.cell ∧ s'.tempBuf = copySectors bitmap
        (s.nand.read (lmlCalculatePhyOpPar ar z b page)).main s.tempBuf) F s := by
  refine WP.bind ((phyPageRead_gives henv hs _).imp ?_)
  rintro _ s₁ ⟨rfl, h₁, hcell, htemp⟩
  refine WP.bind (WP.modify (WP.pure ⟨rfl, ⟨?_, h₁.clear⟩, hcell, by rw [← htemp]⟩))
  rw [h₁.eq]

/-! ## Copies -/

/-- The copy-back commands program the page that is asked for, if they are used. -/
def CopiesInPlace (ar : LogicArchi) (srcPage dstPage : Nat) : Prop :=
  ar.supportPageCopyback = false ∨
    ar.supportMultiProgram = false ∧
      srcPage % ar.interleaveBankCnt = dstPage % ar.interleaveBankCnt

omit henv in
theorem copybackDst_eq {z src dst srcPage dstPage : Nat} (hmulti : ar.supportMultiProgram = false)
    (hbank : srcPage % ar.interleaveBankCnt = dstPage % ar.interleaveBankCnt) :
    copybackDst ar (lmlCalculatePhyOpPar ar z src srcPage) (lmlCalculatePhyOpPar ar z dst dstPage) =
      lmlCalculatePhyOpPar ar z dst dstPage := by
  have hsame : (lmlCalculatePhyOpPar ar z src srcPage).bank =
      (lmlCalculatePhyOpPar ar z dst dstPage).bank := by
    rw [lmlCalculatePhyOpPar_bank z src, lmlCalculatePhyOpPar_bank z dst, hbank]
    unfold lmlCalculatePhyOpPar
    dsimp only
    split
    · rfl
    split <;> rfl
  rw [copybackDst, hsame, hmulti]
  rfl

theorem copyPage_puts (hs : s.Clear) {src srcPage dst dstPage : Nat}
    (hin : CopiesInPlace ar srcPage dstPage)
    (hblank : s.nand.cell (lmlCalculatePhyOpPar ar s.curMapZone dst dstPage) = none) :
    WP anyRun (copyPage ar env src srcPage dst dstPage) (fun _ s' => Flashed s s' ∧
      s'.nand.cell = Function.update s.nand.cell
        (lmlCalculatePhyOpPar ar s.curMapZone dst dstPage)
        (some (s.nand.read (lmlCalculatePhyOpPar ar s.curMapZone src srcPage)))) F s := by
  refine WP.bind (WP.get (WP.bind (WP.ite (fun _ => ?_) fun hback => WP.bind (WP.get ?_))))
  · refine WP.bind ((phyPageRead_gives henv hs _).imp ?_)
    rintro _ s₁ ⟨rfl, h₁, hcell, -⟩
    refine WP.bind (WP.modify (WP.ite (fun hneg => absurd hneg (by decide)) fun _ => ?_))
    have hblank₁ : s₁.nand.cell (lmlCalculatePhyOpPar ar s.curMapZone dst dstPage) = none := by
      rw [hcell]
      exact hblank
    generalize s.nand.read (lmlCalculatePhyOpPar ar s.curMapZone src srcPage) = p
    have hwrite := @phyPageWrite_puts env F { s₁ with tempBuf := p.main } henv h₁.clear _ p hblank₁
    refine hwrite.imp ?_
    rintro _ s₂ ⟨rfl, h₂, hcell₂⟩
    refine WP.failIf (fun hne => absurd rfl hne) fun _ => ⟨⟨?_, h₂.clear⟩, ?_⟩
    · rw [h₂.eq, h₁.eq]
    · rw [hcell₂, ← hcell]
  · have hback := not_or.mp hback
    obtain ⟨hmulti, hbank⟩ := hin.resolve_left fun hoff => hback.1 (by simp [hoff])
    rw [copybackDst_eq hmulti hbank]
    refine (phyPageWrite_puts henv hs _ hblank).imp ?_
    rintro _ s₁ ⟨rfl, h₁, hcell⟩
    exact WP.failIf (fun hne => absurd rfl hne) fun _ => ⟨h₁, hcell⟩

/-- The copy of page 0 has the logical information of the source block. -/
theorem copyPage0_puts (hs : s.Clear) {src srcPage dst seqPlus : Nat}
    (hblank : s.nand.cell (lmlCalculatePhyOpPar ar s.curMapZone dst 0) = none) :
    WP anyRun (copyPage0 ar env src srcPage dst seqPlus) (fun _ s' => Flashed s s' ∧ ∃ p : Page,
      s'.nand.cell = Function.update s.nand.cell (lmlCalculatePhyOpPar ar s.curMapZone dst 0)
        (some p) ∧
      Copied ar (s.nand.read (lmlCalculatePhyOpPar ar s.curMapZone src srcPage)) p ∧
      p.spare.logicInfo =
        (s.nand.read (lmlCalculatePhyOpPar ar s.curMapZone src 0)).spare.logicInfo) F s := by
  refine WP.bind (WP.get (WP.bind ((readTemp_gives henv hs _ _ _ _).imp ?_)))
  rintro _ s₁ ⟨rfl, h₁, hcell₁, -⟩
  refine WP.bind (WP.failIf (fun hneg => absurd hneg (by decide)) fun _ =>
    WP.bind ((readTemp_gives henv h₁.clear _ _ _ _).imp ?_))
  rintro _ s₂ ⟨rfl, h₂, hcell₂, htemp⟩
  refine WP.bind (WP.failIf (fun hneg => absurd hneg (by decide)) fun _ => WP.bind (WP.get
    (WP.bind ?_)))
  have hcell := hcell₂.trans hcell₁
  refine (phyPageWrite_puts henv h₂.clear _ (by rw [hcell]; exact hblank)).imp ?_
  rintro _ s₃ ⟨rfl, h₃, hcell₃⟩
  refine WP.failIf (fun hne => absurd rfl hne) fun _ => ⟨(h₁.trans h₂).trans h₃, _,
    hcell₃.trans (by rw [hcell]), ⟨?_, ?_⟩, ?_⟩
  · show SameSectors ar s₂.tempBuf _
    rw [htemp, Nand.read, Nand.read, hcell₁]
    exact .copySectors_full _ _
  · show (s₁.nand.read _).spare.logicPageNum = _
    rw [Nand.read, Nand.read, hcell₁]
  · rfl

theorem movePageByBuf_puts (hs : s.Clear) {src srcPage dst dstPage : Nat}
    (hblank : s.nand.cell (lmlCalculatePhyOpPar ar s.curMapZone dst dstPage) = none) :
    WP anyRun (movePageByBuf ar env src dst srcPage dstPage) (fun _ s' => Flashed s s' ∧
      ∃ p : Page, s'.nand.cell = Function.update s.nand.cell
          (lmlCalculatePhyOpPar ar s.curMapZone dst dstPage) (some p) ∧
        Copied ar (s.nand.read (lmlCalculatePhyOpPar ar s.curMapZone src srcPage)) p) F s := by
  refine WP.bind (WP.get (WP.bind ((readTemp_gives henv hs _ _ _ _).imp ?_)))
  rintro _ s₁ ⟨rfl, h₁, hcell₁, htemp⟩
  refine WP.bind (WP.failIf (fun hneg => absurd hneg (by decide)) fun _ => WP.bind (WP.get
    (WP.bind ?_)))
  refine (phyPageWrite_puts henv h₁.clear _ (by rw [hcell₁]; exact hblank)).imp ?_
  rintro _ s₂ ⟨rfl, h₂, hcell₂⟩
  refine WP.failIf (fun hne => absurd rfl hne) fun _ => ⟨h₁.trans h₂,
    ⟨s₁.tempBuf, (s.nand.read (lmlCalculatePhyOpPar ar s.curMapZone src srcPage)).spare⟩,
    hcell₂.trans (by rw [hcell₁]), ⟨?_, rfl⟩⟩
  · show SameSectors ar s₁.tempBuf _
    rw [htemp]
    exact .copySectors_full _ _

end Operations

end Novo7
