import Novo7.FtlState

/-!
# Operations on the flash

`PHY_PageRead`, `PHY_PageWrite`, `PHY_BlockErase`, `PHY_SynchBank` and `PHY_PageCopyback` as the
logic layer sees them - a page of a block of a bank holds main data and a spare area, and a
program or erase leaves its status in the bank - and the *virtual* operations over them, whose
blocks are spread over the interleaved banks.

An erase is always followed by reading the status of the banks `0 .. INTERLEAVE_BANK_CNT - 1`,
whichever banks the zone is in: so `LML_VirtualBlkErase` has it.
-/

namespace Novo7

open Traced

/-- `ECC_LIMIT` -/
def eccLimit : Int := 10

/-- `ERR_TIMEOUT` -/
def errTimeout : Int := 14

/-! ## Addresses -/

/-- `LML_CalculatePhyOpPar`: bank, block and page of a page of a super block of a zone. The
fields of `__PhysicOpPara_t` are a byte, a halfword and a byte wide. -/
def lmlCalculatePhyOpPar (ar : LogicArchi) (nZone nBlock nPage : Nat) : PhyPage :=
  let tmpDieNum := nZone / ar.zoneCntOfDie
  let interleave := ar.interleaveBankCnt
  let dieBase := tmpDieNum % ar.dieCntOfChip * ar.superBlkCntOfDie
  let (bank, blk, page) :=
    -- the same with and without external interleave
    if ar.supportIntInterleave then
      (nPage % interleave + tmpDieNum * interleave, nBlock, nPage / interleave)
    else if ar.supportExtInterleave then
      (nPage % interleave + tmpDieNum / ar.dieCntOfChip * interleave, nBlock + dieBase,
        nPage / interleave)
    else
      (tmpDieNum / ar.dieCntOfChip, nBlock + dieBase, nPage)
  ⟨u8 bank, u16 blk, u8 page⟩

/-! ## The flash array -/

namespace Nand

variable (n : Nand)

/-- The operation at the clock has been carried out. -/
def tick : Nand := { n with clock := n.clock + 1 }

def setCell (a : PhyPage) (p : Option Page) : Nand :=
  { n with cell := Function.update n.cell a p }

def setFailed (bank : Nat) (b : Bool) : Nand :=
  { n with failed := Function.update n.failed bank b }

/-- The page after it has been programmed with `p`. -/
def programmed (a : PhyPage) (p : Page) : Page :=
  match n.cell a with
  | none => p
  | some old => old.over p

/-- All pages of a block. -/
def setBlock (bank blk : Nat) (pages : Nat → Option Page) : Nand :=
  { n with cell := fun a => if a.bank = bank ∧ a.blk = blk then pages a.page else n.cell a }

end Nand

def Ftl.setNand (s : Ftl) (f : Nand → Nand) : Ftl := { s with nand := f s.nand }

section Physic

variable (ar : LogicArchi) (env : NandEnv)

/-- `PHY_PageRead`: the result and what is delivered. -/
def phyPageRead (a : PhyPage) : FtlProg (Int × Page) := do
  let s ← get
  emit (.flashOp s)
  modify (·.setNand Nand.tick)
  match env.read s.nand.clock with
  | .good => pure (0, s.nand.read a)
  | .eccLimit => pure (eccLimit, s.nand.read a)
  | .uncorrectable junk => pure (0, junk)
  | .timeout junk => pure (-errTimeout, junk)

/-- `PHY_PageWrite` -/
def phyPageWrite (a : PhyPage) (p : Page) : FtlProg Int := do
  let s ← get
  emit (.flashOp s)
  modify (·.setNand Nand.tick)
  match env.prog s.nand.clock with
  | .done => do
    modify (·.setNand fun n => (n.setCell a (some (s.nand.programmed a p))).setFailed a.bank false)
    pure 0
  | .failed left => do
    modify (·.setNand fun n => (n.setCell a (some left)).setFailed a.bank true)
    pure 0
  | .timeout => pure (-errTimeout)

/-- `PHY_BlockErase` -/
def phyBlockErase (a : PhyPage) : FtlProg Unit := do
  let s ← get
  emit (.flashOp s)
  modify (·.setNand Nand.tick)
  match env.erase s.nand.clock with
  | .done =>
    modify (·.setNand fun n => (n.setBlock a.bank a.blk fun _ => none).setFailed a.bank false)
  | .failed left =>
    modify (·.setNand fun n => (n.setBlock a.bank a.blk left).setFailed a.bank true)

/-- `PHY_SynchBank`: whether the last program or erase of the bank was right. -/
def phySynchBank (bank : Nat) : FtlProg Int := do
  let s ← get
  pure (if s.nand.failed bank then -1 else 0)

/-- Where the copy-back commands program: the chip is the one of the source, and for two
planes the page is the one of the source as well. -/
def copybackDst (src dst : PhyPage) : PhyPage :=
  ⟨src.bank, dst.blk, if ar.supportMultiProgram then src.page else dst.page⟩

/-- `PHY_PageCopyback`: by the copy-back commands where the chip has them and the page numbers
are both even or both odd, else through the page cache. -/
def phyPageCopyback (src dst : PhyPage) : FtlProg Int :=
  if ¬ar.supportPageCopyback ∨ (src.page + dst.page) % 2 = 1 then do
    let (ret, p) ← phyPageRead env src
    modify ({ · with tempBuf := p.main })
    if ret < 0 then pure ret else phyPageWrite env dst p
  else do
    let s ← get
    phyPageWrite env (copybackDst ar src dst) (s.nand.read src)

/-! ## Virtual blocks -/

/-- `LML_VirtualPageRead` -/
def lmlVirtualPageRead (nZone nBlock nPage : Nat) : FtlProg (Int × Page) :=
  phyPageRead env (lmlCalculatePhyOpPar ar nZone nBlock nPage)

/-- `LML_VirtualPageWrite` -/
def lmlVirtualPageWrite (nZone nBlock nPage : Nat) (p : Page) : FtlProg Int :=
  phyPageWrite env (lmlCalculatePhyOpPar ar nZone nBlock nPage) p

/-- The bank of a page of a zone. -/
def bankOf (nZone nBlock nPage : Nat) : Nat := (lmlCalculatePhyOpPar ar nZone nBlock nPage).bank

/-- The status of the banks `i`, …, up to the first that failed. -/
def synchBanks : Nat → Nat → FtlProg Int
  | _, 0 => pure 0
  | i, n + 1 => do
    let result ← phySynchBank i
    if result < 0 then pure (-1) else synchBanks (i + 1) n

/-- `LML_VirtualBlkErase` -/
def lmlVirtualBlkErase (nZone nSuperBlk : Nat) : FtlProg Int := do
  forRange ar.interleaveBankCnt fun i =>
    phyBlockErase env (lmlCalculatePhyOpPar ar nZone nSuperBlk i)
  synchBanks 0 ar.interleaveBankCnt

end Physic

/-! ## Buffers -/

/-- The sectors of `bitmap` from `src`, the others from `dst`. -/
def copySectors (bitmap : Nat) (src dst : Buf) : Buf :=
  fun i => if bitmap.testBit (i / 256) then src i else dst i

/-- Read sectors of a page into `LML_TEMP_BUF`, and the spare area. -/
def readTemp (ar : LogicArchi) (env : NandEnv) (nZone nBlock nPage bitmap : Nat) :
    FtlProg (Int × UserData) := do
  let (ret, p) ← lmlVirtualPageRead ar env nZone nBlock nPage
  modify fun s => { s with tempBuf := copySectors bitmap p.main s.tempBuf }
  pure (ret, p.spare)

/-- Read sectors of a page into `LML_PROCESS_TBL_BUF`, and the spare area. -/
def readTbl (ar : LogicArchi) (env : NandEnv) (nZone nBlock nPage bitmap : Nat) :
    FtlProg (Int × UserData) := do
  let (ret, p) ← lmlVirtualPageRead ar env nZone nBlock nPage
  modify fun s => { s with processTblBuf := copySectors bitmap p.main s.processTblBuf }
  pure (ret, p.spare)

/-- Write `LML_PROCESS_TBL_BUF` to a page and wait for the result. -/
def writeTbl (ar : LogicArchi) (env : NandEnv) (nZone nBlock nPage : Nat) (spare : UserData) :
    FtlProg Int := do
  let s ← get
  let _ ← lmlVirtualPageWrite ar env nZone nBlock nPage ⟨s.processTblBuf, spare⟩
  phySynchBank (bankOf ar nZone nBlock nPage)

end Novo7
