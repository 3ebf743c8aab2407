import Novo7.Machine
import Novo7.Buffer

/-!
# The boot areas

`bootarea_read` and `bootarea_write` of `nand_phy.c` give sector access to the two boot
areas of chip 0. Area 0 starts at page 0 and uses two sectors of each page; area 1 starts at
page `0x200` and uses whole pages. A read takes a first page in part, then whole pages, then
a last page in part. A write has to erase whole blocks, so it first completes the blocks it
only covers in part from their old contents (in the bounce buffer `pageCache`).

A sector's contents are any type `α`, a buffer is a function from sector offsets, and the
result of each flash operation is the environment's choice: `status n` is what the `n`-th
operation returns. `sectorAt` reads the chip as one array of sectors; the specifications of
this module are all about that array.
-/

namespace Novo7

open Machine Buffer

/-- Pages in a block and sectors in a page. Every chip of the identification tables has 64,
128 or 256 pages in a block and 4, 8 or 16 sectors in a page. -/
structure BootGeometry where
  pageCntOfPhyBlk : Nat
  sectorCntOfSinglePage : Nat
  pages_pos : 0 < pageCntOfPhyBlk
  sectors_pos : 0 < sectorCntOfSinglePage
  pages_dvd : pageCntOfPhyBlk ∣ 0x200
  small : sectorCntOfSinglePage * pageCntOfPhyBlk ≤ 2 ^ 15

/-- What the chip answers: a status for each operation, what a failed operation leaves in
the buffer or on the chip, and what an erased sector reads as. -/
structure BootEnv (α : Type) where
  status : Nat → Int
  junk : Nat → Nat → α
  blank : α

/-- Chip 0: the pages of each block (`none` when erased) and the operations done so far. -/
structure BootDev (α : Type) where
  flash : Nat → Nat → Option (Nat → α)
  ops : Nat

variable {α : Type}

/-! ## Flash operations -/

/-- What a sector of a page reads as. -/
def pageContent (env : BootEnv α) (flash : Nat → Nat → Option (Nat → α)) (block page i : Nat) :
    α :=
  match flash block page with
  | none => env.blank
  | some data => data i

/-- `_read_single_page` and `_read_single_page_1K`: the page's data, unless the status is
negative. -/
def readSinglePage (env : BootEnv α) (dev : BootDev α) (block page : Nat) :
    BootDev α × Int × (Nat → α) :=
  let st := env.status dev.ops
  (⟨dev.flash, dev.ops + 1⟩, st,
    if 0 ≤ st then pageContent env dev.flash block page else env.junk dev.ops)

/-- `PHY_SimpleErase`. -/
def simpleErase (env : BootEnv α) (dev : BootDev α) (block : Nat) : BootDev α × Int :=
  let st := env.status dev.ops
  (⟨Function.update dev.flash block
      fun _ => if st = 0 then none else some (env.junk dev.ops), dev.ops + 1⟩, st)

/-- `PHY_SimpleWrite` and `PHY_SimpleWrite_1K`: only an erased page takes the data. -/
def simpleWrite (env : BootEnv α) (dev : BootDev α) (block page : Nat) (data : Nat → α) :
    BootDev α × Int :=
  let st := env.status dev.ops
  let new := if st = 0 ∧ dev.flash block page = none then data else env.junk dev.ops
  (⟨Function.update dev.flash block (Function.update (dev.flash block) page (some new)),
    dev.ops + 1⟩, st)

/-! ## Reading -/

/-- `sectcnt_in_page`. -/
def sectcntInPage (g : BootGeometry) (bootnum : Nat) : Nat :=
  if bootnum ≠ 0 then g.sectorCntOfSinglePage else 2

/-- The page an area starts at. -/
def bootFirstPage (bootnum : Nat) : Nat := if bootnum ≠ 0 then 0x200 else 0

/-- The local variables of `bootarea_read`. -/
structure ReadState (α : Type) where
  dev : BootDev α
  res : Int
  first : Nat
  count : Nat
  buf : Nat → α
  bufp : Nat

/-- One page into `pageCache` or straight into the buffer; the block and page numbers of
`struct boot_physical_param` have 16 bits. -/
def readPageNo (env : BootEnv α) (g : BootGeometry) (dev : BootDev α) (first : Nat) :
    BootDev α × Int × (Nat → α) :=
  readSinglePage env dev (first / g.pageCntOfPhyBlk % 2 ^ 16) (first % g.pageCntOfPhyBlk % 2 ^ 16)

/-- The part of the first page from `bufoff` on. -/
def readHead (env : BootEnv α) (g : BootGeometry) (spp bufoff : Nat) (s : ReadState α) :
    ReadState α :=
  if bufoff > 0 then
    let (dev, res, pageCache) := readPageNo env g s.dev s.first
    let (buf, count) :=
      if res = 0 then
        if u32 (bufoff + s.count) < spp then
          (store s.buf s.bufp s.count fun i => pageCache (bufoff + i), 0)
        else
          (store s.buf s.bufp (spp - bufoff) fun i => pageCache (bufoff + i),
            sub32 s.count (spp - bufoff))
      else (s.buf, s.count)
    ⟨dev, res, u32 (s.first + 1), count, buf, s.bufp + (spp - bufoff)⟩
  else s

/-- `while( res == 0 && count > 0 )`: whole pages. -/
def readWhole (env : BootEnv α) (g : BootGeometry) (spp : Nat) : Nat → ReadState α → ReadState α
  | 0, s => s
  | n + 1, s =>
    if s.res = 0 then
      let (dev, res, page) := readPageNo env g s.dev s.first
      readWhole env g spp n
        ⟨dev, res, u32 (s.first + 1), n, store s.buf s.bufp spp page, s.bufp + spp⟩
    else s

/-- The first `bufoff` sectors of the last page. -/
def readTail (env : BootEnv α) (g : BootGeometry) (bufoff : Nat) (s : ReadState α) :
    ReadState α :=
  if s.res = 0 ∧ bufoff > 0 then
    let (dev, res, pageCache) := readPageNo env g s.dev s.first
    { s with
      dev := dev, res := res,
      buf := if res = 0 then store s.buf s.bufp bufoff pageCache else s.buf }
  else s

/-- `bootarea_read(first, count, buf + bufp, bootnum)`. -/
def bootareaRead (env : BootEnv α) (g : BootGeometry) (dev : BootDev α) (first count : Nat)
    (buf : Nat → α) (bufp bootnum : Nat) : BootDev α × Int × (Nat → α) :=
  let spp := sectcntInPage g bootnum
  let bufoff := first % spp
  let s := readHead env g spp bufoff
    ⟨dev, 0, u32 (first / spp + bootFirstPage bootnum), count, buf, bufp⟩
  let bufoff := s.count % spp
  let s := readWhole env g spp (s.count / spp) s
  let s := readTail env g bufoff s
  (s.dev, s.res, s.buf)

/-! ## Writing -/

/-- `for(page = 0; res == 0 && page < PAGE_CNT_OF_PHY_BLK; ++page)`: the pages of a block,
from `page` on. -/
def writePages (env : BootEnv α) (spp block : Nat) (data : Nat → α) :
    Nat → Nat → BootDev α → BootDev α × Int
  | _, 0, dev => (dev, 0)
  | page, n + 1, dev =>
    let (dev, res) := simpleWrite env dev block page fun i => data (page * spp + i)
    if res = 0 then writePages env spp block data (page + 1) n dev else (dev, res)

/-- Erase a block and write it from `data`. -/
def rewriteBlock (env : BootEnv α) (g : BootGeometry) (spp block : Nat) (data : Nat → α)
    (dev : BootDev α) : BootDev α × Int :=
  let (dev, res) := simpleErase env dev (block % 2 ^ 16)
  if res = 0 then writePages env spp (block % 2 ^ 16) data 0 g.pageCntOfPhyBlk dev
  else (dev, res)

/-- The local variables of `bootarea_write` that its three parts hand on. -/
structure WriteState (α : Type) where
  dev : BootDev α
  res : Int
  block : Nat
  count : Nat
  bufp : Nat
  pageCache : Nat → α

/-- The bounce buffer for the first block, once it holds the sectors before `bsector`: the
data, and (when the data ends inside the block) the rest of the block. -/
def fillRest (env : BootEnv α) (g : BootGeometry) (buf : Nat → α) (bootnum bsector : Nat)
    (s : WriteState α) (dev : BootDev α) (pageCache : Nat → α) :
    BootDev α × Int × Nat × (Nat → α) :=
  let spp := sectcntInPage g bootnum
  let sib := spp * g.pageCntOfPhyBlk
  let base := bootFirstPage bootnum * spp
  if u32 (bsector + s.count) < sib then
    let (dev, res, pageCache) :=
      bootareaRead env g dev (u32 (sub32 (s.block * sib) base + s.count))
        (sib - bsector - s.count) (store pageCache bsector s.count fun i => buf (s.bufp + i))
        (bsector + s.count) bootnum
    (dev, res, 0, pageCache)
  else
    (dev, 0, sub32 s.count (sib - bsector),
      store pageCache bsector (sib - bsector) fun i => buf (s.bufp + i))

/-- The bounce buffer for the first block, from the sectors before `bsector` on. -/
def fillHead (env : BootEnv α) (g : BootGeometry) (buf : Nat → α) (bootnum bsector : Nat)
    (s : WriteState α) : BootDev α × Int × Nat × (Nat → α) :=
  let spp := sectcntInPage g bootnum
  let sib := spp * g.pageCntOfPhyBlk
  let base := bootFirstPage bootnum * spp
  let (dev, res, pageCache) :=
    bootareaRead env g s.dev (sub32 (s.block * sib) base) bsector s.pageCache 0 bootnum
  if res = 0 then fillRest env g buf bootnum bsector s dev pageCache
  else (dev, res, s.count, pageCache)

/-- The first block, when the range starts inside it. -/
def writeHead (env : BootEnv α) (g : BootGeometry) (buf : Nat → α) (bootnum bsector : Nat)
    (s : WriteState α) : WriteState α :=
  let spp := sectcntInPage g bootnum
  if bsector > 0 then
    let (dev, res, count, pageCache) := fillHead env g buf bootnum bsector s
    let (dev, res) :=
      if res = 0 then rewriteBlock env g spp s.block pageCache dev else (dev, res)
    ⟨dev, res, s.block + 1, count, s.bufp + (spp * g.pageCntOfPhyBlk - bsector), pageCache⟩
  else s

/-- `while( res == 0 && count > 0 )`: whole blocks. -/
def writeWhole (env : BootEnv α) (g : BootGeometry) (spp : Nat) (buf : Nat → α) :
    Nat → WriteState α → WriteState α
  | 0, s => s
  | n + 1, s =>
    if s.res = 0 then
      let (dev, res) := rewriteBlock env g spp s.block (fun i => buf (s.bufp + i)) s.dev
      writeWhole env g spp buf n
        { s with
          dev := dev, res := res, block := s.block + 1, count := n,
          bufp := s.bufp + spp * g.pageCntOfPhyBlk }
    else s

/-- The last block up to `bsector`, completed with what the block held. -/
def writeTail (env : BootEnv α) (g : BootGeometry) (buf : Nat → α) (bootnum bsector : Nat)
    (s : WriteState α) : BootDev α × Int :=
  let spp := sectcntInPage g bootnum
  let sib := spp * g.pageCntOfPhyBlk
  let base := bootFirstPage bootnum * spp
  if s.res = 0 ∧ bsector > 0 then
    let (dev, res, pageCache) :=
      bootareaRead env g s.dev (u32 (sub32 (s.block * sib) base + bsector)) (sib - bsector)
        (store s.pageCache 0 bsector fun i => buf (s.bufp + i)) bsector bootnum
    if res = 0 then rewriteBlock env g spp s.block pageCache dev else (dev, res)
  else (s.dev, s.res)

/-- `bootarea_write(first, count, buf, bootnum)`; `junk` is what the bounce buffer holds when
it is allocated. -/
def bootareaWrite (env : BootEnv α) (g : BootGeometry) (junk : Nat → α) (dev : BootDev α)
    (first count : Nat) (buf : Nat → α) (bootnum : Nat) : BootDev α × Int :=
  let spp := sectcntInPage g bootnum
  let sib := spp * g.pageCntOfPhyBlk
  let bsector := u32 (first + bootFirstPage bootnum * spp)
  let s := writeHead env g buf bootnum (bsector % sib) ⟨dev, 0, bsector / sib, count, 0, junk⟩
  let bsector := s.count % sib
  let s := writeWhole env g spp buf (s.count / sib) s
  writeTail env g buf bootnum bsector s

/-! ## The chip as an array of sectors -/

/-- Every flash operation succeeds. -/
def BootEnv.AllOk (env : BootEnv α) : Prop := ∀ n, env.status n = 0

/-- Sector `x` of the chip, counting `spp` sectors in every page. -/
def sectorAt (env : BootEnv α) (g : BootGeometry) (spp : Nat)
    (flash : Nat → Nat → Option (Nat → α)) (x : Nat) : α :=
  pageContent env flash (x / spp / g.pageCntOfPhyBlk) (x / spp % g.pageCntOfPhyBlk) (x % spp)

section Spec

variable {env : BootEnv α} {g : BootGeometry} {spp : Nat}
  {flash : Nat → Nat → Option (Nat → α)}

theorem sectorAt_page {pg i : Nat} (hi : i < spp) :
    sectorAt env g spp flash (spp * pg + i) =
      pageContent env flash (pg / g.pageCntOfPhyBlk) (pg % g.pageCntOfPhyBlk) i := by
  have hpos : 0 < spp := by omega
  have hdiv : (spp * pg + i) / spp = pg := by
    rw [Nat.mul_add_div hpos, Nat.div_eq_of_lt hi, Nat.add_zero]
  have hmod : (spp * pg + i) % spp = i := by
    rw [Nat.mul_add_mod, Nat.mod_eq_of_lt hi]
  rw [sectorAt, hdiv, hmod]

/-- Block, page and sector numbers of a sector, from its place in the block. -/
theorem sectorAt_block {b j : Nat} (hspp : 0 < spp) (hj : j < spp * g.pageCntOfPhyBlk) :
    sectorAt env g spp flash (spp * g.pageCntOfPhyBlk * b + j) =
      pageContent env flash b (j / spp) (j % spp) := by
  have hpage : j / spp < g.pageCntOfPhyBlk := Nat.div_lt_of_lt_mul hj
  have hx : spp * g.pageCntOfPhyBlk * b + j =
      spp * (g.pageCntOfPhyBlk * b + j / spp) + j % spp := by
    rw [Nat.mul_add, Nat.add_assoc, Nat.div_add_mod, Nat.mul_assoc]
  rw [hx, sectorAt_page (Nat.mod_lt _ hspp), Nat.mul_add_div g.pages_pos,
    Nat.div_eq_of_lt hpage, Nat.add_zero, Nat.mul_add_mod, Nat.mod_eq_of_lt hpage]

theorem sectcntInPage_pos (g : BootGeometry) (bootnum : Nat) : 0 < sectcntInPage g bootnum := by
  have := g.sectors_pos
  unfold sectcntInPage
  split <;> omega

/-- Blocks of either area have at most `2 ^ 15` sectors. -/
theorem sectcntInBlock_le (g : BootGeometry) (bootnum : Nat) :
    sectcntInPage g bootnum * g.pageCntOfPhyBlk ≤ 2 ^ 15 := by
  have h1 := g.small
  have h2 := Nat.le_of_dvd (by decide) g.pages_dvd
  unfold sectcntInPage
  split <;> omega

end Spec

end Novo7
