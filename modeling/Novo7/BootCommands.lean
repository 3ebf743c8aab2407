import Novo7.BootAreaBlocks
import Novo7.Dispatch

/-!
# Boot area commands

`BCMD_DISKREAD` and `BCMD_DISKWRITE` hand the start of their range, narrowed to 32 bits, to
`PHY_Boot0Read` and its siblings. Nobody compares the range with the size of the area, as
`LML_Read` and `LML_Write` do for the disk, so a command for sectors that the area does not have
is carried out on others.
-/

namespace Novo7

open Machine Buffer

/-! ## Operations that succeed -/

section Status

variable {α : Type} {env : BootEnv α} {g : BootGeometry}

/-- The chip, if it did everything it was asked for. -/
def BootEnv.quiet (env : BootEnv α) : BootEnv α := { env with status := fun _ => 0 }

theorem readPageNo_quiet {dev : BootDev α} {pg : Nat} (h : (readPageNo env g dev pg).2.1 = 0) :
    readPageNo env g dev pg = readPageNo env.quiet g dev pg := by
  have hst : env.status dev.ops = 0 := h
  simp only [readPageNo, readSinglePage, hst]
  rfl

theorem readHead_quiet {spp off : Nat} {s : ReadState α} (h : (readHead env g spp off s).res = 0) :
    readHead env g spp off s = readHead env.quiet g spp off s := by
  unfold readHead at h ⊢
  by_cases hoff : off > 0
  · rw [if_pos hoff] at h
    rw [if_pos hoff, if_pos hoff, readPageNo_quiet h]
  · rw [if_neg hoff, if_neg hoff]

theorem readWhole_quiet {spp n : Nat} : ∀ {s : ReadState α}, (readWhole env g spp n s).res = 0 →
    s.res = 0 ∧ readWhole env g spp n s = readWhole env.quiet g spp n s := by
  induction n with
  | zero => exact fun h => ⟨h, rfl⟩
  | succ n ih =>
      intro s h
      by_cases hs : s.res = 0
      · rw [readWhole, if_pos hs] at h
        obtain ⟨hpage, heq⟩ := ih h
        refine ⟨hs, ?_⟩
        rw [readWhole, readWhole, if_pos hs, if_pos hs, ← readPageNo_quiet hpage]
        exact heq
      · rw [readWhole, if_neg hs] at h
        exact absurd h hs

theorem readTail_quiet {off : Nat} {s : ReadState α} (h : (readTail env g off s).res = 0) :
    s.res = 0 ∧ readTail env g off s = readTail env.quiet g off s := by
  unfold readTail at h ⊢
  by_cases hs : s.res = 0 ∧ off > 0
  · rw [if_pos hs] at h
    rw [if_pos hs, if_pos hs, readPageNo_quiet h]
    exact ⟨hs.1, rfl⟩
  · rw [if_neg hs] at h
    rw [if_neg hs, if_neg hs]
    exact ⟨h, rfl⟩

/-- A read that succeeds is one in which every operation did. -/
theorem bootareaRead_quiet {dev : BootDev α} {first count bufp bootnum : Nat} {buf : Nat → α}
    (h : (bootareaRead env g dev first count buf bufp bootnum).2.1 = 0) :
    bootareaRead env g dev first count buf bufp bootnum =
      bootareaRead env.quiet g dev first count buf bufp bootnum := by
  unfold bootareaRead at h ⊢
  simp only at h ⊢
  obtain ⟨hwhole, htail⟩ := readTail_quiet h
  obtain ⟨hhead, hwhole⟩ := readWhole_quiet hwhole
  rw [htail, hwhole, readHead_quiet hhead]

theorem readHead_flash (spp off : Nat) (s : ReadState α) :
    (readHead env g spp off s).dev.flash = s.dev.flash := by
  unfold readHead
  split <;> rfl

theorem readWhole_flash (spp n : Nat) : ∀ s : ReadState α,
    (readWhole env g spp n s).dev.flash = s.dev.flash := by
  induction n with
  | zero => exact fun _ => rfl
  | succ n ih =>
      intro s
      unfold readWhole
      split
      · exact ih _
      · rfl

theorem readTail_flash (off : Nat) (s : ReadState α) :
    (readTail env g off s).dev.flash = s.dev.flash := by
  unfold readTail
  split <;> rfl

theorem bootareaRead_flash (dev : BootDev α) (first count bufp bootnum : Nat) (buf : Nat → α) :
    (bootareaRead env g dev first count buf bufp bootnum).1.flash = dev.flash := by
  unfold bootareaRead
  simp only
  rw [readTail_flash, readWhole_flash, readHead_flash]

theorem readHead_res (hok : env.AllOk) (spp off : Nat) {s : ReadState α} (hs : s.res = 0) :
    (readHead env g spp off s).res = 0 := by
  unfold readHead
  split
  · exact hok _
  · exact hs

theorem readWhole_res (hok : env.AllOk) (spp n : Nat) : ∀ {s : ReadState α}, s.res = 0 →
    (readWhole env g spp n s).res = 0 := by
  induction n with
  | zero => exact fun hs => hs
  | succ n ih =>
      intro s hs
      rw [readWhole, if_pos hs]
      exact ih (hok _)

theorem readTail_res (hok : env.AllOk) (off : Nat) {s : ReadState α} (hs : s.res = 0) :
    (readTail env g off s).res = 0 := by
  unfold readTail
  split
  · exact hok _
  · exact hs

theorem bootareaRead_res (hok : env.AllOk) (dev : BootDev α) (first count bufp bootnum : Nat)
    (buf : Nat → α) : (bootareaRead env g dev first count buf bufp bootnum).2.1 = 0 := by
  unfold bootareaRead
  exact readTail_res hok _ (readWhole_res hok _ _ (readHead_res hok _ _ rfl))

theorem writePages_res (hok : env.AllOk) (spp block : Nat) (data : Nat → α) (n : Nat) :
    ∀ (page : Nat) (dev : BootDev α), (writePages env spp block data page n dev).2 = 0 := by
  induction n with
  | zero => exact fun _ _ => rfl
  | succ n ih =>
      intro page dev
      obtain ⟨⟨w, res⟩, hw⟩ :
          ∃ w, simpleWrite env dev block page (fun i => data (page * spp + i)) = w := ⟨_, rfl⟩
      obtain rfl : res = 0 := by
        rw [← show (simpleWrite env dev block page _).2 = res from congrArg Prod.snd hw]
        exact hok _
      rw [writePages, hw]
      exact ih _ _

theorem rewriteBlock_res (hok : env.AllOk) (spp block : Nat) (data : Nat → α) (dev : BootDev α) :
    (rewriteBlock env g spp block data dev).2 = 0 := by
  obtain ⟨⟨w, res⟩, hw⟩ : ∃ w, simpleErase env dev (block % 2 ^ 16) = w := ⟨_, rfl⟩
  obtain rfl : res = 0 := by
    rw [← show (simpleErase env dev (block % 2 ^ 16)).2 = res from congrArg Prod.snd hw]
    exact hok _
  rw [rewriteBlock, hw]
  exact writePages_res hok _ _ _ _ _ _

theorem fillRest_res (hok : env.AllOk) (buf : Nat → α) (bootnum bsector : Nat) (s : WriteState α)
    (dev : BootDev α) (pageCache : Nat → α) :
    (fillRest env g buf bootnum bsector s dev pageCache).2.1 = 0 := by
  rw [fillRest]
  split
  · exact bootareaRead_res hok _ _ _ _ _ _
  · rfl

theorem fillHead_res (hok : env.AllOk) (buf : Nat → α) (bootnum bsector : Nat)
    (s : WriteState α) : (fillHead env g buf bootnum bsector s).2.1 = 0 := by
  have hread := bootareaRead_res (g := g) hok s.dev
    (sub32 (s.block * (sectcntInPage g bootnum * g.pageCntOfPhyBlk))
      (bootFirstPage bootnum * sectcntInPage g bootnum)) bsector 0 bootnum s.pageCache
  obtain ⟨⟨dev, res, pageCache⟩, hr⟩ : ∃ r, bootareaRead env g s.dev
    (sub32 (s.block * (sectcntInPage g bootnum * g.pageCntOfPhyBlk))
      (bootFirstPage bootnum * sectcntInPage g bootnum)) bsector s.pageCache 0 bootnum = r :=
    ⟨_, rfl⟩
  rw [hr] at hread
  obtain rfl : res = 0 := hread
  rw [fillHead, hr]
  dsimp only
  rw [if_pos rfl]
  exact fillRest_res hok buf bootnum bsector s dev pageCache

theorem writeHead_res (hok : env.AllOk) (buf : Nat → α) (bootnum bsector : Nat)
    {s : WriteState α} (hs : s.res = 0) : (writeHead env g buf bootnum bsector s).res = 0 := by
  by_cases hb : bsector > 0
  · have hfill := fillHead_res (g := g) hok buf bootnum bsector s
    obtain ⟨⟨dev, res, count, pageCache⟩, hr⟩ : ∃ r, fillHead env g buf bootnum bsector s = r :=
      ⟨_, rfl⟩
    rw [hr] at hfill
    obtain rfl : res = 0 := hfill
    rw [writeHead, if_pos hb, hr]
    dsimp only
    rw [if_pos rfl]
    exact rewriteBlock_res hok _ _ _ _
  · rw [writeHead, if_neg hb]
    exact hs

theorem writeWhole_res (hok : env.AllOk) (spp : Nat) (buf : Nat → α) (n : Nat) :
    ∀ {s : WriteState α}, s.res = 0 → (writeWhole env g spp buf n s).res = 0 := by
  induction n with
  | zero => exact fun hs => hs
  | succ n ih =>
      intro s hs
      rw [writeWhole, if_pos hs]
      exact ih (rewriteBlock_res hok _ _ _ _)

theorem writeTail_res (hok : env.AllOk) (buf : Nat → α) (bootnum bsector : Nat)
    {s : WriteState α} (hs : s.res = 0) : (writeTail env g buf bootnum bsector s).2 = 0 := by
  by_cases hb : s.res = 0 ∧ bsector > 0
  · rw [writeTail, if_pos hb]
    obtain ⟨⟨dev, res, pageCache⟩, hr⟩ : ∃ r, bootareaRead env g s.dev
      (u32 (sub32 (s.block * (sectcntInPage g bootnum * g.pageCntOfPhyBlk))
        (bootFirstPage bootnum * sectcntInPage g bootnum) + bsector))
      (sectcntInPage g bootnum * g.pageCntOfPhyBlk - bsector)
      (store s.pageCache 0 bsector fun i => buf (s.bufp + i)) bsector bootnum = r := ⟨_, rfl⟩
    obtain rfl : res = 0 := by
      rw [← show (bootareaRead env g s.dev _ _ _ _ _).2.1 = res from
        congrArg (fun r => r.2.1) hr]
      exact bootareaRead_res hok _ _ _ _ _ _
    rw [hr]
    dsimp only
    rw [if_pos rfl]
    exact rewriteBlock_res hok _ _ _ _
  · rw [writeTail, if_neg hb]
    exact hs

/-- A write in which every operation succeeds returns zero, wherever it goes. -/
theorem bootareaWrite_res (hok : env.AllOk) (junk : Nat → α) (dev : BootDev α)
    (first count : Nat) (buf : Nat → α) (bootnum : Nat) :
    (bootareaWrite env g junk dev first count buf bootnum).2 = 0 := by
  unfold bootareaWrite
  exact writeTail_res hok _ _ _ (writeWhole_res hok _ _ _ (writeHead_res hok _ _ _ rfl))

end Status

/-! ## The commands -/

/-- The bytes of a sector. -/
abbrev Sector := Fin 512 → UInt8

/-- The sectors in memory from an address on. -/
def sectorsAt (mem : Nat → UInt8) (addr i : Nat) : Sector := fun j => mem (addr + 512 * i + j)

/-- The memory with sectors put there from an address on. -/
def putSectors (mem : Nat → UInt8) (addr : Nat) (buf : Nat → Sector) : Nat → UInt8 := fun a =>
  if addr ≤ a then buf ((a - addr) / 512) ⟨(a - addr) % 512, Nat.mod_lt _ (by decide)⟩ else mem a

theorem sectorsAt_putSectors (mem : Nat → UInt8) (addr : Nat) (buf : Nat → Sector) :
    sectorsAt (putSectors mem addr buf) addr = buf := by
  funext i j
  have hsub : addr + 512 * i + j - addr = 512 * i + j := by omega
  have hdiv : (512 * i + j) / 512 = i := by omega
  have hmod : (512 * i + j) % 512 = j := by omega
  simp only [sectorsAt, putSectors, if_pos (show addr ≤ addr + 512 * i + j by omega), hsub, hdiv,
    hmod]

variable {ρ : Type}

/-- `PHY_Boot0Read` and `PHY_Boot1Read`. -/
def phyBootRead (env : BootEnv Sector) (g : BootGeometry) (bootnum : Nat) :
    ReadOp (BootDev Sector × ρ) :=
  fun nand first count addr mem =>
    let (dev, res, buf) := bootareaRead env g nand.1 first count (sectorsAt mem addr) 0 bootnum
    ((dev, nand.2), putSectors mem addr buf, res)

/-- `PHY_Boot0Write` and `PHY_Boot1Write`. -/
def phyBootWrite (env : BootEnv Sector) (g : BootGeometry) (junk : Nat → Sector) (bootnum : Nat) :
    WriteOp (BootDev Sector × ρ) :=
  fun nand first count addr mem =>
    let (dev, res) := bootareaWrite env g junk nand.1 first count (sectorsAt mem addr) bootnum
    ((dev, nand.2), res)

/-- The flash driver with its boot areas and what it tells of them. -/
def DispatchEnv.withBoot (d : DispatchEnv (BootDev Sector × ρ)) (n : NandStorageInfo)
    (h : n.Regular) (env : BootEnv Sector) (junk : Nat → Sector) :
    DispatchEnv (BootDev Sector × ρ) :=
  { d with
    fmtGetFlashMemProperties := fun _ => n.fmtGetFlashMemProperties
    phyBoot0Read := phyBootRead env (n.bootGeometry h) 0
    phyBoot1Read := phyBootRead env (n.bootGeometry h) 1
    phyBoot0Write := phyBootWrite env (n.bootGeometry h) junk 0
    phyBoot1Write := phyBootWrite env (n.bootGeometry h) junk 1 }

/-- The area has the sectors as the host is told, and they are on the chip. -/
def NandStorageInfo.InArea (n : NandStorageInfo) (h : n.Regular) (bootnum start count : Nat) :
    Prop :=
  start + count ≤ (n.bootArea bootnum).sectors ∧
    chipSector (n.bootGeometry h) bootnum start + count ≤
      sectcntInPage (n.bootGeometry h) bootnum * n.pageCntPerPhyBlk *
        (n.blkCntPerDie * n.dieCntPerChip)

/-- A read fails, or the buffer then holds the sectors that were asked for; nothing is erased or
written in either case. -/
def ReadContained (n : NandStorageInfo) (h : n.Regular) (env : BootEnv Sector)
    (bootnum start count : Nat) (s : Board (BootDev Sector × ρ))
    (r : Board (BootDev Sector × ρ) × Int) : Prop :=
  r.1.msc.nand.1.flash = s.msc.nand.1.flash ∧
    (r.2 ≠ 0 ∨ n.InArea h bootnum start count ∧
      sectorsAt r.1.mem transferBuffer = store (sectorsAt s.mem transferBuffer) 0 count fun i =>
        sectorAt env (n.bootGeometry h) (sectcntInPage (n.bootGeometry h) bootnum)
          s.msc.nand.1.flash (chipSector (n.bootGeometry h) bootnum start + i))

/-- A write fails and leaves the chip as it is, or it stores the buffer in the sectors it was
asked to write and nowhere else. -/
def WriteContained (n : NandStorageInfo) (h : n.Regular) (env : BootEnv Sector)
    (bootnum start count : Nat) (s : Board (BootDev Sector × ρ))
    (r : Board (BootDev Sector × ρ) × Int) : Prop :=
  (r.2 ≠ 0 ∧ r.1.msc.nand.1.flash = s.msc.nand.1.flash) ∨
    (n.InArea h bootnum start count ∧
      StoresRange env (n.bootGeometry h) bootnum s.msc.nand.1 start count
        (sectorsAt s.mem transferBuffer) (r.1.msc.nand.1, r.2))

section Commands

variable {n : NandStorageInfo} {h : n.Regular} {d : DispatchEnv (BootDev Sector × ρ)}
  {env : BootEnv Sector} {junk : Nat → Sector} {s : Board (BootDev Sector × ρ)}
  {bootnum start count : Nat}

theorem diskRead_boot (hb : bootnum = 0 ∨ bootnum = 1) {dev : BootDev Sector} {res : Int}
    {buf : Nat → Sector}
    (hr : bootareaRead env (n.bootGeometry h) s.msc.nand.1 (u32 start) count
      (sectorsAt s.mem transferBuffer) 0 bootnum = (dev, res, buf)) :
    diskRead (d.withBoot n h env junk) s bootnum start count =
      ({ s with
        msc := { s.msc with nand := (dev, s.msc.nand.2) }
        mem := putSectors s.mem transferBuffer buf }, res) := by
  rcases hb with rfl | rfl <;>
    simp only [diskRead, DispatchEnv.withBoot, phyBootRead, hr]

theorem diskWrite_boot (hb : bootnum = 0 ∨ bootnum = 1) {datasize : Nat} {dev : BootDev Sector}
    {res : Int}
    (hr : bootareaWrite env (n.bootGeometry h) junk s.msc.nand.1 (u32 start) (datasize / 512)
      (sectorsAt s.mem transferBuffer) bootnum = (dev, res)) :
    diskWrite (d.withBoot n h env junk) s bootnum start datasize =
      ({ s with msc := { s.msc with nand := (dev, s.msc.nand.2) } }, res) := by
  rcases hb with rfl | rfl <;>
    simp only [diskWrite, DispatchEnv.withBoot, phyBootWrite, hr]

namespace NandStorageInfo.InArea

/-- What lies on the chip lies in the blocks that can be addressed. -/
theorem fits (hin : n.InArea h bootnum start count) :
    chipSector (n.bootGeometry h) bootnum start + count ≤
      sectcntInPage (n.bootGeometry h) bootnum * (n.bootGeometry h).pageCntOfPhyBlk * 2 ^ 16 := by
  refine Nat.le_trans hin.2 (Nat.mul_le_mul_left _ ?_)
  have hz : n.dieCntPerChip * n.zones ≤ 8 := h.zones
  have hp := h.planes_le
  have hblk : n.blkCntPerDie * n.dieCntPerChip =
      1024 * (n.dieCntPerChip * n.zones * n.planeCntPerDie) := by
    conv_lhs => rw [h.blocks]
    rw [NandStorageInfo.zones]
    ring
  have := Nat.mul_le_mul hz hp
  omega

/-- The start of such a range is not changed on its way to the flash routine. -/
theorem start_eq (hin : n.InArea h bootnum start count) : u32 start = start := by
  have hlt := chipSector_lt hin.fits
  unfold chipSector at hlt
  exact u32_of_lt (by omega)

end NandStorageInfo.InArea

/-- Without a failure of the chip, a read is contained exactly if the area has the range. -/
theorem readContained_iff (hb : bootnum = 0 ∨ bootnum = 1) (hin : n.InArea h bootnum start count ∨
      env.AllOk) :
    ReadContained n h env bootnum start count s
        (diskRead (d.withBoot n h env junk) s bootnum start count) ↔
      n.InArea h bootnum start count := by
  obtain ⟨⟨dev, res, buf⟩, hr⟩ : ∃ r, bootareaRead env (n.bootGeometry h) s.msc.nand.1 (u32 start)
    count (sectorsAt s.mem transferBuffer) 0 bootnum = r := ⟨_, rfl⟩
  rw [diskRead_boot hb hr]
  constructor
  · rintro ⟨-, hres | ⟨hin, -⟩⟩
    · rcases hin with hin | hok
      · exact hin
      · have h0 := bootareaRead_res (g := n.bootGeometry h) hok s.msc.nand.1 (u32 start) count 0
          bootnum (sectorsAt s.mem transferBuffer)
        rw [hr] at h0
        exact absurd h0 hres
    · exact hin
  · intro hin
    have hflash := @bootareaRead_flash Sector env (n.bootGeometry h) s.msc.nand.1
      (u32 start) count 0 bootnum (sectorsAt s.mem transferBuffer)
    rw [hr] at hflash
    refine ⟨hflash, ?_⟩
    by_cases hres : res = 0
    · refine Or.inr ⟨hin, ?_⟩
      have hquiet := bootareaRead_quiet (show (bootareaRead env (n.bootGeometry h) s.msc.nand.1
        (u32 start) count (sectorsAt s.mem transferBuffer) 0 bootnum).2.1 = 0 by rw [hr, hres])
      have hfits := hin.fits
      rw [chipSector, Nat.add_comm start, Nat.mul_comm _ (2 ^ 16)] at hfits
      obtain ⟨dev', buf', hread, -, hbuf⟩ := @bootareaRead_ok Sector env.quiet
        (n.bootGeometry h) s.msc.nand.1 (fun _ => rfl) bootnum start count 0
        (sectorsAt s.mem transferBuffer) hfits
      rw [hr, hin.start_eq, hread] at hquiet
      obtain rfl : buf = buf' := congrArg (fun r => r.2.2) hquiet
      rw [sectorsAt_putSectors, hbuf, chipSector, Nat.add_comm start]
      rfl
    · exact Or.inl hres

end Commands

/-- A board whose chip is erased and never fails, with nothing else in its flash driver. -/
def idleDriver : DispatchEnv (BootDev Sector × Unit) where
  vsprintf _ _ := Line.empty
  fmtGetFlashMemProperties _ := ⟨fun _ => ⟨0, 0, 0⟩, 0, 0, 0, 0, 0, 0⟩
  phyBoot0Read nand _ _ _ mem := (nand, mem, 0)
  phyBoot1Read nand _ _ _ mem := (nand, mem, 0)
  nandLogicRead nand _ _ _ mem := (nand, mem, 0)
  phyBoot0Write nand _ _ _ _ := (nand, 0)
  phyBoot1Write nand _ _ _ _ := (nand, 0)
  lmlWrite nand _ _ _ _ := (nand, 0)
  lmlFlushPageCache nand := (nand, 0)
  info := oneChip
  resetBoard := 0x4a001000
  call _ s := (s, [])

def erasedBoard : Board (BootDev Sector × Unit) :=
  ⟨fun _ => 0, logBase, Nat.le_refl _, logBase_le, 0, false, 0xffff0020,
    mscInit (⟨fun _ _ => none, 0⟩, ()) fun _ => 0⟩

def erasedChip : BootEnv Sector := ⟨fun _ => 0, fun _ _ _ => 0xff, fun _ => 0xff⟩

end Novo7
