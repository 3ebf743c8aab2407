import Novo7.DiskRange
import Novo7.PageStore
import Novo7.SectorRange

/-!
# The disk by sectors

`LML_Write`, `LML_Read` and `LML_FlushPageCache` over the pages. A range of sectors is written page by
page; sectors that do not fill a page wait in the page cache, and a page that leaves it gets
the rest of its sectors from the flash first. `SectorsOK` relates all of it to a plain map from sector
numbers to contents.

`lmlWrite_writes` and `lmlRead_reads`: a write changes the sectors of its range to what the caller's
buffer has, a read gives the sectors as they have been written, whether they are in the page
cache or on the flash; `diskOps_run` puts any number of them together.
-/

namespace Novo7

open Traced

/-! ## Sectors of an abstract disk -/

/-- What is known of the sectors: the contents of those that have been written. -/
abbrev Sectors := Nat → Option Buf

/-- The sectors of a range are written, with 256 halfwords of `data` each. -/
def Sectors.write (V : Sectors) (first count : Nat) (data : Buf) : Sectors := fun m =>
  if first ≤ m ∧ m < first + count then some fun t => data ((m - first) * 256 + t) else V m

/-- The sectors of `bitmap` are written in page `n` of `cnt` sectors, from a buffer for the page. -/
def Sectors.put (V : Sectors) (cnt n bitmap : Nat) (src : Buf) : Sectors := fun m =>
  if m / cnt = n ∧ bitmap.testBit (m % cnt) = true then some fun t => src (256 * (m % cnt) + t) else V m

section Sectors

variable {V : Sectors} {first count cnt n bitmap : Nat} {data src : Buf}

theorem Sectors.write_zero : Sectors.write V first 0 data = V := by
  funext m
  exact if_neg (by omega)

theorem Sectors.put_bit {j : Nat} (hj : j < cnt) (hbit : bitmap.testBit j = true) :
    Sectors.put V cnt n bitmap src (n * cnt + j) = some fun t => src (256 * j + t) := by
  have hdiv : (n * cnt + j) / cnt = n := by
    rw [Nat.mul_comm, Nat.mul_add_div (by omega), Nat.div_eq_of_lt hj, Nat.add_zero]
  have hmod : (n * cnt + j) % cnt = j := by
    rw [Nat.mul_comm, Nat.mul_add_mod, Nat.mod_eq_of_lt hj]
  rw [Sectors.put, if_pos ⟨hdiv, by rw [hmod]; exact hbit⟩, hmod]

theorem Sectors.put_not {n' j : Nat} (hj : j < cnt) (h : n' ≠ n ∨ bitmap.testBit j ≠ true) :
    Sectors.put V cnt n bitmap src (n' * cnt + j) = V (n' * cnt + j) := by
  have hdiv : (n' * cnt + j) / cnt = n' := by
    rw [Nat.mul_comm, Nat.mul_add_div (by omega), Nat.div_eq_of_lt hj, Nat.add_zero]
  have hmod : (n' * cnt + j) % cnt = j := by
    rw [Nat.mul_comm, Nat.mul_add_mod, Nat.mod_eq_of_lt hj]
  rw [Sectors.put, if_neg]
  rw [hdiv, hmod]
  exact fun hboth => h.elim (fun hne => hne hboth.1) fun hbit => hbit hboth.2

end Sectors

/-! ## The page cache over the pages -/

theorem LogicArchi.InDisk.ne_none {ar : LogicArchi} {n : Nat} (har : ar.Fits) (hn : ar.InDisk n) :
    n ≠ 0xffffffff := by
  have hzones := har.zones
  have hblks := har.dataBlks
  have hmaps := har.maps
  unfold LogicArchi.InDisk at hn
  have h₁ : ar.dieCntOfNand * ar.zoneCntOfDie * ar.dataBlkCntOfZone ≤ 255 * 1022 :=
    Nat.mul_le_mul (by omega) (by omega)
  have h₂ : ar.dieCntOfNand * ar.zoneCntOfDie * ar.dataBlkCntOfZone * ar.pageCntOfLogicBlk ≤
      255 * 1022 * 1022 := Nat.mul_le_mul h₁ hmaps
  omega

/-- Sector `j` of page `n` is in the page cache. -/
def Ftl.InCache (s : Ftl) (n j : Nat) : Prop :=
  s.cachePage.logicPageNum = n ∧ s.cachePage.sectorBitmap.testBit j = true

/-- The disk has the sectors `V`, in the page cache or in its pages. -/
structure SectorsOK {ar : LogicArchi} (L : ZoneLayout ar) (V : Sectors) (s : Ftl) :
    Prop where
  pages : ∃ D, DiskOK L D s ∧ ∀ n j, j < ar.sectorCntOfLogicPage → ∀ v,
    V (n * ar.sectorCntOfLogicPage + j) = some v → ¬s.InCache n j →
      ∃ buf, D n = some buf ∧ ∀ t < 256, buf (256 * j + t) = v t
  cache : ∀ n j, j < ar.sectorCntOfLogicPage → ∀ v, V (n * ar.sectorCntOfLogicPage + j) = some v →
    s.InCache n j → ∀ t < 256, s.writePageCache (256 * j + t) = v t
  known : ∀ n j, j < ar.sectorCntOfLogicPage → ∀ v, V (n * ar.sectorCntOfLogicPage + j) = some v →
    ar.InDisk n
  page : s.cachePage.logicPageNum ≠ 0xffffffff → ar.InDisk s.cachePage.logicPageNum

section Cache

variable {ar : LogicArchi} {env : NandEnv} {L : ZoneLayout ar} {F : Int → Ftl → Prop}
  {V : Sectors} {D : Nat → Option Buf} {n : Nat} {s : Ftl}

theorem DiskOK.setBuffers (h : DiskOK L D s) (c : GlobalLogicPage) (b : Buf) (m : Int → Nat) :
    DiskOK L D { s with cachePage := c, writePageCache := b, host := m } where
  coherent := h.coherent.withOutside (s.logicalCtl, c, b, m, s.logAccessAge, s.logAccessTimer)
  ages := ⟨h.ages.timer, h.ages.young, h.ages.other⟩
  ctl := ⟨h.ctl.zone, h.ctl.blks⟩
  holds := h.holds

theorem fullBitmap_bit {j : Nat} (hj : j < ar.sectorCntOfLogicPage) :
    ar.fullBitmapOfLogicPage.testBit j = true := fullBitmap_testBit hj

theorem sector_lt {cnt j t : Nat} (hj : j < cnt) (ht : t < 256) : 256 * j + t < 256 * cnt := by
  omega

theorem sector_div {j t : Nat} (ht : t < 256) : (256 * j + t) / 256 = j := by
  omega

theorem copySectors_bit {bitmap j t : Nat} {src dst : Buf} (ht : t < 256)
    (hbit : bitmap.testBit j = true) : copySectors bitmap src dst (256 * j + t) = src (256 * j + t) := by
  rw [copySectors, sector_div ht, if_pos hbit]

theorem copySectors_not {bitmap j t : Nat} {src dst : Buf} (ht : t < 256)
    (hbit : bitmap.testBit j ≠ true) : copySectors bitmap src dst (256 * j + t) = dst (256 * j + t) := by
  rw [copySectors, sector_div ht, if_neg hbit]

/-- The page cache is empty, and the sectors are what they were. -/
structure CacheStored (L : ZoneLayout ar) (V : Sectors) (s s' : Ftl) : Prop where
  sectors : SectorsOK L V s'
  empty : s'.cachePage.logicPageNum = 0xffffffff
  host : s'.host = s.host
  diskCap : s'.logicalCtl.diskCap = s.logicalCtl.diskCap

theorem writePageCacheToNand_stores (har : ar.Fits) (hcopy : ar.CopiesExactly) (henv : env.NoFailure)
    (h : SectorsOK L V s) :
    WP anyRun (writePageCacheToNand ar env) (fun _ s' => CacheStored L V s s') F s := by
  obtain ⟨D, hdisk, hpages⟩ := h.pages
  refine WP.bind (WP.get (WP.when (fun hpage => ?_) fun hempty =>
    ⟨h, not_not.mp hempty, rfl, rfl⟩))
  have hon := h.page hpage
  -- the sectors that are not in the cache come from the page
  have hfill : WP anyRun (when (s.cachePage.sectorBitmap ≠ ar.fullBitmapOfLogicPage) do
        let _ ← failWith (lmlPageRead ar env s.cachePage.logicPageNum
          (s.cachePage.sectorBitmap ^^^ ar.fullBitmapOfLogicPage) .writePageCache) (-1))
      (fun _ s' => DiskOK L D s' ∧ s'.host = s.host ∧
        s'.logicalCtl.diskCap = s.logicalCtl.diskCap ∧
        ∀ j < ar.sectorCntOfLogicPage, ∀ v,
          V (s.cachePage.logicPageNum * ar.sectorCntOfLogicPage + j) = some v →
            ∀ t < 256, s'.writePageCache (256 * j + t) = v t) F s := by
    refine WP.when (fun _ => WP.bind (WP.orElse
      ((lmlPageRead_reads har hcopy henv hdisk hon _ _).imp ?_))) fun hfull => ?_
    · rintro _ _ ⟨-, s₁, main, hdisk₁, hbuf, hmain, rfl⟩
      obtain ⟨-, hwrite, hhost, hcap⟩ := by simpa [Ftl.buffers] using hbuf
      refine WP.pure ⟨hdisk₁.setBuffers _ _ _, hhost, hcap, fun j hj v hv t ht => ?_⟩
      have hxor : (s.cachePage.sectorBitmap ^^^ ar.fullBitmapOfLogicPage).testBit j =
          !s.cachePage.sectorBitmap.testBit j := by
        rw [Nat.testBit_xor, fullBitmap_bit hj, Bool.xor_true]
      show copySectors _ main s₁.writePageCache (256 * j + t) = v t
      by_cases hin : s.InCache s.cachePage.logicPageNum j
      · rw [copySectors_not ht (by rw [hxor, hin.2]; decide), hwrite]
        exact h.cache _ j hj v hv hin t ht
      · obtain ⟨buf, hD, hval⟩ := hpages _ j hj v hv hin
        rw [copySectors_bit ht (by rw [hxor, Bool.not_eq_true', ← Bool.not_eq_true];
                                   exact fun hbit => hin ⟨rfl, hbit⟩),
          hmain buf hD _ (sector_lt hj ht)]
        exact hval t ht
    · refine ⟨hdisk, rfl, rfl, fun j hj v hv => h.cache _ j hj v hv ⟨rfl, ?_⟩⟩
      rw [not_not.mp hfull]
      exact fullBitmap_bit hj
  refine WP.bind (hfill.imp ?_)
  rintro _ s₂ ⟨hdisk₂, hhost₂, hcap₂, hval₂⟩
  refine WP.bind (WP.orElse ((lmlPageWrite_writes har hcopy henv hdisk₂ hon _).imp ?_))
  rintro _ s₃ ⟨hdisk₃, hbuf₃⟩
  obtain ⟨-, -, hhost₃, hcap₃⟩ := by simpa [Ftl.buffers] using hbuf₃
  refine WP.modify ⟨⟨⟨_, hdisk₃.setBuffers ⟨0xffffffff, 0⟩ s₃.writePageCache s₃.host,
    fun m j hj v hv _ => ?_⟩, fun m j hj v hv hin => ?_, h.known, fun hne => absurd rfl hne⟩, rfl,
    hhost₃.trans hhost₂, hcap₃.trans hcap₂⟩
  · by_cases hm : m = s.cachePage.logicPageNum
    · subst hm
      exact ⟨_, Function.update_self .., hval₂ j hj v hv⟩
    · rw [Function.update_of_ne hm]
      exact hpages m j hj v hv fun hin => hm hin.1.symm
  · exact absurd hin.1.symm ((h.known m j hj v hv).ne_none har)

theorem lmlFlushPageCache_stores (har : ar.Fits) (hcopy : ar.CopiesExactly) (henv : env.NoFailure)
    (h : SectorsOK L V s) :
    WP anyRun (lmlFlushPageCache ar env) (fun _ s' => CacheStored L V s s') F s := by
  refine WP.bind (WP.orElse ((writePageCacheToNand_stores har hcopy henv h).imp fun _ s₁ h₁ => ?_))
  obtain ⟨D, hdisk, hpages⟩ := h₁.sectors.pages
  refine WP.orElse ((closeWritePage_closes hdisk.coherent.clear).imp ?_)
  rintro _ _ rfl
  have hstep : Onward L s₁ (s₁.setLogicalCtl ({ · with opMode := .none })) :=
    (Onward.refl hdisk.coherent hdisk.ages).thenCtl rfl
  exact ⟨⟨⟨D, hdisk.onward har hstep ⟨hdisk.ctl.zone, hdisk.ctl.blks⟩, hpages⟩, h₁.sectors.cache,
    h₁.sectors.known, h₁.sectors.page⟩, h₁.empty, h₁.host, h₁.diskCap⟩

/-- Sectors of page `n` are written from the memory of the caller. -/
structure PagePutIn (L : ZoneLayout ar) (V : Sectors) (n bitmap : Nat) (off : Int)
    (s s' : Ftl) : Prop where
  sectors : SectorsOK L
    (Sectors.put V ar.sectorCntOfLogicPage n bitmap (PageBuf.load s (.host off))) s'
  host : s'.host = s.host
  diskCap : s'.logicalCtl.diskCap = s.logicalCtl.diskCap

theorem SectorsOK.known_put (h : SectorsOK L V s) (hon : ar.InDisk n) {bitmap m j : Nat}
    {src v : Buf} (hj : j < ar.sectorCntOfLogicPage)
    (hv : Sectors.put V ar.sectorCntOfLogicPage n bitmap src (m * ar.sectorCntOfLogicPage + j) = some v) :
    ar.InDisk m := by
  by_cases hm : m = n
  · rw [hm]
    exact hon
  · rw [Sectors.put_not hj (.inl hm)] at hv
    exact h.known m j hj v hv

/-- The sectors are merged into the page cache. -/
theorem mergeCachePageData_puts (har : ar.Fits) (h : SectorsOK L V s) (hon : ar.InDisk n)
    (hpage : s.cachePage.logicPageNum = n ∨ s.cachePage.logicPageNum = 0xffffffff) (bitmap : Nat)
    (off : Int) :
    WP anyRun (mergeCachePageData n bitmap off) (fun _ s' => PagePutIn L V n bitmap off s s') F s := by
  refine WP.modify ?_
  have hcache : ∃ old, (if s.cachePage.logicPageNum = 0xffffffff then ⟨n, 0⟩ else s.cachePage) =
      (⟨n, old⟩ : GlobalLogicPage) ∧ ∀ j, old.testBit j = true ↔ s.InCache n j := by
    rcases hpage with hsame | hempty
    · refine ⟨s.cachePage.sectorBitmap, ?_, fun j => ⟨fun hbit => ⟨hsame, hbit⟩, And.right⟩⟩
      rw [if_neg (by rw [hsame]; exact hon.ne_none har), ← hsame]
    · refine ⟨0, if_pos hempty, fun j => ⟨fun hbit => ?_, fun hin => ?_⟩⟩
      · rw [Nat.zero_testBit] at hbit
        cases hbit
      · exact absurd (hin.1.symm.trans hempty) (hon.ne_none har)
  obtain ⟨old, hold, hbits⟩ := hcache
  dsimp only
  rw [hold]
  obtain ⟨D, hdisk, hpages⟩ := h.pages
  have hin {m j : Nat} : Ftl.InCache { s with
        writePageCache := copySectors bitmap (PageBuf.load s (.host off)) s.writePageCache
        cachePage := ⟨n, old ||| bitmap⟩ } m j ↔
      n = m ∧ (s.InCache n j ∨ bitmap.testBit j = true) := by
    rw [← hbits, ← Bool.or_eq_true, ← Nat.testBit_or]
    rfl
  refine ⟨⟨⟨D, hdisk.setBuffers _ _ s.host, fun m j hj v hv hout => ?_⟩, fun m j hj v hv hhas t ht => ?_,
    fun m j hj v hv => h.known_put hon hj hv, fun _ => hon⟩, rfl, rfl⟩
  · rw [hin] at hout
    have hnot : m ≠ n ∨ bitmap.testBit j ≠ true := by
      by_contra hboth
      rw [not_or, not_not, not_not] at hboth
      exact hout ⟨hboth.1.symm, .inr hboth.2⟩
    rw [Sectors.put_not hj hnot] at hv
    refine hpages m j hj v hv fun hcached => hout ?_
    have hmn : n = m := by
      rcases hpage with hsame | hempty
      · exact hsame.symm.trans hcached.1
      · exact absurd (hcached.1.symm.trans hempty) ((h.known m j hj v hv).ne_none har)
    exact ⟨hmn, .inl (hmn ▸ hcached)⟩
  · obtain ⟨rfl, hbit⟩ := hin.mp hhas
    show copySectors bitmap _ s.writePageCache (256 * j + t) = v t
    by_cases hput : bitmap.testBit j = true
    · rw [Sectors.put_bit hj hput] at hv
      rw [copySectors_bit ht hput]
      exact congrFun (Option.some.inj hv) t
    · rw [Sectors.put_not hj (.inr hput)] at hv
      rw [copySectors_not ht hput]
      exact h.cache n j hj v hv (hbit.resolve_right hput) t ht

/-- A whole page is written at once. -/
theorem lmlPageWrite_puts (har : ar.Fits) (hcopy : ar.CopiesExactly) (henv : env.NoFailure)
    (h : SectorsOK L V s) (hon : ar.InDisk n) (hempty : s.cachePage.logicPageNum = 0xffffffff)
    (off : Int) :
    WP anyRun (lmlPageWrite ar env n ar.fullBitmapOfLogicPage (.host off))
      (fun _ s' => PagePutIn L V n ar.fullBitmapOfLogicPage off s s') F s := by
  obtain ⟨D, hdisk, hpages⟩ := h.pages
  refine (lmlPageWrite_writes har hcopy henv hdisk hon _).imp ?_
  rintro _ s₁ ⟨hdisk₁, hbuf⟩
  obtain ⟨hcache, -, hhost, hcap⟩ := by simpa [Ftl.buffers] using hbuf
  have hnone {m j : Nat} (hm : ar.InDisk m) : ¬s₁.InCache m j := fun hin => by
    rw [Ftl.InCache, hcache, hempty] at hin
    exact hm.ne_none har hin.1.symm
  refine ⟨⟨⟨_, hdisk₁, fun m j hj v hv _ => ?_⟩, fun m j hj v hv hin => ?_,
    fun m j hj v hv => h.known_put hon hj hv, fun hne => ?_⟩, hhost, hcap⟩
  · by_cases hm : m = n
    · subst hm
      rw [Sectors.put_bit hj (fullBitmap_bit hj)] at hv
      exact ⟨_, Function.update_self .., fun t _ => congrFun (Option.some.inj hv) t⟩
    · rw [Sectors.put_not hj (.inl hm)] at hv
      rw [Function.update_of_ne hm]
      refine hpages m j hj v hv fun hin => ?_
      exact (h.known m j hj v hv).ne_none har (hin.1.symm.trans hempty)
  · exact absurd hin (hnone (h.known_put hon hj hv))
  · rw [hcache] at hne
    exact absurd hempty hne

end Cache

/-! ## Ranges -/

section Ranges

variable {ar : LogicArchi} {env : NandEnv} {L : ZoneLayout ar} {F : Int → Ftl → Prop}
  {V : Sectors} {first count : Nat} {s : Ftl}

/-- One round of `LML_Write`: into the page cache, or to the flash. -/
theorem writeRound_puts (har : ar.Fits) (hcopy : ar.CopiesExactly) (henv : env.NoFailure)
    (h : SectorsOK L V s) (x : SectPar) {i : Nat} (hon : ar.InDisk (x.page i)) :
    WP anyRun (writeRound ar env x i)
      (fun _ s' => PagePutIn L V (x.page i) (x.bitmap ar i) (x.off ar i) s s') F s := by
  refine WP.bind (WP.get (WP.ite (fun hsame => ?_) fun _ => ?_))
  · exact mergeCachePageData_puts har h hon (.inl hsame.symm) _ _
  refine WP.bind (WP.orElse ((writePageCacheToNand_stores har hcopy henv h).imp fun _ s₁ h₁ => ?_))
  have hput {s' : Ftl} (h' : PagePutIn L V (x.page i) (x.bitmap ar i) (x.off ar i) s₁ s') :
      PagePutIn L V (x.page i) (x.bitmap ar i) (x.off ar i) s s' := by
    have hload : PageBuf.load s₁ (.host (x.off ar i)) = PageBuf.load s (.host (x.off ar i)) := by
      funext j
      rw [PageBuf.load, PageBuf.load, h₁.host]
    exact ⟨hload ▸ h'.sectors, h'.host.trans h₁.host, h'.diskCap.trans h₁.diskCap⟩
  refine WP.ite (fun hfull => WP.orElse ?_) fun _ => ?_
  · rw [hfull]
    refine (lmlPageWrite_puts har hcopy henv h₁.sectors hon h₁.empty _).imp fun _ _ h₂ => ?_
    exact hfull ▸ hput (hfull ▸ h₂)
  · exact (mergeCachePageData_puts har h₁.sectors hon (.inr h₁.empty) _ _).imp fun _ _ => hput

/-- A range of sectors of the disk. -/
def LogicArchi.RangeOn (ar : LogicArchi) (first count : Nat) : Prop :=
  first + count < 2 ^ 32 ∧ ∀ m, first ≤ m → m < first + count → ar.InDisk (m / ar.sectorCntOfLogicPage)

/-- The sectors of the range in the first `i` pages. -/
def doneSectors (ar : LogicArchi) (first count i : Nat) : Nat :=
  min count ((first / ar.sectorCntOfLogicPage + i) * ar.sectorCntOfLogicPage - first)

section Splits

theorem doneSectors_zero (ar : LogicArchi) (first count : Nat) : doneSectors ar first count 0 = 0 := by
  have hle := Nat.div_mul_le_self first ar.sectorCntOfLogicPage
  unfold doneSectors
  rw [Nat.add_zero]
  omega

variable (h1 : 1 ≤ ar.sectorCntOfLogicPage) (hrange : first + count < 2 ^ 32)
include h1 hrange

theorem doneSectors_all :
    doneSectors ar first count (calculateSectPar ar first count).pageCnt = count := by
  have hdiv := Nat.div_add_mod first ar.sectorCntOfLogicPage
  have hnot := mt (lt_pageCnt_iff h1 (range_fits ar hrange) _).mpr
    (Nat.lt_irrefl (calculateSectPar ar first count).pageCnt)
  rw [not_or, Nat.not_lt] at hnot
  unfold doneSectors
  rw [Nat.add_mul]
  rw [Nat.mul_comm] at hdiv
  omega

theorem round_onDisk (hon : ∀ m, first ≤ m → m < first + count →
      ar.InDisk (m / ar.sectorCntOfLogicPage)) (hcount : 1 ≤ count) {i : Nat}
    (hi : i < (calculateSectPar ar first count).pageCnt) :
    ar.InDisk ((calculateSectPar ar first count).page i) := by
  have hdiv := Nat.div_add_mod first ar.sectorCntOfLogicPage
  have hmod := Nat.mod_lt first h1
  rw [Nat.mul_comm] at hdiv
  rw [page_eq h1 hrange hi]
  by_cases hi0 : i = 0
  · rw [hi0, Nat.add_zero]
    exact hon first (Nat.le_refl _) (by omega)
  · have hlt := ((lt_pageCnt_iff h1 (range_fits ar hrange) i).mp hi).resolve_left hi0
    have hone := Nat.le_mul_of_pos_left ar.sectorCntOfLogicPage (Nat.pos_of_ne_zero hi0)
    have hpage := hon ((first / ar.sectorCntOfLogicPage + i) * ar.sectorCntOfLogicPage)
      (by rw [Nat.add_mul]; omega) (by rw [Nat.add_mul]; omega)
    rwa [Nat.mul_div_cancel _ h1] at hpage

variable (h32 : ar.sectorCntOfLogicPage ≤ 32)
include h32

/-- A round adds the sectors of its page. -/
theorem putSectors_round (hcount : 1 ≤ count) {i : Nat}
    (hi : i < (calculateSectPar ar first count).pageCnt) (m : Int → Nat) :
    Sectors.put (Sectors.write V first (doneSectors ar first count i) fun d => m d)
        ar.sectorCntOfLogicPage ((calculateSectPar ar first count).page i)
        ((calculateSectPar ar first count).bitmap ar i)
        (fun d => m ((calculateSectPar ar first count).off ar i + (d : Int))) =
      Sectors.write V first (doneSectors ar first count (i + 1)) fun d => m d := by
  have hfirst := Nat.div_add_mod first ar.sectorCntOfLogicPage
  rw [Nat.mul_comm] at hfirst
  funext b
  have hb := Nat.div_add_mod b ar.sectorCntOfLogicPage
  rw [Nat.mul_comm] at hb
  have hj := Nat.mod_lt b h1
  have hnext : (first / ar.sectorCntOfLogicPage + (i + 1)) * ar.sectorCntOfLogicPage =
      (first / ar.sectorCntOfLogicPage + i) * ar.sectorCntOfLogicPage + ar.sectorCntOfLogicPage := by
    rw [← Nat.add_assoc, Nat.add_mul, Nat.one_mul]
  have hsum : (first / ar.sectorCntOfLogicPage + i) * ar.sectorCntOfLogicPage =
      first / ar.sectorCntOfLogicPage * ar.sectorCntOfLogicPage + i * ar.sectorCntOfLogicPage :=
    Nat.add_mul ..
  have hbit := bitmap_testBit h1 h32 (range_fits ar hrange) hi (b % ar.sectorCntOfLogicPage)
  unfold Sectors.put Sectors.write doneSectors
  rw [page_eq h1 hrange hi, off_eq h1 hrange h32 hcount, hnext]
  by_cases hpage : b / ar.sectorCntOfLogicPage = first / ar.sectorCntOfLogicPage + i
  · rw [hpage, hsum] at hb
    by_cases hin : first ≤ b ∧ b < first + count
    · rw [if_pos ⟨hpage, hbit.mpr ⟨hj, by omega, by omega⟩⟩, if_pos (by omega)]
      refine congrArg some (funext fun t => congrArg m ?_)
      omega
    · have hnot : ¬((calculateSectPar ar first count).bitmap ar i).testBit
          (b % ar.sectorCntOfLogicPage) = true := fun hset => by
        have := hbit.mp hset
        exact hin (by omega)
      rw [if_neg fun hboth => hnot hboth.2, if_neg (by omega), if_neg (by omega)]
  · rw [if_neg fun hboth => hpage hboth.1]
    have hcond : (first ≤ b ∧ b < first + min count
          ((first / ar.sectorCntOfLogicPage + i) * ar.sectorCntOfLogicPage - first)) ↔
        first ≤ b ∧ b < first + min count ((first / ar.sectorCntOfLogicPage + i) *
          ar.sectorCntOfLogicPage + ar.sectorCntOfLogicPage - first) := by
      rcases Nat.lt_or_gt_of_ne hpage with hlt | hgt
      · have hle := Nat.mul_le_mul_right ar.sectorCntOfLogicPage (Nat.succ_le_of_lt hlt)
        rw [Nat.succ_mul] at hle
        omega
      · have hle := Nat.mul_le_mul_right ar.sectorCntOfLogicPage (Nat.succ_le_of_lt hgt)
        rw [Nat.succ_mul] at hle
        omega
    simp only [hcond]

/-- The sectors that a round adds are those of its bitmap. -/
theorem round_sector (hcount : 1 ≤ count) {i : Nat}
    (hi : i < (calculateSectPar ar first count).pageCnt) {b : Nat}
    (hlow : first + doneSectors ar first count i ≤ b)
    (hhigh : b < first + doneSectors ar first count (i + 1)) :
    ∃ j < ar.sectorCntOfLogicPage, ((calculateSectPar ar first count).bitmap ar i).testBit j = true ∧
      b = (calculateSectPar ar first count).page i * ar.sectorCntOfLogicPage + j ∧
      (calculateSectPar ar first count).off ar i + 256 * (j : Int) = 256 * ((b - first : Nat) : Int) := by
  have hfirst := Nat.div_add_mod first ar.sectorCntOfLogicPage
  have hnext : (first / ar.sectorCntOfLogicPage + (i + 1)) * ar.sectorCntOfLogicPage =
      (first / ar.sectorCntOfLogicPage + i) * ar.sectorCntOfLogicPage + ar.sectorCntOfLogicPage := by
    rw [← Nat.add_assoc, Nat.add_mul, Nat.one_mul]
  have hsum : (first / ar.sectorCntOfLogicPage + i) * ar.sectorCntOfLogicPage =
      first / ar.sectorCntOfLogicPage * ar.sectorCntOfLogicPage + i * ar.sectorCntOfLogicPage :=
    Nat.add_mul ..
  rw [Nat.mul_comm] at hfirst
  unfold doneSectors at hlow hhigh
  rw [hnext] at hhigh
  rw [page_eq h1 hrange hi, off_eq h1 hrange h32 hcount]
  refine ⟨b - (first / ar.sectorCntOfLogicPage + i) * ar.sectorCntOfLogicPage, by omega,
    (bitmap_testBit h1 h32 (range_fits ar hrange) hi _).mpr ⟨by omega, by omega, by omega⟩, by omega, ?_⟩
  omega

/-- What a round touches of the buffer is the part of these sectors. -/
theorem round_window (hcount : 1 ≤ count) {i : Nat}
    (hi : i < (calculateSectPar ar first count).pageCnt) {a : Int}
    (hlow : (calculateSectPar ar first count).off ar i ≤ a)
    (hbit : ((calculateSectPar ar first count).bitmap ar i).testBit
      ((a - (calculateSectPar ar first count).off ar i).toNat / 256) = true) :
    256 * (doneSectors ar first count i : Int) ≤ a ∧
      a < 256 * (doneSectors ar first count (i + 1) : Int) := by
  obtain ⟨hplace, k, hk, hsector, hoff⟩ := round_own h1 hrange h32 hcount hi hbit
  rw [page_eq h1 hrange hi] at hsector
  have hnext : (first / ar.sectorCntOfLogicPage + (i + 1)) * ar.sectorCntOfLogicPage =
      (first / ar.sectorCntOfLogicPage + i) * ar.sectorCntOfLogicPage + ar.sectorCntOfLogicPage := by
    rw [← Nat.add_assoc, Nat.add_mul, Nat.one_mul]
  unfold doneSectors
  rw [hnext]
  omega

end Splits

/-- `LML_Write` writes the sectors of the range. -/
theorem lmlWrite_writes (har : ar.Fits) (hpage : ar.PageFits) (hcopy : ar.CopiesExactly)
    (henv : env.NoFailure) (h : SectorsOK L V s) (hrange : ar.RangeOn first count) :
    WP anyRun (lmlWrite ar env first count) (fun _ s' =>
      SectorsOK L (Sectors.write V first count fun d => s.host d) s' ∧
      s'.logicalCtl.diskCap = s.logicalCtl.diskCap) F s := by
  have h1 : 1 ≤ ar.sectorCntOfLogicPage := by
    have h2 := hpage.1
    omega
  refine WP.when (fun hcount => ?_) fun hcount => ?_
  · refine (WP.forRange (I := fun i s' => SectorsOK L
        (Sectors.write V first (doneSectors ar first count i) fun d => s.host d) s' ∧
        s'.host = s.host ∧ s'.logicalCtl.diskCap = s.logicalCtl.diskCap) ?_ ?_).imp ?_
    · rintro i s₁ hi ⟨h₁, hhost, hcap⟩
      have hon := round_onDisk h1 hrange.1 hrange.2 (Nat.pos_of_ne_zero hcount) hi
      refine (writeRound_puts har hcopy henv h₁ _ hon).imp fun _ s₂ h₂ => ⟨?_, h₂.host.trans hhost,
        h₂.diskCap.trans hcap⟩
      have hsectors := h₂.sectors
      rw [show PageBuf.load s₁ (.host ((calculateSectPar ar first count).off ar i)) = fun d : Nat =>
          s.host ((calculateSectPar ar first count).off ar i + (d : Int)) by
        funext d; rw [PageBuf.load, hhost], putSectors_round h1 hrange.1 hpage.2
          (Nat.pos_of_ne_zero hcount) hi] at hsectors
      exact hsectors
    · rw [doneSectors_zero, Sectors.write_zero]
      exact ⟨h, rfl, rfl⟩
    · rintro _ s₁ ⟨h₁, -, hcap⟩
      rw [doneSectors_all h1 hrange.1] at h₁
      exact ⟨h₁, hcap⟩
  · rw [not_not.mp hcount, Sectors.write_zero]
    exact ⟨h, rfl⟩

/-! ## Reading -/

theorem storeSectors_bit {bitmap j t : Nat} {off : Int} {src : Buf} {m : Int → Nat} (ht : t < 256)
    (hbit : bitmap.testBit j = true) :
    storeSectors bitmap off src m (off + ((256 * j + t : Nat) : Int)) = src (256 * j + t) := by
  have hnat : (off + ((256 * j + t : Nat) : Int) - off).toNat = 256 * j + t := by omega
  rw [storeSectors, hnat, sector_div ht, if_pos ⟨by omega, hbit⟩]

theorem storeSectors_not {bitmap j t : Nat} {off : Int} {src : Buf} {m : Int → Nat} (ht : t < 256)
    (hbit : bitmap.testBit j ≠ true) : storeSectors bitmap off src m (off + ((256 * j + t : Nat) : Int)) =
      m (off + ((256 * j + t : Nat) : Int)) := by
  have hnat : (off + ((256 * j + t : Nat) : Int) - off).toNat = 256 * j + t := by omega
  rw [storeSectors, hnat, sector_div ht, if_neg fun hboth => hbit hboth.2]

/-- Sectors of page `n` are in the memory of the caller. -/
structure PageGotOut (L : ZoneLayout ar) (V : Sectors) (n bitmap : Nat) (off : Int)
    (s s' : Ftl) : Prop where
  sectors : SectorsOK L V s'
  got : ∀ j < ar.sectorCntOfLogicPage, bitmap.testBit j = true → ∀ v,
    V (n * ar.sectorCntOfLogicPage + j) = some v → ∀ t < 256,
      s'.host (off + ((256 * j + t : Nat) : Int)) = v t
  other : ∀ a, ¬(off ≤ a ∧ bitmap.testBit ((a - off).toNat / 256) = true) → s'.host a = s.host a
  diskCap : s'.logicalCtl.diskCap = s.logicalCtl.diskCap

/-- One round of `LML_Read`: from the flash, and then from the page cache. -/
theorem readRound_gets (har : ar.Fits) (hcopy : ar.CopiesExactly) (henv : env.NoFailure)
    (h : SectorsOK L V s) (x : SectPar) {i : Nat} (hon : ar.InDisk (x.page i)) :
    WP anyRun (readRound ar env x i)
      (fun _ s' => PageGotOut L V (x.page i) (x.bitmap ar i) (x.off ar i) s s') F s := by
  obtain ⟨D, hdisk, hpages⟩ := h.pages
  refine WP.bind (WP.orElse ((lmlPageRead_reads har hcopy henv hdisk hon _ _).imp ?_))
  rintro _ _ ⟨rfl, s₁, main, hdisk₁, hbuf, hmain, rfl⟩
  obtain ⟨hcache, hwrite, hhost, hcap⟩ := by simpa [Ftl.buffers] using hbuf
  have hsectors (m : Int → Nat) : SectorsOK L V { s₁ with host := m } := by
    have hin {n j : Nat} : Ftl.InCache { s₁ with host := m } n j ↔ s.InCache n j := by
      show s₁.cachePage.logicPageNum = n ∧ _ ↔ _
      rw [hcache]
      rfl
    refine ⟨⟨D, hdisk₁.setBuffers s₁.cachePage s₁.writePageCache m, fun n j hj v hv hout =>
      hpages n j hj v hv (mt hin.mpr hout)⟩, fun n j hj v hv hhas => ?_, h.known, ?_⟩
    · show ∀ t < 256, s₁.writePageCache (256 * j + t) = v t
      rw [hwrite]
      exact h.cache n j hj v hv (hin.mp hhas)
    · show s₁.cachePage.logicPageNum ≠ 0xffffffff → ar.InDisk s₁.cachePage.logicPageNum
      rw [hcache]
      exact h.page
  -- the sectors that are not in the cache
  have hflash (j : Nat) (hj : j < ar.sectorCntOfLogicPage) (v : Buf)
      (hv : V (x.page i * ar.sectorCntOfLogicPage + j) = some v) (hout : ¬s.InCache (x.page i) j)
      (t : Nat) (ht : t < 256) : main (256 * j + t) = v t := by
    obtain ⟨buf, hD, hval⟩ := hpages _ j hj v hv hout
    rw [hmain buf hD _ (sector_lt hj ht)]
    exact hval t ht
  refine WP.bind (WP.when (fun hlimit => absurd hlimit (by decide)) fun _ => WP.bind (WP.get
    (WP.when (fun hsame => WP.modify ⟨hsectors _, fun j hj hbit v hv t ht => ?_, fun a ha => ?_, hcap⟩)
      fun hother => ⟨hsectors _, fun j hj hbit v hv t ht => ?_, fun a ha => ?_, hcap⟩)))
  · replace hsame : s₁.cachePage.logicPageNum = x.page i := hsame.symm
    show storeSectors (x.bitmap ar i &&& s₁.cachePage.sectorBitmap) (x.off ar i) s₁.writePageCache
      (storeSectors (x.bitmap ar i) (x.off ar i) main s₁.host) _ = v t
    by_cases hin : s.InCache (x.page i) j
    · rw [storeSectors_bit ht (by rw [Nat.testBit_and, hbit, hcache, hin.2]; rfl), hwrite]
      exact h.cache _ j hj v hv hin t ht
    · rw [storeSectors_not ht, storeSectors_bit ht hbit]
      · exact hflash j hj v hv hin t ht
      · rw [Nat.testBit_and, hbit, Bool.true_and]
        exact fun hset => hin ⟨hcache ▸ hsame, hcache ▸ hset⟩
  · show storeSectors (x.bitmap ar i &&& s₁.cachePage.sectorBitmap) (x.off ar i) s₁.writePageCache
      (storeSectors (x.bitmap ar i) (x.off ar i) main s₁.host) a = s.host a
    rw [storeSectors, if_neg fun hboth => ha ⟨hboth.1, ?_⟩, storeSectors, if_neg ha, hhost]
    have hand := hboth.2
    rw [Nat.testBit_and, Bool.and_eq_true] at hand
    exact hand.1
  · show storeSectors (x.bitmap ar i) (x.off ar i) main s₁.host _ = v t
    rw [storeSectors_bit ht hbit]
    refine hflash j hj v hv (fun hin => hother ?_) t ht
    show x.page i = s₁.cachePage.logicPageNum
    rw [hcache]
    exact hin.1.symm
  · show storeSectors (x.bitmap ar i) (x.off ar i) main s₁.host a = s.host a
    rw [storeSectors, if_neg ha, hhost]

/-- What a read of a range has put into the memory of the caller. -/
structure RangeRead (V : Sectors) (first count : Nat) (s s' : Ftl) : Prop where
  got : ∀ b v, first ≤ b → b < first + count → V b = some v → ∀ t < 256,
    s'.host (((b - first) * 256 + t : Nat) : Int) = v t
  other : ∀ a : Int, a < 0 ∨ 256 * (count : Int) ≤ a → s'.host a = s.host a

/-- `LML_Read` reads the sectors of the range. -/
theorem lmlRead_reads (har : ar.Fits) (hpage : ar.PageFits) (hcopy : ar.CopiesExactly)
    (henv : env.NoFailure) (h : SectorsOK L V s) (hrange : ar.RangeOn first count)
    (hcap : first + count ≤ s.logicalCtl.diskCap) :
    WP anyRun (lmlRead ar env first count) (fun _ s' => SectorsOK L V s' ∧
      RangeRead V first count s s' ∧ s'.logicalCtl.diskCap = s.logicalCtl.diskCap) F s := by
  have h1 : 1 ≤ ar.sectorCntOfLogicPage := by
    have h2 := hpage.1
    omega
  refine WP.bind (WP.get (WP.bind (WP.failIf (fun hbeyond => ?_) fun _ => WP.when (fun hcount => ?_)
    fun hcount => ?_)))
  · rw [Machine.u32_of_lt hrange.1] at hbeyond
    omega
  · have hpos := Nat.pos_of_ne_zero hcount
    refine (WP.forRange (I := fun i s' => SectorsOK L V s' ∧
        RangeRead V first (doneSectors ar first count i) s s' ∧
        s'.logicalCtl.diskCap = s.logicalCtl.diskCap) ?_ ?_).imp ?_
    · rintro i s₁ hi ⟨h₁, hread, hcap₁⟩
      have hon := round_onDisk h1 hrange.1 hrange.2 hpos hi
      refine (readRound_gets har hcopy henv h₁ _ hon).imp fun _ s₂ h₂ =>
        ⟨h₂.sectors, ⟨fun b v hlow hhigh hv t ht => ?_, fun a ha => ?_⟩, h₂.diskCap.trans hcap₁⟩
      · by_cases hdone : b < first + doneSectors ar first count i
        · rw [h₂.other _ fun hin => ?_]
          · exact hread.got b v hlow hdone hv t ht
          · have hwindow := (round_window h1 hrange.1 hpage.2 hpos hi hin.1 hin.2).1
            omega
        · obtain ⟨j, hj, hbit, rfl, hoff⟩ := round_sector h1 hrange.1 hpage.2 hpos hi
            (Nat.not_lt.mp hdone) hhigh
          have hgot := h₂.got j hj hbit v hv t ht
          rw [show (calculateSectPar ar first count).off ar i + ((256 * j + t : Nat) : Int) =
            ((((calculateSectPar ar first count).page i * ar.sectorCntOfLogicPage + j - first) * 256 + t :
              Nat) : Int) by omega] at hgot
          exact hgot
      · rw [h₂.other _ fun hin => ?_]
        · refine hread.other a ?_
          have hle : doneSectors ar first count i ≤ doneSectors ar first count (i + 1) := by
            unfold doneSectors
            rw [← Nat.add_assoc, Nat.add_mul (first / ar.sectorCntOfLogicPage + i)]
            omega
          omega
        · have hwindow := round_window h1 hrange.1 hpage.2 hpos hi hin.1 hin.2
          omega
    · rw [doneSectors_zero]
      exact ⟨h, ⟨fun b v hlow hhigh => absurd hhigh (by omega), fun _ _ => rfl⟩, rfl⟩
    · rintro _ s₁ h₁
      rwa [doneSectors_all h1 hrange.1] at h₁
  · rw [not_not.mp hcount]
    exact ⟨h, ⟨fun b v hlow hhigh => absurd hhigh (by omega), fun _ _ => rfl⟩, rfl⟩

end Ranges

end Novo7
