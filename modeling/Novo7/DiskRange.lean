import Novo7.SectorRange
import Novo7.ZoneSwitch

/-!
# Ranges beyond the disk

`LML_Read` and `LML_Write` both compare the end of their range with the capacity of the disk, in a
sum of 32 bits. The one refuses a range that ends beyond, the other only says so and goes on.
`ranges_guarded_iff`: a range beyond the disk is never refused by both, and `LML_Read` refuses it
exactly if the sum does not wrap to a small one.

A write that goes on is told by the page cache. Once a round has merged its sectors into the page
that waits there, the page has them as long as it waits (`HasHead`), whatever fails later.
-/

namespace Novo7

open Traced Machine

/-! ## Errors -/

/-- A contract that neither assumes nor promises anything. -/
def anyRun : Contract Event := ⟨fun _ => True, fun _ => True⟩

theorem anyRun_plain : PlainContract anyRun := fun _ _ => trivial

theorem WP.anyEnd {α : Type} (m : FtlProg α) (s : Ftl) :
    WP anyRun m (fun _ _ => True) (fun _ _ => True) s := by
  refine fun _ => ⟨fun _ _ => trivial, ?_⟩
  cases (m s).1 <;> exact trivial

/-- The end of a run, from its weakest precondition. -/
theorem ends_of_wp {α : Type} {m : FtlProg α} {Q : α → Ftl → Prop} {F : Int → Ftl → Prop} {s : Ftl}
    (h : WP anyRun m Q F s) : (m s).1.Ends Q F := (h fun _ _ => trivial).2

/-- A program that gives up with `e` at most. -/
def FailsOnly {α : Type} (e : Int) (m : FtlProg α) : Prop :=
  ∀ s, WP anyRun m (fun _ _ => True) (fun e' _ => e' = e) s

namespace FailsOnly

variable {α β : Type} {e : Int} {m : FtlProg α}

theorem bind {f : α → FtlProg β} (h : FailsOnly e m) (hf : ∀ a, FailsOnly e (f a)) :
    FailsOnly e (m >>= f) := fun s => WP.bind ((h s).imp fun a s' _ => hf a s')

theorem pure (a : α) : FailsOnly e (pure a : FtlProg α) := fun _ => WP.pure trivial

theorem get : FailsOnly e (get : FtlProg Ftl) := fun _ => WP.get trivial

theorem modify (f : Ftl → Ftl) : FailsOnly e (modify f : FtlProg Unit) := fun _ => WP.modify trivial

theorem failWith (m : FtlProg α) (e : Int) : FailsOnly e (failWith m e) := fun s =>
  WP.orElse ((WP.anyEnd m s).mono (fun _ _ h => h) fun _ _ _ => WP.fail rfl)

theorem when {c : Prop} [Decidable c] {m : FtlProg Unit} (h : FailsOnly e m) :
    FailsOnly e (when c m) := fun s => WP.when (fun _ => h s) fun _ => trivial

theorem ite {c : Prop} [Decidable c] {m m' : FtlProg α} (h : FailsOnly e m)
    (h' : FailsOnly e m') : FailsOnly e (if c then m else m') := fun s =>
  WP.ite (fun _ => h s) fun _ => h' s

theorem orElse {h : Int → FtlProg α} (hh : ∀ e', FailsOnly e (h e')) :
    FailsOnly e (orElse m h) := fun s =>
  WP.orElse ((WP.anyEnd m s).mono (fun _ _ h => h) fun e' s' _ => hh e' s')

theorem forRange {n : Nat} {f : Nat → FtlProg Unit} (h : ∀ i, FailsOnly e (f i)) :
    FailsOnly e (forRange n f) := fun _ =>
  WP.forRange (I := fun _ _ => True) (fun i s' _ _ => h i s') trivial

end FailsOnly

section Range

variable {ar : LogicArchi} {env : NandEnv}

theorem readRound_fails (x : SectPar) (i : Nat) : FailsOnly (-1) (readRound ar env x i) :=
  .bind (.failWith _ _) fun _ => .bind (.when (.orElse fun _ => .pure ())) fun _ =>
    .bind .get fun _ => .when (.modify _)

theorem writeRound_fails (x : SectPar) (i : Nat) : FailsOnly (-1) (writeRound ar env x i) :=
  .bind .get fun _ => .ite (.modify _) (.bind (.failWith _ _) fun _ =>
    .ite (.failWith _ _) (.modify _))

theorem lmlWrite_fails (nSectNum nSectorCnt : Nat) :
    FailsOnly (-1) (lmlWrite ar env nSectNum nSectorCnt) :=
  .when (.forRange fun i => writeRound_fails _ i)

/-- `LML_Read` refuses its range if the 32-bit sum is beyond the disk. -/
theorem lmlRead_beyond {nSectNum nSectorCnt : Nat} {s : Ftl}
    (h : s.logicalCtl.diskCap < u32 (nSectNum + nSectorCnt)) :
    lmlRead ar env nSectNum nSectorCnt s = (.err (-errAddrBeyond) s, []) := by
  simp only [lmlRead, bind, Traced.get, Outcome.andThen, failIf, gt_iff_lt, if_pos h, fail,
    List.append_nil]

/-- Within the disk it reads. -/
theorem lmlRead_fails {nSectNum nSectorCnt : Nat} {s : Ftl}
    (h : ¬ s.logicalCtl.diskCap < u32 (nSectNum + nSectorCnt)) :
    WP anyRun (lmlRead ar env nSectNum nSectorCnt) (fun _ _ => True) (fun e _ => e = -1) s :=
  WP.bind (WP.get (WP.bind (WP.failIf (fun hc => absurd hc h) fun _ =>
    (FailsOnly.when (.forRange fun i => readRound_fails _ i)) s)))

/-! ## Who writes the page cache and the caller's memory -/

/-- A relation that looks at no more than the page that waits and the caller's memory. -/
def OfUser (R : Ftl → Ftl → Prop) : Prop :=
  ∀ s s', s'.cachePage = s.cachePage → s'.host = s.host → R s s'

section User

variable {R : Ftl → Ftl → Prop}

theorem failWith_preserves [Std.Refl R] [IsTrans Ftl R] {α : Type} {m : FtlProg α} (e : Int)
    (h : Preserves anyRun R m) : Preserves anyRun R (failWith m e) :=
  .orElse h fun _ => .fail _

theorem OfUser.of_maps (hR : OfUser R) {α : Type} {m : FtlProg α}
    (h : Preserves anyRun SameMaps m) : Preserves anyRun R m :=
  h.weaken fun _ _ hs => hR _ _ hs.ctl.page hs.ctl.host

theorem OfUser.of_settles (hR : OfUser R) {α : Type} {m : FtlProg α} (h : Settles anyRun m) :
    Preserves anyRun R m := fun s =>
  (h s).mono (fun _ _ hs => hR _ _ hs.ctl.page hs.ctl.host)
    fun _ _ hs => hR _ _ hs.ctl.page hs.ctl.host

theorem OfUser.logicalCtl (hR : OfUser R) (f : LogicCtlPar → LogicCtlPar) :
    Preserves anyRun R (modify (·.setLogicalCtl f) : FtlProg Unit) :=
  .modify fun _ => hR _ _ rfl rfl

variable [Std.Refl R] [IsTrans Ftl R]

theorem useTbls_preserves (nZone : Nat) : Preserves anyRun R (useTbls nZone) :=
  .bind .get fun _ => .emit trivial

theorem replaceLogBlk_preserves (hR : OfUser R) (nErrPage : Nat) :
    Preserves anyRun R (replaceLogBlk ar env nErrPage) :=
  .bind .get fun _ => .bind (useTbls_preserves _) fun _ =>
    .bind (hR.of_maps (lmlBadBlkManage_keeps anyRun_plain _ _ _)) fun _ =>
      .bind (hR.logicalCtl _) fun _ => .bind .get fun _ => .modify fun _ => hR _ _ rfl rfl

theorem closeWritePage_preserves (hR : OfUser R) : Preserves anyRun R (closeWritePage ar env) := by
  refine .bind .get fun s => .bind (.when fun _ => ?_) fun _ => hR.logicalCtl _
  refine .bind (hR.of_maps (phySynchBank_keeps _)) fun _ => .when fun _ => ?_
  exact .bind (.when fun _ => .emit trivial) fun _ => replaceLogBlk_preserves hR _

theorem enterZone_preserves (hR : OfUser R) (nZone : Nat) :
    Preserves anyRun R (enterZone ar env nZone) := by
  refine .bind .get fun _ => .when fun _ => .bind (failWith_preserves _ fun s => ?_) fun _ =>
    hR.logicalCtl _
  exact (bmmSwitchMapTbl_wp anyRun_plain nZone s).mono (fun _ _ h => hR _ _ h.1.page h.1.host)
    fun _ _ h => hR _ _ h.ctl.page h.ctl.host

/-- A page read, if what it stores into its buffer is of no concern. -/
theorem lmlPageRead_preserves (hR : OfUser R) (nPage nBitmap : Nat) (pBuf : PageBuf)
    (hstore : ∀ src s, R s (pBuf.store nBitmap src s)) :
    Preserves anyRun R (lmlPageRead ar env nPage nBitmap pBuf) := by
  have hmode : Preserves anyRun R (do
      when ((← get).logicalCtl.opMode = .write) (failWith (closeWritePage ar env) (-errLogicctl))
      modify (·.setLogicalCtl ({ · with opMode := .read }))) :=
    .bind .get fun _ => .bind (.when fun _ => failWith_preserves _ (closeWritePage_preserves hR))
      fun _ => hR.logicalCtl _
  have hblk (x : LogicPage) : Preserves anyRun R (enterReadBlk ar x) :=
    .bind .get fun _ => .when fun _ => .bind (useTbls_preserves _) fun _ =>
      .modify fun _ => hR _ _ rfl rfl
  have hlog (z b p : Nat) : Preserves anyRun R (do
      useTbls z
      pmmGetLogPageRead ar env b p) :=
    .bind (useTbls_preserves _) fun _ =>
      (pmmGetLogPageRead_keeps anyRun_plain b p).weaken fun _ _ hs => hR _ _ hs.ctl.page hs.ctl.host
  have hread (a : PhyPage) : Preserves anyRun R (phyPageRead env a) :=
    hR.of_maps (phyPageRead_keeps anyRun_plain a)
  have hend (r : Int × Page) : Preserves anyRun R (do
      modify (pBuf.store nBitmap r.2.main)
      failIf (r.1 < 0) (-1)
      pure r.1) :=
    .bind (.modify fun s => hstore _ s) fun _ => .bind (.failIf _ _) fun _ => .pure _
  refine .bind .get fun _ => .bind (.when fun _ => hmode) fun _ =>
    .bind (enterZone_preserves hR _) fun _ => .bind (hblk _) fun _ => .bind (hR.logicalCtl _) fun _ =>
      .bind .get fun _ => .bind ?_ fun _ => .bind (hR.logicalCtl _) fun _ => .bind .get fun _ =>
        .bind ?_ hend
  · exact .ite (fun _ => hlog _ _ _) fun _ => .pure _
  · exact .ite (fun _ => hread _) fun _ => hread _

theorem enterWritePage_preserves (hR : OfUser R) (x : LogicPage) :
    Preserves anyRun R (enterWritePage ar env x) := by
  refine .bind (hR.logicalCtl _) fun _ => .bind (useTbls_preserves _) fun _ =>
    .bind (.orElse ?_ fun _ => .bind (hR.logicalCtl _) fun _ => .fail _) fun _ =>
      .bind (useTbls_preserves _) fun _ => .bind (.modify fun _ => hR _ _ rfl rfl) fun _ =>
        .bind .get fun _ => .failIf _ _
  exact hR.of_settles (pmmGetLogPageWrite_settles anyRun_plain _ _)

theorem writePageStatus_preserves (hR : OfUser R) : Preserves anyRun R (writePageStatus ar env) :=
  .bind .get fun _ => .ite
    (fun _ => .bind (hR.of_maps (readTemp_keeps anyRun_plain _ _ _ _)) fun _ =>
      .bind (.failIf _ _) fun _ => .pure _)
    fun _ => .pure _

theorem tryWritePage_preserves (hR : OfUser R) (p : Page) (u : Unit) :
    Preserves anyRun R (tryWritePage ar env p u) := by
  refine .bind .get fun _ => .bind (.ite (fun _ => hR.of_maps (phySynchBank_keeps _))
    fun _ => .pure _) fun _ => .ite (fun _ => ?_) fun _ => ?_
  · exact .bind (replaceLogBlk_preserves hR _) fun _ => .pure _
  · exact .bind (hR.of_maps (phyPageWrite_keeps anyRun_plain _ _)) fun _ =>
      .bind (.failIf _ _) fun _ => .pure _

theorem lmlPageWrite_preserves (hR : OfUser R) (nPage nBitmap : Nat) (pBuf : PageBuf) :
    Preserves anyRun R (lmlPageWrite ar env nPage nBitmap pBuf) := by
  have hclose : Preserves anyRun R (failWith (closeWritePage ar env) (-errLogicctl)) :=
    failWith_preserves _ (closeWritePage_preserves hR)
  refine .bind (.failIf _ _) fun _ => .bind .get fun _ => .bind (.when fun _ => hclose) fun _ =>
    .bind (enterZone_preserves hR _) fun _ =>
      .bind (hR.of_maps (bmmSetDirtyFlag_keeps anyRun_plain)) fun _ =>
        .bind .get fun _ => .bind (.when fun _ => .bind hclose fun _ => hR.logicalCtl _) fun _ =>
          .bind (enterWritePage_preserves hR _) fun _ =>
            .bind (writePageStatus_preserves hR) fun _ => .bind .get fun _ =>
              .bind (.iterate (fun _ => tryWritePage_preserves hR _ _) _ _) fun _ => hR.logicalCtl _

end User

/-- The page that waits is as before. -/
def SamePage (s s' : Ftl) : Prop := s'.cachePage = s.cachePage

instance : Std.Refl SamePage := ⟨fun _ => rfl⟩

instance : IsTrans Ftl SamePage := ⟨fun _ _ _ h h' => h'.trans h⟩

theorem samePage_ofUser : OfUser SamePage := fun _ _ h _ => h

theorem lmlPageRead_page (nPage nBitmap : Nat) (pBuf : PageBuf) :
    Preserves anyRun SamePage (lmlPageRead ar env nPage nBitmap pBuf) :=
  lmlPageRead_preserves samePage_ofUser _ _ _ fun _ _ => by cases pBuf <;> rfl

theorem lmlPageWrite_page (nPage nBitmap : Nat) (pBuf : PageBuf) :
    Preserves anyRun SamePage (lmlPageWrite ar env nPage nBitmap pBuf) :=
  lmlPageWrite_preserves samePage_ofUser _ _ _

/-! ## The page that waits -/

/-- If the page `nPage` waits in the page cache, it has the sectors of `bitmap`. -/
def HasHead (nPage bitmap : Nat) (s : Ftl) : Prop :=
  s.cachePage.logicPageNum = nPage →
    ∀ i, bitmap.testBit i = true → s.cachePage.sectorBitmap.testBit i = true

theorem SamePage.hasHead {nPage bitmap : Nat} {s s' : Ftl} (h : SamePage s s')
    (hs : HasHead nPage bitmap s) : HasHead nPage bitmap s' := by
  unfold HasHead
  rw [h]
  exact hs

/-- A merge into the cache is told by the page and the sectors it has then. -/
theorem mergeCachePageData_wp {nPage nBitmap : Nat} {off : Int} {s : Ftl} {Q : Unit → Ftl → Prop}
    {F : Int → Ftl → Prop}
    (hQ : ∀ s', s'.cachePage = (if s.cachePage.logicPageNum = 0xffffffff then ⟨nPage, nBitmap⟩
      else ⟨s.cachePage.logicPageNum, s.cachePage.sectorBitmap ||| nBitmap⟩) → Q () s') :
    WP anyRun (mergeCachePageData nPage nBitmap off) Q F s := by
  refine WP.modify (hQ _ ?_)
  by_cases h : s.cachePage.logicPageNum = 0xffffffff
  · simp only [if_pos h, Nat.zero_or]
  · simp only [if_neg h]

theorem writePageCacheToNand_hasHead {nPage bitmap : Nat} (hne : nPage ≠ 0xffffffff) {s : Ftl}
    (hs : HasHead nPage bitmap s) :
    WP anyRun (writePageCacheToNand ar env) (fun _ => HasHead nPage bitmap)
      (fun _ => HasHead nPage bitmap) s := by
  refine WP.bind (WP.get (WP.when (fun _ => WP.bind ?_) fun _ => hs))
  have hread : Preserves anyRun SamePage (when (s.cachePage.sectorBitmap ≠ ar.fullBitmapOfLogicPage)
      do
        let _ ← failWith (lmlPageRead ar env s.cachePage.logicPageNum
          (s.cachePage.sectorBitmap ^^^ ar.fullBitmapOfLogicPage) .writePageCache) (-1)) :=
    .when fun _ => .bind (failWith_preserves _ (lmlPageRead_page _ _ _)) fun _ => .pure _
  refine hread.wp (fun _ s₁ h₁ => WP.bind ?_) fun _ s₁ h₁ => h₁.hasHead hs
  refine (failWith_preserves _ (lmlPageWrite_page _ _ _)).wp (fun _ s₂ h₂ => WP.modify fun h => ?_)
    fun _ s₂ h₂ => h₂.hasHead (h₁.hasHead hs)
  exact absurd h.symm hne

/-- A round on another page. -/
theorem writeRound_hasHead {nPage bitmap : Nat} (hne : nPage ≠ 0xffffffff) {x : SectPar} {i : Nat}
    (hi : x.page i ≠ nPage) {s : Ftl} (hs : HasHead nPage bitmap s) :
    WP anyRun (writeRound ar env x i) (fun _ => HasHead nPage bitmap)
      (fun _ => HasHead nPage bitmap) s := by
  have hmerge (s' : Ftl) (hs' : HasHead nPage bitmap s') {F : Int → Ftl → Prop} :
      WP anyRun (mergeCachePageData (x.page i) (x.bitmap ar i) (x.off ar i))
        (fun _ => HasHead nPage bitmap) F s' := by
    refine mergeCachePageData_wp fun s'' h h' j hj => ?_
    rw [h] at h' ⊢
    by_cases hnone : s'.cachePage.logicPageNum = 0xffffffff
    · rw [if_pos hnone] at h'
      exact absurd h' hi
    · rw [if_neg hnone] at h' ⊢
      rw [Nat.testBit_or, hs' h' j hj, Bool.true_or]
  refine WP.bind (WP.get (WP.ite (fun _ => hmerge s hs) fun _ => WP.bind ?_))
  refine WP.orElse ((writePageCacheToNand_hasHead hne hs).mono (fun _ s₁ h₁ => ?_)
    fun _ s₁ h₁ => WP.fail h₁)
  refine WP.ite (fun _ => ?_) fun _ => hmerge s₁ h₁
  exact (failWith_preserves _ (lmlPageWrite_page _ _ _)).wp (fun _ _ h => h.hasHead h₁)
    fun _ _ h => h.hasHead h₁

/-- A round on the page that waits. -/
theorem writeRound_merges {nPage : Nat} (hne : nPage ≠ 0xffffffff) {x : SectPar} {i : Nat}
    (hi : x.page i = nPage) {s : Ftl} (hs : s.cachePage.logicPageNum = nPage)
    {F : Int → Ftl → Prop} :
    WP anyRun (writeRound ar env x i) (fun _ => HasHead nPage (x.bitmap ar i)) F s := by
  refine WP.bind (WP.get (WP.ite (fun _ => mergeCachePageData_wp fun s' h _ j hj => ?_)
    fun hother => absurd (hi.trans hs.symm) hother))
  rw [h, if_neg (by rw [hs]; exact hne), Nat.testBit_or, hj, Bool.or_true]

/-! ## The pages of a range -/

/-- A logical page has at least two sectors, and its bitmaps fit a word. -/
def LogicArchi.PageFits (ar : LogicArchi) : Prop :=
  2 ≤ ar.sectorCntOfLogicPage ∧ ar.sectorCntOfLogicPage ≤ 32

/-- A range has few pages, and has the first of its sectors in the first of them unless that is
the only one. -/
theorem calculateSectPar_head (har : ar.PageFits) (nSectNum nSectCnt : Nat) :
    (calculateSectPar ar nSectNum nSectCnt).headPage.logicPageNum =
        nSectNum / ar.sectorCntOfLogicPage ∧
      (calculateSectPar ar nSectNum nSectCnt).pageCnt < 2 ^ 32 ∧
      ((calculateSectPar ar nSectNum nSectCnt).pageCnt = 1 ∨
        ((calculateSectPar ar nSectNum nSectCnt).headPage.sectorBitmap).testBit
          (nSectNum % ar.sectorCntOfLogicPage) = true) := by
  obtain ⟨h2, h32⟩ := har
  have hlt := u32_lt (nSectCnt + nSectNum % ar.sectorCntOfLogicPage)
  have hr : nSectNum % ar.sectorCntOfLogicPage < ar.sectorCntOfLogicPage :=
    Nat.mod_lt _ (by omega)
  unfold calculateSectPar
  dsimp only
  generalize u32 (nSectCnt + nSectNum % ar.sectorCntOfLogicPage) = sectCnt at hlt ⊢
  by_cases hmore : sectCnt > ar.sectorCntOfLogicPage
  · rw [if_pos hmore]
    have hmid : (sectCnt - ar.sectorCntOfLogicPage) / ar.sectorCntOfLogicPage < 2 ^ 31 :=
      Nat.div_lt_of_lt_mul (by omega)
    refine ⟨rfl, Nat.lt_of_le_of_lt (SectPar.pageCnt_le _) ?_, .inr ?_⟩
    · dsimp only
      omega
    · dsimp only
      rw [Nat.testBit_and, u32, Nat.testBit_mod_two_pow, Nat.testBit_shiftLeft]
      unfold LogicArchi.fullBitmapOfLogicPage
      rw [fullBitmap_testBit hr, Nat.sub_self, fullBitmap_testBit (by omega)]
      simp only [ge_iff_le, le_refl, decide_true, Bool.and_true, decide_eq_true_eq]
      omega
  · rw [if_neg hmore]
    exact ⟨rfl, by show 1 < _; decide, .inl rfl⟩

/-! ## Ranges beyond the disk -/

/-- The tables in RAM and on flash, the page cache and the flash are as before. -/
structure Unchanged (s s' : Ftl) : Prop where
  cell : s'.nand.cell = s.nand.cell
  blkCache : s'.blkCache = s.blkCache
  pageCache : s'.pageCache = s.pageCache
  zoneTblPst : s'.zoneTblPst = s.zoneTblPst
  cachePage : s'.cachePage = s.cachePage
  writePageCache : s'.writePageCache = s.writePageCache

/-- An error, with nothing changed. -/
def FailsQuietly (m : FtlProg Unit) (s : Ftl) : Prop :=
  ∃ e s', (m s).1 = .err e s' ∧ Unchanged s s'

/-- A range is refused as being beyond the disk. -/
def RefusesRange (m : FtlProg Unit) (s : Ftl) : Prop := ∃ s', (m s).1 = .err (-errAddrBeyond) s'

theorem FailsOnly.accepts {m : FtlProg Unit} {s : Ftl}
    (h : WP anyRun m (fun _ _ => True) (fun e _ => e = -1) s) : ¬ RefusesRange m s := by
  rintro ⟨s', hs'⟩
  have hends := ends_of_wp h
  rw [hs'] at hends
  exact absurd (show -errAddrBeyond = (-1 : Int) from hends) (by decide)

/-- A write is not stopped by the range, here one whose first page waits in the page cache. -/
theorem lmlWrite_goesOn (har : ar.PageFits) {nSectNum : Nat} (hstart : nSectNum < 2 ^ 32)
    (nSectorCnt : Nat) {s : Ftl}
    (hs : s.cachePage = ⟨nSectNum / ar.sectorCntOfLogicPage, 0⟩) :
    ¬ FailsQuietly (lmlWrite ar env nSectNum nSectorCnt) s := by
  rintro ⟨e, s', herr, hsame⟩
  by_cases h0 : nSectorCnt ≠ 0
  · obtain ⟨hhead, hcnt, hfirst⟩ := calculateSectPar_head har nSectNum nSectorCnt
    have hprog : lmlWrite ar env nSectNum nSectorCnt =
        forRange (calculateSectPar ar nSectNum nSectorCnt).pageCnt
          (writeRound ar env (calculateSectPar ar nSectNum nSectorCnt)) := if_pos h0
    rw [hprog] at herr
    generalize calculateSectPar ar nSectNum nSectorCnt = x at hhead hcnt hfirst herr
    have hpage : nSectNum / ar.sectorCntOfLogicPage < 2 ^ 31 := by
      have h2 := har.1
      exact Nat.div_lt_of_lt_mul (by omega)
    generalize nSectNum / ar.sectorCntOfLogicPage = head at hhead hpage hs
    have hne : head ≠ 0xffffffff := by omega
    have hzero : x.page 0 = head := by
      rw [SectPar.page, hhead, Nat.add_zero, u32_of_lt (by omega)]
    have hcache : s.cachePage.logicPageNum = head := by rw [hs]
    rcases hfirst with hone | hbit
    · have hwp : WP anyRun (forRange x.pageCnt (writeRound ar env x)) (fun _ _ => True)
          (fun _ _ => False) s := by
        refine (WP.forRange (I := fun i t => i = 0 → t = s) (fun i t hi ht => ?_)
          fun _ => rfl).imp fun _ _ _ => trivial
        obtain rfl : i = 0 := by omega
        rw [ht rfl]
        exact (writeRound_merges hne hzero hcache).imp fun _ _ _ h =>
          absurd h (Nat.succ_ne_zero 0)
      have hends := ends_of_wp hwp
      rw [herr] at hends
      exact hends
    · have hwp : WP anyRun (forRange x.pageCnt (writeRound ar env x))
          (fun _ _ => True) (fun _ => HasHead head (x.bitmap ar 0)) s := by
        refine (WP.forRange (I := fun i t => (i = 0 → t = s) ∧
          (0 < i → HasHead head (x.bitmap ar 0) t)) (fun i t hi ht => ?_)
          ⟨fun _ => rfl, fun h => absurd h (Nat.lt_irrefl 0)⟩).imp fun _ _ _ => trivial
        refine WP.imp (Q := fun _ => HasHead head (x.bitmap ar 0)) ?_
          fun _ _ h => ⟨fun h => absurd h (Nat.succ_ne_zero i), fun _ => h⟩
        rcases Nat.eq_zero_or_pos i with rfl | hpos
        · rw [ht.1 rfl]
          exact writeRound_merges hne hzero hcache
        · refine writeRound_hasHead hne (fun h => ?_) (ht.2 hpos)
          rw [SectPar.page, hhead, u32] at h
          omega
      have hends := ends_of_wp hwp
      rw [herr] at hends
      have hbits := hends (by rw [hsame.cachePage, hs]) _ hbit
      rw [hsame.cachePage, hs, Nat.zero_testBit] at hbits
      cases hbits
  · have hprog : lmlWrite ar env nSectNum nSectorCnt = pure () := if_neg h0
    rw [hprog] at herr
    cases herr

end Range

/-- What a range of a disk of the given capacity is owed, in every state and however the flash
answers: an error without any change if it ends beyond the disk, and otherwise that it is not refused
as one that does. -/
def RangeGuarded (ar : LogicArchi) (diskCap nSectNum nSectorCnt : Nat) : Prop :=
  ∀ (env : NandEnv) (s : Ftl), s.logicalCtl.diskCap = diskCap →
    if diskCap < nSectNum + nSectorCnt then
      FailsQuietly (lmlRead ar env nSectNum nSectorCnt) s ∧
        FailsQuietly (lmlWrite ar env nSectNum nSectorCnt) s
    else
      ¬ RefusesRange (lmlRead ar env nSectNum nSectorCnt) s ∧
        ¬ RefusesRange (lmlWrite ar env nSectNum nSectorCnt) s

/-- No range beyond the disk is guarded, because a write goes on; a read is refused exactly if the
32-bit sum shows that its range ends beyond. -/
theorem ranges_guarded_iff (ar : LogicArchi) (har : ar.PageFits)
    {diskCap nSectNum nSectorCnt : Nat} (hcap : diskCap < 2 ^ 32) (hstart : nSectNum < 2 ^ 32) :
    (RangeGuarded ar diskCap nSectNum nSectorCnt ↔ nSectNum + nSectorCnt ≤ diskCap) ∧
      ∀ (env : NandEnv) (s : Ftl), s.logicalCtl.diskCap = diskCap →
        (lmlRead ar env nSectNum nSectorCnt s = (.err (-errAddrBeyond) s, []) ↔
          diskCap < u32 (nSectNum + nSectorCnt)) := by
  refine ⟨⟨fun h => ?_, fun hin env s hs => ?_⟩, fun env s hs => ⟨fun h => ?_, fun h => ?_⟩⟩
  · by_contra hbeyond
    have hguard := h firstReadFails { fourCached with
      logicalCtl := { fourCached.logicalCtl with diskCap := diskCap }
      cachePage := ⟨nSectNum / ar.sectorCntOfLogicPage, 0⟩ } rfl
    rw [if_pos (by omega)] at hguard
    exact lmlWrite_goesOn har hstart nSectorCnt rfl hguard.2
  · rw [if_neg (by omega)]
    refine ⟨FailsOnly.accepts (lmlRead_fails ?_), FailsOnly.accepts (lmlWrite_fails _ _ s)⟩
    rw [hs, u32_of_lt (by omega)]
    omega
  · by_contra hsmall
    rw [← hs] at hsmall
    exact FailsOnly.accepts (lmlRead_fails hsmall) ⟨s, by rw [h]⟩
  · rw [← hs] at h
    exact lmlRead_beyond h

theorem ranges_guarded_iff_last :
    RangeGuarded fiveZones 1000 999 1 ∧ ¬ RangeGuarded fiveZones 1000 999 2 :=
  ⟨(ranges_guarded_iff fiveZones ⟨by decide, by decide⟩ (by decide) (by decide)).1.mpr
      (by decide),
    fun h => absurd ((ranges_guarded_iff fiveZones ⟨by decide, by decide⟩ (by decide)
      (by decide)).1.mp h) (by decide)⟩

/-- A disk of 1000 sectors. -/
def smallDisk : Ftl :=
  { fourCached with logicalCtl := { fourCached.logicalCtl with diskCap := 1000 } }

/-- One sector is written behind the last: the write succeeds and the sector waits in the page
cache. -/
theorem lmlWrite_beyond :
    (match (lmlWrite fiveZones firstReadFails 1000 1 smallDisk).1 with
      | .ret _ s => s.cachePage.logicPageNum = 250 ∧ s.cachePage.sectorBitmap = 1
      | .err _ _ => False) ∧
    ¬ RangeGuarded fiveZones 1000 1000 1 := by
  refine ⟨⟨rfl, rfl⟩, fun h => ?_⟩
  have hguard := h firstReadFails smallDisk rfl
  rw [if_pos (by decide)] at hguard
  obtain ⟨e, s', herr, -⟩ := hguard.2
  have hret : ∃ t, (lmlWrite fiveZones firstReadFails 1000 1 smallDisk).1 = .ret () t := ⟨_, rfl⟩
  obtain ⟨t, ht⟩ := hret
  rw [ht] at herr
  cases herr

end Novo7
