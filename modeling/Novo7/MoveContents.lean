import Novo7.MergeContents

/-!
# A move merge keeps the pages

A move merge copies the pages of a log block that are still current into a free block, which takes its
place. The page map is changed as it goes: for a page that has been copied it has the new page already,
for the others still the old one (`PagesMoving`). `moveMerge_keeps`: where no operation on the flash
fails, every page of the zone has the sectors that it had before, and the active page map is the map of
the new log block, in which the pages of each bank are piled up.

`merge_keeps` is the same of `LML_MergeLogBlk`, whichever merge it chooses.
-/

namespace Novo7

open HeldSlots Traced

/-! ## Pages on the move -/

section PagesMoving

variable {ar : LogicArchi} {c₀ c : Cells} {z lb nb : Nat} {m₀ m : Nat → Nat}
  {done free done' free' : Nat → Prop}

/-- The logical pages `done` have been copied from block `lb` into block `nb`, in which the pages
`free` are blank. -/
structure PagesMoving (ar : LogicArchi) (c₀ : Cells) (z lb nb : Nat) (m₀ : Nat → Nat)
    (done free : Nat → Prop) (c : Cells) (m : Nat → Nat) : Prop where
  touched : Touched ar z {nb} c₀ c
  moved : ∀ p < ar.pageCntOfLogicBlk, done p → m₀ p ≠ 0xffff → m p < ar.pageCntOfLogicBlk ∧
    numAt ar c z nb (m p) = p ∧
    SameSectors ar (pageAt ar c z nb (m p)).main (pageAt ar c₀ z lb (m₀ p)).main
  kept : ∀ p < ar.pageCntOfLogicBlk, ¬done p ∨ m₀ p = 0xffff → m p = m₀ p
  only : ∀ d < ar.pageCntOfLogicBlk, numAt ar c z nb d < ar.pageCntOfLogicBlk →
    done (numAt ar c z nb d) ∧ m₀ (numAt ar c z nb d) ≠ 0xffff ∧ m (numAt ar c z nb d) = d ∧
    (ar.supportAlignNandBnk = true →
      d % ar.interleaveBankCnt = numAt ar c z nb d % ar.interleaveBankCnt)
  blank : ∀ d < ar.pageCntOfLogicBlk, free d → c (lmlCalculatePhyOpPar ar z nb d) = none
  info : ¬free 0 → (pageAt ar c z nb 0).spare.logicInfo ≠ 0xffff
  /-- pages but the first one carry a number -/
  numbered : ∀ d < ar.pageCntOfLogicBlk, d ≠ 0 → c (lmlCalculatePhyOpPar ar z nb d) = none ∨
    numAt ar c z nb d < ar.pageCntOfLogicBlk

theorem numAt_blank (har : ar.Fits) {d : Nat} (h : c (lmlCalculatePhyOpPar ar z nb d) = none) :
    ¬numAt ar c z nb d < ar.pageCntOfLogicBlk := by
  rw [numAt, pageAt, h]
  have hmaps := har.maps
  show ¬(0xffff : Nat) < _
  omega

namespace PagesMoving

theorem start (har : ar.Fits)
    (hblank : ∀ d < ar.pageCntOfLogicBlk, c₀ (lmlCalculatePhyOpPar ar z nb d) = none) :
    PagesMoving ar c₀ z lb nb m₀ (fun _ => False) (fun _ => True) c₀ m₀ where
  touched := .refl _
  moved _ _ hdone := hdone.elim
  kept _ _ _ := rfl
  only d hd hnum := absurd hnum (numAt_blank har (hblank d hd))
  blank d hd _ := hblank d hd
  info hnot := absurd trivial hnot
  numbered d hd _ := .inl (hblank d hd)

variable (h : PagesMoving ar c₀ z lb nb m₀ done free c m)
include h

theorem congr (hdone : ∀ p < ar.pageCntOfLogicBlk, m₀ p ≠ 0xffff → (done' p ↔ done p))
    (hfree : ∀ d < ar.pageCntOfLogicBlk, free' d → free d) (hfirst : free 0 → free' 0) :
    PagesMoving ar c₀ z lb nb m₀ done' free' c m where
  touched := h.touched
  moved p hp hd hm := h.moved p hp ((hdone p hp hm).mp hd) hm
  kept p hp hnot := by
    by_cases hm : m₀ p = 0xffff
    · exact h.kept p hp (.inr hm)
    · exact h.kept p hp (.inl fun hd => (hnot.resolve_right hm) ((hdone p hp hm).mpr hd))
  only d hd hnum := by
    obtain ⟨hdone', hm, hrest⟩ := h.only d hd hnum
    exact ⟨(hdone _ hnum hm).mpr hdone', hm, hrest⟩
  blank d hd hf := h.blank d hd (hfree d hd hf)
  info hnot := h.info fun hf => hnot (hfirst hf)
  numbered := h.numbered

/-- A page is programmed that carries no number of a page. -/
theorem putInfo (har : ar.Fits) (hnb : ar.IsSuperBlk z nb) (hfree : free 0) {pg : Page}
    (hnum : ¬pg.spare.logicPageNum < ar.pageCntOfLogicBlk) (hinfo : pg.spare.logicInfo ≠ 0xffff) :
    PagesMoving ar c₀ z lb nb m₀ done (fun e => free e ∧ e ≠ 0)
      (Function.update c (lmlCalculatePhyOpPar ar z nb 0) (some pg)) m := by
  have hself : pageAt ar (Function.update c (lmlCalculatePhyOpPar ar z nb 0) (some pg)) z nb 0 = pg := by
    rw [pageAt, Function.update_self]
    rfl
  have hother {d : Nat} (hd : d < ar.pageCntOfLogicBlk) (hne : d ≠ 0) :
      Function.update c (lmlCalculatePhyOpPar ar z nb 0) (some pg) (lmlCalculatePhyOpPar ar z nb d) =
        c (lmlCalculatePhyOpPar ar z nb d) :=
    Function.update_of_ne (fun heq => hne (pageAddr_inj har hnb hnb hd har.pageCnt_pos heq).2) ..
  have hpage {d : Nat} (hd : d < ar.pageCntOfLogicBlk) (hne : d ≠ 0) : pageAt ar (Function.update c
      (lmlCalculatePhyOpPar ar z nb 0) (some pg)) z nb d = pageAt ar c z nb d := by
    rw [pageAt, hother hd hne, pageAt]
  refine ⟨h.touched.trans (.update nb 0 _), fun p hp hd hm => ?_, h.kept, fun d hd hlt => ?_,
    fun d hd hf => ?_, fun _ => ?_, fun d hd hne => ?_⟩
  · obtain ⟨hlt, hnum', hmain⟩ := h.moved p hp hd hm
    have hne : m p ≠ 0 := fun heq => by
      rw [heq] at hnum'
      exact numAt_blank har (h.blank 0 har.pageCnt_pos hfree) (hnum'.symm ▸ hp)
    rw [numAt, hpage hlt hne]
    exact ⟨hlt, hnum', hmain⟩
  · by_cases hne : d = 0
    · rw [hne, numAt, hself] at hlt
      exact absurd hlt hnum
    · rw [numAt, hpage hd hne] at hlt ⊢
      exact h.only d hd hlt
  · rw [hother hd hf.2]
    exact h.blank d hd hf.1
  · rw [hself]
    exact hinfo
  · rw [hother hd hne, numAt, hpage hd hne]
    exact h.numbered d hd hne

/-- A page is copied. -/
theorem put (har : ar.Fits) (hnb : ar.IsSuperBlk z nb) {p d : Nat} (hp : p < ar.pageCntOfLogicBlk)
    (hnot : ¬done p) (hm : m₀ p ≠ 0xffff) (hd : d < ar.pageCntOfLogicBlk) (hfree : free d) {pg : Page}
    (hcopied : Copied ar (pageAt ar c₀ z lb (m₀ p)) pg)
    (hnum : (pageAt ar c₀ z lb (m₀ p)).spare.logicPageNum = p)
    (hinfo : d = 0 → pg.spare.logicInfo ≠ 0xffff)
    (hbank : ar.supportAlignNandBnk = true → d % ar.interleaveBankCnt = p % ar.interleaveBankCnt) :
    PagesMoving ar c₀ z lb nb m₀ (fun q => done q ∨ q = p) (fun e => free e ∧ e ≠ d)
      (Function.update c (lmlCalculatePhyOpPar ar z nb d) (some pg)) (Function.update m p d) := by
  have hself : pageAt ar (Function.update c (lmlCalculatePhyOpPar ar z nb d) (some pg)) z nb d = pg := by
    rw [pageAt, Function.update_self]
    rfl
  have hother {e : Nat} (he : e < ar.pageCntOfLogicBlk) (hne : e ≠ d) :
      Function.update c (lmlCalculatePhyOpPar ar z nb d) (some pg) (lmlCalculatePhyOpPar ar z nb e) =
        c (lmlCalculatePhyOpPar ar z nb e) :=
    Function.update_of_ne (fun heq => hne (pageAddr_inj har hnb hnb he hd heq).2) ..
  have hpage {e : Nat} (he : e < ar.pageCntOfLogicBlk) (hne : e ≠ d) : pageAt ar (Function.update c
      (lmlCalculatePhyOpPar ar z nb d) (some pg)) z nb e = pageAt ar c z nb e := by
    rw [pageAt, hother he hne, pageAt]
  have hpgnum : pg.spare.logicPageNum = p := hcopied.page.trans hnum
  -- the page was blank, so no page that has been copied is there
  have happart {q : Nat} (hq : q < ar.pageCntOfLogicBlk) (hdone : done q) (hmq : m₀ q ≠ 0xffff) :
      m q ≠ d := fun heq => by
    have hnum' := (h.moved q hq hdone hmq).2.1
    rw [heq] at hnum'
    exact numAt_blank har (h.blank d hd hfree) (hnum'.symm ▸ hq)
  refine ⟨h.touched.trans (.update nb d _), fun q hq hdone hmq => ?_, fun q hq hkept => ?_,
    fun e he hlt => ?_, fun e he hf => ?_, fun hnone => ?_, fun e he hne => ?_⟩
  · by_cases hqp : q = p
    · rw [hqp, Function.update_self, numAt, hself]
      exact ⟨hd, hpgnum, hcopied.main⟩
    · have hdone := hdone.resolve_right hqp
      obtain ⟨hlt, hnum', hmain⟩ := h.moved q hq hdone hmq
      rw [Function.update_of_ne hqp, numAt, hpage hlt (happart hq hdone hmq)]
      exact ⟨hlt, hnum', hmain⟩
  · have hqp : q ≠ p := fun heq => by
      rcases hkept with hkept | hkept
      · exact hkept (.inr heq)
      · exact hm (heq ▸ hkept)
    rw [Function.update_of_ne hqp]
    exact h.kept q hq (hkept.imp_left fun hnd hd' => hnd (.inl hd'))
  · by_cases hed : e = d
    · rw [hed, numAt, hself, hpgnum, Function.update_self]
      exact ⟨.inr rfl, hm, rfl, hbank⟩
    · rw [numAt, hpage he hed] at hlt ⊢
      obtain ⟨hdone, hmq, heq, hal⟩ := h.only e he hlt
      have hqp : (pageAt ar c z nb e).spare.logicPageNum ≠ p := fun heq => hnot (heq ▸ hdone)
      rw [Function.update_of_ne hqp]
      exact ⟨.inl hdone, hmq, heq, hal⟩
  · rw [hother he hf.2]
    exact h.blank e he hf.1
  · by_cases hd0 : d = 0
    · rw [hd0] at hself hinfo ⊢
      rw [hself]
      exact hinfo rfl
    · rw [hpage har.pageCnt_pos (Ne.symm hd0)]
      exact h.info fun hf => hnone ⟨hf, Ne.symm hd0⟩
  · by_cases hed : e = d
    · rw [hed, numAt, hself, hpgnum]
      exact .inr hp
    · rw [hother he hed, numAt, hpage he hed]
      exact h.numbered e he hne

/-- When all pages have been copied, the map is that of the new block. -/
theorem isMapOf (hall : ∀ p < ar.pageCntOfLogicBlk, done p) :
    IsMapOf ar c z nb m := by
  intro p hp
  by_cases hm : m₀ p = 0xffff
  · have hnone : logPageOf ar c z nb p = none := latest_eq_none.mpr fun d hd hnum =>
      (h.only d hd (hnum.symm ▸ hp)).2.1 (hnum.symm ▸ hm)
    rw [h.kept p hp (.inr hm), hm, hnone]
    rfl
  · obtain ⟨hlt, hnum, -⟩ := h.moved p hp (hall p hp) hm
    have hsome : logPageOf ar c z nb p = some (m p) := by
      refine latest_eq_some.mpr ⟨hlt, hnum, fun d hd hd' hnum' => ?_⟩
      have := (h.only d hd' (hnum'.symm ▸ hp)).2.2.1
      rw [hnum'] at this
      omega
    rw [hsome]
    rfl

end PagesMoving

end PagesMoving

/-! ## One bank -/

section Banks

variable {cnt r sp dst l d p : Nat}

/-- The pages of the banks before `r`, and those of bank `r` before `sp`. -/
def BankDone (cnt r sp p : Nat) : Prop := p % cnt < r ∨ p % cnt = r ∧ p < sp

/-- The pages of the banks behind `r`, those of bank `r` from `dst` on, and those of the banks before
`r` behind `l`. -/
def BankFree (cnt r dst l d : Nat) : Prop :=
  r < d % cnt ∨ d % cnt = r ∧ dst ≤ d ∨ d % cnt < r ∧ l < d

/-- Places of a bank are whole lines apart. -/
theorem bank_le {a b : Nat} (hmod : a % cnt = b % cnt) (h : a < b + cnt) : a ≤ b := by
  by_contra hgt
  have hzero := Nat.sub_mod_eq_zero_of_mod_eq hmod
  rw [Nat.mod_eq_of_lt (show a - b < cnt by omega)] at hzero
  omega

theorem bankDone_step (hcnt : 0 < cnt) (hsp : sp % cnt = r) :
    BankDone cnt r (sp + cnt) p ↔ BankDone cnt r sp p ∨ p = sp := by
  unfold BankDone
  constructor
  · rintro (hlow | ⟨hmod, hlt⟩)
    · exact .inl (.inl hlow)
    · have hle := bank_le (hmod.trans hsp.symm) hlt
      rcases Nat.lt_or_eq_of_le hle with hlt | heq
      · exact .inl (.inr ⟨hmod, hlt⟩)
      · exact .inr heq
  · rintro ((hlow | ⟨hmod, hlt⟩) | rfl)
    · exact .inl hlow
    · exact .inr ⟨hmod, by omega⟩
    · exact .inr ⟨hsp, by omega⟩

theorem bankFree_step (hcnt : 0 < cnt) (hdst : dst % cnt = r) (h : BankFree cnt r (dst + cnt) l d) :
    BankFree cnt r dst l d ∧ d ≠ dst := by
  rcases h with hhigh | ⟨hmod, hle⟩ | hlow
  · exact ⟨.inl hhigh, fun heq => by rw [heq] at hhigh; omega⟩
  · exact ⟨.inr (.inl ⟨hmod, by omega⟩), by omega⟩
  · exact ⟨.inr (.inr hlow), fun heq => by rw [heq] at hlow; omega⟩

/-- The last page that is used, when bank `dst % cnt` has been filled up to `dst`. -/
def bankLast (cnt dst l : Nat) : Nat := if dst > l + cnt then dst - cnt else l

theorem bankFree_next (hdst : dst % cnt = r)
    (h : BankFree cnt (r + 1) (r + 1) (bankLast cnt dst l) d) : BankFree cnt r dst l d := by
  have hlast : l ≤ bankLast cnt dst l ∧ dst ≤ bankLast cnt dst l + cnt := by
    unfold bankLast
    split <;> omega
  rcases h with hhigh | ⟨hmod, -⟩ | ⟨hlow, hlt⟩
  · exact .inl (by omega)
  · exact .inl (by omega)
  · by_cases heq : d % cnt = r
    · exact .inr (.inl ⟨heq, bank_le (hdst.trans heq.symm) (by omega)⟩)
    · exact .inr (.inr ⟨by omega, by omega⟩)

/-- The pages of a bank end behind the block, by less than a line. -/
theorem bank_end {pages : Nat} (hcnt : 0 < cnt) (hr : r ≤ pages) :
    pages ≤ r + (pages - r + cnt - 1) / cnt * cnt ∧
      r + (pages - r + cnt - 1) / cnt * cnt < pages + cnt := by
  have hle := Nat.div_mul_le_self (pages - r + cnt - 1) cnt
  have hlt := Nat.lt_div_mul_add (a := pages - r + cnt - 1) hcnt
  omega

theorem not_bankFree_zero (h : 0 < r ∨ 0 < dst) : ¬BankFree cnt r dst l 0 := by
  unfold BankFree
  rw [Nat.zero_mod]
  omega

end Banks

/-! ## The page map on the way -/

/-- The active page map. -/
def Ftl.withMap (s : Ftl) (m : Nat → Nat) : Ftl :=
  s.setPageMapCache fun c => { c with pageMapTbl := m }

namespace Ftl

theorem withMap_pageMapTbl (s : Ftl) (m : Nat → Nat) : (s.withMap m).pageMapTbl = m :=
  congrArg PageMapTblCache.pageMapTbl (s.setPageMapCache_pageMapCache _)

theorem withMap_set (s : Ftl) (m : Nat → Nat) (p d : Nat) :
    ((s.withMap m).setPageMapCache fun c =>
      { c with pageMapTbl := Function.update c.pageMapTbl p d }) =
        s.withMap (Function.update m p d) := by
  simp [withMap, setPageMapCache, pageMapCache]

theorem withMap_self (s : Ftl) : s.withMap s.pageMapTbl = s := by
  simp [withMap, setPageMapCache, pageMapTbl, pageMapCache]

theorem withMap_setTbls (s : Ftl) (m : Nat → Nat) (f : BlkTbls → BlkTbls) :
    (s.withMap m).setTbls f = (s.setTbls f).withMap m := rfl

end Ftl

section Moves

variable {ar : LogicArchi} {env : NandEnv} {L : ZoneLayout ar} {F : Int → Ftl → Prop} {k i : Nat}
  {s s₁ : Ftl} {nb : SuperPhyBlk}

/-- Where a move merge that has started from `s` stands. -/
structure OnMove (ar : LogicArchi) (i : Nat) (s s₁ : Ftl) (nb : SuperPhyBlk)
    (done free : Nat → Prop) (s₂ : Ftl) : Prop where
  flashed : Flashed (s₁.withMap s₂.pageMapTbl) s₂
  zone : s₁.curMapZone = s.curMapZone
  moving : PagesMoving ar s.nand.cell s.curMapZone (s.tbls.logBlkTbl i).phyBlk.phyBlkNum nb.phyBlkNum
    s.pageMapTbl done free s₂.nand.cell s₂.pageMapTbl

/-- Page `src` of the log block has been copied to page `d` of the new one. -/
structure PagePut (ar : LogicArchi) (i : Nat) (s : Ftl) (nb : SuperPhyBlk) (src d : Nat)
    (s₂ s₃ : Ftl) : Prop where
  flashed : Flashed s₂ s₃
  put : ∃ pg : Page, s₃.nand.cell = Function.update s₂.nand.cell
      (lmlCalculatePhyOpPar ar s.curMapZone nb.phyBlkNum d) (some pg) ∧
    Copied ar (pageAt ar s.nand.cell s.curMapZone (s.tbls.logBlkTbl i).phyBlk.phyBlkNum src) pg ∧
    (d = 0 → pg.spare.logicInfo ≠ 0xffff)

namespace OnMove

variable {done free done' free' : Nat → Prop} {s₂ s₃ : Ftl}

theorem curMapZone (h : OnMove ar i s s₁ nb done free s₂) : s₂.curMapZone = s.curMapZone :=
  h.flashed.curMapZone.trans h.zone

theorem congr (h : OnMove ar i s s₁ nb done free s₂)
    (hdone : ∀ p < ar.pageCntOfLogicBlk, s.pageMapTbl p ≠ 0xffff → (done' p ↔ done p))
    (hfree : ∀ d < ar.pageCntOfLogicBlk, free' d → free d) (hfirst : free 0 → free' 0) :
    OnMove ar i s s₁ nb done' free' s₂ :=
  ⟨h.flashed, h.zone, h.moving.congr hdone hfree hfirst⟩

/-- The source block is as it was. -/
theorem source (har : ar.Fits) (hr : MergeReady L k i s)
    (hnb : ar.IsSuperBlk s.curMapZone nb.phyBlkNum)
    (hne : nb.phyBlkNum ≠ (s.tbls.logBlkTbl i).phyBlk.phyBlkNum)
    (h : OnMove ar i s s₁ nb done free s₂) (q : Nat) :
    s₂.nand.read (lmlCalculatePhyOpPar ar s.curMapZone (s.tbls.logBlkTbl i).phyBlk.phyBlkNum q) =
      pageAt ar s.nand.cell s.curMapZone (s.tbls.logBlkTbl i).phyBlk.phyBlkNum q := by
  rw [Nand.read, pageAt, h.moving.touched.other har (fun d hd => hd ▸ hnb)
    (hr.isSuperBlk hr.log_mem) (Ne.symm hne) q]

/-- The first page of the source block gives the logical information. -/
theorem copyPage0_copies (har : ar.Fits) (henv : env.NoFailure) (hr : MergeReady L k i s)
    (hlast : (s.tbls.logBlkTbl i).lastUsedPage ≠ 0xffff)
    (hnb : ar.IsSuperBlk s.curMapZone nb.phyBlkNum)
    (hne : nb.phyBlkNum ≠ (s.tbls.logBlkTbl i).phyBlk.phyBlkNum)
    (h : OnMove ar i s s₁ nb done free s₂) (hfree : free 0) (src : Nat) :
    WP anyRun (copyPage0 ar env (s.tbls.logBlkTbl i).phyBlk.phyBlkNum src nb.phyBlkNum 0)
      (fun _ s₃ => PagePut ar i s nb src 0 s₂ s₃) F s₂ := by
  refine (copyPage0_puts henv h.flashed.clear (by
    rw [h.curMapZone]; exact h.moving.blank 0 har.pageCnt_pos hfree)).imp ?_
  rintro _ s₃ ⟨h₃, pg, hcell, hcopied, hinfo⟩
  rw [h.curMapZone] at hcell hcopied hinfo
  rw [h.source har hr hnb hne] at hcopied hinfo
  exact ⟨h₃, pg, hcell, hcopied, fun _ => hinfo ▸ hr.logOK.info hlast⟩

/-- The step that a copy is, with the entry in the page map. -/
theorem put (har : ar.Fits) (hr : MergeReady L k i s)
    (hnb : ar.IsSuperBlk s.curMapZone nb.phyBlkNum) (h : OnMove ar i s s₁ nb done free s₂)
    {p d : Nat} (h₃ : PagePut ar i s nb (s.pageMapTbl p) d s₂ s₃) (hp : p < ar.pageCntOfLogicBlk)
    (hnot : ¬done p) (hm : s.pageMapTbl p ≠ 0xffff) (hd : d < ar.pageCntOfLogicBlk) (hfree : free d)
    (hbank : ar.supportAlignNandBnk = true → d % ar.interleaveBankCnt = p % ar.interleaveBankCnt) :
    WP anyRun (pmmSetCurMapPage p d)
      (fun _ s₄ => OnMove ar i s s₁ nb (fun q => done q ∨ q = p) (fun e => free e ∧ e ≠ d) s₄)
      F s₃ := by
  obtain ⟨h₃, pg, hcell, hcopied, hinfo⟩ := h₃
  have hall := (h.flashed.trans h₃).setPageMapCache fun c =>
    { c with pageMapTbl := Function.update c.pageMapTbl p d }
  rw [Ftl.withMap_set] at hall
  have hmap := hall.pageMapTbl.trans (Ftl.withMap_pageMapTbl ..)
  obtain ⟨-, hq, -⟩ := (hr.source har hp).resolve_left fun hnone => hm hnone.1
  refine WP.modify ⟨?_, h.zone, ?_⟩
  · rw [hmap]
    exact hall
  · rw [hmap]
    show PagesMoving ar _ _ _ _ _ _ _ s₃.nand.cell _
    rw [hcell]
    exact h.moving.put har hnb hp hnot hm hd hfree hcopied (latest_eq_some.mp hq).2.1 hinfo hbank

end OnMove

/-! ## Banks one by one -/

/-- The current pages of a bank are copied to its first pages. -/
theorem moveBankPages_moves (har : ar.Fits) (hcopy : ar.CopiesExactly) (henv : env.NoFailure)
    (hr : MergeReady L k i s) (hlast : (s.tbls.logBlkTbl i).lastUsedPage ≠ 0xffff)
    (hnb : ar.IsSuperBlk s.curMapZone nb.phyBlkNum)
    (hne : nb.phyBlkNum ≠ (s.tbls.logBlkTbl i).phyBlk.phyBlkNum) (r l n : Nat) :
    ∀ (sp dst : Nat) (s₂ : Ftl), sp % ar.interleaveBankCnt = r → dst % ar.interleaveBankCnt = r →
      dst ≤ sp → BankPages ar n sp →
      OnMove ar i s s₁ nb (BankDone ar.interleaveBankCnt r sp) (BankFree ar.interleaveBankCnt r dst l)
        s₂ →
      WP anyRun (moveBankPages ar env (s.tbls.logBlkTbl i).phyBlk nb n sp dst)
        (fun x s' => ∃ d, x = .inr d ∧ d % ar.interleaveBankCnt = r ∧
          d ≤ sp + n * ar.interleaveBankCnt ∧
          OnMove ar i s s₁ nb (BankDone ar.interleaveBankCnt r (sp + n * ar.interleaveBankCnt))
            (BankFree ar.interleaveBankCnt r d l) s') F s₂ := by
  induction n with
  | zero =>
      intro sp dst s₂ _ hdst hle _ h
      rw [Nat.zero_mul, Nat.add_zero]
      exact WP.pure ⟨dst, rfl, hdst, hle, h⟩
  | succ n ih =>
      intro sp dst s₂ hsp hdst hle hpages h
      obtain ⟨hp, hpages'⟩ := hpages.step
      have hpos := har.pos
      have hnot : ¬BankDone ar.interleaveBankCnt r sp sp := by
        unfold BankDone
        omega
      have hkept := h.moving.kept sp hp (.inl hnot)
      have hnext : sp + (n + 1) * ar.interleaveBankCnt =
          sp + ar.interleaveBankCnt + n * ar.interleaveBankCnt := by
        rw [Nat.add_mul, Nat.one_mul]
        omega
      have hmod {x : Nat} (hx : x % ar.interleaveBankCnt = r) :
          (x + ar.interleaveBankCnt) % ar.interleaveBankCnt = r := by
        rw [Nat.add_mod_right, hx]
      rw [hnext]
      refine WP.bind (WP.get (WP.ite (fun hnone => ?_) fun hsrc => ?_))
      · rw [hkept] at hnone
        refine ih _ dst s₂ (hmod hsp) hdst (by omega) hpages' (h.congr (fun q _ hq => ?_)
          (fun _ _ hf => hf) fun hf => hf)
        rw [bankDone_step hpos hsp]
        exact or_iff_left fun heq => hq (heq ▸ hnone)
      rw [hkept] at hsrc ⊢
      obtain ⟨-, hq, -⟩ := (hr.source har hp).resolve_left fun hnone => hsrc hnone.1
      have hd : dst < ar.pageCntOfLogicBlk := by omega
      have hfree : BankFree ar.interleaveBankCnt r dst l dst := .inr (.inl ⟨hdst, Nat.le_refl _⟩)
      have hcopied : WP anyRun
          (if dst = 0 then copyPage0 ar env (s.tbls.logBlkTbl i).phyBlk.phyBlkNum (s.pageMapTbl sp)
              nb.phyBlkNum 0
            else copyPage ar env (s.tbls.logBlkTbl i).phyBlk.phyBlkNum (s.pageMapTbl sp)
              nb.phyBlkNum dst)
          (fun _ s₃ => PagePut ar i s nb (s.pageMapTbl sp) dst s₂ s₃) F s₂ := by
        refine WP.ite (fun hd0 => ?_) fun hd0 => ?_
        · subst hd0
          exact h.copyPage0_copies har henv hr hlast hnb hne hfree _
        · refine (copyPage_puts henv h.flashed.clear (hcopy.inPlace fun hal => ?_)
            (by rw [h.curMapZone]; exact h.moving.blank dst hd hfree)).imp ?_
          · rw [hr.source_bank hp hq hal, hsp, hdst]
          · rintro _ s₃ ⟨h₃, hcell⟩
            rw [h.curMapZone] at hcell
            rw [h.source har hr hnb hne] at hcell
            exact ⟨h₃, _, hcell, .refl ar _, fun hd0' => absurd hd0' hd0⟩
      refine WP.bind (hcopied.imp ?_)
      rintro _ s₃ h₃
      refine WP.bind ((synchPage_gives h₃.flashed.clear _ _).imp ?_)
      rintro _ _ ⟨rfl, rfl⟩
      refine WP.ite (fun hne' => absurd rfl hne') fun _ => WP.bind ((h.put har hr hnb h₃ hp hnot
        hsrc hd hfree fun _ => hdst.trans hsp.symm).imp fun _ s₄ h₄ => ?_)
      refine (ih _ _ s₄ (hmod hsp) (hmod hdst) (by omega) hpages' (h₄.congr
        (fun q _ _ => bankDone_step hpos hsp) (fun d _ => bankFree_step hpos hdst) fun hf => ?_)).imp
        ?_
      · refine absurd hf.1 ?_
        exact not_bankFree_zero (.inr (Nat.pos_of_ne_zero fun hd0 => hf.2 hd0.symm))
      · rintro x s' ⟨d, hx, hd', hle', h'⟩
        exact ⟨d, hx, hd', hle', h'⟩

/-- When no page of bank 0 is current, the logical information alone goes to page 0. -/
theorem moveManageInfo_moves (har : ar.Fits) (henv : env.NoFailure) (hr : MergeReady L k i s)
    (hal : ar.supportAlignNandBnk = true) (hlast : (s.tbls.logBlkTbl i).lastUsedPage ≠ 0xffff)
    (hnb : ar.IsSuperBlk s.curMapZone nb.phyBlkNum)
    (hne : nb.phyBlkNum ≠ (s.tbls.logBlkTbl i).phyBlk.phyBlkNum) {l sp : Nat} {s₂ : Ftl}
    (hsp : ar.pageCntOfLogicBlk ≤ sp)
    (h : OnMove ar i s s₁ nb (BankDone ar.interleaveBankCnt 0 sp)
      (BankFree ar.interleaveBankCnt 0 0 l) s₂) :
    WP anyRun (moveManageInfo ar env (s.tbls.logBlkTbl i).phyBlk nb)
      (fun x s' => x = .inr () ∧ OnMove ar i s s₁ nb (BankDone ar.interleaveBankCnt 0 sp)
        (fun e => BankFree ar.interleaveBankCnt 0 0 l e ∧ e ≠ 0) s') F s₂ := by
  have hfree : BankFree ar.interleaveBankCnt 0 0 l 0 := .inr (.inl ⟨Nat.zero_mod _, Nat.le_refl 0⟩)
  -- a page of bank 0 that is current would have been copied
  have hnum : ¬numAt ar s.nand.cell s.curMapZone (s.tbls.logBlkTbl i).phyBlk.phyBlkNum 0 <
      ar.pageCntOfLogicBlk := fun hlt => by
    have hbank := hr.logOK.aligned hal 0 har.pageCnt_pos hlt
    rw [Nat.zero_mod] at hbank
    have hdone : BankDone ar.interleaveBankCnt 0 sp (numAt ar s.nand.cell s.curMapZone
        (s.tbls.logBlkTbl i).phyBlk.phyBlkNum 0) := .inr ⟨hbank.symm, by omega⟩
    obtain ⟨hd, hnum', -⟩ := h.moving.moved _ hlt hdone (hr.mapped har har.pageCnt_pos hlt)
    have hmod := (h.moving.only _ hd (by rw [hnum']; exact hlt)).2.2.2 hal
    rw [hnum', ← hbank] at hmod
    refine numAt_blank har (h.moving.blank _ hd (.inr (.inl ⟨hmod, Nat.zero_le _⟩))) ?_
    rw [hnum']
    exact hlt
  refine WP.bind (WP.get (WP.bind ((h.copyPage0_copies har henv hr hlast hnb hne hfree 0).imp ?_)))
  rintro _ s₃ ⟨h₃, pg, hcell, hcopied, hinfo⟩
  refine WP.bind ((synchPage_gives h₃.clear _ _).imp ?_)
  rintro _ _ ⟨rfl, rfl⟩
  have hmap := h₃.pageMapTbl
  refine WP.ite (fun hne' => absurd rfl hne') fun _ => WP.pure ⟨rfl, ?_, h.zone, ?_⟩
  · rw [hmap]
    exact h.flashed.trans h₃
  · rw [hmap, hcell]
    refine h.moving.putInfo har hnb hfree ?_ (hinfo rfl)
    rw [hcopied.page]
    exact hnum

/-- All banks from `r` on; `l` is the last page that is used so far. -/
theorem moveBanks_moves (har : ar.Fits) (hcopy : ar.CopiesExactly) (henv : env.NoFailure)
    (hr : MergeReady L k i s) (hal : ar.supportAlignNandBnk = true)
    (hlast : (s.tbls.logBlkTbl i).lastUsedPage ≠ 0xffff)
    (hnb : ar.IsSuperBlk s.curMapZone nb.phyBlkNum)
    (hne : nb.phyBlkNum ≠ (s.tbls.logBlkTbl i).phyBlk.phyBlkNum) (n : Nat) :
    ∀ (r l : Nat) (s₂ : Ftl), r + n = ar.interleaveBankCnt → l < ar.pageCntOfLogicBlk →
      OnMove ar i s s₁ nb (BankDone ar.interleaveBankCnt r r)
        (BankFree ar.interleaveBankCnt r r l) s₂ →
      WP anyRun (moveBanks ar env (s.tbls.logBlkTbl i).phyBlk nb n r l)
        (fun x s' => ∃ l', x = .inr l' ∧ l' < ar.pageCntOfLogicBlk ∧
          OnMove ar i s s₁ nb (fun _ => True) (fun d => l' < d) s') F s₂ := by
  have hpos := har.pos
  have hmod (d : Nat) : d % ar.interleaveBankCnt < ar.interleaveBankCnt := Nat.mod_lt d hpos
  induction n with
  | zero =>
      intro r l s₂ hcnt hl h
      obtain rfl : r = ar.interleaveBankCnt := hcnt
      refine WP.pure ⟨l, rfl, hl, h.congr (fun p _ _ => ?_) (fun d _ hd => ?_) fun hf => ?_⟩
      · exact iff_of_true trivial (.inl (hmod p))
      · exact .inr (.inr ⟨hmod d, hd⟩)
      · rcases hf with hf | hf | hf
        · exact absurd (hmod 0) (Nat.not_lt.mpr (Nat.le_of_lt hf))
        · have := hmod 0
          omega
        · exact hf.2
  | succ n ih =>
      intro r l s₂ hcnt hl h
      have hrlt : r < ar.interleaveBankCnt := by omega
      have hrpages : ar.interleaveBankCnt ≤ ar.pageCntOfLogicBlk :=
        Nat.div_le_self ar.pageCntOfLogicBlk ar.pageCntOfPhyBlk
      have hself : r % ar.interleaveBankCnt = r := Nat.mod_eq_of_lt hrlt
      refine WP.bind ((moveBankPages_moves har hcopy henv hr hlast hnb hne r l _ r r s₂ hself hself
        (Nat.le_refl r) (bankPages_all ar hpos r) h).imp ?_)
      rintro _ s₃ ⟨d, rfl, hdmod, hdle, h₃⟩
      -- all pages of the bank have been looked at
      obtain ⟨hall, hend⟩ := bank_end (r := r) hpos (show r ≤ ar.pageCntOfLogicBlk by omega)
      have hnext {free : Nat → Prop} {s₄ : Ftl} (hfree : ∀ e < ar.pageCntOfLogicBlk, BankFree
            ar.interleaveBankCnt (r + 1) (r + 1) (bankLast ar.interleaveBankCnt d l) e → free e)
          (hzero : ¬free 0)
          (h₄ : OnMove ar i s s₁ nb (BankDone ar.interleaveBankCnt r (r +
            (ar.pageCntOfLogicBlk - r + ar.interleaveBankCnt - 1) / ar.interleaveBankCnt *
              ar.interleaveBankCnt)) free s₄) :
          WP anyRun (moveBanks ar env (s.tbls.logBlkTbl i).phyBlk nb n (r + 1)
            (bankLast ar.interleaveBankCnt d l)) (fun x s' => ∃ l', x = .inr l' ∧
              l' < ar.pageCntOfLogicBlk ∧
              OnMove ar i s s₁ nb (fun _ => True) (fun d => l' < d) s') F s₄ := by
        refine ih (r + 1) _ s₄ (by omega) ?_ (h₄.congr (fun p hp _ => ?_) hfree fun hf =>
          absurd hf hzero)
        · unfold bankLast
          split <;> omega
        · have hself := Nat.mod_le p ar.interleaveBankCnt
          unfold BankDone
          omega
      have hbehind {e : Nat} (hf : BankFree ar.interleaveBankCnt (r + 1) (r + 1)
          (bankLast ar.interleaveBankCnt d l) e) : BankFree ar.interleaveBankCnt r d l e :=
        bankFree_next hdmod hf
      by_cases hinfo : r = 0 ∧ d = 0
      · obtain ⟨rfl, rfl⟩ := hinfo
        refine WP.bind (WP.ite (fun _ => ?_) fun hnot => absurd ⟨rfl, rfl⟩ hnot)
        refine (moveManageInfo_moves har henv hr hal hlast hnb hne hall h₃).imp ?_
        rintro _ s₄ ⟨rfl, h₄⟩
        refine hnext (fun e _ hf => ⟨hbehind hf, ?_⟩) (fun hf => hf.2 rfl) h₄
        rintro rfl
        exact not_bankFree_zero (.inl Nat.zero_lt_one) hf
      · refine WP.bind (WP.ite (fun hyes => absurd hyes hinfo) fun _ => WP.pure ?_)
        refine hnext (fun e _ => hbehind) ?_ h₃
        exact not_bankFree_zero (by omega)

/-! ## Page by page -/

theorem moveRounds_move (har : ar.Fits) (henv : env.NoFailure) (hr : MergeReady L k i s)
    (hal : ¬ar.supportAlignNandBnk = true)
    (hlast : (s.tbls.logBlkTbl i).lastUsedPage ≠ 0xffff)
    (hnb : ar.IsSuperBlk s.curMapZone nb.phyBlkNum)
    (hne : nb.phyBlkNum ≠ (s.tbls.logBlkTbl i).phyBlk.phyBlkNum) {s₂ : Ftl}
    (h : OnMove ar i s s₁ nb (fun _ => False) (fun _ => True) s₂) :
    WP anyRun (iterate (moveRound ar env (s.tbls.logBlkTbl i).phyBlk) (mergeFuel ar) ⟨0, 0, 0, nb⟩)
      (fun r s' => r.1 = nb ∧ r.2 < ar.pageCntOfLogicBlk ∧
        OnMove ar i s s₁ nb (fun _ => True) (fun d => r.2 < d) s') F s₂ := by
  have hmaps := har.maps
  refine WP.iterate (I := fun x n s' => n = ar.pageCntOfLogicBlk - x.superPage ∧
    x.superPage ≤ ar.pageCntOfLogicBlk ∧ x.dstPage ≤ x.superPage ∧
    x.lastUsedPage = x.dstPage - 1 ∧ x.freeBlk = nb ∧
    OnMove ar i s s₁ nb (fun p => p < x.superPage) (fun d => x.dstPage ≤ d) s')
    (n := ar.pageCntOfLogicBlk) ?_ ?_ ⟨rfl, Nat.zero_le _, Nat.le_refl 0, rfl, rfl, h.congr
      (fun p _ _ => iff_of_false (Nat.not_lt_zero p) fun hf => hf) (fun _ _ _ => trivial)
      fun _ => Nat.le_refl 0⟩
  · rintro ⟨sp, dst, last, b⟩ n s' ⟨rfl, hsp, hdst, hlast', rfl, h⟩
    dsimp only at hsp hdst hlast' h
    rw [moveRound]
    refine WP.ite (fun hp => ?_) fun hend => ?_
    · dsimp only at hp
      have hnot : ¬sp < sp := Nat.lt_irrefl sp
      have hkept := h.moving.kept sp hp (.inl hnot)
      refine WP.bind (WP.get (WP.ite (fun hnone => ?_) fun hsrc => ?_))
      · dsimp only at hnone
        rw [hkept] at hnone
        refine WP.pure ⟨ar.pageCntOfLogicBlk - (sp + 1), by dsimp only; omega, rfl, hp,
          Nat.le_succ_of_le hdst, hlast', rfl, h.congr (fun p _ hm => ?_) (fun _ _ hf => hf)
            fun hf => hf⟩
        have hpne : p ≠ sp := fun heq => hm (heq ▸ hnone)
        dsimp only
        omega
      dsimp only at hsrc ⊢
      rw [hkept] at hsrc ⊢
      have hd : dst < ar.pageCntOfLogicBlk := by omega
      have hcopied : WP anyRun
          (if dst = 0 then copyPage0 ar env (s.tbls.logBlkTbl i).phyBlk.phyBlkNum (s.pageMapTbl sp)
              b.phyBlkNum 0
            else movePageByBuf ar env (s.tbls.logBlkTbl i).phyBlk.phyBlkNum b.phyBlkNum
              (s.pageMapTbl sp) dst)
          (fun _ s₃ => PagePut ar i s b (s.pageMapTbl sp) dst s' s₃) F s' := by
        refine WP.ite (fun hd0 => ?_) fun hd0 => ?_
        · subst hd0
          exact h.copyPage0_copies har henv hr hlast hnb hne (Nat.le_refl 0) _
        · refine (movePageByBuf_puts henv h.flashed.clear
            (by rw [h.curMapZone]; exact h.moving.blank dst hd (Nat.le_refl dst))).imp ?_
          rintro _ s₃ ⟨h₃, pg, hcell, hcop⟩
          rw [h.curMapZone] at hcell hcop
          rw [h.source har hr hnb hne] at hcop
          exact ⟨h₃, pg, hcell, hcop, fun hd0' => absurd hd0' hd0⟩
      refine WP.bind (hcopied.imp ?_)
      rintro _ s₃ h₃
      refine WP.bind ((synchPage_gives h₃.flashed.clear _ _).imp ?_)
      rintro _ _ ⟨rfl, rfl⟩
      refine WP.bind (WP.ite (fun hne' => absurd rfl hne') fun _ => WP.pure (WP.bind
        ((h.put har hr hnb h₃ hp hnot hsrc hd (Nat.le_refl dst)
          fun hal' => absurd hal' hal).imp fun _ s₄ h₄ => WP.pure ?_)))
      have hsp' : u16 (sp + 1) = sp + 1 := Nat.mod_eq_of_lt (by omega)
      have hdst' : u16 (dst + 1) = dst + 1 := Nat.mod_eq_of_lt (by omega)
      refine ⟨ar.pageCntOfLogicBlk - (sp + 1), by omega, ?_⟩
      dsimp only
      rw [hsp', hdst']
      refine ⟨rfl, hp, Nat.succ_le_succ hdst, rfl, rfl, h₄.congr (fun p _ _ => ?_)
        (fun d _ hf => ⟨by omega, by omega⟩) fun hf => ?_⟩
      · omega
      · exact absurd hf.2 (by omega)
    · dsimp only at hend
      refine WP.pure ⟨rfl, ?_, h.congr (fun p hp _ => iff_of_true trivial (by omega))
        (fun d _ hf => ?_) fun hf => ?_⟩
      · have := har.pageCnt_pos
        dsimp only
        omega
      · dsimp only at hf ⊢
        omega
      -- there is a current page, and it has been copied
      exfalso
      obtain ⟨q, hq, hnum⟩ := hr.logOK.filled hlast
      obtain ⟨hd, hnum', -⟩ := h.moving.moved _ hnum (by omega) (hr.mapped har hq hnum)
      refine numAt_blank har (h.moving.blank _ hd (Nat.le_trans hf (Nat.zero_le _))) ?_
      rw [hnum']
      exact hnum
  · unfold mergeFuel
    omega

/-! ## The tables after a move merge -/

/-- The tables after a move merge that has taken the free block at `p` and used its pages up to
`l`. -/
def moveTbls (ar : LogicArchi) (t : BlkTbls) (p i l : Nat) : BlkTbls :=
  ((t.setFree p .none).setFreeBlk ar.freeBlkCntOfZone (t.logBlkTbl i).phyBlk.erased).setLog i
    { t.logBlkTbl i with lastUsedPage := l, phyBlk := t.freeBlkTbl p }

theorem moveTbls_dataBlkTbl (ar : LogicArchi) (t : BlkTbls) (p i l : Nat) :
    (moveTbls ar t p i l).dataBlkTbl = t.dataBlkTbl :=
  BlkTbls.setFreeBlk_dataBlkTbl (t.setFree p .none) ..

theorem moveTbls_logBlkTbl (ar : LogicArchi) (t : BlkTbls) (p i l : Nat) :
    (moveTbls ar t p i l).logBlkTbl = Function.update t.logBlkTbl i
      { t.logBlkTbl i with lastUsedPage := l, phyBlk := t.freeBlkTbl p } := by
  show Function.update (BlkTbls.setFreeBlk _ _ _).logBlkTbl i _ = _
  rw [BlkTbls.setFreeBlk_logBlkTbl]
  rfl

section MoveTbls

variable {p : Nat} (har : ar.Fits) (h : MergeReady L k i s) (hp : p < ar.freeBlkCntOfZone)
  (hblk : (s.tbls.freeBlkTbl p).phyBlkNum ≠ 0xffff) (l : Nat)
include har h hp hblk

theorem moveTbls_freeNums : (moveTbls ar s.tbls p i l).freeNums ar.freeBlkCntOfZone =
    (s.tbls.logBlkTbl i).phyBlk.phyBlkNum ::ₘ
      (s.tbls.setFree p .none).freeNums ar.freeBlkCntOfZone := by
  have hlt := h.free_lt
  have hcard := BlkTbls.card_freeNums_take hp hblk
  show (BlkTbls.setFreeBlk _ _ _).freeNums _ = _
  rw [BlkTbls.freeNums_setFreeBlk (by omega), SuperPhyBlk.erased_phyBlkNum]
  rw [SuperPhyBlk.erased_phyBlkNum]
  exact L.listed_ne_none har h.log_mem

theorem moveTbls_blocks : (moveTbls ar s.tbls p i l).blocks ar = s.tbls.blocks ar := by
  have hdataNum : (moveTbls ar s.tbls p i l).dataNum = s.tbls.dataNum := by
    funext j
    rw [BlkTbls.dataNum, moveTbls_dataBlkTbl]
    rfl
  have hlogNum : (moveTbls ar s.tbls p i l).logNum =
      Function.update s.tbls.logNum i (some (s.tbls.freeBlkTbl p).phyBlkNum) := by
    funext j
    rw [BlkTbls.logNum, moveTbls_logBlkTbl]
    by_cases hj : j = i
    · rw [hj, Function.update_self, Function.update_self, if_neg h.logUsed]
    · rw [Function.update_of_ne hj, Function.update_of_ne hj, BlkTbls.logNum]
  have hlog := held_update (g := s.tbls.logNum) h.pst_lt
    (some (s.tbls.freeBlkTbl p).phyBlkNum)
  have hused : s.tbls.logNum i = some (s.tbls.logBlkTbl i).phyBlk.phyBlkNum := if_neg h.logUsed
  rw [hused, one_some, one_some] at hlog
  rw [BlkTbls.blocks, hdataNum, hlogNum, moveTbls_freeNums har h hp hblk, BlkTbls.blocks,
    BlkTbls.freeNums_take hp hblk, ← Multiset.singleton_add, ← Multiset.singleton_add, ← add_assoc,
    ← add_assoc, add_assoc (held s.tbls.dataNum _) _ {(s.tbls.logBlkTbl i).phyBlk.phyBlkNum}, hlog]
  abel

end MoveTbls

/-- What a log block has after its pages have been moved: a copy of each current page, and the
pages behind are blank. -/
theorem movedLog_ok (har : ar.Fits) (h : MergeReady L k i s) {p l : Nat}
    (hp : p < ar.freeBlkCntOfZone) (hl : l < ar.pageCntOfLogicBlk)
    (hlast : (s.tbls.logBlkTbl i).lastUsedPage ≠ 0xffff) {c : Cells} {m : Nat → Nat} {u : BlkTbls}
    (hmoving : PagesMoving ar s.nand.cell s.curMapZone (s.tbls.logBlkTbl i).phyBlk.phyBlkNum
      (s.tbls.freeBlkTbl p).phyBlkNum s.pageMapTbl (fun _ => True) (fun d => l < d) c m)
    (hdata : (pageAt ar c s.curMapZone (u.dataBlkTbl k).phyBlkNum 0).spare.logicInfo ≠ 0xffff) :
    LogOK ar c s.curMapZone u
      { s.tbls.logBlkTbl i with lastUsedPage := l, phyBlk := s.tbls.freeBlkTbl p } := by
  have hmaps := har.maps
  have hlnone : l ≠ 0xffff := by omega
  have hcopied {q : Nat} (hq : q < ar.pageCntOfLogicBlk) (hnum : numAt ar s.nand.cell s.curMapZone
      (s.tbls.logBlkTbl i).phyBlk.phyBlkNum q < ar.pageCntOfLogicBlk) :=
    hmoving.moved _ hnum trivial (h.mapped har hq hnum)
  have hfilled : ∃ d < ar.pageCntOfLogicBlk, numAt ar c s.curMapZone
      (s.tbls.freeBlkTbl p).phyBlkNum d < ar.pageCntOfLogicBlk := by
    obtain ⟨q, hq, hnum⟩ := h.logOK.filled hlast
    obtain ⟨hd, hnum', -⟩ := hcopied hq hnum
    exact ⟨_, hd, by rw [hnum']; exact hnum⟩
  refine ⟨h.logOK.num, h.ok.counts p hp, fun _ => hl, fun d hd hle => ?_, fun _ => ?_, ?_,
    fun hal d hd hnum => (hmoving.only d hd hnum).2.2.2 hal, fun _ => hfilled, fun _ hacc => ?_⟩
  · refine hmoving.blank d hd ?_
    unfold LogBlk.usedPages at hle
    rw [if_neg hlnone] at hle
    exact hle
  · exact hmoving.info (Nat.not_lt_zero l)
  · rw [h.log]
    exact hdata
  -- the last page is not taken for a page map: it carries a number, or it is blank
  · exfalso
    obtain ⟨hstatus, hnum, -⟩ := hacc
    have hnot : ¬numAt ar c s.curMapZone (s.tbls.freeBlkTbl p).phyBlkNum l < ar.pageCntOfLogicBlk := by
      rw [numAt, hnum]
      omega
    by_cases hl0 : l = 0
    · obtain ⟨d, hd, hnum'⟩ := hfilled
      have hd0 : d = 0 := by
        by_contra hne
        exact numAt_blank har (hmoving.blank d hd (by omega)) hnum'
      rw [hl0] at hnot
      exact hnot (hd0 ▸ hnum')
    · have hblank := (hmoving.numbered l hl hl0).resolve_right hnot
      rw [pageAt, hblank] at hstatus
      exact absurd hstatus (by decide)

/-- Page `q` of the disk is read from the new log block, or from the data block as before. -/
theorem movedPage_same (har : ar.Fits) (h : MergeReady L k i s) {c₂ c' : Cells} {nb l q : Nat}
    {m : Nat → Nat} {u : BlkTbls}
    (hmoving : PagesMoving ar s.nand.cell s.curMapZone (s.tbls.logBlkTbl i).phyBlk.phyBlkNum nb
      s.pageMapTbl (fun _ => True) (fun d => l < d) c₂ m)
    (hnew : SameBlock ar s.curMapZone nb c₂ c')
    (hdataSame : SameBlock ar s.curMapZone (s.tbls.dataBlkTbl k).phyBlkNum s.nand.cell c')
    (hpst : u.logBlkPst k = some i) (hlog : (u.logBlkTbl i).phyBlk.phyBlkNum = nb)
    (hdata : u.dataBlkTbl k = s.tbls.dataBlkTbl k) (hq : q < ar.pageCntOfLogicBlk) :
    SameSectors ar (pageOf ar c' s.curMapZone u k q).main
      (pageOf ar s.nand.cell s.curMapZone s.tbls k q).main := by
  have hmaps := har.maps
  have hentry := hnew.isMapOf (hmoving.isMapOf fun _ _ => trivial) q hq
  rw [pageOf, hpst]
  dsimp only
  rw [hlog, hdata]
  rcases h.source har hq with ⟨hnone, hpage⟩ | ⟨hsome, -, hpage⟩
  · rw [hmoving.kept q hq (.inr hnone), hnone] at hentry
    rw [hpage]
    cases hq' : logPageOf ar c' s.curMapZone nb q with
    | none =>
        dsimp only
        rw [hdataSame.pageAt hq]
        exact .refl _
    | some d =>
        rw [hq'] at hentry
        have hd := (latest_eq_some.mp hq').1
        have hval : (0xffff : Nat) = d := hentry
        omega
  · obtain ⟨hd, -, hmain⟩ := hmoving.moved q hq trivial hsome
    rw [hpage]
    cases hq' : logPageOf ar c' s.curMapZone nb q with
    | none =>
        rw [hq'] at hentry
        have hval : m q = 0xffff := hentry
        omega
    | some d =>
        rw [hq'] at hentry
        have hval : m q = d := hentry
        dsimp only
        rw [← hval, hnew.pageAt hd]
        exact hmain

theorem moveMerge_tbls (har : ar.Fits) (h : MergeReady L k i s) {p l : Nat}
    (hp : p < ar.freeBlkCntOfZone) (hblk : (s.tbls.freeBlkTbl p).phyBlkNum ≠ 0xffff)
    (hl : l < ar.pageCntOfLogicBlk) (hlast : (s.tbls.logBlkTbl i).lastUsedPage ≠ 0xffff)
    {c₂ c' : Cells} {m : Nat → Nat} {t' : BlkTbls} (ht : t' = moveTbls ar s.tbls p i l)
    (hmoving : PagesMoving ar s.nand.cell s.curMapZone (s.tbls.logBlkTbl i).phyBlk.phyBlkNum
      (s.tbls.freeBlkTbl p).phyBlkNum s.pageMapTbl (fun _ => True) (fun d => l < d) c₂ m)
    (hlog : ∀ a ∈ superBlk ar s.curMapZone (s.tbls.logBlkTbl i).phyBlk.phyBlkNum, c' a = none)
    (hrest : ∀ a, a ∉ superBlk ar s.curMapZone (s.tbls.logBlkTbl i).phyBlk.phyBlkNum →
      c' a = c₂ a) :
    Rearranged L s.curMapZone k i {(s.tbls.freeBlkTbl p).phyBlkNum,
        (s.tbls.logBlkTbl i).phyBlk.phyBlkNum} s.nand.cell c' s.tbls t' ∧
    ZoneOK L c' s.curMapZone t' ∧
    (∀ q < ar.pageCntOfLogicBlk, SameSectors ar (pageOf ar c' s.curMapZone t' k q).main
      (pageOf ar s.nand.cell s.curMapZone s.tbls k q).main) ∧
    IsMapOf ar c' s.curMapZone (s.tbls.freeBlkTbl p).phyBlkNum m ∧
    DataInfo ar c' s.curMapZone t' k := by
  subst ht
  have hok := h.ok
  have hdataTbl := moveTbls_dataBlkTbl ar s.tbls p i l
  have hlogTbl := moveTbls_logBlkTbl ar s.tbls p i l
  have hlogNew : (moveTbls ar s.tbls p i l).logBlkTbl i =
      { s.tbls.logBlkTbl i with lastUsedPage := l, phyBlk := s.tbls.freeBlkTbl p } := by
    rw [hlogTbl, Function.update_self]
  have hfreeMem := BlkTbls.mem_freeNums hp hblk
  have hre : Rearranged L s.curMapZone k i {(s.tbls.freeBlkTbl p).phyBlkNum,
      (s.tbls.logBlkTbl i).phyBlk.phyBlkNum} s.nand.cell c' s.tbls (moveTbls ar s.tbls p i l) := by
    refine h.rearranged (fun a ha => ?_) ?_ (fun k' _ => congrFun hdataTbl k') (fun j hne => ?_)
      (.inl ?_)
    · rw [hrest a (ha _ (by simp))]
      exact hmoving.touched a fun b hb => ha b (by simp [Set.mem_singleton_iff.mp hb])
    · rintro b (rfl | hb)
      · exact .inl hfreeMem
      · exact .inr (.inr hb)
    · rw [hlogTbl, Function.update_of_ne hne]
    · rw [hlogNew]
      exact h.log
  -- the new log block is as the loop has left it
  have hnew : SameBlock ar s.curMapZone (s.tbls.freeBlkTbl p).phyBlkNum c₂ c' := fun q _ =>
    hrest _ (L.listed_apart har h.zone (hok.free_mem hfreeMem) h.log_mem
      (hok.log_ne_free h.pst_lt h.logUsed hfreeMem).symm q)
  have hdataSame : SameBlock ar s.curMapZone (s.tbls.dataBlkTbl k).phyBlkNum s.nand.cell c' := by
    refine hre.sameBlock har h.zone h.data_mem ?_
    rintro (heq | heq)
    · exact hok.data_ne_free h.blk_lt hfreeMem heq
    · exact hok.data_ne_log h.blk_lt h.pst_lt h.logUsed heq
  have hdataSame₂ : SameBlock ar s.curMapZone (s.tbls.dataBlkTbl k).phyBlkNum s.nand.cell c₂ :=
    fun q _ => hmoving.touched.other har (fun d hd => hd ▸ h.isSuperBlk (hok.free_mem hfreeMem))
      (h.isSuperBlk h.data_mem) (hok.data_ne_free h.blk_lt hfreeMem) q
  have hmap := hnew.isMapOf (hmoving.isMapOf fun _ _ => trivial)
  refine ⟨hre, ?_, fun q hq => ?_, hmap, ?_⟩
  · refine hre.zoneOK har h.zone hok h.pst_lt (moveTbls_blocks har h hp hblk l)
      (BlkTbls.CountsFit.setFreeBlk (t := s.tbls.setFree p .none)
        (h.ok.counts.setFree (show (0xffff : Nat) ≤ 0xffff by decide))
        (SuperPhyBlk.erased_count h.logOK.count)) (fun b hb q hq => ?_) ?_ ?_ fun _ => ?_
    · rw [moveTbls_freeNums har h hp hblk] at hb
      rcases Multiset.mem_cons.mp hb with rfl | hb
      · exact hlog _ (pageAddr_mem ar _ _ q)
      obtain ⟨hmem, hne⟩ := BlkTbls.mem_freeNums_take (Multiset.nodup_add.mp hok.nodup).2.1 hp hblk hb
      rw [hre.sameBlock har h.zone (hok.free_mem hmem) ?_ q hq]
      · exact hok.free b hmem q hq
      · rintro (heq | heq)
        · exact hne heq
        · exact hok.log_ne_free h.pst_lt h.logUsed hmem heq.symm
    · rw [hdataTbl]
      exact hok.dataCounts k h.blk_lt
    · rw [hdataTbl, hdataSame 0 har.pageCnt_pos, hdataSame.pageAt har.pageCnt_pos]
      exact hok.data k h.blk_lt
    · rw [hlogNew]
      refine (movedLog_ok har h hp hl hlast hmoving (u := moveTbls ar s.tbls p i l) ?_).congr
        har.pageCnt_pos hnew ?_
      · rw [hdataTbl, hdataSame₂.pageAt har.pageCnt_pos]
        exact h.dataInfo
      · show (pageAt ar c' _ ((moveTbls ar s.tbls p i l).dataBlkTbl
          (s.tbls.logBlkTbl i).logicBlkNum).phyBlkNum 0).spare.logicInfo ≠ 0xffff
        rw [hdataTbl, h.log, hdataSame.pageAt har.pageCnt_pos]
        exact h.dataInfo
  · have hpst : (moveTbls ar s.tbls p i l).logBlkPst k = some i := by
      refine BlkTbls.logBlkPst_of_only h.pst_lt ?_ fun j hj heq => ?_
      · rw [hlogNew]
        exact h.log
      · by_contra hji
        rw [hlogTbl, Function.update_of_ne hji] at heq
        exact hji (h.only hj heq)
    refine movedPage_same har h hmoving hnew hdataSame hpst ?_ (congrFun hdataTbl k) hq
    rw [hlogNew]
  · rw [DataInfo, hdataTbl, hdataSame.pageAt har.pageCnt_pos]
    exact h.dataInfo

/-! ## The move merge, and all three -/

/-- The log block is another one, in which the active page map is right; behind its pages there is room
for a page in each bank. -/
structure LogKept (ar : LogicArchi) (i : Nat) (s s' : Ftl) : Prop where
  num : (s'.tbls.logBlkTbl i).logicBlkNum = (s.tbls.logBlkTbl i).logicBlkNum
  room : (s'.tbls.logBlkTbl i).lastUsedPage + ar.interleaveBankCnt < ar.pageCntOfLogicBlk
  slot : s'.pageMapCache = { s.pageMapCache with pageMapTbl := s'.pageMapTbl }
  map : IsMapOf ar s'.nand.cell s.curMapZone (s'.tbls.logBlkTbl i).phyBlk.phyBlkNum s'.pageMapTbl

theorem MergeReady.logReady (har : ar.Fits) (h : MergeReady L k i s) : LogReady ar k i s where
  clear := h.clear
  free := h.ok.hasFree
  data := by
    rw [h.dataBlk_eq]
    exact ⟨L.listed_ne_none har h.data_mem, h.ok.dataCounts k h.blk_lt⟩
  pst_lt := h.pst_lt
  log := h.log
  only _ hj heq := h.only hj heq

/-- The pages are in the new block when the loop of a move merge is through. -/
theorem moveLoop_moves (har : ar.Fits) (hcopy : ar.CopiesExactly) (henv : env.NoFailure)
    (hr : MergeReady L k i s) (hlast : (s.tbls.logBlkTbl i).lastUsedPage ≠ 0xffff)
    (hnb : ar.IsSuperBlk s.curMapZone nb.phyBlkNum)
    (hne : nb.phyBlkNum ≠ (s.tbls.logBlkTbl i).phyBlk.phyBlkNum)
    (h : OnMove ar i s s₁ nb (fun _ => False) (fun _ => True) s₁) :
    WP anyRun (if ar.supportAlignNandBnk then
        iterate (movePass ar env (s.tbls.logBlkTbl i).phyBlk) (mergeFuel ar) nb
      else
        iterate (moveRound ar env (s.tbls.logBlkTbl i).phyBlk) (mergeFuel ar) ⟨0, 0, 0, nb⟩)
      (fun r s' => r.1 = nb ∧ r.2 < ar.pageCntOfLogicBlk ∧
        OnMove ar i s s₁ nb (fun _ => True) (fun d => r.2 < d) s') F s₁ := by
  refine WP.ite (fun hal => ?_) fun hal => moveRounds_move har henv hr hal hlast hnb hne h
  refine iterate_once (ar.pageCntOfLogicBlk + ar.freeBlkCntOfZone + 1) ?_
  refine WP.bind ((moveBanks_moves har hcopy henv hr hal hlast hnb hne _ 0 0 s₁ (Nat.zero_add _)
    har.pageCnt_pos (h.congr (fun p _ _ => ?_) (fun _ _ _ => trivial) fun _ => ?_)).imp ?_)
  · refine iff_of_false ?_ fun hf => hf
    rintro (hlt | ⟨-, hlt⟩) <;> exact Nat.not_lt_zero _ hlt
  · exact .inr (.inl ⟨Nat.zero_mod _, Nat.le_refl 0⟩)
  · rintro _ s' ⟨l, rfl, hl, h'⟩
    exact WP.pure ⟨_, rfl, rfl, hl, h'⟩

theorem moveMerge_keeps (har : ar.Fits) (hcopy : ar.CopiesExactly) (henv : env.NoFailure)
    (h : MergeReady L k i s) (hlast : (s.tbls.logBlkTbl i).lastUsedPage ≠ 0xffff)
    (hfew : validPages s.pageMapTbl ar.pageCntOfLogicBlk <
      ar.pageCntOfLogicBlk / (ar.interleaveBankCnt + 1)) :
    WP anyRun (free2logMoveMerge ar env k) (fun _ s' => MergedTbls L i s s' ∧ LogKept ar i s s') F s := by
  have hmaps := har.maps
  have hroom := free2logMoveMerge_moves (F := F) henv har.pos (by omega) (h.logReady har) hfew
  have hkeeps : WP anyRun (free2logMoveMerge ar env k) (fun _ s' => MergedTbls L i s s' ∧
      (s'.tbls.logBlkTbl i).logicBlkNum = (s.tbls.logBlkTbl i).logicBlkNum ∧
      s'.pageMapCache = { s.pageMapCache with pageMapTbl := s'.pageMapTbl } ∧
      IsMapOf ar s'.nand.cell s.curMapZone (s'.tbls.logBlkTbl i).phyBlk.phyBlkNum s'.pageMapTbl)
      F s := by
    refine WP.bind (WP.get (WP.bind ((bmmGetFreeBlk_gives h.ok).imp ?_)))
    rintro _ _ ⟨p, hp, hblk, rfl, rfl⟩
    rw [h.logBlk_eq]
    have hfreeMem := BlkTbls.mem_freeNums hp hblk
    have hnb : ar.IsSuperBlk s.curMapZone (s.tbls.freeBlkTbl p).phyBlkNum :=
      h.isSuperBlk (h.ok.free_mem hfreeMem)
    have hne := (h.ok.log_ne_free h.pst_lt h.logUsed hfreeMem).symm
    have hstart : OnMove ar i s (takenFrom s p) (s.tbls.freeBlkTbl p) (fun _ => False)
        (fun _ => True) (takenFrom s p) :=
      ⟨by rw [Ftl.withMap_self]; exact .refl h.clear, s.withTbls_curMapZone p _,
        .start har (h.ok.free _ hfreeMem)⟩
    refine WP.bind (WP.orElse ((moveLoop_moves (F := fun _ _ => False) har hcopy henv h hlast hnb hne
      hstart).mono ?_ fun _ _ he => he.elim))
    rintro ⟨_, l⟩ s₂ ⟨rfl, hl, hmove⟩
    dsimp only at hl hmove ⊢
    refine WP.bind ((freeOldBlk_clears henv har.pos hmove.flashed.clear _).imp ?_)
    rintro _ s₃ ⟨h₃, hblank₃, hother₃⟩
    refine WP.modify ?_
    rw [hmove.curMapZone] at hblank₃ hother₃
    have hall := ((hmove.flashed.setTbls _).trans h₃).setTbls (·.setLogBlk k
      { s.tbls.logBlkTbl i with lastUsedPage := l, phyBlk := s.tbls.freeBlkTbl p })
    rw [Ftl.withMap_setTbls, Ftl.withMap_setTbls, Ftl.takenFrom_eq, Ftl.withTbls_setTbls,
      Ftl.withTbls_setTbls, BlkTbls.setLogBlk_eq (i := i)] at hall
    swap
    · rw [BlkTbls.logBlkPst, BlkTbls.setFreeBlk_logBlkTbl]
      exact h.logBlkPst_eq
    have htbls := hall.tbls.trans (Ftl.withTbls_tbls ..)
    have hslot := hall.pageMapCache.trans (Ftl.setPageMapCache_pageMapCache ..)
    obtain ⟨hre, hok, hpages, hmap, hinfo⟩ := moveMerge_tbls har h hp hblk hl hlast htbls hmove.moving
      hblank₃ hother₃
    have hmapTbl := congrArg PageMapTblCache.pageMapTbl hslot
    have hlog : (s₃.setTbls (·.setLogBlk k
        { s.tbls.logBlkTbl i with lastUsedPage := l, phyBlk := s.tbls.freeBlkTbl p })).tbls.logBlkTbl
          i = { s.tbls.logBlkTbl i with lastUsedPage := l, phyBlk := s.tbls.freeBlkTbl p } := by
      rw [htbls]
      exact (congrFun (moveTbls_logBlkTbl ar s.tbls p i l) i).trans (Function.update_self ..)
    refine ⟨hre.merged har h ⟨p, _, _, hall⟩ hok hpages hinfo, ?_, ?_, ?_⟩
    · rw [hlog]
    · rw [Ftl.pageMapTbl, hmapTbl]
      exact hslot
    · rw [hlog, Ftl.pageMapTbl, hmapTbl]
      exact hmap
  refine (WP.both hroom hkeeps).imp ?_
  rintro _ s' ⟨hmoved, hmerged, hnum, hslot, hmap⟩
  obtain ⟨l, newLog, hl, hlog⟩ := hmoved.log
  refine ⟨hmerged, hnum, ?_, hslot, hmap⟩
  rw [hlog, Function.update_self]
  exact hl

/-- Every merge keeps the pages. -/
theorem merge_keeps (har : ar.Fits) (hcopy : ar.CopiesExactly) (henv : env.NoFailure)
    (h : MergeReady L k i s) (nMode : MergeMode)
    (hmode : nMode = .special → (s.tbls.logBlkTbl i).lastUsedPage ≠ 0xffff) :
    WP anyRun (lmlMergeLogBlk ar env nMode k) (fun _ s' => MergedTbls L i s s' ∧
      (LogGone i s' ∨ nMode = .special ∧ LogKept ar i s s')) F s := by
  refine WP.bind (WP.get ?_)
  dsimp only
  rw [h.logBlk_eq]
  refine WP.ite (fun horder => ?_) fun _ => WP.ite (fun hmove => ?_) fun _ => ?_
  · exact (swapMerge_keeps har hcopy henv h horder).imp fun _ _ hs => hs.imp_right .inl
  · exact (moveMerge_keeps har hcopy henv h (hmode hmove.1) hmove.2).imp fun _ _ hs =>
      hs.imp_right fun hkept => .inr ⟨hmove.1, hkept⟩
  · exact (simpleMerge_keeps har hcopy henv h).imp fun _ _ hs => hs.imp_right .inl

end Moves

end Novo7
