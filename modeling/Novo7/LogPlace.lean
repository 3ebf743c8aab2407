import Novo7.CopybackBank
import Novo7.MapSwitch

/-!
# A place for a page

`PMM_GetLogPage` for a write finds a page of a log block for a logical page: the log block may have to be
created first, for which another one may be merged, and when it is full it is merged itself.
`pmmGetLogPageWrite_places`: where no operation on the flash fails, a blank page is found for every
logical page, behind the used pages of its log block; no page of the disk changes on the way.
-/

namespace Novo7

open HeldSlots Traced

/-! ## The ages of the log blocks -/

/-- There is a position that is younger than the oldest age that there can be; one more access cannot
make it the oldest, for there is another one, unless the timer starts anew. -/
structure AgesOK (s : Ftl) : Prop where
  timer : s.logAccessTimer ≤ 0xffff
  young : ∃ j < logBlkCntOfZone, s.logAccessAge j < 0xffff
  other : s.logAccessTimer < 0xffff → ∀ i < logBlkCntOfZone, ∃ j < logBlkCntOfZone, j ≠ i ∧
    s.logAccessAge j < 0xffff

theorem AgesOK.of_outside {s s' : Ftl} (h : AgesOK s) (hout : s'.outside = s.outside) : AgesOK s' := by
  obtain ⟨-, -, -, -, hage, htimer⟩ := by simpa [Ftl.outside] using hout
  exact ⟨htimer ▸ h.timer, by rw [hage]; exact h.young, by rw [hage, htimer]; exact h.other⟩

section Ages

variable {ar : LogicArchi} {F : Int → Ftl → Prop} {i : Nat} {s : Ftl}

/-- Ages that are all small. -/
theorem AgesOK.of_small (htimer : s.logAccessTimer ≤ 0xffff) {i j : Nat} (hi : i < logBlkCntOfZone)
    (hj : j < logBlkCntOfZone) (hne : i ≠ j) (hage : s.logAccessAge i < 0xffff)
    (hage' : s.logAccessAge j < 0xffff) : AgesOK s := by
  refine ⟨htimer, ⟨i, hi, hage⟩, fun _ k _ => ?_⟩
  by_cases hik : i = k
  · exact ⟨j, hj, fun hjk => hne (hik.trans hjk.symm), hage'⟩
  · exact ⟨i, hi, hik, hage⟩

theorem calLogAccessCnt_ages (h : AgesOK s) {i : Nat} (hi : i < logBlkCntOfZone) :
    WP anyRun (calLogAccessCnt i) (fun _ s' => AgesOK s' ∧ ∃ timer age,
      s' = { s with logAccessTimer := timer, logAccessAge := age }) F s := by
  refine WP.modify ⟨?_, _, _, rfl⟩
  have htimer := h.timer
  by_cases hfull : s.logAccessTimer = 0xffff
  · simp only [hfull, if_true, Nat.zero_add]
    have hsmall {j : Nat} (hj : j < logBlkCntOfZone) : Function.update
        (fun i => if i < logBlkCntOfZone then 0 else s.logAccessAge i) i 1 j < 0xffff := by
      by_cases hji : j = i
      · rw [hji, Function.update_self]
        decide
      · rw [Function.update_of_ne hji, if_pos hj]
        decide
    exact .of_small (show (1 : Nat) ≤ 0xffff by decide) (i := 0) (j := 1) (by decide) (by decide) nofun
      (hsmall (by decide)) (hsmall (by decide))
  · simp only [hfull, if_false]
    obtain ⟨j, hj, hji, hage⟩ := h.other (by omega) i hi
    have hage' : Function.update s.logAccessAge i (s.logAccessTimer + 1) j < 0xffff := by
      rwa [Function.update_of_ne hji]
    refine ⟨by dsimp only; omega, ⟨j, hj, hage'⟩, fun hlt k hk => ?_⟩
    -- the position that is accessed is young itself, unless the timer has come to its end
    by_cases hjk : j = k
    · refine ⟨i, hi, fun hik => hji (hjk.trans hik.symm), ?_⟩
      dsimp only at hlt ⊢
      rw [Function.update_self]
      exact hlt
    · exact ⟨j, hj, hjk, hage'⟩

theorem oldestLogPst_spec (age : Nat → Nat) (n : Nat) :
    (∃ i < n, (oldestLogPst age n).1 = some i ∧ (oldestLogPst age n).2 = age i) ∨
    (oldestLogPst age n).1 = none ∧ (oldestLogPst age n).2 = 0xffff ∧ ∀ j < n, 0xffff ≤ age j := by
  induction n with
  | zero => exact .inr ⟨rfl, rfl, fun j hj => absurd hj (Nat.not_lt_zero j)⟩
  | succ n ih =>
      rw [oldestLogPst]
      dsimp only
      split
      · exact .inl ⟨n, Nat.lt_succ_self n, rfl, rfl⟩
      · rename_i hold
        rcases ih with ⟨i, hi, hpst, hage⟩ | ⟨hpst, hage, hall⟩
        · exact .inl ⟨i, Nat.lt_succ_of_lt hi, hpst, hage⟩
        · refine .inr ⟨hpst, hage, fun j hj => ?_⟩
          rcases Nat.lt_succ_iff_lt_or_eq.mp hj with hlt | rfl
          · exact hall j hlt
          · omega

/-- There is always a log block that can be merged. -/
theorem AgesOK.victim (h : AgesOK s) (ar : LogicArchi) :
    ∃ i < logBlkCntOfZone, victimLogPst ar s = some i := by
  unfold victimLogPst
  cases hfull : (List.range logBlkCntOfZone).find? fun i =>
      (s.tbls.logBlkTbl i).lastUsedPage = ar.pageCntOfLogicBlk - 1 with
  | some i => exact ⟨i, List.mem_range.mp (List.mem_of_find?_eq_some hfull), rfl⟩
  | none =>
      rcases oldestLogPst_spec s.logAccessAge logBlkCntOfZone with ⟨i, hi, hpst, -⟩ | ⟨-, -, hall⟩
      · exact ⟨i, hi, hpst⟩
      · obtain ⟨j, hj, hage⟩ := h.young
        exact absurd (hall j hj) (Nat.not_le.mpr hage)

end Ages

/-! ## A data block gets its logical information -/

section DataPut

variable {ar : LogicArchi} {L : ZoneLayout ar} {c : Cells} {z k i p : Nat} {t : BlkTbls} {pg : Page}

theorem sameBlock_put (har : ar.Fits) (hz : ar.IsZone z) {b b' : Nat} (hb : b ∈ L.blks z)
    (hb' : b' ∈ L.blks z) (hne : b' ≠ b) (q : Nat) :
    SameBlock ar z b' c (Function.update c (lmlCalculatePhyOpPar ar z b q) (some pg)) := fun d _ => by
  refine Function.update_of_ne (fun heq => L.listed_apart har hz hb' hb hne d ?_) ..
  exact heq ▸ pageAddr_mem ar z b q

theorem dataInfo_put (har : ar.Fits) (hz : ar.IsZone z) (hok : ZoneOK L c z t)
    (hk : k < ar.dataBlkCntOfZone) (hnone : ∀ j < logBlkCntOfZone, (t.logBlkTbl j).logicBlkNum ≠ k)
    (hblank : c (lmlCalculatePhyOpPar ar z (t.dataBlkTbl k).phyBlkNum 0) = none)
    (hinfo : pg.spare.logicInfo ≠ 0xffff) :
    ZoneOK L (Function.update c (lmlCalculatePhyOpPar ar z (t.dataBlkTbl k).phyBlkNum 0) (some pg)) z t ∧
    PagesKept ar z c t
      (Function.update c (lmlCalculatePhyOpPar ar z (t.dataBlkTbl k).phyBlkNum 0) (some pg)) t ∧
    DataInfo ar (Function.update c (lmlCalculatePhyOpPar ar z (t.dataBlkTbl k).phyBlkNum 0) (some pg)) z
      t k := by
  have hmem := hok.data_mem hk
  have hsame {b : Nat} (hb : b ∈ L.blks z) (hne : b ≠ (t.dataBlkTbl k).phyBlkNum) :=
    @sameBlock_put ar L c z pg har hz _ b hmem hb hne 0
  have hdata {k' : Nat} (hk' : k' < ar.dataBlkCntOfZone) (hne : k' ≠ k) :=
    hsame (hok.data_mem hk') fun heq => hne (hok.data_inj hk' hk heq)
  have hlog {j : Nat} (hj : j < logBlkCntOfZone) (hused : (t.logBlkTbl j).logicBlkNum ≠ 0xffff) :=
    hsame (hok.log_mem hj hused) fun heq => hok.data_ne_log hk hj hused heq.symm
  have hnew : DataInfo ar (Function.update c
      (lmlCalculatePhyOpPar ar z (t.dataBlkTbl k).phyBlkNum 0) (some pg)) z t k := by
    rw [DataInfo, pageAt, Function.update_self]
    exact hinfo
  refine ⟨⟨hok.blocks, hok.counts, hok.dataCounts, fun b hb q hq => ?_, fun k' hk' => ?_,
    fun j hj hused => ?_, hok.single⟩, fun k' hk' hinfo' => ?_, hnew⟩
  · rw [hsame (hok.free_mem hb) (hok.data_ne_free hk hb).symm q hq]
    exact hok.free b hb q hq
  · by_cases hne : k' = k
    · rw [hne]
      exact .inr hnew
    · rw [hdata hk' hne 0 har.pageCnt_pos, (hdata hk' hne).pageAt har.pageCnt_pos]
      exact hok.data k' hk'
  · have hok' := hok.logs j hj hused
    refine hok'.congr har.pageCnt_pos (hlog hj hused) ?_
    rw [(hdata hok'.num (hnone j hj)).pageAt har.pageCnt_pos]
    exact hok'.dataInfo
  · have hne : k' ≠ k := by
      rintro rfl
      rw [DataInfo, pageAt, hblank] at hinfo'
      exact hinfo' rfl
    refine ⟨?_, fun p hp => ?_⟩
    · rw [DataInfo, (hdata hk' hne).pageAt har.pageCnt_pos]
      exact hinfo'
    · unfold pageOf
      cases hpst : t.logBlkPst k' with
      | none =>
          dsimp only
          rw [(hdata hk' hne).pageAt hp]
          exact .refl _
      | some j =>
          obtain ⟨hj, hnum⟩ := BlkTbls.logBlkPst_spec hpst
          have hblks := har.dataBlks
          have hused : (t.logBlkTbl j).logicBlkNum ≠ 0xffff := by omega
          dsimp only
          rw [(hlog hj hused).logPageOf]
          cases hq : logPageOf ar c z (t.logBlkTbl j).phyBlk.phyBlkNum p with
          | none =>
              dsimp only
              rw [(hdata hk' hne).pageAt hp]
              exact .refl _
          | some q =>
              dsimp only
              rw [(hlog hj hused).pageAt (latest_eq_some.mp hq).1]
              exact .refl _

end DataPut

/-! ## A new log block -/

/-- The tables with a new log block for `k` at position `i`, the free block from `p`. -/
def newLogTbls (t : BlkTbls) (p k i : Nat) : BlkTbls :=
  (t.setFree p .none).setLog i ⟨k, 0xffff, t.freeBlkTbl p⟩

section NewLog

variable {ar : LogicArchi} {L : ZoneLayout ar} {c : Cells} {z k i p : Nat} {t : BlkTbls}

theorem newLogTbls_self (t : BlkTbls) (p k i : Nat) :
    (newLogTbls t p k i).logBlkTbl i = ⟨k, 0xffff, t.freeBlkTbl p⟩ := Function.update_self ..

theorem newLogTbls_ne (t : BlkTbls) {p k i j : Nat} (hne : j ≠ i) :
    (newLogTbls t p k i).logBlkTbl j = t.logBlkTbl j := Function.update_of_ne hne ..

variable (har : ar.Fits) (hok : ZoneOK L c z t) (hi : i < logBlkCntOfZone)
  (hempty : (t.logBlkTbl i).logicBlkNum = 0xffff) (hk : k < ar.dataBlkCntOfZone)
  (hnone : ∀ j < logBlkCntOfZone, (t.logBlkTbl j).logicBlkNum ≠ k) (hp : p < ar.freeBlkCntOfZone)
  (hblk : (t.freeBlkTbl p).phyBlkNum ≠ 0xffff) (hinfo : DataInfo ar c z t k)
include har hok hi hempty hk hnone hp hblk hinfo

theorem newLogTbls_ok : ZoneOK L c z (newLogTbls t p k i) := by
  have hmem := BlkTbls.mem_freeNums hp hblk
  have hblks := har.dataBlks
  refine ⟨?_, hok.counts.setFree (show (0xffff : Nat) ≤ 0xffff by decide), hok.dataCounts,
    fun b hb => ?_, hok.data, fun j hj hused => ?_, fun j hj j' hj' heq hused => ?_⟩
  · have hlog := @BlkTbls.blocks_setLog (t.setFree p .none) ar i hi ⟨k, 0xffff, t.freeBlkTbl p⟩
    rw [if_neg (show ¬k = 0xffff by omega), one_some, BlkTbls.blocks_take hp hblk,
      show (t.setFree p .none).logNum i = none from if_pos hempty, one_none, add_zero] at hlog
    exact hlog.trans hok.blocks
  · exact hok.free b (BlkTbls.mem_freeNums_take (Multiset.nodup_add.mp hok.nodup).2.1 hp hblk hb).1
  · by_cases hji : j = i
    · subst hji
      rw [newLogTbls_self]
      have hblank := hok.free _ hmem
      exact ⟨hk, hok.counts p hp, fun h => absurd rfl h, fun q hq _ => hblank q hq,
        fun h => absurd rfl h, hinfo, fun _ q hq hnum => absurd hnum (numAt_blank har (hblank q hq)),
        fun h => absurd rfl h, fun h => absurd rfl h⟩
    · rw [newLogTbls_ne t hji] at hused ⊢
      exact (hok.logs j hj hused).congr har.pageCnt_pos (fun _ _ => rfl) (hok.logs j hj hused).dataInfo
  · by_cases hji : j = i <;> by_cases hji' : j' = i
    · rw [hji, hji']
    · rw [hji, newLogTbls_self, newLogTbls_ne t hji'] at heq
      exact absurd heq.symm (hnone j' hj')
    · rw [hji', newLogTbls_self, newLogTbls_ne t hji] at heq
      exact absurd heq (hnone j hj)
    · rw [newLogTbls_ne t hji] at heq hused
      rw [newLogTbls_ne t hji'] at heq
      exact hok.single j hj j' hj' heq hused

theorem newLogTbls_kept : PagesKept ar z c t c (newLogTbls t p k i) := by
  have hok' := newLogTbls_ok har hok hi hempty hk hnone hp hblk hinfo
  have hmem := BlkTbls.mem_freeNums hp hblk
  have hblks := har.dataBlks
  refine fun k' hk' hinfo' => ⟨hinfo', fun q hq => ?_⟩
  by_cases hkk : k' = k
  · subst hkk
    have hnew := hok'.pageOf_log hi (by rw [newLogTbls_self]; show k' ≠ 0xffff; omega) q
    have hblank : logPageOf ar c z (t.freeBlkTbl p).phyBlkNum q = none :=
      latest_eq_none.mpr fun d hd hnum =>
        numAt_blank har (hok.free _ hmem d hd) (hnum.symm ▸ hq)
    rw [newLogTbls_self] at hnew
    dsimp only at hnew
    rw [hblank] at hnew
    rw [hnew, pageOf, BlkTbls.logBlkPst_eq_none hnone]
    exact .refl _
  · have hpst : (newLogTbls t p k i).logBlkPst k' = t.logBlkPst k' := by
      unfold BlkTbls.logBlkPst
      rw [← List.head?_filter, ← List.head?_filter]
      refine congrArg List.head? (List.filter_congr fun j _ => ?_)
      by_cases hji : j = i
      · rw [hji, newLogTbls_self, decide_eq_false (show ¬k = k' from Ne.symm hkk), hempty,
          decide_eq_false (show ¬0xffff = k' by omega)]
      · rw [newLogTbls_ne t hji]
    unfold pageOf
    rw [hpst]
    cases hlog : t.logBlkPst k' with
    | none => exact .refl _
    | some j =>
        have hji : j ≠ i := by
          rintro rfl
          have := (BlkTbls.logBlkPst_spec hlog).2
          omega
        dsimp only
        rw [newLogTbls_ne t hji]
        exact .refl _

end NewLog

/-! ## Creating a log block -/

section Create

variable {ar : LogicArchi} {env : NandEnv} {L : ZoneLayout ar} {F : Int → Ftl → Prop} {k i : Nat}
  {s : Ftl}

theorem logicInfo_ne (har : ar.Fits) (z : Nat) (hk : k < ar.dataBlkCntOfZone) :
    logicInfo ar z k ≠ 0xffff := by
  have hmod := Nat.mod_lt z har.zonesOfDie
  have hinfos := har.infos
  have hblks := har.dataBlks
  have hshift : (z % ar.zoneCntOfDie) <<< 10 < 2 ^ 14 := by
    rw [Nat.shiftLeft_eq]
    omega
  have hlt := Nat.or_lt_two_pow hshift (show k < 2 ^ 14 by omega)
  unfold logicInfo
  omega

/-- A position for a log block is made empty. -/
structure LogFreed (L : ZoneLayout ar) (i : Nat) (s s' : Ftl) : Prop where
  coherent : Coherent L s'
  stays : DiskStays ar s s'
  pst_lt : i < logBlkCntOfZone
  empty : (s'.tbls.logBlkTbl i).logicBlkNum = 0xffff
  nums : ∀ j < logBlkCntOfZone, NumOrNone s s' j

theorem emptyLogPst_frees (har : ar.Fits) (hcopy : ar.CopiesExactly) (henv : env.NoFailure)
    (hc : Coherent L s) (hact : s.curMapZone ≠ 0xff) (hd : s.blkMapCache.dirtyFlag = true)
    (hages : AgesOK s) :
    WP anyRun (emptyLogPst ar env) (fun i s' => LogFreed L i s s') F s := by
  refine WP.bind (WP.get ?_)
  cases hpst : s.tbls.logBlkPst 0xffff with
  | some i =>
      obtain ⟨hi, hnum⟩ := BlkTbls.logBlkPst_spec hpst
      exact WP.pure ⟨hc, .refl ar s, hi, hnum, fun _ _ => .inl rfl⟩
  | none =>
      obtain ⟨i, hi, hvictim⟩ := hages.victim ar
      rw [hvictim]
      have hused : (s.tbls.logBlkTbl i).logicBlkNum ≠ 0xffff := fun heq =>
        List.find?_eq_none.mp hpst i (List.mem_range.mpr hi) (decide_eq_true heq)
      refine WP.bind ((pmmSwitchMapTbl_switches har hcopy henv hc hact hi hused).imp fun _ s₁ h₁ => ?_)
      refine WP.bind (WP.get (WP.bind ((merge_coherent har hcopy henv h₁.coherent
        (h₁.stays.curMapZone ▸ hact) (h₁.stays.marked hd) h₁.map .normal nofun).imp ?_)))
      rintro _ s₂ ⟨hc₂, hstays₂, hmerged, hend⟩
      have hgone := hend.resolve_right fun hkept => nomatch hkept.1
      refine WP.pure ⟨hc₂, h₁.stays.trans hstays₂, hi, congrArg LogBlk.logicBlkNum hgone.log,
        fun j hj => (h₁.nums j hj).trans ?_⟩
      by_cases hji : j = i
      · rw [hji]
        exact .inr (congrArg LogBlk.logicBlkNum hgone.log)
      · exact .inl (congrArg LogBlk.logicBlkNum (hmerged.logs j hj hji).1.log)

/-- The data block has the logical information, if it has to be written or not. -/
theorem checkDataBlkInfo_puts (har : ar.Fits) (henv : env.NoFailure) (hs : s.Clear)
    (hk : k < ar.dataBlkCntOfZone)
    (hdata : s.nand.cell (lmlCalculatePhyOpPar ar s.curMapZone (s.tbls.dataBlkTbl k).phyBlkNum 0) =
      none ∨ DataInfo ar s.nand.cell s.curMapZone s.tbls k) :
    WP anyRun (checkDataBlkInfo ar env k ()) (fun r s' => ∃ a, r = .inr a ∧ Flashed s s' ∧
      (DataInfo ar s.nand.cell s.curMapZone s.tbls k ∧ s'.nand.cell = s.nand.cell ∨
        s.nand.cell (lmlCalculatePhyOpPar ar s.curMapZone (s.tbls.dataBlkTbl k).phyBlkNum 0) = none ∧
        ∃ pg : Page, pg.spare.logicInfo ≠ 0xffff ∧ s'.nand.cell = Function.update s.nand.cell
          (lmlCalculatePhyOpPar ar s.curMapZone (s.tbls.dataBlkTbl k).phyBlkNum 0) (some pg))) F s := by
  refine WP.bind (WP.get (WP.bind ((readTemp_gives henv hs _ _ _ _).imp ?_)))
  rintro _ s₁ ⟨rfl, h₁, hcell₁, -⟩
  refine WP.ite (fun hinfo => WP.bind (WP.get (WP.bind ?_))) fun hinfo =>
    WP.pure ⟨(), rfl, h₁, .inl ⟨hinfo, hcell₁⟩⟩
  have hblank := hdata.resolve_right fun hok => hok hinfo
  refine (phyPageWrite_puts henv h₁.clear _ (by rw [hcell₁]; exact hblank)).imp ?_
  rintro _ s₂ ⟨rfl, h₂, hcell₂⟩
  refine WP.bind (WP.failIf (fun hneg => absurd hneg (by decide)) fun _ => WP.bind (WP.bind
    (WP.get (WP.pure ?_))))
  rw [h₂.clear]
  refine WP.ite (fun hneg => absurd hneg (by decide)) fun _ => WP.pure ⟨(), rfl, h₁.trans h₂,
    .inr ⟨hblank, ?_⟩⟩
  rw [← hcell₁]
  exact ⟨_, logicInfo_ne har _ hk, hcell₂⟩

theorem Ftl.setPageMapCache_id (s : Ftl) : s.setPageMapCache id = s := by
  simp [setPageMapCache, pageMapCache]

/-- There is a new log block for `k`, without pages. -/
structure LogCreated (L : ZoneLayout ar) (k i : Nat) (s s' : Ftl) : Prop where
  coherent : Coherent L s'
  stays : DiskStays ar s s'
  pst_lt : i < logBlkCntOfZone
  num : (s'.tbls.logBlkTbl i).logicBlkNum = k
  last : (s'.tbls.logBlkTbl i).lastUsedPage = 0xffff

theorem createNewLogBlk_creates (har : ar.Fits) (hcopy : ar.CopiesExactly) (henv : env.NoFailure)
    (hc : Coherent L s) (hact : s.curMapZone ≠ 0xff) (hd : s.blkMapCache.dirtyFlag = true)
    (hages : AgesOK s) (hk : k < ar.dataBlkCntOfZone)
    (hnone : ∀ j < logBlkCntOfZone, (s.tbls.logBlkTbl j).logicBlkNum ≠ k) :
    WP anyRun (createNewLogBlk ar env k) (fun i s' => LogCreated L k i s s') F s := by
  have hblks := har.dataBlks
  refine WP.bind ((emptyLogPst_frees har hcopy henv hc hact hd hages).imp fun i s₁ h₁ => ?_)
  have hact₁ : s₁.curMapZone ≠ 0xff := h₁.stays.curMapZone ▸ hact
  have hok₁ := h₁.coherent.activeTbls hact₁
  have hz := h₁.coherent.active hact₁
  have hnone₁ : ∀ j < logBlkCntOfZone, (s₁.tbls.logBlkTbl j).logicBlkNum ≠ k := fun j hj heq => by
    rcases h₁.nums j hj with hsame | hempty
    · exact hnone j hj (hsame ▸ heq)
    · omega
  refine WP.bind ((bmmGetFreeBlk_gives hok₁).imp ?_)
  rintro _ _ ⟨p, hp, hblk, rfl, rfl⟩
  refine WP.bind (WP.modify ?_)
  rw [Ftl.takenFrom_eq, Ftl.withTbls_setTbls]
  generalize hs₂ : s₁.withTbls p _ = s₂
  replace hs₂ : s₁.withTbls p (newLogTbls s₁.tbls p k i) = s₂ := hs₂
  have htbls₂ : s₂.tbls = newLogTbls s₁.tbls p k i := by
    rw [← hs₂]
    exact s₁.withTbls_tbls p _
  have hcur₂ : s₂.curMapZone = s₁.curMapZone := by
    rw [← hs₂]
    exact s₁.withTbls_curMapZone p _
  have hcell₂ : s₂.nand.cell = s₁.nand.cell := by
    rw [← hs₂]
    rfl
  have hround := checkDataBlkInfo_puts (F := F) har henv (s := s₂) (k := k) (by
    rw [← hs₂]; exact h₁.coherent.clear) hk (by
    rw [DataInfo, htbls₂, hcur₂, hcell₂]
    exact hok₁.data k hk)
  rw [DataInfo, htbls₂, hcur₂, hcell₂] at hround
  refine WP.bind ((iterate_once (ar.freeBlkCntOfZone + 1) hround).imp ?_)
  rintro _ s₃ ⟨h₃, hcell₃⟩
  -- the pages, with the tables from before
  have hput : ZoneOK L s₃.nand.cell s₁.curMapZone s₁.tbls ∧
      PagesKept ar s₁.curMapZone s₁.nand.cell s₁.tbls s₃.nand.cell s₁.tbls ∧
      DataInfo ar s₃.nand.cell s₁.curMapZone s₁.tbls k ∧
      Touched ar s₁.curMapZone {(s₁.tbls.dataBlkTbl k).phyBlkNum} s₁.nand.cell s₃.nand.cell := by
    rcases hcell₃ with ⟨hinfo, hsame⟩ | ⟨hblank, pg, hinfo, hput⟩
    · rw [hsame]
      exact ⟨hok₁, .refl ar s₁.curMapZone _ _, hinfo, .refl _⟩
    · rw [hput]
      obtain ⟨hok, hkept, hinfo'⟩ := dataInfo_put har hz hok₁ hk hnone₁ hblank hinfo
      exact ⟨hok, hkept, hinfo', Touched.update _ _ _⟩
  obtain ⟨hok₃, hkept₃, hinfo₃, htouched⟩ := hput
  have hlocal : Local s₁ s₃ := by
    refine ⟨p, newLogTbls s₁.tbls p k i, id, ?_⟩
    rw [Ftl.setPageMapCache_id, hs₂]
    exact h₃
  have htbls₃ : s₃.tbls = newLogTbls s₁.tbls p k i := h₃.tbls.trans htbls₂
  have hstep : ZoneStep L s₁ s₃ := by
    refine ⟨hlocal.within, h₁.stays.marked hd, ?_, htouched.mono ?_⟩
    · rw [htbls₃]
      exact newLogTbls_ok har hok₃ h₁.pst_lt h₁.empty hk hnone₁ hp hblk hinfo₃
    · rintro b rfl
      exact hok₁.data_mem hk
  have hkept : PagesKept ar s₁.curMapZone s₁.nand.cell s₁.tbls s₃.nand.cell s₃.tbls := by
    rw [htbls₃]
    exact hkept₃.trans (newLogTbls_kept har hok₃ h₁.pst_lt h₁.empty hk hnone₁ hp hblk hinfo₃)
  have hpages : s₃.pageCache = s₁.pageCache := by
    rw [h₃.pageCache, ← hs₂]
    rfl
  refine WP.pure ⟨hstep.coherent_of_maps har h₁.coherent hact₁ hpages fun j hj => ?_,
    h₁.stays.trans (hstep.stays har h₁.coherent hact₁ hkept), h₁.pst_lt, ?_, ?_⟩
  · have hmap := h₁.coherent.mapOK hact₁ hj
    have hne : (s₁.pageCache j).logBlkPst ≠ i := fun heq => hmap.used (heq ▸ h₁.empty)
    refine hmap.congr ?_ ?_
    · show s₃.tbls.logBlkTbl _ = _
      rw [htbls₃]
      exact newLogTbls_ne _ hne
    · intro q _
      refine htouched.other har (fun d hd => hd ▸ L.isSuperBlk_listed hz (hok₁.data_mem hk))
        (L.isSuperBlk_listed hz (hok₁.log_mem hmap.pst_lt hmap.used)) (fun heq => ?_) q
      exact hok₁.data_ne_log hk hmap.pst_lt hmap.used heq.symm
  · rw [htbls₃, newLogTbls_self]
  · rw [htbls₃, newLogTbls_self]

end Create

/-! ## A page of a log block -/

/-- The logical information is put into page 0, if the first page of the log block is another one. -/
def InfoPut (ar : LogicArchi) (z b q lastUsedPage : Nat) (c c' : Cells) : Prop :=
  if lastUsedPage = 0xffff ∧ q ≠ 0 then
    ∃ pg : Page, pg.spare.logicInfo ≠ 0xffff ∧ pg.spare.logicPageNum = 0xffff ∧
      c' = Function.update c (lmlCalculatePhyOpPar ar z b 0) (some pg)
  else c' = c

/-- Page `q` is entered as the last used one of a log block, and as the place of page `p`. -/
def Ftl.takeLogPage (s : Ftl) (i q p : Nat) : Ftl :=
  (s.setTbls fun t => t.setLog i { t.logBlkTbl i with lastUsedPage := q }).setPageMapCache fun c =>
    { c with pageMapTbl := Function.update c.pageMapTbl p q, dirtyFlag := true }

section Place

variable {ar : LogicArchi} {env : NandEnv} {L : ZoneLayout ar} {F : Int → Ftl → Prop} {k p : Nat}
  {s : Ftl}

theorem writeLogBlkInfo_puts (har : ar.Fits) (henv : env.NoFailure) (hs : s.Clear)
    (hk : k < ar.dataBlkCntOfZone) (i : Nat)
    (hblank : s.nand.cell (lmlCalculatePhyOpPar ar s.curMapZone
      (s.tbls.logBlkTbl i).phyBlk.phyBlkNum 0) = none) :
    WP anyRun (writeLogBlkInfo ar env k i ()) (fun r s' => ∃ a, r = .inr a ∧ Flashed s s' ∧
      ∃ pg : Page, pg.spare.logicInfo ≠ 0xffff ∧ pg.spare.logicPageNum = 0xffff ∧
        s'.nand.cell = Function.update s.nand.cell (lmlCalculatePhyOpPar ar s.curMapZone
          (s.tbls.logBlkTbl i).phyBlk.phyBlkNum 0) (some pg)) F s := by
  refine WP.bind (WP.get (WP.bind ((readTemp_gives henv hs _ _ _ _).imp ?_)))
  rintro _ s₁ ⟨rfl, h₁, hcell₁, -⟩
  refine WP.bind (WP.get (WP.bind ((phyPageWrite_puts henv h₁.clear _ (by
    rw [hcell₁]; exact hblank)).imp ?_)))
  rintro _ s₂ ⟨rfl, h₂, hcell₂⟩
  refine WP.bind (WP.failIf (fun hneg => absurd hneg (by decide)) fun _ => WP.bind (WP.bind
    (WP.get (WP.pure ?_))))
  rw [h₂.clear]
  refine WP.ite (fun hneg => absurd hneg (by decide)) fun _ => WP.pure ⟨(), rfl, h₁.trans h₂, ?_⟩
  rw [← hcell₁]
  exact ⟨_, logicInfo_ne har _ hk, rfl, hcell₂⟩

/-- Page `r.1` of the log block in position `r.2` is the one for page `p` of block `k`; its page map is
active. -/
structure LogPageGot (L : ZoneLayout ar) (k p : Nat) (r : Nat × Nat) (s s' : Ftl) : Prop where
  coherent : Coherent L s
  marked : s.blkMapCache.dirtyFlag = true
  map : s.HasMapOf r.2
  num : (s.tbls.logBlkTbl r.2).logicBlkNum = k
  page : r.1 = nextLogPage ar p (s.tbls.logBlkTbl r.2).lastUsedPage
  info : InfoPut ar s.curMapZone (s.tbls.logBlkTbl r.2).phyBlk.phyBlkNum r.1
    (s.tbls.logBlkTbl r.2).lastUsedPage s.nand.cell s'.nand.cell

/-- The log block of `k`, if there is one, has room for a line of pages. -/
def LogRoomy (ar : LogicArchi) (k : Nat) (s : Ftl) : Prop :=
  ∀ j, s.tbls.logBlkPst k = some j →
    (s.tbls.logBlkTbl j).lastUsedPage + ar.interleaveBankCnt < ar.pageCntOfLogicBlk

theorem getLogPageForWrite_gets (har : ar.Fits) (hcopy : ar.CopiesExactly) (henv : env.NoFailure)
    (hc : Coherent L s) (hact : s.curMapZone ≠ 0xff) (hd : s.blkMapCache.dirtyFlag = true)
    (hages : AgesOK s) (hk : k < ar.dataBlkCntOfZone) (p : Nat) :
    WP anyRun (getLogPageForWrite ar env k p) (fun r s' => ∃ s₁, DiskStays ar s s₁ ∧
      LogPageGot L k p r s₁ s' ∧ Flashed s₁ s' ∧ (LogRoomy ar k s → r.1 < ar.pageCntOfLogicBlk))
      F s := by
  have hblks := har.dataBlks
  have hmaps := har.maps
  refine WP.bind (WP.get ?_)
  refine WP.bind (WP.imp (show WP anyRun _ (fun i s₀ => Coherent L s₀ ∧ DiskStays ar s s₀ ∧
    i < logBlkCntOfZone ∧ (s₀.tbls.logBlkTbl i).logicBlkNum = k ∧ (LogRoomy ar k s →
      nextLogPage ar p (s₀.tbls.logBlkTbl i).lastUsedPage < ar.pageCntOfLogicBlk)) F s from ?_) ?_)
  · cases hlog : s.tbls.logBlkPst k with
    | some i =>
        obtain ⟨hi, hnum⟩ := BlkTbls.logBlkPst_spec hlog
        exact WP.pure ⟨hc, .refl ar s, hi, hnum, fun hroom =>
          nextLogPage_room har.pos (by omega) (hroom i hlog) p⟩
    | none =>
        refine (createNewLogBlk_creates har hcopy henv hc hact hd hages hk fun j hj heq => ?_).imp
          fun i s₀ h₀ => ⟨h₀.coherent, h₀.stays, h₀.pst_lt, h₀.num, fun _ => ?_⟩
        · exact List.find?_eq_none.mp hlog j (List.mem_range.mpr hj) (decide_eq_true heq)
        · rw [h₀.last]
          exact nextLogPage_empty har.pos p
  rintro i s₀ ⟨hc₀, hstays₀, hi, hnum, hroom⟩
  refine WP.bind ((pmmSwitchMapTbl_switches har hcopy henv hc₀ (hstays₀.curMapZone ▸ hact) hi
    (by omega)).imp fun _ s₁ h₁ => WP.bind (WP.get ?_))
  have hstays₁ := hstays₀.trans h₁.stays
  rw [← h₁.log.log] at hnum hroom
  refine WP.bind (WP.when (fun hfirst => ?_) fun hlater => WP.pure
    ⟨s₁, hstays₁, ⟨h₁.coherent, hstays₁.marked hd, h₁.map, hnum, rfl, ?_⟩, .refl h₁.coherent.clear,
      hroom⟩)
  · have hready := h₁.coherent.mergeReady (hstays₁.curMapZone ▸ hact) h₁.map
    refine (iterate_once (ar.freeBlkCntOfZone + 1) (writeLogBlkInfo_puts har henv h₁.coherent.clear hk i
      ?_)).imp ?_
    · refine hready.logOK.blank 0 har.pageCnt_pos ?_
      rw [LogBlk.usedPages, if_pos hfirst.1]
    · rintro _ s₂ ⟨h₂, hput⟩
      refine WP.pure ⟨s₁, hstays₁, ⟨h₁.coherent, hstays₁.marked hd, h₁.map, hnum, rfl, ?_⟩, h₂, hroom⟩
      rw [InfoPut, if_pos hfirst]
      exact hput
  · rw [InfoPut, if_neg hlater]

/-- `PMM_GetLogPage`: there is always a page, if need be after the log block has been merged. -/
theorem pmmGetLogPageWrite_places (har : ar.Fits) (hcopy : ar.CopiesExactly) (henv : env.NoFailure)
    (hc : Coherent L s) (hact : s.curMapZone ≠ 0xff) (hd : s.blkMapCache.dirtyFlag = true)
    (hages : AgesOK s) (hk : k < ar.dataBlkCntOfZone) (p : Nat) :
    WP anyRun (pmmGetLogPageWrite ar env k p) (fun q s' => ∃ i s₁ timer age, DiskStays ar s s₁ ∧
      LogPageGot L k p (q, i) s₁ s' ∧ q < ar.pageCntOfLogicBlk ∧ AgesOK s' ∧
      Flashed { s₁.takeLogPage i q p with logAccessTimer := timer, logAccessAge := age } s') F s := by
  have hmaps := har.maps
  refine WP.bind ((getLogPageForWrite_gets har hcopy henv hc hact hd hages hk p).imp ?_)
  rintro r s₂ ⟨s₁, hstays₁, hgot, hfl, -⟩
  have hagain : WP anyRun (if r.1 < ar.pageCntOfLogicBlk then pure r else do
        lmlMergeLogBlk ar env .special k
        getLogPageForWrite ar env k p)
      (fun r s' => ∃ s₁, DiskStays ar s s₁ ∧ LogPageGot L k p r s₁ s' ∧ Flashed s₁ s' ∧
        r.1 < ar.pageCntOfLogicBlk) F s₂ := by
    refine WP.ite (fun hlt => WP.pure ⟨s₁, hstays₁, hgot, hfl, hlt⟩) fun hfull => WP.bind ?_
    -- the log block has pages, so nothing has been put into it
    have hlast : (s₁.tbls.logBlkTbl r.2).lastUsedPage ≠ 0xffff := fun hnone => by
      rw [hgot.page, hnone] at hfull
      exact hfull (nextLogPage_empty har.pos p)
    have hcell : s₂.nand.cell = s₁.nand.cell := by
      have hput := hgot.info
      rwa [InfoPut, if_neg fun hfirst => hlast hfirst.1] at hput
    have hsame : SameTables L s₁ s₂ := .of_flashed hfl hcell
    have hc₂ := hsame.coherent har hgot.coherent
    have hstays₂ := hstays₁.trans (hsame.stays har hgot.coherent hfl.actBlk (by rw [hfl.eq]; rfl))
    have hmap₂ : s₂.HasMapOf r.2 := by
      rw [Ftl.HasMapOf, hfl.pageMapCache, hfl.curMapZone]
      exact hgot.map
    have hlog₂ : s₂.tbls.logBlkTbl r.2 = s₁.tbls.logBlkTbl r.2 := by rw [hfl.tbls]
    have hnum₂ : (s₂.tbls.logBlkTbl r.2).logicBlkNum = k := hlog₂ ▸ hgot.num
    have hact₂ : s₂.curMapZone ≠ 0xff := hstays₂.curMapZone ▸ hact
    have hmerge := merge_coherent (F := F) har hcopy henv hc₂ hact₂ (hstays₂.marked hd) hmap₂ .special
      fun _ => hlog₂ ▸ hlast
    rw [hnum₂] at hmerge
    refine hmerge.imp ?_
    rintro _ s₃ ⟨hc₃, hstays₃, hmerged, hend⟩
    have hstays := hstays₂.trans hstays₃
    have hi := (hc₂.mergeReady hact₂ hmap₂).pst_lt
    have hok₃ := hc₃.activeTbls (hstays.curMapZone ▸ hact)
    have hroom : LogRoomy ar k s₃ := by
      have hblks := har.dataBlks
      have hused₂ : (s₂.tbls.logBlkTbl r.2).logicBlkNum ≠ 0xffff := by omega
      have hok₂ := hc₂.activeTbls hact₂
      intro j hj
      obtain ⟨hj16, hjnum⟩ := BlkTbls.logBlkPst_spec hj
      have hjr : j = r.2 := by
        by_contra hne
        rw [(hmerged.logs j hj16 hne).1.log] at hjnum
        exact hne (hok₂.single j hj16 r.2 hi (hjnum.trans hnum₂.symm) (by omega))
      subst hjr
      rcases hend with hgone | ⟨-, hkept⟩
      · rw [hgone.log] at hjnum
        exact absurd hjnum (show (0xffff : Nat) ≠ k by omega)
      · exact hkept.room
    refine (getLogPageForWrite_gets har hcopy henv hc₃ (hstays.curMapZone ▸ hact) (hstays.marked hd)
      (hages.of_outside hstays.outside) hk p).imp ?_
    rintro r' s₅ ⟨s₄, hstays', hgot', hfl', hlt⟩
    exact ⟨s₄, hstays.trans hstays', hgot', hfl', hlt hroom⟩
  refine WP.bind (hagain.imp ?_)
  rintro ⟨q, i⟩ s₄ ⟨s₃, hstays', hgot', hfl', hlt⟩
  refine WP.bind (WP.failIf (fun hfull => absurd hlt hfull) fun _ => WP.bind (WP.modify (WP.bind
    (WP.modify (WP.bind ?_)))))
  have hout : s₄.outside = s.outside := by
    rw [← hstays'.outside, hfl'.eq]
    rfl
  have hages₄ : AgesOK (s₄.takeLogPage i q p) := (hages.of_outside hout).of_outside rfl
  have hi := (hgot'.coherent.mergeReady (hstays'.curMapZone ▸ hact) hgot'.map).pst_lt
  refine (calLogAccessCnt_ages hages₄ hi).imp ?_
  rintro _ s₅ ⟨hages', timer, age, rfl⟩
  have htake : Flashed (s₃.takeLogPage i q p) (s₄.takeLogPage i q p) :=
    (hfl'.setTbls _).setPageMapCache _
  refine WP.pure ⟨i, s₃, timer, age, hstays', ⟨hgot'.coherent, hgot'.marked, hgot'.map, hgot'.num,
    hgot'.page, hgot'.info⟩, hlt, hages', ?_⟩
  obtain ⟨n, b, d, heq⟩ := htake.elim
  refine ⟨?_, htake.clear⟩
  show { s₄.takeLogPage i q p with logAccessTimer := timer, logAccessAge := age } = _
  rw [heq]

end Place

end Novo7
