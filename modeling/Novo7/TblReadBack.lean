import Novo7.TblStore

/-!
# Reading the tables of a zone back

`_read_block_map_tbl` accepts a table group if the two checksums in it are right, and fills the
active slot from it. The checksum of the log table is computed when its page is written; that of
the data and free tables before the first page is, and may be out of date.
-/

namespace Novo7

open Traced Machine

/-! ## Images -/

theorem getTblCheckSum_congr {w w' : Nat → Nat} : ∀ {n : Nat}, (∀ k, k < n → w k = w' k) →
    getTblCheckSum w n = getTblCheckSum w' n
  | 0, _ => rfl
  | n + 1, h => by
      rw [getTblCheckSum, getTblCheckSum, h n (Nat.lt_succ_self n),
        getTblCheckSum_congr fun k hk => h k (Nat.lt_succ_of_lt hk)]

theorem Buf.word_congr {b b' : Buf} {k : Nat} (h : ∀ i, i < 2 * k + 2 → b i = b' i) :
    b.word k = b'.word k := by
  unfold Buf.word
  rw [h _ (by omega), h _ (by omega)]

/-- A checksum of words in front of the one that it is stored in is found there. -/
theorem Buf.setWord_checkSum (b : Buf) {n : Nat} (hn : n ≤ 511) :
    (b.setWord 511 (getTblCheckSum b.word n)).word 511 =
      getTblCheckSum (b.setWord 511 (getTblCheckSum b.word n)).word n := by
  have hsum (v : Nat) : getTblCheckSum (b.setWord 511 v).word n = getTblCheckSum b.word n := by
    refine getTblCheckSum_congr fun k hk => Buf.word_congr fun i hi => ?_
    unfold Buf.setWord
    rw [Function.update_of_ne (by omega), Function.update_of_ne (by omega)]
  rw [hsum, Buf.word, Buf.setWord, Function.update_of_ne (by decide), Function.update_self,
    Function.update_self]
  exact Nat.mod_add_div _ _

/-- A block item as it is stored. -/
theorem blkBuf_item (c : BlkMapTblCache) (dataCnt : Nat) {k : Nat} (hk : k < 1023) :
    (⟨c.blkBuf dataCnt (2 * k), c.blkBuf dataCnt (2 * k + 1)⟩ : SuperPhyBlk) =
      c.tbls.item dataCnt k := by
  unfold BlkMapTblCache.blkBuf
  rw [if_pos (by omega), if_pos (by omega), show 2 * k / 2 = k by omega,
    show (2 * k + 1) / 2 = k by omega]
  unfold SuperPhyBlk.half
  rw [if_pos (by omega), if_neg (by omega)]

/-- The stored checksum. -/
theorem blkBuf_checkSum (c : BlkMapTblCache) (dataCnt : Nat) :
    c.blkBuf dataCnt 2046 + 2 ^ 16 * c.blkBuf dataCnt 2047 = c.checkSum := by
  unfold BlkMapTblCache.blkBuf
  rw [if_neg (by decide), if_pos rfl, if_neg (by decide), if_neg (by decide)]
  exact Nat.mod_add_div _ _

/-- The checksum is that of the items. -/
theorem blkSum_congr {c c' : BlkMapTblCache} {dataCnt : Nat}
    (h : ∀ k, k < 1023 → c.tbls.item dataCnt k = c'.tbls.item dataCnt k) :
    c.blkSum dataCnt = c'.blkSum dataCnt := by
  refine getTblCheckSum_congr fun k hk => Buf.word_congr fun i hi => ?_
  unfold BlkMapTblCache.blkBuf
  rw [if_pos (by omega), if_pos (by omega), h _ (by omega)]

/-- A log block item as it is stored. -/
theorem logBuf_item (t : BlkTbls) (k : Nat) :
    (⟨t.logBuf (4 * k), t.logBuf (4 * k + 1), ⟨t.logBuf (4 * k + 2), t.logBuf (4 * k + 3)⟩⟩ : LogBlk) =
      t.logBlkTbl k := by
  unfold BlkTbls.logBuf SuperPhyBlk.half
  dsimp only
  rw [show 4 * k / 4 = k by omega, show (4 * k + 1) / 4 = k by omega,
    show (4 * k + 2) / 4 = k by omega, show (4 * k + 3) / 4 = k by omega, if_pos (by omega),
    if_neg (by omega), if_pos (by omega), if_neg (by omega), if_neg (by omega), if_pos (by omega),
    if_neg (by omega), if_neg (by omega), if_neg (by omega)]

theorem logImage_low (t : BlkTbls) {i : Nat} (hi : i < 64) : logImage t i = t.logBuf i := by
  unfold logImage Buf.setWord
  rw [Function.update_of_ne (by omega), Function.update_of_ne (by omega)]
  exact if_pos hi

/-- The stored checksum of the log table is right. -/
theorem logImage_checkSum (t : BlkTbls) :
    (logImage t).word 511 = getTblCheckSum (logImage t).word (2 * logBlkCntOfZone) :=
  Buf.setWord_checkSum _ (by decide)

/-! ## Loading -/

/-- The tables agree wherever a zone has entries. -/
structure SameTbls (ar : LogicArchi) (t t' : BlkTbls) : Prop where
  data : ∀ k, k < ar.dataBlkCntOfZone → t.dataBlkTbl k = t'.dataBlkTbl k
  free : ∀ k, k < ar.freeBlkCntOfZone → t.freeBlkTbl k = t'.freeBlkTbl k
  log : ∀ k, k < logBlkCntOfZone → t.logBlkTbl k = t'.logBlkTbl k

/-- What a page of data and free tables changes. -/
theorem loadBlk_item (c : BlkMapTblCache) (dataCnt base : Nat) (b : Buf) {k : Nat} (hk : k < 1023) :
    (c.loadBlk dataCnt base b).tbls.item dataCnt k =
      if base ≤ k ∧ k < base + 512 then b.blkAt (k - base) else c.tbls.item dataCnt k := by
  unfold BlkTbls.item BlkMapTblCache.loadBlk
  dsimp only
  by_cases hd : k < dataCnt
  · rw [if_pos hd, if_pos hd]
    by_cases hb : base ≤ k ∧ k < base + 512
    · rw [if_pos hb, if_pos ⟨hb.1, hb.2, hd⟩]
    · rw [if_neg hb, if_neg fun h => hb ⟨h.1, h.2.1⟩]
  · rw [if_neg hd, if_neg hd, show dataCnt + (k - dataCnt) = k by omega]
    by_cases hb : base ≤ k ∧ k < base + 512
    · rw [if_pos hb, if_pos ⟨hb.1, hb.2, hk⟩]
    · rw [if_neg hb, if_neg fun h => hb ⟨h.1, h.2.1⟩]

/-- The two pages of data and free tables load as what they were stored from. -/
theorem loadBlk_image (c₀ c c₁ : BlkMapTblCache) (dataCnt : Nat) {b₀ b₁ : Buf}
    (h₀ : ∀ i, i < 1024 → b₀ i = c.blkBuf dataCnt i)
    (h₁ : ∀ i, i < 1024 → b₁ i = c.blkBuf dataCnt (1024 + i))
    (hc₁ : c₁.tbls = (c₀.loadBlk dataCnt 0 b₀).tbls) :
    (∀ k, k < 1023 → (c₁.loadBlk dataCnt 512 b₁).tbls.item dataCnt k = c.tbls.item dataCnt k) ∧
      (c₁.loadBlk dataCnt 512 b₁).checkSum = c.checkSum := by
  constructor
  · intro k hk
    rw [loadBlk_item c₁ dataCnt 512 b₁ hk, ← blkBuf_item c dataCnt hk]
    by_cases hhigh : 512 ≤ k ∧ k < 512 + 512
    · rw [if_pos hhigh, Buf.blkAt, h₁ _ (by omega), h₁ _ (by omega),
        show 1024 + 2 * (k - 512) = 2 * k by omega, show 1024 + (2 * (k - 512) + 1) = 2 * k + 1 by omega]
    · rw [if_neg hhigh, hc₁, loadBlk_item c₀ dataCnt 0 b₀ hk, if_pos (by omega), Buf.blkAt,
        h₀ _ (by omega), h₀ _ (by omega)]
      rfl
  · show (if 512 ≤ 1023 ∧ 1023 < 512 + 512 then b₁.word (1023 - 512) else c₁.checkSum) = c.checkSum
    rw [if_pos (by decide), Buf.word, h₁ _ (by decide), h₁ _ (by decide)]
    exact blkBuf_checkSum c dataCnt

/-! ## Reading -/

theorem copySectors_low {src dst : Buf} {i : Nat} (hi : i < 1024) : copySectors 0xf src dst i = src i := by
  have hbit : Nat.testBit 0xf (i / 256) = true := by
    rcases (by omega : i / 256 = 0 ∨ i / 256 = 1 ∨ i / 256 = 2 ∨ i / 256 = 3) with h | h | h | h <;>
      rw [h] <;> rfl
  exact if_pos hbit

section Read

variable {ar : LogicArchi} {env : NandEnv} {z : Nat}

/-- A page that is read well. -/
theorem readTbl_page {F : Int → Ftl → Prop} (hread : ∀ n, env.read n = .good) (blk page : Nat)
    (s : Ftl) :
    WP anyRun (readTbl ar env z blk page 0xf)
      (fun r s' => r = (0, (s.nand.read (lmlCalculatePhyOpPar ar z blk page)).spare) ∧ s' = { s with
        nand := s.nand.tick
        processTblBuf := copySectors 0xf (s.nand.read (lmlCalculatePhyOpPar ar z blk page)).main
          s.processTblBuf }) F s := by
  refine WP.bind (WP.bind (WP.get (WP.bind (WP.emit fun _ => ⟨trivial, WP.bind (WP.modify ?_)⟩))))
  rw [hread]
  exact WP.pure (WP.bind (WP.modify (WP.pure ⟨rfl, rfl⟩)))

theorem readTbl_wp {F : Int → Ftl → Prop} (hread : ∀ n, env.read n = .good) (blk page : Nat) (s : Ftl) :
    WP anyRun (readTbl ar env z blk page 0xf)
      (fun r s' => r.1 = 0 ∧ s' = { s with
        nand := s.nand.tick
        processTblBuf := copySectors 0xf (s.nand.read (lmlCalculatePhyOpPar ar z blk page)).main
          s.processTblBuf }) F s :=
  (readTbl_page hread blk page s).imp fun _ _ h => ⟨congrArg Prod.fst h.1, h.2⟩

theorem mixTbls_gives {Q : Unit → Ftl → Prop} {P : Prop} (h : P) (s : Ftl) :
    WP anyRun mixTbls Q (fun _ _ => P) s :=
  WP.bind (WP.get (WP.bind (WP.when (fun _ => WP.emit fun _ => ⟨trivial, WP.fail h⟩) fun _ => WP.fail h)))

/-- A table group is accepted if its first checksum is right, and then gives back the tables. -/
theorem readBlockMapTbl_accepts (hread : ∀ n, env.read n = .good) (hdata : ar.dataBlkCntOfZone < 1024)
    {c : BlkMapTblCache} {t : Ftl}
    (h : HoldsTbls ar z ((t.zoneTblPst z).phyBlkNum, (t.zoneTblPst z).tablePst) c t.nand) :
    WP anyRun (readBlockMapTbl ar env z)
      (fun _ t' => c.checkSum = c.blkSum ar.dataBlkCntOfZone ∧ SameTbls ar t'.tbls c.tbls)
      (fun _ _ => c.checkSum ≠ c.blkSum ar.dataBlkCntOfZone) t := by
  obtain ⟨p₀, hp₀, hm₀⟩ := h 0 (by omega)
  obtain ⟨p₁, hp₁, hm₁⟩ := h 1 (by omega)
  obtain ⟨p₂, hp₂, hm₂⟩ := h 2 (by omega)
  have hpage {n : Nand} {a : PhyPage} {p : Page} (hcell : n.cell a = some p) : n.read a = p := by
    rw [Nand.read, hcell, Option.getD_some]
  -- the low half of the data and free tables
  refine WP.bind (WP.get (WP.bind ((readTbl_wp hread _ _ _).imp fun r s₁ hr => ?_)))
  obtain ⟨ret, u⟩ := r
  obtain ⟨hret, hs₁⟩ := hr
  replace hret : ret = 0 := hret
  have hb₀ : ∀ i, i < 1024 → s₁.processTblBuf i = c.blkBuf ar.dataBlkCntOfZone i := by
    intro i hi
    rw [hs₁]
    exact (copySectors_low hi).trans ((congrArg (fun p => p.main i) (hpage hp₀)).trans (hm₀ i hi))
  have hcell₁ : s₁.nand.cell = t.nand.cell := by
    rw [hs₁]
    rfl
  refine WP.bind (WP.failIf (fun hneg => absurd hneg (by rw [hret]; decide)) fun _ =>
    WP.bind (WP.modify ?_))
  obtain ⟨s₂, hs₂⟩ : ∃ s₂, s₂ = s₁.setBlkMapCache fun c =>
    { c.loadBlk ar.dataBlkCntOfZone 0 s₁.processTblBuf with loSrc := z } := ⟨_, rfl⟩
  rw [← hs₂]
  have hlow : s₂.blkMapCache.tbls =
      (s₁.blkMapCache.loadBlk ar.dataBlkCntOfZone 0 s₁.processTblBuf).tbls := by
    rw [hs₂, Ftl.blkMapCache_setBlkMapCache]
  have hcell₂ : s₂.nand.cell = t.nand.cell := by
    rw [hs₂]
    exact hcell₁
  -- the high half
  refine WP.bind ((readTbl_wp hread _ _ _).imp fun r s₃ hr => ?_)
  obtain ⟨ret, u⟩ := r
  obtain ⟨hret, hs₃⟩ := hr
  replace hret : ret = 0 := hret
  have hb₁ : ∀ i, i < 1024 → s₃.processTblBuf i = c.blkBuf ar.dataBlkCntOfZone (1024 + i) := by
    intro i hi
    rw [hs₃]
    rw [← hcell₂] at hp₁
    exact (copySectors_low hi).trans ((congrArg (fun p => p.main i) (hpage hp₁)).trans (hm₁ i hi))
  have hcell₃ : s₃.nand.cell = t.nand.cell := by
    rw [hs₃]
    exact hcell₂
  have hcache₃ : s₃.blkMapCache = s₂.blkMapCache := by
    rw [hs₃]
    rfl
  refine WP.bind (WP.when (fun hneg => absurd hneg (by rw [hret]; decide)) fun _ =>
    WP.bind (WP.modify ?_))
  obtain ⟨s₄, hs₄⟩ : ∃ s₄, s₄ = s₃.setBlkMapCache fun c =>
    { c.loadBlk ar.dataBlkCntOfZone 512 s₃.processTblBuf with hiSrc := z } := ⟨_, rfl⟩
  rw [← hs₄]
  have hcell₄ : s₄.nand.cell = t.nand.cell := by
    rw [hs₄]
    exact hcell₃
  have hloaded := loadBlk_image s₁.blkMapCache c s₃.blkMapCache ar.dataBlkCntOfZone hb₀ hb₁
    (by rw [hcache₃]; exact hlow)
  have hitems : ∀ k, k < 1023 → s₄.tbls.item ar.dataBlkCntOfZone k = c.tbls.item ar.dataBlkCntOfZone k := by
    intro k hk
    rw [Ftl.tbls, hs₄, Ftl.blkMapCache_setBlkMapCache]
    exact hloaded.1 k hk
  have hsum : s₄.blkMapCache.checkSum = c.checkSum := by
    rw [hs₄, Ftl.blkMapCache_setBlkMapCache]
    exact hloaded.2
  have hblkSum : s₄.blkMapCache.blkSum ar.dataBlkCntOfZone = c.blkSum ar.dataBlkCntOfZone :=
    blkSum_congr hitems
  -- the checksum, and the log table
  refine WP.bind (WP.get (WP.bind (WP.when (fun hne => mixTbls_gives ?_ _) fun heq => ?_)))
  · rwa [hsum, hblkSum] at hne
  replace heq := not_not.mp heq
  rw [hsum, hblkSum] at heq
  refine WP.bind ((readTbl_wp hread _ _ _).imp fun r s₅ hr => ?_)
  obtain ⟨ret, u⟩ := r
  obtain ⟨hret, hs₅⟩ := hr
  replace hret : ret = 0 := hret
  have hb₂ : ∀ i, i < 1024 → s₅.processTblBuf i = logImage c.tbls i := by
    intro i hi
    rw [hs₅]
    rw [← hcell₄] at hp₂
    exact (copySectors_low hi).trans ((congrArg (fun p => p.main i) (hpage hp₂)).trans (hm₂ i hi))
  have hcache₅ : s₅.blkMapCache = s₄.blkMapCache := by
    rw [hs₅]
    rfl
  refine WP.bind (WP.when (fun hneg => absurd hneg (by rw [hret]; decide)) fun _ => WP.bind (WP.get
    (WP.bind (WP.when (fun hne => absurd ?_ hne) fun _ => WP.modify ⟨heq, ?_⟩))))
  · have hword : s₅.processTblBuf.word 511 = (logImage c.tbls).word 511 :=
      Buf.word_congr fun i hi => hb₂ i (by omega)
    rw [hword, logImage_checkSum]
    exact getTblCheckSum_congr fun k hk => Buf.word_congr fun i hi =>
      (hb₂ i (by unfold logBlkCntOfZone at hk; omega)).symm
  · rw [Ftl.tbls, Ftl.blkMapCache_setBlkMapCache, hcache₅]
    have hitem (k : Nat) (hk : k < 1023) : s₄.blkMapCache.tbls.item ar.dataBlkCntOfZone k =
        c.tbls.item ar.dataBlkCntOfZone k := hitems k hk
    refine ⟨fun k hk => ?_, fun k hk => ?_, fun k hk => ?_⟩
    · have hk' := hitem k (by omega)
      unfold BlkTbls.item at hk'
      rwa [if_pos hk, if_pos hk] at hk'
    · unfold LogicArchi.freeBlkCntOfZone blockCntOfZone at hk
      have hk' := hitem (ar.dataBlkCntOfZone + k) (by omega)
      unfold BlkTbls.item at hk'
      rwa [if_neg (by omega), if_neg (by omega), Nat.add_sub_cancel_left] at hk'
    · refine (if_pos hk).trans ?_
      unfold logBlkCntOfZone at hk
      rw [Buf.logAt, hb₂ _ (by omega), hb₂ _ (by omega), hb₂ _ (by omega), hb₂ _ (by omega),
        logImage_low _ (by omega), logImage_low _ (by omega), logImage_low _ (by omega),
        logImage_low _ (by omega)]
      exact logBuf_item c.tbls k

end Read

/-! ## Write-back and read -/

/-- From the flash as it is, the tables of the zone can be read, and are those in RAM. -/
def ReadsBack (ar : LogicArchi) (nZone : Nat) (s : Ftl) : Prop :=
  ∀ (env : NandEnv) (t : Ftl), (∀ n, env.read n = .good) → t.nand.cell = s.nand.cell →
    t.zoneTblPst nZone = s.zoneTblPst nZone →
    ∃ t', (readBlockMapTbl ar env nZone t).1 = .ret () t' ∧ SameTbls ar t'.tbls s.tbls

/-- The blocks that failed rounds take out of the free table leave its checksum as it is. -/
def SumKept (ar : LogicArchi) (env : NandEnv) (s : Ftl) : Prop :=
  ((takeFree ar)^[failedRounds ar env (ar.freeBlkCntOfZone + 2) s.nand.clock] s.blkMapCache).blkSum
    ar.dataBlkCntOfZone = s.blkMapCache.blkSum ar.dataBlkCntOfZone

def BlkMapTblCache.setCheckSum (v : Nat) (c : BlkMapTblCache) : BlkMapTblCache :=
  { c with checkSum := v }

theorem BlkMapTblCache.checkSum_setCheckSum (v : Nat) (c : BlkMapTblCache) :
    (c.setCheckSum v).checkSum = v := rfl

theorem blkSum_setCheckSum (v dataCnt : Nat) (c : BlkMapTblCache) :
    (c.setCheckSum v).blkSum dataCnt = c.blkSum dataCnt := blkSum_congr fun _ _ => rfl

theorem takeFree_setCheckSum (ar : LogicArchi) (v : Nat) :
    Function.Commute (takeFree ar) (BlkMapTblCache.setCheckSum v) := by
  intro c
  have hpst : freePst ar (c.setCheckSum v) = freePst ar c := rfl
  unfold takeFree
  rw [hpst]
  cases freePst ar c <;> rfl

/-- After a program that returns comes the rest. -/
theorem bind_ret {α β : Type} {m : FtlProg α} {f : α → FtlProg β} {s s₁ : Ftl} {a : α}
    (h : (m s).1 = .ret a s₁) : ((m >>= f) s).1 = (f a s₁).1 := by
  show (Outcome.andThen (m s) f fail).1 = _
  rcases hm : m s with ⟨o, es⟩
  rw [hm] at h
  replace h : o = .ret a s₁ := h
  subst h
  rfl

section WriteBack

variable {ar : LogicArchi} {env : NandEnv} {z : Nat}

theorem readsBack_iff (hdata : ar.dataBlkCntOfZone < 1024) {s : Ftl}
    (h : HoldsTbls ar z ((s.zoneTblPst z).phyBlkNum, (s.zoneTblPst z).tablePst) s.blkMapCache s.nand) :
    ReadsBack ar z s ↔ s.blkMapCache.checkSum = s.blkMapCache.blkSum ar.dataBlkCntOfZone := by
  have hread {e : NandEnv} {t : Ftl} (hgood : ∀ n, e.read n = .good) (hcell : t.nand.cell = s.nand.cell)
      (hpst : t.zoneTblPst z = s.zoneTblPst z) :=
    ends_of_wp (@readBlockMapTbl_accepts ar e z hgood hdata s.blkMapCache t (by
      unfold HoldsTbls
      rw [hcell, hpst]
      exact h))
  constructor
  · intro hback
    let good : NandEnv := ⟨fun _ => .good, fun _ => .done, fun _ => .done⟩
    obtain ⟨t', hret, -⟩ := hback good s (fun _ => rfl) rfl rfl
    have hends := @hread good s (fun _ => rfl) rfl rfl
    rw [hret] at hends
    exact hends.1
  · intro hsum e t hgood hcell hpst
    have hends := hread hgood hcell hpst
    cases hrun : (readBlockMapTbl ar e z t).1 with
    | ret a t' =>
        rw [hrun] at hends
        exact ⟨t', rfl, hends.2⟩
    | err err t' =>
        rw [hrun] at hends
        exact absurd hsum hends

/-- The write-back of tables whose page maps have been written: after the failed rounds, the group
holds the tables in RAM, and the checksum from before. -/
theorem tblGroup_written (har : ar.PagesFit) (htime : env.NoTimeout) {s₀ s₁ s₂ s' : Ftl} {x : Nat × Nat}
    (hmaps : (writeBackAllPageMapTbl ar env z s₀).1 = .ret () s₁) (hready : TblReady ar env z s₁)
    (hnext : (nextTblGroup ar env z s₁).1 = .ret x s₂)
    (hret : (writeBackBlockMapTbl ar env z s₀).1 = .ret () s') :
    HoldsTbls ar z ((s'.zoneTblPst z).phyBlkNum, (s'.zoneTblPst z).tablePst) s'.blkMapCache s'.nand ∧
      s'.blkMapCache = ((takeFree ar)^[failedRounds ar env (ar.freeBlkCntOfZone + 2) s₂.nand.clock]
        s₂.blkMapCache).setCheckSum (s₂.blkMapCache.blkSum ar.dataBlkCntOfZone) := by
  have hflash : TblFlash ar z x s₂ := by
    have hends := ends_of_wp (nextTblGroup_wp har hready)
    rwa [hnext] at hends
  unfold writeBackBlockMapTbl at hret
  rw [bind_ret hmaps, bind_ret (rfl : (Traced.get s₁).1 = .ret s₁ s₁), bind_ret hnext,
    bind_ret (rfl : (Traced.modify _ s₂).1 = .ret () _),
    bind_ret (rfl : (Traced.modify _ _).1 = .ret () _)] at hret
  obtain ⟨s₃, hs₃⟩ : ∃ s₃ : Ftl, s₃ = { s₂.setBlkMapCache
    (fun c => { c with checkSum := c.blkSum ar.dataBlkCntOfZone }) with processTblBuf := Buf.blank } :=
    ⟨_, rfl⟩
  rw [← hs₃] at hret
  have hcache : s₃.blkMapCache =
      s₂.blkMapCache.setCheckSum (s₂.blkMapCache.blkSum ar.dataBlkCntOfZone) := by
    rw [hs₃]
    exact Function.update_self s₂.actBlk _ s₂.blkCache
  have htbls : s₃.tbls = s₂.tbls := by
    rw [Ftl.tbls, hcache]
    rfl
  have hnand : s₃.nand = s₂.nand := by
    rw [hs₃]
    rfl
  have hflash₃ : TblFlash ar z x s₃ := by
    refine ⟨hflash.page, ?_, hflash.free.room, ?_, ?_⟩
    · rw [hnand]
      exact hflash.blank
    · rw [htbls, hnand]
      exact hflash.free.free
    · rw [htbls]
      exact hflash.free.apart
  have hwp : WP anyRun (iterate (fun x => orElse (writeTblGroup ar env z x) fun e => do
        when (x.1 ≠ (s₁.zoneTblPst z).phyBlkNum) (emit .tblDropped)
        fail e) (ar.freeBlkCntOfZone + 2) x >>= fun x =>
      Traced.modify fun s => { s with zoneTblPst := Function.update s.zoneTblPst z ⟨x.1, x.2⟩ })
      (fun _ s' => HoldsTbls ar z ((s'.zoneTblPst z).phyBlkNum, (s'.zoneTblPst z).tablePst)
          s'.blkMapCache s'.nand ∧
        s'.blkMapCache = (takeFree ar)^[failedRounds ar env (ar.freeBlkCntOfZone + 2) s₃.nand.clock]
          s₃.blkMapCache) (fun _ _ => True) s₃ := by
    refine WP.bind ((tblRounds_wp har htime (fun x e s => ?_) hflash₃).imp fun y s₄ hs₄ => WP.modify ?_)
    · exact WP.bind (WP.when (fun _ => WP.emit fun _ => ⟨trivial, WP.fail trivial⟩) fun _ => WP.fail trivial)
    · refine ⟨?_, hs₄.2⟩
      show HoldsTbls ar z ((Function.update s₄.zoneTblPst z ⟨y.1, y.2⟩ z).phyBlkNum,
        (Function.update s₄.zoneTblPst z ⟨y.1, y.2⟩ z).tablePst) s₄.blkMapCache s₄.nand
      rw [Function.update_self]
      exact hs₄.1
  have hends := ends_of_wp hwp
  rw [hret] at hends
  obtain ⟨hholds, hfinal⟩ := hends
  refine ⟨hholds, ?_⟩
  rw [hfinal, hcache, hnand, ((takeFree_setCheckSum ar _).iterate_left _).eq]

/-- What a write-back that succeeds has stored is read back as the tables in RAM if and only if the
failed rounds leave the checksum as it is. -/
theorem tbls_read_back_iff (har : ar.PagesFit) (hdata : ar.dataBlkCntOfZone < 1024)
    (htime : env.NoTimeout) {s₀ s₁ s₂ s' : Ftl} {x : Nat × Nat}
    (hmaps : (writeBackAllPageMapTbl ar env z s₀).1 = .ret () s₁) (hready : TblReady ar env z s₁)
    (hnext : (nextTblGroup ar env z s₁).1 = .ret x s₂)
    (hret : (writeBackBlockMapTbl ar env z s₀).1 = .ret () s') :
    ReadsBack ar z s' ↔ SumKept ar env s₂ := by
  obtain ⟨hholds, hcache⟩ := tblGroup_written har htime hmaps hready hnext hret
  rw [readsBack_iff hdata hholds, hcache, BlkMapTblCache.checkSum_setCheckSum, blkSum_setCheckSum,
    SumKept]
  exact eq_comm

/-- Without a failed program the checksum is the one that was written. -/
theorem sumKept_of_done {s : Ftl} (h : firstFail env s.nand.clock = none) : SumKept ar env s := by
  unfold SumKept
  rw [failedRounds, h]
  rfl

/-- The sums of two tables that differ in one word. -/
theorem getTblCheckSum_update {w w' : Nat → Nat} {j : Nat} : ∀ {n : Nat}, j < n →
    (∀ k, k < n → k ≠ j → w k = w' k) →
    u32 (getTblCheckSum w n + w' j) = u32 (getTblCheckSum w' n + w j)
  | n + 1, hj, hsame => by
      rw [getTblCheckSum, getTblCheckSum]
      rcases Nat.lt_succ_iff_lt_or_eq.mp hj with hlt | rfl
      · have hrest := getTblCheckSum_update hlt fun k hk hne => hsame k (by omega) hne
        rw [hsame n (by omega) (by omega)]
        unfold u32 at hrest ⊢
        omega
      · rw [getTblCheckSum_congr fun k hk => hsame k (by omega) (by omega)]
        unfold u32
        omega

/-- A block that is taken changes the sum. -/
theorem blkSum_takeFree_ne {c : BlkMapTblCache} {pst : Nat} (h : freePst ar c = some pst)
    (hphy : (c.tbls.freeBlkTbl pst).phyBlkNum < 2 ^ 16) :
    (takeFree ar c).blkSum ar.dataBlkCntOfZone ≠ c.blkSum ar.dataBlkCntOfZone := by
  obtain ⟨hlt, hfree⟩ := freePst_found h
  unfold LogicArchi.freeBlkCntOfZone blockCntOfZone at hlt
  have hword (c : BlkMapTblCache) {k : Nat} (hk : k < 1023) : (c.blkBuf ar.dataBlkCntOfZone).word k =
      (c.tbls.item ar.dataBlkCntOfZone k).phyBlkNum +
        2 ^ 16 * (c.tbls.item ar.dataBlkCntOfZone k).blkEraseCnt := by
    rw [← blkBuf_item c ar.dataBlkCntOfZone hk]
    rfl
  have hitem (k : Nat) : (takeFree ar c).tbls.item ar.dataBlkCntOfZone k =
      if k = ar.dataBlkCntOfZone + pst then .none else c.tbls.item ar.dataBlkCntOfZone k := by
    rw [takeFree, h]
    unfold BlkTbls.item BlkTbls.setFree
    dsimp only
    rw [Function.update_apply]
    by_cases hd : k < ar.dataBlkCntOfZone
    · rw [if_pos hd, if_neg (by omega), if_pos hd]
    · rw [if_neg hd, if_neg hd]
      by_cases hk : k = ar.dataBlkCntOfZone + pst
      · rw [if_pos hk, if_pos (by omega)]
      · rw [if_neg hk, if_neg (by omega)]
  have hsame (k : Nat) (hk : k < 1023) (hne : k ≠ ar.dataBlkCntOfZone + pst) :
      ((takeFree ar c).blkBuf ar.dataBlkCntOfZone).word k = (c.blkBuf ar.dataBlkCntOfZone).word k := by
    rw [hword _ hk, hword _ hk, hitem, if_neg hne]
  have hdiff := getTblCheckSum_update (n := 1023) (show ar.dataBlkCntOfZone + pst < 1023 by omega) hsame
  intro heq
  unfold BlkMapTblCache.blkSum at heq
  have hpst : c.tbls.item ar.dataBlkCntOfZone (ar.dataBlkCntOfZone + pst) = c.tbls.freeBlkTbl pst := by
    unfold BlkTbls.item
    rw [if_neg (by omega), Nat.add_sub_cancel_left]
  rw [heq, hword _ (by omega), hword _ (by omega), hitem, if_pos rfl, hpst] at hdiff
  unfold SuperPhyBlk.none u32 at hdiff
  dsimp only at hdiff
  omega

/-- One failed round changes the checksum. -/
theorem not_sumKept_once {s : Ftl} {pst : Nat}
    (honce : failedRounds ar env (ar.freeBlkCntOfZone + 2) s.nand.clock = 1)
    (h : freePst ar s.blkMapCache = some pst) (hphy : (s.tbls.freeBlkTbl pst).phyBlkNum < 2 ^ 16) :
    ¬ SumKept ar env s := by
  unfold SumKept
  rw [honce]
  exact blkSum_takeFree_ne h hphy

end WriteBack

/-- The first program of all fails. -/
def firstProgFails : NandEnv where
  read _ := .good
  prog n := if n = 0 then .failed .blank else .done
  erase _ := .done

/-- A zone with two free blocks. -/
def twoFree : LogicArchi := { fiveZones with dataBlkCntOfZone := 1021 }

theorem physBlk_twoFree (b : Nat) : physBlk twoFree 0 b = u16 b := rfl

theorem ready_twoFree (env : NandEnv) (h : ∀ n, (env.erase n).isDone = true) :
    TblReady twoFree env 0 fourCached := by
  have hblk (p : Nat) : (fourCached.tbls.freeBlkTbl p).phyBlkNum = p + 1000 := rfl
  refine ⟨rfl, rfl, rfl, ⟨by decide, fun p hp _ => ⟨?_, fun _ _ => rfl⟩, fun p q hp hq hne _ _ => ?_⟩,
    fun _ _ _ => rfl, .inl fun _ _ => h _⟩
  · replace hp : p < 2 := hp
    rw [hblk, physBlk_twoFree, physBlk_twoFree]
    show (p + 1000) % 2 ^ 16 ≠ 0
    omega
  · replace hp : p < 2 := hp
    replace hq : q < 2 := hq
    rw [hblk, hblk, physBlk_twoFree, physBlk_twoFree]
    show (p + 1000) % 2 ^ 16 ≠ (q + 1000) % 2 ^ 16
    omega

theorem pagesFit_twoFree : twoFree.PagesFit := ⟨by decide, by decide, by decide, fun _ _ => rfl⟩

theorem firstProgFails_noTimeout : firstProgFails.NoTimeout := by
  intro n
  unfold firstProgFails
  dsimp only
  split <;> exact nofun

/-- The write-back goes on in another block, and succeeds. -/
theorem writeBack_twoFree :
    ∃ s', (writeBackBlockMapTbl twoFree firstProgFails 0 fourCached).1 = .ret () s' := by
  have hends : (writeBackBlockMapTbl twoFree firstProgFails 0 fourCached).1.Ends
      (fun _ _ => True) fun _ _ => False := trivial
  cases hrun : (writeBackBlockMapTbl twoFree firstProgFails 0 fourCached).1 with
  | ret a s' => exact ⟨s', rfl⟩
  | err e s' =>
      rw [hrun] at hends
      exact hends.elim

theorem tbls_read_back_iff_twoFree : ∃ s',
    (writeBackBlockMapTbl twoFree firstProgFails 0 fourCached).1 = .ret () s' ∧
      (ReadsBack twoFree 0 s' ↔ SumKept twoFree firstProgFails fourCached) := by
  obtain ⟨s', hret⟩ := writeBack_twoFree
  exact ⟨s', hret, tbls_read_back_iff pagesFit_twoFree (by decide) firstProgFails_noTimeout rfl
    (ready_twoFree _ fun _ => rfl) rfl hret⟩

/-- The group is stored with the checksum of the free table from before the replacement. -/
theorem tbls_stale_checkSum : ∃ s',
    (writeBackBlockMapTbl twoFree firstProgFails 0 fourCached).1 = .ret () s' ∧
      ¬ ReadsBack twoFree 0 s' := by
  obtain ⟨s', hret⟩ := writeBack_twoFree
  refine ⟨s', hret, fun hback => ?_⟩
  obtain ⟨hholds, hcache⟩ := tblGroup_written pagesFit_twoFree firstProgFails_noTimeout rfl
    (ready_twoFree firstProgFails fun _ => rfl) rfl hret
  rw [readsBack_iff (by decide) hholds, hcache, BlkMapTblCache.checkSum_setCheckSum,
    blkSum_setCheckSum] at hback
  exact @not_sumKept_once twoFree firstProgFails fourCached 0 rfl rfl (by decide) hback.symm

end Novo7
