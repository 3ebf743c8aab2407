import Novo7.BootAreaRead

/-!
# Writing a boot area

What `bootarea_write` leaves on the chip, as an edit of its sector array. A block that is
rewritten takes the bounce buffer (`rewriteBlock_ok`), so each part of the write comes down to
what the bounce buffer holds; laid end to end, the parts are one `store` of the range.

One part is different. When the range starts *and* ends inside one block, the rest of the
block is read back from the wrong place (`writeHead_short`), and
`bootareaWrite_stores_iff` says exactly when that does no harm.
-/

namespace Novo7

open Machine Buffer

variable {α : Type}

section Spec

variable {env : BootEnv α} {g : BootGeometry} {spp : Nat}

/-! ## What a write stores -/

theorem writePages_ok (spp : Nat) (hok : env.AllOk) (block : Nat) (data : Nat → α) :
    ∀ (n page : Nat) (dev : BootDev α), (∀ p, page ≤ p → dev.flash block p = none) →
      ∃ dev', writePages env spp block data page n dev = (dev', 0) ∧
        dev'.flash = Function.update dev.flash block fun p =>
          if page ≤ p ∧ p < page + n then some fun i => data (p * spp + i)
          else dev.flash block p
  | 0, page, dev, _ => by
      refine ⟨dev, rfl, ?_⟩
      have : (fun p => if page ≤ p ∧ p < page + 0 then some fun i => data (p * spp + i)
          else dev.flash block p) = dev.flash block := by
        funext p
        rw [if_neg (by omega)]
      rw [this, Function.update_eq_self]
  | n + 1, page, dev, hnone => by
      obtain ⟨dev', hw, hf⟩ := writePages_ok spp hok block data n (page + 1)
        ⟨Function.update dev.flash block (Function.update (dev.flash block) page
          (some fun i => data (page * spp + i))), dev.ops + 1⟩ (fun p hp => by
            simp only [Function.update_self]
            rw [Function.update_of_ne (by omega)]
            exact hnone p (by omega))
      refine ⟨dev', ?_, ?_⟩
      · simp only [writePages, simpleWrite, hok dev.ops, hnone page (Nat.le_refl _), and_self,
          if_true]
        exact hw
      · simp only [Function.update_self, Function.update_idem] at hf
        rw [hf]
        refine congrArg _ (funext fun p => ?_)
        rcases Nat.lt_trichotomy p page with hp | rfl | hp
        · rw [if_neg (by omega), if_neg (by omega), Function.update_of_ne (by omega)]
        · rw [if_neg (by omega), if_pos (by omega), Function.update_self]
        · rw [Function.update_of_ne (by omega)]
          simp only [show page + 1 ≤ p ↔ page ≤ p by omega,
            show page + 1 + n = page + (n + 1) by omega]

/-- A rewritten block holds the new data, and no other block changes. -/
theorem rewriteBlock_ok (dev : BootDev α) (hok : env.AllOk) (hspp : 0 < spp) {block : Nat}
    (data : Nat → α) (hb : block < 2 ^ 16) :
    ∃ dev', rewriteBlock env g spp block data dev = (dev', 0) ∧
      (∀ b, b ≠ block → dev'.flash b = dev.flash b) ∧
      sectorAt env g spp dev'.flash = store (sectorAt env g spp dev.flash)
        (spp * g.pageCntOfPhyBlk * block) (spp * g.pageCntOfPhyBlk) data := by
  obtain ⟨dev', hw, hf⟩ := writePages_ok spp hok block data g.pageCntOfPhyBlk 0
    ⟨Function.update dev.flash block fun _ => none, dev.ops + 1⟩ (fun p _ => by simp)
  simp only [Function.update_self, Function.update_idem] at hf
  have hsib : 0 < spp * g.pageCntOfPhyBlk := Nat.mul_pos hspp g.pages_pos
  refine ⟨dev', ?_, fun b hne => by rw [hf, Function.update_of_ne hne], ?_⟩
  · simp only [rewriteBlock, simpleErase, Nat.mod_eq_of_lt hb, hok dev.ops, if_true]
    exact hw
  · funext x
    obtain ⟨j, hj, hx⟩ : ∃ j < spp * g.pageCntOfPhyBlk,
        x = spp * g.pageCntOfPhyBlk * (x / (spp * g.pageCntOfPhyBlk)) + j :=
      ⟨_, Nat.mod_lt x hsib, (Nat.div_add_mod ..).symm⟩
    generalize x / (spp * g.pageCntOfPhyBlk) = b at hx
    subst hx
    rw [sectorAt_block hspp hj]
    by_cases hne : b = block
    · subst hne
      have hpage : j / spp < g.pageCntOfPhyBlk := Nat.div_lt_of_lt_mul hj
      rw [store_in (Nat.le_add_right _ _) (by omega), Nat.add_sub_cancel_left]
      simp only [pageContent, hf, Function.update_self, Nat.zero_le, Nat.zero_add, hpage,
        and_self, if_true, Nat.mul_comm, Nat.div_add_mod]
    · have hout : spp * g.pageCntOfPhyBlk * b + j < spp * g.pageCntOfPhyBlk * block ∨
          spp * g.pageCntOfPhyBlk * block + spp * g.pageCntOfPhyBlk ≤
            spp * g.pageCntOfPhyBlk * b + j := by
        rcases Nat.lt_or_gt_of_ne hne with hlt | hlt
        · have := Nat.mul_le_mul_left (spp * g.pageCntOfPhyBlk) hlt
          rw [Nat.mul_succ] at this
          omega
        · have := Nat.mul_le_mul_left (spp * g.pageCntOfPhyBlk) hlt
          rw [Nat.mul_succ] at this
          omega
      rw [store_out hout, sectorAt_block hspp hj]
      simp only [pageContent, hf, Function.update_of_ne hne]

/-- Whole blocks are written from consecutive places of the buffer. -/
theorem writeWhole_ok (hok : env.AllOk) (hspp : 0 < spp) (buf : Nat → α) :
    ∀ (n : Nat) (s : WriteState α), s.res = 0 → s.block + n ≤ 2 ^ 16 →
      ∃ s', writeWhole env g spp buf n s = s' ∧ s'.res = 0 ∧ s'.block = s.block + n ∧
        s'.bufp = s.bufp + n * (spp * g.pageCntOfPhyBlk) ∧
        (∀ b, b < s.block ∨ s.block + n ≤ b → s'.dev.flash b = s.dev.flash b) ∧
        sectorAt env g spp s'.dev.flash = store (sectorAt env g spp s.dev.flash)
          (spp * g.pageCntOfPhyBlk * s.block) (n * (spp * g.pageCntOfPhyBlk))
          fun i => buf (s.bufp + i)
  | 0, s, hres, _ => ⟨s, rfl, hres, rfl, by simp, fun _ _ => rfl, by simp⟩
  | n + 1, s, hres, hfit => by
      obtain ⟨dev, hw, hkeep, hstore⟩ := rewriteBlock_ok (g := g) s.dev hok hspp
        (fun i => buf (s.bufp + i)) (show s.block < 2 ^ 16 by omega)
      obtain ⟨s', hs', h1, h2, h3, h4, h5⟩ := writeWhole_ok hok hspp buf n
        { s with
          dev := dev, res := 0, block := s.block + 1, count := n,
          bufp := s.bufp + spp * g.pageCntOfPhyBlk } rfl (by simp only; omega)
      simp only at h2 h3 h4 h5
      refine ⟨s', ?_, h1, by omega, ?_, fun b hb => ?_, ?_⟩
      · simp only [writeWhole, hres, if_true, hw]
        exact hs'
      · rw [h3, Nat.add_mul, Nat.one_mul]
        omega
      · rw [h4 b (by omega), hkeep b (by omega)]
      · rw [h5, hstore, Nat.add_mul, Nat.one_mul, Nat.add_comm (n * _), ← store_split,
          Nat.mul_add, Nat.mul_one]
        simp only [Nat.add_assoc]

/-- The areas start at the start of a block. -/
theorem bootBase_le (g : BootGeometry) (bootnum first : Nat) :
    bootFirstPage bootnum * sectcntInPage g bootnum ≤
      sectcntInPage g bootnum * g.pageCntOfPhyBlk *
        ((first + bootFirstPage bootnum * sectcntInPage g bootnum) /
          (sectcntInPage g bootnum * g.pageCntOfPhyBlk)) := by
  have hdvd : g.pageCntOfPhyBlk ∣ bootFirstPage bootnum := by
    unfold bootFirstPage
    split
    · exact g.pages_dvd
    · exact Nat.dvd_zero _
  obtain ⟨m, hm⟩ := hdvd
  have hsib := Nat.mul_pos (sectcntInPage_pos g bootnum) g.pages_pos
  have hbase : bootFirstPage bootnum * sectcntInPage g bootnum =
      sectcntInPage g bootnum * g.pageCntOfPhyBlk * m := by
    rw [hm, Nat.mul_comm _ (sectcntInPage g bootnum), Nat.mul_assoc]
  rw [hbase]
  refine Nat.mul_le_mul_left _ ((Nat.le_div_iff_mul_le hsib).mpr ?_)
  rw [Nat.mul_comm m]
  exact Nat.le_add_left _ _

/-- Reading `count` sectors of a block, from its offset `o` on, as the write does it. -/
theorem readBlock_ok (dev : BootDev α) (hok : env.AllOk) (bootnum block o count bufp : Nat)
    (buf : Nat → α) (hb : block < 2 ^ 16)
    (hbase : bootFirstPage bootnum * sectcntInPage g bootnum ≤
      sectcntInPage g bootnum * g.pageCntOfPhyBlk * block)
    (ho : o + count ≤ sectcntInPage g bootnum * g.pageCntOfPhyBlk) :
    ∃ dev', bootareaRead env g dev
        (u32 (sub32 (block * (sectcntInPage g bootnum * g.pageCntOfPhyBlk))
          (bootFirstPage bootnum * sectcntInPage g bootnum) + o)) count buf bufp bootnum =
        (dev', 0, store buf bufp count fun i => sectorAt env g (sectcntInPage g bootnum) dev.flash
          (sectcntInPage g bootnum * g.pageCntOfPhyBlk * block + o + i)) ∧
      dev'.flash = dev.flash := by
  have hsib := sectcntInBlock_le g bootnum
  have hend : sectcntInPage g bootnum * g.pageCntOfPhyBlk * (block + 1) ≤
      sectcntInPage g bootnum * g.pageCntOfPhyBlk * 2 ^ 16 := Nat.mul_le_mul_left _ hb
  rw [Nat.mul_succ] at hend
  rw [Nat.mul_comm block, sub32_of_le hbase (by omega), u32_of_lt (by omega)]
  have hfirst : bootFirstPage bootnum * sectcntInPage g bootnum +
      (sectcntInPage g bootnum * g.pageCntOfPhyBlk * block -
        bootFirstPage bootnum * sectcntInPage g bootnum + o) =
      sectcntInPage g bootnum * g.pageCntOfPhyBlk * block + o := by omega
  obtain ⟨dev', buf', hread, hflash, hbuf⟩ := bootareaRead_ok dev hok bootnum _ count bufp buf
    (by rw [hfirst]; omega)
  rw [hfirst] at hbuf
  exact ⟨dev', by rw [hread, hbuf], hflash⟩

/-- The last block takes its first sectors from the buffer and keeps the rest. -/
theorem writeTail_ok (hok : env.AllOk) {bootnum t : Nat} (buf : Nat → α) {s : WriteState α}
    (hres : s.res = 0) (ht : t ≤ sectcntInPage g bootnum * g.pageCntOfPhyBlk)
    (hb : 0 < t → s.block < 2 ^ 16)
    (hbase : bootFirstPage bootnum * sectcntInPage g bootnum ≤
      sectcntInPage g bootnum * g.pageCntOfPhyBlk * s.block) :
    ∃ dev', writeTail env g buf bootnum t s = (dev', 0) ∧
      (∀ b, b < s.block ∨ (s.block ≤ b ∧ t = 0) ∨ s.block < b → dev'.flash b = s.dev.flash b) ∧
      sectorAt env g (sectcntInPage g bootnum) dev'.flash =
        store (sectorAt env g (sectcntInPage g bootnum) s.dev.flash)
          (sectcntInPage g bootnum * g.pageCntOfPhyBlk * s.block) t fun i => buf (s.bufp + i) := by
  have hspp := sectcntInPage_pos g bootnum
  rcases Nat.eq_zero_or_pos t with rfl | hpos
  · exact ⟨s.dev, by simp [writeTail, hres], fun _ _ => rfl, by simp⟩
  · obtain ⟨dev, hread, hflash⟩ := readBlock_ok s.dev hok bootnum s.block t
      (sectcntInPage g bootnum * g.pageCntOfPhyBlk - t) t
      (store s.pageCache 0 t fun i => buf (s.bufp + i)) (hb hpos) hbase (by omega)
    obtain ⟨dev', hw, hkeep, hstore⟩ := rewriteBlock_ok (g := g) dev hok hspp
      (store (store s.pageCache 0 t fun i => buf (s.bufp + i)) t
        (sectcntInPage g bootnum * g.pageCntOfPhyBlk - t)
        fun i => sectorAt env g (sectcntInPage g bootnum) s.dev.flash
          (sectcntInPage g bootnum * g.pageCntOfPhyBlk * s.block + t + i)) (hb hpos)
    refine ⟨dev', ?_, fun b hb => ?_, ?_⟩
    · rw [writeTail, if_pos ⟨hres, hpos⟩, hread]
      exact hw
    · rw [hkeep b (by omega), hflash]
    · rw [hstore, hflash]
      have hlen : sectcntInPage g bootnum * g.pageCntOfPhyBlk =
        t + (sectcntInPage g bootnum * g.pageCntOfPhyBlk - t) := by omega
      generalize sectcntInPage g bootnum * g.pageCntOfPhyBlk - t = n at *
      generalize sectcntInPage g bootnum * g.pageCntOfPhyBlk * s.block = off at *
      rw [hlen, store_keep_tail fun i hi => ?_]
      · refine store_congr fun i hi => ?_
        rw [store_out (by omega), store_in (Nat.zero_le _) (by omega), Nat.sub_zero]
      · rw [store_in (by omega) (by omega), Nat.add_sub_cancel_left]

/-- The sectors before the range, as the bounce buffer gets them. -/
theorem fillHead_read (dev : BootDev α) (hok : env.AllOk) (bootnum block bs : Nat)
    (buf : Nat → α) (hb : block < 2 ^ 16)
    (hlt : bs < sectcntInPage g bootnum * g.pageCntOfPhyBlk)
    (hbase : bootFirstPage bootnum * sectcntInPage g bootnum ≤
      sectcntInPage g bootnum * g.pageCntOfPhyBlk * block) :
    ∃ dev', bootareaRead env g dev
        (sub32 (block * (sectcntInPage g bootnum * g.pageCntOfPhyBlk))
          (bootFirstPage bootnum * sectcntInPage g bootnum)) bs buf 0 bootnum =
        (dev', 0, store buf 0 bs fun i => sectorAt env g (sectcntInPage g bootnum) dev.flash
          (sectcntInPage g bootnum * g.pageCntOfPhyBlk * block + i)) ∧
      dev'.flash = dev.flash := by
  obtain ⟨dev', hread, hflash⟩ := readBlock_ok dev hok bootnum block 0 bs 0 buf hb hbase (by omega)
  rw [Nat.add_zero, u32_of_lt (sub32_lt _ _)] at hread
  exact ⟨dev', hread, hflash⟩

theorem writeHead_zero (buf : Nat → α) (bootnum : Nat) (s : WriteState α) :
    writeHead env g buf bootnum 0 s = s := by
  rw [writeHead, if_neg (Nat.lt_irrefl 0)]

/-- The first block, when the range reaches its end: the sectors before the range keep, the
others take the buffer. -/
theorem writeHead_long (dev : BootDev α) (hok : env.AllOk) (bootnum bs block count : Nat)
    (buf junk : Nat → α) (hbs : 0 < bs)
    (hlt : bs < sectcntInPage g bootnum * g.pageCntOfPhyBlk)
    (hlong : sectcntInPage g bootnum * g.pageCntOfPhyBlk ≤ bs + count)
    (hcount : bs + count < 2 ^ 32) (hb : block < 2 ^ 16)
    (hbase : bootFirstPage bootnum * sectcntInPage g bootnum ≤
      sectcntInPage g bootnum * g.pageCntOfPhyBlk * block) :
    ∃ s', writeHead env g buf bootnum bs ⟨dev, 0, block, count, 0, junk⟩ = s' ∧ s'.res = 0 ∧
      s'.block = block + 1 ∧
      s'.count = count - (sectcntInPage g bootnum * g.pageCntOfPhyBlk - bs) ∧
      s'.bufp = sectcntInPage g bootnum * g.pageCntOfPhyBlk - bs ∧
      (∀ b, b ≠ block → s'.dev.flash b = dev.flash b) ∧
      sectorAt env g (sectcntInPage g bootnum) s'.dev.flash =
        store (sectorAt env g (sectcntInPage g bootnum) dev.flash)
          (sectcntInPage g bootnum * g.pageCntOfPhyBlk * block + bs)
          (sectcntInPage g bootnum * g.pageCntOfPhyBlk - bs) buf := by
  obtain ⟨dev₁, hread, hflash⟩ := fillHead_read dev hok bootnum block bs junk hb hlt hbase
  have hfill : ∃ cache, fillHead env g buf bootnum bs ⟨dev, 0, block, count, 0, junk⟩ =
      (dev₁, 0, count - (sectcntInPage g bootnum * g.pageCntOfPhyBlk - bs), cache) ∧
      cache = store (store junk 0 bs fun i => sectorAt env g (sectcntInPage g bootnum) dev.flash
        (sectcntInPage g bootnum * g.pageCntOfPhyBlk * block + i)) bs
        (sectcntInPage g bootnum * g.pageCntOfPhyBlk - bs) fun i => buf (0 + i) := by
    refine ⟨_, ?_, rfl⟩
    rw [fillHead, hread]
    simp only [if_true]
    rw [fillRest, if_neg (by rw [u32_of_lt hcount]; omega)]
    dsimp only
    rw [sub32_of_le (show sectcntInPage g bootnum * g.pageCntOfPhyBlk - bs ≤ count by omega)
      (by omega)]
  obtain ⟨cache, hfill, hcache⟩ := hfill
  obtain ⟨dev₂, hw, hkeep, hstore⟩ :=
    rewriteBlock_ok (g := g) dev₁ hok (sectcntInPage_pos g bootnum) cache hb
  refine ⟨_, rfl, ?_⟩
  rw [writeHead, if_pos hbs, hfill]
  simp only [if_true, hw, Nat.zero_add, true_and]
  refine ⟨fun b hne => by rw [hkeep b hne, hflash], ?_⟩
  rw [hstore, hflash]
  have hlen : sectcntInPage g bootnum * g.pageCntOfPhyBlk =
    bs + (sectcntInPage g bootnum * g.pageCntOfPhyBlk - bs) := by omega
  generalize sectcntInPage g bootnum * g.pageCntOfPhyBlk - bs = n at *
  generalize sectcntInPage g bootnum * g.pageCntOfPhyBlk * block = off at *
  rw [hlen, store_keep_head fun i hi => ?_]
  · refine store_congr fun i hi => ?_
    rw [hcache, store_in (by omega) (by omega), Nat.add_sub_cancel_left, Nat.zero_add]
  · rw [hcache, store_out (by omega), store_in (Nat.zero_le _) (by omega), Nat.sub_zero]

/-- The first block, when the range ends inside it: the rest of the block is refilled from
`count` sectors after the block's start, not from the end of the range. -/
theorem writeHead_short (dev : BootDev α) (hok : env.AllOk) (bootnum bs block count : Nat)
    (buf junk : Nat → α) (hbs : 0 < bs)
    (hshort : bs + count < sectcntInPage g bootnum * g.pageCntOfPhyBlk) (hb : block < 2 ^ 16)
    (hbase : bootFirstPage bootnum * sectcntInPage g bootnum ≤
      sectcntInPage g bootnum * g.pageCntOfPhyBlk * block) :
    ∃ s', writeHead env g buf bootnum bs ⟨dev, 0, block, count, 0, junk⟩ = s' ∧ s'.res = 0 ∧
      s'.block = block + 1 ∧ s'.count = 0 ∧
      (∀ b, b ≠ block → s'.dev.flash b = dev.flash b) ∧
      sectorAt env g (sectcntInPage g bootnum) s'.dev.flash =
        store (store (sectorAt env g (sectcntInPage g bootnum) dev.flash)
            (sectcntInPage g bootnum * g.pageCntOfPhyBlk * block + bs) count buf)
          (sectcntInPage g bootnum * g.pageCntOfPhyBlk * block + bs + count)
          (sectcntInPage g bootnum * g.pageCntOfPhyBlk - bs - count)
          fun i => sectorAt env g (sectcntInPage g bootnum) dev.flash
            (sectcntInPage g bootnum * g.pageCntOfPhyBlk * block + count + i) := by
  have hsib := sectcntInBlock_le g bootnum
  obtain ⟨dev₁, hread, hflash⟩ := fillHead_read dev hok bootnum block bs junk hb (by omega) hbase
  obtain ⟨dev₂, hread₂, hflash₂⟩ := readBlock_ok dev₁ hok bootnum block count
    (sectcntInPage g bootnum * g.pageCntOfPhyBlk - bs - count) (bs + count)
    (store (store junk 0 bs fun i => sectorAt env g (sectcntInPage g bootnum) dev.flash
      (sectcntInPage g bootnum * g.pageCntOfPhyBlk * block + i)) bs count fun i => buf (0 + i))
    hb hbase (by omega)
  obtain ⟨cache, hfill, hcache⟩ : ∃ cache,
      fillHead env g buf bootnum bs ⟨dev, 0, block, count, 0, junk⟩ = (dev₂, 0, 0, cache) ∧
      cache = store (store (store junk 0 bs fun i =>
        sectorAt env g (sectcntInPage g bootnum) dev.flash
          (sectcntInPage g bootnum * g.pageCntOfPhyBlk * block + i)) bs count
            fun i => buf (0 + i)) (bs + count)
        (sectcntInPage g bootnum * g.pageCntOfPhyBlk - bs - count)
        fun i => sectorAt env g (sectcntInPage g bootnum) dev.flash
          (sectcntInPage g bootnum * g.pageCntOfPhyBlk * block + count + i) := by
    refine ⟨_, ?_, rfl⟩
    rw [fillHead, hread]
    simp only [if_true]
    rw [fillRest, if_pos (by rw [u32_of_lt (by simp only; omega)]; exact hshort), hread₂, hflash]
  obtain ⟨dev₃, hw, hkeep, hstore⟩ :=
    rewriteBlock_ok (g := g) dev₂ hok (sectcntInPage_pos g bootnum) cache hb
  refine ⟨_, rfl, ?_⟩
  rw [writeHead, if_pos hbs, hfill]
  simp only [if_true, hw, true_and]
  refine ⟨fun b hne => by rw [hkeep b hne, hflash₂, hflash], ?_⟩
  rw [hstore, hflash₂, hflash]
  have hlen : sectcntInPage g bootnum * g.pageCntOfPhyBlk =
    bs + (count + (sectcntInPage g bootnum * g.pageCntOfPhyBlk - bs - count)) := by omega
  generalize sectcntInPage g bootnum * g.pageCntOfPhyBlk - bs - count = n at *
  generalize sectcntInPage g bootnum * g.pageCntOfPhyBlk * block = off at *
  have hbefore : ∀ i < bs, cache i = sectorAt env g (sectcntInPage g bootnum) dev.flash (off + i) := by
    intro i hi
    rw [hcache, store_out (by omega), store_out (by omega), store_in (Nat.zero_le _) (by omega),
      Nat.sub_zero]
  have hdata : ∀ i < count, cache (bs + i) = buf i := by
    intro i hi
    rw [hcache, store_out (by omega), store_in (by omega) (by omega), Nat.add_sub_cancel_left,
      Nat.zero_add]
  rw [hlen, store_keep_head hbefore, ← store_split, store_congr hdata]
  refine store_congr fun i hi => ?_
  rw [hcache, store_in (by omega) (by omega), ← Nat.add_assoc, Nat.add_sub_cancel_left]

/-- From the start of a block on, whole blocks and the last block store the range. -/
theorem writeRest_ok (hok : env.AllOk) (bootnum : Nat) (buf : Nat → α) (s : WriteState α)
    (hres : s.res = 0)
    (hfit : sectcntInPage g bootnum * g.pageCntOfPhyBlk * s.block + s.count ≤
      sectcntInPage g bootnum * g.pageCntOfPhyBlk * 2 ^ 16)
    (hbase : bootFirstPage bootnum * sectcntInPage g bootnum ≤
      sectcntInPage g bootnum * g.pageCntOfPhyBlk * s.block) :
    ∃ dev', writeTail env g buf bootnum (s.count % (sectcntInPage g bootnum * g.pageCntOfPhyBlk))
        (writeWhole env g (sectcntInPage g bootnum) buf
          (s.count / (sectcntInPage g bootnum * g.pageCntOfPhyBlk)) s) = (dev', 0) ∧
      (∀ b, b < s.block ∨ sectcntInPage g bootnum * g.pageCntOfPhyBlk * s.block + s.count ≤
        sectcntInPage g bootnum * g.pageCntOfPhyBlk * b → dev'.flash b = s.dev.flash b) ∧
      sectorAt env g (sectcntInPage g bootnum) dev'.flash =
        store (sectorAt env g (sectcntInPage g bootnum) s.dev.flash)
          (sectcntInPage g bootnum * g.pageCntOfPhyBlk * s.block) s.count
          fun i => buf (s.bufp + i) := by
  have hspp := sectcntInPage_pos g bootnum
  have hsib := Nat.mul_pos hspp g.pages_pos
  have hdiv := Nat.div_add_mod s.count (sectcntInPage g bootnum * g.pageCntOfPhyBlk)
  have ht := Nat.mod_lt s.count hsib
  generalize s.count / (sectcntInPage g bootnum * g.pageCntOfPhyBlk) = n at *
  generalize s.count % (sectcntInPage g bootnum * g.pageCntOfPhyBlk) = t at *
  have hn : s.block + n ≤ 2 ^ 16 := by
    refine Nat.le_of_mul_le_mul_left ?_ hsib
    rw [Nat.mul_add]
    omega
  obtain ⟨s', hw, hres', hblock, hbufp, hkeep, hstore⟩ :=
    writeWhole_ok hok hspp buf n s hres hn
  have hblock' : sectcntInPage g bootnum * g.pageCntOfPhyBlk * s'.block =
      sectcntInPage g bootnum * g.pageCntOfPhyBlk * s.block +
        n * (sectcntInPage g bootnum * g.pageCntOfPhyBlk) := by
    rw [hblock, Nat.mul_add, Nat.mul_comm n]
  have htb : 0 < t → s'.block < 2 ^ 16 := by
    intro hpos
    refine Nat.lt_of_mul_lt_mul_left (a := sectcntInPage g bootnum * g.pageCntOfPhyBlk) ?_
    rw [hblock', Nat.mul_comm n]
    omega
  obtain ⟨dev', htail, hkeep', hstore'⟩ := writeTail_ok hok buf hres' ht.le htb
    (by rw [hblock']; exact Nat.le_add_right_of_le hbase)
  have hcount : s.count = n * (sectcntInPage g bootnum * g.pageCntOfPhyBlk) + t := by
    rw [Nat.mul_comm n]; exact hdiv.symm
  refine ⟨dev', by rw [hw, htail], fun b hb => ?_, ?_⟩
  · have hb' : b < s.block ∨ s.block + n ≤ b ∧ (t = 0 ∨ s.block + n < b) := by
      rcases hb with hb | hb
      · exact .inl hb
      · refine .inr ⟨Nat.le_of_mul_le_mul_left (a := _) ?_ hsib, ?_⟩
        · rw [Nat.mul_add]
          omega
        · rcases Nat.eq_zero_or_pos t with h0 | hpos
          · exact .inl h0
          · refine .inr (Nat.lt_of_mul_lt_mul_left
              (a := sectcntInPage g bootnum * g.pageCntOfPhyBlk) ?_)
            rw [Nat.mul_add]
            omega
    rw [hkeep' b (by omega), hkeep b (by omega)]
  · rw [hstore', hstore, hblock', hbufp, hcount, ← store_split]
    simp only [Nat.add_assoc]

end Spec

/-! ## The write as a whole -/

/-- The place of an area's sector on the chip. -/
def chipSector (g : BootGeometry) (bootnum first : Nat) : Nat :=
  first + bootFirstPage bootnum * sectcntInPage g bootnum

/-- A write of a range: it succeeds, the range holds the buffer, every other sector holds what
it held, and blocks without a sector of the range are not touched at all. -/
def StoresRange (env : BootEnv α) (g : BootGeometry) (bootnum : Nat) (dev : BootDev α)
    (first count : Nat) (buf : Nat → α) (r : BootDev α × Int) : Prop :=
  r.2 = 0 ∧
    (∀ x, sectorAt env g (sectcntInPage g bootnum) r.1.flash x =
      store (sectorAt env g (sectcntInPage g bootnum) dev.flash) (chipSector g bootnum first)
        count buf x) ∧
    ∀ b, (b < chipSector g bootnum first / (sectcntInPage g bootnum * g.pageCntOfPhyBlk) ∨
        chipSector g bootnum first + count ≤
          sectcntInPage g bootnum * g.pageCntOfPhyBlk * b) → r.1.flash b = dev.flash b

/-- The range starts at a block boundary, or it reaches the end of its first block, or the
sectors from `count` on in that block happen to equal those after the range. -/
def RestUnshifted (env : BootEnv α) (g : BootGeometry) (bootnum : Nat) (dev : BootDev α)
    (first count : Nat) : Prop :=
  let sib := sectcntInPage g bootnum * g.pageCntOfPhyBlk
  let x := chipSector g bootnum first
  x % sib = 0 ∨ sib ≤ x % sib + count ∨
    ∀ i < sib - x % sib - count, sectorAt env g (sectcntInPage g bootnum) dev.flash
      (sib * (x / sib) + count + i) =
        sectorAt env g (sectcntInPage g bootnum) dev.flash (x + count + i)

section Whole

variable {env : BootEnv α} {g : BootGeometry}

theorem bootareaWrite_eq {bootnum first count : Nat} {dev : BootDev α} {buf junk : Nat → α}
    {s : WriteState α} (hx : chipSector g bootnum first < 2 ^ 32)
    (hs : writeHead env g buf bootnum
      (chipSector g bootnum first % (sectcntInPage g bootnum * g.pageCntOfPhyBlk))
      ⟨dev, 0, chipSector g bootnum first / (sectcntInPage g bootnum * g.pageCntOfPhyBlk), count,
        0, junk⟩ = s) :
    bootareaWrite env g junk dev first count buf bootnum =
      writeTail env g buf bootnum (s.count % (sectcntInPage g bootnum * g.pageCntOfPhyBlk))
        (writeWhole env g (sectcntInPage g bootnum) buf
          (s.count / (sectcntInPage g bootnum * g.pageCntOfPhyBlk)) s) := by
  subst hs
  unfold chipSector at *
  rw [bootareaWrite, u32_of_lt hx]

theorem chipSector_lt {bootnum first count : Nat}
    (hfit : chipSector g bootnum first + count ≤
      sectcntInPage g bootnum * g.pageCntOfPhyBlk * 2 ^ 16) :
    chipSector g bootnum first + count < 2 ^ 32 := by
  have := sectcntInBlock_le g bootnum
  omega

/-- A range that starts at a block boundary. -/
theorem bootareaWrite_aligned (hok : env.AllOk) (bootnum first count : Nat) (dev : BootDev α)
    (buf junk : Nat → α)
    (hfit : chipSector g bootnum first + count ≤
      sectcntInPage g bootnum * g.pageCntOfPhyBlk * 2 ^ 16)
    (hal : chipSector g bootnum first % (sectcntInPage g bootnum * g.pageCntOfPhyBlk) = 0) :
    StoresRange env g bootnum dev first count buf
      (bootareaWrite env g junk dev first count buf bootnum) := by
  have hx : sectcntInPage g bootnum * g.pageCntOfPhyBlk *
      (chipSector g bootnum first / (sectcntInPage g bootnum * g.pageCntOfPhyBlk)) =
      chipSector g bootnum first := by
    have := Nat.div_add_mod (chipSector g bootnum first)
      (sectcntInPage g bootnum * g.pageCntOfPhyBlk)
    omega
  have hbase := bootBase_le g bootnum first
  change _ ≤ _ * (chipSector g bootnum first / _) at hbase
  obtain ⟨dev', hw, hkeep, hstore⟩ := writeRest_ok hok bootnum buf
    ⟨dev, 0, chipSector g bootnum first / (sectcntInPage g bootnum * g.pageCntOfPhyBlk), count,
      0, junk⟩ rfl (by simp only; omega) hbase
  have hlt := chipSector_lt hfit
  rw [bootareaWrite_eq (by omega) rfl, hal, writeHead_zero, hw]
  simp only [hx, Nat.zero_add] at hkeep hstore
  exact ⟨rfl, fun x => by rw [hstore], hkeep⟩

/-- A range that starts inside a block and reaches its end. -/
theorem bootareaWrite_crossing (hok : env.AllOk) (bootnum first count : Nat) (dev : BootDev α)
    (buf junk : Nat → α)
    (hfit : chipSector g bootnum first + count ≤
      sectcntInPage g bootnum * g.pageCntOfPhyBlk * 2 ^ 16)
    (hin : 0 < chipSector g bootnum first % (sectcntInPage g bootnum * g.pageCntOfPhyBlk))
    (hlong : sectcntInPage g bootnum * g.pageCntOfPhyBlk ≤
      chipSector g bootnum first % (sectcntInPage g bootnum * g.pageCntOfPhyBlk) + count) :
    StoresRange env g bootnum dev first count buf
      (bootareaWrite env g junk dev first count buf bootnum) := by
  have hsib := Nat.mul_pos (sectcntInPage_pos g bootnum) g.pages_pos
  have hdiv := Nat.div_add_mod (chipSector g bootnum first)
    (sectcntInPage g bootnum * g.pageCntOfPhyBlk)
  have hbs := Nat.mod_lt (chipSector g bootnum first) hsib
  have hbase := bootBase_le g bootnum first
  change _ ≤ _ * (chipSector g bootnum first / _) at hbase
  have hlt := chipSector_lt hfit
  have hb : chipSector g bootnum first / (sectcntInPage g bootnum * g.pageCntOfPhyBlk) < 2 ^ 16 :=
    Nat.lt_of_mul_lt_mul_left (a := sectcntInPage g bootnum * g.pageCntOfPhyBlk) (by omega)
  have hmle := Nat.mod_le (chipSector g bootnum first)
    (sectcntInPage g bootnum * g.pageCntOfPhyBlk)
  obtain ⟨s, hhead, hres, hblock, hcount, hbufp, hkeep, hstore⟩ := writeHead_long dev hok bootnum
    _ _ count buf junk hin hbs hlong (by omega) hb hbase
  have hblock' : sectcntInPage g bootnum * g.pageCntOfPhyBlk * s.block =
      sectcntInPage g bootnum * g.pageCntOfPhyBlk *
        (chipSector g bootnum first / (sectcntInPage g bootnum * g.pageCntOfPhyBlk)) +
        sectcntInPage g bootnum * g.pageCntOfPhyBlk := by
    rw [hblock, Nat.mul_add, Nat.mul_one]
  obtain ⟨dev', hw, hkeep', hstore'⟩ := writeRest_ok hok bootnum buf s hres
    (by rw [hblock', hcount]; omega) (by omega)
  rw [bootareaWrite_eq (by omega) hhead, hw, StoresRange]
  generalize chipSector g bootnum first / (sectcntInPage g bootnum * g.pageCntOfPhyBlk) = block at *
  generalize chipSector g bootnum first % (sectcntInPage g bootnum * g.pageCntOfPhyBlk) = bs at *
  refine ⟨rfl, fun x => ?_, fun b hb => ?_⟩
  · have hfirst : sectcntInPage g bootnum * g.pageCntOfPhyBlk * s.block =
        chipSector g bootnum first + (sectcntInPage g bootnum * g.pageCntOfPhyBlk - bs) := by
      omega
    have hall : count = sectcntInPage g bootnum * g.pageCntOfPhyBlk - bs + s.count := by omega
    rw [hstore', hstore, hfirst, hdiv, hbufp, hall, store_split]
  · have hne : b ≠ block := by
      rintro rfl
      omega
    rw [hkeep' b (by omega), hkeep b hne]

/-- A range that starts and ends inside a block. -/
theorem bootareaWrite_inside (hok : env.AllOk) (bootnum first count : Nat) (dev : BootDev α)
    (buf junk : Nat → α)
    (hfit : chipSector g bootnum first + count ≤
      sectcntInPage g bootnum * g.pageCntOfPhyBlk * 2 ^ 16)
    (hin : 0 < chipSector g bootnum first % (sectcntInPage g bootnum * g.pageCntOfPhyBlk))
    (hshort : chipSector g bootnum first % (sectcntInPage g bootnum * g.pageCntOfPhyBlk) + count <
      sectcntInPage g bootnum * g.pageCntOfPhyBlk) :
    StoresRange env g bootnum dev first count buf
        (bootareaWrite env g junk dev first count buf bootnum) ↔
      ∀ i < sectcntInPage g bootnum * g.pageCntOfPhyBlk -
          chipSector g bootnum first % (sectcntInPage g bootnum * g.pageCntOfPhyBlk) - count,
        sectorAt env g (sectcntInPage g bootnum) dev.flash
          (sectcntInPage g bootnum * g.pageCntOfPhyBlk *
            (chipSector g bootnum first / (sectcntInPage g bootnum * g.pageCntOfPhyBlk)) +
              count + i) =
          sectorAt env g (sectcntInPage g bootnum) dev.flash
            (chipSector g bootnum first + count + i) := by
  have hsib := Nat.mul_pos (sectcntInPage_pos g bootnum) g.pages_pos
  have hdiv := Nat.div_add_mod (chipSector g bootnum first)
    (sectcntInPage g bootnum * g.pageCntOfPhyBlk)
  have hbase := bootBase_le g bootnum first
  change _ ≤ _ * (chipSector g bootnum first / _) at hbase
  have hlt := chipSector_lt hfit
  have hb : chipSector g bootnum first / (sectcntInPage g bootnum * g.pageCntOfPhyBlk) < 2 ^ 16 :=
    Nat.lt_of_mul_lt_mul_left (a := sectcntInPage g bootnum * g.pageCntOfPhyBlk) (by omega)
  obtain ⟨s, hhead, hres, hblock, hcount, hkeep, hstore⟩ := writeHead_short dev hok bootnum _ _
    count buf junk hin hshort hb hbase
  have hrun : bootareaWrite env g junk dev first count buf bootnum = (s.dev, 0) := by
    rw [bootareaWrite_eq (by omega) hhead, hcount, Nat.zero_mod, Nat.zero_div]
    simp [writeWhole, writeTail, hres]
  rw [hdiv] at hstore
  rw [hrun, ← store_append_eq_iff (sectorAt env g (sectcntInPage g bootnum) dev.flash) buf
    (fun i => sectorAt env g (sectcntInPage g bootnum) dev.flash (_ + i)), ← hstore]
  refine ⟨fun h => funext h.2.1, fun h => ⟨rfl, fun x => congrFun h x, fun b hb => hkeep b ?_⟩⟩
  rintro rfl
  omega

end Whole

/-- The smallest chips: 64 pages of 4 sectors in a block. -/
def smallGeometry : BootGeometry where
  pageCntOfPhyBlk := 64
  sectorCntOfSinglePage := 4
  pages_pos := by decide
  sectors_pos := by decide
  pages_dvd := by decide
  small := by decide

/-- A chip on which every operation succeeds. -/
def quietEnv : BootEnv Nat := ⟨fun _ => 0, fun _ _ => 0, 0⟩

/-- Boot area 0 with each sector holding its own number. -/
def numberedDev : BootDev Nat := ⟨fun _ page => some fun i => 2 * page + i, 0⟩

end Novo7
