import Novo7.BootArea

/-!
# Reading a boot area

When every page read succeeds, `bootarea_read` stores exactly the sectors asked for and
nothing else (`bootareaRead_ok`). The three parts — head page, whole pages, tail page — each
copy a stretch of the chip's sector array to the next stretch of the buffer.
-/

namespace Novo7

open Machine Buffer

variable {α : Type} {env : BootEnv α} {g : BootGeometry}

/-! ## What a read returns -/

theorem readPageNo_ok (spp : Nat) (dev : BootDev α) (hok : env.AllOk) {pg : Nat}
    (hpg : pg < 2 ^ 16 * g.pageCntOfPhyBlk) :
    ∃ data, readPageNo env g dev pg = (⟨dev.flash, dev.ops + 1⟩, 0, data) ∧
      ∀ i < spp, data i = sectorAt env g spp dev.flash (spp * pg + i) := by
  have hppb := Nat.le_of_dvd (by decide) g.pages_dvd
  have hblock : pg / g.pageCntOfPhyBlk < 2 ^ 16 := Nat.div_lt_of_lt_mul (by rwa [Nat.mul_comm])
  have hpage : pg % g.pageCntOfPhyBlk < 2 ^ 16 :=
    Nat.lt_of_lt_of_le (Nat.mod_lt _ g.pages_pos) (by omega)
  refine ⟨pageContent env dev.flash (pg / g.pageCntOfPhyBlk) (pg % g.pageCntOfPhyBlk), ?_, ?_⟩
  · simp only [readPageNo, readSinglePage, hok dev.ops, Nat.mod_eq_of_lt hblock,
      Nat.mod_eq_of_lt hpage, Int.le_refl, if_true]
  · intro i hi
    exact (sectorAt_page hi).symm

theorem readWhole_ok (spp : Nat) (hok : env.AllOk) (hlim : 2 ^ 16 * g.pageCntOfPhyBlk < 2 ^ 32) :
    ∀ {n : Nat} {s : ReadState α}, s.res = 0 → s.first + n ≤ 2 ^ 16 * g.pageCntOfPhyBlk →
      ∃ s', readWhole env g spp n s = s' ∧ s'.dev.flash = s.dev.flash ∧ s'.res = 0 ∧
        s'.first = s.first + n ∧ s'.bufp = s.bufp + n * spp ∧
        s'.buf = store s.buf s.bufp (n * spp)
          fun i => sectorAt env g spp s.dev.flash (spp * s.first + i)
  | 0, s, hres, _ => ⟨s, rfl, rfl, hres, rfl, by simp, by simp⟩
  | n + 1, s, hres, hfit => by
      obtain ⟨data, hread, hdata⟩ :=
        readPageNo_ok (g := g) spp s.dev hok (show s.first < _ by omega)
      obtain ⟨s', hs', h1, h2, h3, h4, h5⟩ := readWhole_ok spp hok hlim (n := n)
        (s := ⟨⟨s.dev.flash, s.dev.ops + 1⟩, 0, s.first + 1, n, store s.buf s.bufp spp data,
          s.bufp + spp⟩) rfl (by simp only; omega)
      simp only at h1 h3 h4 h5
      rw [store_congr hdata] at h5
      refine ⟨s', ?_, h1, h2, by omega, ?_, ?_⟩
      · rw [readWhole, if_pos hres, hread, u32_of_lt (by omega)]
        exact hs'
      · rw [h4, Nat.add_mul, Nat.one_mul, Nat.add_comm (n * spp), Nat.add_assoc]
      · simp only [Nat.mul_add, Nat.mul_one, Nat.add_assoc] at h5
        rw [h5, Nat.add_mul, Nat.one_mul, Nat.add_comm (n * spp), ← store_split]

/-- The first page, from `r` on, goes to the start of the buffer. -/
theorem readHead_ok (dev : BootDev α) (hok : env.AllOk) (count bufp : Nat) (buf : Nat → α)
    {r pg : Nat} (hr : r < spp)
    (hpg : 0 < r → pg < 2 ^ 16 * g.pageCntOfPhyBlk) (hlim : 2 ^ 16 * g.pageCntOfPhyBlk < 2 ^ 32)
    (hcount : r + count < 2 ^ 32) :
    ∃ s c, readHead env g spp r ⟨dev, 0, pg, count, buf, bufp⟩ = s ∧ c ≤ count ∧
      s.dev.flash = dev.flash ∧ s.res = 0 ∧ s.count = count - c ∧
      s.buf = store buf bufp c (fun i => sectorAt env g spp dev.flash (spp * pg + r + i)) ∧
      (0 < s.count → s.bufp = bufp + c ∧ spp * s.first = spp * pg + r + c) := by
  rcases Nat.eq_zero_or_pos r with rfl | hpos
  · exact ⟨⟨dev, 0, pg, count, buf, bufp⟩, 0, by simp [readHead], Nat.zero_le _, rfl, rfl, rfl,
      by simp, fun _ => ⟨rfl, rfl⟩⟩
  · obtain ⟨data, hread, hdata⟩ := readPageNo_ok (g := g) spp dev hok (hpg hpos)
    have hpg := hpg hpos
    have hsrc : ∀ n ≤ spp - r, store buf bufp n (fun i => data (r + i)) =
        store buf bufp n fun i => sectorAt env g spp dev.flash (spp * pg + r + i) := by
      intro n hn
      refine store_congr fun i hi => ?_
      rw [hdata (r + i) (by omega), Nat.add_assoc]
    simp only [readHead, if_pos hpos, hread, if_true, u32_of_lt hcount,
      u32_of_lt (show pg + 1 < 2 ^ 32 by omega)]
    by_cases hshort : r + count < spp
    · rw [if_pos hshort]
      refine ⟨_, count, rfl, Nat.le_refl _, rfl, rfl, (Nat.sub_self _).symm,
        hsrc count (by omega), fun h => absurd h (Nat.lt_irrefl 0)⟩
    · rw [if_neg hshort, sub32_of_le (by omega) (by omega)]
      refine ⟨_, spp - r, rfl, by omega, rfl, rfl, rfl, hsrc _ (Nat.le_refl _), fun _ => ⟨rfl, ?_⟩⟩
      simp only [Nat.mul_add, Nat.mul_one]
      omega

/-- The first sectors of the last page. -/
theorem readTail_ok (spp : Nat) (hok : env.AllOk) {t : Nat} {s : ReadState α} (hres : s.res = 0)
    (ht : t ≤ spp) (hpg : 0 < t → s.first < 2 ^ 16 * g.pageCntOfPhyBlk) :
    ∃ s', readTail env g t s = s' ∧ s'.dev.flash = s.dev.flash ∧ s'.res = 0 ∧
      s'.buf = store s.buf s.bufp t fun i => sectorAt env g spp s.dev.flash (spp * s.first + i) := by
  rcases Nat.eq_zero_or_pos t with rfl | hpos
  · exact ⟨s, by simp [readTail], rfl, hres, by simp⟩
  · obtain ⟨data, hread, hdata⟩ := readPageNo_ok (g := g) spp s.dev hok (hpg hpos)
    simp only [readTail, hres, hpos, and_self, if_true, hread]
    exact ⟨_, rfl, rfl, rfl, store_congr fun i hi => hdata i (by omega)⟩

/-- When every page read succeeds, `bootarea_read` stores exactly the sectors asked for. -/
theorem bootareaRead_ok (dev : BootDev α) (hok : env.AllOk) (bootnum first count bufp : Nat)
    (buf : Nat → α)
    (hfit : bootFirstPage bootnum * sectcntInPage g bootnum + first + count ≤
      2 ^ 16 * (sectcntInPage g bootnum * g.pageCntOfPhyBlk)) :
    ∃ dev' buf', bootareaRead env g dev first count buf bufp bootnum = (dev', 0, buf') ∧
      dev'.flash = dev.flash ∧
      buf' = store buf bufp count fun i => sectorAt env g (sectcntInPage g bootnum) dev.flash
        (bootFirstPage bootnum * sectcntInPage g bootnum + first + i) := by
  have hspp := sectcntInPage_pos g bootnum
  have hsib := sectcntInBlock_le g bootnum
  have hppb : g.pageCntOfPhyBlk ≤ 512 := Nat.le_of_dvd (by decide) g.pages_dvd
  have hbase : bootFirstPage bootnum ≤ 512 := by unfold bootFirstPage; split <;> omega
  unfold bootareaRead
  simp only
  generalize sectcntInPage g bootnum = spp at *
  generalize bootFirstPage bootnum = base at *
  have hlim : 2 ^ 16 * g.pageCntOfPhyBlk < 2 ^ 32 := by omega
  have htotal : 2 ^ 16 * (spp * g.pageCntOfPhyBlk) ≤ 2 ^ 31 := by omega
  have hpages : 2 ^ 16 * (spp * g.pageCntOfPhyBlk) = spp * (2 ^ 16 * g.pageCntOfPhyBlk) :=
    Nat.mul_left_comm ..
  rw [hpages] at hfit htotal
  have hfirst : spp * (first / spp + base) + first % spp = base * spp + first := by
    have := Nat.div_add_mod first spp
    rw [Nat.mul_add, Nat.mul_comm spp base]
    omega
  have hr : first % spp < spp := Nat.mod_lt _ hspp
  have hpg1 : first / spp + base ≤ 2 ^ 16 * g.pageCntOfPhyBlk :=
    Nat.le_of_mul_le_mul_left (by omega : spp * _ ≤ spp * _) hspp
  rw [u32_of_lt (by omega)]
  generalize first / spp + base = pg at *
  generalize first % spp = r at *
  rw [← hfirst] at hfit ⊢
  have hpgr : 0 < r → pg < 2 ^ 16 * g.pageCntOfPhyBlk := fun _ =>
    Nat.lt_of_mul_lt_mul_left (by omega : spp * pg < spp * _)
  obtain ⟨s, c, hhead, hc, hf1, hres1, hcnt, hbuf1, hnext⟩ :=
    readHead_ok dev hok count bufp buf hr hpgr hlim (by omega)
  rw [hhead]
  rcases Nat.eq_zero_or_pos s.count with h0 | hpos
  · obtain rfl : c = count := by omega
    rw [h0, Nat.zero_div, Nat.zero_mod]
    exact ⟨s.dev, s.buf, by simp [readWhole, readTail, hres1], hf1, hbuf1⟩
  · obtain ⟨hbufp, hsfirst⟩ := hnext hpos
    have hdiv := Nat.div_add_mod s.count spp
    have ht : s.count % spp < spp := Nat.mod_lt _ hspp
    generalize s.count / spp = n at *
    generalize s.count % spp = t at *
    have hsn : s.first + n ≤ 2 ^ 16 * g.pageCntOfPhyBlk := by
      refine Nat.le_of_mul_le_mul_left (?_ : spp * (s.first + n) ≤ spp * _) hspp
      rw [Nat.mul_add]
      omega
    obtain ⟨s', hwhole, hf2, hres2, hfirst2, hbufp2, hbuf2⟩ :=
      readWhole_ok spp hok hlim hres1 hsn
    have htpg : 0 < t → s'.first < 2 ^ 16 * g.pageCntOfPhyBlk := by
      intro hpos
      refine Nat.lt_of_mul_lt_mul_left (?_ : spp * s'.first < spp * _)
      rw [hfirst2, Nat.mul_add]
      omega
    obtain ⟨s'', htail, hf3, hres3, hbuf3⟩ := readTail_ok spp hok hres2 ht.le htpg
    rw [hwhole, htail]
    refine ⟨s''.dev, s''.buf, by rw [hres3], by rw [hf3, hf2, hf1], ?_⟩
    -- the three copies lie end to end in the buffer, and so do their sectors
    have hsplit : count = c + (n * spp + t) := by rw [Nat.mul_comm n]; omega
    rw [hbuf3, hbuf2, hbuf1, hbufp2, hf2, hf1, hfirst2, hbufp, hsplit, ← store_split,
      ← store_split]
    have hA : (fun i => sectorAt env g spp dev.flash (spp * s.first + i)) =
        fun i => sectorAt env g spp dev.flash (spp * pg + r + (c + i)) := by
      funext i
      rw [hsfirst, Nat.add_assoc]
    have hB : (fun i => sectorAt env g spp dev.flash (spp * (s.first + n) + i)) =
        fun i => sectorAt env g spp dev.flash (spp * pg + r + (c + (n * spp + i))) := by
      funext i
      rw [Nat.mul_add, hsfirst, Nat.mul_comm n spp, Nat.add_assoc, Nat.add_assoc]
    rw [hA, hB]

end Novo7
