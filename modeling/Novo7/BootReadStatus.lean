import Novo7.BootCommands

/-!
# Statuses of boot area reads

A page read has three outcomes: it succeeded, it succeeded but the page should be looked after, or
it failed. `bootarea_read` carries them in the variable that stops its loops, and stops at the
second as at the third. `bootareaRead_exact_iff` says that a read stores what it was asked for
exactly if no page on its way has anything but plain success to report.
-/

namespace Novo7

open Machine Buffer

variable {α : Type} {env : BootEnv α} {g : BootGeometry}

/-! ## The pages of a read -/

/-- The sectors left for whole pages and the last one, after `r` sectors of the first page were
skipped. -/
def restCount (spp r count : Nat) : Nat := if r > 0 then count - (spp - r) else count

/-- How many pages `bootarea_read` reads for a range. -/
def pageReads (g : BootGeometry) (bootnum first count : Nat) : Nat :=
  let spp := sectcntInPage g bootnum
  let rest := restCount spp (first % spp) count
  (if first % spp > 0 then 1 else 0) + rest / spp + if rest % spp > 0 then 1 else 0

/-- The next `n` operations succeed, with nothing to be done about it. -/
def PlainReads (env : BootEnv α) (ops n : Nat) : Prop := ∀ i < n, env.status (ops + i) = 0

theorem plainReads_zero (ops : Nat) : PlainReads env ops 0 :=
  fun _ hi => absurd hi (Nat.not_lt_zero _)

theorem plainReads_one {ops : Nat} : PlainReads env ops 1 ↔ env.status ops = 0 := by
  constructor
  · intro h
    exact h 0 Nat.zero_lt_one
  · intro h i hi
    obtain rfl : i = 0 := by omega
    exact h

theorem plainReads_add {ops m n : Nat} :
    PlainReads env ops (m + n) ↔ PlainReads env ops m ∧ PlainReads env (ops + m) n := by
  constructor
  · intro h
    refine ⟨fun i hi => h i (by omega), fun i hi => ?_⟩
    rw [Nat.add_assoc]
    exact h (m + i) (by omega)
  · rintro ⟨hm, hn⟩ i hi
    rcases Nat.lt_or_ge i m with him | him
    · exact hm i him
    · have := hn (i - m) (by omega)
      rwa [show ops + m + (i - m) = ops + i by omega] at this

/-! ## Where the loops stop -/

/-- A part of the read that makes `n` page reads, as far as they are plain. -/
def Reads (env : BootEnv α) (n : Nat) (s t : ReadState α) : Prop :=
  (t.res = 0 ↔ s.res = 0 ∧ PlainReads env s.dev.ops n) ∧ (t.res = 0 → t.dev.ops = s.dev.ops + n)

theorem Reads.trans {m n : Nat} {s t u : ReadState α} (h₁ : Reads env m s t)
    (h₂ : t.res = 0 → Reads env n t u) (hstop : u.res = 0 → t.res = 0) :
    Reads env (m + n) s u := by
  constructor
  · constructor
    · intro hu
      have ht := hstop hu
      obtain ⟨hs, hm⟩ := h₁.1.mp ht
      obtain ⟨-, hn⟩ := (h₂ ht).1.mp hu
      rw [h₁.2 ht] at hn
      exact ⟨hs, plainReads_add.mpr ⟨hm, hn⟩⟩
    · rintro ⟨hs, hmn⟩
      obtain ⟨hm, hn⟩ := plainReads_add.mp hmn
      have ht := h₁.1.mpr ⟨hs, hm⟩
      rw [← h₁.2 ht] at hn
      exact (h₂ ht).1.mpr ⟨ht, hn⟩
  · intro hu
    have ht := hstop hu
    rw [(h₂ ht).2 hu, h₁.2 ht, Nat.add_assoc]

theorem readHead_reads {spp r : Nat} {s : ReadState α} (hs : s.res = 0) :
    Reads env (if r > 0 then 1 else 0) s (readHead env g spp r s) := by
  unfold readHead
  by_cases hr : r > 0
  · rw [if_pos hr, if_pos hr]
    refine ⟨?_, fun _ => rfl⟩
    rw [plainReads_one]
    exact ⟨fun h => ⟨hs, h⟩, fun h => h.2⟩
  · rw [if_neg hr, if_neg hr]
    exact ⟨⟨fun h => ⟨h, plainReads_zero _⟩, fun h => h.1⟩, fun _ => rfl⟩

theorem readWhole_reads {spp : Nat} : ∀ {n : Nat} {s : ReadState α}, s.res = 0 →
    Reads env n s (readWhole env g spp n s)
  | 0, _, _ => ⟨⟨fun h => ⟨h, plainReads_zero _⟩, fun h => h.1⟩, fun _ => rfl⟩
  | n + 1, s, hs => by
      rw [readWhole, if_pos hs, Nat.add_comm n 1]
      refine Reads.trans (t := ⟨_, _, _, n, _, _⟩) ⟨?_, fun _ => rfl⟩ (fun h => readWhole_reads h)
        (fun h => (readWhole_quiet h).1)
      rw [plainReads_one]
      exact ⟨fun h => ⟨hs, h⟩, fun h => h.2⟩

theorem readTail_reads {r : Nat} {s : ReadState α} (hs : s.res = 0) :
    Reads env (if r > 0 then 1 else 0) s (readTail env g r s) := by
  unfold readTail
  by_cases hr : r > 0
  · rw [if_pos hr, if_pos ⟨hs, hr⟩]
    refine ⟨?_, fun _ => rfl⟩
    rw [plainReads_one]
    exact ⟨fun h => ⟨hs, h⟩, fun h => h.2⟩
  · rw [if_neg hr, if_neg fun h => hr h.2]
    exact ⟨⟨fun h => ⟨h, plainReads_zero _⟩, fun h => h.1⟩, fun _ => rfl⟩

/-- The sectors that a first page leaves. -/
theorem readHead_count {spp r count pg bufp : Nat} {buf : Nat → α} {dev : BootDev α}
    (hr : r < spp) (hlt : r + count < 2 ^ 32)
    (h : (readHead env g spp r ⟨dev, 0, pg, count, buf, bufp⟩).res = 0) :
    (readHead env g spp r ⟨dev, 0, pg, count, buf, bufp⟩).count = restCount spp r count := by
  unfold readHead restCount at *
  by_cases hpos : r > 0
  · rw [if_pos hpos] at h
    rw [if_pos hpos, if_pos hpos]
    dsimp only at h ⊢
    rw [if_pos h, u32_of_lt hlt]
    by_cases hshort : r + count < spp
    · rw [if_pos hshort]
      dsimp only
      omega
    · rw [if_neg hshort]
      exact sub32_of_le (by omega) (by omega)
  · rw [if_neg hpos, if_neg hpos]

theorem bootareaRead_res_iff {dev : BootDev α} {first count bufp bootnum : Nat} {buf : Nat → α}
    (hlt : first % sectcntInPage g bootnum + count < 2 ^ 32) :
    (bootareaRead env g dev first count buf bufp bootnum).2.1 = 0 ↔
      PlainReads env dev.ops (pageReads g bootnum first count) := by
  have hspp := sectcntInPage_pos g bootnum
  unfold bootareaRead pageReads
  dsimp only
  generalize sectcntInPage g bootnum = spp at hlt hspp ⊢
  have hr : first % spp < spp := Nat.mod_lt _ hspp
  generalize first % spp = r at hlt hr ⊢
  generalize u32 (first / spp + bootFirstPage bootnum) = pg
  obtain ⟨s₀, hs₀⟩ : ∃ s : ReadState α, s = ⟨dev, 0, pg, count, buf, bufp⟩ := ⟨_, rfl⟩
  have hcount : (readHead env g spp r s₀).res = 0 →
      (readHead env g spp r s₀).count = restCount spp r count := by
    rw [hs₀]
    exact readHead_count hr hlt
  have hhead : Reads env (if r > 0 then 1 else 0) s₀ (readHead env g spp r s₀) :=
    readHead_reads (by rw [hs₀])
  rw [← hs₀]
  generalize readHead env g spp r s₀ = s₁ at hcount hhead ⊢
  have hwhole : Reads env ((if r > 0 then 1 else 0) + restCount spp r count / spp) s₀
      (readWhole env g spp (s₁.count / spp) s₁) := by
    refine hhead.trans (fun h => ?_) fun h => (readWhole_quiet h).1
    rw [hcount h]
    exact readWhole_reads h
  have htail := hwhole.trans (n := if restCount spp r count % spp > 0 then 1 else 0)
    (u := readTail env g (s₁.count % spp) (readWhole env g spp (s₁.count / spp) s₁))
    (fun h => by
      rw [hcount (readWhole_quiet h).1] at h ⊢
      exact readTail_reads h)
    fun h => (readTail_quiet h).1
  rw [htail.1, hs₀]
  exact ⟨fun h => h.2, fun h => ⟨rfl, h⟩⟩

/-- A read that stores what it was asked for, and nothing else. -/
def ReadExact (env : BootEnv α) (g : BootGeometry) (bootnum : Nat) (dev : BootDev α)
    (first count : Nat) (buf : Nat → α) (bufp : Nat) (r : BootDev α × Int × (Nat → α)) : Prop :=
  r.2.1 = 0 ∧ r.1.flash = dev.flash ∧
    r.2.2 = store buf bufp count fun i =>
      sectorAt env g (sectcntInPage g bootnum) dev.flash (chipSector g bootnum first + i)

/-- `bootarea_read` is exact if and only if every page read on its way returns zero. -/
theorem bootareaRead_exact_iff (env : BootEnv α) (g : BootGeometry) (dev : BootDev α)
    (bootnum first count bufp : Nat) (buf : Nat → α)
    (hfit : chipSector g bootnum first + count ≤
      sectcntInPage g bootnum * g.pageCntOfPhyBlk * 2 ^ 16) :
    ReadExact env g bootnum dev first count buf bufp
        (bootareaRead env g dev first count buf bufp bootnum) ↔
      PlainReads env dev.ops (pageReads g bootnum first count) := by
  have hsib := sectcntInBlock_le g bootnum
  have hlt : first % sectcntInPage g bootnum + count < 2 ^ 32 := by
    have := Nat.mod_le first (sectcntInPage g bootnum)
    unfold chipSector at hfit
    omega
  have hres : (bootareaRead env g dev first count buf bufp bootnum).2.1 = 0 ↔
      PlainReads env dev.ops (pageReads g bootnum first count) := bootareaRead_res_iff hlt
  rw [← hres]
  refine ⟨fun h => h.1, fun h => ?_⟩
  unfold chipSector at hfit
  have hquiet : env.quiet.AllOk := fun _ => rfl
  obtain ⟨dev', buf', hread, hflash, hbuf⟩ := bootareaRead_ok (g := g) dev hquiet bootnum first
    count bufp buf (by rw [Nat.mul_comm (2 ^ 16)]; omega)
  rw [bootareaRead_quiet h, hread]
  refine ⟨rfl, hflash, ?_⟩
  rw [hbuf, chipSector, Nat.add_comm first]
  rfl

theorem bootareaRead_exact_iff_numbered :
    ReadExact quietEnv smallGeometry 0 numberedDev 1 4 (fun _ => 1000) 0
        (bootareaRead quietEnv smallGeometry numberedDev 1 4 (fun _ => 1000) 0 0) ↔
      PlainReads quietEnv 0 (pageReads smallGeometry 0 1 4) :=
  bootareaRead_exact_iff quietEnv smallGeometry numberedDev 0 1 4 0 _ (by decide)

/-- A chip whose pages can all be read, at the limit of what can be corrected. -/
def limitEnv : BootEnv Nat := ⟨fun _ => 10, fun _ _ => 0, 0⟩

/-- Of four sectors from the second on, none arrives, though every page could be read. -/
theorem bootareaRead_stops_at_limit :
    (∀ n, 0 ≤ limitEnv.status n) ∧
      ¬ ReadExact limitEnv smallGeometry 0 numberedDev 1 4 (fun _ => 1000) 0
        (bootareaRead limitEnv smallGeometry numberedDev 1 4 (fun _ => 1000) 0 0) ∧
      (bootareaRead limitEnv smallGeometry numberedDev 1 4 (fun _ => 1000) 0 0).2.2 0 = 1000 := by
  refine ⟨fun _ => (by decide : (0 : Int) ≤ 10), fun h => ?_, rfl⟩
  exact absurd h.1 (by decide)

end Novo7
