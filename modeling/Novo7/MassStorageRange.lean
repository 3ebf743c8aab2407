import Novo7.MassStorage
import Novo7.Transducer

/-!
# Mass storage stays inside the mounted range

Every access of a command is checked against the sector count of the unit and then shifted by
its first sector. `Confined` says this of a part of the handler: the unit keeps its range, and
what was asked of the flash lies inside it. It holds of each command, composes, and so holds
of a whole packet.

The range itself is checked when it is mounted, but with a sum of 32 bits: `MountFits` is what
the check misses.
-/

namespace Novo7

open Machine Transducer Bytes

/-! ## Accesses -/

/-- The sectors an event reads or writes. -/
def MscEvent.access : MscEvent → Option (Nat × Nat)
  | .logicRead first count => some (first, count)
  | .logicWrite first count => some (first, count)
  | _ => none

/-- An access inside the unit. -/
def InUnit (lun : FsgLun) (e : MscEvent) : Prop :=
  ∀ first count, e.access = some (first, count) →
    0 < lun.sectorCount ∧ lun.firstSector ≤ first ∧
      first + count ≤ lun.firstSector + lun.sectorCount

variable {ν : Type}

/-- A part of the handler that keeps the range of the unit and accesses nothing outside. -/
structure Confined (s s' : MscState ν) : Prop where
  first : s'.lun.firstSector = s.lun.firstSector
  count : s'.lun.sectorCount = s.lun.sectorCount
  out : ∃ es, s'.out = s.out ++ es ∧ ∀ e ∈ es, InUnit s.lun e

/-- The part between them has the unit's range and nothing new in `out`. -/
theorem Confined.quiet {s s' : MscState ν} (hfirst : s'.lun.firstSector = s.lun.firstSector)
    (hcount : s'.lun.sectorCount = s.lun.sectorCount) (hout : s'.out = s.out) : Confined s s' :=
  ⟨hfirst, hcount, [], by simp [hout], by simp⟩

theorem Confined.refl (s : MscState ν) : Confined s s := .quiet rfl rfl rfl

theorem Confined.trans {s t u : MscState ν} (h₁ : Confined s t) (h₂ : Confined t u) :
    Confined s u := by
  obtain ⟨es, hes, hin⟩ := h₁.out
  obtain ⟨fs, hfs, hin'⟩ := h₂.out
  refine ⟨h₂.first.trans h₁.first, h₂.count.trans h₁.count, es ++ fs, ?_, ?_⟩
  · rw [hfs, hes, List.append_assoc]
  · intro e he
    rcases List.mem_append.mp he with he | he
    · exact hin e he
    · intro first count hacc
      have h := hin' e he first count hacc
      rwa [h₁.first, h₁.count] at h

/-- One access to the flash. -/
theorem Confined.event {s s' : MscState ν} (e : MscEvent)
    (hfirst : s'.lun.firstSector = s.lun.firstSector)
    (hcount : s'.lun.sectorCount = s.lun.sectorCount) (hout : s'.out = s.out ++ [e])
    (he : InUnit s.lun e) : Confined s s' :=
  ⟨hfirst, hcount, [e], hout, by simpa using he⟩

/-! ## Commands -/

section Commands

variable {env : MscEnv ν} {s : MscState ν}

variable (env) in
theorem logicRead_confined {first count : Nat} (h : InUnit s.lun (.logicRead first count)) :
    Confined s (s.logicRead env first count).1 :=
  .event _ rfl rfl rfl h

variable (env) in
theorem logicWrite_confined {first count : Nat} (h : InUnit s.lun (.logicWrite first count)) :
    Confined s (s.logicWrite env first count).1 :=
  .event _ rfl rfl rfl h

/-- An access that passed the check lies inside the unit. -/
theorem access_inUnit {lba n : Nat} {e : MscEvent}
    (hunit : s.lun.firstSector + s.lun.sectorCount < 2 ^ 31) (hn : n < 2 ^ 23)
    (hin : beyondUnit s lba n = false)
    (he : e.access = some (u32 (s.lun.firstSector + lba), n)) : InUnit s.lun e := by
  simp only [beyondUnit, Bool.or_eq_false_iff, decide_eq_false_iff_not] at hin
  obtain ⟨hlba, hend⟩ := hin
  rw [u32_of_lt (by omega)] at hend
  rw [u32_of_lt (by omega)] at he
  intro first count hacc
  rw [he] at hacc
  cases hacc
  omega

theorem doRead_confined (hunit : s.lun.firstSector + s.lun.sectorCount < 2 ^ 31)
    (hsize : s.dataSizeFromCmnd < 2 ^ 32) : Confined s (doRead env s).1 := by
  have hsectors : s.dataSizeFromCmnd / 2 ^ 9 < 2 ^ 23 := by omega
  unfold doRead
  by_cases hfield : s.cb 0 ≠ 0x08 ∧ s.cb 1 &&& ~~~0x18 ≠ 0
  · rw [if_pos hfield]
    exact .quiet rfl rfl rfl
  · rw [if_neg hfield]
    by_cases hin : beyondUnit s (cdbLba s 0x08) (s.dataSizeFromCmnd / 2 ^ 9)
    · rw [if_pos hin]
      exact .quiet rfl rfl rfl
    · rw [if_neg hin]
      have hread := logicRead_confined env
        (access_inUnit hunit hsectors (by simpa using hin) rfl)
      dsimp only
      generalize s.logicRead env _ _ = r at hread ⊢
      refine hread.trans ?_
      split <;> exact .quiet rfl rfl rfl

theorem doWrite_confined (hunit : s.lun.firstSector + s.lun.sectorCount < 2 ^ 31)
    (hsize : s.dataSizeFromCmnd < 2 ^ 32) : Confined s (doWrite env s).1 := by
  have hsectors : s.dataSizeFromCmnd / 2 ^ 9 < 2 ^ 23 := by omega
  unfold doWrite
  by_cases hro : s.lun.ro
  · rw [if_pos hro]
    exact .quiet rfl rfl rfl
  · rw [if_neg hro]
    by_cases hfield : s.cb 0 ≠ 0x0a ∧ s.cb 1 &&& ~~~0x18 ≠ 0
    · rw [if_pos hfield]
      exact .quiet rfl rfl rfl
    · rw [if_neg hfield]
      by_cases hin : beyondUnit s (cdbLba s 0x0a) (s.dataSizeFromCmnd / 2 ^ 9)
      · rw [if_pos hin]
        exact .quiet rfl rfl rfl
      · rw [if_neg hin]
        have hwrite := logicWrite_confined env
          (access_inUnit hunit hsectors (by simpa using hin) rfl)
        dsimp only
        generalize s.logicWrite env _ _ = r at hwrite ⊢
        refine hwrite.trans ?_
        by_cases hres : r.2 ≠ 0
        · rw [if_pos hres]
          exact .quiet rfl rfl rfl
        · rw [if_neg hres]
          exact .quiet rfl rfl rfl

/-- The loop reads on from `lba`, never past the sectors it was started for. -/
theorem verifyLoop_confined (fuel : Nat) : ∀ (s : MscState ν) (lba amountLeft : Nat),
    s.lun.firstSector + s.lun.sectorCount < 2 ^ 31 → lba + amountLeft ≤ s.lun.sectorCount →
      Confined s (verifyLoop env fuel s lba amountLeft) := by
  induction fuel with
  | zero => intro s lba amountLeft _ _; exact .refl s
  | succ fuel ih =>
      intro s lba amountLeft hunit hin
      unfold verifyLoop
      by_cases hzero : amountLeft = 0
      · rw [if_pos hzero]
        exact .refl s
      · rw [if_neg hzero]
        dsimp only
        have hamount : (if amountLeft < 4096 then amountLeft else 4096) ≤ amountLeft := by
          split <;> omega
        generalize (if amountLeft < 4096 then amountLeft else 4096) = amount at hamount
        have hread : Confined s (s.logicRead env (u32 (s.lun.firstSector + lba)) amount).1 := by
          refine logicRead_confined env fun first count hacc => ?_
          cases hacc
          rw [u32_of_lt (by omega)]
          omega
        refine hread.trans ?_
        split
        · exact .quiet rfl rfl rfl
        · rw [u32_of_lt (show lba + amount < 2 ^ 32 by omega)]
          refine ih _ _ _ (by rwa [hread.first, hread.count]) ?_
          rw [hread.count]
          omega

theorem be16_lt (s : MscState ν) (i : Nat) : s.be16 i < 2 ^ 16 := by
  have h₁ := (s.cb i).toNat_lt
  have h₂ := (s.cb (i + 1)).toNat_lt
  unfold MscState.be16
  omega

theorem doVerify_confined (hunit : s.lun.firstSector + s.lun.sectorCount < 2 ^ 31) :
    Confined s (doVerify env s).1 := by
  have hlen := be16_lt s 7
  unfold doVerify
  by_cases hlba : s.be32 2 ≥ s.lun.sectorCount
  · rw [if_pos hlba]
    exact .quiet rfl rfl rfl
  · rw [if_neg hlba]
    by_cases hfield : s.cb 1 &&& ~~~0x10 ≠ 0
    · rw [if_pos hfield]
      exact .quiet rfl rfl rfl
    · rw [if_neg hfield]
      by_cases hzero : s.be16 7 = 0
      · rw [if_pos hzero]
        exact .refl s
      · rw [if_neg hzero, u32_of_lt (by omega)]
        by_cases hend : s.be32 2 + s.be16 7 > s.lun.sectorCount
        · rw [if_pos hend]
          exact .quiet rfl rfl rfl
        · rw [if_neg hend]
          exact verifyLoop_confined _ _ _ _ hunit (by omega)

theorem doInquiry_confined : Confined s (doInquiry s).1 := by
  unfold doInquiry
  split <;> exact .quiet rfl rfl rfl

theorem doRequestSense_confined : Confined s (doRequestSense s).1 := by
  unfold doRequestSense
  split <;> exact .quiet rfl rfl rfl

theorem doReadCapacity_confined : Confined s (doReadCapacity s).1 := by
  unfold doReadCapacity
  split <;> exact .quiet rfl rfl rfl

theorem doModeSense_confined : Confined s (doModeSense s).1 := by
  obtain ⟨buf, ⟨code, -, hres⟩ | hres⟩ := doModeSense_cases s
  · rw [hres]
    exact .quiet rfl rfl rfl
  · rw [hres]
    exact .quiet rfl rfl rfl

theorem doStartStop_confined : Confined s (doStartStop s).1 := by
  unfold doStartStop
  repeat' split
  all_goals exact .quiet rfl rfl rfl

theorem doPreventAllow_confined : Confined s (doPreventAllow s).1 := by
  unfold doPreventAllow
  repeat' split
  all_goals exact .quiet rfl rfl rfl

theorem doModeSelect_confined : Confined s (doModeSelect s).1 := by
  unfold doModeSelect
  split <;> exact .quiet rfl rfl rfl

variable (env) in
/-- Every case of the switch. -/
theorem action_confined (t : MscState ν) (hunit : s.lun.firstSector + s.lun.sectorCount < 2 ^ 31)
    (hsize : s.dataSizeFromCmnd < 2 ^ 32) : Confined s ((scsiCase env t).action s).1 := by
  unfold scsiCase
  split
  all_goals first
    | exact doRead_confined hunit hsize
    | exact doWrite_confined hunit hsize
    | exact doVerify_confined hunit
    | exact doInquiry_confined
    | exact doRequestSense_confined
    | exact doReadCapacity_confined
    | exact doModeSense_confined
    | exact doStartStop_confined
    | exact doPreventAllow_confined
    | exact doModeSelect_confined
    | exact .quiet rfl rfl rfl

/-! ## The command switch -/

theorem checkSizes_confined (s : MscState ν) (cmndSize : Nat) (dataDir : DataDirection) :
    Confined s (checkSizes s cmndSize dataDir).1 ∧
      (checkSizes s cmndSize dataDir).1.dataSizeFromCmnd ≤ s.dataSizeFromCmnd := by
  obtain ⟨size, phase, hstate, hle, -⟩ := checkSizes_state s cmndSize dataDir
  rw [hstate]
  exact ⟨.quiet rfl rfl rfl, hle⟩

theorem checkLun_confined (s : MscState ν) :
    Confined s (checkLun s).1 ∧ (checkLun s).1.dataSizeFromCmnd = s.dataSizeFromCmnd := by
  unfold checkLun
  dsimp only
  split_ifs <;> exact ⟨.quiet rfl rfl rfl, rfl⟩

theorem checkMask_confined (env : MscEnv ν) (s : MscState ν) (cmndSize mask : Nat)
    (needsMedium : Bool) :
    Confined s (checkMask env s cmndSize mask needsMedium).1 ∧
      (checkMask env s cmndSize mask needsMedium).1.dataSizeFromCmnd = s.dataSizeFromCmnd := by
  unfold checkMask
  dsimp only
  split_ifs <;> exact ⟨.quiet rfl rfl rfl, rfl⟩

theorem checkCommand_confined (env : MscEnv ν) (s : MscState ν) (cmndSize : Nat)
    (dataDir : DataDirection) (mask : Nat) (needsMedium : Bool) :
    Confined s (checkCommand env s cmndSize dataDir mask needsMedium).1 ∧
      (checkCommand env s cmndSize dataDir mask needsMedium).1.dataSizeFromCmnd ≤
        s.dataSizeFromCmnd := by
  obtain ⟨hsizes, hle⟩ := checkSizes_confined s cmndSize dataDir
  unfold checkCommand
  split
  · rename_i t heq
    rw [heq] at hsizes hle
    exact ⟨hsizes, hle⟩
  · rename_i t n heq
    rw [heq] at hsizes hle
    obtain ⟨hlun, heq'⟩ := checkLun_confined t
    have hboth := hsizes.trans hlun
    dsimp only at hle ⊢
    generalize checkLun t = r at hlun heq' hboth ⊢
    split_ifs
    · exact ⟨hboth, show r.1.dataSizeFromCmnd ≤ s.dataSizeFromCmnd by omega⟩
    · exact ⟨hboth.trans (.quiet rfl rfl rfl), by dsimp only; omega⟩
    · obtain ⟨hmask, heq''⟩ := checkMask_confined env r.1 n mask needsMedium
      exact ⟨hboth.trans hmask, by omega⟩

/-- No command asks for `2 ^ 32` bytes. -/
theorem scsiCase_dataSize (env : MscEnv ν) (s : MscState ν) :
    (scsiCase env s).dataSize < 2 ^ 32 := by
  have hbyte := (s.cb 4).toNat_lt
  have hword := be16_lt s 7
  have hcount : count6 s ≤ 256 := by
    unfold count6
    split <;> omega
  unfold scsiCase
  split
  all_goals first
    | exact u32_lt _
    | (dsimp only; omega)

theorem setReply_confined (s : MscState ν) (reply : Int) : Confined s (setReply s reply) := by
  unfold setReply
  dsimp only
  split_ifs <;> exact .quiet rfl rfl rfl

theorem doScsiCommand_confined (env : MscEnv ν) (s : MscState ν)
    (hunit : s.lun.firstSector + s.lun.sectorCount < 2 ^ 31) :
    Confined s (doScsiCommand env s) := by
  unfold doScsiCommand
  have hsize := scsiCase_dataSize env s
  dsimp only
  generalize hc : scsiCase env s = c at hsize ⊢
  obtain ⟨hcheck, hle⟩ := checkCommand_confined env
    { s with phaseError := false, dataSizeFromCmnd := c.dataSize } c.cmndSize c.dataDir c.mask
    c.needsMedium
  have hpre : Confined s { s with phaseError := false, dataSizeFromCmnd := c.dataSize } :=
    .quiet rfl rfl rfl
  replace hcheck := hpre.trans hcheck
  generalize checkCommand env _ c.cmndSize c.dataDir c.mask c.needsMedium = r at hcheck hle ⊢
  by_cases hok : r.2 = 0
  · rw [if_pos hok, ← hc]
    have haction := action_confined env (s := r.1) s
      (by rwa [hcheck.first, hcheck.count]) (Nat.lt_of_le_of_lt hle hsize)
    exact (hcheck.trans haction).trans (setReply_confined _ _)
  · rw [if_neg hok]
    exact hcheck.trans (setReply_confined _ _)

/-- Sending is no access. -/
theorem reply_confined (s : MscState ν) : Confined s (sendStatus (finishReply s)) := by
  have hfinish : Confined s (finishReply s) := by
    unfold finishReply
    split_ifs
    · exact .event _ rfl rfl rfl (fun _ _ h => nomatch h)
    · exact .refl s
  exact hfinish.trans (.event _ rfl rfl rfl (fun _ _ h => nomatch h))

theorem masstorageRxHandler_confined (env : MscEnv ν) (s : MscState ν) (buffer : List UInt8)
    (hunit : s.lun.firstSector + s.lun.sectorCount < 2 ^ 31) :
    Confined s (masstorageRxHandler env s buffer) := by
  have hexec : ∀ t : MscState ν, Confined s t → Confined s (executeIfComplete env t) := by
    intro t ht
    unfold executeIfComplete
    split_ifs
    · have hcmd := doScsiCommand_confined env t (by rwa [ht.first, ht.count])
      exact (ht.trans hcmd).trans (reply_confined _)
    · exact ht
  unfold masstorageRxHandler
  dsimp only
  split_ifs
  · exact .refl s
  · exact .quiet rfl rfl rfl
  · exact .quiet rfl rfl rfl
  · exact hexec _ (.quiet rfl rfl rfl)
  · exact hexec _ (.quiet rfl rfl rfl)
  · exact hexec _ (.quiet rfl rfl rfl)

end Commands

/-! ## Runs -/

/-- What reaches the interface: mount requests, as `dispatch_cmd` passes them on, and
packets. -/
inductive MscInput where
  | mount (start count param1 : Nat)
  | packet (buffer : List UInt8)

/-- The answers: an accepted mount with its range, a refused one, and what a packet caused. -/
inductive MscOutput where
  | mounted (first count : Nat)
  | refused
  | handled (events : List MscEvent)

/-- One request or packet. -/
def mscStep (env : MscEnv ν) (info : StorageInfo) (s : MscState ν) :
    MscInput → MscState ν × MscOutput
  | .mount start count param1 =>
    let (s, res) := masstorageMount info s (u32 start) (u32 count) (u32 param1 ≠ 0)
    (s, if res = 0 then .mounted (u32 start) (u32 count) else .refused)
  | .packet buffer =>
    let s := masstorageRxHandler env { s with out := [] } buffer
    (s, .handled s.out)

/-- Every accepted mount lies on a disk of `disk` sectors and every access in the range of
the last accepted mount, which is `mounted` at first. -/
def StaysInside (disk : Nat) : Option (Nat × Nat) → List MscOutput → Prop
  | _, [] => True
  | _, .mounted first count :: os => first + count ≤ disk ∧ StaysInside disk (some (first, count)) os
  | mounted, .refused :: os => StaysInside disk mounted os
  | mounted, .handled events :: os =>
    (∀ e ∈ events, ∀ first count, e.access = some (first, count) →
      ∃ m, mounted = some m ∧ m.1 ≤ first ∧ first + count ≤ m.1 + m.2) ∧
        StaysInside disk mounted os

/-- A mount request whose range ends below `2 ^ 32`, or which the checks refuse without
regard to its true end. -/
def MountFits (info : StorageInfo) (s : MscState ν) : MscInput → Prop
  | .mount start count _ =>
    u32 start + u32 count < 2 ^ 32 ∨ s.lun.isOpen = true ∨ u32 start ≥ nandGetDiskSize info ∨
      u32 (u32 start + u32 count) > nandGetDiskSize info
  | .packet _ => True

section Runs

variable {env : MscEnv ν} {info : StorageInfo} {s : MscState ν}

variable (info s) in
/-- The two results of a mount request. -/
theorem masstorageMount_cases (first count : Nat) (rw : Bool) :
    (s.lun.isOpen = false ∧ first < nandGetDiskSize info ∧
        u32 (first + count) ≤ nandGetDiskSize info ∧
        masstorageMount info s first count rw = (s.withMount first count rw, 0)) ∨
      ((s.lun.isOpen = true ∨ first ≥ nandGetDiskSize info ∨
          u32 (first + count) > nandGetDiskSize info) ∧
        masstorageMount info s first count rw = (s, -1)) := by
  unfold masstorageMount
  by_cases hopen : s.lun.isOpen = true
  · exact .inr ⟨.inl hopen, if_pos hopen⟩
  · dsimp only
    rw [if_neg hopen]
    by_cases hdisk : first ≥ nandGetDiskSize info ∨ u32 (first + count) > nandGetDiskSize info
    · exact .inr ⟨.inr hdisk, if_pos hdisk⟩
    · rw [not_or, Nat.not_le, Nat.not_lt] at hdisk
      exact .inl ⟨by simpa using hopen, hdisk.1, hdisk.2,
        if_neg (by rw [not_or, Nat.not_le, Nat.not_lt]; exact hdisk)⟩

variable (env) in
/-- The check keeps a mount on the disk exactly when the request fits. -/
theorem mount_inside_iff (start count param1 : Nat) :
    (∀ first n, (mscStep env info s (.mount start count param1)).2 = .mounted first n →
        first + n ≤ nandGetDiskSize info) ↔ MountFits info s (.mount start count param1) := by
  have hdisk := nandGetDiskSize_lt info
  rcases masstorageMount_cases info s (u32 start) (u32 count)
      (decide (u32 param1 ≠ 0)) with ⟨hopen, hfirst, hend, hres⟩ | ⟨hrefused, hres⟩
  · simp only [mscStep, hres, MountFits, if_true, MscOutput.mounted.injEq]
    constructor
    · intro h
      have := h _ _ ⟨rfl, rfl⟩
      exact .inl (by omega)
    · rintro hfits first n ⟨rfl, rfl⟩
      rcases hfits with hfits | hfits | hfits | hfits
      · rwa [u32_of_lt hfits] at hend
      · rw [hopen] at hfits
        cases hfits
      · omega
      · omega
  · simp only [mscStep, hres, MountFits]
    exact ⟨fun _ => .inr hrefused, fun _ first n h => nomatch h⟩

/-- The unit's range is the last accepted mount's, and empty before the first. -/
structure Mounted (disk : Nat) (mounted : Option (Nat × Nat)) (s : MscState ν) : Prop where
  inside : s.lun.firstSector + s.lun.sectorCount ≤ disk
  range : ∀ m, mounted = some m → s.lun.firstSector = m.1 ∧ s.lun.sectorCount = m.2
  empty : mounted = none → s.lun.sectorCount = 0

variable (env) in
theorem packet_inside {mounted : Option (Nat × Nat)} (buffer : List UInt8)
    (hs : Mounted (nandGetDiskSize info) mounted s) :
    Mounted (nandGetDiskSize info) mounted (mscStep env info s (.packet buffer)).1 ∧
      ∀ e ∈ (masstorageRxHandler env { s with out := [] } buffer).out, ∀ first count,
        e.access = some (first, count) →
          ∃ m, mounted = some m ∧ m.1 ≤ first ∧ first + count ≤ m.1 + m.2 := by
  have hdisk := nandGetDiskSize_lt info
  have hconf := masstorageRxHandler_confined env { s with out := [] } buffer
    (Nat.lt_of_le_of_lt hs.inside hdisk)
  refine ⟨⟨?_, ?_, ?_⟩, ?_⟩
  · exact (congrArg₂ (· + ·) hconf.first hconf.count).trans_le hs.inside
  · intro m hm
    obtain ⟨hfirst, hcount⟩ := hs.range m hm
    exact ⟨hconf.first.trans hfirst, hconf.count.trans hcount⟩
  · intro hm
    exact hconf.count.trans (hs.empty hm)
  · obtain ⟨es, hes, hin⟩ := hconf.out
    intro e he first count hacc
    rw [hes, List.nil_append] at he
    obtain ⟨hpos, hlow, hhigh⟩ := hin e he first count hacc
    cases mounted with
    | none =>
        have := hs.empty rfl
        dsimp only at hpos
        omega
    | some m =>
        obtain ⟨hfirst, hcount⟩ := hs.range m rfl
        exact ⟨m, rfl, by rw [← hfirst]; exact hlow, by rw [← hfirst, ← hcount]; exact hhigh⟩

theorem run_inside (is : List MscInput) : ∀ (s : MscState ν) (mounted : Option (Nat × Nat)),
    Mounted (nandGetDiskSize info) mounted s →
      Along (mscStep env info) (MountFits info) s is →
        StaysInside (nandGetDiskSize info) mounted (outputs (mscStep env info) s is) := by
  induction is with
  | nil => intro s mounted _ _; trivial
  | cons i is ih =>
      intro s mounted hs hrun
      obtain ⟨hfits, hrun⟩ := hrun
      cases i with
      | packet buffer =>
          obtain ⟨hs', hout⟩ := packet_inside env buffer hs
          exact ⟨hout, ih _ _ hs' hrun⟩
      | mount start count param1 =>
          have hin := (mount_inside_iff env start count param1).mpr hfits
          rcases masstorageMount_cases info s (u32 start) (u32 count)
              (decide (u32 param1 ≠ 0)) with ⟨-, -, -, hres⟩ | ⟨-, hres⟩
          · have hstep : mscStep env info s (.mount start count param1) =
                (s.withMount (u32 start) (u32 count) (decide (u32 param1 ≠ 0)),
                  .mounted (u32 start) (u32 count)) := by
              simp only [mscStep, hres, if_true]
            rw [hstep] at hin hrun
            rw [outputs_cons, hstep]
            have hle := hin _ _ rfl
            refine ⟨hle, ih _ _ ⟨hle, ?_, fun h => by cases h⟩ hrun⟩
            rintro m ⟨⟩
            exact ⟨rfl, rfl⟩
          · have hstep : mscStep env info s (.mount start count param1) = (s, .refused) := by
              simp only [mscStep, hres]
              rfl
            rw [hstep] at hrun
            rw [outputs_cons, hstep]
            exact ih _ _ hs hrun

end Runs

/-- In every run whose mount requests fit, mounts stay on the disk and accesses in the
mount. -/
theorem masstorage_stays_inside (env : MscEnv ν) (info : StorageInfo) (nand : ν)
    (buffer : Nat → UInt8) (is : List MscInput)
    (h : Along (mscStep env info) (MountFits info) (mscInit nand buffer) is) :
    StaysInside (nandGetDiskSize info) none
      (outputs (mscStep env info) (mscInit nand buffer) is) :=
  run_inside is _ none ⟨Nat.zero_le _, (fun _ h => nomatch h), fun _ => rfl⟩ h

/-- A board with one chip of 1024 blocks. -/
def oneChip : StorageInfo :=
  ⟨1, 1, 1024, 64, 4, 974, Nat.le_refl _, by decide⟩

/-- A flash disk on which every access succeeds. -/
def idleFlash : MscEnv Unit := ⟨fun _ _ _ buf => ((), 0, buf), fun _ _ _ _ => ((), 0), fun _ _ => 0⟩

/-- `READ(10)` of one sector. -/
def readTen (lba : UInt8) : List UInt8 :=
  leBytes 4 0x43425355 ++ leBytes 4 7 ++ leBytes 4 512 ++ [0x80, 0, 10] ++
    [0x28, 0, 0, 0, 0, lba, 0, 0, 1, 0, 0, 0, 0, 0, 0, 0]

theorem masstorage_stays_inside_readTen :
    StaysInside (nandGetDiskSize oneChip) none
      (outputs (mscStep idleFlash oneChip) (mscInit () fun _ => 0)
        [.mount 5 10 0, .packet (readTen 3)]) :=
  masstorage_stays_inside idleFlash oneChip () (fun _ => 0) [.mount 5 10 0, .packet (readTen 3)]
    ⟨.inl (by decide), trivial, trivial⟩

/-- A mount whose end wraps around is accepted. -/
theorem mount_escapes_disk :
    ¬ StaysInside (nandGetDiskSize oneChip) none
      (outputs (mscStep idleFlash oneChip) (mscInit () fun _ => 0) [.mount 5 0xffffffff 0]) := by
  intro h
  have hle : 5 + 0xffffffff ≤ nandGetDiskSize oneChip := h.1
  revert hle
  decide

end Novo7
