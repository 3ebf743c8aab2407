import Novo7.MassStorageRange
import Novo7.MassStorageFraming

/-!
# Writes need a medium that is there and writable

What a host knows of the medium follows from the answers it gets: an accepted mount inserts
one, read-only or not, an accepted eject takes it away. `mscMedium` runs the handler with this
knowledge beside it. The handler's own flags never allow more: whatever is mounted and sent,
a write to the flash is issued only while the host knows a writable medium to be there.
-/

namespace Novo7

open Machine Transducer Bytes

/-! ## The medium as the host sees it -/

/-- No medium, or one that is mounted read-only or for writing. -/
inductive Medium where
  | absent
  | readOnly
  | readWrite
  deriving Repr, DecidableEq

/-- The last thing sent is a status wrapper that says the command passed. -/
def passed (events : List MscEvent) : Bool :=
  match events.getLast? with
  | some (.txStatus csw) => csw.bCSWStatus == 0
  | _ => false

/-- `START STOP UNIT` with LoEj, to stop. -/
def CommandBlockWrapper.isEject (c : CommandBlockWrapper) : Prop :=
  c.cbwcb 0 = 0x1b ∧ c.cbwcb 4 &&& 0x02 ≠ 0 ∧ c.cbwcb 4 &&& 0x01 = 0

instance (c : CommandBlockWrapper) : Decidable c.isEject := inferInstanceAs (Decidable (_ ∧ _ ∧ _))

variable {ν : Type}

/-- A packet at which an eject is carried out and answered as passed. -/
def ejectAccepted (env : MscEnv ν) (s : MscState ν) (buffer : List UInt8) : Bool :=
  match executed s buffer with
  | some e => decide e.wrapper.isEject && passed (masstorageRxHandler env s buffer).out
  | none => false

/-- The medium after one request or packet. -/
def nextMedium (env : MscEnv ν) (info : StorageInfo) (s : MscState ν) (medium : Medium) :
    MscInput → Medium
  | .mount start count param1 =>
    if (masstorageMount info s (u32 start) (u32 count) (u32 param1 ≠ 0)).2 = 0 then
      if u32 param1 ≠ 0 then .readWrite else .readOnly
    else medium
  | .packet buffer => if ejectAccepted env { s with out := [] } buffer then .absent else medium

/-- The interface with the medium beside it; the output is the medium before the step and
what the step asks of the flash or sends. -/
def mscMedium (env : MscEnv ν) (info : StorageInfo) (s : MscState ν × Medium) (i : MscInput) :
    (MscState ν × Medium) × Medium × List MscEvent :=
  (((mscStep env info s.1 i).1, nextMedium env info s.1 s.2 i), s.2,
    match (mscStep env info s.1 i).2 with
    | .handled events => events
    | _ => [])

/-! ## An accepted eject closes the unit -/

/-- The command will not be answered as passed. -/
def Refused (s : MscState ν) : Prop :=
  s.phaseError = true ∨ s.curlun = true ∧ s.lun.senseData ≠ ssNoSense

section Eject

variable {env : MscEnv ν} {s : MscState ν}

theorem refused_sense {code : Nat} (hcur : s.curlun = true) (hcode : code ≠ ssNoSense) :
    Refused (s.sense code) :=
  .inr ⟨hcur, hcode⟩

theorem checkSizes_answers (s : MscState ν) (cmndSize : Nat) (dataDir : DataDirection) :
    (checkSizes s cmndSize dataDir).1.curCmd = s.curCmd ∧
      ((checkSizes s cmndSize dataDir).2 = none → (checkSizes s cmndSize dataDir).1.phaseError) := by
  obtain ⟨size, phase, hstate, -, hphase⟩ := checkSizes_state s cmndSize dataDir
  rw [hstate]
  exact ⟨rfl, hphase⟩

theorem checkLun_answers (hunit : s.commonLun < s.nluns) :
    (checkLun s).1.curCmd = s.curCmd ∧ (checkLun s).1.curlun = true ∧ (checkLun s).2 = true := by
  unfold checkLun
  rw [if_pos hunit]
  dsimp only
  split_ifs <;> exact ⟨rfl, rfl, rfl⟩

theorem checkMask_answers (env : MscEnv ν) (cmndSize mask : Nat) (needsMedium : Bool)
    (hcur : s.curlun = true) :
    ((checkMask env s cmndSize mask needsMedium).2 ≠ 0 →
        Refused (checkMask env s cmndSize mask needsMedium).1) ∧
      (checkMask env s cmndSize mask needsMedium).1.curlun = true ∧
        (checkMask env s cmndSize mask needsMedium).1.cb 4 = s.cb 4 := by
  have hcb : Function.update s.curCmd.cbwcb 1 (s.cb 1 &&& 0x1f) 4 = s.cb 4 :=
    Function.update_of_ne (by decide) _ _
  unfold checkMask
  dsimp only
  split_ifs
  · exact ⟨fun _ => refused_sense hcur (by decide), hcur, hcb⟩
  · exact ⟨fun _ => refused_sense hcur (by decide), hcur, hcb⟩
  · exact ⟨fun h => absurd rfl h, hcur, hcb⟩

/-- A command that is not let through is not answered as passed; one that is keeps the byte
that says what to do with the medium. -/
theorem checkCommand_answers (env : MscEnv ν) (cmndSize : Nat) (dataDir : DataDirection)
    (mask : Nat) (needsMedium : Bool) (hunit : s.commonLun < s.nluns) :
    ((checkCommand env s cmndSize dataDir mask needsMedium).2 ≠ 0 →
        Refused (checkCommand env s cmndSize dataDir mask needsMedium).1) ∧
      ((checkCommand env s cmndSize dataDir mask needsMedium).2 = 0 →
        (checkCommand env s cmndSize dataDir mask needsMedium).1.curlun = true ∧
          (checkCommand env s cmndSize dataDir mask needsMedium).1.cb 4 = s.cb 4) := by
  have hsizes := checkSizes_orderly s cmndSize dataDir
  obtain ⟨hcmd, hphase⟩ := checkSizes_answers s cmndSize dataDir
  unfold checkCommand
  split
  · rename_i t heq
    rw [heq] at hphase
    exact ⟨fun _ => .inl (hphase rfl), fun h => nomatch h⟩
  · rename_i t n heq
    rw [heq] at hsizes hcmd
    obtain ⟨hcmd', hcur, hok⟩ := checkLun_answers (s := t)
      (by rw [hsizes.units.1, hsizes.units.2]; exact hunit)
    have hcb : (checkLun t).1.cb 4 = s.cb 4 := by
      unfold MscState.cb
      rw [hcmd', hcmd]
    dsimp only
    generalize checkLun t = r at hcur hok hcb ⊢
    rw [hok, if_neg (by decide)]
    split_ifs with hattention
    · simp only [Bool.and_eq_true, bne_iff_ne] at hattention
      exact ⟨fun _ => .inr ⟨hcur, hattention.1.1.2⟩, fun h => nomatch h⟩
    · obtain ⟨hrefused, hcur', hcb'⟩ := checkMask_answers env n mask needsMedium hcur
      exact ⟨hrefused, fun _ => ⟨hcur', hcb'.trans hcb⟩⟩

/-- `START STOP UNIT` to eject closes the unit or leaves a reason in the sense data. -/
theorem doStartStop_answers (hcur : s.curlun = true) (hloej : s.cb 4 &&& 0x02 ≠ 0)
    (hstart : s.cb 4 &&& 0x01 = 0) :
    Refused (doStartStop s).1 ∨ (doStartStop s).1.lun.isOpen = false := by
  unfold doStartStop
  split_ifs with hnone hfixed hfield hload hopen hprevent
  · simp [hcur] at hnone
  · exact .inl (refused_sense hcur (by decide))
  · exact .inl (refused_sense hcur (by decide))
  · exact absurd hstart hload
  · exact absurd hstart hload
  · exact .inl (refused_sense hcur (by decide))
  · exact .inr rfl

theorem setReply_eq (s : MscState ν) (reply : Int) :
    ∃ residue, setReply s reply = { s with residue := residue } := by
  unfold setReply
  dsimp only
  generalize sub32 s.residue _ = residue
  by_cases hin : (if reply = -errEinval then 0 else reply) ≥ 0 ∧
      s.curCmd.dCBWDataTransferLength ≠ 0 ∧ s.wantsIn = true
  · exact ⟨residue, if_pos hin⟩
  · exact ⟨s.residue, if_neg hin⟩

theorem setReply_answers (s : MscState ν) (reply : Int) :
    (setReply s reply).lun = s.lun ∧ (Refused s → Refused (setReply s reply)) := by
  obtain ⟨residue, heq⟩ := setReply_eq s reply
  rw [heq]
  exact ⟨rfl, fun h => h⟩

/-- The status sent is that of the command. -/
theorem reply_passed (s : MscState ν) (h : Refused s) :
    passed (sendStatus (finishReply s)).out = false := by
  have hfinish : Refused (finishReply s) := by
    unfold finishReply
    split_ifs <;> exact h
  unfold sendStatus passed
  generalize finishReply s = t at hfinish ⊢
  dsimp only
  rw [List.getLast?_append, List.getLast?_singleton, Option.some_or]
  rcases hfinish with hphase | ⟨hcur, hsense⟩
  · rw [hphase]
    rfl
  · dsimp only
    rw [hcur, if_pos rfl, if_pos hsense]
    split_ifs <;> rfl

theorem reply_lun (s : MscState ν) : (sendStatus (finishReply s)).lun = s.lun := by
  unfold sendStatus finishReply
  split_ifs <;> rfl

variable (env) in
theorem eject_closes (hunit : s.commonLun < s.nluns) (heject : s.curCmd.isEject)
    (hpassed : passed (sendStatus (finishReply (doScsiCommand env s))).out = true) :
    (sendStatus (finishReply (doScsiCommand env s))).lun.isOpen = false := by
  obtain ⟨hop, hloej, hstart⟩ := heject
  have hcase : scsiCase env s = ⟨0, 6, .none, 1 <<< 1 ||| 1 <<< 4, false, doStartStop⟩ := by
    have hbyte : (s.cb 0).toNat = 0x1b := by
      rw [MscState.cb, hop]
      rfl
    unfold scsiCase
    rw [hbyte]
    rfl
  have hanswer : Refused (doScsiCommand env s) ∨ (doScsiCommand env s).lun.isOpen = false := by
    unfold doScsiCommand
    rw [hcase]
    dsimp only
    obtain ⟨hrefused, hthrough⟩ := checkCommand_answers env 6 .none (1 <<< 1 ||| 1 <<< 4) false
      (s := { s with phaseError := false, dataSizeFromCmnd := 0 }) hunit
    generalize checkCommand env _ 6 .none (1 <<< 1 ||| 1 <<< 4) false = r at hrefused hthrough ⊢
    by_cases hok : r.2 = 0
    · rw [if_pos hok]
      obtain ⟨hcur, hcb⟩ := hthrough hok
      replace hcb : r.1.cb 4 = s.curCmd.cbwcb 4 := hcb
      obtain ⟨hlun, hkeep⟩ := setReply_answers (doStartStop r.1).1 (doStartStop r.1).2
      rw [hlun]
      exact (doStartStop_answers hcur (by rwa [hcb]) (by rwa [hcb])).imp_left hkeep
    · rw [if_neg hok]
      exact .inl ((setReply_answers r.1 r.2).2 (hrefused hok))
  rcases hanswer with hrefused | hclosed
  · rw [reply_passed _ hrefused] at hpassed
    cases hpassed
  · rwa [reply_lun]

end Eject

/-! ## Runs -/

/-- A packet keeps the unit's flags but for an eject, and writes only to an open unit that is
not read-only. -/
theorem packet_orderly (env : MscEnv ν) (s : MscState ν) (buffer : List UInt8)
    (hunit : s.commonLun < s.nluns) :
    (masstorageRxHandler env s buffer).lun.ro = s.lun.ro ∧
      ((masstorageRxHandler env s buffer).lun.isOpen = true → s.lun.isOpen = true) ∧
      ∃ es, (masstorageRxHandler env s buffer).out = s.out ++ es ∧
        ∀ e ∈ es, e.isWrite = true → s.lun.isOpen = true ∧ s.lun.ro = false := by
  obtain ⟨⟨hcommon, hnluns⟩, hlun, hout⟩ := mscFrame_keeps (s := s) (p := buffer)
  rw [masstorageRxHandler_eq]
  unfold executeIfComplete
  generalize mscFrame s buffer = f at hcommon hnluns hlun hout ⊢
  rw [← hlun, ← hout]
  have hquiet : Orderly f.state f.state := .refl _
  split_ifs
  · have h := execute_orderly env f.state (by rw [hcommon, hnluns]; exact hunit)
    exact ⟨h.ro, h.isOpen, h.out⟩
  · exact ⟨hquiet.ro, hquiet.isOpen, hquiet.out⟩
  · exact ⟨hquiet.ro, hquiet.isOpen, hquiet.out⟩

theorem ejectAccepted_closes {env : MscEnv ν} {s : MscState ν} {buffer : List UInt8}
    (hunit : s.commonLun < s.nluns) (h : ejectAccepted env s buffer = true) :
    (masstorageRxHandler env s buffer).lun.isOpen = false := by
  have hunits := (mscFrame_keeps (s := s) (p := buffer)).1
  unfold ejectAccepted at h
  rcases masstorageRxHandler_executes env s buffer with ⟨hnone, -⟩ | ⟨t, rfl, hsome, heq⟩
  · rw [hnone] at h
    cases h
  · rw [hsome, Bool.and_eq_true, decide_eq_true_eq, heq] at h
    rw [heq]
    exact eject_closes env (by rw [hunits.1, hunits.2]; exact hunit) h.1 h.2

/-- The handler's flags allow no more than the host knows of. -/
structure Guarded (s : MscState ν × Medium) : Prop where
  unit : s.1.commonLun < s.1.nluns
  medium : s.1.lun.isOpen = true → s.2 = if s.1.lun.ro then .readOnly else .readWrite

theorem Guarded.writable {s : MscState ν × Medium} (h : Guarded s) (hopen : s.1.lun.isOpen = true)
    (hro : s.1.lun.ro = false) : s.2 = .readWrite := by
  rw [h.medium hopen, hro]
  rfl

section Step

variable (env : MscEnv ν) (info : StorageInfo) {s : MscState ν × Medium}

theorem mount_guarded (start count param1 : Nat) (hs : Guarded s) :
    Guarded (mscMedium env info s (.mount start count param1)).1 := by
  unfold mscMedium nextMedium mscStep
  dsimp only
  rcases masstorageMount_cases info s.1 (u32 start) (u32 count)
      (decide (u32 param1 ≠ 0)) with ⟨-, -, -, hres⟩ | ⟨-, hres⟩
  · rw [hres, if_pos rfl]
    refine ⟨hs.unit, fun _ => ?_⟩
    by_cases hrw : u32 param1 ≠ 0
    · simp [MscState.withMount, hrw]
    · simp [MscState.withMount, hrw]
  · rw [hres]
    exact ⟨hs.unit, hs.medium⟩

theorem packet_guarded (buffer : List UInt8) (hs : Guarded s) :
    Guarded (mscMedium env info s (.packet buffer)).1 := by
  have ht : Guarded ({ s.1 with out := [] }, s.2) := ⟨hs.unit, hs.medium⟩
  unfold mscMedium nextMedium mscStep
  dsimp only
  generalize ({ s.1 with out := [] } : MscState ν) = t at ht ⊢
  obtain ⟨hro, hopen, -⟩ := packet_orderly env t buffer ht.unit
  refine ⟨packet_units ht.unit, fun h => ?_⟩
  by_cases heject : ejectAccepted env t buffer = true
  · rw [ejectAccepted_closes ht.unit heject] at h
    cases h
  · rw [if_neg heject, hro]
    exact ht.medium (hopen h)

/-- One request or packet. -/
theorem step_guarded (i : MscInput) (hs : Guarded s) :
    Guarded (mscMedium env info s i).1 ∧
      ∀ e ∈ (mscMedium env info s i).2.2, e.isWrite = true →
        (mscMedium env info s i).2.1 = .readWrite := by
  cases i with
  | mount start count param1 =>
      refine ⟨mount_guarded env info start count param1 hs, fun e he => ?_⟩
      unfold mscMedium mscStep at he
      dsimp only at he
      split_ifs at he <;> cases he
  | packet buffer =>
      refine ⟨packet_guarded env info buffer hs, fun e he hw => ?_⟩
      obtain ⟨-, -, es, hes, hwrites⟩ := packet_orderly env { s.1 with out := [] } buffer hs.unit
      rw [List.nil_append] at hes
      obtain ⟨hopen, hro⟩ := hwrites e (by rwa [← hes]) hw
      exact hs.writable hopen hro

end Step

/-- In every run of mounts and packets, a write is issued only while the medium is there and
writable: not before the first accepted mount, not after an accepted eject until the next one,
and not under a read-only mount. -/
theorem masstorage_writes_guarded (env : MscEnv ν) (info : StorageInfo) (nand : ν)
    (buffer : Nat → UInt8) (is : List MscInput) :
    ∀ o ∈ outputs (mscMedium env info) (mscInit nand buffer, .absent) is,
      ∀ e ∈ o.2, e.isWrite = true → o.1 = .readWrite := by
  have hinit : Guarded (mscInit nand buffer, Medium.absent) :=
    ⟨Nat.zero_lt_one, fun h => nomatch h⟩
  exact (outputs_forall (mscMedium env info) (fun _ i => step_guarded env info i) is _ hinit).2

/-- `WRITE(10)` of no sector, which asks the flash for an empty write. -/
def writeTen : List UInt8 :=
  leBytes 4 0x43425355 ++ leBytes 4 8 ++ leBytes 4 0 ++ [0, 0, 10] ++
    0x2a :: List.replicate 15 0

theorem masstorage_writes_guarded_writeTen :
    ((outputs (mscMedium idleFlash oneChip) (mscInit () fun _ => 0, .absent)
      [.mount 5 10 1, .packet writeTen]).getD 1 (.absent, [])).1 = .readWrite :=
  masstorage_writes_guarded idleFlash oneChip () (fun _ => 0) [.mount 5 10 1, .packet writeTen]
    _ (by decide) (.logicWrite 5 0) (by decide) rfl

/-- `START STOP UNIT` with LoEj. -/
def startStop : List UInt8 :=
  leBytes 4 0x43425355 ++ leBytes 4 9 ++ leBytes 4 0 ++ [0, 0, 6] ++
    [0x1b, 0, 0, 0, 0x02] ++ List.replicate 11 0

example : (final (mscMedium idleFlash oneChip) (mscInit () fun _ => 0, .absent)
    [.mount 5 10 1, .packet (readTen 3)]).2 = .readWrite := by decide

example : (final (mscMedium idleFlash oneChip) (mscInit () fun _ => 0, .absent)
    [.mount 5 10 1, .packet startStop]).2 = .absent := by decide

end Novo7
