import Novo7.ReplySizes

/-!
# Block counts of the transfers

A `READ` or `WRITE` names a first block and a number of blocks, in a form of 6, 10 or 12 bytes.
The count becomes a number of bytes, is held against what the host allows and becomes a count
again. The first conversion is a 32-bit shift: a count that loses its upper bits there looks like
a small transfer, and a command that moves few blocks or none is answered as passed.
`transfers_exact_iff` says which counts are safe under which length of the host.
-/

namespace Novo7

open Machine Buffer Bytes

/-! ## The forms of a transfer -/

/-- The forms of `READ` and `WRITE`. -/
inductive CdbForm where
  | six
  | ten
  | twelve
  deriving Repr, DecidableEq

namespace CdbForm

/-- The opcode of a `READ`, or of a `WRITE`. -/
def opcode (write : Bool) : CdbForm → UInt8
  | six => if write then 0x0a else 0x08
  | ten => if write then 0x2a else 0x28
  | twelve => if write then 0xaa else 0xa8

def cmndSize : CdbForm → Nat
  | six => 6
  | ten => 10
  | twelve => 12

def mask : CdbForm → Nat
  | six => 7 <<< 1 ||| 1 <<< 4
  | ten => 1 <<< 1 ||| 0xf <<< 2 ||| 3 <<< 7
  | twelve => 1 <<< 1 ||| 0xf <<< 2 ||| 0xf <<< 6

/-- The bytes that hold the count. -/
def isCount (i : Nat) : CdbForm → Prop
  | six => i = 4
  | ten => 7 ≤ i ∧ i < 9
  | twelve => 6 ≤ i ∧ i < 10

instance (i : Nat) (form : CdbForm) : Decidable (form.isCount i) := by
  cases form <;> unfold isCount <;> infer_instance

variable {ν : Type}

/-- The number of blocks a command block asks for. -/
def blocks (s : MscState ν) : CdbForm → Nat
  | six => count6 s
  | ten => s.be16 7
  | twelve => s.be32 6

/-- The first of them. The upper bits of byte 1 were the unit's number. -/
def address (s : MscState ν) : CdbForm → Nat
  | six => (s.cb 1 &&& 0x1f).toNat * 2 ^ 16 + s.be16 2
  | ten => s.be32 2
  | twelve => s.be32 2

end CdbForm

variable {ν : Type}

/-- The command, once it got past its checks. -/
def transfer (env : MscEnv ν) (write : Bool) (s : MscState ν) : MscState ν × Int :=
  if write then doWrite env s else doRead env s

def accessEvent (write : Bool) (first count : Nat) : MscEvent :=
  if write then .logicWrite first count else .logicRead first count

/-- What the flash does at an access, and how it ends. -/
def flashAccess (env : MscEnv ν) (write : Bool) (s : MscState ν) (first count : Nat) : ν × Int :=
  if write then env.nandLogicWrite s.nand first count s.masstorageBuffer
  else ((env.nandLogicRead s.nand first count s.masstorageBuffer).1,
    (env.nandLogicRead s.nand first count s.masstorageBuffer).2.1)

/-- The transfer limit of the interface. -/
def transferLimit : Nat := 0x1000000

/-- If the status is that the command passed, the flash did one access without an error: to the
blocks that the command block says, and they fit the limit. -/
def TransferExact (env : MscEnv ν) (write : Bool) (form : CdbForm) (s t : MscState ν) : Prop :=
  passed t.out = true →
    (t.out.drop s.out.length).filter MscEvent.isAccess =
        [accessEvent write (u32 (s.lun.firstSector + form.address s)) (form.blocks s)] ∧
      (t.nand, 0) = flashAccess env write s (u32 (s.lun.firstSector + form.address s))
        (form.blocks s) ∧
      512 * form.blocks s ≤ transferLimit

/-! ## What the checks leave -/

section Check

variable {env : MscEnv ν} {s : MscState ν} {write : Bool} {form : CdbForm}

theorem blocks_le (s : MscState ν) (form : CdbForm) (h : form ≠ .twelve) :
    form.blocks s < 2 ^ 16 := by
  have hbyte := (s.cb 4).toNat_lt
  cases form with
  | six =>
      unfold CdbForm.blocks count6
      dsimp only
      split <;> omega
  | ten => exact be16_lt s 7
  | twelve => exact absurd rfl h

variable (env) in
theorem scsiCase_transfer (hop : s.cb 0 = form.opcode write) :
    scsiCase env s = ⟨u32 (512 * form.blocks s), form.cmndSize,
      if write = true then .fromHost else .toHost, form.mask, true, transfer env write⟩ := by
  have hsmall (hform : form ≠ .twelve) : u32 (512 * form.blocks s) = form.blocks s * 2 ^ 9 := by
    have := blocks_le s form hform
    rw [u32_of_lt (by omega), Nat.mul_comm]
    rfl
  have hbyte : (s.cb 0).toNat = (form.opcode write).toNat := by rw [hop]
  unfold scsiCase
  rw [hbyte]
  cases form with
  | six =>
      rw [hsmall (by decide)]
      cases write <;> rfl
  | ten =>
      rw [hsmall (by decide)]
      cases write <;> rfl
  | twelve =>
      rw [Nat.mul_comm 512]
      cases write <;> rfl

/-- The flash and the buffer are as they were. -/
structure Kept (s t : MscState ν) : Prop where
  nand : t.nand = s.nand
  buffer : t.masstorageBuffer = s.masstorageBuffer

theorem checkSizes_kept (s : MscState ν) (cmndSize : Nat) (dir : DataDirection) :
    Kept s (checkSizes s cmndSize dir).1 := by
  obtain ⟨size, phase, hstate, -, -⟩ := checkSizes_state s cmndSize dir
  rw [hstate]
  exact ⟨rfl, rfl⟩

variable (env) in
theorem checkCommand_kept (hunit : s.commonLun < s.nluns) (cmndSize : Nat) (dir : DataDirection)
    (mask : Nat) (needsMedium : Bool) :
    Kept s (checkCommand env s cmndSize dir mask needsMedium).1 ∧
      ((checkCommand env s cmndSize dir mask needsMedium).2 = 0 →
        (checkCommand env s cmndSize dir mask needsMedium).1.cb 1 = s.cb 1 &&& 0x1f) := by
  have hsizes := checkSizes_kept s cmndSize dir
  have hunits := (checkSizes_orderly s cmndSize dir).units
  have hcmd := (checkSizes_answers s cmndSize dir).1
  unfold checkCommand
  generalize checkSizes s cmndSize dir = r at hsizes hunits hcmd ⊢
  obtain ⟨t, size⟩ := r
  cases size with
  | none => exact ⟨hsizes, fun h => absurd h (show -errEinval ≠ 0 by decide)⟩
  | some n =>
      have hlun := checkLun_eq (s := t) (by rw [hunits.1, hunits.2]; exact hunit)
      have hkept : Kept s (checkLun t).1 ∧ (checkLun t).1.cb 1 = s.cb 1 := by
        rw [hlun]
        have hcb : t.cb 1 = s.cb 1 := by rw [MscState.cb, hcmd, MscState.cb]
        dsimp only
        split_ifs <;> exact ⟨⟨hsizes.nand, hsizes.buffer⟩, hcb⟩
      have hok : (checkLun t).2 = true := by rw [hlun]
      obtain ⟨hkept, hcb⟩ := hkept
      dsimp only
      generalize checkLun t = u at hkept hcb hok ⊢
      rw [hok, if_neg (by decide)]
      split_ifs
      · exact ⟨⟨hkept.nand, hkept.buffer⟩, fun h => absurd h (show -errEinval ≠ 0 by decide)⟩
      · have hmask : (checkMask env u.1 n mask needsMedium).1.cb 1 = u.1.maskLun.cb 1 := by
          unfold checkMask
          dsimp only
          split_ifs <;> rfl
        refine ⟨?_, fun _ => by rw [hmask, maskLun_cb_one, hcb]⟩
        unfold checkMask
        dsimp only
        split_ifs <;> exact ⟨hkept.nand, hkept.buffer⟩

end Check

/-! ## What a transfer does -/

section Access

variable {env : MscEnv ν} {s : MscState ν}

/-- The access of a command that is not refused. -/
structure Accessed (env : MscEnv ν) (write : Bool) (s : MscState ν) (first count : Nat)
    (t : MscState ν) : Prop where
  out : t.out = s.out ++ [accessEvent write first count]
  flash : (t.nand, 0) = flashAccess env write s first count

theorem Accessed.settle {write : Bool} {first count : Nat} {t : MscState ν}
    (h : Accessed env write s first count t) (residue : Nat) :
    Accessed env write s first count ({ t with residue := residue }, -errEio).1 :=
  ⟨h.out, h.flash⟩

theorem doRead_accessed (hcur : s.curlun = true) (hok : ¬ Refused (doRead env s).1) :
    Accessed env false s (u32 (s.lun.firstSector + cdbLba s 0x08)) (s.dataSizeFromCmnd / 2 ^ 9)
      (doRead env s).1 := by
  unfold doRead at hok ⊢
  dsimp only at hok ⊢
  by_cases hfield : s.cb 0 ≠ 0x08 ∧ s.cb 1 &&& ~~~0x18 ≠ 0
  · rw [if_pos hfield] at hok
    exact absurd (refused_sense hcur (by decide)) hok
  rw [if_neg hfield] at hok ⊢
  by_cases hbeyond : beyondUnit s (cdbLba s 0x08) (s.dataSizeFromCmnd / 2 ^ 9) = true
  · rw [if_pos hbeyond] at hok
    exact absurd (refused_sense hcur (by decide)) hok
  rw [if_neg hbeyond] at hok ⊢
  generalize u32 (s.lun.firstSector + cdbLba s 0x08) = first at hok ⊢
  generalize s.dataSizeFromCmnd / 2 ^ 9 = count at hok ⊢
  obtain ⟨r, hr⟩ : ∃ r, s.logicRead env first count = r := ⟨_, rfl⟩
  have hread : r.1.out = s.out ++ [accessEvent false first count] ∧
      (r.1.nand, r.2) = flashAccess env false s first count ∧ r.1.curlun = true := by
    rw [← hr]
    exact ⟨rfl, rfl, hcur⟩
  obtain ⟨hout, hflash, hcur'⟩ := hread
  rw [hr] at hok ⊢
  by_cases hres : r.2 ≠ 0
  · rw [if_pos hres] at hok
    exact absurd (.inr ⟨hcur', show ssUnrecoveredReadError ≠ ssNoSense by decide⟩) hok
  · rw [if_neg hres]
    rw [not_not.mp hres] at hflash
    exact Accessed.settle (t := r.1) ⟨hout, hflash⟩ _

theorem doWrite_accessed (hcur : s.curlun = true) (hok : ¬ Refused (doWrite env s).1) :
    Accessed env true s (u32 (s.lun.firstSector + cdbLba s 0x0a)) (s.dataSizeFromCmnd / 2 ^ 9)
      (doWrite env s).1 := by
  unfold doWrite at hok ⊢
  dsimp only at hok ⊢
  by_cases hro : s.lun.ro = true
  · rw [if_pos hro] at hok
    exact absurd (refused_sense hcur (by decide)) hok
  rw [if_neg hro] at hok ⊢
  by_cases hfield : s.cb 0 ≠ 0x0a ∧ s.cb 1 &&& ~~~0x18 ≠ 0
  · rw [if_pos hfield] at hok
    exact absurd (refused_sense hcur (by decide)) hok
  rw [if_neg hfield] at hok ⊢
  by_cases hbeyond : beyondUnit s (cdbLba s 0x0a) (s.dataSizeFromCmnd / 2 ^ 9) = true
  · rw [if_pos hbeyond] at hok
    exact absurd (refused_sense hcur (by decide)) hok
  rw [if_neg hbeyond] at hok ⊢
  generalize u32 (s.lun.firstSector + cdbLba s 0x0a) = first at hok ⊢
  generalize s.dataSizeFromCmnd / 2 ^ 9 = count at hok ⊢
  obtain ⟨r, hr⟩ : ∃ r, s.logicWrite env first count = r := ⟨_, rfl⟩
  have hwrite : r.1.out = s.out ++ [accessEvent true first count] ∧
      (r.1.nand, r.2) = flashAccess env true s first count ∧ r.1.curlun = true := by
    rw [← hr]
    exact ⟨rfl, rfl, hcur⟩
  obtain ⟨hout, hflash, hcur'⟩ := hwrite
  rw [hr] at hok ⊢
  by_cases hres : r.2 ≠ 0
  · rw [if_pos hres] at hok
    exact absurd (.inr ⟨hcur', show ssWriteError ≠ ssNoSense by decide⟩) hok
  · rw [if_neg hres]
    rw [not_not.mp hres] at hflash
    exact Accessed.settle (t := r.1) ⟨hout, hflash⟩ _

theorem transfer_accessed {write : Bool} (hcur : s.curlun = true)
    (hok : ¬ Refused (transfer env write s).1) :
    Accessed env write s (u32 (s.lun.firstSector + cdbLba s (CdbForm.opcode write .six)))
      (s.dataSizeFromCmnd / 2 ^ 9) (transfer env write s).1 := by
  cases write with
  | false => exact doRead_accessed hcur hok
  | true => exact doWrite_accessed hcur hok

variable (env) in
theorem transfer_phase (write : Bool) (hcur : s.curlun = true)
    (hle : s.dataSizeFromCmnd ≤ s.residue) (hlt : s.residue < 2 ^ 32) :
    (transfer env write s).1.phaseError = s.phaseError := by
  cases write with
  | false =>
      obtain ⟨es, hdid, -⟩ := doRead_done env hcur hle hlt
      exact hdid.phase
  | true =>
      obtain ⟨es, hdid, -⟩ := doWrite_done env hcur hle hlt
      exact hdid.phase

/-- The address the command reads is the one in its block. -/
theorem cdbLba_eq {t : MscState ν} {write : Bool} {form : CdbForm}
    (hop : s.cb 0 = form.opcode write) (hone : t.cb 1 = s.cb 1 &&& 0x1f)
    (hcb : ∀ i ≠ 1, t.cb i = s.cb i) :
    cdbLba t (CdbForm.opcode write .six) = form.address s := by
  have hword (i : Nat) (hi : 1 < i) : t.be16 i = s.be16 i := by
    rw [MscState.be16, hcb i (by omega), hcb (i + 1) (by omega), MscState.be16]
  have hlong : t.be32 2 = s.be32 2 := by
    rw [MscState.be32, hword 2 (by omega), hword 4 (by omega), MscState.be32]
  unfold cdbLba
  rw [hcb 0 (by decide), hop]
  cases form with
  | six => rw [if_pos rfl, MscState.be24, hone, hword 2 (by omega), CdbForm.address]
  | ten => cases write <;> exact (if_neg (by decide)).trans hlong
  | twelve => cases write <;> exact (if_neg (by decide)).trans hlong

theorem sendStatus_accesses (t : MscState ν) :
    (sendStatus t).nand = t.nand ∧ ∃ csw, (sendStatus t).out = t.out ++ [.txStatus csw] :=
  ⟨rfl, _, rfl⟩

/-- The reply accesses nothing. -/
theorem reply_accesses (t : MscState ν) :
    (sendStatus (finishReply t)).nand = t.nand ∧
      ∃ es, (sendStatus (finishReply t)).out = t.out ++ es ∧
        es.filter MscEvent.isAccess = [] := by
  obtain ⟨hnand, csw, hout⟩ := sendStatus_accesses (finishReply t)
  rw [hnand, hout]
  unfold finishReply
  by_cases hin : t.curCmd.dCBWDataTransferLength ≠ 0 ∧ t.wantsIn = true
  · rw [if_pos hin]
    exact ⟨rfl, _, List.append_assoc .., rfl⟩
  · rw [if_neg hin]
    exact ⟨rfl, _, rfl, rfl⟩

end Access

/-! ## Safe counts -/

theorem accessEvent_isAccess (write : Bool) (first count : Nat) :
    (accessEvent write first count).isAccess = true := by
  cases write <;> rfl

/-- A transfer whose count fits the limit, or that the host does not allow even without the upper
bits of the count, does what its command block says or does not pass. -/
theorem execute_exact (env : MscEnv ν) {s : MscState ν} {write : Bool} {form : CdbForm}
    (hunit : s.commonLun < s.nluns) (hlength : s.curCmd.dCBWDataTransferLength < 2 ^ 32)
    (hop : s.cb 0 = form.opcode write)
    (hsafe : 512 * form.blocks s ≤ transferLimit ∨
      s.curCmd.dCBWDataTransferLength < u32 (512 * form.blocks s)) :
    TransferExact env write form s (execute env s) := by
  intro hpassed
  obtain ⟨size, hsize⟩ : ∃ n, u32 (512 * form.blocks s) = n := ⟨_, rfl⟩
  obtain ⟨dir, hdir⟩ : ∃ d : DataDirection, (if write = true then .fromHost else .toHost) = d :=
    ⟨_, rfl⟩
  obtain ⟨s₁, hs₁⟩ : ∃ t : MscState ν,
    t = { s with phaseError := false, dataSizeFromCmnd := size } := ⟨_, rfl⟩
  have hunit₁ : s₁.commonLun < s₁.nluns := by
    rw [hs₁]
    exact hunit
  have hok : ¬ Refused (doScsiCommand env s) := by
    intro href
    rw [execute, reply_passed _ href] at hpassed
    cases hpassed
  obtain ⟨hnand, es, hes, hquiet⟩ := reply_accesses (doScsiCommand env s)
  rw [execute, hnand, hes]
  unfold doScsiCommand at hok ⊢
  rw [scsiCase_transfer env hop, hsize, hdir] at hok ⊢
  dsimp only at hok ⊢
  rw [← hs₁] at hok ⊢
  obtain ⟨hkept, hone⟩ := checkCommand_kept env hunit₁ form.cmndSize dir form.mask true
  obtain ⟨hchecked, -, hcb⟩ :=
    checkCommand_checked env hunit₁ form.cmndSize dir form.mask true
  obtain ⟨hrefused, hthrough⟩ := checkCommand_answers env form.cmndSize dir form.mask true hunit₁
  have hplace := (checkCommand_confined env s₁ form.cmndSize dir form.mask true).1.first
  generalize checkCommand env s₁ form.cmndSize dir form.mask true = r
    at hok hkept hone hchecked hcb hrefused hthrough hplace ⊢
  by_cases hr : r.2 = 0
  · rw [if_pos hr] at hok ⊢
    obtain ⟨hcur, -⟩ := hthrough hr
    have hokay : ¬ Refused (transfer env write r.1).1 := fun h => hok ((setReply_answers _ _).2 h)
    have hbound : r.1.residue < 2 ^ 32 := by
      rw [hchecked.residue, hs₁]
      exact hlength
    have hdata : r.1.dataSizeFromCmnd ≤ r.1.residue := by
      rw [hchecked.residue]
      exact hchecked.dataSize
    have hphase := transfer_phase env write hcur hdata hbound
    obtain ⟨hout, hflash⟩ := transfer_accessed hcur hokay
    obtain ⟨residue, hreply⟩ := setReply_eq (transfer env write r.1).1 (transfer env write r.1).2
    rw [hreply]
    dsimp only
    have hnophase : r.1.phaseError = false := by
      rw [← hphase]
      by_contra h
      exact hokay (.inl (by simpa using h))
    have hsame := (hchecked.allowed hnophase).1
    have hfits := hchecked.dataSize
    rw [hsame] at hfits
    subst hs₁
    dsimp only at hsame hfits hplace
    rw [← hsize] at hfits hsame
    have hlimit : 512 * form.blocks s ≤ transferLimit := by
      rcases hsafe with h | h
      · exact h
      · omega
    have hsmall : 512 * form.blocks s < 2 ^ 32 := Nat.lt_of_le_of_lt hlimit (by decide)
    have hcount : r.1.dataSizeFromCmnd / 2 ^ 9 = form.blocks s := by
      rw [hsame, u32_of_lt hsmall]
      omega
    rw [hplace, cdbLba_eq hop (hone hr) hcb, hcount] at hout hflash
    refine ⟨?_, ?_, hlimit⟩
    · rw [hout, hchecked.out, List.append_assoc, List.drop_left, List.filter_append, hquiet,
        List.append_nil, List.filter_cons_of_pos (accessEvent_isAccess _ _ _), List.filter_nil]
    · rw [hflash]
      unfold flashAccess
      rw [hkept.nand, hkept.buffer]
  · rw [if_neg hr] at hok
    exact absurd ((setReply_answers r.1 r.2).2 (hrefused hr)) hok

/-! ## Counts that are not safe -/

section Wrapped

variable {s : MscState ν} {write : Bool} {form : CdbForm}

/-- A transfer of the given form from block 0, with the count bytes of another state. -/
def countWrapper (write : Bool) (form : CdbForm) (s : MscState ν) : CommandBlockWrapper where
  dCBWSignature := 0x43425355
  dCBWTag := 0
  dCBWDataTransferLength := s.curCmd.dCBWDataTransferLength
  bmCBWFlags := if write then 0 else 0x80
  bCBWLUN := 0
  bCBWCBLength := UInt8.ofNat form.cmndSize
  cbwcb i := if i = 0 then form.opcode write else if form.isCount i then s.cb i else 0

/-- Such a transfer on a medium of 4 GiB. -/
def countState (write : Bool) (form : CdbForm) (s : MscState ν) : MscState Unit :=
  ((mscInit () fun _ => 0).withMount 0 (2 ^ 23) true).next (countWrapper write form s)

theorem countState_blocks (write : Bool) (form : CdbForm) (s : MscState ν) :
    form.blocks (countState write form s) = form.blocks s := by
  cases form <;> rfl

theorem countState_cb {i : Nat} (hi : i ≠ 0) :
    (countState write form s).cb i = if form.isCount i then s.cb i else 0 :=
  if_neg hi

theorem countState_wantsIn (write : Bool) (form : CdbForm) (s : MscState ν) :
    (countState write form s).wantsIn = !write := by
  show ((if write = true then 0 else 0x80 : UInt8) &&& 0x80 != 0) = !write
  cases write <;> decide

/-- Only the count is set, and its bytes are in the mask. -/
theorem countState_mask (s : MscState ν) {i : Nat} (hi : 1 ≤ i) :
    (countState write form s).cb i = 0 ∨ form.mask.testBit i = true := by
  rw [countState_cb (by omega)]
  by_cases h : form.isCount i
  · refine .inr ?_
    cases form with
    | six =>
        obtain rfl : i = 4 := h
        decide
    | ten =>
        obtain ⟨h7, h9⟩ : 7 ≤ i ∧ i < 9 := h
        obtain rfl | rfl : i = 7 ∨ i = 8 := by omega
        · decide
        · decide
    | twelve =>
        obtain ⟨h6, h10⟩ : 6 ≤ i ∧ i < 10 := h
        obtain rfl | rfl | rfl | rfl : i = 6 ∨ i = 7 ∨ i = 8 ∨ i = 9 := by omega
        · decide
        · decide
        · decide
        · decide
  · exact .inl (if_neg h)

theorem countState_address (write : Bool) (form : CdbForm) (s : MscState ν) :
    form.address (countState write form s) = 0 := by
  have hzero (i : Nat) (h0 : i ≠ 0) (hi : ¬ form.isCount i) :
      (countState write form s).cb i = 0 := by
    rw [countState_cb h0, if_neg hi]
  cases form with
  | six =>
      have h1 := hzero 1 (by decide) (by decide)
      have h2 := hzero 2 (by decide) (by decide)
      have h3 := hzero 3 (by decide) (by decide)
      simp [CdbForm.address, MscState.be16, h1, h2, h3]
  | ten =>
      have h2 := hzero 2 (by decide) (by decide)
      have h3 := hzero 3 (by decide) (by decide)
      have h4 := hzero 4 (by decide) (by decide)
      have h5 := hzero 5 (by decide) (by decide)
      simp [CdbForm.address, MscState.be32, MscState.be16, h2, h3, h4, h5]
  | twelve =>
      have h2 := hzero 2 (by decide) (by decide)
      have h3 := hzero 3 (by decide) (by decide)
      have h4 := hzero 4 (by decide) (by decide)
      have h5 := hzero 5 (by decide) (by decide)
      simp [CdbForm.address, MscState.be32, MscState.be16, h2, h3, h4, h5]

end Wrapped

section Pass

variable {env : MscEnv ν} {s : MscState ν}

variable (env) in
/-- A command that nothing speaks against. -/
theorem checkCommand_pass {cmndSize mask : Nat} {dataDir : DataDirection} {needsMedium : Bool}
    (hunit : s.commonLun < s.nluns)
    (hle : s.dataSizeFromCmnd ≤ s.curCmd.dCBWDataTransferLength)
    (hdir : 0 < s.dataSizeFromCmnd → dataDir = if s.wantsIn = true then .toHost else .fromHost)
    (hsize : cmndSize ≤ s.curCmd.bCBWCBLength.toNat) (hblock : s.curCmd.bCBWCBLength.toNat ≤ 16)
    (hop : s.cb 0 ≠ 0x03) (hattention : s.lun.unitAttentionData = ssNoSense)
    (hopen : needsMedium = true → s.lun.isOpen = true)
    (hzero : ∀ i, 1 ≤ i → i < 16 → s.cb i = 0 ∨ mask.testBit i = true) :
    ∃ t, checkCommand env s cmndSize dataDir mask needsMedium = (t, 0) ∧
      t.lun = s.clearSense.lun ∧ t.curlun = true ∧ t.phaseError = s.phaseError ∧
      t.dataSizeFromCmnd = s.dataSizeFromCmnd := by
  obtain ⟨s₁, hs₁⟩ : ∃ t : MscState ν, t = { s with residue := s.curCmd.dCBWDataTransferLength } :=
    ⟨_, rfl⟩
  obtain ⟨s₂, hs₂⟩ : ∃ t : MscState ν, t = { s₁.clearSense with curlun := true } := ⟨_, rfl⟩
  have hlun : checkLun s₁ = (s₂, true) := by
    rw [checkLun_eq (by rw [hs₁]; exact hunit), if_pos (by rw [hs₁]; exact hop), hs₂]
  have hmask : checkMask env s₂ s.curCmd.bCBWCBLength.toNat mask needsMedium = (s₂.maskLun, 0) := by
    refine checkMask_pass env hblock (fun h => by rw [hs₂, hs₁]; exact hopen h) fun i h1 hlt => ?_
    refine (hzero i h1 hlt).imp_left fun h => ?_
    have hcb : s₂.cb i = 0 := by
      rw [hs₂, hs₁]
      exact h
    rcases Nat.eq_or_lt_of_le h1 with rfl | h2
    · rw [maskLun_cb_one, hcb]
      rfl
    · rw [maskLun_cb (by omega), hcb]
  refine ⟨s₂.maskLun, ?_, ?_⟩
  · unfold checkCommand
    rw [checkSizes_pass hle hdir hsize, ← hs₁]
    dsimp only
    rw [hlun]
    dsimp only
    have hcalm : ¬ (s₂.curlun && s₂.lun.unitAttentionData != ssNoSense && s₂.cb 0 != 0x12 &&
        s₂.cb 0 != 0x03) = true := by
      have hnone : s₂.lun.unitAttentionData = ssNoSense := by
        rw [hs₂, hs₁]
        exact hattention
      simp [hnone]
    rw [if_neg (by decide), if_neg hcalm, hmask]
  · rw [hs₂, hs₁]
    exact ⟨rfl, rfl, rfl, rfl⟩

/-- A step that neither refuses the command nor touches the unit. -/
structure Accepted (s t : MscState ν) : Prop where
  lun : t.lun = s.lun
  curlun : t.curlun = s.curlun
  phase : t.phaseError = s.phaseError

theorem Accepted.settle {t : MscState ν} (h : Accepted s t) (residue : Nat) :
    Accepted s ({ t with residue := residue }, -errEio).1 :=
  ⟨h.lun, h.curlun, h.phase⟩

variable (env) in
theorem doRead_accepted (hflash : ∀ first count,
      (env.nandLogicRead s.nand first count s.masstorageBuffer).2.1 = 0) (hone : s.cb 1 = 0)
    (hin : beyondUnit s (cdbLba s 0x08) (s.dataSizeFromCmnd / 2 ^ 9) = false) :
    Accepted s (doRead env s).1 := by
  unfold doRead
  dsimp only
  rw [if_neg (fun h => h.2 (by rw [hone]; decide)), if_neg (by rw [hin]; decide)]
  generalize u32 (s.lun.firstSector + cdbLba s 0x08) = first
  generalize s.dataSizeFromCmnd / 2 ^ 9 = count
  obtain ⟨r, hr⟩ : ∃ r, s.logicRead env first count = r := ⟨_, rfl⟩
  have hread : Accepted s r.1 ∧ r.2 = 0 := by
    rw [← hr]
    exact ⟨⟨rfl, rfl, rfl⟩, hflash first count⟩
  rw [hr, if_neg (not_not.mpr hread.2)]
  exact hread.1.settle _

variable (env) in
theorem doWrite_accepted (hflash : ∀ first count,
      (env.nandLogicWrite s.nand first count s.masstorageBuffer).2 = 0) (hro : s.lun.ro = false)
    (hone : s.cb 1 = 0)
    (hin : beyondUnit s (cdbLba s 0x0a) (s.dataSizeFromCmnd / 2 ^ 9) = false) :
    Accepted s (doWrite env s).1 := by
  unfold doWrite
  dsimp only
  rw [if_neg (by rw [hro]; decide), if_neg (fun h => h.2 (by rw [hone]; decide)),
    if_neg (by rw [hin]; decide)]
  generalize u32 (s.lun.firstSector + cdbLba s 0x0a) = first
  generalize s.dataSizeFromCmnd / 2 ^ 9 = count
  obtain ⟨r, hr⟩ : ∃ r, s.logicWrite env first count = r := ⟨_, rfl⟩
  have hwrite : Accepted s r.1 ∧ r.2 = 0 := by
    rw [← hr]
    exact ⟨⟨rfl, rfl, rfl⟩, hflash first count⟩
  rw [hr, if_neg (not_not.mpr hwrite.2)]
  exact hwrite.1.settle _

/-- The status of a command with nothing against it. -/
theorem reply_accepted {t : MscState ν} (hcur : t.curlun = true) (hphase : t.phaseError = false)
    (hsense : t.lun.senseData = ssNoSense) : passed (sendStatus (finishReply t)).out = true := by
  have hkeep : (finishReply t).curlun = true ∧ (finishReply t).phaseError = false ∧
      (finishReply t).lun.senseData = ssNoSense := by
    unfold finishReply
    split_ifs <;> exact ⟨hcur, hphase, hsense⟩
  obtain ⟨hcur', hphase', hsense'⟩ := hkeep
  unfold sendStatus passed
  generalize finishReply t = u at hcur' hphase' hsense' ⊢
  dsimp only
  rw [List.getLast?_append, List.getLast?_singleton, Option.some_or]
  dsimp only
  rw [hcur', hphase', if_pos rfl, if_neg (by decide), if_neg (not_not.mpr hsense')]
  rfl

/-- The transfer on the medium of 4 GiB passes if the host allows what its count looks like. -/
theorem countState_passes (write : Bool) (form : CdbForm) (s : MscState ν)
    (hle : u32 (512 * form.blocks s) ≤ s.curCmd.dCBWDataTransferLength) :
    passed (execute noFlash (countState write form s)).out = true := by
  obtain ⟨size, hsize⟩ : ∃ n, u32 (512 * form.blocks s) = n := ⟨_, rfl⟩
  obtain ⟨c, hc⟩ : ∃ t, t = countState write form s := ⟨_, rfl⟩
  have hop : c.cb 0 = form.opcode write := by
    rw [hc]
    rfl
  have hcase := scsiCase_transfer noFlash hop
  rw [hc, countState_blocks, hsize, ← hc] at hcase
  obtain ⟨c₁, hc₁⟩ : ∃ t : MscState Unit,
    t = { c with phaseError := false, dataSizeFromCmnd := size } := ⟨_, rfl⟩
  rw [hsize] at hle
  have hlun : c.lun = ((mscInit () fun _ => 0).withMount 0 (2 ^ 23) true).lun := by
    rw [hc]
    rfl
  have hzero (i : Nat) (h1 : 1 ≤ i) (_ : i < 16) : c₁.cb i = 0 ∨ form.mask.testBit i = true := by
    rw [hc₁, hc]
    exact countState_mask s h1
  have hone : c.cb 1 = 0 := by
    rw [hc, countState_cb (by decide), if_neg (by cases form <;> decide)]
  have hunit : c₁.commonLun < c₁.nluns := by
    rw [hc₁, hc]
    exact Nat.zero_lt_one
  obtain ⟨dir, hdir⟩ : ∃ d : DataDirection, (if write = true then .fromHost else .toHost) = d :=
    ⟨_, rfl⟩
  rw [hdir] at hcase
  have hway : dir = if c₁.wantsIn = true then .toHost else .fromHost := by
    have hwants : c₁.wantsIn = !write := by
      rw [hc₁, hc]
      exact countState_wantsIn write form s
    rw [← hdir, hwants]
    cases write <;> rfl
  have hlen : c₁.curCmd.bCBWCBLength.toNat = form.cmndSize := by
    rw [hc₁, hc]
    cases form <;> rfl
  obtain ⟨t, ht, htlun, hcur, hphase, hdata⟩ := @checkCommand_pass _ noFlash c₁ form.cmndSize
    form.mask dir true hunit (by rw [hc₁, hc]; exact hle) (fun _ => hway)
    (Nat.le_of_eq hlen.symm) (by rw [hlen]; cases form <;> decide)
    (by
      rw [show c₁.cb 0 = c.cb 0 by rw [hc₁]; rfl, hop]
      cases write <;> cases form <;> decide)
    (by rw [hc₁]; dsimp only; rw [hlun]; rfl) (fun _ => by rw [hc₁]; dsimp only; rw [hlun]; rfl)
    hzero
  obtain ⟨-, hmasked⟩ := checkCommand_kept noFlash hunit form.cmndSize dir form.mask true
  obtain ⟨-, -, hcb⟩ := checkCommand_checked noFlash hunit form.cmndSize dir form.mask true
  rw [ht] at hmasked hcb
  replace hmasked : t.cb 1 = 0 := by
    rw [hmasked rfl, hc₁]
    show c.cb 1 &&& 0x1f = 0
    rw [hone]
    rfl
  have hkeep (i : Nat) (hi : i ≠ 1) : t.cb i = c.cb i := by
    rw [hcb i hi, hc₁]
    rfl
  have hlba : cdbLba t (CdbForm.opcode write .six) = 0 := by
    rw [cdbLba_eq (s := c) hop (by rw [hmasked, hone]; rfl) hkeep, hc, countState_address]
  have hsector : t.lun.sectorCount = 2 ^ 23 ∧ t.lun.ro = false ∧ t.lun.senseData = ssNoSense := by
    rw [htlun, hc₁]
    refine ⟨?_, ?_, rfl⟩
    · show c.lun.sectorCount = _
      rw [hlun]
      rfl
    · show c.lun.ro = _
      rw [hlun]
      rfl
  obtain ⟨hcount, hro, hsense⟩ := hsector
  have hin : beyondUnit t 0 (t.dataSizeFromCmnd / 2 ^ 9) = false := by
    have hlt : size < 2 ^ 32 := by
      rw [← hsize]
      exact u32_lt _
    have hdata' : t.dataSizeFromCmnd = size := by rw [hdata, hc₁]
    rw [beyondUnit, hcount, hdata', u32_of_lt (by omega)]
    simp only [Bool.or_eq_false_iff, decide_eq_false_iff_not]
    omega
  have haccepted : Accepted t (transfer noFlash write t).1 := by
    cases write with
    | false =>
        exact doRead_accepted noFlash (fun _ _ => rfl) hmasked (by rw [← hlba] at hin; exact hin)
    | true =>
        exact doWrite_accepted noFlash (fun _ _ => rfl) hro hmasked
          (by rw [← hlba] at hin; exact hin)
  rw [← hc]
  unfold execute doScsiCommand
  rw [hcase]
  dsimp only
  rw [← hc₁, ht]
  dsimp only
  rw [if_pos rfl]
  obtain ⟨residue, hreply⟩ := setReply_eq (transfer noFlash write t).1 (transfer noFlash write t).2
  rw [hreply]
  refine reply_accepted (haccepted.curlun.trans hcur) ?_ ?_
  · show (transfer noFlash write t).1.phaseError = false
    rw [haccepted.phase, hphase, hc₁]
  · show (transfer noFlash write t).1.lun.senseData = ssNoSense
    rw [haccepted.lun, hsense]

end Pass

/-! ## The law -/

/-- For a form of transfer, a count of blocks and a length the host announces, those of any state
`s`: every such transfer moves the blocks it says whenever it passes, and none passes beyond the
limit, if and only if the count fits the limit or does not look as if the host allowed it. -/
theorem transfers_exact_iff (write : Bool) (form : CdbForm) (s : MscState ν)
    (hlength : s.curCmd.dCBWDataTransferLength < 2 ^ 32) :
    (∀ (μ : Type) (env : MscEnv μ) (t : MscState μ), t.commonLun < t.nluns →
      t.cb 0 = form.opcode write → form.blocks t = form.blocks s →
      t.curCmd.dCBWDataTransferLength = s.curCmd.dCBWDataTransferLength →
      TransferExact env write form t (execute env t)) ↔
    512 * form.blocks s ≤ transferLimit ∨
      s.curCmd.dCBWDataTransferLength < u32 (512 * form.blocks s) := by
  constructor
  · intro h
    by_contra hunsafe
    obtain ⟨hlimit, hlooks⟩ := not_or.mp hunsafe
    have hexact := h Unit noFlash (countState write form s) Nat.zero_lt_one rfl
      (countState_blocks write form s) rfl
      (countState_passes write form s (Nat.le_of_not_lt hlooks))
    rw [countState_blocks] at hexact
    exact hlimit hexact.2.2
  · intro hsafe μ env t hunit hop hblocks hlen
    rw [← hblocks, ← hlen] at hsafe
    exact execute_exact env hunit (by rw [hlen]; exact hlength) hop hsafe

/-- A `READ(10)` of the sixth block. -/
def oneRead : MscState Unit :=
  ((mscInit () fun _ => 0).withMount 0 16 true).next
    ⟨0x43425355, 0, 512, 0x80, 0, 10, fun i => [0x28, 0, 0, 0, 0, 5, 0, 0, 1, 0].getD i 0⟩

theorem transfers_exact_iff_oneRead :
    TransferExact noFlash false .ten oneRead (execute noFlash oneRead) :=
  (transfers_exact_iff false .ten oneRead (by decide)).mpr (.inl (by decide)) Unit noFlash oneRead
    (by decide) rfl rfl rfl

/-- A `READ(12)` of `2 ^ 23` blocks, for which the host expects no data. -/
def wrappedRead : MscState Unit :=
  ((mscInit () fun _ => 0).withMount 0 16 true).next
    (bareWrapper [0xa8, 0, 0, 0, 0, 0, 0, 0x80, 0, 0, 0, 0])

/-- It passes without a block being read. -/
theorem wrappedRead_passes :
    wrappedRead.be32 6 = 2 ^ 23 ∧ passed (execute noFlash wrappedRead).out = true ∧
      ¬ TransferExact noFlash false .twelve wrappedRead (execute noFlash wrappedRead) := by
  have hpassed : passed (execute noFlash wrappedRead).out = true := by decide
  refine ⟨rfl, hpassed, fun h => ?_⟩
  exact absurd (h hpassed).2.2 (by decide)

end Novo7
