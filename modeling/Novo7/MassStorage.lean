import Novo7.Storage
import Novo7.Buffer
import Novo7.Bytes

/-!
# The mass-storage interface

`masstorage.c` answers the SCSI commands of a USB host: a command block wrapper of 31 bytes,
the data of the command if it goes to the device, then the command is carried out and a reply
and a status wrapper are sent. One unit exists; it gives access to a range of sectors of the
flash disk that a separate request mounts.

The flash disk below (`NAND_LogicRead`, `NAND_LogicWrite`) is a parameter, with a state of its
own. What the handler asks of the flash and what it sends is recorded in `out`, in order.
-/

namespace Novo7

open Machine Buffer Bytes

/-! ## Data -/

/-- `struct SCSICommandBlockWrapper`. -/
structure CommandBlockWrapper where
  dCBWSignature : Nat
  dCBWTag : Nat
  dCBWDataTransferLength : Nat
  bmCBWFlags : UInt8
  bCBWLUN : UInt8
  bCBWCBLength : UInt8
  cbwcb : Nat → UInt8

/-- `struct SCSICommandStatusWrapper`. -/
structure CommandStatusWrapper where
  dCSWSignature : Nat
  dCSWTag : Nat
  dCSWDataResidue : Nat
  bCSWStatus : Nat
  deriving Repr, DecidableEq

/-- `struct fsg_lun`, the unit. -/
structure FsgLun where
  isOpen : Bool
  firstSector : Nat
  sectorCount : Nat
  ro : Bool
  removable : Bool
  preventMediumRemoval : Bool
  infoValid : Bool
  senseData : Nat
  senseDataInfo : Nat
  unitAttentionData : Nat
  deriving Repr, DecidableEq

/-- What the handler asks of the flash disk and what it sends to the host. -/
inductive MscEvent where
  | logicRead (first count : Nat)
  | logicWrite (first count : Nat)
  | txData (data : List UInt8)
  | txStatus (csw : CommandStatusWrapper)
  deriving Repr, DecidableEq

/-- The globals of `masstorage.c` (`struct fsg_common` and the unit, the current wrapper and
the count of its data bytes), the transfer buffer and the flash disk. `curlun` says whether
the pointer of that name is set: there is one unit it can point to. -/
structure MscState (ν : Type) where
  lun : FsgLun
  nluns : Nat
  commonLun : Nat
  curlun : Bool
  dataSizeFromCmnd : Nat
  residue : Nat
  phaseError : Bool
  badLunOkay : Bool
  curCmd : CommandBlockWrapper
  curCmdBytesWritten : Nat
  masstorageBuffer : Nat → UInt8
  nand : ν
  out : List MscEvent

/-- The flash disk, and the bytes a read past the end of the wrapper finds. -/
structure MscEnv (ν : Type) where
  nandLogicRead : ν → Nat → Nat → (Nat → UInt8) → ν × Int × (Nat → UInt8)
  nandLogicWrite : ν → Nat → Nat → (Nat → UInt8) → ν × Int
  past : MscState ν → Nat → UInt8

/-! Sense keys with their additional codes, and the two error results. -/

def ssNoSense : Nat := 0
def ssInvalidCommand : Nat := 0x052000
def ssInvalidFieldInCdb : Nat := 0x052400
def ssLogicalBlockAddressOutOfRange : Nat := 0x052100
def ssLogicalUnitNotSupported : Nat := 0x052500
def ssMediumNotPresent : Nat := 0x023a00
def ssMediumRemovalPrevented : Nat := 0x055302
def ssSavingParametersNotSupported : Nat := 0x053900
def ssUnrecoveredReadError : Nat := 0x031100
def ssWriteError : Nat := 0x030c02
def ssWriteProtected : Nat := 0x072700

def errEinval : Int := 1
def errEio : Int := 2

variable {ν : Type}

namespace MscState

/-- `curlun->sense_data = code`. -/
def sense (s : MscState ν) (code : Nat) : MscState ν :=
  { s with lun := { s.lun with senseData := code } }

/-- The sense data with the block address it is about. -/
def senseInfo (s : MscState ν) (code info : Nat) : MscState ν :=
  { s with lun := { s.lun with senseData := code, senseDataInfo := info, infoValid := true } }

/-- Bytes stored into `masstorage_buffer`. -/
def put (s : MscState ν) (off : Nat) (bytes : List UInt8) : MscState ν :=
  { s with masstorageBuffer := store s.masstorageBuffer off bytes.length fun i => bytes.getD i 0 }

/-- The host asks for data. -/
def wantsIn (s : MscState ν) : Bool := s.curCmd.bmCBWFlags &&& 0x80 != 0

/-- Byte `i` of the command block. -/
def cb (s : MscState ν) (i : Nat) : UInt8 := s.curCmd.cbwcb i

/-- `get_unaligned_be16(&cur_cmd.CBWCB[i])`. -/
def be16 (s : MscState ν) (i : Nat) : Nat := (s.cb i).toNat * 2 ^ 8 + (s.cb (i + 1)).toNat

/-- `get_unaligned_be24(&cur_cmd.CBWCB[i])`. -/
def be24 (s : MscState ν) (i : Nat) : Nat := (s.cb i).toNat * 2 ^ 16 + s.be16 (i + 1)

/-- `get_unaligned_be32(&cur_cmd.CBWCB[i])`. -/
def be32 (s : MscState ν) (i : Nat) : Nat := s.be16 i * 2 ^ 16 + s.be16 (i + 2)

end MscState

/-- `put_unaligned_be16`. -/
def beBytes16 (n : Nat) : List UInt8 := [UInt8.ofNat (n / 2 ^ 8), UInt8.ofNat n]

/-- `put_unaligned_be32`. -/
def beBytes32 (n : Nat) : List UInt8 := beBytes16 (n / 2 ^ 16) ++ beBytes16 n

/-- `memcpy(&cur_cmd, buffer, sizeof(cur_cmd))`. -/
def decodeWrapper (buffer : List UInt8) : CommandBlockWrapper where
  dCBWSignature := field buffer 0 4
  dCBWTag := field buffer 4 4
  dCBWDataTransferLength := field buffer 8 4
  bmCBWFlags := buffer.getD 12 0
  bCBWLUN := buffer.getD 13 0
  bCBWCBLength := buffer.getD 14 0
  cbwcb i := buffer.getD (15 + i) 0

/-! ## Commands -/

/-- A call of `NAND_LogicRead` into `masstorage_buffer`. -/
def MscState.logicRead (env : MscEnv ν) (s : MscState ν) (first count : Nat) :
    MscState ν × Int :=
  let (nand, res, buf) := env.nandLogicRead s.nand first count s.masstorageBuffer
  ({ s with nand := nand, masstorageBuffer := buf, out := s.out ++ [.logicRead first count] }, res)

/-- A call of `NAND_LogicWrite` from `masstorage_buffer`. -/
def MscState.logicWrite (env : MscEnv ν) (s : MscState ν) (first count : Nat) :
    MscState ν × Int :=
  let (nand, res) := env.nandLogicWrite s.nand first count s.masstorageBuffer
  ({ s with nand := nand, out := s.out ++ [.logicWrite first count] }, res)

/-- The address of a `READ` or `WRITE`, whose 6-byte form has the code `op6`. -/
def cdbLba (s : MscState ν) (op6 : UInt8) : Nat := if s.cb 0 = op6 then s.be24 1 else s.be32 2

/-- `lba >= curlun->sectorCount || lba + sectorCount > curlun->sectorCount`. -/
def beyondUnit (s : MscState ν) (lba count : Nat) : Bool :=
  decide (lba ≥ s.lun.sectorCount) || decide (u32 (lba + count) > s.lun.sectorCount)

/-- `do_read`. -/
def doRead (env : MscEnv ν) (s : MscState ν) : MscState ν × Int :=
  let lba := cdbLba s 0x08
  let sectorCount := s.dataSizeFromCmnd / 2 ^ 9
  if s.cb 0 ≠ 0x08 ∧ s.cb 1 &&& ~~~0x18 ≠ 0 then (s.sense ssInvalidFieldInCdb, -errEinval)
  else if beyondUnit s lba sectorCount then
    (s.sense ssLogicalBlockAddressOutOfRange, -errEinval)
  else
    let (s, res) := s.logicRead env (u32 (s.lun.firstSector + lba)) sectorCount
    let s := if res ≠ 0 then s.senseInfo ssUnrecoveredReadError lba else s
    ({ s with residue := sub32 s.residue (u32 (sectorCount * 2 ^ 9)) }, -errEio)

/-- `do_write`. -/
def doWrite (env : MscEnv ν) (s : MscState ν) : MscState ν × Int :=
  let lba := cdbLba s 0x0a
  let sectorCount := s.dataSizeFromCmnd / 2 ^ 9
  if s.lun.ro then (s.sense ssWriteProtected, -errEinval)
  else if s.cb 0 ≠ 0x0a ∧ s.cb 1 &&& ~~~0x18 ≠ 0 then (s.sense ssInvalidFieldInCdb, -errEinval)
  else if beyondUnit s lba sectorCount then
    (s.sense ssLogicalBlockAddressOutOfRange, -errEinval)
  else
    let (s, res) := s.logicWrite env (u32 (s.lun.firstSector + lba)) sectorCount
    if res ≠ 0 then (s.senseInfo ssWriteError lba, -errEio)
    else ({ s with residue := sub32 s.residue (u32 (sectorCount * 2 ^ 9)) }, -errEio)

/-- `do_synchronize_cache`: `fsg_lun_fsync_sub` returns 0 in every case. -/
def doSynchronizeCache (s : MscState ν) : MscState ν × Int := (s, 0)

/-- `while (amount_left > 0)` of `do_verify`. -/
def verifyLoop (env : MscEnv ν) : Nat → MscState ν → Nat → Nat → MscState ν
  | 0, s, _, _ => s
  | fuel + 1, s, lba, amountLeft =>
    if amountLeft = 0 then s
    else
      let amount := if amountLeft < 4096 then amountLeft else 4096
      let (s, res) := s.logicRead env (u32 (s.lun.firstSector + lba)) amount
      if res ≠ 0 then s.senseInfo ssUnrecoveredReadError lba
      else verifyLoop env fuel s (u32 (lba + amount)) (amountLeft - amount)

/-- `do_verify`. -/
def doVerify (env : MscEnv ν) (s : MscState ν) : MscState ν × Int :=
  let lba := s.be32 2
  let verificationLength := s.be16 7
  if lba ≥ s.lun.sectorCount then (s.sense ssLogicalBlockAddressOutOfRange, -errEinval)
  else if s.cb 1 &&& ~~~0x10 ≠ 0 then (s.sense ssInvalidFieldInCdb, -errEinval)
  else if verificationLength = 0 then (s, -errEio)
  else if u32 (lba + verificationLength) > s.lun.sectorCount then
    (s.senseInfo ssLogicalBlockAddressOutOfRange (sub32 (u32 (lba + verificationLength)) 1),
      -errEinval)
  else (verifyLoop env verificationLength s lba verificationLength, 0)

/-- `inquiry_string` with its final zero. -/
def inquiryString : List UInt8 :=
  "Generic AllwinDisk      0.01".toList.map (fun c => UInt8.ofNat c.toNat) ++ [0]

/-- `do_inquiry`. -/
def doInquiry (s : MscState ν) : MscState ν × Int :=
  if s.curlun then
    (s.put 0 ([0, if s.lun.removable then 0x80 else 0, 2, 2, 31, 0, 0, 0] ++ inquiryString), 36)
  else
    ({ s with badLunOkay := true }.put 0 ([0x7f, 0, 0, 0, 31] ++ List.replicate 31 0), 36)

/-- The 18 bytes of sense data. -/
def senseBytes (valid : Bool) (sd sdinfo : Nat) : List UInt8 :=
  [if valid then 0xf0 else 0x70, 0, UInt8.ofNat (sd / 2 ^ 16)] ++ beBytes32 sdinfo ++
    [10, 0, 0, 0, 0, UInt8.ofNat (sd / 2 ^ 8), UInt8.ofNat sd, 0, 0, 0, 0]

/-- `do_request_sense`. -/
def doRequestSense (s : MscState ν) : MscState ν × Int :=
  if s.curlun then
    ({ s with lun := { s.lun with senseData := ssNoSense, senseDataInfo := 0, infoValid := false }
      }.put 0 (senseBytes s.lun.infoValid s.lun.senseData s.lun.senseDataInfo), 18)
  else
    ({ s with badLunOkay := true }.put 0 (senseBytes false ssLogicalUnitNotSupported 0), 18)

/-- `do_read_capacity`. -/
def doReadCapacity (s : MscState ν) : MscState ν × Int :=
  if s.cb 8 > 1 ∨ (s.cb 8 = 0 ∧ s.be32 2 ≠ 0) then (s.sense ssInvalidFieldInCdb, -errEinval)
  else (s.put 0 (beBytes32 (sub32 s.lun.sectorCount 1) ++ beBytes32 512), 8)

/-- The caching page of `do_mode_sense`. -/
def cachingPage (changeableValues : Bool) : List UInt8 :=
  [0x08, 10] ++
    if changeableValues then List.replicate 10 0
    else [0x04, 0, 0xff, 0xff, 0, 0, 0xff, 0xff, 0xff, 0xff]

/-- `do_mode_sense`. -/
def doModeSense (s : MscState ν) : MscState ν × Int :=
  let pc := s.cb 2 >>> 6
  let pageCode := s.cb 2 &&& 0x3f
  let wp : UInt8 := if s.lun.ro then 0x80 else 0
  if s.cb 1 &&& ~~~0x08 ≠ 0 then (s.sense ssInvalidFieldInCdb, -errEinval)
  else if pc = 3 then (s.sense ssSavingParametersNotSupported, -errEinval)
  else
    let short := s.cb 0 = 0x1a
    let header : List UInt8 := if short then [0, 0, wp, 0, 0, 0, 0, 0] else [0, 0, 0, wp, 0, 0, 0, 0]
    let headerLen := if short then 4 else 8
    let s := s.put 0 header
    if pageCode = 0x08 ∨ pageCode = 0x3f then
      let s := s.put headerLen (cachingPage (pc = 1))
      let len := headerLen + 12
      (s.put 0 (if short then [UInt8.ofNat (len - 1)] else beBytes16 (len - 2)), len)
    else (s.sense ssInvalidFieldInCdb, -errEinval)

/-- It fails with sense data of its own, or puts a reply of 16 or 20 bytes into the buffer. -/
theorem doModeSense_cases (s : MscState ν) : ∃ buf : Nat → UInt8,
    (∃ code, (code = ssInvalidFieldInCdb ∨ code = ssSavingParametersNotSupported) ∧
      doModeSense s = (MscState.sense { s with masstorageBuffer := buf } code, -errEinval)) ∨
    doModeSense s = ({ s with masstorageBuffer := buf }, if s.cb 0 = 0x1a then 16 else 20) := by
  unfold doModeSense
  dsimp only
  by_cases hfield : s.cb 1 &&& ~~~0x08 ≠ 0
  · rw [if_pos hfield]
    exact ⟨_, .inl ⟨_, .inl rfl, rfl⟩⟩
  rw [if_neg hfield]
  by_cases hsaved : s.cb 2 >>> 6 = 3
  · rw [if_pos hsaved]
    exact ⟨_, .inl ⟨_, .inr rfl, rfl⟩⟩
  rw [if_neg hsaved]
  by_cases hpage : s.cb 2 &&& 0x3f = 0x08 ∨ s.cb 2 &&& 0x3f = 0x3f
  · rw [if_pos hpage]
    by_cases hshort : s.cb 0 = 0x1a
    · simp only [if_pos hshort]
      exact ⟨_, .inr rfl⟩
    · simp only [if_neg hshort]
      exact ⟨_, .inr rfl⟩
  · rw [if_neg hpage]
    exact ⟨_, .inl ⟨_, .inl rfl, rfl⟩⟩

/-- `fsg_lun_close`. -/
def fsgLunClose (s : MscState ν) : MscState ν := { s with lun := { s.lun with isOpen := false } }

/-- `do_start_stop`. -/
def doStartStop (s : MscState ν) : MscState ν × Int :=
  if !s.curlun then (s, -errEinval)
  else if !s.lun.removable then (s.sense ssInvalidCommand, -errEinval)
  else if s.cb 1 &&& ~~~0x01 ≠ 0 ∨ s.cb 4 &&& ~~~0x03 ≠ 0 then
    (s.sense ssInvalidFieldInCdb, -errEinval)
  else if s.cb 4 &&& 0x01 ≠ 0 then
    if !s.lun.isOpen then (s.sense ssMediumNotPresent, -errEinval) else (s, 0)
  else if s.lun.preventMediumRemoval then (s.sense ssMediumRemovalPrevented, -errEinval)
  else if s.cb 4 &&& 0x02 = 0 then (s, 0)
  else (fsgLunClose s, 0)

/-- `do_prevent_allow`. -/
def doPreventAllow (s : MscState ν) : MscState ν × Int :=
  if !s.curlun then (s, -errEinval)
  else if !s.lun.removable then (s.sense ssInvalidCommand, -errEinval)
  else if s.cb 4 &&& ~~~0x01 ≠ 0 then (s.sense ssInvalidFieldInCdb, -errEinval)
  else
    ({ s with lun := { s.lun with preventMediumRemoval := s.cb 4 &&& 0x01 != 0 } }, 0)

/-- `do_read_format_capacities`. -/
def doReadFormatCapacities (s : MscState ν) : MscState ν × Int :=
  (s.put 0 ([0, 0, 0, 8] ++ beBytes32 s.lun.sectorCount ++ [2, 0, 2, 0]), 12)

/-- `do_mode_select`. -/
def doModeSelect (s : MscState ν) : MscState ν × Int :=
  (if s.curlun then s.sense ssInvalidCommand else s, -errEinval)

/-! ## The command switch -/

/-- `enum data_direction`. -/
inductive DataDirection where
  | unknown
  | fromHost
  | toHost
  | none
  deriving Repr, DecidableEq

/-- `check_command` up to the choice of the unit: direction, sizes and command length. The
`Option` is the length the command bytes are checked for. -/
def checkSizes (s : MscState ν) (cmndSize : Nat) (dataDir : DataDirection) :
    MscState ν × Option Nat :=
  let cbwDataDir : DataDirection :=
    if s.curCmd.dCBWDataTransferLength = 0 then .none
    else if s.wantsIn then .toHost else .fromHost
  let dataDir := if s.dataSizeFromCmnd = 0 then .none else dataDir
  let s :=
    if s.curCmd.dCBWDataTransferLength < s.dataSizeFromCmnd then
      { s with dataSizeFromCmnd := s.curCmd.dCBWDataTransferLength, phaseError := true }
    else s
  let s := { s with residue := s.curCmd.dCBWDataTransferLength }
  if cbwDataDir ≠ dataDir ∧ s.dataSizeFromCmnd > 0 then ({ s with phaseError := true }, none)
  else if cmndSize ≠ s.curCmd.bCBWCBLength.toNat then
    if cmndSize ≤ s.curCmd.bCBWCBLength.toNat then (s, some s.curCmd.bCBWCBLength.toNat)
    else ({ s with phaseError := true }, none)
  else (s, some cmndSize)

/-- It sets the sizes and may find a phase error, and changes nothing else. -/
theorem checkSizes_state (s : MscState ν) (cmndSize : Nat) (dataDir : DataDirection) :
    ∃ size phase, (checkSizes s cmndSize dataDir).1 =
        { s with
          residue := s.curCmd.dCBWDataTransferLength, dataSizeFromCmnd := size,
          phaseError := phase } ∧
      size ≤ s.dataSizeFromCmnd ∧
      ((checkSizes s cmndSize dataDir).2 = none → phase = true) := by
  unfold checkSizes
  dsimp only
  generalize (if s.curCmd.dCBWDataTransferLength = 0 then DataDirection.none
    else if s.wantsIn then .toHost else .fromHost) = cbwDataDir
  generalize (if s.dataSizeFromCmnd = 0 then DataDirection.none else dataDir) = dataDir'
  by_cases hclip : s.curCmd.dCBWDataTransferLength < s.dataSizeFromCmnd
  · have hle := Nat.le_of_lt hclip
    rw [if_pos hclip]
    split
    · exact ⟨_, _, rfl, hle, fun _ => rfl⟩
    · split
      · split
        · exact ⟨_, _, rfl, hle, fun h => nomatch h⟩
        · exact ⟨_, _, rfl, hle, fun _ => rfl⟩
      · exact ⟨_, _, rfl, hle, fun h => nomatch h⟩
  · rw [if_neg hclip]
    split
    · exact ⟨_, _, rfl, Nat.le_refl _, fun _ => rfl⟩
    · split
      · split
        · exact ⟨_, _, rfl, Nat.le_refl _, fun h => nomatch h⟩
        · exact ⟨_, _, rfl, Nat.le_refl _, fun _ => rfl⟩
      · exact ⟨_, _, rfl, Nat.le_refl _, fun h => nomatch h⟩

/-- The choice of the unit in `check_command`. -/
def checkLun (s : MscState ν) : MscState ν × Bool :=
  if s.commonLun < s.nluns then
    let s := { s with curlun := true }
    (if s.cb 0 ≠ 0x03 then
      { s with lun := { s.lun with senseData := ssNoSense, senseDataInfo := 0, infoValid := false } }
     else s, true)
  else
    ({ s with curlun := false, badLunOkay := false }, s.cb 0 = 0x12 || s.cb 0 = 0x03)

/-- A byte of the command block as the mask check reads it. -/
def MscState.cbRead (env : MscEnv ν) (s : MscState ν) (i : Nat) : UInt8 :=
  if i < 16 then s.cb i else env.past s i

/-- The end of `check_command`: only bytes of the mask may be set, and the medium must be
there if it is needed. A shift by 32 or more gives 0, as on the machine. -/
def checkMask (env : MscEnv ν) (s : MscState ν) (cmndSize mask : Nat) (needsMedium : Bool) :
    MscState ν × Int :=
  let s := { s with
    curCmd := { s.curCmd with cbwcb := Function.update s.curCmd.cbwcb 1 (s.cb 1 &&& 0x1f) } }
  if (List.range cmndSize).any fun i =>
      decide (1 ≤ i) && (s.cbRead env i != 0) && !(decide (i < 32) && mask.testBit i) then
    (if s.curlun then s.sense ssInvalidFieldInCdb else s, -errEinval)
  else if s.curlun && !s.lun.isOpen && needsMedium then (s.sense ssMediumNotPresent, -errEinval)
  else (s, 0)

/-- `check_command`. -/
def checkCommand (env : MscEnv ν) (s : MscState ν) (cmndSize : Nat) (dataDir : DataDirection)
    (mask : Nat) (needsMedium : Bool) : MscState ν × Int :=
  match checkSizes s cmndSize dataDir with
  | (s, none) => (s, -errEinval)
  | (s, some cmndSize) =>
    let (s, ok) := checkLun s
    if !ok then (s, -errEinval)
    else if s.curlun && s.lun.unitAttentionData != ssNoSense && s.cb 0 != 0x12 && s.cb 0 != 0x03 then
      ({ s with lun := { s.lun with
          senseData := s.lun.unitAttentionData, unitAttentionData := ssNoSense } }, -errEinval)
    else checkMask env s cmndSize mask needsMedium

/-- One case of the switch in `do_scsi_command`: the size the command block asks for, the
arguments of `check_command`, and the command itself. -/
structure ScsiCase (ν : Type) where
  dataSize : Nat
  cmndSize : Nat
  dataDir : DataDirection
  mask : Nat
  needsMedium : Bool
  action : MscState ν → MscState ν × Int

/-- The block count of the 6-byte `READ` and `WRITE`. -/
def count6 (s : MscState ν) : Nat := if s.cb 4 = 0 then 256 else (s.cb 4).toNat

/-- `switch (cur_cmd.CBWCB[0])`, in the order of the source. -/
def scsiCase (env : MscEnv ν) (s : MscState ν) : ScsiCase ν :=
  match (s.cb 0).toNat with
  | 0x12 => ⟨(s.cb 4).toNat, 6, .toHost, 1 <<< 4, false, doInquiry⟩
  | 0x15 => ⟨(s.cb 4).toNat, 6, .fromHost, 1 <<< 1 ||| 1 <<< 4, false, doModeSelect⟩
  | 0x55 => ⟨s.be16 7, 10, .fromHost, 1 <<< 1 ||| 3 <<< 7, false, doModeSelect⟩
  | 0x1a => ⟨(s.cb 4).toNat, 6, .toHost, 1 <<< 1 ||| 1 <<< 2 ||| 1 <<< 4, false, doModeSense⟩
  | 0x5a => ⟨s.be16 7, 10, .toHost, 1 <<< 1 ||| 1 <<< 2 ||| 3 <<< 7, false, doModeSense⟩
  | 0x1e => ⟨0, 6, .none, 1 <<< 4, false, doPreventAllow⟩
  | 0x08 => ⟨count6 s * 2 ^ 9, 6, .toHost, 7 <<< 1 ||| 1 <<< 4, true, doRead env⟩
  | 0x28 => ⟨s.be16 7 * 2 ^ 9, 10, .toHost, 1 <<< 1 ||| 0xf <<< 2 ||| 3 <<< 7, true, doRead env⟩
  | 0xa8 =>
    ⟨u32 (s.be32 6 * 2 ^ 9), 12, .toHost, 1 <<< 1 ||| 0xf <<< 2 ||| 0xf <<< 6, true, doRead env⟩
  | 0x25 => ⟨8, 10, .toHost, 0xf <<< 2 ||| 1 <<< 8, true, doReadCapacity⟩
  | 0x23 => ⟨s.be16 7, 10, .toHost, 3 <<< 7, true, doReadFormatCapacities⟩
  | 0x03 => ⟨(s.cb 4).toNat, 6, .toHost, 1 <<< 4, false, doRequestSense⟩
  | 0x1b => ⟨0, 6, .none, 1 <<< 1 ||| 1 <<< 4, false, doStartStop⟩
  | 0x35 => ⟨0, 10, .none, 0xf <<< 2 ||| 3 <<< 7, true, doSynchronizeCache⟩
  | 0x00 => ⟨0, 6, .none, 0, true, fun s => (s, 0)⟩
  | 0x2f => ⟨0, 10, .none, 1 <<< 1 ||| 0xf <<< 2 ||| 3 <<< 7, true, doVerify env⟩
  | 0x0a => ⟨count6 s * 2 ^ 9, 6, .fromHost, 7 <<< 1 ||| 1 <<< 4, true, doWrite env⟩
  | 0x2a => ⟨s.be16 7 * 2 ^ 9, 10, .fromHost, 1 <<< 1 ||| 0xf <<< 2 ||| 3 <<< 7, true, doWrite env⟩
  | 0xaa =>
    ⟨u32 (s.be32 6 * 2 ^ 9), 12, .fromHost, 1 <<< 1 ||| 0xf <<< 2 ||| 0xf <<< 6, true, doWrite env⟩
  | _ =>
    ⟨0, s.curCmd.bCBWCBLength.toNat, .unknown, 0xffffffff, false,
      fun s => (s.sense ssInvalidCommand, -errEinval)⟩

/-- The end of `do_scsi_command`: an error reply has no data. -/
def setReply (s : MscState ν) (reply : Int) : MscState ν :=
  let reply := if reply = -errEinval then 0 else reply
  if reply ≥ 0 ∧ s.curCmd.dCBWDataTransferLength ≠ 0 ∧ s.wantsIn then
    { s with residue := sub32 s.residue (min reply.toNat s.dataSizeFromCmnd) }
  else s

/-- `do_scsi_command`. -/
def doScsiCommand (env : MscEnv ν) (s : MscState ν) : MscState ν :=
  let c := scsiCase env s
  let (s, reply) := checkCommand env { s with phaseError := false, dataSizeFromCmnd := c.dataSize }
    c.cmndSize c.dataDir c.mask c.needsMedium
  let (s, reply) := if reply = 0 then c.action s else (s, reply)
  setReply s reply

/-- `finish_reply`. -/
def finishReply (s : MscState ν) : MscState ν :=
  if s.curCmd.dCBWDataTransferLength ≠ 0 ∧ s.wantsIn then
    { s with out := s.out ++
        [.txData ((List.range s.curCmd.dCBWDataTransferLength).map s.masstorageBuffer)] }
  else s

/-- `send_status`. -/
def sendStatus (s : MscState ν) : MscState ν :=
  let sd :=
    if s.curlun then s.lun.senseData
    else if s.badLunOkay then ssNoSense else ssLogicalUnitNotSupported
  let status := if s.phaseError then 2 else if sd ≠ ssNoSense then 1 else 0
  { s with out := s.out ++ [.txStatus ⟨0x53425355, s.curCmd.dCBWTag, s.residue, status⟩] }

/-! ## Packets and mounts -/

/-- Whether a command is awaited, respectively complete. -/
def MscState.commandEnds (s : MscState ν) : Prop :=
  s.curCmd.dCBWDataTransferLength = 0 ∨ s.wantsIn ∨
    s.curCmd.dCBWDataTransferLength = s.curCmdBytesWritten

instance (s : MscState ν) : Decidable s.commandEnds := inferInstanceAs (Decidable (_ ∨ _ ∨ _))

/-- The command, once all of its data is there. -/
def executeIfComplete (env : MscEnv ν) (s : MscState ν) : MscState ν :=
  if s.commandEnds then sendStatus (finishReply (doScsiCommand env s)) else s

/-- `masstorage_rx_handler`. -/
def masstorageRxHandler (env : MscEnv ν) (s : MscState ν) (buffer : List UInt8) : MscState ν :=
  if s.commandEnds then
    if buffer.length ≠ 31 then s
    else
      let s := { s with curCmd := decodeWrapper buffer }
      if s.curCmd.dCBWSignature ≠ 0x43425355 then s
      else if s.curCmd.dCBWDataTransferLength > 0x1000000 then s
      else executeIfComplete env { s with curCmdBytesWritten := 0 }
  else
    let toWrite := sub32 s.curCmd.dCBWDataTransferLength s.curCmdBytesWritten
    let toWrite := if buffer.length ≤ toWrite then buffer.length else toWrite
    executeIfComplete env { s with
      masstorageBuffer := store s.masstorageBuffer s.curCmdBytesWritten toWrite
        fun i => buffer.getD i 0
      curCmdBytesWritten := u32 (s.curCmdBytesWritten + toWrite) }

/-- The unit opened for a range. -/
def MscState.withMount (s : MscState ν) (firstSector sectorCount : Nat) (readWrite : Bool) :
    MscState ν :=
  { s with lun := { s.lun with
      firstSector := firstSector, sectorCount := sectorCount, ro := !readWrite, isOpen := true } }

/-- `masstorage_mount`. -/
def masstorageMount (info : StorageInfo) (s : MscState ν) (firstSector sectorCount : Nat)
    (readWrite : Bool) : MscState ν × Int :=
  let diskSectCount := nandGetDiskSize info
  if s.lun.isOpen then (s, -1)
  else if firstSector ≥ diskSectCount ∨ u32 (firstSector + sectorCount) > diskSectCount then (s, -1)
  else (s.withMount firstSector sectorCount readWrite, 0)

/-- The state the program starts in. -/
def mscInit (nand : ν) (buffer : Nat → UInt8) : MscState ν where
  lun := ⟨false, 0, 0, true, true, false, false, 0, 0, 0⟩
  nluns := 1
  commonLun := 0
  curlun := false
  dataSizeFromCmnd := 0
  residue := 0
  phaseError := false
  badLunOkay := false
  curCmd := ⟨0, 0, 0, 0, 0, 0, fun _ => 0⟩
  curCmdBytesWritten := 0
  masstorageBuffer := buffer
  nand := nand
  out := []

end Novo7
