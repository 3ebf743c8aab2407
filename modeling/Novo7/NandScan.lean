import Novo7.Storage
import Novo7.Dispatch
import Novo7.NandPhysic
import Novo7.LogicCtl

/-!
# Scanning the flash chips

`SCN_AnalyzeNandSystem` looks the boot chip up in the identification tables and counts the
chips that answer with the same identification. What it finds fixes the geometry of the disk:
`FMT_Init` derives the parameters of the flash translation layer from it, `LML_Init` and
`NAND_GetDiskSize` the capacity, and `FMT_GetFlashMemProperties` what the host is told.

The tables are finite but the formulas are not tied to them: `Regular` collects what the rows
have in common, `scan_regular` checks it of every row and chip count, and the results about
sizes follow from it alone.
-/

namespace Novo7

open Machine

/-! ## The identification tables -/

/-- `struct __OptionalPhyOpPar_t` without its command bytes. -/
structure OptionalPhyOpPar where
  badBlockFlagPosition : Nat
  multiPlaneBlockOffset : Nat

/-- `struct __NandPhyInfoPar_t`: the bytes of the identification that are compared (`0xff`
matches any), and the geometry. -/
structure NandPhyInfoPar where
  nandId : List Nat
  dieCntPerChip : Nat
  sectCntPerPage : Nat
  pageCntPerBlk : Nat
  blkCntPerDie : Nat
  operationOpt : Nat
  validBlkRatio : Nat
  optionOp : OptionalPhyOpPar

def physicArchiPara0 : OptionalPhyOpPar := ⟨1, 1⟩
def physicArchiPara1 : OptionalPhyOpPar := ⟨0, 1⟩
def physicArchiPara2 : OptionalPhyOpPar := ⟨2, 1⟩
def physicArchiPara3 : OptionalPhyOpPar := ⟨2, 1⟩
def physicArchiPara4 : OptionalPhyOpPar := ⟨1, 1⟩
def physicArchiPara5 : OptionalPhyOpPar := ⟨0, 0⟩
def physicArchiPara6 : OptionalPhyOpPar := ⟨0, 1024⟩
def physicArchiPara7 : OptionalPhyOpPar := ⟨0, 2048⟩
def physicArchiPara8 : OptionalPhyOpPar := ⟨2, 1⟩
def physicArchiPara9 : OptionalPhyOpPar := ⟨2, 1⟩

def samsungNandTbl : List NandPhyInfoPar := [
  ⟨[0xec, 0xf1, 0xff, 0x15, 0xff, 0xff], 1, 4, 64, 1024, 0x0000, 974, physicArchiPara0⟩,
  ⟨[0xec, 0xf1, 0x00, 0x95, 0xff, 0xff], 1, 4, 64, 1024, 0x0000, 974, physicArchiPara0⟩,
  ⟨[0xec, 0xda, 0xff, 0x15, 0xff, 0xff], 2, 4, 64, 1024, 0x0000, 974, physicArchiPara0⟩,
  ⟨[0xec, 0xda, 0x10, 0x95, 0xff, 0xff], 1, 4, 64, 2048, 0x0008, 974, physicArchiPara0⟩,
  ⟨[0xec, 0xdc, 0xc1, 0x15, 0xff, 0xff], 2, 4, 64, 2048, 0x0000, 974, physicArchiPara0⟩,
  ⟨[0xec, 0xdc, 0x10, 0x95, 0xff, 0xff], 1, 4, 64, 4096, 0x0018, 974, physicArchiPara0⟩,
  ⟨[0xec, 0xd3, 0x51, 0x95, 0xff, 0xff], 2, 4, 64, 4096, 0x0018, 974, physicArchiPara0⟩,
  ⟨[0xec, 0xd3, 0x50, 0xa6, 0xff, 0xff], 1, 4, 128, 4096, 0x0018, 974, physicArchiPara1⟩,
  ⟨[0xec, 0xd5, 0x51, 0xa6, 0xff, 0xff], 2, 4, 128, 4096, 0x0038, 974, physicArchiPara1⟩,
  ⟨[0xec, 0xdc, 0x14, 0x25, 0xff, 0xff], 1, 4, 128, 2048, 0x0008, 974, physicArchiPara2⟩,
  ⟨[0xec, 0xdc, 0x14, 0xa5, 0xff, 0xff], 1, 4, 128, 2048, 0x0008, 974, physicArchiPara2⟩,
  ⟨[0xec, 0xd3, 0x55, 0x25, 0xff, 0xff], 2, 4, 128, 2048, 0x0008, 974, physicArchiPara2⟩,
  ⟨[0xec, 0xd3, 0x55, 0xa5, 0xff, 0xff], 2, 4, 128, 2048, 0x0008, 974, physicArchiPara2⟩,
  ⟨[0xec, 0xd3, 0x14, 0x25, 0xff, 0xff], 1, 4, 128, 4096, 0x0008, 974, physicArchiPara2⟩,
  ⟨[0xec, 0xd3, 0x14, 0xa5, 0xff, 0xff], 1, 4, 128, 4096, 0x0008, 974, physicArchiPara2⟩,
  ⟨[0xec, 0xd5, 0x55, 0x25, 0xff, 0xff], 2, 4, 128, 4096, 0x0028, 974, physicArchiPara2⟩,
  ⟨[0xec, 0xd5, 0x55, 0xa5, 0xff, 0xff], 2, 4, 128, 4096, 0x0028, 974, physicArchiPara2⟩,
  ⟨[0xec, 0xd5, 0x14, 0xb6, 0xff, 0xff], 1, 8, 128, 4096, 0x0008, 974, physicArchiPara3⟩,
  ⟨[0xec, 0xd7, 0x55, 0xb6, 0xff, 0xff], 2, 8, 128, 4096, 0x0028, 974, physicArchiPara3⟩,
  ⟨[0xec, 0xd7, 0xd5, 0x29, 0xff, 0xff], 2, 8, 128, 4096, 0x0028, 974, physicArchiPara3⟩,
  ⟨[0xec, 0xd7, 0x94, 0x72, 0xff, 0xff], 1, 16, 128, 4096, 0x0008, 974, physicArchiPara3⟩,
  ⟨[0xec, 0xd5, 0x98, 0x71, 0xff, 0xff], 1, 8, 256, 2048, 0x0008, 950, physicArchiPara3⟩,
  ⟨[0xec, 0xd5, 0x94, 0x29, 0xff, 0xff], 1, 8, 128, 4096, 0x0008, 974, physicArchiPara3⟩,
  ⟨[0xec, 0xd5, 0x84, 0x72, 0xff, 0xff], 1, 16, 128, 2048, 0x0000, 950, physicArchiPara3⟩,
  ⟨[0xec, 0xd3, 0x84, 0x72, 0xff, 0xff], 1, 16, 128, 1024, 0x0000, 950, physicArchiPara3⟩,
  ⟨[0xec, 0xd7, 0x94, 0x76, 0xff, 0xff], 1, 16, 128, 4096, 0x0088, 974, physicArchiPara3⟩,
  ⟨[0xec, 0xd7, 0x94, 0x7a, 0xff, 0xff], 1, 16, 128, 4096, 0x0088, 974, physicArchiPara3⟩,
  ⟨[0xec, 0xd7, 0x94, 0x7a, 0x54, 0xc3], 1, 16, 128, 4096, 0x0088, 974, physicArchiPara3⟩,
  ⟨[0xec, 0xde, 0xa4, 0x7a, 0x68, 0xc4], 1, 16, 128, 8192, 0x0588, 974, physicArchiPara3⟩]

def hynixNandTbl : List NandPhyInfoPar := [
  ⟨[0xad, 0xf1, 0x80, 0x15, 0xff, 0xff], 1, 4, 64, 1024, 0x0000, 974, physicArchiPara0⟩,
  ⟨[0xad, 0xf1, 0x80, 0x1d, 0xff, 0xff], 1, 4, 64, 1024, 0x0000, 974, physicArchiPara0⟩,
  ⟨[0xad, 0xf1, 0x00, 0x1d, 0xff, 0xff], 1, 4, 64, 1024, 0x0000, 974, physicArchiPara0⟩,
  ⟨[0xad, 0xda, 0x80, 0x15, 0xff, 0xff], 1, 4, 64, 2048, 0x0000, 974, physicArchiPara0⟩,
  ⟨[0xad, 0xda, 0x80, 0x1d, 0xff, 0xff], 1, 4, 64, 2048, 0x0000, 974, physicArchiPara0⟩,
  ⟨[0xad, 0xda, 0x10, 0x95, 0xff, 0xff], 1, 4, 64, 2048, 0x0000, 974, physicArchiPara0⟩,
  ⟨[0xad, 0xdc, 0x80, 0x15, 0xff, 0xff], 4, 4, 64, 1024, 0x0000, 974, physicArchiPara0⟩,
  ⟨[0xad, 0xdc, 0x80, 0x95, 0xff, 0xff], 1, 4, 64, 4096, 0x0000, 974, physicArchiPara0⟩,
  ⟨[0xad, 0xdc, 0x10, 0x95, 0xff, 0xff], 1, 4, 64, 4096, 0x0008, 974, physicArchiPara0⟩,
  ⟨[0xad, 0xd3, 0x80, 0x15, 0xff, 0xff], 4, 4, 64, 2048, 0x0000, 974, physicArchiPara0⟩,
  ⟨[0xad, 0xd3, 0xc1, 0x95, 0xff, 0xff], 2, 4, 64, 4096, 0x0000, 974, physicArchiPara0⟩,
  ⟨[0xad, 0xdc, 0x84, 0x25, 0xff, 0xff], 1, 4, 128, 2048, 0x0000, 974, physicArchiPara2⟩,
  ⟨[0xad, 0xdc, 0x14, 0xa5, 0xff, 0xff], 1, 4, 128, 2048, 0x0008, 974, physicArchiPara2⟩,
  ⟨[0xad, 0xd3, 0x85, 0x25, 0xff, 0xff], 2, 4, 128, 2048, 0x0000, 974, physicArchiPara2⟩,
  ⟨[0xad, 0xd3, 0x14, 0x25, 0xff, 0xff], 1, 4, 128, 4096, 0x0008, 974, physicArchiPara2⟩,
  ⟨[0xad, 0xd3, 0x14, 0x2d, 0xff, 0xff], 1, 4, 128, 4096, 0x0008, 974, physicArchiPara2⟩,
  ⟨[0xad, 0xd3, 0x14, 0xa5, 0xff, 0xff], 1, 4, 128, 4096, 0x0008, 974, physicArchiPara2⟩,
  ⟨[0xad, 0xd5, 0x55, 0x25, 0xff, 0xff], 2, 4, 128, 4096, 0x0008, 974, physicArchiPara2⟩,
  ⟨[0xad, 0xd5, 0x55, 0x2d, 0xff, 0xff], 2, 4, 128, 4096, 0x0008, 974, physicArchiPara2⟩,
  ⟨[0xad, 0xd5, 0x55, 0xa5, 0xff, 0xff], 2, 4, 128, 8192, 0x0008, 974, physicArchiPara2⟩,
  ⟨[0xad, 0xd3, 0x14, 0xb6, 0xff, 0xff], 1, 8, 128, 2048, 0x0008, 974, physicArchiPara3⟩,
  ⟨[0xad, 0xd5, 0x14, 0xb6, 0xff, 0xff], 1, 8, 128, 4096, 0x0008, 974, physicArchiPara3⟩,
  ⟨[0xad, 0xd7, 0x55, 0xb6, 0xff, 0xff], 2, 8, 128, 4096, 0x0008, 974, physicArchiPara3⟩,
  ⟨[0xad, 0xd5, 0x94, 0x25, 0xff, 0xff], 1, 8, 128, 4096, 0x0008, 974, physicArchiPara3⟩,
  ⟨[0xad, 0xd7, 0x95, 0x25, 0xff, 0xff], 2, 8, 128, 4096, 0x0008, 974, physicArchiPara3⟩,
  ⟨[0xad, 0xd5, 0x95, 0x25, 0xff, 0xff], 2, 8, 128, 4096, 0x0008, 974, physicArchiPara3⟩,
  ⟨[0xad, 0xd5, 0x94, 0x9a, 0xff, 0xff], 1, 16, 256, 1024, 0x0000, 950, physicArchiPara3⟩,
  ⟨[0xad, 0xd7, 0x94, 0x9a, 0xff, 0xff], 1, 16, 256, 2048, 0x0008, 950, physicArchiPara3⟩,
  ⟨[0xad, 0xde, 0xd5, 0x9a, 0xff, 0xff], 2, 16, 256, 2048, 0x0008, 950, physicArchiPara3⟩,
  ⟨[0xad, 0xd7, 0x94, 0x25, 0xff, 0xff], 1, 8, 128, 8192, 0x0008, 974, physicArchiPara3⟩,
  ⟨[0xad, 0xde, 0x94, 0xd2, 0xff, 0xff], 1, 16, 256, 4096, 0x0188, 950, physicArchiPara3⟩,
  ⟨[0xad, 0xd7, 0x18, 0x8d, 0xff, 0xff], 1, 8, 256, 4096, 0x0188, 950, physicArchiPara3⟩,
  ⟨[0xad, 0xd7, 0x94, 0xda, 0xff, 0xff], 1, 16, 256, 2048, 0x0188, 950, physicArchiPara3⟩]

def toshibaNandTbl : List NandPhyInfoPar := [
  ⟨[0x98, 0xf1, 0x80, 0x95, 0xff, 0xff], 1, 4, 64, 1024, 0x0000, 974, physicArchiPara5⟩,
  ⟨[0x98, 0xda, 0xff, 0x95, 0xff, 0xff], 1, 4, 64, 2048, 0x0000, 974, physicArchiPara5⟩,
  ⟨[0x98, 0xdc, 0x81, 0x95, 0xff, 0xff], 1, 4, 64, 4096, 0x0000, 974, physicArchiPara5⟩,
  ⟨[0x98, 0xd1, 0x90, 0x15, 0xff, 0xff], 1, 4, 64, 1024, 0x0000, 974, physicArchiPara5⟩,
  ⟨[0x98, 0xda, 0x84, 0xa5, 0xff, 0xff], 1, 4, 128, 1024, 0x0000, 974, physicArchiPara6⟩,
  ⟨[0x98, 0xdc, 0x84, 0xa5, 0xff, 0xff], 1, 4, 128, 2048, 0x0008, 974, physicArchiPara6⟩,
  ⟨[0x98, 0xd3, 0x84, 0xa5, 0xff, 0xff], 1, 4, 128, 4096, 0x0008, 974, physicArchiPara7⟩,
  ⟨[0x98, 0xd5, 0x85, 0xa5, 0xff, 0xff], 2, 4, 128, 4096, 0x0008, 974, physicArchiPara7⟩,
  ⟨[0x98, 0xd3, 0x94, 0xba, 0xff, 0xff], 1, 8, 128, 2048, 0x0008, 974, physicArchiPara6⟩,
  ⟨[0x98, 0xd7, 0x95, 0xba, 0xff, 0xff], 1, 8, 128, 8192, 0x0008, 918, physicArchiPara7⟩,
  ⟨[0x98, 0xd5, 0x94, 0xba, 0xff, 0xff], 1, 8, 128, 4096, 0x0008, 918, physicArchiPara7⟩,
  ⟨[0x98, 0xd5, 0x94, 0x32, 0xff, 0xff], 1, 16, 128, 2048, 0x0008, 918, physicArchiPara8⟩,
  ⟨[0x98, 0xd7, 0x94, 0x32, 0xff, 0xff], 1, 16, 128, 4096, 0x0008, 918, physicArchiPara8⟩,
  ⟨[0x98, 0xd7, 0x95, 0x32, 0xff, 0xff], 2, 16, 128, 4096, 0x0008, 454, physicArchiPara8⟩,
  ⟨[0x98, 0xde, 0x94, 0x82, 0x76, 0xff], 1, 16, 256, 4096, 0x0588, 918, physicArchiPara9⟩,
  ⟨[0x98, 0xd7, 0x94, 0x32, 0x76, 0x56], 1, 16, 128, 4096, 0x0588, 918, physicArchiPara9⟩,
  ⟨[0x98, 0xd5, 0x84, 0x32, 0x72, 0x56], 1, 16, 128, 2048, 0x0580, 918, physicArchiPara9⟩]

def micronNandTbl : List NandPhyInfoPar := [
  ⟨[0x2c, 0xda, 0xff, 0x15, 0xff, 0xff], 1, 4, 64, 2048, 0x0010, 974, physicArchiPara4⟩,
  ⟨[0x2c, 0xdc, 0xff, 0x15, 0xff, 0xff], 2, 4, 64, 2048, 0x0010, 974, physicArchiPara4⟩,
  ⟨[0x2c, 0xdc, 0x90, 0x95, 0xff, 0xff], 1, 4, 64, 4096, 0x0018, 974, physicArchiPara4⟩,
  ⟨[0x2c, 0xd3, 0xd1, 0x95, 0xff, 0xff], 2, 4, 64, 4096, 0x0018, 974, physicArchiPara4⟩,
  ⟨[0x2c, 0xdc, 0x84, 0x25, 0xff, 0xff], 1, 4, 128, 2048, 0x0000, 974, physicArchiPara4⟩,
  ⟨[0x2c, 0xd3, 0x85, 0x25, 0xff, 0xff], 2, 4, 128, 2048, 0x0000, 974, physicArchiPara4⟩,
  ⟨[0x2c, 0xd3, 0x94, 0xa5, 0xff, 0xff], 1, 4, 128, 4096, 0x0008, 974, physicArchiPara4⟩,
  ⟨[0x2c, 0xd5, 0x95, 0xa5, 0xff, 0xff], 2, 4, 128, 4096, 0x0008, 974, physicArchiPara4⟩,
  ⟨[0x2c, 0xd5, 0xd5, 0xa5, 0xff, 0xff], 2, 4, 128, 4096, 0x0028, 974, physicArchiPara4⟩,
  ⟨[0x2c, 0xd5, 0x94, 0x3e, 0xff, 0xff], 1, 8, 128, 4096, 0x0008, 974, physicArchiPara4⟩,
  ⟨[0x2c, 0xd5, 0xd5, 0x3e, 0xff, 0xff], 2, 8, 128, 4096, 0x0008, 974, physicArchiPara4⟩,
  ⟨[0x2c, 0xd7, 0x94, 0x3e, 0xff, 0xff], 1, 8, 128, 8192, 0x0208, 950, physicArchiPara4⟩,
  ⟨[0x2c, 0xd7, 0xd5, 0x3e, 0xff, 0xff], 2, 8, 128, 4096, 0x0008, 950, physicArchiPara4⟩,
  ⟨[0x2c, 0xd9, 0xd5, 0x3e, 0xff, 0xff], 2, 8, 128, 8192, 0x0008, 950, physicArchiPara4⟩,
  ⟨[0x2c, 0x68, 0x04, 0x46, 0xff, 0xff], 1, 8, 256, 4096, 0x0208, 950, physicArchiPara4⟩,
  ⟨[0x2c, 0x88, 0x05, 0xc6, 0xff, 0xff], 2, 8, 256, 4096, 0x0208, 950, physicArchiPara4⟩,
  ⟨[0x2c, 0x88, 0x04, 0x4b, 0xff, 0xff], 1, 16, 256, 4096, 0x0208, 950, physicArchiPara4⟩,
  ⟨[0x2c, 0x68, 0x04, 0x4a, 0xff, 0xff], 1, 8, 256, 4096, 0x0208, 950, physicArchiPara4⟩,
  ⟨[0x2c, 0x48, 0x04, 0x4a, 0xff, 0xff], 1, 8, 256, 2048, 0x0208, 950, physicArchiPara4⟩,
  ⟨[0x2c, 0x48, 0x04, 0x46, 0xff, 0xff], 1, 8, 256, 2048, 0x0208, 950, physicArchiPara4⟩]

def intelNandTbl : List NandPhyInfoPar := [
  ⟨[0x89, 0xd3, 0x94, 0xa5, 0xff, 0xff], 1, 4, 128, 4096, 0x0008, 974, physicArchiPara4⟩,
  ⟨[0x89, 0xd5, 0xd5, 0xa5, 0xff, 0xff], 2, 4, 128, 4096, 0x0028, 974, physicArchiPara4⟩,
  ⟨[0x89, 0xd7, 0x94, 0x3e, 0xff, 0xff], 1, 8, 128, 8192, 0x0008, 918, physicArchiPara4⟩,
  ⟨[0x89, 0xd5, 0x94, 0x3e, 0xff, 0xff], 1, 8, 128, 4096, 0x0008, 918, physicArchiPara4⟩,
  ⟨[0x89, 0xd7, 0xd5, 0x3e, 0xff, 0xff], 1, 8, 128, 8192, 0x0008, 918, physicArchiPara4⟩,
  ⟨[0x89, 0x68, 0x04, 0x46, 0xff, 0xff], 1, 8, 256, 4096, 0x0208, 918, physicArchiPara4⟩,
  ⟨[0x89, 0x88, 0x24, 0x4b, 0xff, 0xff], 1, 16, 256, 4096, 0x0208, 918, physicArchiPara4⟩,
  ⟨[0x89, 0xa8, 0x25, 0xcb, 0xff, 0xff], 2, 16, 256, 4096, 0x0208, 918, physicArchiPara4⟩]

def stNandTbl : List NandPhyInfoPar := [
  ⟨[0x20, 0xf1, 0x80, 0x15, 0xff, 0xff], 1, 4, 64, 1024, 0x0010, 974, physicArchiPara0⟩,
  ⟨[0x20, 0xf1, 0x00, 0x1d, 0xff, 0xff], 1, 4, 64, 1024, 0x0000, 974, physicArchiPara0⟩,
  ⟨[0x20, 0xda, 0x80, 0x15, 0xff, 0xff], 1, 4, 64, 2048, 0x0000, 974, physicArchiPara0⟩,
  ⟨[0x20, 0xda, 0x10, 0x95, 0xff, 0xff], 1, 4, 64, 2048, 0x0000, 974, physicArchiPara0⟩,
  ⟨[0x20, 0xdc, 0x80, 0x95, 0xff, 0xff], 1, 4, 64, 4096, 0x0000, 974, physicArchiPara0⟩,
  ⟨[0x20, 0xd3, 0xc1, 0x95, 0xff, 0xff], 2, 4, 64, 4096, 0x0000, 974, physicArchiPara0⟩,
  ⟨[0x20, 0xdc, 0x84, 0x25, 0xff, 0xff], 1, 4, 128, 2048, 0x0000, 974, physicArchiPara2⟩,
  ⟨[0x20, 0xd3, 0x85, 0x25, 0xff, 0xff], 2, 4, 128, 2048, 0x0000, 974, physicArchiPara2⟩,
  ⟨[0x20, 0xd3, 0x85, 0x25, 0xff, 0xff], 4, 4, 128, 2048, 0x0000, 974, physicArchiPara2⟩]

def spansionNandTbl : List NandPhyInfoPar := [
  ⟨[0x01, 0xaa, 0x10, 0x00, 0xff, 0xff], 1, 4, 64, 2048, 0x0000, 974, physicArchiPara0⟩,
  ⟨[0x01, 0xa1, 0x10, 0x00, 0xff, 0xff], 1, 4, 64, 1024, 0x0000, 974, physicArchiPara0⟩,
  ⟨[0x01, 0xff, 0xff, 0x00, 0xff, 0xff], 1, 4, 64, 1024, 0x0000, 974, physicArchiPara0⟩]

def powerNandTbl : List NandPhyInfoPar := [
  ⟨[0x92, 0xf1, 0x80, 0x95, 0x40, 0xff], 1, 4, 64, 1024, 0x0000, 974, physicArchiPara0⟩]

/-- The only row of `DefaultNandTbl` ends it. -/
def defaultNandTbl : List NandPhyInfoPar := []

/-- The table of the manufacturer in the first byte of the identification. -/
def manufacturerTbl : Nat → List NandPhyInfoPar
  | 0xec => samsungNandTbl
  | 0xad => hynixNandTbl
  | 0x2c => micronNandTbl
  | 0x89 => intelNandTbl
  | 0x98 => toshibaNandTbl
  | 0x20 => stNandTbl
  | 0x01 => spansionNandTbl
  | 0x92 => powerNandTbl
  | _ => defaultNandTbl

/-- The rows of all tables. -/
def nandTbls : List NandPhyInfoPar :=
  samsungNandTbl ++ hynixNandTbl ++ micronNandTbl ++ intelNandTbl ++ toshibaNandTbl ++
    stNandTbl ++ spansionNandTbl ++ powerNandTbl

/-! ## The search -/

/-- The bytes from the second on that a row gives, if they all match. -/
def idByteCnt (id : List Nat) (row : NandPhyInfoPar) : Option Nat :=
  if ∀ j ∈ [1, 2, 3, 4, 5], id.getD j 0 = row.nandId.getD j 0 ∨ row.nandId.getD j 0 = 0xff then
    some (1 + ([1, 2, 3, 4, 5].filter fun j => row.nandId.getD j 0 ≠ 0xff).length)
  else none

/-- `id_match_tbl`: the last rows that match in four, five and six bytes. -/
structure IdMatchTbl where
  four : Option NandPhyInfoPar
  five : Option NandPhyInfoPar
  six : Option NandPhyInfoPar

def IdMatchTbl.note (id : List Nat) (m : IdMatchTbl) (row : NandPhyInfoPar) : IdMatchTbl :=
  match idByteCnt id row with
  | some 4 => { m with four := some row }
  | some 5 => { m with five := some row }
  | some 6 => { m with six := some row }
  | _ => m

/-- `_SearchNandArchi` -/
def searchNandArchi (id : List Nat) : Option NandPhyInfoPar :=
  let m := (manufacturerTbl (id.getD 0 0)).foldl (IdMatchTbl.note id) ⟨none, none, none⟩
  m.six.or (m.five.or m.four)

/-! ## The storage system -/

/-- `struct __NandStorageInfo_t`, as far as the geometry goes. -/
structure NandStorageInfo where
  chipCnt : Nat
  bankCntPerChip : Nat
  dieCntPerChip : Nat
  planeCntPerDie : Nat
  sectorCntPerPage : Nat
  pageCntPerPhyBlk : Nat
  blkCntPerDie : Nat
  operationOpt : Nat
  validBlkRatio : Nat
  optPhyOpPar : OptionalPhyOpPar

namespace NandStorageInfo

variable (n : NandStorageInfo)

def supports (bit : Nat) : Bool := n.operationOpt.testBit bit

/-- `SUPPORT_MULTI_PROGRAM` -/
def supportMultiProgram : Bool := n.supports 3
/-- `SUPPORT_PAGE_COPYBACK` -/
def supportPageCopyback : Bool := n.supports 4
/-- `SUPPORT_INT_INTERLEAVE` -/
def supportIntInterleave : Bool := n.supports 5
/-- `SUPPORT_EXT_INTERLEAVE` -/
def supportExtInterleave : Bool := n.supports 6
/-- `SUPPORT_ALIGN_NAND_BNK` -/
def supportAlignNandBnk : Bool := !n.supports 10

end NandStorageInfo

/-- A chip that answers like the boot chip. -/
def sameChip (row : NandPhyInfoPar) (id : List Nat) : Bool :=
  [0, 1, 2, 3].all (fun j => id.getD j 0 = row.nandId.getD j 0) &&
    [4, 5].all fun j => id.getD j 0 = row.nandId.getD j 0 || row.nandId.getD j 0 = 0xff

/-- `ChipCnt` and `ChipConnectInfo` after the loop over the other chip selects. -/
def connectChips (row : NandPhyInfoPar) (chipId : Nat → List Nat) : Nat × Nat :=
  (List.range' 1 7).foldl
    (fun (cnt, info) i => if sameChip row (chipId i) then (cnt + 1, info ||| 2 ^ i) else (cnt, info))
    (1, 1)

/-- `RbConnectMode`, if the chips are connected in a way that is known. -/
def rbConnectMode (cnt info : Nat) : Option Nat :=
  let on := fun i => info.testBit i
  if cnt = 1 && on 0 then some 1
  else if cnt = 2 then
    if on 0 && on 1 then some 2
    else if on 0 && on 2 then some 3
    else if on 0 && on 7 then some 0
    else none
  else if cnt = 4 then
    if on 0 && on 1 && on 2 && on 3 then some 4
    else if on 0 && on 2 && on 4 && on 6 then some 5
    else none
  else if cnt = 8 then some 8
  else none

/-- The geometry of `cnt` chips of one kind. The driver is configured with multi-plane
programming and external interleave, and without internal interleave. -/
def storageOf (row : NandPhyInfoPar) (cnt : Nat) : NandStorageInfo :=
  let opt := row.operationOpt &&& 0xffdf
  { chipCnt := cnt
    bankCntPerChip := if opt.testBit 5 then row.dieCntPerChip else 1
    dieCntPerChip := row.dieCntPerChip
    planeCntPerDie := if opt.testBit 3 then 2 else 1
    sectorCntPerPage := row.sectCntPerPage
    pageCntPerPhyBlk := row.pageCntPerBlk
    blkCntPerDie := row.blkCntPerDie
    operationOpt := if cnt > 1 then opt ||| 2 ^ 6 else opt
    validBlkRatio := row.validBlkRatio
    optPhyOpPar := row.optionOp }

/-- `SCN_AnalyzeNandSystem`: the identification of the boot chip (`none` if it could not be
reset or read) and what the other chip selects answer. -/
def scnAnalyzeNandSystem (bootId : Option (List Nat)) (chipId : Nat → List Nat) :
    Option NandStorageInfo := do
  let row ← searchNandArchi (← bootId)
  let (cnt, info) := connectChips row chipId
  let _ ← rbConnectMode cnt info
  some (storageOf row cnt)

/-! ## What the rows have in common -/

/-- The geometry can be laid out in zones: the blocks of a die are whole zones of super blocks,
and no chip has more than eight of them. -/
structure NandStorageInfo.Regular (n : NandStorageInfo) : Prop where
  chips : n.chipCnt ∈ [1, 2, 4, 8]
  pages : n.pageCntPerPhyBlk ∈ [64, 128, 256]
  sectors : n.sectorCntPerPage ∈ [4, 8, 16]
  bank : n.bankCntPerChip = 1
  dies : 0 < n.dieCntPerChip
  planes : n.planeCntPerDie = if n.supportMultiProgram then 2 else 1
  noInt : n.supportIntInterleave = false
  ext : n.supportExtInterleave = decide (1 < n.chipCnt)
  offset : n.supportMultiProgram → 0 < n.optPhyOpPar.multiPlaneBlockOffset
  blocks : n.blkCntPerDie = 1024 * n.planeCntPerDie * (n.blkCntPerDie / n.planeCntPerDie / 1024)
  blocks_pos : 0 < n.blkCntPerDie
  zones : n.dieCntPerChip * (n.blkCntPerDie / n.planeCntPerDie / 1024) ≤ 8
  ratio_pos : 0 < n.validBlkRatio
  ratio_le : n.validBlkRatio ≤ 974

instance (n : NandStorageInfo) : Decidable n.Regular :=
  decidable_of_iff
    (n.chipCnt ∈ [1, 2, 4, 8] ∧ n.pageCntPerPhyBlk ∈ [64, 128, 256] ∧
      n.sectorCntPerPage ∈ [4, 8, 16] ∧ n.bankCntPerChip = 1 ∧ 0 < n.dieCntPerChip ∧
      n.planeCntPerDie = (if n.supportMultiProgram then 2 else 1) ∧
      n.supportIntInterleave = false ∧ n.supportExtInterleave = decide (1 < n.chipCnt) ∧
      (n.supportMultiProgram → 0 < n.optPhyOpPar.multiPlaneBlockOffset) ∧
      n.blkCntPerDie = 1024 * n.planeCntPerDie * (n.blkCntPerDie / n.planeCntPerDie / 1024) ∧
      0 < n.blkCntPerDie ∧
      n.dieCntPerChip * (n.blkCntPerDie / n.planeCntPerDie / 1024) ≤ 8 ∧
      0 < n.validBlkRatio ∧ n.validBlkRatio ≤ 974)
    ⟨fun ⟨h1, h2, h3, h4, h5, h6, h7, h8, h9, h10, h11, h12, h13, h14⟩ =>
        ⟨h1, h2, h3, h4, h5, h6, h7, h8, h9, h10, h11, h12, h13, h14⟩,
      fun h => ⟨h.chips, h.pages, h.sectors, h.bank, h.dies, h.planes, h.noInt, h.ext, h.offset,
        h.blocks, h.blocks_pos, h.zones, h.ratio_pos, h.ratio_le⟩⟩

theorem storageOf_regular :
    ∀ row ∈ nandTbls, ∀ cnt ∈ [1, 2, 4, 8], (storageOf row cnt).Regular := by
  decide +kernel

/-! ## What the scan finds -/

theorem manufacturerTbl_subset (b : Nat) : manufacturerTbl b ⊆ nandTbls := by
  intro row hrow
  simp only [nandTbls, List.mem_append]
  unfold manufacturerTbl at hrow
  split at hrow
  · exact .inl (.inl (.inl (.inl (.inl (.inl (.inl hrow))))))
  · exact .inl (.inl (.inl (.inl (.inl (.inl (.inr hrow))))))
  · exact .inl (.inl (.inl (.inl (.inl (.inr hrow)))))
  · exact .inl (.inl (.inl (.inl (.inr hrow))))
  · exact .inl (.inl (.inl (.inr hrow)))
  · exact .inl (.inl (.inr hrow))
  · exact .inl (.inr hrow)
  · exact .inr hrow
  · cases hrow

/-- The rows noted are rows of the table. -/
structure IdMatchTbl.From (tbl : List NandPhyInfoPar) (m : IdMatchTbl) : Prop where
  four : ∀ row, m.four = some row → row ∈ tbl
  five : ∀ row, m.five = some row → row ∈ tbl
  six : ∀ row, m.six = some row → row ∈ tbl

theorem IdMatchTbl.From.note {tbl : List NandPhyInfoPar} {m : IdMatchTbl} (hm : m.From tbl)
    (id : List Nat) {row : NandPhyInfoPar} (hrow : row ∈ tbl) : (m.note id row).From tbl := by
  have hsome : ∀ r, some row = some r → r ∈ tbl := by
    rintro r ⟨⟩
    exact hrow
  unfold IdMatchTbl.note
  split
  · exact ⟨hsome, hm.five, hm.six⟩
  · exact ⟨hm.four, hsome, hm.six⟩
  · exact ⟨hm.four, hm.five, hsome⟩
  · exact hm

theorem foldl_note_from {tbl : List NandPhyInfoPar} (id : List Nat) :
    ∀ {rows : List NandPhyInfoPar} {m : IdMatchTbl}, rows ⊆ tbl → m.From tbl →
      (rows.foldl (IdMatchTbl.note id) m).From tbl := by
  intro rows
  induction rows with
  | nil => exact fun _ hm => hm
  | cons row rows ih =>
      intro m hrows hm
      exact ih (fun r hr => hrows (List.mem_cons_of_mem _ hr))
        (hm.note id (hrows (List.mem_cons_self ..)))

theorem searchNandArchi_mem {id : List Nat} {row : NandPhyInfoPar}
    (h : searchNandArchi id = some row) : row ∈ nandTbls := by
  have hfrom := foldl_note_from id (manufacturerTbl_subset (id.getD 0 0))
    (m := ⟨none, none, none⟩) ⟨nofun, nofun, nofun⟩
  rcases Option.or_eq_some_iff.mp h with h6 | ⟨-, h⟩
  · exact hfrom.six row h6
  · rcases Option.or_eq_some_iff.mp h with h5 | ⟨-, h4⟩
    · exact hfrom.five row h5
    · exact hfrom.four row h4

/-- Only some counts of chips can be told how they are connected. -/
theorem rbConnectMode_chips {cnt info mode : Nat} (h : rbConnectMode cnt info = some mode) :
    cnt ∈ [1, 2, 4, 8] := by
  simp only [rbConnectMode] at h
  split at h
  · next h1 => simp_all
  · split at h
    · next h2 => simp_all
    · split at h
      · next h4 => simp_all
      · split at h
        · next h8 => simp_all
        · cases h

theorem scan_regular {bootId : Option (List Nat)} {chipId : Nat → List Nat} {n : NandStorageInfo}
    (h : scnAnalyzeNandSystem bootId chipId = some n) : n.Regular := by
  unfold scnAnalyzeNandSystem at h
  obtain ⟨id, -, h⟩ := Option.bind_eq_some_iff.mp h
  obtain ⟨row, hrow, h⟩ := Option.bind_eq_some_iff.mp h
  obtain ⟨mode, hmode, h⟩ := Option.bind_eq_some_iff.mp h
  cases h
  exact storageOf_regular row (searchNandArchi_mem hrow) _ (rbConnectMode_chips hmode)

end Novo7
