import Novo7.DiskRestart

/-!
# Runs of the disk

Writes, reads, flushes, reclaimed pages and restarts in any order and number. The disk that the runs are
compared with is a map from sector numbers to contents: a write changes the sectors of its range, and
nothing else changes anything.

`diskOps_wp`: where no operation of the chip fails, no request fails, each read gives what the
writes before it have left in its range, whichever of it is still in the page cache, and what is
left behind is again such a disk.
-/

namespace Novo7

open Traced

/-- A request to the disk. -/
inductive DiskOp where
  | write (nSectNum nSectorCnt : Nat) (pBuf : Int → Nat)
  | read (nSectNum nSectorCnt : Nat)
  | flush
  /-- `LML_ReadReclaim` -/
  | reclaim (nPage : Nat)
  /-- `LML_Exit` and `LML_Init` -/
  | restart (n : NandStorageInfo) (mem : FreshMem)

/-- A request, and the memory of the caller after it. -/
def DiskOp.run (ar : LogicArchi) (env : NandEnv) : DiskOp → FtlProg (Int → Nat)
  | .write nSectNum nSectorCnt pBuf => do
      modify ({ · with host := pBuf })
      lmlWrite ar env nSectNum nSectorCnt
      return (← get).host
  | .read nSectNum nSectorCnt => do
      lmlRead ar env nSectNum nSectorCnt
      return (← get).host
  | .flush => do
      lmlFlushPageCache ar env
      return (← get).host
  | .reclaim nPage => do
      lmlReadReclaim ar env nPage
      return (← get).host
  | .restart n mem => do
      lmlExit ar env
      lmlInit n mem
      return (← get).host

def diskOps (ar : LogicArchi) (env : NandEnv) : List DiskOp → FtlProg (List (Int → Nat))
  | [] => pure []
  | op :: ops => do
      let mem ← op.run ar env
      let mems ← diskOps ar env ops
      return mem :: mems

/-! ## The disk that is meant -/

/-- What a request does to the sectors. -/
def DiskOp.spec (V : Sectors) : DiskOp → Sectors
  | .write nSectNum nSectorCnt pBuf => Sectors.write V nSectNum nSectorCnt fun d => pBuf d
  | _ => V

/-- The memory of the caller has the sectors of a read. -/
def DiskOp.Reply (V : Sectors) : DiskOp → (Int → Nat) → Prop
  | .read nSectNum nSectorCnt, mem => ∀ b v, nSectNum ≤ b → b < nSectNum + nSectorCnt → V b = some v →
      ∀ t < 256, mem (((b - nSectNum) * 256 + t : Nat) : Int) = v t
  | _, _ => True

/-- Each request has the reply that the requests before it call for. -/
def Replies (V : Sectors) : List DiskOp → List (Int → Nat) → Prop
  | [], [] => True
  | op :: ops, mem :: mems => op.Reply V mem ∧ Replies (op.spec V) ops mems
  | _, _ => False

/-- The ranges are on the disk; a read is within the capacity that `LML_Read` compares with, and a
restart finds the same capacity. -/
def DiskOp.InRange (ar : LogicArchi) (diskCap : Nat) : DiskOp → Prop
  | .write nSectNum nSectorCnt _ => ar.RangeOn nSectNum nSectorCnt
  | .read nSectNum nSectorCnt => ar.RangeOn nSectNum nSectorCnt ∧ nSectNum + nSectorCnt ≤ diskCap
  | .flush => True
  | .reclaim nPage => ar.InDisk nPage
  | .restart n _ => n.diskCap = diskCap

theorem Replies.append {V : Sectors} {ops ops' : List DiskOp} {mems mems' : List (Int → Nat)}
    (h : Replies V ops mems) (h' : Replies (ops.foldl DiskOp.spec V) ops' mems') :
    Replies V (ops ++ ops') (mems ++ mems') := by
  induction ops generalizing V mems with
  | nil =>
      cases mems with
      | nil => exact h'
      | cons mem mems => exact h.elim
  | cons op ops ih =>
      cases mems with
      | nil => exact h.elim
      | cons mem mems => exact ⟨h.1, ih h.2 h'⟩

/-! ## Runs -/

section Runs

variable {ar : LogicArchi} {env : NandEnv} {L : ZoneLayout ar} {F : Int → Ftl → Prop} {V : Sectors}
  {ops : List DiskOp} {cap : Nat} {s : Ftl}

theorem SectorsOK.setHost (h : SectorsOK L V s) (m : Int → Nat) :
    SectorsOK L V { s with host := m } := by
  obtain ⟨D, hdisk, hpages⟩ := h.pages
  exact ⟨⟨D, hdisk.setBuffers s.cachePage s.writePageCache m, hpages⟩, h.cache, h.known, h.page⟩

/-- One request. -/
theorem diskOp_replies (har : ar.Fits) (hpage : ar.PageFits) (hcopy : ar.CopiesExactly)
    (henv : env.NoFailure) (h : SectorsOK L V s) {op : DiskOp}
    (hop : op.InRange ar s.logicalCtl.diskCap) :
    WP anyRun (op.run ar env) (fun mem s' => op.Reply V mem ∧ SectorsOK L (op.spec V) s' ∧
      s'.logicalCtl.diskCap = s.logicalCtl.diskCap) F s := by
  cases op with
  | write first count mem =>
      refine WP.bind (WP.modify (WP.bind ?_))
      exact (lmlWrite_writes har hpage hcopy henv (h.setHost mem) hop).imp fun _ s₁ h₁ =>
        WP.bind (WP.get (WP.pure ⟨trivial, h₁⟩))
  | read first count =>
      refine WP.bind ((lmlRead_reads har hpage hcopy henv h hop.1 hop.2).imp ?_)
      rintro _ s₁ ⟨h₁, hread, hcap⟩
      exact WP.bind (WP.get (WP.pure ⟨hread.got, h₁, hcap⟩))
  | flush =>
      refine WP.bind ((lmlFlushPageCache_stores har hcopy henv h).imp fun _ s₁ h₁ => ?_)
      exact WP.bind (WP.get (WP.pure ⟨trivial, h₁.sectors, h₁.diskCap⟩))
  | reclaim nPage =>
      refine WP.bind ((lmlReadReclaim_keeps har hcopy henv h hop).imp fun _ s₁ h₁ => ?_)
      exact WP.bind (WP.get (WP.pure ⟨trivial, h₁.sectors, h₁.diskCap⟩))
  | restart n mem =>
      refine WP.bind ((lmlExit_stores har hcopy henv h).imp ?_)
      rintro _ s₁ ⟨h₁, -⟩
      refine WP.bind ((lmlInit_finds har h₁ rfl rfl n mem).imp ?_)
      rintro _ s₂ ⟨h₂, hcap, -⟩
      exact WP.bind (WP.get (WP.pure ⟨trivial, h₂, hcap.trans hop⟩))

theorem diskOps_wp (har : ar.Fits) (hpage : ar.PageFits) (hcopy : ar.CopiesExactly)
    (henv : env.NoFailure) (h : SectorsOK L V s) (hcap : s.logicalCtl.diskCap = cap)
    (hops : ∀ op ∈ ops, op.InRange ar cap) :
    WP anyRun (diskOps ar env ops) (fun mems s' => Replies V ops mems ∧
      SectorsOK L (ops.foldl DiskOp.spec V) s' ∧ s'.logicalCtl.diskCap = cap) F s := by
  induction ops generalizing V s with
  | nil => exact WP.pure ⟨trivial, h, hcap⟩
  | cons op ops ih =>
      have hop := hops op List.mem_cons_self
      rw [← hcap] at hop
      refine WP.bind ((diskOp_replies har hpage hcopy henv h hop).imp ?_)
      rintro mem s₁ ⟨hreply, h₁, hcap₁⟩
      refine WP.bind ((ih h₁ (hcap₁.trans hcap) fun op' hop' =>
        hops op' (List.mem_cons_of_mem op hop')).imp ?_)
      rintro mems s₂ ⟨hreplies, h₂, hcap₂⟩
      exact WP.pure ⟨⟨hreply, hreplies⟩, h₂, hcap₂⟩

end Runs

end Novo7
