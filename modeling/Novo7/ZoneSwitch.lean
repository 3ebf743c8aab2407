import Mathlib.Data.List.Basic
import Novo7.MapFrame

/-!
# The tables of a zone and the slot they are in

`BMM_SwitchMapTbl` moves the active slot, writes back, reads and relabels. When it gives up half
way, the slot it has chosen stays active, but `LogicalCtl` still names the zone of the last
operation. The next operation on that zone does not switch, and uses whatever tables are
active.

`OwnTables` says that the tables in each slot have been read for the zone the slot is labelled with.
A run keeps it as long as no read fails between the parts of the tables of a slot that is in
use, and each operation uses the tables of its own zone as long as none starts on the zone of
`LogicalCtl` while the tables of another are active.
-/

namespace Novo7

open Traced

/-- The tables in a slot come from the table block of zone `z`. -/
def BlkMapTblCache.From (c : BlkMapTblCache) (z : Nat) : Prop :=
  c.loSrc = z ∧ c.hiSrc = z ∧ c.logSrc = z

/-- Each slot with a label has the tables of the zone it is labelled with. -/
def OwnTables (s : Ftl) : Prop :=
  ∀ i, (s.blkCache i).zoneNum ≠ 0xff → (s.blkCache i).From (s.blkCache i).zoneNum

/-- The active tables are those of zone `z`. -/
def UsesOwn (z : Nat) (s : Ftl) : Prop := s.curMapZone = z ∧ s.blkMapCache.From z

/-- No part of the tables of a slot in use is overwritten by a read that then gives up, and no block
is replaced in tables that it is not in; each use of tables is a use of the right ones. -/
def switchContract : Contract Event where
  allowed
    | .tblMixed => False
    | .strayReplace => False
    | _ => True
  noted
    | .tblUse z s => UsesOwn z s
    | _ => True

/-- An operation is started where it may: on a zone that there can be, and not on the zone of
`LogicalCtl` while the tables of another are active. -/
def InZone (ar : LogicArchi) (op : PageOp) (s : Ftl) : Prop :=
  ∀ z ∈ op.zone ar, z ≠ 0xff ∧ (z = s.logicalCtl.zoneNum → s.curMapZone = z)

theorem switchContract_plain : PlainContract switchContract := fun e he => by
  cases e with
  | tblUse z s => exact he.elim
  | _ => trivial

namespace OwnTables

variable {s s' : Ftl}

theorem of_slots (hs : SameSlots s s') (h : OwnTables s) : OwnTables s' := fun i hi => by
  rw [(hs i).zone] at hi ⊢
  obtain ⟨hlo, hhi, hlog⟩ := h i hi
  exact ⟨(hs i).lo.trans hlo, (hs i).hi.trans hhi, (hs i).log.trans hlog⟩

theorem uses {z : Nat} (h : OwnTables s) (hz : s.curMapZone = z) (hne : z ≠ 0xff) : UsesOwn z s :=
  ⟨hz, by rw [← hz] at hne ⊢; exact h s.actBlk hne⟩

end OwnTables

/-! ## Switching -/

section Switch

variable {ar : LogicArchi} {env : NandEnv} {C : Contract Event} (hC : PlainContract C)

/-- What a switch that gives up leaves alone: the labels, and the mark of each dirty slot; and unless
tables have been mixed, where each slot has its tables from. -/
structure GaveUp (C : Contract Event) (s s' : Ftl) : Prop where
  ctl : SameCtl s s'
  zone : ∀ i, (s'.blkCache i).zoneNum = (s.blkCache i).zoneNum
  dirty : ∀ i, (s.blkCache i).dirtyFlag = true → (s'.blkCache i).dirtyFlag = true
  own : ¬C.allowed .tblMixed → OwnTables s → OwnTables s'

namespace GaveUp

variable {s s' s'' : Ftl}

theorem of_slots (hctl : SameCtl s s') (h : SameSlots s s') : GaveUp C s s' :=
  ⟨hctl, fun i => (h i).zone, fun i => (h i).dirty, fun _ => .of_slots h⟩

theorem trans (h : GaveUp C s s') (h' : GaveUp C s' s'') : GaveUp C s s'' :=
  ⟨trans_of SameCtl h.ctl h'.ctl, fun i => (h'.zone i).trans (h.zone i),
    fun i hd => h'.dirty i (h.dirty i hd), fun ha ho => h'.own ha (h.own ha ho)⟩

end GaveUp

/-- All that changes is in the active slot, and not its label or mark: its tables, and where they
come from. -/
structure Loading (s s' : Ftl) : Prop where
  ctl : SameCtl s s'
  act : s'.actBlk = s.actBlk
  slot : ∀ i ≠ s.actBlk, SameSlot (s.blkCache i) (s'.blkCache i)
  zone : s'.curMapZone = s.curMapZone
  dirty : s.blkMapCache.dirtyFlag = true → s'.blkMapCache.dirtyFlag = true

namespace Loading

variable {s s' s'' : Ftl}

theorem of_maps (h : SameMaps s s') : Loading s s' :=
  ⟨h.ctl, h.act, fun i _ => h.slot i, h.curMapZone, fun hd => by
    rw [Ftl.blkMapCache, h.act]
    exact (h.slot s.actBlk).dirty hd⟩

theorem trans (h : Loading s s') (h' : Loading s' s'') : Loading s s'' :=
  ⟨trans_of SameCtl h.ctl h'.ctl, h'.act.trans h.act,
    fun i hi => (h.slot i hi).trans (h'.slot i (by rwa [h.act])), h'.zone.trans h.zone,
    fun hd => h'.dirty (h.dirty hd)⟩

theorem load {f : BlkMapTblCache → BlkMapTblCache}
    (hzone : (f s.blkMapCache).zoneNum = s.blkMapCache.zoneNum)
    (hdirty : (f s.blkMapCache).dirtyFlag = s.blkMapCache.dirtyFlag) :
    Loading s (s.setBlkMapCache f) := by
  have hact : (s.setBlkMapCache f).blkMapCache = f s.blkMapCache := Function.update_self _ _ _
  refine ⟨⟨rfl, rfl, rfl, rfl⟩, rfl, fun i hi => ?_, ?_, fun hd => ?_⟩
  · rw [show (s.setBlkMapCache f).blkCache i = s.blkCache i from Function.update_of_ne hi _ _]
    exact .refl _
  · rw [Ftl.curMapZone, hact]
    exact hzone
  · rw [hact, hdirty]
    exact hd

/-- Giving up on the way is harmless when the slot is not in use. -/
theorem gaveUp (h : Loading s s') (hz : ¬C.allowed .tblMixed → s.curMapZone = 0xff) :
    GaveUp C s s' := by
  have hzone : (s'.blkCache s.actBlk).zoneNum = (s.blkCache s.actBlk).zoneNum := by
    have hz' := h.zone
    rwa [Ftl.curMapZone, Ftl.blkMapCache, h.act] at hz'
  refine ⟨h.ctl, fun i => ?_, fun i hd => ?_, fun ha ho i hi => ?_⟩
  · rcases eq_or_ne i s.actBlk with rfl | hne
    · exact hzone
    · exact (h.slot i hne).zone
  · rcases eq_or_ne i s.actBlk with rfl | hne
    · rw [← h.act]
      exact h.dirty hd
    · exact (h.slot i hne).dirty hd
  · rcases eq_or_ne i s.actBlk with rfl | hne
    · rw [hzone] at hi
      exact absurd (hz ha) hi
    · obtain ⟨hzone, hlo, hhi, hlog, -⟩ := h.slot i hne
      rw [hzone] at hi ⊢
      obtain ⟨ho₁, ho₂, ho₃⟩ := ho i hi
      exact ⟨hlo.trans ho₁, hhi.trans ho₂, hlog.trans ho₃⟩

end Loading

include hC

theorem mixTbls_wp {s₀ s : Ftl} (h : Loading s₀ s) {Q : Unit → Ftl → Prop} :
    WP C mixTbls Q (fun _ => GaveUp C s₀) s := by
  refine WP.bind (WP.get (WP.bind (WP.when (fun hz => ?_) fun hz => ?_)))
  · exact WP.emit fun ha => ⟨hC _ trivial, WP.fail (h.gaveUp fun hn => absurd ha hn)⟩
  · exact WP.fail (h.gaveUp fun _ => h.zone.symm.trans (not_not.mp hz))

/-- A read reports its result and does not give up. -/
theorem readTbl_returns {F : Int → Ftl → Prop} (z b page bitmap : Nat) (s : Ftl) :
    WP C (readTbl ar env z b page bitmap) (fun _ => SameMaps s) F s := by
  refine WP.bind (WP.bind (WP.get (WP.bind (WP.emit fun _ =>
    ⟨hC _ trivial, WP.bind (WP.modify ?_)⟩))))
  split <;> exact WP.pure (WP.bind (WP.modify (WP.pure (.of_eq ⟨rfl, rfl, rfl, rfl⟩ rfl rfl))))

/-- A part of the tables is read; giving up here may mix tables. -/
theorem readPart_wp {s₀ s : Ftl} {z b page bitmap : Nat} (h : Loading s₀ s)
    {Q : Unit → Ftl → Prop} {k : FtlProg Unit}
    (hk : ∀ s', SameMaps s s' → WP C k Q (fun _ => GaveUp C s₀) s') :
    WP C (readTbl ar env z b page bitmap >>= fun x => when (x.1 < 0) mixTbls >>= fun _ => k)
      Q (fun _ => GaveUp C s₀) s := by
  refine WP.bind ((readTbl_returns hC z b page bitmap s).imp fun x s' hs => ?_)
  exact WP.bind (WP.when (fun _ => mixTbls_wp hC (h.trans (.of_maps hs))) fun _ => hk s' hs)

theorem readBlockMapTbl_wp (z : Nat) (s : Ftl) :
    WP C (readBlockMapTbl ar env z) (fun _ s' => Loading s s' ∧ s'.blkMapCache.From z)
      (fun _ => GaveUp C s) s := by
  refine WP.bind (WP.get (WP.bind ((readTbl_returns hC _ _ _ _ s).imp fun x s₁ h₁ => ?_)))
  refine WP.bind (WP.failIf (fun _ => .of_slots h₁.ctl h₁.slots) fun _ => ?_)
  refine WP.bind (WP.modify (readPart_wp hC ((Loading.of_maps h₁).trans (.load rfl rfl))
    fun s₂ h₂ => ?_))
  refine WP.bind (WP.modify (WP.bind (WP.get ?_)))
  have h₃ : Loading s (s₂.setBlkMapCache fun c =>
      { c.loadBlk ar.dataBlkCntOfZone 512 s₂.processTblBuf with hiSrc := z }) :=
    (((Loading.of_maps h₁).trans (.load rfl rfl)).trans (.of_maps h₂)).trans (.load rfl rfl)
  refine WP.bind (WP.when (fun _ => mixTbls_wp hC h₃) fun _ => readPart_wp hC h₃ fun s₄ h₄ => ?_)
  refine WP.bind (WP.get (WP.bind (WP.when (fun _ => mixTbls_wp hC (h₃.trans (.of_maps h₄)))
    fun _ => WP.modify ⟨(h₃.trans (.of_maps h₄)).trans (.load rfl rfl), ?_⟩)))
  have hlo := h₂.active.lo
  have hlo' := h₄.active.lo
  have hhi := h₄.active.hi
  simp only [Ftl.blkMapCache_setBlkMapCache] at hlo hlo' hhi ⊢
  exact ⟨hlo'.trans hlo, hhi, rfl⟩

/-- A slot is taken for zone `z`: the other slots are as before, and so is this one when the switch
gives up. -/
theorem blkMapTblCachePost_wp (z : Nat) (s : Ftl) :
    WP C (blkMapTblCachePost ar env z)
      (fun _ s' => SameCtl s s' ∧ s'.curMapZone = z ∧ (OwnTables s → OwnTables s'))
      (fun _ => GaveUp C s) s := by
  have hpost : ∀ s : Ftl, Preserves C (fun s s' => SameCtl s s' ∧ SameSlots s s') postBlkSlot := by
    refine fun _ => Preserves.modify fun s => ?_
    split
    · exact ⟨⟨rfl, rfl, rfl, rfl⟩, fun _ => .refl _⟩
    · exact ⟨⟨rfl, rfl, rfl, rfl⟩, fun _ => ⟨rfl, rfl, rfl, rfl, fun h => h⟩⟩
  refine WP.bind ((hpost s).wp (fun _ s₁ h₁ => ?_) fun _ s₁ h₁ => .of_slots h₁.1 h₁.2)
  have hg : GaveUp C s s₁ := .of_slots h₁.1 h₁.2
  refine WP.bind (WP.get (WP.bind ?_))
  refine (Preserves.when fun _ => writeBackBlockMapTbl_keeps hC _).wp (fun _ s₂ h₂ => ?_)
    fun _ s₂ h₂ => hg.trans (.of_slots h₂.ctl h₂.slots)
  have hg₂ : GaveUp C s s₂ := hg.trans (.of_slots h₂.ctl h₂.slots)
  refine WP.bind (WP.orElse ((readBlockMapTbl_wp hC z s₂).mono (fun _ s₃ h₃ => ?_) fun _ s₃ h₃ => ?_))
  · obtain ⟨h₃, hfrom⟩ := h₃
    refine WP.modify ⟨?_, ?_, fun ho i hi => ?_⟩
    · have hctl := trans_of SameCtl hg₂.ctl h₃.ctl
      exact ⟨hctl.ctl, hctl.host, hctl.write, hctl.page⟩
    · rw [Ftl.curMapZone, Ftl.blkMapCache_setBlkMapCache]
    · have ho₂ : OwnTables s₂ := .of_slots (trans_of SameSlots h₁.2 h₂.slots) ho
      rcases eq_or_ne i s₃.actBlk with rfl | hne
      · rw [show (s₃.setBlkMapCache _).blkCache s₃.actBlk = _ from Function.update_self _ _ _]
        exact hfrom
      · rw [show (s₃.setBlkMapCache _).blkCache i = s₃.blkCache i from
          Function.update_of_ne hne _ _] at hi ⊢
        have hslot := h₃.slot i (by rwa [h₃.act] at hne)
        rw [hslot.zone] at hi ⊢
        obtain ⟨hlo, hhi, hlog⟩ := ho₂ i hi
        exact ⟨hslot.lo.trans hlo, hslot.hi.trans hhi, hslot.log.trans hlog⟩
  · refine WP.bind (WP.when (fun _ => WP.emit fun _ => ⟨hC _ trivial, ?_⟩) fun _ => ?_)
    · exact WP.fail (hg₂.trans h₃)
    · exact WP.fail (hg₂.trans h₃)

omit hC in
theorem findSlot_some {p : Fin 4 → Bool} {i : Fin 4} (h : findSlot p = some i) : p i = true :=
  List.find?_some h

/-- `BMM_SwitchMapTbl` succeeds with the tables of the zone, or gives up. -/
theorem bmmSwitchMapTbl_wp (z : Nat) (s : Ftl) :
    WP C (bmmSwitchMapTbl ar env z)
      (fun _ s' => SameCtl s s' ∧ s'.curMapZone = z ∧ (OwnTables s → OwnTables s'))
      (fun _ => GaveUp C s) s := by
  have hcount : ∀ s : Ftl, SameMaps s { s with blkCache := fun i => { s.blkCache i with
      accessCnt := if i = s.actBlk then 0 else u16 ((s.blkCache i).accessCnt + 1) } } := fun s =>
    ⟨⟨rfl, rfl, rfl, rfl⟩, rfl, fun _ => ⟨rfl, rfl, rfl, rfl, fun h => h⟩⟩
  refine WP.bind (WP.get (WP.bind (WP.orElse ?_)))
  refine WP.mono (?_ : WP C _
    (fun _ s' => SameCtl s s' ∧ s'.curMapZone = z ∧ (OwnTables s → OwnTables s'))
    (fun _ => GaveUp C s) s) (fun _ s' h => ?_) fun e s' h => ?_
  · split
    · rename_i i hi
      exact WP.modify ⟨⟨rfl, rfl, rfl, rfl⟩, of_decide_eq_true (findSlot_some hi), fun h => h⟩
    · exact blkMapTblCachePost_wp hC z s
  · obtain ⟨hctl, hzone, hown⟩ := h
    have hc := hcount s'
    exact WP.modify ⟨trans_of SameCtl hctl hc.ctl, hc.curMapZone.trans hzone,
      fun ho => (hown ho).of_slots hc.slots⟩
  · have hc := hcount s'
    exact WP.bind (WP.modify (WP.fail (h.trans (.of_slots hc.ctl hc.slots))))

end Switch

/-! ## Page operations -/

/-- The tables, the active slot and the zone of `LogicalCtl` are as before, and no write has been
begun. -/
structure SameZone (s s' : Ftl) : Prop where
  zone : s'.logicalCtl.zoneNum = s.logicalCtl.zoneNum
  mode : s'.logicalCtl.opMode = .write → s.logicalCtl.opMode = .write
  act : s'.actBlk = s.actBlk
  slots : SameSlots s s'

instance : Std.Refl SameZone := ⟨fun s => ⟨rfl, fun h => h, rfl, refl_of SameSlots s⟩⟩

instance : IsTrans Ftl SameZone := ⟨fun _ _ _ h h' =>
  ⟨h'.zone.trans h.zone, fun hm => h.mode (h'.mode hm), h'.act.trans h.act, trans_of SameSlots h.slots h'.slots⟩⟩

/-- The operation is on zone `z`, and the tables of that zone are active. -/
structure OnZone (z : Nat) (s : Ftl) : Prop where
  own : OwnTables s
  ne : z ≠ 0xff
  cur : s.curMapZone = z
  ctl : s.logicalCtl.zoneNum = z

namespace SameZone

variable {s s' : Ftl}

theorem of_maps (h : SameMaps s s') : SameZone s s' :=
  ⟨by rw [h.ctl.ctl], by rw [h.ctl.ctl]; exact fun h => h, h.act, h.slot⟩

theorem setLogicalCtl {f : LogicCtlPar → LogicCtlPar}
    (hf : (f s.logicalCtl).zoneNum = s.logicalCtl.zoneNum)
    (hm : (f s.logicalCtl).opMode = .write → s.logicalCtl.opMode = .write) :
    SameZone s (s.setLogicalCtl f) :=
  ⟨hf, hm, rfl, fun _ => .refl _⟩

theorem curMapZone (h : SameZone s s') : s'.curMapZone = s.curMapZone := by
  rw [Ftl.curMapZone, Ftl.blkMapCache, h.act]
  exact (h.slots s.actBlk).zone

theorem onZone {z : Nat} (h : SameZone s s') (ho : OnZone z s) : OnZone z s' :=
  ⟨ho.own.of_slots h.slots, ho.ne, h.curMapZone.trans ho.cur, h.zone.trans ho.ctl⟩

end SameZone

section Operations

variable {ar : LogicArchi} {env : NandEnv} {s : Ftl}

theorem useTbls_wp {z : Nat} {Q : Unit → Ftl → Prop} {F : Int → Ftl → Prop} (h : UsesOwn z s)
    (hQ : Q () s) : WP switchContract (useTbls z) Q F s :=
  WP.bind (WP.get (WP.emit fun _ => ⟨h, hQ⟩))

theorem replaceLogBlk_wp (nErrPage : Nat) (h : UsesOwn s.logicalCtl.zoneNum s) :
    WP switchContract (replaceLogBlk ar env nErrPage) (fun _ => SameZone s)
      (fun _ => SameZone s) s := by
  refine WP.bind (WP.get (WP.bind (useTbls_wp h (WP.bind ?_))))
  refine (lmlBadBlkManage_keeps switchContract_plain _ _ _).wp (fun newBlk s₁ h₁ => ?_)
    fun _ s₁ h₁ => .of_maps h₁
  refine WP.bind (WP.modify (WP.bind (WP.get (WP.modify ?_))))
  exact trans_of SameZone (.of_maps h₁) (trans_of SameZone (.setLogicalCtl rfl fun h => h)
    (.of_maps (.setTbls _ _)))

/-- What holds between operations: a write that is not closed is in a zone. -/
structure Between (s : Ftl) : Prop where
  own : OwnTables s
  ctl : s.logicalCtl.opMode = .write → s.logicalCtl.zoneNum ≠ 0xff

theorem SameZone.between {s s' : Ftl} (h : SameZone s s') (hb : Between s) : Between s' :=
  ⟨hb.own.of_slots h.slots, fun hm => by rw [h.zone]; exact hb.ctl (h.mode hm)⟩

theorem OnZone.between {z : Nat} (h : OnZone z s) : Between s :=
  ⟨h.own, fun _ => by rw [h.ctl]; exact h.ne⟩

theorem OnZone.uses {z : Nat} (h : OnZone z s) : UsesOwn z s := h.own.uses h.cur h.ne

theorem closeWritePage_wp (hb : Between s) :
    WP switchContract (closeWritePage ar env) (fun _ => SameZone s) (fun _ => SameZone s) s := by
  refine WP.bind (WP.get (WP.bind (WP.when (fun hw => ?_) fun _ => ?_)))
  · refine WP.bind ((phySynchBank_keeps _).wp (fun ret s₁ h₁ => ?_) fun _ s₁ h₁ => .of_maps h₁)
    refine WP.when (fun _ => ?_) fun _ => ?_
    · refine WP.bind (WP.when (fun _ => WP.emit fun ha => ha.elim) fun hin => ?_)
      have hcur := (not_not.mp hin).1
      have huse : UsesOwn s₁.logicalCtl.zoneNum s₁ := by
        rw [h₁.ctl.ctl]
        exact (hb.own.of_slots h₁.slots).uses (h₁.curMapZone.trans hcur) (hb.ctl hw)
      refine (replaceLogBlk_wp _ huse).mono (fun _ s₂ h₂ => WP.modify ?_) fun _ s₂ h₂ => ?_
      · exact trans_of SameZone (trans_of SameZone (.of_maps h₁) h₂) (.setLogicalCtl rfl (by simp))
      · exact trans_of SameZone (.of_maps h₁) h₂
    · exact WP.modify (trans_of SameZone (.of_maps h₁) (.setLogicalCtl rfl (by simp)))
  · exact WP.modify (.setLogicalCtl rfl (by simp))

theorem failWith_wp {α : Type} {C : Contract Event} {m : FtlProg α} {e : Int} {Q : α → Ftl → Prop}
    {F : Ftl → Prop} (h : WP C m Q (fun _ => F) s) : WP C (failWith m e) Q (fun _ => F) s :=
  WP.orElse (h.mono (fun _ _ hq => hq) fun _ _ hf => WP.fail hf)

/-- After `enterZone` the tables of the zone are active. -/
theorem enterZone_wp {z : Nat} (hb : Between s) (hne : z ≠ 0xff)
    (hcur : z = s.logicalCtl.zoneNum → s.curMapZone = z) :
    WP switchContract (enterZone ar env z) (fun _ => OnZone z) (fun _ => Between) s := by
  refine WP.bind (WP.get (WP.when (fun _ => WP.bind (failWith_wp ?_)) fun hz => ?_))
  · refine (bmmSwitchMapTbl_wp switchContract_plain z s).mono (fun _ s₁ h₁ => ?_) fun _ s₁ h₁ => ?_
    · obtain ⟨-, hzone, hown⟩ := h₁
      exact WP.modify ⟨hown hb.own, hne, hzone, rfl⟩
    · exact ⟨h₁.own (fun h => h) hb.own, by rw [h₁.ctl.ctl]; exact hb.ctl⟩
  · have hz' := not_not.mp hz
    exact ⟨hb.own, hne, hcur hz', hz'.symm⟩

theorem Drifts.between {s s' : Ftl} (h : Drifts s s') (hb : Between s) : Between s' :=
  ⟨hb.own.of_slots h.slots, by rw [h.ctl.ctl]; exact hb.ctl⟩

theorem SameMaps.onZone {s s' : Ftl} {z : Nat} (h : SameMaps s s') (ho : OnZone z s) :
    OnZone z s' := (SameZone.of_maps h).onZone ho

theorem Between.store (hb : Between s) (bitmap : Nat) (src : Buf) (pBuf : PageBuf) :
    Between (pBuf.store bitmap src s) := by
  cases pBuf <;> exact ⟨hb.own, hb.ctl⟩

theorem lmlPageRead_wp {nPage nBitmap : Nat} {pBuf : PageBuf} (hb : Between s)
    (hne : (calculateLogicPagePar ar nPage).zoneNum ≠ 0xff)
    (hcur : (calculateLogicPagePar ar nPage).zoneNum = s.logicalCtl.zoneNum →
      s.curMapZone = (calculateLogicPagePar ar nPage).zoneNum) :
    WP switchContract (lmlPageRead ar env nPage nBitmap pBuf) (fun _ => Between)
      (fun _ => Between) s := by
  set x := calculateLogicPagePar ar nPage with hx
  have hmode : WP switchContract (when (s.logicalCtl.opMode ≠ .read) do
      when ((← get).logicalCtl.opMode = .write) (failWith (closeWritePage ar env) (-errLogicctl))
      modify (·.setLogicalCtl ({ · with opMode := .read }))) (fun _ => SameZone s)
      (fun _ => SameZone s) s := by
    refine WP.when (fun _ => WP.bind (WP.get (WP.bind (WP.when (fun _ => ?_) fun _ => ?_))))
      fun _ => refl_of SameZone s
    · exact failWith_wp ((closeWritePage_wp hb).imp fun _ s₁ h₁ =>
        WP.modify (trans_of SameZone h₁ (.setLogicalCtl rfl (by simp))))
    · exact WP.modify (.setLogicalCtl rfl (by simp))
  refine WP.bind (WP.get (WP.bind (hmode.mono (fun _ s₁ h₁ => ?_) fun _ s₁ h₁ => h₁.between hb)))
  have hcur₁ : x.zoneNum = s₁.logicalCtl.zoneNum → s₁.curMapZone = x.zoneNum := fun hz =>
    h₁.curMapZone.trans (hcur (hz.trans h₁.zone))
  refine WP.bind ((enterZone_wp (h₁.between hb) hne hcur₁).imp fun _ s₂ h₂ => ?_)
  have hblk : WP switchContract (enterReadBlk ar x) (fun _ => OnZone x.zoneNum)
      (fun _ => Between) s₂ :=
    WP.bind (WP.get (WP.when (fun _ => WP.bind (useTbls_wp h₂.uses (WP.modify
      ((SameZone.setLogicalCtl rfl fun h => h).onZone h₂)))) fun _ => h₂))
  refine WP.bind (hblk.imp fun _ s₃ h₃ => WP.bind (WP.modify ?_))
  have h₄ : OnZone x.zoneNum (s₃.setLogicalCtl ({ · with logicPageNum := x.pageNum })) :=
    (SameZone.setLogicalCtl rfl fun h => h).onZone h₃
  refine WP.bind (WP.get (WP.bind ?_))
  have hlog : ∀ c : LogicCtlPar, WP switchContract (if c.logBlkNum.phyBlkNum ≠ 0xffff then do
        useTbls x.zoneNum
        pmmGetLogPageRead ar env x.blockNum x.pageNum
      else
        pure 0xffff) (fun _ => Between) (fun _ => Between)
      (s₃.setLogicalCtl ({ · with logicPageNum := x.pageNum })) := fun c => by
    refine WP.ite (fun _ => WP.bind (useTbls_wp h₄.uses ?_)) fun _ => WP.pure h₄.between
    exact (pmmGetLogPageRead_keeps switchContract_plain _ _).wp (fun _ _ h => h.between h₄.between)
      fun _ _ h => h.between h₄.between
  refine (hlog _).imp fun logPage s₅ h₅ => WP.bind (WP.modify (WP.bind (WP.get (WP.bind ?_))))
  have h₆ : Between (s₅.setLogicalCtl ({ · with logPageNum := logPage })) :=
    (SameZone.setLogicalCtl rfl fun h => h).between h₅
  have hread : ∀ a : PhyPage, WP switchContract (phyPageRead env a) (fun _ => Between)
      (fun _ => Between) (s₅.setLogicalCtl ({ · with logPageNum := logPage })) := fun a =>
    (phyPageRead_keeps switchContract_plain a).wp (fun _ _ h => h.drifts.between h₆)
      fun _ _ h => h.drifts.between h₆
  have hrest : ∀ r : Int × Page, ∀ s₇, Between s₇ → WP switchContract (do
      modify (pBuf.store nBitmap r.2.main)
      failIf (r.1 < 0) (-1)
      pure r.1) (fun _ => Between) (fun _ => Between) s₇ := fun r s₇ h₇ =>
    WP.bind (WP.modify (WP.bind (WP.failIf (fun _ => h₇.store _ _ _)
      fun _ => WP.pure (h₇.store _ _ _))))
  refine WP.ite (fun _ => ?_) fun _ => ?_
  · exact (hread _).imp hrest
  · exact (hread _).imp hrest

theorem enterWritePage_wp {x : LogicPage} (ho : OnZone x.zoneNum s) :
    WP switchContract (enterWritePage ar env x) (fun _ => OnZone x.zoneNum) (fun _ => Between) s := by
  have h₁ : OnZone x.zoneNum (s.setLogicalCtl ({ · with logicPageNum := x.pageNum })) :=
    (SameZone.setLogicalCtl rfl fun h => h).onZone ho
  refine WP.bind (WP.modify (WP.bind (useTbls_wp h₁.uses (WP.bind (WP.orElse ?_)))))
  refine (pmmGetLogPageWrite_settles switchContract_plain _ _ _).mono (fun _ s₂ h₂ => ?_)
    fun _ s₂ h₂ => ?_
  · have h₂' := h₂.onZone h₁
    refine WP.bind (useTbls_wp h₂'.uses (WP.bind (WP.modify (WP.bind (WP.get ?_)))))
    exact WP.failIf (fun _ => ((SameZone.setLogicalCtl rfl fun h => h).onZone h₂').between)
      fun _ => (SameZone.setLogicalCtl rfl fun h => h).onZone h₂'
  · exact WP.bind (WP.modify (WP.fail
      ((SameZone.setLogicalCtl rfl fun h => h).between (h₂.between h₁.between))))

theorem writePageStatus_wp {z : Nat} (ho : OnZone z s) :
    WP switchContract (writePageStatus ar env) (fun _ => OnZone z) (fun _ => Between) s := by
  refine WP.bind (WP.get (WP.ite (fun _ => WP.bind ?_) fun _ => WP.pure ho))
  refine (readTemp_keeps switchContract_plain _ _ _ _).wp (fun _ _ h => ?_) fun _ _ h => ?_
  · exact WP.bind (WP.failIf (fun _ => (h.onZone ho).between) fun _ => WP.pure (h.onZone ho))
  · exact (h.onZone ho).between

/-- A try of the write ends on the zone it was started on. -/
theorem tryWritePage_wp {z : Nat} (ho : OnZone z s) (p : Page) :
    WP switchContract (tryWritePage ar env p ()) (fun _ => OnZone z) (fun _ => Between) s := by
  refine WP.bind (WP.get (WP.bind ?_))
  have hstatus : WP switchContract (if s.logicalCtl.opMode = .write then
        phySynchBank (lmlCalculatePhyOpPar ar s.logicalCtl.zoneNum s.logicalCtl.logBlkNum.phyBlkNum
          s.logicalCtl.logPageNum).bank
      else pure 0) (fun _ => OnZone z) (fun _ => Between) s :=
    WP.ite (fun _ => (phySynchBank_keeps _).wp (fun _ _ h => h.onZone ho)
      fun _ _ h => (h.onZone ho).between) fun _ => WP.pure ho
  refine hstatus.imp fun result s₁ h₁ => WP.ite (fun _ => WP.bind ?_) fun _ => WP.bind ?_
  · exact (replaceLogBlk_wp _ (by rw [h₁.ctl]; exact h₁.uses)).mono
      (fun _ _ h => WP.pure (h.onZone h₁)) fun _ _ h => (h.onZone h₁).between
  · refine (phyPageWrite_keeps switchContract_plain _ _).wp (fun _ _ h => WP.bind ?_)
      fun _ _ h => (h.onZone h₁).between
    exact WP.failIf (fun _ => (h.onZone h₁).between) fun _ => WP.pure (h.onZone h₁)

theorem lmlPageWrite_wp {nPage nBitmap : Nat} {pBuf : PageBuf} (hb : Between s)
    (hne : (calculateLogicPagePar ar nPage).zoneNum ≠ 0xff)
    (hcur : (calculateLogicPagePar ar nPage).zoneNum = s.logicalCtl.zoneNum →
      s.curMapZone = (calculateLogicPagePar ar nPage).zoneNum) :
    WP switchContract (lmlPageWrite ar env nPage nBitmap pBuf) (fun _ => Between)
      (fun _ => Between) s := by
  set x := calculateLogicPagePar ar nPage with hx
  refine WP.bind (WP.failIf (fun _ => hb) fun _ => WP.bind (WP.get (WP.bind ?_)))
  have hclose : WP switchContract (when (x.zoneNum ≠ s.logicalCtl.zoneNum)
      (failWith (closeWritePage ar env) (-errLogicctl))) (fun _ => SameZone s)
      (fun _ => SameZone s) s :=
    WP.when (fun _ => failWith_wp (closeWritePage_wp hb)) fun _ => refl_of SameZone s
  refine hclose.mono (fun _ s₁ h₁ => WP.bind ?_) fun _ s₁ h₁ => h₁.between hb
  have hcur₁ : x.zoneNum = s₁.logicalCtl.zoneNum → s₁.curMapZone = x.zoneNum := fun hz =>
    h₁.curMapZone.trans (hcur (hz.trans h₁.zone))
  refine (enterZone_wp (h₁.between hb) hne hcur₁).imp fun _ s₂ h₂ => WP.bind ?_
  refine (bmmSetDirtyFlag_keeps switchContract_plain).wp (fun _ s₃ h₃ => ?_)
    fun _ s₃ h₃ => (h₃.onZone h₂).between
  have ho₃ := h₃.onZone h₂
  refine WP.bind (WP.get (WP.bind ?_))
  have hblk : WP switchContract (when (x.blockNum ≠ s₃.logicalCtl.logicBlkNum) do
      failWith (closeWritePage ar env) (-errLogicctl)
      modify (·.setLogicalCtl ({ · with logicBlkNum := x.blockNum })))
      (fun _ => OnZone x.zoneNum) (fun _ => Between) s₃ :=
    WP.when (fun _ => WP.bind ((failWith_wp (closeWritePage_wp ho₃.between)).mono
      (fun _ _ h => WP.modify ((SameZone.setLogicalCtl rfl fun h => h).onZone (h.onZone ho₃)))
      fun _ _ h => h.between ho₃.between)) fun _ => ho₃
  refine hblk.imp fun _ s₄ h₄ => WP.bind ((enterWritePage_wp h₄).imp fun _ s₅ h₅ => WP.bind ?_)
  refine (writePageStatus_wp h₅).imp fun status s₆ h₆ => WP.bind (WP.get (WP.bind ?_))
  refine WP.imp (WP.iterate_inv (I := fun _ => OnZone x.zoneNum) (Q := fun _ => OnZone x.zoneNum)
    (fun _ s₇ h₇ => ?_) (fun _ _ h => h.between) h₆) fun _ s₈ h₈ => WP.modify ?_
  · exact (tryWritePage_wp h₇ _).imp fun r _ h => by cases r <;> exact h
  · exact ⟨h₈.own, fun _ => h₈.ctl.symm ▸ h₈.ne⟩

/-- The labels and the origins of the tables are as before. -/
structure SameSource (s s' : Ftl) : Prop where
  ctl : SameCtl s s'
  slot : ∀ i, (s'.blkCache i).zoneNum = (s.blkCache i).zoneNum ∧
    ∀ z, (s.blkCache i).From z → (s'.blkCache i).From z

instance : Std.Refl SameSource := ⟨fun s => ⟨refl_of SameCtl s, fun _ => ⟨rfl, fun _ h => h⟩⟩⟩

instance : IsTrans Ftl SameSource := ⟨fun _ _ _ h h' =>
  ⟨trans_of SameCtl h.ctl h'.ctl, fun i => ⟨(h'.slot i).1.trans (h.slot i).1,
    fun z hz => (h'.slot i).2 z ((h.slot i).2 z hz)⟩⟩⟩

theorem SameMaps.source {s s' : Ftl} (h : SameMaps s s') : SameSource s s' :=
  ⟨h.ctl, fun i => ⟨(h.slot i).zone, fun _ hz => ⟨(h.slot i).lo.trans hz.1,
    (h.slot i).hi.trans hz.2.1, (h.slot i).log.trans hz.2.2⟩⟩⟩

theorem SameSource.between {s s' : Ftl} (h : SameSource s s') (hb : Between s) : Between s' := by
  refine ⟨fun i hi => ?_, by rw [h.ctl.ctl]; exact hb.ctl⟩
  obtain ⟨hzone, hfrom⟩ := h.slot i
  rw [hzone] at hi ⊢
  exact hfrom _ (hb.own i hi)

theorem bmmWriteBackAllMapTbl_keeps {C : Contract Event} (hC : PlainContract C) :
    Preserves C SameSource (bmmWriteBackAllMapTbl ar env) := by
  have hmove : ∀ f : Ftl → Ftl, (∀ s, SameCtl s (f s)) → (∀ s, (f s).blkCache = s.blkCache) →
      Preserves C SameSource (modify f : FtlProg Unit) := fun f hctl hcache => Preserves.modify fun s =>
    ⟨hctl s, fun i => by rw [hcache]; exact ⟨rfl, fun _ h => h⟩⟩
  refine Preserves.bind Preserves.get fun s => Preserves.bind (Preserves.forRange fun i => Preserves.bind Preserves.get
    fun _ => Preserves.when fun _ => ?_) fun _ => ?_
  · refine Preserves.bind (hmove _ (fun _ => ⟨rfl, rfl, rfl, rfl⟩) fun _ => rfl) fun _ =>
      Preserves.bind Preserves.get fun _ => Preserves.bind ((writeBackBlockMapTbl_keeps hC _).weaken
        fun _ _ h => h.source) fun _ => Preserves.modify fun s => ⟨⟨rfl, rfl, rfl, rfl⟩, fun i => ?_⟩
    rcases eq_or_ne i s.actBlk with rfl | hne
    · simp only [Ftl.setBlkMapCache, Function.update_self]
      exact ⟨rfl, fun _ h => h⟩
    · simp only [Ftl.setBlkMapCache, Function.update_of_ne hne]
      exact ⟨trivial, fun _ h => h⟩
  · exact hmove _ (fun _ => ⟨rfl, rfl, rfl, rfl⟩) fun _ => rfl

/-- Each operation keeps the tables in the slots they belong to. -/
theorem pageOp_wp (op : PageOp) (hin : InZone ar op s) (hb : Between s) :
    WP switchContract (op.run ar env) (fun _ => Between) (fun _ => Between) s := by
  cases op with
  | read nPage nBitmap pBuf =>
      obtain ⟨hne, hcur⟩ := hin _ rfl
      exact WP.bind ((lmlPageRead_wp hb hne hcur).imp fun _ _ h => WP.pure h)
  | write nPage nBitmap pBuf =>
      obtain ⟨hne, hcur⟩ := hin _ rfl
      exact lmlPageWrite_wp hb hne hcur
  | close =>
      exact (closeWritePage_wp hb).mono (fun _ _ h => h.between hb) fun _ _ h => h.between hb
  | writeBackAll =>
      exact (bmmWriteBackAllMapTbl_keeps switchContract_plain).wp (fun _ _ h => h.between hb)
        fun _ _ h => h.between hb

end Operations

/-! ## Runs -/

/-- A geometry with four zones in RAM and a fifth on flash. -/
def fiveZones : LogicArchi where
  pageCntOfLogicBlk := 64
  pageCntOfPhyBlk := 64
  sectorCntOfLogicPage := 4
  dataBlkCntOfZone := 900
  zoneCntOfDie := 5
  dieCntOfChip := 1
  superBlkCntOfDie := 5120
  dieCntOfNand := 1
  supportIntInterleave := false
  supportExtInterleave := false
  supportAlignNandBnk := false
  supportPageCopyback := false
  supportMultiProgram := false

/-- Zones 0 to 3 are in RAM, zone 0 is active and zone 1 is the least recently used. -/
def fourCached : Ftl where
  nand := ⟨fun _ => none, fun _ => false, 0⟩
  zoneTblPst z := ⟨z, 0⟩
  blkCache i := ⟨i, false, if i.val = 1 then 1 else 0, ⟨fun k => ⟨k + 5, 0⟩, fun k => ⟨k + 1000, 0⟩,
    fun _ => .none⟩, 0, 0, i, i, i⟩
  actBlk := ⟨0, Nat.succ_pos 3⟩
  logAccessAge _ := 0
  logAccessTimer := 0
  pageCache _ := ⟨0xff, 0xff, 0, fun _ => 0xffff, false⟩
  actPage := ⟨0, Nat.succ_pos 3⟩
  tempBuf _ := 0
  writePageCache _ := 0
  processTblBuf _ := 0
  logicalCtl := ⟨.none, 0, 0xffff, 0xffff, 0xffff, .none, .none, 0⟩
  cachePage := ⟨0xffffffff, 0⟩
  host _ := 0
  marked := []

/-- The first read of all does not succeed. -/
def firstReadFails : NandEnv where
  read n := if n = 0 then .timeout .blank else .good
  prog _ := .done
  erase _ := .done

theorem between_fourCached : Between fourCached :=
  ⟨fun _ _ => ⟨rfl, rfl, rfl⟩, by rintro ⟨⟩⟩

/-- The zones that page operations are on where they use tables, and the zones of these tables. -/
def usedZones (es : List Event) : List (Nat × Nat) :=
  es.filterMap fun
    | .tblUse z s => some (z, s.curMapZone)
    | _ => none

end Novo7
