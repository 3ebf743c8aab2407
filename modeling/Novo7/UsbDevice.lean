import Novo7.Diskboot
import Novo7.MassStorageRange
import Novo7.MassStorageFraming

/-!
# The device's USB loop

`usbdcomm_poll` looks at the interrupt flags of the controller once and hands what it finds to
the interfaces: a packet on the bulk endpoint to `diskboot_rx_handler`, one on the mass-storage
endpoint to `masstorage_rx_handler`, both only at the start of a frame and after the interrupt
of the endpoint was seen in an earlier poll.

A bus reset clears the flags and the address. It does not reach the interfaces: whatever part
of a command they wait for, they still wait for it afterwards (`reset_resynchronises_iff`).

Requests on the control endpoint are a parameter of each poll. Of what `dispatch_cmd` does, the
mount is what reaches the mass-storage globals here; the rest is the `effect` of `Novo7.Diskboot`.
-/

namespace Novo7

open Machine Bytes Transducer

/-! ## The loop -/

/-- The address and speed of `struct sw_udc`. -/
structure SwUdc where
  address : Nat
  speed : Nat
  deriving Repr, DecidableEq

/-- The globals of `usbdcomm.c` and of the two interfaces. -/
structure UsbDevice (ν : Type) where
  udc : SwUdc
  deferredRx : BitVec 32
  rx : RxState
  msc : MscState ν

/-- What the interfaces run on. -/
structure UsbEnv (ν : Type) where
  effect : Command → RxState → RxState
  msc : MscEnv ν
  info : StorageInfo

/-- What one poll finds: the interrupt flags, the outcome of `usbdcomm_resume`, and the packet
that is ready on each endpoint. -/
structure Poll where
  reset : Bool
  resume : Bool
  suspend : Bool
  disconnect : Bool
  sof : Bool
  rxPending : BitVec 32
  control : SwUdc → SwUdc × Int
  bulkOut : Option (List UInt8)
  masstorageOut : Option (List UInt8)

/-- The result of a poll, what the diskboot handler did with a packet, and where the
mass-storage handler copied one as data. -/
structure PollOutput where
  ret : Int
  diskboot : Option RxOutput
  masstorage : Option (Option (Nat × Nat))

def usbdcommOk : Int := 0
def usbdcommDisconnect : Int := 1
def usbdcommInactive : Int := 2

def bulkOutEpIndex : Nat := 2
def masstorageOutEpIndex : Nat := 4

variable {ν : Type}

/-- The case `BCMD_MOUNT` of `dispatch_cmd`. -/
def dispatchMount (info : StorageInfo) (c : Command) (s : MscState ν) : MscState ν :=
  if c.cmd = 0x4d then (masstorageMount info s (u32 c.start) c.count (c.param1 ≠ 0)).1 else s

/-- `usbdcomm_rx`. -/
def usbdcommRx (env : UsbEnv ν) (s : UsbDevice ν) (ready : Option (List UInt8)) :
    UsbDevice ν × Int × Option RxOutput :=
  match ready with
  | none => (s, usbdcommInactive, none)
  | some buffer =>
    let (rx, o) := diskbootRxHandler env.effect s.rx buffer
    let msc := match o.dispatched with
      | some c => dispatchMount env.info c s.msc
      | none => s.msc
    ({ s with rx := rx, msc := msc }, usbdcommOk, some o)

/-- `masstorage_rx`. -/
def masstorageRx (env : UsbEnv ν) (s : UsbDevice ν) (ready : Option (List UInt8)) :
    UsbDevice ν × Int × Option (Option (Nat × Nat)) :=
  match ready with
  | none => (s, usbdcommInactive, none)
  | some buffer =>
    ({ s with msc := masstorageRxHandler env.msc s.msc buffer }, usbdcommOk,
      some (mscFrame s.msc buffer).copied)

/-- `deferred_rx &= ~(1 << ep)`. -/
def UsbDevice.undefer (s : UsbDevice ν) (ep : Nat) : UsbDevice ν :=
  { s with deferredRx := s.deferredRx &&& ~~~(1#32 <<< ep) }

/-- The loop over the rx endpoints at the end of `usbdcomm_poll`. -/
def UsbDevice.defer (s : UsbDevice ν) (rxPending : BitVec 32) : UsbDevice ν :=
  { s with deferredRx := s.deferredRx ||| rxPending &&& 0b11110#32 }

/-- `usbdcomm_rx` if the interrupt of its endpoint was seen. -/
def deferredBulk (env : UsbEnv ν) (s : UsbDevice ν) (ret : Int) (ready : Option (List UInt8)) :
    UsbDevice ν × Int × Option RxOutput :=
  if s.deferredRx.getLsbD bulkOutEpIndex then usbdcommRx env s ready else (s, ret, none)

/-- `masstorage_rx` if the interrupt of its endpoint was seen. -/
def deferredMasstorage (env : UsbEnv ν) (s : UsbDevice ν) (ret : Int)
    (ready : Option (List UInt8)) : UsbDevice ν × Int × Option (Option (Nat × Nat)) :=
  if s.deferredRx.getLsbD masstorageOutEpIndex then masstorageRx env s ready else (s, ret, none)

/-- The start of a frame in `usbdcomm_poll`, and what follows it. -/
def pollSof (env : UsbEnv ν) (s : UsbDevice ν) (i : Poll) : UsbDevice ν × PollOutput :=
  let (udc, ret) := i.control s.udc
  let s := { s with udc := udc }
  if ret < usbdcommOk then (s, ⟨ret, none, none⟩)
  else
    let (s, ret, o) := deferredBulk env s ret i.bulkOut
    if ret < usbdcommOk then (s, ⟨ret, o, none⟩)
    else
      let (s, ret, copied) :=
        deferredMasstorage env (s.undefer bulkOutEpIndex) ret i.masstorageOut
      if ret < usbdcommOk then (s, ⟨ret, o, copied⟩)
      else ((s.undefer masstorageOutEpIndex).defer i.rxPending, ⟨ret, o, copied⟩)

/-- `usbdcomm_poll`. -/
def usbdcommPoll (env : UsbEnv ν) (s : UsbDevice ν) (i : Poll) : UsbDevice ν × PollOutput :=
  let ret := if s.deferredRx ≠ 0 then usbdcommOk else usbdcommInactive
  if i.reset then ({ s with udc := ⟨0, 0⟩ }, ⟨usbdcommOk, none, none⟩)
  else if i.resume then
    let (udc, ret) := i.control s.udc
    ({ s with udc := udc }, ⟨ret, none, none⟩)
  else if i.suspend then (s, ⟨usbdcommOk, none, none⟩)
  else if i.disconnect then (s, ⟨usbdcommDisconnect, none, none⟩)
  else if i.sof then pollSof env s i
  else (s.defer i.rxPending, ⟨ret, none, none⟩)

/-- `usbdcomm_shutdown`, the only caller of `diskboot_reset_handler`. -/
def usbdcommShutdown (s : UsbDevice ν) : UsbDevice ν :=
  { s with udc := ⟨0, 0⟩, deferredRx := 0, rx := diskbootResetHandler s.rx }

/-! ## What a poll hands on -/

section Handlers

variable {effect : Command → RxState → RxState} {p : List UInt8}

theorem rxFinish_copied (copied : Option (Nat × Nat)) (s : RxState) :
    (rxFinish effect copied s).2.copied = copied := by
  unfold rxFinish
  split_ifs <;> rfl

/-- The diskboot handler takes a packet as a header when no command is pending. -/
theorem rx_copied_iff {s : RxState} :
    (diskbootRxHandler effect s p).2.copied = none ↔ s.curCmd.cmd = 0 := by
  unfold diskbootRxHandler
  by_cases hcmd : s.curCmd.cmd = 0
  · rw [if_pos hcmd]
    dsimp only
    refine iff_of_true ?_ hcmd
    split_ifs
    · rfl
    · rfl
    · rfl
    · exact rxFinish_copied _ _
  · rw [if_neg hcmd]
    dsimp only
    rw [rxFinish_copied]
    exact iff_of_false (fun h => nomatch h) hcmd

/-- The mass-storage handler takes a packet as a wrapper when a command is awaited. -/
theorem mscFrame_copied_iff {s : MscState ν} : (mscFrame s p).copied = none ↔ s.commandEnds := by
  unfold mscFrame
  by_cases hends : s.commandEnds
  · rw [if_pos hends]
    dsimp only
    refine iff_of_true ?_ hends
    split_ifs <;> rfl
  · rw [if_neg hends]
    exact iff_of_false (fun h => nomatch h) hends

/-- A mount leaves the framing of the wrappers alone. -/
theorem dispatchMount_commandEnds (info : StorageInfo) (c : Command) (s : MscState ν) :
    (dispatchMount info c s).commandEnds ↔ s.commandEnds := by
  unfold dispatchMount
  split_ifs
  · rcases masstorageMount_cases info s (u32 c.start) c.count (c.param1 ≠ 0)
      with ⟨-, -, -, heq⟩ | ⟨-, heq⟩
    · rw [heq]
      exact Iff.rfl
    · rw [heq]
  · exact Iff.rfl

end Handlers

/-- What a part of a poll does to the interfaces: each handler gets a packet, or is left as
it was. -/
structure HandsOn (env : UsbEnv ν) (s s' : UsbDevice ν) (diskboot : Option RxOutput)
    (masstorage : Option (Option (Nat × Nat))) : Prop where
  rx : (diskboot = none ∧ s'.rx = s.rx) ∨
    ∃ p, diskboot = some (diskbootRxHandler env.effect s.rx p).2
  msc : (masstorage = none ∧ (s'.msc.commandEnds ↔ s.msc.commandEnds)) ∨
    ∃ (m : MscState ν) (p : List UInt8),
      masstorage = some (mscFrame m p).copied ∧ (m.commandEnds ↔ s.msc.commandEnds)

theorem HandsOn.idle {env : UsbEnv ν} {s s' : UsbDevice ν} (hrx : s'.rx = s.rx)
    (hmsc : s'.msc = s.msc) : HandsOn env s s' none none :=
  ⟨.inl ⟨rfl, hrx⟩, .inl ⟨rfl, by rw [hmsc]⟩⟩

/-- The device's other globals do not matter. -/
theorem HandsOn.congr {env : UsbEnv ν} {s t u v : UsbDevice ν} {o : Option RxOutput}
    {c : Option (Option (Nat × Nat))} (h : HandsOn env t u o c) (hs : t.rx = s.rx ∧ t.msc = s.msc)
    (hv : v.rx = u.rx ∧ v.msc = u.msc) : HandsOn env s v o c := by
  refine ⟨?_, ?_⟩
  · rw [hv.1, ← hs.1]
    exact h.rx
  · rw [hv.2, ← hs.2]
    exact h.msc

theorem HandsOn.trans {env : UsbEnv ν} {s t u : UsbDevice ν} {o : Option RxOutput}
    {c : Option (Option (Nat × Nat))} (h₁ : HandsOn env s t o none)
    (h₂ : HandsOn env t u none c) : HandsOn env s u o c := by
  have hmsc : t.msc.commandEnds ↔ s.msc.commandEnds := by
    rcases h₁.msc with ⟨-, h⟩ | ⟨m, p, h, -⟩
    · exact h
    · cases h
  refine ⟨?_, ?_⟩
  · rcases h₁.rx with ⟨hnone, ht⟩ | hsome
    · rcases h₂.rx with ⟨-, hu⟩ | ⟨p, h⟩
      · exact .inl ⟨hnone, hu.trans ht⟩
      · cases h
    · exact .inr hsome
  · rcases h₂.msc with ⟨hnone, hu⟩ | ⟨m, p, hsome, hm⟩
    · exact .inl ⟨hnone, hu.trans hmsc⟩
    · exact .inr ⟨m, p, hsome, hm.trans hmsc⟩

section Poll

variable (env : UsbEnv ν) (s : UsbDevice ν)

theorem usbdcommRx_handsOn (ready : Option (List UInt8)) :
    HandsOn env s (usbdcommRx env s ready).1 (usbdcommRx env s ready).2.2 none := by
  cases ready with
  | none => exact .idle rfl rfl
  | some p =>
      refine ⟨.inr ⟨p, rfl⟩, .inl ⟨rfl, ?_⟩⟩
      unfold usbdcommRx
      dsimp only
      generalize diskbootRxHandler env.effect s.rx p = r
      obtain ⟨rx, copied, dispatched⟩ := r
      cases dispatched with
      | none => exact Iff.rfl
      | some c => exact dispatchMount_commandEnds env.info c s.msc

theorem masstorageRx_handsOn (ready : Option (List UInt8)) :
    HandsOn env s (masstorageRx env s ready).1 none (masstorageRx env s ready).2.2 := by
  cases ready with
  | none => exact .idle rfl rfl
  | some p => exact ⟨.inl ⟨rfl, rfl⟩, .inr ⟨s.msc, p, rfl, Iff.rfl⟩⟩

theorem deferredBulk_handsOn (ret : Int) (ready : Option (List UInt8)) :
    HandsOn env s (deferredBulk env s ret ready).1 (deferredBulk env s ret ready).2.2 none := by
  unfold deferredBulk
  split_ifs
  · exact usbdcommRx_handsOn env s ready
  · exact .idle rfl rfl

theorem deferredMasstorage_handsOn (ret : Int) (ready : Option (List UInt8)) :
    HandsOn env s (deferredMasstorage env s ret ready).1 none
      (deferredMasstorage env s ret ready).2.2 := by
  unfold deferredMasstorage
  split_ifs
  · exact masstorageRx_handsOn env s ready
  · exact .idle rfl rfl

theorem pollSof_handsOn (i : Poll) :
    HandsOn env s (pollSof env s i).1 (pollSof env s i).2.diskboot
      (pollSof env s i).2.masstorage := by
  unfold pollSof
  generalize i.control s.udc = r
  obtain ⟨udc, ret⟩ := r
  have hbulk := (deferredBulk_handsOn env { s with udc := udc } ret i.bulkOut).congr
    ⟨rfl, rfl⟩ ⟨rfl, rfl⟩ (s := s)
  dsimp only
  generalize deferredBulk env { s with udc := udc } ret i.bulkOut = r at hbulk ⊢
  obtain ⟨t, ret', o⟩ := r
  have hmass := hbulk.trans ((deferredMasstorage_handsOn env (t.undefer bulkOutEpIndex) ret'
    i.masstorageOut).congr ⟨rfl, rfl⟩ ⟨rfl, rfl⟩)
  generalize deferredMasstorage env (t.undefer bulkOutEpIndex) ret' i.masstorageOut = q
    at hmass ⊢
  obtain ⟨u, ret'', c⟩ := q
  dsimp only at hbulk hmass ⊢
  split_ifs
  · exact .idle rfl rfl
  · exact hbulk
  · exact hmass
  · exact hmass.congr ⟨rfl, rfl⟩ ⟨rfl, rfl⟩

theorem usbdcommPoll_handsOn (i : Poll) :
    HandsOn env s (usbdcommPoll env s i).1 (usbdcommPoll env s i).2.diskboot
      (usbdcommPoll env s i).2.masstorage := by
  unfold usbdcommPoll
  dsimp only
  split_ifs
  · exact .idle rfl rfl
  · exact .idle rfl rfl
  · exact .idle rfl rfl
  · exact .idle rfl rfl
  · exact pollSof_handsOn env s i
  · exact .idle rfl rfl
  · exact .idle rfl rfl

end Poll

/-! ## After a reset -/

/-- The first packet on each endpoint is taken as the start of a command. -/
def FirstAsCommands (os : List PollOutput) : Prop :=
  (∀ o ∈ (os.filterMap PollOutput.diskboot).head?, o.copied = none) ∧
    ∀ c ∈ (os.filterMap PollOutput.masstorage).head?, c = none

section Reset

variable {env : UsbEnv ν} {s : UsbDevice ν}

/-- Awaiting a header lasts until a packet arrives. -/
theorem first_diskboot (hcmd : s.rx.curCmd.cmd = 0) (is : List Poll) :
    ∀ o ∈ ((outputs (usbdcommPoll env) s is).filterMap PollOutput.diskboot).head?, o.copied = none := by
  refine outputs_first (I := fun s : UsbDevice ν => s.rx.curCmd.cmd = 0)
    (usbdcommPoll env) ?_ is s hcmd
  intro s i hcmd
  rcases (usbdcommPoll_handsOn env s i).rx with ⟨hnone, heq⟩ | ⟨p, hsome⟩
  · refine ⟨fun _ => by rw [heq]; exact hcmd, fun o ho => ?_⟩
    rw [hnone] at ho
    cases ho
  · refine ⟨fun h => ?_, fun o ho => ?_⟩
    · rw [hsome] at h
      cases h
    · rw [hsome] at ho
      cases ho
      exact rx_copied_iff.mpr hcmd

/-- So does awaiting a command block wrapper. -/
theorem first_masstorage (hends : s.msc.commandEnds) (is : List Poll) :
    ∀ c ∈ ((outputs (usbdcommPoll env) s is).filterMap PollOutput.masstorage).head?, c = none := by
  refine outputs_first (I := fun s : UsbDevice ν => s.msc.commandEnds)
    (usbdcommPoll env) ?_ is s hends
  intro s i hends
  rcases (usbdcommPoll_handsOn env s i).msc with ⟨hnone, hiff⟩ | ⟨m, p, hsome, hiff⟩
  · refine ⟨fun _ => hiff.mpr hends, fun c hc => ?_⟩
    rw [hnone] at hc
    cases hc
  · refine ⟨fun h => ?_, fun c hc => ?_⟩
    · rw [hsome] at h
      cases h
    · rw [hsome] at hc
      cases hc
      exact mscFrame_copied_iff.mpr (hiff.mpr hends)

/-- `usbdcomm_shutdown` does for the diskboot interface what a reset does not. -/
theorem shutdown_diskboot (is : List Poll) :
    ∀ o ∈ ((outputs (usbdcommPoll env) (usbdcommShutdown s) is).filterMap
      PollOutput.diskboot).head?, o.copied = none :=
  first_diskboot (s := usbdcommShutdown s) rfl is

/-- A poll that only sees the interrupts of the endpoints, and one at the start of a frame
with the given packets ready. -/
def seePending (rxPending : BitVec 32) : Poll :=
  ⟨false, false, false, false, false, rxPending, fun u => (u, usbdcommOk), none, none⟩

def takePackets (bulkOut masstorageOut : Option (List UInt8)) : Poll :=
  ⟨false, false, false, false, true, 0, fun u => (u, usbdcommOk), bulkOut, masstorageOut⟩

theorem defer_getLsbD (s : UsbDevice ν) (ep : Nat) (hep : ep = 2 ∨ ep = 4) :
    (s.defer (1#32 <<< ep)).deferredRx.getLsbD ep = true := by
  unfold UsbDevice.defer
  rw [BitVec.getLsbD_or, BitVec.getLsbD_and]
  rcases hep with rfl | rfl
  · simp
  · simp

variable (env s) in
theorem poll_seePending (rxPending : BitVec 32) :
    (usbdcommPoll env s (seePending rxPending)).1 = s.defer rxPending := rfl

variable (env) in
theorem takePackets_bulk {p : List UInt8}
    (hbit : s.deferredRx.getLsbD bulkOutEpIndex = true) :
    (usbdcommPoll env s (takePackets (some p) none)).2.diskboot =
      some (diskbootRxHandler env.effect s.rx p).2 := by
  have hbulk : deferredBulk env s usbdcommOk (some p) = usbdcommRx env s (some p) := if_pos hbit
  show (pollSof env s (takePackets (some p) none)).2.diskboot = _
  unfold pollSof takePackets
  dsimp only
  rw [if_neg (by decide), hbulk]
  unfold usbdcommRx
  dsimp only
  rw [if_neg (by decide)]
  split_ifs <;> rfl

variable (env) in
theorem takePackets_masstorage {p : List UInt8}
    (hbit : s.deferredRx.getLsbD masstorageOutEpIndex = true) :
    (usbdcommPoll env s (takePackets none (some p))).2.masstorage =
      some (mscFrame s.msc p).copied := by
  have hbulk : ∃ ret, ¬ ret < usbdcommOk ∧
      deferredBulk env s usbdcommOk none = (s, ret, none) := by
    unfold deferredBulk
    by_cases hpending : s.deferredRx.getLsbD bulkOutEpIndex = true
    · exact ⟨usbdcommInactive, by decide, by rw [if_pos hpending]; rfl⟩
    · exact ⟨usbdcommOk, by decide, by rw [if_neg hpending]⟩
  obtain ⟨ret, hret, hbulk⟩ := hbulk
  have hbit' : (s.undefer bulkOutEpIndex).deferredRx.getLsbD masstorageOutEpIndex = true := by
    unfold UsbDevice.undefer
    rw [BitVec.getLsbD_and, hbit]
    rfl
  have hmass : deferredMasstorage env (s.undefer bulkOutEpIndex) ret (some p) =
      masstorageRx env (s.undefer bulkOutEpIndex) (some p) := if_pos hbit'
  show (pollSof env s (takePackets none (some p))).2.masstorage = _
  unfold pollSof takePackets
  dsimp only
  rw [if_neg (by decide), hbulk]
  dsimp only
  rw [if_neg hret, hmass]
  unfold masstorageRx
  dsimp only
  rw [if_neg (by decide)]
  rfl

variable (env s) in
/-- An empty packet on the bulk endpoint reaches the diskboot handler. -/
theorem bulk_packet_arrives :
    ((outputs (usbdcommPoll env) s
        [seePending (1#32 <<< bulkOutEpIndex), takePackets (some []) none]).filterMap
      PollOutput.diskboot).head? = some (diskbootRxHandler env.effect s.rx []).2 := by
  have htake := takePackets_bulk env (p := [])
    (defer_getLsbD s bulkOutEpIndex (.inl rfl))
  rw [outputs_cons, outputs_cons, outputs_nil, poll_seePending,
    List.filterMap_cons_none (by rfl), List.filterMap_cons_some htake]
  rfl

variable (env s) in
/-- An empty packet on the other endpoint reaches the mass-storage handler. -/
theorem masstorage_packet_arrives :
    ((outputs (usbdcommPoll env) s
        [seePending (1#32 <<< masstorageOutEpIndex), takePackets none (some [])]).filterMap
      PollOutput.masstorage).head? = some (mscFrame s.msc []).copied := by
  have htake := takePackets_masstorage env (p := [])
    (defer_getLsbD s masstorageOutEpIndex (.inr rfl))
  rw [outputs_cons, outputs_cons, outputs_nil, poll_seePending,
    List.filterMap_cons_none (by rfl), List.filterMap_cons_some htake]
  rfl

/-- After a reset the first packet on each endpoint is taken as a header, respectively a
wrapper, in every further run exactly when no command was under way at the reset. -/
theorem reset_resynchronises_iff (env : UsbEnv ν) (s : UsbDevice ν) (r : Poll)
    (hreset : r.reset = true) :
    (∀ is, FirstAsCommands (outputs (usbdcommPoll env) (usbdcommPoll env s r).1 is)) ↔
      s.rx.curCmd.cmd = 0 ∧ s.msc.commandEnds := by
  have hpoll : (usbdcommPoll env s r).1 = { s with udc := ⟨0, 0⟩ } := by
    unfold usbdcommPoll
    dsimp only
    rw [if_pos hreset]
  rw [hpoll]
  constructor
  · intro h
    refine ⟨?_, ?_⟩
    · have hfirst := (h _).1 _ (bulk_packet_arrives env { s with udc := ⟨0, 0⟩ })
      exact rx_copied_iff.mp hfirst
    · have hfirst := (h _).2 _ (masstorage_packet_arrives env { s with udc := ⟨0, 0⟩ })
      exact mscFrame_copied_iff.mp hfirst
  · rintro ⟨hcmd, hends⟩ is
    exact ⟨first_diskboot (s := { s with udc := ⟨0, 0⟩ }) hcmd is,
      first_masstorage (s := { s with udc := ⟨0, 0⟩ }) hends is⟩

end Reset

/-- The device after `usbdcomm_init`, with a flash disk that is never used. -/
def usbStart : UsbDevice Unit := ⟨⟨0, 0⟩, 0, rxInit fun _ => 0, mscInit () fun _ => 0⟩

def idleUsb : UsbEnv Unit := ⟨fun _ s => s, idleFlash, oneChip⟩

/-- A poll that sees a bus reset. -/
def busReset : Poll :=
  ⟨true, false, false, false, false, 0, fun u => (u, usbdcommOk), none, none⟩

theorem reset_resynchronises_iff_start :
    (∀ is, FirstAsCommands
        (outputs (usbdcommPoll idleUsb) (usbdcommPoll idleUsb usbStart busReset).1 is)) ↔
      usbStart.rx.curCmd.cmd = 0 ∧ usbStart.msc.commandEnds :=
  reset_resynchronises_iff idleUsb usbStart busReset rfl

/-- The device after the header of a write, before its three bytes of data. -/
def midWrite : UsbDevice Unit :=
  final (usbdcommPoll idleUsb) usbStart
    [seePending (1#32 <<< bulkOutEpIndex),
      takePackets (some (encodeHeader writeCommand)) none]

/-- After a reset in the middle of a write the header of a ping is taken as its data. -/
theorem reset_keeps_pending :
    ¬ FirstAsCommands
        (outputs (usbdcommPoll idleUsb) (usbdcommPoll idleUsb midWrite busReset).1
          [seePending (1#32 <<< bulkOutEpIndex),
            takePackets (some (encodeHeader pingCommand)) none]) := by
  intro h
  have hfirst : ((outputs (usbdcommPoll idleUsb) (usbdcommPoll idleUsb midWrite busReset).1
      [seePending (1#32 <<< bulkOutEpIndex),
        takePackets (some (encodeHeader pingCommand)) none]).filterMap
          PollOutput.diskboot).head? =
            some ⟨some (0, 3), some ⟨0x57, 3, 5, 0, [0x34, 0x12, 0x49]⟩⟩ := by decide +kernel
  exact absurd (h.1 _ hfirst) (by decide)

end Novo7
