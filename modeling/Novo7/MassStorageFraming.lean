import Novo7.MassStorageCommands
import Novo7.Transducer

/-!
# Framing of the mass-storage packets

Whether a packet is a command block wrapper or data is read off the last wrapper stored and
the count of data bytes. `mscFrame` is the part of `masstorage_rx_handler` that decides it, and
`executed` what the handler carries out at a packet. The intended framing is the small machine
`frameStep`, which keeps a wrapper only once it is accepted; the handler runs in step with it as
long as no rejected wrapper leaves the handler waiting for data.
-/

namespace Novo7

open Machine Buffer Bytes Transducer

/-! ## What the handler does with a packet -/

/-- A packet as the handler takes it: the state it leaves before a command is carried out,
the place and length of the copy of a data packet, and whether the packet was accepted. -/
structure Framed (ν : Type) where
  state : MscState ν
  copied : Option (Nat × Nat)
  accepted : Bool

variable {ν : Type}

/-- `masstorage_rx_handler` up to the test for a complete command. -/
def mscFrame (s : MscState ν) (buffer : List UInt8) : Framed ν :=
  if s.commandEnds then
    if buffer.length ≠ 31 then ⟨s, none, false⟩
    else
      let s := { s with curCmd := decodeWrapper buffer }
      if s.curCmd.dCBWSignature ≠ 0x43425355 then ⟨s, none, false⟩
      else if s.curCmd.dCBWDataTransferLength > 0x1000000 then ⟨s, none, false⟩
      else ⟨{ s with curCmdBytesWritten := 0 }, none, true⟩
  else
    let toWrite := sub32 s.curCmd.dCBWDataTransferLength s.curCmdBytesWritten
    let toWrite := if buffer.length ≤ toWrite then buffer.length else toWrite
    ⟨{ s with
        masstorageBuffer := store s.masstorageBuffer s.curCmdBytesWritten toWrite
          fun i => buffer.getD i 0
        curCmdBytesWritten := u32 (s.curCmdBytesWritten + toWrite) },
      some (s.curCmdBytesWritten, toWrite), true⟩

theorem masstorageRxHandler_eq (env : MscEnv ν) (s : MscState ν) (buffer : List UInt8) :
    masstorageRxHandler env s buffer =
      if (mscFrame s buffer).accepted then executeIfComplete env (mscFrame s buffer).state
      else (mscFrame s buffer).state := by
  unfold masstorageRxHandler mscFrame
  by_cases hends : s.commandEnds
  · rw [if_pos hends, if_pos hends]
    dsimp only
    by_cases hlen : buffer.length ≠ 31
    · rw [if_pos hlen, if_pos hlen]
      rfl
    · rw [if_neg hlen, if_neg hlen]
      by_cases hsig : (decodeWrapper buffer).dCBWSignature ≠ 0x43425355
      · rw [if_pos hsig, if_pos hsig]
        rfl
      · rw [if_neg hsig, if_neg hsig]
        by_cases hsize : (decodeWrapper buffer).dCBWDataTransferLength > 0x1000000
        · rw [if_pos hsize, if_pos hsize]
          rfl
        · rw [if_neg hsize, if_neg hsize]
          rfl
  · rw [if_neg hends, if_neg hends]
    rfl

/-- A command carried out: its wrapper and the data bytes stored for it. -/
structure Execution where
  wrapper : CommandBlockWrapper
  data : List UInt8

/-- The command the handler carries out at a packet. -/
def executed (s : MscState ν) (buffer : List UInt8) : Option Execution :=
  let f := mscFrame s buffer
  if f.accepted = true ∧ f.state.commandEnds then
    some ⟨f.state.curCmd, (List.range f.state.curCmdBytesWritten).map f.state.masstorageBuffer⟩
  else none

/-- What `executed` names is what `do_scsi_command` is called with; without it the packet
sends nothing. -/
theorem masstorageRxHandler_executes (env : MscEnv ν) (s : MscState ν) (buffer : List UInt8) :
    (executed s buffer = none ∧ masstorageRxHandler env s buffer = (mscFrame s buffer).state) ∨
      ∃ t, (mscFrame s buffer).state = t ∧
        executed s buffer =
          some ⟨t.curCmd, (List.range t.curCmdBytesWritten).map t.masstorageBuffer⟩ ∧
        masstorageRxHandler env s buffer = sendStatus (finishReply (doScsiCommand env t)) := by
  rw [masstorageRxHandler_eq]
  unfold executed executeIfComplete
  generalize mscFrame s buffer = f
  dsimp only
  by_cases hacc : f.accepted = true
  · by_cases hends : f.state.commandEnds
    · exact .inr ⟨f.state, rfl, if_pos ⟨hacc, hends⟩, by rw [if_pos hacc, if_pos hends]⟩
    · exact .inl ⟨if_neg fun h => hends h.2, by rw [if_pos hacc, if_neg hends]⟩
  · exact .inl ⟨if_neg fun h => hacc h.1, if_neg hacc⟩

/-- One packet, with what is carried out at it. -/
def mscPacket (env : MscEnv ν) (s : MscState ν) (buffer : List UInt8) :
    MscState ν × Option Execution :=
  (masstorageRxHandler env s buffer, executed s buffer)

/-! ## The intended framing -/

/-- A packet that is no command block wrapper, or one the handler does not accept. -/
def MscRejected (p : List UInt8) : Prop :=
  p.length ≠ 31 ∨ (decodeWrapper p).dCBWSignature ≠ 0x43425355 ∨
    (decodeWrapper p).dCBWDataTransferLength > 0x1000000

instance (p : List UInt8) : Decidable (MscRejected p) := inferInstanceAs (Decidable (_ ∨ _ ∨ _))

/-- A command without a data phase to the device. -/
def CommandBlockWrapper.noDataOut (c : CommandBlockWrapper) : Prop :=
  c.dCBWDataTransferLength = 0 ∨ c.bmCBWFlags &&& 0x80 ≠ 0

instance (c : CommandBlockWrapper) : Decidable c.noDataOut := inferInstanceAs (Decidable (_ ∨ _))

/-- Between commands, or the command accepted last with the data that has arrived. -/
inductive Framing where
  | awaiting
  | collecting (wrapper : CommandBlockWrapper) (data : List UInt8)

/-- The framing of the bulk-only transport: a wrapper that is not accepted is dropped, and a
command is carried out once, when all of its data is there. -/
def frameStep : Framing → List UInt8 → Framing × Option Execution
  | .awaiting, p =>
    if MscRejected p then (.awaiting, none)
    else if (decodeWrapper p).noDataOut then (.awaiting, some ⟨decodeWrapper p, []⟩)
    else (.collecting (decodeWrapper p) [], none)
  | .collecting c data, p =>
    let data := data ++ p.take (c.dCBWDataTransferLength - data.length)
    if data.length = c.dCBWDataTransferLength then (.awaiting, some ⟨c, data⟩)
    else (.collecting c data, none)

/-- A rejected packet after which the handler still awaits a command: it is not a wrapper by
its size, or the wrapper it leaves behind has no data to wait for. -/
def RejectHarmless (s : MscState ν) (p : List UInt8) : Prop :=
  s.commandEnds → MscRejected p →
    p.length ≠ 31 ∨ (decodeWrapper p).noDataOut ∨
      (decodeWrapper p).dCBWDataTransferLength = s.curCmdBytesWritten

/-! ## The handler in step with it -/

/-- The handler's globals when the framing is in a given state. -/
inductive InStep : Framing → MscState ν → Prop where
  | awaiting {s : MscState ν} : s.commandEnds → InStep .awaiting s
  | collecting {s : MscState ν} {data : List UInt8} :
      ¬ s.curCmd.noDataOut → s.curCmd.dCBWDataTransferLength ≤ 0x1000000 →
      s.curCmdBytesWritten = data.length → data.length < s.curCmd.dCBWDataTransferLength →
      (List.range data.length).map s.masstorageBuffer = data →
      InStep (.collecting s.curCmd data) s

theorem collecting_of {s : MscState ν} {c : CommandBlockWrapper} {data : List UInt8}
    (hcmd : s.curCmd = c) (hout : ¬ c.noDataOut) (hsize : c.dCBWDataTransferLength ≤ 0x1000000)
    (hwritten : s.curCmdBytesWritten = data.length) (hlt : data.length < c.dCBWDataTransferLength)
    (hbuf : (List.range data.length).map s.masstorageBuffer = data) :
    InStep (.collecting c data) s := by
  subst hcmd
  exact .collecting hout hsize hwritten hlt hbuf

theorem commandEnds_iff (s : MscState ν) :
    s.commandEnds ↔
      s.curCmd.noDataOut ∨ s.curCmd.dCBWDataTransferLength = s.curCmdBytesWritten := by
  simp only [MscState.commandEnds, MscState.wantsIn, CommandBlockWrapper.noDataOut, bne_iff_ne,
    or_assoc]

section Packet

variable {env : MscEnv ν} {s : MscState ν} {p : List UInt8}

variable (env) in
/-- After a command is carried out the next one is awaited. -/
theorem executed_awaits (t : MscState ν) (hunit : t.commonLun < t.nluns) (hends : t.commandEnds) :
    InStep .awaiting (executeIfComplete env t) := by
  unfold executeIfComplete
  rw [if_pos hends]
  exact .awaiting ((commandEnds_congr (execute_orderly env t hunit)).mpr hends)

theorem mscFrame_short (hends : s.commandEnds) (hlen : p.length ≠ 31) :
    mscFrame s p = ⟨s, none, false⟩ := by
  rw [mscFrame, if_pos hends, if_pos hlen]

/-- A rejected packet of the right size is kept as the last wrapper all the same. -/
theorem mscFrame_reject (hends : s.commandEnds) (hrej : MscRejected p) (hlen : ¬ p.length ≠ 31) :
    mscFrame s p = ⟨{ s with curCmd := decodeWrapper p }, none, false⟩ := by
  unfold mscFrame
  rw [if_pos hends, if_neg hlen]
  by_cases hsig : (decodeWrapper p).dCBWSignature ≠ 0x43425355
  · exact if_pos hsig
  · have hsize := (hrej.resolve_left hlen).resolve_left hsig
    exact (if_neg hsig).trans (if_pos hsize)

theorem mscFrame_accept (hends : s.commandEnds) (hrej : ¬ MscRejected p) :
    mscFrame s p = ⟨{ s with curCmd := decodeWrapper p, curCmdBytesWritten := 0 }, none, true⟩ := by
  unfold MscRejected at hrej
  push Not at hrej
  obtain ⟨hlen, hsig, hsize⟩ := hrej
  simp [mscFrame, hends, hlen, hsig, hsize]

/-- The framing leaves the unit and what was sent alone. -/
theorem mscFrame_keeps :
    ((mscFrame s p).state.commonLun = s.commonLun ∧ (mscFrame s p).state.nluns = s.nluns) ∧
      (mscFrame s p).state.lun = s.lun ∧ (mscFrame s p).state.out = s.out := by
  by_cases hends : s.commandEnds
  · by_cases hrej : MscRejected p
    · by_cases hlen : p.length ≠ 31
      · rw [mscFrame_short hends hlen]
        exact ⟨⟨rfl, rfl⟩, rfl, rfl⟩
      · rw [mscFrame_reject hends hrej hlen]
        exact ⟨⟨rfl, rfl⟩, rfl, rfl⟩
    · rw [mscFrame_accept hends hrej]
      exact ⟨⟨rfl, rfl⟩, rfl, rfl⟩
  · rw [mscFrame, if_neg hends]
    exact ⟨⟨rfl, rfl⟩, rfl, rfl⟩

/-- The handler keeps the units whatever a packet brings. -/
theorem packet_units (hunit : s.commonLun < s.nluns) :
    (masstorageRxHandler env s p).commonLun < (masstorageRxHandler env s p).nluns := by
  have hframe : (mscFrame s p).state.commonLun < (mscFrame s p).state.nluns := by
    rw [mscFrame_keeps.1.1, mscFrame_keeps.1.2]
    exact hunit
  rw [masstorageRxHandler_eq]
  unfold executeIfComplete
  generalize mscFrame s p = f at hframe ⊢
  split_ifs
  · have horderly := execute_orderly env _ hframe
    rw [horderly.units.1, horderly.units.2]
    exact hframe
  · exact hframe
  · exact hframe

variable (env) in
/-- A packet rejected while a command is awaited. -/
theorem reject_inStep (hends : s.commandEnds) (hrej : MscRejected p) (hgood : RejectHarmless s p) :
    InStep .awaiting (masstorageRxHandler env s p) ∧ executed s p = none := by
  rw [masstorageRxHandler_eq, executed]
  by_cases hlen : p.length ≠ 31
  · rw [mscFrame_short hends hlen]
    exact ⟨.awaiting hends, if_neg fun h => nomatch h.1⟩
  · rw [mscFrame_reject hends hrej hlen]
    have hends' := (commandEnds_iff { s with curCmd := decodeWrapper p }).mpr
      ((hgood hends hrej).resolve_left hlen)
    exact ⟨.awaiting hends', if_neg fun h => nomatch h.1⟩

/-- A wrapper that is accepted. -/
theorem accept_inStep (hunit : s.commonLun < s.nluns) (hends : s.commandEnds)
    (hrej : ¬ MscRejected p) :
    InStep (frameStep .awaiting p).1 (masstorageRxHandler env s p) ∧
      executed s p = (frameStep .awaiting p).2 := by
  have hstep : frameStep .awaiting p =
      if (decodeWrapper p).noDataOut then (.awaiting, some ⟨decodeWrapper p, []⟩)
      else (.collecting (decodeWrapper p) [], none) := by
    rw [frameStep, if_neg hrej]
  rw [hstep, masstorageRxHandler_eq, executed, mscFrame_accept hends hrej]
  simp only [if_true, true_and]
  have hcomplete := commandEnds_iff
    { s with curCmd := decodeWrapper p, curCmdBytesWritten := 0 }
  by_cases hout : (decodeWrapper p).noDataOut
  · rw [if_pos hout]
    have hdone := hcomplete.mpr (.inl hout)
    exact ⟨executed_awaits env _ hunit hdone, by rw [if_pos hdone]; rfl⟩
  · have hopen : ¬ ({ s with curCmd := decodeWrapper p, curCmdBytesWritten := 0 } :
        MscState ν).commandEnds := by
      rw [hcomplete, not_or]
      exact ⟨hout, fun h => hout (.inl h)⟩
    rw [if_neg hout, if_neg hopen, executeIfComplete, if_neg hopen]
    unfold MscRejected at hrej
    push Not at hrej
    have hpos : 0 < (decodeWrapper p).dCBWDataTransferLength :=
      Nat.pos_of_ne_zero fun h => hout (.inl h)
    exact ⟨collecting_of rfl hout hrej.2.2 rfl hpos rfl, rfl⟩

/-- A data packet. -/
theorem data_inStep (hunit : s.commonLun < s.nluns) {c : CommandBlockWrapper} {data : List UInt8}
    (hs : InStep (.collecting c data) s) :
    InStep (frameStep (.collecting c data) p).1 (masstorageRxHandler env s p) ∧
      executed s p = (frameStep (.collecting c data) p).2 := by
  cases hs with
  | collecting hout hsize hwritten hlt hbuf =>
      have hends : ¬ s.commandEnds := by
        rw [commandEnds_iff, not_or]
        exact ⟨hout, by omega⟩
      have hroom : sub32 s.curCmd.dCBWDataTransferLength s.curCmdBytesWritten =
          s.curCmd.dCBWDataTransferLength - data.length := by
        rw [hwritten]
        exact sub32_of_le (by omega) (by omega)
      generalize hq : p.take (s.curCmd.dCBWDataTransferLength - data.length) = q
      have hn : (if p.length ≤ s.curCmd.dCBWDataTransferLength - data.length then p.length
          else s.curCmd.dCBWDataTransferLength - data.length) = q.length := by
        rw [← hq, List.length_take]
        split <;> omega
      have hqlen : q.length ≤ s.curCmd.dCBWDataTransferLength - data.length := by
        rw [← hq, List.length_take]
        omega
      have hsrc : store s.masstorageBuffer data.length q.length (fun i => p.getD i 0) =
          store s.masstorageBuffer data.length q.length fun i => q.getD i 0 := by
        refine store_congr fun i hi => ?_
        rw [← hq, List.getD_eq_getElem?_getD, List.getD_eq_getElem?_getD, List.getElem?_take_of_lt]
        omega
      generalize ht : ({ s with
          masstorageBuffer := store s.masstorageBuffer data.length q.length fun i => q.getD i 0
          curCmdBytesWritten := (data ++ q).length } : MscState ν) = t
      have hframe : mscFrame s p = ⟨t, some (data.length, q.length), true⟩ := by
        unfold mscFrame
        rw [if_neg hends]
        simp only [hroom, hn]
        rw [hwritten, hsrc, u32_of_lt (by omega), ← ht, List.length_append]
      have hbuf' : (List.range (data ++ q).length).map t.masstorageBuffer = data ++ q := by
        rw [← ht]
        exact map_store_append hbuf q
      have hcmd : t.curCmd = s.curCmd := by rw [← ht]
      have hcount : t.curCmdBytesWritten = (data ++ q).length := by rw [← ht]
      have hunit' : t.commonLun < t.nluns := by rw [← ht]; exact hunit
      rw [masstorageRxHandler_eq, executed, hframe, frameStep]
      dsimp only
      rw [hq, if_pos rfl]
      by_cases hlast : (data ++ q).length = s.curCmd.dCBWDataTransferLength
      · have hdone : t.commandEnds :=
          (commandEnds_iff t).mpr (.inr (by rw [hcmd, hcount, hlast]))
        rw [if_pos hlast, if_pos ⟨rfl, hdone⟩, hcount, hbuf', hcmd]
        exact ⟨executed_awaits env t hunit' hdone, rfl⟩
      · have hopen : ¬ t.commandEnds := by
          rw [commandEnds_iff, hcmd, hcount, not_or]
          exact ⟨hout, fun h => hlast h.symm⟩
        rw [if_neg hlast, if_neg fun h => hopen h.2, executeIfComplete, if_neg hopen]
        have hmore : (data ++ q).length < s.curCmd.dCBWDataTransferLength := by
          rw [List.length_append] at hlast ⊢
          omega
        exact ⟨collecting_of hcmd hout hsize hcount hmore hbuf', rfl⟩

/-- One packet. -/
theorem packet_inStep {f : Framing} (hunit : s.commonLun < s.nluns) (hs : InStep f s)
    (hgood : RejectHarmless s p) :
    InStep (frameStep f p).1 (masstorageRxHandler env s p) ∧ executed s p = (frameStep f p).2 := by
  cases hs with
  | awaiting hends =>
      by_cases hrej : MscRejected p
      · rw [frameStep, if_pos hrej]
        exact reject_inStep env hends hrej hgood
      · exact accept_inStep hunit hends hrej
  | collecting hout hsize hwritten hlt hbuf =>
      exact data_inStep hunit (.collecting hout hsize hwritten hlt hbuf)

end Packet

theorem masstorage_frames (env : MscEnv ν) (ps : List (List UInt8)) :
    ∀ (s : MscState ν) (f : Framing), s.commonLun < s.nluns → InStep f s →
      Along (mscPacket env) RejectHarmless s ps →
        outputs (mscPacket env) s ps = outputs frameStep f ps ∧
          InStep (final frameStep f ps) (final (mscPacket env) s ps) := by
  induction ps with
  | nil => intro s f _ hs _; exact ⟨rfl, hs⟩
  | cons p ps ih =>
      rintro s f hunit hs ⟨hgood, hrun⟩
      obtain ⟨hs', hout⟩ := packet_inStep hunit hs hgood
      obtain ⟨houts, hfin⟩ := ih _ _ (packet_units hunit) hs' hrun
      exact ⟨congrArg₂ List.cons hout houts, hfin⟩

/-- A rejected packet leaves the handler awaiting a command exactly when it is harmless. -/
theorem reject_awaits_iff (env : MscEnv ν) {s : MscState ν} {p : List UInt8}
    (hends : s.commandEnds) (hrej : MscRejected p) :
    (masstorageRxHandler env s p).commandEnds ↔ RejectHarmless s p := by
  constructor
  · intro h _ _
    by_cases hlen : p.length ≠ 31
    · exact .inl hlen
    · rw [masstorageRxHandler_eq, mscFrame_reject hends hrej hlen] at h
      exact .inr ((commandEnds_iff { s with curCmd := decodeWrapper p }).mp h)
  · intro hgood
    obtain ⟨hs, -⟩ := reject_inStep env hends hrej hgood
    cases hs with
    | awaiting h => exact h

/-- Started with a command awaited, the handler carries out exactly the commands of the
framing, at the same packets and with the same data, in every run in which no rejected wrapper
leaves it waiting for data; and it awaits a command whenever the framing does. -/
theorem masstorage_framing (env : MscEnv ν) (s : MscState ν) (hunit : s.commonLun < s.nluns)
    (hends : s.commandEnds) (ps : List (List UInt8))
    (h : Along (mscPacket env) RejectHarmless s ps) :
    outputs (mscPacket env) s ps = outputs frameStep .awaiting ps ∧
      (final frameStep .awaiting ps = .awaiting → (final (mscPacket env) s ps).commandEnds) := by
  obtain ⟨houts, hfin⟩ := masstorage_frames env ps s .awaiting hunit (.awaiting hends) h
  refine ⟨houts, fun heq => ?_⟩
  rw [heq] at hfin
  cases hfin with
  | awaiting hends' => exact hends'

/-- A flash disk that is never asked for anything. -/
def noFlash : MscEnv Unit := ⟨fun _ _ _ buf => ((), 0, buf), fun _ _ _ _ => ((), 0), fun _ _ => 0⟩

/-- A wrapper with the given signature, tag and length, and the command `TEST UNIT READY`. -/
def testUnitReady (signature tag length : Nat) : List UInt8 :=
  leBytes 4 signature ++ leBytes 4 tag ++ leBytes 4 length ++ [0, 0, 6] ++ List.replicate 16 0

theorem masstorage_framing_two :
    outputs (mscPacket noFlash) (mscInit () fun _ => 0)
        [testUnitReady 0 1 0, testUnitReady 0x43425355 2 0] =
      outputs frameStep .awaiting [testUnitReady 0 1 0, testUnitReady 0x43425355 2 0] ∧
    (final frameStep .awaiting [testUnitReady 0 1 0, testUnitReady 0x43425355 2 0] = .awaiting →
      (final (mscPacket noFlash) (mscInit () fun _ => 0)
        [testUnitReady 0 1 0, testUnitReady 0x43425355 2 0]).commandEnds) :=
  masstorage_framing noFlash (mscInit () fun _ => 0) (by decide) (.inl rfl)
    [testUnitReady 0 1 0, testUnitReady 0x43425355 2 0]
    ⟨fun _ _ => .inr (.inl (.inl (by decide))), fun _ h => absurd h (by decide), trivial⟩

/-- After a wrapper with a wrong signature that announces data, the next wrapper is stored as
that data and the rejected one carried out. -/
theorem rejected_wrapper_executed :
    outputs (mscPacket noFlash) (mscInit () fun _ => 0)
        [testUnitReady 0 1 5, testUnitReady 0x43425355 2 0] ≠
      outputs frameStep .awaiting [testUnitReady 0 1 5, testUnitReady 0x43425355 2 0] := by
  intro h
  have htags := congrArg (List.map (Option.map fun e => e.wrapper.dCBWTag)) h
  revert htags
  decide

end Novo7
