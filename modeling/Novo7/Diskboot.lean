import Novo7.Machine
import Novo7.Buffer
import Novo7.Bytes
import Novo7.Transducer

/-!
# The diskboot protocol

The host sends a 24-byte command header and then the command's data; the device's
`diskboot_rx_handler` is called with one packet at a time. Whether a packet is a header or
data is read off two globals that outlive the packet, and even the command: the copy
`cur_cmd` of the last header (`cur_cmd.cmd` is zero when a header is awaited) and the count
`cur_cmd_bytes_written` of data bytes received.

What `dispatch_cmd` does to the memory it may write — the globals of the handler included,
for a memory-write command — is a parameter `effect` here: the framing does not depend on it.
-/

namespace Novo7

open Machine Buffer Bytes Transducer

/-! ## The handler -/

/-- `struct bootdisk_cmd_header`. -/
structure CmdHeader where
  magic : Nat
  cmd : Nat
  param1 : Nat
  start : Nat
  count : Nat
  datasize : Nat
  deriving Repr, DecidableEq

/-- `memcpy(&cur_cmd, buffer, sizeof(cur_cmd))`. -/
def decodeHeader (buffer : List UInt8) : CmdHeader where
  magic := field buffer 0 2
  cmd := field buffer 2 2
  param1 := field buffer 4 4
  start := field buffer 8 8
  count := field buffer 16 4
  datasize := field buffer 20 4

/-- A command as `dispatch_cmd` is called with it: the header's fields and the first
`datasize` bytes of the transfer buffer. -/
structure Command where
  cmd : Nat
  param1 : Nat
  start : Nat
  count : Nat
  data : List UInt8
  deriving Repr, DecidableEq

/-- The globals of the handler. -/
structure RxState where
  curCmd : CmdHeader
  curCmdBytesWritten : Nat
  transferBuffer : Nat → UInt8

/-- What one call of the handler does: the place and length of its `memcpy` into the transfer
buffer, and the command it dispatches. -/
structure RxOutput where
  copied : Option (Nat × Nat)
  dispatched : Option Command
  deriving Repr, DecidableEq

/-- The call of `dispatch_cmd` once all data is there. -/
def rxFinish (effect : Command → RxState → RxState) (copied : Option (Nat × Nat)) (s : RxState) :
    RxState × RxOutput :=
  if s.curCmdBytesWritten = s.curCmd.datasize then
    let c : Command := ⟨s.curCmd.cmd, s.curCmd.param1, s.curCmd.start, s.curCmd.count,
      (List.range s.curCmd.datasize).map s.transferBuffer⟩
    let s := effect c s
    ({ s with curCmd := { s.curCmd with cmd := 0 } }, ⟨copied, some c⟩)
  else (s, ⟨copied, none⟩)

/-- `diskboot_rx_handler`. -/
def diskbootRxHandler (effect : Command → RxState → RxState) (s : RxState)
    (buffer : List UInt8) : RxState × RxOutput :=
  if s.curCmd.cmd = 0 then
    if buffer.length ≠ 24 then (s, ⟨none, none⟩)
    else
      let s := { s with curCmd := decodeHeader buffer }
      if s.curCmd.magic ≠ 0x1234 then (s, ⟨none, none⟩)
      else if s.curCmd.datasize > 0x1000000 then (s, ⟨none, none⟩)
      else rxFinish effect none { s with curCmdBytesWritten := 0 }
  else
    let toWrite := sub32 s.curCmd.datasize s.curCmdBytesWritten
    let toWrite := if buffer.length ≤ toWrite then buffer.length else toWrite
    rxFinish effect (some (s.curCmdBytesWritten, toWrite))
      { s with
        transferBuffer := store s.transferBuffer s.curCmdBytesWritten toWrite
          fun i => buffer.getD i 0
        curCmdBytesWritten := u32 (s.curCmdBytesWritten + toWrite) }

/-- `diskboot_reset_handler`. -/
def diskbootResetHandler (s : RxState) : RxState :=
  { s with curCmd := { s.curCmd with cmd := 0 } }

/-! ## The host -/

/-- The header `send_command` puts before the data. -/
def encodeHeader (c : Command) : List UInt8 :=
  leBytes 2 0x1234 ++ (leBytes 2 c.cmd ++ (leBytes 4 c.param1 ++ (leBytes 8 c.start ++
    (leBytes 4 c.count ++ (leBytes 4 c.data.length ++ [])))))

/-- A command `send_command` can be called with: its parameters have the widths of the C
parameters, the code is not `BCMD_NONE`, and the data is at most 16 MB. -/
structure Command.Valid (c : Command) : Prop where
  cmd_ne : c.cmd ≠ 0
  cmd_lt : c.cmd < 2 ^ 16
  param1_lt : c.param1 < 2 ^ 32
  start_lt : c.start < 2 ^ 64
  count_lt : c.count < 2 ^ 32
  data_le : c.data.length ≤ 0x1000000

/-- The packets of one command: the header by itself, then the data cut in any way into
packets that are not empty. -/
def SentAs (c : Command) (ps : List (List UInt8)) : Prop :=
  ∃ chunks, ps = encodeHeader c :: chunks ∧ chunks.flatten = c.data ∧ ∀ p ∈ chunks, p ≠ []

/-! ## Framing -/

theorem decode_encodeHeader {c : Command} (hc : c.Valid) :
    decodeHeader (encodeHeader c) =
      ⟨0x1234, c.cmd, c.param1, c.start, c.count, c.data.length⟩ := by
  obtain ⟨-, hcmd, hparam, hstart, hcount, hdata⟩ := hc
  simp (disch := omega) only [decodeHeader, encodeHeader, field_skip, field_here, Nat.reduceSub]

theorem length_encodeHeader (c : Command) : (encodeHeader c).length = 24 := by
  simp [encodeHeader]

section Rx

variable {effect : Command → RxState → RxState} {s : RxState}

/-- The bytes at the start of the transfer buffer. -/
def received (s : RxState) (n : Nat) : List UInt8 := (List.range n).map s.transferBuffer

variable (effect) in
/-- A data packet takes the next place of the transfer buffer. -/
theorem rx_data {p : List UInt8} (hcmd : s.curCmd.cmd ≠ 0)
    (hfit : s.curCmdBytesWritten + p.length ≤ s.curCmd.datasize)
    (hlim : s.curCmd.datasize < 2 ^ 32) :
    diskbootRxHandler effect s p = rxFinish effect (some (s.curCmdBytesWritten, p.length))
      { s with
        transferBuffer := store s.transferBuffer s.curCmdBytesWritten p.length
          fun i => p.getD i 0
        curCmdBytesWritten := s.curCmdBytesWritten + p.length } := by
  have hroom : sub32 s.curCmd.datasize s.curCmdBytesWritten =
      s.curCmd.datasize - s.curCmdBytesWritten := sub32_of_le (by omega) hlim
  have hle : p.length ≤ s.curCmd.datasize - s.curCmdBytesWritten := by omega
  simp only [diskbootRxHandler, hcmd, if_false, hroom, hle, if_true]
  rw [u32_of_lt (by omega)]

/-- The command that is being received, when its data so far is `pre`. -/
structure Receiving (c : Command) (pre : List UInt8) (s : RxState) : Prop where
  header : s.curCmd = ⟨0x1234, c.cmd, c.param1, c.start, c.count, c.data.length⟩
  written : s.curCmdBytesWritten = pre.length
  buffer : received s pre.length = pre

variable (effect) in
/-- The data packets of a command: nothing is dispatched before the last of them, which
dispatches the command. -/
theorem rx_chunks {c : Command} (hc : c.Valid) :
    ∀ (chunks : List (List UInt8)) (pre : List UInt8) (s : RxState), Receiving c pre s →
      c.data = pre ++ chunks.flatten → chunks ≠ [] → (∀ p ∈ chunks, p ≠ []) →
      (outputs (diskbootRxHandler effect) s chunks).map RxOutput.dispatched =
        List.replicate (chunks.length - 1) none ++ [some c] ∧
      (final (diskbootRxHandler effect) s chunks).curCmd.cmd = 0
  | [], _, _, _, _, hne, _ => absurd rfl hne
  | p :: chunks, pre, s, hs, hdata, _, hall => by
      have hsize := hc.data_le
      have hlen : c.data.length = pre.length + p.length + chunks.flatten.length := by
        rw [hdata]
        simp only [List.flatten_cons, List.length_append]
        omega
      have hstep := rx_data effect (p := p) (s := s)
        (by rw [hs.header]; exact hc.cmd_ne) (by rw [hs.header, hs.written]; simp only; omega)
        (by rw [hs.header]; simp only; omega)
      have hbuf := map_store_append (d := 0) hs.buffer p
      rw [hs.written] at hstep
      simp only [outputs_cons, final_cons, hstep, List.map_cons]
      cases chunks with
      | nil =>
          rw [List.flatten_cons, List.flatten_nil, List.append_nil] at hdata
          rw [← hdata] at hbuf
          have hend : pre.length + p.length = c.data.length := by rw [hdata, List.length_append]
          simp only [rxFinish, hs.header, hend, if_true, hbuf]
          exact ⟨rfl, rfl⟩
      | cons q chunks =>
          have hq : 0 < q.length := List.length_pos_iff.mpr (hall q (by simp))
          have hmore : pre.length + p.length ≠ c.data.length := by
            simp only [List.flatten_cons, List.length_append] at hlen
            omega
          simp only [rxFinish, hs.header, hmore, if_false]
          have hs' : Receiving c (pre ++ p)
              ⟨⟨0x1234, c.cmd, c.param1, c.start, c.count, c.data.length⟩,
                pre.length + p.length, store s.transferBuffer pre.length p.length
                  fun i => p.getD i 0⟩ :=
            ⟨rfl, List.length_append.symm, hbuf⟩
          obtain ⟨hout, hfin⟩ := rx_chunks hc (q :: chunks) (pre ++ p) _ hs'
            (by rw [hdata, List.flatten_cons, List.append_assoc]) (by simp)
            (fun r hr => hall r (List.mem_cons_of_mem _ hr))
          rw [hout]
          exact ⟨by simp [List.replicate_succ], hfin⟩

variable (effect) in
/-- One command, header and data. -/
theorem rx_command {c : Command} (hc : c.Valid) {ps : List (List UInt8)} (hps : SentAs c ps)
    (hidle : s.curCmd.cmd = 0) :
    (outputs (diskbootRxHandler effect) s ps).map RxOutput.dispatched =
        List.replicate (ps.length - 1) none ++ [some c] ∧
      (final (diskbootRxHandler effect) s ps).curCmd.cmd = 0 := by
  obtain ⟨chunks, rfl, hdata, hall⟩ := hps
  have hsize := hc.data_le
  have hheader : diskbootRxHandler effect s (encodeHeader c) = rxFinish effect none
      ⟨⟨0x1234, c.cmd, c.param1, c.start, c.count, c.data.length⟩, 0, s.transferBuffer⟩ := by
    simp [diskbootRxHandler, hidle, length_encodeHeader, decode_encodeHeader hc, hsize]
  simp only [outputs_cons, final_cons, hheader, List.map_cons]
  cases chunks with
  | nil =>
      have hnone : c.data = [] := by rw [← hdata]; rfl
      have hc' : c = ⟨c.cmd, c.param1, c.start, c.count, []⟩ := by rw [← hnone]
      simp [rxFinish, hnone, ← hc']
  | cons p chunks =>
      have hp : 0 < p.length := List.length_pos_iff.mpr (hall p List.mem_cons_self)
      have hmore : 0 ≠ c.data.length := by
        rw [← hdata]
        simp only [List.flatten_cons, List.length_append]
        omega
      obtain ⟨hout, hfin⟩ := rx_chunks effect hc (p :: chunks) []
        ⟨⟨0x1234, c.cmd, c.param1, c.start, c.count, c.data.length⟩, 0, s.transferBuffer⟩
        ⟨rfl, rfl, rfl⟩ (by rw [hdata]; rfl) (by simp) hall
      simp only [rxFinish, hmore, if_false]
      rw [hout]
      exact ⟨by simp [List.replicate_succ], hfin⟩

end Rx

/-- The host's view of a run: one answer for each packet, `some` for the last packet of each
command only. -/
def framedOutputs (cs : List Command) (pss : List (List (List UInt8))) : List (Option Command) :=
  (cs.zip pss).flatMap fun e => List.replicate (e.2.length - 1) none ++ [some e.1]

/-- Started with no command pending, the handler dispatches exactly the commands sent, each
with its own fields and data, at its last packet. -/
theorem rx_dispatches_sent (effect : Command → RxState → RxState) (s : RxState)
    (hidle : s.curCmd.cmd = 0) (cs : List Command) (hcs : ∀ c ∈ cs, c.Valid)
    (pss : List (List (List UInt8))) (hps : List.Forall₂ SentAs cs pss) :
    (outputs (diskbootRxHandler effect) s pss.flatten).map RxOutput.dispatched =
        framedOutputs cs pss ∧
      (final (diskbootRxHandler effect) s pss.flatten).curCmd.cmd = 0 := by
  induction hps generalizing s with
  | nil => exact ⟨rfl, hidle⟩
  | cons hp _ ih =>
      obtain ⟨hout, hfin⟩ := rx_command effect (hcs _ List.mem_cons_self) hp hidle
      obtain ⟨hout', hfin'⟩ := ih _ hfin fun c hc => hcs c (List.mem_cons_of_mem _ hc)
      rw [List.flatten_cons, outputs_append, final_append, List.map_append, hout, hout']
      exact ⟨rfl, hfin'⟩

/-- The handler as the program starts: the globals are zero. -/
def rxInit (transferBuffer : Nat → UInt8) : RxState := ⟨⟨0, 0, 0, 0, 0, 0⟩, 0, transferBuffer⟩

/-- A command without data. -/
def pingCommand : Command := ⟨0x49, 0, 0, 0, []⟩

/-- A command with three bytes of data. -/
def writeCommand : Command := ⟨0x57, 3, 5, 0, [1, 2, 3]⟩

theorem pingCommand_valid : pingCommand.Valid := by constructor <;> decide

theorem writeCommand_valid : writeCommand.Valid := by constructor <;> decide

theorem rx_dispatches_sent_two :
    (outputs (diskbootRxHandler fun _ s => s) (rxInit fun _ => 0)
        [[encodeHeader pingCommand], [encodeHeader writeCommand, [1], [2, 3]]].flatten).map
          RxOutput.dispatched =
        framedOutputs [pingCommand, writeCommand]
          [[encodeHeader pingCommand], [encodeHeader writeCommand, [1], [2, 3]]] ∧
      (final (diskbootRxHandler fun _ s => s) (rxInit fun _ => 0)
        [[encodeHeader pingCommand], [encodeHeader writeCommand, [1], [2, 3]]].flatten).curCmd.cmd
          = 0 :=
  rx_dispatches_sent (fun _ s => s) (rxInit fun _ => 0) rfl [pingCommand, writeCommand]
    (by simp [pingCommand_valid, writeCommand_valid])
    [[encodeHeader pingCommand], [encodeHeader writeCommand, [1], [2, 3]]]
    (.cons ⟨[], rfl, rfl, by simp⟩ (.cons ⟨[[1], [2, 3]], rfl, rfl, by simp⟩ .nil))

/-! ## Rejected headers -/

/-- A packet the handler does not take as a header. -/
def Rejected (p : List UInt8) : Prop :=
  p.length ≠ 24 ∨ (decodeHeader p).magic ≠ 0x1234 ∨ (decodeHeader p).datasize > 0x1000000

/-- After the packet `p`, which dispatches nothing, every command is dispatched as if `p` had
not been there. -/
def RecoversAfter (effect : Command → RxState → RxState) (s : RxState) (p : List UInt8) : Prop :=
  ∀ c ps, c.Valid → SentAs c ps →
    (outputs (diskbootRxHandler effect) s (p :: ps)).map RxOutput.dispatched =
      none :: (List.replicate (ps.length - 1) none ++ [some c])

section Reject

variable {effect : Command → RxState → RxState} {s : RxState} {p : List UInt8}

variable (effect) in
/-- A rejected packet of header length is kept as the current header all the same. -/
theorem rx_reject (hidle : s.curCmd.cmd = 0) (hrej : Rejected p) :
    diskbootRxHandler effect s p =
      (if p.length ≠ 24 then s else { s with curCmd := decodeHeader p }, ⟨none, none⟩) := by
  unfold diskbootRxHandler
  rw [if_pos hidle]
  by_cases hlen : p.length ≠ 24
  · rw [if_pos hlen, if_pos hlen]
  · rw [if_neg hlen, if_neg hlen]
    by_cases hmagic : (decodeHeader p).magic ≠ 0x1234
    · rw [if_pos hmagic]
    · have hsize := (hrej.resolve_left hlen).resolve_left hmagic
      rw [if_neg hmagic, if_pos hsize]

theorem rxFinish_dispatched {copied : Option (Nat × Nat)} {c : Command}
    (h : (rxFinish effect copied s).2.dispatched = some c) : c.param1 = s.curCmd.param1 := by
  unfold rxFinish at h
  split at h
  · cases h
    rfl
  · cases h

/-- What a data packet can dispatch carries the header that is current. -/
theorem rx_pending_dispatch {c : Command} (hcmd : s.curCmd.cmd ≠ 0)
    (h : (diskbootRxHandler effect s p).2.dispatched = some c) : c.param1 = s.curCmd.param1 := by
  unfold diskbootRxHandler at h
  rw [if_neg hcmd] at h
  dsimp only at h
  have hparam := rxFinish_dispatched h
  exact hparam

end Reject

/-- The handler is ready for the next command after a rejected packet exactly when the packet
has not the length of a header or the command code in it is zero. -/
theorem rx_recovers_iff (effect : Command → RxState → RxState) (s : RxState)
    (hidle : s.curCmd.cmd = 0) (p : List UInt8) (hrej : Rejected p) :
    RecoversAfter effect s p ↔ p.length ≠ 24 ∨ (decodeHeader p).cmd = 0 := by
  have hstep := rx_reject effect hidle hrej
  constructor
  · intro h
    by_contra hbad
    push Not at hbad
    obtain ⟨hlen, hcmd⟩ := hbad
    -- a command whose parameter differs from the rejected header's
    obtain ⟨v, hv, hne⟩ : ∃ v < 2 ^ 32, v ≠ (decodeHeader p).param1 := by
      by_cases h0 : (decodeHeader p).param1 = 0
      · exact ⟨1, by decide, by omega⟩
      · exact ⟨0, by decide, fun heq => h0 heq.symm⟩
    have hvalid : (⟨0x49, v, 0, 0, []⟩ : Command).Valid := by
      constructor <;> simp
      omega
    have hout := h ⟨0x49, v, 0, 0, []⟩ [encodeHeader ⟨0x49, v, 0, 0, []⟩] hvalid
      ⟨[], rfl, rfl, by simp⟩
    simp only [outputs_cons, outputs_nil, List.map_cons, List.map_nil, hstep,
      hlen, ne_eq, not_true, if_false] at hout
    have hd := List.head_eq_of_cons_eq (List.tail_eq_of_cons_eq hout)
    exact hne (rx_pending_dispatch hcmd hd)
  · intro hgood c ps hc hps
    have hidle' : (diskbootRxHandler effect s p).1.curCmd.cmd = 0 := by
      rw [hstep]
      by_cases hlen : p.length ≠ 24
      · rw [if_pos hlen]
        exact hidle
      · rw [if_neg hlen]
        exact hgood.resolve_left hlen
    rw [outputs_cons, List.map_cons, (rx_command effect hc hps hidle').1, hstep]

/-- A header with a wrong magic number, the code of a ping and a data size. -/
def badPing : List UInt8 := leBytes 2 0 ++ (leBytes 2 0x49 ++ (leBytes 16 0 ++ leBytes 4 5))

theorem rx_recovers_iff_badPing :
    RecoversAfter (fun _ s => s) (rxInit fun _ => 0) badPing ↔
      badPing.length ≠ 24 ∨ (decodeHeader badPing).cmd = 0 :=
  rx_recovers_iff (fun _ s => s) (rxInit fun _ => 0) rfl badPing (.inr (.inl (by decide)))

/-- The ping sent after a rejected header is taken for data. -/
theorem rx_reject_swallows_ping :
    Rejected badPing ∧ ¬ RecoversAfter (fun _ s => s) (rxInit fun _ => 0) badPing := by
  refine ⟨.inr (.inl (by decide)), fun h => ?_⟩
  have := h pingCommand [encodeHeader pingCommand] pingCommand_valid ⟨[], rfl, rfl, by simp⟩
  revert this
  decide

/-! ## Bounds on the transfer buffer -/

/-- The header a packet brings, if it is taken or kept as one, names a command only when it
is valid. -/
def GoodHeader (s : RxState) (p : List UInt8) : Prop :=
  s.curCmd.cmd = 0 → p.length = 24 → Rejected p → (decodeHeader p).cmd = 0

/-- While a command is pending, its data size has been checked and no more than that has been
received. -/
def RxInv (s : RxState) : Prop :=
  s.curCmd.cmd ≠ 0 → s.curCmdBytesWritten ≤ s.curCmd.datasize ∧ s.curCmd.datasize ≤ 0x1000000

/-- A call of the handler that keeps its copy inside the 16 MB of the transfer buffer. -/
def CopyInside (o : RxOutput) : Prop :=
  ∀ off len, o.copied = some (off, len) → off + len ≤ 0x1000000

section Bounds

variable {effect : Command → RxState → RxState} {s : RxState} {p : List UInt8}

theorem rxFinish_inv (effect : Command → RxState → RxState) (copied : Option (Nat × Nat))
    (h : s.curCmdBytesWritten ≤ s.curCmd.datasize ∧ s.curCmd.datasize ≤ 0x1000000) :
    RxInv (rxFinish effect copied s).1 ∧ (rxFinish effect copied s).2.copied = copied := by
  unfold rxFinish
  split
  · exact ⟨fun hne => absurd rfl hne, rfl⟩
  · exact ⟨fun _ => h, rfl⟩

/-- One packet keeps the invariant and stores inside the buffer. -/
theorem rx_step_inv (hs : RxInv s) (hp : GoodHeader s p) :
    RxInv (diskbootRxHandler effect s p).1 ∧ CopyInside (diskbootRxHandler effect s p).2 := by
  by_cases hidle : s.curCmd.cmd = 0
  · by_cases hrej : Rejected p
    · rw [rx_reject effect hidle hrej]
      refine ⟨fun hne => ?_, fun off len h => nomatch h⟩
      by_cases hlen : p.length ≠ 24
      · rw [if_pos hlen] at hne
        exact absurd hidle hne
      · rw [if_neg hlen] at hne
        exact absurd (hp hidle (not_not.mp hlen) hrej) hne
    · unfold Rejected at hrej
      push Not at hrej
      obtain ⟨hlen, hmagic, hsize⟩ := hrej
      have hstep : diskbootRxHandler effect s p = rxFinish effect none
          { s with curCmd := decodeHeader p, curCmdBytesWritten := 0 } := by
        simp [diskbootRxHandler, hidle, hlen, hmagic, hsize]
      rw [hstep]
      obtain ⟨hinv, hcopied⟩ := rxFinish_inv effect none
        (s := { s with curCmd := decodeHeader p, curCmdBytesWritten := 0 })
        ⟨Nat.zero_le _, hsize⟩
      exact ⟨hinv, fun off len h => by rw [hcopied] at h; cases h⟩
  · obtain ⟨hwritten, hsize⟩ := hs hidle
    unfold diskbootRxHandler
    rw [if_neg hidle, sub32_of_le hwritten (by omega)]
    dsimp only
    have hle : (if p.length ≤ s.curCmd.datasize - s.curCmdBytesWritten then p.length
        else s.curCmd.datasize - s.curCmdBytesWritten) ≤
          s.curCmd.datasize - s.curCmdBytesWritten := by
      split <;> omega
    generalize (if p.length ≤ s.curCmd.datasize - s.curCmdBytesWritten then p.length
        else s.curCmd.datasize - s.curCmdBytesWritten) = n at hle
    rw [u32_of_lt (by omega)]
    obtain ⟨hinv, hcopied⟩ := rxFinish_inv effect (some (s.curCmdBytesWritten, n))
      (s := { s with
        transferBuffer := store s.transferBuffer s.curCmdBytesWritten n fun i => p.getD i 0
        curCmdBytesWritten := s.curCmdBytesWritten + n })
      ⟨show s.curCmdBytesWritten + n ≤ s.curCmd.datasize by omega, hsize⟩
    refine ⟨hinv, fun off len h => ?_⟩
    rw [hcopied] at h
    cases h
    omega

end Bounds

end Novo7
