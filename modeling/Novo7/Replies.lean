import Novo7.Dispatch
import Novo7.BulkPipe

/-!
# The host's side of a response

After `send_command` has sent a command it reads the response header, prints messages as long
as their headers announce some, and returns at the first other response; `get_response_data`
or `print_response_data` then fetch its data. The pipe in between carries packets, which the
device cuts and `libusb_bulk_transfer` puts together: `transfer` stands for it.

`StaysInStep` says that a command and the host's reading of its response stay together: whatever
follows in the pipe is found there by the next command.
-/

namespace Novo7

open Machine Bytes BulkPipe

/-! ## The device's packets -/

/-- The speeds of the bus that matter for `usbdcomm_fifo_size`. -/
inductive UsbSpeed where
  | full
  | high
  deriving Repr, DecidableEq

/-- `usbdcomm_fifo_size`. -/
def UsbSpeed.fifoSize : UsbSpeed → Nat
  | .full => 64
  | .high => 512

theorem UsbSpeed.fifoSize_pos (speed : UsbSpeed) : 0 < speed.fifoSize := by
  cases speed <;> decide

/-- `usbdcomm_diskboot_tx`, buffer by buffer. -/
def usbdcommDiskbootTx (speed : UsbSpeed) (sent : List (List UInt8)) : List Packet :=
  sent.flatMap (cut speed.fifoSize)

/-! ## The host -/

/-- `cur_resp_header`, what was printed, and the pipe from the device. -/
structure HostState where
  status : Nat
  datasize : Nat
  stdout : List UInt8
  pipe : List Packet

/-- `libusb_bulk_transfer` from the device, with a number of bytes. -/
abbrev Transfer := Nat → List Packet → Option (List UInt8 × List Packet)

/-- The reading loop that `print_response_data` and `get_response_data` share: the bytes read,
and the host afterwards. -/
def readData (transfer : Transfer) (want : Nat → Nat) (h : HostState) :
    Option (List UInt8 × HostState) := do
  let r ← drain transfer want ⟨h.datasize, [], h.pipe⟩
  some (r.bytes, { h with datasize := r.left, pipe := r.pipe })

/-- `print_response_data`, with its buffer of 256 KB. -/
def printResponseData (transfer : Transfer) (h : HostState) : Option HostState := do
  let (bytes, h) ← readData transfer (fun left => if 0x40000 < left then 0x40000 else left) h
  some { h with stdout := h.stdout ++ bytes }

/-- `get_response_data`; it gives up if the size is not the announced one. -/
def getResponseData (transfer : Transfer) (h : HostState) (bufsize : Nat) :
    Option (List UInt8 × HostState) :=
  if bufsize ≠ h.datasize then none else readData transfer (fun left => left) h

/-- One round of the loop of `send_command` that reads a response header. -/
def responseRound (transfer : Transfer) (h : HostState) : Option (HostState ⊕ HostState) := do
  let (bytes, pipe) ← transfer 8 h.pipe
  if bytes.length ≠ 8 then none
  else
    let h := { h with status := field bytes 2 2, datasize := field bytes 4 4, pipe := pipe }
    if h.status = brstMsg then do
      let h ← printResponseData transfer h
      some (.inl h)
    else some (.inr h)

/-- What `send_command` does once the command is sent. It exits if the status of the response
is `BRST_FAIL`, and returns `datasize` otherwise. -/
def readResponse (transfer : Transfer) (h : HostState) : Option HostState :=
  iter (responseRound transfer) (h.pipe.length + 1) h

/-! ## In step -/

/-- The host reads some messages and one response `r`, and finds `rest` in the pipe after it. -/
structure Consumes (transfer : Transfer) (pipe : List Packet) (msgs : List Response)
    (r : Response) (rest : List Packet) : Prop where
  reads : ∃ h : HostState, readResponse transfer ⟨0, 0, [], pipe⟩ = some h ∧
    h.status = r.status ∧ h.datasize = r.data.length ∧ h.stdout = msgs.flatMap (·.data) ∧
      (r.status = brstFail → h.pipe = rest) ∧
      printResponseData transfer h = some ⟨r.status, 0, h.stdout ++ r.data, rest⟩ ∧
      getResponseData transfer h r.data.length = some (r.data, ⟨r.status, 0, h.stdout, rest⟩)

/-- A command is answered by messages and one response, and the host's reading ends with it,
whatever comes after it. -/
def StaysInStep {ν : Type} (transfer : Transfer) (speed : UsbSpeed)
    (o : Option (Board ν × List (List UInt8))) : Prop :=
  ∃ s sent msgs r, o = some (s, sent) ∧ Answers sent msgs r ∧
    ∀ rest, Consumes transfer (usbdcommDiskbootTx speed sent ++ rest) msgs r rest

section Host

variable {transfer : Transfer} {speed : UsbSpeed}

theorem print_asksWhole : AsksWhole speed.fifoSize
    (fun left => if 0x40000 < left then 0x40000 else left) := by
  intro n hn
  have hdvd : speed.fifoSize ∣ 0x40000 := by cases speed <;> decide
  dsimp only
  split_ifs with hlt
  · exact ⟨by decide, .inr ⟨hlt, hdvd⟩⟩
  · exact ⟨hn, .inl rfl⟩

theorem get_asksWhole : AsksWhole speed.fifoSize (fun left => left) := fun _ hn => ⟨hn, .inl rfl⟩

/-- The data of a response is read to its end. -/
theorem readData_ok (htransfer : TakesPackets speed.fifoSize transfer) {want : Nat → Nat}
    (hwant : AsksWhole speed.fifoSize want) (status : Nat) (stdout data : List UInt8)
    (rest : List Packet) :
    readData transfer want ⟨status, data.length, stdout, cut speed.fifoSize data ++ rest⟩ =
      some (data, ⟨status, 0, stdout, rest⟩) := by
  unfold readData
  rw [drain_returns htransfer speed.fifoSize_pos hwant]
  rfl

theorem print_ok (htransfer : TakesPackets speed.fifoSize transfer) (status : Nat)
    (stdout data : List UInt8) (rest : List Packet) :
    printResponseData transfer
        ⟨status, data.length, stdout, cut speed.fifoSize data ++ rest⟩ =
      some ⟨status, 0, stdout ++ data, rest⟩ := by
  unfold printResponseData
  rw [readData_ok htransfer print_asksWhole]
  rfl

theorem length_respHeader (status datasize : Nat) : (respHeader status datasize).length = 8 := by
  simp [respHeader]

/-- The packets of a response are its header and those of its data. -/
theorem response_packets (r : Response) :
    usbdcommDiskbootTx speed r.tx =
      respHeader r.status r.data.length :: cut speed.fifoSize r.data := by
  have hlen := length_respHeader r.status r.data.length
  have hheader : cut speed.fifoSize (respHeader r.status r.data.length) =
      [respHeader r.status r.data.length] :=
    cut_short (by rw [hlen]; decide) (by rw [hlen]; cases speed <;> decide)
  unfold usbdcommDiskbootTx Response.tx
  rw [List.flatMap_cons, hheader, List.singleton_append]
  split_ifs with hnil
  · rw [hnil]
    rfl
  · rw [List.flatMap_singleton]

/-- One round: the header is one packet, and a message is printed. -/
theorem responseRound_ok (htransfer : TakesPackets speed.fifoSize transfer) (x : Response)
    (hstatus : x.status < 2 ^ 16) (hlen : x.data.length < 2 ^ 32) (h : HostState)
    (rest : List Packet) (hpipe : h.pipe = usbdcommDiskbootTx speed x.tx ++ rest) :
    responseRound transfer h =
      if x.status = brstMsg then some (.inl ⟨x.status, 0, h.stdout ++ x.data, rest⟩)
      else some (.inr ⟨x.status, x.data.length, h.stdout,
        cut speed.fifoSize x.data ++ rest⟩) := by
  have hlen8 := length_respHeader x.status x.data.length
  have hhead : transfer 8 h.pipe = some (respHeader x.status x.data.length,
      cut speed.fifoSize x.data ++ rest) := by
    rw [hpipe, response_packets]
    generalize respHeader x.status x.data.length = header at hlen8 ⊢
    obtain ⟨qs, qs', hne, heq, -, htake⟩ := htransfer [header] (cut speed.fifoSize x.data ++ rest) 8
      (.last header (by omega) (by rw [hlen8]; cases speed <;> decide)) (by decide)
      (.inl (by simp [hlen8]))
    obtain ⟨rfl, rfl⟩ : qs = [header] ∧ qs' = [] := by
      cases qs with
      | nil => exact absurd rfl hne
      | cons q qs =>
          obtain ⟨hq, hnil⟩ := List.cons_eq_cons.mp heq
          obtain ⟨hqs, hqs'⟩ := List.append_eq_nil_iff.mp hnil.symm
          exact ⟨by rw [← hq, hqs], hqs'⟩
    simpa using htake
  have hfields : field (respHeader x.status x.data.length) 2 2 = x.status ∧
      field (respHeader x.status x.data.length) 4 4 = x.data.length := by
    unfold respHeader
    simp (disch := omega) only [field_skip, field_here, Nat.reduceSub, and_self]
  unfold responseRound
  rw [hhead]
  simp only [Option.bind_eq_bind, Option.bind_some, hlen8, hfields.1, hfields.2, ne_eq,
    not_true_eq_false, if_false]
  split_ifs with hmsg
  · rw [print_ok htransfer]
    rfl
  · rfl

/-- The host has read some of the messages and has the others before it. -/
def Reached (speed : UsbSpeed) (msgs : List Response) (r : Response) (rest : List Packet)
    (h : HostState) : Prop :=
  ∃ ms ms', msgs = ms ++ ms' ∧ h.stdout = ms.flatMap (·.data) ∧
    h.pipe = usbdcommDiskbootTx speed ((ms' ++ [r]).flatMap Response.tx) ++ rest

/-- The messages are read and printed, and the response is the one returned. -/
theorem readResponse_ok (htransfer : TakesPackets speed.fifoSize transfer)
    {sent : List (List UInt8)} {msgs : List Response} {r : Response}
    (hanswers : Answers sent msgs r) (rest : List Packet) :
    readResponse transfer ⟨0, 0, [], usbdcommDiskbootTx speed sent ++ rest⟩ =
      some ⟨r.status, r.data.length, msgs.flatMap (·.data),
        cut speed.fifoSize r.data ++ rest⟩ := by
  obtain ⟨hmsgs, hother, hstatus, -, hlens, rfl⟩ := hanswers
  have hround : ∀ h, Reached speed msgs r rest h →
      Returns (responseRound transfer h) (RoundOK (Reached speed msgs r rest) (·.pipe.length)
        (fun h => h = ⟨r.status, r.data.length, msgs.flatMap (·.data),
          cut speed.fifoSize r.data ++ rest⟩) h) := by
    rintro h ⟨ms, ms', rfl, hstdout, hpipe⟩
    cases ms' with
    | nil =>
        have hr := responseRound_ok htransfer r hstatus (hlens r (by simp)) h rest (by
          rw [hpipe, List.nil_append, List.flatMap_singleton])
        rw [hr, if_neg hother]
        exact .pure (show _ = _ by rw [hstdout, List.append_nil])
    | cons m ms' =>
        have hm : m.status = brstMsg := hmsgs m (by simp)
        have hsplit : usbdcommDiskbootTx speed ((m :: ms' ++ [r]).flatMap Response.tx) =
            usbdcommDiskbootTx speed m.tx ++
              usbdcommDiskbootTx speed ((ms' ++ [r]).flatMap Response.tx) := by
          unfold usbdcommDiskbootTx
          rw [List.cons_append, List.flatMap_cons, List.flatMap_append]
        rw [hsplit, List.append_assoc] at hpipe
        have hr := responseRound_ok htransfer m (by rw [hm]; decide) (hlens m (by simp)) h
          (usbdcommDiskbootTx speed ((ms' ++ [r]).flatMap Response.tx) ++ rest) hpipe
        rw [hr, if_pos hm]
        refine .pure ⟨⟨ms ++ [m], ms', by simp, ?_, rfl⟩, ?_⟩
        · show h.stdout ++ m.data = _
          rw [hstdout, List.flatMap_append, List.flatMap_singleton]
        · show _ < h.pipe.length
          rw [hpipe, response_packets]
          simp only [List.length_append, List.length_cons]
          omega
  obtain ⟨h, hsome, hh⟩ := iter_total hround
    (s := ⟨0, 0, [], usbdcommDiskbootTx speed ((msgs ++ [r]).flatMap Response.tx) ++ rest⟩)
    ⟨[], msgs, rfl, rfl, rfl⟩ (Nat.lt_succ_self _)
  rw [readResponse, hsome, hh]

/-- Everything that is one response is consumed by the host, and nothing else. -/
theorem consumes_of_answers (htransfer : TakesPackets speed.fifoSize transfer)
    {sent : List (List UInt8)} {msgs : List Response} {r : Response}
    (hanswers : Answers sent msgs r) (rest : List Packet) :
    Consumes transfer (usbdcommDiskbootTx speed sent ++ rest) msgs r rest := by
  refine ⟨_, readResponse_ok htransfer hanswers rest, rfl, rfl, rfl, fun hfail => ?_,
    print_ok htransfer _ _ _ rest, ?_⟩
  · obtain ⟨-, -, -, hdata, -⟩ := hanswers
    rw [hdata hfail]
    rfl
  · unfold getResponseData
    rw [if_neg (by simp)]
    exact readData_ok htransfer get_asksWhole _ _ _ rest

end Host

/-- A command and the host's reading of its response stay together exactly if it is no board
exit in an unknown mode and no read whose size falls back to an endless string. -/
theorem responses_in_step_iff {ν : Type} (env : DispatchEnv ν) (s : Board ν) (speed : UsbSpeed)
    (transfer : Transfer) (htransfer : TakesPackets speed.fifoSize transfer)
    (cmd param1 start count datasize : Nat) :
    StaysInStep transfer speed (dispatchCmd env s cmd param1 start count datasize) ↔
      Answerable env (dispatchEntry env s cmd param1 start count datasize) cmd param1 start
        count := by
  rw [← dispatchSwitch_answered env _ cmd param1 start count datasize]
  constructor
  · rintro ⟨t, sent, msgs, r, hsome, hanswers, -⟩
    exact ⟨t, sent, msgs, r, hsome, hanswers⟩
  · rintro ⟨t, sent, msgs, r, hsome, hanswers⟩
    exact ⟨t, sent, msgs, r, hsome, hanswers, consumes_of_answers htransfer hanswers⟩

/-- A board with nothing in its memory, a flash disk on which every access succeeds, and an
empty log. -/
def idleBoard : DispatchEnv Unit where
  vsprintf _ _ := Line.empty
  fmtGetFlashMemProperties _ := ⟨fun _ => ⟨0, 0, 0⟩, 0, 0, 0, 0, 0, 0⟩
  phyBoot0Read _ _ _ _ mem := ((), mem, 0)
  phyBoot1Read _ _ _ _ mem := ((), mem, 0)
  nandLogicRead _ _ _ _ mem := ((), mem, 0)
  phyBoot0Write _ _ _ _ _ := ((), 0)
  phyBoot1Write _ _ _ _ _ := ((), 0)
  lmlWrite _ _ _ _ _ := ((), 0)
  lmlFlushPageCache _ := ((), 0)
  info := oneChip
  resetBoard := 0x4a001000
  call _ s := (s, [])

def boardStart : Board Unit :=
  ⟨fun _ => 0, logBase, Nat.le_refl _, logBase_le, 0, false, 0xffff0020, mscInit () fun _ => 0⟩

theorem responses_in_step_iff_ping :
    StaysInStep (takeFull 512) .high (dispatchCmd idleBoard boardStart 0x49 0 0 0 0) ↔
      Answerable idleBoard (dispatchEntry idleBoard boardStart 0x49 0 0 0 0) 0x49 0 0 0 :=
  responses_in_step_iff idleBoard boardStart .high (takeFull 512) (takeFull_takes 512) 0x49 0 0 0 0

/-- A board exit in a mode that does not exist is not answered. -/
theorem boardExit_unanswered :
    ¬ StaysInStep (takeFull 512) .high (dispatchCmd idleBoard boardStart 0x45 3 0 0 0) := by
  rintro ⟨t, sent, msgs, r, hsome, hanswers, -⟩
  exact absurd ((boardExit_answered idleBoard _ 3).mp ⟨t, sent, msgs, r, hsome, hanswers⟩)
    (by decide)

end Novo7
