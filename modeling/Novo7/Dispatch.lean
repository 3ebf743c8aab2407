import Novo7.MassStorageRange

/-!
# Commands and their responses

`dispatch_cmd` carries out a command and answers it through `send_resp_st`: a header of eight
bytes and then the data the header announces. A size below zero stands for a C string, whose
length is then looked up; two commands get there with sizes a host asked for.

The memory of the board is one function from addresses to bytes: the transfer buffer, the log
and whatever a memory command names are parts of it. The flash driver, `vsprintf` and code
that is called in memory are parameters. `dispatch_answers_iff` says which commands are
answered by some messages and exactly one other response.
-/

namespace Novo7

open Machine Buffer Bytes

/-! ## Responses -/

def brstFail : Nat := 0
def brstOk : Nat := 1
def brstMsg : Nat := 2

/-- A response: the status in its header and the bytes after it. -/
structure Response where
  status : Nat
  data : List UInt8
  deriving Repr, DecidableEq

/-- `struct bootdisk_resp_header`. -/
def respHeader (status datasize : Nat) : List UInt8 :=
  leBytes 2 0x1234 ++ (leBytes 2 status ++ (leBytes 4 datasize ++ []))

/-- The buffers a response is sent in. -/
def Response.tx (r : Response) : List (List UInt8) :=
  respHeader r.status r.data.length :: if r.data = [] then [] else [r.data]

/-- What is sent is some messages and then one response that is none. -/
def Answers (sent : List (List UInt8)) (msgs : List Response) (r : Response) : Prop :=
  (∀ m ∈ msgs, m.status = brstMsg) ∧ r.status ≠ brstMsg ∧ r.status < 2 ^ 16 ∧
    (r.status = brstFail → r.data = []) ∧
    (∀ x ∈ msgs ++ [r], x.data.length < 2 ^ 32) ∧ sent = (msgs ++ [r]).flatMap Response.tx

/-- The value a 32-bit word has as an `int`. -/
def int32 (n : Nat) : Int := if u32 n < 2 ^ 31 then u32 n else (u32 n : Int) - 2 ^ 32

/-- The loop of `strlen`. No string is longer than the address space. -/
def strlenLoop (s : Nat → UInt8) : Nat → Nat → Option Nat
  | 0, _ => none
  | fuel + 1, n => if s n = 0 then some n else strlenLoop s fuel (n + 1)

/-- `strlen`, which does not return if there is no zero byte anywhere. -/
def strlen (s : Nat → UInt8) : Option Nat := strlenLoop s (2 ^ 32) 0

/-- The header and the data that `send_resp_st` sends for a size. -/
def sendResp (data : Nat → UInt8) (datasize : Int) (status : Nat) : List (List UInt8) :=
  respHeader status (datasize % 2 ^ 32).toNat ::
    if datasize > 0 then [(List.range datasize.toNat).map data] else []

/-- `send_resp_st`. -/
def sendRespSt (data : Nat → UInt8) (datasize : Int) (status : Nat) :
    Option (List (List UInt8)) :=
  if datasize < 0 then (strlen data).map fun n => sendResp data (int32 n) status
  else some (sendResp data datasize status)

/-- `send_resp_fail`. -/
def sendRespFail : Option (List (List UInt8)) := sendRespSt (fun _ => 0) 0 brstFail

/-- `send_resp_OK`. -/
def sendRespOk (data : Nat → UInt8) (datasize : Int) : Option (List (List UInt8)) :=
  sendRespSt data datasize brstOk

/-- Bytes at the start of an object, zeros after it. -/
def object (bytes : List UInt8) : Nat → UInt8 := fun i => bytes.getD i 0

def ascii (s : String) : List UInt8 := s.toList.map fun c => UInt8.ofNat c.toNat

/-! ## The board -/

def transferBuffer : Nat := 0x41000000
def logBase : Nat := 0x49000000
def logLimit : Nat := 0x49800000

theorem logBase_le : logBase ≤ logLimit + 0x800 := by decide

/-- A formatted line of the log. -/
structure Line where
  bytes : List UInt8
  length_le : bytes.length ≤ 0x400

def Line.empty : Line := ⟨[], by decide⟩

/-- The memory, the end of the log and the other globals of `main.c`, and those of
`masstorage.c` with the flash disk. -/
structure Board (ν : Type) where
  mem : Nat → UInt8
  logAddr : Nat
  logAddr_ge : logBase ≤ logAddr
  logAddr_le : logAddr ≤ logLimit + 0x800
  logno : Nat
  boardExit : Bool
  exitaddrJumpto : Nat
  msc : MscState ν

/-- `struct flashmarea_properties`. -/
structure FlashmareaProperties where
  sectorsPerPage : Nat
  firstPageno : Nat
  pageCount : Nat

/-- `struct flashmem_properties`. -/
structure FlashmemProperties where
  areas : Fin 4 → FlashmareaProperties
  sectorsPerPage : Nat
  pagesPerBlock : Nat
  blocksPerChip : Nat
  chipCnt : Nat
  pagewithbadflag : Nat
  blockCntOfZone : Nat

/-- The words of a record as they lie in memory. -/
def leWords (ws : List Nat) : List UInt8 := ws.flatMap (leBytes 4)

def FlashmemProperties.bytes (p : FlashmemProperties) : List UInt8 :=
  leWords ((List.finRange 4).flatMap fun a =>
    [(p.areas a).sectorsPerPage, (p.areas a).firstPageno, (p.areas a).pageCount]) ++
  leWords [p.sectorsPerPage, p.pagesPerBlock, p.blocksPerChip, p.chipCnt, p.pagewithbadflag,
    p.blockCntOfZone]

/-- A read of sectors into memory, and a write from it. -/
abbrev ReadOp (ν : Type) := ν → Nat → Nat → Nat → (Nat → UInt8) → ν × (Nat → UInt8) × Int
abbrev WriteOp (ν : Type) := ν → Nat → Nat → Nat → (Nat → UInt8) → ν × Int

/-- A text `send_resp_msg` can send. -/
abbrev MsgText := { text : List UInt8 // text.length < 2 ^ 31 }

/-- The flash driver, the formatting of log lines, and code in memory, which returns and may
have sent messages. -/
structure DispatchEnv (ν : Type) where
  vsprintf : String → List Nat → Line
  fmtGetFlashMemProperties : ν → FlashmemProperties
  phyBoot0Read : ReadOp ν
  phyBoot1Read : ReadOp ν
  nandLogicRead : ReadOp ν
  phyBoot0Write : WriteOp ν
  phyBoot1Write : WriteOp ν
  lmlWrite : WriteOp ν
  lmlFlushPageCache : ν → ν × Int
  info : StorageInfo
  resetBoard : Nat
  call : Nat → Board ν → Board ν × List MsgText

variable {ν : Type}

/-- How far `log_addr += strlen(log_addr)` goes after a line was written. -/
def Line.strlen (l : Line) : Nat := (l.bytes.takeWhile (· ≠ 0)).length

theorem Line.strlen_le (l : Line) : l.strlen ≤ 0x400 :=
  Nat.le_trans (List.takeWhile_prefix _).length_le l.length_le

/-- `dolog`. -/
def dolog (env : DispatchEnv ν) (s : Board ν) (fmt : String) (args : List Nat) : Board ν :=
  if h : s.logAddr ≤ logLimit then
    let start := env.vsprintf "%-5u " [u32 (s.logno + 1)]
    let text := env.vsprintf fmt args
    { s with
      logno := u32 (s.logno + 1)
      mem := store (store s.mem s.logAddr (start.bytes.length + 1) (object start.bytes))
        (s.logAddr + start.strlen) (text.bytes.length + 1) (object text.bytes)
      logAddr := s.logAddr + start.strlen + text.strlen
      logAddr_ge := by have := s.logAddr_ge; omega
      logAddr_le := by have := start.strlen_le; have := text.strlen_le; omega }
  else s

/-! ## `dispatch_cmd` -/

/-- `memcpy(dst, src, n)` between addresses of 32 bits. -/
def memcpy (mem : Nat → UInt8) (dst src n : Nat) : Nat → UInt8 := fun a =>
  if sub32 a dst < n then mem (u32 (src + sub32 a dst)) else mem a

/-- The bytes from an address on. -/
def Board.pointer (s : Board ν) (addr : Nat) : Nat → UInt8 := fun i => s.mem (u32 (addr + i))

/-- The read of `BCMD_DISKREAD`, by area. -/
def diskRead (env : DispatchEnv ν) (s : Board ν) (param1 start count : Nat) : Board ν × Int :=
  let op := match param1 with
    | 0 => env.phyBoot0Read
    | 1 => env.phyBoot1Read
    | _ => env.nandLogicRead
  let (nand, mem, res) := op s.msc.nand (u32 start) count transferBuffer s.mem
  ({ s with msc := { s.msc with nand := nand }, mem := mem }, res)

/-- The write of `BCMD_DISKWRITE`, by area. -/
def diskWrite (env : DispatchEnv ν) (s : Board ν) (param1 start datasize : Nat) :
    Board ν × Int :=
  let finish (r : ν × Int) : Board ν × Int := ({ s with msc := { s.msc with nand := r.1 } }, r.2)
  match param1 with
  | 0 => finish (env.phyBoot0Write s.msc.nand (u32 start) (datasize / 512) transferBuffer s.mem)
  | 1 => finish (env.phyBoot1Write s.msc.nand (u32 start) (datasize / 512) transferBuffer s.mem)
  | _ =>
    let (s, res) := finish (env.lmlWrite s.msc.nand (u32 start) (datasize / 512) transferBuffer s.mem)
    if res = 0 then
      let s := dolog env s "rx_handler: LML_Write OK, flush cache\n" []
      let (nand, res) := env.lmlFlushPageCache s.msc.nand
      ({ s with msc := { s.msc with nand := nand } }, res)
    else (s, res)

/-- `struct diskmount_status`, as `BCMD_GETMOUNT_STATUS` fills it. -/
def mountStatus (lun : FsgLun) : List UInt8 :=
  if lun.isOpen then leWords [if lun.ro then 1 else 2, lun.firstSector, lun.sectorCount]
  else leWords [0, 0, 0]

/-- The end of a case that sends one response. -/
def respond (s : Board ν) (sent : Option (List (List UInt8))) :
    Option (Board ν × List (List UInt8)) :=
  sent.map fun sent => (s, sent)

/-- The messages sent by code that was called. -/
def sendRespMsgs (texts : List MsgText) : List (List UInt8) :=
  texts.flatMap fun text => sendResp (object text.1) text.1.length brstMsg

/-- The case `BCMD_BOARD_EXIT`. -/
def dispatchBoardExit (env : DispatchEnv ν) (s : Board ν) (param1 : Nat) :
    Option (Board ν × List (List UInt8)) :=
  match param1 with
  | 1 => respond { s with boardExit := true, exitaddrJumpto := 0xffff0020 }
      (sendRespOk (object (ascii "going to FEL...")) (-1))
  | 2 => respond { s with boardExit := true, exitaddrJumpto := env.resetBoard }
      (sendRespOk (object (ascii "board reset...")) (-1))
  | _ => some (s, [])

/-- The case `BCMD_DISKREAD`. -/
def dispatchDiskRead (env : DispatchEnv ν) (s : Board ν) (param1 start count : Nat) :
    Option (Board ν × List (List UInt8)) :=
  let s := dolog env s "rx_handler: read param1=%d, first=0x%llx, count=0x%x\n"
    [param1, start, count]
  let (s, res) := diskRead env s param1 start count
  if res = 0 then
    respond (dolog env s "rx_handler read OK\n" [])
      (sendRespOk (s.pointer transferBuffer) (int32 (count * 2 ^ 9)))
  else respond (dolog env s "rx_handler read error: %d\n" [(res % 2 ^ 32).toNat]) sendRespFail

/-- The case `BCMD_DISKWRITE`. -/
def dispatchDiskWrite (env : DispatchEnv ν) (s : Board ν) (param1 start datasize : Nat) :
    Option (Board ν × List (List UInt8)) :=
  let s := dolog env s "rx_handler: write param1=%d, first=0x%llx, size=0x%x\n"
    [param1, start, datasize]
  let (s, res) := diskWrite env s param1 start datasize
  if res = 0 then respond (dolog env s "rx_handler write OK\n" []) (sendRespOk (fun _ => 0) 0)
  else respond (dolog env s "rx_handler write error: %d\n" [(res % 2 ^ 32).toNat]) sendRespFail

/-- The switch of `dispatch_cmd`; `none` if it does not return. -/
def dispatchSwitch (env : DispatchEnv ν) (s : Board ν) (cmd param1 start count datasize : Nat) :
    Option (Board ν × List (List UInt8)) :=
  match cmd with
  | 0x46 =>
    respond s (sendRespOk (object (env.fmtGetFlashMemProperties s.msc.nand).bytes) 72)
  | 0x45 => dispatchBoardExit env s param1
  | 0x49 => respond s (sendRespOk (fun _ => 0) 0)
  | 0x4c =>
    respond
      (if param1 ≠ 0 then
        { s with
          logAddr := logBase, logAddr_ge := Nat.le_refl _, logAddr_le := logBase_le }
      else s)
      (sendRespOk (s.pointer logBase) (s.logAddr - logBase : Nat))
  | 0x53 =>
    respond (dolog env s "sleep time test: delay=%d\n" [param1]) (sendRespOk (fun _ => 0) 0)
  | 0x52 => dispatchDiskRead env s param1 start count
  | 0x57 => dispatchDiskWrite env s param1 start datasize
  | 0x72 => respond s (sendRespOk (s.pointer (u32 start)) (int32 count))
  | 0x77 =>
    respond { s with mem := memcpy s.mem (u32 start) transferBuffer datasize }
      (sendRespOk (fun _ => 0) 0)
  | 0x78 =>
    let (s, texts) := env.call (u32 start) s
    (respond s (sendRespOk (fun _ => 0) 0)).map fun (s, sent) => (s, sendRespMsgs texts ++ sent)
  | 0x4a =>
    respond { s with boardExit := true, exitaddrJumpto := u32 start } (sendRespOk (fun _ => 0) 0)
  | 0x4d =>
    let (msc, res) := masstorageMount env.info s.msc (u32 start) count (param1 ≠ 0)
    respond { s with msc := msc } (if res ≠ 0 then sendRespFail else sendRespOk (fun _ => 0) 0)
  | 0x6d => respond s (sendRespOk (object (mountStatus s.msc.lun)) 12)
  | _ => respond (dolog env s "unknown command %c\n" [cmd]) sendRespFail

/-- The state in which `dispatch_cmd` reaches its switch. -/
def dispatchEntry (env : DispatchEnv ν) (s : Board ν) (cmd param1 start count datasize : Nat) :
    Board ν :=
  dolog env s "dispatch_cmd: command=%c, param1=%d, start=%lld (0x%llx), count=%d, datasize=%d\n"
    [cmd, param1, start, start, count, datasize]

/-- `dispatch_cmd`. -/
def dispatchCmd (env : DispatchEnv ν) (s : Board ν) (cmd param1 start count datasize : Nat) :
    Option (Board ν × List (List UInt8)) :=
  dispatchSwitch env (dispatchEntry env s cmd param1 start count datasize) cmd param1 start count
    datasize

/-! ## Which commands are answered -/

/-- The string that a size below zero stands for ends in time. -/
def StringFits (s : Nat → UInt8) : Prop := ∃ n, strlen s = some n ∧ n < 2 ^ 31

/-- A case returns with some messages and exactly one other response sent. -/
def Answered (o : Option (Board ν × List (List UInt8))) : Prop :=
  ∃ s sent msgs r, o = some (s, sent) ∧ Answers sent msgs r

/-- A send that is one response. -/
def Sends (o : Option (List (List UInt8))) : Prop :=
  ∃ sent msgs r, o = some sent ∧ Answers sent msgs r

theorem respond_answered {s : Board ν} {o : Option (List (List UInt8))} :
    Answered (respond s o) ↔ Sends o := by
  unfold respond
  cases o with
  | none => exact ⟨(fun ⟨_, _, _, _, h, _⟩ => nomatch h), (fun ⟨_, _, _, h, _⟩ => nomatch h)⟩
  | some sent =>
      constructor
      · rintro ⟨_, _, msgs, r, ⟨⟩, h⟩
        exact ⟨sent, msgs, r, rfl, h⟩
      · rintro ⟨_, msgs, r, ⟨⟩, h⟩
        exact ⟨s, sent, msgs, r, rfl, h⟩

theorem strlenLoop_lt {s : Nat → UInt8} (fuel : Nat) : ∀ {n k : Nat},
    strlenLoop s fuel n = some k → k < n + fuel := by
  induction fuel with
  | zero => intro n k h; cases h
  | succ fuel ih =>
      intro n k h
      rw [strlenLoop] at h
      split at h
      · cases h
        omega
      · have := ih h
        omega

theorem strlenLoop_object {bytes : List UInt8} (hnz : ∀ b ∈ bytes, b ≠ 0) (fuel : Nat) :
    ∀ n, n ≤ bytes.length → bytes.length - n < fuel →
      strlenLoop (object bytes) fuel n = some bytes.length := by
  induction fuel with
  | zero => intro n _ h; omega
  | succ fuel ih =>
      intro n hn hfuel
      rw [strlenLoop]
      rcases Nat.lt_or_ge n bytes.length with hlt | hge
      · have hbyte : object bytes n ≠ 0 := by
          unfold object
          rw [List.getD_eq_getElem?_getD, List.getElem?_eq_getElem hlt]
          exact hnz _ (List.getElem_mem hlt)
        rw [if_neg hbyte]
        exact ih (n + 1) hlt (by omega)
      · obtain rfl : n = bytes.length := Nat.le_antisymm hn hge
        have hend : object bytes bytes.length = 0 := by
          unfold object
          rw [List.getD_eq_getElem?_getD, List.getElem?_eq_none (Nat.le_refl _)]
          rfl
        rw [if_pos hend]

/-- A text of the program ends in time. -/
theorem stringFits_object {bytes : List UInt8} (hnz : ∀ b ∈ bytes, b ≠ 0)
    (hlen : bytes.length < 2 ^ 31) : StringFits (object bytes) :=
  ⟨_, strlenLoop_object hnz _ 0 (Nat.zero_le _) (by omega), hlen⟩

/-- A size that fits gives the response with the bytes at the pointer. -/
theorem sendResp_eq (data : Nat → UInt8) {n : Nat} (hn : n < 2 ^ 32) (status : Nat) :
    sendResp data n status = Response.tx ⟨status, (List.range n).map data⟩ := by
  have hword : ((n : Int) % 2 ^ 32).toNat = n := by omega
  unfold sendResp Response.tx
  rw [hword]
  simp only [List.length_map, List.length_range, List.map_eq_nil_iff, List.range_eq_nil]
  by_cases hzero : n = 0
  · rw [if_pos hzero, if_neg (by omega)]
  · rw [if_neg hzero, if_pos (by omega), Int.toNat_natCast]

theorem answers_response {r : Response} (hstatus : r.status = brstFail ∨ r.status = brstOk)
    (hfail : r.status = brstFail → r.data = []) (hlen : r.data.length < 2 ^ 32) :
    Answers r.tx [] r := by
  refine ⟨(fun _ h => nomatch h), ?_, ?_, hfail, fun x hx => ?_, by simp⟩
  · rcases hstatus with h | h <;> rw [h] <;> decide
  · rcases hstatus with h | h <;> rw [h] <;> decide
  · rw [List.nil_append, List.mem_singleton] at hx
    rwa [hx]

theorem sendRespOk_nonneg (data : Nat → UInt8) {n : Nat} (hn : n < 2 ^ 32) :
    sendRespOk data n = some (Response.tx ⟨brstOk, (List.range n).map data⟩) := by
  unfold sendRespOk sendRespSt
  rw [if_neg (by omega), sendResp_eq data hn]

theorem sendRespOk_sends (data : Nat → UInt8) {n : Nat} (hn : n < 2 ^ 32) :
    Sends (sendRespOk data n) :=
  ⟨_, _, _, sendRespOk_nonneg data hn,
    answers_response (.inr rfl) (fun h => nomatch h) (by simpa using hn)⟩

theorem sendRespFail_sends : Sends sendRespFail :=
  ⟨_, _, _, rfl, answers_response (r := ⟨brstFail, []⟩) (.inl rfl) (fun _ => rfl) (by decide)⟩

/-- With a size below zero there is one response exactly if the string ends in time: a longer
one makes the size negative again, and its header announces bytes that are not sent. -/
theorem sendRespOk_negative (data : Nat → UInt8) {d : Int} (hd : d < 0) :
    Sends (sendRespOk data d) ↔ StringFits data := by
  unfold sendRespOk sendRespSt
  rw [if_pos hd]
  constructor
  · rintro ⟨sent, msgs, r, hsent, -, -, -, -, -, hflat⟩
    obtain ⟨n, hn, rfl⟩ := Option.map_eq_some_iff.mp hsent
    have hlt : n < 2 ^ 32 := by simpa using strlenLoop_lt (2 ^ 32) hn
    refine ⟨n, hn, ?_⟩
    by_contra hlong
    have hint : int32 n = (n : Int) - 2 ^ 32 := by
      unfold int32
      rw [u32_of_lt hlt, if_neg hlong]
    unfold sendResp at hflat
    rw [hint, if_neg (by omega)] at hflat
    have hword : (((n : Int) - 2 ^ 32) % 2 ^ 32).toNat = n := by omega
    obtain rfl : msgs = [] := by
      have hcount := congrArg List.length hflat
      cases msgs with
      | nil => rfl
      | cons m msgs =>
          rw [List.length_singleton, List.cons_append, List.flatMap_cons, List.flatMap_append,
            List.length_append, List.length_append, List.flatMap_singleton] at hcount
          unfold Response.tx at hcount
          simp only [List.length_cons] at hcount
          omega
    rw [List.nil_append, List.flatMap_singleton] at hflat
    unfold Response.tx at hflat
    obtain ⟨hheader, hdata⟩ := List.cons_eq_cons.mp hflat
    have hnil : r.data = [] := by
      by_contra hne
      rw [if_neg hne] at hdata
      cases hdata
    rw [hword, hnil] at hheader
    have hzero := congrArg (fun h => field h 4 4) hheader
    unfold respHeader at hzero
    simp (disch := omega) only [field_skip, field_here, Nat.reduceSub, List.length_nil] at hzero
    omega
  · rintro ⟨n, hn, hlt⟩
    have hint : int32 n = n := by
      unfold int32
      rw [u32_of_lt (by omega), if_pos hlt]
    rw [hn, Option.map_some, hint, sendResp_eq data (by omega)]
    exact ⟨_, _, _, rfl, answers_response (.inr rfl) (fun h => nomatch h) (by simp; omega)⟩

theorem int32_sends (data : Nat → UInt8) (n : Nat) :
    Sends (sendRespOk data (int32 n)) ↔ (int32 n < 0 → StringFits data) := by
  have hlt := u32_lt n
  by_cases hneg : int32 n < 0
  · rw [sendRespOk_negative data hneg]
    exact ⟨fun h _ => h, fun h => h hneg⟩
  · refine iff_of_true ?_ (fun h => absurd h hneg)
    unfold int32 at hneg ⊢
    split_ifs at hneg ⊢
    · exact sendRespOk_sends data hlt
    · omega

theorem sendRespMsgs_eq (texts : List MsgText) :
    sendRespMsgs texts =
      (texts.map fun text : MsgText => (⟨brstMsg, text.1⟩ : Response)).flatMap Response.tx := by
  induction texts with
  | nil => rfl
  | cons text texts ih =>
      have htext : (List.range text.1.length).map (object text.1) = text.1 :=
        List.ext_getElem (by simp) fun i h₁ h₂ => by simp [object, h₂]
      have hhead : sendResp (object text.1) text.1.length brstMsg =
          Response.tx ⟨brstMsg, text.1⟩ := by
        have := text.2
        rw [sendResp_eq _ (by omega), htext]
      rw [List.map_cons, List.flatMap_cons, ← ih, ← hhead]
      rfl

/-- The messages of called code come before the response. -/
theorem sendRespMsgs_answered {s : Board ν} (texts : List MsgText) :
    Answered ((respond s (sendRespOk (fun _ => 0) 0)).map fun (s, sent) =>
      (s, sendRespMsgs texts ++ sent)) := by
  have hok : sendRespOk (fun _ => 0) 0 = some (Response.tx ⟨brstOk, []⟩) :=
    sendRespOk_nonneg _ (n := 0) (by decide)
  rw [hok]
  refine ⟨s, _, texts.map fun text : MsgText => ⟨brstMsg, text.1⟩, ⟨brstOk, []⟩, rfl, ?_, by decide,
    by decide, (fun _ => rfl), fun x hx => ?_, ?_⟩
  · intro m hm
    obtain ⟨text, -, rfl⟩ := List.mem_map.mp hm
    rfl
  · rcases List.mem_append.mp hx with hx | hx
    · obtain ⟨text, -, rfl⟩ := List.mem_map.mp hx
      have := text.2
      dsimp only
      omega
    · rw [List.mem_singleton.mp hx]
      decide
  · rw [List.flatMap_append, ← sendRespMsgs_eq, List.flatMap_singleton]

/-- A board exit names one of its two modes, and the string a read of `2 ^ 31` bytes or more
falls back to ends in time. -/
structure Answerable (env : DispatchEnv ν) (s : Board ν) (cmd param1 start count : Nat) :
    Prop where
  boardExit : cmd = 0x45 → param1 = 1 ∨ param1 = 2
  diskRead : cmd = 0x52 → ∀ t, diskRead env
      (dolog env s "rx_handler: read param1=%d, first=0x%llx, count=0x%x\n" [param1, start, count])
      param1 start count = (t, 0) →
    int32 (count * 2 ^ 9) < 0 → StringFits (t.pointer transferBuffer)
  memRead : cmd = 0x72 → int32 count < 0 → StringFits (s.pointer (u32 start))

theorem Answerable.of_ne {env : DispatchEnv ν} {s : Board ν} {cmd param1 start count : Nat}
    (hexit : cmd ≠ 0x45) (hdisk : cmd ≠ 0x52) (hmem : cmd ≠ 0x72) :
    Answerable env s cmd param1 start count :=
  ⟨fun h => absurd h hexit, fun h => absurd h hdisk, fun h => absurd h hmem⟩

theorem boardExit_answered (env : DispatchEnv ν) (s : Board ν) (param1 : Nat) :
    Answered (dispatchBoardExit env s param1) ↔ param1 = 1 ∨ param1 = 2 := by
  have htext : ∀ (t : Board ν) (text : String), (ascii text).all (· != 0) = true →
      (ascii text).length < 2 ^ 31 → Answered (respond t (sendRespOk (object (ascii text)) (-1))) := by
    intro t text hnz hlen
    have hbytes : ∀ b ∈ ascii text, b ≠ 0 := fun b hb =>
      bne_iff_ne.mp (List.all_eq_true.mp hnz b hb)
    exact respond_answered.mpr
      ((sendRespOk_negative _ (by decide)).mpr (stringFits_object hbytes hlen))
  unfold dispatchBoardExit
  split
  · exact iff_of_true (htext _ _ (by rfl) (by decide)) (.inl rfl)
  · exact iff_of_true (htext _ _ (by rfl) (by decide)) (.inr rfl)
  · rename_i hfel hreset
    refine iff_of_false ?_ (fun h => h.elim hfel hreset)
    rintro ⟨t, sent, msgs, r, ⟨⟩, -, -, -, -, -, hflat⟩
    have hcount := congrArg List.length hflat
    rw [List.flatMap_append, List.length_append, List.flatMap_singleton] at hcount
    unfold Response.tx at hcount
    simp only [List.length_nil, List.length_cons] at hcount
    omega

theorem diskRead_answered (env : DispatchEnv ν) (s : Board ν) (param1 start count : Nat) :
    Answered (dispatchDiskRead env s param1 start count) ↔
      ∀ t, diskRead env (dolog env s "rx_handler: read param1=%d, first=0x%llx, count=0x%x\n"
          [param1, start, count]) param1 start count = (t, 0) →
        int32 (count * 2 ^ 9) < 0 → StringFits (t.pointer transferBuffer) := by
  unfold dispatchDiskRead
  dsimp only
  generalize diskRead env _ param1 start count = r
  obtain ⟨t, res⟩ := r
  dsimp only
  by_cases hres : res = 0
  · rw [if_pos hres, respond_answered, int32_sends, hres]
    constructor
    · rintro h _ ⟨⟩
      exact h
    · intro h
      exact h t rfl
  · rw [if_neg hres, respond_answered]
    refine iff_of_true sendRespFail_sends ?_
    rintro _ ⟨⟩
    exact absurd rfl hres

theorem diskWrite_answered (env : DispatchEnv ν) (s : Board ν) (param1 start datasize : Nat) :
    Answered (dispatchDiskWrite env s param1 start datasize) := by
  unfold dispatchDiskWrite
  dsimp only
  split
  · exact respond_answered.mpr (sendRespOk_sends _ (n := 0) (by decide))
  · exact respond_answered.mpr sendRespFail_sends

/-- Every command that is answerable is answered, and no other. -/
theorem dispatchSwitch_answered (env : DispatchEnv ν) (s : Board ν)
    (cmd param1 start count datasize : Nat) :
    Answered (dispatchSwitch env s cmd param1 start count datasize) ↔
      Answerable env s cmd param1 start count := by
  have hok : Sends (sendRespOk (fun _ => 0) 0) := sendRespOk_sends _ (n := 0) (by decide)
  by_cases hexit : cmd = 0x45
  · rw [hexit]
    change Answered (dispatchBoardExit env s param1) ↔ _
    rw [boardExit_answered]
    exact ⟨fun h => ⟨(fun _ => h), (fun h => nomatch h), (fun h => nomatch h)⟩,
      fun h => h.boardExit rfl⟩
  by_cases hdisk : cmd = 0x52
  · rw [hdisk]
    change Answered (dispatchDiskRead env s param1 start count) ↔ _
    rw [diskRead_answered]
    exact ⟨fun h => ⟨(fun h => nomatch h), (fun _ => h), (fun h => nomatch h)⟩,
      fun h => h.diskRead rfl⟩
  by_cases hmem : cmd = 0x72
  · rw [hmem]
    change Answered (respond s (sendRespOk (s.pointer (u32 start)) (int32 count))) ↔ _
    rw [respond_answered, int32_sends]
    exact ⟨fun h => ⟨(fun h => nomatch h), (fun h => nomatch h), (fun _ => h)⟩,
      fun h => h.memRead rfl⟩
  refine iff_of_true ?_ (.of_ne hexit hdisk hmem)
  unfold dispatchSwitch
  split
  · exact respond_answered.mpr (sendRespOk_sends _ (n := 72) (by decide))
  · exact absurd rfl hexit
  · exact respond_answered.mpr hok
  · have := s.logAddr_le
    exact respond_answered.mpr (sendRespOk_sends _ (by unfold logLimit logBase at *; omega))
  · exact respond_answered.mpr hok
  · exact absurd rfl hdisk
  · exact diskWrite_answered env s param1 start datasize
  · exact absurd rfl hmem
  · exact respond_answered.mpr hok
  · exact sendRespMsgs_answered _
  · exact respond_answered.mpr hok
  · dsimp only
    split
    · exact respond_answered.mpr sendRespFail_sends
    · exact respond_answered.mpr hok
  · exact respond_answered.mpr (sendRespOk_sends _ (n := 12) (by decide))
  · exact respond_answered.mpr sendRespFail_sends

end Novo7
