import Novo7.Bytes
import Novo7.CString

/-!
# Descriptors

`do_usb_req_get_descriptor` answers the host's questions what the device is. A reply is cut to the
length that is asked for, and so is the length field of each part of it: a host that asks for the
first bytes of a descriptor gets another first byte. For a configuration the length that is asked
for is kept in eight bits. `getDescriptor_prefix_iff` says which requests get a prefix of one
descriptor.
-/

namespace Novo7

open Bytes

/-! ## Cut replies -/

/-- A descriptor behind its length field. -/
abbrev DescriptorBody := List UInt8

/-- The descriptor with the length field set to what is left for it, cut to that length. -/
def clipPart (remaining : Nat) (body : DescriptorBody) : List UInt8 :=
  let bLength := min remaining (body.length + 1)
  (UInt8.ofNat bLength :: body).take bLength

/-- Parts one after the other, while something remains. -/
def clipParts : Nat → List DescriptorBody → List UInt8
  | _, [] => []
  | remaining, body :: parts =>
      clipPart remaining body ++ clipParts (remaining - min remaining (body.length + 1)) parts

/-- The parts whole. -/
def wholeParts : List DescriptorBody → List UInt8
  | [] => []
  | body :: parts => UInt8.ofNat (body.length + 1) :: body ++ wholeParts parts

/-- A length is where a part ends, or behind the last of them. -/
def EndsPart : Nat → List DescriptorBody → Prop
  | _, [] => True
  | 0, _ => True
  | n + 1, body :: parts => body.length ≤ n ∧ EndsPart (n - body.length) parts

instance : ∀ n parts, Decidable (EndsPart n parts)
  | _, [] => inferInstanceAs (Decidable True)
  | 0, _ :: _ => inferInstanceAs (Decidable True)
  | n + 1, body :: parts =>
      have := instDecidableEndsPart (n - body.length) parts
      inferInstanceAs (Decidable (_ ∧ _))

theorem clipParts_zero : ∀ parts, clipParts 0 parts = []
  | [] => rfl
  | body :: parts => by simp [clipParts, clipPart, clipParts_zero parts]

theorem clipPart_whole {body : DescriptorBody} {n : Nat} (h : body.length ≤ n) :
    clipPart (n + 1) body = UInt8.ofNat (body.length + 1) :: body := by
  rw [clipPart, Nat.min_eq_right (by omega)]
  exact List.take_of_length_le (le_refl _)

theorem wholeParts_cons_length (body : DescriptorBody) (parts : List DescriptorBody) :
    (wholeParts (body :: parts)).length = body.length + 1 + (wholeParts parts).length := by
  rw [wholeParts, List.length_append, List.length_cons]

theorem length_clipParts : ∀ n parts, (clipParts n parts).length = min n (wholeParts parts).length
  | n, [] => by simp [clipParts, wholeParts]
  | n, body :: parts => by
      rw [clipParts, List.length_append, length_clipParts, wholeParts_cons_length, clipPart,
        List.length_take, List.length_cons]
      omega

/-- A part that is cut has its length field changed; so a reply is a prefix when no part is cut. -/
theorem clipParts_prefix_iff : ∀ {n : Nat} {parts : List DescriptorBody},
    (∀ body ∈ parts, body.length < 255) →
      (clipParts n parts = (wholeParts parts).take n ↔ EndsPart n parts)
  | n, [], _ => by cases n <;> simp [clipParts, wholeParts, EndsPart]
  | 0, body :: parts, _ => by simp [clipParts_zero, EndsPart]
  | n + 1, body :: parts, hsize => by
      have hbody : body.length < 255 := hsize body (List.mem_cons_self ..)
      have ih := clipParts_prefix_iff (n := n - body.length) fun b hb =>
        hsize b (List.mem_cons_of_mem _ hb)
      rw [EndsPart]
      by_cases hwhole : body.length ≤ n
      · have hlen : (UInt8.ofNat (body.length + 1) :: body).length = body.length + 1 := rfl
        rw [clipParts, clipPart_whole hwhole, wholeParts, List.take_append, hlen,
          List.take_of_length_le (by rw [hlen]; omega), List.append_cancel_left_eq,
          Nat.min_eq_right (by omega),
          show n + 1 - (body.length + 1) = n - body.length by omega, ih]
        exact (and_iff_right hwhole).symm
      · -- the length field is the first byte, and it is sent
        refine iff_of_false (fun h => ?_) fun h => hwhole h.1
        have hhead := congrArg List.head? h
        rw [clipParts, clipPart, Nat.min_eq_left (by omega), wholeParts, List.take_succ_cons,
          List.cons_append, List.cons_append, List.take_succ_cons, List.head?_cons,
          List.head?_cons, Option.some.injEq] at hhead
        have hval := congrArg UInt8.toNat hhead
        rw [UInt8.toNat_ofNat', UInt8.toNat_ofNat', Nat.mod_eq_of_lt (by omega),
          Nat.mod_eq_of_lt (by omega)] at hval
        omega

theorem endsPart_of_le : ∀ {n : Nat} {parts : List DescriptorBody},
    (wholeParts parts).length ≤ n → EndsPart n parts
  | n, [], _ => by cases n <;> trivial
  | 0, _ :: _, _ => trivial
  | n + 1, body :: parts, h => by
      rw [wholeParts_cons_length] at h
      exact ⟨by omega, endsPart_of_le (by omega)⟩

/-! ## do_usb_req_get_descriptor -/

/-- `struct usb_device_descriptor` behind `bLength`, as the other structures. -/
structure UsbDeviceDescriptor where
  bDescriptorType : UInt8
  bcdUSB : Nat
  bDeviceClass : UInt8
  bDeviceSubClass : UInt8
  bDeviceProtocol : UInt8
  bMaxPacketSize0 : UInt8
  idVendor : Nat
  idProduct : Nat
  bcdDevice : Nat
  iManufacturer : UInt8
  iProduct : UInt8
  iSerialNumber : UInt8
  bNumConfigurations : UInt8

def UsbDeviceDescriptor.body (d : UsbDeviceDescriptor) : DescriptorBody :=
  d.bDescriptorType :: leBytes 2 d.bcdUSB ++
    [d.bDeviceClass, d.bDeviceSubClass, d.bDeviceProtocol, d.bMaxPacketSize0] ++
    leBytes 2 d.idVendor ++ leBytes 2 d.idProduct ++ leBytes 2 d.bcdDevice ++
    [d.iManufacturer, d.iProduct, d.iSerialNumber, d.bNumConfigurations]

structure UsbConfigurationDescriptor where
  bDescriptorType : UInt8
  wTotalLength : Nat
  bNumInterfaces : UInt8
  bConfigurationValue : UInt8
  iConfiguration : UInt8
  bmAttributes : UInt8
  bMaxPower : UInt8

def UsbConfigurationDescriptor.body (c : UsbConfigurationDescriptor) : DescriptorBody :=
  c.bDescriptorType :: leBytes 2 c.wTotalLength ++
    [c.bNumInterfaces, c.bConfigurationValue, c.iConfiguration, c.bmAttributes, c.bMaxPower]

structure UsbInterfaceDescriptor where
  bDescriptorType : UInt8
  bInterfaceNumber : UInt8
  bAlternateSetting : UInt8
  bNumEndpoints : UInt8
  bInterfaceClass : UInt8
  bInterfaceSubClass : UInt8
  bInterfaceProtocol : UInt8
  iInterface : UInt8

def UsbInterfaceDescriptor.body (i : UsbInterfaceDescriptor) : DescriptorBody :=
  [i.bDescriptorType, i.bInterfaceNumber, i.bAlternateSetting, i.bNumEndpoints, i.bInterfaceClass,
    i.bInterfaceSubClass, i.bInterfaceProtocol, i.iInterface]

structure UsbEndpointDescriptor where
  bDescriptorType : UInt8
  bEndpointAddress : UInt8
  bmAttributes : UInt8
  wMaxPacketSize : Nat
  bInterval : UInt8

def UsbEndpointDescriptor.body (ep : UsbEndpointDescriptor) : DescriptorBody :=
  [ep.bDescriptorType, ep.bEndpointAddress, ep.bmAttributes] ++ leBytes 2 ep.wMaxPacketSize ++
    [ep.bInterval]

structure UsbQualifierDescriptor where
  bDescriptorType : UInt8
  bcdUSB : Nat
  bDeviceClass : UInt8
  bDeviceSubClass : UInt8
  bDeviceProtocol : UInt8
  bMaxPacketSize0 : UInt8
  bNumConfigurations : UInt8
  bRESERVED : UInt8

def UsbQualifierDescriptor.body (d : UsbQualifierDescriptor) : DescriptorBody :=
  d.bDescriptorType :: leBytes 2 d.bcdUSB ++
    [d.bDeviceClass, d.bDeviceSubClass, d.bDeviceProtocol, d.bMaxPacketSize0, d.bNumConfigurations,
      d.bRESERVED]

def deviceStringProductIndex : UInt8 := 1
def deviceStringSerialNumberIndex : UInt8 := 2
def deviceStringConfigIndex : UInt8 := 3
def deviceStringInterfaceIndex : UInt8 := 4
def deviceStringManufacturerIndex : UInt8 := 5
def deviceStringMaxIndex : Nat := 5
def deviceStringLanguageId : Nat := 0x0409

/-- `device_strings`, as `usbdcomm_init` leaves it. -/
def deviceStrings : Nat → List UInt8
  | 1 => CString.text "Diskboot"
  | 2 => CString.text "20080411"
  | 3 => CString.text "DiskBoot"
  | 4 => CString.text "DiskBoot Interface"
  | 5 => CString.text "rafaello7 ;-)"
  | _ => []

def deviceDescriptor : UsbDeviceDescriptor where
  bDescriptorType := 1
  bcdUSB := 0x200
  bDeviceClass := 0
  bDeviceSubClass := 0
  bDeviceProtocol := 0
  bMaxPacketSize0 := 0x40
  idVendor := 0x0bb4
  idProduct := 0x0fff
  bcdDevice := 0x0200
  iManufacturer := deviceStringManufacturerIndex
  iProduct := deviceStringProductIndex
  iSerialNumber := deviceStringSerialNumberIndex
  bNumConfigurations := 1

/-- The sizes of the structures that `wTotalLength` is the sum of. -/
def configurationDescriptor : UsbConfigurationDescriptor where
  bDescriptorType := 2
  wTotalLength := 9 + 2 * (9 + 7 + 7)
  bNumInterfaces := 2
  bConfigurationValue := 1
  iConfiguration := deviceStringConfigIndex
  bmAttributes := 0xc0
  bMaxPower := 0x32

def interfaceDescriptor (number cls subClass protocol : UInt8) : UsbInterfaceDescriptor where
  bDescriptorType := 4
  bInterfaceNumber := number
  bAlternateSetting := 0
  bNumEndpoints := 2
  bInterfaceClass := cls
  bInterfaceSubClass := subClass
  bInterfaceProtocol := protocol
  iInterface := deviceStringInterfaceIndex

def endpointDescriptor (highspeed : Bool) (address : UInt8) : UsbEndpointDescriptor where
  bDescriptorType := 5
  bEndpointAddress := address
  bmAttributes := 2
  wMaxPacketSize := if highspeed then 512 else 64
  bInterval := 0

def qualifierDescriptor : UsbQualifierDescriptor where
  bDescriptorType := 6
  bcdUSB := 0x200
  bDeviceClass := 0xff
  bDeviceSubClass := 0xff
  bDeviceProtocol := 0xff
  bMaxPacketSize0 := 0x40
  bNumConfigurations := 1
  bRESERVED := 0

/-- The seven parts of a configuration: of each interface, the endpoint in and the one out. -/
def configurationParts (highspeed : Bool) : List DescriptorBody :=
  [configurationDescriptor.body,
    (interfaceDescriptor 0 0xff 0x42 0x03).body,
    (endpointDescriptor highspeed (0x80 ||| 1)).body,
    (endpointDescriptor highspeed 2).body,
    (interfaceDescriptor 1 0x08 0x06 0x50).body,
    (endpointDescriptor highspeed (0x80 ||| 3)).body,
    (endpointDescriptor highspeed 4).body]

def stringBody (index : Nat) : DescriptorBody :=
  if index = 0 then 3 :: leBytes 2 deviceStringLanguageId
  else 3 :: (deviceStrings index).flatMap fun c => [c, 0]

/-- The fields of `udc.req` that the reply depends on. -/
structure UsbCtrlRequest where
  bmRequestType : UInt8
  wValue : UInt16
  wLength : UInt16

def UsbCtrlRequest.descriptorType (req : UsbCtrlRequest) : Nat := req.wValue.toNat >>> 8
def UsbCtrlRequest.descriptorIndex (req : UsbCtrlRequest) : Nat := req.wValue.toNat &&& 0xff

/-- What is returned, the packet that is written, and whether the endpoint is stalled. -/
structure DescriptorReply where
  ret : Int
  sent : Option (List UInt8)
  stall : Bool

/-- `bytes_remaining` of a configuration is an `unsigned char`. -/
def doUsbReqGetDescriptor (highspeed : Bool) (req : UsbCtrlRequest) : DescriptorReply :=
  let wLength := req.wLength.toNat
  let reply (sent : List UInt8) : DescriptorReply := ⟨0, some sent, false⟩
  if wLength = 0 then ⟨0, none, false⟩
  else if req.bmRequestType ≠ 0x80 then ⟨-1, none, false⟩
  else match req.descriptorType with
  | 1 => reply (clipPart wLength deviceDescriptor.body)
  | 2 => reply (clipParts (wLength % 256) (configurationParts highspeed))
  | 3 =>
      if deviceStringMaxIndex < req.descriptorIndex then ⟨0, none, false⟩
      else reply (clipPart wLength (stringBody req.descriptorIndex))
  | 6 => reply (clipPart wLength qualifierDescriptor.body)
  | _ => ⟨-1, none, true⟩

/-! ## Which replies are prefixes -/

/-- A reply to `r` bytes is the first `w` of the whole when no part is cut and it is as long. -/
theorem clipParts_eq_take_iff {r w : Nat} {parts : List DescriptorBody}
    (hsize : ∀ body ∈ parts, body.length < 255) :
    clipParts r parts = (wholeParts parts).take w ↔
      EndsPart r parts ∧ min r (wholeParts parts).length = min w (wholeParts parts).length := by
  constructor
  · intro h
    have hlen := congrArg List.length h
    rw [length_clipParts, List.length_take] at hlen
    rw [List.take_eq_take_iff.mpr hlen.symm] at h
    exact ⟨(clipParts_prefix_iff hsize).mp h, hlen⟩
  · rintro ⟨hends, hlen⟩
    rw [(clipParts_prefix_iff hsize).mpr hends]
    exact List.take_eq_take_iff.mpr hlen

/-- The types and indices that there is a descriptor for. -/
def UsbCtrlRequest.Known (req : UsbCtrlRequest) : Prop :=
  req.descriptorType = 1 ∨ req.descriptorType = 2 ∨
    (req.descriptorType = 3 ∧ req.descriptorIndex ≤ deviceStringMaxIndex) ∨ req.descriptorType = 6

def UsbCtrlRequest.parts (highspeed : Bool) (req : UsbCtrlRequest) : List DescriptorBody :=
  match req.descriptorType with
  | 1 => [deviceDescriptor.body]
  | 2 => configurationParts highspeed
  | 3 => [stringBody req.descriptorIndex]
  | _ => [qualifierDescriptor.body]

/-- What remains at the first part. -/
def UsbCtrlRequest.remaining (req : UsbCtrlRequest) : Nat :=
  if req.descriptorType = 2 then req.wLength.toNat % 256 else req.wLength.toNat

/-- The whole descriptor is asked for, or the first parts of a configuration whole. -/
def UsbCtrlRequest.CutsNoPart (req : UsbCtrlRequest) : Prop :=
  match req.descriptorType with
  | 1 => 18 ≤ req.wLength.toNat
  | 2 => req.wLength.toNat ∈ [9, 18, 25, 32, 41, 48] ∨ 55 ≤ req.wLength.toNat % 256
  | 3 => (if req.descriptorIndex = 0 then 4
      else 2 + 2 * (deviceStrings req.descriptorIndex).length) ≤ req.wLength.toNat
  | _ => 10 ≤ req.wLength.toNat

theorem clipParts_singleton (n : Nat) (body : DescriptorBody) :
    clipParts n [body] = clipPart n body := by
  rw [clipParts, clipParts, List.append_nil]

theorem length_unicode : ∀ s : List UInt8, (s.flatMap fun c => [c, 0]).length = 2 * s.length
  | [] => rfl
  | c :: s => by
      have hcons : (c :: s).length = s.length + 1 := rfl
      rw [List.flatMap_cons, List.length_append, length_unicode s, hcons]
      show 2 + 2 * s.length = _
      omega

theorem stringBody_length (index : Nat) : (stringBody index).length + 1 =
    if index = 0 then 4 else 2 + 2 * (deviceStrings index).length := by
  rw [stringBody]
  split
  · rfl
  · rw [List.length_cons, length_unicode]
    omega

theorem deviceStrings_length : ∀ index, (deviceStrings index).length ≤ 18
  | 0 => by decide
  | 1 | 2 | 3 | 4 | 5 => by decide +kernel
  | _ + 6 => Nat.zero_le _

theorem stringBody_lt (index : Nat) : (stringBody index).length < 255 := by
  have hlen := stringBody_length index
  have := deviceStrings_length index
  split at hlen <;> omega

theorem configurationParts_length : ∀ highspeed,
    (wholeParts (configurationParts highspeed)).length = 55
  | true | false => rfl

/-- The ends of the parts of a configuration. -/
theorem endsPart_configuration : ∀ highspeed, ∀ r < 55,
    EndsPart r (configurationParts highspeed) ↔ r ∈ [0, 9, 18, 25, 32, 41, 48] := by
  decide

section Request

variable {highspeed : Bool} {req : UsbCtrlRequest}

theorem parts_lt (hknown : req.Known) :
    ∀ body ∈ req.parts highspeed, body.length < 255 := by
  rw [UsbCtrlRequest.parts]
  rcases hknown with h | h | ⟨h, -⟩ | h <;> rw [h]
  · show ∀ body ∈ [deviceDescriptor.body], body.length < 255
    decide
  · show ∀ body ∈ configurationParts highspeed, body.length < 255
    cases highspeed <;> decide
  · intro body hbody
    rw [List.mem_singleton.mp hbody]
    exact stringBody_lt _
  · show ∀ body ∈ [qualifierDescriptor.body], body.length < 255
    decide

/-- A request for a known descriptor, of the right kind, is answered with parts of it. -/
theorem sent_known (hlen : req.wLength.toNat ≠ 0) (hkind : req.bmRequestType = 0x80)
    (hknown : req.Known) : (doUsbReqGetDescriptor highspeed req).sent =
      some (clipParts req.remaining (req.parts highspeed)) := by
  rw [doUsbReqGetDescriptor, UsbCtrlRequest.remaining, UsbCtrlRequest.parts]
  simp only [if_neg hlen, hkind, ne_eq, not_true_eq_false, if_false]
  rcases hknown with h | h | ⟨h, hindex⟩ | h <;> rw [h]
  · exact congrArg some (clipParts_singleton _ _).symm
  · rfl
  · simp only [if_neg (Nat.not_lt.mpr hindex)]
    exact congrArg some (clipParts_singleton _ _).symm
  · exact congrArg some (clipParts_singleton _ _).symm

theorem sent_other_kind (hkind : req.bmRequestType ≠ 0x80) :
    (doUsbReqGetDescriptor highspeed req).sent = none := by
  rw [doUsbReqGetDescriptor]
  dsimp only
  split
  · rfl
  · rfl

/-- A part is not cut when it is sent to its end. -/
theorem endsPart_singleton {n : Nat} {body : DescriptorBody} (hn : 0 < n) :
    EndsPart n [body] ↔ body.length + 1 ≤ n := by
  cases n with
  | zero => exact absurd hn (Nat.lt_irrefl 0)
  | succ n =>
      constructor
      · intro h
        exact Nat.succ_le_succ h.1
      · intro h
        exact ⟨Nat.le_of_succ_le_succ h, by cases n - body.length <;> trivial⟩

/-- For which lengths the reply is as long as it should be, with no part cut. -/
theorem cutsNoPart_iff (hlen : 0 < req.wLength.toNat) (hknown : req.Known) :
    (EndsPart req.remaining (req.parts highspeed) ∧
      min req.remaining (wholeParts (req.parts highspeed)).length =
        min req.wLength.toNat (wholeParts (req.parts highspeed)).length) ↔ req.CutsNoPart := by
  rw [UsbCtrlRequest.remaining, UsbCtrlRequest.parts, UsbCtrlRequest.CutsNoPart]
  generalize req.wLength.toNat = w at hlen ⊢
  rcases hknown with h | h | ⟨h, -⟩ | h <;> rw [h]
  · simp only [show ¬ (1 : Nat) = 2 by decide, if_false, and_true]
    exact endsPart_singleton hlen
  · simp only [if_true]
    rw [configurationParts_length]
    by_cases hlong : 55 ≤ w % 256
    · have hends : EndsPart (w % 256) (configurationParts highspeed) :=
        endsPart_of_le (by rw [configurationParts_length]; exact hlong)
      have hmod : w % 256 ≤ w := Nat.mod_le w 256
      exact iff_of_true ⟨hends, by omega⟩ (Or.inr hlong)
    · rw [endsPart_configuration highspeed (w % 256) (by omega)]
      simp only [List.mem_cons, List.not_mem_nil, or_false]
      omega
  · simp only [show ¬ (3 : Nat) = 2 by decide, if_false, and_true]
    rw [endsPart_singleton hlen, stringBody_length]
  · simp only [show ¬ (6 : Nat) = 2 by decide, if_false, and_true]
    exact endsPart_singleton hlen

theorem wholeParts_lt (hknown : req.Known) : (wholeParts (req.parts highspeed)).length < 255 := by
  rw [UsbCtrlRequest.parts]
  rcases hknown with h | h | ⟨h, -⟩ | h <;> rw [h]
  · show (wholeParts [deviceDescriptor.body]).length < 255
    decide
  · show (wholeParts (configurationParts highspeed)).length < 255
    rw [configurationParts_length]
    decide
  · show (wholeParts [stringBody req.descriptorIndex]).length < 255
    have hlen := stringBody_length req.descriptorIndex
    have := deviceStrings_length req.descriptorIndex
    rw [wholeParts_cons_length, wholeParts, List.length_nil, hlen]
    split <;> omega
  · show (wholeParts [qualifierDescriptor.body]).length < 255
    decide

/-- The descriptor that 255 bytes are asked of is whole in the reply. -/
theorem descriptor_eq (hknown : req.Known) {d : List UInt8}
    (hd : (doUsbReqGetDescriptor highspeed ⟨0x80, req.wValue, 255⟩).sent = some (d.take 255)) :
    d = wholeParts (req.parts highspeed) := by
  have hknown' : UsbCtrlRequest.Known ⟨0x80, req.wValue, 255⟩ := hknown
  have hsent := @sent_known highspeed ⟨0x80, req.wValue, 255⟩
    (show (255 : UInt16).toNat ≠ 0 by decide) rfl hknown'
  have hremaining : UsbCtrlRequest.remaining ⟨0x80, req.wValue, 255⟩ = 255 := ite_self _
  have hlen := @wholeParts_lt highspeed req hknown
  rw [hremaining, (clipParts_eq_take_iff (w := 255) (parts_lt hknown')).mpr
    ⟨endsPart_of_le (le_of_lt hlen), rfl⟩, hd, Option.some.injEq] at hsent
  have hparts : d.take 255 = wholeParts (req.parts highspeed) :=
    hsent.trans (List.take_of_length_le (le_of_lt hlen))
  have hshort := congrArg List.length hparts
  rw [List.length_take] at hshort
  rwa [List.take_of_length_le (by omega)] at hparts

end Request

/-- A reply is a prefix of the descriptor, and a configuration has its own length, exactly when the
request is one of the standard kind and cuts no part. -/
theorem getDescriptor_prefix_iff (highspeed : Bool) (req : UsbCtrlRequest)
    (hlen : 0 < req.wLength.toNat) (hknown : req.Known) (d : List UInt8)
    (hd : (doUsbReqGetDescriptor highspeed ⟨0x80, req.wValue, 255⟩).sent = some (d.take 255)) :
    ((doUsbReqGetDescriptor highspeed req).sent = some (d.take (min req.wLength.toNat d.length)) ∧
        (req.descriptorType = 2 → d.length = field d 2 2)) ↔
      req.bmRequestType = 0x80 ∧ req.CutsNoPart := by
  have hd := descriptor_eq hknown hd
  subst hd
  have htotal : req.descriptorType = 2 → (wholeParts (req.parts highspeed)).length =
      field (wholeParts (req.parts highspeed)) 2 2 := by
    intro h
    rw [UsbCtrlRequest.parts, h]
    show (wholeParts (configurationParts highspeed)).length =
      field (wholeParts (configurationParts highspeed)) 2 2
    cases highspeed <;> decide
  rw [and_iff_left htotal]
  by_cases hkind : req.bmRequestType = 0x80
  · rw [sent_known (by omega) hkind hknown, Option.some.injEq, and_iff_right hkind,
      clipParts_eq_take_iff (parts_lt hknown), Nat.min_assoc, Nat.min_self]
    exact cutsNoPart_iff hlen hknown
  · rw [sent_other_kind hkind]
    exact iff_of_false (fun h => by cases h) fun h => hkind h.1

/-- The first request of a host, for the header of the configuration. -/
theorem getDescriptor_prefix_iff_header :
    ((doUsbReqGetDescriptor true ⟨0x80, 0x200, 9⟩).sent =
        some ((wholeParts (configurationParts true)).take
          (min (9 : UInt16).toNat (wholeParts (configurationParts true)).length)) ∧
      (UsbCtrlRequest.descriptorType ⟨0x80, 0x200, 9⟩ = 2 →
        (wholeParts (configurationParts true)).length =
          field (wholeParts (configurationParts true)) 2 2)) ↔
      (0x80 : UInt8) = 0x80 ∧ UsbCtrlRequest.CutsNoPart ⟨0x80, 0x200, 9⟩ :=
  getDescriptor_prefix_iff true ⟨0x80, 0x200, 9⟩ (by decide) (Or.inr (Or.inl rfl))
    (wholeParts (configurationParts true)) (by decide +kernel)

/-- No descriptor begins with the replies to eight bytes of the device descriptor and to all. -/
theorem deviceDescriptor_no_prefix : ¬ ∃ d : List UInt8, ∀ wLength : UInt16, 0 < wLength.toNat →
    (doUsbReqGetDescriptor true ⟨0x80, 0x100, wLength⟩).sent =
      some (d.take (min wLength.toNat d.length)) := by
  rintro ⟨d, hd⟩
  have hcut := hd 8 (by decide)
  have hwhole := hd 18 (by decide)
  have hcut0 : (doUsbReqGetDescriptor true ⟨0x80, 0x100, 8⟩).sent.bind List.head? = some 8 := by
    decide +kernel
  have hwhole0 : (doUsbReqGetDescriptor true ⟨0x80, 0x100, 18⟩).sent.bind List.head? = some 18 := by
    decide +kernel
  rw [hcut] at hcut0
  rw [hwhole] at hwhole0
  cases d with
  | nil => simp at hcut0
  | cons b d =>
      simp only [Option.bind_some, List.length_cons, List.head?_take] at hcut0 hwhole0
      have : (8 : UInt16).toNat = 8 := rfl
      have : (18 : UInt16).toNat = 18 := rfl
      split at hcut0
      · simp at hcut0
      · split at hwhole0
        · simp at hwhole0
        · rw [hcut0] at hwhole0
          exact absurd hwhole0 (by decide)

end Novo7
