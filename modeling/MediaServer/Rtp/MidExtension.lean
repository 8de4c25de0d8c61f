import MediaServer.Medkit
import MediaServer.Rtp.ReceivingMaps

/-! The MID of a datagram: the raw bytes are searched for it to find the section of a packet, and
the packet that is built from them records it again.
-/

namespace MediaServer.Rtp

open List Option

/-! The fields of the header, in the bytes of a datagram. -/

namespace Datagram

variable (data : List BYTE)

def version : BYTE := data.getD 0 0 >>> 6

def p : Bool := data.getD 0 0 &&& 0x20 ≠ 0

def x : Bool := data.getD 0 0 &&& 0x10 ≠ 0

def cc : Nat := (data.getD 0 0 &&& 0x0F).toNat

def type : BYTE := data.getD 1 0 &&& 0x7F

/-- `ntohs` of the two bytes at a position. -/
def ntohs (pos : Nat) : Nat := (data.getD pos 0).toNat * 256 + (data.getD (pos + 1) 0).toNat

def ssrc : DWORD := .ofNat (ntohs data 8 * 65536 + ntohs data 10)

def extensionHeader : Nat := 12 + 4 * cc data

def getExtensionType : Nat := ntohs data (extensionHeader data)

def getExtensionLength : Nat := if x data then ntohs data (extensionHeader data + 2) * 4 else 0

def getExtensionSize : Nat := if x data then getExtensionLength data + 4 else 0

def getExtensionData : List BYTE :=
  (data.drop (extensionHeader data + 4)).take (getExtensionLength data)

def setData : Bool :=
  if data.length > 1700 ∨ data.length < 12 then false
  else if x data ∧ extensionHeader data + 4 > data.length then false
  else
    let headerLen := extensionHeader data + getExtensionSize data
    if headerLen > data.length then false
    else if p data then
      let pad := (data.getD (data.length - 1) 0).toNat
      !(pad = 0 || pad > data.length - headerLen)
    else true

/-! The two readers. -/

/-- The loop of `ReadMid` over the bytes that are left of the extension. -/
def readElements (id : BYTE) : List BYTE → Option (List BYTE)
  | [] => none
  | header :: rest =>
    if header = 0 then readElements id rest
    else
      let n := (header &&& 0x0F).toNat + 1
      if n > rest.length then none
      else if header >>> 4 = id then some (rest.take n)
      else readElements id (rest.drop n)
termination_by bytes => bytes.length
decreasing_by all_goals simp only [length_cons, length_drop]; omega

def readMid (medkit : Medkit) (id : BYTE) : Option (List BYTE) :=
  let get2 := fun pos => (medkit.get2 (data.getD pos 0) (data.getD (pos + 1) 0)).toNat
  if ¬ (data.length ≥ 12 ∧ version data = 2) then none
  else if ¬ x data then none
  else
    let pos := 12 + cc data * 4
    if pos + 4 > data.length ∨ get2 pos ≠ 0xBEDE then none
    else
      let length := get2 (pos + 2) * 4
      let pos := pos + 4
      if pos + length > data.length then none
      else readElements id ((data.drop pos).take length)

def midExtension : BYTE := 5

/-- The loop of `ProcessExtensions`, as far as it records a MID. -/
def processElements (extMap : RTPMap) (mid : Option (List BYTE)) : List BYTE → Option (List BYTE)
  | [] => mid
  | header :: rest =>
    if header = 0 then processElements extMap mid rest
    else
      let id := header >>> 4
      let n := (header &&& 0x0F).toNat + 1
      if n > rest.length then mid
      else if extMap.getCodecForType id = midExtension then
        processElements extMap (some (rest.take n)) (rest.drop n)
      else processElements extMap mid (rest.drop n)
termination_by bytes => bytes.length
decreasing_by all_goals simp only [length_cons, length_drop]; omega

def processExtensions (extMap : RTPMap) : Option (List BYTE) :=
  if x data ∧ getExtensionType data = 0xBEDE then
    processElements extMap none (getExtensionData data)
  else none

/-- `GetMid` returns the recorded bytes as a C string. -/
def getMid (mid : List BYTE) : List BYTE := mid.takeWhile (· ≠ 0)

/-! The elements that both readers go through. -/

/-- The ids and the data of the elements, up to one that does not fit. -/
def elements : List BYTE → List (BYTE × List BYTE)
  | [] => []
  | header :: rest =>
    if header = 0 then elements rest
    else
      let n := (header &&& 0x0F).toNat + 1
      if n > rest.length then []
      else (header >>> 4, rest.take n) :: elements (rest.drop n)
termination_by bytes => bytes.length
decreasing_by all_goals simp only [length_cons, length_drop]; omega

theorem readElements_eq (id : BYTE) (bytes : List BYTE)
    : readElements id bytes
      = ((elements bytes).find? (fun element => element.1 = id)).map Prod.snd := by
  fun_induction elements bytes with
  | case1 => rw [readElements, find?_nil, map_none]
  | case2 rest ih => rw [readElements, if_pos rfl, ih]
  | case3 header rest some n long =>
    rw [readElements, if_neg some, if_pos long, find?_nil, map_none]
  | case4 header rest some n fits ih =>
    rw [readElements, if_neg some, if_neg fits, find?_cons]
    split_ifs with same
    · simp only [same, decide_true, map_some]
      rfl
    · simp only [same, decide_false]
      exact ih

def mids (extMap : RTPMap) (bytes : List BYTE) : List (BYTE × List BYTE) :=
  (elements bytes).filter (fun element => extMap.getCodecForType element.1 = midExtension)

theorem processElements_eq (extMap : RTPMap) (mid : Option (List BYTE)) (bytes : List BYTE)
    : processElements extMap mid bytes
      = ((mids extMap bytes).getLast?.map Prod.snd).or mid := by
  unfold mids
  fun_induction elements bytes generalizing mid with
  | case1 =>
    rw [processElements, filter_nil, getLast?_nil, map_none, none_or]
  | case2 rest ih => rw [processElements, if_pos rfl, ih]
  | case3 header rest some n long =>
    rw [processElements, if_neg some, if_pos long, filter_nil, getLast?_nil,
      map_none, none_or]
  | case4 header rest some n fits ih =>
    rw [processElements, if_neg some, if_neg fits, filter_cons]
    split_ifs with mapped also also
    · rw [ih, getLast?_cons]
      cases ((elements (rest.drop n)).filter _).getLast? with
      | none | some last => rfl
    · simp [mapped] at also
    · simp [mapped] at also
    · exact ih mid

def midElements (extMap : RTPMap) : List (BYTE × List BYTE) :=
  if x data ∧ getExtensionType data = 0xBEDE then mids extMap (getExtensionData data) else []

variable {data} {extMap : RTPMap} {id : BYTE} {medkit : Medkit}

theorem processExtensions_eq
    : processExtensions data extMap = (midElements data extMap).getLast?.map Prod.snd := by
  rw [processExtensions, midElements]
  split_ifs
  · rw [processElements_eq, or_none]
  · rfl

/-- What the header announces is there. -/
theorem header_fits (accepted : setData data = true)
    : 12 ≤ data.length
      ∧ (x data = true
        → extensionHeader data + 4 + getExtensionLength data ≤ data.length) := by
  simp only [setData] at accepted
  split_ifs at accepted with size header whole
  all_goals
    refine ⟨by omega, fun isX => ?_⟩
    simp only [getExtensionSize, isX, if_true] at whole
    omega

/-- The elements that are searched hold all those with the id. -/
theorem find?_mids (configured : extMap.getCodecForType id = midExtension) (bytes : List BYTE)
    : (mids extMap bytes).find? (fun element => element.1 = id)
      = (elements bytes).find? (fun element => element.1 = id) := by
  rw [mids, find?_filter]
  congr 1
  funext element
  by_cases same : element.1 = id
  · simp [same, configured]
  · simp [same]

theorem readMid_eq (order : medkit.NetworkOrder) (accepted : setData data = true)
    (configured : extMap.getCodecForType id = midExtension)
    : readMid data medkit id
      = if version data = 2 then
          ((midElements data extMap).find? (fun element => element.1 = id)).map Prod.snd
        else none := by
  obtain ⟨size, fits⟩ := header_fits accepted
  simp only [readMid, order.get2_eq, midElements, Nat.mul_comm (cc data) 4]
  change (if _ then _ else if _ then _ else
    if extensionHeader data + 4 > data.length ∨ getExtensionType data ≠ 0xBEDE then _ else _) = _
  by_cases isRtp : version data = 2
  · cases isX : x data with
    | false => simp [isRtp, size]
    | true =>
      have whole := fits isX
      have length : ntohs data (extensionHeader data + 2) * 4 = getExtensionLength data := by
        rw [getExtensionLength, if_pos isX]
      by_cases profile : getExtensionType data = 0xBEDE
      · simp only [isRtp, size, profile, if_true, and_self, not_true, if_false, ne_eq, or_false,
          find?_mids configured, ← readElements_eq]
        rw [if_neg (by omega), getExtensionData, ← length]
        rw [← length] at whole
        exact if_neg (Nat.not_lt.mpr whole)
      · simp [isRtp, size, profile]
  · simp [isRtp]

/-- Both readers find the same MID in a datagram that was taken, exactly if it has none or if its
version is 2 and the first element with the id is, as a C string, the last one that is mapped to the
MID.
-/
theorem mid_readers_agree_iff (order : medkit.NetworkOrder) (accepted : setData data = true)
    (configured : extMap.getCodecForType id = midExtension)
    : readMid data medkit id = (processExtensions data extMap).map getMid
      ↔ midElements data extMap = []
        ∨ version data = 2
          ∧ ∃ first ∈ (midElements data extMap).find? (fun element => element.1 = id),
            ∃ last ∈ (midElements data extMap).getLast?, first.2 = getMid last.2 := by
  rw [readMid_eq order accepted configured, processExtensions_eq]
  generalize midElements data extMap = found
  rcases found.eq_nil_or_concat with rfl | ⟨front, last, rfl⟩
  · simp
  · simp only [concat_eq_append, getLast?_append, getLast?_singleton]
    split_ifs with isRtp
    · simp [isRtp, map_eq_some_iff]
    · simp [isRtp]

/-- A packet with the MID "a". -/
theorem mid_readers_agree_once
    : let data := [0x90, 0, 0, 0, 0, 0, 0, 0, 0, 0, 0, 1, 0xBE, 0xDE, 0, 1, 0x30, 97, 0, 0]
      readMid data .bigEndian 3
        = (processExtensions data (.insert .empty 3 midExtension)).map getMid :=
  (mid_readers_agree_iff Medkit.bigEndian_networkOrder (by decide) (by decide)).mpr
    (.inr ⟨by decide, (3, [97]), by decide +kernel, (3, [97]), by decide +kernel, by decide⟩)

/-- With two elements the raw bytes give the first one and the packet has the second one, with a
version other than 2 only the packet has a MID, and a zero byte ends the MID of the packet.
-/
theorem mid_readers_differ
    : let extMap : RTPMap := .insert .empty 3 midExtension
      let read := fun data =>
        (setData data, readMid data .bigEndian 3, (processExtensions data extMap).map getMid)
      let block := fun first elements =>
        [first, 0, 0, 0, 0, 0, 0, 0, 0, 0, 0, 1, 0xBE, 0xDE, 0, 1] ++ elements
      read (block 0x90 [0x30, 97, 0x30, 98]) = (true, some [97], some [98])
        ∧ read (block 0x10 [0x30, 97, 0, 0]) = (true, none, some [97])
        ∧ read (block 0x90 [0x31, 97, 0, 0]) = (true, some [97, 0], some [97]) := by
  decide +kernel

end Datagram

end MediaServer.Rtp
