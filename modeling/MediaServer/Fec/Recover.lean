import MediaServer.Fec.BitStream
import MediaServer.Fec.Decoder

/-! `FECDecoder::Recover`: a lost packet is rebuilt from a recovery code and the other packets
that the code protects.
-/

namespace MediaServer.Fec

open Foundation Rtp

/-- What the decoder stands on besides the toolkit: the codec numbers of redundant packets and
recovery codes, what a shift of 64 bits by 64 or more gives, and the time of a new packet.
-/
structure Platform where
  medkit : Medkit64
  red : DWORD
  ulpfec : DWORD
  wideShift : QWORD → Nat → QWORD
  now : QWORD

/-- How `Recover` can fail: a bit stream throws, or the rebuilt packet has a payload type that
is the codec number of a redundant packet or of a recovery code, and `AddPacket` takes it for one.
-/
inductive Failure
  | bits (error : BitError)
  | mistaken

namespace FECDecoder

/-- The numbers between two packets. -/
def between (last cur : Nat) : List Nat :=
  List.range' ((last + 1) % 4294967296) (cur - (last + 1) % 4294967296)

/-- The presence bits from the packet behind `last` on, and the lost numbers. -/
def scan (last : Nat) : List Nat → List Bool × List Nat
  | [] => ([], [])
  | cur :: rest =>
    let (bits, losts) := scan cur rest
    ((between last cur).map (fun _ => false) ++ true :: bits, between last cur ++ losts)

variable (platform : Platform)

def lostMask (bits : List Bool) : Except BitError QWORD :=
  (((BitWritter.new 8).putBits platform.medkit bits) >>= BitWritter.flush platform.medkit).map
    (fun writer => platform.medkit.get8
      (writer.written ++ List.replicate (8 - writer.written.length) 0))

def shiftLeft (mask : QWORD) (count : Nat) : QWORD :=
  if count < 64 then mask <<< .ofNat count else platform.wideShift mask count

/-- The mask of a code without the lost packet. -/
def neededMask (fec : FECData) (seq : Nat) : QWORD :=
  let diff := (seq + (4294967296 - fec.getBaseExtSeq platform.medkit)) % 4294967296
  fec.getLevel0Mask platform.medkit &&& ~~~((1 : QWORD) <<< .ofNat (64 - diff - 1))

def canRecover (lostMask : QWORD) (minSeq seq : Nat) (fec : FECData) : Bool :=
  let medkit : Medkit := platform.medkit
  let mediaMask := shiftLeft platform lostMask
    ((fec.getBaseExtSeq medkit + (4294967296 - minSeq)) % 4294967296)
  fec.isProtectedAtLevel0 medkit seq
  && neededMask platform fec seq &&& mediaMask = neededMask platform fec seq

/-- The attributes and the data that are put together. -/
structure Recovered where
  p : Bool
  x : Bool
  cc : BYTE
  m : Bool
  pt : BYTE
  ts : DWORD
  l : WORD
  data : List BYTE

def xorInto : List BYTE → List BYTE → List BYTE
  | byte :: bytes, old :: rest => (old ^^^ byte) :: xorInto bytes rest
  | _, buffer => buffer

/-- What the code itself gives, in a buffer of `MTU` bytes. -/
def recovery (medkit : Medkit) (fec : FECData) : Recovered where
  p := fec.getRecoveryP
  x := fec.getRecoveryX
  cc := fec.getRecoveryCC
  m := fec.getRecoveryM
  pt := fec.getRecoveryType
  ts := fec.getRecoveryTimestamp medkit
  l := fec.getRecoveryLength medkit
  data :=
    fec.getLevel0Data.take (fec.getLevel0Size medkit)
      ++ List.replicate (mtu - fec.getLevel0Size medkit) 0

def Recovered.remove (level0Size : Nat) (media : RTPMediaPacket) (recovered : Recovered)
    : Recovered where
  p := recovered.p ^^ media.p
  x := recovered.x ^^ media.x
  cc := recovered.cc ^^^ media.cc
  m := recovered.m ^^ media.mark
  pt := recovered.pt ^^^ media.type
  ts := recovered.ts ^^^ media.timestamp
  l := recovered.l ^^^ .ofNat media.payload.length
  data := xorInto (media.payload.take (min media.payload.length level0Size)) recovered.data

/-- The body of the loop over the mask. Packets that are not there are left out. -/
def removeAt (medkit : Medkit) (decoder : FECDecoder) (fec : FECData) (pos : Nat)
    (recovered : Recovered) : Recovered :=
  match decoder.medias.find? (fec.getBaseExtSeq medkit + pos) with
  | none => recovered
  | some media => recovered.remove (fec.getLevel0Size medkit) media

theorem getLevel0Size_le (medkit : Medkit) (fec : FECData)
    : fec.getLevel0Size medkit ≤ mtu - 14 := by
  have size := fec.size
  have offset : 14 ≤ fec.getLevel0Offset := by
    unfold FECData.getLevel0Offset
    split_ifs <;> decide
  rw [FECData.getLevel0Size]
  omega

def rebuilt (fec : FECData) (ssrc : DWORD) (seq : Nat) (recovered : Recovered)
    : RTPMediaPacket where
  seqNum := .ofNat seq
  cycles := 0
  ssrc := ssrc
  timestamp := recovered.ts
  codec := recovered.pt.toUInt32
  clockRate := 90000
  time := platform.now
  p := recovered.p
  x := recovered.x
  mark := recovered.m
  type := recovered.pt &&& 0x7F
  payload :=
    recovered.data.take (min recovered.l.toNat (fec.getLevel0Size platform.medkit))
  fits := by
    have size := getLevel0Size_le platform.medkit fec
    have small : mtu - 14 ≤ maxMediaLength := by decide
    rw [List.length_take]
    omega

/-- The loop over the mask. -/
def removeAll (decoder : FECDecoder) (seq : Nat) (fec : FECData) : Except BitError Recovered :=
  BitReader.forEachSet platform.medkit (removeAt platform.medkit decoder fec) 64
    (.new (platform.medkit.set8 (neededMask platform fec seq))) (recovery platform.medkit fec)

def rebuild (decoder : FECDecoder) (ssrc : DWORD) (seq : Nat) (fec : FECData)
    : Except Failure (FECDecoder × Option RTPMediaPacket) :=
  match removeAll platform decoder seq fec with
  | .error error => .error (.bits error)
  | .ok recovered =>
    let packet := rebuilt platform fec ssrc seq recovered
    if packet.codec = platform.red ∨ packet.codec = platform.ulpfec then .error .mistaken
    else .ok ((decoder.addPacket platform.medkit (.media packet)).1, some packet)

def findCode (decoder : FECDecoder) (lostMask : QWORD) (minSeq : Nat) (losts : List Nat)
    : Option (Nat × FECData) :=
  losts.findSome? (fun seq =>
    (decoder.codes.entries.find?
      (fun entry => canRecover platform lostMask minSeq seq entry.2)).map
      (fun entry => (seq, entry.2)))

def recover (decoder : FECDecoder) : Except Failure (FECDecoder × Option RTPMediaPacket) :=
  match decoder.medias.entries with
  | [] => .ok (decoder, none)
  | (_, first) :: _ =>
    let minSeq := first.getExtSeqNum
    let (bits, losts) := scan minSeq decoder.medias.keys
    match lostMask platform bits with
    | .error error => .error (.bits error)
    | .ok mask =>
      match findCode platform decoder mask minSeq losts with
      | none => .ok (decoder, none)
      | some (seq, fec) => decoder.rebuild platform first.ssrc seq fec

end FECDecoder

end MediaServer.Fec
