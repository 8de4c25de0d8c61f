import Mathlib.Data.List.Lex
import MediaServer.Foundation.Loops
import MediaServer.Foundation.OrderedMap
import MediaServer.Rtp.Packet

/-! AMF0 values as they are read from a byte stream. A value keeps what it has read so far, so
that its reading can stop at any byte and go on with the next segment.
-/

namespace MediaServer.Amf

open Foundation

inductive ValueType
  | number
  | boolean
  | string
  | object
  | movieClip
  | null
  | undefined
  | ecmaArray
  | strictArray
  | date
  | longString
  | unsupported
  | recordSet
  | xmlDocument
  deriving DecidableEq

/-- How a reading fails: an exception is thrown, for a value of another type than the one that
was expected or for another reason, or the program goes wrong.
-/
inductive Failure
  | exception
  | castException (expected provided : ValueType)
  | crash
  deriving DecidableEq

/-- `std::wstring`. -/
abbrev WString := List Nat

/-! Numbers and texts. -/

/-- A word that is read byte by byte, its highest byte first. -/
structure WordParser where
  len : Nat
  value : Nat
  deriving DecidableEq

namespace WordParser

def take (word : WordParser) (byte : BYTE) : WordParser where
  len := word.len - 1
  value := word.value ||| byte.toNat <<< (8 * (word.len - 1))

def parse : WordParser → List BYTE → WordParser × List BYTE
  | word, [] => (word, [])
  | word, byte :: rest =>
    if word.len ≠ 0 then parse (word.take byte) rest else (word, byte :: rest)

def isParsed (word : WordParser) : Bool := word.len = 0

end WordParser

def U16Parser : WordParser := ⟨2, 0⟩
def U32Parser : WordParser := ⟨4, 0⟩
def AMFNumber : WordParser := ⟨8, 0⟩

/-- `UTF8Parser` of the media toolkit, by the calls it got since its last reset: the size that it
was told, and the buffers that it was given.
-/
structure UTF8Parser where
  size : Option Nat
  given : List (List BYTE)
  deriving DecidableEq

/-- What the toolkit makes of such calls: how many bytes `Parse` takes of one more buffer, whether
the text is complete, and the text.
-/
structure TextToolkit where
  takes : UTF8Parser → List BYTE → Nat
  isParsed : UTF8Parser → Bool
  getWString : UTF8Parser → WString

namespace UTF8Parser

def new : UTF8Parser := ⟨none, []⟩

def setSize (text : UTF8Parser) (size : Nat) : UTF8Parser := { text with size := some size }

def parse (toolkit : TextToolkit) (text : UTF8Parser) (buffer : List BYTE)
    : UTF8Parser × List BYTE :=
  ({ text with given := text.given ++ [buffer] }, buffer.drop (toolkit.takes text buffer))

end UTF8Parser

/-- A text with its size in front of it, of two bytes for `AMFString` and of four bytes for
`AMFLongString`.
-/
structure SizedText where
  size : WordParser
  utf8parser : UTF8Parser
  deriving DecidableEq

namespace SizedText

variable (toolkit : TextToolkit) (text : SizedText)

def parseSize (buffer : List BYTE) : SizedText × List BYTE :=
  if text.size.isParsed then (text, buffer)
  else
    let (size, rest) := text.size.parse buffer
    if size.isParsed then (⟨size, text.utf8parser.setSize size.value⟩, rest)
    else (⟨size, text.utf8parser⟩, rest)

def parse (buffer : List BYTE) : SizedText × List BYTE :=
  let (text, buffer) := text.parseSize buffer
  if buffer.isEmpty then (text, buffer)
  else
    let (utf8parser, rest) := text.utf8parser.parse toolkit buffer
    ({ text with utf8parser := utf8parser }, rest)

def isParsed : Bool := toolkit.isParsed text.utf8parser

end SizedText

def AMFString : SizedText := ⟨U16Parser, .new⟩
def AMFLongString : SizedText := ⟨U32Parser, .new⟩

/-- `AMFDate`: the number of bytes that count as read, and the time. -/
structure AMFDate where
  len : Nat
  value : List BYTE
  deriving DecidableEq

/-- Eight bytes are the time. The two that follow it are counted once there is one more byte, but
none of them is taken.
-/
def AMFDate.parse : AMFDate → List BYTE → AMFDate × List BYTE
  | date, [] => (date, [])
  | date, byte :: rest =>
    if date.len < 8 then parse ⟨date.len + 1, date.value ++ [byte]⟩ rest
    else ({ date with len := max date.len 10 }, byte :: rest)

/-! Objects and arrays. -/

section Composite

variable {V : Type}

/-- `AMFObject`: names with values, the name that is being read, and the value that is open. -/
structure AMFObject (V : Type) where
  key : SizedText
  marker : Bool
  properties : List (WString × V)
  propertiesOrder : List WString
  parser : Option V

/-- `AMFEcmaArray`: a number, and properties that are read like those of an object. The array
does not look at their order.
-/
structure AMFEcmaArray (V : Type) where
  num : WordParser
  elements : AMFObject V

/-- `AMFStrictArray`. `cur` is the highest word until the number of elements is known. -/
structure AMFStrictArray (V : Type) where
  num : WordParser
  cur : Nat
  elements : List V
  parser : Option V

/-- `AMFParser::Parse` on the value that is open or on a new one. -/
abbrev ValueReader (V : Type) := Option V → List BYTE → Except Failure (V × List BYTE)

def objectEndMarker : BYTE := 9

namespace AMFObject

def new : AMFObject V := ⟨AMFString, false, [], [], none⟩

variable (toolkit : TextToolkit)

def addProperty (object : AMFObject V) (value : V) : AMFObject V :=
  let name := toolkit.getWString object.key.utf8parser
  { object with
    key := AMFString,
    properties := OrderedMap.insertEntry name value object.properties,
    propertiesOrder := object.propertiesOrder ++ [name],
    parser := none }

/-- What a turn does with a value that was read as far as the buffer goes. -/
def store (parsed : V → Bool) (object : AMFObject V) (read : V × List BYTE)
    : Pass (AMFObject V) BYTE :=
  if parsed read.1 then ⟨object.addProperty toolkit read.1, read.2, true⟩
  else ⟨{ object with parser := some read.1 }, read.2, true⟩

def turn (parsed : V → Bool) (inner : ValueReader V) (object : AMFObject V) (buffer : List BYTE)
    : Except Failure (Pass (AMFObject V) BYTE) :=
  if ¬ object.key.isParsed toolkit then
    let (key, rest) := object.key.parse toolkit buffer
    .ok ⟨{ object with key := key }, rest, true⟩
  else if object.key.size.value = 0 then
    match buffer with
    | [] => .error .crash
    | byte :: rest =>
      if byte = objectEndMarker then .ok ⟨{ object with marker := true }, rest, false⟩
      else .error .exception
  else
    (inner object.parser buffer).map (object.store toolkit parsed)

/-- The turns that can go on without a byte: a value becomes complete, then a name. -/
def rank (object : AMFObject V) : Nat :=
  if object.parser.isSome then 2
  else if object.key.isParsed toolkit then 0
  else 1

def loop (parsed : V → Bool) (inner : ValueReader V) : Loop (AMFObject V) BYTE Failure where
  turn := turn toolkit parsed inner
  rank := rank toolkit
  pace := 3
  stuck _ := .crash

end AMFObject

namespace AMFEcmaArray

def new : AMFEcmaArray V := ⟨U32Parser, .new⟩

def isParsed (array : AMFEcmaArray V) : Bool := array.num.isParsed && array.elements.marker

def turn (toolkit : TextToolkit) (parsed : V → Bool) (inner : ValueReader V)
    (array : AMFEcmaArray V) (buffer : List BYTE)
    : Except Failure (Pass (AMFEcmaArray V) BYTE) :=
  if ¬ array.num.isParsed then
    let (num, rest) := array.num.parse buffer
    .ok ⟨{ array with num := num }, rest, true⟩
  else
    (array.elements.turn toolkit parsed inner buffer).map
      (fun pass => ⟨{ array with elements := pass.state }, pass.rest, pass.again⟩)

def loop (toolkit : TextToolkit) (parsed : V → Bool) (inner : ValueReader V)
    : Loop (AMFEcmaArray V) BYTE Failure where
  turn := turn toolkit parsed inner
  rank array := array.elements.rank toolkit
  pace := 3
  stuck _ := .crash

end AMFEcmaArray

namespace AMFStrictArray

def new : AMFStrictArray V := ⟨U32Parser, 0xFFFFFFFF, [], none⟩

def isParsed (array : AMFStrictArray V) : Bool := array.cur = array.num.value

/-- The number of elements, and the place of the first one once the number is known. -/
def count (array : AMFStrictArray V) (num : WordParser) : AMFStrictArray V :=
  { array with num := num, cur := if num.isParsed then 0 else array.cur }

/-- The array was allocated for `num` elements: a further one is written behind its end. -/
def store (parsed : V → Bool) (array : AMFStrictArray V) (read : V × List BYTE)
    : Except Failure (Pass (AMFStrictArray V) BYTE) :=
  if parsed read.1 then
    if array.cur < array.num.value then
      .ok ⟨{ array with
          elements := array.elements ++ [read.1], cur := array.cur + 1, parser := none },
        read.2, array.cur + 1 ≠ array.num.value⟩
    else .error .crash
  else .ok ⟨{ array with parser := some read.1 }, read.2, true⟩

def turn (parsed : V → Bool) (inner : ValueReader V) (array : AMFStrictArray V)
    (buffer : List BYTE) : Except Failure (Pass (AMFStrictArray V) BYTE) :=
  if ¬ array.num.isParsed then
    let (num, rest) := array.num.parse buffer
    .ok ⟨array.count num, rest, true⟩
  else
    inner array.parser buffer >>= array.store parsed

def loop (parsed : V → Bool) (inner : ValueReader V) : Loop (AMFStrictArray V) BYTE Failure where
  turn := turn parsed inner
  rank array := if array.parser.isSome then 1 else 0
  pace := 2
  stuck _ := .crash

end AMFStrictArray

end Composite

/-! Values. -/

/-- The classes of `AMFData`. No object of `AMFReference` or `AMFTypedObject` outlives the
call that creates it (see `create`).
-/
inductive AMFData
  | number (value : WordParser)
  | boolean (len : Nat) (value : Bool)
  | string (text : SizedText)
  | object (fields : AMFObject AMFData)
  | movieClip
  | null
  | undefined
  | ecmaArray (array : AMFEcmaArray AMFData)
  | strictArray (array : AMFStrictArray AMFData)
  | date (time : AMFDate)
  | longString (text : SizedText)
  | unsupported
  | recordSet
  | xmlDocument (text : SizedText)

namespace AMFData

def isParsed (toolkit : TextToolkit) : AMFData → Bool
  | .number value => value.isParsed
  | .boolean len _ => len ≠ 0
  | .string text => text.isParsed toolkit
  | .object fields => fields.marker
  | .ecmaArray array => array.isParsed
  | .strictArray array => array.isParsed
  | .date time => time.len = 10
  | .longString text => text.isParsed toolkit
  | .xmlDocument text => text.isParsed toolkit
  | .movieClip => true
  | .null => true
  | .undefined => true
  | .unsupported => true
  | .recordSet => true

def getType : AMFData → ValueType
  | .number _ => .number
  | .boolean _ _ => .boolean
  | .string _ => .string
  | .object _ => .object
  | .movieClip => .movieClip
  | .null => .null
  | .undefined => .undefined
  | .ecmaArray _ => .ecmaArray
  | .strictArray _ => .strictArray
  | .date _ => .date
  | .longString _ => .longString
  | .unsupported => .unsupported
  | .recordSet => .recordSet
  | .xmlDocument _ => .xmlDocument

/-- The object that a type marker stands for. `AMFReference::Parse` reads behind the end of
its buffer, and `AMFTypedObject::IsParsed`, which every caller of the parser asks next, calls
itself through its base class: neither comes back.
-/
def create (marker : BYTE) : Except Failure AMFData :=
  match marker with
  | 0x00 => .ok (.number AMFNumber)
  | 0x01 => .ok (.boolean 0 false)
  | 0x02 => .ok (.string AMFString)
  | 0x03 => .ok (.object .new)
  | 0x04 => .ok .movieClip
  | 0x05 => .ok .null
  | 0x06 => .ok .undefined
  | 0x07 => .error .crash
  | 0x08 => .ok (.ecmaArray .new)
  | 0x0A => .ok (.strictArray .new)
  | 0x0B => .ok (.date ⟨0, []⟩)
  | 0x0C => .ok (.longString AMFLongString)
  | 0x0D => .ok .unsupported
  | 0x0E => .ok .recordSet
  | 0x0F => .ok (.xmlDocument AMFString)
  | 0x10 => .error .crash
  | _ => .error .exception

def parseBoolean (len : Nat) (value : Bool) (buffer : List BYTE)
    : Except Failure (AMFData × List BYTE) :=
  match buffer with
  | [] => .ok (.boolean len value, [])
  | byte :: rest => if len ≠ 0 then .error .exception else .ok (.boolean 1 (byte > 0), rest)

end AMFData

def AMFParser.parse (inner : AMFData → List BYTE → Except Failure (AMFData × List BYTE))
    : ValueReader AMFData
  | some object, buffer => inner object buffer
  | none, marker :: rest => do inner (← AMFData.create marker) rest
  | none, [] => .error .crash

/-- `Parse` of the classes of `AMFData`. The values inside of a value are read by calls inside
of its call: `stack` is how many of them the call stack holds.
-/
def AMFData.parse (toolkit : TextToolkit)
    : Nat → AMFData → List BYTE → Except Failure (AMFData × List BYTE)
  | 0, _, _ => .error .crash
  | stack + 1, data, buffer =>
    let inner := AMFParser.parse (AMFData.parse toolkit stack)
    let parsed := AMFData.isParsed toolkit
    match data with
    | .number value => .ok ((value.parse buffer).map .number id)
    | .boolean len value => parseBoolean len value buffer
    | .string text => .ok ((text.parse toolkit buffer).map .string id)
    | .object fields =>
      ((AMFObject.loop toolkit parsed inner).run fields buffer).map
        (fun pass => (.object pass.state, pass.rest))
    | .ecmaArray array =>
      if array.isParsed then .ok (.ecmaArray array, buffer)
      else
        ((AMFEcmaArray.loop toolkit parsed inner).run array buffer).map
          (fun pass => (.ecmaArray pass.state, pass.rest))
    | .strictArray array =>
      ((AMFStrictArray.loop parsed inner).run array buffer).map
        (fun pass => (.strictArray pass.state, pass.rest))
    | .date time => .ok ((time.parse buffer).map .date id)
    | .longString text => .ok ((text.parse toolkit buffer).map .longString id)
    | .xmlDocument text => .ok ((text.parse toolkit buffer).map .xmlDocument id)
    | other => .ok (other, buffer)

end MediaServer.Amf
