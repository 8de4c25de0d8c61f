import MediaServer.Speech.PhraseSplitter

/-! `CorrectionTracker`: what is typed on a line is spoken phrase by phrase, and an erasure of
what was spoken opens a correction.
-/

namespace MediaServer.Speech

structure CorrectionTracker where
  stableMs : Int
  announce : Bool
  announcement : Text := [0x43, 0x6F, 0x72, 0x72, 0x65, 0x63, 0x74, 0x69, 0x6F, 0x6E]
  /-- The line as it is displayed, and how many of its bytes are spoken. -/
  line : Text := []
  said : Nat := 0
  correcting : Bool := false
  /-- Where the phrase begins that is spoken again. -/
  correctionStart : Nat := 0
  lastChangeMs : QWORD := 0

namespace CorrectionTracker

open Text

inductive Action
  | speak (text : Text)
  | stop
deriving DecidableEq

def maxPendingWords : Nat := 5

def isPhraseEnd (c : Text) : Bool :=
  c = [0x2E] ∨ c = [0x3F] ∨ c = [0x21] ∨ c = [0x3A] ∨ c = ellipsis

def isAlnum (byte : BYTE) : Bool :=
  (0x30 ≤ byte ∧ byte ≤ 0x39) ∨ (0x41 ≤ byte ∧ byte ≤ 0x5A) ∨ (0x61 ≤ byte ∧ byte ≤ 0x7A)

/-- Whether a text has a letter or a digit. -/
def hasWords (text : Text) : Bool :=
  (chars text).any (fun c =>
    match c with
    | [byte] => isAlnum byte
    | _ => c ≠ ellipsis)

def countWordsFrom (inWord : Bool) : Text → Nat
  | [] => 0
  | c :: rest =>
    (if !isBlankByte c ∧ !inWord then 1 else 0) + countWordsFrom (!isBlankByte c) rest

def countWords (text : Text) : Nat := countWordsFrom false text

/-- Where the sentence begins that contains a position: behind the last end of a phrase at or
before the position.
-/
def sentenceStartFrom (pos : Nat) : List Text → Nat → Nat → Nat
  | [], _, start => start
  | c :: rest, i, start =>
    if i < pos then
      let next := i + c.length
      sentenceStartFrom pos rest next (if next ≤ pos ∧ isPhraseEnd c then next else start)
    else start

def sentenceStart (line : Text) (pos : Nat) : Nat := sentenceStartFrom pos (chars line) 0 0

variable (tracker : CorrectionTracker)

def speakFrom (start : Nat) : List Action × CorrectionTracker :=
  let phrase := trim (tracker.line.drop start)
  (if hasWords phrase then [.speak phrase] else [], { tracker with said := tracker.line.length })

def finishCorrection : List Action × CorrectionTracker :=
  speakFrom { tracker with correcting := false } tracker.correctionStart

def endLine : List Action × CorrectionTracker :=
  let (actions, after) :=
    if tracker.correcting then tracker.finishCorrection else tracker.speakFrom tracker.said
  (actions, { after with line := [], said := 0 })

/-- An erasure. One that goes back into what was spoken opens a correction. -/
def erase (nowMs : QWORD) : List Action × CorrectionTracker :=
  if tracker.line = [] then ([], tracker)
  else
    let line := eraseLastChar tracker.line
    let (actions, after) : List Action × CorrectionTracker :=
      if line.length < tracker.said then
        let start := sentenceStart line line.length
        let shorter := { tracker with line, said := line.length }
        if !tracker.correcting then
          (.stop :: if tracker.announce then [.speak tracker.announcement] else [],
            { shorter with correcting := true, correctionStart := start })
        else if start < tracker.correctionStart then
          ([], { shorter with correctionStart := start })
        else ([], shorter)
      else ([], { tracker with line })
    (actions, if after.correcting then { after with lastChangeMs := nowMs } else after)

def addChar (nowMs : QWORD) (c : Text) : List Action × CorrectionTracker :=
  if c = [carriageReturn] then ([], tracker)
  else if c = [lineFeed] ∨ c = lineSeparator then tracker.endLine
  else if c = [backspace] then tracker.erase nowMs
  else
    let longer := { tracker with line := tracker.line ++ c }
    if tracker.correcting then ([], { longer with lastChangeMs := nowMs })
    else if isPhraseEnd c then longer.speakFrom tracker.said
    else if (c = [space] ∨ c = [tab])
        ∧ countWords (longer.line.drop tracker.said) > maxPendingWords then
      longer.speakFrom tracker.said
    else ([], longer)

def addChars (nowMs : QWORD)
    : List Text → CorrectionTracker → List Action × CorrectionTracker
  | [], tracker => ([], tracker)
  | c :: rest, tracker =>
    let (actions, after) := tracker.addChar nowMs c
    let (others, last) := addChars nowMs rest after
    (actions ++ others, last)

def add (utf8 : Text) (nowMs : QWORD) : List Action × CorrectionTracker :=
  addChars nowMs (chars utf8) tracker

def tick (nowMs : QWORD) : List Action × CorrectionTracker :=
  if tracker.correcting ∧ nowMs - tracker.lastChangeMs ≥ .ofInt tracker.stableMs then
    tracker.finishCorrection
  else ([], tracker)

end CorrectionTracker

end MediaServer.Speech
